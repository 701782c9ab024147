import Proxyshop.Ledger.ChainLaws
import Proxyshop.Hashing.Sha256

/-!
# What an anchored stream commits to
-/

namespace Proxyshop.Ledger

open Python Hashing

/-! ## The message determines the link and the body -/

structure Encodes (p : Str × Str) (message : List UInt8) : Prop where
  width : p.1.length = 64
  bytes : ∃ a b, p.1.encodeAscii = some a ∧ p.2.encodeUtf8 = some b ∧ message = a ++ b

theorem Encodes.inj {p q : Str × Str} {message : List UInt8} (hp : Encodes p message)
    (hq : Encodes q message) : p = q := by
  obtain ⟨a, b, linkP, bodyP, rfl⟩ := hp.bytes
  obtain ⟨c, d, linkQ, bodyQ, equal⟩ := hq.bytes
  have widths : a.length = c.length := by
    rw [Str.encodeAscii_length linkP, Str.encodeAscii_length linkQ, hp.width, hq.width]
  obtain ⟨rfl, rfl⟩ := List.append_inj equal widths
  exact Prod.ext (Str.encodeAscii_inj linkP linkQ) (Str.encodeUtf8_inj bodyP bodyQ)

def link (prev body : Str) : Str :=
  sha256Hex ((Str.encodeAscii prev).getD [] ++ (Str.encodeUtf8 body).getD [])

theorem Encodes.link_eq {prev body : Str} {message : List UInt8} (h : Encodes (prev, body) message) :
    link prev body = sha256Hex message := by
  obtain ⟨a, b, linkBytes, bodyBytes, rfl⟩ := h.bytes
  rw [link, linkBytes, bodyBytes]
  rfl

section Commitment

variable [Unicode]

theorem hashMessage_encodes {prev : Str} {event : Record} {message : List UInt8}
    (width : prev.length = 64) (h : hashMessage prev event = .ok message) :
    ∃ body, canonicalText event = .ok body ∧ Encodes (prev, body) message := by
  unfold hashMessage at h
  split at h
  · cases h
  · rename_i a ascii
    simp only [bind_eq_ok, canonicalBytes, pure, Except.pure, Except.ok.injEq] at h
    obtain ⟨record, canonical, bytes, ⟨text, serialised, encoded⟩, rfl⟩ := h
    split at encoded
    · rename_i utf8 body
      cases encoded
      exact ⟨text, bind_eq_ok.mpr ⟨record, canonical, serialised⟩, width, a, bytes, ascii, body, rfl⟩
    · cases encoded

/-! ## What a verified run says -/

/-- The messages `verify_chain` hashes while every event checks out. -/
def hashedMessages (prev : Str) : List Record → List (List UInt8)
  | [] => []
  | event :: events =>
      (hashMessage prev event).toOption.toList ++
        hashedMessages (event.get (str "event_hash")).toStr events

theorem verifyLinks_chain {prev : Str} {index : Nat} {events : List Record} {head : Str}
    (width : prev.length = 64) (h : verifyLinks prev index events = .ok (.inr head)) :
    ∃ bodies : List Str, events.map canonicalText = bodies.map .ok ∧ headOf link prev bodies = head ∧
      ∀ p ∈ inputsOf link prev bodies, ∃ m ∈ hashedMessages prev events, Encodes p m := by
  induction events generalizing prev index with
  | nil =>
      cases h
      exact ⟨[], rfl, rfl, nofun⟩
  | cons event events ih =>
      simp only [verifyLinks, bind_eq_ok] at h
      obtain ⟨outcome, checked, h⟩ := h
      cases outcome with
      | inl reason => cases h
      | inr next =>
          obtain ⟨computed, -, stored⟩ := verifyEvent_link checked
          simp only [computeEventHash, bind_eq_ok, pure, Except.pure, Except.ok.injEq] at computed
          obtain ⟨message, hashed, rfl⟩ := computed
          obtain ⟨body, text, encodes⟩ := hashMessage_encodes width hashed
          obtain ⟨bodies, texts, head_eq, inputs⟩ := ih (sha256Hex_length message) h
          refine ⟨body :: bodies, ?_, ?_, ?_⟩
          · rw [List.map_cons, List.map_cons, text, texts]
          · rw [← head_eq, ← encodes.link_eq]
            rfl
          · intro p member
            rw [inputsOf, List.mem_cons] at member
            rcases member with rfl | later
            · refine ⟨message, ?_, encodes⟩
              simp [hashedMessages, hashed, Except.toOption]
            · rw [encodes.link_eq] at later
              obtain ⟨m, inRun, encodesLater⟩ := inputs p later
              exact ⟨m, by rw [hashedMessages, stored]; exact List.mem_append_right _ inRun, encodesLater⟩

/-- Two streams that verify against one anchor carry the same events, position by position. -/
theorem anchor_determines_stream {es fs : List Record} {n : Int} {h : Str} {a b : Bool}
    {left right : Report}
    (injective : Set.InjOn sha256
      {m | m ∈ hashedMessages genesisHash es ∨ m ∈ hashedMessages genesisHash fs})
    (runLeft : verifyChain es (some n) (some h) a = .ok left) (okLeft : left.ok = true)
    (runRight : verifyChain fs (some n) (some h) b = .ok right) (okRight : right.ok = true) :
    es.length = fs.length ∧
      ∃ texts : List Str, es.map canonicalText = texts.map .ok ∧ fs.map canonicalText = texts.map .ok := by
  obtain ⟨wholeLeft, linksLeft⟩ := verifyChain_ok runLeft okLeft
  obtain ⟨wholeRight, linksRight⟩ := verifyChain_ok runRight okRight
  have lengths : es.length = fs.length := by omega
  obtain ⟨xs, textsLeft, headLeft, inputsLeft⟩ := verifyLinks_chain rfl linksLeft
  obtain ⟨ys, textsRight, headRight, inputsRight⟩ := verifyLinks_chain rfl linksRight
  have sameLength : xs.length = ys.length := by
    have left := congrArg List.length textsLeft
    have right := congrArg List.length textsRight
    simp only [List.length_map] at left right
    omega
  have same : xs = ys := by
    apply chain_determined link genesisHash sameLength
    · intro p inLeft q inRight links
      obtain ⟨m, memberP, encodesP⟩ := inputsLeft p inLeft
      obtain ⟨m', memberQ, encodesQ⟩ := inputsRight q inRight
      rw [encodesP.link_eq, encodesQ.link_eq] at links
      have messages := sha256Hex_injOn injective (Or.inl memberP) (Or.inr memberQ) links
      subst messages
      exact encodesP.inj encodesQ
    · rw [headLeft, headRight]
  exact ⟨lengths, xs, textsLeft, by rw [textsRight, same]⟩

theorem verifyChain_singleton {event : Record} {hash : Str}
    (stored : event.get (str "event_hash") = .str hash)
    (linked : event.get (str "prev_hash") = .none ∨ event.get (str "prev_hash") = .str genesisHash)
    (computed : computeEventHash genesisHash event = .ok hash) :
    verifyChain [event] (some 1) (some hash) false = .ok ⟨true, none, none, hash, 1⟩ := by
  have checked := verifyEvent_of_intact stored linked (by decide) computed
  have links : verifyLinks genesisHash 0 [event] = .ok (.inr hash) := by
    rw [verifyLinks, checked]
    rfl
  have matched := compareDigest_self (computeEventHash_ascii computed).1
  rw [verifyChain, links]
  simp [bind, Except.bind, verifyAnchor, matched, pure, Except.pure]

end Commitment

theorem anchor_determines_stream_without_link :
    letI := Unicode.ascii
    ∃ hash : Str,
      let linked := Dict.set (Dict.set firstEvent (str "prev_hash") (.str genesisHash))
        (str "event_hash") (.str hash)
      let bare := Dict.set firstEvent (str "event_hash") (.str hash)
      [linked].length = [bare].length ∧ ∃ texts : List Str,
        [linked].map canonicalText = texts.map .ok ∧ [bare].map canonicalText = texts.map .ok := by
  let tables : Unicode := Unicode.ascii
  have readable : (hashMessage genesisHash firstEvent).toOption.isSome = true := by
    decide +kernel
  cases hashed : hashMessage genesisHash firstEvent with
  | error e =>
      rw [hashed] at readable
      cases readable
  | ok message =>
      have computed : computeEventHash genesisHash firstEvent = .ok (sha256Hex message) := by
        rw [computeEventHash, hashed]
        rfl
      refine ⟨sha256Hex message, anchor_determines_stream (n := 1) (h := sha256Hex message) ?_
        (verifyChain_singleton ?_ (Or.inr ?_) ?_) rfl (verifyChain_singleton ?_ (Or.inl ?_) ?_) rfl⟩
      · intro m left m' right _
        simp only [hashedMessages, List.append_nil, hashMessage_set (k := str "event_hash") (by decide),
          hashMessage_set (k := str "prev_hash") (by decide), hashed, or_self] at left right
        have same {m : List UInt8} (h : m ∈ (Except.ok message : Except Error (List UInt8)).toOption.toList) :
            m = message := by simpa [Except.toOption] using h
        rw [same left, same right]
      · exact Record.get_set_self _ _ _
      · rw [Record.get_set_ne _ _ (by decide), Record.get_set_self]
      · rw [computeEventHash_set (by decide), computeEventHash_set (by decide), computed]
      · exact Record.get_set_self _ _ _
      · rw [Record.get_set_ne _ _ (by decide)]
        rfl
      · rw [computeEventHash_set (by decide), computed]

end Proxyshop.Ledger
