import Proxyshop.Ledger.Canonical
import Proxyshop.Ledger.CanonicalLaws

/-!
# Laws of sealing and verifying
-/

namespace Proxyshop.Ledger

open Python Hashing

theorem compareDigest_true {a b : Str} (h : compareDigest a b = .ok true) : a = b := by
  unfold compareDigest at h
  split at h
  · simpa using h
  · cases h

theorem compareDigest_self {a : Str} (ascii : Str.isAscii a = true) :
    compareDigest a a = .ok true := by
  rw [compareDigest, if_pos ⟨ascii, ascii⟩, beq_self_eq_true]

theorem verifyAnchor_ok {verified : Nat} {head : Str} {n : Int} {h : Str} {allowEmpty : Bool}
    {report : Report} (run : verifyAnchor verified head (some n) (some h) allowEmpty = .ok report)
    (ok : report.ok = true) : (verified : Int) = n ∧ head = h := by
  unfold verifyAnchor at run
  split at run
  · cases run
    cases ok
  · split at run
    · cases run
      cases ok
    · rename_i whole
      obtain ⟨matched, compared, run⟩ := bind_eq_ok.mp run
      split at run
      · rename_i same
        subst same
        exact ⟨by simpa using whole, compareDigest_true compared⟩
      · cases run
        cases ok

section ChainLaws

variable [Unicode]

theorem computeEventHash_ascii {prev : Str} {event : Record} {hash : Str}
    (h : computeEventHash prev event = .ok hash) : Str.isAscii hash = true ∧ hash ≠ [] := by
  obtain ⟨message, -, equal⟩ := bind_eq_ok.mp h
  cases equal
  exact ⟨sha256Hex_isAscii message, sha256Hex_ne_nil message⟩

/-! ## Verified streams -/

theorem verifyEvent_link {prev : Str} {event : Record} {next : Str}
    (h : verifyEvent prev event = .ok (.inr next)) :
    computeEventHash prev event = .ok next ∧ (event.get (str "event_hash")).truthy = true ∧
      (event.get (str "event_hash")).toStr = next := by
  simp only [verifyEvent] at h
  split at h
  · rename_i filled
    obtain ⟨linked, -, h⟩ := bind_eq_ok.mp h
    split at h
    · obtain ⟨matched, compared, h⟩ := bind_eq_ok.mp h
      split at h
      · rename_i same
        subst same
        obtain ⟨digest, computed, equal⟩ := bind_eq_ok.mp compared
        cases h
        exact ⟨by rw [computed, compareDigest_true equal], filled, rfl⟩
      · cases h
    · cases h
  · cases h

theorem verifyLinks_inl {prev : Str} {index : Nat} {events : List Record} {report : Report}
    (h : verifyLinks prev index events = .ok (.inl report)) : report.ok = false := by
  induction events generalizing prev index with
  | nil => cases h
  | cons event events ih =>
      simp only [verifyLinks, bind_eq_ok] at h
      obtain ⟨outcome, -, h⟩ := h
      cases outcome with
      | inl reason =>
          cases h
          rfl
      | inr next => exact ih h

theorem verifyChain_ok {events : List Record} {n : Int} {h : Str} {allowEmpty : Bool} {report : Report}
    (run : verifyChain events (some n) (some h) allowEmpty = .ok report) (ok : report.ok = true) :
    (events.length : Int) = n ∧ verifyLinks genesisHash 0 events = .ok (.inr h) := by
  simp only [verifyChain, bind_eq_ok] at run
  obtain ⟨outcome, links, run⟩ := run
  cases outcome with
  | inl failed =>
      cases run
      rw [verifyLinks_inl links] at ok
      cases ok
  | inr head =>
      obtain ⟨whole, rfl⟩ := verifyAnchor_ok run ok
      exact ⟨whole, links⟩

theorem verifyEvent_of_intact {prev hash : Str} {event : Record}
    (stored : event.get (str "event_hash") = .str hash)
    (linked : event.get (str "prev_hash") = .none ∨ event.get (str "prev_hash") = .str prev)
    (ascii : Str.isAscii prev = true) (computed : computeEventHash prev event = .ok hash) :
    verifyEvent prev event = .ok (.inr hash) := by
  obtain ⟨hashAscii, nonempty⟩ := computeEventHash_ascii computed
  have follow : follows prev event = .ok true := by
    rcases linked with absent | present
    · simp only [follows, absent, Value.isNone_none, if_pos]
    · simp only [follows, present, Value.isNone, Value.toStr_str, compareDigest_self ascii]
      rfl
  have whole : intact prev event hash = .ok true := by
    rw [intact, computed]
    exact compareDigest_self hashAscii
  have filled : (Value.str hash).truthy = true := by
    simp [nonempty]
  simp only [verifyEvent, stored, filled, if_pos, follow, Value.toStr_str]
  simp only [bind, Except.bind, if_pos, whole]
  rfl

theorem verifyLinks_of_ok {events : List Record} {expectedLength : Option Int}
    {expectedHead : Option Str} {allowEmpty : Bool} {report : Report}
    (run : verifyChain events expectedLength expectedHead allowEmpty = .ok report)
    (ok : report.ok = true) : ∃ head, verifyLinks genesisHash 0 events = .ok (.inr head) := by
  obtain ⟨outcome, links, run⟩ := bind_eq_ok.mp run
  cases outcome with
  | inl failed =>
      cases run
      rw [verifyLinks_inl links] at ok
      cases ok
  | inr head => exact ⟨head, links⟩

theorem verifyLinks_append {prev : Str} {index : Nat} {events more : List Record} {head : Str}
    (h : verifyLinks prev index events = .ok (.inr head)) :
    verifyLinks prev index (events ++ more) = verifyLinks head (index + events.length) more := by
  induction events generalizing prev index with
  | nil =>
      cases h
      rfl
  | cons event events ih =>
      obtain ⟨outcome, checked, h⟩ := bind_eq_ok.mp h
      cases outcome with
      | inl reason => cases h
      | inr next =>
          have later := ih h
          rw [List.cons_append, verifyLinks, checked]
          simp only [bind, Except.bind]
          rw [later, List.length_cons, Nat.add_assoc, Nat.add_comm 1]

theorem verifyLinks_last {prev : Str} {index : Nat} {events : List Record} {head : Str}
    (h : verifyLinks prev index events = .ok (.inr head)) :
    (events = [] ∧ head = prev) ∨ ∃ last, events.getLast? = some last ∧
      (last.get (str "event_hash")).truthy = true ∧ (last.get (str "event_hash")).toStr = head := by
  induction events generalizing prev index with
  | nil =>
      cases h
      exact Or.inl ⟨rfl, rfl⟩
  | cons event events ih =>
      obtain ⟨outcome, checked, h⟩ := bind_eq_ok.mp h
      cases outcome with
      | inl reason => cases h
      | inr next =>
          obtain ⟨-, filled, stored⟩ := verifyEvent_link checked
          right
          rcases ih h with ⟨rfl, rfl⟩ | ⟨last, found, rest⟩
          · exact ⟨event, rfl, filled, stored⟩
          · exact ⟨last, by rw [List.getLast?_cons, found]; rfl, rest⟩

theorem chainHead_of_verified {events : List Record} {head : Str}
    (h : verifyLinks genesisHash 0 events = .ok (.inr head)) : chainHead events = .ok head := by
  rcases verifyLinks_last h with ⟨rfl, rfl⟩ | ⟨last, found, filled, rfl⟩
  · rfl
  · simp only [chainHead, found, filled, if_pos]

theorem ascii_of_verified {prev : Str} {index : Nat} {events : List Record} {head : Str}
    (ascii : Str.isAscii prev = true) (h : verifyLinks prev index events = .ok (.inr head)) :
    Str.isAscii head = true := by
  induction events generalizing prev index with
  | nil =>
      cases h
      exact ascii
  | cons event events ih =>
      obtain ⟨outcome, checked, h⟩ := bind_eq_ok.mp h
      cases outcome with
      | inl reason => cases h
      | inr next => exact ih (computeEventHash_ascii (verifyEvent_link checked).1).1 h

theorem canonicalText_of_computed {prev : Str} {event : Record} {hash : Str}
    (h : computeEventHash prev event = .ok hash) : ∃ text, canonicalText event = .ok text := by
  obtain ⟨message, hashed, -⟩ := bind_eq_ok.mp h
  unfold hashMessage at hashed
  split at hashed
  · cases hashed
  · obtain ⟨body, canonical, hashed⟩ := bind_eq_ok.mp hashed
    obtain ⟨bytes, encoded, -⟩ := bind_eq_ok.mp hashed
    obtain ⟨text, serialised, -⟩ := bind_eq_ok.mp encoded
    exact ⟨text, bind_eq_ok.mpr ⟨body, canonical, serialised⟩⟩

theorem canonicalText_of_verified {prev : Str} {index : Nat} {events : List Record} {head : Str}
    (h : verifyLinks prev index events = .ok (.inr head)) :
    ∀ event ∈ events, ∃ text, canonicalText event = .ok text := by
  induction events generalizing prev index with
  | nil => exact nofun
  | cons event events ih =>
      obtain ⟨outcome, checked, h⟩ := bind_eq_ok.mp h
      cases outcome with
      | inl reason => cases h
      | inr next =>
          intro other member
          rcases List.mem_cons.mp member with rfl | later
          · exact canonicalText_of_computed (verifyEvent_link checked).1
          · exact ih h other later

/-! ## Sealing -/

theorem sealEvent_eq_ok {event row : Record} {prev : Str} (h : sealEvent event prev = .ok row) :
    ∃ hash, computeEventHash prev event = .ok hash ∧ row =
      Dict.set (Dict.set event (str "prev_hash") (.str prev)) (str "event_hash") (.str hash) := by
  obtain ⟨hash, computed, equal⟩ := bind_eq_ok.mp h
  cases equal
  exact ⟨hash, computed, rfl⟩

theorem canonicalEvent_of_sealed {event row : Record} {prev : Str} (h : sealEvent event prev = .ok row) :
    ∃ body, canonicalEvent event = .ok body := by
  obtain ⟨hash, computed, -⟩ := sealEvent_eq_ok h
  obtain ⟨message, read, -⟩ := bind_eq_ok.mp computed
  unfold hashMessage at read
  split at read
  · cases read
  · obtain ⟨body, canonical, -⟩ := bind_eq_ok.mp read
    exact ⟨body, canonical⟩

theorem verifyEvent_sealed {event row : Record} {prev : Str} (ascii : Str.isAscii prev = true)
    (h : sealEvent event prev = .ok row) :
    ∃ hash, row.get (str "event_hash") = .str hash ∧ verifyEvent prev row = .ok (.inr hash) := by
  obtain ⟨hash, computed, rfl⟩ := sealEvent_eq_ok h
  have stored := Record.get_set_self (Dict.set event (str "prev_hash") (.str prev))
    (str "event_hash") (.str hash)
  refine ⟨hash, stored, verifyEvent_of_intact stored (Or.inr ?_) ascii ?_⟩
  · rw [Record.get_set_ne _ _ (by decide), Record.get_set_self]
  · rw [computeEventHash_set (by decide), computeEventHash_set (by decide), computed]

theorem verifyEvent_set {k : Str} (chain : k ∈ chainFields) (hash : str "event_hash" ≠ k)
    (prevHash : str "prev_hash" ≠ k) (prev : Str) (row : Record) (v : Value) :
    verifyEvent prev (Dict.set row k v) = verifyEvent prev row := by
  simp only [verifyEvent, follows, intact, Record.get_set_ne _ _ hash, Record.get_set_ne _ _ prevHash,
    computeEventHash_set chain]

theorem verifyLinks_chainEvents {prev : Str} (index : Nat) {events rows : List Record}
    (ascii : Str.isAscii prev = true) (h : chainEvents prev events = .ok rows) :
    ∃ head, verifyLinks prev index rows = .ok (.inr head) := by
  induction events generalizing prev index rows with
  | nil =>
      cases h
      exact ⟨prev, rfl⟩
  | cons event events ih =>
      obtain ⟨row, sealing, h⟩ := bind_eq_ok.mp h
      obtain ⟨rest, later, h⟩ := bind_eq_ok.mp h
      cases h
      obtain ⟨hash, stored, checked⟩ := verifyEvent_sealed ascii sealing
      rw [stored, Value.toStr_str] at later
      obtain ⟨head, links⟩ := ih (index + 1) (computeEventHash_ascii (verifyEvent_link checked).1).1 later
      exact ⟨head, by rw [verifyLinks, checked]; exact links⟩

theorem chainEvents_ok (prev : Str) (events : List Record) (ascii : Str.isAscii prev = true)
    (canonical : ∀ event ∈ events, ∃ bytes,
      (canonicalEvent event >>= fun body => canonicalBytes (.dict body)) = .ok bytes) :
    ∃ rows, chainEvents prev events = .ok rows := by
  induction events generalizing prev with
  | nil => exact ⟨[], rfl⟩
  | cons event events ih =>
      obtain ⟨bytes, serialised⟩ := canonical event List.mem_cons_self
      obtain ⟨body, made, encoded⟩ := bind_eq_ok.mp serialised
      have link : ∃ a, prev.encodeAscii = some a := ⟨_, if_pos ascii⟩
      obtain ⟨a, linkBytes⟩ := link
      have hashed : hashMessage prev event = .ok (a ++ bytes) := by
        rw [hashMessage, linkBytes, made]
        simp only [bind, Except.bind, encoded]
        rfl
      have computed : computeEventHash prev event = .ok (sha256Hex (a ++ bytes)) := by
        rw [computeEventHash, hashed]
        rfl
      obtain ⟨rest, later⟩ := ih _ (computeEventHash_ascii computed).1
        fun other member => canonical other (List.mem_cons_of_mem _ member)
      refine ⟨_, bind_eq_ok.mpr ⟨_, bind_eq_ok.mpr ⟨_, computed, rfl⟩, bind_eq_ok.mpr ⟨rest, ?_, rfl⟩⟩⟩
      rw [Record.get_set_self, Value.toStr_str, later]

theorem streamHash_of_verified {prev : Str} {index : Nat} {events : List Record} {head : Str}
    (h : verifyLinks prev index events = .ok (.inr head)) :
    events.foldlM (fun prev event => computeEventHash prev event) prev = .ok head := by
  induction events generalizing prev index with
  | nil =>
      cases h
      rfl
  | cons event events ih =>
      obtain ⟨outcome, checked, h⟩ := bind_eq_ok.mp h
      cases outcome with
      | inl reason => cases h
      | inr next =>
          rw [List.foldlM_cons, (verifyEvent_link checked).1]
          exact ih h

end ChainLaws

def firstEvent : Record :=
  [(str "event_id", .str (str "e-1")), (str "kind", .str (str "shown")),
    (str "ts", .str (str "2026-01-01T00:00:00.000Z"))]

theorem firstEvent_canonical : letI := Unicode.ascii
    ∃ bytes, (canonicalEvent firstEvent >>= fun body => canonicalBytes (.dict body)) = .ok bytes := by
  let tables : Unicode := Unicode.ascii
  have readable :
      (canonicalEvent firstEvent >>= fun body => canonicalBytes (.dict body)).toOption.isSome = true := by
    decide +kernel
  revert readable
  cases canonicalEvent firstEvent >>= fun body => canonicalBytes (.dict body) with
  | error e => exact nofun
  | ok bytes => exact fun _ => ⟨bytes, rfl⟩

end Proxyshop.Ledger
