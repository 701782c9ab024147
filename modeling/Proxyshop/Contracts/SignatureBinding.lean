import Mathlib.Tactic.NormNum
import Proxyshop.Contracts.SignedBytes

/-!
# What a signature binds

Each field of a submission is covered on its own or through the hash of the body, the signature
excepted.
-/

namespace Proxyshop.Contracts

open Python Numbers Structures Hashing

def unsigned : Json Numeral → Json Numeral
  | .object members => .object (Dict.erase members (str "signature"))
  | v => v

theorem encode_eq_ok {text : Str} {bytes : List UInt8} :
    encode text = .ok bytes ↔ text.encodeUtf8 = some bytes := by
  unfold encode
  cases text.encodeUtf8 <;> simp

theorem bodyMessage_eq_ok {members : Dict Str (Json Numeral)} {message : List UInt8} :
    bodyMessage (.object members) = .ok message ↔
      ∃ text, canonicalJson (.object (body members)) = .ok text ∧ text.encodeUtf8 = some message := by
  rw [bodyMessage, bind_eq_ok]
  simp only [encode_eq_ok]

theorem get?_body (members : Dict Str (Json Numeral)) (key : Str) : Dict.get? (body members) key =
    if key ∈ nonBodyKeys then none else Dict.get? members key := by
  rw [body, Dict.get?_filter (fun key => decide (key ∉ nonBodyKeys))]
  by_cases excluded : key ∈ nonBodyKeys <;> simp [excluded]

theorem get?_unsigned (members : Dict Str (Json Numeral)) (key : Str) :
    Dict.get? (Dict.erase members (str "signature")) key =
      if key = str "signature" then none else Dict.get? members key := by
  rw [Dict.erase, Dict.get?_filter (fun key => decide (key ≠ str "signature"))]
  by_cases excluded : key = str "signature" <;> simp [excluded]

theorem get?_covered (payload : Json Numeral) (hash key : Str) :
    Dict.get? (covered payload hash) key = if key ∈ signedFields then some (payload.get key)
      else if key = str "payload_hash" then some (.string hash) else none := by
  rw [covered, Dict.get?_append, Dict.get?_tabulate]
  split
  · rfl
  · rw [Option.none_or, Dict.get?_cons, Dict.get?_nil]
    simp only [eq_comm]

theorem keyed_filter {members : Dict Str (Json Numeral)} (keyed : Json.Keyed (.object members))
    (p : Str × Json Numeral → Bool) : Json.Keyed (.object (members.filter p)) := by
  refine .object ?_ ?_
  · exact keyed.distinct.sublist (List.filter_sublist.map _)
  · intro e member
    exact keyed.member (List.mem_of_mem_filter member)

theorem keyed_covered {payload : Json Numeral} (keyed : payload.Keyed) (hash : Str) :
    Json.Keyed (.object (covered payload hash)) := by
  refine .object ?_ ?_
  · have keys : Dict.keys (covered payload hash) = signedFields ++ [str "payload_hash"] := by
      rw [Dict.keys, covered, List.map_append, List.map_map]
      rfl
    rw [keys]
    decide
  · intro e member
    rcases List.mem_append.mp member with field | hash
    · obtain ⟨name, _, rfl⟩ := List.mem_map.mp field
      exact keyed.get name
    · rw [List.mem_singleton.mp hash]
      exact .string _

inductive Signed (payload : Json Numeral) (bytes : List UInt8) : Prop
  | intro (members : Dict Str (Json Numeral)) (message : List UInt8) (bodyText text : Str) :
      payload = .object members →
      (∀ field ∈ requiredSigningFields, (Dict.get? members field).isSome = true) →
      bodyMessage payload = .ok message →
      canonicalJson (.object (body members)) = .ok bodyText →
      bodyText.encodeUtf8 = some message →
      canonicalJson (.object (covered payload (str "sha256:" ++ sha256Hex message))) = .ok text →
      text.encodeUtf8 = some bytes → Signed payload bytes

theorem signed {payload : Json Numeral} {bytes : List UInt8}
    (h : canonicalSigningBytes payload = .ok bytes) : Signed payload bytes := by
  unfold canonicalSigningBytes at h
  split at h
  · rename_i members
    dsimp only at h
    split at h
    · cases h
    · rename_i complete
      split at h
      · cases h
      · obtain ⟨hash, digest, h⟩ := bind_eq_ok.mp h
        obtain ⟨text, canonical, encoded⟩ := bind_eq_ok.mp h
        obtain ⟨message, hashed, spelled⟩ := bind_eq_ok.mp digest
        cases spelled
        obtain ⟨bodyText, canonicalBody, encodedBody⟩ := bodyMessage_eq_ok.mp hashed
        refine .intro members message bodyText text rfl ?_ hashed canonicalBody
          encodedBody canonical (encode_eq_ok.mp encoded)
        intro field required
        rw [ne_eq, not_not, missingSigningFields, List.filter_eq_nil_iff] at complete
        have stated := complete field required
        rw [isMissing, Json.get_object] at stated
        cases found : Dict.get? members field with
        | some _ => rfl
        | none =>
            rw [found] at stated
            exact absurd rfl stated
  · cases h

theorem excluded_covered : ∀ key ∈ nonBodyKeys, key ≠ str "signature" →
    key ∈ requiredSigningFields ∧ key ∈ signedFields := by decide

theorem signedFields_unsigned : ∀ key ∈ signedFields, key ≠ str "signature" := by decide

section Binding

variable {p q : Dict Str (Json Numeral)}

theorem body_related (same : Json.Same SameNumber (unsigned (.object p)) (unsigned (.object q))) :
    Json.Same SameNumber (.object (body p)) (.object (body q)) := by
  rw [unsigned, unsigned, Json.same_object_iff] at same
  rw [Json.same_object_iff]
  intro key
  have each := same key
  rw [get?_unsigned, get?_unsigned] at each
  rw [get?_body, get?_body]
  by_cases excluded : key ∈ nonBodyKeys
  · rw [if_pos excluded, if_pos excluded]
    exact .none
  · have other : key ≠ str "signature" := by
      rintro rfl
      exact excluded (by decide)
    rw [if_neg other, if_neg other] at each
    rw [if_neg excluded, if_neg excluded]
    exact each

theorem covered_related (same : Json.Same SameNumber (unsigned (.object p)) (unsigned (.object q)))
    (hash : Str) : Json.Same SameNumber (.object (covered (.object p) hash))
      (.object (covered (.object q) hash)) := by
  have unsignedGet {members : Dict Str (Json Numeral)} {key : Str} (field : key ∈ signedFields) :
      (unsigned (.object members)).get key = (Json.object members).get key := by
    rw [unsigned, Json.get_object, Json.get_object, get?_unsigned,
      if_neg (signedFields_unsigned key field)]
  rw [Json.same_object_iff]
  intro key
  rw [get?_covered, get?_covered]
  split
  · rename_i field
    rw [← unsignedGet field, ← unsignedGet field]
    exact .some (same.get key)
  · split
    · exact .some (.string hash)
    · exact .none

theorem unsigned_related (complete : ∀ field ∈ requiredSigningFields, (Dict.get? p field).isSome = true)
    (complete' : ∀ field ∈ requiredSigningFields, (Dict.get? q field).isSome = true) {hash hash' : Str}
    (fields : Json.Same SameNumber (.object (covered (.object p) hash))
      (.object (covered (.object q) hash')))
    (bodies : Json.Same SameNumber (.object (body p)) (.object (body q))) :
    Json.Same SameNumber (unsigned (.object p)) (unsigned (.object q)) := by
  rw [unsigned, unsigned, Json.same_object_iff]
  intro key
  rw [get?_unsigned, get?_unsigned]
  by_cases signature : key = str "signature"
  · rw [if_pos signature, if_pos signature]
    exact .none
  · rw [if_neg signature, if_neg signature]
    by_cases excluded : key ∈ nonBodyKeys
    · obtain ⟨required, covered⟩ := excluded_covered key excluded signature
      have each := Json.same_object_iff.mp fields key
      rw [get?_covered, get?_covered, if_pos covered, if_pos covered, Json.get_object,
        Json.get_object] at each
      obtain ⟨v, left⟩ := Option.isSome_iff_exists.mp (complete key required)
      obtain ⟨w, right⟩ := Option.isSome_iff_exists.mp (complete' key required)
      rw [left, right] at each ⊢
      exact each
    · have each := Json.same_object_iff.mp bodies key
      rwa [get?_body, get?_body, if_neg excluded, if_neg excluded] at each

theorem hash_related {hash hash' : Str} (fields : Json.Same SameNumber
    (.object (covered (.object p) hash)) (.object (covered (.object q) hash'))) : hash = hash' := by
  have each := Json.same_object_iff.mp fields (str "payload_hash")
  have apart : str "payload_hash" ∉ signedFields := by decide
  rw [get?_covered, get?_covered, if_neg apart, if_neg apart, if_pos rfl, if_pos rfl] at each
  cases each with
  | some same =>
      cases same
      rfl

end Binding

/-- Where the hash has no collision on the two bodies, two submissions have the same bytes exactly
when they are equal but for the signature. -/
theorem canonicalSigningBytes_eq_iff {p q : Document Numeral} {bytes bytes' : List UInt8}
    (hp : canonicalSigningBytes p.value = .ok bytes) (hq : canonicalSigningBytes q.value = .ok bytes')
    (injective : Set.InjOn sha256
      {message | bodyMessage p.value = .ok message ∨ bodyMessage q.value = .ok message}) :
    bytes = bytes' ↔ Json.Same SameNumber (unsigned p.value) (unsigned q.value) := by
  obtain ⟨p, keyed⟩ := p
  obtain ⟨q, keyed'⟩ := q
  dsimp only at hp hq injective ⊢
  obtain ⟨p, message, bodyText, text, rfl, complete, hashed, canonicalBody, encodedBody, canonical,
    encoded⟩ := signed hp
  obtain ⟨q, message', bodyText', text', rfl, complete', hashed', canonicalBody', encodedBody',
    canonical', encoded'⟩ := signed hq
  constructor
  · rintro rfl
    obtain rfl := Str.encodeUtf8_inj encoded encoded'
    have fields := same_of_canonicalJson (keyed_covered keyed _) (keyed_covered keyed' _) canonical
      canonical'
    have digests := sha256Hex_injOn injective (Or.inl hashed) (Or.inr hashed')
      (List.append_cancel_left (hash_related fields))
    subst digests
    obtain rfl := Str.encodeUtf8_inj encodedBody encodedBody'
    have bodies := same_of_canonicalJson (keyed_filter keyed _) (keyed_filter keyed' _) canonicalBody
      canonicalBody'
    exact unsigned_related complete complete' fields bodies
  · intro same
    have bodies := canonicalJson_congr (body_related same) (keyed_filter keyed _)
      (keyed_filter keyed' _) canonicalBody canonicalBody'
    rw [bodies, encodedBody'] at encodedBody
    obtain rfl := Option.some.inj encodedBody
    have texts := canonicalJson_congr (covered_related same _) (keyed_covered keyed _)
      (keyed_covered keyed' _) canonical canonical'
    rw [texts, encoded'] at encoded
    exact (Option.some.inj encoded).symm

/-! ## One submission, written twice -/

def signedOffer (unitPrice : Numeral) : Json Numeral :=
  .object [(str "unit_price", .number unitPrice)]

def envelope : Dict Str (Json Numeral) := signedFields.map fun field => (field, .string (str "x"))

def submission : Document Numeral where
  value := .object (envelope ++ [(str "offer", signedOffer (.int 89))])
  keyed := by
    refine .object (by decide) ?_
    simp only [envelope, signedFields, List.map_cons, List.map_nil, List.cons_append, List.nil_append,
      List.forall_mem_cons]
    refine ⟨.string _, .string _, .string _, .string _, .string _, .string _, .string _, ?_, nofun⟩
    exact .object (by decide) (List.forall_mem_cons.mpr ⟨.number _, nofun⟩)

def eightyNine : Binary64 := ⟨89, 89, 0, by norm_num, by norm_num, by norm_num, by
  rw [abs_of_pos (by norm_num)]
  exact lt_of_lt_of_le (show (89 : ℚ) < 2 ^ 7 by norm_num) (pow_le_pow_right₀ (by norm_num) (by norm_num))⟩

/-- The members in another order, the price as a float, and a signature. -/
def resubmission : Document Numeral where
  value := .object ((str "offer", signedOffer (.float (.finite eightyNine))) ::
    (str "signature", .string (str "x")) :: envelope)
  keyed := by
    refine .object (by decide) ?_
    simp only [envelope, signedFields, List.map_cons, List.map_nil, List.forall_mem_cons]
    refine ⟨.object (by decide) (List.forall_mem_cons.mpr ⟨.number _, nofun⟩), .string _, .string _,
      .string _, .string _, .string _, .string _, .string _, .string _, nofun⟩

theorem resubmission_same : Json.Same SameNumber (unsigned submission.value)
    (unsigned resubmission.value) := by
  have bodies : bodyMessage submission.value = bodyMessage resubmission.value := by decide +kernel
  obtain ⟨signs, same⟩ : (canonicalSigningBytes submission.value).isOk = true ∧
      canonicalSigningBytes submission.value = canonicalSigningBytes resubmission.value := by
    decide +kernel
  cases written : canonicalSigningBytes submission.value with
  | error e =>
      rw [written] at signs
      cases signs
  | ok bytes =>
      apply (canonicalSigningBytes_eq_iff written (same ▸ written) ?_).mp rfl
      intro m hm n hn _
      rw [Set.mem_ofPred_eq, ← bodies, or_self] at hm hn
      exact Except.ok.inj (hm.symm.trans hn)

end Proxyshop.Contracts
