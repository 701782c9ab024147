import Mathlib.Algebra.Order.BigOperators.GroupWithZero.List
import Proxyshop.Ranking.Appended
import Proxyshop.Ranking.Features

/-!
# Verified evidence

What the attested claims of a candidate are worth about what the buyer asked, in exact arithmetic.
-/

namespace Proxyshop.Ranking

open Python Numbers Contracts Structures Verification

/-! ## Relevance -/

/-- `RELEVANCE_TIERS`. -/
inductive Tier
  | hardConstraint
  | preference
  | queryTerm
  | termScoredAsk
  deriving DecidableEq

/-- `EVIDENCE_GAIN_BY_RELEVANCE`. -/
def Tier.gain : Tier → ℚ
  | hardConstraint => 70 / 100
  | preference => 60 / 100
  | queryTerm => 55 / 100
  | termScoredAsk => 55 / 100

def dash : CodePoint := CodePoint.ofChar '-'

def isFieldChar (c : CodePoint) : Bool := (48 ≤ c.val && c.val ≤ 57) || (97 ≤ c.val && c.val ≤ 122)

/-- `_NON_FIELD_CHARS.sub("-", s)`, after such a character or not. -/
def dashed : Bool → Str → Str
  | _, [] => []
  | afterOther, c :: s =>
      if isFieldChar c then c :: dashed false s
      else if afterOther then dashed true s
      else dash :: dashed true s

def preferenceFieldTerms : Dict Str Str :=
  [("price", "price_value"), ("price-usd", "price_value"), ("unit-price", "price_value"),
    ("total-price", "price_value"), ("list-price", "price_value"), ("cost", "price_value"),
    ("discount", "price_value"), ("discount-pct", "price_value"), ("delivery", "delivery_fit"),
    ("delivery-days", "delivery_fit"), ("delivery-estimate-days", "delivery_fit"),
    ("shipping", "delivery_fit"), ("shipping-days", "delivery_fit"), ("shipping-speed", "delivery_fit"),
    ("trust", "trust"), ("trust-score", "trust")].map fun entry => (str entry.1, str entry.2)

def minQueryToken : Nat := 3

def queryStopwords : List Str :=
  ["and", "any", "are", "but", "can", "for", "from", "has", "have", "its", "not", "one", "our", "some",
    "than", "that", "the", "them", "they", "this", "under", "was", "what", "which", "with", "you",
    "your"].map str

structure IntentSurface where
  tiers : Dict Str Tier
  queryTokens : List Str
  scoredAxes : Dict Str Str

section Relevance

variable [Unicode]

/-- `canonical_field` of a text. -/
def canonicalField (field : Str) : Str :=
  ((dashed false (Unicode.lower field)).dropWhile (· = dash)).rdropWhile (· = dash)

/-- `preference_term_conflict`. -/
def preferenceTermConflict (field : Str) : Option Str :=
  Dict.get? preferenceFieldTerms (canonicalField field)

/-- `_query_tokens_of`. -/
def queryTokensOf (text : Str) : List Str :=
  ((canonicalField text).splitOnP (· = dash)).filter fun token =>
    minQueryToken ≤ token.length && token ∉ queryStopwords &&
      !token.all fun c => 48 ≤ c.val && c.val ≤ 57

namespace IntentSurface

def tierOf (asked : IntentSurface) (field : Str) : Option Tier :=
  if field.isEmpty then none
  else
    match Dict.get? asked.tiers field with
    | some tier => some tier
    | none =>
        if (queryTokensOf field).any (· ∈ asked.queryTokens) then some .queryTerm
        else
          match preferenceTermConflict field with
          | some axis => if Dict.contains asked.scoredAxes axis then some .termScoredAsk else none
          | none => none

variable [Spelling Binary64]

/-- `IntentSurface.relevance`, which reads the key only. -/
def relevance (asked : IntentSurface) (key : Value) : Except PyError (Option Tier) :=
  if key.isNull then .ok (asked.tierOf [])
  else do return asked.tierOf (canonicalField (← textOf key))

end IntentSurface

end Relevance

/-! ## The evidence -/

/-- `diminishing_evidence`. -/
def diminishingEvidence (gains : List ℚ) : ℚ :=
  1 - gains.foldl (fun remaining gain => if gain ≤ 0 then remaining else remaining * (1 - min gain 1)) 1

def verifiedClaimRatioWhenAbsent : ℚ := 1 / 2

/-- The feature of claims that are skipped, decided against, or worth a gain. -/
def ratioOf (grades : List (Option (Option ℚ))) : Option ℚ :=
  let decided := grades.reduceOption
  if decided.isEmpty then none else some (clamp01 (diminishingEvidence decided.reduceOption))

section Evidence

variable [Spelling Binary64] [Sealing]

/-- The verdict that the exchange attested on a claim of the store. -/
def verdictRead (storeId : Str) (claim : Value) : Except PyError (Option Str) :=
  attestedStatus (claim.get attestationField) (claim.get (str "key")) (claim.get (str "value"))
    (claim.get (str "unit")) (.string storeId)

variable [Unicode]

def IntentSurface.grade (asked : IntentSurface) (storeId : Str) (claim : Value) :
    Except PyError (Option (Option ℚ)) := do
  match ← asked.relevance (claim.get (str "key")) with
  | none => return none
  | some tier =>
      let text := (← verdictRead storeId claim).getD (str "None")
      if text = Status.ambiguous.name then return none
      else if text = Status.verified.name then return some (some tier.gain)
      else return some none

/-- `verified_claim_ratio`. -/
def verifiedClaimRatio (claims : List Value) (storeId : Str) (asked : IntentSurface) :
    Except PyError (Option ℚ) := do
  return ratioOf (← claims.mapM (asked.grade storeId))

end Evidence

/-! ## The laws of the feature -/

theorem tier_gain_bounds (tier : Tier) : 1 / 2 < tier.gain ∧ tier.gain < 1 := by
  cases tier <;> norm_num [Tier.gain]

def doubtLeft (gain : ℚ) : ℚ := if gain ≤ 0 then 1 else 1 - min gain 1

theorem doubtLeft_bounds (gain : ℚ) : 0 ≤ doubtLeft gain ∧ doubtLeft gain ≤ 1 := by
  unfold doubtLeft
  split
  · exact ⟨zero_le_one, le_rfl⟩
  · rename_i positive
    have least : 0 < min gain 1 := lt_min (not_le.mp positive) zero_lt_one
    have most : min gain 1 ≤ 1 := min_le_right _ _
    constructor <;> linarith

theorem diminishingEvidence_eq (gains : List ℚ) :
    diminishingEvidence gains = 1 - (gains.map doubtLeft).prod := by
  have walk (remaining : ℚ) : gains.foldl (fun remaining gain =>
      if gain ≤ 0 then remaining else remaining * (1 - min gain 1)) remaining =
        remaining * (gains.map doubtLeft).prod := by
    induction gains generalizing remaining with
    | nil => simp
    | cons gain gains ih =>
        rw [List.foldl_cons, ih, List.map_cons, List.prod_cons, ← mul_assoc]
        unfold doubtLeft
        split <;> simp
  rw [diminishingEvidence, walk, one_mul]

theorem prod_doubtLeft_bounds (gains : List ℚ) :
    0 ≤ (gains.map doubtLeft).prod ∧ (gains.map doubtLeft).prod ≤ 1 := by
  induction gains with
  | nil => simp
  | cons gain gains ih =>
      rw [List.map_cons, List.prod_cons]
      have head := doubtLeft_bounds gain
      exact ⟨mul_nonneg head.1 ih.1, mul_le_one₀ head.2 ih.1 ih.2⟩

theorem ratioOf_eq (grades : List (Option (Option ℚ))) : ratioOf grades =
    if grades.reduceOption.isEmpty then none
    else some (1 - (grades.reduceOption.reduceOption.map doubtLeft).prod) := by
  unfold ratioOf
  have within := prod_doubtLeft_bounds grades.reduceOption.reduceOption
  dsimp only
  rw [diminishingEvidence_eq, clamp01, clamp_of_bounds (by linarith) (by linarith)]

theorem ratioOf_perm {grades grades' : List (Option (Option ℚ))} (perm : grades.Perm grades') :
    ratioOf grades = ratioOf grades' := by
  have decided : grades.reduceOption.Perm grades'.reduceOption := perm.filterMap id
  have gains := ((decided.filterMap id).map doubtLeft).prod_eq
  rw [ratioOf_eq, ratioOf_eq, decided.isEmpty_eq]
  split
  · rfl
  · exact congrArg (fun doubt => some (1 - doubt)) gains

@[simp] theorem ratioOf_skipped (grades : List (Option (Option ℚ))) :
    ratioOf (none :: grades) = ratioOf grades := rfl

theorem ratioOf_decided {grades : List (Option (Option ℚ))} {grade : Option ℚ}
    (already : some grade ∈ grades) : ratioOf (some none :: grades) = ratioOf grades := by
  have filled : grades.reduceOption.isEmpty = false := by
    rw [List.isEmpty_eq_false_iff]
    exact List.ne_nil_of_mem (List.reduceOption_mem_iff.mpr already)
  rw [ratioOf_eq, ratioOf_eq, filled]
  rfl

theorem ratioOf_verified (grades : List (Option (Option ℚ))) (gain : ℚ) :
    ratioOf (some (some gain) :: grades) =
      some (1 - doubtLeft gain * (grades.reduceOption.reduceOption.map doubtLeft).prod) := by
  rw [ratioOf_eq]
  rfl

theorem ratioOf_bounds {grades : List (Option (Option ℚ))} {ratio : ℚ} (read : ratioOf grades = some ratio) :
    0 ≤ ratio ∧ ratio ≤ 1 := by
  have within := prod_doubtLeft_bounds grades.reduceOption.reduceOption
  rw [ratioOf_eq] at read
  split at read
  · cases read
  · cases read
    constructor <;> linarith

theorem ratioOf_raised (grades : List (Option (Option ℚ))) (tier : Tier) :
    (ratioOf grades).getD verifiedClaimRatioWhenAbsent ≤
      (ratioOf (some (some tier.gain) :: grades)).getD verifiedClaimRatioWhenAbsent := by
  have gain := tier_gain_bounds tier
  have left : doubtLeft tier.gain = 1 - tier.gain := by
    rw [doubtLeft, if_neg (by linarith), min_eq_left gain.2.le]
  have within := prod_doubtLeft_bounds grades.reduceOption.reduceOption
  rw [ratioOf_verified, ratioOf_eq, left, Option.getD_some]
  split
  · rw [Option.getD_none, verifiedClaimRatioWhenAbsent]
    nlinarith
  · rw [Option.getD_some]
    nlinarith

theorem ratioOf_paid_again {grades : List (Option (Option ℚ))} (tier : Tier)
    (proved : ∀ grade ∈ grades.reduceOption.reduceOption, grade < 1)
    (decided : some (some tier.gain) ∈ grades) :
    ratioOf (some (some tier.gain) :: grades) ≠ ratioOf grades := by
  have gain := tier_gain_bounds tier
  have left : doubtLeft tier.gain = 1 - tier.gain := by
    rw [doubtLeft, if_neg (by linarith), min_eq_left gain.2.le]
  have doubt : 0 < (grades.reduceOption.reduceOption.map doubtLeft).prod := by
    apply List.prod_pos
    intro share member
    obtain ⟨grade, inside, rfl⟩ := List.mem_map.mp member
    have below := proved grade inside
    unfold doubtLeft
    split
    · exact zero_lt_one
    · rw [min_eq_left below.le]
      linarith
  have filled : grades.reduceOption.isEmpty = false := by
    rw [List.isEmpty_eq_false_iff]
    exact List.ne_nil_of_mem (List.reduceOption_mem_iff.mpr decided)
  rw [ratioOf_verified, ratioOf_eq, filled, left]
  intro same
  have same := Option.some.inj same
  nlinarith

/-! ## Attested claims -/

section Attested

variable [Spelling Binary64] [Sealing]

def AttestedClaim (claim : Value) : Prop := ∃ raw verdict, attestClaim raw verdict = .ok claim

omit [Sealing] in
theorem spelledOrNone_writable {v w : Value} (spelled : spelledOrNone v = .ok w) : w.writable = true := by
  unfold spelledOrNone at spelled
  split at spelled
  · cases spelled
    rfl
  · obtain ⟨text, -, made⟩ := bind_eq_ok.mp spelled
    cases made
    exact Wire.writable_string text

omit [Sealing] in
theorem payloadOf_writable {p q : Payload} (made : payloadOf p = .ok q) :
    q.subject.writable = true ∧ q.status.writable = true ∧ q.verifierVersion.writable = true ∧
      q.catalogSnapshot.writable = true := by
  simp only [payloadOf, bind_eq_ok] at made
  obtain ⟨_, -, _, -, _, subject, _, status, _, version, _, snapshot, made⟩ := made
  cases made
  exact ⟨spelledOrNone_writable subject, spelledOrNone_writable status, spelledOrNone_writable version,
    spelledOrNone_writable snapshot⟩

omit [Sealing] in
theorem ownSubject_returns {declared : Value} (writable : declared.writable = true) (storeId : Str) :
    ∃ own, ownSubject declared (.string storeId) = .ok own := by
  unfold ownSubject
  split
  · exact ⟨true, rfl⟩
  · obtain ⟨text, read⟩ := textOf_returns.mpr writable
    have named : Wire.writable (orElse (.string storeId) (.string []) : Value) = true := by
      unfold orElse
      split <;> exact Wire.writable_string _
    obtain ⟨name, asked⟩ := textOf_returns.mpr named
    rw [read, asked]
    exact ⟨_, rfl⟩

theorem AttestedClaim.readable {claim : Value} (attested : AttestedClaim claim) :
    Wire.writable (claim.get (str "key")) = true ∧ Wire.writable (claim.get (str "unit")) = true ∧
      ∀ name ∈ [str "subject", str "status", str "verifier_version", str "catalog_snapshot"],
        Wire.writable ((claim.get attestationField).get name) = true := by
  obtain ⟨raw, verdict, made⟩ := attested
  obtain ⟨keyed, united, -⟩ := attestClaim_returns.mp ⟨claim, made⟩
  obtain ⟨payload, sealed, made⟩ := bind_eq_ok.mp made
  obtain ⟨subject, status, version, snapshot⟩ := payloadOf_writable sealed
  cases made
  rw [Json.get_object, Json.get_object, Json.get_object, Dict.get?_set_ne _ _ (by decide),
    Dict.get?_set_ne _ _ (by decide), Dict.get?_set_self, ← Json.get_object, ← Json.get_object,
    carried_get raw verdict.unit (by decide), carried_unit]
  refine ⟨keyed, united, ?_⟩
  simp only [List.forall_mem_cons, List.not_mem_nil, false_implies, implies_true, and_true]
  exact ⟨subject, status, version, snapshot⟩

theorem AttestedClaim.verdictRead_returns {claim : Value} (attested : AttestedClaim claim) (storeId : Str) :
    ∃ status, verdictRead storeId claim = .ok status := by
  obtain ⟨keyed, united, held⟩ := attested.readable
  simp only [List.forall_mem_cons] at held
  obtain ⟨subject, status, version, snapshot, -⟩ := held
  unfold verdictRead attestedStatus
  split
  · exact ⟨none, rfl⟩
  · dsimp only
    split
    · exact ⟨none, rfl⟩
    · obtain ⟨own, owned⟩ := ownSubject_returns subject storeId
      rw [owned]
      cases own with
      | false => exact ⟨none, rfl⟩
      | true =>
          obtain ⟨payload, made⟩ := payloadOf_returns (p := {
            key := claim.get (str "key")
            value := claim.get (str "value")
            unit := claim.get (str "unit")
            subject := (claim.get attestationField).get (str "subject")
            status := (claim.get attestationField).get (str "status")
            verifierVersion := (claim.get attestationField).get (str "verifier_version")
            catalogSnapshot := (claim.get attestationField).get (str "catalog_snapshot") }) |>.mpr
              ⟨keyed, united, subject, status, version, snapshot⟩
          obtain ⟨text, spelled⟩ := textOf_returns.mpr status
          refine bind_returns.mpr ⟨true, rfl, ?_⟩
          rw [if_neg (by decide)]
          refine bind_returns.mpr ⟨payload, made, ?_⟩
          split
          · exact bind_returns.mpr ⟨text, spelled, _, rfl⟩
          · exact ⟨none, rfl⟩

variable [Unicode]

omit [Sealing] in
theorem relevance_returns (asked : IntentSurface) {key : Value} (keyed : key.writable = true) :
    ∃ tier, asked.relevance key = .ok tier := by
  unfold IntentSurface.relevance
  split
  · exact ⟨_, rfl⟩
  · obtain ⟨text, read⟩ := textOf_returns.mpr keyed
    exact bind_returns.mpr ⟨text, read, _, rfl⟩

def IntentSurface.Relevant (asked : IntentSurface) (claim : Value) : Prop :=
  ∃ tier, asked.relevance (claim.get (str "key")) = .ok (some tier)

theorem grade_relevant {asked : IntentSurface} {storeId : Str} {claim : Value} {tier : Tier}
    (asks : asked.relevance (claim.get (str "key")) = .ok (some tier)) {status : Option Str}
    (read : verdictRead storeId claim = .ok status) :
    asked.grade storeId claim = .ok (
      if status.getD (str "None") = Status.ambiguous.name then none
      else if status.getD (str "None") = Status.verified.name then some (some tier.gain)
      else some none) := by
  unfold IntentSurface.grade
  rw [asks]
  change (verdictRead storeId claim >>= _) = _
  rw [read]
  change (if _ then _ else if _ then _ else _) = _
  split
  · rfl
  · split <;> rfl

theorem grade_skipped {asked : IntentSurface} {storeId : Str} {claim : Value}
    (skipped : asked.relevance (claim.get (str "key")) = .ok none ∨
      (∃ tier, asked.relevance (claim.get (str "key")) = .ok tier) ∧
        verdictRead storeId claim = .ok (some Status.ambiguous.name)) :
    asked.grade storeId claim = .ok none := by
  rcases skipped with aside | ⟨⟨tier, asks⟩, undecided⟩
  · rw [IntentSurface.grade, aside]
    rfl
  · cases tier with
    | none =>
        rw [IntentSurface.grade, asks]
        rfl
    | some tier =>
        rw [grade_relevant asks undecided]
        exact congrArg Except.ok (if_pos rfl)

theorem AttestedClaim.grade_returns {claim : Value} (attested : AttestedClaim claim) (asked : IntentSurface)
    (storeId : Str) : ∃ grade, asked.grade storeId claim = .ok grade := by
  obtain ⟨tier, asks⟩ := relevance_returns asked attested.readable.1
  obtain ⟨status, read⟩ := attested.verdictRead_returns storeId
  cases tier with
  | none => exact ⟨none, grade_skipped (Or.inl asks)⟩
  | some tier => exact ⟨_, grade_relevant asks read⟩

/-! ## The laws -/

/-- The verdict on the claim is what counts, wherever the claim stands and whatever else is presented. -/
structure EvidenceLaws (asked : IntentSurface) (storeId : Str) (claims : List Value) : Prop where
  returns : ∃ ratio, verifiedClaimRatio claims storeId asked = .ok ratio
  unit : ∀ ratio, verifiedClaimRatio claims storeId asked = .ok (some ratio) → 0 ≤ ratio ∧ ratio ≤ 1
  unordered : ∀ other : List Value, other.Perm claims →
    verifiedClaimRatio other storeId asked = verifiedClaimRatio claims storeId asked
  skipped : ∀ claim more, AttestedClaim claim → List.Perm more (claim :: claims) →
    ¬ asked.Relevant claim ∨ verdictRead storeId claim = .ok (some Status.ambiguous.name) →
    verifiedClaimRatio more storeId asked = verifiedClaimRatio claims storeId asked
  repeated : ∀ claim ∈ claims, ∀ copy more, AttestedClaim copy → List.Perm more (copy :: claims) →
    copy.get (str "key") = claim.get (str "key") → copy.get (str "value") = claim.get (str "value") →
    verdictRead storeId copy = verdictRead storeId claim →
    verifiedClaimRatio more storeId asked = verifiedClaimRatio claims storeId asked
  verified : ∀ claim more before after, AttestedClaim claim → List.Perm more (claim :: claims) →
    asked.Relevant claim → verdictRead storeId claim = .ok (some Status.verified.name) →
    verifiedClaimRatio claims storeId asked = .ok before → verifiedClaimRatio more storeId asked = .ok after →
    before.getD verifiedClaimRatioWhenAbsent ≤ after.getD verifiedClaimRatioWhenAbsent
  failed : ∀ claim more before after, AttestedClaim claim → List.Perm more (claim :: claims) →
    asked.Relevant claim → (verdictRead storeId claim = .ok (some Status.unsupported.name) ∨
      verdictRead storeId claim = .ok (some Status.contradicted.name)) →
    verifiedClaimRatio claims storeId asked = .ok (some before) →
    verifiedClaimRatio more storeId asked = .ok after → after.getD verifiedClaimRatioWhenAbsent ≤ before

def IntentSurface.gradeOf (asked : IntentSurface) (storeId : Str) (claim : Value) : Option (Option ℚ) :=
  (asked.grade storeId claim).toOption.getD none

theorem AttestedClaim.grade_eq {claim : Value} (attested : AttestedClaim claim) (asked : IntentSurface)
    (storeId : Str) : asked.grade storeId claim = .ok (asked.gradeOf storeId claim) := by
  obtain ⟨grade, made⟩ := attested.grade_returns asked storeId
  rw [IntentSurface.gradeOf, made]
  rfl

theorem verifiedClaimRatio_eq {claims : List Value} (attested : ∀ claim ∈ claims, AttestedClaim claim)
    (storeId : Str) (asked : IntentSurface) :
    verifiedClaimRatio claims storeId asked = .ok (ratioOf (claims.map (asked.gradeOf storeId))) := by
  rw [verifiedClaimRatio, mapM_eq fun claim member => (attested claim member).grade_eq asked storeId]
  rfl

theorem gradeOf_eq {asked : IntentSurface} {storeId : Str} {claim : Value} {grade : Option (Option ℚ)}
    (made : asked.grade storeId claim = .ok grade) : asked.gradeOf storeId claim = grade := by
  rw [IntentSurface.gradeOf, made]
  rfl

theorem gradeOf_verified {asked : IntentSurface} {storeId : Str} {claim : Value} (asks : asked.Relevant claim)
    (read : verdictRead storeId claim = .ok (some Status.verified.name)) :
    ∃ tier : Tier, asked.gradeOf storeId claim = some (some tier.gain) := by
  obtain ⟨tier, asks⟩ := asks
  refine ⟨tier, gradeOf_eq ((grade_relevant asks read).trans ?_)⟩
  rw [Option.getD_some, if_neg (by decide), if_pos rfl]

theorem gradeOf_unverified {asked : IntentSurface} {storeId : Str} {claim : Value}
    (attested : AttestedClaim claim)
    (unproved : ¬ (asked.Relevant claim ∧ verdictRead storeId claim = .ok (some Status.verified.name))) :
    asked.gradeOf storeId claim = none ∨ asked.gradeOf storeId claim = some none := by
  obtain ⟨tier, asks⟩ := relevance_returns asked attested.readable.1
  obtain ⟨status, read⟩ := attested.verdictRead_returns storeId
  cases tier with
  | none => exact Or.inl (gradeOf_eq (grade_skipped (Or.inl asks)))
  | some tier =>
      rw [gradeOf_eq (grade_relevant asks read)]
      split
      · exact Or.inl rfl
      · rw [if_neg]
        · exact Or.inr rfl
        · intro proved
          refine unproved ⟨⟨tier, asks⟩, read.trans ?_⟩
          cases status with
          | none => exact absurd proved (by decide)
          | some text => rw [← proved, Option.getD_some]

theorem gain_lt_one {asked : IntentSurface} {storeId : Str} {claim : Value} (attested : AttestedClaim claim)
    {gain : ℚ} (worth : asked.gradeOf storeId claim = some (some gain)) : gain < 1 := by
  by_cases proved : asked.Relevant claim ∧ verdictRead storeId claim = .ok (some Status.verified.name)
  · obtain ⟨tier, grade⟩ := gradeOf_verified proved.1 proved.2
    rw [grade, Option.some.injEq, Option.some.injEq] at worth
    exact worth ▸ (tier_gain_bounds tier).2
  · rcases gradeOf_unverified attested proved with grade | grade
    · rw [grade] at worth
      cases worth
    · rw [grade] at worth
      cases worth

theorem gradeOf_copy {asked : IntentSurface} {storeId : Str} {claim copy : Value}
    (key : copy.get (str "key") = claim.get (str "key"))
    (verdict : verdictRead storeId copy = verdictRead storeId claim) :
    asked.gradeOf storeId copy = asked.gradeOf storeId claim := by
  simp only [IntentSurface.gradeOf, IntentSurface.grade, key, verdict]

omit [Unicode] in
theorem attested_of_perm {claims other : List Value} (perm : other.Perm claims)
    (attested : ∀ claim ∈ claims, AttestedClaim claim) : ∀ claim ∈ other, AttestedClaim claim :=
  fun claim member => attested claim (perm.mem_iff.mp member)

theorem verifiedClaimRatio_more {claims more : List Value} {claim : Value}
    (attested : ∀ claim ∈ claims, AttestedClaim claim) (added : AttestedClaim claim)
    (perm : more.Perm (claim :: claims)) (storeId : Str) (asked : IntentSurface) :
    verifiedClaimRatio more storeId asked =
      .ok (ratioOf (asked.gradeOf storeId claim :: claims.map (asked.gradeOf storeId))) := by
  rw [verifiedClaimRatio_eq (attested_of_perm perm (List.forall_mem_cons.mpr ⟨added, attested⟩)),
    ratioOf_perm (perm.map _), List.map_cons]

theorem evidence_lawful_iff (asked : IntentSurface) (storeId : Str) (claims : List Value)
    (attested : ∀ claim ∈ claims, AttestedClaim claim) :
    EvidenceLaws asked storeId claims ↔ ∀ claim ∈ claims,
      ¬ (asked.Relevant claim ∧ verdictRead storeId claim = .ok (some Status.verified.name)) := by
  have read := verifiedClaimRatio_eq attested storeId asked
  have many {claim : Value} {more : List Value} (added : AttestedClaim claim)
      (perm : more.Perm (claim :: claims)) := verifiedClaimRatio_more attested added perm storeId asked
  constructor
  · rintro laws claim member ⟨asks, proved⟩
    obtain ⟨tier, grade⟩ := gradeOf_verified asks proved
    have same := laws.repeated claim member claim _ (attested claim member) (List.Perm.refl _) rfl rfl rfl
    rw [many (attested claim member) (List.Perm.refl _), read, grade] at same
    refine ratioOf_paid_again tier ?_ ?_ (Except.ok.inj same)
    · intro gain inside
      obtain ⟨other, held, worth⟩ := List.mem_map.mp
        (List.reduceOption_mem_iff.mp (List.reduceOption_mem_iff.mp inside))
      exact gain_lt_one (attested other held) worth
    · exact List.mem_map.mpr ⟨claim, member, grade⟩
  · intro unproved
    exact {
      returns := ⟨_, read⟩
      unit := fun ratio made => ratioOf_bounds (Except.ok.inj (read.symm.trans made))
      unordered := fun other perm => by
        rw [verifiedClaimRatio_eq (attested_of_perm perm attested), read, ratioOf_perm (perm.map _)]
      skipped := fun claim more added perm aside => by
        obtain ⟨tier, asks⟩ := relevance_returns asked added.readable.1
        have skipped : asked.grade storeId claim = .ok none := by
          apply grade_skipped
          rcases aside with aside | undecided
          · cases tier with
            | none => exact Or.inl asks
            | some tier => exact absurd ⟨tier, asks⟩ aside
          · exact Or.inr ⟨⟨tier, asks⟩, undecided⟩
        rw [many added perm, read, gradeOf_eq skipped, ratioOf_skipped]
      repeated := fun claim member copy more added perm key _ verdict => by
        rw [many added perm, read, gradeOf_copy key verdict]
        have held : asked.gradeOf storeId claim ∈ claims.map (asked.gradeOf storeId) :=
          List.mem_map_of_mem member
        rcases gradeOf_unverified (attested claim member) (unproved claim member) with grade | grade
        · rw [grade, ratioOf_skipped]
        · rw [grade] at held ⊢
          rw [ratioOf_decided held]
      verified := fun claim more before after added perm asks proved made made' => by
        obtain ⟨tier, grade⟩ := gradeOf_verified asks proved
        rw [read, Except.ok.injEq] at made
        rw [many added perm, grade, Except.ok.injEq] at made'
        subst made made'
        exact ratioOf_raised _ tier
      failed := fun claim more before after added perm asks against made made' => by
        have grade : asked.gradeOf storeId claim = some none := by
          obtain ⟨tier, asks⟩ := asks
          rcases against with against | against
          · exact gradeOf_eq (grade_relevant asks against)
          · exact gradeOf_eq (grade_relevant asks against)
        rw [read, Except.ok.injEq] at made
        rw [many added perm, grade, Except.ok.injEq] at made'
        obtain ⟨already, decided⟩ : ∃ grade, some grade ∈ claims.map (asked.gradeOf storeId) := by
          rw [ratioOf_eq] at made
          split at made
          · cases made
          · rename_i filled
            obtain ⟨grade, inside⟩ := List.exists_mem_of_ne_nil _ (by simpa using filled)
            exact ⟨grade, List.reduceOption_mem_iff.mp inside⟩
        rw [← made', ratioOf_decided decided, made, Option.getD_some] }

def steelFrame : Value :=
  .object [(str "key", .string (str "frame_material")), (str "value", .string (str "steel"))]

def frameVerdict (status : Status) : Verdict where
  status := status.name
  unit := .null
  subject := .string (str "cycles")
  verifierVersion := .string (str "v1")
  catalogSnapshot := .string (str "s1")
  evidenceRefs := []
  confidence := none
  reason := none

def frameClaim (status : Status) : Value :=
  (attestClaim steelFrame (frameVerdict status)).toOption.getD .null

omit [Unicode] in
theorem frameClaim_attested (status : Status) : AttestedClaim (frameClaim status) := by
  obtain ⟨claim, made⟩ : ∃ claim, attestClaim steelFrame (frameVerdict status) = .ok claim :=
    attestClaim_returns.mpr ⟨Wire.writable_string _, rfl, Wire.writable_string _, Wire.writable_string _,
      Wire.writable_string _⟩
  refine ⟨steelFrame, frameVerdict status, made.trans ?_⟩
  rw [frameClaim, made]
  rfl

def askedFrame : IntentSurface where
  tiers := [(str "frame-material", .hardConstraint)]
  queryTokens := []
  scoredAxes := []

end Attested

theorem contradicted_frame_lawful :
    letI := Spelling.strings Binary64
    letI := Sealing.plain
    letI := Unicode.ascii
    EvidenceLaws askedFrame (str "cycles") [frameClaim .contradicted] := by
  let _ := Spelling.strings Binary64
  let _ := Sealing.plain
  let _ := Unicode.ascii
  apply (evidence_lawful_iff askedFrame (str "cycles") [frameClaim .contradicted] _).mpr
  · simp only [List.mem_singleton, forall_eq]
    rintro ⟨-, proved⟩
    have read : verdictRead (str "cycles") (frameClaim .contradicted) =
        .ok (some Status.contradicted.name) := by decide
    rw [read] at proved
    exact absurd proved (by decide)
  · simp only [List.mem_singleton, forall_eq]
    exact frameClaim_attested .contradicted

theorem repeated_frame_pays_again :
    letI := Spelling.strings Binary64
    letI := Sealing.plain
    letI := Unicode.ascii
    verifiedClaimRatio [frameClaim .verified] (str "cycles") askedFrame = .ok (some (70 / 100)) ∧
      verifiedClaimRatio [frameClaim .verified, frameClaim .verified] (str "cycles") askedFrame =
        .ok (some (91 / 100)) ∧
      ¬ EvidenceLaws askedFrame (str "cycles") [frameClaim .verified] := by
  let _ := Spelling.strings Binary64
  let _ := Sealing.plain
  let _ := Unicode.ascii
  have once : verifiedClaimRatio [frameClaim .verified] (str "cycles") askedFrame = .ok (some (70 / 100)) := by
    decide +kernel
  have twice : verifiedClaimRatio [frameClaim .verified, frameClaim .verified] (str "cycles") askedFrame =
      .ok (some (91 / 100)) := by decide +kernel
  refine ⟨once, twice, fun laws => ?_⟩
  have same := laws.repeated _ List.mem_cons_self (frameClaim .verified) _
    (frameClaim_attested .verified) (List.Perm.refl _) rfl rfl rfl
  rw [once, twice, Except.ok.injEq, Option.some.injEq] at same
  norm_num at same

end Proxyshop.Ranking
