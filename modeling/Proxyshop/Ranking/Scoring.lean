import Mathlib.Algebra.BigOperators.Group.List.Lemmas
import Mathlib.Algebra.Order.BigOperators.Group.List
import Mathlib.Tactic.Ring
import Proxyshop.Numbers.Binary64
import Proxyshop.Verification.Normalize

/-!
# The published score

Five weighted features and a bounded penalty. The numbers are read as doubles; what is computed from
them is exact.
-/

namespace Proxyshop.Ranking

open Python Numbers Contracts Structures Verification

section Reading

variable {F : Type} [Format F] [Unicode]

omit [Unicode] in
/-- A float as a finite number, if it is one; only an overflow is raised on. -/
def finiteRead : Except PyError (Extended F) → Except PyError (Option ℚ)
  | .ok (.finite x) => .ok (some (Format.value x))
  | .ok _ => .ok none
  | .error .overflowError => .error .overflowError
  | .error _ => .ok none

/-- `_number`. -/
def readNumber : Wire F → Except PyError (Option ℚ)
  | .null | .bool _ => .ok none
  | v => finiteRead (Wire.toDouble v)

/-- What `_number` answers wherever it returns. -/
def numberOf (v : Wire F) : Option ℚ := (readNumber v).toOption.join

theorem readNumber_eq (v : Wire F) :
    readNumber v = if v.huge then .error .overflowError else .ok (numberOf v) := by
  cases v with
  | number n =>
      have double : readNumber (.number n : Wire F) = finiteRead n.toDouble := rfl
      have large : Wire.huge (.number n : Wire F) = n.huge := rfl
      rw [numberOf, double, large, Literal.toDouble_eq]
      cases n.huge with
      | true => rfl
      | false => cases n.nearest <;> rfl
  | string s =>
      have double : readNumber (.string s : Wire F) =
          finiteRead ((NumberText.readFloat? s).elim (.error .valueError) .ok) := rfl
      rw [numberOf, double]
      cases NumberText.readFloat? (F := F) s with
      | none => rfl
      | some x => cases x <;> rfl
  | _ => rfl

theorem readNumber_returns {v : Wire F} : (∃ x, readNumber v = .ok x) ↔ v.huge = false := by
  rw [readNumber_eq]
  cases v.huge <;> simp

end Reading

/-! ## The published weights -/

inductive Feature
  | intentMatch
  | verifiedClaimRatio
  | trust
  | priceValue
  | deliveryFit
  deriving DecidableEq

def rankFeatures : List Feature :=
  [.intentMatch, .verifiedClaimRatio, .trust, .priceValue, .deliveryFit]

def Feature.name : Feature → Str
  | .intentMatch => str "intent_match"
  | .verifiedClaimRatio => str "verified_claim_ratio"
  | .trust => str "trust"
  | .priceValue => str "price_value"
  | .deliveryFit => str "delivery_fit"

/-- `WEIGHT_ENV_VARS`. -/
def Feature.envVar : Feature → Str
  | .intentMatch => str "RANK_W_M"
  | .verifiedClaimRatio => str "RANK_W_E"
  | .trust => str "RANK_W_T"
  | .priceValue => str "RANK_W_V"
  | .deliveryFit => str "RANK_W_D"

theorem mem_rankFeatures (f : Feature) : f ∈ rankFeatures := by
  cases f <;> decide

def penaltyComponent : Str := str "policy_penalties"

def weightSumTolerance : ℚ := 1e-9

def intentMatchWhenAbsent : ℚ := 0.5

structure NormalizationBounds where
  featureMin : ℚ
  featureMax : ℚ
  deliveryFitWhenAbsent : ℚ
  verifiedClaimRatioWhenAbsent : ℚ

structure PenaltyCatalogue where
  perKind : Dict Str ℚ
  maxTotalPenalty : ℚ
  capped : 0 ≤ maxTotalPenalty
  nonneg : ∀ entry ∈ perKind, 0 ≤ entry.2

structure RankingWeights where
  weight : Feature → ℚ
  normalization : NormalizationBounds
  penalties : PenaltyCatalogue
  bounded : ∀ f, 0 ≤ weight f ∧ weight f ≤ 1
  sum_to_one : |(rankFeatures.map weight).sum - 1| ≤ weightSumTolerance

namespace RankingWeights

def publishedBounds : NormalizationBounds := ⟨0, 1, 0.5, 0.5⟩

def publishedPenalties : PenaltyCatalogue where
  perKind := [(str "severe_policy_violation", 0.30), (str "contradicted_claim", 0.15)]
  maxTotalPenalty := 1
  capped := by norm_num
  nonneg := by
    intro entry listed
    simp only [List.mem_cons, List.not_mem_nil, or_false] at listed
    rcases listed with rfl | rfl <;> norm_num

def defaultWeight : Feature → ℚ
  | .intentMatch => 0.35
  | .verifiedClaimRatio => 0.20
  | .trust => 0.20
  | .priceValue => 0.15
  | .deliveryFit => 0.10

/-- `penalty_for`. -/
def penaltyFor (weights : RankingWeights) (kind : Str) : ℚ :=
  (Dict.get? weights.penalties.perKind kind).getD 0

/-- `total_penalty`. -/
def totalPenalty (weights : RankingWeights) (kinds : List Str) : ℚ :=
  min (kinds.map weights.penaltyFor).sum weights.penalties.maxTotalPenalty

theorem penaltyFor_nonneg (weights : RankingWeights) (kind : Str) : 0 ≤ weights.penaltyFor kind := by
  unfold penaltyFor
  cases listed : Dict.get? weights.penalties.perKind kind with
  | none => exact le_rfl
  | some value => exact weights.penalties.nonneg (kind, value) (Dict.mem_of_get? listed)

theorem totalPenalty_nonneg (weights : RankingWeights) (kinds : List Str) :
    0 ≤ weights.totalPenalty kinds := by
  apply le_min _ weights.penalties.capped
  apply List.sum_nonneg
  intro value listed
  obtain ⟨kind, -, rfl⟩ := List.mem_map.mp listed
  exact weights.penaltyFor_nonneg kind

theorem totalPenalty_mono (weights : RankingWeights) {kinds more : List Str}
    (included : kinds.Subperm more) : weights.totalPenalty kinds ≤ weights.totalPenalty more := by
  obtain ⟨same, perm, sublist⟩ := included
  apply min_le_min_right
  rw [← (perm.map weights.penaltyFor).sum_eq]
  apply (sublist.map weights.penaltyFor).sum_le_sum
  intro value listed
  obtain ⟨kind, -, rfl⟩ := List.mem_map.mp listed
  exact weights.penaltyFor_nonneg kind

def defaults : RankingWeights where
  weight := defaultWeight
  normalization := publishedBounds
  penalties := publishedPenalties
  bounded := by
    intro f
    cases f <;> norm_num [defaultWeight]
  sum_to_one := by norm_num [rankFeatures, defaultWeight, weightSumTolerance]

inductive LoadError
  | notANumber
  | invalid
  deriving DecidableEq

def ofFive (m e t v d : ℚ) : Feature → ℚ
  | .intentMatch => m
  | .verifiedClaimRatio => e
  | .trust => t
  | .priceValue => v
  | .deliveryFit => d

/-- The published weight set with the weights given, where the model admits them. -/
def validated (weight : Feature → ℚ) : Except LoadError RankingWeights :=
  if admitted : (∀ f ∈ rankFeatures, 0 ≤ weight f ∧ weight f ≤ 1) ∧
      |(rankFeatures.map weight).sum - 1| ≤ weightSumTolerance then
    .ok ⟨weight, publishedBounds, publishedPenalties, fun f => admitted.1 f (mem_rankFeatures f), admitted.2⟩
  else .error .invalid

section Loading

variable (F : Type) [Format F] [Unicode]

/-- The weight that an environment states, or the published one. -/
def loadedWeight (env : Str → Option Str) (f : Feature) : Except LoadError ℚ :=
  match (env f.envVar).filter fun raw => !raw.strip.isEmpty with
  | none => .ok (defaultWeight f)
  | some raw => match NumberText.readFloat? (F := F) raw with
    | none => .error .notANumber
    | some (.finite x) => .ok (Format.value x)
    | some _ => .error .invalid

/-- `from_env`. -/
def fromEnv (env : Str → Option Str) : Except LoadError RankingWeights := do
  let m ← loadedWeight F env .intentMatch
  let e ← loadedWeight F env .verifiedClaimRatio
  let t ← loadedWeight F env .trust
  let v ← loadedWeight F env .priceValue
  let d ← loadedWeight F env .deliveryFit
  validated (ofFive m e t v d)

theorem fromEnv_silent : fromEnv F (fun _ => none) = .ok defaults := by
  have weights : ofFive (defaultWeight .intentMatch) (defaultWeight .verifiedClaimRatio)
      (defaultWeight .trust) (defaultWeight .priceValue) (defaultWeight .deliveryFit) = defaultWeight := by
    funext f
    cases f <;> rfl
  change validated (ofFive _ _ _ _ _) = _
  rw [weights, validated, dif_pos ⟨fun f _ => defaults.bounded f, defaults.sum_to_one⟩]
  rfl

end Loading

end RankingWeights

/-! ## The score -/

def clamp (low high value : ℚ) : ℚ := if value < low then low else if high < value then high else value

theorem clamp_mono {low high : ℚ} (ordered : low ≤ high) {x y : ℚ} (h : x ≤ y) :
    clamp low high x ≤ clamp low high y := by
  unfold clamp
  split_ifs <;> linarith

theorem clamp_bounds {low high : ℚ} (ordered : low ≤ high) (x : ℚ) :
    low ≤ clamp low high x ∧ clamp low high x ≤ high := by
  unfold clamp
  split_ifs <;> constructor <;> linarith

theorem clamp_of_bounds {low high x : ℚ} (least : low ≤ x) (most : x ≤ high) : clamp low high x = x := by
  rw [clamp, if_neg (not_lt.mpr least), if_neg (not_lt.mpr most)]

def whenAbsent (weights : RankingWeights) : Feature → ℚ
  | .intentMatch => intentMatchWhenAbsent
  | .verifiedClaimRatio => weights.normalization.verifiedClaimRatioWhenAbsent
  | .deliveryFit => weights.normalization.deliveryFitWhenAbsent
  | .trust | .priceValue => (weights.normalization.featureMin + weights.normalization.featureMax) / 2

section Scoring

variable {F : Type} [Format F] [Spelling F] [Unicode]

def featureSource (candidate trustScore : Wire F) : Feature → Wire F
  | .trust => trustScore
  | f => candidate.get f.name

def bounded (weights : RankingWeights) (value : ℚ) : ℚ :=
  clamp weights.normalization.featureMin weights.normalization.featureMax value

/-- `feature_vector`. -/
def featureVector (weights : RankingWeights) (candidate trustScore : Wire F) :
    Except PyError (List (Feature × ℚ)) :=
  rankFeatures.mapM fun f => do
    let raw ← readNumber (featureSource candidate trustScore f)
    return (f, bounded weights (raw.getD (whenAbsent weights f)))

/-- The kinds of the policy events that are open on the candidate. -/
def policyEvents (candidate : Wire F) : Except PyError (List Str) := do
  (← Wire.itemsOrNone (candidate.get (str "policy_events"))).mapM textOf

/-- The penalty of the events and the declared one, under the cap; an unreadable one takes the cap. -/
def cappedPenalty (cap fromKinds : ℚ) (declared : Wire F) : Except PyError ℚ :=
  if declared.isNull then .ok (min fromKinds cap)
  else do
    match ← readNumber declared with
    | none => return cap
    | some raw => return min (if 0 < raw then fromKinds + raw else fromKinds) cap

/-- `penalty_of`. -/
def penaltyOf (weights : RankingWeights) (candidate : Wire F) : Except PyError ℚ := do
  let kinds ← policyEvents candidate
  cappedPenalty weights.penalties.maxTotalPenalty (weights.totalPenalty kinds)
    (candidate.get penaltyComponent)

structure Scored where
  rankScore : ℚ
  components : List (Str × ℚ)
  features : List (Feature × ℚ)

def score (weights : RankingWeights) (candidate trustScore : Wire F) : Except PyError Scored := do
  let vector ← featureVector weights candidate trustScore
  let terms := vector.map fun (f, value) => (f.name, weights.weight f * value)
  let penalty ← penaltyOf weights candidate
  let components := if penalty = 0 then terms else terms ++ [(penaltyComponent, -penalty)]
  return ⟨(components.map Prod.snd).sum, components, vector⟩

/-! ## What the score is made of -/

/-- The feature before it is bounded: the number read, or the neutral. -/
def rawFeature (weights : RankingWeights) (candidate trustScore : Wire F) (f : Feature) : ℚ :=
  (numberOf (featureSource candidate trustScore f)).getD (whenAbsent weights f)

def featureOf (weights : RankingWeights) (candidate trustScore : Wire F) (f : Feature) : ℚ :=
  bounded weights (rawFeature weights candidate trustScore f)

def EventsReadable (events : Wire F) : Prop :=
  Wire.truthy events = true →
    ∃ kinds, Wire.items events = .ok kinds ∧ ∀ kind ∈ kinds, Wire.writable kind = true

/-- No number the score reads is an integer too large for a float, and the policy events are readable. -/
structure Scorable (candidate trustScore : Wire F) : Prop where
  features : ∀ f, Wire.huge (featureSource candidate trustScore f) = false
  declared : Wire.huge (candidate.get penaltyComponent) = false
  events : EventsReadable (candidate.get (str "policy_events"))

omit [Unicode] in
theorem policyEvents_returns {candidate : Wire F} : (∃ kinds, policyEvents candidate = .ok kinds) ↔
    EventsReadable (candidate.get (str "policy_events")) := by
  unfold policyEvents EventsReadable Wire.itemsOrNone
  rw [bind_returns]
  split
  · rename_i full
    simp only [full, forall_true_left, mapM_returns, textOf_returns]
  · rename_i empty
    exact iff_of_true ⟨[], rfl, [], rfl⟩ fun full => absurd full empty

omit [Spelling F] in
theorem cappedPenalty_returns {cap fromKinds : ℚ} {declared : Wire F} :
    (∃ penalty, cappedPenalty cap fromKinds declared = .ok penalty) ↔ Wire.huge declared = false := by
  unfold cappedPenalty
  split
  · rename_i absent
    rw [Json.isNull_iff.mp absent]
    exact iff_of_true ⟨_, rfl⟩ rfl
  · rw [bind_returns, ← readNumber_returns]
    apply exists_congr
    intro x
    apply and_iff_left_of_imp
    intro _
    cases x <;> exact ⟨_, rfl⟩

theorem penaltyOf_returns {weights : RankingWeights} {candidate : Wire F} :
    (∃ penalty, penaltyOf weights candidate = .ok penalty) ↔
      Wire.huge (candidate.get penaltyComponent) = false ∧
        EventsReadable (candidate.get (str "policy_events")) := by
  unfold penaltyOf
  rw [bind_returns, ← policyEvents_returns]
  simp only [cappedPenalty_returns]
  exact ⟨fun ⟨kinds, walked, small⟩ => ⟨small, kinds, walked⟩, fun ⟨small, kinds, walked⟩ => ⟨kinds, walked, small⟩⟩

omit [Spelling F] in
theorem featureVector_eq {weights : RankingWeights} {candidate trustScore : Wire F}
    (readable : ∀ f, Wire.huge (featureSource candidate trustScore f) = false) :
    featureVector weights candidate trustScore =
      .ok (rankFeatures.map fun f => (f, featureOf weights candidate trustScore f)) := by
  apply mapM_eq
  intro f _
  rw [readNumber_eq, if_neg (by rw [readable f]; decide)]
  rfl

omit [Spelling F] in
theorem featureVector_returns {weights : RankingWeights} {candidate trustScore : Wire F} :
    (∃ vector, featureVector weights candidate trustScore = .ok vector) ↔
      ∀ f, Wire.huge (featureSource candidate trustScore f) = false := by
  unfold featureVector
  rw [mapM_returns]
  constructor
  · intro read f
    obtain ⟨_, returned⟩ := read f (mem_rankFeatures f)
    obtain ⟨x, number, -⟩ := bind_eq_ok.mp returned
    exact readNumber_returns.mp ⟨x, number⟩
  · intro readable f _
    obtain ⟨x, number⟩ := readNumber_returns.mpr (readable f)
    exact ⟨_, by rw [number]; rfl⟩

theorem score_returns {weights : RankingWeights} {candidate trustScore : Wire F} :
    (∃ scored, score weights candidate trustScore = .ok scored) ↔ Scorable candidate trustScore := by
  unfold score
  rw [bind_returns]
  constructor
  · rintro ⟨vector, read, returned⟩
    obtain ⟨penalty, bounded, -⟩ := bind_returns.mp returned
    obtain ⟨declared, events⟩ := penaltyOf_returns.mp ⟨penalty, bounded⟩
    exact ⟨featureVector_returns.mp ⟨vector, read⟩, declared, events⟩
  · rintro ⟨features, declared, events⟩
    obtain ⟨penalty, bounded⟩ := penaltyOf_returns.mpr ⟨declared, events⟩
    exact ⟨_, featureVector_eq features, bind_returns.mpr ⟨penalty, bounded, _, rfl⟩⟩

/-! ## The laws of the score -/

omit [Spelling F] in
theorem cappedPenalty_bounds {cap fromKinds penalty : ℚ} (capped : 0 ≤ cap) (events : 0 ≤ fromKinds)
    {declared : Wire F} (charged : cappedPenalty cap fromKinds declared = .ok penalty) :
    0 ≤ penalty ∧ penalty ≤ cap := by
  unfold cappedPenalty at charged
  split at charged
  · rw [← Except.ok.inj charged]
    exact ⟨le_min events capped, min_le_right _ _⟩
  · obtain ⟨raw, -, charged⟩ := bind_eq_ok.mp charged
    cases raw with
    | none =>
        rw [← Except.ok.inj charged]
        exact ⟨capped, le_rfl⟩
    | some raw =>
        rw [← Except.ok.inj charged]
        refine ⟨le_min ?_ capped, min_le_right _ _⟩
        split <;> linarith

omit [Spelling F] in
theorem cappedPenalty_mono {cap fromKinds fromMore penalty penalty' : ℚ} (more : fromKinds ≤ fromMore)
    {declared : Wire F} (charged : cappedPenalty cap fromKinds declared = .ok penalty)
    (charged' : cappedPenalty cap fromMore declared = .ok penalty') : penalty ≤ penalty' := by
  unfold cappedPenalty at charged charged'
  by_cases absent : declared.isNull = true
  · rw [if_pos absent] at charged charged'
    rw [← Except.ok.inj charged, ← Except.ok.inj charged']
    exact min_le_min_right _ more
  · rw [if_neg absent] at charged charged'
    obtain ⟨raw, read, charged⟩ := bind_eq_ok.mp charged
    rw [read] at charged'
    cases raw with
    | none => rw [← Except.ok.inj charged, ← Except.ok.inj charged']
    | some raw =>
        rw [← Except.ok.inj charged, ← Except.ok.inj charged']
        apply min_le_min_right
        split <;> linarith

theorem penaltyOf_bounds {weights : RankingWeights} {candidate : Wire F} {penalty : ℚ}
    (charged : penaltyOf weights candidate = .ok penalty) :
    0 ≤ penalty ∧ penalty ≤ weights.penalties.maxTotalPenalty := by
  obtain ⟨kinds, -, charged⟩ := bind_eq_ok.mp charged
  exact cappedPenalty_bounds weights.penalties.capped (weights.totalPenalty_nonneg kinds) charged

theorem penaltyOf_mono {weights : RankingWeights} {candidate candidate' : Wire F} {kinds kinds' : List Str}
    (walked : policyEvents candidate = .ok kinds) (walked' : policyEvents candidate' = .ok kinds')
    (included : kinds.Subperm kinds')
    (declared : candidate.get penaltyComponent = candidate'.get penaltyComponent) {penalty penalty' : ℚ}
    (charged : penaltyOf weights candidate = .ok penalty)
    (charged' : penaltyOf weights candidate' = .ok penalty') : penalty ≤ penalty' := by
  unfold penaltyOf at charged charged'
  rw [walked] at charged
  rw [walked', ← declared] at charged'
  exact cappedPenalty_mono (weights.totalPenalty_mono included) charged charged'

def termsOf (weights : RankingWeights) (candidate trustScore : Wire F) : List (Str × ℚ) :=
  rankFeatures.map fun f => (f.name, weights.weight f * featureOf weights candidate trustScore f)

/-- The record of a score says what the published weights say. -/
structure Published (weights : RankingWeights) (candidate trustScore : Wire F) (scored : Scored) :
    Prop where
  sum : scored.rankScore = (scored.components.map Prod.snd).sum
  features : scored.features = rankFeatures.map fun f => (f, featureOf weights candidate trustScore f)
  components : ∃ penalty, penaltyOf weights candidate = .ok penalty ∧
    0 ≤ penalty ∧ penalty ≤ weights.penalties.maxTotalPenalty ∧
    scored.components = termsOf weights candidate trustScore ++
      if penalty = 0 then [] else [(penaltyComponent, -penalty)]
  within : ∀ f, weights.normalization.featureMin ≤ featureOf weights candidate trustScore f ∧
    featureOf weights candidate trustScore f ≤ weights.normalization.featureMax
  least : (rankFeatures.map fun f => weights.weight f * weights.normalization.featureMin).sum -
    weights.penalties.maxTotalPenalty ≤ scored.rankScore
  most : scored.rankScore ≤ (rankFeatures.map fun f => weights.weight f * weights.normalization.featureMax).sum

theorem score_eq {weights : RankingWeights} {candidate trustScore : Wire F} {scored : Scored}
    (made : score weights candidate trustScore = .ok scored) :
    ∃ penalty, penaltyOf weights candidate = .ok penalty ∧
      scored.components = termsOf weights candidate trustScore ++
        (if penalty = 0 then [] else [(penaltyComponent, -penalty)]) ∧
      scored.rankScore = ((termsOf weights candidate trustScore).map Prod.snd).sum - penalty ∧
      scored.rankScore = (scored.components.map Prod.snd).sum ∧
      scored.features = rankFeatures.map fun f => (f, featureOf weights candidate trustScore f) := by
  have readable := (score_returns.mp ⟨scored, made⟩).features
  obtain ⟨vector, read, made⟩ := bind_eq_ok.mp made
  rw [featureVector_eq readable, Except.ok.injEq] at read
  subst read
  obtain ⟨penalty, charged, made⟩ := bind_eq_ok.mp made
  have terms : (rankFeatures.map fun f => (f, featureOf weights candidate trustScore f)).map
      (fun (f, value) => (f.name, weights.weight f * value)) = termsOf weights candidate trustScore := by
    rw [termsOf, List.map_map]
    rfl
  rw [terms] at made
  rw [← Except.ok.inj made]
  refine ⟨penalty, charged, ?_, ?_, rfl, rfl⟩
  · dsimp only
    split <;> simp
  · dsimp only
    split
    · rename_i free
      rw [free, sub_zero]
    · simp [sub_eq_add_neg]

omit [Spelling F] in
theorem termsOf_mono {weights : RankingWeights} {candidate trustScore candidate' trustScore' : Wire F}
    (raised : ∀ f, featureOf weights candidate trustScore f ≤ featureOf weights candidate' trustScore' f) :
    ((termsOf weights candidate trustScore).map Prod.snd).sum ≤
      ((termsOf weights candidate' trustScore').map Prod.snd).sum := by
  unfold termsOf
  rw [List.map_map, List.map_map]
  apply List.sum_le_sum
  intro f _
  exact mul_le_mul_of_nonneg_left (raised f) (weights.bounded f).1

theorem published_of_score {weights : RankingWeights}
    (ordered : weights.normalization.featureMin ≤ weights.normalization.featureMax)
    {candidate trustScore : Wire F} {scored : Scored}
    (made : score weights candidate trustScore = .ok scored) :
    Published weights candidate trustScore scored := by
  obtain ⟨penalty, charged, components, total, sum, features⟩ := score_eq made
  obtain ⟨nonneg, capped⟩ := penaltyOf_bounds charged
  have within (f : Feature) := clamp_bounds ordered (rawFeature weights candidate trustScore f)
  have low : (rankFeatures.map fun f => weights.weight f * weights.normalization.featureMin).sum ≤
      ((termsOf weights candidate trustScore).map Prod.snd).sum := by
    rw [termsOf, List.map_map]
    apply List.sum_le_sum
    intro f _
    exact mul_le_mul_of_nonneg_left (within f).1 (weights.bounded f).1
  have high : ((termsOf weights candidate trustScore).map Prod.snd).sum ≤
      (rankFeatures.map fun f => weights.weight f * weights.normalization.featureMax).sum := by
    rw [termsOf, List.map_map]
    apply List.sum_le_sum
    intro f _
    exact mul_le_mul_of_nonneg_left (within f).2 (weights.bounded f).1
  exact ⟨sum, features, ⟨penalty, charged, nonneg, capped, components⟩, within, by linarith, by linarith⟩

theorem rankScore_mono {weights : RankingWeights}
    (ordered : weights.normalization.featureMin ≤ weights.normalization.featureMax)
    {candidate trustScore candidate' trustScore' : Wire F} {scored scored' : Scored}
    (made : score weights candidate trustScore = .ok scored)
    (made' : score weights candidate' trustScore' = .ok scored')
    (charged : penaltyOf weights candidate = penaltyOf weights candidate')
    (raised : ∀ f, rawFeature weights candidate trustScore f ≤ rawFeature weights candidate' trustScore' f) :
    scored.rankScore ≤ scored'.rankScore := by
  obtain ⟨penalty, own, -, total, -⟩ := score_eq made
  obtain ⟨penalty', own', -, total', -⟩ := score_eq made'
  rw [charged, own', Except.ok.injEq] at own
  rw [total, total', own]
  exact sub_le_sub_right (termsOf_mono fun f => clamp_mono ordered (raised f)) penalty

/-- The score of a candidate returns, says what the published weights say, charges no less for more
policy events, and falls under no raising of a feature. -/
structure ScoreLaws (weights : RankingWeights) (candidate trustScore : Wire F) : Prop where
  returns : ∃ scored, score weights candidate trustScore = .ok scored
  published : ∀ scored, score weights candidate trustScore = .ok scored →
    Published weights candidate trustScore scored
  unitFeatures : ∀ f, 0 ≤ featureOf weights candidate trustScore f ∧
    featureOf weights candidate trustScore f ≤ 1
  neutral : ∀ f, numberOf (featureSource candidate trustScore f) = none →
    featureOf weights candidate trustScore f = 1 / 2
  charges : ∀ (candidate' : Wire F) (kinds kinds' : List Str) (penalty penalty' : ℚ), policyEvents candidate = .ok kinds →
    policyEvents candidate' = .ok kinds' → kinds.Subperm kinds' →
    candidate.get penaltyComponent = candidate'.get penaltyComponent →
    penaltyOf weights candidate = .ok penalty → penaltyOf weights candidate' = .ok penalty' →
    penalty ≤ penalty'
  raised : ∀ (candidate' trustScore' : Wire F) (scored scored' : Scored), score weights candidate trustScore = .ok scored →
    score weights candidate' trustScore' = .ok scored' →
    penaltyOf weights candidate = penaltyOf weights candidate' →
    (∀ f, rawFeature weights candidate trustScore f ≤ rawFeature weights candidate' trustScore' f) →
    scored.rankScore ≤ scored'.rankScore

omit [Spelling F] in
theorem published_bounds {env : Str → Option Str} {weights : RankingWeights}
    (loaded : RankingWeights.fromEnv F env = .ok weights) :
    weights.normalization = RankingWeights.publishedBounds := by
  unfold RankingWeights.fromEnv at loaded
  obtain ⟨_, -, loaded⟩ := bind_eq_ok.mp loaded
  obtain ⟨_, -, loaded⟩ := bind_eq_ok.mp loaded
  obtain ⟨_, -, loaded⟩ := bind_eq_ok.mp loaded
  obtain ⟨_, -, loaded⟩ := bind_eq_ok.mp loaded
  obtain ⟨_, -, loaded⟩ := bind_eq_ok.mp loaded
  unfold RankingWeights.validated at loaded
  split at loaded
  · rw [← Except.ok.inj loaded]
  · cases loaded

theorem score_lawful_iff {env : Str → Option Str} {weights : RankingWeights}
    (loaded : RankingWeights.fromEnv F env = .ok weights) (candidate trustScore : Wire F) :
    ScoreLaws weights candidate trustScore ↔ Scorable candidate trustScore := by
  have bounds := published_bounds loaded
  have ordered : weights.normalization.featureMin ≤ weights.normalization.featureMax := by
    rw [bounds]
    norm_num [RankingWeights.publishedBounds]
  constructor
  · intro laws
    exact score_returns.mp laws.returns
  · intro scorable
    refine ⟨score_returns.mpr scorable, fun _ => published_of_score ordered, ?_, ?_, ?_, ?_⟩
    · intro f
      have within := clamp_bounds ordered (rawFeature weights candidate trustScore f)
      rw [bounds] at within
      rw [featureOf, bounded, bounds]
      exact within
    · intro f absent
      rw [featureOf, rawFeature, absent, bounded, bounds, Option.getD_none]
      cases f <;> norm_num [whenAbsent, bounds, RankingWeights.publishedBounds, clamp, intentMatchWhenAbsent]
    · intro _ _ _ _ _ walked walked' included declared charged charged'
      exact penaltyOf_mono walked walked' included declared charged charged'
    · intro _ _ _ _ made made' charged raised
      exact rankScore_mono ordered made made' charged raised

end Scoring

/-! ## A number too large to be read -/

def matching (n : Int) : Wire Binary64 := .object [(str "intent_match", .number (.integer n))]

theorem average_match_lawful : letI := Unicode.ascii; letI := Spelling.strings Binary64
    ScoreLaws RankingWeights.defaults (matching 1) (.null : Wire Binary64) := by
  let _ := Unicode.ascii
  let _ := Spelling.strings Binary64
  apply (score_lawful_iff (RankingWeights.fromEnv_silent Binary64) (matching 1) .null).mpr
  refine ⟨?_, rfl, nofun⟩
  intro f
  cases f
  · decide +kernel
  all_goals rfl

theorem huge_match_raises : letI := Unicode.ascii; letI := Spelling.strings Binary64
    ¬ ScoreLaws RankingWeights.defaults (matching (10 ^ 400)) (.null : Wire Binary64) := by
  let _ := Unicode.ascii
  let _ := Spelling.strings Binary64
  intro laws
  obtain ⟨scored, made⟩ := laws.returns
  have small := (score_returns.mp ⟨scored, made⟩).features .intentMatch
  have large : Wire.huge (.number (.integer (10 ^ 400)) : Wire Binary64) = true := by decide +kernel
  exact Bool.noConfusion (large.symm.trans small)

end Proxyshop.Ranking
