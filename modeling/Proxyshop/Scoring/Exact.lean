import Proxyshop.Scoring.Engine
import Mathlib.Analysis.SpecialFunctions.Pow.Real

/-!
# Laws of the trust score

The engine's arithmetic in exact numbers, over observations whose dimension, type and weight are
valid by their type.
-/

namespace Proxyshop.Scoring.Exact

open Python

/-- `0.5 ** x`. -/
class Halving (K : Type) [Field K] [LinearOrder K] where
  half : K → K
  positive (x : K) : 0 < half x
  below {x : K} (ahead : 0 < x) : half x < 1

noncomputable instance halvingReal : Halving ℝ where
  half x := (1 / 2 : ℝ) ^ x
  positive x := Real.rpow_pos_of_pos (by norm_num) x
  below ahead := Real.rpow_lt_one (by norm_num) (by norm_num) ahead

/-! ## The arithmetic -/

section Arithmetic

variable {K : Type} [Field K] [LinearOrder K]

structure Manifest (K : Type) [Field K] [LinearOrder K] where
  observationWeights : Dict Str K
  priorAlpha : K
  priorBeta : K
  halfLifeDays : K
  weights_nonneg : ∀ e ∈ observationWeights, 0 ≤ e.2
  alpha_pos : 0 < priorAlpha
  beta_pos : 0 < priorBeta

/-- An observation that the score accepts; an instant is its microseconds since a fixed day. -/
structure Observation (m : Manifest K) where
  dim : Dimension
  type : Str
  published : (Dict.get? m.observationWeights type).isSome
  relative : K
  bounded : 0 ≤ relative ∧ relative ≤ 1
  observedAt : Option Int

def Observation.polarity {m : Manifest K} (o : Observation m) : Polarity :=
  (Dict.get? observationPolarity o.type).getD .negative

def Observation.deciding {m : Manifest K} (o : Observation m) : Prop := o.type ∈ decidingObservationTypes

instance {m : Manifest K} (o : Observation m) : Decidable o.deciding :=
  inferInstanceAs (Decidable (o.type ∈ decidingObservationTypes))

/-- The published weight of the type, scaled by what this report is worth. -/
def Observation.weight {m : Manifest K} (o : Observation m) : K :=
  (Dict.get? m.observationWeights o.type).get o.published * o.relative

structure Entry (K : Type) where
  alpha : K
  beta : K
  observations : Nat
  decided : Nat
  evidence : K
  mass : K
  decidedMass : K

def blankDimension (m : Manifest K) : Entry K := ⟨m.priorAlpha, m.priorBeta, 0, 0, 0, 0, 0⟩

def Entry.observe {m : Manifest K} (entry : Entry K) (o : Observation m) (decay : K) : Entry K :=
  { alpha := if o.polarity = .positive then entry.alpha + o.weight * decay else entry.alpha
    beta := if o.polarity = .negative then entry.beta + o.weight * decay else entry.beta
    observations := entry.observations + 1
    decided := if o.deciding then entry.decided + 1 else entry.decided
    evidence := if o.deciding then entry.evidence + o.weight * decay else entry.evidence
    mass := entry.mass + decay
    decidedMass := if o.deciding then entry.decidedMass + o.relative * decay else entry.decidedMass }

def Entry.mean (entry : Entry K) : K := entry.alpha / (entry.alpha + entry.beta)

def Entry.coverage (entry : Entry K) : K := if 0 < entry.mass then entry.decidedMass / entry.mass else 0

abbrev Entries (K : Type) := Dimension → Entry K

def total (f : Entry K → K) (entries : Entries K) : K := (trustDimensions.map fun d => f (entries d)).sum

variable [Halving K]

def ageDays (observedAt asOf : Option Int) : Option K :=
  observedAt.bind fun observed => asOf.map fun reference => ((reference - observed : Int) : K) / 1000000 / 86400

def decayFactor (m : Manifest K) (observedAt asOf : Option Int) : K :=
  if m.halfLifeDays ≤ 0 then 1
  else
    (ageDays observedAt asOf).elim 1 fun ageDays : K =>
      if ageDays ≤ 0 then 1 else Halving.half (ageDays / m.halfLifeDays)

def observe (m : Manifest K) (asOf : Option Int) (entries : Entries K) (o : Observation m) : Entries K :=
  fun d => if d = o.dim then (entries d).observe o (decayFactor m o.observedAt asOf) else entries d

def fold (m : Manifest K) (asOf : Option Int) (observations : List (Observation m)) : Entries K :=
  observations.foldl (observe m asOf) fun _ => blankDimension m

def confidenceFloor : K := 1 / 20

def confidence (evidenceMass decidedMass totalMass : K) : K :=
  if evidenceMass ≤ 0 ∨ totalMass ≤ 0 then confidenceFloor
  else
    confidenceFloor + (1 - confidenceFloor) * (1 - Halving.half (evidenceMass / 12)) * (decidedMass / totalMass)

structure Snapshot (K : Type) where
  score : K
  confidence : K
  effectiveEvidence : K
  dims : Dimension → Entry K

def score (m : Manifest K) (asOf : Option Int) (observations : List (Observation m)) : Snapshot K :=
  let entries := fold m asOf observations
  { score := total Entry.mean entries / 6
    confidence := confidence (total Entry.evidence entries) (total Entry.decidedMass entries)
      (total Entry.mass entries)
    effectiveEvidence := total Entry.evidence entries
    dims := entries }

end Arithmetic

/-! ## What the fold keeps -/

section Laws

variable {K : Type} [Field K] [LinearOrder K] [IsStrictOrderedRing K]

/-- The transcription the engine falls back to. -/
def Manifest.published : Manifest K where
  observationWeights := [(str "verified", 1), (str "fulfilled", 1), (str "unsupported", 1 / 2), (str "ambiguous", 0),
    (str "contradicted", 2), (str "mismatch_return", 3 / 2), (str "severe_policy", 3)]
  priorAlpha := 2
  priorBeta := 2
  halfLifeDays := 30
  weights_nonneg := by simp only [List.forall_mem_cons]; norm_num
  alpha_pos := two_pos
  beta_pos := two_pos

variable {m : Manifest K}

structure Entry.Sound (entry : Entry K) : Prop where
  alpha : 0 < entry.alpha
  beta : 0 < entry.beta
  evidence : 0 ≤ entry.evidence
  decided : 0 ≤ entry.decidedMass
  share : entry.decidedMass ≤ entry.mass

theorem Observation.weight_nonneg (o : Observation m) : 0 ≤ o.weight := by
  obtain ⟨w, found⟩ := Option.isSome_iff_exists.mp o.published
  have published : 0 ≤ w := m.weights_nonneg _ (Dict.mem_of_get? found)
  simp only [Observation.weight, found, Option.get_some]
  exact mul_nonneg published o.bounded.1

theorem Entry.Sound.observe {entry : Entry K} (sound : entry.Sound) (o : Observation m) {decay : K}
    (positive : 0 < decay) : (entry.observe o decay).Sound := by
  have gain : 0 ≤ o.weight * decay := mul_nonneg o.weight_nonneg positive.le
  have decided : 0 ≤ o.relative * decay := mul_nonneg o.bounded.1 positive.le
  have share : o.relative * decay ≤ decay := mul_le_of_le_one_left positive.le o.bounded.2
  obtain ⟨alpha, beta, evidence, some, below⟩ := sound
  constructor
  · dsimp only [Entry.observe]
    split <;> linarith
  · dsimp only [Entry.observe]
    split <;> linarith
  · dsimp only [Entry.observe]
    split <;> linarith
  · dsimp only [Entry.observe]
    split <;> linarith
  · dsimp only [Entry.observe]
    split <;> linarith

omit [IsStrictOrderedRing K] in
theorem Entry.Sound.mass {entry : Entry K} (sound : entry.Sound) : 0 ≤ entry.mass :=
  sound.decided.trans sound.share

theorem Entry.Sound.mean_pos {entry : Entry K} (sound : entry.Sound) : 0 < entry.mean :=
  div_pos sound.alpha (add_pos sound.alpha sound.beta)

theorem Entry.Sound.mean_lt_one {entry : Entry K} (sound : entry.Sound) : entry.mean < 1 :=
  (div_lt_one (add_pos sound.alpha sound.beta)).mpr (lt_add_of_pos_right _ sound.beta)

theorem Entry.Sound.coverage_bounds {entry : Entry K} (sound : entry.Sound) :
    0 ≤ entry.coverage ∧ entry.coverage ≤ 1 := by
  rw [Entry.coverage]
  split
  · exact ⟨div_nonneg sound.decided sound.mass, div_le_one_of_le₀ sound.share sound.mass⟩
  · exact ⟨le_rfl, zero_le_one⟩

/-- More of the first and no more of the second raises the mean. -/
theorem mean_mono {e e' : Entry K} (sound : e.Sound) (sound' : e'.Sound) (alpha : e.alpha ≤ e'.alpha)
    (beta : e'.beta ≤ e.beta) : e.mean ≤ e'.mean := by
  rw [Entry.mean, Entry.mean, div_le_div_iff₀ (add_pos sound.alpha sound.beta)
    (add_pos sound'.alpha sound'.beta)]
  have product : e.alpha * e'.beta ≤ e'.alpha * e.beta :=
    mul_le_mul alpha beta sound'.beta.le sound'.alpha.le
  calc e.alpha * (e'.alpha + e'.beta) = e.alpha * e'.alpha + e.alpha * e'.beta := mul_add ..
    _ ≤ e.alpha * e'.alpha + e'.alpha * e.beta := by gcongr
    _ = e'.alpha * (e.alpha + e.beta) := by ring

theorem total_mono {f g : Entry K → K} {entries entries' : Entries K}
    (each : ∀ d, f (entries d) ≤ g (entries' d)) : total f entries ≤ total g entries' :=
  List.sum_le_sum fun d _ => each d

theorem total_nonneg {f : Entry K → K} {entries : Entries K} (each : ∀ d, 0 ≤ f (entries d)) :
    0 ≤ total f entries := by
  refine List.sum_nonneg fun x member => ?_
  obtain ⟨d, -, rfl⟩ := List.mem_map.mp member
  exact each d

theorem score_bounds {entries : Entries K} (sound : ∀ d, (entries d).Sound) :
    0 < total Entry.mean entries / 6 ∧ total Entry.mean entries / 6 < 1 := by
  have above := fun d => (sound d).mean_pos
  have below := fun d => (sound d).mean_lt_one
  have spread : total Entry.mean entries = (entries .priceHonored).mean + (entries .discountHonored).mean +
      (entries .shippedOnTime).mean + (entries .notReturned).mean + (entries .feedbackMatch).mean +
      (entries .catalogClaimAccuracy).mean := by
    simp only [total, trustDimensions, List.map_cons, List.map_nil, List.sum_cons, List.sum_nil]
    ring
  rw [spread, div_lt_one (by norm_num)]
  constructor
  · have := above .priceHonored
    have := above .discountHonored
    have := above .shippedOnTime
    have := above .notReturned
    have := above .feedbackMatch
    have := above .catalogClaimAccuracy
    positivity
  · linarith [below .priceHonored, below .discountHonored, below .shippedOnTime, below .notReturned,
      below .feedbackMatch, below .catalogClaimAccuracy]

variable [Halving K]

theorem confidence_bounds {evidence decided mass : K} (some : 0 ≤ decided) (share : decided ≤ mass) :
    confidenceFloor ≤ confidence evidence decided mass ∧ confidence evidence decided mass < 1 := by
  have floor : (confidenceFloor : K) < 1 := by
    rw [confidenceFloor]
    norm_num
  rw [confidence]
  split
  · exact ⟨le_rfl, floor⟩
  · rename_i stated
    obtain ⟨evident, seen⟩ := not_or.mp stated
    have span := Halving.positive (evidence / 12)
    have small := Halving.below (div_pos (not_le.mp evident) (by norm_num : (0 : K) < 12))
    have cover : decided / mass ≤ 1 := div_le_one_of_le₀ share (not_le.mp seen).le
    have least : 0 ≤ decided / mass := div_nonneg some (not_le.mp seen).le
    have room : 0 < (1 : K) - confidenceFloor := sub_pos.mpr floor
    constructor
    · have : 0 ≤ (1 - confidenceFloor) * (1 - Halving.half (evidence / 12)) * (decided / mass) :=
        mul_nonneg (mul_nonneg room.le (sub_nonneg.mpr small.le)) least
      linarith
    · have earned : (1 - confidenceFloor) * (1 - Halving.half (evidence / 12)) * (decided / mass) ≤
          (1 - confidenceFloor) * (1 - Halving.half (evidence / 12)) :=
        mul_le_of_le_one_right (mul_nonneg room.le (sub_nonneg.mpr small.le)) cover
      have short : (1 - confidenceFloor) * (1 - Halving.half (evidence / 12)) < 1 - confidenceFloor :=
        mul_lt_of_lt_one_right room (by linarith)
      linarith

/-- More mass of the same evidence earns no more confidence. -/
theorem confidence_anti {evidence decided mass mass' : K} (some : 0 ≤ decided) (share : decided ≤ mass)
    (more : mass ≤ mass') : confidence evidence decided mass' ≤ confidence evidence decided mass := by
  by_cases stated : evidence ≤ 0 ∨ mass ≤ 0
  · rw [confidence, confidence, if_pos stated]
    obtain none | none := stated
    · rw [if_pos (Or.inl none)]
    · have zero : decided = 0 := le_antisymm (share.trans none) some
      split
      · exact le_rfl
      · rw [zero, zero_div, mul_zero, add_zero]
  · obtain ⟨evident, seen⟩ := not_or.mp stated
    have seen' : ¬ mass' ≤ 0 := fun none => seen (more.trans none)
    rw [confidence, confidence, if_neg stated, if_neg (not_or.mpr ⟨evident, seen'⟩)]
    have small := Halving.below (div_pos (not_le.mp evident) (by norm_num : (0 : K) < 12))
    have floor : (0 : K) ≤ 1 - confidenceFloor := by
      rw [confidenceFloor]
      norm_num
    have ratio : decided / mass' ≤ decided / mass := div_le_div_of_nonneg_left some (not_le.mp seen) more
    have scale : 0 ≤ (1 - confidenceFloor) * (1 - Halving.half (evidence / 12)) :=
      mul_nonneg floor (sub_nonneg.mpr small.le)
    linarith [mul_le_mul_of_nonneg_left ratio scale]

theorem decayFactor_pos (observedAt asOf : Option Int) : 0 < decayFactor m observedAt asOf := by
  rw [decayFactor]
  split
  · exact one_pos
  · cases ageDays (K := K) observedAt asOf with
    | none => exact one_pos
    | some age =>
        rw [Option.elim_some]
        split
        · exact one_pos
        · exact Halving.positive _

/-- A further observation leaves a dimension alone or is counted in it. -/
theorem appended_cases (asOf : Option Int) (l : List (Observation m)) (o : Observation m) (d : Dimension) :
    fold m asOf (l ++ [o]) d = fold m asOf l d ∨
      ∃ decay, 0 < decay ∧ fold m asOf (l ++ [o]) d = (fold m asOf l d).observe o decay := by
  rw [fold, List.foldl_append]
  by_cases same : d = o.dim
  · exact Or.inr ⟨_, decayFactor_pos _ _, if_pos same⟩
  · exact Or.inl (if_neg same)

theorem sound_fold (asOf : Option Int) (l : List (Observation m)) (d : Dimension) : (fold m asOf l d).Sound := by
  induction l using List.reverseRecOn with
  | nil => exact ⟨m.alpha_pos, m.beta_pos, le_rfl, le_rfl, le_rfl⟩
  | append_singleton l o ih =>
      obtain same | ⟨decay, ahead, grown⟩ := appended_cases asOf l o d
      · rw [same]
        exact ih
      · rw [grown]
        exact ih.observe o ahead

omit [Halving K] in
theorem Entry.observe_positive (entry : Entry K) {o : Observation m} (positive : o.polarity = .positive)
    {decay : K} (ahead : 0 < decay) :
    entry.alpha ≤ (entry.observe o decay).alpha ∧ (entry.observe o decay).beta = entry.beta := by
  have gain := mul_nonneg o.weight_nonneg ahead.le
  dsimp only [Entry.observe]
  rw [if_pos positive, if_neg (by rw [positive]; decide)]
  exact ⟨le_add_of_nonneg_right gain, rfl⟩

omit [Halving K] in
theorem Entry.observe_negative (entry : Entry K) {o : Observation m} (negative : o.polarity = .negative)
    {decay : K} (ahead : 0 < decay) :
    (entry.observe o decay).alpha = entry.alpha ∧ entry.beta ≤ (entry.observe o decay).beta := by
  have gain := mul_nonneg o.weight_nonneg ahead.le
  dsimp only [Entry.observe]
  rw [if_pos negative, if_neg (by rw [negative]; decide)]
  exact ⟨rfl, le_add_of_nonneg_right gain⟩

omit [Halving K] in
theorem Entry.observe_undecided (entry : Entry K) {o : Observation m} (idle : o.deciding → o.relative = 0)
    {decay : K} (ahead : 0 < decay) : (entry.observe o decay).evidence = entry.evidence ∧
      (entry.observe o decay).decidedMass = entry.decidedMass ∧ entry.mass ≤ (entry.observe o decay).mass := by
  refine ⟨?_, ?_, le_add_of_nonneg_right ahead.le⟩
  · dsimp only [Entry.observe]
    split
    · rename_i decides
      rw [Observation.weight, idle decides, mul_zero, zero_mul, add_zero]
    · rfl
  · dsimp only [Entry.observe]
    split
    · rename_i decides
      rw [idle decides, zero_mul, add_zero]
    · rfl

theorem score_positive (asOf : Option Int) (l : List (Observation m)) {o : Observation m}
    (positive : o.polarity = .positive) : (score m asOf l).score ≤ (score m asOf (l ++ [o])).score := by
  refine div_le_div_of_nonneg_right (total_mono fun d => ?_) (by norm_num)
  have sound' := sound_fold asOf (l ++ [o]) d
  obtain same | ⟨decay, ahead, grown⟩ := appended_cases asOf l o d
  · rw [same]
  · rw [grown] at sound' ⊢
    obtain ⟨alpha, beta⟩ := (fold m asOf l d).observe_positive positive ahead
    exact mean_mono (sound_fold asOf l d) sound' alpha beta.le

theorem score_negative (asOf : Option Int) (l : List (Observation m)) {o : Observation m}
    (negative : o.polarity = .negative) : (score m asOf (l ++ [o])).score ≤ (score m asOf l).score := by
  refine div_le_div_of_nonneg_right (total_mono fun d => ?_) (by norm_num)
  have sound' := sound_fold asOf (l ++ [o]) d
  obtain same | ⟨decay, ahead, grown⟩ := appended_cases asOf l o d
  · rw [same]
  · rw [grown] at sound' ⊢
    obtain ⟨alpha, beta⟩ := (fold m asOf l d).observe_negative negative ahead
    exact mean_mono sound' (sound_fold asOf l d) alpha.le beta

theorem dims_neutral (asOf : Option Int) (l : List (Observation m)) {o : Observation m}
    (neutral : o.polarity = .neutral) (d : Dimension) :
    ((score m asOf (l ++ [o])).dims d).alpha = ((score m asOf l).dims d).alpha ∧
      ((score m asOf (l ++ [o])).dims d).beta = ((score m asOf l).dims d).beta := by
  change (fold m asOf (l ++ [o]) d).alpha = (fold m asOf l d).alpha ∧
    (fold m asOf (l ++ [o]) d).beta = (fold m asOf l d).beta
  obtain same | ⟨decay, -, grown⟩ := appended_cases asOf l o d
  · rw [same]
    exact ⟨rfl, rfl⟩
  · rw [grown]
    dsimp only [Entry.observe]
    rw [if_neg (by rw [neutral]; decide), if_neg (by rw [neutral]; decide)]
    exact ⟨rfl, rfl⟩

theorem confidence_undecided (asOf : Option Int) (l : List (Observation m)) {o : Observation m}
    (idle : o.deciding → o.relative = 0) :
    (score m asOf (l ++ [o])).confidence ≤ (score m asOf l).confidence := by
  have sound := sound_fold asOf l
  have step (d : Dimension) : (fold m asOf (l ++ [o]) d).evidence = (fold m asOf l d).evidence ∧
      (fold m asOf (l ++ [o]) d).decidedMass = (fold m asOf l d).decidedMass ∧
        (fold m asOf l d).mass ≤ (fold m asOf (l ++ [o]) d).mass := by
    obtain same | ⟨decay, ahead, grown⟩ := appended_cases asOf l o d
    · rw [same]
      exact ⟨rfl, rfl, le_rfl⟩
    · rw [grown]
      exact (fold m asOf l d).observe_undecided idle ahead
  have evidence : total Entry.evidence (fold m asOf (l ++ [o])) = total Entry.evidence (fold m asOf l) :=
    congrArg List.sum (List.map_congr_left fun d _ => (step d).1)
  have decided : total Entry.decidedMass (fold m asOf (l ++ [o])) = total Entry.decidedMass (fold m asOf l) :=
    congrArg List.sum (List.map_congr_left fun d _ => (step d).2.1)
  dsimp only [score]
  rw [evidence, decided]
  exact confidence_anti (total_nonneg fun d => (sound d).decided) (total_mono fun d => (sound d).share)
    (total_mono fun d => (step d).2.2)

end Laws

/-- The laws of the score over the reals: its bounds, and what appending one observation does. -/
theorem score_laws (m : Manifest ℝ) (asOf : Option Int) (l : List (Observation m)) :
    (0 < (score m asOf l).score ∧ (score m asOf l).score < 1) ∧
      (confidenceFloor ≤ (score m asOf l).confidence ∧ (score m asOf l).confidence < 1) ∧
      (∀ d, 0 ≤ ((score m asOf l).dims d).coverage ∧ ((score m asOf l).dims d).coverage ≤ 1) ∧
      ∀ o : Observation m,
        (o.polarity = .positive → (score m asOf l).score ≤ (score m asOf (l ++ [o])).score) ∧
        (o.polarity = .negative → (score m asOf (l ++ [o])).score ≤ (score m asOf l).score) ∧
        (o.type = str "ambiguous" → ∀ d,
          ((score m asOf (l ++ [o])).dims d).alpha = ((score m asOf l).dims d).alpha ∧
            ((score m asOf (l ++ [o])).dims d).beta = ((score m asOf l).dims d).beta) ∧
        (¬ o.deciding ∨ o.relative = 0 →
          (score m asOf (l ++ [o])).confidence ≤ (score m asOf l).confidence) := by
  have sound := sound_fold asOf l
  refine ⟨score_bounds sound, confidence_bounds (total_nonneg fun d => (sound d).decided)
    (total_mono fun d => (sound d).share), fun d => (sound d).coverage_bounds, fun o => ⟨?_, ?_, ?_, ?_⟩⟩
  · exact fun positive => score_positive asOf l positive
  · exact fun negative => score_negative asOf l negative
  · intro ambiguous
    refine dims_neutral asOf l ?_
    rw [Observation.polarity, ambiguous]
    decide
  · rintro (idle | idle)
    · exact confidence_undecided asOf l fun decides => absurd decides idle
    · exact confidence_undecided asOf l fun _ => idle

end Proxyshop.Scoring.Exact
