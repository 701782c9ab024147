import Proxyshop.Python.Value

/-!
# The trust score

Observations fold into one Beta posterior a dimension. The manifest's constants are a parameter;
`Manifest.published` is the transcription the engine falls back to.
-/

namespace Proxyshop.Scoring

open Python

inductive Dimension
  | priceHonored
  | discountHonored
  | shippedOnTime
  | notReturned
  | feedbackMatch
  | catalogClaimAccuracy
  deriving DecidableEq

def Dimension.name : Dimension → Str
  | .priceHonored => str "price_honored"
  | .discountHonored => str "discount_honored"
  | .shippedOnTime => str "shipped_on_time"
  | .notReturned => str "not_returned"
  | .feedbackMatch => str "feedback_match"
  | .catalogClaimAccuracy => str "catalog_claim_accuracy"

def trustDimensions : List Dimension :=
  [.priceHonored, .discountHonored, .shippedOnTime, .notReturned, .feedbackMatch, .catalogClaimAccuracy]

inductive ScoreError
  | unknownTrustDimension
  | unknownObservationType
  | invalidObservationWeight
  | python (e : PyError)
  deriving DecidableEq

/-- A trust observation; a missing weight is a key the projection left out. -/
structure Observation where
  storeId : Value
  dim : Value
  type : Value
  observedAt : Value
  weight : Option Value

/-- The observation with the weight an absent one counts as. -/
def Observation.explicit (o : Observation) : Observation :=
  { o with weight := some (o.weight.getD (.float 1.0)) }

inductive Polarity
  | positive
  | negative
  | neutral
  deriving DecidableEq

structure Manifest where
  observationWeights : Dict Str Float
  priorAlpha : Float
  priorBeta : Float
  halfLifeDays : Float

def Manifest.published : Manifest where
  observationWeights := [(str "verified", 1.0), (str "fulfilled", 1.0), (str "unsupported", 0.5),
    (str "ambiguous", 0.0), (str "contradicted", 2.0), (str "mismatch_return", 1.5),
    (str "severe_policy", 3.0)]
  priorAlpha := 2.0
  priorBeta := 2.0
  halfLifeDays := 30.0

def observationPolarity : Dict Str Polarity :=
  [(str "verified", .positive), (str "fulfilled", .positive), (str "unsupported", .negative),
    (str "ambiguous", .neutral), (str "contradicted", .negative), (str "mismatch_return", .negative),
    (str "severe_policy", .negative)]

def decidingObservationTypes : List Str :=
  ["verified", "fulfilled", "contradicted", "mismatch_return", "severe_policy"].map str

def maxObservationWeight : Float := 1.0

def confidenceFloor : Float := 0.05

def confidenceEvidenceHalfLife : Float := 12.0

def scoreVersion : Str := str "trust-score-1.0.0"

def requireTrustDimension (name : Value) : Except ScoreError Dimension :=
  match name.asStr?.bind fun s => trustDimensions.find? fun d => d.name = s with
  | some d => .ok d
  | none => .error .unknownTrustDimension

section Instants

variable [Unicode]

def parseInstant (value : Value) : Except ScoreError (Option DateTime) :=
  match value with
  | .none => .ok none
  | .datetime t => .ok (some t.aware)
  | value =>
      let text := Str.strip value.toStr
      if text.isEmpty then .ok none
      else
        let zulu := text.getLast? = some (CodePoint.ofChar 'Z') ∨ text.getLast? = some (CodePoint.ofChar 'z')
        match DateTime.fromIsoFormat (if zulu then text.dropLast ++ str "+00:00" else text) with
        | some t => .ok (some t.aware)
        | none => .error (.python .valueError)

def rfc3339 (moment : DateTime) : Except ScoreError Str :=
  match moment.toUtc? with
  | some t => .ok ((t.stamp ++ str "." ++ Str.padded 6 t.microsecond).rdrop 3 ++ str "Z")
  | none => .error (.python .overflowError)

end Instants

/-- `timedelta.total_seconds`. -/
def totalSeconds (micros : Int) : Float :=
  let magnitude := Float.ofScientific micros.natAbs true 6
  if micros < 0 then -magnitude else magnitude

def decayFactor [Unicode] (m : Manifest) (observedAt asOf : Value) : Except ScoreError Float := do
  if m.halfLifeDays ≤ 0.0 then return 1.0
  else
    match ← parseInstant observedAt, ← parseInstant asOf with
    | some observed, some reference =>
        let ageDays := totalSeconds (reference.instant - observed.instant) / 86400.0
        if ageDays ≤ 0.0 then return 1.0 else return Float.pow 0.5 (ageDays / m.halfLifeDays)
    | _, _ => return 1.0

def observationWeight (m : Manifest) (type : Str) : Except ScoreError Float :=
  (Dict.get? m.observationWeights type).elim (.error .unknownObservationType) .ok

def relativeObservationWeight (observation : Observation) : Except ScoreError Float :=
  match observation.weight.getD .none with
  | .none => .ok 1.0
  | .bool _ | .str _ => .error .invalidObservationWeight
  | raw => match raw.toFloat with
      | .error .overflowError => .error (.python .overflowError)
      | .error _ => .error .invalidObservationWeight
      | .ok value =>
          if 0.0 ≤ value ∧ value ≤ maxObservationWeight then .ok value
          else .error .invalidObservationWeight

structure Entry where
  alpha : Float
  beta : Float
  observations : Nat
  decided : Nat
  evidence : Float
  mass : Float
  decidedMass : Float

def blankDimension (m : Manifest) : Entry := ⟨m.priorAlpha, m.priorBeta, 0, 0, 0.0, 0.0, 0.0⟩

/-- What one observation of the given type adds to its dimension. -/
def Entry.observe (entry : Entry) (type : Str) (relative weight decay : Float) : Entry :=
  let polarity := (Dict.get? observationPolarity type).getD .negative
  let deciding := type ∈ decidingObservationTypes
  { alpha := if polarity = .positive then entry.alpha + weight * decay else entry.alpha
    beta := if polarity = .negative then entry.beta + weight * decay else entry.beta
    observations := entry.observations + 1
    decided := if deciding then entry.decided + 1 else entry.decided
    evidence := if deciding then entry.evidence + weight * decay else entry.evidence
    mass := entry.mass + decay
    decidedMass := if deciding then entry.decidedMass + relative * decay else entry.decidedMass }

abbrev Entries := Dimension → Entry

def observe [Unicode] (m : Manifest) (asOf : Value) (entries : Entries) (observation : Observation) :
    Except ScoreError Entries := do
  let dimension ← requireTrustDimension observation.dim
  let type := observation.type.toStr
  let relative ← relativeObservationWeight observation
  let weight := (← observationWeight m type) * relative
  let decay ← decayFactor m observation.observedAt asOf
  return fun d => if d = dimension then (entries d).observe type relative weight decay else entries d

structure DimensionSnapshot where
  alpha : Float
  beta : Float
  decayedAt : Str
  coverage : Float
  observations : Nat
  decided : Nat
  evidence : Float

structure Snapshot where
  score : Float
  confidence : Float
  scoreVersion : Str
  asOf : Str
  decayedAt : Str
  observations : Nat
  effectiveEvidence : Float
  dims : Dimension → DimensionSnapshot

def confidence (evidenceMass decidedMass totalMass : Float) : Float :=
  if evidenceMass ≤ 0.0 ∨ totalMass ≤ 0.0 then confidenceFloor
  else
    let saturation := 1.0 - Float.pow 0.5 (evidenceMass / confidenceEvidenceHalfLife)
    let coverage := decidedMass / totalMass
    confidenceFloor + (1.0 - confidenceFloor) * saturation * coverage

/-- The sum over the six dimensions in their published order. -/
def total (f : Entry → Float) (entries : Entries) : Float :=
  trustDimensions.foldl (fun sum d => sum + f (entries d)) 0.0

def Entry.snapshot (entry : Entry) (asOf : Str) : DimensionSnapshot :=
  ⟨entry.alpha, entry.beta, asOf, if entry.mass > 0.0 then entry.decidedMass / entry.mass else 0.0,
    entry.observations, entry.decided, entry.evidence⟩

def score [Unicode] (m : Manifest) (observations : List Observation) (asOf : Value) :
    Except ScoreError Snapshot := do
  let asOfText ← match ← parseInstant asOf with
    | some reference => rfc3339 reference
    | none => .ok asOf.toStr
  let entries ← observations.foldlM (observe m asOf) fun _ => blankDimension m
  return {
    score := total (fun e => e.alpha / (e.alpha + e.beta)) entries / 6.0
    confidence := confidence (total Entry.evidence entries) (total Entry.decidedMass entries)
      (total Entry.mass entries)
    scoreVersion := scoreVersion
    asOf := asOfText
    decayedAt := asOfText
    observations := (trustDimensions.map fun d => (entries d).observations).sum
    effectiveEvidence := total Entry.evidence entries
    dims := fun d => (entries d).snapshot asOfText }

theorem relativeObservationWeight_explicit (o : Observation) :
    relativeObservationWeight o.explicit = relativeObservationWeight o := by
  unfold relativeObservationWeight Observation.explicit
  cases weight : o.weight with
  | none =>
      have full : 0.0 ≤ (1.0 : Float) ∧ 1.0 ≤ maxObservationWeight := by decide
      simp only [Option.getD_none, Option.getD_some, Value.toFloat]
      rw [if_pos full]
  | some value => simp

theorem score_explicit [Unicode] (m : Manifest) (observations : List Observation) (asOf : Value) :
    score m (observations.map Observation.explicit) asOf = score m observations asOf := by
  have step : (fun entries o => observe m asOf entries (Observation.explicit o)) = observe m asOf := by
    funext entries o
    unfold observe
    rw [relativeObservationWeight_explicit]
    rfl
  unfold score
  rw [List.foldlM_map, step]

end Proxyshop.Scoring
