import Proxyshop.Learning.Prior

/-!
# What a store has learned

A state keeps, for every cluster, the tallies of the store's own outcomes, and an update folds a batch
of outcome rows into a new state.
-/

namespace Proxyshop.Learning

open Python Numbers Contracts Structures Verification

/-! ## States -/

structure DepthTally (F : Type) where
  depth : Extended F
  wins : Int
  losses : Int

structure ClusterLearning (F : Type) where
  clusterId : Str
  depths : List (DepthTally F)
  commitments : List Tally
  observations : Int
  wins : Int
  variants : List Tally

structure StoreLearningState (F : Type) where
  storeId : Option Str
  depthBuckets : List (Extended F)
  prior : NetworkPrior
  clusters : List (ClusterLearning F)
  observations : Int

def initialState {F : Type} (prior : NetworkPrior) (storeId : Option Str)
    (depthBuckets : List (Extended F)) : StoreLearningState F where
  storeId := storeId
  depthBuckets := depthBuckets
  prior := prior
  clusters := []
  observations := 0

def StoreLearningState.cluster {F : Type} (s : StoreLearningState F) (clusterId : Str) :
    Option (ClusterLearning F) :=
  s.clusters.find? fun learned => learned.clusterId = clusterId

/-! ## Outcome rows -/

def pitchVariants : List Str :=
  ["buyer_led", "specs_led", "assurance_led", "availability_led"].map str

structure OutcomeRow where
  clusterId : Str
  won : Bool
  rung : Nat
  commitments : List Str
  variant : Option Str

namespace StoreLearningState

section Reading

variable {F : Type} [Format F] [Unicode] [Spelling F] (s : StoreLearningState F)

omit [Format F] [Unicode] in
/-- `_is_own`. -/
def isOwn (record : Wire F) : Except PyError Bool :=
  match s.storeId with
  | none => .ok true
  | some storeId =>
      match record.get (str "store_id") with
      | .null => .ok false
      | rowStore => do return (← textOf rowStore) = storeId

omit [Spelling F] in
/-- `_row_depth`. -/
def rowDepth (record : Wire F) : Except PyError (Option (Extended F)) := do
  match ← asFraction (record.get (str "discount_depth")) with
  | some depth => return some depth
  | none => percentAsFraction (record.get (str "discount_pct"))

/-- An item of a list of commitments: a mapping is known by its key. -/
def itemOf : Wire F → Wire F
  | .object members => (Json.object members).get (str "key")
  | item => item

omit [Unicode] in
/-- `_labels`. -/
def labels : Wire F → Except PyError (List Str)
  | .null => .ok []
  | .string s => .ok (if s.isEmpty then [] else [s])
  | .object members => .ok (keyTexts members)
  | .array items => ((items.map itemOf).filter Wire.truthy).mapM textOf
  | value => do return [← textOf value]

/-- The variant of the closed vocabulary that the row names. -/
def rowVariant (record : Wire F) : Option Str :=
  match record.get (str "pitch_variant") with
  | .string candidate => if candidate ∈ pitchVariants then some candidate else none
  | _ => none

/-- The outcome of a row of a cluster, if it states a depth. -/
def readOutcome (record : Wire F) (clusterId : Str) : Except PyError (Option OutcomeRow) := do
  match ← rowDepth record with
  | none => return none
  | some depth =>
      let rung ← bucketIndex s.depthBuckets depth
      let commitments ← labels (record.get (str "commitments"))
      return some
        { clusterId, won := Wire.truthy (record.get (str "won")), rung, commitments
          variant := rowVariant record }

/-- The outcome of a row, if it is the store's own and names a cluster. -/
def readRow (record : Wire F) : Except PyError (Option OutcomeRow) := do
  if ← s.isOwn record then
    let clusterId ← textOrEmpty (record.get (str "cluster_id"))
    if clusterId.isEmpty then return none else s.readOutcome record clusterId
  else return none

end Reading
end StoreLearningState

/-! ## Folding a batch -/

/-- `_ClusterScratch`. -/
structure ClusterScratch where
  clusterId : Str
  wins : List Int
  losses : List Int
  commitments : Counts Str
  variants : Counts Str
  observations : Int
  wonCount : Int

namespace ClusterScratch

variable {F : Type}

def padded (rungs : Nat) (counts : List Int) : List Int :=
  counts.take rungs ++ List.replicate (rungs - counts.length) 0

def tabled (tallies : List Tally) : Counts Str :=
  Dict.update [] (tallies.map fun tally => (tally.label, tally.wins, tally.observations))

/-- `of`. -/
def ofLearned (learned : Option (ClusterLearning F)) (clusterId : Str) (rungs : Nat) : ClusterScratch where
  clusterId := clusterId
  wins := padded rungs (learned.elim [] fun learned => learned.depths.map DepthTally.wins)
  losses := padded rungs (learned.elim [] fun learned => learned.depths.map DepthTally.losses)
  commitments := learned.elim [] fun learned => tabled learned.commitments
  variants := learned.elim [] fun learned => tabled learned.variants
  observations := learned.elim 0 ClusterLearning.observations
  wonCount := learned.elim 0 ClusterLearning.wins

def freeze (slot : ClusterScratch) (buckets : List (Extended F)) : ClusterLearning F where
  clusterId := slot.clusterId
  depths := (buckets.zip (slot.wins.zip slot.losses)).map fun rung =>
    { depth := rung.1, wins := rung.2.1, losses := rung.2.2 }
  commitments := freezeTable slot.commitments
  observations := slot.observations
  wins := slot.wonCount
  variants := freezeTable slot.variants

def count (slot : ClusterScratch) (row : OutcomeRow) : ClusterScratch :=
  { slot with
    wins := if row.won then slot.wins.modify row.rung (· + 1) else slot.wins
    losses := if row.won then slot.losses else slot.losses.modify row.rung (· + 1)
    wonCount := slot.wonCount + if row.won then 1 else 0
    observations := slot.observations + 1
    commitments := row.commitments.foldl (bump row.won) slot.commitments
    variants := row.variant.toList.foldl (bump row.won) slot.variants }

end ClusterScratch

namespace StoreLearningState

section Update

variable {F : Type} (s : StoreLearningState F)

def rehydrated (clusterId : Str) : ClusterScratch :=
  .ofLearned (s.cluster clusterId) clusterId s.depthBuckets.length

def scratchOf (rows : List OutcomeRow) : Dict Str ClusterScratch :=
  rows.foldl (filed OutcomeRow.clusterId s.rehydrated ClusterScratch.count) []

def evolve (rows : List OutcomeRow) : StoreLearningState F :=
  let scratch := s.scratchOf rows
  let untouched := s.clusters.filter fun learned => !Dict.contains scratch learned.clusterId
  let evolved := (byKey Str.le scratch).map fun entry => entry.2.freeze s.depthBuckets
  { s with
    clusters := sortBy Str.le ClusterLearning.clusterId (untouched ++ evolved)
    observations := s.observations + rows.length }

variable [Format F] [Unicode] [Spelling F]

/-- `update`. -/
def update (records : List (Wire F)) : Except PyError (StoreLearningState F) := do
  let read ← records.mapM s.readRow
  return s.evolve read.reduceOption

end Update
end StoreLearningState
end Proxyshop.Learning
