import Mathlib.Data.Finset.Basic
import Proxyshop.Contracts.Wire
import Proxyshop.Structures.Fibres
import Proxyshop.Verification.Normalize

/-!
# The cross-store network prior

Outcome rows are read by the names of an allowlist and pooled by cluster.
-/

namespace Proxyshop.Learning

open Python Numbers Contracts Structures Verification

/-- No value is spelled as the empty text. -/
class Printing (F : Type) extends Spelling F where
  text_ne_nil (v : Wire F) : text v ≠ []

def discountMarker : Str := str "discount"

def priorRecordFields : List Str :=
  ["cluster_id", "store_id", "value_prop", "pitch_claims", "commitments", "won"].map str

/-- How often one label was pitched in a cluster, and how often it was there for a win. -/
structure Tally where
  label : Str
  wins : Int
  observations : Int
  deriving DecidableEq

structure ClusterPrior where
  clusterId : Str
  observations : Int
  wins : Int
  stores : Int
  valueProps : List Tally
  pitchClaims : List Tally
  commitments : List Tally
  deriving DecidableEq

structure NetworkPrior where
  clusters : List ClusterPrior
  observations : Int
  deriving DecidableEq

/-- `_freeze`. -/
def freezeTable (table : Counts Str) : List Tally :=
  (byKey Str.le table).map fun entry =>
    { label := entry.1, wins := entry.2.1, observations := entry.2.2 }

theorem nodup_labels_freezeTable {table : Counts Str} (distinct : (Dict.keys table).Nodup) :
    ((freezeTable table).map Tally.label).Nodup := by
  have labels : (freezeTable table).map Tally.label = Dict.keys (byKey Str.le table) := by
    rw [freezeTable, List.map_map]
    rfl
  rw [labels]
  exact nodup_byKey distinct

theorem freezeTable_congr {table table' : Counts Str} (distinct : (Dict.keys table).Nodup)
    (distinct' : (Dict.keys table').Nodup) (same : Dict.get? table = Dict.get? table') :
    freezeTable table = freezeTable table' := by
  rw [freezeTable, byKey_congr str_order distinct distinct' same, freezeTable]

section Reading

variable {F : Type} [Format F] [Spelling F]

/-- `str(v or "")`. -/
def textOrEmpty (v : Wire F) : Except PyError Str := if v.truthy then textOf v else .ok []

/-- `prior_view`. -/
def priorView (record : Wire F) : Wire F :=
  .object (priorRecordFields.map fun name => (name, record.get name))

/-- `tuple(sorted(str(k) for k in value))`. -/
def keyTexts (members : Dict Str (Wire F)) : List Str :=
  (Dict.keys members).insertionSort fun a b => Str.le a b

namespace NetworkPrior

def itemLabel : Wire F → Except PyError (Option Str)
  | .object members =>
      match (["key", "label", "name"].map fun name => (Json.object members).get (str name)).find? Wire.truthy with
      | some label => some <$> textOf label
      | none => .ok none
  | item => do
      let text ← textOf item
      return if text.isEmpty then none else some text

/-- `_labels`. -/
def labels : Wire F → Except PyError (List Str)
  | .null => .ok []
  | .string s => .ok (if s.isEmpty then [] else [s])
  | .object members => .ok (keyTexts members)
  | .array items => do return (← items.mapM itemLabel).reduceOption
  | value => do
      let text ← textOf value
      return if text.isEmpty then [] else [text]

/-- What `_ClusterTally.add` reads of a view. -/
structure Row where
  clusterId : Str
  won : Bool
  store : Option Str
  valueProps : List Str
  pitchClaims : List Str
  commitments : List Str

def storeOf (v : Wire F) : Except PyError (Option Str) :=
  if v.truthy then some <$> textOf v else .ok none

def readLabels (view : Wire F) (clusterId : Str) : Except PyError Row := do
  let store ← storeOf (view.get (str "store_id"))
  let valueProps ← labels (view.get (str "value_prop"))
  let pitchClaims ← labels (view.get (str "pitch_claims"))
  let commitments ← labels (view.get (str "commitments"))
  return { clusterId, won := Wire.truthy (view.get (str "won")), store, valueProps, pitchClaims, commitments }

def readView (view : Wire F) : Except PyError (Option Row) := do
  let clusterId ← textOrEmpty (view.get (str "cluster_id"))
  if clusterId.isEmpty then return none else some <$> readLabels view clusterId

end NetworkPrior

/-! ## Pooling -/

/-- `_ClusterTally`. -/
structure ClusterTally where
  clusterId : Str
  observations : Int
  wins : Int
  stores : Finset Str
  valueProps : Counts Str
  pitch : Counts Str
  commitments : Counts Str

namespace ClusterTally

def empty (clusterId : Str) : ClusterTally where
  clusterId := clusterId
  observations := 0
  wins := 0
  stores := ∅
  valueProps := []
  pitch := []
  commitments := []

def add (tally : ClusterTally) (row : NetworkPrior.Row) : ClusterTally :=
  { tally with
    observations := tally.observations + 1
    wins := tally.wins + if row.won then 1 else 0
    stores := row.store.elim tally.stores fun store => insert store tally.stores
    valueProps := row.valueProps.foldl (bump row.won) tally.valueProps
    pitch := row.pitchClaims.foldl (bump row.won) tally.pitch
    commitments := row.commitments.foldl (bump row.won) tally.commitments }

def freeze (tally : ClusterTally) : ClusterPrior where
  clusterId := tally.clusterId
  observations := tally.observations
  wins := tally.wins
  stores := tally.stores.card
  valueProps := freezeTable tally.valueProps
  pitchClaims := freezeTable tally.pitch
  commitments := freezeTable tally.commitments

end ClusterTally

def pool (rows : List NetworkPrior.Row) : NetworkPrior where
  clusters := (byKey Str.le (rows.foldl
    (filed NetworkPrior.Row.clusterId ClusterTally.empty ClusterTally.add) [])).map fun entry => entry.2.freeze
  observations := rows.length

/-- `build_network_prior`. -/
def buildNetworkPrior (records : List (Wire F)) : Except PyError NetworkPrior := do
  let read ← records.mapM fun record => NetworkPrior.readView (priorView record)
  return pool read.reduceOption

end Reading
end Proxyshop.Learning

/-!
## The depth grid

The candidate depths, and the units that a depth is measured in.
-/

namespace Proxyshop.Learning

open Python Numbers Contracts

section Grid

variable {F : Type} [Format F]

def defaultDepthBuckets : List (Extended F) := [0.0, 0.05, 0.10, 0.15, 0.20]

def percentPerUnit : Extended F := 100.0

def fractionCeiling : Extended F := 1.0

/-- `_number`: an integer too large for a double is raised on. -/
def number [Unicode] : Wire F → Except PyError (Option (Extended F))
  | .null | .bool _ => .ok none
  | v =>
      match v.toDouble with
      | .ok number => .ok (if number.isFinite ∧ 0.0 ≤ number then some number else none)
      | .error .typeError | .error .valueError => .ok none
      | .error raised => .error raised

def percentAsFraction [Unicode] (v : Wire F) : Except PyError (Option (Extended F)) := do
  return (← number v).bind fun number =>
    if number / percentPerUnit ≤ fractionCeiling then some (number / percentPerUnit) else none

/-- A number above the ceiling is a percentage in the field of a fraction. -/
def rescued (number : Extended F) : Option (Extended F) :=
  if fractionCeiling < number then
    if fractionCeiling < number / percentPerUnit then none else some (number / percentPerUnit)
  else some number

def asFraction [Unicode] (v : Wire F) : Except PyError (Option (Extended F)) := do
  return (← number v).bind rescued

/-- The rung so far, and how far it is, against the next one. -/
def nearer (depth : Extended F) (best : Nat × Extended F) (rung : Extended F × Nat) : Nat × Extended F :=
  if (rung.1 - depth).magnitude < best.2 then (rung.2, (rung.1 - depth).magnitude) else best

def bucketIndex (buckets : List (Extended F)) (depth : Extended F) : Except PyError Nat :=
  match buckets with
  | [] => .error .indexError
  | first :: rest => .ok ((rest.zipIdx 1).foldl (nearer depth) (0, (first - depth).magnitude)).1

end Grid

end Proxyshop.Learning
