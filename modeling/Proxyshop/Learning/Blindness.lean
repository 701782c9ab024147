import Mathlib.Data.List.Infix
import Proxyshop.Learning.Pooling
import Proxyshop.Learning.Prior

/-!
# A prior that is blind to discounts

What a prior depends on when it is read off a context, what a rendered prior loses on its way back, and
what a scrubbed one keeps.
-/

/-!
## Priors on the wire

A prior is rendered into a store's context, and read back by the names of an allowlist. The prior that a
store publishes is scrubbed of the keys that name a discount.
-/

namespace Proxyshop.Learning

open Python Numbers Contracts Structures Verification

/-! ## Rendering -/

section Rendering

variable {F : Type} [Format F]

/-- `_rate`, of counts whose quotient is no greater than one. -/
def rate (wins observations : Int) : Extended F :=
  if observations = 0 then 0.0
  else
    match Format.round (F := F) ((wins : ℚ) / observations) with
    | .finite quotient => Format.round ((nearest (Format.value quotient * 10 ^ 6) : ℚ) / 10 ^ 6)
    | overflown => overflown

def integer (n : Int) : Wire F := .number (.integer n)

def renderedTally (tally : Tally) : Wire F :=
  .object
    [(str "label", .string tally.label), (str "wins", integer tally.wins),
      (str "observations", integer tally.observations),
      (str "win_rate", .number (.double (rate tally.wins tally.observations)))]

/-- `_rendered`. -/
def rendered (tallies : List Tally) : Wire F := .array (tallies.map renderedTally)

def renderedCluster (cluster : ClusterPrior) : Wire F :=
  .object
    [(str "depth_buckets", .array (defaultDepthBuckets.map fun depth => .number (.double depth))),
      (str "observations", integer cluster.observations), (str "wins", integer cluster.wins),
      (str "win_rate", .number (.double (rate cluster.wins cluster.observations))),
      (str "stores", integer cluster.stores), (str "value_props", rendered cluster.valueProps),
      (str "pitch_claims", rendered cluster.pitchClaims), (str "commitments", rendered cluster.commitments)]

def toContextPriors (prior : NetworkPrior) : Wire F :=
  .object (Dict.update [] (prior.clusters.map fun cluster => (cluster.clusterId, renderedCluster cluster)))

end Rendering

/-! ## Reading back -/

section Reading

variable {F : Type} [Format F] [Unicode] [Spelling F]

omit [Spelling F] in
/-- `_int`: an infinity is raised on. -/
def countOf (v : Wire F) : Except PyError Int :=
  match v.toInt with
  | .ok n => .ok (if 0 ≤ n then n else 0)
  | .error .typeError | .error .valueError => .ok 0
  | .error raised => .error raised

/-- The tallies of the rows so far, and those of the next row: a label is read once. -/
def readTally (read : Dict Str Tally) (row : Wire F) : Except PyError (Dict Str Tally) :=
  match row with
  | .object _ => do
      let label ← textOrEmpty (row.get (str "label"))
      if label.isEmpty || Dict.contains read label then return read
      else
        let wins ← countOf (row.get (str "wins"))
        let observations ← countOf (row.get (str "observations"))
        return Dict.set read label { label, wins, observations }
  | _ => .ok read

def rowsOf : Wire F → List (Wire F)
  | .array rows => rows
  | _ => []

/-- `_tallies`. -/
def readTallies (table : Wire F) : Except PyError (List Tally) := do
  return (byKey Str.le (← (rowsOf table).foldlM readTally [])).map Prod.snd

def readCluster (clusterId : Str) (entry : Wire F) : Except PyError (Option ClusterPrior) :=
  match entry with
  | .object _ => do
      let observations ← countOf (entry.get (str "observations"))
      let wins ← countOf (entry.get (str "wins"))
      let stores ← countOf (entry.get (str "stores"))
      let valueProps ← readTallies (entry.get (str "value_props"))
      let pitchClaims ← readTallies (entry.get (str "pitch_claims"))
      let commitments ← readTallies (entry.get (str "commitments"))
      return some { clusterId, observations, wins, stores, valueProps, pitchClaims, commitments }
  | _ => .ok none

def fromContextPriors (priors : Wire F) : Except PyError NetworkPrior :=
  match priors with
  | .object members => do
      let read ← (keyTexts members).mapM fun clusterId => readCluster clusterId (priors.get clusterId)
      let clusters := read.reduceOption
      return { clusters, observations := (clusters.map ClusterPrior.observations).sum }
  | _ => .ok { clusters := [], observations := 0 }

end Reading

/-! ## Scrubbing -/

section Scrubbing

variable {F : Type} [Folding]

def namesDiscount (key : Str) : Bool := discountMarker <:+: Folding.casefold key

/-- The mapping that is kept, and the keys that are dropped. -/
def scrubContextPrior (prior : Wire F) : Dict Str (Wire F) × List Str :=
  match prior with
  | .object members =>
      (members.filter fun entry => !namesDiscount entry.1,
        ((Dict.keys members).filter namesDiscount).insertionSort fun a b => Str.le a b)
  | _ => ([], [])

end Scrubbing
end Proxyshop.Learning

namespace Proxyshop.Learning

open Python Numbers Contracts Structures Verification

/-! ## Contexts that agree -/

section Contexts

variable {F : Type}

/-- The rows say the same of a label, as far as a table is read. -/
def SameRow (row row' : Wire F) : Prop :=
  ∀ name ∈ ["label", "wins", "observations"].map str, row.get name = row'.get name

/-- The entries of one cluster agree on the fields that are read. -/
structure SameEntry (entry entry' : Wire F) : Prop where
  mapping : entry.record?.isSome = entry'.record?.isSome
  counts : ∀ name ∈ ["observations", "wins", "stores"].map str, entry.get name = entry'.get name
  tables : ∀ name ∈ ["value_props", "pitch_claims", "commitments"].map str,
    List.Forall₂ SameRow (rowsOf (entry.get name)) (rowsOf (entry'.get name))

theorem keyTexts_eq (members : Dict Str (Wire F)) : keyTexts members = Dict.keys (byKey Str.le members) :=
  (List.map_insertionSort (fun a b : Str × Wire F => Str.le a.1 b.1 = true) (fun a b => Str.le a b = true)
    Prod.fst members fun _ _ _ _ => Iff.rfl).symm

variable [Format F] [Unicode] [Spelling F]

theorem readTally_eq (read : Dict Str Tally) (row : Wire F) :
    readTally read row = (do
      let label ← textOrEmpty (row.get (str "label"))
      if label.isEmpty || Dict.contains read label then return read
      else
        let wins ← countOf (row.get (str "wins"))
        let observations ← countOf (row.get (str "observations"))
        return Dict.set read label { label, wins, observations }) := by
  cases row <;> rfl

theorem readTallies_congr {table table' : Wire F} (same : List.Forall₂ SameRow (rowsOf table) (rowsOf table')) :
    readTallies table = readTallies table' := by
  have walks (read : Dict Str Tally) :
      (rowsOf table).foldlM readTally read = (rowsOf table').foldlM readTally read := by
    generalize rowsOf table = rows, rowsOf table' = rows' at same
    induction same generalizing read with
    | nil => rfl
    | @cons row row' _ _ head _ ih =>
        have step : readTally read row = readTally read row' := by
          rw [readTally_eq, readTally_eq, head (str "label") (by simp), head (str "wins") (by simp),
            head (str "observations") (by simp)]
        simp only [List.foldlM_cons, step, ih]
  rw [readTallies, walks, readTallies]

theorem readCluster_congr {entry entry' : Wire F} (same : SameEntry entry entry') (clusterId : Str) :
    readCluster clusterId entry = readCluster clusterId entry' := by
  have counts (name : String) (listed : str name ∈ ["observations", "wins", "stores"].map str) :=
    same.counts (str name) listed
  have tables (name : String) (listed : str name ∈ ["value_props", "pitch_claims", "commitments"].map str) :=
    readTallies_congr (same.tables (str name) listed)
  have mapping := same.mapping
  have read (v : Wire F) (object : v.record?.isSome = true) : readCluster clusterId v = (do
      let observations ← countOf (v.get (str "observations"))
      let wins ← countOf (v.get (str "wins"))
      let stores ← countOf (v.get (str "stores"))
      let valueProps ← readTallies (v.get (str "value_props"))
      let pitchClaims ← readTallies (v.get (str "pitch_claims"))
      let commitments ← readTallies (v.get (str "commitments"))
      return some { clusterId, observations, wins, stores, valueProps, pitchClaims, commitments }) := by
    cases v with
    | object members => rfl
    | _ => cases object
  have skipped (v : Wire F) (other : v.record?.isSome = false) : readCluster clusterId v = .ok none := by
    cases v with
    | object members => cases other
    | _ => rfl
  cases object : entry.record?.isSome with
  | false => rw [skipped entry object, skipped entry' (mapping.symm.trans object)]
  | true =>
      rw [read entry object, read entry' (mapping.symm.trans object), counts "observations" (by simp),
        counts "wins" (by simp), counts "stores" (by simp), tables "value_props" (by simp),
        tables "pitch_claims" (by simp), tables "commitments" (by simp)]

theorem fromContextPriors_congr {members members' : Dict Str (Wire F)} (distinct : (Dict.keys members).Nodup)
    (distinct' : (Dict.keys members').Nodup) (clusters : ∀ k, k ∈ Dict.keys members ↔ k ∈ Dict.keys members')
    (same : ∀ k, SameEntry ((Json.object members).get k) ((Json.object members').get k)) :
    fromContextPriors (.object members) = fromContextPriors (.object members') := by
  have keys : keyTexts members = keyTexts members' := by
    rw [keyTexts_eq, keyTexts_eq]
    exact keys_byKey str_order distinct distinct' (fun _ _ => trivial) clusters
  have entries : (fun clusterId => readCluster clusterId ((Json.object members).get clusterId))
      = fun clusterId => readCluster clusterId ((Json.object members').get clusterId) := by
    funext clusterId
    exact readCluster_congr (same clusterId) clusterId
  rw [fromContextPriors, fromContextPriors, keys, entries]

end Contexts

/-! ## What comes back of a rendered prior -/

structure Canonical (tallies : List Tally) : Prop where
  sorted : tallies.Pairwise fun a b => Str.le a.label b.label = true
  distinct : (tallies.map Tally.label).Nodup
  positive : ∀ tally ∈ tallies, 0 ≤ tally.wins ∧ 0 ≤ tally.observations

theorem canonical_freezeTable {table : Counts Str} (distinct : (Dict.keys table).Nodup)
    (positive : ∀ entry ∈ table, 0 ≤ entry.2.1 ∧ 0 ≤ entry.2.2) : Canonical (freezeTable table) where
  sorted := List.pairwise_map.mpr (byKey_sorted str_order table)
  distinct := nodup_labels_freezeTable distinct
  positive := by
    intro tally member
    obtain ⟨entry, inside, rfl⟩ := List.mem_map.mp member
    exact positive entry ((byKey_perm table).mem_iff.mp inside)

theorem mem_labels_freezeTable {table : Counts Str} {label : Str} :
    label ∈ (freezeTable table).map Tally.label ↔ label ∈ Dict.keys table := by
  have labels : (freezeTable table).map Tally.label = Dict.keys (byKey Str.le table) := by
    rw [freezeTable, List.map_map]
    rfl
  rw [labels]
  exact ((byKey_perm table).map Prod.fst).mem_iff

def labelled (tallies : List Tally) : List Tally := tallies.filter fun tally => !tally.label.isEmpty

theorem labelled_eq_self {tallies : List Tally} : labelled tallies = tallies ↔ [] ∉ tallies.map Tally.label := by
  rw [labelled, List.filter_eq_self, List.mem_map]
  constructor
  · intro every ⟨tally, member, empty⟩
    simpa [empty] using every tally member
  · intro none tally member
    cases named : tally.label with
    | nil => exact absurd ⟨tally, member, named⟩ none
    | cons c label => rfl

section RoundTrip

variable {F : Type} [Format F] [Unicode] [Spelling F]

omit [Unicode] in
@[simp] theorem textOrEmpty_string (s : Str) : textOrEmpty (.string s : Wire F) = .ok s := by
  cases s <;> rfl

omit [Spelling F] in
theorem countOf_integer {n : Int} (positive : 0 ≤ n) : countOf (integer n : Wire F) = .ok n := by
  show Except.ok (if 0 ≤ n then n else 0) = _
  rw [if_pos positive]

theorem readTally_rendered (read : Dict Str Tally) {tally : Tally}
    (positive : 0 ≤ tally.wins ∧ 0 ≤ tally.observations) :
    readTally read (renderedTally tally : Wire F)
      = .ok (if tally.label.isEmpty || Dict.contains read tally.label then read
        else Dict.set read tally.label tally) := by
  have label : (renderedTally tally : Wire F).get (str "label") = .string tally.label := rfl
  have wins : (renderedTally tally : Wire F).get (str "wins") = integer tally.wins := rfl
  have observations : (renderedTally tally : Wire F).get (str "observations") = integer tally.observations := rfl
  rw [readTally_eq, label, wins, observations, textOrEmpty_string, countOf_integer positive.1,
    countOf_integer positive.2]
  show (if _ then _ else _) = _
  split <;> rfl

theorem foldlM_rendered {tallies : List Tally} {read : Dict Str Tally}
    (distinct : (tallies.map Tally.label).Nodup)
    (fresh : ∀ tally ∈ tallies, tally.label ∉ Dict.keys read)
    (positive : ∀ tally ∈ tallies, 0 ≤ tally.wins ∧ 0 ≤ tally.observations) :
    (tallies.map renderedTally : List (Wire F)).foldlM readTally read
      = .ok (read ++ (labelled tallies).map fun tally => (tally.label, tally)) := by
  induction tallies generalizing read with
  | nil =>
      show Except.ok read = .ok (read ++ [])
      rw [List.append_nil]
  | cons tally tallies ih =>
      rw [List.forall_mem_cons] at fresh positive
      rw [List.map_cons, List.nodup_cons] at distinct
      have unread : Dict.contains read tally.label = false := by
        rw [Bool.eq_false_iff, ne_eq, Dict.contains_iff]
        exact fresh.1
      rw [List.map_cons, List.foldlM_cons, readTally_rendered read positive.1, unread, Bool.or_false]
      show List.foldlM _ (if tally.label.isEmpty then _ else _) _ = _
      rw [labelled, List.filter_cons]
      cases empty : tally.label.isEmpty with
      | true =>
          rw [if_pos rfl, ih distinct.2 fresh.2 positive.2, Bool.not_true, if_neg Bool.false_ne_true]
          rfl
      | false =>
          have added := Dict.set_of_not_mem fresh.1 tally
          have later : ∀ other ∈ tallies, other.label ∉ Dict.keys (read ++ [(tally.label, tally)]) := by
            intro other member
            rw [Dict.keys, List.map_append, List.mem_append, not_or]
            refine ⟨fresh.2 other member, ?_⟩
            rw [List.map_singleton, List.mem_singleton]
            intro same
            exact distinct.1 (List.mem_map.mpr ⟨other, member, same⟩)
          rw [if_neg Bool.false_ne_true, added, ih distinct.2 later positive.2, Bool.not_false, if_pos rfl,
            List.append_assoc]
          rfl

theorem readTallies_rendered {tallies : List Tally} (canonical : Canonical tallies) :
    readTallies (rendered tallies : Wire F) = .ok (labelled tallies) := by
  have walked : (tallies.map renderedTally : List (Wire F)).foldlM readTally [] = _ :=
    foldlM_rendered canonical.distinct (fun _ _ => List.not_mem_nil) canonical.positive
  have sorted : byKey Str.le ((labelled tallies).map fun tally => (tally.label, tally))
      = (labelled tallies).map fun tally => (tally.label, tally) := by
    apply List.Pairwise.insertionSort_eq
    rw [List.pairwise_map]
    exact canonical.sorted.filter _
  show (do return (byKey Str.le (← (tallies.map renderedTally : List (Wire F)).foldlM readTally [])).map Prod.snd)
    = _
  rw [walked]
  show Except.ok ((byKey Str.le ([] ++ (labelled tallies).map fun tally => (tally.label, tally))).map Prod.snd) = _
  rw [List.nil_append, sorted, List.map_map]
  exact congrArg Except.ok (List.map_id _)

structure ClusterPrior.Canonical (cluster : ClusterPrior) : Prop where
  positive : 0 ≤ cluster.observations ∧ 0 ≤ cluster.wins ∧ 0 ≤ cluster.stores
  valueProps : Learning.Canonical cluster.valueProps
  pitchClaims : Learning.Canonical cluster.pitchClaims
  commitments : Learning.Canonical cluster.commitments

def ClusterPrior.labelled (cluster : ClusterPrior) : ClusterPrior :=
  { cluster with
    valueProps := Learning.labelled cluster.valueProps
    pitchClaims := Learning.labelled cluster.pitchClaims
    commitments := Learning.labelled cluster.commitments }

theorem readCluster_rendered {cluster : ClusterPrior} (canonical : cluster.Canonical) :
    readCluster cluster.clusterId (renderedCluster cluster : Wire F) = .ok (some cluster.labelled) := by
  show (do
      let observations ← countOf (integer cluster.observations : Wire F)
      let wins ← countOf (integer cluster.wins : Wire F)
      let stores ← countOf (integer cluster.stores : Wire F)
      let valueProps ← readTallies (rendered cluster.valueProps : Wire F)
      let pitchClaims ← readTallies (rendered cluster.pitchClaims : Wire F)
      let commitments ← readTallies (rendered cluster.commitments : Wire F)
      return some
        ({ clusterId := cluster.clusterId, observations, wins, stores, valueProps, pitchClaims, commitments } :
          ClusterPrior)) = _
  rw [countOf_integer canonical.positive.1, countOf_integer canonical.positive.2.1,
    countOf_integer canonical.positive.2.2, readTallies_rendered canonical.valueProps,
    readTallies_rendered canonical.pitchClaims, readTallies_rendered canonical.commitments]
  rfl

structure NetworkPrior.Canonical (prior : NetworkPrior) : Prop where
  sorted : prior.clusters.Pairwise fun a b => Str.le a.clusterId b.clusterId = true
  distinct : (prior.clusters.map ClusterPrior.clusterId).Nodup
  clusters : ∀ cluster ∈ prior.clusters, cluster.Canonical
  observations : (prior.clusters.map ClusterPrior.observations).sum = prior.observations

theorem from_toContextPriors {prior : NetworkPrior} (canonical : prior.Canonical) :
    fromContextPriors (toContextPriors prior : Wire F)
      = .ok { prior with clusters := prior.clusters.map ClusterPrior.labelled } := by
  let members : Dict Str (Wire F) := prior.clusters.map fun cluster => (cluster.clusterId, renderedCluster cluster)
  have ids : Dict.keys members = prior.clusters.map ClusterPrior.clusterId := by
    simp only [members, Dict.keys, List.map_map]
    rfl
  have distinct : (Dict.keys members).Nodup := ids ▸ canonical.distinct
  have rendering : (toContextPriors prior : Wire F) = .object members := by
    rw [toContextPriors, Dict.update_of_disjoint distinct (fun _ _ => List.not_mem_nil)]
    rfl
  have keys : keyTexts members = prior.clusters.map ClusterPrior.clusterId := by
    rw [keyTexts, ids]
    apply List.Pairwise.insertionSort_eq
    rw [List.pairwise_map]
    exact canonical.sorted
  have walked : (keyTexts members).mapM (fun clusterId => readCluster clusterId ((Json.object members).get clusterId))
      = .ok (prior.clusters.map fun cluster => some cluster.labelled) := by
    rw [keys, mapM_eq_ok, List.forall₂_map_left_iff, List.forall₂_map_right_iff, List.forall₂_same]
    intro cluster member
    have held : Dict.get? members cluster.clusterId = some (renderedCluster cluster) :=
      Dict.get?_of_mem distinct (List.mem_map_of_mem member)
    rw [Json.get_object, held]
    exact readCluster_rendered (canonical.clusters cluster member)
  have clusters : (prior.clusters.map fun cluster => some cluster.labelled).reduceOption
      = prior.clusters.map ClusterPrior.labelled := by
    delta List.reduceOption
    rw [List.filterMap_map]
    exact congrFun List.filterMap_eq_map _
  have observations : ((prior.clusters.map ClusterPrior.labelled).map ClusterPrior.observations).sum
      = prior.observations := by
    rw [List.map_map]
    exact canonical.observations
  rw [rendering, fromContextPriors]
  show (do
      let read ← (keyTexts members).mapM fun clusterId => readCluster clusterId ((Json.object members).get clusterId)
      _) = _
  rw [walked]
  show Except.ok _ = _
  rw [clusters, observations]

end RoundTrip
/-! ## The labels of a pool -/

theorem clusterIds_pool (rows : List NetworkPrior.Row) :
    (pool rows).clusters.map ClusterPrior.clusterId = Dict.keys (byKey Str.le (tallied rows)) := by
  show ((byKey Str.le (tallied rows)).map _).map _ = _
  rw [List.map_map]
  apply List.map_congr_left
  intro entry member
  have held := (mem_tallied.mp ((byKey_perm _).mem_iff.mp member)).2
  show entry.2.clusterId = entry.1
  rw [held]
  exact ClusterTally.clusterId_adds _ _

theorem mem_clusters_pool {rows : List NetworkPrior.Row} {cluster : ClusterPrior} :
    cluster ∈ (pool rows).clusters ↔ ∃ k, rowsIn rows k ≠ [] ∧ (tallyOf rows k).freeze = cluster := by
  show cluster ∈ (byKey Str.le (tallied rows)).map _ ↔ _
  rw [List.mem_map]
  constructor
  · rintro ⟨entry, member, rfl⟩
    obtain ⟨some, held⟩ := mem_tallied.mp ((byKey_perm _).mem_iff.mp member)
    exact ⟨entry.1, some, by rw [held]⟩
  · rintro ⟨k, some, rfl⟩
    exact ⟨(k, tallyOf rows k), (byKey_perm _).mem_iff.mpr (mem_tallied.mpr ⟨some, rfl⟩), rfl⟩

theorem canonical_pool (rows : List NetworkPrior.Row) : (pool rows).Canonical where
  sorted := by
    rw [← List.pairwise_map (f := ClusterPrior.clusterId) (R := fun a b => Str.le a b = true), clusterIds_pool]
    exact List.pairwise_map.mpr (byKey_sorted str_order _)
  distinct := clusterIds_pool rows ▸ nodup_byKey (nodup_tallied rows)
  clusters := by
    intro cluster member
    obtain ⟨k, _, rfl⟩ := mem_clusters_pool.mp member
    have sound := sound_tallyOf rows k
    have distinct := sound.distinct
    have counts := sound.counts
    simp only [List.forall_mem_cons, List.not_mem_nil, false_imp_iff, implies_true, and_true] at distinct counts
    exact {
      positive := ⟨sound.observations, sound.wins, Int.natCast_nonneg _⟩
      valueProps := canonical_freezeTable distinct.1 counts.1
      pitchClaims := canonical_freezeTable distinct.2.1 counts.2.1
      commitments := canonical_freezeTable distinct.2.2 counts.2.2 }
  observations := by
    have clusters : (pool rows).clusters.Perm ((tallied rows).map fun entry => entry.2.freeze) :=
      (byKey_perm _).map _
    rw [(clusters.map ClusterPrior.observations).sum_eq, List.map_map]
    refine Eq.trans (sum_filed NetworkPrior.Row.clusterId ClusterTally.observations ?_ ?_ [] rows)
      (Int.zero_add _)
    · exact fun _ => rfl
    · exact fun _ _ => rfl

theorem labelled_eq_self_iff {cluster : ClusterPrior} :
    cluster.labelled = cluster ↔ [] ∉ cluster.valueProps.map Tally.label ∧
      [] ∉ cluster.pitchClaims.map Tally.label ∧ [] ∉ cluster.commitments.map Tally.label := by
  rw [← labelled_eq_self, ← labelled_eq_self, ← labelled_eq_self]
  constructor
  · intro same
    exact ⟨congrArg ClusterPrior.valueProps same, congrArg ClusterPrior.pitchClaims same,
      congrArg ClusterPrior.commitments same⟩
  · rintro ⟨valueProps, pitchClaims, commitments⟩
    rw [ClusterPrior.labelled, valueProps, pitchClaims, commitments]

def Labelled (rows : List NetworkPrior.Row) : Prop :=
  ∀ row ∈ rows, [] ∉ row.valueProps ∧ [] ∉ row.pitchClaims ∧ [] ∉ row.commitments

theorem labelled_pool_iff (rows : List NetworkPrior.Row) :
    (pool rows).clusters.map ClusterPrior.labelled = (pool rows).clusters ↔ Labelled rows := by
  have frozen (k : Str) : (tallyOf rows k).freeze.labelled = (tallyOf rows k).freeze ↔ Labelled (rowsIn rows k) := by
    obtain ⟨valueProps, pitchClaims, commitments⟩ := ClusterTally.mem_keys_adds (.empty k) (rowsIn rows k) []
    rw [labelled_eq_self_iff]
    show [] ∉ (freezeTable _).map _ ∧ [] ∉ (freezeTable _).map _ ∧ [] ∉ (freezeTable _).map _ ↔ _
    rw [mem_labels_freezeTable, mem_labels_freezeTable, mem_labels_freezeTable, tallyOf, valueProps, pitchClaims,
      commitments]
    simp only [ClusterTally.empty, Dict.keys, List.map_nil, List.not_mem_nil, false_or, not_exists, not_and,
      Labelled]
    exact ⟨fun none row member => ⟨none.1 row member, none.2.1 row member, none.2.2 row member⟩,
      fun every => ⟨fun row member => (every row member).1, fun row member => (every row member).2.1,
        fun row member => (every row member).2.2⟩⟩
  conv_lhs => rhs; rw [← List.map_id (pool rows).clusters]
  rw [List.map_inj_left]
  constructor
  · intro same row member
    have here : row ∈ rowsIn rows row.clusterId := List.mem_filter.mpr ⟨member, decide_eq_true rfl⟩
    have cluster := mem_clusters_pool.mpr ⟨row.clusterId, List.ne_nil_of_mem here, rfl⟩
    exact (frozen row.clusterId).mp (same _ cluster) row here
  · intro every cluster member
    obtain ⟨k, _, rfl⟩ := mem_clusters_pool.mp member
    exact (frozen k).mpr fun row inside => every row (List.mem_filter.mp inside).1

section Labels

variable {F : Type} [Format F] [Printing F]

theorem text_ne_nil_of_truthy {v : Wire F} (truthy : v.truthy = true) {text : Str} (written : textOf v = .ok text) :
    text ≠ [] := by
  unfold textOf Wire.write at written
  split at written
  · cases written
    rintro rfl
    cases truthy
  · split at written
    · cases written
      exact Printing.text_ne_nil _
    · cases written

theorem itemLabel_ne_nil {item : Wire F} {label : Str} (read : NetworkPrior.itemLabel item = .ok (some label)) :
    label ≠ [] := by
  unfold NetworkPrior.itemLabel at read
  split at read
  · split at read
    · rename_i found
      obtain ⟨text, written, same⟩ := bind_eq_ok.mp read
      cases same
      have truthy := List.find?_some found
      exact text_ne_nil_of_truthy truthy written
    · cases read
  · obtain ⟨text, _, same⟩ := bind_eq_ok.mp read
    split at same
    · cases same
    · rename_i some
      cases same
      simpa using some

omit [Format F] [Printing F] in
theorem mem_keyTexts {members : Dict Str (Wire F)} {k : Str} : k ∈ keyTexts members ↔ k ∈ Dict.keys members :=
  List.mem_insertionSort _

theorem empty_mem_labels {v : Wire F} {labels : List Str} (read : NetworkPrior.labels v = .ok labels) :
    [] ∈ labels ↔ ∃ members, v = .object members ∧ [] ∈ Dict.keys members := by
  have scalar {text : Str} (other : ∀ members, v ≠ .object members) :
      [] ∈ (if text.isEmpty then [] else [text]) ↔ ∃ members, v = .object members ∧ [] ∈ Dict.keys members := by
    refine iff_of_false ?_ fun ⟨members, same, _⟩ => other members same
    cases text <;> simp
  cases v with
  | null =>
      cases read
      simp
  | string s =>
      cases read
      exact scalar nofun
  | object members =>
      cases read
      rw [mem_keyTexts]
      exact ⟨fun member => ⟨members, rfl, member⟩, fun ⟨_, same, member⟩ => Json.object.inj same ▸ member⟩
  | array items =>
      obtain ⟨found, walked, same⟩ := bind_eq_ok.mp read
      cases same
      refine iff_of_false ?_ (by simp)
      intro member
      obtain ⟨item, _, labelled⟩ := (mapM_members walked).1 _ (List.reduceOption_mem_iff.mp member)
      exact itemLabel_ne_nil labelled rfl
  | bool b =>
      obtain ⟨text, _, same⟩ := bind_eq_ok.mp read
      cases same
      exact scalar nofun
  | number n =>
      obtain ⟨text, _, same⟩ := bind_eq_ok.mp read
      cases same
      exact scalar nofun

/-- No row that is pooled has a mapping with an empty key for its labels. -/
def NoEmptyKey (records : List (Wire F)) : Prop :=
  ∀ record ∈ records, textOrEmpty (record.get (str "cluster_id")) ≠ .ok [] →
    ∀ name ∈ ["value_prop", "pitch_claims", "commitments"].map str, ∀ members,
      record.get name = .object members → [] ∉ Dict.keys members

theorem readView_some {record : Wire F} {row : NetworkPrior.Row}
    (read : NetworkPrior.readView (priorView record) = .ok (some row)) :
    textOrEmpty (record.get (str "cluster_id")) ≠ .ok [] ∧
      NetworkPrior.labels (record.get (str "value_prop")) = .ok row.valueProps ∧
      NetworkPrior.labels (record.get (str "pitch_claims")) = .ok row.pitchClaims ∧
      NetworkPrior.labels (record.get (str "commitments")) = .ok row.commitments := by
  unfold NetworkPrior.readView at read
  obtain ⟨clusterId, named, read⟩ := bind_eq_ok.mp read
  split at read
  · cases read
  · rename_i some
    obtain ⟨found, labelled, same⟩ := bind_eq_ok.mp read
    cases same
    unfold NetworkPrior.readLabels at labelled
    obtain ⟨store, _, labelled⟩ := bind_eq_ok.mp labelled
    obtain ⟨valueProps, first, labelled⟩ := bind_eq_ok.mp labelled
    obtain ⟨pitchClaims, second, labelled⟩ := bind_eq_ok.mp labelled
    obtain ⟨commitments, third, labelled⟩ := bind_eq_ok.mp labelled
    cases labelled
    rw [get_priorView record (by decide)] at named first second third
    refine ⟨?_, first, second, third⟩
    rw [named]
    intro empty
    exact some (Except.ok.inj empty ▸ rfl)

theorem readView_none {record : Wire F} (read : NetworkPrior.readView (priorView record) = .ok none) :
    textOrEmpty (record.get (str "cluster_id")) = .ok [] := by
  unfold NetworkPrior.readView at read
  obtain ⟨clusterId, named, read⟩ := bind_eq_ok.mp read
  rw [get_priorView record (by decide)] at named
  split at read
  · rename_i empty
    rw [named, List.isEmpty_iff.mp empty]
  · obtain ⟨_, _, same⟩ := bind_eq_ok.mp read
    cases same

theorem labelled_row_iff {record : Wire F} {row : NetworkPrior.Row}
    (read : NetworkPrior.readView (priorView record) = .ok (some row)) :
    ([] ∉ row.valueProps ∧ [] ∉ row.pitchClaims ∧ [] ∉ row.commitments) ↔
      ∀ name ∈ ["value_prop", "pitch_claims", "commitments"].map str, ∀ members,
        record.get name = .object members → [] ∉ Dict.keys members := by
  obtain ⟨_, valueProps, pitchClaims, commitments⟩ := readView_some read
  rw [empty_mem_labels valueProps, empty_mem_labels pitchClaims, empty_mem_labels commitments]
  simp only [List.map_cons, List.map_nil, List.forall_mem_cons, List.not_mem_nil, false_imp_iff, implies_true,
    and_true, not_exists, not_and]

theorem labelled_iff {records : List (Wire F)} {rows : List NetworkPrior.Row}
    (read : readViews (records.map priorView) = .ok rows) : Labelled rows ↔ NoEmptyKey records := by
  obtain ⟨options, walked, rfl⟩ := readViews_eq_ok.mp read
  rw [List.mapM_map] at walked
  have members := mapM_members walked
  constructor
  · intro labelled record member named
    obtain ⟨option, inside, view⟩ := members.2 record member
    cases option with
    | none => exact absurd (readView_none view) named
    | some row => exact (labelled_row_iff view).mp (labelled row (List.reduceOption_mem_iff.mpr inside))
  · intro keyed row member
    obtain ⟨record, inside, view⟩ := members.1 _ (List.reduceOption_mem_iff.mp member)
    exact (labelled_row_iff view).mpr (keyed record inside (readView_some view).1)

theorem round_trip_iff [Unicode] {records : List (Wire F)} {prior : NetworkPrior}
    (built : buildNetworkPrior records = .ok prior) :
    fromContextPriors (toContextPriors prior : Wire F) = .ok prior ↔ NoEmptyKey records := by
  obtain ⟨rows, read, rfl⟩ := buildNetworkPrior_eq_ok.mp built
  rw [from_toContextPriors (canonical_pool rows), ← labelled_iff read, ← labelled_pool_iff, Except.ok.injEq]
  constructor
  · exact congrArg NetworkPrior.clusters
  · intro same
    rw [same]

end Labels

/-! ## What a scrubbed prior keeps -/

section Scrubbing

variable {F : Type} [Folding]

mutual

def mentionsDiscount : Wire F → Bool
  | .array items => mentionsInItems items
  | .object members => mentionsInMembers members
  | _ => false

def mentionsInItems : List (Wire F) → Bool
  | [] => false
  | v :: rest => mentionsDiscount v || mentionsInItems rest

def mentionsInMembers : List (Str × Wire F) → Bool
  | [] => false
  | (k, v) :: rest => namesDiscount k || mentionsDiscount v || mentionsInMembers rest

end

theorem mentionsInMembers_eq_false {members : Dict Str (Wire F)} : mentionsInMembers members = false ↔
    ∀ entry ∈ members, namesDiscount entry.1 = false ∧ mentionsDiscount entry.2 = false := by
  induction members with
  | nil => exact iff_of_true rfl nofun
  | cons entry members ih =>
      rw [mentionsInMembers, Bool.or_eq_false_iff, Bool.or_eq_false_iff, ih, List.forall_mem_cons]

/-- Discounts are named by the top-level keys of a mapping, if at all. -/
def DiscountsOnTop (prior : Wire F) : Prop :=
  ∀ members, prior = .object members → ∀ entry ∈ members, namesDiscount entry.1 = false →
    mentionsDiscount entry.2 = false

theorem scrubbed_iff (prior : Wire F) :
    mentionsDiscount (.object (scrubContextPrior prior).1 : Wire F) = false ↔ DiscountsOnTop prior := by
  rw [mentionsDiscount, mentionsInMembers_eq_false]
  cases prior with
  | object members =>
      show (∀ entry ∈ members.filter _, _) ↔ _
      constructor
      · intro kept _ same entry member unnamed
        cases same
        exact (kept entry (List.mem_filter.mpr ⟨member, by rw [unnamed]; rfl⟩)).2
      · intro top entry member
        obtain ⟨inside, unnamed⟩ := List.mem_filter.mp member
        rw [Bool.not_eq_true'] at unnamed
        exact ⟨unnamed, top members rfl entry inside unnamed⟩
  | _ => exact iff_of_true nofun nofun

end Scrubbing

/-! ## Blindness -/

/-- A prior depends on the allowlisted fields alone. A built one survives its rendering exactly where no
label was an empty key, and a scrubbed one is free of discounts exactly where none is named below the
top. -/
theorem blind_iff {F : Type} [Format F] [Printing F] [Folding] :
    (∀ records records' : List (Wire F), (records.map priorView).Perm (records'.map priorView) →
      ∀ prior, buildNetworkPrior records = .ok prior ↔ buildNetworkPrior records' = .ok prior) ∧
    (∀ members members' : Dict Str (Wire F), (Dict.keys members).Nodup → (Dict.keys members').Nodup →
      (∀ k, k ∈ Dict.keys members ↔ k ∈ Dict.keys members') →
      (∀ k, SameEntry ((Json.object members).get k) ((Json.object members').get k)) →
      fromContextPriors (.object members) = fromContextPriors (.object members')) ∧
    (∀ (records : List (Wire F)) prior, buildNetworkPrior records = .ok prior →
      (fromContextPriors (toContextPriors prior : Wire F) = .ok prior ↔ NoEmptyKey records)) ∧
    ∀ prior : Wire F,
      mentionsDiscount (.object (scrubContextPrior prior).1 : Wire F) = false ↔ DiscountsOnTop prior := by
  refine ⟨?_, ?_, ?_, scrubbed_iff⟩
  · intro records records' perm prior
    exact ⟨build_perm perm, build_perm perm.symm⟩
  · intro members members' distinct distinct' clusters same
    exact fromContextPriors_congr distinct distinct' clusters same
  · intro records prior built
    exact round_trip_iff built

section Leaks

def unnamedWin : Wire ℚ :=
  .object [(str "cluster_id", .string (str "tents")), (str "won", .bool true),
    (str "commitments", .object [([], .bool true)])]

/-- A rendered prior with a rival's depth inside one of its rows. -/
def smuggled : Wire ℚ :=
  .object [(str "observations", .number (.integer 1)),
    (str "value_props", .array [.object [(str "label", .string (str "light")),
      (str "discount_depth", .number (.double (.finite (7 / 20))))]])]

@[reducible] def Printing.plain : Printing ℚ where
  text _ := str "?"
  repr _ := str "?"
  dumps _ := str "?"
  text_ne_nil _ := by decide

/-- The unnamed commitment does not come back, and the nested depth is kept. -/
theorem nested_discount_kept : letI := Folding.ascii; letI := Printing.plain
    (∃ prior, buildNetworkPrior [unnamedWin] = .ok prior ∧
      fromContextPriors (toContextPriors prior : Wire ℚ) ≠ .ok prior) ∧
    mentionsDiscount (.object (scrubContextPrior smuggled).1 : Wire ℚ) = true := by
  let folding := Folding.ascii
  let printing := Printing.plain
  refine ⟨?_, by decide⟩
  obtain ⟨prior, built⟩ := returns_of_isOk (x := buildNetworkPrior [unnamedWin]) (by decide)
  refine ⟨prior, built, fun back => ?_⟩
  have keyed := (round_trip_iff built).mp back unnamedWin (List.mem_singleton_self _)
    (by decide) (str "commitments") (by decide) _ rfl
  exact keyed (List.mem_singleton_self _)

end Leaks
end Proxyshop.Learning
