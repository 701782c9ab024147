import Mathlib.Data.List.ReduceOption
import Proxyshop.Learning.Prior
import Proxyshop.Structures.Fallible

/-!
# Pooling in any order

A pool depends on its rows as a multiset, and a prior on the allowlisted fields of its records.
-/

namespace Proxyshop.Learning

open Python Numbers Contracts Structures Verification

/-! ## What a tally comes to -/

structure PooledStanding where
  clusterId : Str
  observations : Int
  wins : Int
  stores : Finset Str
  valueProps : Str → Option (Int × Int)
  pitch : Str → Option (Int × Int)
  commitments : Str → Option (Int × Int)

def PooledStanding.add (standing : PooledStanding) (row : NetworkPrior.Row) : PooledStanding :=
  { standing with
    observations := standing.observations + 1
    wins := standing.wins + if row.won then 1 else 0
    stores := row.store.elim standing.stores fun store => insert store standing.stores
    valueProps := row.valueProps.foldl (bumped row.won) standing.valueProps
    pitch := row.pitchClaims.foldl (bumped row.won) standing.pitch
    commitments := row.commitments.foldl (bumped row.won) standing.commitments }

instance : RightCommutative PooledStanding.add where
  right_comm standing row row' := by
    have tables (said : Str → Option (Int × Int)) (labels labels' : List Str) :
        labels'.foldl (bumped row'.won) (labels.foldl (bumped row.won) said)
          = labels.foldl (bumped row.won) (labels'.foldl (bumped row'.won) said) :=
      foldl_comm_foldl (bumped_comm row.won row'.won) labels labels' said
    simp only [PooledStanding.add, tables]
    congr 1
    · exact Int.add_right_comm ..
    · cases row.store <;> cases row'.store <;> simp [Finset.insert_comm]

namespace ClusterTally

def standing (tally : ClusterTally) : PooledStanding where
  clusterId := tally.clusterId
  observations := tally.observations
  wins := tally.wins
  stores := tally.stores
  valueProps := Dict.get? tally.valueProps
  pitch := Dict.get? tally.pitch
  commitments := Dict.get? tally.commitments

theorem standing_adds (tally : ClusterTally) (rows : List NetworkPrior.Row) :
    (rows.foldl add tally).standing = rows.foldl PooledStanding.add tally.standing := by
  induction rows generalizing tally with
  | nil => rfl
  | cons row rows ih =>
      rw [List.foldl_cons, ih, List.foldl_cons]
      congr 1
      simp only [standing, add, PooledStanding.add, get?_bumps]

/-- The tables of a tally, of which each has one entry for a label and counts from zero. -/
structure Sound (tally : ClusterTally) : Prop where
  observations : 0 ≤ tally.observations
  wins : 0 ≤ tally.wins
  distinct : ∀ table ∈ [tally.valueProps, tally.pitch, tally.commitments], (Dict.keys table).Nodup
  counts : ∀ table ∈ [tally.valueProps, tally.pitch, tally.commitments],
    ∀ entry ∈ table, 0 ≤ entry.2.1 ∧ 0 ≤ entry.2.2

theorem sound_empty (clusterId : Str) : (empty clusterId).Sound where
  observations := le_rfl
  wins := le_rfl
  distinct := by simp [empty, Dict.keys]
  counts := by simp [empty]

theorem Sound.add {tally : ClusterTally} (sound : tally.Sound) (row : NetworkPrior.Row) :
    (tally.add row).Sound where
  observations := Int.add_nonneg sound.observations Int.one_nonneg
  wins := by
    have before := sound.wins
    show 0 ≤ tally.wins + if row.won then 1 else 0
    split <;> omega
  distinct := by
    have distinct := sound.distinct
    simp only [List.forall_mem_cons, List.not_mem_nil, false_imp_iff, implies_true, and_true] at distinct ⊢
    exact ⟨nodup_bumps distinct.1 _, nodup_bumps distinct.2.1 _, nodup_bumps distinct.2.2 _⟩
  counts := by
    have counts := sound.counts
    have more (won : Bool) (c : Int × Int) (positive : 0 ≤ c.1 ∧ 0 ≤ c.2) :
        0 ≤ (counted won c).1 ∧ 0 ≤ (counted won c).2 := by
      show 0 ≤ c.1 + (if won then 1 else 0) ∧ 0 ≤ c.2 + 1
      split <;> omega
    have kept {table : Counts Str} (start : ∀ entry ∈ table, 0 ≤ entry.2.1 ∧ 0 ≤ entry.2.2)
        (labels : List Str) := forall_bumps (fun c => 0 ≤ c.1 ∧ 0 ≤ c.2)
      ⟨le_rfl, le_rfl⟩ more row.won start labels
    simp only [List.forall_mem_cons, List.not_mem_nil, false_imp_iff, implies_true, and_true] at counts ⊢
    exact ⟨kept counts.1 _, kept counts.2.1 _, kept counts.2.2 _⟩

theorem Sound.adds {tally : ClusterTally} (sound : tally.Sound) (rows : List NetworkPrior.Row) :
    (rows.foldl ClusterTally.add tally).Sound := by
  induction rows generalizing tally with
  | nil => exact sound
  | cons row rows ih => exact ih (sound.add row)

theorem clusterId_adds (tally : ClusterTally) (rows : List NetworkPrior.Row) :
    (rows.foldl add tally).clusterId = tally.clusterId := by
  induction rows generalizing tally with
  | nil => rfl
  | cons row rows ih => exact ih _

theorem mem_keys_adds (tally : ClusterTally) (rows : List NetworkPrior.Row) (label : Str) :
    (label ∈ Dict.keys (rows.foldl add tally).valueProps ↔
      label ∈ Dict.keys tally.valueProps ∨ ∃ row ∈ rows, label ∈ row.valueProps) ∧
    (label ∈ Dict.keys (rows.foldl add tally).pitch ↔
      label ∈ Dict.keys tally.pitch ∨ ∃ row ∈ rows, label ∈ row.pitchClaims) ∧
    (label ∈ Dict.keys (rows.foldl add tally).commitments ↔
      label ∈ Dict.keys tally.commitments ∨ ∃ row ∈ rows, label ∈ row.commitments) := by
  induction rows generalizing tally with
  | nil => simp
  | cons row rows ih =>
      obtain ⟨first, second, third⟩ := ih (tally.add row)
      rw [List.foldl_cons, first, second, third]
      simp [add, mem_keys_bumps, or_assoc]

theorem freeze_congr {tally tally' : ClusterTally} (sound : tally.Sound) (sound' : tally'.Sound)
    (same : tally.standing = tally'.standing) : tally.freeze = tally'.freeze := by
  injection same with named observations wins stores valueProps pitch commitments
  have distinct := sound.distinct
  have distinct' := sound'.distinct
  simp only [List.forall_mem_cons, List.not_mem_nil, false_imp_iff, implies_true, and_true]
    at distinct distinct'
  simp only [freeze, named, observations, wins, stores,
    freezeTable_congr distinct.1 distinct'.1 valueProps,
    freezeTable_congr distinct.2.1 distinct'.2.1 pitch,
    freezeTable_congr distinct.2.2 distinct'.2.2 commitments]

end ClusterTally

/-! ## What a pool says of each cluster -/

def rowsIn (rows : List NetworkPrior.Row) (k : Str) : List NetworkPrior.Row := rows.filter fun row => row.clusterId = k

def tallyOf (rows : List NetworkPrior.Row) (k : Str) : ClusterTally :=
  (rowsIn rows k).foldl ClusterTally.add (.empty k)

def tallied (rows : List NetworkPrior.Row) : Dict Str ClusterTally :=
  rows.foldl (filed NetworkPrior.Row.clusterId ClusterTally.empty ClusterTally.add) []

theorem sound_tallyOf (rows : List NetworkPrior.Row) (k : Str) : (tallyOf rows k).Sound :=
  (ClusterTally.sound_empty k).adds _

theorem nodup_tallied (rows : List NetworkPrior.Row) : (Dict.keys (tallied rows)).Nodup :=
  nodup_filed _ _ _ (show (Dict.keys []).Nodup from List.nodup_nil) rows

theorem get?_tallied (rows : List NetworkPrior.Row) (k : Str) :
    Dict.get? (tallied rows) k = if rowsIn rows k = [] then none else some (tallyOf rows k) := by
  rw [tallied, get?_filed]
  rfl

theorem mem_tallied {rows : List NetworkPrior.Row} {entry : Str × ClusterTally} :
    entry ∈ tallied rows ↔ rowsIn rows entry.1 ≠ [] ∧ entry.2 = tallyOf rows entry.1 := by
  constructor
  · intro member
    have found := Dict.get?_of_mem (nodup_tallied rows) member
    rw [get?_tallied] at found
    split at found
    · cases found
    · rename_i some
      exact ⟨some, (Option.some.inj found).symm⟩
  · rintro ⟨some, same⟩
    apply Dict.mem_of_get?
    rw [get?_tallied, if_neg some, same]

theorem pool_perm {rows rows' : List NetworkPrior.Row} (perm : rows.Perm rows') : pool rows = pool rows' := by
  have inside (k : Str) : (rowsIn rows k).Perm (rowsIn rows' k) := perm.filter _
  have present (k : Str) : rowsIn rows k = [] ↔ rowsIn rows' k = [] := by
    rw [← List.length_eq_zero_iff, (inside k).length_eq, List.length_eq_zero_iff]
  have frozen (k : Str) : (tallyOf rows k).freeze = (tallyOf rows' k).freeze := by
    apply ClusterTally.freeze_congr (sound_tallyOf rows k) (sound_tallyOf rows' k)
    rw [tallyOf, tallyOf, ClusterTally.standing_adds, ClusterTally.standing_adds]
    exact (inside k).foldl_eq _
  have clusters : (byKey Str.le (tallied rows)).map (fun entry => entry.2.freeze)
      = (byKey Str.le (tallied rows')).map fun entry => entry.2.freeze := by
    rw [← List.forall₂_eq_eq_eq, List.forall₂_map_left_iff, List.forall₂_map_right_iff]
    refine (byKey_related (R := fun v w => v.freeze = w.freeze) str_order (nodup_tallied rows)
      (nodup_tallied rows') (fun _ _ => trivial) ?_ ?_).imp fun _ _ both => both.2
    · intro k
      rw [get?_tallied, get?_tallied]
      by_cases none : rowsIn rows k = [] <;> simp [none, ← present k]
    · intro k v w left right
      rw [get?_tallied] at left right
      split at left
      · cases left
      · split at right
        · cases right
        · cases left
          cases right
          exact frozen k
  simp only [pool, NetworkPrior.mk.injEq, perm.length_eq, and_true]
  exact clusters

/-! ## Reading rows -/

section Records

variable {F : Type} [Format F] [Spelling F]

omit [Format F] [Spelling F] in
theorem get_priorView (record : Wire F) {name : Str} (listed : name ∈ priorRecordFields) :
    (priorView record).get name = record.get name := by
  rw [priorView, Json.get_object, Dict.get?_tabulate, if_pos listed]
  rfl

def readViews (views : List (Wire F)) : Except PyError (List NetworkPrior.Row) :=
  List.reduceOption <$> views.mapM NetworkPrior.readView

theorem buildNetworkPrior_eq (records : List (Wire F)) :
    buildNetworkPrior records = pool <$> readViews (records.map priorView) := by
  unfold buildNetworkPrior readViews
  rw [List.mapM_map]
  show _ = pool <$> List.reduceOption <$> records.mapM (fun record => NetworkPrior.readView (priorView record))
  cases records.mapM fun record => NetworkPrior.readView (priorView record) <;> rfl

theorem readViews_eq_ok {views : List (Wire F)} {rows : List NetworkPrior.Row} :
    readViews views = .ok rows ↔ ∃ read, views.mapM NetworkPrior.readView = .ok read ∧ read.reduceOption = rows := by
  unfold readViews
  cases views.mapM NetworkPrior.readView with
  | error raised => exact ⟨nofun, nofun⟩
  | ok read => simp [Functor.map, Except.map]

theorem readViews_perm {views views' : List (Wire F)} (perm : views.Perm views')
    {rows : List NetworkPrior.Row} (read : readViews views = .ok rows) :
    ∃ rows', readViews views' = .ok rows' ∧ rows.Perm rows' := by
  obtain ⟨options, walked, rfl⟩ := readViews_eq_ok.mp read
  obtain ⟨options', walked', perm'⟩ := List.perm_comp_forall₂ perm.symm (mapM_eq_ok.mp walked)
  exact ⟨options'.reduceOption, readViews_eq_ok.mpr ⟨options', mapM_eq_ok.mpr walked', rfl⟩,
    (perm'.filterMap id).symm⟩

theorem buildNetworkPrior_eq_ok {records : List (Wire F)} {prior : NetworkPrior} :
    buildNetworkPrior records = .ok prior ↔
      ∃ rows, readViews (records.map priorView) = .ok rows ∧ pool rows = prior := by
  rw [buildNetworkPrior_eq]
  cases readViews (records.map priorView) with
  | error raised => exact ⟨nofun, nofun⟩
  | ok rows => simp [Functor.map, Except.map]

theorem build_perm {records records' : List (Wire F)}
    (perm : (records.map priorView).Perm (records'.map priorView)) {prior : NetworkPrior}
    (built : buildNetworkPrior records = .ok prior) : buildNetworkPrior records' = .ok prior := by
  rw [buildNetworkPrior_eq_ok] at built ⊢
  obtain ⟨rows, read, rfl⟩ := built
  obtain ⟨rows', read', perm'⟩ := readViews_perm perm read
  exact ⟨rows', read', (pool_perm perm').symm⟩

end Records

end Proxyshop.Learning
