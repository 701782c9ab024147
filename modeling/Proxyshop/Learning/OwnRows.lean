import Mathlib.Logic.Relation
import Proxyshop.Learning.Batches

/-!
# A store learns from its own rows

The state after any batches depends on the store's own rows as a multiset, and every count in a state
that updates reach adds up.
-/

namespace Proxyshop.Learning

open Python Numbers Contracts Structures Verification

theorem sum_modify (counts : List Int) {i : Nat} (inside : i < counts.length) :
    (counts.modify i (· + 1)).sum = counts.sum + 1 := by
  induction counts generalizing i with
  | nil => cases inside
  | cons n counts ih =>
      cases i with
      | zero =>
          rw [List.modify_zero_cons, List.sum_cons, List.sum_cons]
          omega
      | succ i =>
          rw [List.modify_succ_cons, List.sum_cons, List.sum_cons, ih (Nat.lt_of_succ_lt_succ inside)]
          omega

/-! ## Rungs -/

theorem foldl_nearer_lt {F : Type} [Format F] {depth : Extended F} {bound : Nat}
    (rungs : List (Extended F × Nat)) (best : Nat × Extended F) (start : best.1 < bound)
    (inside : ∀ rung ∈ rungs, rung.2 < bound) : (rungs.foldl (nearer depth) best).1 < bound := by
  induction rungs generalizing best with
  | nil => exact start
  | cons rung rungs ih =>
      rw [List.forall_mem_cons] at inside
      apply ih _ _ inside.2
      unfold nearer
      split
      · exact inside.1
      · exact start

theorem bucketIndex_lt {F : Type} [Format F] {buckets : List (Extended F)} {depth : Extended F} {rung : Nat}
    (placed : bucketIndex buckets depth = .ok rung) : rung < buckets.length := by
  cases buckets with
  | nil => cases placed
  | cons first rest =>
      cases placed
      apply foldl_nearer_lt
      · exact Nat.succ_pos _
      · intro rung member
        have within := List.snd_lt_add_of_mem_zipIdx member
        rw [List.length_cons]
        omega

/-! ## Counts that add up -/

section Consistent

variable {F : Type}

structure ClusterLearning.Consistent (learned : ClusterLearning F) : Prop where
  observations : (learned.depths.map fun rung => rung.wins + rung.losses).sum = learned.observations
  wins : (learned.depths.map DepthTally.wins).sum = learned.wins
  commitments : ∀ tally ∈ learned.commitments, tally.wins ≤ tally.observations
  variants : ∀ tally ∈ learned.variants, tally.wins ≤ tally.observations

structure StoreLearningState.Consistent (s : StoreLearningState F) : Prop where
  clusters : ∀ learned ∈ s.clusters, learned.Consistent
  observations : (s.clusters.map ClusterLearning.observations).sum = s.observations

structure ClusterScratch.Consistent (slot : ClusterScratch) (rungs : Nat) : Prop where
  sound : slot.Sound rungs
  observations : slot.wins.sum + slot.losses.sum = slot.observations
  wins : slot.wins.sum = slot.wonCount
  commitments : Within slot.commitments
  variants : Within slot.variants

namespace ClusterScratch

theorem consistent_fresh (clusterId : Str) (rungs : Nat) :
    (ofLearned (none : Option (ClusterLearning F)) clusterId rungs).Consistent rungs where
  sound := sound_ofLearned _ _ _
  observations := by simp [ofLearned, padded]
  wins := by simp [ofLearned, padded]
  commitments := nofun
  variants := nofun

theorem Consistent.count {slot : ClusterScratch} {rungs : Nat} (consistent : slot.Consistent rungs)
    {row : OutcomeRow} (inside : row.rung < rungs) : (slot.count row).Consistent rungs where
  sound := consistent.sound.count row
  observations := by
    have won := sum_modify slot.wins (consistent.sound.wins.symm ▸ inside)
    have lost := sum_modify slot.losses (consistent.sound.losses.symm ▸ inside)
    have before := consistent.observations
    show (if row.won then slot.wins.modify row.rung (· + 1) else slot.wins).sum
      + (if row.won then slot.losses else slot.losses.modify row.rung (· + 1)).sum = slot.observations + 1
    split <;> omega
  wins := by
    have won := sum_modify slot.wins (consistent.sound.wins.symm ▸ inside)
    have before := consistent.wins
    show (if row.won then slot.wins.modify row.rung (· + 1) else slot.wins).sum
      = slot.wonCount + if row.won then 1 else 0
    split <;> omega
  commitments := consistent.commitments.bumps _
  variants := consistent.variants.bumps _

theorem Consistent.counts {slot : ClusterScratch} {rungs : Nat} (consistent : slot.Consistent rungs)
    {rows : List OutcomeRow} (inside : ∀ row ∈ rows, row.rung < rungs) :
    (rows.foldl ClusterScratch.count slot).Consistent rungs := by
  induction rows generalizing slot with
  | nil => exact consistent
  | cons row rows ih =>
      rw [List.forall_mem_cons] at inside
      exact ih (consistent.count inside.1) inside.2

theorem within_freezeTable {table : Counts Str} (within : Within table) :
    ∀ tally ∈ freezeTable table, tally.wins ≤ tally.observations := by
  intro tally member
  obtain ⟨entry, inside, rfl⟩ := List.mem_map.mp member
  exact within entry ((byKey_perm table).mem_iff.mp inside)

theorem Consistent.freeze {slot : ClusterScratch} {buckets : List (Extended F)}
    (consistent : slot.Consistent buckets.length) : (slot.freeze buckets).Consistent where
  observations := by
    rw [List.sum_map_add]
    have wins := congrArg List.sum (wins_freeze consistent.sound)
    have losses := congrArg List.sum (losses_freeze consistent.sound)
    exact (congrArg₂ (· + ·) wins losses).trans consistent.observations
  wins := by
    rw [wins_freeze consistent.sound]
    exact consistent.wins
  commitments := within_freezeTable consistent.commitments
  variants := within_freezeTable consistent.variants

end ClusterScratch
end Consistent

namespace StoreLearningState

/-! ## Rows read -/

section Reading

variable {F : Type} [Format F] [Unicode] [Spelling F] (s : StoreLearningState F)

def readRows (records : List (Wire F)) : Except PyError (List OutcomeRow) :=
  List.reduceOption <$> records.mapM s.readRow

theorem update_eq (records : List (Wire F)) : s.update records = s.evolve <$> s.readRows records := by
  unfold update readRows
  cases records.mapM s.readRow <;> rfl

theorem readRows_cons (record : Wire F) (records : List (Wire F)) :
    s.readRows (record :: records) = do
      let row ← s.readRow record
      let rows ← s.readRows records
      return row.toList ++ rows := by
  unfold readRows
  rw [List.mapM_cons]
  cases s.readRow record with
  | error raised => rfl
  | ok row =>
      cases records.mapM s.readRow with
      | error raised => rfl
      | ok rows => cases row <;> rfl

theorem readRows_append (a b : List (Wire F)) :
    s.readRows (a ++ b) = do
      let rows ← s.readRows a
      let rows' ← s.readRows b
      return rows ++ rows' := by
  unfold readRows
  rw [List.mapM_append]
  cases a.mapM s.readRow with
  | error raised => rfl
  | ok rows =>
      cases b.mapM s.readRow with
      | error raised => rfl
      | ok rows' => exact congrArg Except.ok (List.reduceOption_append rows rows')

theorem readRows_perm {a b : List (Wire F)} (perm : a.Perm b) {rows : List OutcomeRow}
    (read : s.readRows a = .ok rows) : ∃ rows', s.readRows b = .ok rows' ∧ rows.Perm rows' := by
  unfold readRows at read
  cases walked : a.mapM s.readRow with
  | error raised =>
      rw [walked] at read
      cases read
  | ok options =>
      rw [walked] at read
      obtain rfl : options.reduceOption = rows := Except.ok.inj read
      obtain ⟨options', walked', perm'⟩ := List.perm_comp_forall₂ perm.symm (mapM_eq_ok.mp walked)
      refine ⟨options'.reduceOption, ?_, ?_⟩
      · rw [readRows, mapM_eq_ok.mpr walked']
        rfl
      · exact (perm'.filterMap id).symm

theorem readRow_some {record : Wire F} {row : OutcomeRow} (read : s.readRow record = .ok (some row)) :
    textOrEmpty (record.get (str "cluster_id")) = .ok row.clusterId ∧ row.rung < s.depthBuckets.length := by
  unfold readRow at read
  obtain ⟨own, _, read⟩ := bind_eq_ok.mp read
  split at read
  · obtain ⟨clusterId, named, read⟩ := bind_eq_ok.mp read
    split at read
    · cases read
    · unfold readOutcome at read
      obtain ⟨depth, _, read⟩ := bind_eq_ok.mp read
      split at read
      · cases read
      · obtain ⟨rung, placed, read⟩ := bind_eq_ok.mp read
        obtain ⟨commitments, _, read⟩ := bind_eq_ok.mp read
        cases read
        exact ⟨named, bucketIndex_lt placed⟩
  · cases read

theorem mem_readRows {records : List (Wire F)} {rows : List OutcomeRow} (read : s.readRows records = .ok rows)
    {row : OutcomeRow} (member : row ∈ rows) : ∃ record ∈ records, s.readRow record = .ok (some row) := by
  unfold readRows at read
  cases walked : records.mapM s.readRow with
  | error raised =>
      rw [walked] at read
      cases read
  | ok options =>
      rw [walked] at read
      obtain rfl : options.reduceOption = rows := Except.ok.inj read
      exact (mapM_members walked).1 _ (List.reduceOption_mem_iff.mp member)

theorem rung_lt_of_readRows {records : List (Wire F)} {rows : List OutcomeRow}
    (read : s.readRows records = .ok rows) : ∀ row ∈ rows, row.rung < s.depthBuckets.length := by
  intro row member
  obtain ⟨record, _, counted⟩ := s.mem_readRows read member
  exact (s.readRow_some counted).2

theorem update_eq_ok {records : List (Wire F)} {t : StoreLearningState F} :
    s.update records = .ok t ↔ ∃ rows, s.readRows records = .ok rows ∧ s.evolve rows = t := by
  rw [update_eq]
  cases s.readRows records with
  | error raised => exact ⟨nofun, nofun⟩
  | ok rows => simp [Functor.map, Except.map]

/-! ## Rows of other stores -/

omit [Format F] [Unicode] in
def Foreign (storeId : Str) (record : Wire F) : Prop :=
  record.get (str "store_id") = .null ∨
    ∃ rowStore, textOf (record.get (str "store_id")) = .ok rowStore ∧ rowStore ≠ storeId

inductive Interspersed (storeId : Str) : List (Wire F) → List (Wire F) → Prop
  | nil : Interspersed storeId [] []
  | keep (record : Wire F) {records records' : List (Wire F)} (rest : Interspersed storeId records records') :
      Interspersed storeId (record :: records) (record :: records')
  | insert {record : Wire F} (foreign : Foreign storeId record) {records records' : List (Wire F)}
      (rest : Interspersed storeId records records') : Interspersed storeId records (record :: records')

variable {s}

omit [Format F] [Unicode] in
theorem isOwn_of_foreign {storeId : Str} (bound : s.storeId = some storeId) {record : Wire F}
    (foreign : Foreign storeId record) : s.isOwn record = .ok false := by
  unfold isOwn
  rw [bound]
  rcases foreign with absent | ⟨rowStore, written, other⟩
  · simp only [absent]
  · dsimp only
    split
    · rfl
    · rw [written]
      exact congrArg Except.ok (decide_eq_false other)

theorem readRows_interspersed {storeId : Str} (bound : s.storeId = some storeId)
    {records records' : List (Wire F)} (inserted : Interspersed storeId records records') :
    s.readRows records' = s.readRows records := by
  induction inserted with
  | nil => rfl
  | keep record _ ih => rw [readRows_cons, readRows_cons, ih]
  | @insert record foreign records records' _ ih =>
      have skipped : s.readRow record = .ok none := by
        unfold readRow
        rw [isOwn_of_foreign bound foreign]
        rfl
      rw [readRows_cons, skipped, ← ih]
      cases s.readRows records' <;> rfl

/-! ## Runs -/

def Updates (s t : StoreLearningState F) : Prop := ∃ records, s.update records = .ok t

variable (s)

theorem update_append (a b : List (Wire F)) : (s.update a >>= fun t => t.update b) = s.update (a ++ b) := by
  rw [update_eq, update_eq, readRows_append]
  cases s.readRows a with
  | error raised => rfl
  | ok rows =>
      show (s.evolve rows).update b = _
      have unchanged : (s.evolve rows).readRows b = s.readRows b := rfl
      rw [update_eq, unchanged]
      cases s.readRows b with
      | error raised => rfl
      | ok rows' => exact congrArg Except.ok (s.evolve_evolve rows rows')

theorem update_perm {a b : List (Wire F)} (perm : a.Perm b) {t : StoreLearningState F}
    (updated : s.update a = .ok t) : s.update b = .ok t := by
  rw [update_eq_ok] at updated ⊢
  obtain ⟨rows, read, rfl⟩ := updated
  obtain ⟨rows', read', perm'⟩ := s.readRows_perm perm read
  exact ⟨rows', read', (s.evolve_perm perm').symm⟩

theorem about_update {records : List (Wire F)} {t : StoreLearningState F} (updated : s.update records = .ok t)
    {k : Str} (unnamed : ∀ record ∈ records, textOrEmpty (record.get (str "cluster_id")) ≠ .ok k) :
    t.about k = s.about k := by
  obtain ⟨rows, read, rfl⟩ := s.update_eq_ok.mp updated
  have none : outcomesOf rows k = [] := by
    rw [outcomesOf, List.filter_eq_nil_iff]
    intro row member
    obtain ⟨record, inside, counted⟩ := s.mem_readRows read member
    have other := unnamed record inside
    rw [(s.readRow_some counted).1] at other
    simpa using other
  rw [about_evolve, if_pos none]

omit [Format F] [Unicode] [Spelling F] in
theorem consistent_evolve (prior : NetworkPrior) (storeId : Option Str) (buckets : List (Extended F))
    {rows : List OutcomeRow} (inside : ∀ row ∈ rows, row.rung < buckets.length) :
    ((initialState prior storeId buckets).evolve rows).Consistent := by
  have fresh (k : Str) : (initialState prior storeId buckets).rehydrated k
      = .ofLearned (none : Option (ClusterLearning F)) k buckets.length := rfl
  have clusters : ((initialState prior storeId buckets).evolve rows).clusters.Perm
      (((initialState prior storeId buckets).scratchOf rows).map fun entry => entry.2.freeze buckets) :=
    (sortBy_perm _).trans ((byKey_perm _).map _)
  constructor
  · intro learned member
    obtain ⟨entry, held, rfl⟩ := List.mem_map.mp (clusters.mem_iff.mp member)
    rw [mem_scratchOf _ held]
    apply ClusterScratch.Consistent.freeze
    apply ClusterScratch.Consistent.counts
    · rw [fresh]
      exact ClusterScratch.consistent_fresh _ _
    · intro row filed
      exact inside row (List.mem_filter.mp filed).1
  · rw [(clusters.map ClusterLearning.observations).sum_eq, List.map_map]
    exact sum_filed OutcomeRow.clusterId ClusterScratch.observations (fun _ => rfl) (fun _ _ => rfl) [] rows

theorem evolve_of_updates {t : StoreLearningState F} (run : Relation.ReflTransGen Updates s t)
    (sorted : s.evolve [] = s) :
    ∃ rows, t = s.evolve rows ∧ ∀ row ∈ rows, row.rung < s.depthBuckets.length := by
  induction run with
  | refl => exact ⟨[], sorted.symm, nofun⟩
  | tail _ step ih =>
      obtain ⟨rows, rfl, inside⟩ := ih
      obtain ⟨records, updated⟩ := step
      obtain ⟨rows', read, rfl⟩ := (s.evolve rows).update_eq_ok.mp updated
      refine ⟨rows ++ rows', s.evolve_evolve rows rows', ?_⟩
      intro row member
      rcases List.mem_append.mp member with earlier | later
      · exact inside row earlier
      · exact (s.evolve rows).rung_lt_of_readRows read row later

end Reading

/-! ## The learning of one store -/

/-- Batches may be split and reordered, rows of other stores count for nothing, a cluster that no row
names is kept, and the counts of every state that a store learns its way to add up. -/
theorem learns_from_own_rows {F : Type} [Format F] [Unicode] [Spelling F] :
    (∀ (s : StoreLearningState F) a b, (s.update a >>= fun t => t.update b) = s.update (a ++ b)) ∧
    (∀ (s : StoreLearningState F) a b, a.Perm b → ∀ t, s.update a = .ok t ↔ s.update b = .ok t) ∧
    (∀ (s : StoreLearningState F) storeId, s.storeId = some storeId → ∀ records records',
      Interspersed storeId records records' → s.update records' = s.update records) ∧
    (∀ (s t : StoreLearningState F) records, s.update records = .ok t → ∀ k,
      (∀ record ∈ records, textOrEmpty (record.get (str "cluster_id")) ≠ .ok k) → t.about k = s.about k) ∧
    ∀ prior storeId buckets (t : StoreLearningState F),
      Relation.ReflTransGen Updates (initialState prior storeId buckets) t → t.Consistent := by
  refine ⟨update_append, ?_, ?_, ?_, ?_⟩
  · intro s a b perm t
    exact ⟨s.update_perm perm, s.update_perm perm.symm⟩
  · intro s storeId bound records records' inserted
    rw [update_eq, update_eq, readRows_interspersed bound inserted]
  · intro s t records updated k unnamed
    exact s.about_update updated unnamed
  · intro prior storeId buckets t run
    obtain ⟨rows, rfl, inside⟩ := evolve_of_updates _ run rfl
    exact consistent_evolve prior storeId buckets inside

end StoreLearningState
end Proxyshop.Learning
