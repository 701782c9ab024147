import Mathlib.Data.List.ReduceOption
import Proxyshop.Learning.State
import Proxyshop.Structures.Fallible

/-!
# Batches of outcome rows

A state is known by what it has learned about each cluster, and an update adds to that what the
cluster's own rows count for, in no matter which order and in how many batches.
-/

namespace Proxyshop.Learning

open Python Numbers Contracts Structures Verification

/-! ## Tables read back -/

namespace ClusterScratch

theorem nodup_tabled (tallies : List Tally) : (Dict.keys (tabled tallies)).Nodup := by
  have step (l : List (Str × Int × Int)) (table : Counts Str) (distinct : (Dict.keys table).Nodup) :
      (Dict.keys (Dict.update table l)).Nodup := by
    induction l generalizing table with
    | nil => exact distinct
    | cons entry l ih => exact ih _ (Dict.nodup_keys_set distinct _ _)
  exact step _ [] List.nodup_nil

theorem get?_tabled_freezeTable {table : Counts Str} (distinct : (Dict.keys table).Nodup) :
    Dict.get? (tabled (freezeTable table)) = Dict.get? table := by
  have entries : (freezeTable table).map (fun tally => (tally.label, tally.wins, tally.observations))
      = byKey Str.le table := by
    rw [freezeTable, List.map_map]
    exact List.map_id _
  have read : tabled (freezeTable table) = byKey Str.le table := by
    rw [tabled, entries, Dict.update_of_disjoint (nodup_byKey distinct) (fun _ _ => List.not_mem_nil)]
    rfl
  rw [read, get?_byKey distinct]

theorem padded_length (rungs : Nat) (counts : List Int) : (padded rungs counts).length = rungs := by
  simp only [padded, List.length_append, List.length_take, List.length_replicate]
  omega

theorem padded_of_length {rungs : Nat} {counts : List Int} (full : counts.length = rungs) :
    padded rungs counts = counts := by
  rw [padded, List.take_of_length_le full.le, full, Nat.sub_self, List.replicate_zero, List.append_nil]

end ClusterScratch

/-! ## What a scratch comes to -/

structure Standing where
  clusterId : Str
  wins : List Int
  losses : List Int
  commitments : Str → Option (Int × Int)
  variants : Str → Option (Int × Int)
  observations : Int
  wonCount : Int

def Standing.count (standing : Standing) (row : OutcomeRow) : Standing :=
  { standing with
    wins := if row.won then standing.wins.modify row.rung (· + 1) else standing.wins
    losses := if row.won then standing.losses else standing.losses.modify row.rung (· + 1)
    wonCount := standing.wonCount + if row.won then 1 else 0
    observations := standing.observations + 1
    commitments := row.commitments.foldl (bumped row.won) standing.commitments
    variants := row.variant.toList.foldl (bumped row.won) standing.variants }

theorem modify_comm (counts : List Int) (i j : Nat) :
    (counts.modify i (· + 1)).modify j (· + 1) = (counts.modify j (· + 1)).modify i (· + 1) := by
  apply List.ext_getElem
  · simp
  · intro k left right
    simp only [List.getElem_modify]
    split <;> split <;> rfl

instance : RightCommutative Standing.count where
  right_comm standing row row' := by
    have tables (said : Str → Option (Int × Int)) (labels labels' : List Str) :
        labels'.foldl (bumped row'.won) (labels.foldl (bumped row.won) said)
          = labels.foldl (bumped row.won) (labels'.foldl (bumped row'.won) said) :=
      foldl_comm_foldl (bumped_comm row.won row'.won) labels labels' said
    simp only [Standing.count, tables]
    congr 1
    · split <;> split <;> first | rfl | exact modify_comm ..
    · split <;> split <;> first | rfl | exact modify_comm ..
    · exact Int.add_right_comm ..

namespace ClusterScratch

def standing (slot : ClusterScratch) : Standing where
  clusterId := slot.clusterId
  wins := slot.wins
  losses := slot.losses
  commitments := Dict.get? slot.commitments
  variants := Dict.get? slot.variants
  observations := slot.observations
  wonCount := slot.wonCount

theorem standing_count (slot : ClusterScratch) (row : OutcomeRow) :
    (slot.count row).standing = slot.standing.count row := by
  simp only [standing, count, Standing.count, get?_bumps]

theorem standing_counts (slot : ClusterScratch) (rows : List OutcomeRow) :
    (rows.foldl count slot).standing = rows.foldl Standing.count slot.standing := by
  induction rows generalizing slot with
  | nil => rfl
  | cons row rows ih => rw [List.foldl_cons, ih, standing_count, List.foldl_cons]

structure Sound (slot : ClusterScratch) (rungs : Nat) : Prop where
  wins : slot.wins.length = rungs
  losses : slot.losses.length = rungs
  commitments : (Dict.keys slot.commitments).Nodup
  variants : (Dict.keys slot.variants).Nodup

theorem Sound.count {slot : ClusterScratch} {rungs : Nat} (sound : slot.Sound rungs) (row : OutcomeRow) :
    (slot.count row).Sound rungs where
  wins := by
    show (if row.won then slot.wins.modify row.rung (· + 1) else slot.wins).length = rungs
    split <;> simp [sound.wins]
  losses := by
    show (if row.won then slot.losses else slot.losses.modify row.rung (· + 1)).length = rungs
    split <;> simp [sound.losses]
  commitments := nodup_bumps sound.commitments _
  variants := nodup_bumps sound.variants _

theorem Sound.counts {slot : ClusterScratch} {rungs : Nat} (sound : slot.Sound rungs)
    (rows : List OutcomeRow) : (rows.foldl ClusterScratch.count slot).Sound rungs := by
  induction rows generalizing slot with
  | nil => exact sound
  | cons row rows ih => exact ih (sound.count row)

section Frozen

variable {F : Type}

theorem sound_ofLearned (learned : Option (ClusterLearning F)) (clusterId : Str) (rungs : Nat) :
    (ofLearned learned clusterId rungs).Sound rungs where
  wins := padded_length ..
  losses := padded_length ..
  commitments := by
    cases learned with
    | none => exact List.nodup_nil
    | some learned => exact nodup_tabled _
  variants := by
    cases learned with
    | none => exact List.nodup_nil
    | some learned => exact nodup_tabled _

variable {buckets : List (Extended F)}

theorem freeze_congr (buckets : List (Extended F)) {slot slot' : ClusterScratch} {rungs : Nat}
    (sound : slot.Sound rungs) (sound' : slot'.Sound rungs) (same : slot.standing = slot'.standing) :
    slot.freeze buckets = slot'.freeze buckets := by
  injection same with named wins losses commitments variants observations won
  simp only [freeze, named, wins, losses, observations, won,
    freezeTable_congr sound.commitments sound'.commitments commitments,
    freezeTable_congr sound.variants sound'.variants variants]

theorem wins_freeze {slot : ClusterScratch} (sound : slot.Sound buckets.length) :
    (slot.freeze buckets).depths.map DepthTally.wins = slot.wins := by
  show List.map _ (List.map _ _) = _
  rw [List.map_map]
  calc List.map _ (buckets.zip (slot.wins.zip slot.losses))
      = ((buckets.zip (slot.wins.zip slot.losses)).map Prod.snd).map Prod.fst := by
        rw [List.map_map]
        rfl
    _ = slot.wins := by
        rw [List.map_snd_zip, List.map_fst_zip] <;> simp [sound.wins, sound.losses]

theorem losses_freeze {slot : ClusterScratch} (sound : slot.Sound buckets.length) :
    (slot.freeze buckets).depths.map DepthTally.losses = slot.losses := by
  show List.map _ (List.map _ _) = _
  rw [List.map_map]
  calc List.map _ (buckets.zip (slot.wins.zip slot.losses))
      = ((buckets.zip (slot.wins.zip slot.losses)).map Prod.snd).map Prod.snd := by
        rw [List.map_map]
        rfl
    _ = slot.losses := by
        rw [List.map_snd_zip, List.map_snd_zip] <;> simp [sound.wins, sound.losses]

theorem standing_ofLearned_freeze {slot : ClusterScratch} (sound : slot.Sound buckets.length) :
    (ofLearned (some (slot.freeze buckets)) slot.clusterId buckets.length).standing = slot.standing := by
  have commitments := get?_tabled_freezeTable sound.commitments
  have variants := get?_tabled_freezeTable sound.variants
  simp only [standing, ofLearned, Option.elim_some, wins_freeze sound, losses_freeze sound,
    padded_of_length sound.wins, padded_of_length sound.losses]
  simp only [freeze, commitments, variants]

end Frozen
end ClusterScratch

/-! ## What a state has learned about each cluster -/

def outcomesOf (rows : List OutcomeRow) (k : Str) : List OutcomeRow := rows.filter fun row => row.clusterId = k

namespace StoreLearningState

variable {F : Type} (s : StoreLearningState F)

def about (k : Str) : List (ClusterLearning F) := s.clusters.filter fun learned => learned.clusterId = k

def slot (rows : List OutcomeRow) (k : Str) : ClusterScratch :=
  (outcomesOf rows k).foldl ClusterScratch.count (s.rehydrated k)

theorem sound_slot (rows : List OutcomeRow) (k : Str) : (s.slot rows k).Sound s.depthBuckets.length :=
  (ClusterScratch.sound_ofLearned _ _ _).counts _

theorem clusterId_counts (rows : List OutcomeRow) (slot : ClusterScratch) :
    (rows.foldl ClusterScratch.count slot).clusterId = slot.clusterId := by
  induction rows generalizing slot with
  | nil => rfl
  | cons row rows ih => exact ih _

theorem clusterId_slot (rows : List OutcomeRow) (k : Str) : (s.slot rows k).clusterId = k :=
  clusterId_counts _ _

theorem nodup_scratchOf (rows : List OutcomeRow) : (Dict.keys (s.scratchOf rows)).Nodup :=
  nodup_filed _ _ _ (show (Dict.keys []).Nodup from List.nodup_nil) rows

theorem get?_scratchOf (rows : List OutcomeRow) (k : Str) :
    Dict.get? (s.scratchOf rows) k = if outcomesOf rows k = [] then none else some (s.slot rows k) := by
  rw [scratchOf, get?_filed]
  rfl

theorem contains_scratchOf (rows : List OutcomeRow) (k : Str) :
    Dict.contains (s.scratchOf rows) k = !(outcomesOf rows k).isEmpty := by
  rw [Dict.contains, get?_scratchOf]
  cases outcomesOf rows k <;> rfl

theorem mem_scratchOf {rows : List OutcomeRow} {entry : Str × ClusterScratch}
    (member : entry ∈ s.scratchOf rows) : entry.2 = s.slot rows entry.1 := by
  have found := Dict.get?_of_mem (s.nodup_scratchOf rows) member
  rw [get?_scratchOf] at found
  split at found
  · cases found
  · exact (Option.some.inj found).symm

theorem about_evolve (rows : List OutcomeRow) (k : Str) :
    (s.evolve rows).about k =
      if outcomesOf rows k = [] then s.about k else [(s.slot rows k).freeze s.depthBuckets] := by
  have untouched : ((s.clusters.filter fun learned => !Dict.contains (s.scratchOf rows) learned.clusterId).filter
      fun learned => learned.clusterId = k) = if outcomesOf rows k = [] then s.about k else [] := by
    rw [about, List.filter_filter]
    split
    · rename_i none
      apply List.filter_congr
      intro learned _
      by_cases here : learned.clusterId = k
      · simp [here, contains_scratchOf, none]
      · simp [here]
    · rename_i some
      rw [List.filter_eq_nil_iff]
      intro learned _
      by_cases here : learned.clusterId = k
      · simp [here, contains_scratchOf, some]
      · simp [here]
  have evolved : (((byKey Str.le (s.scratchOf rows)).map fun entry => entry.2.freeze s.depthBuckets).filter
      fun learned => learned.clusterId = k) =
      if outcomesOf rows k = [] then [] else [(s.slot rows k).freeze s.depthBuckets] := by
    rw [List.filter_map]
    have keyed : (byKey Str.le (s.scratchOf rows)).filter
        ((fun learned : ClusterLearning F => decide (learned.clusterId = k)) ∘ fun entry =>
          entry.2.freeze s.depthBuckets) = (byKey Str.le (s.scratchOf rows)).filter fun entry => entry.1 = k := by
      apply List.filter_congr
      intro entry member
      have named : (entry.2.freeze s.depthBuckets).clusterId = entry.1 := by
        rw [s.mem_scratchOf ((byKey_perm _).mem_iff.mp member)]
        exact s.clusterId_slot rows entry.1
      rw [Function.comp_apply, named]
    rw [keyed, filter_key (nodup_byKey (s.nodup_scratchOf rows)), get?_byKey (s.nodup_scratchOf rows),
      get?_scratchOf]
    split <;> rfl
  show (sortBy Str.le ClusterLearning.clusterId _).filter _ = _
  rw [filter_sortBy str_order, List.filter_append, untouched, evolved]
  split <;> simp

theorem sorted_evolve (rows : List OutcomeRow) : (s.evolve rows).clusters.Pairwise fun a b =>
    Str.le a.clusterId b.clusterId = true :=
  sortBy_sorted str_order _

theorem evolve_eq {t : StoreLearningState F} {rows rows' : List OutcomeRow}
    (storeId : s.storeId = t.storeId) (buckets : s.depthBuckets = t.depthBuckets) (prior : s.prior = t.prior)
    (observations : s.observations + rows.length = t.observations + rows'.length)
    (same : ∀ k, (s.evolve rows).about k = (t.evolve rows').about k) : s.evolve rows = t.evolve rows' := by
  have clusters := eq_of_fibres str_order (s.sorted_evolve rows) (t.sorted_evolve rows') same
  unfold evolve at clusters ⊢
  simp only [StoreLearningState.mk.injEq]
  exact ⟨storeId, buckets, prior, clusters, observations⟩

theorem evolve_perm {rows rows' : List OutcomeRow} (perm : rows.Perm rows') : s.evolve rows = s.evolve rows' := by
  apply s.evolve_eq rfl rfl rfl (by rw [perm.length_eq])
  intro k
  have outcomes : (outcomesOf rows k).Perm (outcomesOf rows' k) := perm.filter _
  have slots : (s.slot rows k).standing = (s.slot rows' k).standing := by
    rw [slot, slot, ClusterScratch.standing_counts, ClusterScratch.standing_counts]
    exact outcomes.foldl_eq _
  have none : outcomesOf rows k = [] ↔ outcomesOf rows' k = [] := by
    rw [← List.length_eq_zero_iff, outcomes.length_eq, List.length_eq_zero_iff]
  rw [about_evolve, about_evolve,
    ClusterScratch.freeze_congr s.depthBuckets (s.sound_slot rows k) (s.sound_slot rows' k) slots]
  simp only [none]

theorem cluster_eq (k : Str) : s.cluster k = (s.about k).head? := by
  rw [cluster, about, List.head?_filter]

theorem standing_rehydrated (rows : List OutcomeRow) (k : Str) :
    ((s.evolve rows).rehydrated k).standing = (s.slot rows k).standing := by
  rw [rehydrated, cluster_eq, about_evolve]
  split
  · rename_i none
    rw [← cluster_eq, slot, none]
    rfl
  · have read := ClusterScratch.standing_ofLearned_freeze (s.sound_slot rows k)
    rw [clusterId_slot] at read
    exact read

theorem evolve_evolve (rows rows' : List OutcomeRow) :
    (s.evolve rows).evolve rows' = s.evolve (rows ++ rows') := by
  refine evolve_eq (s.evolve rows) (t := s) rfl rfl rfl ?_ ?_
  · show s.observations + rows.length + rows'.length = s.observations + (rows ++ rows').length
    rw [List.length_append, Nat.cast_add, Int.add_assoc]
  · intro k
    have outcomes : outcomesOf (rows ++ rows') k = outcomesOf rows k ++ outcomesOf rows' k :=
      List.filter_append ..
    have slots : ((s.evolve rows).slot rows' k).standing = (s.slot (rows ++ rows') k).standing := by
      rw [slot, ClusterScratch.standing_counts, standing_rehydrated, slot, slot, outcomes, List.foldl_append,
        ClusterScratch.standing_counts, ClusterScratch.standing_counts, ClusterScratch.standing_counts]
    have frozen := ClusterScratch.freeze_congr s.depthBuckets
      ((s.evolve rows).sound_slot rows' k) (s.sound_slot (rows ++ rows') k) slots
    rw [about_evolve, about_evolve, about_evolve, outcomes]
    by_cases later : outcomesOf rows' k = []
    · rw [if_pos later, later, List.append_nil]
      have slots : s.slot (rows ++ rows') k = s.slot rows k := by
        rw [slot, outcomes, later, List.append_nil, slot]
      rw [slots]
    · rw [if_neg later, if_neg (by simp [later])]
      exact congrArg (· :: []) frozen

end StoreLearningState
end Proxyshop.Learning
