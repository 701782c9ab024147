import Proxyshop.Ranking.Shortlist

/-!
# The exploration slice

The last slot of a full shortlist may go to a store on the bench that is low on data.
-/

namespace Proxyshop.Policy

open Python Numbers Contracts Structures Ranking

def maxSampledChallengers : Nat := 60

structure ExplorationSlice where
  storeId : Str
  bidId : Str
  exposureShare : ℚ
  displacedStoreId : Str
  displacedBidId : Str

structure ExplorationPayload where
  bidRef : Str
  storeId : Str
  slot : SlotName
  exposureShare : ℚ
  displacedBidRef : Str
  displacedStoreId : Str

def ExplorationSlice.asPayload (slice : ExplorationSlice) (slot : SlotName) : ExplorationPayload where
  bidRef := slice.bidId
  storeId := slice.storeId
  slot := slot
  exposureShare := slice.exposureShare
  displacedBidRef := slice.displacedBidId
  displacedStoreId := slice.displacedStoreId

variable {F : Type} [Format F]

/-- `share_of`. -/
def shareOf (sampled : Dict Str (Extended F)) (row : Row F) : ℚ :=
  match Dict.get? sampled row.storeId with
  | some (.finite share) => Format.value share
  | _ => 0

omit [Format F] in
def challengers (bench : List (Row F)) : List (Row F) :=
  (bench.filter fun row => isLowData row.trustSummary).take maxSampledChallengers

omit [Format F] in
def contestants (pool bench : List (Row F)) : List Str := (pool ++ challengers bench).map Row.storeId

def favour (sampled : Dict Str (Extended F)) (pair : Row F × Nat) : ℚ ×ₗ ℚ :=
  toLex (shareOf sampled pair.1, -(pair.2 : ℚ))

def sliceOf (sampled : Dict Str (Extended F)) (chosen displaced : Row F) : ExplorationSlice where
  storeId := chosen.storeId
  bidId := chosen.bidId
  exposureShare := shareOf sampled chosen
  displacedStoreId := displaced.storeId
  displacedBidId := displaced.bidId

/-- `plan_exploration`; `shares` is the sampler, which may raise. -/
def planExploration (pool bench : List (Row F))
    (shares : List Str → Except PyError (Dict Str (Extended F))) :
    Except PyError (Option ExplorationSlice) :=
  match pool.getLast? with
  | none => .ok none
  | some displaced =>
      if bench.isEmpty || pool.any (fun row => isLowData row.trustSummary) then .ok none
      else if (challengers bench).isEmpty then .ok none
      else do
        let sampled ← shares (contestants pool bench)
        match (challengers bench).zipIdx.argmax (favour sampled) with
        | none => return none
        | some (chosen, _) =>
            return if shareOf sampled chosen ≤ 0 then none else some (sliceOf sampled chosen displaced)

/-- The challenger with the greatest share, the best ranked of those that have it, if it has any. -/
def Favoured (sampled : Dict Str (Extended F)) (contest : List (Row F)) (newcomer : Row F) : Prop :=
  ∃ index, (newcomer, index) ∈ contest.zipIdx ∧ 0 < shareOf sampled newcomer ∧
    ∀ other ∈ contest.zipIdx, favour sampled other ≤ favour sampled (newcomer, index)

theorem eq_of_favour_eq {sampled : Dict Str (Extended F)} {contest : List (Row F)}
    {pair pair' : Row F × Nat} (member : pair ∈ contest.zipIdx) (member' : pair' ∈ contest.zipIdx)
    (same : favour sampled pair = favour sampled pair') : pair = pair' := by
  have index : -(pair.2 : ℚ) = -(pair'.2 : ℚ) := congrArg (fun key => (ofLex key).2) same
  obtain ⟨row, i⟩ := pair
  obtain ⟨row', i'⟩ := pair'
  obtain rfl : i = i' := Nat.cast_injective (neg_injective index)
  rw [List.mk_mem_zipIdx_iff_getElem?] at member member'
  rw [Option.some.inj (member.symm.trans member')]

theorem favoured_iff {sampled : Dict Str (Extended F)} {contest : List (Row F)} {newcomer : Row F} :
    Favoured sampled contest newcomer ↔ ∃ index,
      contest.zipIdx.argmax (favour sampled) = some (newcomer, index) ∧ 0 < shareOf sampled newcomer := by
  constructor
  · rintro ⟨index, member, positive, greatest⟩
    have some_left : contest.zipIdx.argmax (favour sampled) ≠ none :=
      mt List.argmax_eq_none.mp (List.ne_nil_of_mem member)
    obtain ⟨best, chosen⟩ := Option.ne_none_iff_exists'.mp some_left
    have best_mem := List.argmax_mem (Option.mem_def.mpr chosen)
    have le := List.le_of_mem_argmax member (Option.mem_def.mpr chosen)
    obtain rfl := eq_of_favour_eq best_mem member (le_antisymm (greatest best best_mem) le)
    exact ⟨index, chosen, positive⟩
  · rintro ⟨index, chosen, positive⟩
    exact ⟨index, List.argmax_mem (Option.mem_def.mpr chosen), positive,
      fun other member => List.le_of_mem_argmax member (Option.mem_def.mpr chosen)⟩

theorem Favoured.mem {sampled : Dict Str (Extended F)} {contest : List (Row F)} {newcomer : Row F}
    (favoured : Favoured sampled contest newcomer) : newcomer ∈ contest := by
  obtain ⟨index, member, -⟩ := favoured
  exact List.fst_mem_of_mem_zipIdx member

theorem planExploration_eq_some {pool bench : List (Row F)}
    {shares : List Str → Except PyError (Dict Str (Extended F))} {slice : ExplorationSlice} :
    planExploration pool bench shares = .ok (some slice) ↔
      ∃ displaced, pool.getLast? = some displaced ∧ (∀ row ∈ pool, isLowData row.trustSummary = false) ∧
        ∃ sampled, shares (contestants pool bench) = .ok sampled ∧
          ∃ newcomer, Favoured sampled (challengers bench) newcomer ∧
            slice = sliceOf sampled newcomer displaced := by
  unfold planExploration
  cases last : pool.getLast? with
  | none => exact iff_of_false nofun fun ⟨_, last, _⟩ => absurd last.symm (Option.some_ne_none _)
  | some displaced =>
      have quiet : pool.any (fun row => isLowData row.trustSummary) = false ↔
          ∀ row ∈ pool, isLowData row.trustSummary = false := by simp
      have idle : (bench.isEmpty = true ∨ (challengers bench).isEmpty = true) →
          ∀ sampled newcomer, ¬ Favoured sampled (challengers bench) newcomer := by
        intro empty sampled newcomer favoured
        have member := favoured.mem
        rcases empty with none_left | none_left
        · rw [List.isEmpty_iff.mp none_left] at member
          cases member
        · rw [List.isEmpty_iff.mp none_left] at member
          cases member
      constructor
      · intro planned
        refine ⟨displaced, rfl, ?_⟩
        dsimp only at planned
        split at planned
        · cases planned
        · rename_i settled
          split at planned
          · cases planned
          · simp only [Bool.or_eq_true, not_or, Bool.not_eq_true] at settled
            refine ⟨quiet.mp settled.2, ?_⟩
            obtain ⟨sampled, sampled_eq, planned⟩ := bind_eq_ok.mp planned
            refine ⟨sampled, sampled_eq, ?_⟩
            split at planned
            · cases planned
            · rename_i chosen index best
              have planned := Except.ok.inj planned
              split at planned
              · cases planned
              · rename_i positive
                exact ⟨chosen, favoured_iff.mpr ⟨index, best, not_le.mp positive⟩,
                  (Option.some.inj planned).symm⟩
      · rintro ⟨displaced', last', low, sampled, sampled_eq, newcomer, favoured, rfl⟩
        obtain rfl := Option.some.inj last'
        dsimp only
        rw [if_neg, if_neg]
        · obtain ⟨index, best, positive⟩ := favoured_iff.mp favoured
          refine bind_eq_ok.mpr ⟨sampled, sampled_eq, ?_⟩
          rw [best]
          exact congrArg Except.ok (if_neg (not_le.mpr positive))
        · exact fun empty => idle (.inr empty) sampled newcomer favoured
        · intro settled
          rcases Bool.or_eq_true_iff.mp settled with empty | marked
          · exact idle (.inl empty) sampled newcomer favoured
          · rw [quiet.mpr low] at marked
            cases marked

end Proxyshop.Policy
