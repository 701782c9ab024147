import Proxyshop.Policy.Exploration

/-!
# Exploring a ranked auction

The slice is planned on one bid for each store and carried out on the ranked rows, where a bid id may
stand more than once.
-/

namespace Proxyshop.Ranking

open Python Numbers Contracts Structures Policy

variable {F : Type}

def rowsAbove (rows : List (Row F)) (bidId : Str) : List (Row F) :=
  rows.takeWhile fun row => row.bidId ≠ bidId

def rowsFrom (rows : List (Row F)) (bidId : Str) : List (Row F) :=
  rows.dropWhile fun row => row.bidId ≠ bidId

/-- `_promoted_order`. -/
def promotedOrder (rows : List (Row F)) (promote displace : Str) : List (Row F) :=
  match rowsFrom rows promote with
  | [] => rows
  | promoted :: rest =>
      let kept := rowsAbove rows promote ++ rest
      match rowsFrom kept displace with
      | [] => rows
      | below => rowsAbove kept displace ++ promoted :: below

/-- What `rank` returns. -/
structure RankOutcome (F : Type) where
  ranked : List (Row F)
  shortlist : Shortlist F

/-- `_Explored`. -/
structure Explored (F : Type) where
  shortlist : Shortlist F
  payload : ExplorationPayload

/-- What `rank_auction` returns of the ranking. -/
structure RankedAuction (F : Type) where
  ranked : List (Row F)
  shortlist : Shortlist F
  exploration : Option ExplorationPayload

variable [Format F]

/-- The end of `rank`. -/
def rankedRows (rows : List (Row F)) (auctionId : Str) : RankOutcome F where
  ranked := rows
  shortlist := build rows auctionId

/-- `_explore`; whatever is raised leaves the shortlist alone. -/
def explore (ranking : RankOutcome F) (auctionId : Str)
    (sampled : List Str → Except PyError (Dict Str (Extended F))) : Option (Explored F) :=
  match planExploration (slotPool ranking.ranked) (bench ranking.ranked) sampled with
  | .ok (some plan) =>
      let promoted := build (promotedOrder ranking.ranked plan.bidId plan.displacedBidId)
        (if ranking.shortlist.auctionId.isEmpty then auctionId else ranking.shortlist.auctionId)
      (promoted.slots.find? fun slot => slot.bidRef = plan.bidId).map fun slot =>
        ⟨promoted, plan.asPayload slot.slot⟩
  | _ => none

/-- The end of `rank_auction`. -/
def rankAuction (ranking : RankOutcome F) (auctionId : Str)
    (sampled : List Str → Except PyError (Dict Str (Extended F))) : RankedAuction F :=
  let explored := explore ranking auctionId sampled
  { ranked := ranking.ranked
    shortlist := (explored.map Explored.shortlist).getD ranking.shortlist
    exploration := explored.map Explored.payload }

/-! ## The order with a row moved up -/

section Order

variable {rows kept ahead rest later : List (Row F)} {promoted displaced newcomer : Row F}

omit [Format F]

theorem bestBidPerStore_append (rows rows' : List (Row F)) :
    bestBidPerStore (rows ++ rows') = bestBidPerStore rows ++
      firstFit Row.clashes (bestBidPerStore rows).reverse rows' := by
  simp only [bestBidPerStore_eq, firstFit_append, List.append_nil]

theorem subset_bestBidPerStore : bestBidPerStore rows ⊆ rows := by
  rw [bestBidPerStore_eq]
  exact firstFit_sublist.subset

theorem slotPool_append_bench (rows : List (Row F)) : slotPool rows ++ bench rows = bestBidPerStore rows :=
  List.take_append_drop _ _

theorem rowsAbove_append_rowsFrom (rows : List (Row F)) (bidId : Str) :
    rowsAbove rows bidId ++ rowsFrom rows bidId = rows := List.takeWhile_append_dropWhile

theorem ne_of_mem_rowsAbove {bidId : Str} {row : Row F} (above : row ∈ rowsAbove rows bidId) :
    row.bidId ≠ bidId := by
  simpa using List.mem_takeWhile_imp above

theorem bidId_of_rowsFrom {bidId : Str} (found : rowsFrom rows bidId = promoted :: rest) :
    promoted.bidId = bidId := by
  have head := List.head?_dropWhile_not (fun row : Row F => decide (row.bidId ≠ bidId)) rows
  rw [show rows.dropWhile _ = promoted :: rest from found] at head
  simpa using head

theorem rowsAbove_append_of_mem {bidId : Str} {front back : List (Row F)} {row : Row F}
    (member : row ∈ front) (carries : row.bidId = bidId) :
    rowsAbove (front ++ back) bidId = rowsAbove front bidId := by
  unfold rowsAbove
  rw [List.takeWhile_append, if_neg]
  intro whole
  have all := List.takeWhile_eq_self_iff.mp (List.takeWhile_prefix _ |>.eq_of_length whole)
  simpa [carries] using all row member

theorem rowsAbove_append_of_not_mem {bidId : Str} {front back : List (Row F)}
    (absent : ∀ row ∈ front, row.bidId ≠ bidId) :
    rowsAbove (front ++ back) bidId = front ++ rowsAbove back bidId := by
  unfold rowsAbove
  rw [List.takeWhile_append_of_pos]
  simpa using absent

theorem exists_below (best : bestBidPerStore kept = ahead ++ displaced :: later) :
    ∃ below, ahead = bestBidPerStore (rowsAbove kept displaced.bidId) ++ below ∧
      firstFit Row.clashes (bestBidPerStore (rowsAbove kept displaced.bidId)).reverse
          (rowsFrom kept displaced.bidId) = below ++ displaced :: later := by
  have split := bestBidPerStore_append (rowsAbove kept displaced.bidId) (rowsFrom kept displaced.bidId)
  rw [rowsAbove_append_rowsFrom, best] at split
  have without : displaced ∉ bestBidPerStore (rowsAbove kept displaced.bidId) :=
    fun member => ne_of_mem_rowsAbove (subset_bestBidPerStore member) rfl
  rcases List.append_eq_append_iff.mp split with ⟨below, above_eq, below_eq⟩ | ⟨below, ahead_eq, below_eq⟩
  · cases below with
    | nil => exact ⟨[], by simpa using above_eq.symm, below_eq.symm⟩
    | cons row below =>
        obtain ⟨rfl, -⟩ := List.cons.inj below_eq
        rw [above_eq] at without
        exact absurd (List.mem_append_right _ List.mem_cons_self) without
  · exact ⟨below, ahead_eq, below_eq⟩

theorem bestBidPerStore_kept (pool : slotPool rows = ahead ++ [displaced]) (benched : newcomer ∈ bench rows)
    (found : rowsFrom rows newcomer.bidId = promoted :: rest) :
    (∃ later, bestBidPerStore (rowsAbove rows newcomer.bidId ++ rest) = ahead ++ displaced :: later) ∧
      bestBidPerStore (rowsAbove (rowsAbove rows newcomer.bidId ++ rest) displaced.bidId)
        = bestBidPerStore (rowsAbove rows displaced.bidId) := by
  have carries := bidId_of_rowsFrom found
  have whole : rowsAbove rows newcomer.bidId ++ promoted :: rest = rows :=
    found ▸ rowsAbove_append_rowsFrom rows newcomer.bidId
  have best : bestBidPerStore rows = ahead ++ displaced :: bench rows := by
    rw [← slotPool_append_bench, pool, List.append_assoc]
    rfl
  have bids := nodup_bids rows
  rw [best] at bids
  have apart : ∀ row ∈ ahead ++ [displaced], row.bidId ≠ newcomer.bidId := by
    intro row member same
    rw [← List.singleton_append, ← List.append_assoc, List.map_append, List.nodup_append] at bids
    exact bids.2.2 _ (List.mem_map_of_mem member) _ (List.mem_map_of_mem benched) same
  have other : promoted.bidId ≠ displaced.bidId := carries ▸ (apart displaced (by simp)).symm
  generalize front_eq : rowsAbove rows newcomer.bidId = front at whole
  by_cases taken : ((bestBidPerStore front).reverse).any (Row.clashes · promoted) = true
  · have drop {back : List (Row F)} :
        bestBidPerStore (front ++ promoted :: back) = bestBidPerStore (front ++ back) := by
      rw [bestBidPerStore_eq] at taken ⊢
      rw [bestBidPerStore_eq]
      exact firstFit_append_cons_of_taken (by rwa [List.append_nil])
    refine ⟨⟨bench rows, by rw [← drop, whole, best]⟩, ?_⟩
    by_cases above : ∃ row ∈ front, row.bidId = displaced.bidId
    · obtain ⟨row, member, same⟩ := above
      rw [← whole, rowsAbove_append_of_mem member same, rowsAbove_append_of_mem member same]
    · have absent : ∀ row ∈ front, row.bidId ≠ displaced.bidId := fun row member same =>
        above ⟨row, member, same⟩
      rw [← whole, rowsAbove_append_of_not_mem absent, rowsAbove_append_of_not_mem absent]
      rw [show rowsAbove (promoted :: rest) displaced.bidId = promoted :: rowsAbove rest displaced.bidId
        from List.takeWhile_cons_of_pos (by simpa using other), drop]
  · -- The promoted row is the newcomer's own, which comes after the whole pool.
    have split := bestBidPerStore_append front (promoted :: rest)
    rw [firstFit_cons_of_free (Bool.not_eq_true _ ▸ taken), whole, best, ← List.singleton_append,
      ← List.append_assoc] at split
    obtain ⟨between, front_best⟩ : ∃ between, bestBidPerStore front = ahead ++ [displaced] ++ between := by
      rcases List.append_eq_append_iff.mp split with ⟨between, front_best, -⟩ | ⟨between, pool_eq, below_eq⟩
      · exact ⟨between, front_best⟩
      · cases between with
        | nil => exact ⟨[], by rw [pool_eq, List.append_nil, List.append_nil]⟩
        | cons row between =>
            obtain ⟨rfl, -⟩ := List.cons.inj below_eq
            exact absurd carries (apart promoted (by rw [pool_eq]; simp))
    have inside : displaced ∈ front := by
      apply subset_bestBidPerStore
      rw [front_best]
      simp
    constructor
    · refine ⟨between ++ firstFit Row.clashes (bestBidPerStore front).reverse rest, ?_⟩
      rw [bestBidPerStore_append, front_best]
      simp
    · rw [← whole, rowsAbove_append_of_mem inside rfl, rowsAbove_append_of_mem inside rfl]

theorem mem_rows_of_bench (benched : newcomer ∈ bench rows) : newcomer ∈ rows :=
  subset_bestBidPerStore (List.mem_of_mem_drop benched)

theorem length_slotPool_of_bench (benched : newcomer ∈ bench rows) : (slotPool rows).length = maxSlots := by
  have some_left := List.length_pos_of_mem benched
  rw [bench, List.length_drop] at some_left
  rw [slotPool, List.length_take]
  exact Nat.min_eq_left (by omega)

theorem exists_promoted (benched : newcomer ∈ bench rows) :
    ∃ promoted rest, rowsFrom rows newcomer.bidId = promoted :: rest := by
  have member := mem_rows_of_bench benched
  cases found : rowsFrom rows newcomer.bidId with
  | nil =>
      have other := List.dropWhile_eq_nil_iff.mp found newcomer member
      simp at other
  | cons promoted rest => exact ⟨promoted, rest, rfl⟩

theorem slotPool_promotedOrder (pool : slotPool rows = ahead ++ [displaced])
    (benched : newcomer ∈ bench rows) (found : rowsFrom rows newcomer.bidId = promoted :: rest) :
    (promoted.storeId ∈ (bestBidPerStore (rowsAbove rows displaced.bidId)).map Row.storeId →
      slotPool (promotedOrder rows newcomer.bidId displaced.bidId) = slotPool rows) ∧
    (promoted.storeId ∉ (bestBidPerStore (rowsAbove rows displaced.bidId)).map Row.storeId →
      promoted ∈ slotPool (promotedOrder rows newcomer.bidId displaced.bidId)) ∧
    (promoted.storeId ∉ (slotPool rows).map Row.storeId →
      (slotPool (promotedOrder rows newcomer.bidId displaced.bidId)).Perm (promoted :: ahead)) := by
  have full := length_slotPool_of_bench benched
  have carries := bidId_of_rowsFrom found
  obtain ⟨⟨later, best⟩, above_eq⟩ := bestBidPerStore_kept pool benched found
  obtain ⟨below, ahead_eq, below_eq⟩ := exists_below best
  rw [above_eq] at ahead_eq below_eq
  rw [pool, List.length_append, List.length_singleton] at full
  generalize kept_eq : rowsAbove rows newcomer.bidId ++ rest = kept at best above_eq below_eq
  -- The displaced bid stands among the rows that are kept.
  obtain ⟨head, tail, from_eq⟩ : ∃ head tail, rowsFrom kept displaced.bidId = head :: tail := by
    cases from_eq : rowsFrom kept displaced.bidId with
    | nil =>
        rw [from_eq] at below_eq
        simp [firstFit] at below_eq
    | cons head tail => exact ⟨head, tail, rfl⟩
  have order : promotedOrder rows newcomer.bidId displaced.bidId
      = rowsAbove kept displaced.bidId ++ promoted :: rowsFrom kept displaced.bidId := by
    unfold promotedOrder
    rw [found]
    dsimp only
    rw [kept_eq, from_eq]
  have front := bestBidPerStore_append (rowsAbove kept displaced.bidId)
    (promoted :: rowsFrom kept displaced.bidId)
  rw [above_eq, ← order] at front
  generalize bestBidPerStore (rowsAbove rows displaced.bidId) = upper at *
  have bids_apart : ∀ row ∈ upper ++ below, row.bidId ≠ promoted.bidId := by
    intro row member same
    have bids := nodup_bids rows
    rw [← slotPool_append_bench, List.map_append, List.nodup_append] at bids
    refine bids.2.2 row.bidId (List.mem_map_of_mem ?_) _ (List.mem_map_of_mem benched) (same.trans carries)
    rw [pool, ahead_eq]
    exact List.mem_append_left _ member
  have taken_iff : upper.reverse.any (Row.clashes · promoted) = true ↔
      promoted.storeId ∈ upper.map Row.storeId := by
    rw [List.any_eq_true, List.mem_map]
    constructor
    · rintro ⟨row, member, clash⟩
      rw [List.mem_reverse] at member
      simp only [Row.clashes, Bool.or_eq_true, decide_eq_true_iff] at clash
      rcases clash with store | bid
      · exact ⟨row, member, store.symm⟩
      · exact absurd bid.symm (bids_apart row (List.mem_append_left _ member))
    · rintro ⟨row, member, store⟩
      exact ⟨row, List.mem_reverse.mpr member, by simp [Row.clashes, store]⟩
  have few : upper.length + below.length = 3 := by
    rw [ahead_eq, List.length_append] at full
    exact Nat.succ.inj full
  refine ⟨?_, ?_, ?_⟩
  · intro above
    rw [firstFit_cons_of_taken (taken_iff.mpr above), below_eq, ← List.append_assoc, ← ahead_eq] at front
    rw [slotPool, front, pool, List.append_cons]
    exact List.take_left' (by rw [List.length_append]; exact full)
  · intro free
    rw [firstFit_cons_of_free (Bool.not_eq_true _ ▸ mt taken_iff.mp free)] at front
    rw [slotPool, front, List.take_append]
    apply List.mem_append_right
    obtain ⟨room, room_eq⟩ : ∃ room, min maxSlots slotNames.length - upper.length = room + 1 :=
      ⟨3 - upper.length, by
        show 4 - upper.length = _
        omega⟩
    rw [room_eq, List.take_succ_cons]
    exact List.mem_cons_self
  · intro fresh
    have stores_apart : ∀ row ∈ upper ++ below, row.storeId ≠ promoted.storeId := by
      intro row member same
      apply fresh
      rw [pool, ahead_eq, ← same]
      exact List.mem_map_of_mem (List.mem_append_left _ member)
    have free : promoted.storeId ∉ upper.map Row.storeId := by
      rw [List.mem_map]
      rintro ⟨row, member, same⟩
      exact stores_apart row (List.mem_append_left _ member) same
    rw [firstFit_cons_of_free (Bool.not_eq_true _ ▸ mt taken_iff.mp free)] at front
    obtain ⟨before, after, split, before_eq⟩ := firstFit_split below_eq
    rw [split, firstFit_append, firstFit_seen_cons, before_eq] at front
    · rw [slotPool, front, ahead_eq]
      have leaders : (upper ++ promoted :: (below ++ firstFit Row.clashes
          (below.reverse ++ promoted :: upper.reverse) (displaced :: after))).take
            (min maxSlots slotNames.length) = upper ++ promoted :: below := by
        rw [← List.cons_append, ← List.append_assoc]
        apply List.take_left'
        rw [List.length_append, List.length_cons]
        show upper.length + (below.length + 1) = 4
        omega
      rw [leaders]
      exact List.perm_middle
    · intro row member
      rw [before_eq] at member
      exact clashes_eq_false.mpr ⟨stores_apart row (List.mem_append_right _ member),
        bids_apart row (List.mem_append_right _ member)⟩

end Order

/-! ## What exploration costs -/

/-- Exploration leaves the ranked rows alone and costs at most the last slot of a full pool, which goes to
a store on the bench that is low on data and has a share. -/
structure CostsTheLastSlot (rows : List (Row F)) (auctionId : Str)
    (shares : List Str → Except PyError (Dict Str (Extended F))) : Prop where
  ranked : (rankAuction (rankedRows rows auctionId) auctionId shares).ranked = rows
  slots : ((rankAuction (rankedRows rows auctionId) auctionId shares).shortlist.slots.map
    ShortlistSlot.slot).Nodup
  bids : ((rankAuction (rankedRows rows auctionId) auctionId shares).shortlist.shows.map Prod.fst).Nodup
  stores : ((rankAuction (rankedRows rows auctionId) auctionId shares).shortlist.shows.map Prod.snd).Nodup
  settled : (∃ row ∈ slotPool rows, isLowData row.trustSummary = true) ∨ bench rows = [] →
    (rankAuction (rankedRows rows auctionId) auctionId shares).shortlist = build rows auctionId
  cost : (rankAuction (rankedRows rows auctionId) auctionId shares).shortlist.shows
      = (build rows auctionId).shows ∨
    (slotPool rows).length = maxSlots ∧
      ∃ sampled, shares (contestants (slotPool rows) (bench rows)) = .ok sampled ∧
        ∃ newcomer ∈ bench rows, isLowData newcomer.trustSummary = true ∧ 0 < shareOf sampled newcomer ∧
          ∃ row ∈ rows, row.storeId = newcomer.storeId ∧
            (rankAuction (rankedRows rows auctionId) auctionId shares).shortlist.shows.Perm
              ((row.bidId, newcomer.storeId) :: (build rows auctionId).shows.dropLast)

/-- The first row that carries the bid id of the favoured challenger is of a store that is shown above
the displaced bid, or that could itself be explored. -/
def TellsTheChallenger (rows : List (Row F))
    (shares : List Str → Except PyError (Dict Str (Extended F))) : Prop :=
  (∀ row ∈ slotPool rows, isLowData row.trustSummary = false) →
    ∀ sampled, shares (contestants (slotPool rows) (bench rows)) = .ok sampled →
      ∀ newcomer, Favoured sampled (challengers (bench rows)) newcomer →
        ∀ displaced ∈ (slotPool rows).getLast?, ∀ promoted ∈ (rowsFrom rows newcomer.bidId).head?,
          promoted.storeId ∈ (bestBidPerStore (rowsAbove rows displaced.bidId)).map Row.storeId ∨
            ∃ row ∈ bench rows, row.storeId = promoted.storeId ∧ isLowData row.trustSummary = true ∧
              0 < shareOf sampled row

section Cost

variable {rows ahead rest : List (Row F)} {promoted displaced newcomer : Row F} {auctionId : Str}
  {shares : List Str → Except PyError (Dict Str (Extended F))} {sampled : Dict Str (Extended F)}

theorem shortlist_of_unplanned
    (unplanned : ∀ slice, planExploration (slotPool rows) (bench rows) shares ≠ .ok (some slice)) :
    (rankAuction (rankedRows rows auctionId) auctionId shares).shortlist = build rows auctionId := by
  have none_explored : explore (rankedRows rows auctionId) auctionId shares = none := by
    unfold explore
    split
    · rename_i slice planned
      exact absurd planned (unplanned slice)
    · rfl
  rw [rankAuction, none_explored]
  rfl

omit [Format F] in
theorem mem_bench_of_challengers (member : newcomer ∈ challengers (bench rows)) :
    newcomer ∈ bench rows ∧ isLowData newcomer.trustSummary = true :=
  List.mem_filter.mp (List.mem_of_mem_take member)

theorem shortlist_of_planned
    (planned : planExploration (slotPool rows) (bench rows) shares
      = .ok (some (sliceOf sampled newcomer displaced))) :
    (∃ shown, shown.shows = (slotPool (promotedOrder rows newcomer.bidId displaced.bidId)).map
          (fun row => (row.bidId, row.storeId)) ∧
        (∃ order id, shown = build order id) ∧
        newcomer.bidId ∈ shown.shows.map Prod.fst ∧
        (rankAuction (rankedRows rows auctionId) auctionId shares).shortlist = shown) ∨
      newcomer.bidId ∉ ((slotPool (promotedOrder rows newcomer.bidId displaced.bidId)).map Row.bidId) ∧
        (rankAuction (rankedRows rows auctionId) auctionId shares).shortlist = build rows auctionId := by
  let shown := build (promotedOrder rows newcomer.bidId displaced.bidId)
    (if auctionId.isEmpty then auctionId else auctionId)
  have shows_eq : shown.shows = _ := shows_build _ _
  have explored : explore (rankedRows rows auctionId) auctionId shares
      = (shown.slots.find? fun slot => slot.bidRef = newcomer.bidId).map fun slot =>
        ⟨shown, (sliceOf sampled newcomer displaced).asPayload slot.slot⟩ := by
    unfold explore
    rw [show planExploration (slotPool (rankedRows rows auctionId).ranked)
      (bench (rankedRows rows auctionId).ranked) shares = _ from planned]
    rfl
  have refs : shown.shows.map Prod.fst = shown.slots.map ShortlistSlot.bidRef := by
    rw [Shortlist.shows, List.map_map]
    rfl
  cases held : shown.slots.find? fun slot => slot.bidRef = newcomer.bidId with
  | none =>
      refine .inr ⟨?_, by rw [rankAuction, explored, held]; rfl⟩
      intro member
      have same : (slotPool (promotedOrder rows newcomer.bidId displaced.bidId)).map Row.bidId
          = shown.slots.map ShortlistSlot.bidRef := by
        rw [← refs, shows_eq, List.map_map]
        rfl
      rw [same] at member
      obtain ⟨slot, there, here⟩ := List.mem_map.mp member
      exact absurd (decide_eq_true here) (List.find?_eq_none.mp held slot there)
  | some slot =>
      refine .inl ⟨shown, shows_eq, ⟨_, _, rfl⟩, ?_, by rw [rankAuction, explored, held]; rfl⟩
      rw [refs]
      exact List.mem_map.mpr ⟨slot, List.mem_of_find?_eq_some held, by simpa using List.find?_some held⟩

omit [Format F] in
theorem not_shown_of_bench (benched : newcomer ∈ bench rows) :
    newcomer.bidId ∉ (slotPool rows).map Row.bidId := by
  have bids := nodup_bids rows
  rw [← slotPool_append_bench, List.map_append, List.nodup_append] at bids
  exact fun member => bids.2.2 _ member _ (List.mem_map_of_mem benched) rfl

theorem distinct_shortlist :
    ((rankAuction (rankedRows rows auctionId) auctionId shares).shortlist.slots.map
        ShortlistSlot.slot).Nodup ∧
      ((rankAuction (rankedRows rows auctionId) auctionId shares).shortlist.shows.map Prod.fst).Nodup ∧
      ((rankAuction (rankedRows rows auctionId) auctionId shares).shortlist.shows.map Prod.snd).Nodup := by
  by_cases planned : ∃ slice, planExploration (slotPool rows) (bench rows) shares = .ok (some slice)
  · obtain ⟨slice, planned⟩ := planned
    obtain ⟨displaced, -, -, sampled, -, newcomer, -, rfl⟩ := planExploration_eq_some.mp planned
    rcases shortlist_of_planned planned with ⟨shown, -, ⟨order, id, rfl⟩, -, shortlist⟩ | ⟨-, shortlist⟩
    · rw [shortlist]
      exact nodup_build order id
    · rw [shortlist]
      exact nodup_build rows auctionId
  · rw [shortlist_of_unplanned fun slice h => planned ⟨slice, h⟩]
    exact nodup_build rows auctionId

theorem shortlist_of_settled
    (settled : (∃ row ∈ slotPool rows, isLowData row.trustSummary = true) ∨ bench rows = []) :
    (rankAuction (rankedRows rows auctionId) auctionId shares).shortlist = build rows auctionId := by
  apply shortlist_of_unplanned
  intro slice planned
  obtain ⟨displaced, -, low, sampled, -, newcomer, favoured, -⟩ := planExploration_eq_some.mp planned
  rcases settled with ⟨row, member, marked⟩ | none_left
  · rw [low row member] at marked
    cases marked
  · have member := (mem_bench_of_challengers favoured.mem).1
    rw [none_left] at member
    cases member

theorem cost_of_tells (tells : TellsTheChallenger rows shares) :
    (rankAuction (rankedRows rows auctionId) auctionId shares).shortlist.shows
        = (build rows auctionId).shows ∨
      (slotPool rows).length = maxSlots ∧
        ∃ sampled, shares (contestants (slotPool rows) (bench rows)) = .ok sampled ∧
          ∃ newcomer ∈ bench rows, isLowData newcomer.trustSummary = true ∧ 0 < shareOf sampled newcomer ∧
            ∃ row ∈ rows, row.storeId = newcomer.storeId ∧
              (rankAuction (rankedRows rows auctionId) auctionId shares).shortlist.shows.Perm
                ((row.bidId, newcomer.storeId) :: (build rows auctionId).shows.dropLast) := by
  by_cases planned : ∃ slice, planExploration (slotPool rows) (bench rows) shares = .ok (some slice)
  · obtain ⟨slice, planned⟩ := planned
    obtain ⟨displaced, last, low, sampled, sampled_eq, newcomer, favoured, rfl⟩ :=
      planExploration_eq_some.mp planned
    rcases shortlist_of_planned planned with ⟨shown, shows_eq, -, -, shortlist⟩ | ⟨-, shortlist⟩
    · rw [shortlist, shows_eq, shows_build]
      obtain ⟨ahead, pool⟩ := List.getLast?_eq_some_iff.mp last
      have benched := (mem_bench_of_challengers favoured.mem).1
      obtain ⟨promoted, rest, found⟩ := exists_promoted benched
      obtain ⟨kept, -, replaced⟩ := slotPool_promotedOrder pool benched found
      have standing := tells low sampled sampled_eq newcomer favoured displaced last promoted (by
        rw [found]
        exact rfl)
      rcases standing with above | ⟨row, row_benched, same, marked, positive⟩
      · exact .inl (congrArg (List.map _) (kept above))
      · right
        have stores := nodup_stores rows
        rw [← slotPool_append_bench, List.map_append, List.nodup_append] at stores
        have fresh : promoted.storeId ∉ (slotPool rows).map Row.storeId := fun member =>
          stores.2.2 _ member _ (List.mem_map_of_mem row_benched) same.symm
        refine ⟨length_slotPool_of_bench benched, sampled, sampled_eq, row, row_benched, marked, positive,
          promoted, ?_, same.symm, ?_⟩
        · rw [← rowsAbove_append_rowsFrom rows newcomer.bidId, found]
          exact List.mem_append_right _ List.mem_cons_self
        · rw [pool, List.map_append, List.map_singleton, List.dropLast_concat, same]
          exact (replaced fresh).map fun row => (row.bidId, row.storeId)
    · exact .inl (congrArg Shortlist.shows shortlist)
  · exact .inl (congrArg Shortlist.shows (shortlist_of_unplanned fun slice h => planned ⟨slice, h⟩))

theorem tells_of_cost (costs : CostsTheLastSlot rows auctionId shares) :
    TellsTheChallenger rows shares := by
  intro low sampled sampled_eq newcomer favoured displaced last promoted found
  by_cases above : promoted.storeId ∈ (bestBidPerStore (rowsAbove rows displaced.bidId)).map Row.storeId
  · exact .inl above
  right
  have planned := planExploration_eq_some.mpr
    ⟨displaced, last, low, sampled, sampled_eq, newcomer, favoured, rfl⟩
  obtain ⟨ahead, pool⟩ := List.getLast?_eq_some_iff.mp last
  have benched := (mem_bench_of_challengers favoured.mem).1
  obtain ⟨head, rest, from_eq⟩ := exists_promoted benched
  rw [from_eq] at found
  obtain rfl : head = promoted := Option.some.inj found
  have shown_there := (slotPool_promotedOrder pool benched from_eq).2.1 above
  have carries := bidId_of_rowsFrom from_eq
  rcases shortlist_of_planned planned with ⟨shown, shows_eq, -, -, shortlist⟩ | ⟨absent, -⟩
  · have pair : (head.bidId, head.storeId) ∈
        (rankAuction (rankedRows rows auctionId) auctionId shares).shortlist.shows := by
      rw [shortlist, shows_eq]
      exact List.mem_map_of_mem shown_there
    have hidden : (head.bidId, head.storeId) ∉ (build rows auctionId).shows := by
      intro member
      rw [shows_build] at member
      obtain ⟨row, there, same⟩ := List.mem_map.mp member
      obtain ⟨bid, -⟩ := Prod.ext_iff.mp same
      exact not_shown_of_bench benched (List.mem_map.mpr ⟨row, there, bid.trans carries⟩)
    rcases costs.cost with same |
      ⟨-, sampled', sampled_eq', row, row_benched, marked, positive, bid, -, -, moved⟩
    · rw [same] at pair
      exact absurd pair hidden
    · obtain rfl := Except.ok.inj (sampled_eq.symm.trans sampled_eq')
      rcases List.mem_cons.mp (moved.subset pair) with named | left
      · exact ⟨row, row_benched, (Prod.ext_iff.mp named).2.symm, marked, positive⟩
      · exact absurd (List.mem_of_mem_dropLast left) hidden
  · exact absurd (List.mem_map.mpr ⟨head, shown_there, carries⟩) absent

/-- Exploration costs at most the last slot exactly when the challenger's bid id tells its row. -/
theorem costs_last_slot_iff (rows : List (Row F)) (auctionId : Str)
    (shares : List Str → Except PyError (Dict Str (Extended F))) :
    CostsTheLastSlot rows auctionId shares ↔ TellsTheChallenger rows shares := by
  constructor
  · exact tells_of_cost
  · intro tells
    exact
      { ranked := rfl
        slots := distinct_shortlist.1
        bids := distinct_shortlist.2.1
        stores := distinct_shortlist.2.2
        settled := shortlist_of_settled
        cost := cost_of_tells tells }

end Cost

/-! ## A bid id that two rows carry -/

def bareRow (storeId bidId : Str) (lowData : Bool) (named : bidId ≠ []) : Row ℚ where
  bidId := bidId
  storeId := storeId
  rankScore := .finite 0
  features := []
  trustSummary :=
    { storeId
      available := true
      score := none
      confidence := none
      lowData := some lowData
      dimensions := none }
  provenanceLabels := []
  named := named
  summarised := rfl

/-- Four stores fill the pool, the last of them bids a second time under the newcomer's bid id. -/
def sharedBid : List (Row ℚ) :=
  [bareRow (str "s1") (str "b1") false (by decide), bareRow (str "s2") (str "b2") false (by decide),
    bareRow (str "s3") (str "b3") false (by decide), bareRow (str "s4") (str "b4") false (by decide),
    bareRow (str "s4") (str "b5") false (by decide), bareRow (str "s5") (str "b5") true (by decide)]

/-- The second bid of the store that is displaced takes its slot. -/
theorem second_bid_shown :
    ¬ CostsTheLastSlot sharedBid (str "a") fun _ => .ok [(str "s5", .finite 1)] := by
  intro costs
  have tells := tells_of_cost costs (by decide) _ rfl
    (bareRow (str "s5") (str "b5") true (by decide))
    (favoured_iff.mpr ⟨0, by rfl, by decide⟩)
    (bareRow (str "s4") (str "b4") false (by decide)) (by rfl)
    (bareRow (str "s4") (str "b5") false (by decide)) (by rfl)
  rcases tells with above | ⟨row, benched, same, -⟩
  · exact absurd above (by decide)
  · have bench_eq : bench sharedBid = [bareRow (str "s5") (str "b5") true (by decide)] := by rfl
    rw [bench_eq, List.mem_singleton] at benched
    rw [benched] at same
    exact absurd same (by decide)

end Proxyshop.Ranking
