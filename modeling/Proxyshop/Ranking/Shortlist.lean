import Mathlib.Data.List.MinMax
import Mathlib.Data.List.ReduceOption
import Mathlib.Data.Prod.Lex
import Proxyshop.Ranking.TrustRow
import Proxyshop.Structures.FirstFit

/-!
# The shortlist

One bid for each store, four at most, each under the name of what it leads on.
-/

namespace Proxyshop.Ranking

open Python Numbers Contracts Structures

inductive SlotName
  | fit
  | value
  | reliability
  | specialist
  deriving DecidableEq

def slotNames : List SlotName := [.fit, .value, .reliability, .specialist]

/-- `SLOT_DIMENSIONS`. -/
def SlotName.dimension : SlotName → Str
  | .fit => str "intent_match"
  | .value => str "price_value"
  | .reliability => str "trust"
  | .specialist => str "verified_claim_ratio"

def maxSlots : Nat := 4

/-- What the shortlist reads of an eligible row. The features are finite, and an eligible row names its
bid. -/
structure Row (F : Type) where
  bidId : Str
  storeId : Str
  rankScore : Extended F
  features : Dict Str F
  trustSummary : TrustSummary F
  provenanceLabels : List Str
  named : bidId ≠ []
  summarised : trustSummary.storeId = storeId

structure ShortlistSlot (F : Type) where
  slot : SlotName
  bidRef : Str
  fitScore : Extended F
  trustSummary : TrustSummary F
  provenanceLabels : List Str

structure Shortlist (F : Type) where
  auctionId : Str
  slots : List (ShortlistSlot F)

variable {F : Type}

/-! ## One bid for each store -/

def poolRow (state : List Str × List Str × List (Row F)) (row : Row F) :
    List Str × List Str × List (Row F) :=
  let (seenStores, seenBids, pool) := state
  if row.storeId ∈ seenStores ∨ row.bidId ∈ seenBids then state
  else (row.storeId :: seenStores, row.bidId :: seenBids, pool ++ [row])

/-- `_best_bid_per_store`. -/
def bestBidPerStore (ranked : List (Row F)) : List (Row F) := (ranked.foldl poolRow ([], [], [])).2.2

/-- `slot_pool`. -/
def slotPool (ranked : List (Row F)) : List (Row F) :=
  (bestBidPerStore ranked).take (min maxSlots slotNames.length)

/-- `bench`. -/
def bench (ranked : List (Row F)) : List (Row F) :=
  (bestBidPerStore ranked).drop (min maxSlots slotNames.length)

def Row.clashes (row row' : Row F) : Bool := row'.storeId = row.storeId || row'.bidId = row.bidId

theorem foldl_poolRow (ranked kept pool : List (Row F)) :
    (ranked.foldl poolRow (kept.map Row.storeId, kept.map Row.bidId, pool)).2.2
      = pool ++ firstFit Row.clashes kept ranked := by
  induction ranked generalizing kept pool with
  | nil => exact (List.append_nil _).symm
  | cons row ranked ih =>
      have seen : (row.storeId ∈ kept.map Row.storeId ∨ row.bidId ∈ kept.map Row.bidId) ↔
          kept.any (Row.clashes · row) = true := by
        simp only [List.mem_map, List.any_eq_true, Row.clashes, Bool.or_eq_true, decide_eq_true_iff]
        constructor
        · rintro (⟨other, member, same⟩ | ⟨other, member, same⟩)
          · exact ⟨other, member, .inl same.symm⟩
          · exact ⟨other, member, .inr same.symm⟩
        · rintro ⟨other, member, same | same⟩
          · exact .inl ⟨other, member, same.symm⟩
          · exact .inr ⟨other, member, same.symm⟩
      rw [List.foldl_cons, poolRow]
      by_cases taken : kept.any (Row.clashes · row) = true
      · rw [if_pos (seen.mpr taken), firstFit_cons_of_taken taken]
        exact ih kept pool
      · rw [if_neg (taken ∘ seen.mp), firstFit_cons_of_free (Bool.not_eq_true _ ▸ taken)]
        exact (ih (row :: kept) (pool ++ [row])).trans (List.append_assoc ..)

theorem bestBidPerStore_eq (ranked : List (Row F)) :
    bestBidPerStore ranked = firstFit Row.clashes [] ranked :=
  foldl_poolRow ranked [] []

theorem clashes_eq_false {row row' : Row F} : row.clashes row' = false ↔
    row'.storeId ≠ row.storeId ∧ row'.bidId ≠ row.bidId := by
  simp [Row.clashes]

theorem nodup_stores (ranked : List (Row F)) :
    ((bestBidPerStore ranked).map Row.storeId).Nodup := by
  rw [bestBidPerStore_eq, List.Nodup, List.pairwise_map]
  exact firstFit_pairwise.1.imp fun apart => (clashes_eq_false.mp apart).1.symm

theorem nodup_bids (ranked : List (Row F)) : ((bestBidPerStore ranked).map Row.bidId).Nodup := by
  rw [bestBidPerStore_eq, List.Nodup, List.pairwise_map]
  exact firstFit_pairwise.1.imp fun apart => (clashes_eq_false.mp apart).2.symm

/-! ## Slot names -/

variable [Format F]

def leadOn (name : SlotName) (row : Row F) : ℚ :=
  ((Dict.get? row.features name.dimension).map Format.value).getD 0

/-- The key by which the winner of a name is chosen among the positions of a pool. -/
def leadKey (pool : List (Row F)) (name : SlotName) (index : Nat) : ℚ ×ₗ ℚ :=
  toLex ((pool[index]?.map (leadOn name)).getD 0, -(index : ℚ))

/-- The names are handed out in their order, each to a position that remains. -/
def handOut (pool : List (Row F)) :
    List SlotName → List Nat → List (Option SlotName) → List (Option SlotName)
  | [], _, names => names
  | name :: rest, remaining, names =>
      match remaining.argmax (leadKey pool name) with
      | none => names
      | some winner => handOut pool rest (remaining.erase winner) (names.set winner (some name))

/-- `assign_slot_names`. -/
def assignSlotNames (pool : List (Row F)) : List (Option SlotName) :=
  handOut pool slotNames (List.range pool.length) (List.replicate pool.length none)

omit [Format F] in
def slotOf (row : Row F) (slot : SlotName) : ShortlistSlot F where
  slot := slot
  bidRef := row.bidId
  fitScore := row.rankScore
  trustSummary := row.trustSummary
  provenanceLabels := row.provenanceLabels

/-- `build`. -/
def build (ranked : List (Row F)) (auctionId : Str) : Shortlist F where
  auctionId := auctionId
  slots := ((slotPool ranked).zip (assignSlotNames (slotPool ranked))).filterMap fun (row, name) =>
    name.map (slotOf row)

theorem handOut_names (pool : List (Row F)) {rest : List SlotName} {remaining : List Nat}
    {names : List (Option SlotName)} (positions : remaining.Nodup)
    (unnamed : ∀ index ∈ remaining, names[index]? = some none)
    (count : names.count none = remaining.length) (enough : remaining.length ≤ rest.length)
    (apart : (rest ++ names.reduceOption).Nodup) :
    (handOut pool rest remaining names).length = names.length ∧
      none ∉ handOut pool rest remaining names ∧
      (handOut pool rest remaining names).reduceOption.Nodup := by
  induction rest generalizing remaining names with
  | nil =>
      rw [List.length_nil, Nat.le_zero] at enough
      rw [enough, List.count_eq_zero] at count
      exact ⟨rfl, count, apart⟩
  | cons name rest ih =>
      rw [handOut]
      cases chosen : remaining.argmax (leadKey pool name) with
      | none =>
          rw [List.argmax_eq_none.mp chosen, List.length_nil, List.count_eq_zero] at count
          exact ⟨rfl, count, (List.nodup_append.mp apart).2.1⟩
      | some winner =>
          have member : winner ∈ remaining := List.argmax_mem (Option.mem_def.mpr chosen)
          obtain ⟨inside, here⟩ := List.getElem?_eq_some_iff.mp (unnamed winner member)
          have split : names = names.take winner ++ none :: names.drop (winner + 1) := by
            conv_lhs => rw [← List.take_append_drop winner names, List.drop_eq_getElem_cons inside, here]
          have set_eq : names.set winner (some name)
              = names.take winner ++ some name :: names.drop (winner + 1) :=
            List.set_eq_take_cons_drop _ inside
          have length_eq := List.length_erase_of_mem member
          have some_left : 0 < remaining.length := List.length_pos_of_mem member
          have step := @ih (remaining.erase winner) (names.set winner (some name))
            (positions.erase winner) ?_ ?_ ?_ ?_
          · rw [List.length_set] at step
            exact step
          · intro index left
            have other : winner ≠ index := by
              rintro rfl
              exact positions.not_mem_erase left
            rw [List.getElem?_set_ne other]
            exact unnamed index (List.mem_of_mem_erase left)
          · rw [length_eq, ← count, set_eq]
            conv_rhs => rw [split]
            simp [List.count_append]
          · rw [List.length_cons] at enough
            omega
          · have moved : (rest ++ (names.set winner (some name)).reduceOption).Perm
                (name :: rest ++ names.reduceOption) := by
              rw [set_eq]
              conv_rhs => rw [split]
              simp only [List.reduceOption_append, List.reduceOption_cons_of_some,
                List.reduceOption_cons_of_none, ← List.append_assoc]
              exact List.perm_middle
            exact moved.nodup_iff.mpr apart

theorem assignSlotNames_names {pool : List (Row F)} (few : pool.length ≤ slotNames.length) :
    (assignSlotNames pool).length = pool.length ∧ none ∉ assignSlotNames pool ∧
      (assignSlotNames pool).reduceOption.Nodup := by
  have start := @handOut_names F _ pool slotNames (List.range pool.length)
    (List.replicate pool.length none) List.nodup_range ?_ ?_ ?_ ?_
  · rw [List.length_replicate] at start
    exact start
  · intro index inside
    rw [List.getElem?_replicate, if_pos (List.mem_range.mp inside)]
  · rw [List.count_replicate_self, List.length_range]
  · rw [List.length_range]
    exact few
  · rw [List.reduceOption_replicate_none, List.append_nil]
    decide

/-! ## What a shortlist shows -/

omit [Format F] in
theorem filterMap_slotOf {pool : List (Row F)} {names : List (Option SlotName)}
    (lengths : names.length = pool.length) (all : none ∉ names) :
    (((pool.zip names).filterMap fun (row, name) => name.map (slotOf row)).map fun slot =>
        (slot.bidRef, slot.trustSummary.storeId)) = pool.map (fun row => (row.bidId, row.storeId)) ∧
      (((pool.zip names).filterMap fun (row, name) => name.map (slotOf row)).map
        ShortlistSlot.slot) = names.reduceOption := by
  induction pool generalizing names with
  | nil =>
      rw [List.length_eq_zero_iff.mp lengths]
      exact ⟨rfl, rfl⟩
  | cons row pool ih =>
      cases names with
      | nil => cases lengths
      | cons name names =>
          rw [List.mem_cons, not_or] at all
          obtain ⟨bids, slots⟩ := ih (Nat.succ.inj lengths) all.2
          cases name with
          | none => exact absurd rfl all.1
          | some name =>
              constructor
              · simp [slotOf, row.summarised, bids]
              · simp [slotOf, slots, List.reduceOption_cons_of_some]

def Shortlist.shows (shortlist : Shortlist F) : List (Str × Str) :=
  shortlist.slots.map fun slot => (slot.bidRef, slot.trustSummary.storeId)

omit [Format F] in
theorem length_slotPool_le (ranked : List (Row F)) : (slotPool ranked).length ≤ slotNames.length := by
  rw [slotPool, List.length_take]
  exact (Nat.min_le_left _ _).trans (Nat.min_le_right _ _)

theorem shows_build (ranked : List (Row F)) (auctionId : Str) :
    (build ranked auctionId).shows = (slotPool ranked).map fun row => (row.bidId, row.storeId) := by
  obtain ⟨lengths, all, -⟩ := assignSlotNames_names (length_slotPool_le ranked)
  exact (filterMap_slotOf lengths all).1

theorem nodup_build (ranked : List (Row F)) (auctionId : Str) :
    ((build ranked auctionId).slots.map ShortlistSlot.slot).Nodup ∧
      ((build ranked auctionId).shows.map Prod.fst).Nodup ∧
      ((build ranked auctionId).shows.map Prod.snd).Nodup := by
  obtain ⟨lengths, all, distinct⟩ := assignSlotNames_names (length_slotPool_le ranked)
  refine ⟨(filterMap_slotOf lengths all).2 ▸ distinct, ?_, ?_⟩
  · rw [shows_build, List.map_map]
    exact (nodup_bids ranked).sublist ((List.take_sublist _ _).map _)
  · rw [shows_build, List.map_map]
    exact (nodup_stores ranked).sublist ((List.take_sublist _ _).map _)

end Proxyshop.Ranking
