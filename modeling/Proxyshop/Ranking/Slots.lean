import Proxyshop.Ranking.Explored

/-!
# How many slots a caller asks for

A caller may ask for fewer slots than there are names. A number below zero is read as Python reads the
end of a slice, so it counts from the end of the pool.
-/

namespace Proxyshop.Ranking

open Python Numbers Contracts Structures

variable {F : Type}

/-- Where `l[:stop]` ends in a list of this length. -/
def sliceStop (length : Nat) (stop : Int) : Nat :=
  if 0 ≤ stop then stop.toNat else (length + stop).toNat

/-- The end of the slice that `slot_pool` takes. -/
def cap (maxSlots : Int) (ranked : List (Row F)) : Nat :=
  sliceStop (bestBidPerStore ranked).length (min maxSlots slotNames.length)

/-- `slot_pool` of a number of slots. -/
def slotPoolOf (maxSlots : Int) (ranked : List (Row F)) : List (Row F) :=
  (bestBidPerStore ranked).take (cap maxSlots ranked)

/-- `bench` of a number of slots. -/
def benchOf (maxSlots : Int) (ranked : List (Row F)) : List (Row F) :=
  (bestBidPerStore ranked).drop (cap maxSlots ranked)

/-- `build` of a number of slots. -/
def buildOf [Format F] (maxSlots : Int) (ranked : List (Row F)) (auctionId : Str) : Shortlist F where
  auctionId := auctionId
  slots := ((slotPoolOf maxSlots ranked).zip (assignSlotNames (slotPoolOf maxSlots ranked))).filterMap
    fun (row, name) => name.map (slotOf row)

theorem buildOf_maxSlots [Format F] (ranked : List (Row F)) (auctionId : Str) :
    buildOf maxSlots ranked auctionId = build ranked auctionId := rfl

theorem slotPoolOf_append_benchOf (maxSlots : Int) (ranked : List (Row F)) :
    slotPoolOf maxSlots ranked ++ benchOf maxSlots ranked = firstFit Row.clashes [] ranked := by
  rw [← bestBidPerStore_eq]
  exact List.take_append_drop ..

theorem length_slotPoolOf {maxSlots : Int} (asked : 0 ≤ maxSlots) (ranked : List (Row F)) :
    ((slotPoolOf maxSlots ranked).length : Int) ≤ min maxSlots slotNames.length := by
  have whole : 0 ≤ min maxSlots (slotNames.length : Int) := le_min asked (Int.natCast_nonneg _)
  have stop : cap maxSlots ranked = (min maxSlots (slotNames.length : Int)).toNat := if_pos whole
  have shorter : (slotPoolOf maxSlots ranked).length ≤ cap maxSlots ranked :=
    List.length_take_le ..
  rw [stop] at shorter
  exact (Int.ofNat_le.mpr shorter).trans (Int.toNat_of_nonneg whole).le

theorem slotPoolOf_sublist (maxSlots : Int) (ranked : List (Row F)) :
    (slotPoolOf maxSlots ranked).Sublist ranked := by
  have sublist : (bestBidPerStore ranked).Sublist ranked := bestBidPerStore_eq ranked ▸ firstFit_sublist
  exact (List.take_sublist ..).trans sublist

theorem slotPoolOf_disjoint_benchOf (maxSlots : Int) (ranked : List (Row F)) :
    (slotPoolOf maxSlots ranked).Disjoint (benchOf maxSlots ranked) := by
  apply List.disjoint_take_drop _ le_rfl
  exact (nodup_bids ranked).of_map

/-! ## Every store by its best row -/

theorem firstFit_find {ranked kept : List (Row F)} (apart : ((kept ++ ranked).map Row.bidId).Nodup)
    {store : Str} (new : ∀ row ∈ kept, row.storeId ≠ store) {best : Row F}
    (first : ranked.find? (fun row => row.storeId = store) = some best) :
    best ∈ firstFit Row.clashes kept ranked := by
  induction ranked generalizing kept with
  | nil => exact nomatch first
  | cons row ranked ih =>
      have moved : ((row :: kept ++ ranked).map Row.bidId).Nodup :=
        ((List.perm_middle.symm.map Row.bidId).nodup_iff).mpr apart
      rw [List.find?_cons] at first
      by_cases here : row.storeId = store
      · rw [decide_eq_true here] at first
        obtain rfl := Option.some.inj first
        have free : kept.any (Row.clashes · row) = false := by
          rw [List.any_eq_false]
          intro other member
          rw [Bool.not_eq_true, clashes_eq_false]
          constructor
          · exact fun same => new other member (same ▸ here)
          · intro same
            have fresh : row.bidId ∉ (kept ++ ranked).map Row.bidId := (List.nodup_cons.mp moved).1
            exact fresh (same ▸ List.mem_map_of_mem (List.mem_append_left _ member))
        rw [firstFit_cons_of_free free]
        exact List.mem_cons_self
      · rw [decide_eq_false here] at first
        rw [firstFit]
        split
        · apply ih _ new first
          exact (List.nodup_cons.mp moved).2
        · apply List.mem_cons_of_mem
          apply ih moved _ first
          rw [List.forall_mem_cons]
          exact ⟨here, new⟩

theorem eq_of_storeId {ranked : List (Row F)} {row row' : Row F} (member : row ∈ bestBidPerStore ranked)
    (member' : row' ∈ bestBidPerStore ranked) (same : row.storeId = row'.storeId) : row = row' :=
  List.inj_on_of_nodup_map (nodup_stores ranked) member member' same

/-! ## Who leads -/

variable [Format F]

def SlotName.earlier (name : SlotName) : List SlotName := slotNames.takeWhile (· ≠ name)

theorem earlier_eq {name : SlotName} {before after : List SlotName}
    (split : slotNames = before ++ name :: after) : name.earlier = before := by
  have distinct : (before ++ name :: after).Nodup := split ▸ (by decide)
  rw [SlotName.earlier, split, List.takeWhile_append_of_pos, List.takeWhile_cons_of_neg,
    List.append_nil]
  · simp
  · intro other member
    rw [decide_eq_true_iff]
    rintro rfl
    exact (List.nodup_append.mp distinct).2.2 other member other List.mem_cons_self rfl

theorem handOut_keeps {pool : List (Row F)} {rest : List SlotName} {remaining : List Nat}
    {names : List (Option SlotName)} (positions : remaining.Nodup) {index : Nat} (gone : index ∉ remaining) :
    (handOut pool rest remaining names)[index]? = names[index]? := by
  induction rest generalizing remaining names with
  | nil => rfl
  | cons name rest ih =>
      rw [handOut]
      cases chosen : remaining.argmax (leadKey pool name) with
      | none => rfl
      | some winner =>
          have member : winner ∈ remaining := List.argmax_mem (Option.mem_def.mpr chosen)
          have other : winner ≠ index := fun same => gone (same ▸ member)
          refine (ih (positions.erase winner) (gone ∘ List.mem_of_mem_erase)).trans ?_
          exact List.getElem?_set_ne other

theorem handOut_leads {pool : List (Row F)} {rest : List SlotName} {remaining : List Nat}
    {names : List (Option SlotName)} (positions : remaining.Nodup)
    (inside : ∀ index ∈ remaining, index < names.length) {index : Nat} {name : SlotName}
    (named : (handOut pool rest remaining names)[index]? = some (some name)) :
    names[index]? = some (some name) ∨
      ∃ before after, rest = before ++ name :: after ∧ ∀ other ∈ remaining,
        (∀ earlier ∈ before, (handOut pool rest remaining names)[other]? ≠ some (some earlier)) →
        leadKey pool name other ≤ leadKey pool name index := by
  induction rest generalizing remaining names with
  | nil => exact Or.inl named
  | cons next rest ih =>
      rw [handOut] at named ⊢
      cases chosen : remaining.argmax (leadKey pool next) with
      | none =>
          rw [chosen] at named
          exact Or.inl named
      | some winner =>
          rw [chosen] at named
          dsimp only at named ⊢
          have member : winner ∈ remaining := List.argmax_mem (Option.mem_def.mpr chosen)
          have length : winner < names.length := inside winner member
          have taken : (handOut pool rest (remaining.erase winner)
              (names.set winner (some next)))[winner]? = some (some next) := by
            rw [handOut_keeps (positions.erase winner) positions.not_mem_erase]
            exact List.getElem?_set_self length
          have shorter : ∀ index ∈ remaining.erase winner,
              index < (names.set winner (some next)).length := by
            intro index left
            rw [List.length_set]
            exact inside index (List.mem_of_mem_erase left)
          obtain before | ⟨before, after, split, leads⟩ := ih (positions.erase winner) shorter named
          · by_cases here : winner = index
            · subst here
              rw [List.getElem?_set_self length] at before
              obtain rfl : next = name := Option.some.inj (Option.some.inj before)
              refine Or.inr ⟨[], rest, rfl, ?_⟩
              intro other left _
              exact List.le_of_mem_argmax left (Option.mem_def.mpr chosen)
            · rw [List.getElem?_set_ne here] at before
              exact Or.inl before
          · refine Or.inr ⟨next :: before, after, by rw [split, List.cons_append], ?_⟩
            intro other left unnamed
            rw [List.forall_mem_cons] at unnamed
            apply leads other _ unnamed.2
            rw [List.mem_erase_of_ne]
            · exact left
            · rintro rfl
              exact unnamed.1 taken

theorem assignSlotNames_leads {pool : List (Row F)} {index other : Nat} {name : SlotName}
    (named : (assignSlotNames pool)[index]? = some (some name)) (inside : other < pool.length)
    (unnamed : ∀ earlier ∈ name.earlier, (assignSlotNames pool)[other]? ≠ some (some earlier)) :
    leadKey pool name other ≤ leadKey pool name index := by
  have start := @handOut_leads F _ pool slotNames (List.range pool.length)
    (List.replicate pool.length none) List.nodup_range ?_ index name named
  · obtain blank | ⟨before, after, split, leads⟩ := start
    · rw [List.getElem?_replicate] at blank
      split at blank <;> cases blank
    · apply leads other (List.mem_range.mpr inside)
      rw [← earlier_eq split]
      exact unnamed
  · intro position left
    rw [List.length_replicate]
    exact List.mem_range.mp left

theorem leadOn_le_of_leadKey {pool : List (Row F)} {name : SlotName} {index other : Nat} {row row' : Row F}
    (here : pool[index]? = some row) (there : pool[other]? = some row')
    (below : leadKey pool name other ≤ leadKey pool name index) : leadOn name row' ≤ leadOn name row := by
  rw [leadKey, leadKey, here, there, Prod.Lex.toLex_le_toLex] at below
  obtain less | ⟨same, -⟩ := below
  · exact less.le
  · exact same.le

/-! ## The shortlist of a number of slots -/

/-- A choice in the order of the ranking without a repetition. -/
structure Chosen (maxSlots : Int) (ranked : List (Row F)) (shortlist : Shortlist F) : Prop where
  few : (shortlist.slots.length : Int) ≤ min maxSlots slotNames.length
  filled : shortlist.shows = (slotPoolOf maxSlots ranked).map fun row => (row.bidId, row.storeId)
  ordered : (slotPoolOf maxSlots ranked).Sublist ranked
  names : (shortlist.slots.map ShortlistSlot.slot).Nodup
  bids : (shortlist.shows.map Prod.fst).Nodup
  stores : (shortlist.shows.map Prod.snd).Nodup
  complement : slotPoolOf maxSlots ranked ++ benchOf maxSlots ranked = firstFit Row.clashes [] ranked
  apart : (slotPoolOf maxSlots ranked).Disjoint (benchOf maxSlots ranked)
  represented : (ranked.map Row.bidId).Nodup → ∀ store ∈ ranked.map Row.storeId, ∃ best,
    ranked.find? (fun row => row.storeId = store) = some best ∧
      Xor (best ∈ slotPoolOf maxSlots ranked) (best ∈ benchOf maxSlots ranked) ∧
      ∀ row ∈ slotPoolOf maxSlots ranked ++ benchOf maxSlots ranked, row.storeId = store → row = best
  leads : ∀ row slot, (row, slot) ∈ (slotPoolOf maxSlots ranked).zip shortlist.slots →
    ∀ row' slot', (row', slot') ∈ (slotPoolOf maxSlots ranked).zip shortlist.slots →
      slot'.slot ∉ slot.slot.earlier → leadOn slot.slot row' ≤ leadOn slot.slot row

omit [Format F] in
theorem map_some_reduceOption {names : List (Option SlotName)} (all : none ∉ names) :
    names.reduceOption.map some = names := by
  induction names with
  | nil => rfl
  | cons name names ih =>
      rw [List.mem_cons, not_or] at all
      cases name with
      | none => exact absurd rfl all.1
      | some name => rw [List.reduceOption_cons_of_some, List.map_cons, ih all.2]

theorem getElem?_assignSlotNames {maxSlots : Int} (asked : 0 ≤ maxSlots) {ranked : List (Row F)}
    {auctionId : Str} {index : Nat} {slot : ShortlistSlot F}
    (here : (buildOf maxSlots ranked auctionId).slots[index]? = some slot) :
    (assignSlotNames (slotPoolOf maxSlots ranked))[index]? = some (some slot.slot) := by
  have few := (length_slotPoolOf asked ranked).trans (min_le_right _ _)
  obtain ⟨lengths, all, -⟩ := assignSlotNames_names (Int.ofNat_le.mp few)
  rw [← map_some_reduceOption all, ← (filterMap_slotOf lengths all).2, List.getElem?_map,
    List.getElem?_map]
  exact congrArg (fun found => (found.map ShortlistSlot.slot).map some) here

theorem chosen_buildOf {maxSlots : Int} (asked : 0 ≤ maxSlots) (ranked : List (Row F)) (auctionId : Str) :
    Chosen maxSlots ranked (buildOf maxSlots ranked auctionId) := by
  have few := length_slotPoolOf asked ranked
  obtain ⟨lengths, all, distinct⟩ :=
    assignSlotNames_names (Int.ofNat_le.mp (few.trans (min_le_right _ _)))
  obtain ⟨filled, named⟩ := filterMap_slotOf lengths all
  have kept : (slotPoolOf maxSlots ranked).Sublist (bestBidPerStore ranked) := List.take_sublist ..
  have shown : (buildOf maxSlots ranked auctionId).shows
      = (slotPoolOf maxSlots ranked).map fun row => (row.bidId, row.storeId) := filled
  refine ⟨?_, shown, slotPoolOf_sublist .., named ▸ distinct, ?_, ?_, slotPoolOf_append_benchOf ..,
    slotPoolOf_disjoint_benchOf .., ?_, ?_⟩
  · have same := congrArg List.length shown
    rw [Shortlist.shows, List.length_map, List.length_map] at same
    rw [same]
    exact few
  · rw [shown, List.map_map]
    exact (nodup_bids ranked).sublist (kept.map _)
  · rw [shown, List.map_map]
    exact (nodup_stores ranked).sublist (kept.map _)
  · intro apart store ranks
    obtain ⟨row, member, rfl⟩ := List.mem_map.mp ranks
    obtain ⟨best, first⟩ := Option.isSome_iff_exists.mp
      (List.find?_isSome.mpr ⟨row, member, decide_eq_true rfl⟩ :
        (ranked.find? fun row' => row'.storeId = row.storeId).isSome = true)
    have best_kept : best ∈ slotPoolOf maxSlots ranked ++ benchOf maxSlots ranked := by
      rw [slotPoolOf_append_benchOf]
      exact @firstFit_find F ranked [] apart row.storeId (List.forall_mem_nil _) best first
    have best_store : best.storeId = row.storeId := by
      simpa using List.find?_some first
    refine ⟨best, first, ?_, ?_⟩
    · have only := slotPoolOf_disjoint_benchOf maxSlots ranked
      obtain pool | bench := List.mem_append.mp best_kept
      · exact Or.inl ⟨pool, only pool⟩
      · exact Or.inr ⟨bench, fun pool => only pool bench⟩
    · intro other other_kept other_store
      rw [slotPoolOf_append_benchOf, ← bestBidPerStore_eq] at best_kept other_kept
      exact eq_of_storeId other_kept best_kept (other_store.trans best_store.symm)
  · intro row slot pair row' slot' pair' unnamed
    obtain ⟨index, here⟩ := List.mem_iff_getElem?.mp pair
    obtain ⟨other, there⟩ := List.mem_iff_getElem?.mp pair'
    rw [List.getElem?_zip_eq_some] at here there
    apply leadOn_le_of_leadKey here.1 there.1
    apply assignSlotNames_leads (getElem?_assignSlotNames asked here.2)
    · exact (List.getElem?_eq_some_iff.mp there.1).1
    · intro earlier before
      rw [getElem?_assignSlotNames asked there.2]
      intro same
      exact unnamed (Option.some.inj (Option.some.inj same) ▸ before)

theorem b1_named : str "b1" ≠ [] := by decide

theorem b2_named : str "b2" ≠ [] := by decide

theorem b3_named : str "b3" ≠ [] := by decide

theorem b4_named : str "b4" ≠ [] := by decide

theorem b5_named : str "b5" ≠ [] := by decide

theorem b6_named : str "b6" ≠ [] := by decide

def sixStores : List (Row ℚ) :=
  [bareRow (str "s1") (str "b1") false b1_named, bareRow (str "s2") (str "b2") false b2_named,
    bareRow (str "s3") (str "b3") false b3_named, bareRow (str "s4") (str "b4") false b4_named,
    bareRow (str "s5") (str "b5") false b5_named, bareRow (str "s6") (str "b6") false b6_named]

end Proxyshop.Ranking
