import Proxyshop.Er.Linking
import Mathlib.Data.Sym.Sym2

/-!
# Which pairs are compared

A block holds the positions of the records that have its key, in order.
-/

namespace Proxyshop.Er

open Python Numbers Verification Structures

def positions (keys : List (List Str)) (key : Str) : List Nat :=
  (keys.zipIdx.filter fun record => key ∈ record.1).map Prod.snd

def enter (index : Nat) (blocks : Dict Str (List Nat)) (key : Str) : Dict Str (List Nat) :=
  Dict.adjust blocks key [] fun members => members ++ [index]

theorem blocks_eq (keys : List (List Str)) :
    blocks keys = keys.zipIdx.foldl (fun blocks record => record.1.foldl (enter record.2) blocks) [] := rfl

theorem get?_enter (index : Nat) (blocks : Dict Str (List Nat)) (key other : Str) :
    Dict.get? (enter index blocks key) other =
      if other = key then some ((Dict.get? blocks key).getD [] ++ [index]) else Dict.get? blocks other :=
  Dict.get?_adjust _ _ _ _ _

theorem get?_enters {keys : List Str} (distinct : keys.Nodup) (index : Nat) (blocks : Dict Str (List Nat))
    (key : Str) : Dict.get? (keys.foldl (enter index) blocks) key =
      if key ∈ keys then some ((Dict.get? blocks key).getD [] ++ [index]) else Dict.get? blocks key := by
  induction keys generalizing blocks with
  | nil => rfl
  | cons first keys ih =>
      obtain ⟨fresh, rest⟩ := List.nodup_cons.mp distinct
      rw [List.foldl_cons, ih rest, get?_enter]
      by_cases same : key = first
      · subst same
        simp [fresh]
      · simp [same]

def extended (held : Option (List Nat)) (more : List Nat) : Option (List Nat) :=
  if more = [] then held else some (held.getD [] ++ more)

theorem get?_blocks {keys : List (List Str)} (distinct : ∀ ks ∈ keys, ks.Nodup) (key : Str) :
    Dict.get? (blocks keys) key = extended none (positions keys key) := by
  have walk : ∀ (records : List (List Str × Nat)) (d : Dict Str (List Nat)),
      (∀ record ∈ records, record.1.Nodup) →
      Dict.get? (records.foldl (fun blocks record => record.1.foldl (enter record.2) blocks) d) key =
        extended (Dict.get? d key) ((records.filter fun record => key ∈ record.1).map Prod.snd) := by
    intro records
    induction records with
    | nil => exact fun _ _ => rfl
    | cons record records ih =>
        intro d all
        obtain ⟨head, tail⟩ := List.forall_mem_cons.mp all
        rw [List.foldl_cons, ih _ tail, get?_enters head, List.filter_cons]
        by_cases inside : key ∈ record.1
        · simp only [inside, decide_true, if_true, List.map_cons]
          unfold extended
          split <;> simp [*]
        · simp [inside]
  rw [blocks_eq]
  exact walk _ _ fun record member => distinct _ (List.fst_mem_of_mem_zipIdx member)

theorem nodup_blocks (keys : List (List Str)) : (Dict.keys (blocks keys)).Nodup := by
  have inner (index : Nat) (ks : List Str) (d : Dict Str (List Nat)) (distinct : (Dict.keys d).Nodup) :
      (Dict.keys (ks.foldl (enter index) d)).Nodup := by
    induction ks generalizing d with
    | nil => exact distinct
    | cons key ks ih => exact ih _ (Dict.nodup_keys_set distinct _ _)
  have outer : ∀ (records : List (List Str × Nat)) (d : Dict Str (List Nat)), (Dict.keys d).Nodup →
      (Dict.keys (records.foldl (fun blocks record => record.1.foldl (enter record.2) blocks) d)).Nodup := by
    intro records
    induction records with
    | nil => exact fun _ distinct => distinct
    | cons record records ih => exact fun d distinct => ih _ (inner record.2 record.1 d distinct)
  exact outer _ _ List.nodup_nil

theorem mem_positions {keys : List (List Str)} {key : Str} {i : Nat} :
    i ∈ positions keys key ↔ ∃ ks, keys[i]? = some ks ∧ key ∈ ks := by
  unfold positions
  simp only [List.mem_map, List.mem_filter, List.mem_zipIdx_iff_getElem?, decide_eq_true_eq, Prod.exists,
    exists_eq_right]

theorem positions_ascending (keys : List (List Str)) (key : Str) : (positions keys key).Pairwise (· < ·) := by
  have all : (keys.zipIdx.map Prod.snd).Pairwise (· < ·) := by
    rw [List.zipIdx_map_snd]
    exact List.pairwise_lt_range'
  exact all.sublist (List.filter_sublist.map _)

theorem mem_expand {members : List Nat} (ascending : members.Pairwise (· < ·)) {i j : Nat} :
    (i, j) ∈ expand members ↔ i ∈ members ∧ j ∈ members ∧ i < j := by
  induction members with
  | nil => simp [expand]
  | cons first members ih =>
      obtain ⟨above, rest⟩ := List.pairwise_cons.mp ascending
      have paired : (members.map fun right => if first < right then (first, right) else (right, first)) =
          members.map fun right => (first, right) :=
        List.map_congr_left fun right inside => if_pos (above right inside)
      rw [expand, paired, List.mem_append, ih rest]
      simp only [List.mem_map, Prod.mk.injEq, List.mem_cons]
      constructor
      · rintro (⟨right, inside, rfl, rfl⟩ | ⟨left, right, below⟩)
        · exact ⟨Or.inl rfl, Or.inr inside, above right inside⟩
        · exact ⟨Or.inr left, Or.inr right, below⟩
      · rintro ⟨rfl | left, rfl | right, below⟩
        · exact absurd below (Nat.lt_irrefl _)
        · exact Or.inl ⟨j, right, rfl, rfl⟩
        · exact absurd (above i left) (Nat.lt_asymm below)
        · exact Or.inr ⟨left, right, below⟩

theorem mem_blocks {keys : List (List Str)} (distinct : ∀ ks ∈ keys, ks.Nodup) {key : Str}
    {members : List Nat} : (key, members) ∈ blocks keys ↔ positions keys key = members ∧ members ≠ [] := by
  constructor
  · intro inside
    have found := Dict.get?_of_mem (nodup_blocks keys) inside
    rw [get?_blocks distinct] at found
    unfold extended at found
    split at found
    · cases found
    · rename_i some
      cases found
      exact ⟨rfl, some⟩
  · rintro ⟨rfl, some⟩
    apply Dict.mem_of_get?
    rw [get?_blocks distinct, extended, if_neg some]
    rfl

theorem mem_pairs {keys : List (List Str)} (distinct : ∀ ks ∈ keys, ks.Nodup) {maxBlockSize : Int}
    {i j : Nat} : (i, j) ∈ (pairsOfBlocks maxBlockSize (blocks keys)).1 ↔
      i < j ∧ ∃ key, i ∈ positions keys key ∧ j ∈ positions keys key ∧
        ¬maxBlockSize < (positions keys key).length := by
  unfold pairsOfBlocks
  simp only [List.mem_insertionSort, List.mem_dedup, List.mem_flatMap, List.mem_filter, Bool.not_eq_true',
    decide_eq_false_iff_not, Prod.exists]
  constructor
  · rintro ⟨key, members, ⟨inside, small⟩, expanded⟩
    obtain ⟨rfl, -⟩ := (mem_blocks distinct).mp ((byKey_perm _).mem_iff.mp inside)
    obtain ⟨left, right, below⟩ := (mem_expand (positions_ascending keys key)).mp expanded
    exact ⟨below, key, left, right, small⟩
  · rintro ⟨below, key, left, right, small⟩
    exact ⟨key, _, ⟨(byKey_perm _).mem_iff.mpr ((mem_blocks distinct).mpr
      ⟨rfl, List.ne_nil_of_mem left⟩), small⟩,
      (mem_expand (positions_ascending keys key)).mpr ⟨left, right, below⟩⟩

variable [Spelling Binary64] [Lettering]

theorem nodup_blockingKeys {record : Record} {keys : List Str} (read : blockingKeys record = .ok keys) :
    keys.Nodup := by
  obtain ⟨_, -, made⟩ := bind_eq_ok.mp read
  cases made
  exact List.nodup_dedup _

theorem nodup_keys {records : List Record} {keys : List (List Str)}
    (read : records.mapM blockingKeys = .ok keys) : ∀ ks ∈ keys, ks.Nodup := by
  intro ks member
  obtain ⟨record, -, made⟩ := (mapM_members read).1 ks member
  exact nodup_blockingKeys made

omit [Spelling Binary64] [Lettering] in
theorem positions_within {keys : List (List Str)} {key : Str} {i : Nat} (member : i ∈ positions keys key) :
    i < keys.length := by
  obtain ⟨ks, found, -⟩ := mem_positions.mp member
  exact (List.getElem?_eq_some_iff.mp found).1

theorem candidatePairs_within {records : List Record} {maxBlockSize : Int} {pairs : List (Nat × Nat)}
    {dropped : List Str} (blocked : candidatePairs records maxBlockSize = .ok (pairs, dropped)) :
    ∀ pair ∈ pairs, pair.1 < pair.2 ∧ pair.2 < records.length := by
  rintro ⟨i, j⟩ member
  obtain ⟨keys, read, made⟩ := bind_eq_ok.mp blocked
  have inside : (i, j) ∈ (pairsOfBlocks maxBlockSize (blocks keys)).1 := by
    rw [Except.ok.inj made]
    exact member
  obtain ⟨below, key, -, right, -⟩ := (mem_pairs (nodup_keys read)).mp inside
  refine ⟨below, ?_⟩
  rw [(mapM_eq_ok.mp read).length_eq]
  exact positions_within right

/-! ## The pairs as records -/

def keysOf (record : Record) : List Str := (blockingKeys record).toOption.getD []

def holders (records : List Record) (key : Str) : Nat := records.countP fun record => key ∈ keysOf record

def Comparable (records : List Record) (maxBlockSize : Int) (r s : Record) : Prop :=
  ∃ key, key ∈ keysOf r ∧ key ∈ keysOf s ∧ ¬maxBlockSize < holders records key

def pairOf (records : List Record) (pair : Nat × Nat) : Sym2 Record :=
  s(records[pair.1]?.getD [], records[pair.2]?.getD [])

theorem keys_eq {records : List Record} {keys : List (List Str)}
    (read : records.mapM blockingKeys = .ok keys) : keys = records.map keysOf := by
  have paired := mapM_eq_ok.mp read
  clear read
  induction paired with
  | nil => rfl
  | cons head _ ih => rw [List.map_cons, ih, keysOf, head]; rfl

theorem length_positions (records : List Record) (key : Str) :
    (positions (records.map keysOf) key).length = holders records key := by
  have numbered : ((records.map keysOf).zipIdx.countP fun record => key ∈ record.1) =
      ((records.map keysOf).zipIdx.map Prod.fst).countP fun ks => key ∈ ks := by
    rw [List.countP_map]
    rfl
  rw [positions, List.length_map, ← List.countP_eq_length_filter, numbered, List.zipIdx_map_fst,
    List.countP_map]
  rfl

theorem mem_positions_keysOf {records : List Record} {key : Str} {i : Nat} :
    i ∈ positions (records.map keysOf) key ↔ ∃ record, records[i]? = some record ∧ key ∈ keysOf record := by
  rw [mem_positions]
  simp only [List.getElem?_map, Option.map_eq_some_iff]
  constructor
  · rintro ⟨ks, ⟨record, found, rfl⟩, member⟩
    exact ⟨record, found, member⟩
  · rintro ⟨record, found, member⟩
    exact ⟨_, ⟨record, found, rfl⟩, member⟩

theorem mem_candidatePairs {records : List Record} {maxBlockSize : Int} {pairs : List (Nat × Nat)}
    {dropped : List Str} (blocked : candidatePairs records maxBlockSize = .ok (pairs, dropped)) {i j : Nat} :
    (i, j) ∈ pairs ↔ i < j ∧ ∃ r s, records[i]? = some r ∧ records[j]? = some s ∧
      Comparable records maxBlockSize r s := by
  obtain ⟨keys, read, made⟩ := bind_eq_ok.mp blocked
  have same : pairs = (pairsOfBlocks maxBlockSize (blocks keys)).1 := by
    rw [Except.ok.inj made]
  rw [same, mem_pairs (nodup_keys read), keys_eq read]
  simp only [mem_positions_keysOf, length_positions]
  refine and_congr_right fun _ => ?_
  constructor
  · rintro ⟨key, ⟨r, foundR, inR⟩, ⟨s, foundS, inS⟩, small⟩
    exact ⟨r, s, foundR, foundS, key, inR, inS, small⟩
  · rintro ⟨r, s, foundR, foundS, key, inR, inS, small⟩
    exact ⟨key, ⟨r, foundR, inR⟩, ⟨s, foundS, inS⟩, small⟩

theorem comparable_comm {records : List Record} {maxBlockSize : Int} {r s : Record}
    (compared : Comparable records maxBlockSize r s) : Comparable records maxBlockSize s r := by
  obtain ⟨key, inR, inS, small⟩ := compared
  exact ⟨key, inS, inR, small⟩

omit [Spelling Binary64] [Lettering] in
theorem position_unique {records : List Record} (distinct : records.Nodup) {i j : Nat} {record : Record}
    (left : records[i]? = some record) (right : records[j]? = some record) : i = j :=
  (List.getElem?_inj (List.getElem?_eq_some_iff.mp left).1 distinct).mp (left.trans right.symm)

theorem mem_pairOf {records : List Record} (distinct : records.Nodup) {maxBlockSize : Int}
    {pairs : List (Nat × Nat)} {dropped : List Str}
    (blocked : candidatePairs records maxBlockSize = .ok (pairs, dropped)) {x : Sym2 Record} :
    x ∈ pairs.map (pairOf records) ↔ ∃ r ∈ records, ∃ s ∈ records, r ≠ s ∧
      Comparable records maxBlockSize r s ∧ x = s(r, s) := by
  rw [List.mem_map]
  constructor
  · rintro ⟨⟨i, j⟩, member, rfl⟩
    obtain ⟨below, r, s, foundR, foundS, compared⟩ := (mem_candidatePairs blocked).mp member
    refine ⟨r, List.mem_of_getElem? foundR, s, List.mem_of_getElem? foundS, ?_, compared, ?_⟩
    · rintro rfl
      exact Nat.ne_of_lt below (position_unique distinct foundR foundS)
    · rw [pairOf, foundR, foundS]
      rfl
  · rintro ⟨r, inR, s, inS, differ, compared, rfl⟩
    obtain ⟨i, foundR⟩ := List.getElem?_of_mem inR
    obtain ⟨j, foundS⟩ := List.getElem?_of_mem inS
    rcases Nat.lt_trichotomy i j with below | rfl | above
    · refine ⟨(i, j), (mem_candidatePairs blocked).mpr ⟨below, r, s, foundR, foundS, compared⟩, ?_⟩
      rw [pairOf, foundR, foundS]
      rfl
    · exact absurd (Option.some.inj (foundR.symm.trans foundS)) differ
    · refine ⟨(j, i), (mem_candidatePairs blocked).mpr
        ⟨above, s, r, foundS, foundR, comparable_comm compared⟩, ?_⟩
      rw [pairOf, foundR, foundS]
      exact Sym2.eq_swap

theorem nodup_pairs {records : List Record} {maxBlockSize : Int} {pairs : List (Nat × Nat)}
    {dropped : List Str} (blocked : candidatePairs records maxBlockSize = .ok (pairs, dropped)) :
    pairs.Nodup := by
  obtain ⟨keys, read, made⟩ := bind_eq_ok.mp blocked
  have same : pairs = (pairsOfBlocks maxBlockSize (blocks keys)).1 := by
    rw [Except.ok.inj made]
  rw [same]
  exact (List.perm_insertionSort _ _).nodup_iff.mpr (List.nodup_dedup _)

theorem nodup_pairOf {records : List Record} (distinct : records.Nodup) {maxBlockSize : Int}
    {pairs : List (Nat × Nat)} {dropped : List Str}
    (blocked : candidatePairs records maxBlockSize = .ok (pairs, dropped)) :
    (pairs.map (pairOf records)).Nodup := by
  apply List.Nodup.map_on _ (nodup_pairs blocked)
  rintro ⟨i, j⟩ first ⟨k, l⟩ second same
  obtain ⟨below, r, s, foundR, foundS, -⟩ := (mem_candidatePairs blocked).mp first
  obtain ⟨below', r', s', foundR', foundS', -⟩ := (mem_candidatePairs blocked).mp second
  simp only [pairOf, foundR, foundS, foundR', foundS', Option.getD_some, Sym2.eq_iff] at same
  rcases same with ⟨rfl, rfl⟩ | ⟨rfl, rfl⟩
  · rw [position_unique distinct foundR foundR', position_unique distinct foundS foundS']
  · have := position_unique distinct foundR foundS'
    have := position_unique distinct foundS foundR'
    omega

/-! ## The order of the catalogue -/

theorem holders_perm {records records' : List Record} (same : records.Perm records') (key : Str) :
    holders records key = holders records' key := same.countP_eq _

theorem comparable_perm {records records' : List Record} (same : records.Perm records')
    {maxBlockSize : Int} {r s : Record} :
    Comparable records maxBlockSize r s ↔ Comparable records' maxBlockSize r s := by
  simp only [Comparable, holders_perm same]

theorem dropped_spec {records : List Record} {maxBlockSize : Int} {pairs : List (Nat × Nat)}
    {dropped : List Str} (blocked : candidatePairs records maxBlockSize = .ok (pairs, dropped)) :
    dropped.Pairwise (fun a b => Str.le a b = true) ∧ dropped.Nodup ∧
      ∀ key, key ∈ dropped ↔ holders records key ≠ 0 ∧ maxBlockSize < holders records key := by
  obtain ⟨keys, read, made⟩ := bind_eq_ok.mp blocked
  have same : dropped = (pairsOfBlocks maxBlockSize (blocks keys)).2 := by
    rw [Except.ok.inj made]
  rw [same]
  have within : (pairsOfBlocks maxBlockSize (blocks keys)).2.Sublist
      (Dict.keys (byKey Str.le (blocks keys))) := List.filter_sublist.map _
  refine ⟨?_, (nodup_byKey (nodup_blocks keys)).sublist within, ?_⟩
  · exact (List.pairwise_map.mpr (byKey_sorted str_order _)).sublist within
  · intro key
    unfold pairsOfBlocks
    simp only [List.mem_map, List.mem_filter, decide_eq_true_eq, Prod.exists, exists_and_right,
      exists_eq_right]
    rw [← length_positions, ← keys_eq read, ne_eq, List.length_eq_zero_iff]
    constructor
    · rintro ⟨members, inside, large⟩
      obtain ⟨rfl, some⟩ := (mem_blocks (nodup_keys read)).mp ((byKey_perm _).mem_iff.mp inside)
      exact ⟨some, large⟩
    · rintro ⟨some, large⟩
      exact ⟨_, (byKey_perm _).mem_iff.mpr ((mem_blocks (nodup_keys read)).mpr ⟨rfl, some⟩), large⟩

theorem candidatePairs_perm {records records' : List Record} (same : records.Perm records')
    (distinct : records.Nodup) {maxBlockSize : Int} {pairs : List (Nat × Nat)} {dropped : List Str}
    (blocked : candidatePairs records maxBlockSize = .ok (pairs, dropped)) :
    ∃ pairs', candidatePairs records' maxBlockSize = .ok (pairs', dropped) ∧
      (pairs.map (pairOf records)).Perm (pairs'.map (pairOf records')) := by
  obtain ⟨keys, read, -⟩ := bind_eq_ok.mp blocked
  obtain ⟨keys', read'⟩ := mapM_returns.mpr fun record member =>
    mapM_returns.mp ⟨keys, read⟩ record (same.mem_iff.mpr member)
  obtain ⟨⟨pairs', dropped'⟩, blocked'⟩ : ∃ out, candidatePairs records' maxBlockSize = .ok out :=
    ⟨_, bind_eq_ok.mpr ⟨keys', read', rfl⟩⟩
  have distinct' := same.nodup_iff.mp distinct
  have dropped_eq : dropped' = dropped := by
    obtain ⟨sorted, once, all⟩ := dropped_spec blocked
    obtain ⟨sorted', once', all'⟩ := dropped_spec blocked'
    refine eq_of_sorted str_order sorted' sorted once' once fun key => ?_
    rw [all, all', holders_perm same]
  rw [dropped_eq] at blocked'
  refine ⟨pairs', blocked', ?_⟩
  apply (List.perm_ext_iff_of_nodup (nodup_pairOf distinct blocked) (nodup_pairOf distinct' blocked')).mpr
  intro x
  rw [mem_pairOf distinct blocked, mem_pairOf distinct' blocked']
  simp only [same.mem_iff, comparable_perm same]

end Proxyshop.Er
