import Proxyshop.Er.Consistency

/-!
# The order of the catalogue

Where no id is repeated, positions and ids tell records apart alike, and the report is a function of
the set of records.
-/

namespace Proxyshop.Er

open Python Numbers Contracts Verification Structures

/-! ## Strength -/

def strength : Num → ℚ
  | .finite x => x.value
  | _ => 0

def rankLe (a b : ℚ × Str × Str) : Bool :=
  pairedLe (fun x y => y ≤ x) (pairedLe Str.le Str.le) a b

def SameAsEdge.rank (e : SameAsEdge) : ℚ × Str × Str := (strength e.confidence, e.leftId, e.rightId)

theorem rankLe_order : KeyOrder rankLe Set.univ := by
  have descending : KeyOrder (fun x y : ℚ => decide (y ≤ x)) Set.univ :=
    { total := fun a b => by
        simp only [decide_eq_true_eq]
        exact (le_total a b).symm
      trans := fun ab bc => by
        simp only [decide_eq_true_eq] at *
        exact bc.trans ab
      antisymm := fun _ _ ab ba => by
        simp only [decide_eq_true_eq] at *
        exact le_antisymm ba ab }
  exact descending.paired (str_order.paired str_order)

theorem bounded_finite (confidence : Num) : ∃ x, bounded confidence = .finite x := by
  obtain ⟨zero, isZero⟩ := Extended.isFinite_iff.mp (show (0.0 : Num).isFinite = true by decide +kernel)
  obtain ⟨one, isOne⟩ := Extended.isFinite_iff.mp (show (1.0 : Num).isFinite = true by decide +kernel)
  unfold bounded Extended.greatest Extended.least
  rw [isZero, isOne]
  cases confidence with
  | finite x =>
      split_ifs
      · exact ⟨x, rfl⟩
      · exact ⟨one, rfl⟩
      · exact ⟨zero, rfl⟩
      · exact ⟨one, rfl⟩
  | infinity negative =>
      cases negative
      · exact ⟨one, rfl⟩
      · have above : ¬Extended.finite zero < .infinity true := Bool.false_ne_true
        rw [if_neg above]
        split_ifs
        · exact ⟨zero, rfl⟩
        · exact ⟨one, rfl⟩
  | nan =>
      have undefined : ¬Extended.finite zero < (.nan : Num) := Bool.false_ne_true
      rw [if_neg undefined]
      split_ifs
      · exact ⟨zero, rfl⟩
      · exact ⟨one, rfl⟩

theorem idsBelow_eq (a b : SameAsEdge) : (!idsBelow b a) = pairedLe Str.le Str.le a.ids b.ids := by
  unfold idsBelow strBelow pairedLe SameAsEdge.ids
  dsimp only
  have same : b.leftId = a.leftId ↔ Str.le a.leftId b.leftId = true ∧ Str.le b.leftId a.leftId = true := by
    constructor
    · intro h
      rw [h]
      exact ⟨(str_order.total _ _).elim id id, (str_order.total _ _).elim id id⟩
    · exact fun h => str_order.antisymm trivial trivial h.2 h.1
  by_cases equal : b.leftId = a.leftId
  · obtain ⟨forth, back⟩ := same.mp equal
    rw [decide_eq_true equal, forth, back]
    cases Str.le a.rightId b.rightId <;> rfl
  · rw [decide_eq_false equal]
    cases forth : Str.le a.leftId b.leftId with
    | false => rfl
    | true =>
        cases back : Str.le b.leftId a.leftId with
        | false => rfl
        | true => exact absurd (same.mpr ⟨forth, back⟩) equal

theorem edgeBelow_eq {a b : SameAsEdge} {x y : Binary64} (left : a.confidence = .finite x)
    (right : b.confidence = .finite y) : (!edgeBelow b a) = rankLe a.rank b.rank := by
  have below : decide (a.confidence < b.confidence) = !decide (y.value ≤ x.value) := by
    rw [left, right, ← decide_not]
    exact decide_eq_decide.mpr (Extended.finite_lt_finite.trans not_le.symm)
  have equal : decide (b.confidence = a.confidence) = (decide (y.value ≤ x.value) && decide (x.value ≤ y.value)) := by
    rw [left, right, ← Bool.decide_and, decide_eq_decide, Extended.finite.injEq]
    constructor
    · rintro rfl
      exact ⟨le_refl _, le_refl _⟩
    · exact fun h => Binary64.ext (le_antisymm h.1 h.2)
  have ids := idsBelow_eq a b
  unfold idsBelow at ids
  unfold edgeBelow rankLe pairedLe SameAsEdge.rank
  rw [below, equal, left, right]
  show _ = (decide (y.value ≤ x.value) && (!decide (x.value ≤ y.value) || pairedLe Str.le Str.le a.ids b.ids))
  rw [← ids]
  cases decide (y.value ≤ x.value) <;> cases decide (x.value ≤ y.value) <;> simp

theorem less_asymm {x y : Num} (below : x < y) : ¬y < x := by
  cases x with
  | finite a =>
      cases y with
      | finite b =>
          exact fun above =>
            lt_asymm (Extended.finite_lt_finite.mp below) (Extended.finite_lt_finite.mp above)
      | infinity t =>
          cases t
          · exact Bool.false_ne_true
          · cases below
      | nan => cases below
  | infinity s =>
      cases y with
      | finite b =>
          cases s
          · cases below
          · exact Bool.false_ne_true
      | infinity t =>
          cases s
          · cases below
          · cases t
            · exact Bool.false_ne_true
            · cases below
      | nan => cases below
  | nan => cases below

theorem edgeBelow_iff {a b : SameAsEdge} : edgeBelow a b = true ↔
    b.confidence < a.confidence ∨ a.confidence = b.confidence ∧ idsBelow a b = true := by
  show (decide _ || (decide _ && idsBelow a b)) = true ↔ _
  rw [Bool.or_eq_true, Bool.and_eq_true, decide_eq_true_eq, decide_eq_true_eq]

theorem idsBelow_asymm {a b : SameAsEdge} (below : idsBelow a b = true) : idsBelow b a = false := by
  have order := str_order.paired str_order
  rw [Bool.eq_false_iff]
  intro above
  have left := idsBelow_eq b a
  have right := idsBelow_eq a b
  rw [below] at left
  rw [above] at right
  rcases order.total a.ids b.ids with le | le
  · exact Bool.false_ne_true (right.trans le)
  · exact Bool.false_ne_true (left.trans le)

theorem edgeBelow_asymm {a b : SameAsEdge} (below : edgeBelow a b = true) : edgeBelow b a = false := by
  rw [Bool.eq_false_iff, ne_eq, edgeBelow_iff]
  rcases edgeBelow_iff.mp below with stronger | ⟨same, ids⟩
  · rintro (weaker | ⟨same, -⟩)
    · exact less_asymm stronger weaker
    · rw [same] at stronger
      exact less_asymm stronger stronger
  · rintro (stronger | ⟨-, ids'⟩)
    · rw [same] at stronger
      exact less_asymm stronger stronger
    · exact Bool.false_ne_true ((idsBelow_asymm ids).symm.trans ids')

/-! ## The edge of a pair of records -/

variable [Spelling Binary64] [Lettering] [Summation]

def edgeBetween (threshold : Value) : Sym2 Record → Except PyError (Option SameAsEdge) :=
  Sym2.lift ⟨fun r s => edgeOf <$> matching r s threshold, fun r s =>
    congrArg _ (matching_comm r s threshold)⟩

theorem propose_eq (records : List Record) (threshold : Value) (pair : Nat × Nat) :
    propose records threshold pair = Option.map (fun edge => Proposal.mk edge pair.1 pair.2) <$>
      edgeBetween threshold (pairOf records pair) := by
  unfold propose edgeBetween pairOf
  rw [Sym2.lift_mk]
  dsimp only
  cases matching (records[pair.1]?.getD []) (records[pair.2]?.getD []) threshold <;> rfl

def linkedEdges (threshold : Value) (candidates : List (Sym2 Record)) : List SameAsEdge :=
  candidates.filterMap fun x => (edgeBetween threshold x).toOption.join

theorem edges_of_decisions {records : List Record} {threshold : Value} {pairs : List (Nat × Nat)}
    {decisions : List (Option Proposal)} (walked : pairs.mapM (propose records threshold) = .ok decisions) :
    decisions.reduceOption.map Proposal.edge = linkedEdges threshold (pairs.map (pairOf records)) := by
  have paired := mapM_eq_ok.mp walked
  clear walked
  induction paired with
  | nil => rfl
  | @cons pair decision pairs decisions head _ ih =>
      rw [propose_eq] at head
      rw [List.map_cons, linkedEdges, List.filterMap_cons, ← linkedEdges, ← ih]
      cases found : edgeBetween threshold (pairOf records pair) with
      | error e =>
          rw [found] at head
          cases head
      | ok answer =>
          rw [found] at head
          cases head
          cases answer <;> rfl

theorem proposals_returns {records : List Record} {threshold : Value} {pairs : List (Nat × Nat)} :
    (∃ proposed, proposals records threshold pairs = .ok proposed) ↔
      ∀ x ∈ pairs.map (pairOf records), ∃ answer, edgeBetween threshold x = .ok answer := by
  have walked : (∃ proposed, proposals records threshold pairs = .ok proposed) ↔
      ∃ decisions, pairs.mapM (propose records threshold) = .ok decisions := by
    unfold proposals
    rw [bind_returns]
    exact exists_congr fun _ => ⟨fun h => h.1, fun h => ⟨h, _, rfl⟩⟩
  rw [walked, mapM_returns, List.forall_mem_map]
  refine forall₂_congr fun pair _ => ?_
  rw [propose_eq]
  cases edgeBetween threshold (pairOf records pair) with
  | error e => constructor <;> rintro ⟨_, raised⟩ <;> cases raised
  | ok answer =>
      have returned (f : Option SameAsEdge → Option Proposal) :
          ∃ b, f <$> (Except.ok answer : Except PyError (Option SameAsEdge)) = .ok b := ⟨f answer, rfl⟩
      exact iff_of_true (returned _) ⟨answer, rfl⟩

/-! ## Records told apart by their ids -/

structure Identified (records : List Record) : Prop where
  named : ∀ r ∈ records, ∃ id, productId r = .ok id ∧ id ≠ []
  distinct : records.Pairwise fun r s => productId r ≠ productId s

omit [Lettering] [Summation] in
theorem Identified.perm {records records' : List Record} (identified : Identified records)
    (same : records.Perm records') : Identified records' where
  named r member := identified.named r (same.mem_iff.mpr member)
  distinct := (same.pairwise_iff fun h => h.symm).mp identified.distinct

omit [Lettering] [Summation] in
theorem Identified.nodup {records : List Record} (identified : Identified records) : records.Nodup :=
  identified.distinct.imp fun differ same => differ (congrArg _ same)

omit [Lettering] [Summation] in
theorem Identified.unique {records : List Record} (identified : Identified records) {r s : Record}
    (inR : r ∈ records) (inS : s ∈ records) (same : productId r = productId s) : r = s := by
  by_contra other
  have : Std.Symm fun r s : Record => productId r ≠ productId s := ⟨fun _ _ h => h.symm⟩
  exact identified.distinct.forall inR inS other same

theorem edgeBetween_eq_ok {threshold : Value} {r s : Record} {e : SameAsEdge} :
    edgeBetween threshold s(r, s) = .ok (some e) ↔ ∃ d, matching r s threshold = .ok d ∧ edgeOf d = some e := by
  show edgeOf <$> matching r s threshold = .ok (some e) ↔ _
  cases matching r s threshold with
  | error e =>
      constructor
      · intro mapped
        cases mapped
      · rintro ⟨_, made, _⟩
        cases made
  | ok d =>
      constructor
      · exact fun mapped => ⟨d, rfl, Except.ok.inj mapped⟩
      · rintro ⟨d', made, linked⟩
        cases made
        exact congrArg _ linked

theorem edgeBetween_eq_some {threshold : Value} {r s : Record} {e : SameAsEdge}
    (found : edgeBetween threshold s(r, s) = .ok (some e)) :
    (∃ a b, productId r = .ok a ∧ productId s = .ok b ∧ e.ids = sortedPair a b) ∧
      ∃ x, e.confidence = .finite x := by
  obtain ⟨d, made, linked⟩ := edgeBetween_eq_ok.mp found
  obtain ⟨floor, a, b, confidence, method, evidence, -, idR, idS, rfl⟩ := matching_eq_ok made
  obtain ⟨-, -, -, -, rfl⟩ := edgeOf_eq_some.mp linked
  exact ⟨⟨a, b, idR, idS, rfl⟩, bounded_finite confidence⟩

omit [Spelling Binary64] [Lettering] [Summation] in
theorem sortedPair_eq {a b c d : Str} (same : sortedPair a b = sortedPair c d) :
    (a = c ∧ b = d) ∨ (a = d ∧ b = c) := by
  unfold sortedPair at same
  split at same <;> split at same <;> obtain ⟨first, second⟩ := Prod.mk.inj same
  · exact Or.inl ⟨first, second⟩
  · exact Or.inr ⟨first, second⟩
  · exact Or.inr ⟨second, first⟩
  · exact Or.inl ⟨second, first⟩

theorem mem_linkedEdges {threshold : Value} {candidates : List (Sym2 Record)} {e : SameAsEdge} :
    e ∈ linkedEdges threshold candidates ↔ ∃ x ∈ candidates, edgeBetween threshold x = .ok (some e) := by
  rw [linkedEdges, List.mem_filterMap]
  refine exists_congr fun x => and_congr_right fun _ => ?_
  cases edgeBetween threshold x with
  | error _ => exact ⟨nofun, nofun⟩
  | ok answer =>
      rw [Except.ok.injEq]
      rfl

def Within (records : List Record) (candidates : List (Sym2 Record)) : Prop :=
  ∀ x ∈ candidates, ∃ r ∈ records, ∃ s ∈ records, x = s(r, s)

theorem pair_unique {records : List Record} (identified : Identified records) {threshold : Value}
    {candidates : List (Sym2 Record)} (within : Within records candidates) {x y : Sym2 Record}
    (inX : x ∈ candidates) (inY : y ∈ candidates) {e f : SameAsEdge}
    (foundE : edgeBetween threshold x = .ok (some e)) (foundF : edgeBetween threshold y = .ok (some f))
    (same : e.ids = f.ids) : x = y := by
  obtain ⟨r, inR, s, inS, rfl⟩ := within x inX
  obtain ⟨r', inR', s', inS', rfl⟩ := within y inY
  obtain ⟨⟨a, b, idR, idS, ids⟩, -⟩ := edgeBetween_eq_some foundE
  obtain ⟨⟨a', b', idR', idS', ids'⟩, -⟩ := edgeBetween_eq_some foundF
  rw [Sym2.eq_iff]
  rcases sortedPair_eq (ids.symm.trans (same.trans ids')) with ⟨rfl, rfl⟩ | ⟨rfl, rfl⟩
  · left
    exact ⟨identified.unique inR inR' (idR.trans idR'.symm), identified.unique inS inS' (idS.trans idS'.symm)⟩
  · right
    exact ⟨identified.unique inR inS' (idR.trans idS'.symm), identified.unique inS inR' (idS.trans idR'.symm)⟩

section Sorting

variable {records : List Record} (identified : Identified records) {threshold : Value}
  {candidates : List (Sym2 Record)} (within : Within records candidates)

include identified within

theorem linkedEdges_unique {e f : SameAsEdge} (left : e ∈ linkedEdges threshold candidates)
    (right : f ∈ linkedEdges threshold candidates) (same : e.ids = f.ids) : e = f := by
  obtain ⟨x, inX, foundE⟩ := mem_linkedEdges.mp left
  obtain ⟨y, inY, foundF⟩ := mem_linkedEdges.mp right
  obtain rfl := pair_unique identified within inX inY foundE foundF same
  rw [foundE] at foundF
  exact Option.some.inj (Except.ok.inj foundF)

theorem linkedEdges_nodup (distinct : candidates.Nodup) : (linkedEdges threshold candidates).Nodup := by
  rw [linkedEdges, List.Nodup, List.pairwise_filterMap]
  refine distinct.imp_of_mem ?_
  intro x y inX inY differ e foundE f foundF same
  have made (z : Sym2 Record) (g : SameAsEdge) (found : (edgeBetween threshold z).toOption.join = some g) :
      edgeBetween threshold z = .ok (some g) := by
    cases answer : edgeBetween threshold z with
    | error _ =>
        rw [answer] at found
        cases found
    | ok answer' =>
        rw [answer] at found
        exact congrArg _ found
  exact differ (pair_unique identified within inX inY (made x e foundE) (made y f foundF) (congrArg _ same))

theorem rank_order :
    KeyOrder (fun a b : SameAsEdge => rankLe a.rank b.rank) {e | e ∈ linkedEdges threshold candidates} := by
  refine rankLe_order.comap (Set.mapsTo_univ _ _) fun e left f right same => ?_
  apply linkedEdges_unique identified within left right
  obtain ⟨-, ids⟩ := Prod.mk.inj same
  exact ids

omit identified in
theorem linked_finite {e : SameAsEdge} (member : e ∈ linkedEdges threshold candidates) :
    ∃ x, e.confidence = .finite x := by
  obtain ⟨x, inX, found⟩ := mem_linkedEdges.mp member
  obtain ⟨r, -, s, -, rfl⟩ := within x inX
  exact (edgeBetween_eq_some found).2

omit identified in
theorem sorted_by_rank {l : List SameAsEdge} (linked : l ⊆ linkedEdges threshold candidates) :
    l.insertionSort (fun a b => !edgeBelow b a) = l.insertionSort fun a b => rankLe a.rank b.rank := by
  have alike : ∀ a ∈ l, ∀ b ∈ l, (!edgeBelow b a) = true ↔ rankLe (id a).rank (id b).rank = true := by
    intro a inA b inB
    obtain ⟨u, left⟩ := linked_finite within (linked inA)
    obtain ⟨v, right⟩ := linked_finite within (linked inB)
    rw [edgeBelow_eq left right]
    rfl
  have mapped := List.map_insertionSort (fun a b => (!edgeBelow b a) = true)
    (fun a b : SameAsEdge => rankLe a.rank b.rank = true) id l alike
  rwa [List.map_id, List.map_id] at mapped

theorem sorted_perm {candidates' : List (Sym2 Record)} (same : candidates.Perm candidates') :
    (linkedEdges threshold candidates).insertionSort (fun a b => !edgeBelow b a) =
      (linkedEdges threshold candidates').insertionSort fun a b => !edgeBelow b a := by
  have edges : (linkedEdges threshold candidates).Perm (linkedEdges threshold candidates') :=
    same.filterMap _
  rw [sorted_by_rank within (List.Subset.refl _),
    sorted_by_rank within edges.symm.subset]
  exact sort_congr (rank_order identified within) (fun _ member => member) edges

theorem sorted_strictly (distinct : candidates.Nodup) :
    ((linkedEdges threshold candidates).insertionSort fun a b => !edgeBelow b a).Pairwise
      fun a b => edgeBelow a b = true := by
  rw [sorted_by_rank within (List.Subset.refl _)]
  refine (sort_strict (rank_order identified within) (fun _ member => member)
    (linkedEdges_nodup identified within distinct)).imp_of_mem ?_
  intro a b inA inB above
  obtain ⟨u, left⟩ := linked_finite within ((List.mem_insertionSort _).mp inA)
  obtain ⟨v, right⟩ := linked_finite within ((List.mem_insertionSort _).mp inB)
  have compared := edgeBelow_eq right left
  rw [above] at compared
  simpa using compared

end Sorting

/-! ## Positions and ids -/

def Contradicted (records : List Record) (kept : List SameAsEdge) (u v : Str) : Prop :=
  ∃ r ∈ records, ∃ s ∈ records, ∃ a b x y, Names r a x ∧ Names s b y ∧ Connected kept u a ∧
    Connected kept v b ∧ x ≠ y

omit [Summation] in
theorem Contradicted.symm {records : List Record} {kept : List SameAsEdge} {u v : Str}
    (contradicted : Contradicted records kept u v) : Contradicted records kept v u := by
  obtain ⟨r, inR, s, inS, a, b, x, y, nameR, nameS, left, right, differ⟩ := contradicted
  exact ⟨s, inS, r, inR, b, a, y, x, nameS, nameR, right, left, differ.symm⟩

omit [Summation] in
theorem Contradicted.mono {records : List Record} {kept more : List SameAsEdge} (within : kept ⊆ more)
    {u v : Str} (contradicted : Contradicted records kept u v) : Contradicted records more u v := by
  obtain ⟨r, inR, s, inS, a, b, x, y, nameR, nameS, left, right, differ⟩ := contradicted
  have wider {c d : Str} (path : Connected kept c d) : Connected more c d :=
    Labelled.Linked.mono (List.map_subset _ within) path
  exact ⟨r, inR, s, inS, a, b, x, y, nameR, nameS, wider left, wider right, differ⟩

omit [Lettering] [Summation] in
def idAt (records : List Record) (i : Nat) : Str := (productId (records[i]?.getD [])).toOption.getD []

/-- A proposal is the edge between the ids of its positions. -/
structure Fits (records : List Record) (p : Proposal) : Prop where
  left : p.left < records.length
  right : p.right < records.length
  ids : p.edge.ids = sortedPair (idAt records p.left) (idAt records p.right)

theorem fits_of_mem {records : List Record} {threshold : Value} {pairs : List (Nat × Nat)}
    {proposed : List Proposal} (within : ∀ pair ∈ pairs, pair.1 < pair.2 ∧ pair.2 < records.length)
    (made : proposals records threshold pairs = .ok proposed) {p : Proposal} (member : p ∈ proposed) :
    Fits records p := by
  obtain ⟨inside, d, decided, linked⟩ := (mem_proposals made).mp member
  obtain ⟨below, bound⟩ := within _ inside
  obtain ⟨floor, a, b, confidence, method, evidence, -, idA, idB, rfl⟩ := matching_eq_ok decided
  obtain ⟨-, -, -, -, same⟩ := edgeOf_eq_some.mp linked
  refine ⟨Nat.lt_trans below bound, bound, ?_⟩
  rw [idAt, idAt, idA, idB, same]
  rfl

section Identified

variable {records : List Record} (identified : Identified records)

include identified

omit [Lettering] [Summation] in
theorem productId_at {i : Nat} {r : Record} (found : records[i]? = some r) :
    productId r = .ok (idAt records i) := by
  obtain ⟨id, read, -⟩ := identified.named r (List.mem_of_getElem? found)
  rw [idAt, found, Option.getD_some, read]
  rfl

omit [Lettering] [Summation] in
theorem idAt_injective : Set.InjOn (idAt records) {i | i < records.length} := by
  intro i inside j inside' same
  have left := List.getElem?_eq_getElem (show i < records.length from inside)
  have right := List.getElem?_eq_getElem (show j < records.length from inside')
  have ids : productId records[i] = productId records[j] := by
    rw [productId_at identified left, productId_at identified right, same]
  have one := identified.unique (List.mem_of_getElem? left) (List.mem_of_getElem? right) ids
  exact position_unique identified.nodup left (right.trans (congrArg some one.symm))

omit [Lettering] [Summation] in
theorem connected_iff {kept : List Proposal} (fits : ∀ p ∈ kept, Fits records p) {i j : Nat}
    (left : i < records.length) (right : j < records.length) :
    Connected (kept.map Proposal.edge) (idAt records i) (idAt records j) ↔
      Labelled.Linked (kept.map Proposal.ends) i j := by
  have sorted {p : Proposal} (member : p ∈ kept) :
      p.edge.ids = (idAt records p.left, idAt records p.right) ∨
        p.edge.ids = (idAt records p.right, idAt records p.left) := by
    rw [(fits p member).ids, sortedPair]
    split
    · exact Or.inl rfl
    · exact Or.inr rfl
  refine Labelled.linked_image (idAt_injective identified) ?_ ?_ left right
  · rintro _ member
    obtain ⟨p, inside, rfl⟩ := List.mem_map.mp member
    have edge : p.edge.ids ∈ (kept.map Proposal.edge).map SameAsEdge.ids :=
      List.mem_map_of_mem (List.mem_map_of_mem inside)
    rcases sorted inside with straight | swapped
    · rw [straight] at edge
      exact .rel _ _ edge
    · rw [swapped] at edge
      exact .symm _ _ (.rel _ _ edge)
  · rintro _ member
    obtain ⟨e, inner, rfl⟩ := List.mem_map.mp member
    obtain ⟨p, inside, rfl⟩ := List.mem_map.mp inner
    have link : Labelled.Linked (kept.map Proposal.ends) p.left p.right :=
      .rel _ _ (List.mem_map_of_mem (f := Proposal.ends) inside)
    rcases sorted inside with straight | swapped
    · exact ⟨p.left, (fits p inside).left, p.right, (fits p inside).right, straight, link⟩
    · exact ⟨p.right, (fits p inside).right, p.left, (fits p inside).left, swapped, .symm _ _ link⟩

omit identified in
omit [Summation] in
theorem known_eq_some {gtins : List (Option Str)} (read : records.mapM gtinOf = .ok gtins) {i : Nat}
    {x : Str} : known gtins i = some x ↔ ∃ r, records[i]? = some r ∧ gtinOf r = .ok (some x) := by
  obtain ⟨length, steps⟩ := List.forall₂_iff_get.mp (mapM_eq_ok.mp read)
  unfold known
  by_cases inside : i < records.length
  · have step := steps i inside (length ▸ inside)
    rw [List.getElem?_eq_getElem (length ▸ inside : i < gtins.length), List.getElem?_eq_getElem inside,
      Option.getD_some]
    rw [List.get_eq_getElem, List.get_eq_getElem] at step
    constructor
    · intro same
      exact ⟨_, rfl, by rw [step, same]⟩
    · rintro ⟨r, same, found⟩
      rw [← Option.some.inj same, step] at found
      exact Except.ok.inj found
  · have outside : ¬i < gtins.length := length ▸ inside
    rw [List.getElem?_eq_none (Nat.le_of_not_lt outside), List.getElem?_eq_none (Nat.le_of_not_lt inside)]
    exact ⟨nofun, nofun⟩

omit [Summation] in
theorem clash_iff {gtins : List (Option Str)} (read : records.mapM gtinOf = .ok gtins)
    {kept : List Proposal} (fits : ∀ p ∈ kept, Fits records p) {p : Proposal} (fit : Fits records p) :
    Labelled.Clash (known gtins) (kept.map Proposal.ends) p.left p.right ↔
      Contradicted records (kept.map Proposal.edge) p.edge.leftId p.edge.rightId := by
  have straight : Labelled.Clash (known gtins) (kept.map Proposal.ends) p.left p.right ↔
      Contradicted records (kept.map Proposal.edge) (idAt records p.left) (idAt records p.right) := by
    constructor
    · rintro ⟨i, j, left, right, differ⟩
      cases atI : known gtins i with
      | none =>
          rw [atI] at differ
          cases differ
      | some x =>
          cases atJ : known gtins j with
          | none =>
              rw [atI, atJ] at differ
              cases differ
          | some y =>
              rw [atI, atJ] at differ
              obtain ⟨r, foundR, gtinR⟩ := (known_eq_some read).mp atI
              obtain ⟨s, foundS, gtinS⟩ := (known_eq_some read).mp atJ
              refine ⟨r, List.mem_of_getElem? foundR, s, List.mem_of_getElem? foundS, _, _, x, y,
                ⟨productId_at identified foundR, gtinR⟩, ⟨productId_at identified foundS, gtinS⟩, ?_, ?_,
                of_decide_eq_true differ⟩
              · exact (connected_iff identified fits fit.left (List.getElem?_eq_some_iff.mp foundR).1).mpr left
              · exact (connected_iff identified fits fit.right (List.getElem?_eq_some_iff.mp foundS).1).mpr right
    · rintro ⟨r, inR, s, inS, a, b, x, y, nameR, nameS, left, right, differ⟩
      obtain ⟨i, foundR⟩ := List.getElem?_of_mem inR
      obtain ⟨j, foundS⟩ := List.getElem?_of_mem inS
      obtain rfl := Except.ok.inj (nameR.id.symm.trans (productId_at identified foundR))
      obtain rfl := Except.ok.inj (nameS.id.symm.trans (productId_at identified foundS))
      refine ⟨i, j, ?_, ?_, ?_⟩
      · exact (connected_iff identified fits fit.left (List.getElem?_eq_some_iff.mp foundR).1).mp left
      · exact (connected_iff identified fits fit.right (List.getElem?_eq_some_iff.mp foundS).1).mp right
      · rw [(known_eq_some read).mpr ⟨r, foundR, nameR.gtin⟩, (known_eq_some read).mpr ⟨s, foundS, nameS.gtin⟩]
        exact decide_eq_true differ
  rw [straight]
  have ids := fit.ids
  unfold sortedPair at ids
  split at ids
  · obtain ⟨left, right⟩ := Prod.mk.inj ids
    rw [left, right]
  · obtain ⟨left, right⟩ := Prod.mk.inj ids
    rw [left, right]
    exact ⟨Contradicted.symm, Contradicted.symm⟩

omit [Summation] in
theorem sieved_by_id {gtins : List (Option Str)} (read : records.mapM gtinOf = .ok gtins)
    {proposed : List Proposal} (fits : ∀ p ∈ proposed, Fits records p) :
    Sieved (fun kept e => Contradicted records kept e.leftId e.rightId) [] (proposed.map Proposal.edge)
      ((Labelled.sift Proposal.ends (components gtins) proposed).1.map Proposal.edge)
      ((Labelled.sift Proposal.ends (components gtins) proposed).2.map Proposal.edge) :=
  (components_sieved gtins proposed).map Proposal.edge
    (fun _ _ before here => clash_iff identified read before here) (List.forall_mem_nil _) fits

omit [Summation] in
theorem heedful_of_identified {gtins : List (Option Str)} (read : records.mapM gtinOf = .ok gtins)
    {kept : List Proposal} {s : Labelled Nat Str}
    (tracks : Labelled.Tracks (known gtins) (kept.map Proposal.ends) s)
    (before : ∀ p ∈ kept, Fits records p) {proposed : List Proposal}
    (fits : ∀ p ∈ proposed, Fits records p) : Heedful records (kept.map Proposal.edge) s proposed := by
  induction proposed generalizing kept s with
  | nil => trivial
  | cons p proposed ih =>
      obtain ⟨head, tail⟩ := List.forall_mem_cons.mp fits
      unfold Heedful
      dsimp only
      rcases tracks.join p.left p.right with ⟨joined, clear, next⟩ | ⟨refused, -, next⟩
      · rw [if_pos joined]
        constructor
        · intro r inR s inS a b x y nameR nameS _ left right
          by_contra differ
          apply clear
          rw [clash_iff identified read before head]
          exact ⟨r, inR, s, inS, a, b, x, y, nameR, nameS, left.symm, right, differ⟩
        · have more : ∀ q ∈ kept ++ [p], Fits records q :=
            List.forall_mem_append.mpr ⟨before, fun q single => List.mem_singleton.mp single ▸ head⟩
          have links : (kept ++ [p]).map Proposal.ends = kept.map Proposal.ends ++ [(p.left, p.right)] :=
            List.map_append
          have rest := ih (links ▸ next) more tail
          rw [List.map_append] at rest
          exact rest
      · rw [if_neg (by rw [refused]; exact Bool.false_ne_true)]
        exact ih next before tail

theorem heeds_of_identified (threshold : Value) (maxBlockSize : Int) :
    Heeds records threshold maxBlockSize := by
  intro pairs dropped proposed gtins blocked made read
  have tracks : Labelled.Tracks (known gtins) (([] : List Proposal).map Proposal.ends)
      (components gtins) := Labelled.tracks_start _
  exact heedful_of_identified identified read tracks (List.forall_mem_nil _)
    fun p member => fits_of_mem (candidatePairs_within blocked) made member

omit identified in
theorem proposals_edges {threshold : Value} {pairs : List (Nat × Nat)} {proposed : List Proposal}
    (made : proposals records threshold pairs = .ok proposed) : proposed.map Proposal.edge =
      (linkedEdges threshold (pairs.map (pairOf records))).insertionSort fun a b => !edgeBelow b a := by
  obtain ⟨decisions, walked, made⟩ := bind_eq_ok.mp made
  cases made
  rw [← edges_of_decisions walked]
  exact List.map_insertionSort _ _ _ _ fun _ _ _ _ => Iff.rfl

omit [Summation] in
theorem pairs_within {maxBlockSize : Int} {pairs : List (Nat × Nat)} {dropped : List Str}
    (blocked : candidatePairs records maxBlockSize = .ok (pairs, dropped)) :
    Within records (pairs.map (pairOf records)) := by
  intro x member
  obtain ⟨r, inR, s, inS, -, -, same⟩ := (mem_pairOf identified.nodup blocked).mp member
  exact ⟨r, inR, s, inS, same⟩

theorem resolve_perm {records' : List Record} (same : records.Perm records') {threshold : Value}
    {maxBlockSize : Int} {report : ResolutionReport}
    (resolved : resolve records threshold maxBlockSize = .ok report) :
    resolve records' threshold maxBlockSize = .ok report := by
  obtain ⟨pairs, dropped, proposed, gtins, floor, blocked, made, read, number, edges, isFloor, count,
    compared, isDropped, withheld⟩ := resolve_eq_ok resolved
  have identified' := identified.perm same
  obtain ⟨pairs', blocked', candidates⟩ := candidatePairs_perm same identified.nodup blocked
  obtain ⟨proposed', made'⟩ := proposals_returns.mpr fun x member =>
    proposals_returns.mp ⟨proposed, made⟩ x (candidates.mem_iff.mpr member)
  obtain ⟨gtins', read'⟩ := mapM_returns.mpr fun record member =>
    mapM_returns.mp ⟨gtins, read⟩ record (same.mem_iff.mpr member)
  have proposals : proposed.map Proposal.edge = proposed'.map Proposal.edge := by
    rw [proposals_edges made, proposals_edges made']
    exact sorted_perm identified (pairs_within identified blocked) candidates
  have first := sieved_by_id identified read fun p member =>
    fits_of_mem (candidatePairs_within blocked) made member
  have second := sieved_by_id identified' read' fun p member =>
    fits_of_mem (candidatePairs_within blocked') made' member
  rw [← proposals] at second
  have alike : (fun kept (e : SameAsEdge) => Contradicted records' kept e.leftId e.rightId) =
      fun kept e => Contradicted records kept e.leftId e.rightId := by
    funext kept e
    simp only [Contradicted, same.mem_iff]
  rw [alike] at second
  obtain ⟨admitted, refused⟩ := first.unique second
  have length : pairs.length = pairs'.length := by
    have := candidates.length_eq
    rwa [List.length_map, List.length_map] at this
  unfold resolve
  rw [blocked']
  simp only [bind, Except.bind, made', read', number, pure, Except.pure, ← admitted, ← refused,
    ← edges, ← withheld, ← isFloor, ← compared, ← length, ← same.length_eq, ← count, ← isDropped]

end Identified

/-- The pair of positions was compared, and linked into the edge. -/
def LinkedAs (records : List Record) (threshold : Value) (pair : Nat × Nat) (e : SameAsEdge) : Prop :=
  ∃ r s d, records[pair.1]? = some r ∧ records[pair.2]? = some s ∧ matching r s threshold = .ok d ∧
    d.linked = true ∧ e = ⟨d.pair.1, d.pair.2, d.confidence, d.method⟩

theorem mem_linkedEdges_pairs {records : List Record} (identified : Identified records) {threshold : Value}
    {maxBlockSize : Int} {pairs : List (Nat × Nat)} {dropped : List Str}
    (blocked : candidatePairs records maxBlockSize = .ok (pairs, dropped)) {e : SameAsEdge} :
    e ∈ linkedEdges threshold (pairs.map (pairOf records)) ↔ ∃ pair ∈ pairs, LinkedAs records threshold pair e := by
  rw [mem_linkedEdges]
  constructor
  · rintro ⟨x, member, found⟩
    obtain ⟨⟨i, j⟩, inside, rfl⟩ := List.mem_map.mp member
    obtain ⟨-, r, s, foundR, foundS, -⟩ := (mem_candidatePairs blocked).mp inside
    rw [pairOf, foundR, foundS] at found
    obtain ⟨d, made, linked⟩ := edgeBetween_eq_ok.mp found
    obtain ⟨clears, -, -, -, same⟩ := edgeOf_eq_some.mp linked
    exact ⟨(i, j), inside, r, s, d, foundR, foundS, made, clears, same⟩
  · rintro ⟨⟨i, j⟩, inside, r, s, d, foundR, foundS, made, clears, same⟩
    obtain ⟨below, -⟩ := (mem_candidatePairs blocked).mp inside
    refine ⟨_, List.mem_map_of_mem inside, ?_⟩
    rw [pairOf, foundR, foundS]
    refine edgeBetween_eq_ok.mpr ⟨d, made, edgeOf_eq_some.mpr ⟨clears, ?_⟩⟩
    have inR := List.mem_of_getElem? foundR
    have inS := List.mem_of_getElem? foundS
    obtain ⟨a, idR, namedR⟩ := identified.named r inR
    obtain ⟨b, idS, namedS⟩ := identified.named s inS
    have differ : a ≠ b := by
      rintro rfl
      obtain rfl := identified.unique inR inS (idR.trans idS.symm)
      exact Nat.ne_of_lt below (position_unique identified.nodup foundR foundS)
    obtain ⟨floor, a', b', confidence, method, evidence, -, idR', idS', rfl⟩ := matching_eq_ok made
    obtain rfl := Except.ok.inj (idR.symm.trans idR')
    obtain rfl := Except.ok.inj (idS.symm.trans idS')
    have pair : (decided confidence method floor (sortedPair a b) evidence).pair = sortedPair a b := rfl
    rw [pair] at same ⊢
    unfold sortedPair at same ⊢
    split
    · rename_i le
      rw [if_pos le] at same
      exact ⟨namedR, namedS, differ, same⟩
    · rename_i above
      rw [if_neg above] at same
      exact ⟨namedS, namedR, differ.symm, same⟩

/-- The report does not depend on the order of the catalogue. It divides the linked candidate pairs, and
withholds those that the stronger edges admitted would lead to two trade items. -/
theorem order_free {records records' : List Record} (identified : Identified records)
    (same : records.Perm records') (threshold : Value) (maxBlockSize : Int) :
    (resolve records threshold maxBlockSize).toOption = (resolve records' threshold maxBlockSize).toOption ∧
      ∀ report pairs dropped, resolve records threshold maxBlockSize = .ok report →
        candidatePairs records maxBlockSize = .ok (pairs, dropped) →
        (report.edges ++ report.withheld).Nodup ∧
        (∀ e, e ∈ report.edges ++ report.withheld ↔ ∃ pair ∈ pairs, LinkedAs records threshold pair e) ∧
        ∀ e ∈ report.edges ++ report.withheld, e ∈ report.withheld ↔
          Contradicted records (report.edges.filter fun f => edgeBelow f e) e.leftId e.rightId := by
  constructor
  · cases resolved : resolve records threshold maxBlockSize with
    | ok report => rw [resolve_perm identified same resolved]
    | error e =>
        cases resolved' : resolve records' threshold maxBlockSize with
        | error e' => rfl
        | ok report =>
            rw [resolve_perm (identified.perm same) same.symm resolved'] at resolved
            cases resolved
  · intro report pairs dropped resolved blocked
    obtain ⟨pairs', dropped', proposed, gtins, floor, blocked', made, read, -, edges, -, -, -, -, withheld⟩ :=
      resolve_eq_ok resolved
    obtain ⟨rfl, rfl⟩ := Prod.mk.inj (Except.ok.inj (blocked.symm.trans blocked'))
    have within := pairs_within identified blocked
    have distinct := nodup_pairOf identified.nodup blocked
    have sieved := sieved_by_id identified read fun p member =>
      fits_of_mem (candidatePairs_within blocked) made member
    rw [proposals_edges made] at sieved
    have admitted := edges ▸ List.perm_insertionSort _ _
    have refused := withheld ▸ List.perm_insertionSort _ _
    have all := (admitted.append refused).trans (sieved.perm.trans (List.perm_insertionSort _ _))
    refine ⟨all.nodup_iff.mpr (linkedEdges_nodup identified within distinct), fun e => ?_, fun e member => ?_⟩
    · rw [all.mem_iff, mem_linkedEdges_pairs identified blocked]
    · rw [refused.mem_iff, sieved.refused_iff edgeBelow_asymm (sorted_strictly identified within distinct)
        ((List.mem_insertionSort _).mpr (all.mem_iff.mp member)), List.nil_append]
      have earlier := admitted.filter fun f => edgeBelow f e
      exact ⟨Contradicted.mono earlier.symm.subset, Contradicted.mono earlier.subset⟩

omit [Spelling Binary64] [Lettering] [Summation] in
/-- Two listings in either order. -/
theorem twoListings_order_free :
    letI := Spelling.strings Binary64
    letI := Lettering.ascii
    letI := Summation.plain
    (resolve twoListings (.number (.double 1.0)) 200).toOption =
        (resolve twoListings.reverse (.number (.double 1.0)) 200).toOption ∧
      (resolve twoListings (.number (.double 1.0)) 200).toOption.map ResolutionReport.edges =
        some [⟨str "x", str "y", 1.0, .gtin⟩] := by
  let _ := Spelling.strings Binary64
  let _ := Lettering.ascii
  let _ := Summation.plain
  have identified : Identified twoListings :=
    { named := by
        simp only [twoListings, List.forall_mem_cons, List.not_mem_nil, false_imp_iff, implies_true, and_true]
        exact ⟨⟨str "x", by decide, by decide⟩, ⟨str "y", by decide, by decide⟩⟩
      distinct := by
        simp only [twoListings, List.pairwise_cons, List.mem_singleton, forall_eq, List.not_mem_nil,
          false_imp_iff, implies_true, List.Pairwise.nil, and_true]
        decide }
  exact ⟨(order_free identified (List.reverse_perm _).symm (.number (.double 1.0)) 200).1, by decide +kernel⟩

end Proxyshop.Er
