import Proxyshop.Er.Candidates

/-!
# No path between two trade items

The components are kept by position while the edges are written by id. Where an id is repeated its
positions are never joined, and a path through the id can lead from one trade item to another.
-/

namespace Proxyshop.Er

open Python Numbers Contracts Verification Structures

def SameAsEdge.ids (e : SameAsEdge) : Str × Str := (e.leftId, e.rightId)

def Connected (edges : List SameAsEdge) : Str → Str → Prop :=
  Labelled.Linked (edges.map SameAsEdge.ids)

variable [Spelling Binary64] [Lettering] [Summation]

structure Names (record : Record) (id gtin : Str) : Prop where
  id : productId record = .ok id
  gtin : gtinOf record = .ok (some gtin)

def Consistent (records : List Record) (edges : List SameAsEdge) : Prop :=
  ∀ r ∈ records, ∀ s ∈ records, ∀ a b x y, Names r a x → Names s b y → a ≠ b →
    Connected edges a b → x = y

/-- The edge was scored and cleared on its own, and its lower id comes first. -/
structure Justified (records : List Record) (threshold : Value) (e : SameAsEdge) : Prop where
  linked : ∃ r ∈ records, ∃ s ∈ records, ∃ d, matching r s threshold = .ok d ∧ d.linked = true ∧
    d.pair = e.ids ∧ d.confidence = e.confidence ∧ d.method = e.method
  directed : strBelow e.leftId e.rightId = true
  proper : e.leftId ≠ e.rightId

/-- The components of the ends, by id, hold no two trade items of two ids. -/
def Separate (records : List Record) (edges : List SameAsEdge) (e : SameAsEdge) : Prop :=
  ∀ r ∈ records, ∀ s ∈ records, ∀ a b x y, Names r a x → Names s b y → a ≠ b →
    Connected edges a e.leftId → Connected edges e.rightId b → x = y

/-- Whenever a pair is joined by position, the ids it connects so far are separate. -/
def Heedful (records : List Record) : List SameAsEdge → Labelled Nat Str → List Proposal → Prop
  | _, _, [] => True
  | edges, components, p :: proposed =>
      let (joined, components) := components.join p.left p.right
      if joined then Separate records edges p.edge ∧
        Heedful records (edges ++ [p.edge]) components proposed
      else Heedful records edges components proposed

def Heeds (records : List Record) (threshold : Value) (maxBlockSize : Int) : Prop :=
  ∀ pairs dropped proposed gtins, candidatePairs records maxBlockSize = .ok (pairs, dropped) →
    proposals records threshold pairs = .ok proposed → records.mapM gtinOf = .ok gtins →
      Heedful records [] (components gtins) proposed

omit [Summation] in
theorem consistent_append {records : List Record} {edges : List SameAsEdge} {e : SameAsEdge} :
    Consistent records (edges ++ [e]) ↔ Consistent records edges ∧ Separate records edges e := by
  have step {a b : Str} : Connected (edges ++ [e]) a b ↔ Connected edges a b ∨
      (Connected edges a e.leftId ∧ Connected edges e.rightId b) ∨
        (Connected edges a e.rightId ∧ Connected edges e.leftId b) := by
    unfold Connected
    rw [List.map_append]
    exact Labelled.linked_append
  constructor
  · intro all
    constructor
    · intro r inR s inS a b x y nameR nameS differ path
      exact all r inR s inS a b x y nameR nameS differ (step.mpr (Or.inl path))
    · intro r inR s inS a b x y nameR nameS differ left right
      exact all r inR s inS a b x y nameR nameS differ (step.mpr (Or.inr (Or.inl ⟨left, right⟩)))
  · rintro ⟨all, separate⟩ r inR s inS a b x y nameR nameS differ path
    rcases step.mp path with old | ⟨left, right⟩ | ⟨left, right⟩
    · exact all r inR s inS a b x y nameR nameS differ old
    · exact separate r inR s inS a b x y nameR nameS differ left right
    · exact (separate s inS r inR b a y x nameS nameR differ.symm right.symm left.symm).symm

omit [Summation] in
theorem Consistent.mono {records : List Record} {edges more : List SameAsEdge} (within : edges ⊆ more)
    (all : Consistent records more) : Consistent records edges :=
  fun r inR s inS a b x y nameR nameS differ path =>
    all r inR s inS a b x y nameR nameS differ (Labelled.Linked.mono (List.map_subset _ within) path)

omit [Summation] in
theorem consistent_nil (records : List Record) : Consistent records [] := by
  intro r _ s _ a b x y _ _ differ path
  have alone := Labelled.tracks_start fun _ : Str => (none : Option Str)
  exact absurd ((alone.same a b).mpr path) differ

omit [Summation] in
theorem heedful_iff {records : List Record} {edges : List SameAsEdge} {s : Labelled Nat Str}
    {proposed : List Proposal} (before : Consistent records edges) :
    Consistent records (edges ++ (Labelled.sift Proposal.ends s proposed).1.map Proposal.edge) ↔
      Heedful records edges s proposed := by
  induction proposed generalizing edges s with
  | nil =>
      rw [Labelled.sift, List.map_nil, List.append_nil]
      exact iff_of_true before trivial
  | cons p proposed ih =>
      unfold Labelled.sift Heedful
      dsimp only [Proposal.ends]
      by_cases joined : (s.join p.left p.right).1 = true
      · rw [if_pos joined, if_pos joined, List.map_cons, ← List.singleton_append, ← List.append_assoc]
        by_cases separate : Separate records edges p.edge
        · rw [ih (consistent_append.mpr ⟨before, separate⟩)]
          exact (and_iff_right separate).symm
        · refine iff_of_false (fun all => separate ?_) (fun h => separate h.1)
          exact (consistent_append.mp (all.mono (List.subset_append_left _ _))).2
      · rw [if_neg joined, if_neg joined]
        exact ih before

omit [Spelling Binary64] [Lettering] [Summation] in
theorem getD_mem {records : List Record} {i : Nat} (within : i < records.length) :
    records[i]?.getD [] ∈ records := by
  rw [List.getElem?_eq_getElem within]
  exact List.getElem_mem within

theorem justified {records : List Record} {threshold : Value} {pairs : List (Nat × Nat)}
    {proposed : List Proposal} (within : ∀ pair ∈ pairs, pair.1 < pair.2 ∧ pair.2 < records.length)
    (made : proposals records threshold pairs = .ok proposed) {p : Proposal} (member : p ∈ proposed) :
    Justified records threshold p.edge := by
  obtain ⟨inside, d, decided, linked⟩ := (mem_proposals made).mp member
  obtain ⟨below, bound⟩ := within _ inside
  obtain ⟨clears, -, -, differ, same⟩ := edgeOf_eq_some.mp linked
  obtain ⟨floor, a, b, confidence, method, evidence, -, -, -, shape⟩ := matching_eq_ok decided
  have sorted : d.pair = sortedPair a b := by
    rw [shape]
    rfl
  rw [same]
  refine ⟨⟨_, getD_mem (Nat.lt_trans below bound), _, getD_mem bound, d, decided, clears, rfl, rfl, rfl⟩, ?_,
    differ⟩
  show strBelow d.pair.1 d.pair.2 = true
  rw [sorted] at differ ⊢
  rw [strBelow, Bool.not_eq_true']
  by_contra above
  exact differ (str_order.antisymm trivial trivial (sortedPair_le a b) (Bool.of_not_eq_false above))

def listing (id gtin : String) : Record :=
  [(str "product_id", .string (str id)), (str "gtin", .string (str gtin))]

def twoListings : List Record := [listing "x" "00012345678905", listing "y" "012345678905"]

/-- One id over two trade items, and another id over the first of them. -/
def repeatedId : List Record :=
  [listing "x" "00012345678905", listing "x" "4006381333931", listing "y" "012345678905"]

end Proxyshop.Er
