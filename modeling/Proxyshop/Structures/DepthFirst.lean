import Mathlib.Data.List.Flatten
import Mathlib.Data.List.Forall2
import Mathlib.Data.List.Sublists
import Mathlib.Logic.Relation

/-!
# Depth-first search under a budget

A forest is searched from an explicit stack. A node whose children the search cannot afford is cut:
it is visited, and nothing below it is.
-/

namespace Proxyshop.Structures

structure Forest (V : Type) where
  children : V → List V
  size : V → Nat
  smaller : ∀ v, ∀ c ∈ children v, size c < size v

namespace Forest

variable {V W : Type} (forest : Forest V)

/-- Parents come before their children, and the children in their order. -/
def preorder (v : V) : List V :=
  v :: (forest.children v).attach.flatMap fun c => preorder c.1
termination_by forest.size v
decreasing_by exact forest.smaller v c.1 c.2

theorem preorder_eq (v : V) :
    forest.preorder v = v :: (forest.children v).flatMap forest.preorder := by
  rw [preorder]
  congr 1
  rw [← List.attach_map_subtype_val (forest.children v), List.flatMap_map]
  simp

def Below : V → V → Prop := Relation.ReflTransGen fun v c => c ∈ forest.children v

theorem mem_preorder_iff {v u : V} : u ∈ forest.preorder v ↔ forest.Below v u := by
  constructor
  · intro member
    induction bound : forest.size v using Nat.strong_induction_on generalizing v with
    | _ n ih =>
      rw [preorder_eq, List.mem_cons] at member
      rcases member with rfl | deeper
      · exact .refl
      · obtain ⟨c, child, inside⟩ := List.mem_flatMap.mp deeper
        exact .head child (ih _ (bound ▸ forest.smaller v c child) inside rfl)
  · intro below
    induction below using Relation.ReflTransGen.head_induction_on with
    | refl =>
        rw [preorder_eq]
        exact List.mem_cons_self
    | head child _ ih =>
        rw [preorder_eq]
        exact List.mem_cons_of_mem _ (List.mem_flatMap.mpr ⟨_, child, ih⟩)

section Search

variable (opens : V → Nat → Prop) [∀ v budget, Decidable (opens v budget)]

/-- The nodes taken off the stack, each with whether the search went on below it. -/
def visits : Nat → List V → Nat → List (V × Bool)
  | 0, _, _ => []
  | _+1, [], _ => []
  | n+1, v :: stack, budget =>
      if (forest.children v).isEmpty then (v, true) :: visits n stack budget
      else if opens v budget then
        (v, true) :: visits n (forest.children v ++ stack) (budget - (forest.children v).length)
      else (v, false) :: visits n stack budget

def preorders (stack : List V) : List V := stack.flatMap forest.preorder

variable {forest opens}

theorem visits_leaf {v : V} (leaf : forest.children v = []) (n : Nat) (stack : List V)
    (budget : Nat) :
    forest.visits opens (n + 1) (v :: stack) budget =
      (v, true) :: forest.visits opens n stack budget := by
  rw [visits, if_pos (List.isEmpty_iff.mpr leaf)]

theorem visits_open {v : V} {budget : Nat} (inner : forest.children v ≠ []) (opened : opens v budget)
    (n : Nat) (stack : List V) : forest.visits opens (n + 1) (v :: stack) budget =
      (v, true) :: forest.visits opens n (forest.children v ++ stack)
        (budget - (forest.children v).length) := by
  rw [visits, if_neg fun none => inner (List.isEmpty_iff.mp none), if_pos opened]

theorem visits_cut {v : V} {budget : Nat} (inner : forest.children v ≠ []) (shut : ¬ opens v budget)
    (n : Nat) (stack : List V) : forest.visits opens (n + 1) (v :: stack) budget =
      (v, false) :: forest.visits opens n stack budget := by
  rw [visits, if_neg fun none => inner (List.isEmpty_iff.mp none), if_neg shut]

theorem preorders_cons (v : V) (stack : List V) : forest.preorders (v :: stack) =
    v :: forest.preorders (forest.children v ++ stack) := by
  rw [preorders, List.flatMap_cons, preorder_eq, preorders, List.flatMap_append, List.cons_append]

theorem preorders_skip (v : V) (stack : List V) :
    (forest.preorders stack).Sublist (forest.preorders (forest.children v ++ stack)) := by
  rw [preorders, preorders, List.flatMap_append]
  exact List.sublist_append_right _ _

theorem preorders_leaf {v : V} (leaf : (forest.children v).isEmpty = true) (stack : List V) :
    forest.preorders (v :: stack) = v :: forest.preorders stack := by
  rw [preorders_cons, List.isEmpty_iff.mp leaf, List.nil_append]

theorem visits_sublist (n : Nat) (stack : List V) (budget : Nat) :
    ((forest.visits opens n stack budget).map Prod.fst).Sublist (forest.preorders stack) := by
  induction n generalizing stack budget with
  | zero => exact List.nil_sublist _
  | succ n ih =>
      cases stack with
      | nil => exact List.nil_sublist _
      | cons v stack =>
          rw [preorders_cons]
          unfold visits
          split
          · exact ((ih stack budget).trans (preorders_skip v stack)).cons_cons v
          · split
            · exact (ih _ _).cons_cons v
            · exact ((ih stack budget).trans (preorders_skip v stack)).cons_cons v

theorem visits_complete (affordable : ∀ v budget, opens v budget → (forest.children v).length ≤ budget)
    {n : Nat} {stack : List V} {budget : Nat} (fuel : stack.length + budget ≤ n)
    (uncut : ∀ e ∈ forest.visits opens n stack budget, e.2 = true) :
    (forest.visits opens n stack budget).map Prod.fst = forest.preorders stack := by
  induction n generalizing stack budget with
  | zero =>
      have none : stack = [] := List.length_eq_zero_iff.mp (by omega)
      rw [none]
      rfl
  | succ n ih =>
      cases stack with
      | nil => rfl
      | cons v stack =>
          rw [List.length_cons] at fuel
          unfold visits at uncut ⊢
          split at uncut
          · rename_i leaf
            rw [if_pos leaf, List.map_cons, preorders_leaf leaf,
              ih (by omega) fun e he => uncut e (List.mem_cons_of_mem _ he)]
          · rename_i inner
            rw [if_neg inner]
            split at uncut
            · rename_i opened
              have paid := affordable v budget opened
              have enough : (forest.children v ++ stack).length +
                  (budget - (forest.children v).length) ≤ n := by
                rw [List.length_append]
                omega
              rw [if_pos opened, List.map_cons, preorders_cons,
                ih enough fun e he => uncut e (List.mem_cons_of_mem _ he)]
            · exact absurd (uncut (v, false) List.mem_cons_self) (by simp)

theorem inner_of_cut {n : Nat} {stack : List V} {budget : Nat} {v : V}
    (cut : (v, false) ∈ forest.visits opens n stack budget) : forest.children v ≠ [] := by
  induction n generalizing stack budget with
  | zero => cases cut
  | succ n ih =>
      cases stack with
      | nil => cases cut
      | cons u stack =>
          unfold visits at cut
          split at cut
          · rcases List.mem_cons.mp cut with same | later
            · cases same
            · exact ih later
          · rename_i inner
            split at cut
            · rcases List.mem_cons.mp cut with same | later
              · cases same
              · exact ih later
            · rcases List.mem_cons.mp cut with same | later
              · cases same
                exact fun none => inner (List.isEmpty_iff.mpr none)
              · exact ih later

variable (forest opens) in
def opened (n : Nat) (stack : List V) (budget : Nat) : List V :=
  ((forest.visits opens n stack budget).filter fun e => e.2 && !(forest.children e.1).isEmpty).map
    Prod.fst

variable (forest) in
def inner (stack : List V) : List V :=
  (forest.preorders stack).filter fun v => !(forest.children v).isEmpty

theorem opened_eq_filter {n : Nat} {stack : List V} {budget : Nat}
    (uncut : ∀ e ∈ forest.visits opens n stack budget, e.2 = true) :
    forest.opened opens n stack budget = ((forest.visits opens n stack budget).map Prod.fst).filter
      fun v => !(forest.children v).isEmpty := by
  rw [List.filter_map, opened]
  congr 1
  apply List.filter_congr
  intro e member
  rw [uncut e member, Bool.true_and]
  rfl

theorem opened_eq_inner_iff
    (affordable : ∀ v budget, opens v budget → (forest.children v).length ≤ budget)
    {n : Nat} {stack : List V} {budget : Nat} (fuel : stack.length + budget ≤ n) :
    forest.opened opens n stack budget = forest.inner stack ↔
      ∀ e ∈ forest.visits opens n stack budget, e.2 = true := by
  constructor
  · intro all
    by_contra cut
    push Not at cut
    obtain ⟨⟨v, through⟩, member, off⟩ := cut
    rw [ne_eq, Bool.not_eq_true] at off
    subst off
    have inner := inner_of_cut member
    have fewer : (forest.opened opens n stack budget).length <
        (((forest.visits opens n stack budget).map Prod.fst).filter
          fun v => !(forest.children v).isEmpty).length := by
      rw [opened, List.length_map, List.filter_map, List.length_map, ← List.filter_filter]
      apply List.length_filter_lt_length_iff_exists.mpr
      refine ⟨(v, false), List.mem_filter.mpr ⟨member, ?_⟩, Bool.false_ne_true⟩
      simpa using inner
    have met : ((forest.visits opens n stack budget).map Prod.fst).Sublist (forest.preorders stack) :=
      visits_sublist n stack budget
    have visited := (met.filter fun v => !(forest.children v).isEmpty).length_le
    rw [all] at fewer
    exact absurd (fewer.trans_le visited) (lt_irrefl _)
  · intro uncut
    rw [opened_eq_filter uncut, visits_complete affordable fuel uncut, inner]

end Search

section Related

variable {forest : Forest V} {forest' : Forest W} {R : V → W → Prop} {opens : V → Nat → Prop}
  [∀ v budget, Decidable (opens v budget)] {opens' : W → Nat → Prop}
  [∀ w budget, Decidable (opens' w budget)]

theorem visits_related
    (children : ∀ v w, R v w → List.Forall₂ R (forest.children v) (forest'.children w))
    (agree : ∀ v w, R v w → ∀ budget, opens v budget ↔ opens' w budget)
    (n : Nat) {stack : List V} {stack' : List W} (related : List.Forall₂ R stack stack')
    (budget : Nat) :
    List.Forall₂ (fun e e' => R e.1 e'.1 ∧ e.2 = e'.2) (forest.visits opens n stack budget)
      (forest'.visits opens' n stack' budget) := by
  induction n generalizing stack stack' budget with
  | zero => exact .nil
  | succ n ih =>
      cases related with
      | nil => exact .nil
      | @cons v w stack stack' same rest =>
          have below := children v w same
          have lengths := below.length_eq
          have leaves : (forest.children v).isEmpty = (forest'.children w).isEmpty := by
            rw [Bool.eq_iff_iff, List.isEmpty_iff_length_eq_zero, List.isEmpty_iff_length_eq_zero,
              lengths]
          unfold visits
          rw [leaves, lengths]
          split
          · exact .cons ⟨same, rfl⟩ (ih rest budget)
          · by_cases opened : opens v budget
            · rw [if_pos opened, if_pos ((agree v w same budget).mp opened)]
              exact .cons ⟨same, rfl⟩ (ih (List.rel_append below rest) _)
            · rw [if_neg opened, if_neg fun h => opened ((agree v w same budget).mpr h)]
              exact .cons ⟨same, rfl⟩ (ih rest budget)

end Related

end Forest
end Proxyshop.Structures
