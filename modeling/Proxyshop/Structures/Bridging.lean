import Mathlib.Logic.Relation

/-!
# Weak links between groups

Keys fall into groups, some of which are marked. A code names groups and may link them, but no two
groups of one mark are ever brought together: a code that names two links nothing, and neither does
one whose links lead to two.
-/

namespace Proxyshop.Structures

open Relation

theorem eqvGen_within {α : Type} {r t : α → α → Prop} {P : α → Prop}
    (closed : ∀ a b, r a b → (P a ↔ P b)) (into : ∀ a b, P a → r a b → t a b) {a b : α}
    (related : EqvGen r a b) : (P a ↔ P b) ∧ (P a → EqvGen t a b) := by
  induction related with
  | rel a b step => exact ⟨closed a b step, fun inside => .rel _ _ (into a b inside step)⟩
  | refl a => exact ⟨Iff.rfl, fun _ => .refl _⟩
  | symm a b _ ih => exact ⟨ih.1.symm, fun inside => .symm _ _ (ih.2 (ih.1.mpr inside))⟩
  | trans a b c _ _ left right =>
      refine ⟨left.1.trans right.1, fun inside => ?_⟩
      exact .trans _ _ _ (left.2 inside) (right.2 (left.1.mp inside))

structure Bridging (K C M : Type) where
  linked : K → K → Prop
  equivalence : Equivalence linked
  marked : M → K → Prop
  names : C → K → Prop
  marked_of_linked : ∀ {m a b}, linked a b → marked m a → marked m b
  names_of_linked : ∀ {c a b}, linked a b → names c a → names c b

namespace Bridging

variable {K C M : Type} (B : Bridging K C M)

/-- Of each mark at most one group meets `P`. -/
def Single (P : K → Prop) : Prop :=
  ∀ {m a b}, P a → P b → B.marked m a → B.marked m b → B.linked a b

def Survives (c : C) : Prop := B.Single (B.names c)

def Step (a b : K) : Prop := B.linked a b ∨ ∃ c, B.Survives c ∧ B.names c a ∧ B.names c b

/-- Keys of one component of the groups and the codes that survive. -/
def Joined : K → K → Prop := EqvGen B.Step

def Sound (a : K) : Prop := B.Single (B.Joined a)

/-- Keys that share a group once the links have been applied. -/
def Merged (a b : K) : Prop := B.linked a b ∨ B.Joined a b ∧ B.Sound a

variable {B}

theorem Joined.of_linked {a b : K} (h : B.linked a b) : B.Joined a b := .rel _ _ (Or.inl h)

theorem Joined.symm {a b : K} (h : B.Joined a b) : B.Joined b a := EqvGen.symm _ _ h

theorem Joined.trans {a b c : K} (h : B.Joined a b) (h' : B.Joined b c) : B.Joined a c :=
  EqvGen.trans _ _ _ h h'

theorem Sound.of_joined {a b : K} (sound : B.Sound a) (h : B.Joined a b) : B.Sound b :=
  fun left right => sound (h.trans left) (h.trans right)

theorem Merged.joined {a b : K} (h : B.Merged a b) : B.Joined a b := by
  rcases h with linked | ⟨joined, -⟩
  · exact .of_linked linked
  · exact joined

variable (B) in
theorem merged_equivalence : Equivalence B.Merged := by
  refine ⟨fun a => Or.inl (B.equivalence.refl a), ?_, ?_⟩
  · rintro a b (linked | ⟨joined, sound⟩)
    · exact Or.inl (B.equivalence.symm linked)
    · exact Or.inr ⟨joined.symm, sound.of_joined joined⟩
  · rintro a b c (linked | ⟨joined, sound⟩) (linked' | ⟨joined', sound'⟩)
    · exact Or.inl (B.equivalence.trans linked linked')
    · have joined := Joined.of_linked linked
      exact Or.inr ⟨joined.trans joined', sound'.of_joined joined.symm⟩
    · exact Or.inr ⟨joined.trans (.of_linked linked'), sound⟩
    · exact Or.inr ⟨joined.trans joined', sound⟩

theorem single_merged (a : K) : B.Single (B.Merged a) := by
  intro m b c left right marked marked'
  rcases left with linked | ⟨joined, sound⟩
  · rcases right with linked' | ⟨joined', sound'⟩
    · exact B.equivalence.trans (B.equivalence.symm linked) linked'
    · exact sound' (.of_linked linked) joined' marked marked'
  · exact sound joined (Merged.joined right) marked marked'

theorem merged_iff {a b : K} : B.Merged a b ↔
    EqvGen (fun a b => B.linked a b ∨
      ∃ c, B.Survives c ∧ (∃ k, B.names c k ∧ B.Sound k) ∧ B.names c a ∧ B.names c b) a b := by
  constructor
  · rintro (linked | ⟨joined, sound⟩)
    · exact .rel _ _ (Or.inl linked)
    · induction joined with
      | rel a b step =>
          rcases step with linked | ⟨c, survives, left, right⟩
          · exact .rel _ _ (Or.inl linked)
          · exact .rel _ _ (Or.inr ⟨c, survives, ⟨a, left, sound⟩, left, right⟩)
      | refl a => exact .refl _
      | symm a b joined ih => exact .symm _ _ (ih (sound.of_joined (Joined.symm joined)))
      | trans a b c first _ left right => exact .trans _ _ _ (left sound) (right (sound.of_joined first))
  · intro related
    rw [← (merged_equivalence B).eqvGen_iff]
    refine related.mono ?_
    rintro a b (linked | ⟨c, survives, ⟨k, named, sound⟩, left, right⟩)
    · exact Or.inl linked
    · have joined : B.Joined k a := .rel _ _ (Or.inr ⟨c, survives, named, left⟩)
      exact Or.inr ⟨.rel _ _ (Or.inr ⟨c, survives, left, right⟩), sound.of_joined joined⟩

/-! ## Two bridgings that agree on some of the keys -/

/-- `P` is closed in both, under groups and under codes, and there they are the same. -/
structure Agree (B B' : Bridging K C M) (P : K → Prop) : Prop where
  linked : ∀ {a b}, P a → (B.linked a b ↔ B'.linked a b)
  marked : ∀ {m a}, P a → (B.marked m a ↔ B'.marked m a)
  names : ∀ {c a}, P a → (B.names c a ↔ B'.names c a)
  closed : ∀ {a b}, B.linked a b → (P a ↔ P b)
  closed' : ∀ {a b}, B'.linked a b → (P a ↔ P b)
  within : ∀ {c a b}, B.names c a → B.names c b → (P a ↔ P b)
  within' : ∀ {c a b}, B'.names c a → B'.names c b → (P a ↔ P b)

variable {B' : Bridging K C M} {P : K → Prop}

theorem Agree.symm (h : Agree B B' P) : Agree B' B P :=
  ⟨fun inside => (h.linked inside).symm, fun inside => (h.marked inside).symm,
    fun inside => (h.names inside).symm, h.closed', h.closed, h.within', h.within⟩

theorem Agree.survives (h : Agree B B' P) {c : C} {a : K} (inside : P a) (named : B.names c a)
    (survives : B.Survives c) : B'.Survives c := by
  intro m x y left right marked marked'
  have named' := (h.names inside).mp named
  have insideX := (h.within' named' left).mp inside
  have insideY := (h.within' named' right).mp inside
  apply (h.linked insideX).mp
  exact survives ((h.names insideX).mpr left) ((h.names insideY).mpr right)
    ((h.marked insideX).mpr marked) ((h.marked insideY).mpr marked')

theorem Agree.closed_step (h : Agree B B' P) {a b : K} (step : B.Step a b) : P a ↔ P b := by
  rcases step with linked | ⟨c, -, left, right⟩
  · exact h.closed linked
  · exact h.within left right

theorem Agree.step (h : Agree B B' P) {a b : K} (inside : P a) (step : B.Step a b) : B'.Step a b := by
  rcases step with linked | ⟨c, survives, left, right⟩
  · exact Or.inl ((h.linked inside).mp linked)
  · have insideB := (h.within left right).mp inside
    exact Or.inr ⟨c, h.survives inside left survives, (h.names inside).mp left,
      (h.names insideB).mp right⟩

theorem Agree.within_joined (h : Agree B B' P) {a b : K} (joined : B.Joined a b) :
    (P a ↔ P b) ∧ (P a → B'.Joined a b) :=
  eqvGen_within (r := B.Step) (fun _ _ => h.closed_step) (fun _ _ => h.step) joined

theorem Agree.joined (h : Agree B B' P) {a b : K} (inside : P a) : B.Joined a b ↔ B'.Joined a b :=
  ⟨fun joined => (h.within_joined joined).2 inside, fun joined => (h.symm.within_joined joined).2 inside⟩

theorem Agree.sound (h : Agree B B' P) {a : K} (inside : P a) (sound : B.Sound a) : B'.Sound a := by
  intro m x y left right marked marked'
  have left' := (h.joined inside).mpr left
  have right' := (h.joined inside).mpr right
  have insideX := (h.within_joined left').1.mp inside
  have insideY := (h.within_joined right').1.mp inside
  exact (h.linked insideX).mp
    (sound left' right' ((h.marked insideX).mpr marked) ((h.marked insideY).mpr marked'))

theorem Agree.merged (h : Agree B B' P) {a b : K} (inside : P a) : B.Merged a b ↔ B'.Merged a b := by
  have sound : B.Sound a ↔ B'.Sound a := ⟨h.sound inside, h.symm.sound inside⟩
  rw [Merged, Merged, h.linked inside, h.joined inside, sound]

end Bridging
end Proxyshop.Structures
