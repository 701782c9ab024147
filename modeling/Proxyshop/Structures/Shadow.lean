import Mathlib.Data.List.Infix
import Mathlib.Data.Set.Operations

/-!
# A run beside its shadow

Steps are taken from a state and from what is left of it when some of it is forgotten. Where
forgetting matters to no step that is clean, both runs answer alike as long as every step is clean.
-/

namespace Proxyshop.Structures

variable {O A σ : Type} (step : O → σ → A × σ)

def answers : List O → σ → List A
  | [], _ => []
  | op :: ops, s => (step op s).1 :: answers ops (step op s).2

def final (ops : List O) (s : σ) : σ := ops.foldl (fun s op => (step op s).2) s

@[simp] theorem final_nil (s : σ) : final step [] s = s := rfl

@[simp] theorem final_cons (op : O) (ops : List O) (s : σ) :
    final step (op :: ops) s = final step ops (step op s).2 := rfl

variable {step}

theorem final_keeps {P : σ → Prop} (keeps : ∀ op s, P s → P (step op s).2) (ops : List O) {s : σ}
    (start : P s) : P (final step ops s) := by
  induction ops generalizing s with
  | nil => exact start
  | cons op ops ih => exact ih (keeps op s start)

/-- The two runs answer alike, and what is left of the one's state is the other's. -/
def Alike (step : O → σ → A × σ) (forget : σ → σ) (ops : List O) (s : σ) : Prop :=
  answers step ops (forget s) = answers step ops s ∧ final step ops (forget s) = forget (final step ops s)

variable {forget : σ → σ} {sound : σ → Prop} {clean : O → σ → Prop}

def Shadowed (step : O → σ → A × σ) (forget : σ → σ) (sound : σ → Prop) (clean : O → σ → Prop) : Prop :=
  ∀ op s, sound s → clean op s →
    step op (forget s) = ((step op s).1, forget (step op s).2) ∧ sound (step op s).2

theorem Shadowed.alike (shadowed : Shadowed step forget sound clean) {ops : List O} {s : σ}
    (start : sound s) (steps : ∀ part op, part ++ [op] <+: ops → clean op (final step part s)) :
    Alike step forget ops s := by
  induction ops generalizing s with
  | nil => exact ⟨rfl, rfl⟩
  | cons op ops ih =>
      obtain ⟨same, next⟩ := shadowed op s start (steps [] op (by simp))
      have rest := ih next fun part op' inside => steps (op :: part) op' (by simpa using inside)
      refine ⟨?_, ?_⟩
      · simpa [answers, same] using rest.1
      · simpa [same] using rest.2

/-- The runs are alike to every point of a batch exactly when every step of it is clean, where a step
that is not clean shows. -/
theorem Shadowed.alike_iff (shadowed : Shadowed step forget sound clean)
    (shows : ∀ op s, sound s → ¬ clean op s → (step op (forget s)).2 ≠ forget (step op s).2)
    {ops : List O} {s : σ} (start : sound s) :
    (∀ part, part <+: ops → Alike step forget part s) ↔
      ∀ part op, part ++ [op] <+: ops → clean op (final step part s) := by
  constructor
  · intro alike
    induction ops generalizing s with
    | nil => simp
    | cons op ops ih =>
        have first : clean op s := by
          by_contra unclean
          exact shows op s start unclean (alike [op] (by simp)).2
        obtain ⟨same, next⟩ := shadowed op s start first
        have rest := ih next fun part inside => by
          have whole := alike (op :: part) (by simpa using inside)
          simpa [Alike, answers, same] using whole
        intro part op' inside
        cases part with
        | nil =>
            obtain ⟨rfl, -⟩ := List.cons_prefix_cons.mp inside
            exact first
        | cons head part =>
            obtain ⟨rfl, inside'⟩ := List.cons_prefix_cons.mp inside
            exact rest part op' inside'
  · intro steps part inside
    exact shadowed.alike start fun part' op inside' => steps part' op (inside'.trans inside)

end Proxyshop.Structures

/-!
## Writes that settle

A write sets a cell to a constant or folds a value into what the cell holds. A sequence of such writes
is one of them again, so a sequence that is taken twice does what it does once.
-/

namespace Proxyshop.Structures

variable {V : Type} {fold : V → V → V} {S : Set V}

/-- Folding values of the set, one after the other, folds one value of the set. -/
structure FoldLaws (fold : V → V → V) (S : Set V) : Prop where
  closed : ∀ {a b}, a ∈ S → b ∈ S → fold a b ∈ S
  assoc : ∀ x {a b}, a ∈ S → b ∈ S → fold (fold x a) b = fold x (fold a b)
  idem : ∀ {a}, a ∈ S → fold a a = a

def Settling (fold : V → V → V) (S : Set V) (f : V → V) : Prop :=
  (∃ c, f = fun _ => c) ∨ ∃ a ∈ S, f = fun x => fold x a

theorem Settling.comp (laws : FoldLaws fold S) {f g : V → V} (later : Settling fold S f)
    (earlier : Settling fold S g) : Settling fold S (f ∘ g) := by
  rcases later with ⟨c, rfl⟩ | ⟨b, member', rfl⟩
  · exact Or.inl ⟨c, rfl⟩
  · rcases earlier with ⟨c, rfl⟩ | ⟨a, member, rfl⟩
    · exact Or.inl ⟨fold c b, rfl⟩
    · right
      refine ⟨fold a b, laws.closed member member', ?_⟩
      funext x
      exact laws.assoc x member member'

theorem Settling.twice (laws : FoldLaws fold S) {f : V → V} (settling : Settling fold S f) (x : V) :
    f (f x) = f x := by
  rcases settling with ⟨c, rfl⟩ | ⟨a, member, rfl⟩
  · rfl
  · simp only [laws.assoc x member member, laws.idem member]

end Proxyshop.Structures
