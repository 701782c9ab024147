import Mathlib.Data.List.Basic

/-!
# Three-valued truth

The truth of a predicate over values that may be null: what is neither true nor false is unknown.
-/

namespace Proxyshop.Structures

abbrev Truth := Option Bool

namespace Truth

variable {A : Type}

def and : Truth → Truth → Truth
  | some false, _ => some false
  | _, some false => some false
  | some true, some true => some true
  | _, _ => none

def or : Truth → Truth → Truth
  | some true, _ => some true
  | _, some true => some true
  | some false, some false => some false
  | _, _ => none

def any (f : A → Truth) (l : List A) : Truth := l.foldr (fun x truth => or (f x) truth) (some false)

def all (f : A → Truth) (l : List A) : Truth := l.foldr (fun x truth => and (f x) truth) (some true)

@[simp] theorem and_holds (s t : Truth) : and s t = some true ↔ s = some true ∧ t = some true := by
  rcases s with _ | _ | _ <;> rcases t with _ | _ | _ <;> simp [and]

@[simp] theorem or_holds (s t : Truth) : or s t = some true ↔ s = some true ∨ t = some true := by
  rcases s with _ | _ | _ <;> rcases t with _ | _ | _ <;> simp [or]

@[simp] theorem any_holds (f : A → Truth) (l : List A) :
    any f l = some true ↔ ∃ x ∈ l, f x = some true := by
  induction l with
  | nil => simp [any]
  | cons x l ih =>
      have step : any f (x :: l) = or (f x) (any f l) := rfl
      simp [step, ih]

@[simp] theorem all_holds (f : A → Truth) (l : List A) :
    all f l = some true ↔ ∀ x ∈ l, f x = some true := by
  induction l with
  | nil => simp [all]
  | cons x l ih =>
      have step : all f (x :: l) = and (f x) (all f l) := rfl
      simp [step, ih]

end Truth
end Proxyshop.Structures
