import Mathlib.Data.Rat.Lemmas
import Mathlib.Data.NNRat.Defs
import Mathlib.Algebra.Order.Ring.Rat
import Mathlib.Tactic.NormNum

/-!
# Rounded arithmetic

A number format is a set of rationals with a rounding into it. The arithmetic of the format rounds
the exact result of an operation; beside the numbers stand the two infinities and the undefined
result. A zero has no sign here: nothing computed below can tell one zero from the other.
-/

namespace Proxyshop.Numbers

inductive Extended (F : Type)
  | finite (x : F)
  | infinity (negative : Bool)
  | nan
  deriving DecidableEq

class Format (F : Type) where
  value : F → ℚ
  value_injective : Function.Injective value
  round : ℚ → Extended F
  round_value (x : F) : round (value x) = .finite x

open Format

namespace Extended

variable {F : Type}

def isFinite : Extended F → Bool
  | .finite _ => true
  | _ => false

theorem isFinite_iff {n : Extended F} : n.isFinite = true ↔ ∃ x, n = .finite x := by
  cases n <;> simp [isFinite]

section Arithmetic

variable [Format F]

instance : OfScientific (Extended F) where
  ofScientific m s e := round (OfScientific.ofScientific m s e)

def add : Extended F → Extended F → Extended F
  | .finite x, .finite y => round (value x + value y)
  | .infinity s, .infinity t => if s = t then .infinity s else .nan
  | .infinity s, .finite _ => .infinity s
  | .finite _, .infinity t => .infinity t
  | _, _ => .nan

def sub : Extended F → Extended F → Extended F
  | .finite x, .finite y => round (value x - value y)
  | .infinity s, .infinity t => if s = t then .nan else .infinity s
  | .infinity s, .finite _ => .infinity s
  | .finite _, .infinity t => .infinity (!t)
  | _, _ => .nan

def mul : Extended F → Extended F → Extended F
  | .finite x, .finite y => round (value x * value y)
  | .infinity s, .infinity t => .infinity (s != t)
  | .infinity s, .finite x | .finite x, .infinity s =>
      if value x = 0 then .nan else .infinity (s != decide (value x < 0))
  | _, _ => .nan

def div : Extended F → Extended F → Extended F
  | .finite x, .finite y =>
      if value y ≠ 0 then round (value x / value y)
      else if value x = 0 then .nan
      else .infinity (decide (value x < 0))
  | .infinity s, .finite y => .infinity (s != decide (value y < 0))
  | .finite _, .infinity _ => round 0
  | _, _ => .nan

instance : Add (Extended F) := ⟨add⟩
instance : Sub (Extended F) := ⟨sub⟩
instance : Mul (Extended F) := ⟨mul⟩
instance : Div (Extended F) := ⟨div⟩

def less : Extended F → Extended F → Bool
  | .finite x, .finite y => value x < value y
  | .finite _, .infinity t => !t
  | .infinity s, .finite _ => s
  | .infinity s, .infinity t => s && !t
  | _, _ => false

instance : LT (Extended F) := ⟨fun a b => less a b = true⟩

instance : DecidableLT (Extended F) := fun a b => inferInstanceAs (Decidable (less a b = true))

def lessEq : Extended F → Extended F → Bool
  | .finite x, .finite y => value x ≤ value y
  | .finite _, .infinity t => !t
  | .infinity s, .finite _ => s
  | .infinity s, .infinity t => s || !t
  | _, _ => false

instance : LE (Extended F) := ⟨fun a b => lessEq a b = true⟩

instance : DecidableLE (Extended F) := fun a b => inferInstanceAs (Decidable (lessEq a b = true))

/-- `min(a, b)` of two numbers. -/
def least (a b : Extended F) : Extended F := if b < a then b else a

/-- `max(a, b)` of two numbers. -/
def greatest (a b : Extended F) : Extended F := if a < b then b else a

def magnitude (a : Extended F) : Extended F := if a < 0.0 then 0.0 - a else a

theorem finite_lt_finite {x y : F} :
    (Extended.finite x < Extended.finite y) ↔ value x < value y := decide_eq_true_iff

theorem finite_le_finite {x y : F} :
    (Extended.finite x ≤ Extended.finite y) ↔ value x ≤ value y := decide_eq_true_iff

end Arithmetic

/-! ## Exact arithmetic -/

instance exact : Format ℚ where
  value x := x
  value_injective := Function.injective_id
  round := .finite
  round_value _ := rfl

section Exact

variable (x y : ℚ)

@[simp] theorem exact_add : Extended.finite x + .finite y = .finite (x + y) := rfl

@[simp] theorem exact_sub : Extended.finite x - .finite y = .finite (x - y) := rfl

@[simp] theorem exact_mul : Extended.finite x * .finite y = .finite (x * y) := rfl

@[simp] theorem exact_div (h : y ≠ 0) : Extended.finite x / .finite y = .finite (x / y) := if_pos h

theorem exact_ofScientific (m : Nat) (s : Bool) (e : Nat) :
    (OfScientific.ofScientific m s e : Extended ℚ) = .finite (OfScientific.ofScientific m s e) := rfl

@[simp] theorem exact_lt : Extended.finite x < .finite y ↔ x < y := finite_lt_finite

@[simp] theorem exact_le : Extended.finite x ≤ .finite y ↔ x ≤ y := finite_le_finite

@[simp] theorem exact_least : least (.finite x) (.finite y) = .finite (min x y) := by
  simp only [least, exact_lt]
  split <;> rename_i h
  · rw [min_eq_right h.le]
  · rw [min_eq_left (not_lt.mp h)]

@[simp] theorem exact_greatest : greatest (.finite x) (.finite y) = .finite (max x y) := by
  simp only [greatest, exact_lt]
  split <;> rename_i h
  · rw [max_eq_right h.le]
  · rw [max_eq_left (not_lt.mp h)]

@[simp] theorem exact_magnitude : magnitude (.finite x) = .finite |x| := by
  have zero : (0.0 : ℚ) = 0 := by norm_num
  simp only [magnitude, exact_ofScientific, exact_lt, exact_sub, zero, zero_sub]
  split <;> rename_i h
  · rw [abs_of_neg h]
  · rw [abs_of_nonneg (not_lt.mp h)]

end Exact

end Extended
end Proxyshop.Numbers
