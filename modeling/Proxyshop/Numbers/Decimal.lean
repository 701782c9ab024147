import Mathlib.Data.Nat.Prime.Basic
import Proxyshop.Numbers.Binary64

/-!
# Shortest decimals

The decimal by which a double is printed: the fewest significant digits that round back to it and,
among those, the closest.
-/

namespace Proxyshop.Numbers

namespace Binary64

/-- `d * 10 ^ p` is read back as `x`. -/
def Spells (x : Binary64) (d : ℕ) (p : ℤ) : Prop := round (d * 10 ^ p) = .finite x

instance (x : Binary64) (d : ℕ) (p : ℤ) : Decidable (Spells x d p) :=
  inferInstanceAs (Decidable (_ = _))

def candidate (x : Binary64) (length : ℕ) : Option (ℕ × ℤ) :=
  let p := Int.log 10 x.value + 1 - length
  let low := ⌊x.value / 10 ^ p⌋.toNat
  if Spells x low p ∧ (2 * (x.value / 10 ^ p - low) ≤ 1 ∨ ¬ Spells x (low + 1) p) then some (low, p)
  else if Spells x (low + 1) p then some (low + 1, p)
  else none

/-- All the digits of `x`; its denominator is a power of two. -/
def expansion (x : Binary64) : ℕ × ℤ :=
  (x.value.num.toNat * 5 ^ x.value.den.log2, -(x.value.den.log2 : ℤ))

/-- Seventeen digits always do; the expansion only makes the function total. -/
def shortest (x : Binary64) : ℕ × ℤ :=
  ((List.range 17).findSome? fun k => candidate x (k + 1)).getD (expansion x)

theorem spells_candidate {x : Binary64} {length d : ℕ} {p : ℤ}
    (h : candidate x length = some (d, p)) : Spells x d p := by
  simp only [candidate] at h
  split at h
  · rename_i low
    cases h
    exact low.1
  · split at h
    · rename_i high
      cases h
      exact_mod_cast high
    · cases h

theorem den_eq_two_pow (x : Binary64) : x.value.den = 2 ^ x.value.den.log2 := by
  obtain ⟨m, e, -, -, spelled, -⟩ := x.representable
  have divides : x.value.den ∣ 2 ^ (-e).toNat := by
    rw [spelled]
    rcases Int.le_total 0 e with whole | part
    · obtain ⟨k, rfl⟩ := Int.eq_ofNat_of_zero_le whole
      have integer : (m : ℚ) * 2 ^ (k : ℤ) = ((m * 2 ^ k : ℤ) : ℚ) := by
        rw [zpow_natCast, Int.cast_mul, Int.cast_pow, Int.cast_ofNat]
      rw [integer, Rat.den_intCast]
      exact one_dvd _
    · obtain ⟨k, rfl⟩ := Int.exists_eq_neg_ofNat part
      rw [zpow_neg, zpow_natCast, ← div_eq_mul_inv, neg_neg, Int.toNat_natCast]
      have quotient : (m : ℚ) / 2 ^ k = Rat.divInt m ((2 ^ k : ℕ) : ℤ) := by
        rw [Rat.divInt_eq_div]
        norm_cast
      rw [quotient]
      exact_mod_cast Rat.den_dvd m ((2 ^ k : ℕ) : ℤ)
  obtain ⟨k, -, power⟩ := (Nat.dvd_prime_pow Nat.prime_two).mp divides
  rw [power, Nat.log2_two_pow]

theorem spells_expansion {x : Binary64} (positive : 0 < x.value) :
    Spells x (expansion x).1 (expansion x).2 := by
  have exact : ((expansion x).1 : ℚ) * 10 ^ (expansion x).2 = x.value := by
    have numerator : ((x.value.num.toNat : ℤ) : ℚ) = x.value.num := by
      rw [Int.toNat_of_nonneg (Rat.num_pos.mpr positive).le]
    have denominator : (x.value.den : ℚ) = 2 ^ x.value.den.log2 := by
      exact_mod_cast den_eq_two_pow x
    have ten : (10 : ℚ) = 5 * 2 := by norm_num
    calc ((expansion x).1 : ℚ) * 10 ^ (expansion x).2
        = x.value.num * 5 ^ x.value.den.log2 / (10 ^ x.value.den.log2) := by
          rw [expansion, zpow_neg, zpow_natCast, ← div_eq_mul_inv, Nat.cast_mul, Nat.cast_pow,
            ← numerator, Int.cast_natCast, Nat.cast_ofNat]
      _ = x.value.num / 2 ^ x.value.den.log2 := by
          rw [ten, mul_pow, mul_comm, mul_div_mul_left _ _ (pow_ne_zero _ (by norm_num))]
      _ = x.value := by rw [← denominator, Rat.num_div_den]
  rw [Spells, exact, round_value]

theorem spells_shortest {x : Binary64} (positive : 0 < x.value) :
    Spells x (shortest x).1 (shortest x).2 := by
  unfold shortest
  cases found : (List.range 17).findSome? fun k => candidate x (k + 1) with
  | none => exact spells_expansion positive
  | some decimal =>
      obtain ⟨k, -, here⟩ := List.exists_of_findSome?_eq_some found
      exact spells_candidate here

theorem eq_of_shortest {x y : Binary64} (hx : 0 < x.value) (hy : 0 < y.value)
    (same : ((shortest x).1 : ℚ) * 10 ^ (shortest x).2 = (shortest y).1 * 10 ^ (shortest y).2) :
    x = y := by
  have left := spells_shortest hx
  have right := spells_shortest hy
  rw [Spells, ← same, left] at right
  exact Extended.finite.inj right

end Binary64
end Proxyshop.Numbers
