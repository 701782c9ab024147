import Mathlib.Algebra.Order.Floor.Ring
import Mathlib.Data.Int.Log
import Mathlib.Data.Rat.Floor
import Mathlib.Tactic.Linarith
import Mathlib.Tactic.Positivity
import Proxyshop.Numbers.Extended

/-!
# Double precision

The numbers of the binary interchange format of 64 bits, and the rounding to nearest with a tie to
the even significand.
-/

namespace Proxyshop.Numbers

/-! ## The nearest integer -/

def nearest (q : ℚ) : ℤ :=
  if 2 * (q - ⌊q⌋) < 1 then ⌊q⌋
  else if 1 < 2 * (q - ⌊q⌋) then ⌊q⌋ + 1
  else if ⌊q⌋ % 2 = 0 then ⌊q⌋
  else ⌊q⌋ + 1

@[simp] theorem nearest_intCast (n : ℤ) : nearest n = n := by
  simp [nearest]

theorem nearest_cases (q : ℚ) : nearest q = ⌊q⌋ ∨ nearest q = ⌊q⌋ + 1 := by
  unfold nearest
  split_ifs <;> simp

theorem nearest_le {q : ℚ} {n : ℤ} (h : q ≤ n) : nearest q ≤ n := by
  rcases h.eq_or_lt with rfl | below
  · rw [nearest_intCast]
  · have floor : ⌊q⌋ < n := Int.floor_lt.mpr below
    rcases nearest_cases q with same | next <;> omega

theorem le_nearest {q : ℚ} {n : ℤ} (h : n ≤ q) : n ≤ nearest q := by
  have floor : n ≤ ⌊q⌋ := Int.le_floor.mpr h
  rcases nearest_cases q with same | next <;> omega

theorem abs_nearest_le {q : ℚ} {n : ℤ} (h : |q| ≤ n) : |nearest q| ≤ n := by
  obtain ⟨low, high⟩ := abs_le.mp h
  rw [abs_le]
  constructor
  · apply le_nearest
    rw [Int.cast_neg]
    exact low
  · exact nearest_le high

/-! ## The format -/

def Representable (q : ℚ) : Prop :=
  ∃ m e : ℤ, |m| ≤ 2 ^ 53 ∧ -1074 ≤ e ∧ q = m * 2 ^ e ∧ |q| < 2 ^ 1024

structure Binary64 where
  value : ℚ
  representable : Representable value

namespace Binary64

theorem ext {x y : Binary64} (h : x.value = y.value) : x = y := by
  cases x
  cases y
  cases h
  rfl

instance : DecidableEq Binary64 := fun x y =>
  decidable_of_iff (x.value = y.value) ⟨ext, congrArg value⟩

theorem representable_neg {q : ℚ} (h : Representable q) : Representable (-q) := by
  obtain ⟨m, e, small, low, spelled, bound⟩ := h
  refine ⟨-m, e, ?_, low, ?_, ?_⟩
  · rwa [abs_neg]
  · rw [spelled, Int.cast_neg, neg_mul]
  · rwa [abs_neg]

def neg (x : Binary64) : Binary64 := ⟨-x.value, representable_neg x.representable⟩

def exponent (q : ℚ) : ℤ := max (Int.log 2 |q| - 52) (-1074)

def rounded (q : ℚ) : ℚ := nearest (q / 2 ^ exponent q) * 2 ^ exponent q

theorem power_pos (e : ℤ) : (0 : ℚ) < 2 ^ e := zpow_pos (by norm_num) e

theorem abs_lt_power (q : ℚ) : |q| < 2 ^ (exponent q + 53) := by
  have below : |q| < ((2 : ℕ) : ℚ) ^ (Int.log 2 |q| + 1) :=
    Int.lt_zpow_succ_log_self (by norm_num) |q|
  apply below.trans_le
  rw [Nat.cast_ofNat]
  apply zpow_le_zpow_right₀ (by norm_num)
  have larger : Int.log 2 |q| - 52 ≤ exponent q := le_max_left _ _
  omega

theorem abs_significand_le (q : ℚ) : |nearest (q / 2 ^ exponent q)| ≤ 2 ^ 53 := by
  apply abs_nearest_le
  rw [abs_div, abs_of_pos (power_pos _), div_le_iff₀ (power_pos _)]
  have below := abs_lt_power q
  rw [add_comm, zpow_add₀ (by norm_num)] at below
  exact_mod_cast below.le

def round (q : ℚ) : Extended Binary64 :=
  if h : |rounded q| < 2 ^ 1024 then
    .finite ⟨rounded q, nearest (q / 2 ^ exponent q), exponent q, abs_significand_le q,
      le_max_right _ _, rfl, h⟩
  else .infinity (decide (q < 0))

theorem rounded_of_representable {q : ℚ} (h : Representable q) : rounded q = q := by
  obtain ⟨m, e, small, low, rfl, -⟩ := h
  -- the exact quotient is an integer: either the scale is finer, or `q` is the least of its binade
  have whole : ∃ n : ℤ, (m : ℚ) * 2 ^ e / 2 ^ exponent (m * 2 ^ e) = n := by
    by_cases finer : exponent ((m : ℚ) * 2 ^ e) ≤ e
    · obtain ⟨k, gap⟩ := Int.le.dest finer
      refine ⟨m * 2 ^ k, ?_⟩
      rw [div_eq_iff (power_pos _).ne', Int.cast_mul, Int.cast_pow, Int.cast_ofNat, mul_assoc,
        ← zpow_natCast, ← zpow_add₀ (by norm_num), add_comm, gap]
    · set q : ℚ := (m : ℚ) * 2 ^ e with spelled
      have log : exponent q = Int.log 2 |q| - 52 := by
        rcases max_choice (Int.log 2 |q| - 52) (-1074) with left | right
        · exact left
        · exact absurd (right.trans_le low) finer
      by_cases zero : q = 0
      · exact ⟨0, by rw [zero, zero_div, Int.cast_zero]⟩
      have least : (2 : ℚ) ^ (exponent q + 52) ≤ |q| := by
        have bound : ((2 : ℕ) : ℚ) ^ Int.log 2 |q| ≤ |q| :=
          Int.zpow_log_le_self (by norm_num) (abs_pos.mpr zero)
        rwa [Nat.cast_ofNat, show Int.log 2 |q| = exponent q + 52 by omega] at bound
      have most : |q| ≤ 2 ^ (e + 53) := by
        rw [spelled, abs_mul, abs_of_pos (power_pos e), add_comm, zpow_add₀ (by norm_num)]
        apply mul_le_mul_of_nonneg_right _ (power_pos e).le
        exact_mod_cast small
      have coarse : e + 53 ≤ exponent q + 52 := by omega
      have exact : |q| = 2 ^ (exponent q + 52) :=
        le_antisymm (most.trans (zpow_le_zpow_right₀ (by norm_num) coarse)) least
      have unit : |q / 2 ^ exponent q| = 2 ^ 52 := by
        rw [abs_div, abs_of_pos (power_pos _), exact, add_comm, zpow_add₀ (by norm_num),
          mul_div_assoc, div_self (power_pos _).ne', mul_one]
        rfl
      rcases abs_choice (q / 2 ^ exponent q) with sign | sign
      · refine ⟨2 ^ 52, ?_⟩
        rw [← sign, unit]
        norm_num
      · refine ⟨-2 ^ 52, ?_⟩
        rw [← neg_neg (q / 2 ^ exponent q), ← sign, unit]
        norm_num
  obtain ⟨n, quotient⟩ := whole
  rw [rounded, quotient, nearest_intCast, ← quotient, div_mul_cancel₀ _ (power_pos _).ne']

theorem round_value (x : Binary64) : round x.value = .finite x := by
  have same := rounded_of_representable x.representable
  obtain ⟨m, e, small, low, spelled, bound⟩ := x.representable
  rw [round, dif_pos (same.symm ▸ bound)]
  congr 1
  exact ext same

instance : Format Binary64 where
  value := value
  value_injective _ _ := ext
  round := round
  round_value := round_value

end Binary64
end Proxyshop.Numbers
