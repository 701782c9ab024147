import Mathlib.RingTheory.Coprime.Lemmas
import Mathlib.Tactic.Ring
import Proxyshop.Numbers.Literal
import Proxyshop.Numbers.Monotone

/-!
# Whole numbers in double precision

A whole number is rounded to a whole number, and is met exactly just when its odd part fits the
significand; so a multiple is met only where the number itself is.
-/

namespace Proxyshop.Numbers

theorem truncate_intCast (n : ℤ) : truncate n = n := by
  unfold truncate
  split <;> simp

namespace Binary64

theorem representable_of_small {n : ℤ} (small : |n| ≤ 2 ^ 53) : Representable n := by
  refine ⟨n, 0, small, by norm_num, by simp, ?_⟩
  have bound : |(n : ℚ)| ≤ 2 ^ 53 := by exact_mod_cast small
  exact bound.trans_lt (pow_lt_pow_right₀ (by norm_num) (by norm_num))

theorem rounded_whole (n : ℤ) : ∃ m : ℤ, rounded n = m := by
  by_cases fine : exponent n ≤ 0
  · refine ⟨n, rounded_of_representable (representable_of_small ?_)⟩
    have below := (abs_lt_power n).le.trans (zpow_le_zpow_right₀ (by norm_num) (by omega : exponent n + 53 ≤ 53))
    exact_mod_cast below
  · obtain ⟨k, scale⟩ := Int.eq_ofNat_of_zero_le (not_le.mp fine).le
    refine ⟨nearest (n / 2 ^ exponent n) * 2 ^ k, ?_⟩
    rw [rounded, scale, zpow_natCast]
    push_cast
    rfl

theorem value_of_round {q : ℚ} {x : Binary64} (h : round q = .finite x) : x.value = rounded q := by
  unfold round at h
  split at h
  · cases h
    rfl
  · cases h

theorem representable_of_mul {a o n : ℕ} (odd : o % 2 = 1) (h : Representable ((2 ^ a * o * n : ℕ) : ℚ)) :
    Representable (n : ℚ) := by
  obtain ⟨m, e, small, low, spelled, bound⟩ := h
  have positive : 0 < o := by omega
  have within : |(n : ℚ)| < 2 ^ 1024 := by
    apply lt_of_le_of_lt _ bound
    rw [Nat.abs_cast, Nat.abs_cast]
    exact_mod_cast Nat.le_mul_of_pos_left n (by positivity)
  rcases Int.le_total e a with fine | coarse
  · obtain ⟨k, gap⟩ := Int.le.dest fine
    have whole : m = 2 ^ k * (o * n : ℕ) := by
      have scaled : (m : ℚ) = 2 ^ k * (o * n : ℕ) := by
        have power : (2 : ℚ) ^ (a : ℤ) = 2 ^ e * 2 ^ k := by
          rw [← gap, zpow_add₀ (by norm_num), zpow_natCast]
        have spread : ((2 ^ a * o * n : ℕ) : ℚ) = 2 ^ e * (2 ^ k * (o * n : ℕ)) := by
          rw [← mul_assoc, ← power, zpow_natCast]
          push_cast
          ring
        rw [spread, mul_comm] at spelled
        exact (mul_right_cancel₀ (power_pos e).ne' spelled).symm
      exact_mod_cast scaled
    have bounded : (n : ℤ) ≤ |m| := by
      rw [whole, abs_of_nonneg (by positivity)]
      have : n ≤ 2 ^ k * (o * n) := by
        calc n ≤ o * n := Nat.le_mul_of_pos_left n positive
          _ ≤ 2 ^ k * (o * n) := Nat.le_mul_of_pos_left _ (by positivity)
      exact_mod_cast this
    have small' : |(n : ℤ)| ≤ 2 ^ 53 := by
      rw [Nat.abs_cast]
      exact bounded.trans small
    exact_mod_cast representable_of_small small'
  · obtain ⟨k, gap⟩ := Int.le.dest coarse
    have whole : ((o * n : ℕ) : ℤ) = m * 2 ^ k := by
      have scaled : ((o * n : ℕ) : ℚ) = m * 2 ^ k := by
        have spread : ((2 ^ a * o * n : ℕ) : ℚ) = 2 ^ a * (o * n : ℕ) := by
          push_cast
          ring
        rw [spread, ← gap, zpow_add₀ (by norm_num), zpow_natCast, zpow_natCast] at spelled
        have shifted : (2 : ℚ) ^ a * (o * n : ℕ) = 2 ^ a * (m * 2 ^ k) := by
          rw [spelled]
          ring
        exact mul_left_cancel₀ (by positivity) shifted
      exact_mod_cast scaled
    have coprime : IsCoprime (o : ℤ) (2 ^ k) := by
      apply IsCoprime.pow_right
      rw [Int.isCoprime_iff_gcd_eq_one]
      exact (Nat.coprime_two_right.mpr (Nat.odd_iff.mpr odd))
    obtain ⟨m', rfl⟩ : (o : ℤ) ∣ m := coprime.dvd_of_dvd_mul_right ⟨n, by rw [← whole]; push_cast; rfl⟩
    have spelled' : (n : ℤ) = m' * 2 ^ k := by
      have cancelled : (o : ℤ) * n = o * (m' * 2 ^ k) := by
        rw [← mul_assoc, ← whole]
        push_cast
        rfl
      exact mul_left_cancel₀ (by exact_mod_cast positive.ne') cancelled
    refine ⟨m', k, ?_, by omega, by exact_mod_cast spelled', within⟩
    rw [abs_mul, Nat.abs_cast] at small
    have larger : |m'| ≤ o * |m'| := le_mul_of_one_le_left (abs_nonneg m') (by exact_mod_cast positive)
    exact larger.trans small

theorem round_whole_iff (n : ℤ) :
    (∃ y, round n = .finite y ∧ truncate y.value = n) ↔ Representable n := by
  constructor
  · rintro ⟨y, rounds, met⟩
    obtain ⟨m, whole⟩ := rounded_whole n
    rw [← value_of_round rounds] at whole
    rw [whole, truncate_intCast] at met
    exact met ▸ whole ▸ y.representable
  · intro h
    exact ⟨⟨n, h⟩, round_value ⟨n, h⟩, truncate_intCast n⟩

theorem round_mul_iff {a o n : ℕ} (odd : o % 2 = 1) {scale : Binary64}
    (scaled : scale.value = (2 ^ a * o : ℕ)) :
    (∃ y, (round n : Extended Binary64) * .finite scale = .finite y ∧
      truncate y.value = ((2 ^ a * o * n : ℕ) : ℤ)) ↔ Representable ((2 ^ a * o * n : ℕ) : ℚ) := by
  have product : ∀ (x : Binary64) {m : ℤ}, x.value = m →
      (Extended.finite x * .finite scale : Extended Binary64) = round ((m * (2 ^ a * o : ℕ) : ℤ) : ℚ) := by
    intro x m value
    have spread : x.value * scale.value = ((m * (2 ^ a * o : ℕ) : ℤ) : ℚ) := by
      rw [value, scaled, Int.cast_mul, Int.cast_natCast]
    exact congrArg round spread
  constructor
  · rintro ⟨y, computed, met⟩
    cases rounds : (round n : Extended Binary64) with
    | nan =>
        rw [rounds] at computed
        cases computed
    | infinity negative =>
        rw [rounds] at computed
        change (if _ then _ else _) = _ at computed
        split at computed <;> cases computed
    | finite x =>
        obtain ⟨m, whole⟩ := rounded_whole n
        rw [Int.cast_natCast, ← value_of_round rounds] at whole
        rw [rounds, product x whole] at computed
        obtain ⟨k, whole'⟩ := rounded_whole (m * (2 ^ a * o : ℕ))
        rw [← value_of_round computed] at whole'
        rw [whole', truncate_intCast] at met
        rw [met, Int.cast_natCast] at whole'
        exact whole' ▸ y.representable
  · intro h
    have base : Representable (n : ℚ) := representable_of_mul odd h
    have first : (round n : Extended Binary64) = .finite ⟨n, base⟩ := round_value ⟨n, base⟩
    have spread : ((((n : ℕ) : ℤ) * (2 ^ a * o : ℕ) : ℤ) : ℚ) = ((2 ^ a * o * n : ℕ) : ℚ) := by
      push_cast
      ring
    refine ⟨⟨_, h⟩, ?_, ?_⟩
    · rw [first, product ⟨n, base⟩ (Int.cast_natCast n).symm, spread]
      exact round_value ⟨_, h⟩
    · exact truncate_intCast ((2 ^ a * o * n : ℕ) : ℤ)

end Binary64
end Proxyshop.Numbers
