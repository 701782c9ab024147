import Proxyshop.Numbers.Binary64

/-!
# Monotone arithmetic

Rounding keeps the order, and with it so do the operations of double precision. An undefined number
stands in no relation, so a comparison that fails is turned round only between defined ones.
-/

namespace Proxyshop.Numbers

theorem nearest_mono {p q : ℚ} (h : p ≤ q) : nearest p ≤ nearest q := by
  have floors : ⌊p⌋ ≤ ⌊q⌋ := Int.floor_mono h
  rcases floors.lt_or_eq with below | same
  · have upper : nearest p ≤ ⌊q⌋ := by
      rcases nearest_cases p with least | next <;> omega
    exact upper.trans (le_nearest (Int.floor_le q))
  · unfold nearest
    rw [same]
    split_ifs <;> first | omega | linarith

namespace Binary64

theorem power_le_abs {q : ℚ} (nonzero : q ≠ 0) (scaled : -1074 < exponent q) : 2 ^ (exponent q + 52) ≤ |q| := by
  have log : exponent q = Int.log 2 |q| - 52 := by
    unfold exponent at scaled ⊢
    omega
  have bound : ((2 : ℕ) : ℚ) ^ Int.log 2 |q| ≤ |q| :=
    Int.zpow_log_le_self (by norm_num) (abs_pos.mpr nonzero)
  rwa [Nat.cast_ofNat, show Int.log 2 |q| = exponent q + 52 by omega] at bound

theorem abs_rounded_le (q : ℚ) : |rounded q| ≤ 2 ^ (exponent q + 53) := by
  rw [rounded, abs_mul, abs_of_pos (power_pos _), add_comm, zpow_add₀ (by norm_num)]
  apply mul_le_mul_of_nonneg_right _ (power_pos _).le
  exact_mod_cast abs_significand_le q

theorem power_le_rounded {q : ℚ} {e : ℤ} (scaled : exponent q ≤ e) (h : 2 ^ e ≤ q) :
    2 ^ e ≤ rounded q := by
  obtain ⟨k, gap⟩ := Int.le.dest scaled
  have whole : ((2 ^ k : ℤ) : ℚ) * 2 ^ exponent q = 2 ^ e := by
    rw [Int.cast_pow, Int.cast_ofNat, ← zpow_natCast, ← zpow_add₀ (by norm_num), add_comm, gap]
  rw [rounded, ← whole]
  apply mul_le_mul_of_nonneg_right _ (power_pos _).le
  rw [Int.cast_le]
  apply le_nearest
  rwa [le_div_iff₀ (power_pos _), whole]

theorem rounded_le_neg_power {q : ℚ} {e : ℤ} (scaled : exponent q ≤ e) (h : q ≤ -2 ^ e) :
    rounded q ≤ -2 ^ e := by
  obtain ⟨k, gap⟩ := Int.le.dest scaled
  have whole : ((-2 ^ k : ℤ) : ℚ) * 2 ^ exponent q = -2 ^ e := by
    rw [Int.cast_neg, Int.cast_pow, Int.cast_ofNat, neg_mul, ← zpow_natCast,
      ← zpow_add₀ (by norm_num), add_comm, gap]
  rw [rounded, ← whole]
  apply mul_le_mul_of_nonneg_right _ (power_pos _).le
  rw [Int.cast_le]
  apply nearest_le
  rwa [div_le_iff₀ (power_pos _), whole]

theorem rounded_zero : rounded 0 = 0 := by
  rw [rounded, zero_div, ← Int.cast_zero, nearest_intCast, Int.cast_zero, zero_mul]

theorem rounded_nonneg {q : ℚ} (h : 0 ≤ q) : 0 ≤ rounded q := by
  apply mul_nonneg _ (power_pos _).le
  rw [Int.cast_nonneg_iff]
  apply le_nearest
  rw [Int.cast_zero]
  exact div_nonneg h (power_pos _).le

theorem rounded_nonpos {q : ℚ} (h : q ≤ 0) : rounded q ≤ 0 := by
  apply mul_nonpos_of_nonpos_of_nonneg _ (power_pos _).le
  rw [← Int.cast_zero, Int.cast_le]
  apply nearest_le
  rw [Int.cast_zero]
  exact div_nonpos_of_nonpos_of_nonneg h (power_pos _).le

theorem rounded_mono {p q : ℚ} (h : p ≤ q) : rounded p ≤ rounded q := by
  by_cases zero : p = 0
  · rw [zero] at h ⊢
    rw [rounded_zero]
    exact rounded_nonneg h
  by_cases zero' : q = 0
  · rw [zero'] at h ⊢
    rw [rounded_zero]
    exact rounded_nonpos h
  rcases lt_trichotomy (exponent p) (exponent q) with finer | same | coarser
  · have larger := power_le_abs zero' ((le_max_right _ _ : -1074 ≤ exponent p).trans_lt finer)
    have smaller : |p| < 2 ^ (exponent q + 52) := by
      apply (abs_lt_power p).trans_le
      apply zpow_le_zpow_right₀ (by norm_num)
      omega
    have positive : 2 ^ (exponent q + 52) ≤ q := by
      rcases abs_cases q with ⟨sign, -⟩ | ⟨sign, -⟩
      · rwa [sign] at larger
      · have low := neg_abs_le p
        linarith
    calc rounded p ≤ |rounded p| := le_abs_self _
      _ ≤ 2 ^ (exponent p + 53) := abs_rounded_le p
      _ ≤ 2 ^ (exponent q + 52) := zpow_le_zpow_right₀ (by norm_num) (by omega)
      _ ≤ rounded q := power_le_rounded (by omega) positive
  · unfold rounded
    rw [same]
    apply mul_le_mul_of_nonneg_right _ (power_pos _).le
    rw [Int.cast_le]
    exact nearest_mono (div_le_div_of_nonneg_right h (power_pos _).le)
  · have larger := power_le_abs zero ((le_max_right _ _ : -1074 ≤ exponent q).trans_lt coarser)
    have smaller : |q| < 2 ^ (exponent p + 52) := by
      apply (abs_lt_power q).trans_le
      apply zpow_le_zpow_right₀ (by norm_num)
      omega
    have negative : p ≤ -2 ^ (exponent p + 52) := by
      rcases abs_cases p with ⟨sign, -⟩ | ⟨sign, -⟩
      · have high := le_abs_self q
        linarith
      · linarith
    calc rounded p ≤ -2 ^ (exponent p + 52) := rounded_le_neg_power (by omega) negative
      _ ≤ -2 ^ (exponent q + 53) := neg_le_neg (zpow_le_zpow_right₀ (by norm_num) (by omega))
      _ ≤ -|rounded q| := neg_le_neg (abs_rounded_le q)
      _ ≤ rounded q := neg_abs_le _

theorem round_mono {p q : ℚ} (h : p ≤ q) : round p ≤ round q := by
  have ordered := rounded_mono h
  unfold round
  split_ifs with small small' small'
  · exact Extended.finite_le_finite.mpr ordered
  · have positive : ¬ q < 0 := by
      intro negative
      have nonpositive := rounded_nonpos negative.le
      have low := (abs_lt.mp small).1
      exact small' (abs_lt.mpr ⟨low.trans_le ordered, nonpositive.trans_lt (by positivity)⟩)
    rw [decide_eq_false positive]
    rfl
  · have negative : p < 0 := by
      by_contra positive
      have nonnegative := rounded_nonneg (not_lt.mp positive)
      have high := (abs_lt.mp small').2
      exact small (abs_lt.mpr ⟨(neg_lt_zero.mpr (by positivity)).trans_le nonnegative,
        ordered.trans_lt high⟩)
    rw [decide_eq_true negative]
    rfl
  · by_cases negative : p < 0
    · rw [decide_eq_true negative]
      rfl
    · have positive : ¬ q < 0 := not_lt.mpr ((not_lt.mp negative).trans h)
      rw [decide_eq_false negative, decide_eq_false positive]
      rfl

theorem exponent_top : exponent (2 ^ 1024) ≤ 1024 := by
  have log : Int.log 2 |(2 : ℚ) ^ 1024| = 1024 := by
    rw [abs_of_pos (by positivity)]
    exact_mod_cast Int.log_zpow (R := ℚ) (b := 2) (by norm_num) 1024
  rw [exponent, log]
  decide

theorem abs_lt_of_isFinite {q : ℚ} (rounds : (round q).isFinite = true) : |q| < 2 ^ 1024 := by
  have inside : |rounded q| < 2 ^ 1024 := by
    unfold round at rounds
    split at rounds
    · assumption
    · cases rounds
  obtain ⟨low, high⟩ := abs_lt.mp inside
  have scaled : exponent (-2 ^ 1024) ≤ 1024 := by
    rw [exponent, abs_neg, ← exponent]
    exact exponent_top
  rw [abs_lt]
  constructor
  · by_contra! below
    have least := (rounded_mono below).trans
      (rounded_le_neg_power scaled le_rfl)
    exact absurd low (not_lt.mpr (by exact_mod_cast least))
  · by_contra! above
    have most := (power_le_rounded (q := 2 ^ 1024) (e := 1024) exponent_top le_rfl).trans (rounded_mono above)
    exact absurd high (not_lt.mpr (by exact_mod_cast most))

theorem round_ne_nan (q : ℚ) : round q ≠ .nan := by
  unfold round
  split <;> nofun

theorem round_between {q : ℚ} {x : Binary64} (low : 0 ≤ q) (high : q ≤ x.value) :
    ∃ y : Binary64, round q = .finite y ∧ 0 ≤ y.value ∧ y.value ≤ x.value := by
  have above : round q ≤ .finite x := by
    rw [← round_value x]
    exact round_mono high
  have nonnegative := rounded_nonneg low
  unfold round at above ⊢
  split_ifs at above ⊢ with small
  · exact ⟨_, rfl, nonnegative, Extended.finite_le_finite.mp above⟩
  · rw [decide_eq_false (not_lt.mpr low)] at above
    cases above

theorem literal_eq {m e : Nat} {s : Bool} (x : Binary64)
    (exact : x.value = OfScientific.ofScientific m s e) :
    (OfScientific.ofScientific m s e : Extended Binary64) = .finite x := by
  rw [← round_value x, exact]
  rfl

theorem zero_literal : ∃ x : Binary64, x.value = 0 ∧ (0.0 : Extended Binary64) = .finite x :=
  ⟨⟨0, 0, 0, by norm_num, by norm_num, by norm_num, by norm_num⟩, rfl, literal_eq _ (by norm_num)⟩

/-! ## The operations -/

theorem add_mono {a b : Extended Binary64} {y : Binary64} (h : a ≤ b) : a + .finite y ≤ b + .finite y := by
  have total (x : Binary64) : Extended.finite x + Extended.finite y = round (x.value + y.value) := rfl
  have kept (s : Bool) : Extended.infinity s + Extended.finite y = .infinity s := rfl
  cases a with
  | nan => cases h
  | finite x =>
      cases b with
      | nan => cases h
      | finite z =>
          rw [total, total]
          exact round_mono (add_le_add_left (Extended.finite_le_finite.mp h) y.value)
      | infinity t =>
          cases t with
          | true => cases h
          | false =>
              rw [total, kept]
              unfold round
              split
              · rfl
              · cases decide (x.value + y.value < 0) <;> rfl
  | infinity s =>
      cases b with
      | nan => cases h
      | finite z =>
          cases s with
          | false => cases h
          | true =>
              rw [total, kept]
              unfold round
              split <;> rfl
      | infinity t => exact h

theorem div_mono {a b : Extended Binary64} {y : Binary64} (positive : 0 < y.value) (h : a ≤ b) :
    a / .finite y ≤ b / .finite y := by
  have quotient (x : Binary64) : Extended.finite x / Extended.finite y = round (x.value / y.value) :=
    if_pos positive.ne'
  have scaled (s : Bool) : Extended.infinity s / Extended.finite y = .infinity s := by
    show Extended.infinity (s != decide (y.value < 0)) = .infinity s
    rw [decide_eq_false (not_lt.mpr positive.le), Bool.bne_false]
  cases a with
  | nan => cases h
  | finite x =>
      cases b with
      | nan => cases h
      | finite z =>
          rw [quotient, quotient]
          exact round_mono (div_le_div_of_nonneg_right (Extended.finite_le_finite.mp h) positive.le)
      | infinity t =>
          cases t with
          | true => cases h
          | false =>
              rw [quotient, scaled]
              unfold round
              split
              · rfl
              · cases decide (x.value / y.value < 0) <;> rfl
  | infinity s =>
      cases b with
      | nan => cases h
      | finite z =>
          cases s with
          | false => cases h
          | true =>
              rw [quotient, scaled]
              unfold round
              split <;> rfl
      | infinity t =>
          rw [scaled, scaled]
          exact h

theorem div_ne_nan {a : Extended Binary64} {y : Binary64} (positive : 0 < y.value) (h : a ≠ .nan) :
    a / .finite y ≠ .nan := by
  cases a with
  | nan => exact absurd rfl h
  | finite x =>
      show (if y.value ≠ 0 then round (x.value / y.value) else _) ≠ _
      rw [if_pos positive.ne']
      exact round_ne_nan _
  | infinity s => nofun

end Binary64

/-! ## Comparisons -/

namespace Extended

variable {F : Type} [Format F] {a b c : Extended F}

theorem le_self (defined : a ≠ .nan) : a ≤ a := by
  cases a with
  | finite x => exact finite_le_finite.mpr le_rfl
  | infinity s => cases s <;> rfl
  | nan => exact absurd rfl defined

theorem le_through (h : a ≤ b) (h' : b ≤ c) : a ≤ c := by
  change lessEq a b = true at h
  change lessEq b c = true at h'
  change lessEq a c = true
  cases a <;> cases b <;> cases c <;> simp_all [lessEq]
  · exact h.trans h'
  · rename_i s t u
    cases s <;> cases t <;> simp_all

theorem not_le_of_less (below : a < b) : ¬ b ≤ a := by
  intro above
  change less a b = true at below
  change lessEq b a = true at above
  cases a <;> cases b <;> simp_all [less, lessEq]
  · exact absurd below (not_lt.mpr above)

theorem le_of_not_less (left : a ≠ .nan) (right : b ≠ .nan) (h : ¬ a < b) : b ≤ a := by
  change ¬ less a b = true at h
  change lessEq b a = true
  cases a <;> cases b <;> simp_all [less, lessEq]
  · rename_i s t
    cases s <;> cases t <;> simp_all

theorem le_of_less (h : a < b) : a ≤ b := by
  change less a b = true at h
  change lessEq a b = true
  cases a <;> cases b <;> simp_all [less, lessEq]
  · exact h.le

theorem least_le_left (left : a ≠ .nan) : least a b ≤ a := by
  unfold least
  split
  · rename_i h
    exact le_of_less h
  · exact le_self left

theorem greatest_le (h : a ≤ c) (h' : b ≤ c) : greatest a b ≤ c := by
  unfold greatest
  split
  · exact h'
  · exact h

theorem not_less_nan : ¬ a < .nan := by
  intro below
  cases a <;> cases below

theorem ne_nan_of_less (below : a < b) : a ≠ .nan ∧ b ≠ .nan := by
  constructor
  · rintro rfl
    cases b <;> cases below
  · rintro rfl
    exact not_less_nan below

theorem less_of_less_of_not_less (below : a < b) (above : ¬ c < b) (defined : c ≠ .nan) :
    a < c := by
  by_contra other
  have first := le_of_not_less (ne_nan_of_less below).1 defined other
  have second := le_of_not_less defined (ne_nan_of_less below).2 above
  exact not_le_of_less below (le_through second first)

theorem less_of_le_of_less (le : a ≤ b) (below : b < c) : a < c := by
  by_contra above
  have undefined : a ≠ .nan := by
    rintro rfl
    cases b <;> cases le
  have reversed := le_of_not_less undefined (ne_nan_of_less below).2 above
  exact not_le_of_less below (le_through reversed le)

theorem greatest_ne_nan (defined : a ≠ .nan) : greatest a b ≠ .nan := by
  unfold greatest
  split
  · rename_i above
    exact (ne_nan_of_less above).2
  · exact defined

theorem le_greatest_left (defined : a ≠ .nan) : a ≤ greatest a b := by
  unfold greatest
  split
  · rename_i above
    exact le_of_less above
  · exact le_self defined

theorem le_greatest_right (left : a ≠ .nan) (right : b ≠ .nan) : b ≤ greatest a b := by
  unfold greatest
  split
  · exact le_self right
  · rename_i above
    exact le_of_not_less left right above

theorem greatest_mono (le : a ≤ c) (defined : c ≠ .nan) : greatest a b ≤ greatest c b := by
  by_cases undefined : b = .nan
  · have kept (d : Extended F) : greatest d .nan = d := if_neg not_less_nan
    rw [undefined, kept, kept]
    exact le
  · exact greatest_le (le_through le (le_greatest_left defined)) (le_greatest_right defined undefined)

end Extended
end Proxyshop.Numbers
