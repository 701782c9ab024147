import Mathlib.Data.Rat.Floor
import Mathlib.Tactic.FieldSimp
import Mathlib.Tactic.Positivity
import Proxyshop.Ledger.CanonicalLaws
import Proxyshop.Python.Calendar

/-!
# The instant of a timestamp

A text denotes an exact instant, whatever its offset, its separator and the length of its fraction. The
normal form denotes that instant truncated to milliseconds, and is read back where its year has four digits.
-/

namespace Proxyshop.Ledger

open Python

section Fractions

theorem ofDigits_snoc (ds : List Nat) (d : Nat) : Str.ofDigits (ds ++ [d]) = 10 * Str.ofDigits ds + d := by
  rw [Str.ofDigits, List.foldl_append]
  rfl

theorem ofDigits_append (ds es : List Nat) :
    Str.ofDigits (ds ++ es) = Str.ofDigits ds * 10 ^ es.length + Str.ofDigits es := by
  induction es using List.reverseRecOn with
  | nil => simp [Str.ofDigits]
  | append_singleton es e ih =>
      rw [← List.append_assoc, ofDigits_snoc, ofDigits_snoc, ih, List.length_append, List.length_singleton,
        pow_succ]
      ring

theorem ofDigits_lt {ds : List Nat} (decimal : ∀ d ∈ ds, d < 10) : Str.ofDigits ds < 10 ^ ds.length := by
  induction ds using List.reverseRecOn with
  | nil => simp [Str.ofDigits]
  | append_singleton ds d ih =>
      have front := ih fun e member => decimal e (List.mem_append_left _ member)
      have last := decimal d (by simp)
      rw [ofDigits_snoc, List.length_append, List.length_singleton, pow_succ]
      omega

def fractionValue (ds : List Nat) : ℚ := Str.ofDigits ds / 10 ^ ds.length

theorem floor_fractionValue {ds : List Nat} (decimal : ∀ d ∈ ds, d < 10) :
    ⌊fractionValue ds * 1000⌋ = (truncated ds : Int) := by
  rw [Int.floor_eq_iff]
  unfold fractionValue truncated
  have scale : (0 : ℚ) < 10 ^ ds.length := by positivity
  rw [div_mul_eq_mul_div, le_div_iff₀ scale, div_lt_iff₀ scale]
  norm_cast
  by_cases long : 3 ≤ ds.length
  · rw [List.take_append_of_le_length long]
    have split := ofDigits_append (ds.take 3) (ds.drop 3)
    have small := @ofDigits_lt (ds.drop 3) fun d member => decimal d (List.mem_of_mem_drop member)
    rw [List.take_append_drop] at split
    have width : ds.length = (ds.drop 3).length + 3 := by
      rw [List.length_drop]
      omega
    rw [width, pow_add, split]
    constructor
    · nlinarith
    · nlinarith
  · have filled : (ds ++ List.replicate 3 0).take 3 = ds ++ List.replicate (3 - ds.length) 0 := by
      rw [List.take_append, List.take_of_length_le (by omega), List.take_replicate, min_eq_left (by omega)]
    rw [filled, ofDigits_append, List.length_replicate]
    have zeros : ∀ n, Str.ofDigits (List.replicate n 0) = 0 := by
      intro n
      induction n with
      | zero => rfl
      | succ n ih => exact ih
    have widths : 10 ^ (3 - ds.length) * 10 ^ ds.length = 1000 := by
      rw [← pow_add, Nat.sub_add_cancel (by omega)]
      rfl
    rw [zeros, Nat.add_zero]
    constructor
    · rw [mul_assoc, widths]
    · rw [add_mul, mul_assoc, widths, one_mul]
      have positive : 0 < 10 ^ ds.length := by positivity
      omega

end Fractions

/-! ## What a text denotes -/

section Reading

variable [Unicode]

/-- The instant a text denotes, in seconds since the year 1 began. -/
def denoted (text : Str) : Option ℚ := do
  let s ← readSpelled text.strip
  let t ← DateTime.make? s.year s.month s.day s.hour s.minute s.second 0 (some 0)
  return (t.wall : ℚ) / 1000000 + fractionValue s.fraction - s.offset * 60

/-! ## What the normal form denotes -/

def yearThousand : ℚ := (Calendar.daysBeforeYear 1000 * 86400 : Nat)

theorem denoted_spellMoment {t : DateTime} (late : 1000 ≤ t.year) (whole : t.microsecond % 1000 = 0) :
    denoted (spellMoment t) = some ((t.wall : ℚ) / 1000000) := by
  obtain ⟨ds, count, value, read⟩ := readSpelled_spellMoment late
  obtain ⟨second, made, wall⟩ := t.make?_second
  have micro : (t.microsecond : ℚ) = (t.microsecond / 1000 : Nat) * 1000 := by
    exact_mod_cast (Nat.div_mul_cancel (Nat.dvd_of_mod_eq_zero whole)).symm
  rw [denoted, Str.strip_eq_self (solid_spellMoment t), read]
  simp only [Option.bind_eq_bind, Option.bind_some, made, wall, Option.pure_def, fractionValue, count, value,
    Option.some.injEq, Int.cast_sub, Int.cast_natCast, micro]
  push_cast
  ring

theorem rfc3339Ms_moment (decimals : ∀ c d, Unicode.decimal c = some d → d < 10) {text out : Str}
    (accepted : rfc3339Ms (.str text) = .ok out) :
    ∃ t x, out = spellMoment t ∧ t.microsecond % 1000 = 0 ∧ denoted text = some x ∧
      (t.wall : ℚ) / 1000000 = ⌊x * 1000⌋ / 1000 := by
  unfold rfc3339Ms at accepted
  dsimp only at accepted
  rw [matchRfc3339_eq] at accepted
  cases read : readSpelled text.strip with
  | none =>
      rw [read] at accepted
      cases accepted
  | some r =>
      rw [read, Option.map_some] at accepted
      dsimp only [Spelled.stamp] at accepted
      cases made : DateTime.make? r.year r.month r.day r.hour r.minute r.second (truncated r.fraction * 1000)
          (some 0) with
      | none =>
          rw [made] at accepted
          cases accepted
      | some moment =>
          rw [made] at accepted
          dsimp only at accepted
          have shifted : ∃ t, out = spellMoment t ∧
              t.wall = moment.wall - r.offset * 60 * microsPerSecond := by
            split at accepted
            · rename_i utc
              exact ⟨moment, (Except.ok.inj accepted).symm, by rw [utc]; omega⟩
            · split at accepted
              · rename_i t found
                exact ⟨t, (Except.ok.inj accepted).symm, (DateTime.wall_ofWall? found).1⟩
              · cases accepted
          obtain ⟨t, rfl, wall⟩ := shifted
          obtain ⟨rfl', month, day, hour, minute, second, micro, -⟩ := DateTime.make?_eq_some made
          obtain ⟨start, began, startWall⟩ := moment.make?_second
          rw [rfl', month, day, hour, minute, second] at began
          have startMicro := (DateTime.make?_eq_some began).2.2.2.2.2.2.1
          have mod := t.wall_mod
          have startMod := start.wall_mod
          rw [startMicro] at startMod
          rw [micro] at startWall
          refine ⟨t, (start.wall : ℚ) / 1000000 + fractionValue r.fraction - r.offset * 60, rfl, ?_, ?_, ?_⟩
          · unfold microsPerSecond at wall
            omega
          · rw [denoted, read]
            simp only [Option.bind_eq_bind, Option.bind_some, began, Option.pure_def]
          · obtain ⟨seconds, whole⟩ := Int.dvd_of_emod_eq_zero startMod
            have floor := floor_fractionValue (fraction_decimal decimals read)
            have shift : ((start.wall : ℚ) / 1000000 + fractionValue r.fraction - r.offset * 60) * 1000 =
                ((seconds - r.offset * 60) * 1000 : Int) + fractionValue r.fraction * 1000 := by
              rw [whole]
              push_cast
              ring
            rw [shift, Int.floor_intCast_add, floor]
            have equal : t.wall = ((seconds - r.offset * 60) * 1000 + (truncated r.fraction : Int)) * 1000 := by
              unfold microsPerSecond at wall
              push_cast at startWall
              omega
            rw [equal]
            push_cast
            ring

theorem late_iff {t : DateTime} {x : ℚ} (instant : (t.wall : ℚ) / 1000000 = ⌊x * 1000⌋ / 1000) :
    1000 ≤ t.year ↔ yearThousand ≤ x := by
  rw [DateTime.year_le_iff, yearThousand]
  have wall : t.wall = ⌊x * 1000⌋ * 1000 := by
    have cleared : (t.wall : ℚ) = ⌊x * 1000⌋ * 1000 := by linarith
    exact_mod_cast cleared
  rw [wall]
  unfold microsPerSecond
  have scaled : ((Calendar.daysBeforeYear 1000 * 86400 : Nat) : ℚ) ≤ x ↔
      ((Calendar.daysBeforeYear 1000 * 86400 : Nat) : Int) * 1000 ≤ ⌊x * 1000⌋ := by
    rw [Int.le_floor]
    push_cast
    constructor
    · intro h
      linarith
    · intro h
      linarith
  rw [scaled]
  omega

/-- A timestamp is normalised to the instant it denotes, truncated to milliseconds, and the normal form to
itself, exactly where that instant is in a year of four digits. -/
theorem rfc3339Ms_projection_iff (decimals : ∀ c d, Unicode.decimal c = some d → d < 10) {text out : Str}
    (accepted : rfc3339Ms (.str text) = .ok out) :
    (∃ x, denoted text = some x ∧ denoted out = some ((⌊x * 1000⌋ : ℚ) / 1000) ∧ rfc3339Ms (.str out) = .ok out) ↔
      ∃ x, denoted text = some x ∧ yearThousand ≤ x := by
  obtain ⟨t, x, rfl, whole, denotes, instant⟩ := rfc3339Ms_moment decimals accepted
  rw [denotes]
  simp only [Option.some.injEq, exists_eq_left', ← late_iff instant]
  constructor
  · rintro ⟨-, fixed⟩
    by_contra early
    rw [rfc3339Ms_early (by omega)] at fixed
    cases fixed
  · intro late
    rw [denoted_spellMoment late whole, instant]
    exact ⟨rfl, rfc3339Ms_spellMoment late⟩

end Reading

/-- A leap day, an hour ahead of midnight in the west. -/
theorem rfc3339Ms_projection_leap_day : letI := Unicode.ascii
    (∃ x, denoted "2024-02-29 23:59:59.9999-01:30" = some x ∧
      denoted "2024-03-01T01:29:59.999Z" = some ((⌊x * 1000⌋ : ℚ) / 1000) ∧
      rfc3339Ms (.str "2024-03-01T01:29:59.999Z") = .ok "2024-03-01T01:29:59.999Z") ↔
    ∃ x, denoted "2024-02-29 23:59:59.9999-01:30" = some x ∧ yearThousand ≤ x := by
  let _ := Unicode.ascii
  exact rfc3339Ms_projection_iff (fun _ _ value => by cases value) (by decide +kernel)

/-- The normal form of the last moment of the year 999 is not a timestamp. -/
theorem three_digit_year : letI := Unicode.ascii
    rfc3339Ms (.str "0999-12-31T23:59:59Z") = .ok "999-12-31T23:59:59.000Z" ∧
      rfc3339Ms (.str "999-12-31T23:59:59.000Z") = .error (.canonicalisation .timestamp) := by
  let _ := Unicode.ascii
  exact ⟨by decide, by decide⟩

end Proxyshop.Ledger
