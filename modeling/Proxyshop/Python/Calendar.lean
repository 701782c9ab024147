import Mathlib.Data.Nat.Basic
import Proxyshop.Python.DateTime

/-!
# The calendar and its day counts

The date of a day count has that count, so a moment that is found for a wall time has that wall time.
-/

namespace Proxyshop.Python

namespace Calendar

theorem daysBeforeYear_yearOf {n : Nat} (positive : 1 ≤ n) :
    daysBeforeYear (yearOf n) < n ∧ n ≤ daysBeforeYear (yearOf n + 1) := by
  have least : n * 400 / 146097 * 146097 ≤ n * 400 := Nat.div_mul_le_self _ _
  have most : n * 400 < (n * 400 / 146097 + 1) * 146097 := by omega
  unfold yearOf
  dsimp only
  generalize n * 400 / 146097 = estimate at *
  unfold daysBeforeYear
  dsimp only
  split
  · constructor <;> omega
  · split
    · constructor <;> omega
    · constructor <;> omega

theorem length_year {year : Nat} (positive : 1 ≤ year) :
    daysBeforeYear (year + 1) = daysBeforeYear year + if isLeap year then 366 else 365 := by
  obtain ⟨before, rfl⟩ := Nat.exists_eq_add_of_le' positive
  have fourth := @Nat.succ_div before 4
  have century := @Nat.succ_div before 100
  have cycle := @Nat.succ_div before 400
  have fewer : before / 100 ≤ before / 4 := Nat.div_le_div_left (by decide) (by decide)
  have of_century : 100 ∣ before + 1 → 4 ∣ before + 1 := fun h => Nat.dvd_trans (by decide) h
  have of_cycle : 400 ∣ before + 1 → 100 ∣ before + 1 := fun h => Nat.dvd_trans (by decide) h
  have leap : isLeap (before + 1) = (decide (4 ∣ before + 1) &&
      (!decide (100 ∣ before + 1) || decide (400 ∣ before + 1))) := by
    simp [isLeap, Nat.dvd_iff_mod_eq_zero, bne, beq_eq_decide]
  rw [leap]
  unfold daysBeforeYear
  simp only [Nat.add_sub_cancel]
  rw [fourth, century, cycle]
  by_cases h4 : 4 ∣ before + 1
  · by_cases h100 : 100 ∣ before + 1
    · by_cases h400 : 400 ∣ before + 1
      · simp only [h4, h100, h400, if_true, decide_true, Bool.not_true, Bool.or_true, Bool.and_self]
        omega
      · simp only [h4, h100, h400, if_true, if_false, decide_true, decide_false, Bool.not_true, Bool.or_self,
          Bool.and_false, Bool.false_eq_true]
        omega
    · simp only [h4, h100, mt of_cycle h100, if_true, if_false, decide_true, decide_false, Bool.not_false,
        Bool.or_false, Bool.and_self]
      omega
  · simp only [h4, mt of_century h4, mt (of_century ∘ of_cycle) h4, if_false, decide_false, Bool.false_and,
      Bool.false_eq_true]
    omega

theorem months_succ {month : Nat} (positive : 1 ≤ month) :
    (List.range (month + 1)).drop 1 = (List.range month).drop 1 ++ [month] := by
  rw [List.range_succ, List.drop_append_of_le_length (by simpa using positive)]

theorem daysBeforeMonth_succ (year : Nat) {month : Nat} (positive : 1 ≤ month) :
    daysBeforeMonth year (month + 1) = daysBeforeMonth year month + daysInMonth year month := by
  unfold daysBeforeMonth
  rw [months_succ positive, List.foldl_append]
  rfl

theorem daysBeforeMonth_one (year : Nat) : daysBeforeMonth year 1 = 0 := rfl

theorem daysBeforeMonth_year (year : Nat) :
    daysBeforeMonth year 13 = if isLeap year then 366 else 365 := by
  unfold daysBeforeMonth
  have months : (List.range 13).drop 1 = [1, 2, 3, 4, 5, 6, 7, 8, 9, 10, 11, 12] := by decide
  rw [months]
  cases leap : isLeap year <;> simp [daysInMonth, leap]

theorem monthOf_spec (year dayOfYear : Nat) (positive : 1 ≤ dayOfYear)
    (inside : dayOfYear ≤ if isLeap year then 366 else 365) :
    daysBeforeMonth year (monthOf year dayOfYear) < dayOfYear ∧
      dayOfYear ≤ daysBeforeMonth year (monthOf year dayOfYear + 1) ∧
        1 ≤ monthOf year dayOfYear ∧ monthOf year dayOfYear ≤ 12 := by
  -- the last month that begins before the day, among those up to a bound
  have upTo (bound : Nat) : 1 ≤ bound →
      let month := ((List.range (bound + 1)).drop 1).foldl
        (fun month m => if daysBeforeMonth year m < dayOfYear then m else month) 1
      daysBeforeMonth year month < dayOfYear ∧ (month = bound ∨ dayOfYear ≤ daysBeforeMonth year (month + 1)) ∧
        1 ≤ month ∧ month ≤ bound := by
    intro some
    induction bound, some using Nat.le_induction with
    | base =>
        have first : (List.range 2).drop 1 = [1] := rfl
        dsimp only
        rw [first, List.foldl_cons, List.foldl_nil, ite_self]
        exact ⟨positive, Or.inl rfl, le_rfl, le_rfl⟩
    | succ bound some ih =>
        dsimp only at ih ⊢
        rw [months_succ (by omega), List.foldl_append, List.foldl_cons, List.foldl_nil]
        generalize ((List.range (bound + 1)).drop 1).foldl
          (fun month m => if daysBeforeMonth year m < dayOfYear then m else month) 1 = month at ih ⊢
        obtain ⟨begins, ends, least, most⟩ := ih
        split
        · rename_i later
          exact ⟨later, Or.inl rfl, by omega, le_rfl⟩
        · rename_i earlier
          refine ⟨begins, Or.inr ?_, least, by omega⟩
          rcases ends with rfl | ends
          · omega
          · exact ends
  obtain ⟨begins, ends, least, most⟩ := upTo 12 (by decide)
  change daysBeforeMonth year (monthOf year dayOfYear) < dayOfYear at begins
  refine ⟨begins, ?_, least, most⟩
  rcases ends with last | ends
  · change monthOf year dayOfYear = 12 at last
    rw [last, daysBeforeMonth_year]
    exact inside
  · exact ends

theorem toOrdinal_ofOrdinal {n : Nat} (positive : 1 ≤ n) :
    toOrdinal (ofOrdinal n).1 (ofOrdinal n).2.1 (ofOrdinal n).2.2 = n := by
  obtain ⟨begins, ends⟩ := daysBeforeYear_yearOf positive
  have year : 1 ≤ yearOf n := by
    by_contra early
    have zero : yearOf n = 0 := by omega
    rw [zero] at ends
    have none : daysBeforeYear (0 + 1) = 0 := rfl
    omega
  rw [length_year year] at ends
  obtain ⟨monthBegins, -⟩ := monthOf_spec (yearOf n) (n - daysBeforeYear (yearOf n))
    (by omega) (by omega)
  simp only [ofOrdinal, toOrdinal]
  omega

theorem daysBeforeYear_mono {year later : Nat} (le : year ≤ later) : daysBeforeYear year ≤ daysBeforeYear later := by
  induction later, le using Nat.le_induction with
  | base => exact le_rfl
  | succ later _ ih =>
      cases later with
      | zero => exact ih
      | succ later =>
          rw [length_year (by omega)]
          omega

theorem daysBeforeMonth_mono (year month later : Nat) (le : month ≤ later) :
    daysBeforeMonth year month ≤ daysBeforeMonth year later := by
  induction later, le using Nat.le_induction with
  | base => exact le_rfl
  | succ later _ ih =>
      cases later with
      | zero => exact ih
      | succ later =>
          rw [daysBeforeMonth_succ year (by omega)]
          omega

theorem toOrdinal_le {year month day : Nat} (some : 1 ≤ year) (inside : 1 ≤ month ∧ month ≤ 12)
    (fits : day ≤ daysInMonth year month) : toOrdinal year month day ≤ daysBeforeYear (year + 1) := by
  have whole := daysBeforeMonth_mono year (month + 1) 13 (by omega)
  rw [daysBeforeMonth_succ year inside.1, daysBeforeMonth_year] at whole
  rw [length_year some, toOrdinal]
  omega

end Calendar

namespace DateTime

theorem make?_eq_some {year month day hour minute second micro : Nat} {offset : Option Int} {t : DateTime}
    (made : make? year month day hour minute second micro offset = some t) :
    t.year = year ∧ t.month = month ∧ t.day = day ∧ t.hour = hour ∧ t.minute = minute ∧ t.second = second ∧
      t.microsecond = micro ∧ t.offset = offset := by
  unfold make? at made
  split at made
  · obtain rfl := Option.some.inj made
    exact ⟨rfl, rfl, rfl, rfl, rfl, rfl, rfl, rfl⟩
  · cases made

theorem wall_sub_wall (t t' : DateTime) (day : t.year = t'.year ∧ t.month = t'.month ∧ t.day = t'.day)
    (clock : t.hour = t'.hour ∧ t.minute = t'.minute ∧ t.second = t'.second) :
    t.wall - t.microsecond = t'.wall - t'.microsecond := by
  rw [wall, wall, day.1, day.2.1, day.2.2, clock.1, clock.2.1, clock.2.2,
    Int.add_sub_cancel, Int.add_sub_cancel]

theorem make?_second (t : DateTime) : ∃ t', make? t.year t.month t.day t.hour t.minute t.second 0 (some 0) =
    some t' ∧ t'.wall = t.wall - t.microsecond := by
  obtain ⟨year, month, day, hour, minute, second, -, -⟩ := t.valid
  have fits : (1 ≤ t.year ∧ t.year ≤ 9999) ∧ (1 ≤ t.month ∧ t.month ≤ 12) ∧
      (1 ≤ t.day ∧ t.day ≤ Calendar.daysInMonth t.year t.month) ∧ t.hour < 24 ∧ t.minute < 60 ∧ t.second < 60 ∧
      0 < 1000000 ∧ ∀ o ∈ some (0 : Int), -microsPerDay < o ∧ o < microsPerDay :=
    ⟨year, month, day, hour, minute, second, by decide, by simp [microsPerDay, microsPerSecond]⟩
  refine ⟨⟨t.year, t.month, t.day, t.hour, t.minute, t.second, 0, some 0, fits⟩, by rw [make?, dif_pos fits], ?_⟩
  have same := wall_sub_wall t ⟨t.year, t.month, t.day, t.hour, t.minute, t.second, 0, some 0, fits⟩
    ⟨rfl, rfl, rfl⟩ ⟨rfl, rfl, rfl⟩
  rw [same, Int.natCast_zero, Int.sub_zero]

theorem year_le_iff (t : DateTime) (year : Nat) :
    year ≤ t.year ↔ (Calendar.daysBeforeYear year * 86400 : Nat) * microsPerSecond ≤ t.wall := by
  obtain ⟨⟨some, -⟩, months, ⟨day, fits⟩, hour, minute, second, micro, -⟩ := t.valid
  have ends := Calendar.toOrdinal_le some months fits
  have begins : Calendar.daysBeforeYear t.year + 1 ≤ Calendar.toOrdinal t.year t.month t.day := by
    rw [Calendar.toOrdinal]
    omega
  unfold wall microsPerSecond
  constructor
  · intro later
    have days := Calendar.daysBeforeYear_mono later
    omega
  · intro late
    by_contra earlier
    have days := Calendar.daysBeforeYear_mono (show t.year + 1 ≤ year by omega)
    omega

theorem wall_mod (t : DateTime) : t.wall % 1000000 = t.microsecond := by
  have micro := t.valid.2.2.2.2.2.2.1
  unfold wall microsPerSecond
  omega

theorem wall_ofWall? {micros : Int} {offset : Option Int} {t : DateTime}
    (found : ofWall? micros offset = some t) : t.wall = micros ∧ t.offset = offset := by
  unfold ofWall? at found
  split at found
  · cases found
  · rename_i later
    dsimp only at found
    unfold make? at found
    split at found
    · obtain rfl := Option.some.inj found
      refine ⟨?_, rfl⟩
      have day := Calendar.toOrdinal_ofOrdinal (n := micros.toNat / 1000000 / 86400 + 1) (by omega)
      simp only [wall, day, microsPerSecond]
      omega
    · cases found

def endOfYears : Int := (Calendar.daysBeforeYear 10000 * 86400 : Nat) * microsPerSecond

theorem wall_bounds (t : DateTime) : 0 ≤ t.wall ∧ t.wall < endOfYears := by
  constructor
  · rw [wall, microsPerSecond]
    omega
  · by_contra late
    have after := (t.year_le_iff 10000).mpr (Int.not_lt.mp late)
    have year := t.valid.1.2
    omega

theorem ofWall?_isSome_iff (micros : Int) : (ofWall? micros (some 0)).isSome ↔ 0 ≤ micros ∧ micros < endOfYears := by
  constructor
  · intro found
    obtain ⟨t, found⟩ := Option.isSome_iff_exists.mp found
    rw [← (wall_ofWall? found).1]
    exact t.wall_bounds
  · rintro ⟨nonneg, before⟩
    have day : micros.toNat / 1000000 / 86400 + 1 ≤ Calendar.daysBeforeYear 10000 := by
      unfold endOfYears microsPerSecond at before
      omega
    generalize later : micros.toNat / 1000000 / 86400 + 1 = n at day
    obtain ⟨begins, ends⟩ := Calendar.daysBeforeYear_yearOf (n := n) (by omega)
    have first : 1 ≤ Calendar.yearOf n := by
      by_contra early
      have zero : Calendar.yearOf n = 0 := by omega
      rw [zero] at ends
      have none : Calendar.daysBeforeYear (0 + 1) = 0 := rfl
      omega
    have last : Calendar.yearOf n ≤ 9999 := by
      by_contra late
      have whole := Calendar.daysBeforeYear_mono (show 10000 ≤ Calendar.yearOf n by omega)
      omega
    rw [Calendar.length_year first] at ends
    obtain ⟨after, upTo, month, within⟩ := Calendar.monthOf_spec (Calendar.yearOf n)
      (n - Calendar.daysBeforeYear (Calendar.yearOf n)) (by omega) (by omega)
    rw [Calendar.daysBeforeMonth_succ _ month] at upTo
    unfold ofWall?
    rw [if_neg (by omega)]
    dsimp only
    rw [later, make?, dif_pos, Option.isSome_some]
    exact ⟨⟨first, last⟩, ⟨month, within⟩, ⟨by dsimp only [Calendar.ofOrdinal]; omega,
      by dsimp only [Calendar.ofOrdinal]; omega⟩, by omega, by omega, by omega, by omega,
      by simp [microsPerDay, microsPerSecond]⟩

end DateTime
end Proxyshop.Python
