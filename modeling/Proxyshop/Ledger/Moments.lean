import Proxyshop.Ledger.Timestamps
import Proxyshop.Scoring.Engine

/-!
# The moment of a timestamp

Which moment the normal form of a timestamp spells, and that the scorer reads it where the year has four
digits.
-/

namespace Proxyshop.Ledger

open Python Scoring

theorem length_padded {width n : Nat} (positive : 0 < width) (fits : n < 10 ^ width) :
    (Str.padded width n).length = width := by
  have short := (Str.length_ofNat_lt positive).mpr fits
  rw [Str.padded, List.length_append, List.length_replicate]
  omega

theorem unmarked_padded {width n : Nat} {c : CodePoint} (member : c ∈ Str.padded width n) :
    IsoFormat.isZoneMark c = false := by
  obtain ⟨d, digit⟩ := Str.isDigit_of_mem_padded member
  have other {mark : Char} (markless : Str.digit? (CodePoint.ofChar mark) = none) :
      c ≠ CodePoint.ofChar mark := by
    rintro rfl
    rw [markless] at digit
    cases digit
  have plus : c ≠ CodePoint.ofChar '+' := other rfl
  have minus : c ≠ CodePoint.ofChar '-' := other rfl
  have zulu : c ≠ CodePoint.ofChar 'Z' := other rfl
  simp [IsoFormat.isZoneMark, plus, minus, zulu]

theorem not_startsWith_padded {mark : Char} (width n : Nat) (positive : 0 < width) (fits : n < 10 ^ width)
    (markless : Str.digit? (CodePoint.ofChar mark) = none) (rest : Str) :
    Str.startsWith mark (Str.padded width n ++ rest) = false := by
  have long := length_padded positive fits
  cases spelled : Str.padded width n with
  | nil =>
      rw [spelled] at long
      exact absurd long.symm (by simp; omega)
  | cons c cs =>
      obtain ⟨d, digit⟩ := Str.isDigit_of_mem_padded (spelled ▸ List.mem_cons_self : c ∈ Str.padded width n)
      have other : c ≠ CodePoint.ofChar mark := by
        rintro rfl
        rw [markless] at digit
        cases digit
      rw [Str.startsWith, List.cons_append, Str.expect, if_neg other]
      rfl

def isoTime (t : DateTime) : Str :=
  Str.padded 2 t.hour ++ str ":" ++ Str.padded 2 t.minute ++ str ":" ++ Str.padded 2 t.second ++ str "." ++
    Str.padded 3 (t.microsecond / 1000)

def isoDate (t : DateTime) : Str :=
  Str.padded 4 t.year ++ str "-" ++ Str.padded 2 t.month ++ str "-" ++ Str.padded 2 t.day

theorem date_isoDate (t : DateTime) : IsoFormat.date (isoDate t) = some (t.year, t.month, t.day) := by
  obtain ⟨⟨_, year⟩, ⟨_, month⟩, ⟨_, day⟩, -⟩ := t.valid
  have days : Calendar.daysInMonth t.year t.month ≤ 31 := by
    unfold Calendar.daysInMonth
    split
    · split <;> decide
    all_goals decide
  have read {width n : Nat} (positive : 0 < width) (fits : n < 10 ^ width) (rest : Str) :
      IsoFormat.asciiNumber width (Str.padded width n ++ rest) = some (n, rest) :=
    Str.number_padded (fun h => h) positive fits rest
  have last : IsoFormat.asciiNumber 2 (Str.padded 2 t.day) = some (t.day, []) := by
    have whole := read (show 0 < 2 by decide) (show t.day < 10 ^ 2 by omega) []
    rwa [List.append_nil] at whole
  have dash (rest : Str) : Str.expect '-' (str "-" ++ rest) = some rest := Str.expect_cons '-' rest
  have dashed (rest : Str) : Str.startsWith '-' (str "-" ++ rest) = true := by rw [Str.startsWith, dash]; rfl
  have month_ : Str.startsWith 'W' (Str.padded 2 t.month ++ (str "-" ++ Str.padded 2 t.day)) = false :=
    not_startsWith_padded 2 t.month (by decide) (by omega) rfl _
  simp only [IsoFormat.date, isoDate, List.append_assoc, read (show 0 < 4 by decide) (show t.year < 10 ^ 4 by omega),
    Option.bind_eq_bind, Option.bind_some, dashed, dash, if_true, month_, Bool.false_eq_true, if_false,
    read (show 0 < 2 by decide) (show t.month < 10 ^ 2 by omega), last, List.isEmpty_nil]

theorem mapM_of_map {A B : Type} {f : A → Option B} {as : List A} {bs : List B}
    (mapped : as.map f = bs.map some) : as.mapM f = some bs := by
  induction as generalizing bs with
  | nil =>
      cases bs with
      | nil => rfl
      | cons => cases mapped
  | cons a as ih =>
      cases bs with
      | nil => cases mapped
      | cons b bs =>
          obtain ⟨here, later⟩ := List.cons.inj mapped
          rw [List.mapM_cons, here, ih later]
          rfl

theorem fraction_padded {n : Nat} (fits : n < 1000) : ∃ micros, micros < 1000000 ∧
    IsoFormat.fraction (str "." ++ Str.padded 3 n) = some micros := by
  have read : Str.number Str.digit? 3 (Str.padded 3 n ++ []) = some (n, []) :=
    Str.number_padded (fun h => h) (by decide) fits []
  obtain ⟨⟨ds, rest⟩, digits, value⟩ := Option.map_eq_some_iff.mp read
  obtain ⟨-, rfl⟩ := Prod.mk.inj value
  obtain ⟨front, split, length, values⟩ := Str.digits_eq_some digits
  rw [List.append_nil, List.append_nil] at split
  have decimal : ∀ d ∈ ds, d < 10 := by
    intro d member
    have spelled : some d ∈ front.map Str.digit? := values ▸ List.mem_map_of_mem member
    obtain ⟨c, -, digit⟩ := List.mem_map.mp spelled
    unfold Str.digit? at digit
    split at digit
    · rw [← Option.some.inj digit]
      omega
    · cases digit
  have count : ds.length = 3 := by
    rw [← List.length_map (f := some), ← values, List.length_map, length]
  refine ⟨Str.ofDigits ((ds ++ List.replicate 6 0).take 6), ?_, ?_⟩
  · have six : ((ds ++ List.replicate 6 0).take 6).length = 6 := by simp [count]
    have small : ∀ d ∈ (ds ++ List.replicate 6 0).take 6, d < 10 := by
      intro d member
      rcases List.mem_append.mp (List.mem_of_mem_take member) with inside | zero
      · exact decimal d inside
      · rw [List.eq_of_mem_replicate zero]
        decide
    have bound := ofDigits_lt small
    rw [six] at bound
    exact bound
  · have point (rest : Str) : Str.expect '.' (str "." ++ rest) = some rest := Str.expect_cons '.' rest
    have some_ : ds.isEmpty = false := by
      rw [List.isEmpty_eq_false_iff, ← List.length_pos_iff]
      omega
    simp only [IsoFormat.fraction, point, Option.orElse_eq_orElse, Option.orElse_eq_or, Option.some_or,
      Option.bind_eq_bind, Option.bind_some, split, mapM_of_map values, some_, Bool.false_eq_true, if_false]

theorem clock_isoTime (t : DateTime) : ∃ micros, micros < 1000000 ∧
    IsoFormat.clock (isoTime t) = some ⟨t.hour, t.minute, t.second, micros⟩ := by
  obtain ⟨-, -, -, hour, minute, second, microsecond, -⟩ := t.valid
  have read (n : Nat) (fits : n < 100) (rest : Str) :
      IsoFormat.asciiNumber 2 (Str.padded 2 n ++ rest) = some (n, rest) :=
    Str.number_padded (fun h => h) (by decide) fits rest
  have colon (rest : Str) : Str.expect ':' (str ":" ++ rest) = some rest := Str.expect_cons ':' rest
  have colons (rest : Str) : Str.startsWith ':' (str ":" ++ rest) = true := by rw [Str.startsWith, colon]; rfl
  have filled (c : String) (rest : Str) (some : str c ≠ []) : (str c ++ rest).isEmpty = false := by
    simp [some]
  obtain ⟨micros, small, fraction⟩ := fraction_padded (show t.microsecond / 1000 < 1000 by omega)
  refine ⟨micros, small, ?_⟩
  simp only [IsoFormat.clock, isoTime, List.append_assoc, read t.hour (by omega), read t.minute (by omega),
    read t.second (by omega), Option.bind_eq_bind, Option.bind_some, colon, colons, if_true,
    filled ":" _ (by decide), filled "." _ (by decide), Bool.false_eq_true, if_false, fraction]
  rfl

theorem unmarked_isoTime {t : DateTime} {c : CodePoint} (member : c ∈ isoTime t) :
    IsoFormat.isZoneMark c = false := by
  simp only [isoTime, List.mem_append, or_assoc] at member
  rcases member with h | h | h | h | h | h | h
  · exact unmarked_padded h
  · rw [List.mem_singleton.mp h]; rfl
  · exact unmarked_padded h
  · rw [List.mem_singleton.mp h]; rfl
  · exact unmarked_padded h
  · rw [List.mem_singleton.mp h]; rfl
  · exact unmarked_padded h

theorem length_isoDate (t : DateTime) : (isoDate t).length = 10 := by
  obtain ⟨⟨_, year⟩, ⟨_, month⟩, ⟨_, day⟩, -⟩ := t.valid
  have days : Calendar.daysInMonth t.year t.month ≤ 31 := by
    unfold Calendar.daysInMonth
    split
    · split <;> decide
    all_goals decide
  have year_ := length_padded (show 0 < 4 by decide) (show t.year < 10 ^ 4 by omega)
  have month_ := length_padded (show 0 < 2 by decide) (show t.month < 10 ^ 2 by omega)
  have day_ := length_padded (show 0 < 2 by decide) (show t.day < 10 ^ 2 by omega)
  have dash : (str "-").length = 1 := rfl
  simp only [isoDate, List.length_append, year_, month_, day_, dash]

theorem separatorAt_isoDate (t : DateTime) (rest : Str) : IsoFormat.separatorAt (isoDate t ++ rest) = 10 := by
  obtain ⟨⟨_, year⟩, ⟨_, month⟩, -⟩ := t.valid
  have year_ := length_padded (show 0 < 4 by decide) (show t.year < 10 ^ 4 by omega)
  have long := length_isoDate t
  have dashed : Str.startsWith '-' ((isoDate t ++ rest).drop 4) = true := by
    rw [isoDate, List.append_assoc, List.append_assoc, List.append_assoc, List.append_assoc,
      List.drop_left' year_]
    rfl
  have monthly : Str.startsWith 'W' ((isoDate t ++ rest).drop 5) = false := by
    have front : (Str.padded 4 t.year ++ str "-").length = 5 := by rw [List.length_append, year_]; rfl
    rw [isoDate, List.append_assoc, List.append_assoc, List.append_assoc, List.drop_left' front]
    exact not_startsWith_padded 2 t.month (by decide) (by omega) rfl _
  unfold IsoFormat.separatorAt
  dsimp only
  rw [if_neg (by rw [List.length_append]; omega), dashed, monthly]
  rfl

theorem zone_utc : IsoFormat.zone (str "+00:00") = some 0 := by decide

theorem fromIsoFormat_utc (t : DateTime) : ∃ u, u.offset = some 0 ∧
    DateTime.fromIsoFormat (isoDate t ++ (str "T" ++ isoTime t ++ str "+00:00")) = some u := by
  obtain ⟨year, month, day, hour, minute, second, -, -⟩ := t.valid
  obtain ⟨micros, small, clock⟩ := clock_isoTime t
  have long := length_isoDate t
  have fits : (1 ≤ t.year ∧ t.year ≤ 9999) ∧ (1 ≤ t.month ∧ t.month ≤ 12) ∧
      (1 ≤ t.day ∧ t.day ≤ Calendar.daysInMonth t.year t.month) ∧ t.hour < 24 ∧ t.minute < 60 ∧ t.second < 60 ∧
      micros < 1000000 ∧ ∀ o ∈ some (0 : Int), -microsPerDay < o ∧ o < microsPerDay :=
    ⟨year, month, day, hour, minute, second, small, by simp [microsPerDay, microsPerSecond]⟩
  refine ⟨⟨t.year, t.month, t.day, t.hour, t.minute, t.second, micros, some 0, fits⟩, rfl, ?_⟩
  have unmarked : ∀ c ∈ isoTime t, (!IsoFormat.isZoneMark c) = true := by
    intro c member
    rw [unmarked_isoTime member]
    rfl
  have time : ((isoTime t ++ str "+00:00").takeWhile fun c => !IsoFormat.isZoneMark c) = isoTime t := by
    rw [List.takeWhile_append_of_pos unmarked]
    exact List.append_nil _
  have zone : ((isoTime t ++ str "+00:00").dropWhile fun c => !IsoFormat.isZoneMark c) = str "+00:00" := by
    rw [List.dropWhile_append_of_pos unmarked]
    rfl
  unfold DateTime.fromIsoFormat
  rw [if_neg (by rw [List.length_append]; omega)]
  simp only [separatorAt_isoDate, List.take_left' long, List.drop_left' long, date_isoDate, Option.bind_eq_bind,
    Option.bind_some]
  rw [if_neg (by rintro ⟨short, -⟩; simp [str] at short)]
  have tail : (str "T" ++ isoTime t ++ str "+00:00").drop 1 = isoTime t ++ str "+00:00" := rfl
  simp only [tail, time, zone, clock, zone_utc, Option.bind_some]
  rw [if_neg (by decide), Option.map_some, Option.bind_some, DateTime.make?, dif_pos fits]

theorem spellMoment_late {t : DateTime} (late : 1000 ≤ t.year) :
    spellMoment t = isoDate t ++ (str "T" ++ isoTime t) ++ str "Z" := by
  have year : Str.padded 4 t.year = Str.ofNat t.year := by
    apply Str.padded_eq_ofNat
    by_contra short
    have small : t.year < 10 ^ 3 := (Str.length_ofNat_lt (by decide)).mp (by omega)
    omega
  simp only [spellMoment, DateTime.stamp, isoDate, isoTime, year, List.append_assoc]

section Parsing

variable [Unicode]

/-! ## The normal form -/

/-- The microseconds from the beginning of the year 1 to the moment a timestamp names. -/
def utc? (text : Str) : Option Int := do
  let s ← matchRfc3339 text.strip
  let t ← DateTime.make? s.year s.month s.day s.hour s.minute s.second (s.milliseconds * 1000) (some 0)
  return t.wall - s.offset * 60 * microsPerSecond

theorem rfc3339Ms_unread {text : Str} (unread : utc? text = none) :
    ∃ cause, rfc3339Ms (.str text) = .error cause ∧ cause.isValueError = true := by
  unfold rfc3339Ms
  dsimp only
  cases read : matchRfc3339 text.strip with
  | none => exact ⟨_, rfl, rfl⟩
  | some s =>
      cases made : DateTime.make? s.year s.month s.day s.hour s.minute s.second (s.milliseconds * 1000)
          (some 0) with
      | none => exact ⟨_, by dsimp only; rw [made], rfl⟩
      | some t => simp [utc?, read, made] at unread

theorem rfc3339Ms_read {text : Str} {w : Int} (read : utc? text = some w) :
    if 0 ≤ w ∧ w < DateTime.endOfYears then ∃ t, t.wall = w ∧ rfc3339Ms (.str text) = .ok (spellMoment t)
    else rfc3339Ms (.str text) = .error (.python .overflowError) := by
  simp only [utc?, Option.bind_eq_bind, Option.bind_eq_some_iff, Option.pure_def, Option.some.injEq] at read
  obtain ⟨s, parsed, t, made, rfl⟩ := read
  unfold rfc3339Ms
  dsimp only
  rw [parsed]
  dsimp only
  rw [made]
  dsimp only
  by_cases utc : s.offset = 0
  · have wall : t.wall - s.offset * 60 * microsPerSecond = t.wall := by rw [utc]; omega
    rw [if_pos utc, wall, if_pos t.wall_bounds]
    exact ⟨t, rfl, rfl⟩
  · rw [if_neg utc]
    split
    · rename_i inside
      obtain ⟨u, found⟩ := Option.isSome_iff_exists.mp ((DateTime.ofWall?_isSome_iff _).mpr inside)
      rw [found]
      exact ⟨u, (DateTime.wall_ofWall? found).1, rfl⟩
    · rename_i outside
      cases found : DateTime.ofWall? (t.wall - s.offset * 60 * microsPerSecond) (some 0) with
      | none => rfl
      | some u => exact absurd ((DateTime.ofWall?_isSome_iff _).mp (by rw [found]; rfl)) outside

/-- The beginning of the first year of four digits, in microseconds. -/
def fourDigits : Int := (Calendar.daysBeforeYear 1000 * 86400 : Nat) * microsPerSecond

omit [Unicode] in
theorem year_iff_fourDigits (t : DateTime) : 1000 ≤ t.year ↔ fourDigits ≤ t.wall := t.year_le_iff 1000

/-! ## The scorer -/

theorem parseInstant_spellMoment (t : DateTime) : parseInstant (.str (spellMoment t)) =
    match DateTime.fromIsoFormat ((spellMoment t).dropLast ++ str "+00:00") with
    | some u => .ok (some u.aware)
    | none => .error (.python .valueError) := by
  have last : (spellMoment t).getLast? = some (CodePoint.ofChar 'Z') := by
    rw [spellMoment, List.getLast?_append]
    rfl
  have filled : (spellMoment t).isEmpty = false := by
    rw [List.isEmpty_eq_false_iff]
    intro empty
    rw [empty] at last
    cases last
  unfold parseInstant
  simp only [Value.toStr_str, Str.strip_eq_self (solid_spellMoment t), filled, last, true_or, if_true,
    Bool.false_eq_true, if_false] <;>
    cases DateTime.fromIsoFormat ((spellMoment t).dropLast ++ str "+00:00") <;> rfl

theorem parseInstant_late {t : DateTime} (late : 1000 ≤ t.year) :
    ∃ u, u.offset = some 0 ∧ parseInstant (.str (spellMoment t)) = .ok (some u) := by
  obtain ⟨u, utc, read⟩ := fromIsoFormat_utc t
  have text : (spellMoment t).dropLast ++ str "+00:00" =
      isoDate t ++ (str "T" ++ isoTime t ++ str "+00:00") := by
    rw [spellMoment_late late, show str "Z" = [CodePoint.ofChar 'Z'] from rfl, List.dropLast_concat,
      List.append_assoc]
  refine ⟨u.aware, ?_, ?_⟩
  · rw [DateTime.aware, utc]
    exact utc
  · rw [parseInstant_spellMoment, text, read]

omit [Unicode] in
theorem asciiNumber_marked {s : Str} {i : Nat} (marked : s[i]? = some (CodePoint.ofChar '-')) (early : i < 4) :
    IsoFormat.asciiNumber 4 s = none := by
  rw [IsoFormat.asciiNumber, Str.number, Option.map_eq_none_iff]
  cases read : Str.digits Str.digit? 4 s with
  | none => rfl
  | some result =>
      obtain ⟨front, split, length, values⟩ := Str.digits_eq_some read
      rw [split, List.getElem?_append_left (by omega)] at marked
      have digit := List.mem_map_of_mem (f := Str.digit?) (List.mem_of_getElem? marked)
      rw [values] at digit
      obtain ⟨d, -, equal⟩ := List.mem_map.mp digit
      cases equal

omit [Unicode] in
theorem le_separatorAt (s : Str) : 7 ≤ IsoFormat.separatorAt s := by
  unfold IsoFormat.separatorAt
  dsimp only
  repeat' split
  all_goals omega

theorem parseInstant_early {t : DateTime} (early : t.year < 1000) :
    parseInstant (.str (spellMoment t)) = .error (.python .valueError) := by
  have short : (Str.ofNat t.year).length ≤ 3 := (Str.length_ofNat_lt (by decide)).mpr (by omega)
  obtain ⟨rest, spelled⟩ : ∃ rest, (spellMoment t).dropLast ++ str "+00:00" = Str.ofNat t.year ++ (str "-" ++ rest) := by
    rw [spellMoment, show str "Z" = [CodePoint.ofChar 'Z'] from rfl, List.dropLast_concat]
    simp only [DateTime.stamp, List.append_assoc]
    exact ⟨_, rfl⟩
  have none : DateTime.fromIsoFormat (Str.ofNat t.year ++ (str "-" ++ rest)) = none := by
    have marked : ((Str.ofNat t.year ++ (str "-" ++ rest)).take
        (IsoFormat.separatorAt (Str.ofNat t.year ++ (str "-" ++ rest))))[(Str.ofNat t.year).length]? =
          some (CodePoint.ofChar '-') := by
      have beyond := le_separatorAt (Str.ofNat t.year ++ (str "-" ++ rest))
      rw [List.getElem?_take_of_lt (by omega), List.getElem?_append_right le_rfl, Nat.sub_self]
      rfl
    unfold DateTime.fromIsoFormat
    split
    · rfl
    · simp only [IsoFormat.date, asciiNumber_marked marked (by omega), Option.bind_eq_bind, Option.bind_none]
  rw [parseInstant_spellMoment, spelled, none]

end Parsing

end Proxyshop.Ledger
