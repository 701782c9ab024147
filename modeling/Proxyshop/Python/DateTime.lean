import Proxyshop.Python.Text

/-!
# Calendar dates and instants

A `datetime` keeps its calendar fields, as Python's does, and with them the proof that they name a
moment of the years 1 to 9999. Ordinals and microsecond counts appear only in arithmetic.
-/

namespace Proxyshop.Python

/-! ## The proleptic Gregorian calendar -/

namespace Calendar

def isLeap (year : Nat) : Bool := year % 4 == 0 && (year % 100 != 0 || year % 400 == 0)

def daysInMonth (year month : Nat) : Nat :=
  match month with
  | 2 => if isLeap year then 29 else 28
  | 4 | 6 | 9 | 11 => 30
  | _ => 31

def daysBeforeYear (year : Nat) : Nat :=
  let y := year - 1
  y * 365 + y / 4 - y / 100 + y / 400

def daysBeforeMonth (year month : Nat) : Nat :=
  ((List.range month).drop 1).foldl (fun days m => days + daysInMonth year m) 0

def toOrdinal (year month day : Nat) : Nat :=
  daysBeforeYear year + daysBeforeMonth year month + day

/-- The year a day count falls in: at most two steps from the estimate by the mean year. -/
def yearOf (ordinal : Nat) : Nat :=
  let estimate := ordinal * 400 / 146097
  if ordinal ≤ daysBeforeYear (estimate + 1) then estimate
  else if ordinal ≤ daysBeforeYear (estimate + 2) then estimate + 1
  else estimate + 2

def monthOf (year dayOfYear : Nat) : Nat :=
  ((List.range 13).drop 1).foldl
    (fun month m => if daysBeforeMonth year m < dayOfYear then m else month) 1

def ofOrdinal (ordinal : Nat) : Nat × Nat × Nat :=
  let year := yearOf ordinal
  let dayOfYear := ordinal - daysBeforeYear year
  let month := monthOf year dayOfYear
  (year, month, dayOfYear - daysBeforeMonth year month)

def isoWeekOneMonday (year : Nat) : Int :=
  let firstDay : Int := toOrdinal year 1 1
  let firstWeekday := (firstDay + 6) % 7
  let monday := firstDay - firstWeekday
  if 3 < firstWeekday then monday + 7 else monday

def ofIsoWeek (year week day : Nat) : Option (Nat × Nat × Nat) :=
  let firstWeekday := toOrdinal year 1 1 % 7
  let longYear := firstWeekday == 4 || (firstWeekday == 3 && isLeap year)
  let ordinal := isoWeekOneMonday year + ((week : Int) - 1) * 7 + ((day : Int) - 1)
  if 1 ≤ year ∧ 1 ≤ week ∧ (week ≤ 52 ∨ (week = 53 ∧ longYear)) ∧ 1 ≤ day ∧ day ≤ 7 ∧ 1 ≤ ordinal then
    some (ofOrdinal ordinal.toNat)
  else none

end Calendar

/-! ## Instants -/

def microsPerSecond : Int := 1000000

def microsPerDay : Int := 86400 * microsPerSecond

/-- A `datetime`; the offset, in microseconds, is absent from a naive one. -/
structure DateTime where
  year : Nat
  month : Nat
  day : Nat
  hour : Nat
  minute : Nat
  second : Nat
  microsecond : Nat
  offset : Option Int
  valid : (1 ≤ year ∧ year ≤ 9999) ∧ (1 ≤ month ∧ month ≤ 12) ∧
    (1 ≤ day ∧ day ≤ Calendar.daysInMonth year month) ∧
    hour < 24 ∧ minute < 60 ∧ second < 60 ∧ microsecond < 1000000 ∧
    ∀ o ∈ offset, -microsPerDay < o ∧ o < microsPerDay
  deriving DecidableEq, Repr

namespace DateTime

def make? (year month day hour minute second microsecond : Nat) (offset : Option Int) :
    Option DateTime :=
  if h : _ then some ⟨year, month, day, hour, minute, second, microsecond, offset, h⟩ else none

def wall (t : DateTime) : Int :=
  ((((Calendar.toOrdinal t.year t.month t.day - 1 : Nat) * 24 + t.hour : Nat) * 60 + t.minute : Nat) *
    60 + t.second : Nat) * microsPerSecond + t.microsecond

def ofWall? (micros : Int) (offset : Option Int) : Option DateTime :=
  if micros < 0 then none
  else
    let m := micros.toNat
    let seconds := m / 1000000
    let (year, month, day) := Calendar.ofOrdinal (seconds / 86400 + 1)
    make? year month day (seconds / 3600 % 24) (seconds / 60 % 60) (seconds % 60) (m % 1000000) offset

def replaceUtc (t : DateTime) : DateTime :=
  { t with
    offset := some 0
    valid := by
      obtain ⟨y, mo, d, h, mi, s, us, _⟩ := t.valid
      exact ⟨y, mo, d, h, mi, s, us, by simp [microsPerDay, microsPerSecond]⟩ }

@[simp] theorem replaceUtc_offset (t : DateTime) : t.replaceUtc.offset = some 0 := rfl

def aware (t : DateTime) : DateTime := if t.offset.isNone then t.replaceUtc else t

def instant (t : DateTime) : Int := t.wall - t.offset.getD 0

def toUtc? (t : DateTime) : Option DateTime :=
  if t.offset = some 0 then some t else ofWall? t.instant (some 0)

def seconds (t : DateTime) (separator : Str) : Str :=
  Str.padded 4 t.year ++ str "-" ++ Str.padded 2 t.month ++ str "-" ++ Str.padded 2 t.day ++
    separator ++ Str.padded 2 t.hour ++ str ":" ++ Str.padded 2 t.minute ++ str ":" ++
    Str.padded 2 t.second

/-- `strftime("%Y-%m-%dT%H:%M:%S")`, which does not pad the year. -/
def stamp (t : DateTime) : Str :=
  Str.ofNat t.year ++ str "-" ++ Str.padded 2 t.month ++ str "-" ++ Str.padded 2 t.day ++ str "T" ++
    Str.padded 2 t.hour ++ str ":" ++ Str.padded 2 t.minute ++ str ":" ++ Str.padded 2 t.second

/-! ## `str` and `repr` -/

def offsetSuffix (offset : Int) : Str :=
  let o := offset.natAbs
  let s := o / 1000000
  (if offset < 0 then str "-" else str "+") ++ Str.padded 2 (s / 3600) ++ str ":" ++
    Str.padded 2 (s / 60 % 60) ++
    (if s % 60 = 0 ∧ o % 1000000 = 0 then []
     else str ":" ++ Str.padded 2 (s % 60) ++
      (if o % 1000000 = 0 then [] else str "." ++ Str.padded 6 (o % 1000000)))

def isoFormat (t : DateTime) (separator : Str) : Str :=
  t.seconds separator ++
    (if t.microsecond = 0 then [] else str "." ++ Str.padded 6 t.microsecond) ++
    (t.offset.map offsetSuffix).getD []

def reprZone (offset : Int) : Str :=
  if offset = 0 then str "datetime.timezone.utc"
  else
    let days := offset / microsPerDay
    let rest := offset % microsPerDay
    let part (name : String) (n : Int) : List Str := if n = 0 then [] else [str name ++ str "=" ++ Str.ofInt n]
    let parts := part "days" days ++ part "seconds" (rest / microsPerSecond) ++
      part "microseconds" (rest % microsPerSecond)
    str "datetime.timezone(datetime.timedelta(" ++ (str ", ").intercalate parts ++ str "))"

def repr (t : DateTime) : Str :=
  let tail := if t.microsecond ≠ 0 then [t.second, t.microsecond]
    else if t.second ≠ 0 then [t.second] else []
  let fields := ([t.year, t.month, t.day, t.hour, t.minute] ++ tail).map Str.ofNat
  str "datetime.datetime(" ++ (str ", ").intercalate fields ++
    (t.offset.map fun o => str ", tzinfo=" ++ reprZone o).getD [] ++ str ")"

end DateTime

/-! ## `datetime.fromisoformat` -/

namespace IsoFormat

open Str

def asciiNumber (n : Nat) (s : Str) : Option (Nat × Str) := number digit? n s

/-- Where the date ends and the time begins, by the shape of the date. -/
def separatorAt (s : Str) : Nat :=
  let digitAt (i : Nat) : Bool := (s[i]?.bind digit?).isSome
  if s.length = 7 then 7
  else if startsWith '-' (s.drop 4) then
    if startsWith 'W' (s.drop 5) then
      if startsWith '-' (s.drop 8) then (if digitAt 10 then 8 else 10) else 8
    else 10
  else if startsWith 'W' (s.drop 4) then
    let stop := 7 + ((s.drop 7).takeWhile fun c => (digit? c).isSome).length
    if stop < 9 then stop else if stop % 2 = 0 then 7 else 8
  else 8

def date (s : Str) : Option (Nat × Nat × Nat) := do
  let (year, rest) ← asciiNumber 4 s
  let dashed := startsWith '-' rest
  let dash (s : Str) : Option Str := if dashed then expect '-' s else some s
  let rest ← dash rest
  if startsWith 'W' rest then
    let (week, rest) ← asciiNumber 2 (rest.drop 1)
    if rest.isEmpty then Calendar.ofIsoWeek year week 1
    else
      let (day, rest) ← asciiNumber 1 (← dash rest)
      if rest.isEmpty then Calendar.ofIsoWeek year week day else none
  else
    let (month, rest) ← asciiNumber 2 rest
    let (day, rest) ← asciiNumber 2 (← dash rest)
    if rest.isEmpty then some (year, month, day) else none

structure Clock where
  hour : Nat
  minute : Nat
  second : Nat
  microsecond : Nat

def fraction (s : Str) : Option Nat := do
  let rest ← (expect '.' s <|> expect ',' s)
  let ds ← rest.mapM digit?
  if ds.isEmpty then none else some (ofDigits ((ds ++ List.replicate 6 0).take 6))

def clock (s : Str) : Option Clock := do
  let (hour, rest) ← asciiNumber 2 s
  if rest.isEmpty then return ⟨hour, 0, 0, 0⟩
  let colons := startsWith ':' rest
  let colon (s : Str) : Option Str := if colons then expect ':' s else some s
  let (minute, rest) ← asciiNumber 2 (← colon rest)
  if rest.isEmpty then return ⟨hour, minute, 0, 0⟩
  let (second, rest) ← asciiNumber 2 (← colon rest)
  if rest.isEmpty then return ⟨hour, minute, second, 0⟩
  return ⟨hour, minute, second, ← fraction rest⟩

def isZoneMark (c : CodePoint) : Bool :=
  c = CodePoint.ofChar '+' || c = CodePoint.ofChar '-' || c = CodePoint.ofChar 'Z'

def zone (s : Str) : Option Int := do
  let c ← s.head?
  if c = CodePoint.ofChar 'Z' then (if s.length = 1 then some 0 else none)
  else
    let t ← clock (s.drop 1)
    let o : Int := ((t.hour * 60 + t.minute) * 60 + t.second : Nat) * microsPerSecond + t.microsecond
    return if c = CodePoint.ofChar '-' then -o else o

end IsoFormat

def DateTime.fromIsoFormat (s : Str) : Option DateTime := do
  if s.length < 7 then none
  let cut := IsoFormat.separatorAt s
  let (year, month, day) ← IsoFormat.date (s.take cut)
  let rest := s.drop cut
  if rest.length ≤ 1 ∧ Str.isAscii rest then DateTime.make? year month day 0 0 0 0 none
  else
    let time := rest.drop 1
    let t ← IsoFormat.clock (time.takeWhile fun c => !IsoFormat.isZoneMark c)
    let zone := time.dropWhile fun c => !IsoFormat.isZoneMark c
    let offset ← if zone.isEmpty then some none else (IsoFormat.zone zone).map some
    DateTime.make? year month day t.hour t.minute t.second t.microsecond offset

end Proxyshop.Python
