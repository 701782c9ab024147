import Proxyshop.Contracts.Wire
import Proxyshop.Numbers.Binary64

/-!
# Instants in a document

The instant a value names, and the wire format of a date and a time.
-/

namespace Proxyshop.Contracts

open Python Numbers

/-! ## Instants -/

def epochMicros : Int := ((Calendar.toOrdinal 1970 1 1 : Int) - 1) * microsPerDay

section Instants

variable {F : Type} [Format F]

/-- `datetime.fromtimestamp(x, tz=UTC)`, where it does not raise. -/
def fromTimestamp : Extended F → Option DateTime
  | .finite x =>
      let whole := truncate (Format.value x)
      -- the fraction is exact, and its product with a million is rounded twice
      match Format.round (F := F) ((Format.value x - whole) * 1000000) with
      | .finite micros =>
          DateTime.ofWall? (epochMicros + whole * microsPerSecond + nearest (Format.value micros)) (some 0)
      | _ => none
  | _ => none

/-- `parse_timestamp`. -/
def parseTimestamp : Wire F → Option DateTime
  | .number n => n.toDouble.toOption.bind fromTimestamp
  | .string raw =>
      let text := raw.strip
      let zulu := text.getLast? = some (CodePoint.ofChar 'Z') ∨ text.getLast? = some (CodePoint.ofChar 'z')
      if text.isEmpty then none
      else
        (DateTime.fromIsoFormat (if zulu then text.dropLast ++ str "+00:00" else text)).map
          DateTime.aware
  | _ => none

end Instants

/-! ## The wire format -/

namespace Rfc3339

def number (n : Nat) (s : Str) : Option (Nat × Str) := Str.number Str.digit? n s

def isSeparator (c : CodePoint) : Bool :=
  c = CodePoint.ofChar 't' || c = CodePoint.ofChar 'T' || c.isWhiteSpace

/-- `_is_rfc3339_date`. -/
def isDate (text : Str) : Bool :=
  let fields : Option (Nat × Nat × Nat) := do
    let (year, s) ← number 4 text
    let (month, s) ← number 2 (← Str.expect '-' s)
    let (day, s) ← number 2 (← Str.expect '-' s)
    if s.isEmpty then return (year, month, day) else none
  fields.any fun (year, month, day) =>
    1 ≤ month && month ≤ 12 && 1 ≤ day && day ≤ Calendar.daysInMonth year month

def second (s : Str) : Option (ℚ × Str) := do
  let (whole, rest) ← number 2 s
  match Str.expect '.' rest with
  | none => return (whole, rest)
  | some rest =>
      let ds := (rest.takeWhile fun c => (Str.digit? c).isSome).filterMap Str.digit?
      if ds.isEmpty then none
      else return (whole + Str.ofDigits ds / 10 ^ ds.length, rest.drop ds.length)

/-- The sign, the hours and the minutes of the offset that ends the text. -/
def zone (s : Str) : Option (Int × Nat × Nat) :=
  if s = str "Z" ∨ s = str "z" then some (1, 0, 0)
  else do
    let (sign, rest) ← ((Str.expect '+' s).map fun rest => ((1 : Int), rest)) <|>
      ((Str.expect '-' s).map fun rest => ((-1 : Int), rest))
    let (hour, rest) ← number 2 rest
    if rest.isEmpty then return (sign, hour, 0)
    else
      let (minute, rest) ← number 2 ((Str.expect ':' rest).getD rest)
      if rest.isEmpty then return (sign, hour, minute) else none

/-- `_is_rfc3339_time`: a leap second is judged in the coordinated time, and the seconds as the
numbers of a format. -/
def isTime (F : Type) [Format F] (text : Str) : Bool :=
  let fields : Option (Nat × Nat × ℚ × Int × Nat × Nat) := do
    let (hour, s) ← number 2 text
    let (minute, s) ← number 2 (← Str.expect ':' s)
    let (second, s) ← second (← Str.expect ':' s)
    let (sign, zoneHour, zoneMinute) ← zone s
    return (hour, minute, second, sign, zoneHour, zoneMinute)
  fields.any fun (hour, minute, second, sign, zoneHour, zoneMinute) =>
    let second : Extended F := Format.round second
    if 23 < zoneHour ∨ 59 < zoneMinute then false
    else if hour ≤ 23 ∧ minute ≤ 59 ∧ second < 60.0 then true
    else
      let utcMinute := minute - zoneMinute * sign
      let utcHour := hour - zoneHour * sign - if utcMinute < 0 then 1 else 0
      (utcHour = 23 ∨ utcHour = -1) ∧ (utcMinute = 59 ∨ utcMinute = -1) ∧ second < 61.0

/-- `_is_rfc3339_date_time`: one separator, with a date before it and a time after it. -/
def isDateTime (F : Type) [Format F] (text : Str) : Bool :=
  match text.span fun c => !isSeparator c with
  | (date, _ :: time) => !time.any isSeparator && isDate date && isTime F time
  | _ => false

end Rfc3339
end Proxyshop.Contracts
