import Proxyshop.Contracts.Wire
import Proxyshop.Structures.Fallible

/-!
# Canonical forms of claimed and recorded values

What a value reads as: a text whose case and blanks are folded, a boolean, a number with a unit.
The spelling of a value that is no string, and the case folding of the Unicode database, are
parameters.
-/

namespace Proxyshop.Verification

open Python Numbers Contracts Structures

/-- How a value is spelled: by `str` and by `repr`, where it is no string, and by `json.dumps`, which
writes ASCII only. -/
class Spelling (F : Type) where
  text : Wire F → Str
  repr : Wire F → Str
  dumps : Wire F → Str

class Folding extends Unicode where
  casefold : Str → Str
  nfkc : Str → Str

@[reducible] def Folding.ascii : Folding where
  toUnicode := Unicode.ascii
  casefold := Unicode.ascii.lower
  nfkc s := s

@[reducible] def Spelling.strings (F : Type) : Spelling F where
  text _ := []
  repr _ := []
  dumps _ := []

section Texts

variable {F : Type} [Spelling F]

/-- `str(v)`. -/
def textOf (v : Wire F) : Except PyError Str := Wire.write Spelling.text v

/-- `repr(v)`. -/
def reprOf (v : Wire F) : Except PyError Str :=
  if v.writable then .ok (Spelling.repr v) else .error .valueError

theorem textOf_returns {v : Wire F} : (∃ s, textOf v = .ok s) ↔ v.writable = true :=
  Wire.write_returns

theorem reprOf_returns {v : Wire F} : (∃ s, reprOf v = .ok s) ↔ v.writable = true := by
  unfold reprOf
  split <;> simp [*]

@[simp] theorem textOf_string (s : Str) : textOf (.string s : Wire F) = .ok s := rfl

end Texts

/-! ## Blanks and case -/

def blank : CodePoint := CodePoint.ofChar ' '

/-- `_WHITESPACE.sub(" ", s)`, after a blank or not. -/
def collapse : Bool → Str → Str
  | _, [] => []
  | afterBlank, c :: s =>
      if c.isSpace then (if afterBlank then collapse true s else blank :: collapse true s)
      else c :: collapse false s

/-- `s.split()`. -/
def words (s : Str) : List Str :=
  (s.splitOnP CodePoint.isSpace).filter fun word => !word.isEmpty

variable {F : Type} [Format F] [Spelling F] [Folding]

omit [Format F] in
def normalizeText (v : Wire F) : Except PyError Str := do
  return Folding.casefold (collapse false (← textOf v).strip)

/-! ## Booleans -/

def booleanTrue : List Str :=
  [str "true", str "yes", str "y", str "1", str "on", str "present", str "included", str "eligible",
    str "available", str "in stock", str "in_stock", str "enabled", str "active", str "supported",
    str "compatible"]

def booleanFalse : List Str :=
  [str "false", str "no", str "n", str "0", str "off", str "absent", str "excluded",
    str "ineligible", str "unavailable", str "out of stock", str "out_of_stock", str "disabled",
    str "inactive", str "unsupported", str "incompatible"]

def binary : Wire F → Option Bool
  | .bool b => some b
  | .number n =>
      if n.same (.integer 0) then some false
      else if n.same (.integer 1) then some true
      else none
  | _ => none

def booleanWord (text : Str) : Option Bool :=
  if text ∈ booleanTrue then some true
  else if text ∈ booleanFalse then some false
  else none

def normalizeBoolean (v : Wire F) : Except PyError (Option Bool) :=
  match binary v with
  | some b => .ok (some b)
  | none => do return booleanWord (← normalizeText v)

/-! ## Units -/

inductive Family
  | mass
  | length
  | volume
  | pressure
  | power
  | ratio
  | potential
  | time
  deriving DecidableEq, Repr

def Family.name : Family → Str
  | mass => str "mass"
  | length => str "length"
  | volume => str "volume"
  | pressure => str "pressure"
  | power => str "power"
  | ratio => str "ratio"
  | potential => str "potential"
  | time => str "time"

/-- The factor of each spelling towards the base unit of its family. -/
def unitFamilies : List (Family × List (String × ℚ)) :=
  [(.mass,
      [("mg", 0.001), ("g", 1.0), ("gram", 1.0), ("grams", 1.0), ("gramme", 1.0), ("grammes", 1.0),
        ("kg", 1000.0), ("kilogram", 1000.0), ("kilograms", 1000.0), ("oz", 28.349523125),
        ("ounce", 28.349523125), ("ounces", 28.349523125), ("lb", 453.59237), ("lbs", 453.59237),
        ("pound", 453.59237), ("pounds", 453.59237)]),
    (.length,
      [("mm", 0.001), ("cm", 0.01), ("m", 1.0), ("metre", 1.0), ("meter", 1.0), ("km", 1000.0),
        ("in", 0.0254), ("inch", 0.0254), ("inches", 0.0254), ("ft", 0.3048), ("foot", 0.3048),
        ("feet", 0.3048)]),
    (.volume,
      [("ml", 0.001), ("cl", 0.01), ("l", 1.0), ("liter", 1.0), ("liters", 1.0), ("litre", 1.0),
        ("litres", 1.0)]),
    (.pressure, [("bar", 1.0), ("pa", 1e-5), ("kpa", 0.01), ("psi", 0.0689475729)]),
    (.power, [("w", 1.0), ("watt", 1.0), ("watts", 1.0), ("kw", 1000.0)]),
    (.ratio,
      [("%", 1.0), ("pct", 1.0), ("percent", 1.0), ("percentage", 1.0), ("percentage points", 1.0)]),
    (.potential, [("v", 1.0), ("volt", 1.0), ("volts", 1.0), ("kv", 1000.0)]),
    (.time,
      [("s", 1.0), ("sec", 1.0), ("second", 1.0), ("seconds", 1.0), ("min", 60.0), ("minute", 60.0),
        ("minutes", 60.0), ("h", 3600.0), ("hr", 3600.0), ("hour", 3600.0), ("hours", 3600.0),
        ("day", 86400.0), ("days", 86400.0), ("week", 604800.0), ("weeks", 604800.0),
        ("month", 2629800.0), ("months", 2629800.0), ("year", 31557600.0), ("years", 31557600.0)])]

omit [Spelling F] [Folding] in
def unitNamed (text : Str) : Option (Family × Extended F) :=
  unitFamilies.findSome? fun (family, spellings) =>
    (spellings.find? fun (spelling, _) => str spelling = text).map fun (_, factor) =>
      (family, Format.round factor)

def point : CodePoint := CodePoint.ofChar '.'

def unitFamily (unit : Wire F) : Except PyError (Option (Family × Extended F)) :=
  if unit.isNull then .ok none
  else do
    let text := (← normalizeText unit).filter (· ≠ point)
    return if text.isEmpty then none else unitNamed text

structure Quantity (F : Type) where
  number : Extended F
  unit : Wire F

/-! ## Quantities -/

def leadingSign : Str → Str × Str
  | [] => ([], [])
  | c :: s =>
      if c = CodePoint.ofChar '+' ∨ c = CodePoint.ofChar '-' then ([c], s) else ([], c :: s)

def leadingDigits (s : Str) : Str × Str := (s.takeWhile NumberText.isDecimal, s.dropWhile NumberText.isDecimal)

/-- `(?:[eE][+-]?\d+)?`. -/
def leadingExponent : Str → Str × Str
  | [] => ([], [])
  | mark :: s =>
      let (sign, body) := leadingSign s
      let (digits, rest) := leadingDigits body
      if (mark = CodePoint.ofChar 'e' ∨ mark = CodePoint.ofChar 'E') ∧ ¬ digits.isEmpty then
        (mark :: sign ++ digits, rest)
      else ([], mark :: s)

/-- `[+-]?(?:\d+\.?\d*|\.\d+)(?:[eE][+-]?\d+)?`, and what follows it. -/
def leadingNumber (s : Str) : Option (Str × Str) :=
  let (sign, body) := leadingSign s
  let (whole, rest) := leadingDigits body
  let (fraction, rest) :=
    if rest.head? = some point then
      let (digits, after) := leadingDigits (rest.drop 1)
      (point :: digits, after)
    else ([], rest)
  if whole.isEmpty ∧ fraction.length ≤ 1 then none
  else
    let (power, rest) := leadingExponent rest
    some (sign ++ whole ++ fraction ++ power, rest)

def newline : CodePoint := CodePoint.ofChar '\n'

/-- What `_QUANTITY` matches; a shorter number leaves a longer remainder, so no other match is
looked for when a line ends inside the remainder. -/
def quantityOfText (text : Str) : Option (Quantity F) := do
  let (spelled, rest) ← leadingNumber (text.dropWhile CodePoint.isSpace)
  let remainder := rest.strip
  let number ← NumberText.readFloat? spelled
  if newline ∈ remainder ∨ ¬ number.isFinite then none
  else some ⟨number, if remainder.isEmpty then .null else .string remainder⟩

def parseQuantity : Wire F → Except PyError (Option (Quantity F))
  | .bool _ => .ok none
  | .number n => do
      let number ← n.toDouble
      return if number.isFinite then some ⟨number, .null⟩ else none
  | v => do return quantityOfText (← textOf v)

def toBaseUnit (q : Quantity F) : Except PyError (Extended F × Option Family) := do
  match ← unitFamily q.unit with
  | none => return (q.number, none)
  | some (family, factor) => return (q.number * factor, some family)

omit [Format F] [Spelling F] [Folding] in
/-- The value and the unit of a recorded attribute, or of a bare scalar. -/
def attributeValue (recorded : Wire F) : Wire F × Wire F :=
  match recorded with
  | .object members =>
      if Dict.contains members (str "value") then
        (recorded.get (str "value"), recorded.get (str "unit"))
      else (recorded, .null)
  | _ => (recorded, .null)

end Proxyshop.Verification
