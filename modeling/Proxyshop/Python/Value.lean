import Proxyshop.Python.DateTime
import Proxyshop.Python.Dict
import Proxyshop.Python.Text

/-!
# Python values

The values a ledger row or a request body is made of: what `json.loads` returns, with `datetime`
beside it. A mapping has string keys.
-/

/-!
## Floats as Python reads and spells them

The arithmetic is that of Lean's own binary64 `Float`; this file adds the exact value behind a bit
pattern, the conversion from an unbounded integer and the shortest decimal spelling.
-/

namespace Proxyshop.Python.Double

/-! ## The exact value -/

def exponentBits (x : Float) : Nat := x.toBits.toNat / 2 ^ 52 % 2 ^ 11

def fractionBits (x : Float) : Nat := x.toBits.toNat % 2 ^ 52

def isNegative (x : Float) : Bool := 2 ^ 63 ≤ x.toBits.toNat

def significand (x : Float) : Nat :=
  if exponentBits x = 0 then fractionBits x else 2 ^ 52 + fractionBits x

def scale (x : Float) : Int := max (exponentBits x : Int) 1 - 1075

def magnitude (x : Float) : Nat × Nat :=
  if 0 ≤ scale x then (significand x * 2 ^ (scale x).toNat, 1)
  else (significand x, 2 ^ (-scale x).toNat)

def ofInt? (i : Int) : Option Float :=
  let x := Float.ofInt i
  if x.isFinite then some x else none

def eqInt (x : Float) (i : Int) : Bool :=
  let (num, den) := magnitude x
  x.isFinite && (if isNegative x then -(num : Int) else num) == i * den

def representsInt (i : Int) : Bool := (ofInt? i).any (eqInt · i)

/-! ## Shortest decimal spelling -/

def floorLog10 (num den : Nat) : Int :=
  let l := ((Nat.toDigits 10 num).length : Int) - (Nat.toDigits 10 den).length
  let atLeast (t : Int) : Bool :=
    if 0 ≤ t then den * 10 ^ t.toNat ≤ num else den ≤ num * 10 ^ (-t).toNat
  if atLeast l then l else l - 1

def ofDecimal (d : Nat) (p : Int) : Float := Float.ofScientific d (p < 0) p.natAbs

def decimalOfLength (x : Float) (k : Nat) : Option (Nat × Int) :=
  let (num, den) := magnitude x
  let p := floorLog10 num den + 1 - k
  let (n, d) := if 0 ≤ p then (num, den * 10 ^ p.toNat) else (num * 10 ^ (-p).toNat, den)
  let low := n / d
  let roundsBack (c : Nat) : Bool := ofDecimal c p == x.abs
  match roundsBack low, roundsBack (low + 1) with
  | true, true => some (if 2 * (n % d) ≤ d then low else low + 1, p)
  | true, false => some (low, p)
  | false, true => some (low + 1, p)
  | false, false => none

/-- The significant digits and the decimal exponent of a finite non-zero `x`: the fewest digits that
round back to it, seventeen at most. -/
def shortest (x : Float) : Nat × Int :=
  ((List.range 17).findSome? fun k => decimalOfLength x (k + 1)).getD (0, 0)

def zeros (n : Nat) : Str := List.replicate n (CodePoint.ofChar '0')

def mantissa (digits : Str) : Str :=
  if digits.length = 1 then digits else digits.take 1 ++ str "." ++ digits.drop 1

def repr (x : Float) : Str :=
  if x.isNaN then str "nan"
  else if x.isInf then (if isNegative x then str "-inf" else str "inf")
  else
    let sign : Str := if isNegative x then str "-" else []
    if x == 0 then sign ++ str "0.0"
    else
      let (d, p) := shortest x
      let digits := Str.ofNat d
      let point := (digits.length : Int) + p
      if -4 < point ∧ point ≤ 16 then
        if point ≤ 0 then sign ++ str "0." ++ zeros (-point).toNat ++ digits
        else if 0 ≤ p then sign ++ digits ++ zeros p.toNat ++ str ".0"
        else sign ++ digits.take point.toNat ++ str "." ++ digits.drop point.toNat
      else
        let e := point - 1
        sign ++ mantissa digits ++ str "e" ++ (if e < 0 then str "-" else str "+") ++
          Str.padded 2 e.natAbs

end Proxyshop.Python.Double

namespace Proxyshop.Python

inductive PyError
  | typeError
  | valueError
  | overflowError
  | keyError
  | indexError
  deriving DecidableEq, Repr

inductive Value
  | none
  | bool (b : Bool)
  | int (i : Int)
  | float (x : Float)
  | str (s : Str)
  | datetime (t : DateTime)
  | list (items : List Value)
  | dict (entries : List (Str × Value))

abbrev Record := Dict Str Value

instance : Inhabited Value := ⟨.none⟩

namespace Record

def get (r : Record) (name : Str) : Value := (Dict.get? r name).getD .none

theorem get_of_get? {r : Record} {name : Str} {v : Value} (h : Dict.get? r name = some v) :
    r.get name = v := by
  rw [get, h]
  rfl

theorem get_of_absent {r : Record} {name : Str} (h : Dict.get? r name = .none) :
    r.get name = .none := by
  rw [get, h]
  rfl

@[simp] theorem get_set_self (r : Record) (name : Str) (v : Value) :
    get (Dict.set r name v) name = v := get_of_get? (Dict.get?_set_self r name v)

theorem get_set_ne (r : Record) {name other : Str} (v : Value) (h : name ≠ other) :
    get (Dict.set r other v) name = r.get name := by
  rw [get, get, Dict.get?_set_ne r v h]

end Record

namespace Value

def isNone : Value → Bool
  | .none => true
  | _ => false

@[simp] theorem isNone_none : isNone .none = true := rfl

def truthy : Value → Bool
  | .none => false
  | .bool b => b
  | .int i => i != 0
  | .float x => !(x == 0)
  | .str s => !s.isEmpty
  | .datetime _ => true
  | .list items => !items.isEmpty
  | .dict entries => !entries.isEmpty

@[simp] theorem truthy_none : truthy .none = false := rfl

@[simp] theorem truthy_str (s : Str) : truthy (.str s) = !s.isEmpty := rfl

def or (a b : Value) : Value := if a.truthy then a else b

@[simp] theorem none_or (b : Value) : or .none b = b := rfl

def asStr? : Value → Option Str
  | .str s => some s
  | _ => Option.none

def asDict? : Value → Option Record
  | .dict entries => some entries
  | _ => Option.none

def mapping (v : Value) : Record := v.asDict?.getD []

@[simp] theorem mapping_dict (entries : Record) : mapping (.dict entries) = entries := rfl

@[simp] theorem mapping_none : mapping .none = [] := rfl

/-! ## `str` and `repr` -/

section Spelling

variable [Unicode]

def isPrintable (c : CodePoint) : Bool :=
  if c.isAscii then 32 ≤ c.val && c.val != 127 else Unicode.isPrintable c

def hexDigits (width n : Nat) : Str :=
  let digits := (Nat.toDigits 16 n).map CodePoint.ofChar
  List.replicate (width - digits.length) (CodePoint.ofChar '0') ++ digits

def reprChar (quote : Char) (c : CodePoint) : Str :=
  if c = CodePoint.ofChar quote ∨ c = CodePoint.ofChar '\\' then [CodePoint.ofChar '\\', c]
  else if c.val = 10 then Python.str "\\n"
  else if c.val = 13 then Python.str "\\r"
  else if c.val = 9 then Python.str "\\t"
  else if isPrintable c then [c]
  else if c.val < 0x100 then Python.str "\\x" ++ hexDigits 2 c.val
  else if c.val < 0x10000 then Python.str "\\u" ++ hexDigits 4 c.val
  else Python.str "\\U" ++ hexDigits 8 c.val

def reprStr (s : Str) : Str :=
  let quote := if CodePoint.ofChar '\'' ∈ s ∧ CodePoint.ofChar '"' ∉ s then '"' else '\''
  CodePoint.ofChar quote :: s.flatMap (reprChar quote) ++ [CodePoint.ofChar quote]

mutual

def repr : Value → Str
  | .none => Python.str "None"
  | .bool true => Python.str "True"
  | .bool false => Python.str "False"
  | .int i => Str.ofInt i
  | .float x => Double.repr x
  | .str s => reprStr s
  | .datetime t => t.repr
  | .list items => Python.str "[" ++ (Python.str ", ").intercalate (reprItems items) ++ Python.str "]"
  | .dict entries =>
      Python.str "\x7b" ++ (Python.str ", ").intercalate (reprEntries entries) ++ Python.str "\x7d"

def reprItems : List Value → List Str
  | [] => []
  | v :: items => repr v :: reprItems items

def reprEntries : List (Str × Value) → List Str
  | [] => []
  | (k, v) :: entries => (reprStr k ++ Python.str ": " ++ repr v) :: reprEntries entries

end

def toStr : Value → Str
  | .str s => s
  | .datetime t => t.isoFormat (Python.str " ")
  | v => repr v

@[simp] theorem toStr_str (s : Str) : toStr (.str s) = s := by
  simp [toStr]

/-- `_text`: the stripped string of a value, empty for `None`. -/
def text (v : Value) : Str := if v.isNone then [] else Str.strip v.toStr

end Spelling

/-! ## `int` and `float` -/

def intOfFloat (x : Float) : Except PyError Int :=
  if x.isNaN then .error .valueError
  else if x.isInf then .error .overflowError
  else
    let (num, den) := Double.magnitude x
    let whole : Int := (num / den : Nat)
    .ok (if Double.isNegative x then -whole else whole)

def groupedDigits [Unicode] : Bool → Str → Option (List Nat)
  | afterDigit, [] => if afterDigit then some [] else Option.none
  | afterDigit, c :: s =>
      if c = CodePoint.ofChar '_' then
        if afterDigit then groupedDigits false s else Option.none
      else do
        let d ← Str.decimal? c
        let ds ← groupedDigits true s
        return d :: ds

def intOfStr [Unicode] (s : Str) : Except PyError Int :=
  let text := s.strip
  let digits (s : Str) : Except PyError Int :=
    ((groupedDigits false s).map fun ds => (Str.ofDigits ds : Int)).elim (.error .valueError) .ok
  if Str.startsWith '-' text then (digits (text.drop 1)).map Neg.neg
  else if Str.startsWith '+' text then digits (text.drop 1)
  else digits text

def toInt [Unicode] : Value → Except PyError Int
  | .bool b => .ok (if b then 1 else 0)
  | .int i => .ok i
  | .float x => intOfFloat x
  | .str s => intOfStr s
  | _ => .error .typeError

@[simp] theorem toInt_int [Unicode] (i : Int) : toInt (.int i) = .ok i := rfl

def toFloat : Value → Except PyError Float
  | .bool b => .ok (if b then 1 else 0)
  | .int i => (Double.ofInt? i).elim (.error .overflowError) .ok
  | .float x => .ok x
  | _ => .error .typeError

end Value
end Proxyshop.Python

/-!
## `json.dumps`

The text `json.dumps(value, default=str)` writes, non-ASCII characters escaped.
-/

namespace Proxyshop.Python.Json

def unitEscape (unit : Nat) : Str := str "\\u" ++ Value.hexDigits 4 unit

def dumpsChar (c : CodePoint) : Str :=
  if c = CodePoint.ofChar '"' then str "\\\""
  else if c = CodePoint.ofChar '\\' then str "\\\\"
  else if c.val = 10 then str "\\n"
  else if c.val = 13 then str "\\r"
  else if c.val = 9 then str "\\t"
  else if c.val = 12 then str "\\f"
  else if c.val = 8 then str "\\b"
  else if 32 ≤ c.val ∧ c.val < 127 then [c]
  else if c.val < 0x10000 then unitEscape c.val
  else unitEscape (0xD800 + (c.val - 0x10000) / 0x400) ++ unitEscape (0xDC00 + (c.val - 0x10000) % 0x400)

def dumpsStr (s : Str) : Str := str "\"" ++ s.flatMap dumpsChar ++ str "\""

def dumpsFloat (x : Float) : Str :=
  if x.isNaN then str "NaN"
  else if x.isInf then (if Double.isNegative x then str "-Infinity" else str "Infinity")
  else Double.repr x

mutual

def dumps : Value → Str
  | .none => str "null"
  | .bool true => str "true"
  | .bool false => str "false"
  | .int i => Str.ofInt i
  | .float x => dumpsFloat x
  | .str s => dumpsStr s
  | .datetime t => dumpsStr (t.isoFormat (str " "))
  | .list items => str "[" ++ (str ", ").intercalate (dumpsItems items) ++ str "]"
  | .dict entries => str "\x7b" ++ (str ", ").intercalate (dumpsEntries entries) ++ str "\x7d"

def dumpsItems : List Value → List Str
  | [] => []
  | v :: items => dumps v :: dumpsItems items

def dumpsEntries : List (Str × Value) → List Str
  | [] => []
  | (k, v) :: entries => (dumpsStr k ++ str ": " ++ dumps v) :: dumpsEntries entries

end

end Proxyshop.Python.Json
