import Proxyshop.Python.Value
import Proxyshop.Ecmascript.Text
import Proxyshop.Numbers.Extended

/-!
# Numbers as a document spells them

An integer of any size or a double, and the numbers Python reads out of a text.
-/

namespace Proxyshop.Numbers

open Python

inductive Literal (F : Type)
  | integer (n : Int)
  | double (x : Extended F)

namespace Literal

variable {F : Type} [Format F]

/-- `float(n)`: an integer is rounded, and none that rounds to an infinity is converted. -/
def toDouble : Literal F → Except PyError (Extended F)
  | .integer n =>
      match Format.round (F := F) n with
      | .finite x => .ok (.finite x)
      | _ => .error .overflowError
  | .double x => .ok x

def huge : Literal F → Bool
  | .integer n => !(Format.round (F := F) n).isFinite
  | .double _ => false

def nearest : Literal F → Extended F
  | .integer n => Format.round n
  | .double x => x

theorem toDouble_eq (n : Literal F) :
    n.toDouble = if n.huge then .error .overflowError else .ok n.nearest := by
  cases n with
  | double x => rfl
  | integer n =>
      simp only [toDouble, huge, nearest]
      split <;> simp [*, Extended.isFinite]

/-- The exact comparison of two numbers: an undefined number is equal to none. -/
def same : Literal F → Literal F → Bool
  | .integer m, .integer n => m = n
  | .integer m, .double (.finite x) | .double (.finite x), .integer m => (m : ℚ) = Format.value x
  | .double (.finite x), .double (.finite y) => Format.value x = Format.value y
  | .double (.infinity s), .double (.infinity t) => s = t
  | _, _ => false

/-- `n == 0`. -/
def isZero : Literal F → Bool
  | .integer n => n = 0
  | .double (.finite x) => Format.value x = 0
  | _ => false

end Literal

/-- `int(q)` of a finite number. -/
def truncate (q : ℚ) : Int := if 0 ≤ q then q.num / q.den else -(-q.num / q.den)

/-! ## Numbers in a text -/

namespace NumberText

variable [Unicode]

def isBlank (ascii : Bool) (c : CodePoint) : Bool :=
  if ascii then c.val = 32 || (9 ≤ c.val && c.val ≤ 13) else c.isSpace

def isDecimal (c : CodePoint) : Bool := (Str.decimal? c).isSome

def underscore : CodePoint := CodePoint.ofChar '_'

/-- The text without its underscores, each of which stands between two digits. -/
def ungrouped : Bool → Str → Option Str
  | _, [] => some []
  | afterDigit, c :: rest =>
      if c = underscore then
        if afterDigit && rest.head?.any isDecimal then ungrouped false rest else none
      else (ungrouped (isDecimal c) rest).map (c :: ·)

/-- Whether the number is negative, and what follows the sign. -/
def signed (s : Str) : Bool × Str :=
  match Str.expect '-' s with
  | some rest => (true, rest)
  | none => (false, (Str.expect '+' s).getD s)

def digits (s : Str) : List Nat × Str :=
  ((s.takeWhile isDecimal).filterMap Str.decimal?, s.dropWhile isDecimal)

def spelled (text : Str) : Option (Bool × Str) :=
  (ungrouped false (text.stripBy (isBlank text.isAscii))).map signed

/-- `sys.int_info.default_max_str_digits`. -/
def maxStrDigits : Nat := 4300

/-- `int(text)`. -/
def readInt? (text : Str) : Option Int := do
  let (negative, body) ← spelled text
  let (ds, rest) := digits body
  if ds.isEmpty ∨ ¬ rest.isEmpty ∨ maxStrDigits < ds.length then none
  else some (if negative then -(Str.ofDigits ds : Int) else Str.ofDigits ds)

/-- The exponent of a number, what stands before it being read. -/
def exponent : Str → Option Int
  | [] => some 0
  | mark :: rest =>
      let (negative, body) := signed rest
      let (ds, rest) := digits body
      if (mark = CodePoint.ofChar 'e' ∨ mark = CodePoint.ofChar 'E') ∧ ¬ ds.isEmpty ∧ rest.isEmpty then
        some (if negative then -(Str.ofDigits ds : Int) else Str.ofDigits ds)
      else none

/-- The letters A to Z lowered, and no other character changed. -/
def asciiLower (s : Str) : Str :=
  s.map fun c => if 65 ≤ c.val ∧ c.val ≤ 90 then c + 32 else c

/-- `float(text)`. -/
def readFloat? {F : Type} [Format F] (text : Str) : Option (Extended F) := do
  let (negative, body) ← spelled text
  let word := asciiLower body
  if word = str "inf" ∨ word = str "infinity" then some (.infinity negative)
  else if word = str "nan" then some .nan
  else
    let (whole, rest) := digits body
    let (fraction, rest) := ((Str.expect '.' rest).map digits).getD ([], rest)
    if whole.isEmpty ∧ fraction.isEmpty then none
    else
      let power := (← exponent rest) - fraction.length
      let size : ℚ := Str.ofDigits (whole ++ fraction) * 10 ^ power
      some (Format.round (if negative then -size else size))

theorem isDecimal_of_digits {body rest : Str} {ds : List Nat} (read : digits body = (ds, rest))
    (filled : ds ≠ []) : ∃ c tail, body = c :: tail ∧ isDecimal c = true := by
  cases body with
  | nil => exact absurd (congrArg Prod.fst read).symm filled
  | cons c tail =>
      refine ⟨c, tail, rfl, ?_⟩
      by_contra other
      rw [Bool.not_eq_true] at other
      simp [digits, other] at read
      exact filled read.1

theorem asciiLower_ne {c first : CodePoint} {tail rest : Str} (decimal : isDecimal c = true)
    (letter : 97 ≤ first.val ∧ first.val ≤ 122) : asciiLower (c :: tail) ≠ first :: rest := by
  intro same
  have head : (if 65 ≤ c.val ∧ c.val ≤ 90 then c + 32 else c) = first := (List.cons.inj same).1
  have lettered : c.val < 128 ∧ ¬ (48 ≤ c.val ∧ c.val ≤ 57) := by
    split at head
    · omega
    · rw [head]
      omega
  have ascii : c.isAscii = true := decide_eq_true lettered.1
  rw [isDecimal, Str.decimal?, if_pos ascii, Str.digit?, if_neg lettered.2] at decimal
  cases decimal

theorem readFloat?_of_readInt? {F : Type} [Format F] {text : Str} {n : Int}
    (read : readInt? text = some n) : readFloat? text = some (Format.round (F := F) n) := by
  unfold readInt? at read
  unfold readFloat?
  cases spelling : spelled text with
  | none =>
      rw [spelling] at read
      cases read
  | some parts =>
      obtain ⟨negative, body⟩ := parts
      cases split_eq : digits body with
      | mk ds rest =>
          simp only [spelling, split_eq, Option.bind_eq_bind, Option.bind_some] at read ⊢
          split at read
          · cases read
          · rename_i readable
            rw [not_or, not_or, not_not] at readable
            obtain ⟨filled, ended, -⟩ := readable
            obtain rfl := List.isEmpty_iff.mp ended
            obtain ⟨c, tail, rfl, decimal⟩ :=
              isDecimal_of_digits split_eq fun none => filled (none ▸ rfl)
            have worded : ¬ (asciiLower (c :: tail) = str "inf" ∨
                asciiLower (c :: tail) = str "infinity") := by
              rintro (inf | infinity)
              · exact asciiLower_ne decimal (by decide) inf
              · exact asciiLower_ne decimal (by decide) infinity
            have numbered : asciiLower (c :: tail) ≠ str "nan" := asciiLower_ne decimal (by decide)
            obtain rfl := Option.some.inj read
            rw [if_neg worded, if_neg numbered]
            simp [Str.expect, filled, exponent]

end NumberText
end Proxyshop.Numbers
