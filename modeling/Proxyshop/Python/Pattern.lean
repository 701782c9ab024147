import Proxyshop.Numbers.Literal
import Proxyshop.Structures.Regex

/-!
# Patterns over text

The character classes and anchors of `re`, over texts.
-/

namespace Proxyshop.Python

open Structures Regex Numbers

/-- A database that says what a word is made of. Neither a decimal digit, nor a small letter of
ASCII, nor a hyphen is lowered to another character, and no digit is a blank. -/
class Prose extends Unicode where
  alphanumeric : CodePoint → Bool
  lower_plain (s : Str) : (∀ c ∈ s, (Str.decimal? c).isSome = true ∨ (97 ≤ c.val ∧ c.val ≤ 122) ∨
    c = CodePoint.ofChar '-') → lower s = s
  decimal_solid (c : CodePoint) : (decimal c).isSome = true → c.isSpace = false

theorem Unicode.ascii_lower_plain (s : Str) (plain : ∀ c ∈ s, (@Str.decimal? .ascii c).isSome = true ∨
    (97 ≤ c.val ∧ c.val ≤ 122) ∨ c = CodePoint.ofChar '-') : Unicode.ascii.lower s = s := by
  conv_rhs => rw [← List.map_id s]
  apply List.map_congr_left
  intro c member
  apply if_neg
  rcases plain c member with decimal | small | rfl
  · have digit : 48 ≤ c.val ∧ c.val ≤ 57 := by
      simp only [Str.decimal?, Str.digit?] at decimal
      split at decimal
      · split at decimal
        · assumption
        · cases decimal
      · cases decimal
    omega
  · omega
  · decide

theorem Unicode.ascii_decimal_solid (c : CodePoint) (decimal : (Unicode.ascii.decimal c).isSome = true) :
    c.isSpace = false := by
  cases decimal

@[reducible] def Prose.ascii : Prose where
  toUnicode := Unicode.ascii
  alphanumeric c := (48 ≤ c.val && c.val ≤ 57) || (65 ≤ c.val && c.val ≤ 90) || (97 ≤ c.val && c.val ≤ 122)
  lower_plain := Unicode.ascii_lower_plain
  decimal_solid := Unicode.ascii_decimal_solid

namespace Pattern

variable [Prose]

/-- `\w` -/
def isWord (c : CodePoint) : Bool := Prose.alphanumeric c || c = CodePoint.ofChar '_'

/-- `\d` -/
def digit : Regex CodePoint := .one NumberText.isDecimal

/-- `\s` -/
def white : Regex CodePoint := .one CodePoint.isSpace

/-- `\b` -/
def wordEdge : Regex CodePoint :=
  .edge fun before after => before.head?.any isWord != after.head?.any isWord

/-- `\w` as a pattern. -/
def letter : Regex CodePoint := .one isWord

/-- `$`, which also stands before the last line feed. -/
def textEnd : Regex CodePoint := .edge fun _ after => after.isEmpty || after = [CodePoint.ofChar '\n']

def lit (s : String) : Regex CodePoint := word (str s)

/-- `[…]` -/
def oneOf (s : String) : Regex CodePoint := .one fun c => c ∈ str s

/-- `[^…]` -/
def noneOf (s : String) : Regex CodePoint := .one fun c => c ∉ str s

def all (rs : List (Regex CodePoint)) : Regex CodePoint := rs.foldr (· * ·) 1

/-- Words with `\s+` for a blank and an optional character before each question mark. -/
def spell : Str → Regex CodePoint
  | [] => 1
  | c :: rest =>
      let this := if c = CodePoint.ofChar ' ' then several white else .one (· = c)
      match rest with
      | [] => this
      | d :: rest => if d = CodePoint.ofChar '?' then optional this * spell rest else this * spell (d :: rest)

def phrase (s : String) : Regex CodePoint := spell (str s)

def phrases (ss : List String) : Regex CodePoint := anyOf (ss.map phrase)

/-- `\b(?:…)\b` -/
def whole (r : Regex CodePoint) : Regex CodePoint := wordEdge * r * wordEdge

def term (s : String) : Regex CodePoint := whole (phrase s)

def terms (ss : List String) : List (Regex CodePoint) := ss.map term

/-! ## Groups -/

section Groups

variable (n : Nat)

@[simp] theorem bodies_wordEdge : bodies n wordEdge = [] := rfl

@[simp] theorem bodies_digit : bodies n digit = [] := rfl

omit [Prose] in
@[simp] theorem bodies_white : bodies n white = [] := rfl

omit [Prose] in
@[simp] theorem bodies_lit (s : String) : bodies n (lit s) = [] := bodies_word n _

omit [Prose] in
@[simp] theorem bodies_spell (s : Str) : bodies n (spell s) = [] := by
  have this : ∀ c, bodies n (if c = CodePoint.ofChar ' ' then several white else .one (· = c)) = [] := by
    intro c
    split <;> rfl
  induction s using spell.induct with
  | case1 => rfl
  | case2 c => exact this c
  | case3 c rest ih =>
      rw [spell, if_pos rfl, bodies_mul, bodies_optional, this, ih]
      rfl
  | case4 c d rest different ih =>
      rw [spell, if_neg different, bodies_mul, this, ih]
      rfl

omit [Prose] in
@[simp] theorem bodies_phrase (s : String) : bodies n (phrase s) = [] := bodies_spell n _

omit [Prose] in
@[simp] theorem bodies_phrases (ss : List String) : bodies n (phrases ss) = [] := by
  simp [phrases]

@[simp] theorem bodies_whole (r : Regex CodePoint) : bodies n (whole r) = bodies n r := by
  simp [whole]

@[simp] theorem bodies_term (s : String) : bodies n (term s) = [] := by
  simp [term]

end Groups

end Pattern
end Proxyshop.Python
