import Mathlib.Data.Finset.Card
import Mathlib.Data.Finset.Dedup
import Proxyshop.Graph.Payloads
import Proxyshop.Numbers.Binary64
import Proxyshop.Structures.Fallible

/-!
# Identifiers and folded texts

What two spellings of one trade item agree on: the digits of its number, and the words of its name
with case, accents and look-alike letters folded away.
-/

namespace Proxyshop.Er

open Python Numbers Contracts Verification Graph Structures

abbrev Num := Extended Binary64

abbrev Value := Wire Binary64

/-- The tables of the Unicode database that folding reads beside those of the canonical form. -/
class Lettering extends Folding where
  nfd : Str → Str
  nfc : Str → Str
  combining : CodePoint → Bool
  /-- The category is `Cf` or `Cc`. -/
  invisible : CodePoint → Bool
  /-- The character matches `\w` and is no underscore. -/
  alphanumeric : CodePoint → Bool

@[reducible] def Lettering.ascii : Lettering where
  toFolding := Folding.ascii
  nfd s := s
  nfc s := s
  combining _ := false
  invisible c := c.val < 32 || c.val == 127
  alphanumeric c := (48 ≤ c.val && c.val ≤ 57) || (65 ≤ c.val && c.val ≤ 90) ||
    (97 ≤ c.val && c.val ≤ 122)

/-! ## GTINs -/

def gtinLengths : List Nat := [8, 12, 13, 14]

def gtinSeparators : List CodePoint :=
  [CodePoint.ofChar ' ', 0xa0, 0x202f, CodePoint.ofChar '-', 0x2010, 0x2013, CodePoint.ofChar '_']

/-- The weighted sum of digits, the weights 3 and 1 in turn. -/
def weighted : Bool → Str → Except PyError Nat
  | _, [] => .ok 0
  | heavy, c :: s =>
      match Str.digit? c with
      | none => .error .valueError
      | some d => do return d * (if heavy then 3 else 1) + (← weighted (!heavy) s)

def gtinCheckDigit (payload : Str) : Except PyError Nat := do
  return (10 - (← weighted true payload.reverse) % 10) % 10

/-- `text.rjust(width, "0")`. -/
def rjustZero (width : Nat) (s : Str) : Str :=
  List.replicate (width - s.length) (CodePoint.ofChar '0') ++ s

/-- The canonical form of digits, if they are the number of a trade item. -/
def canonicalGtin (digits : Str) : Except PyError (Option Str) :=
  if digits.isEmpty || digits.any (fun c => (Str.digit? c).isNone) then .ok none
  else if digits.length ∉ gtinLengths then .ok none
  else do
    let padded := rjustZero 14 digits
    let payload := padded.dropLast
    if some (← gtinCheckDigit payload) ≠ padded.getLast?.bind Str.digit? then return none
    else if payload.all (fun c => c = CodePoint.ofChar '0') then return none
    else return some padded

variable [Spelling Binary64] [Lettering]

/-- `normalize_gtin`; the empty answer is none. -/
def normalizeGtin : Value → Except PyError (Option Str)
  | .null | .bool _ => .ok none
  | value => do
      let text := (Folding.nfkc (← textOf value)).strip
      canonicalGtin (text.filter fun c => c ∉ gtinSeparators)

omit [Lettering] in
theorem textOf_error {value : Value} {e : PyError} (raised : textOf value = .error e) : e = .valueError := by
  unfold textOf Wire.write at raised
  split at raised
  · cases raised
  · split at raised <;> cases raised
    rfl

omit [Spelling Binary64] [Lettering] in
theorem weighted_error {heavy : Bool} {s : Str} {e : PyError} (raised : weighted heavy s = .error e) :
    e = .valueError := by
  induction s generalizing heavy with
  | nil => cases raised
  | cons c s ih =>
      unfold weighted at raised
      split at raised
      · cases raised
        rfl
      · rcases bind_eq_error.mp raised with inner | ⟨_, _, returned⟩
        · exact ih inner
        · cases returned

omit [Spelling Binary64] [Lettering] in
theorem canonicalGtin_error {digits : Str} {e : PyError} (raised : canonicalGtin digits = .error e) :
    e = .valueError := by
  unfold canonicalGtin at raised
  split at raised
  · cases raised
  · split at raised
    · cases raised
    · rcases bind_eq_error.mp raised with summed | ⟨_, _, returned⟩
      · rcases bind_eq_error.mp summed with inner | ⟨_, _, returned⟩
        · exact weighted_error inner
        · cases returned
      · split at returned
        · cases returned
        · split at returned <;> cases returned

theorem normalizeGtin_error {value : Value} {e : PyError} (raised : normalizeGtin value = .error e) :
    e = .valueError := by
  unfold normalizeGtin at raised
  split at raised
  · cases raised
  · cases raised
  · rcases bind_eq_error.mp raised with unspelled | ⟨_, _, inner⟩
    · exact textOf_error unspelled
    · exact canonicalGtin_error inner

/-! ## Words -/

def confusableFold : List (Char × Char) :=
  [('а', 'a'), ('в', 'b'), ('с', 'c'), ('ԁ', 'd'), ('е', 'e'), ('ѕ', 's'), ('һ', 'h'), ('і', 'i'),
    ('ј', 'j'), ('к', 'k'), ('м', 'm'), ('н', 'h'), ('о', 'o'), ('р', 'p'), ('т', 't'), ('у', 'y'),
    ('х', 'x'), ('ѵ', 'v'), ('α', 'a'), ('ε', 'e'), ('ι', 'i'), ('κ', 'k'), ('μ', 'm'), ('ν', 'v'),
    ('ο', 'o'), ('ρ', 'p'), ('τ', 't'), ('υ', 'y'), ('χ', 'x')]

def translate (c : CodePoint) : CodePoint :=
  ((confusableFold.find? fun entry => CodePoint.ofChar entry.1 = c).map
    fun entry => CodePoint.ofChar entry.2).getD c

omit [Spelling Binary64] in
def fold : Value → Str
  | .string value =>
      let decomposed := Lettering.nfd (canonicalText value)
      let visible := decomposed.filter fun c => !Lettering.combining c && !Lettering.invisible c
      let recomposed := (Lettering.nfc visible).map translate
      (collapse false recomposed).strip
  | _ => []

omit [Spelling Binary64] in
def tokens (value : Value) : List Str :=
  ((fold value).splitOnP fun c => !Lettering.alphanumeric c).filter fun part => !part.isEmpty

end Proxyshop.Er

/-!
## Similarity of two texts

Arithmetic on the sizes of sets of words and of runs of characters. The square root and the sum of
the interpreter are parameters; what is used of the sum is that it is a function of the terms.
-/

namespace Proxyshop.Er

open Python Numbers

/-- `math.sqrt`, and `sum` of floats. -/
class Summation where
  sqrt : Num → Num
  sum : List Num → Num

@[reducible] def Summation.plain : Summation where
  sqrt x := x
  sum terms := terms.foldl (· + ·) 0.0

def tokenWeight : Num := 0.6

def trigramOrder : Nat := 3

theorem plus_comm (x y : Num) : x + y = y + x := by
  show Extended.add x y = Extended.add y x
  cases x <;> cases y <;> simp only [Extended.add]
  · rw [add_comm]
  · rename_i s t
    cases s <;> cases t <;> rfl

theorem times_comm (x y : Num) : x * y = y * x := by
  show Extended.mul x y = Extended.mul y x
  cases x <;> cases y <;> simp only [Extended.mul]
  · rw [mul_comm]
  · rename_i s t
    cases s <;> cases t <;> rfl

/-! ## Sets of windows -/

/-- `a / b` of two whole numbers. -/
def ratio (a b : Nat) : Num := Binary64.round ((a : ℚ) / b)

def dice (left right : Finset Str) : Num :=
  let total := left.card + right.card
  if total = 0 then 0.0 else ratio (2 * (left ∩ right).card) total

theorem dice_comm (left right : Finset Str) : dice left right = dice right left := by
  simp only [dice, Nat.add_comm left.card, Finset.inter_comm left]

variable [Lettering]

def padStart : CodePoint := 2

def padEnd : CodePoint := 3

/-- The windows of a width over a text that is at least as long. -/
def windows (width : Nat) (s : Str) : List Str :=
  (List.range (s.length - width + 1)).map fun i => (s.drop i).take width

def trigrams (value : Value) : Finset Str :=
  let folded := fold value
  if folded.isEmpty then ∅
  else
    let padded := List.replicate (trigramOrder - 1) padStart ++ folded ++
      List.replicate (trigramOrder - 1) padEnd
    (windows trigramOrder padded).toFinset

def trigramDice (left right : Value) : Num := dice (trigrams left) (trigrams right)

theorem trigramDice_comm (left right : Value) : trigramDice left right = trigramDice right left :=
  dice_comm _ _

def uniqueTokens (value : Value) : List Str := (tokens value).eraseDups

/-- `max` of the terms, the first of which is `first`. -/
def maximum (first : Num) (rest : List Num) : Num := rest.foldl Extended.greatest first

variable [Summation]

def directionalAlignment (source target : List Str) : Num :=
  match target with
  | [] => 0.0
  | first :: rest =>
      if source.isEmpty then 0.0
      else
        let best (token : Str) : Num := maximum (trigramDice (.string token) (.string first))
          (rest.map fun other => trigramDice (.string token) (.string other))
        Summation.sum (source.map best) / ratio source.length 1

def tokenAlignment (left right : Value) : Num :=
  let leftTokens := uniqueTokens left
  let rightTokens := uniqueTokens right
  if leftTokens.isEmpty || rightTokens.isEmpty then 0.0
  else
    let forward := directionalAlignment leftTokens rightTokens
    let backward := directionalAlignment rightTokens leftTokens
    (forward + backward) / 2.0

theorem tokenAlignment_comm (left right : Value) :
    tokenAlignment left right = tokenAlignment right left := by
  simp only [tokenAlignment, Bool.or_comm (uniqueTokens left).isEmpty,
    plus_comm (directionalAlignment (uniqueTokens left) (uniqueTokens right))]

def textSimilarity (left right : Value) : Num :=
  let leftFolded := fold left
  let rightFolded := fold right
  if leftFolded.isEmpty || rightFolded.isEmpty then 0.0
  else if leftFolded = rightFolded then 1.0
  else
    let blended := tokenWeight * tokenAlignment left right +
      (1.0 - tokenWeight) * trigramDice left right
    Extended.least 1.0 (Extended.greatest 0.0 blended)

theorem textSimilarity_comm (left right : Value) :
    textSimilarity left right = textSimilarity right left := by
  simp only [textSimilarity, Bool.or_comm (fold left).isEmpty, tokenAlignment_comm left,
    trigramDice_comm left, eq_comm (a := fold left)]

end Proxyshop.Er
