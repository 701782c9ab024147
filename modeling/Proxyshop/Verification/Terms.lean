import Proxyshop.Numbers.Whole
import Proxyshop.Verification.Pitch

/-!
# The terms a pitch states

A warranty is quoted in years or months, a window in weeks, days or business days. What each rule makes
of the number and the unit that it captures is compared with the term they spell.
-/

namespace Proxyshop.Verification

open Python Numbers Structures Pattern

/-! ## Terms -/

/-- A span of the calendar: no number of days makes a month, nor of business days a day. -/
structure CalendarTerm where
  months : Int
  days : Int
  businessDays : Int
  deriving DecidableEq

section Prose

variable [Prose]

def numberIn (text : Str) : Nat :=
  (spelledNumbers.lookup text).getD (Str.ofDigits (text.filterMap Str.decimal?))

def numberOf (found : Regex.Match CodePoint) : Nat := numberIn ((found.group 1).getD [])

/-- The unit word as the pattern captures it, without its plural. -/
def unitIn (found : Regex.Match CodePoint) : Str := (found.group 2).getD []

def written (found : Regex.Match CodePoint) : CalendarTerm :=
  let n : Int := numberOf found
  if unitIn found = str "year" then ⟨12 * n, 0, 0⟩
  else if unitIn found = str "month" then ⟨n, 0, 0⟩
  else if unitIn found = str "week" then ⟨0, 7 * n, 0⟩
  else if unitIn found = str "day" then ⟨0, n, 0⟩
  else ⟨0, 0, n⟩

def minted (value : Int) (unit : Str) : CalendarTerm :=
  if unit = str "months" then ⟨value, 0, 0⟩
  else if unit = str "days" then ⟨0, value, 0⟩
  else ⟨0, 0, value⟩

def size (found : Regex.Match CodePoint) : Nat :=
  if unitIn found = str "year" then 12 * numberOf found
  else if unitIn found = str "week" then 7 * numberOf found
  else numberOf found

def termRules : List PitchRule := [warrantyTerm, warrantyTermTrailing, dispatchWindow, returnWindow]

def Normalised (rule : PitchRule) (found : Regex.Match CodePoint) : Prop :=
  ∃ key value unit, rule.value found = .ok (some (key, .whole value, some unit)) ∧
    minted value unit = written found

/-! ## What the patterns capture -/

def IsNumber (text : Str) : Prop :=
  (text ≠ [] ∧ ∀ c ∈ text, NumberText.isDecimal c = true) ∨ ∃ n, (text, n) ∈ spelledNumbers

def isUnit (units : List Str) (text : Str) : Prop :=
  text ∈ units ∨ ∃ gap, (∀ c ∈ gap, c.isSpace = true) ∧ text = str "business" ++ gap ++ str "day"

/-- A match of the rule captures a number, and one of the units. -/
def Captures (rule : PitchRule) (units : Str → Prop) : Prop :=
  ∀ {sentence : Str} {found : Regex.Match CodePoint}, found ∈ rule.pattern.finditer sentence →
    (∃ text, found.group 1 = some text ∧ IsNumber text) ∧ ∃ text, found.group 2 = some text ∧ units text

theorem Captures.mono {rule : PitchRule} {units units' : Str → Prop} (captures : Captures rule units)
    (more : ∀ u, units u → units' u) : Captures rule units' := by
  intro sentence found matched
  obtain ⟨number, text, captured, unit⟩ := captures matched
  exact ⟨number, text, captured, more text unit⟩

theorem isNumber_of_digits {text : Str} (inside : text ∈ (Regex.several digit).language) : IsNumber text :=
  Or.inl (Regex.mem_several.mp inside)

theorem isNumber_of_mem {text : Str} (inside : text ∈ numberOrWord.language) : IsNumber text := by
  rcases inside with digits | worded
  · exact isNumber_of_digits digits
  · obtain ⟨r, listed, spelled⟩ := Regex.mem_anyOf.mp worded
    obtain ⟨⟨word, n⟩, member, rfl⟩ := List.mem_map.mp listed
    rw [Regex.mem_word] at spelled
    exact Or.inr ⟨n, spelled ▸ member⟩

omit [Prose] in
theorem mem_lit {s : String} {text : Str} : text ∈ (lit s).language ↔ text = str s := Regex.mem_word

omit [Prose] in
theorem mem_businessDay {text : Str} (inside : text ∈ businessDay.language) :
    ∃ gap, (∀ c ∈ gap, c.isSpace = true) ∧ text = str "business" ++ gap ++ str "day" := by
  obtain ⟨front, ⟨head, first, gap, blank, rfl⟩, tail, last, rfl⟩ := inside
  refine ⟨gap, (Regex.mem_several.mp blank).2, ?_⟩
  rw [← mem_lit.mp first, ← mem_lit.mp last]

omit [Prose] in
theorem isUnit_of_mem {units : List String} {text : Str}
    (inside : text ∈ (Regex.anyOf (businessDay :: units.map lit)).language) : isUnit (units.map str) text := by
  obtain ⟨r, listed, spelled⟩ := Regex.mem_anyOf.mp inside
  rcases List.mem_cons.mp listed with rfl | unit
  · exact Or.inr (mem_businessDay spelled)
  · obtain ⟨name, member, rfl⟩ := List.mem_map.mp unit
    rw [mem_lit] at spelled
    exact Or.inl (List.mem_map.mpr ⟨name, member, spelled.symm⟩)

theorem captures_of_bodies {rule : PitchRule} (number unit : Regex CodePoint) {units : Str → Prop}
    (first : Regex.bodies 1 rule.pattern = [number]) (second : Regex.bodies 2 rule.pattern = [unit])
    (sure : Regex.always 1 rule.pattern = true) (sure' : Regex.always 2 rule.pattern = true)
    (numbers : ∀ {text}, text ∈ number.language → IsNumber text)
    (unitWords : ∀ {text}, text ∈ unit.language → units text) : Captures rule units := by
  intro sentence found matched
  have matches' := Regex.finditer_matches matched
  obtain ⟨text, ⟨body, listed, inside⟩, captured⟩ := matches'.group sure
  obtain ⟨text', ⟨body', listed', inside'⟩, captured'⟩ := matches'.group sure'
  rw [first, List.mem_singleton] at listed
  rw [second, List.mem_singleton] at listed'
  exact ⟨⟨text, captured, numbers (listed ▸ inside)⟩, text', captured', unitWords (listed' ▸ inside')⟩

omit [Prose] in
theorem warranty_unit {text : Str} (inside : text ∈ (lit "year" + lit "month").language) :
    text = str "year" ∨ text = str "month" := inside.imp mem_lit.mp mem_lit.mp

omit [Prose] in
@[simp] theorem bodies_within (n k : Nat) : Regex.bodies n (within k) = [] := Regex.bodies_lazyUpTo n rfl k

@[simp] theorem bodies_numberOrWord (n : Nat) : Regex.bodies n numberOrWord = [] := by
  simp [numberOrWord, List.flatMap_map]

omit [Prose] in
@[simp] theorem bodies_businessDay (n : Nat) : Regex.bodies n businessDay = [] := by
  simp [businessDay]

omit [Prose] in
@[simp] theorem bodies_whiteOrDash (n : Nat) : Regex.bodies n whiteOrDash = [] := rfl

theorem warrantyTerm_captures : Captures warrantyTerm fun u => u = str "year" ∨ u = str "month" := by
  apply captures_of_bodies numberOrWord (lit "year" + lit "month")
  · simp [warrantyTerm, yearOrMonth]
  · simp [warrantyTerm, yearOrMonth]
  · simp [warrantyTerm]
  · simp [warrantyTerm, yearOrMonth]
  · exact isNumber_of_mem
  · exact warranty_unit

theorem warrantyTermTrailing_captures : Captures warrantyTermTrailing fun u => u = str "year" ∨ u = str "month" := by
  apply captures_of_bodies numberOrWord (lit "year" + lit "month")
  · simp [warrantyTermTrailing, yearOrMonth]
  · simp [warrantyTermTrailing, yearOrMonth]
  · simp [warrantyTermTrailing]
  · simp [warrantyTermTrailing, yearOrMonth]
  · exact isNumber_of_mem
  · exact warranty_unit

theorem dispatchWindow_captures : Captures dispatchWindow (isUnit [str "day", str "week"]) := by
  apply captures_of_bodies (Regex.several digit) (Regex.anyOf (businessDay :: ["day", "week"].map lit))
  · simp [dispatchWindow]
  · simp [dispatchWindow]
  · simp [dispatchWindow]
  · simp [dispatchWindow]
  · exact isNumber_of_digits
  · exact isUnit_of_mem

theorem returnWindow_captures : Captures returnWindow (isUnit [str "day", str "week", str "month"]) := by
  apply captures_of_bodies (Regex.several digit)
    (Regex.anyOf (businessDay :: ["day", "week", "month"].map lit))
  · simp [returnWindow]
  · simp [returnWindow]
  · simp [returnWindow]
  · simp [returnWindow]
  · exact isNumber_of_digits
  · exact isUnit_of_mem

/-! ## Numbers -/

theorem not_isSpace_of_isDecimal {c : CodePoint} (decimal : NumberText.isDecimal c = true) :
    c.isSpace = false := by
  rw [NumberText.isDecimal, Str.decimal?] at decimal
  split at decimal
  · obtain ⟨d, digit⟩ := Option.isSome_iff_exists.mp decimal
    exact Str.isSpace_of_digit digit
  · exact Prose.decimal_solid c decimal

theorem not_isBlank_of_isDecimal {c : CodePoint} (decimal : NumberText.isDecimal c = true) (ascii : Bool) :
    NumberText.isBlank ascii c = false := by
  have solid := not_isSpace_of_isDecimal decimal
  rw [NumberText.isBlank]
  split
  · simp only [CodePoint.isSpace, Bool.or_eq_false_iff, Bool.and_eq_false_iff, decide_eq_false_iff_not,
      beq_eq_false_iff_ne] at solid ⊢
    omega
  · exact solid

theorem isDecimal_ne {c d : CodePoint} (decimal : NumberText.isDecimal c = true)
    (ascii : d.isAscii = true) (other : Str.digit? d = none) : c ≠ d := by
  rintro rfl
  rw [NumberText.isDecimal, Str.decimal?, if_pos ascii, other] at decimal
  cases decimal

omit [Prose] in
theorem stripBy_eq_self {p : CodePoint → Bool} {s : Str} (solid : ∀ c ∈ s, p c = false) :
    s.stripBy p = s := by
  have left : s.dropWhile p = s := by
    rw [List.dropWhile_eq_self_iff]
    intro nonempty
    simp [solid _ (List.getElem_mem nonempty)]
  rw [Str.stripBy, left, List.rdropWhile_eq_self_iff]
  intro nonempty
  simp [solid _ (List.getLast_mem nonempty)]

theorem ungrouped_digits {text : Str} (digits : ∀ c ∈ text, NumberText.isDecimal c = true) (after : Bool) :
    NumberText.ungrouped after text = some text := by
  induction text generalizing after with
  | nil => rfl
  | cons c text ih =>
      rw [List.forall_mem_cons] at digits
      have other : c ≠ NumberText.underscore := isDecimal_ne digits.1 rfl rfl
      rw [NumberText.ungrouped, if_neg other, ih digits.2]
      rfl

theorem readFloat?_digits {text : Str} (nonempty : text ≠ [])
    (digits : ∀ c ∈ text, NumberText.isDecimal c = true) :
    NumberText.readFloat? text =
      some (Format.round (F := Binary64) (Str.ofDigits (text.filterMap Str.decimal?) : ℕ)) := by
  have whole : NumberText.digits text = (text.filterMap Str.decimal?, []) := by
    rw [NumberText.digits, List.takeWhile_eq_self_iff.mpr digits, List.dropWhile_eq_nil_iff.mpr digits]
  obtain ⟨c, tail, rfl⟩ := List.exists_cons_of_ne_nil nonempty
  have first := digits c List.mem_cons_self
  have spelling : NumberText.spelled (c :: tail) = some (false, c :: tail) := by
    have strips : Str.stripBy (NumberText.isBlank (Str.isAscii (c :: tail))) (c :: tail) = c :: tail :=
      stripBy_eq_self fun d member => not_isBlank_of_isDecimal (digits d member) _
    have minus : c ≠ CodePoint.ofChar '-' := isDecimal_ne first rfl rfl
    have plus : c ≠ CodePoint.ofChar '+' := isDecimal_ne first rfl rfl
    rw [NumberText.spelled, strips, ungrouped_digits digits]
    simp [NumberText.signed, Str.expect, minus, plus]
  have filled : (c :: tail).filterMap Str.decimal? ≠ [] := by
    obtain ⟨d, digit⟩ := Option.isSome_iff_exists.mp first
    rw [List.filterMap_cons_some digit]
    exact List.cons_ne_nil _ _
  have worded : ¬ (NumberText.asciiLower (c :: tail) = str "inf" ∨
      NumberText.asciiLower (c :: tail) = str "infinity") := by
    rintro (inf | infinity)
    · exact NumberText.asciiLower_ne first (by decide) inf
    · exact NumberText.asciiLower_ne first (by decide) infinity
  have numbered : NumberText.asciiLower (c :: tail) ≠ str "nan" :=
    NumberText.asciiLower_ne first (by decide)
  unfold NumberText.readFloat?
  simp only [spelling, whole, Option.bind_eq_bind, Option.bind_some]
  rw [if_neg worded, if_neg numbered]
  simp [Str.expect, filled, NumberText.exponent]

def isPlainLetter (c : CodePoint) : Bool := (97 ≤ c.val && c.val ≤ 122) || c = CodePoint.ofChar '-'

theorem not_isDecimal_of_isPlainLetter {c : CodePoint} (letter : isPlainLetter c = true) :
    NumberText.isDecimal c = false := by
  rw [isPlainLetter, Bool.or_eq_true, Bool.and_eq_true, decide_eq_true_eq, decide_eq_true_eq,
    decide_eq_true_eq] at letter
  rcases letter with small | rfl
  · have ascii : c.isAscii = true := decide_eq_true (by omega)
    rw [NumberText.isDecimal, Str.decimal?, if_pos ascii, Str.digit?, if_neg (by omega)]
    rfl
  · rfl

omit [Prose] in
theorem spelledNumbers_plain : (spelledNumbers.all fun entry => !entry.1.isEmpty && entry.1.all fun c =>
    isPlainLetter c && !c.isSpace && c ≠ CodePoint.ofChar ',') = true := by decide

omit [Prose] in
theorem spelledNumbers_lookup : (spelledNumbers.all fun entry =>
    spelledNumbers.lookup entry.1 = some entry.2) = true := by decide

omit [Prose] in
theorem mem_of_lookup {text : Str} {n : Nat} {table : List (Str × Nat)}
    (found : table.lookup text = some n) : (text, n) ∈ table := by
  induction table with
  | nil => cases found
  | cons entry table ih =>
      rw [List.lookup_cons] at found
      split at found
      · rename_i same
        rw [beq_iff_eq.mp same, ← Option.some.inj found]
        exact List.mem_cons_self
      · exact List.mem_cons_of_mem _ (ih found)

omit [Prose] in
theorem replace_comma {text : Str} (free : ∀ c ∈ text, c ≠ CodePoint.ofChar ',') :
    Str.replace text (str ",") [] = text := by
  have comma : str "," = [CodePoint.ofChar ','] := by decide
  rw [comma, Str.replace_singleton]
  induction text with
  | nil => rfl
  | cons c text ih =>
      rw [List.forall_mem_cons] at free
      rw [List.flatMap_cons, if_neg free.1, ih free.2]
      rfl

theorem amount_of_plain {text : Str} (plain : ∀ c ∈ text, NumberText.isDecimal c = true ∨
    isPlainLetter c = true) (solid : ∀ c ∈ text, c.isSpace = false)
    (free : ∀ c ∈ text, c ≠ CodePoint.ofChar ',') :
    amount text = match spelledNumbers.lookup text with
      | some n => some (Format.round n)
      | none => NumberText.readFloat? text := by
  have lowered : Unicode.lower text = text := by
    apply Prose.lower_plain
    intro c member
    rcases plain c member with decimal | letter
    · exact Or.inl decimal
    · right
      simpa [isPlainLetter] using letter
  unfold amount
  rw [Str.strip_eq_self solid, lowered, replace_comma free] <;> rfl

theorem amount_of_isNumber {text : Str} (number : IsNumber text) :
    amount text = some (Format.round (F := Binary64) (numberIn text : ℕ)) := by
  rcases number with ⟨nonempty, digits⟩ | ⟨n, listed⟩
  · have unlisted : spelledNumbers.lookup text = none := by
      by_contra found
      obtain ⟨n, found⟩ := Option.ne_none_iff_exists'.mp found
      have plain := List.all_eq_true.mp spelledNumbers_plain _ (mem_of_lookup found)
      obtain ⟨c, tail, rfl⟩ := List.exists_cons_of_ne_nil nonempty
      simp only [Bool.and_eq_true, List.all_cons] at plain
      have letter := not_isDecimal_of_isPlainLetter plain.2.1.1.1
      rw [digits c List.mem_cons_self] at letter
      cases letter
    rw [amount_of_plain (fun c member => Or.inl (digits c member))
      (fun c member => not_isSpace_of_isDecimal (digits c member))
      (fun c member => isDecimal_ne (digits c member) rfl rfl), numberIn, unlisted]
    exact readFloat?_digits nonempty digits
  · have plain := List.all_eq_true.mp spelledNumbers_plain _ listed
    have found := List.all_eq_true.mp spelledNumbers_lookup _ listed
    simp only [Bool.and_eq_true, List.all_eq_true, Bool.not_eq_true', decide_eq_true_eq] at plain found
    rw [amount_of_plain (fun c member => Or.inr (plain.2 c member).1.1)
      (fun c member => (plain.2 c member).1.2) (fun c member => (plain.2 c member).2), numberIn, found]
    rfl

/-! ## Units -/

omit [Prose] in
theorem business_cons (gap : Str) : str "business" ++ gap ++ str "day" =
    CodePoint.ofChar 'b' :: (str "usiness" ++ gap ++ str "day") := by
  have front : str "business" = CodePoint.ofChar 'b' :: str "usiness" := by decide
  rw [front]
  rfl

omit [Prose] in
theorem unitWord_business (gap : Str) : unitWord (str "business" ++ gap ++ str "day") =
    str "business" ++ gap ++ str "day" := by
  have back : str "business" ++ gap ++ str "day" =
      (str "business" ++ gap ++ str "da") ++ [CodePoint.ofChar 'y'] := by
    have last : str "day" = str "da" ++ [CodePoint.ofChar 'y'] := by decide
    rw [last, ← List.append_assoc]
  have kept : (str "business" ++ gap ++ str "day").dropWhile CodePoint.isSpace =
      str "business" ++ gap ++ str "day" := by
    rw [business_cons]
    rfl
  have solid : ¬ (CodePoint.ofChar 'y').isSpace = true := by decide
  have single : ¬ (decide (CodePoint.ofChar 'y' = CodePoint.ofChar 's')) = true := by decide
  rw [unitWord, Str.strip, kept, back, List.rdropWhile_concat_neg _ _ _ solid]
  exact List.rdropWhile_concat_neg _ _ _ single

def knownUnits : List Str := [str "year", str "month", str "week", str "day"]

omit [Prose] in
theorem knownUnits_words : (knownUnits.all fun u => !u.isEmpty && unitWord u = u) = true := by
  decide

omit [Prose] in
theorem unitOf_eq {found : Regex.Match CodePoint} {u : Str} (captured : found.group 2 = some u)
    (unit : isUnit knownUnits u) (default : String) : unitOf found default = u := by
  have taken : capturedText found 2 (str default) = u := by
    rw [capturedText, captured]
    rfl
  have word : u.isEmpty = false ∧ unitWord u = u := by
    rcases unit with known | ⟨gap, -, rfl⟩
    · simpa using List.all_eq_true.mp knownUnits_words u known
    · refine ⟨?_, unitWord_business gap⟩
      rw [business_cons]
      rfl
  rw [unitOf, taken, Str.or, word.1]
  exact word.2

omit [Prose] in
theorem business_prefix (gap : Str) :
    (str "week").isPrefixOf (str "business" ++ gap ++ str "day") = false ∧
      (str "business").isPrefixOf (str "business" ++ gap ++ str "day") = true := by
  constructor
  · rw [business_cons]
    rfl
  · rw [List.isPrefixOf_iff_prefix, List.append_assoc]
    exact List.prefix_append _ _

omit [Prose] in
theorem business_ne (gap : Str) : ∀ u ∈ knownUnits, str "business" ++ gap ++ str "day" ≠ u := by
  have heads : (knownUnits.all fun u => u.head? ≠ some (CodePoint.ofChar 'b')) = true := by decide
  rintro u known same
  have head := List.all_eq_true.mp heads u known
  rw [← same, business_cons] at head
  simp at head

/-! ## What the rules mint -/

omit [Prose] in
theorem toInt_eq_ok {x : Extended Binary64} {n : Int} :
    toInt x = .ok n ↔ ∃ y, x = .finite y ∧ truncate y.value = n := by
  cases x <;> simp [toInt]

omit [Prose] in
theorem minted_iff {x : Extended Binary64} {key unit : Str} {term : CalendarTerm} {n : Int}
    (named : ∀ v, minted v unit = term ↔ v = n) :
    (∃ key' value unit', (do
        let v ← toInt x
        return some (key, .whole v, some unit) : Except PyError (Option (Str × Stated × Option Str))) =
          .ok (some (key', .whole value, some unit')) ∧ minted value unit' = term) ↔
      ∃ y, x = .finite y ∧ truncate y.value = n := by
  constructor
  · rintro ⟨key', value, unit', made, term'⟩
    obtain ⟨v, counted, made⟩ := bind_eq_ok.mp made
    cases made
    rw [← toInt_eq_ok, ← (named value).mp term']
    exact counted
  · intro met
    have counted := toInt_eq_ok.mpr met
    exact ⟨key, n, unit, by rw [counted]; rfl, (named n).mpr rfl⟩

def twelve : Binary64 := ⟨12, 12, 0, by norm_num, by norm_num, by norm_num, by
  exact lt_trans (by norm_num : |(12 : ℚ)| < 2 ^ 4) (pow_lt_pow_right₀ (by norm_num) (by norm_num))⟩

def seven : Binary64 := ⟨7, 7, 0, by norm_num, by norm_num, by norm_num, by
  exact lt_trans (by norm_num : |(7 : ℚ)| < 2 ^ 3) (pow_lt_pow_right₀ (by norm_num) (by norm_num))⟩

omit [Prose] in
theorem twelve_eq : (12.0 : Extended Binary64) = .finite twelve :=
  Binary64.literal_eq twelve (by rw [twelve]; norm_num)

omit [Prose] in
theorem seven_eq : (7.0 : Extended Binary64) = .finite seven :=
  Binary64.literal_eq seven (by rw [seven]; norm_num)

def PitchRule.isWindow (rule : PitchRule) : Bool :=
  match rule.reader with
  | .days _ => true
  | _ => false

section Matches

variable {rule : PitchRule} {key : Str} {sentence : Str} {found : Regex.Match CodePoint}

theorem captures_read {units : Str → Prop} (known : ∀ u, units u → isUnit knownUnits u)
    (captures : Captures rule units) (matched : found ∈ rule.pattern.finditer sentence) :
    units (unitIn found) ∧ amount (capturedText found 1 []) = some (Format.round (numberOf found : ℕ)) ∧
      ∀ default, unitOf found default = unitIn found := by
  obtain ⟨⟨text, first, number⟩, u, second, unit⟩ := captures matched
  have named : unitIn found = u := by
    rw [unitIn, second]
    rfl
  have numbered : numberOf found = numberIn text := by
    rw [numberOf, first]
    rfl
  have taken : capturedText found 1 [] = text := by
    rw [capturedText, first]
    rfl
  rw [named, numbered, taken]
  exact ⟨unit, amount_of_isNumber number, unitOf_eq second (known u unit)⟩

theorem duration_normalised_iff (reads : rule.reader = .duration key)
    (captures : Captures rule fun u => u = str "year" ∨ u = str "month")
    (matched : found ∈ rule.pattern.finditer sentence) :
    Normalised rule found ↔ Representable (size found : ℕ) := by
  have known : ∀ u, (u = str "year" ∨ u = str "month") → isUnit knownUnits u := by
    rintro u (rfl | rfl)
    · exact Or.inl List.mem_cons_self
    · exact Or.inl (List.mem_cons_of_mem _ List.mem_cons_self)
  obtain ⟨unit, read, word⟩ := captures_read known captures matched
  rw [Normalised, PitchRule.value]
  simp only [reads, read, word]
  rcases unit with year | month
  · have named : ∀ v : Int, minted v (str "months") = written found ↔ v = ((2 ^ 2 * 3 * numberOf found : ℕ) : ℤ) := by
      intro v
      simp [minted, written, year]
    have scaled : durationIn (unitIn found) (Format.round (numberOf found : ℕ)) =
        Binary64.round (numberOf found : ℕ) * .finite twelve := by
      rw [durationIn, year, twelve_eq]
      rfl
    have size_eq : size found = 2 ^ 2 * 3 * numberOf found := if_pos year
    rw [minted_iff named, scaled, size_eq]
    exact Binary64.round_mul_iff (by decide) (by rw [twelve]; norm_num)
  · have named : ∀ v : Int, minted v (str "months") = written found ↔ v = numberOf found := by
      intro v
      simp [minted, written, month]
    have plain : durationIn (unitIn found) (Format.round (numberOf found : ℕ)) =
        (Format.round (numberOf found : ℕ) : Extended Binary64) := by
      rw [durationIn, month]
      rfl
    have size_eq : size found = numberOf found := by simp [size, month]
    rw [minted_iff named, plain, size_eq]
    exact_mod_cast Binary64.round_whole_iff (numberOf found)

theorem window_plain_iff {unit : Str} {term : CalendarTerm}
    (named : ∀ v, minted v unit = term ↔ v = numberOf found)
    (single : (str "week").isPrefixOf (unitIn found) = false) :
    (∃ key' value unit', (do
        let v ← toInt (daysIn (unitIn found) (Format.round (numberOf found : ℕ)))
        return some (key, .whole v, some unit) : Except PyError (Option (Str × Stated × Option Str))) =
          .ok (some (key', .whole value, some unit')) ∧ minted value unit' = term) ↔
      Representable (numberOf found : ℕ) := by
  rw [minted_iff named, daysIn, single]
  exact_mod_cast Binary64.round_whole_iff (numberOf found)

omit [Prose] in
theorem dayUnits_known {u : Str} (unit : isUnit [str "day", str "week", str "month"] u) : isUnit knownUnits u := by
  rcases unit with listed | business
  · left
    simp only [List.mem_cons, List.not_mem_nil, or_false] at listed
    rcases listed with rfl | rfl | rfl <;> simp [knownUnits]
  · exact Or.inr business

theorem window_normalised_iff (reads : rule.reader = .days key)
    (captures : Captures rule (isUnit [str "day", str "week", str "month"]))
    (matched : found ∈ rule.pattern.finditer sentence) :
    Normalised rule found ↔ Representable (size found : ℕ) ∧
      (unitIn found = str "month" → numberOf found = 0) := by
  obtain ⟨unit, read, word⟩ := captures_read (fun _ => dayUnits_known) captures matched
  rw [Normalised, PitchRule.value]
  simp only [reads, read, word]
  rcases unit with listed | ⟨gap, -, business⟩
  · simp only [List.mem_cons, List.not_mem_nil, or_false] at listed
    rcases listed with day | week | month
    · have named : ∀ v : Int, minted v (str "days") = written found ↔ v = numberOf found := by
        intro v
        simp [minted, written, day]
      have size_eq : size found = numberOf found := by simp [size, day]
      have other : (str "business").isPrefixOf (unitIn found) = false := by
        rw [day]
        rfl
      have single : (str "week").isPrefixOf (unitIn found) = false := by
        rw [day]
        rfl
      simp only [other, Bool.false_eq_true, if_false]
      rw [window_plain_iff named single, size_eq]
      simp [day]
    · have named : ∀ v : Int, minted v (str "days") = written found ↔
          v = ((2 ^ 0 * 7 * numberOf found : ℕ) : ℤ) := by
        intro v
        simp [minted, written, week]
      have size_eq : size found = 2 ^ 0 * 7 * numberOf found := by simp [size, week]
      have other : (str "business").isPrefixOf (unitIn found) = false := by
        rw [week]
        rfl
      have scaled : daysIn (unitIn found) (Format.round (numberOf found : ℕ)) =
          Binary64.round (numberOf found : ℕ) * .finite seven := by
        rw [daysIn, week, seven_eq]
        rfl
      simp only [other, Bool.false_eq_true, if_false]
      rw [minted_iff named, scaled, size_eq, Binary64.round_mul_iff (by decide) (by rw [seven]; norm_num)]
      simp [week]
    · have size_eq : size found = numberOf found := by simp [size, month]
      have other : (str "business").isPrefixOf (unitIn found) = false := by
        rw [month]
        rfl
      have single : (str "week").isPrefixOf (unitIn found) = false := by
        rw [month]
        rfl
      simp only [other, Bool.false_eq_true, if_false, size_eq]
      by_cases nought : numberOf found = 0
      · have named : ∀ v : Int, minted v (str "days") = written found ↔ v = numberOf found := by
          intro v
          simp [minted, written, month, nought]
        rw [window_plain_iff named single]
        exact (and_iff_left fun _ => nought).symm
      · apply iff_of_false
        · rintro ⟨key', value, unit', made, term⟩
          obtain ⟨v, -, made⟩ := bind_eq_ok.mp made
          cases made
          apply nought
          simpa [minted, written, month] using (congrArg CalendarTerm.months term).symm
        · exact fun holds => nought (holds.2 month)
  · have different : ∀ u ∈ knownUnits, unitIn found ≠ u := fun u listed same =>
      business_ne gap u listed (business.symm.trans same)
    simp only [knownUnits, List.forall_mem_cons] at different
    obtain ⟨year, month, week, day, -⟩ := different
    have named : ∀ v : Int, minted v (str "business_days") = written found ↔ v = numberOf found := by
      intro v
      simp [minted, written, year, month, week, day]
    have size_eq : size found = numberOf found := by simp [size, year, week]
    obtain ⟨single, prefixed⟩ := business_prefix gap
    rw [← business] at single prefixed
    simp only [prefixed, if_true]
    rw [window_plain_iff named single, size_eq]
    exact (and_iff_left fun same => absurd same month).symm

end Matches

/-- A term of a pitch is minted as the sentence spells it just when its number is one that a double
holds, in months or days, and a return window is not counted in months. -/
theorem terms_normalised_iff {rule : PitchRule} (listed : rule ∈ termRules) {sentence : Str}
    {found : Regex.Match CodePoint} (matched : found ∈ rule.pattern.finditer sentence) :
    Normalised rule found ↔ Representable (size found : ℕ) ∧
      (rule.isWindow = true → unitIn found = str "month" → numberOf found = 0) := by
  rw [termRules, List.mem_cons, List.mem_cons, List.mem_cons, List.mem_singleton] at listed
  rcases listed with rfl | rfl | rfl | rfl
  · rw [duration_normalised_iff rfl warrantyTerm_captures matched]
    exact (and_iff_left nofun).symm
  · rw [duration_normalised_iff rfl warrantyTermTrailing_captures matched]
    exact (and_iff_left nofun).symm
  · rw [window_normalised_iff rfl (dispatchWindow_captures.mono ?_) matched]
    · exact and_congr_right' ⟨fun h _ => h, fun h => h rfl⟩
    · rintro u (known | business)
      · exact Or.inl (List.mem_of_mem_take (i := 2) known)
      · exact Or.inr business
  · rw [window_normalised_iff rfl returnWindow_captures matched]
    exact and_congr_right' ⟨fun h _ => h, fun h => h rfl⟩

omit [Prose] in
theorem two_years_normalised : letI := Prose.ascii
    ∃ found ∈ warrantyTerm.pattern.finditer (str "two-year warranty"), Normalised warrantyTerm found := by
  let _ := Prose.ascii
  have seen : ((warrantyTerm.pattern.finditer (str "two-year warranty")).any fun found =>
      size found = 24 && unitIn found = str "year") = true := by decide +kernel
  obtain ⟨found, matched, reads⟩ := List.any_eq_true.mp seen
  rw [Bool.and_eq_true, decide_eq_true_eq, decide_eq_true_eq] at reads
  refine ⟨found, matched, (terms_normalised_iff List.mem_cons_self matched).mpr ⟨?_, nofun⟩⟩
  rw [reads.1]
  exact Binary64.representable_of_small (n := 24) (by norm_num)

omit [Prose] in
/-- A return window of two months is minted as one of two days. -/
theorem two_months_are_two_days : letI := Prose.ascii
    ∃ found ∈ returnWindow.pattern.finditer (str "returns within 2 months."),
      returnWindow.read found = .ok (some (str "return_window_days", .whole 2, some (str "days"))) ∧
        ¬ Normalised returnWindow found := by
  let _ := Prose.ascii
  have seen : ((returnWindow.pattern.finditer (str "returns within 2 months.")).any fun found =>
      numberOf found = 2 && unitIn found = str "month" && found.start = 0 && !boundedNumber.search found.text) =
        true := by
    simp only [boundedNumber, phrases, phrase, List.map, str_literal rfl]
    decide +kernel
  obtain ⟨found, matched, reads⟩ := List.any_eq_true.mp seen
  rw [Bool.and_eq_true, Bool.and_eq_true, Bool.and_eq_true, decide_eq_true_eq, decide_eq_true_eq,
    decide_eq_true_eq, Bool.not_eq_true'] at reads
  obtain ⟨⟨⟨two, month⟩, leading⟩, exact'⟩ := reads
  have missed {rs : List (Regex CodePoint)}
      (none : rs.all (fun r => Regex.needs (str "returns within 2 months.") r ||
        (r.finditer (str "returns within 2 months.")).isEmpty) = true) :
      (Regex.anyOf rs).finditer (str "returns within 2 months.") = [] :=
    Regex.finditer_anyOf_eq_nil (fun _ member => member) none
  have ungoverned : ∀ cue ∈ [clauseBoundary, negated, irrealis, timeShifted, otherReferent],
      cue.finditer (str "returns within 2 months.") = [] := by
    intro cue listed
    simp only [List.mem_cons, List.not_mem_nil, or_false] at listed
    rcases listed with rfl | rfl | rfl | rfl | rfl <;> apply missed <;>
      simp only [terms, term, whole, phrases, phrase, lit, List.map, str_literal rfl] <;> decide
  have asserted : assertsThisOffer found returnWindow.kind returnWindow.predicative = true := by
    apply assertsThisOffer_of_ungoverned _ leading rfl exact' (by decide)
    rw [(Regex.finditer_matches matched).subject]
    exact ungoverned
  refine ⟨found, matched, ?_, fun normalised => ?_⟩
  · obtain ⟨-, read, word⟩ := captures_read (fun _ => dayUnits_known) returnWindow_captures matched
    have plain : daysIn (str "month") (Format.round ((2 : ℕ) : ℚ)) = Binary64.round (2 : ℕ) := rfl
    have counted : toInt (Binary64.round (2 : ℕ)) = .ok 2 :=
      toInt_eq_ok.mpr ((Binary64.round_whole_iff 2).mpr (Binary64.representable_of_small (n := 2) (by decide)))
    rw [PitchRule.read, if_pos asserted, PitchRule.value]
    simp only [returnWindow, read, word, two, month, plain, counted]
    rfl
  · have nought := ((window_normalised_iff rfl returnWindow_captures matched).mp normalised).2 month
    rw [two] at nought
    cases nought

end Prose
end Proxyshop.Verification
