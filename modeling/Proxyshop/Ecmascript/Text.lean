import Proxyshop.Numbers.Decimal
import Proxyshop.Python.Text

/-!
# ECMAScript text

A string is the list of its code points; the trim, the spelling of a number and what the two
languages' trims have in common. `toLowerCase` is the full case conversion of the Unicode database,
as `str.lower` is.
-/

namespace Proxyshop.Python

namespace CodePoint

/-- `WhiteSpace` and `LineTerminator`. -/
def isWhiteSpace (c : CodePoint) : Bool :=
  (9 ≤ c.val && c.val ≤ 13) || c.val == 32 || c.val == 0xA0 || c.val == 0x1680 ||
    (0x2000 ≤ c.val && c.val ≤ 0x200A) || c.val == 0x2028 || c.val == 0x2029 || c.val == 0x202F ||
    c.val == 0x205F || c.val == 0x3000 || c.val == 0xFEFF

/-- Removed by `strip` or by `trim`. -/
def isBlank (c : CodePoint) : Bool := c.isSpace || c.isWhiteSpace

theorem not_upper_of_isBlank {c : CodePoint} (blank : c.isBlank = true) :
    ¬ (65 ≤ c.val ∧ c.val ≤ 90) := by
  simp only [isBlank, isSpace, isWhiteSpace, Bool.or_eq_true, Bool.and_eq_true, decide_eq_true_eq,
    beq_iff_eq] at blank
  omega

end CodePoint

/-- A database in which blanks have no case, and decide no letter's case at the end of a text. -/
class Casing extends Unicode where
  lower_nil : lower [] = []
  lower_cons (c : CodePoint) (s : Str) : c.isBlank → lower (c :: s) = c :: lower s
  lower_concat (c : CodePoint) (s : Str) : c.isBlank → lower (s ++ [c]) = lower s ++ [c]

@[reducible] def Casing.ascii : Casing where
  toUnicode := Unicode.ascii
  lower_nil := rfl
  lower_cons c s blank := by
    show (if 65 ≤ c.val ∧ c.val ≤ 90 then c + 32 else c) :: _ = _
    rw [if_neg (CodePoint.not_upper_of_isBlank blank)]
    rfl
  lower_concat c s blank := by
    show List.map _ (s ++ [c]) = _
    rw [List.map_append, List.map_singleton, if_neg (CodePoint.not_upper_of_isBlank blank)]
    rfl

namespace Str

def stripBy (p : CodePoint → Bool) (s : Str) : Str := (s.dropWhile p).rdropWhile p

def trim (s : Str) : Str := stripBy CodePoint.isWhiteSpace s

theorem strip_eq_stripBy (s : Str) : s.strip = stripBy CodePoint.isSpace s := rfl

def isSolid (s : Str) : Bool := s.all fun c => !c.isBlank

theorem isSolid_iff {s : Str} : s.isSolid = true ↔ ∀ c ∈ s, c.isBlank = false := by
  simp [isSolid]

theorem stripBy_split (p : CodePoint → Bool) (s : Str) :
    ∃ front back, s = front ++ stripBy p s ++ back ∧ (∀ c ∈ front, p c = true) ∧
      ∀ c ∈ back, p c = true := by
  refine ⟨s.takeWhile p, (s.dropWhile p).rtakeWhile p, ?_, ?_, ?_⟩
  · rw [stripBy, List.append_assoc, List.rdropWhile_append_rtakeWhile, List.takeWhile_append_dropWhile]
  · intro c member
    exact List.mem_takeWhile_imp member
  · intro c member
    exact List.mem_rtakeWhile_imp member

/-- A text that neither starts nor ends with a `p` is what is left of it between two texts. -/
theorem stripBy_append {p : CodePoint → Bool} {u : Str} (front back : Str) (nonempty : u ≠ [])
    (head : p (u.head nonempty) = false) (last : p (u.getLast nonempty) = false) :
    stripBy p (front ++ u ++ back) = front.dropWhile p ++ u ++ back.rdropWhile p := by
  have left : (front ++ u ++ back).dropWhile p = front.dropWhile p ++ u ++ back := by
    have stop : (u ++ back).dropWhile p = u ++ back := by
      obtain ⟨c, rest, rfl⟩ := List.exists_cons_of_ne_nil nonempty
      rw [List.cons_append]
      exact List.dropWhile_cons_of_neg (by simpa using head)
    rw [List.append_assoc, List.dropWhile_append, stop, List.append_assoc]
    split
    · rename_i gone
      rw [List.isEmpty_iff.mp gone, List.nil_append]
    · rfl
  rw [stripBy, left, List.rdropWhile, List.reverse_append, List.dropWhile_append]
  have stop : (front.dropWhile p ++ u).reverse.dropWhile p = (front.dropWhile p ++ u).reverse := by
    have final : (front.dropWhile p ++ u).getLast (by simp [nonempty]) = u.getLast nonempty :=
      List.getLast_append_of_ne_nil _ nonempty
    rw [List.dropWhile_eq_self_iff]
    intro positive
    rw [← List.head_eq_getElem (List.ne_nil_of_length_pos positive), List.head_reverse, final, last]
    exact Bool.false_ne_true
  rw [stop]
  split
  · rename_i gone
    rw [List.reverse_reverse, List.rdropWhile, List.isEmpty_iff.mp gone, List.reverse_nil,
      List.append_nil]
  · rw [List.reverse_append, List.reverse_reverse, List.rdropWhile]

section Casing

variable [Casing]

theorem solid_ends {u : Str} (nonempty : u ≠ []) (solid : isSolid (Unicode.lower u) = true) :
    (u.head nonempty).isBlank = false ∧ (u.getLast nonempty).isBlank = false := by
  constructor
  · obtain ⟨c, rest, rfl⟩ := List.exists_cons_of_ne_nil nonempty
    by_contra blank
    rw [Bool.not_eq_false, List.head_cons] at blank
    rw [Casing.lower_cons c rest blank, isSolid_iff] at solid
    rw [solid c List.mem_cons_self] at blank
    cases blank
  · obtain ⟨front, c, rfl⟩ := (List.eq_nil_or_concat' u).resolve_left nonempty
    by_contra blank
    rw [Bool.not_eq_false, List.getLast_append_singleton] at blank
    rw [Casing.lower_concat c front blank, isSolid_iff] at solid
    rw [solid c (List.mem_append_right _ List.mem_cons_self)] at blank
    cases blank

theorem not_solid_of_ne {p q : CodePoint → Bool} (hp : ∀ c, p c = true → c.isBlank = true)
    (hq : ∀ c, q c = true → c.isBlank = true) {s : Str}
    (nonempty : Unicode.lower (stripBy p s) ≠ []) (solid : isSolid (Unicode.lower (stripBy p s)) = true)
    (differ : Unicode.lower (stripBy q s) ≠ Unicode.lower (stripBy p s)) :
    isSolid (Unicode.lower (stripBy q s)) = false := by
  rw [Bool.eq_false_iff]
  obtain ⟨front, back, spelled, inFront, inBack⟩ := stripBy_split p s
  have some : stripBy p s ≠ [] := by
    intro empty
    rw [empty, Casing.lower_nil] at nonempty
    exact nonempty rfl
  obtain ⟨head, last⟩ := solid_ends some solid
  have outside {c : CodePoint} (h : c.isBlank = false) : q c = false := by
    by_contra inside
    rw [hq c (by simpa using inside)] at h
    cases h
  have trimmed := stripBy_append front back some (outside head) (outside last)
  rw [← spelled] at trimmed
  rw [trimmed] at differ ⊢
  intro all
  -- what the other trim leaves in front or behind is a blank, and lowering keeps it
  rcases remains : front.dropWhile q with _ | ⟨c, rest⟩
  · rcases List.eq_nil_or_concat' (back.rdropWhile q) with none | ⟨rest, c, ends⟩
    · rw [remains, none, List.nil_append, List.append_nil] at differ
      exact differ rfl
    · have blank : c.isBlank = true := by
        apply hp c
        apply inBack
        apply (List.rdropWhile_prefix q back).subset
        rw [ends]
        exact List.mem_append_right _ List.mem_cons_self
      rw [ends, ← List.append_assoc, Casing.lower_concat _ _ blank, isSolid_iff] at all
      rw [all c (List.mem_append_right _ List.mem_cons_self)] at blank
      cases blank
  · have blank : c.isBlank = true := by
      apply hp c
      apply inFront
      apply (List.dropWhile_suffix q).subset
      rw [remains]
      exact List.mem_cons_self
    rw [remains, List.cons_append, List.cons_append, Casing.lower_cons _ _ blank, isSolid_iff] at all
    rw [all c List.mem_cons_self] at blank
    cases blank

end Casing

end Str
end Proxyshop.Python

namespace Proxyshop.Ecmascript

open Python Numbers

/-- The digits without a trailing zero, and the place of the decimal point among them. -/
def decimal (x : Binary64) : Str × Int :=
  let (d, p) := Binary64.shortest x
  ((Str.ofNat d).rdropWhile (· = CodePoint.ofChar '0'), (Str.ofNat d).length + p)

def zeros (n : Nat) : Str := List.replicate n (CodePoint.ofChar '0')

/-- `Number::toString` of a positive number. -/
def positiveToString (x : Binary64) : Str :=
  let (digits, n) := decimal x
  let k : Int := digits.length
  if k ≤ n ∧ n ≤ 21 then digits ++ zeros (n - k).toNat
  else if 0 < n ∧ n ≤ 21 then digits.take n.toNat ++ str "." ++ digits.drop n.toNat
  else if -6 < n ∧ n ≤ 0 then str "0." ++ zeros (-n).toNat ++ digits
  else
    let e := n - 1
    let head := if k = 1 then digits else digits.take 1 ++ str "." ++ digits.drop 1
    head ++ str "e" ++ (if e < 0 then str "-" else str "+") ++ Str.ofNat e.natAbs

def numberToString : Extended Binary64 → Str
  | .nan => str "NaN"
  | .infinity negative => if negative then str "-Infinity" else str "Infinity"
  | .finite x =>
      if x.value = 0 then str "0"
      else if x.value < 0 then str "-" ++ positiveToString x.neg
      else positiveToString x

end Proxyshop.Ecmascript
