import Mathlib.Algebra.Ring.Int.Defs
import Mathlib.Algebra.Ring.Nat
import Mathlib.Data.List.Basic
import Mathlib.Data.List.DropRight
import Mathlib.Data.List.Infix

/-!
# Python text

A `str` is a list of code points, so it can hold the lone surrogates that `json.loads` produces and
that no encoding accepts. The Unicode database enters only through the class `Unicode`.
-/

namespace Proxyshop.Python

abbrev CodePoint := Fin 0x110000

abbrev Str := List CodePoint

instance CodePoint.neZero : NeZero 0x110000 := ⟨by decide⟩

instance CodePoint.lawfulBEq : LawfulBEq CodePoint := inferInstance

instance Str.lawfulBEq : LawfulBEq Str := inferInstance

namespace CodePoint

def ofChar (c : Char) : CodePoint := ⟨c.toNat, by
  rcases c.valid with h | ⟨_, h⟩
  · exact lt_trans h (by decide)
  · exact h⟩

theorem ofChar_inj {a b : Char} : ofChar a = ofChar b ↔ a = b := by
  constructor
  · intro h
    have vals : (ofChar a).val = (ofChar b).val := congrArg Fin.val h
    exact Char.ext (UInt32.toNat_inj.mp vals)
  · rintro rfl
    rfl

def isSurrogate (c : CodePoint) : Bool := 0xD800 ≤ c.val && c.val ≤ 0xDFFF

def toChar? (c : CodePoint) : Option Char :=
  if h : c.val.isValidChar then some (Char.ofNatAux c.val h) else none

theorem toChar?_inj {a b : CodePoint} {c : Char} (ha : a.toChar? = some c)
    (hb : b.toChar? = some c) : a = b := by
  unfold toChar? at ha hb
  by_cases valid : a.val.isValidChar
  · rw [dif_pos valid] at ha
    by_cases valid' : b.val.isValidChar
    · rw [dif_pos valid'] at hb
      have equal := (Option.some.inj ha).trans (Option.some.inj hb).symm
      have vals := congrArg Char.toNat equal
      exact Fin.ext vals
    · rw [dif_neg valid'] at hb
      cases hb
  · rw [dif_neg valid] at ha
    cases ha

def isSpace (c : CodePoint) : Bool :=
  (9 ≤ c.val && c.val ≤ 13) || (28 ≤ c.val && c.val ≤ 32) || c.val == 0x85 || c.val == 0xA0 ||
    c.val == 0x1680 || (0x2000 ≤ c.val && c.val ≤ 0x200A) || c.val == 0x2028 || c.val == 0x2029 ||
    c.val == 0x202F || c.val == 0x205F || c.val == 0x3000

def isAscii (c : CodePoint) : Bool := c.val < 128

end CodePoint

/-- The tables of the Unicode character database that the modelled functions consult. -/
class Unicode where
  upper : Str → Str
  lower : Str → Str
  isPrintable : CodePoint → Bool
  decimal : CodePoint → Option Nat

@[reducible] def Unicode.ascii : Unicode where
  upper s := s.map fun c => if 97 ≤ c.val ∧ c.val ≤ 122 then c - 32 else c
  lower s := s.map fun c => if 65 ≤ c.val ∧ c.val ≤ 90 then c + 32 else c
  isPrintable _ := true
  decimal _ := none

def str (s : String) : Str := s.toList.map CodePoint.ofChar

instance : Coe String Str := ⟨str⟩

/-- A literal is its characters without decoding its bytes: with `rfl` for `h`, one `simp only` spells it. -/
theorem str_literal {s : String} {l : List Char} (h : s = String.ofList l) : str s = l.map CodePoint.ofChar := by
  rw [h, str, String.toList_ofList]

@[simp] theorem str_inj {a b : String} : str a = str b ↔ a = b := by
  unfold str
  rw [(List.map_injective_iff.mpr fun _ _ h => CodePoint.ofChar_inj.mp h).eq_iff, String.toList_inj]

namespace Str

def strip (s : Str) : Str := (s.dropWhile CodePoint.isSpace).rdropWhile CodePoint.isSpace

theorem strip_eq_self {s : Str} (solid : ∀ c ∈ s, c.isSpace = false) : s.strip = s := by
  have left : s.dropWhile CodePoint.isSpace = s := by
    rw [List.dropWhile_eq_self_iff]
    intro nonempty
    simp [solid _ (List.getElem_mem nonempty)]
  rw [strip, left, List.rdropWhile_eq_self_iff]
  intro nonempty
  simp [solid _ (List.getLast_mem nonempty)]

@[simp] theorem strip_strip (s : Str) : strip (strip s) = strip s := by
  have solid : ((s.dropWhile CodePoint.isSpace).rdropWhile CodePoint.isSpace).dropWhile
      CodePoint.isSpace = (s.dropWhile CodePoint.isSpace).rdropWhile CodePoint.isSpace := by
    rw [List.dropWhile_eq_self_iff]
    intro nonempty
    have front := List.rdropWhile_prefix CodePoint.isSpace (s.dropWhile CodePoint.isSpace)
    have head : 0 < (s.dropWhile CodePoint.isSpace).length := nonempty.trans_le front.length_le
    rw [front.getElem nonempty]
    exact List.dropWhile_get_zero_not _ _ head
  rw [strip, strip, solid, List.rdropWhile_idempotent]

/-- `a <= b`, code point by code point. -/
def le : Str → Str → Bool
  | [], _ => true
  | _ :: _, [] => false
  | a :: s, b :: t => a.val < b.val || (a == b && le s t)

/-- `a or b`. -/
def or (a b : Str) : Str := if a.isEmpty then b else a

/-- `s or None`. -/
def nonEmpty? (s : Str) : Option Str := if s.isEmpty then none else some s

/-- `old` is a non-empty needle; the counter skips the characters a match has consumed. -/
def replaceFrom (old new : Str) : Nat → Str → Str
  | _, [] => []
  | 0, c :: s =>
      if old.isPrefixOf (c :: s) then new ++ replaceFrom old new (old.length - 1) s
      else c :: replaceFrom old new 0 s
  | n+1, _ :: s => replaceFrom old new n s

def replace (s old new : Str) : Str := replaceFrom old new 0 s

theorem replace_singleton (s : Str) (old : CodePoint) (new : Str) :
    s.replace [old] new = s.flatMap fun c => if c = old then new else [c] := by
  unfold replace
  induction s with
  | nil => rfl
  | cons c s ih =>
      by_cases same : c = old
      · simp [replaceFrom, same, ih]
      · have other : old ≠ c := fun h => same h.symm
        simp [replaceFrom, same, other, ih]

theorem replaceFrom_skip (old new t rest : Str) :
    replaceFrom old new t.length (t ++ rest) = replaceFrom old new 0 rest := by
  induction t with
  | nil => rfl
  | cons c t ih => exact ih

theorem replace_append (c : CodePoint) (old new rest : Str) :
    replace (c :: old ++ rest) (c :: old) new = new ++ replace rest (c :: old) new := by
  have found : (c :: old).isPrefixOf (c :: (old ++ rest)) = true := by simp
  rw [replace, List.cons_append, replaceFrom, if_pos found, List.length_cons, Nat.add_sub_cancel,
    replaceFrom_skip]
  rfl

theorem replace_cons {old : Str} {c : CodePoint} {s : Str} (other : old.isPrefixOf (c :: s) = false)
    (new : Str) : replace (c :: s) old new = c :: replace s old new := by
  rw [replace, replaceFrom, other, if_neg (by decide)]
  rfl

def isAscii (s : Str) : Bool := s.all CodePoint.isAscii

def encodeAscii (s : Str) : Option (List UInt8) :=
  if s.isAscii then some (s.map fun c => UInt8.ofNat c.val) else none

theorem encodeAscii_length {s : Str} {bytes : List UInt8} (h : s.encodeAscii = some bytes) :
    bytes.length = s.length := by
  unfold encodeAscii at h
  split at h
  · rw [← Option.some.inj h, List.length_map]
  · cases h

theorem encodeAscii_inj {s t : Str} {bytes : List UInt8} (hs : s.encodeAscii = some bytes)
    (ht : t.encodeAscii = some bytes) : s = t := by
  induction s generalizing t bytes with
  | nil =>
      have empty := (encodeAscii_length hs).symm.trans (encodeAscii_length ht)
      exact (List.length_eq_zero_iff.mp empty.symm).symm
  | cons a s ih =>
      cases t with
      | nil => simpa using (encodeAscii_length hs).symm.trans (encodeAscii_length ht)
      | cons b t =>
          simp only [encodeAscii, isAscii, List.all_cons, Bool.and_eq_true, CodePoint.isAscii,
            decide_eq_true_eq, List.map_cons, Option.ite_none_right_eq_some, Option.some.injEq] at hs ht
          obtain ⟨⟨ha, restA⟩, rfl⟩ := hs
          obtain ⟨⟨hb, restB⟩, equal⟩ := ht
          obtain ⟨head, tail⟩ := List.cons.inj equal
          have same : a.val = b.val := by
            have vals := congrArg UInt8.toNat head
            simp only [UInt8.toNat_ofNat'] at vals
            omega
          have left : encodeAscii s = some (s.map fun c => UInt8.ofNat c.val) := by
            rw [encodeAscii, isAscii, restA, if_pos rfl]
          have right : encodeAscii t = some (s.map fun c => UInt8.ofNat c.val) := by
            rw [encodeAscii, isAscii, restB, if_pos rfl, tail]
          rw [Fin.ext same, ih left right]

def encodeUtf8 (s : Str) : Option (List UInt8) :=
  (s.mapM CodePoint.toChar?).map fun chars => chars.flatMap String.utf8EncodeChar

theorem flatMap_utf8EncodeChar_inj {a b : List Char}
    (h : a.flatMap String.utf8EncodeChar = b.flatMap String.utf8EncodeChar) : a = b := by
  have bytes : (String.ofList a).toByteArray = (String.ofList b).toByteArray := by
    simp only [String.toByteArray_ofList, List.utf8Encode, h]
  simpa using congrArg String.toList (String.toByteArray_inj.mp bytes)

theorem mapM_toChar?_inj {s t : Str} {chars : List Char} (hs : s.mapM CodePoint.toChar? = some chars)
    (ht : t.mapM CodePoint.toChar? = some chars) : s = t := by
  induction s generalizing t chars with
  | nil =>
      obtain rfl : chars = [] := by simpa using hs.symm
      cases t with
      | nil => rfl
      | cons b t => simp [List.mapM_cons, Option.bind_eq_some_iff] at ht
  | cons a s ih =>
      simp only [List.mapM_cons, Option.bind_eq_bind, Option.bind_eq_some_iff, Option.pure_def,
        Option.some.injEq] at hs
      obtain ⟨c, hc, rest, hrest, rfl⟩ := hs
      cases t with
      | nil => simp at ht
      | cons b t =>
          simp only [List.mapM_cons, Option.bind_eq_bind, Option.bind_eq_some_iff, Option.pure_def,
            Option.some.injEq] at ht
          obtain ⟨d, hd, rest', hrest', equal⟩ := ht
          obtain ⟨rfl, rfl⟩ := List.cons.inj equal
          rw [CodePoint.toChar?_inj hc hd, ih hrest hrest']

theorem encodeUtf8_inj {s t : Str} {bytes : List UInt8} (hs : s.encodeUtf8 = some bytes)
    (ht : t.encodeUtf8 = some bytes) : s = t := by
  simp only [encodeUtf8, Option.map_eq_some_iff] at hs ht
  obtain ⟨a, ha, rfl⟩ := hs
  obtain ⟨b, hb, equal⟩ := ht
  obtain rfl := flatMap_utf8EncodeChar_inj equal
  exact mapM_toChar?_inj ha hb

/-! ## Decimal spellings -/

def ofNat (n : Nat) : Str := (Nat.toDigits 10 n).map CodePoint.ofChar

theorem ofNat_inj {m n : Nat} : ofNat m = ofNat n ↔ m = n := by
  constructor
  · intro same
    have digits := List.map_injective_iff.mpr (fun _ _ h => CodePoint.ofChar_inj.mp h) same
    have read := congrArg (Nat.ofDigitChars 10 · 0) digits
    simpa [Nat.ofDigitChars_toDigits] using read
  · rintro rfl
    rfl

def ofInt (i : Int) : Str := if i < 0 then CodePoint.ofChar '-' :: ofNat i.natAbs else ofNat i.natAbs

def padded (width n : Nat) : Str :=
  List.replicate (width - (ofNat n).length) (CodePoint.ofChar '0') ++ ofNat n

def digit? (c : CodePoint) : Option Nat :=
  if 48 ≤ c.val ∧ c.val ≤ 57 then some (c.val - 48) else none

def decimal? [Unicode] (c : CodePoint) : Option Nat :=
  if c.isAscii then digit? c else Unicode.decimal c

def ofDigits (ds : List Nat) : Nat := ds.foldl (fun n d => 10 * n + d) 0

theorem digit?_ofChar {c : Char} (h : c.isDigit = true) :
    digit? (CodePoint.ofChar c) = some (c.toNat - 48) := by
  have bounds : 48 ≤ c.toNat ∧ c.toNat ≤ 57 := by
    simpa [Char.isDigit, UInt32.le_iff_toNat_le] using h
  rw [digit?, if_pos]
  · rfl
  · exact bounds

theorem decimal?_of_digit? [Unicode] {c : CodePoint} {d : Nat} (h : digit? c = some d) :
    decimal? c = some d := by
  unfold digit? at h
  split at h
  · rename_i bounds
    have ascii : c.isAscii = true := by
      rw [CodePoint.isAscii, decide_eq_true_eq]
      omega
    rw [decimal?, if_pos ascii, digit?, if_pos bounds, h]
  · cases h

/-! ## Scanning -/

def expect (c : Char) : Str → Option Str
  | [] => none
  | d :: rest => if d = CodePoint.ofChar c then some rest else none

def startsWith (c : Char) (s : Str) : Bool := (expect c s).isSome

@[simp] theorem expect_cons (c : Char) (rest : Str) :
    expect c (CodePoint.ofChar c :: rest) = some rest := by
  rw [expect, if_pos rfl]

section Numbers

variable (digit : CodePoint → Option Nat)

def digits : Nat → Str → Option (List Nat × Str)
  | 0, s => some ([], s)
  | _+1, [] => none
  | n+1, c :: s => do
      let d ← digit c
      let (ds, rest) ← digits n s
      return (d :: ds, rest)

def number (n : Nat) (s : Str) : Option (Nat × Str) :=
  (digits digit n s).map fun (ds, rest) => (ofDigits ds, rest)

variable {digit}

theorem digits_eq_some {n : Nat} {s : Str} {ds : List Nat} {rest : Str}
    (h : digits digit n s = some (ds, rest)) :
    ∃ front, s = front ++ rest ∧ front.length = n ∧ front.map digit = ds.map some := by
  induction n generalizing s ds with
  | zero =>
      cases h
      exact ⟨[], rfl, rfl, rfl⟩
  | succ n ih =>
      cases s with
      | nil => cases h
      | cons c s =>
          simp only [digits, Option.bind_eq_bind, Option.bind_eq_some_iff] at h
          obtain ⟨d, head, ⟨tail, left⟩, later, equal⟩ := h
          cases equal
          obtain ⟨front, rfl, length, values⟩ := ih later
          exact ⟨c :: front, rfl, by rw [List.length_cons, length], by
            rw [List.map_cons, List.map_cons, head, values]⟩

theorem digits_ofChar (reads : ∀ {c d}, digit? c = some d → digit c = some d) {chars : List Char}
    (numeric : ∀ c ∈ chars, c.isDigit = true) (rest : Str) :
    digits digit chars.length (chars.map CodePoint.ofChar ++ rest) =
      some (chars.map fun c => c.toNat - 48, rest) := by
  induction chars with
  | nil => rfl
  | cons c chars ih =>
      have head := reads (digit?_ofChar (numeric c List.mem_cons_self))
      have tail := ih fun d hd => numeric d (List.mem_cons_of_mem _ hd)
      simp only [List.length_cons, List.map_cons, List.cons_append, digits, head, tail,
        Option.bind_eq_bind, Option.bind_some, Option.pure_def]

theorem padded_eq (width n : Nat) : padded width n =
    (List.replicate (width - (Nat.toDigits 10 n).length) '0' ++ Nat.toDigits 10 n).map
      CodePoint.ofChar := by
  rw [List.map_append, List.map_replicate, padded, ofNat, List.length_map]

theorem padded_eq_ofNat {width n : Nat} (long : width ≤ (ofNat n).length) : padded width n = ofNat n := by
  rw [padded, Nat.sub_eq_zero_of_le long, List.replicate_zero, List.nil_append]

theorem length_ofNat_lt {n width : Nat} (positive : 0 < width) : (ofNat n).length ≤ width ↔ n < 10 ^ width := by
  rw [ofNat, List.length_map]
  exact Nat.length_toDigits_le_iff (by decide) positive

theorem isDigit_of_mem_padded {width n : Nat} {c : CodePoint} (h : c ∈ padded width n) :
    ∃ d, digit? c = some d := by
  rw [padded_eq] at h
  obtain ⟨a, member, rfl⟩ := List.mem_map.mp h
  refine ⟨_, digit?_ofChar ?_⟩
  rcases List.mem_append.mp member with zero | digit
  · rw [List.eq_of_mem_replicate zero]
    decide
  · exact Nat.isDigit_of_mem_toDigits (by decide) (by decide) digit

theorem isSpace_of_digit {c : CodePoint} {d : Nat} (h : digit? c = some d) : c.isSpace = false := by
  unfold digit? at h
  split at h
  · rename_i bounds
    simp only [CodePoint.isSpace, Bool.or_eq_false_iff, Bool.and_eq_false_iff,
      decide_eq_false_iff_not, beq_eq_false_iff_ne]
    omega
  · cases h

theorem number_padded (reads : ∀ {c d}, digit? c = some d → digit c = some d) {width n : Nat}
    (positive : 0 < width) (fits : n < 10 ^ width) (rest : Str) :
    number digit width (padded width n ++ rest) = some (n, rest) := by
  have length := (Nat.length_toDigits_le_iff (b := 10) (n := n) (by decide) positive).mpr fits
  rw [padded_eq]
  generalize all : List.replicate (width - (Nat.toDigits 10 n).length) '0' ++ Nat.toDigits 10 n = chars
  have width_eq : width = chars.length := by
    rw [← all, List.length_append, List.length_replicate]
    omega
  have numeric : ∀ c ∈ chars, c.isDigit = true := by
    rw [← all]
    intro c member
    rcases List.mem_append.mp member with zero | digit
    · rw [List.eq_of_mem_replicate zero]
      decide
    · exact Nat.isDigit_of_mem_toDigits (by decide) (by decide) digit
  have value : ofDigits (chars.map fun c => c.toNat - 48) = n := by
    have fold : ofDigits (chars.map fun c => c.toNat - 48) = Nat.ofDigitChars 10 chars 0 := by
      rw [ofDigits, List.foldl_map]
      rfl
    rw [fold, ← all, Nat.ofDigitChars_append, Nat.ofDigitChars_replicate_zero, Nat.mul_zero,
      Nat.ofDigitChars_toDigits (by decide) (by decide)]
  rw [number, width_eq, digits_ofChar reads numeric, Option.map_some]
  simp only [value]

end Numbers

end Str
end Proxyshop.Python
