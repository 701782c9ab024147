import Proxyshop.Ecmascript.Text

/-!
# The numbers of a signed document

The canonical spelling of a number is ECMAScript's, worked out from the text of Python's `repr`.
-/

namespace Proxyshop.Contracts

open Python Numbers Ecmascript

/-! ## Python's spelling -/

/-- `repr` of a positive float. -/
def reprPositive (x : Binary64) : Str :=
  let (digits, point) := decimal x
  let k : Int := digits.length
  if -4 < point ∧ point ≤ 16 then
    if point ≤ 0 then str "0" ++ str "." ++ (zeros (-point).toNat ++ digits)
    else if k ≤ point then digits ++ zeros (point - k).toNat ++ str "." ++ str "0"
    else digits.take point.toNat ++ str "." ++ digits.drop point.toNat
  else
    let e := point - 1
    let head := if k = 1 then digits else digits.take 1 ++ str "." ++ digits.drop 1
    head ++ str "e" ++ ((if e < 0 then str "-" else str "+") ++ Str.padded 2 e.natAbs)

/-- `str.partition`, without the separator. -/
def partition (separator : Char) (s : Str) : Str × Str :=
  (s.takeWhile (· ≠ CodePoint.ofChar separator),
    (s.dropWhile (· ≠ CodePoint.ofChar separator)).drop 1)

def natOfDigits (s : Str) : Nat := Str.ofDigits (s.filterMap Str.digit?)

/-- `int` of ASCII digits behind an optional sign. -/
def intOfText : Str → Int
  | [] => 0
  | c :: rest =>
      if c = CodePoint.ofChar '-' then -natOfDigits rest
      else if c = CodePoint.ofChar '+' then natOfDigits rest
      else natOfDigits (c :: rest)

def isZero (c : CodePoint) : Bool := c = CodePoint.ofChar '0'

/-- The digits and the place of the point, from the parts of a text. -/
def normalise (integerPart fractionPart : Str) (exponent : Int) : Str × Int :=
  let raw := integerPart ++ fractionPart
  let stripped := raw.dropWhile isZero
  let leadingZeros := raw.length - stripped.length
  let n := integerPart.length + exponent - leadingZeros
  let digits := Str.or (stripped.rdropWhile isZero) (str "0")
  (digits, n)

def decompose (text : Str) : Str × Int :=
  let (mantissa, exponentText) := partition 'e' text
  let exponent := if exponentText = [] then 0 else intOfText exponentText
  let (integerPart, fractionPart) := partition '.' mantissa
  normalise integerPart fractionPart exponent

def layout (digits : Str) (n : Int) : Str :=
  let k : Int := digits.length
  if k ≤ n ∧ n ≤ 21 then digits ++ zeros (n - k).toNat
  else if 0 < n ∧ n ≤ 21 then digits.take n.toNat ++ str "." ++ digits.drop n.toNat
  else if -6 < n ∧ n ≤ 0 then str "0" ++ str "." ++ (zeros (-n).toNat ++ digits)
  else
    let sign := if 0 < n - 1 then str "+" else str "-"
    let head := if k = 1 then digits else digits.take 1 ++ str "." ++ digits.drop 1
    head ++ str "e" ++ (sign ++ Str.ofNat (n - 1).natAbs)

def ecmascriptPositive (x : Binary64) : Str :=
  let (digits, n) := decompose (reprPositive x)
  layout digits n

/-- `_ecmascript_number` of a finite number. -/
def ecmascriptFinite (x : Binary64) : Str :=
  if x.value = 0 then str "0"
  else if x.value < 0 then str "-" ++ ecmascriptPositive x.neg
  else ecmascriptPositive x

/-! ## Reading a spelling back -/

def IsDigits (s : Str) : Prop := ∀ c ∈ s, ∃ d, Str.digit? c = some d

theorem IsDigits.append {s t : Str} (hs : IsDigits s) (ht : IsDigits t) : IsDigits (s ++ t) := by
  intro c member
  rcases List.mem_append.mp member with left | right
  · exact hs c left
  · exact ht c right

theorem isDigits_ofNat (n : Nat) : IsDigits (Str.ofNat n) := by
  intro c member
  obtain ⟨a, inside, rfl⟩ := List.mem_map.mp member
  exact ⟨_, Str.digit?_ofChar (Nat.isDigit_of_mem_toDigits (by decide) (by decide) inside)⟩

theorem isDigits_zeros (n : Nat) : IsDigits (zeros n) := by
  intro c member
  rw [List.eq_of_mem_replicate member]
  exact ⟨0, rfl⟩

theorem IsDigits.free {s : Str} (hs : IsDigits s) {mark : Char}
    (other : Str.digit? (CodePoint.ofChar mark) = none) : ∀ c ∈ s, c ≠ CodePoint.ofChar mark := by
  rintro c member rfl
  obtain ⟨d, digit⟩ := hs _ member
  rw [other] at digit
  cases digit

theorem partition_of_free {mark : Char} {s : Str} (free : ∀ c ∈ s, c ≠ CodePoint.ofChar mark) :
    partition mark s = (s, []) := by
  have all : ∀ c ∈ s, decide (c ≠ CodePoint.ofChar mark) = true := by simpa using free
  rw [partition, List.takeWhile_eq_self_iff.mpr all, List.dropWhile_eq_nil_iff.mpr all, List.drop_nil]

theorem partition_append {mark : Char} {s : Str} (free : ∀ c ∈ s, c ≠ CodePoint.ofChar mark)
    (t : Str) : partition mark (s ++ CodePoint.ofChar mark :: t) = (s, t) := by
  have all : ∀ c ∈ s, decide (c ≠ CodePoint.ofChar mark) = true := by simpa using free
  rw [partition, List.takeWhile_append_of_pos all, List.dropWhile_append_of_pos all,
    List.takeWhile_cons_of_neg (by simp), List.dropWhile_cons_of_neg (by simp), List.append_nil,
    List.drop_one, List.tail_cons]

def spelling (integer : Str) (fraction exponent : Option Str) : Str :=
  integer ++ fraction.elim [] (fun f => str "." ++ f) ++ exponent.elim [] fun e => str "e" ++ e

theorem decompose_spelling {integer : Str} {fraction exponent : Option Str} (hi : IsDigits integer)
    (hf : ∀ f, fraction = some f → IsDigits f) (he : ∀ e, exponent = some e → e ≠ []) :
    decompose (spelling integer fraction exponent) =
      normalise integer (fraction.getD []) (exponent.elim 0 intOfText) := by
  have points : partition '.' (integer ++ fraction.elim [] fun f => str "." ++ f) =
      (integer, fraction.getD []) := by
    cases fraction with
    | none => rw [Option.elim_none, List.append_nil]; exact partition_of_free (hi.free rfl)
    | some f => exact partition_append (hi.free rfl) f
  have mantissa : ∀ c ∈ integer ++ fraction.elim [] (fun f => str "." ++ f),
      c ≠ CodePoint.ofChar 'e' := by
    intro c member
    rcases List.mem_append.mp member with left | right
    · exact hi.free rfl c left
    · cases fraction with
      | none => cases right
      | some f =>
          rcases List.mem_append.mp right with point | digit
          · rw [List.mem_singleton.mp point]
            decide
          · exact (hf f rfl).free rfl c digit
  cases exponent with
  | none =>
      rw [spelling, Option.elim_none, List.append_nil, decompose, partition_of_free mantissa]
      simp only [points, if_true, Option.elim_none]
  | some e =>
      have spelled : spelling integer fraction (some e) =
        (integer ++ fraction.elim [] fun f => str "." ++ f) ++ CodePoint.ofChar 'e' :: e := rfl
      rw [spelled, decompose, partition_append mantissa e]
      simp only [points, if_neg (he e rfl), Option.elim_some]

structure Significant (digits : Str) : Prop where
  nonempty : digits ≠ []
  numeric : IsDigits digits
  head : isZero (digits.head nonempty) = false
  last : isZero (digits.getLast nonempty) = false

theorem normalise_padded {digits integer fraction : Str} (significant : Significant digits) {i j : Nat}
    (padded : integer ++ fraction = zeros i ++ digits ++ zeros j) (exponent : Int) :
    normalise integer fraction exponent = (digits, integer.length + exponent - i) := by
  obtain ⟨nonempty, _, head, last⟩ := significant
  have zero : ∀ n, ∀ c ∈ zeros n, isZero c = true := by
    intro n c member
    rw [List.eq_of_mem_replicate member]
    rfl
  have front : (zeros i ++ digits ++ zeros j).dropWhile isZero = digits ++ zeros j := by
    rw [List.append_assoc, List.dropWhile_append_of_pos (zero i)]
    obtain ⟨c, rest, rfl⟩ := List.exists_cons_of_ne_nil nonempty
    rw [List.cons_append]
    exact List.dropWhile_cons_of_neg (by simpa using head)
  have back : (digits ++ zeros j).rdropWhile isZero = digits := by
    rw [List.rdropWhile, List.reverse_append, List.dropWhile_append_of_pos, List.dropWhile_eq_self_iff.mpr,
      List.reverse_reverse]
    · intro positive
      rw [← List.head_eq_getElem (List.ne_nil_of_length_pos positive), List.head_reverse, last]
      exact Bool.false_ne_true
    · intro c member
      exact zero j c (List.mem_reverse.mp member)
  have some : Str.or digits (str "0") = digits := by
    rw [Str.or, if_neg (by simpa using nonempty)]
  rw [normalise, padded, front, back, some, List.length_append, List.length_append, List.length_append, zeros, zeros,
    List.length_replicate, List.length_replicate]
  congr 1
  omega

theorem decompose_padded {digits integer : Str} {fraction exponent : Option Str}
    (significant : Significant digits) (hi : IsDigits integer) (hf : ∀ f, fraction = some f → IsDigits f)
    (he : ∀ e, exponent = some e → e ≠ []) {i j : Nat}
    (padded : integer ++ fraction.getD [] = zeros i ++ digits ++ zeros j) {n : Int}
    (place : integer.length + exponent.elim 0 intOfText - i = n) :
    decompose (spelling integer fraction exponent) = (digits, n) := by
  rw [decompose_spelling hi hf he, normalise_padded significant padded, place]

theorem natOfDigits_ofNat (n : Nat) : natOfDigits (Str.ofNat n) = n := by
  have digits : (Str.ofNat n).filterMap Str.digit? = (Nat.toDigits 10 n).map fun c => c.toNat - 48 := by
    rw [Str.ofNat, List.filterMap_map, ← List.filterMap_eq_map]
    apply List.filterMap_congr
    intro c member
    exact Str.digit?_ofChar (Nat.isDigit_of_mem_toDigits (by decide) (by decide) member)
  have fold : Str.ofDigits ((Nat.toDigits 10 n).map fun c => c.toNat - 48) =
      Nat.ofDigitChars 10 (Nat.toDigits 10 n) 0 := by
    rw [Str.ofDigits, List.foldl_map]
    rfl
  rw [natOfDigits, digits, fold, Nat.ofDigitChars_toDigits (by decide) (by decide)]

theorem natOfDigits_zeros (s : Str) (j : Nat) : natOfDigits (s ++ zeros j) = natOfDigits s * 10 ^ j := by
  induction j with
  | zero => rw [zeros, List.replicate_zero, List.append_nil, pow_zero, mul_one]
  | succ j ih =>
      have next : natOfDigits (s ++ zeros (j + 1)) = 10 * natOfDigits (s ++ zeros j) + 0 := by
        rw [zeros, List.replicate_succ', ← List.append_assoc, natOfDigits, List.filterMap_append,
          Str.ofDigits, List.foldl_append]
        rfl
      rw [next, ih]
      ring

theorem head_ofNat {n : Nat} (positive : 0 < n) (nonempty : Str.ofNat n ≠ []) :
    isZero ((Str.ofNat n).head nonempty) = false := by
  induction n using Nat.strong_induction_on with
  | _ n ih =>
    rcases Nat.lt_or_ge n 10 with small | large
    · have digit : Str.ofNat n = [CodePoint.ofChar n.digitChar] := by
        rw [Str.ofNat, Nat.toDigits_of_lt_base small, List.map_singleton]
      have all : ∀ m < 10, 0 < m → isZero (CodePoint.ofChar m.digitChar) = false := by decide
      simp only [digit, List.head_cons]
      exact all n small positive
    · have split : Str.ofNat n = Str.ofNat (n / 10) ++ [CodePoint.ofChar (n % 10).digitChar] := by
        rw [Str.ofNat, Nat.toDigits_of_base_le (by decide) large, List.map_append, List.map_singleton]
        rfl
      have some : Str.ofNat (n / 10) ≠ [] := by
        rw [Str.ofNat, ne_eq, List.map_eq_nil_iff]
        exact Nat.toDigits_ne_nil
      simp only [split, List.head_append_of_ne_nil some]
      exact ih (n / 10) (by omega) (by omega) some

/-! ## The two spellings agree -/

section Decimal

variable {x : Binary64}

theorem shortest_pos (positive : 0 < x.value) : 0 < (Binary64.shortest x).1 := by
  by_contra zero
  have none : (Binary64.shortest x).1 = 0 := by omega
  have spells := Binary64.spells_shortest positive
  have round := Binary64.round_value ⟨0, 0, 0, by norm_num, by norm_num, by norm_num, by norm_num⟩
  rw [Binary64.Spells, none, Nat.cast_zero, zero_mul, round] at spells
  rw [← Extended.finite.inj spells] at positive
  exact lt_irrefl 0 positive

theorem decimal_spelled (x : Binary64) : ∃ j, Str.ofNat (Binary64.shortest x).1 =
    (decimal x).1 ++ zeros j ∧ (decimal x).2 = (decimal x).1.length + j + (Binary64.shortest x).2 := by
  generalize split : Binary64.shortest x = shortest
  obtain ⟨d, p⟩ := shortest
  have tail : ∃ j, (Str.ofNat d).rtakeWhile isZero = zeros j := by
    refine ⟨_, List.eq_replicate_iff.mpr ⟨rfl, ?_⟩⟩
    intro c member
    simpa [isZero] using List.mem_rtakeWhile_imp member
  obtain ⟨j, trailing⟩ := tail
  have spelled : Str.ofNat d = (decimal x).1 ++ zeros j := by
    rw [decimal, split, ← trailing]
    exact List.rdropWhile_append_rtakeWhile.symm
  refine ⟨j, spelled, ?_⟩
  have length := congrArg List.length spelled
  rw [List.length_append, zeros, List.length_replicate] at length
  simp only [decimal, split] at length ⊢
  omega

theorem decimal_significant (positive : 0 < x.value) : Significant (decimal x).1 := by
  obtain ⟨j, spelled, -⟩ := decimal_spelled x
  have digits : (decimal x).1 = (Str.ofNat (Binary64.shortest x).1).rdropWhile isZero := rfl
  have some : Str.ofNat (Binary64.shortest x).1 ≠ [] := by
    rw [Str.ofNat, ne_eq, List.map_eq_nil_iff]
    exact Nat.toDigits_ne_nil
  have head := head_ofNat (shortest_pos positive) some
  have nonempty : (decimal x).1 ≠ [] := by
    intro none
    rw [digits, List.rdropWhile_eq_nil_iff] at none
    rw [none _ (List.head_mem some)] at head
    cases head
  refine ⟨nonempty, ?_, ?_, ?_⟩
  · intro c member
    apply isDigits_ofNat (Binary64.shortest x).1 c
    rw [spelled]
    exact List.mem_append_left _ member
  · simpa only [spelled, List.head_append_of_ne_nil nonempty] using head
  · exact Bool.eq_false_iff.mpr (List.rdropWhile_last_not isZero _ nonempty)

end Decimal

section Spellings

variable {digits : Str} {n : Int}

theorem isDigits_take (numeric : IsDigits digits) (k : Nat) : IsDigits (digits.take k) :=
  fun c member => numeric c (List.mem_of_mem_take member)

theorem isDigits_drop (numeric : IsDigits digits) (k : Nat) : IsDigits (digits.drop k) :=
  fun c member => numeric c (List.mem_of_mem_drop member)

theorem zeros_zero : zeros 0 = [] := rfl

theorem zeros_add (i j : Nat) : zeros i ++ zeros j = zeros (i + j) := by
  rw [zeros, zeros, zeros, List.replicate_append_replicate]

theorem decompose_whole (significant : Significant digits) {j : Nat} (place : digits.length + j = n) :
    decompose (digits ++ zeros j) = (digits, n) := by
  have spelled : digits ++ zeros j = spelling (digits ++ zeros j) none none := by
    rw [spelling, Option.elim_none, Option.elim_none, List.append_nil, List.append_nil]
  rw [spelled]
  refine decompose_padded significant (significant.numeric.append (isDigits_zeros j)) ?_ ?_
    (i := 0) (j := j) ?_ ?_
  · exact nofun
  · exact nofun
  · rw [zeros_zero, List.nil_append, Option.getD_none, List.append_nil]
  · rw [List.length_append, zeros, List.length_replicate, Option.elim_none]
    omega

theorem decompose_wholePoint (significant : Significant digits) {j : Nat}
    (place : digits.length + j = n) :
    decompose (digits ++ zeros j ++ str "." ++ str "0") = (digits, n) := by
  have spelled : digits ++ zeros j ++ str "." ++ str "0" =
      spelling (digits ++ zeros j) (some (str "0")) none := by
    rw [spelling, Option.elim_some, Option.elim_none, List.append_nil, List.append_assoc]
  rw [spelled]
  refine decompose_padded significant (significant.numeric.append (isDigits_zeros j)) ?_ ?_
    (i := 0) (j := j + 1) ?_ ?_
  · rintro _ ⟨⟩
    exact isDigits_zeros 1
  · exact nofun
  · rw [zeros_zero, List.nil_append, ← zeros_add, ← List.append_assoc]
    rfl
  · rw [List.length_append, zeros, List.length_replicate, Option.elim_none]
    omega

theorem decompose_point (significant : Significant digits) {k : Nat} (inside : k ≤ digits.length)
    (place : (k : Int) = n) : decompose (digits.take k ++ str "." ++ digits.drop k) = (digits, n) := by
  have spelled : digits.take k ++ str "." ++ digits.drop k =
      spelling (digits.take k) (some (digits.drop k)) none := by
    rw [spelling, Option.elim_some, Option.elim_none, List.append_nil, List.append_assoc]
  rw [spelled]
  refine decompose_padded significant (isDigits_take significant.numeric k) ?_ ?_
    (i := 0) (j := 0) ?_ ?_
  · rintro _ ⟨⟩
    exact isDigits_drop significant.numeric k
  · exact nofun
  · rw [zeros_zero, List.nil_append, List.append_nil, Option.getD_some, List.take_append_drop]
  · rw [List.length_take, Option.elim_none]
    omega

theorem decompose_fraction (significant : Significant digits) {j : Nat} (place : -(j : Int) = n) :
    decompose (str "0" ++ str "." ++ (zeros j ++ digits)) = (digits, n) := by
  have spelled : str "0" ++ str "." ++ (zeros j ++ digits) =
      spelling (str "0") (some (zeros j ++ digits)) none := by
    rw [spelling, Option.elim_some, Option.elim_none, List.append_nil, List.append_assoc]
  rw [spelled]
  refine decompose_padded significant (isDigits_zeros 1) ?_ ?_ (i := j + 1) (j := 0) ?_ ?_
  · rintro _ ⟨⟩
    exact (isDigits_zeros j).append significant.numeric
  · exact nofun
  · rw [zeros_zero, List.append_nil, Nat.add_comm, ← zeros_add, List.append_assoc]
    rfl
  · have one : (zeros 1).length = 1 := rfl
    rw [Option.elim_none, one]
    omega

theorem decompose_exponent (significant : Significant digits) {e : Str} (some : e ≠ [])
    (place : 1 + intOfText e = n) :
    decompose ((if (digits.length : Int) = 1 then digits
      else digits.take 1 ++ str "." ++ digits.drop 1) ++ str "e" ++ e) = (digits, n) := by
  have positive := List.length_pos_iff.mpr significant.nonempty
  split
  · rename_i one
    have spelled : digits ++ str "e" ++ e = spelling digits none (Option.some e) := by
      rw [spelling, Option.elim_some, Option.elim_none, List.append_nil, List.append_assoc]
    rw [spelled]
    refine decompose_padded significant significant.numeric ?_ ?_ (i := 0) (j := 0) ?_ ?_
    · exact nofun
    · rintro _ ⟨⟩
      exact some
    · rw [zeros_zero, List.nil_append, Option.getD_none]
    · rw [Option.elim_some]
      omega
  · have spelled : digits.take 1 ++ str "." ++ digits.drop 1 ++ str "e" ++ e =
        spelling (digits.take 1) (Option.some (digits.drop 1)) (Option.some e) := by
      simp only [spelling, Option.elim_some, List.append_assoc]
    rw [spelled]
    refine decompose_padded significant (isDigits_take significant.numeric 1) ?_ ?_ (i := 0) (j := 0)
      ?_ ?_
    · rintro _ ⟨⟩
      exact isDigits_drop significant.numeric 1
    · rintro _ ⟨⟩
      exact some
    · rw [zeros_zero, List.nil_append, List.append_nil, Option.getD_some, List.take_append_drop]
    · rw [Option.elim_some, List.length_take]
      omega

theorem intOfText_signed {sign : Str} {e : Int} (nonzero : sign = str "+" ∧ 0 ≤ e ∨ sign = str "-" ∧ e < 0)
    {text : Str} (value : natOfDigits text = e.natAbs) : intOfText (sign ++ text) = e := by
  rcases nonzero with ⟨rfl, positive⟩ | ⟨rfl, negative⟩
  · have read : intOfText (str "+" ++ text) = natOfDigits text := rfl
    rw [read, value]
    omega
  · have read : intOfText (str "-" ++ text) = -natOfDigits text := rfl
    rw [read, value]
    omega

theorem decompose_layout (significant : Significant digits) (n : Int) :
    decompose (layout digits n) = (digits, n) := by
  have positive := List.length_pos_iff.mpr significant.nonempty
  unfold layout
  dsimp only
  split
  · rename_i whole
    have place : (digits.length : Int) + (n - digits.length).toNat = n := by omega
    exact decompose_whole significant place
  · split
    · have place : (n.toNat : Int) = n := by omega
      have inside : n.toNat ≤ digits.length := by omega
      exact decompose_point significant inside place
    · split
      · have place : -((-n).toNat : Int) = n := by omega
        exact decompose_fraction significant place
      · have sign : (if 0 < n - 1 then str "+" else str "-") = str "+" ∧ 0 ≤ n - 1 ∨
            (if 0 < n - 1 then str "+" else str "-") = str "-" ∧ n - 1 < 0 := by
          split
          · exact Or.inl ⟨rfl, by omega⟩
          · exact Or.inr ⟨rfl, by omega⟩
        have read := intOfText_signed sign (natOfDigits_ofNat (n - 1).natAbs)
        apply decompose_exponent significant
        · exact List.append_ne_nil_of_right_ne_nil _ (by simp [Str.ofNat, Nat.toDigits_ne_nil])
        · rw [read]
          omega

theorem natOfDigits_padded (width m : Nat) : natOfDigits (Str.padded width m) = m := by
  have leading (j : Nat) : natOfDigits (zeros j ++ Str.ofNat m) = m := by
    induction j with
    | zero => exact natOfDigits_ofNat m
    | succ j ih => exact ih
  exact leading _

theorem decompose_repr {x : Binary64} (positive : 0 < x.value) :
    decompose (reprPositive x) = decimal x := by
  have significant := decimal_significant positive
  unfold reprPositive
  generalize decimal x = spelled at significant ⊢
  obtain ⟨digits, n⟩ := spelled
  have some := List.length_pos_iff.mpr significant.nonempty
  dsimp only at significant some ⊢
  split
  · split
    · have place : -((-n).toNat : Int) = n := by omega
      exact decompose_fraction significant place
    · split
      · have place : (digits.length : Int) + (n - digits.length).toNat = n := by omega
        exact decompose_wholePoint significant place
      · have place : (n.toNat : Int) = n := by omega
        have inside : n.toNat ≤ digits.length := by omega
        exact decompose_point significant inside place
  · have sign : (if n - 1 < 0 then str "-" else str "+") = str "+" ∧ 0 ≤ n - 1 ∨
        (if n - 1 < 0 then str "-" else str "+") = str "-" ∧ n - 1 < 0 := by
      split
      · exact Or.inr ⟨rfl, by omega⟩
      · exact Or.inl ⟨rfl, by omega⟩
    have read := intOfText_signed sign (natOfDigits_padded 2 (n - 1).natAbs)
    apply decompose_exponent significant
    · exact List.append_ne_nil_of_right_ne_nil _ (by simp [Str.padded, Str.ofNat, Nat.toDigits_ne_nil])
    · rw [read]
      omega

end Spellings

/-! ## One text for each number -/

theorem ecmascriptPositive_eq {x : Binary64} (positive : 0 < x.value) :
    ecmascriptPositive x = layout (decimal x).1 (decimal x).2 := by
  rw [ecmascriptPositive, decompose_repr positive]

theorem ecmascriptFinite_eq (x : Binary64) : ecmascriptFinite x = numberToString (.finite x) := by
  have agree {y : Binary64} (positive : 0 < y.value) : ecmascriptPositive y = positiveToString y := by
    rw [ecmascriptPositive_eq positive, layout, positiveToString]
    generalize decimal y = spelled
    obtain ⟨digits, n⟩ := spelled
    dsimp only
    split
    · rfl
    · split
      · rfl
      · split
        · simp [str]
        · -- the point stands before or behind all the digits here, so the exponent is not zero
          have sign : (if 0 < n - 1 then str "+" else str "-") =
              if n - 1 < 0 then str "-" else str "+" := by
            split <;> split <;> first | rfl | omega
          rw [sign]
          simp only [List.append_assoc]
  have spelled : numberToString (.finite x) = if x.value = 0 then str "0"
      else if x.value < 0 then str "-" ++ positiveToString x.neg else positiveToString x := rfl
  rw [spelled, ecmascriptFinite]
  split
  · rfl
  · rename_i nonzero
    split
    · rename_i negative
      rw [agree (neg_pos.mpr negative)]
    · rename_i nonnegative
      exact agree (lt_of_le_of_ne (not_lt.mp nonnegative) (Ne.symm nonzero))

theorem decimal_injective {x y : Binary64} (hx : 0 < x.value) (hy : 0 < y.value)
    (same : decimal x = decimal y) : x = y := by
  obtain ⟨i, left, place⟩ := decimal_spelled x
  obtain ⟨j, right, place'⟩ := decimal_spelled y
  have leftValue := congrArg natOfDigits left
  have rightValue := congrArg natOfDigits right
  rw [natOfDigits_ofNat, natOfDigits_zeros] at leftValue rightValue
  rw [← same] at rightValue place'
  apply Binary64.eq_of_shortest hx hy
  have scale {j : Nat} {p : Int} (place : (decimal x).2 = (decimal x).1.length + j + p) (d : Nat) :
      ((d * 10 ^ j : Nat) : ℚ) * 10 ^ p = d * 10 ^ ((decimal x).2 - (decimal x).1.length) := by
    rw [Nat.cast_mul, Nat.cast_pow, Nat.cast_ofNat, mul_assoc, ← zpow_natCast,
      ← zpow_add₀ (by norm_num)]
    congr 2
    omega
  rw [leftValue, rightValue, scale place, scale place']

def isNumberChar (c : CodePoint) : Bool :=
  (Str.digit? c).isSome || c ∈ [CodePoint.ofChar '-', CodePoint.ofChar '+', CodePoint.ofChar '.',
    CodePoint.ofChar 'e']

def IsNumeral (s : Str) : Prop := s.all isNumberChar = true

theorem IsNumeral.append {s t : Str} (hs : IsNumeral s) (ht : IsNumeral t) : IsNumeral (s ++ t) := by
  rw [IsNumeral, List.all_append, hs, ht, Bool.and_self]

theorem IsDigits.isNumeral {s : Str} (hs : IsDigits s) : IsNumeral s := by
  apply List.all_eq_true.mpr
  intro c member
  obtain ⟨d, digit⟩ := hs c member
  rw [isNumberChar, digit]
  rfl

theorem isNumeral_layout {digits : Str} (numeric : IsDigits digits) (n : Int) :
    IsNumeral (layout digits n) := by
  have point : IsNumeral (str ".") := rfl
  have mark : IsNumeral (str "e") := rfl
  have sign : IsNumeral (if 0 < n - 1 then str "+" else str "-") := by
    split
    · rfl
    · rfl
  have front := (isDigits_take numeric 1).isNumeral
  have behind := (isDigits_drop numeric 1).isNumeral
  unfold layout
  dsimp only
  split
  · exact (numeric.append (isDigits_zeros _)).isNumeral
  · split
    · exact ((isDigits_take numeric _).isNumeral.append point).append
        (isDigits_drop numeric _).isNumeral
    · split
      · exact ((isDigits_zeros 1).isNumeral.append point).append
          ((isDigits_zeros _).append numeric).isNumeral
      · apply IsNumeral.append (IsNumeral.append _ mark) (sign.append (isDigits_ofNat _).isNumeral)
        split
        · exact numeric.isNumeral
        · exact (front.append point).append behind

theorem ecmascriptPositive_isNumeral {x : Binary64} (positive : 0 < x.value) :
    IsNumeral (ecmascriptPositive x) := by
  rw [ecmascriptPositive_eq positive]
  exact isNumeral_layout (decimal_significant positive).numeric _

theorem neg_pos_of_neg {x : Binary64} (negative : x.value < 0) : 0 < x.neg.value :=
  neg_pos.mpr negative

theorem ecmascriptFinite_isNumeral (x : Binary64) : IsNumeral (ecmascriptFinite x) := by
  unfold ecmascriptFinite
  split
  · rfl
  · rename_i nonzero
    split
    · rename_i negative
      exact IsNumeral.append rfl (ecmascriptPositive_isNumeral (neg_pos_of_neg negative))
    · rename_i nonnegative
      exact ecmascriptPositive_isNumeral (lt_of_le_of_ne (not_lt.mp nonnegative) (Ne.symm nonzero))

theorem decompose_ecmascriptPositive {x : Binary64} (positive : 0 < x.value) :
    decompose (ecmascriptPositive x) = decimal x := by
  rw [ecmascriptPositive_eq positive, decompose_layout (decimal_significant positive)]

def Leads (s : Str) : Prop := ∃ c rest d, s = c :: rest ∧ Str.digit? c = some d

theorem IsDigits.leads {s : Str} (hs : IsDigits s) (nonempty : s ≠ []) (t : Str) : Leads (s ++ t) := by
  obtain ⟨c, rest, rfl⟩ := List.exists_cons_of_ne_nil nonempty
  obtain ⟨d, digit⟩ := hs c List.mem_cons_self
  exact ⟨c, rest ++ t, d, rfl, digit⟩

theorem leads_layout {digits : Str} (significant : Significant digits) (n : Int) :
    Leads (layout digits n) := by
  obtain ⟨nonempty, numeric, _, _⟩ := significant
  have front {k : Nat} (positive : 0 < k) (t : Str) : Leads (digits.take k ++ t) := by
    apply (isDigits_take numeric k).leads
    rw [ne_eq, List.take_eq_nil_iff]
    rintro (zero | none)
    · omega
    · exact nonempty none
  unfold layout
  dsimp only
  split
  · exact numeric.leads nonempty _
  · split
    · rw [List.append_assoc]
      exact front (by omega) _
    · split
      · exact (isDigits_zeros 1).leads nofun _
      · rw [List.append_assoc]
        split
        · exact numeric.leads nonempty _
        · rw [List.append_assoc, List.append_assoc]
          exact front Nat.one_pos _

theorem ecmascriptPositive_leads {x : Binary64} (positive : 0 < x.value) :
    Leads (ecmascriptPositive x) := by
  rw [ecmascriptPositive_eq positive]
  exact leads_layout (decimal_significant positive) _

theorem not_leads_minus (rest : Str) : ¬ Leads (str "-" ++ rest) := by
  rintro ⟨c, tail, d, spelled, digit⟩
  rw [← (List.cons.inj spelled).1] at digit
  cases digit

theorem ecmascriptPositive_ne_zero {x : Binary64} (positive : 0 < x.value) :
    ecmascriptPositive x ≠ str "0" := by
  intro zero
  have digit : (decompose (str "0")).1 = str "0" := by decide
  have read := decompose_ecmascriptPositive positive
  rw [zero] at read
  have head := (decimal_significant positive).head
  simp only [← congrArg Prod.fst read, digit] at head
  cases head

theorem ecmascriptPositive_injective {x y : Binary64} (hx : 0 < x.value) (hy : 0 < y.value)
    (same : ecmascriptPositive x = ecmascriptPositive y) : x = y := by
  apply decimal_injective hx hy
  rw [← decompose_ecmascriptPositive hx, ← decompose_ecmascriptPositive hy, same]

inductive Sign (x : Binary64) : Prop
  | zero : x.value = 0 → ecmascriptFinite x = str "0" → Sign x
  | negative : 0 < x.neg.value → ecmascriptFinite x = str "-" ++ ecmascriptPositive x.neg → Sign x
  | positive : 0 < x.value → ecmascriptFinite x = ecmascriptPositive x → Sign x

theorem sign (x : Binary64) : Sign x := by
  rcases lt_trichotomy x.value 0 with below | zero | above
  · exact .negative (neg_pos_of_neg below) (by rw [ecmascriptFinite, if_neg below.ne, if_pos below])
  · exact .zero zero (by rw [ecmascriptFinite, if_pos zero])
  · exact .positive above (by rw [ecmascriptFinite, if_neg above.ne', if_neg (not_lt.mpr above.le)])

theorem ecmascriptFinite_injective {x y : Binary64} (same : ecmascriptFinite x = ecmascriptFinite y) :
    x = y := by
  cases sign x with
  | zero zero spelled =>
      cases sign y with
      | zero zero' _ => exact Binary64.ext (zero.trans zero'.symm)
      | negative _ spelled' =>
          rw [spelled, spelled'] at same
          cases (List.cons.inj same).1
      | positive above spelled' =>
          rw [spelled, spelled'] at same
          exact absurd same.symm (ecmascriptPositive_ne_zero above)
  | negative below spelled =>
      cases sign y with
      | zero _ spelled' =>
          rw [spelled, spelled'] at same
          cases (List.cons.inj same).1
      | negative below' spelled' =>
          rw [spelled, spelled', List.append_cancel_left_eq] at same
          have := ecmascriptPositive_injective below below' same
          exact Binary64.ext (neg_injective (congrArg Binary64.value this))
      | positive above spelled' =>
          rw [spelled, spelled'] at same
          exact absurd (same ▸ ecmascriptPositive_leads above) (not_leads_minus _)
  | positive above spelled =>
      cases sign y with
      | zero _ spelled' =>
          rw [spelled, spelled'] at same
          exact absurd same (ecmascriptPositive_ne_zero above)
      | negative _ spelled' =>
          rw [spelled, spelled'] at same
          exact absurd (same ▸ ecmascriptPositive_leads above) (not_leads_minus _)
      | positive above' spelled' =>
          rw [spelled, spelled'] at same
          exact ecmascriptPositive_injective above above' same

theorem ecmascriptFinite_ne_nil (x : Binary64) : ecmascriptFinite x ≠ [] := by
  cases sign x with
  | zero _ spelled =>
      rw [spelled]
      exact nofun
  | negative _ spelled =>
      rw [spelled]
      exact nofun
  | positive above spelled =>
      obtain ⟨c, rest, _, leads, _⟩ := ecmascriptPositive_leads above
      rw [spelled, leads]
      exact nofun

end Proxyshop.Contracts
