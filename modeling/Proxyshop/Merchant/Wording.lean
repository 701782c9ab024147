import Proxyshop.Contracts.SignedBytes
import Proxyshop.Merchant.Digest

/-!
# What the canonical text says

The text of a document can be read back up to the order of members, and the text of the approved terms
up to the order of each of their lists. Numbers are doubles.
-/

namespace Proxyshop.Merchant

open Python Numbers Contracts Structures Hashing Ecmascript

/-! ## Numbers -/

/-- `repr` of a finite float. -/
def reprFinite (x : Binary64) : Str :=
  if x.value = 0 then str "0.0"
  else if x.value < 0 then str "-" ++ reprPositive x.neg
  else reprPositive x

instance Shortest.double : Shortest Binary64 where
  repr := reprFinite
  decimal x := x.value
  round_decimal := Format.round_value

def Pointed (s : Str) : Prop := ∃ c ∈ s, c = CodePoint.ofChar '.' ∨ c = CodePoint.ofChar 'e'

theorem Pointed.append_left {s : Str} (pointed : Pointed s) (t : Str) : Pointed (s ++ t) := by
  obtain ⟨c, member, marks⟩ := pointed
  exact ⟨c, List.mem_append_left t member, marks⟩

theorem Pointed.append_right {t : Str} (pointed : Pointed t) (s : Str) : Pointed (s ++ t) := by
  obtain ⟨c, member, marks⟩ := pointed
  exact ⟨c, List.mem_append_right s member, marks⟩

theorem not_pointed_ofInt (n : Int) : ¬ Pointed (Str.ofInt n) := by
  rintro ⟨c, member, marks⟩
  have digits : c = CodePoint.ofChar '-' ∨ ∃ d, Str.digit? c = some d := by
    unfold Str.ofInt at member
    split at member
    · exact (List.mem_cons.mp member).imp_right (isDigits_ofNat _ c)
    · exact Or.inr (isDigits_ofNat _ c member)
  rcases marks with rfl | rfl
  · rcases digits with same | ⟨d, digit⟩
    · exact absurd same (by decide)
    · cases digit
  · rcases digits with same | ⟨d, digit⟩
    · exact absurd same (by decide)
    · cases digit

theorem reprPositive_shape {x : Binary64} (positive : 0 < x.value) :
    IsNumeral (reprPositive x) ∧ Leads (reprPositive x) ∧ Pointed (reprPositive x) := by
  have significant := decimal_significant positive
  unfold reprPositive
  generalize decimal x = spelled at significant ⊢
  obtain ⟨digits, n⟩ := spelled
  obtain ⟨nonempty, numeric, -, -⟩ := significant
  have point : Pointed (str ".") := ⟨_, List.mem_cons_self, Or.inl rfl⟩
  have mark : Pointed (str "e") := ⟨_, List.mem_cons_self, Or.inr rfl⟩
  have pointNumeral : IsNumeral (str ".") := rfl
  have markNumeral : IsNumeral (str "e") := rfl
  have front {k : Nat} (some : 0 < k) (t : Str) : Leads (digits.take k ++ t) := by
    apply (isDigits_take numeric k).leads
    rw [ne_eq, List.take_eq_nil_iff]
    rintro (zero | none)
    · omega
    · exact nonempty none
  dsimp only
  split
  · split
    · refine ⟨?_, (isDigits_zeros 1).leads nofun _, (point.append_right _).append_left _⟩
      exact ((isDigits_zeros 1).isNumeral.append pointNumeral).append ((isDigits_zeros _).append numeric).isNumeral
    · split
      · refine ⟨?_, ?_, (point.append_right _).append_left _⟩
        · exact ((numeric.append (isDigits_zeros _)).isNumeral.append pointNumeral).append (isDigits_zeros 1).isNumeral
        · rw [List.append_assoc, List.append_assoc]
          exact numeric.leads nonempty _
      · refine ⟨?_, ?_, (point.append_right _).append_left _⟩
        · exact ((isDigits_take numeric _).isNumeral.append pointNumeral).append (isDigits_drop numeric _).isNumeral
        · rw [List.append_assoc]
          exact front (by omega) _
  · refine ⟨?_, ?_, (mark.append_right _).append_left _⟩
    · have sign : IsNumeral (if n - 1 < 0 then str "-" else str "+") := by
        split <;> rfl
      have power : IsNumeral (Str.padded 2 (n - 1).natAbs) :=
        ((isDigits_zeros _).append (isDigits_ofNat _)).isNumeral
      apply IsNumeral.append (IsNumeral.append _ markNumeral) (sign.append power)
      split
      · exact numeric.isNumeral
      · exact ((isDigits_take numeric 1).isNumeral.append pointNumeral).append (isDigits_drop numeric 1).isNumeral
    · rw [List.append_assoc]
      split
      · exact numeric.leads nonempty _
      · rw [List.append_assoc, List.append_assoc]
        exact front Nat.one_pos _

theorem reprPositive_injective {x y : Binary64} (hx : 0 < x.value) (hy : 0 < y.value)
    (same : reprPositive x = reprPositive y) : x = y := by
  apply decimal_injective hx hy
  rw [← decompose_repr hx, ← decompose_repr hy, same]

theorem reprPositive_ne_zero {x : Binary64} (positive : 0 < x.value) : reprPositive x ≠ str "0.0" := by
  intro zero
  have digit : (decompose (str "0.0")).1 = str "0" := by decide
  have read := decompose_repr positive
  rw [zero] at read
  have head := (decimal_significant positive).head
  simp only [← congrArg Prod.fst read, digit] at head
  cases head

inductive Signed (x : Binary64) : Prop
  | zero : x.value = 0 → reprFinite x = str "0.0" → Signed x
  | negative : 0 < x.neg.value → reprFinite x = str "-" ++ reprPositive x.neg → Signed x
  | positive : 0 < x.value → reprFinite x = reprPositive x → Signed x

theorem signed_of (x : Binary64) : Signed x := by
  rcases lt_trichotomy x.value 0 with below | zero | above
  · exact .negative (Contracts.neg_pos_of_neg below) (by rw [reprFinite, if_neg below.ne, if_pos below])
  · exact .zero zero (by rw [reprFinite, if_pos zero])
  · exact .positive above (by rw [reprFinite, if_neg above.ne', if_neg (not_lt.mpr above.le)])

theorem reprFinite_injective {x y : Binary64} (same : reprFinite x = reprFinite y) : x = y := by
  have apart {z : Binary64} (positive : 0 < z.value) (rest : Str) : str "-" ++ rest ≠ reprPositive z := by
    intro same
    exact not_leads_minus rest (same ▸ (reprPositive_shape positive).2.1)
  cases signed_of x with
  | zero zero spelled =>
      cases signed_of y with
      | zero zero' _ => exact Binary64.ext (zero.trans zero'.symm)
      | negative _ spelled' =>
          rw [spelled, spelled'] at same
          cases (List.cons.inj same).1
      | positive above spelled' =>
          rw [spelled, spelled'] at same
          exact absurd same.symm (reprPositive_ne_zero above)
  | negative below spelled =>
      cases signed_of y with
      | zero _ spelled' =>
          rw [spelled, spelled'] at same
          cases (List.cons.inj same).1
      | negative below' spelled' =>
          rw [spelled, spelled', List.append_cancel_left_eq] at same
          have := reprPositive_injective below below' same
          exact Binary64.ext (neg_injective (congrArg Binary64.value this))
      | positive above spelled' =>
          rw [spelled, spelled'] at same
          exact absurd same (apart above _)
  | positive above spelled =>
      cases signed_of y with
      | zero _ spelled' =>
          rw [spelled, spelled'] at same
          exact absurd same (reprPositive_ne_zero above)
      | negative _ spelled' =>
          rw [spelled, spelled'] at same
          exact absurd same.symm (apart above _)
      | positive above' spelled' =>
          rw [spelled, spelled'] at same
          exact reprPositive_injective above above' same

theorem reprFinite_shape (x : Binary64) : IsNumeral (reprFinite x) ∧ Pointed (reprFinite x) := by
  cases signed_of x with
  | zero _ spelled =>
      rw [spelled]
      exact ⟨rfl, CodePoint.ofChar '.', by decide, Or.inl rfl⟩
  | negative below spelled =>
      obtain ⟨numeral, -, pointed⟩ := reprPositive_shape below
      rw [spelled]
      exact ⟨IsNumeral.append rfl numeral, pointed.append_right _⟩
  | positive above spelled =>
      obtain ⟨numeral, -, pointed⟩ := reprPositive_shape above
      rw [spelled]
      exact ⟨numeral, pointed⟩

theorem ofInt_isNumeral (n : Int) : IsNumeral (Str.ofInt n) := by
  unfold Str.ofInt
  split
  · exact IsNumeral.append (s := str "-") rfl (isDigits_ofNat _).isNumeral
  · exact (isDigits_ofNat _).isNumeral

theorem ofInt_injective : Function.Injective Str.ofInt := by
  intro m n same
  have apart (k l : Nat) : CodePoint.ofChar '-' :: Str.ofNat k ≠ Str.ofNat l := by
    intro same
    obtain ⟨d, digit⟩ := isDigits_ofNat l _ (same ▸ List.mem_cons_self)
    cases digit
  unfold Str.ofInt at same
  split at same <;> split at same
  · have := Str.ofNat_inj.mp (List.cons.inj same).2
    omega
  · exact absurd same (apart _ _)
  · exact absurd same.symm (apart _ _)
  · have := Str.ofNat_inj.mp same
    omega

theorem dumpsNumber_injective {m n : Literal Binary64} (same : dumpsNumber m = dumpsNumber n) : m = n := by
  have word (n : Int) (x : Binary64) : Str.ofInt n ≠ reprFinite x := by
    intro same
    exact not_pointed_ofInt n (same ▸ (reprFinite_shape x).2)
  have infinite {s : Str} (numeral : IsNumeral s) (negative : Bool) :
      s ≠ if negative then str "-Infinity" else str "Infinity" := by
    rintro rfl
    cases negative <;> cases numeral
  have nan {s : Str} (numeral : IsNumeral s) : s ≠ str "NaN" := by
    rintro rfl
    cases numeral
  have signs (b : Bool) : (if b then str "-Infinity" else str "Infinity") ≠ str "NaN" := by
    cases b <;> decide
  rcases m with m | ⟨x | b | _⟩ <;> rcases n with n | ⟨y | c | _⟩
  · exact congrArg _ (ofInt_injective same)
  · exact absurd same (word _ _)
  · exact absurd same (infinite (ofInt_isNumeral _) _)
  · exact absurd same (nan (ofInt_isNumeral _))
  · exact absurd same.symm (word _ _)
  · rw [reprFinite_injective same]
  · exact absurd same (infinite (reprFinite_shape _).1 _)
  · exact absurd same (nan (reprFinite_shape _).1)
  · exact absurd same.symm (infinite (ofInt_isNumeral _) _)
  · exact absurd same.symm (infinite (reprFinite_shape _).1 _)
  · cases b <;> cases c <;> first | rfl | exact absurd same (by decide)
  · exact absurd same (signs b)
  · exact absurd same.symm (nan (ofInt_isNumeral _))
  · exact absurd same.symm (nan (reprFinite_shape _).1)
  · exact absurd same.symm (signs c)
  · rfl

/-! ## Values -/

theorem escapeChar_short : ∀ p ∈ shortEscapes, escapeChar (Fin.ofNat _ p.1) = p.2 := by
  decide

theorem escapeChar_eq (c : CodePoint) : escapeChar c = dumpsChar c := by
  have low : ∀ n (inside : n < 32), escapeChar ⟨n, by omega⟩ = dumpsChar ⟨n, by omega⟩ := by
    decide
  by_cases control : c.val < 32
  · exact low c.val control
  · cases dumped c with
    | short p member value spelled =>
        have named := escapeChar_short p member
        have same : Fin.ofNat _ p.1 = c := Fin.ext (by rw [value]; exact Nat.mod_eq_of_lt c.isLt)
        rw [spelled, ← named, same]
    | long below _ => exact absurd below control
    | plain spelled quote slash =>
        have plain : c.val ≠ 10 ∧ c.val ≠ 13 ∧ c.val ≠ 9 ∧ c.val ≠ 12 ∧ c.val ≠ 8 := by omega
        obtain ⟨newline, carriage, tab, feed, back⟩ := plain
        rw [spelled, escapeChar, if_neg quote, if_neg slash, if_neg newline, if_neg carriage,
          if_neg tab, if_neg feed, if_neg back, if_neg control]

theorem quoted_eq (s : Str) : quoted s = Contracts.dumps s := by
  rw [quoted, Contracts.dumps, funext escapeChar_eq]

theorem dumpsItems_eq (items : List (Wire Binary64)) : dumpsItems items = items.map dumps := by
  induction items with
  | nil => rfl
  | cons v items ih => rw [dumpsItems, ih, List.map_cons]

theorem dumpsMembers_eq (members : Dict Str (Wire Binary64)) :
    dumpsMembers members = members.map fun e => (e.1, dumps e.2) := by
  induction members with
  | nil => rfl
  | cons e members ih => rw [dumpsMembers, ih, List.map_cons]

def dumpsEntry (e : Str × Wire Binary64) : Str := Contracts.dumps e.1 ++ str ":" ++ dumps e.2

theorem dumps_array (items : List (Wire Binary64)) :
    dumps (.array items) = str "[" ++ [comma].intercalate (items.map dumps) ++ [closeArray] := by
  rw [dumps, dumpsItems_eq]
  rfl

theorem dumps_object (members : Dict Str (Wire Binary64)) : dumps (.object members) =
    str "\x7b" ++ [comma].intercalate ((byKey Str.le members).map dumpsEntry) ++ [closeObject] := by
  rw [dumps, dumpsMembers_eq, byKey_map, List.map_map]
  have spelled : spellMember ∘ (fun e : Str × Wire Binary64 => (e.1, dumps e.2)) = dumpsEntry := by
    funext e
    rw [Function.comp_apply, spellMember, quoted_eq, dumpsEntry]
  rw [spelled]
  rfl

def initial {F : Type} : Wire F → Kind
  | .null => .null
  | .bool b => .bool b
  | .number _ => .number
  | .string _ => .string
  | .array _ => .array
  | .object _ => .object

def initial? (c : CodePoint) : Option Kind :=
  if c = CodePoint.ofChar 'I' ∨ c = CodePoint.ofChar 'N' then some .number else kind? c

theorem initial_of_number (n : Literal Binary64) (x : Str) :
    ∃ c rest, dumpsNumber n ++ x = c :: rest ∧ initial? c = some .number := by
  have numeral {s : Str} (nonempty : s ≠ []) (numeral : IsNumeral s) :
      ∃ c rest, s ++ x = c :: rest ∧ initial? c = some .number := by
    obtain ⟨c, rest, rfl⟩ := List.exists_cons_of_ne_nil nonempty
    rw [IsNumeral, List.all_cons, Bool.and_eq_true] at numeral
    refine ⟨c, rest ++ x, rfl, ?_⟩
    rw [initial?, kind?, if_pos numeral.1, ite_self]
  rcases n with n | ⟨y | b | _⟩
  · apply numeral _ (ofInt_isNumeral n)
    unfold Str.ofInt
    split
    · exact List.cons_ne_nil _ _
    · simp [Str.ofNat, Nat.toDigits_ne_nil]
  · obtain ⟨spelled, c, member, -⟩ := reprFinite_shape y
    exact numeral (List.ne_nil_of_mem member) spelled
  · cases b
    · exact ⟨_, _, rfl, by decide⟩
    · exact ⟨_, _, rfl, by decide⟩
  · exact ⟨_, _, rfl, by decide⟩

theorem initial_of_text (v : Wire Binary64) (x : Str) :
    ∃ c rest, dumps v ++ x = c :: rest ∧ initial? c = some (initial v) := by
  cases v with
  | null => exact ⟨_, _, rfl, by decide⟩
  | bool b => cases b <;> exact ⟨_, _, rfl, by decide⟩
  | number n => exact initial_of_number n x
  | string s => exact ⟨_, _, rfl, rfl⟩
  | array items => exact ⟨_, _, rfl, rfl⟩
  | object members => exact ⟨_, _, rfl, rfl⟩

theorem initial_eq {v w : Wire Binary64} {x y : Str} (same : dumps v ++ x = dumps w ++ y) :
    initial v = initial w := by
  obtain ⟨c, rest, spelled, kind⟩ := initial_of_text v x
  obtain ⟨d, rest', spelled', kind'⟩ := initial_of_text w y
  rw [spelled, spelled'] at same
  rw [(List.cons.inj same).1, kind'] at kind
  exact (Option.some.inj kind).symm

theorem dumpsNumber_framed {m n : Literal Binary64} {x y : Str} (hx : Closed x) (hy : Closed y)
    (same : dumpsNumber m ++ x = dumpsNumber n ++ y) : m = n ∧ x = y := by
  let inner' (c : CodePoint) : Bool := c ≠ comma ∧ c ≠ closeArray ∧ c ≠ closeObject
  have numeral {s : Str} (spelled : IsNumeral s) : s.all inner' = true := by
    rw [List.all_eq_true]
    intro c member
    have char := List.all_eq_true.mp spelled c member
    apply decide_eq_true
    refine ⟨?_, ?_, ?_⟩ <;> rintro rfl <;> cases char
  have inside (n : Literal Binary64) : (dumpsNumber n).all inner' = true := by
    rcases n with n | ⟨x | b | _⟩
    · exact numeral (ofInt_isNumeral n)
    · exact numeral (reprFinite_shape x).1
    · cases b <;> decide
    · decide
  have stop {s : Str} (closed : Closed s) : ∀ c ∈ s.head?, inner' c = false := by
    intro c head
    rcases closed c head with rfl | rfl | rfl <;> decide
  obtain ⟨texts, rest⟩ := span_framed (inside m) (inside n) (stop hx) (stop hy) same
  exact ⟨dumpsNumber_injective texts, rest⟩

/-- A document whose text is `s`. -/
def Words (v : Wire Binary64) (s : Str) : Prop := v.Keyed ∧ dumps v = s

def WordsEntry (e : Str × Wire Binary64) (s : Str) : Prop := e.2.Keyed ∧ dumpsEntry e = s

def AlikeEntry (a b : Str × Wire Binary64) : Prop := a.1 = b.1 ∧ Json.Same Eq a.2 b.2

theorem Words.ne_closeArray {v : Wire Binary64} {s x y : Str} (written : Words v s) :
    s ++ x ≠ closeArray :: y := by
  intro closes
  obtain ⟨c, rest, spelled, kind⟩ := initial_of_text v x
  rw [written.2, closes] at spelled
  rw [← (List.cons.inj spelled).1] at kind
  cases kind

theorem WordsEntry.ne_closeObject {e : Str × Wire Binary64} {s x y : Str} (written : WordsEntry e s) :
    s ++ x ≠ closeObject :: y := by
  rw [← written.2]
  intro closes
  cases (List.cons.inj closes).1

theorem dumpsEntry_framed {e : Str × Wire Binary64} (value : Framed Words Closed (Json.Same Eq) e.2) :
    Framed WordsEntry Closed AlikeEntry e := by
  rintro other _ _ x y ⟨keyed, rfl⟩ ⟨keyed', rfl⟩ hx hy same
  rw [dumpsEntry, dumpsEntry, List.append_assoc, List.append_assoc, List.append_assoc, List.append_assoc] at same
  obtain ⟨key, rest⟩ := dumps_framed same
  obtain ⟨values, rest⟩ := value _ _ _ _ _ ⟨keyed, rfl⟩ ⟨keyed', rfl⟩ hx hy
    (List.append_cancel_left rest)
  exact ⟨⟨key, values⟩, rest⟩

theorem forall₂_words {α : Type} {P : α → Prop} {f : α → Str} {l : List α} (each : ∀ a ∈ l, P a) :
    List.Forall₂ (fun a s => P a ∧ f a = s) l (l.map f) := by
  rw [List.forall₂_map_right_iff, List.forall₂_same]
  exact fun a member => ⟨each a member, rfl⟩

theorem words_framed (v : Wire Binary64) : Framed Words Closed (Json.Same Eq) v := by
  induction size : sizeOf v using Nat.strong_induction_on generalizing v with
  | _ n ih =>
    rintro w _ _ x y ⟨keyed, rfl⟩ ⟨keyed', rfl⟩ hx hy same
    have kinds := initial_eq same
    cases v with
    | null =>
        cases w <;> cases kinds
        exact ⟨.null, List.append_cancel_left same⟩
    | bool b =>
        cases w <;> cases kinds
        exact ⟨.bool b, List.append_cancel_left same⟩
    | number m =>
        cases w <;> cases kinds
        obtain ⟨equal, rest⟩ := dumpsNumber_framed hx hy same
        exact ⟨.number equal, rest⟩
    | string s =>
        cases w <;> cases kinds
        rw [dumps, dumps, quoted_eq, quoted_eq] at same
        obtain ⟨rfl, rest⟩ := dumps_framed same
        exact ⟨.string _, rest⟩
    | array items =>
        cases w <;> cases kinds
        rename_i others
        rw [dumps_array, dumps_array, List.append_assoc, List.append_assoc, List.append_assoc,
          List.append_assoc] at same
        have each : ∀ v ∈ items, Framed Words Closed (Json.Same Eq) v := by
          intro v member
          exact ih _ (size ▸ Json.sizeOf_item member) v rfl
        have left : List.Forall₂ Words items (items.map dumps) := forall₂_words fun _ => keyed.item
        have right : List.Forall₂ Words others (others.map dumps) := forall₂_words fun _ => keyed'.item
        obtain ⟨matched, rest⟩ := intercalate_framed (by decide) closed_comma closed_closeArray
          (fun _ _ _ _ => Words.ne_closeArray) left right each (List.append_cancel_left same)
        exact ⟨.array_of_forall₂ matched, rest⟩
    | object members =>
        cases w <;> cases kinds
        rename_i others
        rw [dumps_object, dumps_object, List.append_assoc, List.append_assoc, List.append_assoc,
          List.append_assoc] at same
        have inside {members : Dict Str (Wire Binary64)} {e : Str × Wire Binary64}
            (member : e ∈ byKey Str.le members) : e ∈ members := (byKey_perm members).mem_iff.mp member
        have each : ∀ e ∈ byKey Str.le members, Framed WordsEntry Closed AlikeEntry e := by
          intro e member
          exact dumpsEntry_framed (ih _ (size ▸ Json.sizeOf_member (inside member)) e.2 rfl)
        have left : List.Forall₂ WordsEntry (byKey Str.le members) _ :=
          forall₂_words fun _ member => keyed.member (inside member)
        have right : List.Forall₂ WordsEntry (byKey Str.le others) _ :=
          forall₂_words fun _ member => keyed'.member (inside member)
        obtain ⟨matched, rest⟩ := intercalate_framed (by decide) closed_comma closed_closeObject
          (fun _ _ _ _ => WordsEntry.ne_closeObject) left right each (List.append_cancel_left same)
        obtain ⟨present, values⟩ := related_of_byKey keyed'.distinct matched
        exact ⟨.object present values, rest⟩

theorem dumps_congr {v w : Wire Binary64} (same : Json.Same Eq v w) (keyed : v.Keyed) (keyed' : w.Keyed) :
    dumps v = dumps w := by
  induction same with
  | null => rfl
  | bool b => rfl
  | string s => rfl
  | number same => rw [same]
  | @array xs ys length _ ih =>
      rw [dumps_array, dumps_array]
      congr 3
      rw [← List.forall₂_eq_eq_eq, List.forall₂_map_left_iff, List.forall₂_map_right_iff]
      refine List.forall₂_iff_get.mpr ⟨length, ?_⟩
      intro i left right
      exact ih i _ _ (List.getElem?_eq_getElem left) (List.getElem?_eq_getElem right)
        (keyed.item (List.getElem_mem left)) (keyed'.item (List.getElem_mem right))
  | @object xs ys present _ ih =>
      rw [dumps_object, dumps_object]
      congr 3
      rw [← List.forall₂_eq_eq_eq, List.forall₂_map_left_iff, List.forall₂_map_right_iff]
      have pairs := byKey_related (R := fun v w => dumps v = dumps w) str_order keyed.distinct
        keyed'.distinct (fun _ _ => trivial) present
        fun k v w left right => ih k v w left right (keyed.member (Dict.mem_of_get? left))
          (keyed'.member (Dict.mem_of_get? right))
      refine pairs.imp ?_
      rintro a b ⟨key, value⟩
      rw [dumpsEntry, dumpsEntry, key, value]

theorem dumps_eq_iff {v w : Wire Binary64} (keyed : v.Keyed) (keyed' : w.Keyed) :
    dumps v = dumps w ↔ Json.Same Eq v w := by
  constructor
  · intro same
    exact (words_framed v w _ _ _ _ ⟨keyed, rfl⟩ ⟨keyed', rfl⟩ closed_nil closed_nil
      (congrArg (· ++ []) same)).1
  · intro same
    exact dumps_congr same keyed keyed'

end Proxyshop.Merchant
