import Mathlib.Tactic.FinCases
import Proxyshop.Contracts.Signing
import Proxyshop.Structures.Fallible
import Proxyshop.Structures.Framing

/-!
# What the signed bytes bind

The canonical form of a document can be read back up to the order of members and the spelling of
numbers, and the covered fields and the hashed body together leave nothing out but the signature.
-/

namespace Proxyshop.Contracts

open Python Numbers Structures Hashing

def Numeral.exact? : Numeral → Option ℚ
  | .int i => some i
  | .float (.finite x) => some x.value
  | .float _ => none
  | .minusZero => some 0

def SameNumber (m n : Numeral) : Prop := m.exact? = n.exact?

/-! ## Numbers -/

theorem floatOfInt_eq_some {value : Int} {x : Binary64} (h : floatOfInt value = some x) :
    Binary64.round value = .finite x := by
  unfold floatOfInt at h
  split at h
  · rename_i y rounded
    rw [rounded, Option.some.inj h]
  · cases h

theorem exists_of_representable {value : Int} (h : representableAsDouble value = true) :
    ∃ x : Binary64, Binary64.round value = .finite x ∧ x.value = value := by
  obtain ⟨x, float, exact⟩ := Option.any_eq_true _ _ |>.mp h
  exact ⟨x, floatOfInt_eq_some float, by simpa using exact⟩

theorem writeNumber_eq_ok {n : Numeral} {s : Str} (h : writeNumber n = .ok s) :
    ∃ x : Binary64, n.exact? = some x.value ∧ s = ecmascriptFinite x := by
  cases n with
  | int value =>
      rw [writeNumber] at h
      split at h
      · rename_i representable
        obtain ⟨x, rounded, exact⟩ := exists_of_representable representable
        rw [rounded] at h
        exact ⟨x, by rw [exact, Numeral.exact?], (Except.ok.inj h).symm⟩
      · cases h
  | float value =>
      rw [writeNumber] at h
      cases value with
      | finite x => exact ⟨x, rfl, (Except.ok.inj h).symm⟩
      | _ => cases h
  | minusZero =>
      refine ⟨⟨0, 0, 0, by norm_num, by norm_num, by norm_num, by norm_num⟩, rfl, ?_⟩
      rw [writeNumber] at h
      exact (Except.ok.inj h).symm

theorem writeNumber_congr {m n : Numeral} {s t : Str} (same : SameNumber m n)
    (hm : writeNumber m = .ok s) (hn : writeNumber n = .ok t) : s = t := by
  obtain ⟨x, exact, rfl⟩ := writeNumber_eq_ok hm
  obtain ⟨y, exact', rfl⟩ := writeNumber_eq_ok hn
  rw [SameNumber, exact, exact'] at same
  rw [Binary64.ext (Option.some.inj same)]

/-! ## Strings -/

inductive Dumped (c : CodePoint) : Prop
  | short (p : Nat × Str) : p ∈ shortEscapes → p.1 = c.val → dumpsChar c = p.2 → Dumped c
  | long : c.val < 32 → dumpsChar c = str "\\u" ++ (str "00" ++ hexByte (UInt8.ofNat c.val)) → Dumped c
  | plain : dumpsChar c = [c] → c ≠ CodePoint.ofChar '"' → c ≠ CodePoint.ofChar '\\' → Dumped c

theorem lookup_mem {α β : Type} [BEq α] [LawfulBEq α] {l : List (α × β)} {a : α} {b : β}
    (h : l.lookup a = some b) : (a, b) ∈ l := by
  induction l with
  | nil => cases h
  | cons p l ih =>
      obtain ⟨a', b'⟩ := p
      rw [List.lookup_cons] at h
      split at h
      · rename_i same
        rw [beq_iff_eq.mp same, Option.some.inj h]
        exact List.mem_cons_self
      · exact List.mem_cons_of_mem _ (ih h)

theorem dumped (c : CodePoint) : Dumped c := by
  cases found : shortEscapes.lookup c.val with
  | some escape =>
      refine .short (c.val, escape) (lookup_mem found) rfl ?_
      rw [dumpsChar, found]
  | none =>
      by_cases control : c.val < 32
      · refine .long control ?_
        rw [dumpsChar, found]
        exact if_pos control
      · refine .plain ?_ ?_ ?_
        · rw [dumpsChar, found]
          exact if_neg control
        · rintro rfl
          cases found
        · rintro rfl
          cases found

theorem short_length : ∀ p ∈ shortEscapes, p.2.length = 2 := by decide

theorem short_head : ∀ p ∈ shortEscapes, ∃ rest, p.2 = CodePoint.ofChar '\\' :: rest := by
  intro p member
  fin_cases member <;> exact ⟨_, rfl⟩

theorem short_apart : ∀ p ∈ shortEscapes, ∀ q ∈ shortEscapes, p.2 = q.2 → p = q := by decide

theorem short_ne_long : ∀ p ∈ shortEscapes, p.2 ≠ str "\\u" := by decide

theorem dumpsChar_words {a b : CodePoint} {x y : Str} (same : dumpsChar a ++ x = dumpsChar b ++ y) :
    a = b ∧ x = y := by
  cases dumped a with
  | short p member value spelled =>
      cases dumped b with
      | short q member' value' spelled' =>
          rw [spelled, spelled'] at same
          have lengths := (short_length p member).trans (short_length q member').symm
          obtain ⟨escapes, rest⟩ := List.append_inj same lengths
          obtain rfl := short_apart p member q member' escapes
          exact ⟨Fin.ext (value.symm.trans value'), rest⟩
      | long _ spelled' =>
          rw [spelled, spelled', List.append_assoc] at same
          exact absurd (List.append_inj same (short_length p member)).1 (short_ne_long p member)
      | plain spelled' _ other =>
          obtain ⟨rest, escape⟩ := short_head p member
          rw [spelled, spelled', escape] at same
          exact absurd (List.cons.inj same).1.symm other
  | long control spelled =>
      cases dumped b with
      | short q member' _ spelled' =>
          rw [spelled, spelled', List.append_assoc] at same
          exact absurd (List.append_inj same.symm (short_length q member')).1
            (short_ne_long q member')
      | long control' spelled' =>
          rw [spelled, spelled'] at same
          obtain ⟨words, rest⟩ := List.append_inj same rfl
          have bytes := congrArg UInt8.toNat (hexByte_inj
            (List.append_cancel_left (List.append_cancel_left words)))
          simp only [UInt8.toNat_ofNat'] at bytes
          exact ⟨Fin.ext (by omega), rest⟩
      | plain spelled' _ other =>
          rw [spelled, spelled'] at same
          exact absurd (List.cons.inj same).1.symm other
  | plain spelled _ other =>
      cases dumped b with
      | short q member' _ spelled' =>
          obtain ⟨rest, escape⟩ := short_head q member'
          rw [spelled, spelled', escape] at same
          exact absurd (List.cons.inj same).1 other
      | long _ spelled' =>
          rw [spelled, spelled'] at same
          exact absurd (List.cons.inj same).1 other
      | plain spelled' _ _ =>
          rw [spelled, spelled'] at same
          exact List.cons.inj same

theorem dumpsChar_unquoted (a : CodePoint) (x y : Str) :
    dumpsChar a ++ x ≠ CodePoint.ofChar '"' :: y := by
  intro same
  cases dumped a with
  | short p member _ spelled =>
      obtain ⟨rest, escape⟩ := short_head p member
      rw [spelled, escape] at same
      cases (List.cons.inj same).1
  | long _ spelled =>
      rw [spelled] at same
      cases (List.cons.inj same).1
  | plain spelled quote _ =>
      rw [spelled] at same
      exact quote (List.cons.inj same).1

theorem dumps_framed {s t x y : Str} (same : dumps s ++ x = dumps t ++ y) : s = t ∧ x = y := by
  have body : s.flatMap dumpsChar ++ CodePoint.ofChar '"' :: x =
      t.flatMap dumpsChar ++ CodePoint.ofChar '"' :: y := by
    rw [dumps, dumps, List.append_assoc, List.append_assoc, List.append_assoc, List.append_assoc] at same
    exact List.append_cancel_left same
  exact flatMap_framed dumpsChar_words dumpsChar_unquoted body

/-! ## Reading a document back -/

def Closed (s : Str) : Prop := ∀ c ∈ s.head?, c = comma ∨ c = closeArray ∨ c = closeObject

theorem closed_nil : Closed [] := nofun

theorem closed_comma (s : Str) : Closed (comma :: s) := by
  rintro c ⟨⟩
  exact Or.inl rfl

theorem closed_closeArray (s : Str) : Closed (closeArray :: s) := by
  rintro c ⟨⟩
  exact Or.inr (Or.inl rfl)

theorem closed_closeObject (s : Str) : Closed (closeObject :: s) := by
  rintro c ⟨⟩
  exact Or.inr (Or.inr rfl)

theorem number_framed {m n : Binary64} {x y : Str} (hx : Closed x) (hy : Closed y)
    (same : ecmascriptFinite m ++ x = ecmascriptFinite n ++ y) :
    ecmascriptFinite m = ecmascriptFinite n ∧ x = y := by
  have stop {s : Str} (closed : Closed s) : ∀ c ∈ s.head?, isNumberChar c = false := by
    intro c head
    rcases closed c head with rfl | rfl | rfl <;> rfl
  exact span_framed (ecmascriptFinite_isNumeral m) (ecmascriptFinite_isNumeral n) (stop hx) (stop hy)
    same

inductive Kind
  | null
  | bool (b : Bool)
  | number
  | string
  | array
  | object
  deriving DecidableEq

def kindOf : Json Numeral → Kind
  | .null => .null
  | .bool b => .bool b
  | .number _ => .number
  | .string _ => .string
  | .array _ => .array
  | .object _ => .object

def kind? (c : CodePoint) : Option Kind :=
  if isNumberChar c then some .number
  else ([(CodePoint.ofChar 'n', Kind.null), (CodePoint.ofChar 't', .bool true),
    (CodePoint.ofChar 'f', .bool false), (CodePoint.ofChar '"', .string),
    (CodePoint.ofChar '[', .array), (CodePoint.ofChar '\x7b', .object)]).lookup c

theorem canonicalMembers_eq (members : List (Str × Json Numeral)) :
    canonicalMembers members = members.map fun e => (e.1, canonicalJson e.2) := by
  induction members with
  | nil => rfl
  | cons e members ih => rw [canonicalMembers, ih, List.map_cons]

theorem canonicalItems_eq (items : List (Json Numeral)) :
    canonicalItems items = items.map canonicalJson := by
  induction items with
  | nil => rfl
  | cons v items ih => rw [canonicalItems, ih, List.map_cons]

def WritesMember (member : Str × Json Numeral) (s : Str) : Prop :=
  ∃ t, canonicalJson member.2 = .ok t ∧ s = dumps member.1 ++ str ":" ++ t

def Paired (s : Str) : Prop := s.any CodePoint.isSurrogate = false

theorem rejectLoneSurrogates_eq_ok (what : Str) {text : Str} :
    rejectLoneSurrogates text what = .ok () ↔ Paired text := by
  unfold rejectLoneSurrogates Paired
  cases found : text.findIdx? CodePoint.isSurrogate with
  | none =>
      rw [List.findIdx?_eq_none_iff] at found
      refine iff_of_true rfl ?_
      rw [List.any_eq_false]
      intro c member
      rw [found c member]
      exact Bool.false_ne_true
  | some i =>
      refine iff_of_false nofun ?_
      intro none
      obtain ⟨bound, here, _⟩ := List.findIdx?_eq_some_iff_getElem.mp found
      exact List.any_eq_false.mp none _ (List.getElem_mem bound) here

theorem writeString_eq_ok {value s : Str} :
    writeString value = .ok s ↔ Paired value ∧ s = dumps value := by
  rw [← rejectLoneSurrogates_eq_ok (str "a string"), writeString, bind_eq_ok]
  constructor
  · rintro ⟨_, paired, written⟩
    exact ⟨paired, (Except.ok.inj written).symm⟩
  · rintro ⟨paired, rfl⟩
    exact ⟨(), paired, rfl⟩

theorem canonicalJson_array {items : List (Json Numeral)} {s : Str} :
    canonicalJson (.array items) = .ok s ↔ ∃ texts,
      List.Forall₂ (fun v t => canonicalJson v = .ok t) items texts ∧
        s = str "[" ++ [comma].intercalate texts ++ [closeArray] := by
  rw [canonicalJson, canonicalItems_eq, bind_eq_ok]
  constructor
  · rintro ⟨texts, walked, written⟩
    rw [mapM_eq_ok, List.forall₂_map_left_iff] at walked
    exact ⟨texts, walked, (Except.ok.inj written).symm⟩
  · rintro ⟨texts, walked, rfl⟩
    refine ⟨texts, ?_, rfl⟩
    rw [mapM_eq_ok, List.forall₂_map_left_iff]
    exact walked

theorem writeMember_eq_ok {member : Str × Json Numeral} {s : Str} :
    writeMember (member.1, canonicalJson member.2) = .ok s ↔ WritesMember member s := by
  rw [writeMember, bind_eq_ok]
  constructor
  · rintro ⟨t, value, written⟩
    exact ⟨t, value, (Except.ok.inj written).symm⟩
  · rintro ⟨t, value, rfl⟩
    exact ⟨t, value, rfl⟩

theorem canonicalJson_object {members : Dict Str (Json Numeral)} {s : Str} :
    canonicalJson (.object members) = .ok s ↔ (∀ e ∈ members, Paired e.1) ∧ ∃ texts,
      List.Forall₂ WritesMember (byKey utf16Le members) texts ∧
        s = str "\x7b" ++ [comma].intercalate texts ++ [closeObject] := by
  have sorted : byKey utf16Le (canonicalMembers members) =
      (byKey utf16Le members).map fun e => (e.1, canonicalJson e.2) := by
    rw [canonicalMembers_eq, byKey_map]
  have walk (texts : List Str) : (byKey utf16Le (canonicalMembers members)).mapM writeMember = .ok texts ↔
      List.Forall₂ WritesMember (byKey utf16Le members) texts := by
    rw [sorted, mapM_eq_ok, List.forall₂_map_left_iff]
    simp only [writeMember_eq_ok]
  rw [canonicalJson, bind_eq_ok]
  simp only [← rejectLoneSurrogates_eq_ok (str "an object key")]
  constructor
  · rintro ⟨_, paired, written⟩
    obtain ⟨texts, walked, written⟩ := bind_eq_ok.mp written
    exact ⟨forM_eq_ok.mp paired, texts, (walk texts).mp walked, (Except.ok.inj written).symm⟩
  · rintro ⟨paired, texts, walked, rfl⟩
    exact ⟨(), forM_eq_ok.mpr paired, bind_eq_ok.mpr ⟨texts, (walk texts).mpr walked, rfl⟩⟩

theorem kind_of_text {v : Json Numeral} {s x : Str} (h : canonicalJson v = .ok s) :
    ∃ c rest, s ++ x = c :: rest ∧ kind? c = some (kindOf v) := by
  cases v with
  | null =>
      rw [canonicalJson] at h
      cases h
      exact ⟨_, _, rfl, rfl⟩
  | bool b =>
      cases b <;> rw [canonicalJson] at h <;> cases h <;> exact ⟨_, _, rfl, rfl⟩
  | number n =>
      rw [canonicalJson] at h
      obtain ⟨m, _, rfl⟩ := writeNumber_eq_ok h
      obtain ⟨c, rest, spelled⟩ := List.exists_cons_of_ne_nil (ecmascriptFinite_ne_nil m)
      have numeral := ecmascriptFinite_isNumeral m
      rw [spelled, IsNumeral, List.all_cons, Bool.and_eq_true] at numeral
      exact ⟨c, rest ++ x, by rw [spelled, List.cons_append], by rw [kind?, if_pos numeral.1, kindOf]⟩
  | string value =>
      rw [canonicalJson, writeString_eq_ok] at h
      obtain ⟨_, rfl⟩ := h
      exact ⟨_, _, rfl, rfl⟩
  | array items =>
      obtain ⟨texts, _, rfl⟩ := canonicalJson_array.mp h
      exact ⟨_, _, rfl, rfl⟩
  | object members =>
      obtain ⟨_, texts, _, rfl⟩ := canonicalJson_object.mp h
      exact ⟨_, _, rfl, rfl⟩

theorem kindOf_eq {v w : Json Numeral} {s t x y : Str} (hv : canonicalJson v = .ok s)
    (hw : canonicalJson w = .ok t) (same : s ++ x = t ++ y) : kindOf v = kindOf w := by
  obtain ⟨c, rest, spelled, kind⟩ := kind_of_text (x := x) hv
  obtain ⟨d, rest', spelled', kind'⟩ := kind_of_text (x := y) hw
  rw [spelled, spelled'] at same
  rw [(List.cons.inj same).1, kind'] at kind
  exact (Option.some.inj kind).symm

theorem not_closeArray {v : Json Numeral} {s : Str} (h : canonicalJson v = .ok s) (x y : Str) :
    s ++ x ≠ closeArray :: y := by
  intro same
  obtain ⟨c, rest, spelled, kind⟩ := kind_of_text (x := x) h
  rw [spelled] at same
  rw [(List.cons.inj same).1] at kind
  cases kind

/-- A document whose canonical text is `s`. -/
def Writes (v : Json Numeral) (s : Str) : Prop := v.Keyed ∧ canonicalJson v = .ok s

def WritesEntry (member : Str × Json Numeral) (s : Str) : Prop := member.2.Keyed ∧ WritesMember member s

def SameEntry (a b : Str × Json Numeral) : Prop := a.1 = b.1 ∧ Json.Same SameNumber a.2 b.2

theorem entry_framed {member : Str × Json Numeral}
    (value : Framed Writes Closed (Json.Same SameNumber) member.2) :
    Framed WritesEntry Closed SameEntry member := by
  rintro other _ _ x y ⟨keyed, s, written, rfl⟩ ⟨keyed', t, written', rfl⟩ hx hy same
  rw [List.append_assoc, List.append_assoc, List.append_assoc, List.append_assoc] at same
  obtain ⟨key, rest⟩ := dumps_framed same
  obtain ⟨values, rest⟩ := value _ _ _ _ _ ⟨keyed, written⟩ ⟨keyed', written'⟩ hx hy
    (List.append_cancel_left rest)
  exact ⟨⟨key, values⟩, rest⟩

theorem entry_not_closeObject {member : Str × Json Numeral} {s : Str} (h : WritesEntry member s)
    (x y : Str) : s ++ x ≠ closeObject :: y := by
  obtain ⟨_, t, _, rfl⟩ := h
  intro same
  cases (List.cons.inj same).1

theorem canonicalJson_framed (v : Json Numeral) (keyed : v.Keyed) :
    Framed Writes Closed (Json.Same SameNumber) v := by
  induction size : sizeOf v using Nat.strong_induction_on generalizing v with
  | _ n ih =>
    intro w s t x y hv hw hx hy same
    have kinds := kindOf_eq hv.2 hw.2 same
    obtain ⟨_, hv⟩ := hv
    obtain ⟨keyed', hw⟩ := hw
    cases v with
    | null =>
        cases w <;> cases kinds
        rw [hv] at hw
        cases hw
        exact ⟨.null, List.append_cancel_left same⟩
    | bool b =>
        cases w <;> cases kinds
        rw [hv] at hw
        cases hw
        exact ⟨.bool b, List.append_cancel_left same⟩
    | number m =>
        cases w <;> cases kinds
        rw [canonicalJson] at hv hw
        obtain ⟨p, exact, rfl⟩ := writeNumber_eq_ok hv
        obtain ⟨q, exact', rfl⟩ := writeNumber_eq_ok hw
        obtain ⟨texts, rest⟩ := number_framed hx hy same
        refine ⟨.number ?_, rest⟩
        rw [SameNumber, exact, exact', ecmascriptFinite_injective texts]
    | string value =>
        cases w <;> cases kinds
        rw [canonicalJson, writeString_eq_ok] at hv hw
        obtain ⟨_, rfl⟩ := hv
        obtain ⟨_, rfl⟩ := hw
        obtain ⟨rfl, rest⟩ := dumps_framed same
        exact ⟨.string _, rest⟩
    | array items =>
        cases w <;> cases kinds
        rename_i others
        obtain ⟨texts, written, rfl⟩ := canonicalJson_array.mp hv
        obtain ⟨texts', written', rfl⟩ := canonicalJson_array.mp hw
        rw [List.append_assoc, List.append_assoc, List.append_assoc, List.append_assoc] at same
        have each : ∀ v ∈ items, Framed Writes Closed (Json.Same SameNumber) v := by
          intro v member
          exact ih _ (size ▸ Json.sizeOf_item member) v (keyed.item member) rfl
        have left : List.Forall₂ Writes items texts :=
          (List.forall₂_and_left _ _).mpr ⟨fun _ => keyed.item, written⟩
        have right : List.Forall₂ Writes others texts' :=
          (List.forall₂_and_left _ _).mpr ⟨fun _ => keyed'.item, written'⟩
        obtain ⟨matched, rest⟩ := intercalate_framed (by decide) closed_comma closed_closeArray
          (fun _ _ _ _ written => not_closeArray written.2 _ _) left right each
          (List.append_cancel_left same)
        exact ⟨.array_of_forall₂ matched, rest⟩
    | object members =>
        cases w <;> cases kinds
        rename_i others
        obtain ⟨_, texts, written, rfl⟩ := canonicalJson_object.mp hv
        obtain ⟨_, texts', written', rfl⟩ := canonicalJson_object.mp hw
        rw [List.append_assoc, List.append_assoc, List.append_assoc, List.append_assoc] at same
        have inside {members : Dict Str (Json Numeral)} {e : Str × Json Numeral}
            (member : e ∈ byKey utf16Le members) : e ∈ members := (byKey_perm members).mem_iff.mp member
        have each : ∀ e ∈ byKey utf16Le members, Framed WritesEntry Closed SameEntry e := by
          intro e member
          exact entry_framed (ih _ (size ▸ Json.sizeOf_member (inside member)) e.2
            (keyed.member (inside member)) rfl)
        have left : List.Forall₂ WritesEntry (byKey utf16Le members) texts :=
          (List.forall₂_and_left _ _).mpr ⟨fun _ member => keyed.member (inside member), written⟩
        have right : List.Forall₂ WritesEntry (byKey utf16Le others) texts' :=
          (List.forall₂_and_left _ _).mpr ⟨fun _ member => keyed'.member (inside member), written'⟩
        obtain ⟨matched, rest⟩ := intercalate_framed (by decide) closed_comma closed_closeObject
          (fun _ _ _ _ written => entry_not_closeObject written _ _) left right each (List.append_cancel_left same)
        obtain ⟨present, values⟩ := related_of_byKey keyed'.distinct matched
        exact ⟨.object present values, rest⟩

theorem same_of_canonicalJson {v w : Json Numeral} {s : Str} (keyed : v.Keyed) (keyed' : w.Keyed)
    (hv : canonicalJson v = .ok s) (hw : canonicalJson w = .ok s) : Json.Same SameNumber v w :=
  (canonicalJson_framed v keyed _ _ _ _ _ ⟨keyed, hv⟩ ⟨keyed', hw⟩ closed_nil closed_nil rfl).1

/-! ## One text for each document -/

theorem texts_eq {α β γ : Type} {P : α → β → Prop} {W : α → γ → Prop} {W' : β → γ → Prop}
    {as : List α} {bs : List β} {ss ts : List γ} (pairs : List.Forall₂ P as bs)
    (left : List.Forall₂ W as ss) (right : List.Forall₂ W' bs ts)
    (each : ∀ a b s t, P a b → W a s → W' b t → s = t) : ss = ts := by
  induction pairs generalizing ss ts with
  | nil =>
      cases left
      cases right
      rfl
  | cons pair _ ih =>
      cases left with
      | cons head rest =>
          cases right with
          | cons head' rest' => rw [each _ _ _ _ pair head head', ih rest rest']

theorem utf16Bytes_words {a b : CodePoint} (ha : a.isSurrogate = false) (hb : b.isSurrogate = false)
    {x y : List Nat} (same : utf16Bytes a ++ x = utf16Bytes b ++ y) : a = b ∧ x = y := by
  have small := a.isLt
  have small' := b.isLt
  simp only [CodePoint.isSurrogate, Bool.and_eq_false_iff, decide_eq_false_iff_not] at ha hb
  unfold utf16Bytes at same
  split at same <;> split at same <;>
    simp only [List.cons_append, List.nil_append, List.cons.injEq] at same
  · exact ⟨Fin.ext (by omega), same.2.2⟩
  · omega
  · omega
  · exact ⟨Fin.ext (by omega), same.2.2.2.2⟩

theorem utf16Key_injOn : Set.InjOn utf16Key {s | Paired s} := by
  intro s hs t ht same
  have nonempty (c : CodePoint) : utf16Bytes c ≠ [] := by
    unfold utf16Bytes
    split <;> exact nofun
  induction s generalizing t with
  | nil =>
      cases t with
      | nil => rfl
      | cons b t => exact absurd (List.append_eq_nil_iff.mp same.symm).1 (nonempty b)
  | cons a s ih =>
      cases t with
      | nil => exact absurd (List.append_eq_nil_iff.mp same).1 (nonempty a)
      | cons b t =>
          simp only [Set.mem_ofPred_eq, Paired, List.any_cons, Bool.or_eq_false_iff] at hs ht
          obtain ⟨rfl, rest⟩ := utf16Bytes_words hs.1 ht.1 same
          rw [ih hs.2 ht.2 rest]

theorem utf16_order : KeyOrder utf16Le {s | Paired s} :=
  lexLe_order.comap (Set.mapsTo_univ _ _) utf16Key_injOn

theorem canonicalJson_congr {v w : Json Numeral} (same : Json.Same SameNumber v w) (keyed : v.Keyed)
    (keyed' : w.Keyed) {s t : Str} (hv : canonicalJson v = .ok s) (hw : canonicalJson w = .ok t) :
    s = t := by
  induction same generalizing s t with
  | null => exact Except.ok.inj (hv.symm.trans hw)
  | bool b => exact Except.ok.inj (hv.symm.trans hw)
  | string value => exact Except.ok.inj (hv.symm.trans hw)
  | number same =>
      rw [canonicalJson] at hv hw
      exact writeNumber_congr same hv hw
  | @array xs ys length _ ih =>
      obtain ⟨texts, written, rfl⟩ := canonicalJson_array.mp hv
      obtain ⟨texts', written', rfl⟩ := canonicalJson_array.mp hw
      have pairs : List.Forall₂ (fun v w => ∀ s t, canonicalJson v = .ok s → canonicalJson w = .ok t →
          s = t) xs ys := by
        refine List.forall₂_iff_get.mpr ⟨length, ?_⟩
        intro i left right s t
        exact ih i _ _ (List.getElem?_eq_getElem left) (List.getElem?_eq_getElem right)
          (keyed.item (List.getElem_mem left)) (keyed'.item (List.getElem_mem right))
      rw [texts_eq pairs written written' fun _ _ _ _ each => each _ _]
  | @object xs ys present _ ih =>
      obtain ⟨paired, texts, written, rfl⟩ := canonicalJson_object.mp hv
      obtain ⟨_, texts', written', rfl⟩ := canonicalJson_object.mp hw
      have inside : ∀ k ∈ Dict.keys xs, k ∈ {s | Paired s} := by
        intro k member
        obtain ⟨e, here, rfl⟩ := List.mem_map.mp member
        exact paired e here
      have pairs := byKey_related (R := fun v w => ∀ s t, canonicalJson v = .ok s →
        canonicalJson w = .ok t → s = t) utf16_order keyed.distinct keyed'.distinct inside present
        fun k v w left right s t => ih k v w left right (keyed.member (Dict.mem_of_get? left))
          (keyed'.member (Dict.mem_of_get? right))
      rw [texts_eq pairs written written' ?_]
      rintro a b _ _ ⟨key, each⟩ ⟨s, value, rfl⟩ ⟨t, value', rfl⟩
      rw [key, each s t value value']

end Proxyshop.Contracts
