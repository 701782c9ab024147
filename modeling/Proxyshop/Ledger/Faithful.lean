import Proxyshop.Contracts.SignedBytes
import Proxyshop.Ledger.ChainLaws

/-!
# Canonical JSON is a faithful key

The serialiser over trees whose numbers are of any type, as long as they can be written. The ledger's own
numbers are one such type; exact doubles, written as ECMAScript writes them, are another, and there the
text tells the tree, up to the order of members.
-/

namespace Proxyshop.Ledger

open Python Hashing Structures Numbers
open Contracts (Json Numeral Paired SameNumber utf16Le utf16Bytes utf16Key dumps dumpsChar comma closeArray
  closeObject)

section Trees

variable {N : Type}

mutual

/-- `canonical_json`, the numbers left to a writer. -/
def canonicalTree (write : N → Except Error Str) : Json N → Except Error Str
  | .null => .ok (str "null")
  | .bool true => .ok (str "true")
  | .bool false => .ok (str "false")
  | .string s => serialiseString s
  | .number n => write n
  | .object members => do
      members.forM fun member => rejectLoneSurrogate member.1
      let ordered := (treeMembers write members).insertionSort fun a b => unitsLe (sortKey a.1) (sortKey b.1)
      let texts ← ordered.mapM fun member => do
        return (← serialiseString member.1) ++ str ":" ++ (← member.2)
      return str "\x7b" ++ (str ",").intercalate texts ++ str "\x7d"
  | .array items => do
      let texts ← (treeItems write items).mapM id
      return str "[" ++ (str ",").intercalate texts ++ str "]"

def treeMembers (write : N → Except Error Str) : List (Str × Json N) → List (Str × Except Error Str)
  | [] => []
  | (k, v) :: members => (k, canonicalTree write v) :: treeMembers write members

def treeItems (write : N → Except Error Str) : List (Json N) → List (Except Error Str)
  | [] => []
  | v :: items => canonicalTree write v :: treeItems write items

end

/-- A tree that has a canonical form where the numbers that fit have one. -/
inductive Spellable (fits : N → Prop) : Json N → Prop
  | null : Spellable fits .null
  | bool (b : Bool) : Spellable fits (.bool b)
  | number {n : N} : fits n → Spellable fits (.number n)
  | string {s : Str} : Paired s → Spellable fits (.string s)
  | array {items : List (Json N)} : (∀ v ∈ items, Spellable fits v) → Spellable fits (.array items)
  | object {members : Dict Str (Json N)} : (∀ member ∈ members, Paired member.1) →
      (∀ member ∈ members, Spellable fits member.2) → Spellable fits (.object members)

variable (write : N → Except Error Str)

theorem treeMembers_eq (members : List (Str × Json N)) :
    treeMembers write members = members.map fun member => (member.1, canonicalTree write member.2) := by
  induction members with
  | nil => rfl
  | cons member members ih => rw [treeMembers, ih, List.map_cons]

theorem treeItems_eq (items : List (Json N)) : treeItems write items = items.map (canonicalTree write) := by
  induction items with
  | nil => rfl
  | cons v items ih => rw [treeItems, ih, List.map_cons]

/-! ## Strings and the order of members -/

theorem serialiseChar_eq : serialiseChar = dumpsChar := by
  have low : ∀ n : Fin 93, serialiseChar ⟨n.val, by omega⟩ = dumpsChar ⟨n.val, by omega⟩ := by decide
  funext c
  by_cases small : c.val < 93
  · exact low ⟨c.val, small⟩
  · have named {d : Char} (below : (CodePoint.ofChar d).val < 93) : c ≠ CodePoint.ofChar d := by
      rintro rfl
      exact small below
    have plain : Contracts.shortEscapes.lookup c.val = none := by
      rw [Contracts.shortEscapes, List.lookup_eq_none_iff]
      simp
      omega
    rw [serialiseChar, escape, if_neg (named (by decide)), if_neg (named (by decide)), if_neg (by omega),
      if_neg (by omega), if_neg (by omega), if_neg (by omega), if_neg (by omega), dumpsChar, plain]
    dsimp only
    rw [if_neg (by omega), if_neg (by omega)]

theorem rejectLoneSurrogate_eq_ok {text : Str} : rejectLoneSurrogate text = .ok () ↔ Paired text := by
  unfold rejectLoneSurrogate Paired
  cases text.any CodePoint.isSurrogate <;> simp

theorem serialiseString_eq_ok {value s : Str} :
    serialiseString value = .ok s ↔ Paired value ∧ s = dumps value := by
  rw [serialiseString, bind_eq_ok, ← rejectLoneSurrogate_eq_ok, serialiseChar_eq]
  constructor
  · rintro ⟨_, paired, written⟩
    exact ⟨paired, (Except.ok.inj written).symm⟩
  · rintro ⟨paired, rfl⟩
    exact ⟨(), paired, rfl⟩

theorem unitsLe_eq : unitsLe = lexLe := by
  funext as bs
  induction as generalizing bs with
  | nil => rfl
  | cons a as ih =>
      cases bs with
      | nil => rfl
      | cons b bs => rw [unitsLe, lexLe, ih]

theorem lexLe_bytes (us vs : List Nat) :
    lexLe (us.flatMap fun u => [u / 256, u % 256]) (vs.flatMap fun u => [u / 256, u % 256]) = lexLe us vs := by
  induction us generalizing vs with
  | nil => rfl
  | cons u us ih =>
      cases vs with
      | nil => rfl
      | cons v vs =>
          rw [List.flatMap_cons, List.flatMap_cons, Bool.eq_iff_iff]
          simp only [List.cons_append, List.nil_append, lexLe_cons, ih]
          constructor
          · rintro (less | ⟨high, less | ⟨low, rest⟩⟩)
            · exact Or.inl (by omega)
            · exact Or.inl (by omega)
            · exact Or.inr ⟨by omega, rest⟩
          · rintro (less | ⟨rfl, rest⟩)
            · by_cases high : u / 256 < v / 256
              · exact Or.inl high
              · exact Or.inr ⟨by omega, Or.inl (by omega)⟩
            · exact Or.inr ⟨rfl, Or.inr ⟨rfl, rest⟩⟩

theorem utf16Key_eq (name : Str) : utf16Key name = (sortKey name).flatMap fun u => [u / 256, u % 256] := by
  unfold utf16Key sortKey
  rw [List.flatMap_assoc]
  congr 1
  funext c
  unfold utf16Bytes
  split <;> rfl

theorem order_eq : (fun a b => unitsLe (sortKey a) (sortKey b)) = utf16Le := by
  funext a b
  rw [utf16Le, utf16Key_eq, utf16Key_eq, lexLe_bytes, unitsLe_eq]

/-! ## Arrays and objects -/

theorem canonicalTree_array {items : List (Json N)} {s : Str} :
    canonicalTree write (.array items) = .ok s ↔ ∃ texts,
      List.Forall₂ (fun v t => canonicalTree write v = .ok t) items texts ∧
        s = str "[" ++ [comma].intercalate texts ++ [closeArray] := by
  rw [canonicalTree, treeItems_eq, bind_eq_ok]
  constructor
  · rintro ⟨texts, walked, written⟩
    rw [mapM_eq_ok, List.forall₂_map_left_iff] at walked
    exact ⟨texts, walked, (Except.ok.inj written).symm⟩
  · rintro ⟨texts, walked, rfl⟩
    refine ⟨texts, ?_, rfl⟩
    rw [mapM_eq_ok, List.forall₂_map_left_iff]
    exact walked

def WritesTree (member : Str × Json N) (s : Str) : Prop :=
  ∃ t, canonicalTree write member.2 = .ok t ∧ s = dumps member.1 ++ str ":" ++ t

theorem memberText_eq_ok {member : Str × Json N} (paired : Paired member.1) {s : Str} :
    (do return (← serialiseString member.1) ++ str ":" ++ (← canonicalTree write member.2) : Except Error Str) =
      .ok s ↔ WritesTree write member s := by
  rw [serialiseString_eq_ok.mpr ⟨paired, rfl⟩]
  change canonicalTree write member.2 >>= (fun t => pure (dumps member.1 ++ str ":" ++ t)) = .ok s ↔ _
  rw [bind_eq_ok]
  constructor
  · rintro ⟨t, value, written⟩
    exact ⟨t, value, (Except.ok.inj written).symm⟩
  · rintro ⟨t, value, rfl⟩
    exact ⟨t, value, rfl⟩

theorem forall₂_congr_left {A B : Type} {R S : A → B → Prop} {as : List A} {bs : List B}
    (same : ∀ a ∈ as, ∀ b, R a b ↔ S a b) : List.Forall₂ R as bs ↔ List.Forall₂ S as bs := by
  constructor
  · intro related
    exact ((List.forall₂_and_left _ _).mpr ⟨same, related⟩).imp fun a b both => (both.1 b).mp both.2
  · intro related
    exact ((List.forall₂_and_left _ _).mpr ⟨same, related⟩).imp fun a b both => (both.1 b).mpr both.2

theorem canonicalTree_object {members : Dict Str (Json N)} {s : Str} :
    canonicalTree write (.object members) = .ok s ↔ (∀ e ∈ members, Paired e.1) ∧ ∃ texts,
      List.Forall₂ (WritesTree write) (byKey utf16Le members) texts ∧
        s = str "\x7b" ++ [comma].intercalate texts ++ [closeObject] := by
  have sorted : (treeMembers write members).insertionSort (fun a b => unitsLe (sortKey a.1) (sortKey b.1)) =
      (byKey utf16Le members).map fun member => (member.1, canonicalTree write member.2) := by
    rw [treeMembers_eq, ← byKey_map, ← order_eq]
    rfl
  have walk (paired : ∀ e ∈ members, Paired e.1) (texts : List Str) :
      ((byKey utf16Le members).map fun member => (member.1, canonicalTree write member.2)).mapM
        (fun member => do return (← serialiseString member.1) ++ str ":" ++ (← member.2) : _ → Except Error Str) =
          .ok texts ↔ List.Forall₂ (WritesTree write) (byKey utf16Le members) texts := by
    rw [mapM_eq_ok, List.forall₂_map_left_iff]
    exact forall₂_congr_left fun member inside _ =>
      memberText_eq_ok write (paired member ((byKey_perm members).mem_iff.mp inside))
  rw [canonicalTree, bind_eq_ok]
  simp only [← rejectLoneSurrogate_eq_ok, sorted]
  constructor
  · rintro ⟨_, checked, written⟩
    have paired := forM_eq_ok.mp checked
    obtain ⟨texts, walked, written⟩ := bind_eq_ok.mp written
    exact ⟨paired, texts, (walk (fun e member => rejectLoneSurrogate_eq_ok.mp (paired e member)) texts).mp walked,
      (Except.ok.inj written).symm⟩
  · rintro ⟨paired, texts, walked, rfl⟩
    refine ⟨(), forM_eq_ok.mpr paired, bind_eq_ok.mpr ⟨texts, ?_, rfl⟩⟩
    exact (walk (fun e member => rejectLoneSurrogate_eq_ok.mp (paired e member)) texts).mpr walked

theorem forall₂_exists {A B : Type} {R : A → B → Prop} {as : List A} :
    (∃ bs, List.Forall₂ R as bs) ↔ ∀ a ∈ as, ∃ b, R a b := by
  constructor
  · rintro ⟨bs, related⟩ a member
    obtain ⟨i, bound, rfl⟩ := List.getElem_of_mem member
    exact ⟨_, (List.forall₂_iff_get.mp related).2 i bound (related.length_eq ▸ bound)⟩
  · intro each
    induction as with
    | nil => exact ⟨[], .nil⟩
    | cons a as ih =>
        obtain ⟨b, here⟩ := each a List.mem_cons_self
        obtain ⟨bs, later⟩ := ih fun a member => each a (List.mem_cons_of_mem _ member)
        exact ⟨b :: bs, .cons here later⟩

theorem canonicalTree_returns (v : Json N) :
    (∃ s, canonicalTree write v = .ok s) ↔ Spellable (fun n => ∃ s, write n = .ok s) v := by
  induction size : sizeOf v using Nat.strong_induction_on generalizing v with
  | _ size_ ih =>
    cases v with
    | null => exact iff_of_true ⟨_, by rw [canonicalTree]⟩ .null
    | bool b =>
        refine iff_of_true ⟨if b then str "true" else str "false", ?_⟩ (.bool b)
        cases b <;> rw [canonicalTree] <;> rfl
    | number n =>
        rw [canonicalTree]
        refine ⟨fun fits => .number fits, fun spellable => ?_⟩
        cases spellable with
        | number fits => exact fits
    | string s =>
        simp only [canonicalTree, serialiseString_eq_ok]
        constructor
        · rintro ⟨_, paired, -⟩
          exact .string paired
        · intro spellable
          cases spellable with
          | string paired => exact ⟨_, paired, rfl⟩
    | array items =>
        have each : ∀ v ∈ items, (∃ s, canonicalTree write v = .ok s) ↔
            Spellable (fun n => ∃ s, write n = .ok s) v :=
          fun v member => ih _ (size ▸ Json.sizeOf_item member) v rfl
        simp only [canonicalTree_array]
        constructor
        · rintro ⟨_, texts, written, -⟩
          exact .array fun v member => (each v member).mp (forall₂_exists.mp ⟨texts, written⟩ v member)
        · intro spellable
          cases spellable with
          | array items =>
              obtain ⟨texts, written⟩ := forall₂_exists.mpr fun v member => (each v member).mpr (items v member)
              exact ⟨_, texts, written, rfl⟩
    | object members =>
        have each : ∀ e ∈ members, (∃ s, canonicalTree write e.2 = .ok s) ↔
            Spellable (fun n => ∃ s, write n = .ok s) e.2 :=
          fun e member => ih _ (size ▸ Json.sizeOf_member member) e.2 rfl
        have inside {e : Str × Json N} : e ∈ byKey utf16Le members ↔ e ∈ members := (byKey_perm members).mem_iff
        simp only [canonicalTree_object]
        constructor
        · rintro ⟨_, paired, texts, written, -⟩
          refine .object paired fun e member => (each e member).mp ?_
          obtain ⟨_, t, value, -⟩ := forall₂_exists.mp ⟨texts, written⟩ e (inside.mpr member)
          exact ⟨t, value⟩
        · intro spellable
          cases spellable with
          | object paired values =>
              have texts : ∀ e ∈ byKey utf16Le members, ∃ s, WritesTree write e s := by
                intro e member
                obtain ⟨t, value⟩ := (each e (inside.mp member)).mpr (values e (inside.mp member))
                exact ⟨_, t, value, rfl⟩
              obtain ⟨texts, written⟩ := forall₂_exists.mpr texts
              exact ⟨_, paired, texts, written, rfl⟩

/-! ## The text can be encoded -/

theorem paired_iff {s : Str} : Paired s ↔ ∀ c ∈ s, c.isSurrogate = false := by
  simp only [Paired, List.any_eq_false, Bool.not_eq_true]

theorem paired_append {s t : Str} : Paired (s ++ t) ↔ Paired s ∧ Paired t := by
  rw [Paired, List.any_append, Bool.or_eq_false_iff]
  rfl

theorem paired_of_mem {s t : Str} (inside : ∀ c ∈ t, c ∈ s) (paired : Paired s) : Paired t :=
  paired_iff.mpr fun c member => paired_iff.mp paired c (inside c member)

theorem paired_ofNat (n : Nat) : Paired (Str.ofNat n) := by
  rw [paired_iff]
  intro c member
  obtain ⟨d, digit⟩ := Contracts.isDigits_ofNat n c member
  unfold Str.digit? at digit
  split at digit
  · simp only [CodePoint.isSurrogate, Bool.and_eq_false_iff, decide_eq_false_iff_not]
    omega
  · cases digit

theorem paired_dumps {s : Str} (paired : Paired s) : Paired (dumps s) := by
  have short : ∀ p ∈ Contracts.shortEscapes, Paired p.2 := by
    unfold Paired
    decide
  have low : ∀ n : Fin 32, Paired (dumpsChar ⟨n.val, by omega⟩) := by
    unfold Paired
    decide
  rw [dumps, paired_append, paired_append]
  refine ⟨⟨rfl, ?_⟩, rfl⟩
  rw [paired_iff]
  intro c member
  obtain ⟨d, inside, spelled⟩ := List.mem_flatMap.mp member
  refine paired_iff.mp ?_ c spelled
  cases Contracts.dumped d with
  | short p member _ spelled => exact spelled ▸ short p member
  | long control => exact low ⟨d.val, control⟩
  | plain spelled =>
      rw [spelled, paired_iff]
      intro c same
      rw [List.mem_singleton.mp same]
      exact paired_iff.mp paired d inside

theorem paired_intercalate {texts : List Str} (each : ∀ t ∈ texts, Paired t) :
    Paired ([comma].intercalate texts) := by
  cases texts with
  | nil => rfl
  | cons t texts =>
      obtain ⟨here, later⟩ := List.forall_mem_cons.mp each
      rw [intercalate_cons, paired_append]
      refine ⟨here, paired_iff.mpr fun c member => ?_⟩
      obtain ⟨u, inside, spelled⟩ := List.mem_flatMap.mp member
      rcases List.mem_cons.mp spelled with rfl | spelled
      · rfl
      · exact paired_iff.mp (later u inside) c spelled

theorem forall₂_right {A B : Type} {R : A → B → Prop} {P : B → Prop} {as : List A} {bs : List B}
    (related : List.Forall₂ R as bs) (each : ∀ a ∈ as, ∀ b, R a b → P b) : ∀ b ∈ bs, P b := by
  induction related with
  | nil => exact nofun
  | cons here _ ih =>
      intro b member
      rcases List.mem_cons.mp member with rfl | later
      · exact each _ List.mem_cons_self _ here
      · exact ih (fun a member => each a (List.mem_cons_of_mem _ member)) b later

theorem canonicalTree_paired (numbers : ∀ n s, write n = .ok s → Paired s) (v : Json N) {s : Str}
    (written : canonicalTree write v = .ok s) : Paired s := by
  induction size : sizeOf v using Nat.strong_induction_on generalizing v s with
  | _ size_ ih =>
    cases v with
    | null =>
        rw [canonicalTree] at written
        cases written
        rfl
    | bool b =>
        cases b <;> rw [canonicalTree] at written <;> cases written <;> rfl
    | number n =>
        rw [canonicalTree] at written
        exact numbers n s written
    | string s =>
        rw [canonicalTree, serialiseString_eq_ok] at written
        rw [written.2]
        exact paired_dumps written.1
    | array items =>
        obtain ⟨texts, each, rfl⟩ := (canonicalTree_array write).mp written
        rw [paired_append, paired_append]
        refine ⟨⟨rfl, paired_intercalate ?_⟩, rfl⟩
        exact forall₂_right each fun v member t value => ih _ (size ▸ Json.sizeOf_item member) v value rfl
    | object members =>
        obtain ⟨keys, texts, each, rfl⟩ := (canonicalTree_object write).mp written
        rw [paired_append, paired_append]
        refine ⟨⟨rfl, paired_intercalate ?_⟩, rfl⟩
        refine forall₂_right each ?_
        rintro e member _ ⟨t, value, rfl⟩
        have inside := (byKey_perm members).mem_iff.mp member
        rw [paired_append, paired_append]
        exact ⟨⟨paired_dumps (keys e inside), rfl⟩, ih _ (size ▸ Json.sizeOf_member inside) e.2 value rfl⟩

end Trees

theorem encodeUtf8_of_paired {s : Str} (paired : Paired s) : ∃ bytes, s.encodeUtf8 = some bytes := by
  rw [paired_iff] at paired
  have each : ∃ chars, s.mapM CodePoint.toChar? = some chars := by
    induction s with
    | nil => exact ⟨[], rfl⟩
    | cons c s ih =>
        obtain ⟨here, later⟩ := List.forall_mem_cons.mp paired
        obtain ⟨chars, rest⟩ := ih later
        have valid : c.val.isValidChar := by
          have small := c.isLt
          simp only [CodePoint.isSurrogate, Bool.and_eq_false_iff, decide_eq_false_iff_not] at here
          unfold Nat.isValidChar
          omega
        exact ⟨_, by rw [List.mapM_cons, CodePoint.toChar?, dif_pos valid, rest]; rfl⟩
  obtain ⟨chars, spelled⟩ := each
  exact ⟨_, by rw [Str.encodeUtf8, spelled, Option.map_some]⟩

/-! ## The ledger's own numbers -/

abbrev Number := Int ⊕ Float

def serialiseNumber : Number → Except Error Str
  | .inl value => serialiseInt value
  | .inr value => serialiseFloat value

theorem es6Number_paired (x : Float) : Paired (es6Number x) := by
  have zeros (n : Nat) : Paired (Double.zeros n) := by
    rw [paired_iff]
    intro c member
    rw [List.eq_of_mem_replicate member]
    rfl
  unfold es6Number
  split
  · rfl
  · generalize Double.shortest x.abs = decimal
    obtain ⟨d, exponent⟩ := decimal
    have digits := paired_ofNat d
    have take (n : Nat) : Paired ((Str.ofNat d).take n) := paired_of_mem (fun _ => List.mem_of_mem_take) digits
    have drop (n : Nat) : Paired ((Str.ofNat d).drop n) := paired_of_mem (fun _ => List.mem_of_mem_drop) digits
    dsimp only
    rw [paired_append]
    refine ⟨by split <;> rfl, ?_⟩
    split
    · exact paired_append.mpr ⟨digits, zeros _⟩
    · split
      · exact paired_append.mpr ⟨paired_append.mpr ⟨take _, rfl⟩, drop _⟩
      · split
        · exact paired_append.mpr ⟨paired_append.mpr ⟨rfl, zeros _⟩, digits⟩
        · refine paired_append.mpr ⟨paired_append.mpr ⟨paired_append.mpr ⟨?_, rfl⟩, ?_⟩, paired_ofNat _⟩
          · unfold Double.mantissa
            split
            · exact digits
            · exact paired_append.mpr ⟨paired_append.mpr ⟨take _, rfl⟩, drop _⟩
          · split <;> rfl

theorem serialiseNumber_paired (n : Number) (s : Str) (written : serialiseNumber n = .ok s) : Paired s := by
  cases n with
  | inl value =>
      rw [serialiseNumber, serialiseInt] at written
      split at written
      · rw [← Except.ok.inj written]
        exact es6Number_paired _
      · cases written
  | inr value =>
      rw [serialiseNumber, serialiseFloat] at written
      split at written
      · cases written
      · rw [← Except.ok.inj written]
        exact es6Number_paired _

mutual

def valueOf : Json Number → Value
  | .null => .none
  | .bool b => .bool b
  | .number (.inl i) => .int i
  | .number (.inr x) => .float x
  | .string s => .str s
  | .array items => .list (valueItems items)
  | .object members => .dict (valueMembers members)

def valueItems : List (Json Number) → List Value
  | [] => []
  | v :: items => valueOf v :: valueItems items

def valueMembers : List (Str × Json Number) → Record
  | [] => []
  | (k, v) :: members => (k, valueOf v) :: valueMembers members

end

theorem valueItems_eq (items : List (Json Number)) : valueItems items = items.map valueOf := by
  induction items with
  | nil => rfl
  | cons v items ih => rw [valueItems, ih, List.map_cons]

theorem valueMembers_eq (members : List (Str × Json Number)) :
    valueMembers members = members.map fun member => (member.1, valueOf member.2) := by
  induction members with
  | nil => rfl
  | cons member members ih => rw [valueMembers, ih, List.map_cons]

section Values

variable [Unicode]

theorem canonicalMembers_eq (entries : Record) :
    canonicalMembers entries = entries.map fun entry => (entry.1, canonicalJson entry.2) := by
  induction entries with
  | nil => rfl
  | cons entry entries ih => rw [canonicalMembers, ih, List.map_cons]

theorem canonicalItems_eq (items : List Value) : canonicalItems items = items.map canonicalJson := by
  induction items with
  | nil => rfl
  | cons v items ih => rw [canonicalItems, ih, List.map_cons]

theorem canonicalJson_valueOf (v : Json Number) :
    canonicalJson (valueOf v) = canonicalTree serialiseNumber v := by
  induction size : sizeOf v using Nat.strong_induction_on generalizing v with
  | _ size_ ih =>
    cases v with
    | null => rw [valueOf, canonicalJson, canonicalTree]
    | bool b => cases b <;> rw [valueOf, canonicalJson, canonicalTree]
    | number n => cases n <;> rw [valueOf, canonicalJson, canonicalTree] <;> rfl
    | string s => rw [valueOf, canonicalJson, canonicalTree]
    | array items =>
        rw [valueOf, canonicalJson, canonicalTree, canonicalItems_eq, treeItems_eq, valueItems_eq, List.map_map]
        have each : items.map (canonicalJson ∘ valueOf) = items.map (canonicalTree serialiseNumber) :=
          List.map_congr_left fun v member => ih _ (size ▸ Json.sizeOf_item member) v rfl
        rw [each]
    | object members =>
        rw [valueOf, canonicalJson, canonicalTree, canonicalMembers_eq, treeMembers_eq, valueMembers_eq,
          List.map_map]
        have each : members.map ((fun entry : Str × Value => (entry.1, canonicalJson entry.2)) ∘
            fun member => (member.1, valueOf member.2)) =
              members.map fun member => (member.1, canonicalTree serialiseNumber member.2) :=
          List.map_congr_left fun e member => Prod.ext rfl (ih _ (size ▸ Json.sizeOf_member member) e.2 rfl)
        have keys : (members.map fun member => (member.1, valueOf member.2)).forM
            (fun entry => rejectLoneSurrogate entry.1) =
              members.forM fun member => rejectLoneSurrogate member.1 := List.forM_map
        rw [each, keys]

end Values

/-! ## Exact doubles -/

/-- `_es6_number` of a positive double. -/
def es6Positive (x : Binary64) : Str :=
  let (digits, n) := Ecmascript.decimal x
  let k : Int := digits.length
  if k ≤ n ∧ n ≤ 21 then digits ++ Double.zeros (n - k).toNat
  else if 0 < n ∧ n ≤ 21 then digits.take n.toNat ++ str "." ++ digits.drop n.toNat
  else if -6 < n ∧ n ≤ 0 then str "0." ++ Double.zeros (-n).toNat ++ digits
  else
    let power := n - 1
    Double.mantissa digits ++ str "e" ++ (if 0 ≤ power then str "+" else str "-") ++ Str.ofNat power.natAbs

def es6Finite (x : Binary64) : Str :=
  if x.value = 0 then str "0"
  else if x.value < 0 then str "-" ++ es6Positive x.neg
  else es6Positive x

/-- `_serialise_number`, over the doubles themselves. -/
def serialiseNumeral : Numeral → Except Error Str
  | .int value =>
      if Contracts.representableAsDouble value then
        match Binary64.round value with
        | .finite x => .ok (es6Finite x)
        | _ => .error (.canonicalisation .number)
      else .error (.canonicalisation .number)
  | .float (.finite x) => .ok (es6Finite x)
  | .float _ => .error (.canonicalisation .number)
  | .minusZero => .ok (str "0")

theorem es6Finite_eq (x : Binary64) : es6Finite x = Contracts.ecmascriptFinite x := by
  have agree (y : Binary64) : es6Positive y = Ecmascript.positiveToString y := by
    unfold es6Positive Ecmascript.positiveToString
    generalize Ecmascript.decimal y = spelled
    obtain ⟨digits, n⟩ := spelled
    dsimp only
    have sign : (if 0 ≤ n - 1 then str "+" else str "-") = if n - 1 < 0 then str "-" else str "+" := by
      split <;> split <;> first | rfl | omega
    simp only [sign, Double.mantissa, Nat.cast_eq_one]
    rfl
  rw [Contracts.ecmascriptFinite_eq, es6Finite, agree, agree]
  rfl

theorem serialiseNumeral_eq_ok {n : Numeral} {s : Str} :
    serialiseNumeral n = .ok s ↔ Contracts.writeNumber n = .ok s := by
  cases n with
  | int value =>
      rw [serialiseNumeral, Contracts.writeNumber]
      split
      · cases Binary64.round value with
        | finite x => simp [Contracts.ecmascriptNumber, es6Finite_eq]
        | _ => exact iff_of_false (by rintro ⟨⟩) (by rintro ⟨⟩)
      · exact iff_of_false (by rintro ⟨⟩) (by rintro ⟨⟩)
  | float value =>
      cases value with
      | finite x => simp [serialiseNumeral, Contracts.writeNumber, Contracts.ecmascriptNumber, es6Finite_eq]
      | _ => exact iff_of_false (by rintro ⟨⟩) (by rintro ⟨⟩)
  | minusZero => simp [serialiseNumeral, Contracts.writeNumber]

theorem canonicalTree_eq_ok (v : Json Numeral) {s : Str} :
    canonicalTree serialiseNumeral v = .ok s ↔ Contracts.canonicalJson v = .ok s := by
  induction size : sizeOf v using Nat.strong_induction_on generalizing v s with
  | _ size_ ih =>
    cases v with
    | null => rw [canonicalTree, Contracts.canonicalJson]; simp
    | bool b => cases b <;> rw [canonicalTree, Contracts.canonicalJson] <;> simp
    | number n => rw [canonicalTree, Contracts.canonicalJson, serialiseNumeral_eq_ok]
    | string s => rw [canonicalTree, Contracts.canonicalJson, serialiseString_eq_ok, Contracts.writeString_eq_ok]
    | array items =>
        rw [canonicalTree_array, Contracts.canonicalJson_array]
        have each : ∀ v ∈ items, ∀ t, canonicalTree serialiseNumeral v = .ok t ↔ Contracts.canonicalJson v = .ok t :=
          fun v member t => ih _ (size ▸ Json.sizeOf_item member) v rfl
        simp only [forall₂_congr_left each]
    | object members =>
        rw [canonicalTree_object, Contracts.canonicalJson_object]
        have each : ∀ e ∈ byKey utf16Le members, ∀ t,
            WritesTree serialiseNumeral e t ↔ Contracts.WritesMember e t := by
          intro e member t
          have inside := (byKey_perm members).mem_iff.mp member
          unfold WritesTree Contracts.WritesMember
          simp only [ih _ (size ▸ Json.sizeOf_member inside) e.2 rfl]
        simp only [forall₂_congr_left each]

/-- A number is an exact double: its value is that of a double. -/
def IsDouble (n : Numeral) : Prop := ∃ x : Binary64, n.exact? = some x.value

theorem serialiseNumeral_returns (n : Numeral) : (∃ s, serialiseNumeral n = .ok s) ↔ IsDouble n := by
  simp only [serialiseNumeral_eq_ok]
  constructor
  · rintro ⟨s, written⟩
    obtain ⟨x, exact, -⟩ := Contracts.writeNumber_eq_ok written
    exact ⟨x, exact⟩
  · rintro ⟨x, exact⟩
    cases n with
    | int value =>
        have value_ : x.value = value := (Option.some.inj exact).symm
        have rounded : Binary64.round value = .finite x := by rw [← value_, Binary64.round_value]
        have representable : Contracts.representableAsDouble value = true := by
          rw [Contracts.representableAsDouble, Contracts.floatOfInt, rounded]
          simpa using value_
        exact ⟨_, by rw [Contracts.writeNumber, if_pos representable, rounded, Contracts.ecmascriptNumber]⟩
    | float value =>
        cases value with
        | finite y => exact ⟨_, rfl⟩
        | _ => cases exact
    | minusZero => exact ⟨_, rfl⟩

/-- A document that has a canonical form: its numbers are exact doubles, no lone surrogate is in its texts,
and each of its objects names a member once. -/
structure Tree where
  value : Json Numeral
  keyed : value.Keyed
  spellable : Spellable IsDouble value

def Tree.text (v : Tree) : Except Error Str := canonicalTree serialiseNumeral v.value

def Tree.Alike (v w : Tree) : Prop := Json.Same SameNumber v.value w.value

theorem Tree.text_returns (v : Tree) : ∃ s, v.text = .ok s := by
  have fits : (fun n => ∃ s, serialiseNumeral n = .ok s) = IsDouble := funext fun n =>
    propext (serialiseNumeral_returns n)
  exact (canonicalTree_returns serialiseNumeral v.value).mpr (fits ▸ v.spellable)

theorem Tree.text_eq_iff (v w : Tree) : v.text = w.text ↔ v.Alike w := by
  obtain ⟨s, left⟩ := v.text_returns
  obtain ⟨t, right⟩ := w.text_returns
  have left' := (canonicalTree_eq_ok v.value).mp left
  have right' := (canonicalTree_eq_ok w.value).mp right
  rw [left, right, Except.ok.injEq]
  constructor
  · rintro rfl
    exact Contracts.same_of_canonicalJson v.keyed w.keyed left' right'
  · intro alike
    exact Contracts.canonicalJson_congr alike v.keyed w.keyed left' right'

/-- Every tree that has a canonical form is written, two have one text exactly where they are alike, and a
sealed event has the digest of the event. -/
theorem canonical_key [Unicode] : (∀ v : Tree, ∃ s, v.text = .ok s) ∧
    (∀ v w : Tree, v.text = w.text ↔ v.Alike w) ∧
      ∀ (p q : Str) (event row : Record), sealEvent event q = .ok row →
        computeEventHash p row = computeEventHash p event := by
  refine ⟨Tree.text_returns, Tree.text_eq_iff, fun p q event row sealing => ?_⟩
  obtain ⟨hash, -, rfl⟩ := sealEvent_eq_ok sealing
  rw [computeEventHash_set (by decide), computeEventHash_set (by decide)]

def firstTree : Tree where
  value := .object [(str "a", .number (.int 0)), (str "b", .null)]
  keyed := .object (by decide) (by
    intro member inside
    rcases List.mem_pair.mp inside with rfl | rfl
    · exact .number _
    · exact .null)
  spellable := by
    refine .object ?_ ?_
    · intro member inside
      rcases List.mem_pair.mp inside with rfl | rfl <;> rfl
    · intro member inside
      rcases List.mem_pair.mp inside with rfl | rfl
      · exact .number ⟨⟨0, 0, 0, by norm_num, by norm_num, by norm_num, by norm_num⟩, rfl⟩
      · exact .null

theorem canonical_key_firstEvent : letI := Unicode.ascii
    (∃ s, firstTree.text = .ok s) ∧ ∃ row, sealEvent firstEvent genesisHash = .ok row ∧
      computeEventHash genesisHash row = computeEventHash genesisHash firstEvent := by
  let tables : Unicode := Unicode.ascii
  obtain ⟨rows, sealing⟩ := chainEvents_ok genesisHash [firstEvent] (by decide)
    (by simpa using firstEvent_canonical)
  obtain ⟨row, sealed_, -⟩ := bind_eq_ok.mp sealing
  exact ⟨canonical_key.1 firstTree, row, sealed_, canonical_key.2.2 _ _ _ _ sealed_⟩

/-- What `json.loads` makes of half a surrogate pair. -/
def loneSurrogate : Json Numeral := .string [⟨0xD800, by omega⟩]

theorem loneSurrogate_refused :
    canonicalTree serialiseNumeral loneSurrogate = .error (.canonicalisation .surrogate) := by
  rw [loneSurrogate, canonicalTree]
  rfl

end Proxyshop.Ledger
