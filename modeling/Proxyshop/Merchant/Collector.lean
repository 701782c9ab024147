import Proxyshop.Contracts.Wire
import Proxyshop.Structures.Fallible
import Mathlib.Data.Nat.Size
import Mathlib.Data.List.Sort

/-!
# The collector of pixel events

What an unauthenticated beacon may leave behind, and what it is refused with. How a finite float is
spelled is a parameter.
-/

namespace Proxyshop.Merchant

open Python Numbers Contracts Structures

/-- `str` of a finite float. -/
class FloatText (F : Type) where
  text : F → Str
  short (x : F) : text x ≠ [] ∧ (text x).length ≤ 24

namespace Collector

/-! ## The published fields -/

def joinKeyAliases : List (Str × List Str) := [
  (str "checkout_token", ["checkout_token", "checkoutToken", "token"].map str),
  (str "order_ref", ["order_ref", "order_id", "orderId", "orderRef"].map str),
  (str "client_id", ["client_id", "clientId"].map str),
  (str "discount_code", ["discount_code", "discountCode", "code"].map str)]

def aliasesOf (key : Str) : List Str := (Dict.get? joinKeyAliases key).getD []

def carriedFields : List Str :=
  ["discountApplications", "discount_applications", "total_price", "totalPrice", "currency", "timestamp"].map str

def acceptedFields : List Str := joinKeyAliases.flatMap Prod.snd ++ carriedFields

def gapKeys : List Str := ["checkout_token", "order_ref", "client_id", "discount_code"].map str

def discountApplicationFields : List Str :=
  ["code", "discountCode", "discount_code", "value", "type", "title", "allocationMethod"].map str

def maxDiscountApplications : Nat := 32

def maxPixelFieldChars : Nat := 512

def maxScalarIntBits : Nat := 4 * maxPixelFieldChars

/-! ## Refusals -/

structure PixelEventRejected where
  reason : Str
  fields : List Str

/-- The text of the exception: the reason, and how many fields there were. -/
def PixelEventRejected.message (e : PixelEventRejected) : Str :=
  e.reason ++ if e.fields.isEmpty then [] else str " (" ++ Str.ofNat e.fields.length ++ str " field(s))"

inductive BeaconError
  | rejected (e : PixelEventRejected)
  | python (e : PyError)

variable {F : Type} [Format F] [FloatText F]

def typeName : Wire F → Str
  | .null => str "NoneType"
  | .bool _ => str "bool"
  | .number (.integer _) => str "int"
  | .number (.double _) => str "float"
  | .string _ => str "str"
  | .array _ => str "list"
  | .object _ => str "dict"

def reject (reason : String) (fields : List Str) : BeaconError := .rejected ⟨str reason, fields⟩

/-! ## Scalars -/

/-- `str` of an integer. -/
def strOfInt (n : Int) : Except BeaconError Str :=
  if (Str.ofNat n.natAbs).length ≤ NumberText.maxStrDigits then .ok (Str.ofInt n)
  else .error (.python .valueError)

def scalar : Wire F → Except BeaconError (Option Str)
  | .string s => .ok s.strip.nonEmpty?
  | .number (.double (.finite x)) => .ok (FloatText.text x).nonEmpty?
  | .number (.integer n) => do return (← strOfInt n).nonEmpty?
  | _ => .ok none

omit [Format F] [FloatText F] in
def overTheFieldCeiling : Wire F → Except BeaconError Bool
  | .string s => .ok (maxPixelFieldChars < s.strip.length)
  | .number (.integer n) =>
      if maxScalarIntBits < n.natAbs.size then .ok true
      else do return maxPixelFieldChars < (← strOfInt n).length
  | _ => .ok false

def sorted (names : List Str) : List Str := names.insertionSort fun a b => Str.le a b

def oversizedFields (payload : Dict Str (Wire F)) : Except BeaconError (List Str) := do
  let long ← payload.filterM fun (name, value) =>
    if name ∈ acceptedFields then overTheFieldCeiling value else .ok false
  return sorted (Dict.keys long)

/-- `_read`: the first of the names that is present as a scalar. -/
def read (payload : Dict Str (Wire F)) : List Str → Except BeaconError (Option Str)
  | [] => .ok none
  | name :: names =>
      match Dict.get? payload name with
      | none => read payload names
      | some value => do
          match ← scalar value with
          | some s => return some s
          | none => read payload names

/-! ## Discount applications -/

def rawApplications (payload : Dict Str (Wire F)) : Wire F :=
  (Dict.get? payload (str "discountApplications")).getD
    ((Dict.get? payload (str "discount_applications")).getD .null)

structure Application (F : Type) where
  entry : Dict Str (Wire F)
  unknown : List Str
  oversized : List Str

def application : Wire F → Except BeaconError (Application F)
  | .object entry => do
      let oversized ← entry.filterM fun (_, value) => overTheFieldCeiling value
      return ⟨entry, (Dict.keys entry).filter (· ∉ discountApplicationFields), Dict.keys oversized⟩
  | _ => .error (reject "each discountApplications entry must be an object" [])

def validateDiscountApplications (payload : Dict Str (Wire F)) :
    Except BeaconError (List (Dict Str (Wire F))) :=
  match rawApplications payload with
  | .null => .ok []
  | .array raw =>
      if maxDiscountApplications < raw.length then
        .error (reject "a beacon may declare at most 32 discount applications" [])
      else do
        let applications ← raw.mapM application
        let unknown := applications.flatMap Application.unknown
        let oversized := applications.flatMap Application.oversized
        if unknown ≠ [] then
          .error (reject "a discountApplications entry carries fields outside the published set"
            (sorted unknown.dedup))
        else if oversized ≠ [] then
          .error (reject "a discountApplications entry carries a field over the 512-character ceiling"
            (sorted oversized.dedup))
        else .ok (applications.map Application.entry)
  | _ => .error (reject "discountApplications must be a list" [])

def codeAliases : List Str := ["code", "discountCode", "discount_code"].map str

def codeOfEntries : List (Dict Str (Wire F)) → Except BeaconError (Option Str)
  | [] => .ok none
  | entry :: entries => do
      match ← read entry codeAliases with
      | some s => return some s
      | none => codeOfEntries entries

def discountCode (payload : Dict Str (Wire F)) (entries : List (Dict Str (Wire F))) :
    Except BeaconError (Option Str) := do
  match ← read payload (aliasesOf (str "discount_code")) with
  | some s => return some s
  | none => codeOfEntries entries

omit [FloatText F] in
/-- `float` of what may be a price, where that is finite. -/
def finitePrice [Unicode] : Wire F → Option (Extended F)
  | .null | .bool _ | .array _ | .object _ => none
  | raw => raw.toDouble.toOption.filter Extended.isFinite

omit [FloatText F] in
def totalPrice [Unicode] (payload : Dict Str (Wire F)) : Option (Extended F) :=
  finitePrice ((Dict.get? payload (str "total_price")).getD
    ((Dict.get? payload (str "totalPrice")).getD .null))

/-! ## Beacons -/

structure PixelObservation (F : Type) where
  checkoutToken : Str
  clientId : Option Str
  orderRef : Option Str
  discountCode : Option Str
  totalPrice : Option (Extended F)
  gaps : List Str

/-- The names under which something else than a scalar is stated. -/
def malformedFields (payload : Dict Str (Wire F)) : Except BeaconError (List Str) := do
  let malformed ← (joinKeyAliases.flatMap Prod.snd).filterM fun name =>
    match Dict.get? payload name with
    | none | some .null => .ok false
    | some value => do return (← scalar value).isNone
  return sorted malformed

/-- The observation of a beacon whose fields have all been checked. -/
def observation [Unicode] (payload : Dict Str (Wire F)) (entries : List (Dict Str (Wire F))) :
    Except BeaconError (PixelObservation F) := do
  match ← read payload (aliasesOf (str "checkout_token")) with
  | none =>
      .error (reject
        "a pixel event carries no usable scalar checkout_token; it can never be joined to an order" [])
  | some checkoutToken => do
      let orderRef ← read payload (aliasesOf (str "order_ref"))
      let clientId ← read payload (aliasesOf (str "client_id"))
      let discountCode ← discountCode payload entries
      let present : List (Str × Option Str) := [(str "checkout_token", some checkoutToken),
        (str "order_ref", orderRef), (str "client_id", clientId), (str "discount_code", discountCode)]
      let gaps := gapKeys.filter fun key => ((Dict.get? present key).bind id).isNone
      return { checkoutToken, clientId, orderRef, discountCode, totalPrice := totalPrice payload, gaps }

def acceptPixelEvent [Unicode] (payload : Wire F) : Except BeaconError (PixelObservation F) :=
  match payload with
  | .object payload =>
      let unknown := (Dict.keys payload).filter (· ∉ acceptedFields)
      if unknown ≠ [] then
        .error (reject "the collector accepts published join keys only; refused unknown fields" (sorted unknown))
      else do
        -- The lengths come before the shapes: a long integer has no text.
        let oversized ← oversizedFields payload
        if oversized ≠ [] then
          .error (reject "a beacon field may carry at most 512 characters" oversized)
        else do
          let malformed ← malformedFields payload
          if malformed ≠ [] then
            .error (reject "a join key must be a scalar; the collector never stores a structured value" malformed)
          else do
            let entries ← validateDiscountApplications payload
            observation payload entries
  | v => .error (.rejected ⟨str "a pixel event must be a JSON object, got " ++ typeName v, []⟩)

/-! ## What a beacon may leave behind -/

def refusals : List String := [
  "a beacon may declare at most 32 discount applications",
  "each discountApplications entry must be an object",
  "a discountApplications entry carries fields outside the published set",
  "a discountApplications entry carries a field over the 512-character ceiling",
  "discountApplications must be a list",
  "the collector accepts published join keys only; refused unknown fields",
  "a beacon field may carry at most 512 characters",
  "a join key must be a scalar; the collector never stores a structured value",
  "a pixel event carries no usable scalar checkout_token; it can never be joined to an order"]

/-- The module's own texts, of which none depends on a beacon. -/
def reasons : List Str :=
  refusals.map str ++ ["NoneType", "bool", "int", "float", "str", "list", "dict"].map fun name =>
    str "a pixel event must be a JSON object, got " ++ str name

omit [FloatText F] [Format F] in
theorem typed_reason (v : Wire F) : str "a pixel event must be a JSON object, got " ++ typeName v ∈ reasons := by
  refine List.mem_append_right _ (List.mem_map.mpr ?_)
  cases v with
  | number n => cases n <;> simp [typeName]
  | _ => simp [typeName]

/-- The failure is a refusal, told in the module's own words and a count. -/
def Refusal : BeaconError → Prop
  | .rejected e => ∃ reason ∈ reasons, ∃ count, e.message = reason ++ count ∧
      (count = [] ∨ ∃ n, count = str " (" ++ Str.ofNat n ++ str " field(s))")
  | .python _ => False

def Short (s : Str) : Prop := s ≠ [] ∧ s.length ≤ maxPixelFieldChars

/-- The text is that of a scalar under one of the names, and short. -/
def Lifted (body : Dict Str (Wire F)) (names : List Str) (s : Str) : Prop :=
  Short s ∧ ∃ name ∈ names, ∃ v, Dict.get? body name = some v ∧ scalar v = .ok (some s)

omit [Format F] [FloatText F] in
/-- The entry is one of the discount applications of the beacon. -/
def Declared (body entry : Dict Str (Wire F)) : Prop :=
  ∃ raw, rawApplications body = .array raw ∧ .object entry ∈ raw

def PixelObservation.joinKeys (o : PixelObservation F) : List (Str × Option Str) :=
  [(str "checkout_token", some o.checkoutToken), (str "order_ref", o.orderRef),
    (str "client_id", o.clientId), (str "discount_code", o.discountCode)]

structure Retained [Unicode] (body : Dict Str (Wire F)) (o : PixelObservation F) : Prop where
  token : Lifted body (aliasesOf (str "checkout_token")) o.checkoutToken
  order : ∀ s ∈ o.orderRef, Lifted body (aliasesOf (str "order_ref")) s
  client : ∀ s ∈ o.clientId, Lifted body (aliasesOf (str "client_id")) s
  code : ∀ s ∈ o.discountCode, Lifted body (aliasesOf (str "discount_code")) s ∨
    ∃ entry, Declared body entry ∧ Lifted entry codeAliases s
  price : ∀ x ∈ o.totalPrice, x.isFinite = true ∧
    ∃ name ∈ [str "total_price", str "totalPrice"], ∃ v, Dict.get? body name = some v ∧ v.toDouble = .ok x
  gaps : ∀ key, key ∈ o.gaps ↔ (key, none) ∈ o.joinKeys

/-! ## Each step -/

omit [Format F] [FloatText F] in
theorem refusal_reject {reason : String} (own : reason ∈ refusals) (fields : List Str) :
    Refusal (reject reason fields) := by
  refine ⟨_, List.mem_append_left _ (List.mem_map_of_mem own), if fields.isEmpty then [] else str " (" ++ Str.ofNat fields.length ++ str " field(s))", rfl, ?_⟩
  by_cases none : fields.isEmpty = true
  · exact Or.inl (if_pos none)
  · exact Or.inr ⟨_, if_neg none⟩

theorem strOfInt_of_size {n : Int} (few : n.natAbs.size ≤ maxScalarIntBits) :
    strOfInt n = .ok (Str.ofInt n) := by
  refine if_pos ((Str.length_ofNat_lt (by decide)).mpr ?_)
  calc n.natAbs < 2 ^ maxScalarIntBits := Nat.size_le.mp few
    _ ≤ 10 ^ maxScalarIntBits := Nat.pow_le_pow_left (by decide) _
    _ ≤ 10 ^ NumberText.maxStrDigits := Nat.pow_le_pow_right (by decide) (by decide)

omit [Format F] [FloatText F] in
theorem over_returns (v : Wire F) : ∃ b, overTheFieldCeiling v = .ok b := by
  cases v with
  | number n =>
      cases n with
      | double x => exact ⟨_, rfl⟩
      | integer n =>
          rw [overTheFieldCeiling]
          by_cases many : maxScalarIntBits < n.natAbs.size
          · exact ⟨_, if_pos many⟩
          · rw [if_neg many, strOfInt_of_size (Nat.le_of_not_lt many)]
            exact ⟨_, rfl⟩
  | _ => exact ⟨_, rfl⟩

theorem short_of_nonEmpty {s t : Str} (stated : s.nonEmpty? = some t) (few : s.length ≤ maxPixelFieldChars) :
    Short t := by
  rw [Str.nonEmpty?] at stated
  split at stated
  · cases stated
  · rename_i some
    cases stated
    exact ⟨fun empty => some (by rw [empty]; rfl), few⟩

omit [Format F] in
theorem scalar_held {v : Wire F} (held : overTheFieldCeiling v = .ok false) :
    ∃ answer, scalar v = .ok answer ∧ ∀ s ∈ answer, Short s := by
  cases v with
  | string t =>
      refine ⟨_, rfl, fun s stated => short_of_nonEmpty stated ?_⟩
      exact Nat.le_of_not_lt (of_decide_eq_false (Except.ok.inj held))
  | number n =>
      cases n with
      | double x =>
          cases x with
          | finite x =>
              refine ⟨_, rfl, fun s stated => short_of_nonEmpty stated ?_⟩
              exact (FloatText.short x).2.trans (by decide)
          | _ =>
              refine ⟨none, rfl, ?_⟩
              rintro s stated
              cases stated
      | integer n =>
          rw [overTheFieldCeiling] at held
          by_cases many : maxScalarIntBits < n.natAbs.size
          · rw [if_pos many] at held
            cases held
          · rw [if_neg many, strOfInt_of_size (Nat.le_of_not_lt many)] at held
            refine ⟨_, by rw [scalar, strOfInt_of_size (Nat.le_of_not_lt many)]; rfl, ?_⟩
            intro s stated
            exact short_of_nonEmpty stated (Nat.le_of_not_lt (of_decide_eq_false (Except.ok.inj held)))
  | _ =>
      refine ⟨none, rfl, ?_⟩
      rintro s stated
      cases stated

omit [Format F] in
theorem read_held {body : Dict Str (Wire F)} {names : List Str}
    (held : ∀ name ∈ names, ∀ v, Dict.get? body name = some v → overTheFieldCeiling v = .ok false) :
    ∃ answer, read body names = .ok answer ∧ ∀ s ∈ answer, Lifted body names s := by
  induction names with
  | nil =>
      refine ⟨none, rfl, ?_⟩
      rintro s stated
      cases stated
  | cons name names ih =>
      obtain ⟨first, others⟩ := List.forall_mem_cons.mp held
      obtain ⟨answer, returned, lifted⟩ := ih others
      have later : ∀ s ∈ answer, Lifted body (name :: names) s := by
        intro s stated
        obtain ⟨short, spelled, member, v, found, read⟩ := lifted s stated
        exact ⟨short, spelled, List.mem_cons_of_mem _ member, v, found, read⟩
      cases found : Dict.get? body name with
      | none =>
          refine ⟨answer, ?_, later⟩
          rw [read, found]
          exact returned
      | some v =>
          obtain ⟨text, spelled, short⟩ := scalar_held (first v found)
          cases text with
          | none =>
              refine ⟨answer, ?_, later⟩
              rw [read, found]
              simp only [spelled]
              exact returned
          | some t =>
              refine ⟨some t, ?_, ?_⟩
              · rw [read, found]
                simp only [spelled]
                rfl
              · rintro s stated
                cases stated
                exact ⟨short t rfl, name, List.mem_cons_self, v, found, spelled⟩

omit [Format F] in
theorem codeOfEntries_held {entries : List (Dict Str (Wire F))}
    (held : ∀ entry ∈ entries, ∀ e ∈ entry, overTheFieldCeiling e.2 = .ok false) :
    ∃ answer, codeOfEntries entries = .ok answer ∧
      ∀ s ∈ answer, ∃ entry ∈ entries, Lifted entry codeAliases s := by
  induction entries with
  | nil =>
      refine ⟨none, rfl, ?_⟩
      rintro s stated
      cases stated
  | cons entry entries ih =>
      obtain ⟨first, others⟩ := List.forall_mem_cons.mp held
      obtain ⟨answer, returned, lifted⟩ := ih others
      obtain ⟨text, stated, own⟩ : ∃ answer, read entry codeAliases = .ok answer ∧
          ∀ s ∈ answer, Lifted entry codeAliases s :=
        read_held fun name _ v found => first (name, v) (Dict.mem_of_get? found)
      cases text with
      | none =>
          refine ⟨answer, ?_, fun s stated => ?_⟩
          · rw [codeOfEntries, stated]
            exact returned
          · obtain ⟨entry, member, lifted⟩ := lifted s stated
            exact ⟨entry, List.mem_cons_of_mem _ member, lifted⟩
      | some t =>
          refine ⟨some t, ?_, fun s same => ⟨entry, List.mem_cons_self, own s same⟩⟩
          rw [codeOfEntries, stated]
          rfl

omit [Format F] [FloatText F] in
theorem application_held {v : Wire F} :
    (∃ fault, application v = .error fault ∧ Refusal fault) ∨
      ∃ made, application v = .ok made ∧ v = .object made.entry ∧
        (made.oversized = [] → ∀ e ∈ made.entry, overTheFieldCeiling e.2 = .ok false) := by
  cases v with
  | object entry =>
      obtain ⟨long, walked⟩ := filterM_returns (l := entry) (p := fun e => overTheFieldCeiling e.2)
        fun e _ => over_returns e.2
      refine Or.inr ⟨⟨entry, _, Dict.keys long⟩, by rw [application, walked]; rfl, rfl, ?_⟩
      intro none e member
      obtain ⟨b, answered⟩ := over_returns e.2
      cases b with
      | false => exact answered
      | true =>
          have kept := ((mem_filterM walked).2 e).mpr ⟨member, answered⟩
          rw [List.map_eq_nil_iff.mp none] at kept
          cases kept
  | _ => exact Or.inl ⟨_, rfl, refusal_reject (by simp [refusals]) []⟩

omit [Format F] [FloatText F] in
theorem applications_held (raw : List (Wire F)) :
    (∃ fault, raw.mapM application = .error fault ∧ Refusal fault) ∨
      ∃ made, raw.mapM application = .ok made ∧ ∀ a ∈ made, .object a.entry ∈ raw ∧
        (a.oversized = [] → ∀ e ∈ a.entry, overTheFieldCeiling e.2 = .ok false) := by
  induction raw with
  | nil => exact Or.inr ⟨[], rfl, List.forall_mem_nil _⟩
  | cons v raw ih =>
      rw [List.mapM_cons]
      obtain ⟨fault, raised, refused⟩ | ⟨a, returned, own, held⟩ := application_held (v := v)
      · exact Or.inl ⟨fault, by rw [raised]; rfl, refused⟩
      · obtain ⟨fault, raised, refused⟩ | ⟨made, walked, members⟩ := ih
        · exact Or.inl ⟨fault, by rw [returned, raised]; rfl, refused⟩
        · refine Or.inr ⟨a :: made, by rw [returned, walked]; rfl, List.forall_mem_cons.mpr ⟨⟨?_, held⟩, ?_⟩⟩
          · rw [own]
            exact List.mem_cons_self
          · intro b member
            obtain ⟨listed, within⟩ := members b member
            exact ⟨List.mem_cons_of_mem _ listed, within⟩

omit [Format F] [FloatText F] in
theorem validate_held (body : Dict Str (Wire F)) :
    (∃ fault, validateDiscountApplications body = .error fault ∧ Refusal fault) ∨
      ∃ entries, validateDiscountApplications body = .ok entries ∧ ∀ entry ∈ entries,
        Declared body entry ∧ ∀ e ∈ entry, overTheFieldCeiling e.2 = .ok false := by
  rw [validateDiscountApplications]
  split
  · exact Or.inr ⟨[], rfl, List.forall_mem_nil _⟩
  · rename_i raw declared
    split
    · exact Or.inl ⟨_, rfl, refusal_reject (by simp [refusals]) []⟩
    · obtain ⟨fault, raised, refused⟩ | ⟨made, walked, members⟩ := applications_held raw
      · exact Or.inl ⟨fault, by rw [raised]; rfl, refused⟩
      · rw [walked]
        change (∃ fault, (if made.flatMap Application.unknown ≠ [] then _ else _) = _ ∧ _) ∨
          ∃ entries, (if made.flatMap Application.unknown ≠ [] then _ else _) = _ ∧ _
        split
        · exact Or.inl ⟨_, rfl, refusal_reject (by simp [refusals]) _⟩
        · split
          · exact Or.inl ⟨_, rfl, refusal_reject (by simp [refusals]) _⟩
          · rename_i within
            refine Or.inr ⟨_, rfl, fun entry member => ?_⟩
            obtain ⟨a, listed, rfl⟩ := List.mem_map.mp member
            obtain ⟨own, held⟩ := members a listed
            exact ⟨⟨raw, declared, own⟩, held (List.flatMap_eq_nil_iff.mp (not_not.mp within) a listed)⟩
  · exact Or.inl ⟨_, rfl, refusal_reject (by simp [refusals]) []⟩

omit [FloatText F] in
theorem finitePrice_held [Unicode] {v : Wire F} {x : Extended F} (stated : finitePrice v = some x) :
    v ≠ .null ∧ x.isFinite = true ∧ v.toDouble = .ok x := by
  have read : v ≠ .null ∧ v.toDouble.toOption.filter Extended.isFinite = some x := by
    cases v with
    | number n => exact ⟨by simp, stated⟩
    | string s => exact ⟨by simp, stated⟩
    | _ => cases stated
  obtain ⟨returned, finite⟩ := Option.filter_eq_some_iff.mp read.2
  exact ⟨read.1, finite, toOption_eq_some.mp returned⟩

omit [FloatText F] in
theorem totalPrice_held [Unicode] {body : Dict Str (Wire F)} {x : Extended F}
    (stated : totalPrice body = some x) : x.isFinite = true ∧
      ∃ name ∈ [str "total_price", str "totalPrice"], ∃ v, Dict.get? body name = some v ∧ v.toDouble = .ok x := by
  obtain ⟨present, finite, read⟩ := finitePrice_held stated
  refine ⟨finite, ?_⟩
  cases first : Dict.get? body (str "total_price") with
  | some w =>
      rw [first] at read
      exact ⟨_, List.mem_cons_self, w, first, read⟩
  | none =>
      rw [first] at read present
      cases second : Dict.get? body (str "totalPrice") with
      | some w =>
          rw [second] at read
          exact ⟨_, List.mem_cons_of_mem _ List.mem_cons_self, w, second, read⟩
      | none =>
          rw [second] at present
          exact absurd rfl present

/-! ## Whole beacons -/

omit [Format F] [FloatText F] in
theorem oversizedFields_held (body : Dict Str (Wire F)) :
    ∃ names, oversizedFields body = .ok names ∧
      (names = [] → ∀ name ∈ acceptedFields, ∀ v, Dict.get? body name = some v →
        overTheFieldCeiling v = .ok false) := by
  have decided : ∀ e ∈ body, ∃ b, (fun e : Str × Wire F =>
      if e.1 ∈ acceptedFields then overTheFieldCeiling e.2 else .ok false) e = .ok b := by
    intro e _
    by_cases accepted : e.1 ∈ acceptedFields
    · obtain ⟨b, answered⟩ := over_returns e.2
      exact ⟨b, (if_pos accepted).trans answered⟩
    · exact ⟨false, if_neg accepted⟩
  obtain ⟨long, walked⟩ := filterM_returns decided
  refine ⟨sorted (Dict.keys long), by rw [oversizedFields, walked]; rfl, ?_⟩
  intro none name accepted v found
  obtain ⟨b, answered⟩ := over_returns v
  cases b with
  | false => exact answered
  | true =>
      have kept := ((mem_filterM walked).2 (name, v)).mpr
        ⟨Dict.mem_of_get? found, (if_pos accepted).trans answered⟩
      have listed : name ∈ sorted (Dict.keys long) :=
        (List.mem_insertionSort _).mpr (List.mem_map.mpr ⟨_, kept, rfl⟩)
      rw [none] at listed
      cases listed

omit [Format F] in
theorem malformedFields_returns {body : Dict Str (Wire F)} (held : ∀ name ∈ acceptedFields, ∀ v,
    Dict.get? body name = some v → overTheFieldCeiling v = .ok false) :
    ∃ names, malformedFields body = .ok names := by
  have decided : ∀ name ∈ joinKeyAliases.flatMap Prod.snd, ∃ b, (fun name =>
      match Dict.get? body name with
      | none | some .null => .ok false
      | some value => do return (← scalar value).isNone : Str → Except BeaconError Bool) name = .ok b := by
    intro name key
    change ∃ b, (match Dict.get? body name with
      | none | some .null => .ok false
      | some value => do return (← scalar value).isNone) = Except.ok b
    split
    · exact ⟨false, rfl⟩
    · exact ⟨false, rfl⟩
    · rename_i v _ found
      obtain ⟨answer, read, -⟩ := scalar_held (held name (List.mem_append_left _ key) v found)
      rw [read]
      exact ⟨_, rfl⟩
  obtain ⟨malformed, walked⟩ := filterM_returns decided
  exact ⟨_, by rw [malformedFields, walked]; rfl⟩

theorem aliases_accepted {key name : Str} (spelled : name ∈ aliasesOf key) : name ∈ acceptedFields := by
  rw [aliasesOf] at spelled
  cases found : Dict.get? joinKeyAliases key with
  | none =>
      rw [found] at spelled
      cases spelled
  | some names =>
      rw [found] at spelled
      exact List.mem_append_left _ (List.mem_flatMap.mpr ⟨_, Dict.mem_of_get? found, spelled⟩)

omit [Format F] in
theorem discountCode_held {body : Dict Str (Wire F)} {entries : List (Dict Str (Wire F))}
    (held : ∀ name ∈ acceptedFields, ∀ v, Dict.get? body name = some v → overTheFieldCeiling v = .ok false)
    (declared : ∀ entry ∈ entries, Declared body entry ∧ ∀ e ∈ entry, overTheFieldCeiling e.2 = .ok false) :
    ∃ answer, discountCode body entries = .ok answer ∧ ∀ s ∈ answer,
      Lifted body (aliasesOf (str "discount_code")) s ∨
        ∃ entry, Declared body entry ∧ Lifted entry codeAliases s := by
  obtain ⟨direct, stated, own⟩ := read_held fun name spelled =>
    held name (aliases_accepted spelled)
  cases direct with
  | some t =>
      refine ⟨some t, by rw [discountCode, stated]; rfl, fun s same => Or.inl (own s same)⟩
  | none =>
      obtain ⟨answer, returned, lifted⟩ := codeOfEntries_held fun entry member => (declared entry member).2
      refine ⟨answer, by rw [discountCode, stated]; exact returned, fun s same => Or.inr ?_⟩
      obtain ⟨entry, member, lifted⟩ := lifted s same
      exact ⟨entry, (declared entry member).1, lifted⟩

theorem mem_gaps {d : Dict Str (Option Str)} (distinct : (Dict.keys d).Nodup) {key : Str} :
    key ∈ (Dict.keys d).filter (fun key => ((Dict.get? d key).bind id).isNone) ↔
      (key, none) ∈ d := by
  rw [List.mem_filter]
  constructor
  · rintro ⟨listed, missing⟩
    obtain ⟨held, found⟩ := Option.ne_none_iff_exists'.mp
      (mt (Dict.get?_eq_none_iff d key).mp (not_not.mpr listed))
    rw [found] at missing
    cases held with
    | none => exact Dict.mem_of_get? found
    | some s => cases missing
  · intro member
    refine ⟨List.mem_map.mpr ⟨_, member, rfl⟩, ?_⟩
    rw [Dict.get?_of_mem distinct member]
    rfl

theorem observation_held [Unicode] {body : Dict Str (Wire F)} {entries : List (Dict Str (Wire F))}
    (held : ∀ name ∈ acceptedFields, ∀ v, Dict.get? body name = some v → overTheFieldCeiling v = .ok false)
    (declared : ∀ entry ∈ entries, Declared body entry ∧ ∀ e ∈ entry, overTheFieldCeiling e.2 = .ok false) :
    (∃ fault, observation body entries = .error fault ∧ Refusal fault) ∨
      ∃ o, observation body entries = .ok o ∧ Retained body o := by
  have key (k : Str) : ∃ answer, read body (aliasesOf k) = .ok answer ∧
      ∀ s ∈ answer, Lifted body (aliasesOf k) s :=
    read_held fun name spelled => held name (aliases_accepted spelled)
  obtain ⟨token, first, tokens⟩ := key (str "checkout_token")
  obtain ⟨order, second, orders⟩ := key (str "order_ref")
  obtain ⟨client, third, clients⟩ := key (str "client_id")
  obtain ⟨code, fourth, codes⟩ := discountCode_held held declared
  rw [observation, first]
  cases token with
  | none => exact Or.inl ⟨_, rfl, refusal_reject (by simp [refusals]) []⟩
  | some token =>
      refine Or.inr ⟨_, by rw [second, third, fourth]; rfl, ?_⟩
      refine ⟨tokens token rfl, orders, clients, codes, fun x stated => totalPrice_held stated, ?_⟩
      intro k
      have distinct : gapKeys.Nodup := by decide
      exact mem_gaps (d := [(str "checkout_token", some token), (str "order_ref", order),
        (str "client_id", client), (str "discount_code", code)]) distinct

theorem beacon_settled [Unicode] (payload : Wire F) :
    (∃ fault, acceptPixelEvent payload = .error fault ∧ Refusal fault) ∨
      ∃ body o, payload = .object body ∧ acceptPixelEvent payload = .ok o ∧ Retained body o := by
  have other {reason : Str} (own : reason ∈ reasons) : Refusal (.rejected ⟨reason, []⟩) :=
    ⟨reason, own, [], rfl, Or.inl rfl⟩
  cases payload with
  | object body =>
      rw [acceptPixelEvent]
      by_cases known : (Dict.keys body).filter (· ∉ acceptedFields) = []
      swap
      · exact Or.inl ⟨_, if_pos known, refusal_reject (by simp [refusals]) _⟩
      obtain ⟨oversized, measured, held⟩ := oversizedFields_held body
      rw [if_neg (not_not.mpr known), measured]
      by_cases within : oversized = []
      swap
      · exact Or.inl ⟨_, if_pos within, refusal_reject (by simp [refusals]) _⟩
      replace held := held within
      obtain ⟨malformed, shaped⟩ := malformedFields_returns held
      change (∃ fault, (if oversized ≠ [] then _ else _) = _ ∧ _) ∨
        ∃ body' o, _ ∧ (if oversized ≠ [] then _ else _) = _ ∧ _
      rw [if_neg (not_not.mpr within), shaped]
      by_cases scalars : malformed = []
      swap
      · exact Or.inl ⟨_, if_pos scalars, refusal_reject (by simp [refusals]) _⟩
      change (∃ fault, (if malformed ≠ [] then _ else _) = _ ∧ _) ∨
        ∃ body' o, _ ∧ (if malformed ≠ [] then _ else _) = _ ∧ _
      rw [if_neg (not_not.mpr scalars)]
      obtain ⟨fault, raised, refused⟩ | ⟨entries, valid, declared⟩ := validate_held body
      · exact Or.inl ⟨fault, by rw [raised]; rfl, refused⟩
      rw [valid]
      obtain ⟨fault, raised, refused⟩ | ⟨o, made, kept⟩ := observation_held held declared
      · exact Or.inl ⟨fault, raised, refused⟩
      · exact Or.inr ⟨body, o, rfl, made, kept⟩
  | _ => exact Or.inl ⟨_, rfl, other (typed_reason _)⟩

end Collector
end Proxyshop.Merchant
