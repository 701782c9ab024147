import Proxyshop.Contracts.Wire
import Proxyshop.Structures.Fallible

/-!
# Sealed envelopes

One version of the terms a store bids under, and the written approval that makes it live. What the
validation library makes of a single number or a single claim is a parameter.
-/

namespace Proxyshop.Merchant

open Python Numbers Contracts Structures

inductive Activation
  | shadow
  | active
  | killed
  deriving DecidableEq

def Activation.text : Activation → Str
  | .shadow => str "shadow"
  | .active => str "active"
  | .killed => str "killed"

def Activation.ofText? (s : Str) : Option Activation :=
  if s = str "shadow" then some .shadow
  else if s = str "active" then some .active
  else if s = str "killed" then some .killed
  else none

@[simp] theorem Activation.ofText?_text (a : Activation) : ofText? a.text = some a := by
  cases a <;> simp [text, ofText?]

theorem Activation.ofText?_eq_some {s : Str} {a : Activation} : ofText? s = some a ↔ s = a.text := by
  constructor
  · intro found
    unfold ofText? at found
    split at found
    · cases found
      assumption
    · split at found
      · cases found
        assumption
      · split at found
        · cases found
          assumption
        · cases found
  · rintro rfl
    exact ofText?_text a

inductive EnvelopeError
  | unknownStore
  | versionWentBackwards
  | storeMismatch
  | invalid
  | editRefused
  | reviveRefused
  | approvalRejected
  | unsaved
  | python (e : PyError)
  deriving DecidableEq

/-! ## The written approval -/

structure ApprovalArtifact where
  approver : Str
  approvedAt : Str
  envelopeHash : Str
  note : Option Str
  documentRef : Option Str
  deriving DecidableEq

section Approvals

variable {F : Type}

def requiredText (raw : Wire F) (key : Str) : Except EnvelopeError Str :=
  match raw.get key with
  | .string s => if s.strip.isEmpty then .error .approvalRejected else .ok s.strip
  | _ => .error .approvalRejected

def optionalText (raw : Wire F) (key : Str) : Except EnvelopeError (Option Str) :=
  match raw.get key with
  | .null => .ok none
  | .string s => if s.strip.isEmpty then .error .approvalRejected else .ok (some s.strip)
  | _ => .error .approvalRejected

/-- A naive timestamp is refused; one that leaves the calendar on its way to UTC raises. -/
def utcTimestamp (raw : Str) : Except EnvelopeError Str :=
  match DateTime.fromIsoFormat raw with
  | none => .error .approvalRejected
  | some moment =>
      if moment.offset.isNone then .error .approvalRejected
      else
        match moment.toUtc? with
        | none => .error (.python .overflowError)
        | some utc => .ok (utc.isoFormat (str "T"))

def ApprovalArtifact.fields : List Str :=
  [str "approver", str "approved_at", str "envelope_hash", str "note", str "document_ref"]

def ApprovalArtifact.parse : Wire F → Except EnvelopeError ApprovalArtifact
  | .object members => do
      if ¬ (Dict.keys members).all (· ∈ fields) then .error .approvalRejected
      let raw : Wire F := .object members
      let approver ← requiredText raw (str "approver")
      let stamp ← requiredText raw (str "approved_at")
      let envelopeHash ← requiredText raw (str "envelope_hash")
      let approvedAt ← utcTimestamp stamp
      let note ← optionalText raw (str "note")
      let documentRef ← optionalText raw (str "document_ref")
      return { approver, approvedAt, envelopeHash, note, documentRef }
  | _ => .error .approvalRejected

def optionalEntry (key : Str) : Option Str → Dict Str (Wire F)
  | none => []
  | some s => [(key, .string s)]

def ApprovalArtifact.toDict (a : ApprovalArtifact) : Wire F :=
  .object ([(str "approver", .string a.approver), (str "approved_at", .string a.approvedAt),
    (str "envelope_hash", .string a.envelopeHash)] ++ optionalEntry (str "note") a.note ++
    optionalEntry (str "document_ref") a.documentRef)

theorem requiredText_eq_ok {raw : Wire F} {key s : Str} (read : requiredText raw key = .ok s) :
    s.strip = s := by
  unfold requiredText at read
  split at read
  · split at read
    · cases read
    · cases read
      exact Str.strip_strip _
  · cases read

theorem ApprovalArtifact.parse_hash {raw : Wire F} {a : ApprovalArtifact} (read : parse raw = .ok a) :
    a.envelopeHash.strip = a.envelopeHash := by
  unfold parse at read
  split at read
  · split at read
    · cases read
    · simp only [bind_eq_ok] at read
      obtain ⟨approver, -, stamp, -, hash, hashed, approvedAt, -, note, -, reference, -, made⟩ := read
      cases made
      exact requiredText_eq_ok hashed
  · cases read

end Approvals

/-! ## Envelopes -/

structure PriceFloor (F : Type) where
  productRef : Option Str
  minPrice : Extended F

structure Terms (F : Type) where
  storeId : Str
  version : Int
  floors : List (PriceFloor F)
  maxDiscountPct : Extended F
  budgetCap : Extended F
  pursueClusters : List Str
  standingCommitments : List (Wire F)

structure Envelope (F : Type) extends Terms F where
  activation : Activation
  approval : Option ApprovalArtifact

def Envelope.isLive {F : Type} (e : Envelope F) : Bool := e.activation = .active

def Envelope.withActivation {F : Type} (e : Envelope F) (activation : Activation)
    (approval : Option ApprovalArtifact) : Envelope F :=
  { e with activation, approval }

section Projection

variable {F : Type}

def text? (s : Option Str) : Wire F := s.elim .null .string

def PriceFloor.toDict (f : PriceFloor F) : Wire F :=
  .object [(str "product_ref", text? f.productRef), (str "min_price", .number (.double f.minPrice))]

def Envelope.document (e : Envelope F) : Dict Str (Wire F) :=
  [(str "store_id", .string e.storeId), (str "version", .number (.integer e.version)),
    (str "floors", .array (e.floors.map PriceFloor.toDict)),
    (str "max_discount_pct", .number (.double e.maxDiscountPct)),
    (str "budget_cap", .number (.double e.budgetCap)),
    (str "pursue_clusters", .array (e.pursueClusters.map .string)),
    (str "standing_commitments", .array e.standingCommitments),
    (str "activation", .string e.activation.text),
    (str "approval", e.approval.elim .null ApprovalArtifact.toDict)]

def Envelope.toDict (e : Envelope F) : Wire F := .object e.document

section Fields

variable (e : Envelope F)

@[simp] theorem Envelope.toDict_storeId : e.toDict.get (str "store_id") = .string e.storeId := rfl

@[simp] theorem Envelope.toDict_version :
    e.toDict.get (str "version") = .number (.integer e.version) := rfl

@[simp] theorem Envelope.toDict_floors :
    e.toDict.get (str "floors") = .array (e.floors.map PriceFloor.toDict) := rfl

@[simp] theorem Envelope.toDict_maxDiscountPct :
    e.toDict.get (str "max_discount_pct") = .number (.double e.maxDiscountPct) := rfl

@[simp] theorem Envelope.toDict_budgetCap :
    e.toDict.get (str "budget_cap") = .number (.double e.budgetCap) := rfl

@[simp] theorem Envelope.toDict_pursueClusters :
    e.toDict.get (str "pursue_clusters") = .array (e.pursueClusters.map .string) := rfl

@[simp] theorem Envelope.toDict_standingCommitments :
    e.toDict.get (str "standing_commitments") = .array e.standingCommitments := rfl

@[simp] theorem Envelope.toDict_activation :
    e.toDict.get (str "activation") = .string e.activation.text := rfl

@[simp] theorem Envelope.toDict_approval :
    e.toDict.get (str "approval") = e.approval.elim .null ApprovalArtifact.toDict := rfl

end Fields
end Projection

/-! ## Validation -/

/-- How the validation library reads a number, and which documents it takes for a claim. -/
class Coercion (F : Type) where
  asInt : Wire F → Option Int
  asFloat : Wire F → Option (Extended F)
  isClaim : Wire F → Bool
  asInt_integer (n : Int) : asInt (.number (.integer n)) = some n
  asFloat_double (x : Extended F) : asFloat (.number (.double x)) = some x

/-- Exact numbers: a whole number is an integer, an integer and a boolean are numbers. -/
instance Coercion.exact : Coercion ℚ where
  asInt
    | .number (.integer n) => some n
    | .number (.double (.finite x)) => if x.den = 1 then some x.num else none
    | .bool b => some (if b then 1 else 0)
    | _ => none
  asFloat
    | .number (.integer n) => some (.finite n)
    | .number (.double x) => some x
    | .bool b => some (.finite (if b then 1 else 0))
    | _ => none
  isClaim v := v.record?.isSome
  asInt_integer _ := rfl
  asFloat_double _ := rfl

section Validation

variable {F : Type} [Format F] [Coercion F]

open Coercion

omit [Format F] [Coercion F] in
def textOf? : Wire F → Option Str
  | .string s => some s
  | _ => none

omit [Format F] [Coercion F] in
theorem textOf?_eq_some {v : Wire F} {s : Str} : textOf? v = some s ↔ v = .string s := by
  cases v <;> simp [textOf?]

omit [Format F] [Coercion F] in
def optionalTextOf? : Wire F → Option (Option Str)
  | .null => some none
  | .string s => some (some s)
  | _ => none

omit [Format F] [Coercion F] in
def itemsOf? : Wire F → Option (List (Wire F))
  | .array items => some items
  | _ => none

omit [Format F] [Coercion F] in
theorem itemsOf?_eq_some {v : Wire F} {items : List (Wire F)} :
    itemsOf? v = some items ↔ v = .array items := by
  cases v <;> simp [itemsOf?]

def atLeastZero (x : Extended F) : Option (Extended F) := if 0.0 ≤ x then some x else none

/-- `contracts.EnvelopeFloor`. -/
def floorOf? : Wire F → Option (PriceFloor F)
  | .object members => do
      guard ((Dict.keys members).all (· ∈ [str "product_ref", str "min_price"]))
      let raw : Wire F := .object members
      let productRef ← optionalTextOf? (raw.get (str "product_ref"))
      let minPrice ← atLeastZero (← asFloat (← Dict.get? members (str "min_price")))
      return { productRef, minPrice }
  | _ => none

/-- `contracts.Envelope`, of the eight fields of a document. -/
def validate? (raw : Wire F) : Option (Terms F × Activation) := do
  let storeId ← textOf? (raw.get (str "store_id"))
  guard ¬ storeId.isEmpty
  let version ← asInt (raw.get (str "version"))
  guard (0 ≤ version)
  let floors ← (← itemsOf? (raw.get (str "floors"))).mapM floorOf?
  let maxDiscountPct ← atLeastZero (← asFloat (raw.get (str "max_discount_pct")))
  guard (maxDiscountPct ≤ 100.0)
  let budgetCap ← atLeastZero (← asFloat (raw.get (str "budget_cap")))
  let pursueClusters ← (← itemsOf? (raw.get (str "pursue_clusters"))).mapM textOf?
  let standingCommitments ← itemsOf? (raw.get (str "standing_commitments"))
  guard (standingCommitments.all isClaim)
  let activation ← Activation.ofText? (← textOf? (raw.get (str "activation")))
  return ({ storeId, version, floors, maxDiscountPct, budgetCap, pursueClusters, standingCommitments },
    activation)

/-- The approval that `from_obj` is asked to carry. -/
inductive Carried (F : Type)
  | keep
  | drop
  | attach (raw : Wire F)

omit [Format F] [Coercion F] in
def resolvedApproval (raw : Wire F) : Carried F → Except EnvelopeError (Option ApprovalArtifact)
  | .keep =>
      if (raw.get (str "approval")).isNull then .ok none
      else do return some (← ApprovalArtifact.parse (raw.get (str "approval")))
  | .drop => .ok none
  | .attach raw => do return some (← ApprovalArtifact.parse raw)

/-- `Envelope.from_obj` of a mapping. -/
def Envelope.fromObj (raw : Wire F) (carried : Carried F) : Except EnvelopeError (Envelope F) :=
  match raw with
  | .object _ => do
      let approval ← resolvedApproval raw carried
      match validate? raw with
      | none => .error .invalid
      | some (terms, activation) => return { terms with activation, approval }
  | _ => .error .invalid

/-! ## An envelope read back -/

omit [Format F] [Coercion F] in
theorem mapM_recovers {α β : Type} {f : α → β} {g : β → Option α}
    (recovers : ∀ a b, g (f a) = some b → b = a) {l m : List α}
    (read : (l.map f).mapM g = some m) : m = l := by
  induction l generalizing m with
  | nil =>
      cases read
      rfl
  | cons a l ih =>
      simp only [List.map_cons, List.mapM_cons, Option.bind_eq_bind, Option.bind_eq_some_iff,
        Option.pure_def, Option.some.injEq] at read
      obtain ⟨b, first, rest, others, rfl⟩ := read
      rw [recovers a b first, ih others]

omit [Coercion F] in
theorem atLeastZero_eq_some {x y : Extended F} : atLeastZero x = some y ↔ 0.0 ≤ x ∧ x = y := by
  simp [atLeastZero]

omit [Format F] [Coercion F] in
@[simp] theorem optionalTextOf?_text? (s : Option Str) :
    optionalTextOf? (text? s : Wire F) = some s := by
  cases s <;> rfl

theorem floorOf?_toDict {f g : PriceFloor F} (read : floorOf? f.toDict = some g) : g = f := by
  have named : Dict.get? [(str "product_ref", text? f.productRef),
      (str "min_price", (.number (.double f.minPrice) : Wire F))] (str "min_price") =
      some (.number (.double f.minPrice)) := rfl
  simp only [floorOf?, PriceFloor.toDict, Option.bind_eq_bind, Option.bind_eq_some_iff, named,
    Option.some.injEq, Json.get_object, Option.pure_def] at read
  obtain ⟨-, -, reference, named, _, rfl, price, read, minPrice, bounded, rfl⟩ := read
  simp only [Dict.get?, if_true, Option.getD_some, optionalTextOf?_text?, Option.some.injEq] at named
  rw [Coercion.asFloat_double, Option.some.injEq] at read
  rw [← (atLeastZero_eq_some.mp bounded).2, ← read, ← named]

structure Validated (raw : Wire F) (terms : Terms F) (activation : Activation) : Prop where
  storeId : raw.get (str "store_id") = .string terms.storeId
  named : terms.storeId.isEmpty = false
  version : asInt (raw.get (str "version")) = some terms.version
  numbered : 0 ≤ terms.version
  floors : ∃ items, raw.get (str "floors") = .array items ∧ items.mapM floorOf? = some terms.floors
  maxDiscountPct : asFloat (raw.get (str "max_discount_pct")) = some terms.maxDiscountPct
  discounted : 0.0 ≤ terms.maxDiscountPct ∧ terms.maxDiscountPct ≤ 100.0
  budgetCap : asFloat (raw.get (str "budget_cap")) = some terms.budgetCap
  capped : 0.0 ≤ terms.budgetCap
  pursueClusters : ∃ items, raw.get (str "pursue_clusters") = .array items ∧
    items.mapM textOf? = some terms.pursueClusters
  standingCommitments : raw.get (str "standing_commitments") = .array terms.standingCommitments
  claims : terms.standingCommitments.all isClaim = true
  activation : ∃ s, raw.get (str "activation") = .string s ∧ Activation.ofText? s = some activation

theorem validate?_iff {raw : Wire F} {terms : Terms F} {activation : Activation} :
    validate? raw = some (terms, activation) ↔ Validated raw terms activation := by
  unfold validate?
  constructor
  · intro read
    obtain ⟨storeId, named, read⟩ := Option.bind_eq_some_iff.mp read
    obtain ⟨_, filled, read⟩ := Option.bind_eq_some_iff.mp read
    obtain ⟨version, numbered, read⟩ := Option.bind_eq_some_iff.mp read
    obtain ⟨_, counted, read⟩ := Option.bind_eq_some_iff.mp read
    obtain ⟨floorItems, floored, read⟩ := Option.bind_eq_some_iff.mp read
    obtain ⟨floors, walled, read⟩ := Option.bind_eq_some_iff.mp read
    obtain ⟨discount, discounted, read⟩ := Option.bind_eq_some_iff.mp read
    obtain ⟨maxDiscountPct, positive, read⟩ := Option.bind_eq_some_iff.mp read
    obtain ⟨_, bounded, read⟩ := Option.bind_eq_some_iff.mp read
    obtain ⟨budget, budgeted, read⟩ := Option.bind_eq_some_iff.mp read
    obtain ⟨budgetCap, capped, read⟩ := Option.bind_eq_some_iff.mp read
    obtain ⟨clusterItems, clustered, read⟩ := Option.bind_eq_some_iff.mp read
    obtain ⟨clusters, spelled, read⟩ := Option.bind_eq_some_iff.mp read
    obtain ⟨commitments, promised, read⟩ := Option.bind_eq_some_iff.mp read
    obtain ⟨_, claims, read⟩ := Option.bind_eq_some_iff.mp read
    obtain ⟨word, written, read⟩ := Option.bind_eq_some_iff.mp read
    obtain ⟨_, known, made⟩ := Option.bind_eq_some_iff.mp read
    cases made
    have discounted' := atLeastZero_eq_some.mp positive
    have capped' := atLeastZero_eq_some.mp capped
    exact {
      storeId := textOf?_eq_some.mp named
      named := by simpa using (Option.guard_eq_some' _).mp filled
      version := numbered
      numbered := (Option.guard_eq_some' _).mp counted
      floors := ⟨floorItems, itemsOf?_eq_some.mp floored, walled⟩
      maxDiscountPct := discounted'.2 ▸ discounted
      discounted := ⟨discounted'.2 ▸ discounted'.1, (Option.guard_eq_some' _).mp bounded⟩
      budgetCap := capped'.2 ▸ budgeted
      capped := capped'.2 ▸ capped'.1
      pursueClusters := ⟨clusterItems, itemsOf?_eq_some.mp clustered, spelled⟩
      standingCommitments := itemsOf?_eq_some.mp promised
      claims := (Option.guard_eq_some' _).mp claims
      activation := ⟨word, textOf?_eq_some.mp written, known⟩ }
  · intro read
    obtain ⟨floorItems, floored, walled⟩ := read.floors
    obtain ⟨clusterItems, clustered, spelled⟩ := read.pursueClusters
    obtain ⟨word, written, known⟩ := read.activation
    have filled : guard (¬ terms.storeId.isEmpty = true) = some () :=
      (Option.guard_eq_some' ()).mpr (by simp [read.named])
    have counted : guard (0 ≤ terms.version) = some () := (Option.guard_eq_some' ()).mpr read.numbered
    have bounded : guard (terms.maxDiscountPct ≤ 100.0) = some () :=
      (Option.guard_eq_some' ()).mpr read.discounted.2
    have claims : guard (terms.standingCommitments.all isClaim = true) = some () :=
      (Option.guard_eq_some' ()).mpr read.claims
    have positive := atLeastZero_eq_some.mpr ⟨read.discounted.1, rfl⟩
    have capped := atLeastZero_eq_some.mpr ⟨read.capped, rfl⟩
    simp only [read.storeId, textOf?, filled, read.version, counted, floored, itemsOf?, walled,
      read.maxDiscountPct, positive, bounded, read.budgetCap, capped, clustered, spelled,
      read.standingCommitments, claims, written, known, Option.bind_eq_bind, Option.bind_some,
      Option.pure_def]

theorem Validated.of_toDict {e : Envelope F} {terms : Terms F} {activation : Activation}
    (read : Validated e.toDict terms activation) : terms = e.toTerms ∧ activation = e.activation := by
  have storeId := Json.string.inj read.storeId
  have version := Option.some.inj ((Coercion.asInt_integer _).symm.trans read.version)
  have discount := Option.some.inj ((Coercion.asFloat_double _).symm.trans read.maxDiscountPct)
  have budget := Option.some.inj ((Coercion.asFloat_double _).symm.trans read.budgetCap)
  have commitments := Json.array.inj read.standingCommitments
  obtain ⟨_, listed, walled⟩ := read.floors
  cases listed
  have floors := mapM_recovers (fun _ _ => floorOf?_toDict) walled
  obtain ⟨_, listed, spelled⟩ := read.pursueClusters
  cases listed
  have cluster (a b : Str) (same : textOf? (.string a : Wire F) = some b) : b = a :=
    (Option.some.inj same).symm
  have clusters := mapM_recovers cluster spelled
  obtain ⟨_, written, known⟩ := read.activation
  cases written
  rw [Activation.ofText?_text] at known
  refine ⟨?_, (Option.some.inj known).symm⟩
  cases terms
  simp only at storeId version discount budget commitments floors clusters
  subst floors clusters
  rw [← storeId, ← version, ← discount, ← budget, ← commitments]

theorem Envelope.fromObj_eq_ok {raw : Wire F} {carried : Carried F} {e : Envelope F} :
    fromObj raw carried = .ok e ↔ resolvedApproval raw carried = .ok e.approval ∧
      raw.record?.isSome ∧ Validated raw e.toTerms e.activation := by
  rw [← validate?_iff]
  cases raw with
  | object members =>
      simp only [fromObj, bind_eq_ok]
      constructor
      · rintro ⟨approval, resolved, made⟩
        cases validated : validate? (.object members : Wire F) with
        | none =>
            rw [validated] at made
            cases made
        | some found =>
            rw [validated] at made
            cases made
            exact ⟨resolved, rfl, rfl⟩
      · rintro ⟨resolved, -, validated⟩
        exact ⟨e.approval, resolved, by rw [validated]; rfl⟩
  | _ => exact ⟨nofun, nofun⟩

theorem Envelope.fromObj_toDict {e e' : Envelope F} {carried : Carried F}
    (read : fromObj e.toDict carried = .ok e') :
    e'.toTerms = e.toTerms ∧ e'.activation = e.activation := by
  exact (fromObj_eq_ok.mp read).2.2.of_toDict

end Validation
end Proxyshop.Merchant
