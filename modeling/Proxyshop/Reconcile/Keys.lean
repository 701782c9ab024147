import Proxyshop.Python.Value
import Proxyshop.Python.Escape

/-!
# Join keys

What one checkout event can be joined on: identifiers, discount codes and the store that scopes
both. A composed key is a text; the escapes keep its components apart.
-/

namespace Proxyshop.Reconcile

open Python

inductive Kind
  | accepted
  | checkoutPixel
  | orderPaid
  | orderFulfilled
  | codeCreated
  | checkoutRedirect
  deriving DecidableEq

def Kind.name : Kind → Str
  | .accepted => str "accepted"
  | .checkoutPixel => str "checkout_pixel"
  | .orderPaid => str "order_paid"
  | .orderFulfilled => str "order_fulfilled"
  | .codeCreated => str "code_created"
  | .checkoutRedirect => str "checkout_redirect"

def Kind.ofName? (name : Str) : Option Kind :=
  [.accepted, .checkoutPixel, .orderPaid, .orderFulfilled, .codeCreated, .checkoutRedirect].find?
    fun kind : Kind => kind.name = name

/-- `CODE_BRIDGE_KINDS`. -/
def Kind.isBridge : Kind → Bool
  | .codeCreated | .checkoutRedirect => true
  | _ => false

/-- `_CODE_BEARING_KINDS`. -/
def Kind.bearsCodes : Kind → Bool
  | .accepted | .orderPaid | .codeCreated | .checkoutRedirect => true
  | _ => false

/-- The kinds whose events say which store an identifier belongs to. -/
def Kind.votes (kind : Kind) : Bool := !kind.isBridge && kind ≠ .orderFulfilled

def payload (event : Record) : Record := (event.get (str "payload")).mapping

/-! ## Escapes -/

def scopeSeparator : CodePoint := 0x1f

def keyEscapes : Escape := ⟨scopeSeparator, CodePoint.ofChar '1', CodePoint.ofChar 'F', by decide⟩

def keyComponent (value : Str) : Str := keyEscapes.encode value

def keyComponentDecoded (value : Str) : Str := keyEscapes.decode value

def idSeparator : CodePoint := CodePoint.ofChar ':'

def idEscapes : Escape := ⟨idSeparator, CodePoint.ofChar '3', CodePoint.ofChar 'A', by decide⟩

def codeNamespace : Str := str "discount_code"

def tokenNamespace : Str := str "checkout_token"

def namespaced (space value : Str) : Str := space ++ scopeSeparator :: keyComponent value

def codeKey (code : Str) : Str := namespaced codeNamespace code

def scopedKey (scope key : Str) : Str := keyComponent scope ++ scopeSeparator :: key

def scopedKeys (keys : List Str) (scope : Str) : List Str := keys.map (scopedKey scope)

section Keys

variable [Unicode]

def idComponent (value : Value) : Str := idEscapes.encode (if value.isNone then [] else value.toStr)

/-- The values that are neither missing nor blank, stripped. -/
def stated (candidates : List Value) : List Str := (candidates.map Value.text).filter (· ≠ [])

def kindOf (event : Record) : Option Kind :=
  Kind.ofName? ((Dict.get? event (str "kind")).getD (.str [])).toStr

def joinKeys (event : Record) : List Str :=
  ((stated [(payload event).get (str "checkout_token"), event.get (str "order_ref"),
    (payload event).get (str "order_ref"), (payload event).get (str "order_id")]).map
      keyComponent).eraseDups

def tokenKey (event : Record) : List Str :=
  (stated [(payload event).get (str "checkout_token")]).map (namespaced tokenNamespace)

def bridgeKeys (event : Record) : List Str := tokenKey event

def fulfilmentKeys (event : Record) : List Str :=
  ((stated [event.get (str "order_ref"), (payload event).get (str "order_ref"),
    (payload event).get (str "order_id")]).map keyComponent).take 1

def identifiersOf (kind : Kind) (event : Record) : List Str :=
  if kind.isBridge then bridgeKeys event
  else if kind = .orderFulfilled then fulfilmentKeys event
  else joinKeys event ++ tokenKey event

def unjoinableWebhook (event : Record) : Bool :=
  decide (kindOf event = some .orderPaid) && (joinKeys event).isEmpty

def storeOf (event : Record) : Option Str :=
  Str.nonEmpty? ((event.get (str "store_id")).or ((payload event).get (str "store_id"))).text

/-! ## Discount codes -/

def codeScalarAliases : List Str := [str "discount_code", str "discountCode", str "code"]

def codeListAliases : List Str :=
  [str "discount_codes", str "discountCodes", str "discountApplications", str "discount_applications"]

def maxCodeLength : Nat := 255

def keepCode (value : Value) : Option Str :=
  value.asStr?.bind fun s =>
    let text := Unicode.upper s.strip
    if text.isEmpty ∨ maxCodeLength < text.length then none else some text

def scalarCodes (record : Record) : List Str :=
  codeScalarAliases.filterMap fun name => keepCode (record.get name)

def listed : Value → List Value
  | .list items => items
  | _ => []

def entryCodes : Value → List Str
  | .dict entry => scalarCodes entry
  | value => (keepCode value).toList

def discountCodesOf (event : Record) : List Str :=
  (scalarCodes (payload event) ++ codeListAliases.flatMap fun name =>
    (listed ((payload event).get name)).flatMap entryCodes).eraseDups

end Keys

/-! ## Composed keys come apart -/

@[simp] theorem keyComponentDecoded_keyComponent (value : Str) :
    keyComponentDecoded (keyComponent value) = value := keyEscapes.decode_encode value

theorem separator_notMem_keyComponent (value : Str) : scopeSeparator ∉ keyComponent value :=
  keyEscapes.separator_notMem_encode value

@[simp] theorem scopedKey_inj {scope scope' key key' : Str} :
    scopedKey scope key = scopedKey scope' key' ↔ scope = scope' ∧ key = key' := keyEscapes.join_inj

theorem mem_scopedKeys {keys : List Str} {scope k : Str} :
    k ∈ scopedKeys keys scope ↔ ∃ key ∈ keys, scopedKey scope key = k := List.mem_map

theorem codeKey_ne_keyComponent (code value : Str) : codeKey code ≠ keyComponent value := by
  intro same
  apply separator_notMem_keyComponent value
  rw [← same, codeKey, namespaced]
  exact List.mem_append_right _ List.mem_cons_self

theorem codeKey_ne_token (code value : Str) : codeKey code ≠ namespaced tokenNamespace value := by
  intro same
  rw [codeKey, namespaced, namespaced,
    Escape.append_separator_inj (by decide : scopeSeparator ∉ codeNamespace)
      (by decide : scopeSeparator ∉ tokenNamespace)] at same
  exact absurd same.1 (by decide)

section Spelling

variable [Unicode]

theorem mem_stated {candidates : List Value} {s : Str} :
    s ∈ stated candidates ↔ ∃ value ∈ candidates, value.text = s ∧ s ≠ [] := by
  simp only [stated, List.mem_filter, List.mem_map, decide_eq_true_eq]
  exact ⟨fun ⟨⟨v, member, text⟩, solid⟩ => ⟨v, member, text, solid⟩,
    fun ⟨v, member, text, solid⟩ => ⟨⟨v, member, text⟩, solid⟩⟩

theorem mem_joinKeys {event : Record} {key : Str} : key ∈ joinKeys event ↔
    ∃ s ∈ stated [(payload event).get (str "checkout_token"), event.get (str "order_ref"),
      (payload event).get (str "order_ref"), (payload event).get (str "order_id")],
      keyComponent s = key := by
  rw [joinKeys, List.mem_eraseDups, List.mem_map]

theorem identifier_shape {kind : Kind} {event : Record} {key : Str}
    (member : key ∈ identifiersOf kind event) :
    ∃ value, key = keyComponent value ∨ key = namespaced tokenNamespace value := by
  have token : ∀ {key}, key ∈ tokenKey event → ∃ value, key = namespaced tokenNamespace value := by
    intro key member
    obtain ⟨value, -, same⟩ := List.mem_map.mp member
    exact ⟨value, same.symm⟩
  unfold identifiersOf at member
  split at member
  · obtain ⟨value, same⟩ := token member
    exact ⟨value, Or.inr same⟩
  · split at member
    · obtain ⟨value, -, same⟩ := List.mem_map.mp (List.mem_of_mem_take member)
      exact ⟨value, Or.inl same.symm⟩
    · rcases List.mem_append.mp member with join | own
      · obtain ⟨value, -, same⟩ := mem_joinKeys.mp join
        exact ⟨value, Or.inl same.symm⟩
      · obtain ⟨value, same⟩ := token own
        exact ⟨value, Or.inr same⟩

theorem identifier_ne_codeKey {kind : Kind} {event : Record} {key : Str}
    (member : key ∈ identifiersOf kind event) (code : Str) : key ≠ codeKey code := by
  obtain ⟨value, rfl | rfl⟩ := identifier_shape member
  · exact (codeKey_ne_keyComponent code value).symm
  · exact (codeKey_ne_token code value).symm

theorem identifiersOf_orderPaid (event : Record) :
    identifiersOf .orderPaid event = joinKeys event ++ tokenKey event := rfl

theorem identifiersOf_orderPaid_eq_nil {event : Record} :
    identifiersOf .orderPaid event = [] ↔ joinKeys event = [] := by
  rw [identifiersOf_orderPaid, List.append_eq_nil_iff]
  refine ⟨And.left, fun none => ⟨none, ?_⟩⟩
  rw [List.eq_nil_iff_forall_not_mem] at none ⊢
  intro key member
  obtain ⟨value, named, -⟩ := List.mem_map.mp member
  obtain ⟨candidate, only, text, solid⟩ := mem_stated.mp named
  rw [List.mem_singleton] at only
  refine none _ (mem_joinKeys.mpr ⟨value, mem_stated.mpr ⟨candidate, ?_, text, solid⟩, rfl⟩)
  rw [only]
  exact List.mem_cons_self

end Spelling

end Proxyshop.Reconcile
