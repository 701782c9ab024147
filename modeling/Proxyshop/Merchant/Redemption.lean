import Proxyshop.Contracts.Wire
import Proxyshop.Events.Store

/-!
# The redemption register

How the presentation of a code with an order is judged, against the codes issued and the redemptions
accepted so far.
-/

/-!
## Discount codes and their events

How a code is spelled, and the events of the code service, checked where they are built. NFKC and the
upper case of a text beyond ASCII are parameters.
-/

namespace Proxyshop.Merchant

open Python Numbers Contracts

/-! ## Spellings -/

section Spellings

def isFullWidth (c : CodePoint) : Bool := 0xFF01 ≤ c.val && c.val ≤ 0xFF5E

def isWideSpace (c : CodePoint) : Bool :=
  c.val == 0xA0 || (0x2000 ≤ c.val && c.val ≤ 0x200A) || c.val == 0x202F || c.val == 0x205F ||
    c.val == 0x3000

def narrow (c : CodePoint) : CodePoint :=
  if isFullWidth c then c - 0xFEE0 else if isWideSpace c then 0x20 else c

def isPlain (c : CodePoint) : Bool := c.isAscii || isFullWidth c || c.isSpace

def upperAscii (c : CodePoint) : CodePoint := if 97 ≤ c.val ∧ c.val ≤ 122 then c - 32 else c

/-- What the Unicode character database says about texts of ASCII, full-width and space characters. -/
class CodeUnicode extends Unicode where
  nfkc : Str → Str
  nfkc_plain : ∀ s : Str, s.all isPlain = true → nfkc s = s.map narrow
  upper_ascii : ∀ s : Str, s.isAscii = true → upper s = s.map upperAscii

@[reducible] def CodeUnicode.plain : CodeUnicode where
  toUnicode := Unicode.ascii
  nfkc s := s.map narrow
  nfkc_plain _ _ := rfl
  upper_ascii _ _ := rfl

def codeAlphabet : Str := str "0123456789ABCDEFGHJKMNPQRSTVWXYZ"

def codePrefix : Str := str "PSX-"

def codeBodyLength : Nat := 8

/-- `I` and `L` read as `1`, `O` reads as `0`. -/
def crockfordFold (c : CodePoint) : CodePoint :=
  if c = CodePoint.ofChar 'I' ∨ c = CodePoint.ofChar 'L' then CodePoint.ofChar '1'
  else if c = CodePoint.ofChar 'O' then CodePoint.ofChar '0' else c

def isWellFormed (code : Str) : Bool :=
  codePrefix.isPrefixOf code &&
    ((code.drop codePrefix.length).length == codeBodyLength &&
      (code.drop codePrefix.length).all fun c => c ∈ codeAlphabet)

def canonicalCode [CodeUnicode] (raw : Str) : Str :=
  (Unicode.upper ((CodeUnicode.nfkc raw).filter fun c => !c.isSpace)).map crockfordFold

end Spellings

/-! ## Events -/

/-- `LedgerEvent`, without the identifier drawn for it. -/
structure CodeEvent (F : Type) where
  kind : Str
  ts : Str
  auctionId : Option Str
  storeId : Option Str
  orderRef : Option Str
  payload : Dict Str (Wire F)

/-- `LEDGER_PAYLOAD_SHAPES`. -/
def ledgerPayloadShapes : Dict Str (List Str) :=
  [("auction_opened", ["intent_id", "cluster_id", "roster_size"]),
    ("bid_placed", ["bid_ref", "store_id", "offer"]),
    ("auction_closed", ["shortlist_size", "reason"]),
    ("shown", ["bid_ref", "slot"]),
    ("accepted", ["bid_ref", "checkout_token", "offer"]),
    ("code_created", ["code", "permalink_url", "expires_at"]),
    ("checkout_redirect", ["checkout_token", "permalink_url"]),
    ("checkout_pixel", ["checkout_token", "client_id", "total_price"]),
    ("order_paid", ["checkout_token", "order_ref", "total_price"]),
    ("order_fulfilled", ["order_ref", "fulfilled_at"]),
    ("refund", ["order_ref", "amount", "reason"]),
    ("feedback", ["matched_pitch", "reason"]),
    ("reconciled", ["price_honored", "discount_honored", "pixel_missing", "order_ref"]),
    ("claim_verified", ["claim_ref", "status", "dim"]),
    ("policy_event", ["kind", "severity", "opened_at"]),
    ("offer_integrity", ["bid_ref", "field", "promised", "observed"]),
    ("blacklisted", ["store_id", "reason_code", "source", "expires_at"]),
    ("blacklist_expired", ["store_id", "reason_code"])].map
  fun shape => (str shape.1, shape.2.map str)

def joinableKinds : List Str := [str "checkout_pixel", str "order_paid"]

def joinKeyAliases (key : Str) : List Str :=
  (Dict.get? ([("checkout_token", ["checkout_token", "checkoutToken", "token"]),
    ("order_ref", ["order_ref", "order_id", "orderId", "orderRef"]),
    ("client_id", ["client_id", "clientId"]),
    ("discount_code", ["discount_code", "discountCode", "code"])].map
      fun join => (str join.1, join.2.map str)) key).getD [key]

section Building

variable {F : Type}

/-- `_read` of the contracts: the first of the names with a value that is neither null nor empty. -/
def readKey (payload : Dict Str (Wire F)) (names : List Str) : Option (Wire F) :=
  names.findSome? fun name =>
    match Dict.get? payload name with
    | some .null | some (.string []) => none
    | value => value

/-- `validate_ledger_payload`: the published keys that the payload lacks. -/
def missingKeys (kind : Str) (payload : Dict Str (Wire F)) : List Str :=
  let expected := (Dict.get? ledgerPayloadShapes kind).getD []
  if kind ∈ joinableKinds then
    (expected ++ [str "checkout_token"]).filter fun key => (readKey payload (joinKeyAliases key)).isNone
  else expected.filter fun key => !Dict.contains payload key

/-- `build_event`. -/
def buildEvent (kind : Str) (payload : Dict Str (Wire F)) (auctionId storeId orderRef : Option Str)
    (ts : DateTime) : Except PyError (CodeEvent F) :=
  if kind ∉ Events.ledgerEventKinds then .error .valueError
  else if (missingKeys kind payload).isEmpty then
    .ok { kind, ts := ts.isoFormat (str "T"), auctionId, storeId, orderRef, payload }
  else .error .valueError

theorem buildEvent_of_published {kind : Str} (expected : List Str) {payload : Dict Str (Wire F)}
    (known : kind ∈ Events.ledgerEventKinds) (plain : kind ∉ joinableKinds)
    (shape : Dict.get? ledgerPayloadShapes kind = some expected)
    (published : ∀ key ∈ expected, key ∈ Dict.keys payload) (auctionId storeId orderRef : Option Str)
    (ts : DateTime) :
    buildEvent kind payload auctionId storeId orderRef ts
      = .ok { kind, ts := ts.isoFormat (str "T"), auctionId, storeId, orderRef, payload } := by
  have complete : (missingKeys kind payload).isEmpty = true := by
    rw [missingKeys, shape, if_neg plain, List.isEmpty_iff, List.filter_eq_nil_iff]
    intro key member
    rw [(Dict.contains_iff payload key).mpr (published key member)]
    simp
  rw [buildEvent, if_neg (not_not.mpr known), if_pos complete]

end Building
end Proxyshop.Merchant

namespace Proxyshop.Merchant

open Python Numbers Contracts

structure IssuedCode where
  code : Str
  key : Str
  storeId : Str
  usageLimit : Int
  startsAt : Option DateTime
  expiresAt : Option DateTime
  offerId : Option Str
  bidRef : Option Str
  permalinkUrl : Str

structure Redemption where
  key : Str
  orderRef : Option Str
  moment : DateTime

inductive RedemptionStatus
  | redeemed
  | refused
  | unrecognised
  deriving DecidableEq

structure RedemptionOutcome (F : Type) where
  code : Str
  status : RedemptionStatus
  orderRef : Option Str
  storeId : Option Str
  redemptionCount : Nat
  event : Option (CodeEvent F)
  detail : Str

structure RedemptionRegister (F : Type) where
  issued : Dict Str IssuedCode
  accepted : Dict Str (List Redemption)
  refused : Dict Str (List Redemption)
  ledger : List (CodeEvent F)

/-- A code presented with an order, and the instant it is judged at. -/
structure Presentation (F : Type) where
  code : Str
  order : Wire F
  moment : DateTime

section Reading

variable {F : Type}

/-- `_lookup`: the value of the first of the names that is present. -/
def lookup (source : Wire F) (names : List Str) : Wire F :=
  match source with
  | .object members => (names.findSome? fun name => Dict.get? members name).getD .null
  | _ => .null

/-- The order's identifier, which `str` of an integer raises out of. -/
def orderRef (order : Wire F) : Except PyError (Option Str) :=
  match lookup order
    ([str "admin_graphql_api_id", str "id", str "order_ref", str "order_id", str "orderId", str "name"]) with
  | .string s => .ok s.strip.nonEmpty?
  | .number (.integer n) =>
      if Wire.writableNumber (.integer n : Literal F) then .ok (some (Str.ofInt n)) else .error .valueError
  | _ => .ok none

def entryCode : Wire F → Option Str
  | .string s => some s
  | .object members =>
      match Dict.get? members (str "code") with
      | some (.string s) => some s
      | _ => none
  | _ => none

/-- `_declared_codes`. -/
def declaredCodes [CodeUnicode] (order : Wire F) : Option (List Str) :=
  match lookup order [str "discountCodes", str "discount_codes"] with
  | .array entries => some ((entries.filterMap entryCode).map canonicalCode)
  | _ => none

end Reading

/-- `t >= u`, which raises where one of them is naive. -/
def atOrAfter (t u : DateTime) : Except PyError Bool :=
  if t.offset.isSome = u.offset.isSome then .ok (u.instant ≤ t.instant) else .error .typeError

namespace RedemptionRegister

variable {F : Type}

def opened (ledger : List (CodeEvent F)) : RedemptionRegister F :=
  { issued := [], accepted := [], refused := [], ledger }

def acceptedFor (r : RedemptionRegister F) (key : Str) : List Redemption :=
  (Dict.get? r.accepted key).getD []

def refusedFor (r : RedemptionRegister F) (key : Str) : List Redemption :=
  (Dict.get? r.refused key).getD []

def issue (r : RedemptionRegister F) (issued : IssuedCode) : RedemptionRegister F × Except PyError Unit :=
  match Dict.get? r.issued issued.key with
  | some existing =>
      if existing.code ≠ issued.code then (r, .error .valueError)
      else ({ r with accepted := Dict.setDefault r.accepted issued.key []
                     refused := Dict.setDefault r.refused issued.key [] }, .ok ())
  | none => ({ r with issued := Dict.setDefault r.issued issued.key issued
                      accepted := Dict.setDefault r.accepted issued.key []
                      refused := Dict.setDefault r.refused issued.key [] }, .ok ())

/-- `_refuse`. -/
def refuse (r : RedemptionRegister F) (record : IssuedCode) (ref : Option Str) (moment : DateTime)
    (fieldName : Str) (promised observed : Wire F) (detail : Str) :
    RedemptionRegister F × Except PyError (RedemptionOutcome F) :=
  let text (s : Option Str) : Wire F := s.elim .null .string
  match buildEvent (str "offer_integrity")
      [(str "bid_ref", .string (((record.bidRef.bind Str.nonEmpty?).or
          (record.offerId.bind Str.nonEmpty?)).getD record.code)),
        (str "field", .string fieldName), (str "promised", promised), (str "observed", observed),
        (str "code", .string record.code), (str "offer_id", text record.offerId),
        (str "order_ref", text ref), (str "reason", .string detail)]
      none (some record.storeId) ref moment with
  | .error e => (r, .error e)
  | .ok event =>
      let r := { r with
        refused := Dict.set r.refused record.key
          (r.refusedFor record.key ++ [{ key := record.key, orderRef := ref, moment }])
        ledger := r.ledger ++ [event] }
      (r, .ok {
        code := record.code, status := .refused, orderRef := ref, storeId := some record.storeId
        redemptionCount := (r.acceptedFor record.key).length, event := some event, detail })

variable [CodeUnicode]

def redemptions (r : RedemptionRegister F) (code : Str) : List Redemption :=
  r.acceptedFor (canonicalCode code)

def refusals (r : RedemptionRegister F) (code : Str) : List Redemption :=
  r.refusedFor (canonicalCode code)

def onFile (accepted : List Redemption) (ref : Option Str) : Bool :=
  ref.isSome && accepted.any fun prior => prior.orderRef = ref

def accept (r : RedemptionRegister F) (record : IssuedCode) (key : Str) (ref : Option Str)
    (moment : DateTime) : RedemptionRegister F × Except PyError (RedemptionOutcome F) :=
  match record.expiresAt.elim (.ok false) (atOrAfter moment) with
  | .error e => (r, .error e)
  | .ok true =>
      let expiry : Wire F := record.expiresAt.elim .null fun t => .string (t.isoFormat (str "T"))
      r.refuse record ref moment (str "expires_at") expiry (.string (moment.isoFormat (str "T")))
        (str "the code was presented after its validity window closed")
  | .ok false =>
      let accepted := r.acceptedFor key ++ [{ key, orderRef := ref, moment }]
      ({ r with accepted := Dict.set r.accepted key accepted }, .ok {
        code := record.code, status := .redeemed, orderRef := ref, storeId := some record.storeId
        redemptionCount := accepted.length, event := none
        detail := str "the first and only redemption of this code" })

/-- The four checks on a code that was issued, in their order. -/
def judge (r : RedemptionRegister F) (record : IssuedCode) (key : Str) (ref : Option Str)
    (c : Presentation F) : RedemptionRegister F × Except PyError (RedemptionOutcome F) :=
  let r := { r with accepted := Dict.setDefault r.accepted key [] }
  let accepted := r.acceptedFor key
  let declared := declaredCodes c.order
  if declared.any fun codes => key ∉ codes then
    r.refuse record ref c.moment (str "discount_code") (.string record.code)
      (.array ((declared.getD []).map .string))
      (str "the order does not carry the code it was reported against")
  else if onFile accepted ref then
    (r, .ok {
      code := record.code, status := .redeemed, orderRef := ref, storeId := some record.storeId
      redemptionCount := accepted.length, event := none
      detail := str "a repeat delivery for an order on file" })
  else if record.usageLimit ≤ accepted.length then
    r.refuse record ref c.moment (str "usage_limit") (.number (.integer record.usageLimit))
      (.number (.integer (accepted.length + 1)))
      (str "a second order presented a code created for one")
  else r.accept record key ref c.moment

/-- `redeem`. A raise keeps what was written before it. -/
def redeem (r : RedemptionRegister F) (c : Presentation F) :
    RedemptionRegister F × Except PyError (RedemptionOutcome F) :=
  let key := canonicalCode c.code
  match orderRef c.order with
  | .error e => (r, .error e)
  | .ok ref =>
      match Dict.get? r.issued key with
      | none => (r, .ok {
          code := c.code, status := .unrecognised, orderRef := ref, storeId := none
          redemptionCount := 0, event := none, detail := str "this service did not mint that code" })
      | some record => r.judge record key ref c

inductive Operation (F : Type)
  | issue (issued : IssuedCode)
  | redeem (c : Presentation F)

def step (r : RedemptionRegister F) : Operation F → RedemptionRegister F
  | .issue issued => (r.issue issued).1
  | .redeem c => (r.redeem c).1

def after (r : RedemptionRegister F) (operations : List (Operation F)) : RedemptionRegister F :=
  operations.foldl step r

end RedemptionRegister
end Proxyshop.Merchant
