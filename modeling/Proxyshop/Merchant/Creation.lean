import Proxyshop.Merchant.Combining
import Proxyshop.Merchant.Offers
import Proxyshop.Merchant.Redemption
import Proxyshop.Python.Calendar

/-!
# The creation of a discount code

Everything that can refuse an offer, and then the mutation, the permalink, the register and the ledger. A
failure of these four is recorded as an orphaned code.
-/

namespace Proxyshop.Merchant

open Python Numbers Contracts Structures
open Verification (Spelling textOf reprOf)

/-! ## The permalink -/

def isUnreserved (n : Nat) : Bool :=
  (48 ≤ n && n ≤ 57) || (65 ≤ n && n ≤ 90) || (97 ≤ n && n ≤ 122) || n = 45 || n = 46 || n = 95 || n = 126

def hexDigit (n : Nat) : CodePoint := CodePoint.ofChar (Nat.digitChar n).toUpper

def quoteByte (b : UInt8) : Str :=
  if isUnreserved b.toNat then [CodePoint.ofChar (Char.ofNat b.toNat)]
  else [CodePoint.ofChar '%', hexDigit (b.toNat / 16), hexDigit (b.toNat % 16)]

/-- `quote(text, safe="")`, which encodes no lone surrogate. -/
def quote (text : Str) : Except PyError Str :=
  text.encodeUtf8.elim (.error .valueError) fun bytes => .ok (bytes.flatMap quoteByte)

theorem quote_returns {text : Str} : (∃ quoted, quote text = .ok quoted) ↔ text.encodeUtf8.isSome = true := by
  unfold quote
  cases text.encodeUtf8 <;> simp

theorem encodeUtf8_of_ascii {s : Str} (ascii : s.isAscii = true) : s.encodeUtf8.isSome = true := by
  rw [Str.encodeUtf8, Option.isSome_map]
  induction s with
  | nil => rfl
  | cons c s ih =>
      rw [Str.isAscii, List.all_cons, Bool.and_eq_true] at ascii
      have valid : c.val.isValidChar := Or.inl (by
        have low : c.val < 128 := by simpa [CodePoint.isAscii] using ascii.1
        omega)
      obtain ⟨chars, rest⟩ := Option.isSome_iff_exists.mp (ih ascii.2)
      rw [List.mapM_cons, CodePoint.toChar?, dif_pos valid, rest]
      rfl

def buildCartPermalink (shopDomain code : Str) (variantId : Option Str) (quantity : Int) :
    Except PyError Str := do
  let discount ← quote code
  match variantId with
  | none => return str "https://" ++ shopDomain ++ str "/cart?discount=" ++ discount
  | some id =>
      return str "https://" ++ shopDomain ++ str "/cart/" ++ (← quote id) ++ str ":" ++ Str.ofInt quantity ++
        str "?discount=" ++ discount

/-! ## What is minted -/

/-- `mint_code`, of the characters that are drawn. -/
def mintCode (drawn : Fin codeBodyLength → Fin codeAlphabet.length) : Str :=
  codePrefix ++ List.ofFn fun i => codeAlphabet.get (drawn i)

theorem quote_mintCode (drawn : Fin codeBodyLength → Fin codeAlphabet.length) :
    ∃ quoted, quote (mintCode drawn) = .ok quoted := by
  have alphabet : codeAlphabet.all CodePoint.isAscii = true := by decide
  have start : codePrefix.all CodePoint.isAscii = true := by decide
  rw [quote_returns]
  apply encodeUtf8_of_ascii
  rw [Str.isAscii, mintCode, List.all_append, start, Bool.true_and, List.all_eq_true]
  intro c drawn
  obtain ⟨i, rfl⟩ := (List.mem_ofFn' _ _).mp drawn
  exact List.all_eq_true.mp alphabet _ (List.get_mem _ _)

def usageLimit : Int := 1

def codeCombinesWith : List (Str × Bool) :=
  [(str "orderDiscounts", true), (str "productDiscounts", true), (str "shippingDiscounts", true)]

/-- What `customerGets.value` states. -/
inductive DiscountValue (F : Type)
  | percentage (fraction : Extended F)
  | discountAmount (amount : Option F)

/-- `DiscountCodeBasicInput`; without a variant the discount is on all items. -/
structure BasicCodeDiscount (F : Type) where
  code : Str
  title : Str
  startsAt : Str
  endsAt : Str
  usageLimit : Int
  appliesOncePerCustomer : Bool
  value : DiscountValue F
  productVariantsToAdd : Option Str
  combinesWith : List (Str × Bool)
  tags : Option Str

structure CreatedCode (F : Type) where
  code : Str
  permalinkUrl : Str
  expiresAt : Str
  startsAt : Str
  storeId : Str
  usageLimit : Int
  discountPct : Option F
  offerId : Option Str
  bidRef : Option Str
  variantId : Option Str
  quantity : Int
  event : CodeEvent F

def CreatedCode.toContract {F : Type} (created : CreatedCode F) : List (Str × Str) :=
  [(str "code", created.code), (str "permalink_url", created.permalinkUrl), (str "expires_at", created.expiresAt)]

inductive CreateError
  | offer (e : OfferError)
  | combinesWithConflict
  | shopConfigurationUnavailable
  | codeCreationRefused
  | discountCodeRefused
  /-- What the client raises: an `Exception`, or one that is none. -/
  | client
  | aborted
  | python (e : PyError)
  deriving DecidableEq

/-! ## The variant -/

/-- The variant that a mutation is for and the variant in a permalink are one, or there is none. -/
def SameVariant : Option Str → Option Str → Prop
  | none, none => True
  | some gid, some id => gid = variantGidPrefix ++ id
  | _, _ => False

/-- The spelling of a variant that is a bare identifier, or the identifier of a variant in full. -/
def PlainVariant (text : Str) : Prop :=
  slash ∉ text ∨ ∃ id, slash ∉ id ∧ text = variantGidPrefix ++ id

theorem slash_not_mem_lastSegment (text : Str) : slash ∉ lastSegment text := by
  intro member
  have other := List.mem_rtakeWhile_imp member
  simp at other

theorem lastSegment_eq_self {text : Str} : lastSegment text = text ↔ slash ∉ text := by
  rw [lastSegment, List.rtakeWhile_eq_self_iff]
  simp only [decide_eq_true_eq]
  exact ⟨fun all member => all _ member rfl, fun absent c member same => absent (same ▸ member)⟩

theorem lastSegment_append {id : Str} (plain : slash ∉ id) : lastSegment (variantGidPrefix ++ id) = id := by
  have whole : id.reverse.takeWhile (fun c => decide (c ≠ slash)) = id.reverse := by
    rw [List.takeWhile_eq_self_iff]
    intro c member
    rw [decide_eq_true_eq]
    rintro rfl
    exact plain (List.mem_reverse.mp member)
  have none : variantGidPrefix.reverse.takeWhile (fun c => decide (c ≠ slash)) = [] := by decide
  rw [lastSegment, List.rtakeWhile, List.reverse_append, List.takeWhile_append, whole, if_pos rfl, none,
    List.append_nil, List.reverse_reverse]

theorem plainVariant_iff (text : Str) :
    (if gidScheme.isPrefixOf text then text else variantGidPrefix ++ text) = variantGidPrefix ++ lastSegment text ↔
      PlainVariant text := by
  split
  · rename_i full
    have slashed : slash ∈ text := by
      obtain ⟨rest, rfl⟩ := List.isPrefixOf_iff_prefix.mp full
      exact List.mem_append_left _ (by decide)
    constructor
    · exact fun same => Or.inr ⟨_, slash_not_mem_lastSegment text, same⟩
    · rintro (bare | ⟨id, plain, rfl⟩)
      · exact absurd slashed bare
      · rw [lastSegment_append plain]
  · rename_i bare
    rw [List.append_cancel_left_eq, eq_comm, lastSegment_eq_self, PlainVariant]
    constructor
    · exact Or.inl
    · rintro (plain | ⟨id, -, rfl⟩)
      · exact plain
      · refine absurd ?_ bare
        rw [List.isPrefixOf_iff_prefix]
        exact ⟨variantGidPrefix.drop gidScheme.length ++ id, by rw [← List.append_assoc]; rfl⟩

/-! ## The Admin client -/

inductive AdminCall (F : Type)
  | configuration
  | mutation (input : BasicCodeDiscount F)

inductive Reply (F : Type)
  | response (v : Wire F)
  | raised
  | aborted

/-- A client: what its attribute `execute` does, if that can be called, and what it does itself. -/
structure AdminClient (F : Type) where
  execute : Option (AdminCall F → Reply F)
  call : Option (AdminCall F → Reply F)

/-- The texts that the validation of an event takes for an identifier. -/
class EventTexts where
  accepts : Str → Bool

structure CodeState (F : Type) where
  register : RedemptionRegister F
  ledger : List (CodeEvent F)

/-- What a call leaves behind: the mutation that was sent, if any, and what it returned or raised. -/
structure Creation (F : Type) where
  state : CodeState F
  sent : Option (BasicCodeDiscount F)
  outcome : Except CreateError (CreatedCode F)

section Creating

variable {F : Type} [Format F]

/-- `_data_block`. -/
def dataBlock (response : Wire F) : Wire F :=
  match response.get (str "data") with
  | .object members => .object members
  | _ => response

/-- `read_shop_discount_configuration`, unless a configuration is supplied. -/
def configurationOf (client : AdminClient F) :
    Option ShopDiscountConfiguration → Except CreateError ShopDiscountConfiguration
  | some config => .ok config
  | none =>
      match client.execute with
      | none => .error .shopConfigurationUnavailable
      | some execute =>
          match execute .configuration with
          | .raised => .error .shopConfigurationUnavailable
          | .aborted => .error .aborted
          | .response v =>
              let config := parseShopDiscountConfiguration (dataBlock v)
              if config.combinesWith.isNone && !config.automaticDiscountsKnown then
                .error .shopConfigurationUnavailable
              else .ok config

/-- `_user_errors`: the list under the first error key, no more than four mappings deep. -/
def userErrorsWithin : Nat → Wire F → List (Wire F)
  | n+1, .object members =>
      match [str "userErrors", str "user_errors"].findSome? fun key => Dict.get? members key with
      | some (.array errors) => errors
      | some _ => []
      | none =>
          match [str "data", str "discountCodeBasicCreate"].findSome? fun key => Dict.get? members key with
          | some node => userErrorsWithin n node
          | none => []
  | _, _ => []

def userErrors (response : Wire F) : List (Wire F) := userErrorsWithin 4 response

/-- `_text`. -/
def textField (offer : Wire F) : List Str → Except OfferError (Option Str)
  | [] => .ok none
  | name :: names =>
      match offer.get name with
      | .string s => if s.strip.isEmpty then textField offer names else .ok (some s.strip)
      | .number (.integer n) =>
          if Wire.writableNumber (.integer n : Literal F) then .ok (some (Str.ofInt n))
          else .error (.python .valueError)
      | _ => textField offer names

variable [EventTexts]

def storeEvent (kind : Str) (payload : Dict Str (Wire F)) (auctionId : Option Str) (storeId : Str)
    (moment : DateTime) : Except PyError (CodeEvent F) :=
  if auctionId.all EventTexts.accepts && EventTexts.accepts storeId then
    buildEvent kind payload auctionId (some storeId) none moment
  else .error .valueError

variable [Spelling F] [CodeUnicode] [Decimals F] [Hosts]

/-! ## Before the mint -/

structure Ready (F : Type) where
  shopDomain : Str
  endsAt : DateTime
  quantity : Int
  variantId : Option Str
  variantGid : Option Str
  discount : OfferDiscount F
  offerId : Option Str
  bidRef : Option Str
  auctionId : Option Str

def offerIdNames : List Str := [str "offer_id", str "offerId", str "id"]

def prepare (storeId : Str) (offer : Wire F) (moment : DateTime) : Except OfferError (Ready F) :=
  if moment.offset.isNone then .error .unusable
  else do
    assertOfferIsMintable storeId offer moment
    let shopDomain ← shopDomainFor storeId offer
    let endsAt ← codeExpiry moment offer
    let quantity ← offerQuantity offer
    let variantId ← offerVariantId offer
    let variantGid ← offerVariantGid offer
    let discount ← offerDiscount offer
    assertDiscountMatchesPrices offer discount
    let offerId ← textField offer offerIdNames
    let bidRef ← textField offer [str "bid_ref", str "bidRef", str "bid_id"]
    let auctionId ← textField offer [str "auction_id", str "auctionId"]
    return { shopDomain, endsAt, quantity, variantId, variantGid, discount, offerId, bidRef, auctionId }

def Ready.discountClass (ready : Ready F) : DiscountClass :=
  if ready.variantGid.isSome then .product else .order

def describeConfiguration (config : ShopDiscountConfiguration) : Wire F :=
  let flag (b : Option Bool) : Wire F := b.elim .null .bool
  .object [(str "source", .string config.source),
    (str "combines_with", config.combinesWith.elim .null fun policy => .object [
      (str "orderDiscounts", flag policy.orderDiscounts), (str "productDiscounts", flag policy.productDiscounts),
      (str "shippingDiscounts", flag policy.shippingDiscounts)]),
    (str "active_automatic_discounts", .array (config.automaticDiscounts.map .string)),
    (str "has_active_automatic_discount", flag config.hasActiveAutomaticDiscount)]

def textOrNull (s : Option Str) : Wire F := s.elim .null .string

/-- `_record_conflict`, with what is then raised. -/
def recordConflict (s : CodeState F) (storeId : Str) (ready : Ready F) (config : ShopDiscountConfiguration)
    (moment : DateTime) : CodeState F × CreateError :=
  match storeEvent (str "offer_integrity")
      [(str "bid_ref", .string (((ready.bidRef.bind Str.nonEmpty?).or (ready.offerId.bind Str.nonEmpty?)).getD
          storeId)),
        (str "field", .string (str "combines_with")),
        (str "promised", ready.discount.percent.elim .null fun x => .number (.double (.finite x))),
        (str "observed", describeConfiguration config), (str "offer_id", textOrNull ready.offerId),
        (str "discount_class", .string (match ready.discountClass with
          | .product => str "product"
          | .order => str "order")),
        (str "reason", .string (str "the shop's live automatic discounts do not combine with this one")),
        (str "minted", .bool false)]
      ready.auctionId storeId moment with
  | .error e => (s, .python e)
  | .ok event => ({ s with ledger := s.ledger ++ [event] }, .combinesWithConflict)

/-! ## The mint -/

def mutationVariables (code : Str) (startsAt endsAt : DateTime) (offer : Wire F) (offerId : Option Str) :
    Except OfferError (BasicCodeDiscount F) := do
  let discount ← offerDiscount offer
  let variantGid ← offerVariantGid offer
  let percentage ← discount.shopifyPercentage
  return {
    code
    title := str "ProxyShop " ++ code
    startsAt := startsAt.isoFormat (str "T")
    endsAt := endsAt.isoFormat (str "T")
    usageLimit := usageLimit
    appliesOncePerCustomer := true
    value := percentage.elim (.discountAmount discount.amount) .percentage
    productVariantsToAdd := variantGid
    combinesWith := codeCombinesWith
    tags := (offerId.bind Str.nonEmpty?).map fun id => str "offer:" ++ id }

/-- `_execute`: the mutation that is sent, if any, and what comes of it. -/
def sendMutation (client : AdminClient F) (code : Str) (startsAt endsAt : DateTime) (offer : Wire F) :
    Option (BasicCodeDiscount F) × Except CreateError (Wire F) :=
  let built : Except OfferError (BasicCodeDiscount F) := do
    let offerId ← textField offer offerIdNames
    mutationVariables code startsAt endsAt offer offerId
  match built with
  | .error e => (none, .error (.offer e))
  | .ok input =>
      match client.execute.or client.call with
      | none => (none, .error .codeCreationRefused)
      | some execute =>
          match execute (.mutation input) with
          | .response v => (some input, .ok v)
          | .raised => (some input, .error .client)
          | .aborted => (some input, .error .aborted)

def createdPayload (code permalinkUrl : Str) (moment : DateTime) (ready : Ready F) : Dict Str (Wire F) :=
  [(str "code", .string code), (str "permalink_url", .string permalinkUrl),
    (str "expires_at", .string (ready.endsAt.isoFormat (str "T"))), (str "offer_id", textOrNull ready.offerId),
    (str "bid_ref", textOrNull ready.bidRef), (str "usage_limit", .number (.integer usageLimit)),
    (str "starts_at", .string (moment.isoFormat (str "T"))),
    (str "combines_with", .object (codeCombinesWith.map fun flag => (flag.1, .bool flag.2))),
    (str "minted_by", .string (str "merchant"))]

def orphanedPayload (code permalinkUrl : Str) (ready : Ready F) : Dict Str (Wire F) :=
  [(str "code", .string code), (str "permalink_url", .string permalinkUrl),
    (str "expires_at", .string (ready.endsAt.isoFormat (str "T"))), (str "orphaned", .bool true),
    (str "revocation_required", .bool true), (str "offer_id", textOrNull ready.offerId),
    (str "bid_ref", textOrNull ready.bidRef), (str "minted_by", .string (str "merchant"))]

structure Attempt (F : Type) where
  sent : Option (BasicCodeDiscount F)
  permalinkUrl : Str
  state : CodeState F
  outcome : Except CreateError (CreatedCode F)

def issuedCode (storeId code permalinkUrl : Str) (moment : DateTime) (ready : Ready F) : IssuedCode where
  code := code
  key := canonicalCode code
  storeId := storeId
  usageLimit := usageLimit
  startsAt := some moment
  expiresAt := some ready.endsAt
  offerId := ready.offerId
  bidRef := ready.bidRef
  permalinkUrl := permalinkUrl

def mintAttempt (client : AdminClient F) (code : Str) (moment : DateTime) (s : CodeState F) (storeId : Str)
    (offer : Wire F) (ready : Ready F) : Attempt F :=
  match sendMutation client code moment ready.endsAt offer with
  | (sent, .error e) => { sent, permalinkUrl := [], state := s, outcome := .error e }
  | (sent, .ok response) =>
      if !(userErrors response).isEmpty then
        -- the message spells the errors out
        { sent, permalinkUrl := [], state := s
          outcome := .error (match reprOf (.array (userErrors response) : Wire F) with
            | .ok _ => .discountCodeRefused
            | .error e => .python e) }
      else
        match buildCartPermalink ready.shopDomain code ready.variantId ready.quantity with
        | .error e => { sent, permalinkUrl := [], state := s, outcome := .error (.python e) }
        | .ok permalinkUrl =>
            match s.register.issue (issuedCode storeId code permalinkUrl moment ready) with
            | (register, .error e) =>
                { sent, permalinkUrl, state := { s with register }, outcome := .error (.python e) }
            | (register, .ok ()) =>
                match storeEvent (str "code_created") (createdPayload code permalinkUrl moment ready)
                  ready.auctionId storeId moment with
                | .error e => { sent, permalinkUrl, state := { s with register }, outcome := .error (.python e) }
                | .ok event =>
                    { sent, permalinkUrl
                      state := { register, ledger := s.ledger ++ [event] }
                      outcome := .ok {
                        code, permalinkUrl
                        expiresAt := ready.endsAt.isoFormat (str "T")
                        startsAt := moment.isoFormat (str "T")
                        storeId
                        usageLimit := usageLimit
                        discountPct := ready.discount.percent
                        offerId := ready.offerId
                        bidRef := ready.bidRef
                        variantId := ready.variantId
                        quantity := ready.quantity
                        event } }

/-- What the handler of the guarded region does: an `Exception` is raised again after the orphan is
recorded. -/
def recordOrphan (code : Str) (moment : DateTime) (storeId : Str) (ready : Ready F) (a : Attempt F) :
    Creation F :=
  match a.outcome with
  | .ok created => { state := a.state, sent := a.sent, outcome := .ok created }
  | .error .aborted => { state := a.state, sent := a.sent, outcome := .error .aborted }
  | .error e =>
      match storeEvent (str "code_created") (orphanedPayload code a.permalinkUrl ready) ready.auctionId storeId
        moment with
      | .error raised => { state := a.state, sent := a.sent, outcome := .error (.python raised) }
      | .ok event =>
          { state := { a.state with ledger := a.state.ledger ++ [event] }, sent := a.sent, outcome := .error e }

/-- `create_code`, of the code that is drawn. -/
def createCode (client : AdminClient F) (shopConfig : Option ShopDiscountConfiguration) (code : Str)
    (moment : DateTime) (s : CodeState F) (storeId : Str) (offer : Wire F) : Creation F :=
  let refused (e : CreateError) : Creation F := { state := s, sent := none, outcome := .error e }
  match prepare storeId offer moment with
  | .error e => refused (.offer e)
  | .ok ready =>
      match configurationOf client shopConfig with
      | .error e => refused e
      | .ok config =>
          match combinesWithVerdict config ready.discountClass with
          | .conflict =>
              let (state, e) := recordConflict s storeId ready config moment
              { state, sent := none, outcome := .error e }
          | .unknown => refused .shopConfigurationUnavailable
          | .clear => recordOrphan code moment storeId ready (mintAttempt client code moment s storeId offer ready)

/-! ## What is read before the mint -/

omit [EventTexts] in
theorem assertOfferIsMintable_ok {storeId : Str} {offer : Wire F} {moment : DateTime}
    (passed : assertOfferIsMintable storeId offer moment = .ok ()) :
    ∃ discount percentage, offerDiscount offer = .ok discount ∧ discount.shopifyPercentage = .ok percentage := by
  unfold assertOfferIsMintable at passed
  obtain ⟨_, -, passed⟩ := bind_eq_ok.mp passed
  obtain ⟨_, -, passed⟩ := bind_eq_ok.mp passed
  obtain ⟨_, -, passed⟩ := bind_eq_ok.mp passed
  obtain ⟨_, -, passed⟩ := bind_eq_ok.mp passed
  obtain ⟨discount, read, passed⟩ := bind_eq_ok.mp passed
  obtain ⟨_, -, passed⟩ := bind_eq_ok.mp passed
  obtain ⟨percentage, converted, -⟩ := bind_eq_ok.mp passed
  exact ⟨discount, percentage, read, converted⟩

structure Ready.Reads (ready : Ready F) (offer : Wire F) (moment : DateTime) : Prop where
  aware : moment.offset.isSome = true
  endsAt : codeExpiry moment offer = .ok ready.endsAt
  variantId : offerVariantId offer = .ok ready.variantId
  variantGid : offerVariantGid offer = .ok ready.variantGid
  discount : offerDiscount offer = .ok ready.discount
  percentage : ∃ p, ready.discount.shopifyPercentage = .ok p
  offerId : textField offer offerIdNames = .ok ready.offerId

omit [EventTexts] in
theorem prepare_ok {storeId : Str} {offer : Wire F} {moment : DateTime} {ready : Ready F}
    (prepared : prepare storeId offer moment = .ok ready) : ready.Reads offer moment := by
  unfold prepare at prepared
  split at prepared
  · cases prepared
  rename_i aware
  obtain ⟨_, passed, prepared⟩ := bind_eq_ok.mp prepared
  obtain ⟨discount, percentage, read, converted⟩ := assertOfferIsMintable_ok passed
  obtain ⟨shopDomain, -, prepared⟩ := bind_eq_ok.mp prepared
  obtain ⟨endsAt, ends, prepared⟩ := bind_eq_ok.mp prepared
  obtain ⟨quantity, -, prepared⟩ := bind_eq_ok.mp prepared
  obtain ⟨variantId, id, prepared⟩ := bind_eq_ok.mp prepared
  obtain ⟨variantGid, gid, prepared⟩ := bind_eq_ok.mp prepared
  obtain ⟨again, read', prepared⟩ := bind_eq_ok.mp prepared
  obtain ⟨_, -, prepared⟩ := bind_eq_ok.mp prepared
  obtain ⟨offerId, offered, prepared⟩ := bind_eq_ok.mp prepared
  obtain ⟨bidRef, -, prepared⟩ := bind_eq_ok.mp prepared
  obtain ⟨auctionId, -, prepared⟩ := bind_eq_ok.mp prepared
  cases prepared
  rw [read] at read'
  cases read'
  exact ⟨by simpa [Option.isSome_iff_ne_none] using aware, ends, id, gid, read, ⟨percentage, converted⟩, offered⟩

def Ready.mutation (ready : Ready F) (code : Str) (moment : DateTime) (percentage : Option (Extended F)) :
    BasicCodeDiscount F where
  code := code
  title := str "ProxyShop " ++ code
  startsAt := moment.isoFormat (str "T")
  endsAt := ready.endsAt.isoFormat (str "T")
  usageLimit := usageLimit
  appliesOncePerCustomer := true
  value := percentage.elim (.discountAmount ready.discount.amount) .percentage
  productVariantsToAdd := ready.variantGid
  combinesWith := codeCombinesWith
  tags := (ready.offerId.bind Str.nonEmpty?).map fun id => str "offer:" ++ id

omit [EventTexts] [Decimals F] [Hosts] in
theorem sendMutation_eq {ready : Ready F} {offer : Wire F} {moment : DateTime} (reads : ready.Reads offer moment)
    {p : Option (Extended F)} (converted : ready.discount.shopifyPercentage = .ok p) (client : AdminClient F)
    (code : Str) : sendMutation client code moment ready.endsAt offer =
      match client.execute.or client.call with
      | none => (none, .error .codeCreationRefused)
      | some execute =>
          match execute (.mutation (ready.mutation code moment p)) with
          | .response v => (some (ready.mutation code moment p), .ok v)
          | .raised => (some (ready.mutation code moment p), .error .client)
          | .aborted => (some (ready.mutation code moment p), .error .aborted) := by
  have built : mutationVariables code moment ready.endsAt offer ready.offerId =
      .ok (ready.mutation code moment p) := by
    unfold mutationVariables
    rw [reads.discount, reads.variantGid]
    change ready.discount.shopifyPercentage >>= _ = _
    rw [converted]
    rfl
  unfold sendMutation
  rw [reads.offerId]
  change (match mutationVariables code moment ready.endsAt offer ready.offerId with | .error e => _ | .ok input => _) = _
  rw [built]

/-! ## The steps after the mutation -/

def Ready.Recordable (ready : Ready F) (storeId : Str) : Prop :=
  (ready.auctionId.all EventTexts.accepts && EventTexts.accepts storeId) = true

omit [Format F] [Spelling F] [CodeUnicode] [Decimals F] [Hosts] in
theorem storeEvent_created {payload : Dict Str (Wire F)} {auctionId : Option Str} {storeId : Str}
    (published : ∀ key ∈ [str "code", str "permalink_url", str "expires_at"], key ∈ Dict.keys payload)
    (moment : DateTime) : storeEvent (str "code_created") payload auctionId storeId moment =
      if auctionId.all EventTexts.accepts && EventTexts.accepts storeId then
        .ok { kind := str "code_created", ts := moment.isoFormat (str "T"), auctionId
              storeId := some storeId, orderRef := none, payload }
      else .error .valueError := by
  unfold storeEvent
  rw [buildEvent_of_published [str "code", str "permalink_url", str "expires_at"] (by decide)
    (by decide) (by decide) published]

/-- The event that a code was created, of whichever payload. -/
def codeCreated (payload : Dict Str (Wire F)) (auctionId : Option Str) (storeId : Str) (moment : DateTime) :
    CodeEvent F where
  kind := str "code_created"
  ts := moment.isoFormat (str "T")
  auctionId := auctionId
  storeId := some storeId
  orderRef := none
  payload := payload

/-- The register holds no other code under the key of this one. -/
def Fileable (register : RedemptionRegister F) (code : Str) : Prop :=
  ∀ old, Dict.get? register.issued (canonicalCode code) = some old → old.code = code

omit [Format F] [Spelling F] [Decimals F] [Hosts] [EventTexts] in
theorem issue_of_fileable {register : RedemptionRegister F} (issued : IssuedCode)
    (keyed : issued.key = canonicalCode issued.code) (fileable : Fileable register issued.code) :
    ∃ register', register.issue issued = (register', .ok ()) ∧
      Dict.get? register'.issued issued.key = some ((Dict.get? register.issued issued.key).getD issued) := by
  unfold RedemptionRegister.issue
  cases found : Dict.get? register.issued issued.key with
  | none =>
      refine ⟨_, rfl, ?_⟩
      simp [Dict.get?_setDefault, found]
  | some old =>
      have same : old.code = issued.code := fileable old (keyed ▸ found)
      refine ⟨_, if_neg (not_not.mpr same), ?_⟩
      simp [found]

omit [Format F] [Spelling F] [Decimals F] [Hosts] [EventTexts] in
theorem issue_of_not_fileable {register : RedemptionRegister F} (issued : IssuedCode)
    (keyed : issued.key = canonicalCode issued.code) (taken : ¬ Fileable register issued.code) :
    register.issue issued = (register, .error .valueError) := by
  simp only [Fileable, not_forall] at taken
  obtain ⟨old, found, other⟩ := taken
  unfold RedemptionRegister.issue
  rw [keyed, found]
  exact if_pos other

def Ready.Quotable (ready : Ready F) : Prop :=
  ∀ id, ready.variantId = some id → id.encodeUtf8.isSome = true

omit [Format F] [Spelling F] [CodeUnicode] [Decimals F] [Hosts] [EventTexts] in
theorem buildCartPermalink_returns (ready : Ready F) {code : Str} (quoted : ∃ text, quote code = .ok text) :
    (∃ url, buildCartPermalink ready.shopDomain code ready.variantId ready.quantity = .ok url) ↔
      ready.Quotable := by
  obtain ⟨text, quoted⟩ := quoted
  unfold buildCartPermalink Ready.Quotable
  rw [quoted]
  cases ready.variantId with
  | none => exact iff_of_true ⟨_, rfl⟩ (by simp)
  | some id =>
      simp only [Option.some.injEq, forall_eq', ← quote_returns]
      change (∃ url, quote id >>= _ = .ok url) ↔ _
      cases quote id with
      | error e => simp [bind, Except.bind]
      | ok segment => exact iff_of_true ⟨_, rfl⟩ ⟨_, rfl⟩

/-! ## No discount is stranded -/

/-- The client takes the mutation, and its answer names no error. -/
def Granted (client : AdminClient F) (input : BasicCodeDiscount F) : Prop :=
  ∃ execute response, client.execute.or client.call = some execute ∧
    execute (.mutation input) = .response response ∧ userErrors response = []

/-- The event is that of the code, flagged as an orphan or not. -/
structure CodeEvent.Names (event : CodeEvent F) (code : Str) (orphaned : Bool) : Prop where
  kind : event.kind = str "code_created"
  code : Dict.get? event.payload (str "code") = some (.string code)
  flag : Dict.get? event.payload (str "orphaned") = if orphaned then some (.bool true) else none

/-- What becomes of a discount: none is recorded where none is asked for, and one that is asked for is
recorded once, in the register if the call returns and as an orphan if it raises; and it returns unless the
client or the register says no. -/
structure Unstranded (client : AdminClient F) (code : Str) (s : CodeState F) (r : Creation F) : Prop where
  unsent : r.sent = none → r.state.register = s.register ∧
    ∃ events, r.state.ledger = s.ledger ++ events ∧ ∀ event ∈ events, event.kind ≠ str "code_created"
  returned : ∀ input created, r.sent = some input → r.outcome = .ok created →
    (∃ event, r.state.ledger = s.ledger ++ [event] ∧ event.Names code false) ∧
      ∃ issued, Dict.get? r.state.register.issued (canonicalCode code) = some issued ∧ issued.code = code
  raised : ∀ input e, r.sent = some input → r.outcome = .error e →
    ∃ event, r.state.ledger = s.ledger ++ [event] ∧ event.Names code true
  offered : ∀ input, r.sent = some input → Granted client input → Fileable s.register code →
    ∃ created, r.outcome = .ok created

def Mints (client : AdminClient F) (shopConfig : Option ShopDiscountConfiguration) (moment : DateTime)
    (storeId : Str) (offer : Wire F) (ready : Ready F) : Prop :=
  prepare storeId offer moment = .ok ready ∧
    ∃ config, configurationOf client shopConfig = .ok config ∧
      combinesWithVerdict config ready.discountClass = .clear

/-- A client that can be called, identifiers that an event takes, no interruption by what is no
`Exception`, and a variant that a URL takes; or no client to call and no event either. -/
def Guarded (client : AdminClient F) (code : Str) (moment : DateTime) (s : CodeState F) (storeId : Str)
    (ready : Ready F) : Prop :=
  match client.execute.or client.call with
  | none => ¬ ready.Recordable storeId
  | some execute => ready.Recordable storeId ∧
      ∀ p, ready.discount.shopifyPercentage = .ok p →
        execute (.mutation (ready.mutation code moment p)) ≠ .aborted ∧
          (Granted client (ready.mutation code moment p) → Fileable s.register code → ready.Quotable)

omit [Format F] [Spelling F] [CodeUnicode] [Decimals F] [Hosts] [EventTexts] in
theorem createdPayload_names (code url : Str) (moment : DateTime) (ready : Ready F) (auctionId : Option Str)
    (storeId : Str) : (codeCreated (createdPayload code url moment ready) auctionId storeId moment).Names code false where
  kind := rfl
  code := by simp [codeCreated, createdPayload]
  flag := by simp [codeCreated, createdPayload, Dict.get?]

omit [Format F] [Spelling F] [Decimals F] [Hosts] in
theorem orphaned_iff {client : AdminClient F} {code : Str} {moment : DateTime} {s : CodeState F} {storeId : Str}
    {ready : Ready F} {a : Attempt F} {input : BasicCodeDiscount F} {e : CreateError} (sent : a.sent = some input)
    (failed : a.outcome = .error e) (plain : e ≠ .aborted) (unrecorded : a.state.ledger = s.ledger) :
    Unstranded client code s (recordOrphan code moment storeId ready a) ↔
      ready.Recordable storeId ∧ ¬ (Granted client input ∧ Fileable s.register code) := by
  have handled : recordOrphan code moment storeId ready a =
      match storeEvent (str "code_created") (orphanedPayload code a.permalinkUrl ready) ready.auctionId storeId
        moment with
      | .error raised => { state := a.state, sent := a.sent, outcome := .error (.python raised) }
      | .ok event =>
          { state := { a.state with ledger := a.state.ledger ++ [event] }, sent := a.sent, outcome := .error e } := by
    unfold recordOrphan
    rw [failed]
    cases e <;> first | rfl | exact absurd rfl plain
  rw [handled, storeEvent_created (by simp [orphanedPayload, Dict.keys])]
  by_cases recordable : (ready.auctionId.all EventTexts.accepts && EventTexts.accepts storeId) = true
  · rw [if_pos recordable]
    constructor
    · refine fun kept => ⟨recordable, fun good => ?_⟩
      obtain ⟨created, returned⟩ := kept.offered input sent good.1 good.2
      cases returned
    · rintro ⟨-, bad⟩
      refine ⟨fun unsent => ?_, fun _ created _ returned => (by cases returned), fun _ _ _ _ => ?_,
        fun other again granted fileable => ?_⟩
      · rw [sent] at unsent
        cases unsent
      · exact ⟨_, by rw [unrecorded], rfl, by simp [orphanedPayload],
          by simp [orphanedPayload, Dict.get?]⟩
      · rw [sent] at again
        cases again
        exact absurd ⟨granted, fileable⟩ bad
  · rw [if_neg recordable]
    refine iff_of_false (fun kept => ?_) fun good => recordable good.1
    obtain ⟨event, recorded, -⟩ := kept.raised input _ sent rfl
    rw [unrecorded] at recorded
    simp at recorded

omit [Format F] [EventTexts] [Spelling F] [Decimals F] [Hosts] in
theorem unstranded_of_unsent {client : AdminClient F} {code : Str} {s : CodeState F} {r : Creation F}
    (unsent : r.sent = none) (register : r.state.register = s.register)
    (ledger : ∃ events, r.state.ledger = s.ledger ++ events ∧ ∀ event ∈ events, event.kind ≠ str "code_created") :
    Unstranded client code s r := by
  refine ⟨fun _ => ⟨register, ledger⟩, fun input _ sent => ?_, fun input _ sent => ?_, fun input sent => ?_⟩
  all_goals
    rw [unsent] at sent
    cases sent

omit [Format F] [Spelling F] [CodeUnicode] [Decimals F] [Hosts] in
theorem storeEvent_kind {kind : Str} {payload : Dict Str (Wire F)} {auctionId : Option Str} {storeId : Str}
    {moment : DateTime} {event : CodeEvent F} (built : storeEvent kind payload auctionId storeId moment = .ok event) :
    event.kind = kind := by
  unfold storeEvent buildEvent at built
  split at built
  · split at built
    · cases built
    · split at built
      · cases built
        rfl
      · cases built
  · cases built

omit [Format F] [Decimals F] [Hosts] [Spelling F] [CodeUnicode] in
theorem recordConflict_ledger (s : CodeState F) (storeId : Str) (ready : Ready F)
    (config : ShopDiscountConfiguration) (moment : DateTime) :
    (recordConflict s storeId ready config moment).1.register = s.register ∧
      ∃ events, (recordConflict s storeId ready config moment).1.ledger = s.ledger ++ events ∧
        ∀ event ∈ events, event.kind ≠ str "code_created" := by
  unfold recordConflict
  split
  · exact ⟨rfl, [], by simp, nofun⟩
  · rename_i event built
    refine ⟨rfl, [event], rfl, fun other member => ?_⟩
    rw [List.mem_singleton] at member
    rw [member, storeEvent_kind built]
    decide

def Ready.created (ready : Ready F) (storeId code permalinkUrl : Str) (moment : DateTime) : CreatedCode F where
  code := code
  permalinkUrl := permalinkUrl
  expiresAt := ready.endsAt.isoFormat (str "T")
  startsAt := moment.isoFormat (str "T")
  storeId := storeId
  usageLimit := usageLimit
  discountPct := ready.discount.percent
  offerId := ready.offerId
  bidRef := ready.bidRef
  variantId := ready.variantId
  quantity := ready.quantity
  event := codeCreated (createdPayload code permalinkUrl moment ready) ready.auctionId storeId moment

/-- What the steps after a mutation that is granted come to: a variant that no URL takes, a code that the
register refuses, or an event, which may be none. -/
inductive Steps (code : Str) (moment : DateTime) (s : CodeState F) (storeId : Str) (ready : Ready F)
    (input : BasicCodeDiscount F) : Attempt F → Prop
  | unlinked {e : PyError} (unquotable : ¬ ready.Quotable) :
      Steps code moment s storeId ready input
        { sent := some input, permalinkUrl := [], state := s, outcome := .error (.python e) }
  | unfiled {e : PyError} {url : Str} (quotable : ready.Quotable) (taken : ¬ Fileable s.register code) :
      Steps code moment s storeId ready input
        { sent := some input, permalinkUrl := url, state := s, outcome := .error (.python e) }
  | unrecorded {e : PyError} {url : Str} {register : RedemptionRegister F} (quotable : ready.Quotable)
      (fileable : Fileable s.register code) (unrecordable : ¬ ready.Recordable storeId) :
      Steps code moment s storeId ready input
        { sent := some input, permalinkUrl := url, state := { s with register }, outcome := .error (.python e) }
  | recorded {url : Str} {register : RedemptionRegister F} (quotable : ready.Quotable)
      (fileable : Fileable s.register code) (recordable : ready.Recordable storeId)
      (linked : buildCartPermalink ready.shopDomain code ready.variantId ready.quantity = .ok url)
      (filed : Dict.get? register.issued (canonicalCode code) =
        some ((Dict.get? s.register.issued (canonicalCode code)).getD (issuedCode storeId code url moment ready))) :
      Steps code moment s storeId ready input {
        sent := some input, permalinkUrl := url
        state := { register, ledger := s.ledger ++ [(ready.created storeId code url moment).event] }
        outcome := .ok (ready.created storeId code url moment) }

omit [Decimals F] [Hosts] in
theorem mintAttempt_steps {client : AdminClient F} {code : Str} {moment : DateTime} {s : CodeState F}
    {storeId : Str} {offer : Wire F} {ready : Ready F} {input : BasicCodeDiscount F} {v : Wire F}
    (sending : sendMutation client code moment ready.endsAt offer = (some input, .ok v))
    (clean : userErrors v = []) (quoted : ∃ text, quote code = .ok text) :
    Steps code moment s storeId ready input (mintAttempt client code moment s storeId offer ready) := by
  have built := buildCartPermalink_returns ready quoted
  rw [mintAttempt, sending]
  dsimp only
  rw [if_neg (by simp [clean])]
  cases linked : buildCartPermalink ready.shopDomain code ready.variantId ready.quantity with
  | error e =>
      refine .unlinked ?_
      rw [← built, linked]
      nofun
  | ok url =>
      have quotable := built.mp ⟨url, linked⟩
      dsimp only
      by_cases fileable : Fileable s.register code
      · obtain ⟨register, filed, held⟩ := issue_of_fileable
          (issuedCode storeId code url moment ready) rfl fileable
        rw [filed]
        dsimp only
        rw [storeEvent_created (by simp [createdPayload, Dict.keys])]
        by_cases recordable : (ready.auctionId.all EventTexts.accepts && EventTexts.accepts storeId) = true
        · rw [if_pos recordable]
          exact .recorded quotable fileable recordable linked held
        · rw [if_neg recordable]
          exact .unrecorded quotable fileable recordable
      · rw [issue_of_not_fileable (issuedCode storeId code url moment ready) rfl fileable]
        exact .unfiled quotable fileable

omit [Format F] [Spelling F] [Decimals F] [Hosts] in
theorem unstranded_granted {client : AdminClient F} {code : Str} {moment : DateTime} {s : CodeState F}
    {storeId : Str} {ready : Ready F} {input : BasicCodeDiscount F} {a : Attempt F} (granted : Granted client input)
    (steps : Steps code moment s storeId ready input a) :
    Unstranded client code s (recordOrphan code moment storeId ready a) ↔
      ready.Recordable storeId ∧ (Fileable s.register code → ready.Quotable) := by
  cases steps with
  | unlinked unquotable =>
      exact (orphaned_iff (s := s) rfl rfl (by simp) rfl).trans (by simp [granted, unquotable])
  | unfiled quotable taken =>
      exact (orphaned_iff (s := s) rfl rfl (by simp) rfl).trans (by simp [granted, taken])
  | unrecorded quotable fileable unrecordable =>
      exact (orphaned_iff (s := s) rfl rfl (by simp) rfl).trans (by simp [unrecordable])
  | @recorded url register quotable fileable recordable linked filed =>
      rw [recordOrphan]
      dsimp only
      have named := createdPayload_names code url moment ready ready.auctionId storeId
      have kept : ((Dict.get? s.register.issued (canonicalCode code)).getD
          (issuedCode storeId code url moment ready)).code = code := by
        cases found : Dict.get? s.register.issued (canonicalCode code) with
        | none => rfl
        | some old => exact fileable old found
      refine iff_of_true ⟨fun unsent => ?_, fun _ _ _ _ => ⟨⟨_, rfl, named⟩, _, filed, kept⟩, fun _ _ _ raised => ?_,
        fun _ _ _ _ => ⟨_, rfl⟩⟩ ⟨recordable, fun _ => quotable⟩
      · cases unsent
      · cases raised

omit [Decimals F] [Hosts] in
theorem unstranded_minted {client : AdminClient F} {drawn : Fin codeBodyLength → Fin codeAlphabet.length}
    {moment : DateTime} {s : CodeState F} {storeId : Str} {offer : Wire F} {ready : Ready F}
    (reads : ready.Reads offer moment) :
    Unstranded client (mintCode drawn) s (recordOrphan (mintCode drawn) moment storeId ready
        (mintAttempt client (mintCode drawn) moment s storeId offer ready)) ↔
      Guarded client (mintCode drawn) moment s storeId ready := by
  obtain ⟨p, converted⟩ := reads.percentage
  have only : ∀ q, ready.discount.shopifyPercentage = .ok q ↔ q = p := by
    intro q
    rw [converted, Except.ok.injEq, eq_comm]
  have sending := sendMutation_eq reads converted client (mintCode drawn)
  unfold Guarded
  simp only [only, forall_eq]
  set input := ready.mutation (mintCode drawn) moment p
  cases callable : client.execute.or client.call with
  | none =>
      rw [callable] at sending
      rw [mintAttempt, sending, recordOrphan]
      dsimp only
      rw [storeEvent_created (by simp [orphanedPayload, Dict.keys]), Ready.Recordable]
      by_cases recordable : (ready.auctionId.all EventTexts.accepts && EventTexts.accepts storeId) = true
      · rw [if_pos recordable]
        refine iff_of_false (fun kept => ?_) (not_not.mpr recordable)
        obtain ⟨-, events, recorded, other⟩ := kept.unsent rfl
        rw [List.append_cancel_left_eq] at recorded
        exact other _ (recorded ▸ List.mem_singleton_self _) rfl
      · rw [if_neg recordable]
        exact iff_of_true (unstranded_of_unsent rfl rfl ⟨[], by simp, List.forall_mem_nil _⟩) recordable
  | some execute =>
      rw [callable] at sending
      dsimp only at sending ⊢
      have granted : Granted client input ↔
          ∃ response, execute (.mutation input) = .response response ∧ userErrors response = [] := by
        simp [Granted, callable]
      cases reply : execute (.mutation input) with
      | aborted =>
          rw [reply] at sending
          rw [mintAttempt, sending, recordOrphan]
          refine iff_of_false (fun kept => ?_) fun guarded => guarded.2.1 rfl
          obtain ⟨event, recorded, -⟩ := kept.raised _ _ rfl rfl
          simp at recorded
      | raised =>
          rw [reply] at sending granted
          rw [mintAttempt, sending]
          exact (orphaned_iff (s := s) rfl rfl (by decide) rfl).trans (by simp [granted])
      | response v =>
          rw [reply] at sending granted
          simp only [Reply.response.injEq, exists_eq_left'] at granted
          by_cases clean : userErrors v = []
          · have went := granted.mpr clean
            rw [unstranded_granted went (mintAttempt_steps sending clean (quote_mintCode drawn))]
            simp [went]
          · rw [mintAttempt, sending]
            dsimp only
            rw [if_pos (by simp [clean])]
            refine (orphaned_iff (s := s) rfl rfl ?_ rfl).trans (by simp [granted, clean])
            split <;> simp

/-- No discount is stranded just where every call that comes to the mint is guarded. -/
theorem unstranded_iff (client : AdminClient F) (shopConfig : Option ShopDiscountConfiguration)
    (drawn : Fin codeBodyLength → Fin codeAlphabet.length) (moment : DateTime) (s : CodeState F) (storeId : Str)
    (offer : Wire F) :
    Unstranded client (mintCode drawn) s (createCode client shopConfig (mintCode drawn) moment s storeId offer) ↔
      ∀ ready, Mints client shopConfig moment storeId offer ready →
        Guarded client (mintCode drawn) moment s storeId ready := by
  have refused : ∀ e, Unstranded client (mintCode drawn) s { state := s, sent := none, outcome := .error e } :=
    fun e => unstranded_of_unsent rfl rfl ⟨[], by simp, nofun⟩
  unfold createCode Mints
  cases prepared : prepare storeId offer moment with
  | error e => exact iff_of_true (refused _) (by simp)
  | ok ready =>
      cases configured : configurationOf client shopConfig with
      | error e => exact iff_of_true (refused e) (by simp)
      | ok config =>
          simp only [Except.ok.injEq, exists_eq_left', and_imp, forall_eq']
          cases verdict : combinesWithVerdict config ready.discountClass with
          | conflict =>
              obtain ⟨register, ledger⟩ := recordConflict_ledger s storeId ready config moment
              exact iff_of_true (unstranded_of_unsent rfl register ledger) (by simp)
          | unknown => exact iff_of_true (refused _) (by simp)
          | clear => simpa using unstranded_minted (prepare_ok prepared)

/-! ## One discount in five places -/

/-- What an accepted call leaves behind, of the offer as it was read. -/
structure Minting (code : Str) (moment : DateTime) (s : CodeState F) (storeId : Str) (offer : Wire F)
    (r : Creation F) (ready : Ready F) (created : CreatedCode F) : Prop where
  reads : ready.Reads offer moment
  fileable : Fileable s.register code
  sent : ∃ p, r.sent = some (ready.mutation code moment p)
  linked : ∃ url, buildCartPermalink ready.shopDomain code ready.variantId ready.quantity = .ok url ∧
    created = ready.created storeId code url moment ∧
    Dict.get? r.state.register.issued (canonicalCode code) =
      some ((Dict.get? s.register.issued (canonicalCode code)).getD (issuedCode storeId code url moment ready))
  recorded : r.state.ledger = s.ledger ++ [created.event]

omit [Format F] [Spelling F] [CodeUnicode] [Decimals F] [Hosts] in
theorem recordOrphan_returns {code : Str} {moment : DateTime} {storeId : Str} {ready : Ready F} {a : Attempt F}
    {created : CreatedCode F} (returned : (recordOrphan code moment storeId ready a).outcome = .ok created) :
    a.outcome = .ok created ∧
      recordOrphan code moment storeId ready a = { state := a.state, sent := a.sent, outcome := .ok created } := by
  unfold recordOrphan at returned ⊢
  split at returned
  · rename_i other same
    cases returned
    exact ⟨same, rfl⟩
  · cases returned
  · split at returned <;> cases returned

omit [Decimals F] [Hosts] in
theorem mintAttempt_returns {client : AdminClient F} {drawn : Fin codeBodyLength → Fin codeAlphabet.length}
    {moment : DateTime} {s : CodeState F} {storeId : Str} {offer : Wire F} {ready : Ready F}
    {created : CreatedCode F} (reads : ready.Reads offer moment)
    (returned : (mintAttempt client (mintCode drawn) moment s storeId offer ready).outcome = .ok created) :
    ∃ p, Steps (mintCode drawn) moment s storeId ready (ready.mutation (mintCode drawn) moment p)
      (mintAttempt client (mintCode drawn) moment s storeId offer ready) := by
  obtain ⟨p, converted⟩ := reads.percentage
  have sending := sendMutation_eq reads converted client (mintCode drawn)
  refine ⟨p, ?_⟩
  cases callable : client.execute.or client.call with
  | none =>
      rw [callable] at sending
      rw [mintAttempt, sending] at returned
      cases returned
  | some execute =>
      rw [callable] at sending
      dsimp only at sending
      cases reply : execute (.mutation (ready.mutation (mintCode drawn) moment p)) with
      | aborted =>
          rw [reply] at sending
          rw [mintAttempt, sending] at returned
          cases returned
      | raised =>
          rw [reply] at sending
          rw [mintAttempt, sending] at returned
          cases returned
      | response v =>
          rw [reply] at sending
          by_cases clean : userErrors v = []
          · exact mintAttempt_steps sending clean (quote_mintCode drawn)
          · rw [mintAttempt, sending] at returned
            dsimp only at returned
            rw [if_pos (by simp [clean])] at returned
            cases returned

theorem createCode_returns {client : AdminClient F} {shopConfig : Option ShopDiscountConfiguration}
    {drawn : Fin codeBodyLength → Fin codeAlphabet.length} {moment : DateTime} {s : CodeState F} {storeId : Str}
    {offer : Wire F} {created : CreatedCode F}
    (returned : (createCode client shopConfig (mintCode drawn) moment s storeId offer).outcome = .ok created) :
    ∃ ready, Minting (mintCode drawn) moment s storeId offer
      (createCode client shopConfig (mintCode drawn) moment s storeId offer) ready created := by
  unfold createCode at returned ⊢
  cases prepared : prepare storeId offer moment with
  | error e => simp [prepared] at returned
  | ok ready =>
      have reads := prepare_ok prepared
      simp only [prepared] at returned ⊢
      cases configured : configurationOf client shopConfig with
      | error e => simp [configured] at returned
      | ok config =>
          simp only [configured] at returned ⊢
          cases verdict : combinesWithVerdict config ready.discountClass with
          | conflict => simp [verdict] at returned
          | unknown => simp [verdict] at returned
          | clear =>
              simp only [verdict] at returned ⊢
              obtain ⟨minted, same⟩ := recordOrphan_returns returned
              obtain ⟨p, steps⟩ := mintAttempt_returns reads minted
              rw [same]
              refine ⟨ready, ?_⟩
              generalize mintAttempt client (mintCode drawn) moment s storeId offer ready = a at minted steps
              cases steps with
              | unlinked unquotable => cases minted
              | unfiled quotable taken => cases minted
              | unrecorded quotable fileable unrecordable => cases minted
              | recorded quotable fileable recordable linked filed =>
                  cases minted
                  exact ⟨reads, fileable, ⟨p, rfl⟩, ⟨_, linked, rfl, filed⟩, rfl⟩

/-- The offer's variant, if it names one, is spelled plainly. -/
def PlainlyNamed (offer : Wire F) : Prop := ∀ text, variantText offer = .ok (some text) → PlainVariant text

omit [Format F] [CodeUnicode] [Decimals F] [Hosts] [EventTexts] in
theorem sameVariant_iff {offer : Wire F} {gid id : Option Str} (inMutation : offerVariantGid offer = .ok gid)
    (inPermalink : offerVariantId offer = .ok id) : SameVariant gid id ↔ PlainlyNamed offer := by
  unfold offerVariantGid at inMutation
  unfold offerVariantId at inPermalink
  unfold PlainlyNamed
  cases named : variantText offer with
  | error e => simp [named, bind, Except.bind] at inMutation
  | ok text =>
      rw [named] at inMutation inPermalink
      cases text with
      | none =>
          cases inMutation
          cases inPermalink
          exact iff_of_true trivial (by simp)
      | some text =>
          cases inMutation
          change (if (lastSegment text).isEmpty then _ else _) = _ at inPermalink
          split at inPermalink
          · cases inPermalink
          · cases inPermalink
            simp only [SameVariant, plainVariant_iff, Except.ok.injEq, Option.some.injEq, forall_eq']

/-- The window starts at the moment and ends after 48 hours or with the offer, whichever comes first, and
it is not empty. -/
def CodeWindow (moment : DateTime) (offer : Wire F) (ends : DateTime) : Prop :=
  moment.instant < ends.instant ∧ ∃ expiry, offerExpiresAt offer = .ok expiry ∧
    ends.instant = expiry.elim (moment.instant + maxCodeLifetime) fun t =>
      min (moment.instant + maxCodeLifetime) t.instant

omit [Decimals F] [Hosts] [EventTexts] in
theorem codeExpiry_window {moment : DateTime} {offer : Wire F} {ends : DateTime}
    (made : codeExpiry moment offer = .ok ends) : CodeWindow moment offer ends := by
  unfold codeExpiry at made
  split at made
  · cases made
  · split at made
    · cases made
    · rename_i cap later
      obtain ⟨expiry, read, made⟩ := bind_eq_ok.mp made
      obtain ⟨wall, offset⟩ := DateTime.wall_ofWall? later
      have capped : cap.instant = moment.instant + maxCodeLifetime := by
        rw [DateTime.instant, DateTime.instant, wall, offset]
        ring
      dsimp only at made
      split at made
      · cases made
      · rename_i wide
        cases made
        refine ⟨not_le.mp wide, expiry, read, ?_⟩
        cases expiry with
        | none => exact capped
        | some t =>
            rw [Option.elim_some, Option.elim_some, ← capped, sooner]
            split
            · rename_i first
              exact (min_eq_right first.le).symm
            · rename_i last
              exact (min_eq_left (not_lt.mp last)).symm

/-- The mutation, the permalink, the register, the ledger and the response are of one discount. -/
structure Agrees (moment : DateTime) (s : CodeState F) (offer : Wire F) (r : Creation F) (created : CreatedCode F)
    (input : BasicCodeDiscount F) (issued : IssuedCode) (endsAt : DateTime) : Prop where
  sent : r.sent = some input
  filed : Dict.get? r.state.register.issued (canonicalCode created.code) = some issued
  recorded : r.state.ledger = s.ledger ++ [created.event]
  linked : ∃ shopDomain,
    buildCartPermalink shopDomain created.code created.variantId created.quantity = .ok created.permalinkUrl
  variant : SameVariant input.productVariantsToAdd created.variantId
  code : input.code = created.code ∧ issued.code = created.code ∧
    Dict.get? created.event.payload (str "code") = some (.string created.code) ∧
    Dict.get? created.toContract (str "code") = some created.code
  starts : input.startsAt = moment.isoFormat (str "T") ∧ issued.startsAt = some moment ∧
    Dict.get? created.event.payload (str "starts_at") = some (.string (moment.isoFormat (str "T")))
  ends : input.endsAt = endsAt.isoFormat (str "T") ∧ issued.expiresAt = some endsAt ∧
    Dict.get? created.event.payload (str "expires_at") = some (.string (endsAt.isoFormat (str "T"))) ∧
    Dict.get? created.toContract (str "expires_at") = some (endsAt.isoFormat (str "T"))
  decided : codeExpiry moment offer = .ok endsAt
  window : CodeWindow moment offer endsAt

/-- What the register may hold of the code from before: an entry of the same window. -/
def FreshWindow (moment : DateTime) (s : CodeState F) (offer : Wire F) (code : Str) : Prop :=
  ∀ old, Dict.get? s.register.issued (canonicalCode code) = some old →
    old.startsAt = some moment ∧ ∃ ends, codeExpiry moment offer = .ok ends ∧ old.expiresAt = some ends

/-- An accepted offer's discount is one in every place just where its variant is spelled plainly and its
code is not on file with another window. -/
theorem agrees_iff {client : AdminClient F} {shopConfig : Option ShopDiscountConfiguration}
    {drawn : Fin codeBodyLength → Fin codeAlphabet.length} {moment : DateTime} {s : CodeState F} {storeId : Str}
    {offer : Wire F} {created : CreatedCode F}
    (returned : (createCode client shopConfig (mintCode drawn) moment s storeId offer).outcome = .ok created) :
    (∃ input issued ends, Agrees moment s offer
        (createCode client shopConfig (mintCode drawn) moment s storeId offer) created input issued ends) ↔
      PlainlyNamed offer ∧ FreshWindow moment s offer (mintCode drawn) := by
  obtain ⟨ready, accepted⟩ := createCode_returns returned
  obtain ⟨p, sent⟩ := accepted.sent
  obtain ⟨url, linked, rfl, filed⟩ := accepted.linked
  have same := sameVariant_iff accepted.reads.variantGid accepted.reads.variantId
  constructor
  · rintro ⟨input, issued, endsAt, agrees⟩
    have input_eq := agrees.sent
    rw [sent, Option.some.injEq] at input_eq
    subst input_eq
    refine ⟨same.mp agrees.variant, fun old found => ?_⟩
    have entry := agrees.filed
    change Dict.get? _ (canonicalCode (mintCode drawn)) = _ at entry
    rw [filed, found, Option.getD_some, Option.some.injEq] at entry
    subst entry
    exact ⟨agrees.starts.2.1, endsAt, agrees.decided, agrees.ends.2.1⟩
  · rintro ⟨named, fresh⟩
    have entry : ∃ issued, (Dict.get? s.register.issued (canonicalCode (mintCode drawn))).getD
          (issuedCode storeId (mintCode drawn) url moment ready) = issued ∧ issued.code = mintCode drawn ∧
        issued.startsAt = some moment ∧ issued.expiresAt = some ready.endsAt := by
      cases found : Dict.get? s.register.issued (canonicalCode (mintCode drawn)) with
      | none => exact ⟨_, rfl, rfl, rfl, rfl⟩
      | some old =>
          obtain ⟨starts, endsAt, decided, ends⟩ := fresh old found
          rw [accepted.reads.endsAt, Except.ok.injEq] at decided
          exact ⟨old, rfl, accepted.fileable old found, starts, decided ▸ ends⟩
    obtain ⟨issued, held, code, starts, ends⟩ := entry
    rw [held] at filed
    refine ⟨_, issued, ready.endsAt, ⟨sent, filed, accepted.recorded, ⟨_, linked⟩, same.mpr named, ⟨rfl, code, ?_, ?_⟩,
      ⟨rfl, starts, ?_⟩, ⟨rfl, ends, ?_, ?_⟩, accepted.reads.endsAt, codeExpiry_window accepted.reads.endsAt⟩⟩
    · simp [Ready.created, codeCreated, createdPayload]
    · simp [Ready.created, CreatedCode.toContract]
    · simp [Ready.created, codeCreated, createdPayload, Dict.get?]
    · simp [Ready.created, codeCreated, createdPayload, Dict.get?]
    · simp [Ready.created, CreatedCode.toContract, Dict.get?]

end Creating

/-! ## Three variants -/

section Variants

@[reducible] def Decimals.blank (F : Type) : Decimals F where
  decimal _ := none
  contradicted _ _ _ := .ok false

@[reducible] def Hosts.unnamed : Hosts where
  hostname _ := .ok none

@[reducible] def EventTexts.encodable : EventTexts where
  accepts s := s.encodeUtf8.isSome

def twentyPercent : Binary64 := ⟨20, Binary64.representable_of_small (n := 20) (by decide)⟩

def offerOn (variant : Str) : Wire Binary64 :=
  .object [(str "discount_pct", .number (.double (.finite twentyPercent))), (str "variant_id", .string variant)]

def minted : Str := mintCode fun _ => ⟨0, by decide⟩

theorem newYear_valid : (1 ≤ 2026 ∧ 2026 ≤ 9999) ∧ (1 ≤ 1 ∧ 1 ≤ 12) ∧ (1 ≤ 1 ∧ 1 ≤ Calendar.daysInMonth 2026 1) ∧
    0 < 24 ∧ 0 < 60 ∧ 0 < 60 ∧ 0 < 1000000 ∧ ∀ o ∈ some (0 : Int), -microsPerDay < o ∧ o < microsPerDay := by
  decide

def newYear : DateTime := ⟨2026, 1, 1, 0, 0, 0, 0, some 0, newYear_valid⟩

def combining : ShopDiscountConfiguration where
  combinesWith := some ⟨some true, some true, some true⟩
  automaticDiscounts := []
  automaticDiscountsKnown := true
  hasActiveAutomaticDiscount := some false
  source := str "shop"

def obliging : AdminClient Binary64 where
  execute := some fun _ => .response (.object [])
  call := none

def emptyBooks : CodeState Binary64 := { register := .opened [], ledger := [] }

/-- The code of an offer on a variant, minted at a shop whose discounts combine. -/
def mintedFor (variant : Str) : Creation Binary64 :=
  letI := Spelling.strings Binary64
  letI := CodeUnicode.plain
  letI := Decimals.blank Binary64
  letI := Hosts.unnamed
  letI := EventTexts.encodable
  createCode obliging (some combining) minted newYear emptyBooks (str "acme") (offerOn variant)

def AgreesOn (variant : Str) (created : CreatedCode Binary64) : Prop :=
  letI := Spelling.strings Binary64
  letI := CodeUnicode.plain
  ∃ input issued endsAt,
    Agrees newYear emptyBooks (offerOn variant) (mintedFor variant) created input issued endsAt

theorem numeric_variant_agrees :
    ∃ created, (mintedFor (str "1001")).outcome = .ok created ∧ AgreesOn (str "1001") created := by
  let _ := Spelling.strings Binary64
  let _ := CodeUnicode.plain
  let _ := Decimals.blank Binary64
  let _ := Hosts.unnamed
  let _ := EventTexts.encodable
  obtain ⟨created, returned⟩ := returns_of_isOk (x := (mintedFor (str "1001")).outcome) (by decide)
  have bare : variantText (offerOn (str "1001")) = .ok (some (str "1001")) := by decide
  have named : PlainlyNamed (offerOn (str "1001")) := by
    intro text named
    rw [bare] at named
    cases named
    exact Or.inl (by decide)
  have fresh : FreshWindow newYear emptyBooks (offerOn (str "1001")) minted := by
    intro old found
    simp [emptyBooks, RedemptionRegister.opened] at found
  exact ⟨created, returned, (agrees_iff returned).mpr ⟨named, fresh⟩⟩

/-- An offer on a product: the mutation is for the product, the permalink for the variant of its number. -/
theorem product_linked_as_variant :
    ∃ created, (mintedFor (str "gid://shopify/Product/1001")).outcome = .ok created ∧
      ¬ AgreesOn (str "gid://shopify/Product/1001") created := by
  let _ := Spelling.strings Binary64
  let _ := CodeUnicode.plain
  let _ := Decimals.blank Binary64
  let _ := Hosts.unnamed
  let _ := EventTexts.encodable
  obtain ⟨created, returned⟩ :=
    returns_of_isOk (x := (mintedFor (str "gid://shopify/Product/1001")).outcome) (by decide)
  refine ⟨created, returned, ?_⟩
  rintro ⟨input, issued, endsAt, agrees⟩
  obtain ⟨ready, minting⟩ := createCode_returns returned
  obtain ⟨p, sent⟩ := minting.sent
  obtain ⟨url, -, rfl, -⟩ := minting.linked
  obtain rfl := Option.some.inj (agrees.sent.symm.trans sent)
  have named := (sameVariant_iff minting.reads.variantGid minting.reads.variantId).mp agrees.variant
    (str "gid://shopify/Product/1001") (by decide)
  rw [← plainVariant_iff] at named
  exact absurd named (by decide)

/-- A variant that is a lone surrogate: the mutation is sent, and the permalink cannot be built. -/
theorem surrogate_variant_stranded :
    letI := CodeUnicode.plain
    ¬ Unstranded obliging minted emptyBooks (mintedFor [0xD800]) := by
  let _ := Spelling.strings Binary64
  let _ := CodeUnicode.plain
  let _ := Decimals.blank Binary64
  let _ := Hosts.unnamed
  let _ := EventTexts.encodable
  intro kept
  have sent : (mintedFor [0xD800]).sent.isSome = true := by decide
  obtain ⟨input, sent⟩ := Option.isSome_iff_exists.mp sent
  have fresh : Fileable emptyBooks.register minted := by
    intro entry filed
    cases filed
  obtain ⟨created, returned⟩ := kept.offered input sent ⟨_, .object [], rfl, rfl, rfl⟩ fresh
  obtain ⟨ready, minting⟩ := createCode_returns returned
  obtain ⟨url, linked, -⟩ := minting.linked
  have variant : offerVariantId (offerOn [0xD800]) = .ok (some [0xD800]) := by decide
  have named : ready.variantId = some [0xD800] := Except.ok.inj (minting.reads.variantId.symm.trans variant)
  have quotable := (buildCartPermalink_returns ready (quote_mintCode _)).mp ⟨url, linked⟩ [0xD800] named
  cases quotable

end Variants

end Proxyshop.Merchant
