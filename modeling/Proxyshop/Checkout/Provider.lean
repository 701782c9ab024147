import Proxyshop.Contracts.Boundary
import Proxyshop.Structures.Fallible
import Proxyshop.Verification.Normalize

/-!
# The checkout port

A won offer becomes a code and a permalink. What a provider's `mint` brings into existence is reported while
it runs; what becomes of it is followed to every exit of the port.
-/

namespace Proxyshop.Checkout

open Python Numbers Contracts Verification Structures

/-! ## What the port is given -/

/-- A value that a provider hands over: one of the wire, or another object, of which only what `str` and
`float` make of it is seen, where they do not raise. -/
inductive Object (F : Type)
  | wire (v : Wire F)
  | other (text : Option Str) (number : Option (Extended F))

/-- What `urlsplit` reads; no host and one that does not parse are `none`. -/
structure SplitUrl where
  scheme : Str
  hostname : Option Str
  query : Str

/-- The URL parser, the sweep of addresses out of a text, and the rendering of a value that is no text. -/
class Urls (F : Type) where
  urlsplit : Str → Option SplitUrl
  parseQsl : Str → Option (List (Str × Str))
  redactAddresses : Str → Str
  describe : Wire F → Str

/-- The platform's lookup: no such function, or one that answers or raises. -/
inductive RegisteredDomains (F : Type)
  | uncallable
  | lookup (domainFor : Str → Option (Wire F))

structure Request (F : Type) where
  auctionId : Str
  bidRef : Str
  storeId : Str
  storeDomain : Str
  offer : Dict Str (Wire F)
  mode : Str
  now : Extended F
  registeredDomains : Option (RegisteredDomains F)

structure Minted (F : Type) where
  code : Object F
  permalinkUrl : Object F
  expiresAt : Object F

structure Orphan (F : Type) where
  code : Object F
  permalinkUrl : Object F
  provider : Str
  storeId : Str
  auctionId : Str
  bidRef : Str
  expiresAt : Object F

/-- How a call of `mint` ends. -/
inductive Ending (F : Type)
  | returned (minted : Minted F)
  /-- A value that has no code, permalink or expiry to read. -/
  | unreadable
  | orphaned (orphan : Orphan F)
  | offDomain
  | failed
  /-- An exception that is no `Exception`. -/
  | interrupted

/-- The codes created while `mint` ran, as reported to the ledger, and how it ended. -/
structure Mint (F : Type) where
  recorded : List Str
  filled : ∀ code ∈ recorded, code ≠ []
  ending : Ending F

inductive PublishError
  | malformed
  | failed

structure Provider (F : Type) where
  name : Str
  mint : Request F → Mint F
  token : Str
  /-- `build_published_event`, of a kind and a payload. -/
  publish : Str → List (Str × Object F) → Except PublishError Unit

inductive Refusal
  | offDomain
  | unusableOffer
  | windowClosed
  | python (e : PyError)
  deriving DecidableEq

structure Event (F : Type) where
  kind : Str
  payload : List (Str × Object F)
  auctionId : Str
  storeId : Str

structure Result (F : Type) where
  code : Object F
  permalinkUrl : Object F
  events : List (Event F)
  mode : Str
  provider : Str
  checkoutToken : Str
  expiresAt : Object F
  domainVerified : Bool

inductive OrphanKind
  | offDomain
  | unusableDiscount
  | plain

inductive Raised
  | refused (cause : Refusal)
  | attributeError
  | unwritable
  | failed
  | offDomain
  | interrupted

inductive Exit (F : Type)
  | orphaned (kind : OrphanKind) (orphan : Orphan F)
  | raised (cause : Raised)

namespace Object

variable {F : Type}

/-- `str(v)`, where it does not raise. -/
def text [Spelling F] : Object F → Option Str
  | .wire v => (Wire.write Spelling.text v).toOption
  | .other text _ => text

def isNone : Object F → Bool
  | .wire v => v.isNull
  | .other _ _ => false

/-- `_as_number`. -/
def asNumber [Format F] [Unicode] (v : Object F) : Option (Extended F) :=
  let number : Option (Extended F) := match v with
    | .wire (.number n) => n.toDouble.toOption
    | .wire (.string s) => NumberText.readFloat? s
    | .wire _ => none
    | .other _ number => number
  number.filter fun x => match x with
    | .nan => false
    | _ => true

end Object

section Port

variable {F : Type} [Format F] [DecidableEq F] [Spelling F] [Urls F] [Folding]

/-! ## The registered domain -/

def isBlank (text : Str) : Bool := text.strip.isEmpty

/-- `str(v)` of a value of the wire. -/
def textOf (v : Wire F) : Except Refusal Str := (Wire.write Spelling.text v).mapError .python

/-- `_usable`. -/
def usable (domain : Wire F) : Except Refusal Str :=
  if domain.truthy then do
    if isBlank (← textOf domain) then .error .offDomain
    else
      match domain with
      | .string domain => .ok (Urls.redactAddresses F domain)
      | domain => .ok (Urls.describe domain)
  else .error .offDomain

/-- `registered_domain_for`. -/
def registeredDomainFor (request : Request F) : Except Refusal Str :=
  match request.registeredDomains with
  | none => usable (.string request.storeDomain : Wire F)
  | some .uncallable => .error (.python .typeError)
  | some (.lookup domainFor) => match domainFor request.storeId with
      | none => .error .offDomain
      | some domain => usable domain

/-! ## The host of a URL -/

def allowedCheckoutSchemes : List Str := [str "https", str "http"]

def hostKey (host : Str) : Str := (Unicode.lower host).rdropWhile (· = CodePoint.ofChar '.')

/-- `_reason` has nothing to say against the URL. -/
def isOnDomain (url registered : Str) : Bool :=
  !isBlank registered && !isBlank url &&
    (Urls.urlsplit F url).any fun parts => Unicode.lower parts.scheme ∈ allowedCheckoutSchemes &&
      parts.hostname.any fun host => !host.isEmpty && hostKey host = hostKey registered.strip

/-- `_as_text`. -/
def asText (url : Object F) : Str :=
  if url.isNone then [] else url.text.getD (str "<unrenderable-url>")

/-! ## What the code is made of -/

/-- `MAX_CODE_TTL_SECONDS`. -/
def maxCodeTtlSeconds : Extended F := 172800.0

/-- `.timestamp()` of an instant. -/
def timestamp (t : DateTime) : Extended F := Format.round ((t.instant - epochMicros : Int) / 1000000 : ℚ)

/-- `expiry_epoch`. -/
def expiryEpoch (expiresAt : Wire F) : Except Refusal (Extended F) :=
  match expiresAt with
  | .bool b => .ok (if b then 1.0 else 0.0)
  | .number n => n.toDouble.mapError .python
  | expiresAt => match parseTimestamp expiresAt with
      | some parsed => .ok (timestamp parsed)
      | none => match Wire.toDouble expiresAt with
          | .ok seconds => .ok seconds
          | .error _ => .error .unusableOffer

def field (offer : Dict Str (Wire F)) (name : Str) : Wire F := Json.get (.object offer) name

/-- `code_expiry`. -/
def codeExpiry (now : Extended F) (offer : Dict Str (Wire F)) : Except Refusal (Extended F) :=
  let ceiling := now + maxCodeTtlSeconds
  let expiresAt := field offer (str "expires_at")
  if expiresAt.isNull then .ok ceiling
  else do return Extended.least ceiling (← expiryEpoch expiresAt)

/-- `offer_quantity`. -/
def offerQuantity (offer : Dict Str (Wire F)) : Except Refusal Int :=
  match field offer (str "quantity") with
  | .null => .ok 1
  | .string [] => .ok 1
  | quantity => match Wire.toInt quantity with
      | .ok value => if value < 1 then .error .unusableOffer else .ok value
      | .error .typeError => .error .unusableOffer
      | .error .valueError => .error .unusableOffer
      | .error e => .error (.python e)

def unreadableUnitPriceWhys : List Str := [str "not_a_number", str "negative"]

/-- `_unreadable_unit_price_reasons`. -/
def unreadableUnitPriceReasons (offer : Dict Str (Wire F)) : Except Refusal (List Str) :=
  if (field offer (str "unit_price")).isNull then .ok []
  else do
    let bid : Wire F := .object [(str "offer", .object offer)]
    let reasons ← (Boundary.priceReasons bid [] .null).mapError .python
    return reasons.filter fun reason => reason ∈ unreadableUnitPriceWhys.map (unreconcilable offerUnitPriceSite)

/-- `assert_offer_is_mintable`, with the deadline it hands back. -/
def assertOfferIsMintable (offer : Dict Str (Wire F)) (now : Extended F) : Except Refusal (Extended F) := do
  let deadline ← codeExpiry now offer
  let _ ← offerQuantity offer
  let refused ← unreadableUnitPriceReasons offer
  if refused = [] then return deadline else .error .unusableOffer

/-- `window_reason` has something to say. -/
def windowClosed (expiresAt : Object F) (now : Extended F) : Bool :=
  match expiresAt.asNumber, (Object.wire (.number (.double now))).asNumber with
  | some deadline, some moment => !decide (moment < deadline)
  | _, _ => false

/-- `checkout_url`. -/
def checkoutUrl (request : Request F) : Except Refusal Str :=
  let url := field request.offer (str "checkout_url")
  if url.truthy then textOf url else .ok []

/-! ## Before the mint -/

def assertOnDomain (request : Request F) (registered : Str) : Except Refusal Unit := do
  let url ← checkoutUrl request
  if url ≠ [] ∧ isOnDomain (F := F) url registered = false then .error .offDomain

/-- Everything `checkout` does ahead of the mint, and the domain it holds the rest against. -/
def preMint (request : Request F) : Except Refusal Str := do
  let registered ← registeredDomainFor request
  assertOnDomain request registered
  let deadline ← assertOfferIsMintable request.offer request.now
  if windowClosed (.wire (.number (.double deadline))) request.now then .error .windowClosed
  else return registered

/-! ## The cart -/

def discountQueryKeys : List Str := [str "discount"]

/-- `applied_discount_codes`. -/
def appliedDiscountCodes (permalinkUrl : Object F) : List Str :=
  let text := if permalinkUrl.isNone then [] else permalinkUrl.text.getD []
  if isBlank text then []
  else
    let pairs := (Urls.urlsplit F text).bind fun parts => Urls.parseQsl F parts.query
    (pairs.getD []).filterMap fun pair =>
      if Unicode.lower pair.1.strip ∈ discountQueryKeys then some pair.2 else none

/-- `same_code`. -/
def sameCode (applied : Str) (code : Object F) : Bool :=
  code.text.any fun text => Folding.casefold applied.strip = Folding.casefold text.strip

def rivals (permalinkUrl code : Object F) : List Str :=
  (appliedDiscountCodes permalinkUrl).filter fun applied => !isBlank applied && !sameCode applied code

/-! ## The mint and after it -/

def orphanOf (provider : Provider F) (request : Request F) (code permalinkUrl expiresAt : Object F) : Orphan F where
  code := code
  permalinkUrl := permalinkUrl
  provider := provider.name
  storeId := request.storeId
  auctionId := request.auctionId
  bidRef := request.bidRef
  expiresAt := expiresAt

/-- A failure inside `mint`: it becomes an orphan of the last code reported, where there is one. -/
def lostInside (provider : Provider F) (request : Request F) (recorded : List Str) (kind : OrphanKind)
    (cause : Raised) : Exit F :=
  match recorded.getLast? with
  | none => .raised cause
  | some [] => .raised cause
  | some code => .orphaned kind
      (orphanOf provider request (.wire (.string code)) (.wire (.string [])) (.wire .null))

/-- `_mint_recording_orphans`, and the attributes that `checkout` reads off the value. -/
def mintRecordingOrphans (provider : Provider F) (request : Request F) : Except (Exit F) (Minted F) :=
  let called := provider.mint request
  match called.ending with
  | .returned minted => .ok minted
  | .unreadable => .error (.raised .attributeError)
  | .orphaned orphan => .error (.orphaned .plain orphan)
  | .offDomain => .error (lostInside provider request called.recorded .offDomain .offDomain)
  | .failed => .error (lostInside provider request called.recorded .plain .failed)
  | .interrupted => .error (.raised .interrupted)

def acceptedKind : Str := str "accepted"

def codeCreatedKind : Str := str "code_created"

def checkoutRedirectKind : Str := str "checkout_redirect"

def offerFields : List Str :=
  ["product_ref", "unit_price", "total_price", "discount", "delivery_estimate_days"].map str

def bodies (provider : Provider F) (request : Request F) (minted : Minted F) (verified : Bool)
    (expiresAt : Object F) : List (Str × List (Str × Object F)) :=
  let token : Object F := .wire (.string provider.token)
  [(acceptedKind,
      [(str "checkout_token", token), (str "bid_ref", .wire (.string request.bidRef)),
        (str "offer", .wire (.object (offerFields.map fun name => (name, field request.offer name))))]),
    (codeCreatedKind,
      [(str "code", minted.code), (str "permalink_url", minted.permalinkUrl), (str "expires_at", expiresAt),
        (str "checkout_token", token), (str "discount_code", minted.code)]),
    (checkoutRedirectKind,
      [(str "checkout_token", token), (str "permalink_url", minted.permalinkUrl),
        (str "discount_code", minted.code), (str "domain_verified", .wire (.bool verified))])]

/-- `_events`: a body that is not of its published shape costs the checkout the event. -/
def events (provider : Provider F) (request : Request F) (minted : Minted F) (verified : Bool)
    (expiresAt : Object F) : Except PublishError (List (Event F)) := do
  let published ← (bodies provider request minted verified expiresAt).mapM fun body =>
    match provider.publish body.1 body.2 with
    | .ok () => .ok (some ⟨body.1, body.2, request.auctionId, request.storeId⟩)
    | .error .malformed => .ok none
    | .error .failed => .error .failed
  return published.reduceOption

/-- The expiry of the result: the provider's own, or the one of the offer. -/
def resultExpiry (request : Request F) (minted : Minted F) : Except Refusal (Object F) :=
  if minted.expiresAt.isNone then
    (codeExpiry request.now request.offer).map fun seconds => .wire (.number (.double seconds))
  else .ok minted.expiresAt

/-- The result that is built once nothing is held against the code, where building it does not raise. -/
def buildResult (provider : Provider F) (request : Request F) (minted : Minted F) : Option (Result F) :=
  let verified := request.registeredDomains.isSome
  match resultExpiry request minted with
  | .error _ => none
  | .ok expiresAt => match events provider request minted verified expiresAt with
      | .error _ => none
      | .ok events => some {
          code := minted.code
          permalinkUrl := minted.permalinkUrl
          events := events
          mode := request.mode
          provider := provider.name
          checkoutToken := provider.token
          expiresAt := expiresAt
          domainVerified := verified }

/-- `checkout`, once a code may exist. -/
def complete (provider : Provider F) (request : Request F) (registered : Str) (minted : Minted F) :
    Except (Exit F) (Result F) :=
  let orphan := orphanOf provider request minted.code minted.permalinkUrl minted.expiresAt
  if isOnDomain (F := F) (asText minted.permalinkUrl) registered = false then
    .error (.orphaned .offDomain orphan)
  else if windowClosed minted.expiresAt request.now then .error (.orphaned .unusableDiscount orphan)
  else if rivals minted.permalinkUrl minted.code ≠ [] then
    -- the refusal spells the code, which need not be a text
    if minted.code.text.isSome then .error (.orphaned .unusableDiscount orphan)
    else .error (.raised .unwritable)
  else
    match buildResult provider request minted with
    | none => .error (.orphaned .plain orphan)
    | some result => .ok result

/-- `checkout`: the codes created while it ran, and how it ended. -/
def checkout (provider : Provider F) (request : Request F) : List Str × Except (Exit F) (Result F) :=
  match preMint request with
  | .error cause => ([], .error (.raised (.refused cause)))
  | .ok registered => ((provider.mint request).recorded, do
      complete provider request registered (← mintRecordingOrphans provider request))

end Port

/-! ## Where the code goes -/

section Exits

variable {F : Type}

/-- The value is the code that was created, and no other code was. -/
def Created (created : List Str) (code : Object F) : Prop :=
  ∃ c, code = .wire (.string c) ∧ c ∈ created ∧ ∀ other ∈ created, other = c

def Completed (created : List Str) : Except (Exit F) (Result F) → Prop
  | .ok result => Created created result.code
  | .error _ => False

def Clean (created : List Str) : Except (Exit F) (Result F) → Prop
  | .ok _ => False
  | .error _ => created = []

def Carried (created : List Str) : Except (Exit F) (Result F) → Prop
  | .error (.orphaned _ orphan) => Created created orphan.code
  | _ => False

def Accounted (ended : List Str × Except (Exit F) (Result F)) : Prop :=
  (Completed ended.1 ended.2 ∧ ¬ Clean ended.1 ended.2 ∧ ¬ Carried ended.1 ended.2) ∨
    (¬ Completed ended.1 ended.2 ∧ Clean ended.1 ended.2 ∧ ¬ Carried ended.1 ended.2) ∨
      (¬ Completed ended.1 ended.2 ∧ ¬ Clean ended.1 ended.2 ∧ Carried ended.1 ended.2)

theorem accounted_ok {created : List Str} {result : Result F} :
    Accounted (created, .ok result) ↔ Created created result.code := by
  simp [Accounted, Completed, Clean, Carried]

theorem accounted_raised {created : List Str} {cause : Raised} :
    Accounted (created, (.error (.raised cause) : Except (Exit F) (Result F))) ↔ created = [] := by
  simp [Accounted, Completed, Clean, Carried]

theorem accounted_orphaned {created : List Str} {kind : OrphanKind} {orphan : Orphan F} :
    Accounted (created, (.error (.orphaned kind orphan) : Except (Exit F) (Result F))) ↔
      created = [] ∨ Created created orphan.code := by
  have apart : ¬ (created = [] ∧ Created created orphan.code) := by
    rintro ⟨rfl, c, -, member, -⟩
    cases member
  simp only [Accounted, Completed, Clean, Carried]
  tauto

end Exits

section Laws

variable {F : Type} [Format F] [DecidableEq F] [Spelling F] [Urls F] [Folding]

inductive RefusedBefore (request : Request F) : Prop
  | domain {cause : Refusal} (unplaced : registeredDomainFor request = .error cause)
  | url {cause : Refusal} (unwritable : checkoutUrl request = .error cause)
  | host {registered url : Str} (placed : registeredDomainFor request = .ok registered)
      (stated : checkoutUrl request = .ok url) (filled : url ≠ []) (off : isOnDomain (F := F) url registered = false)
  | expiry {cause : Refusal} (unreadable : codeExpiry request.now request.offer = .error cause)
  | quantity {cause : Refusal} (unreadable : offerQuantity request.offer = .error cause)
  | price {cause : Refusal} (unread : unreadableUnitPriceReasons request.offer = .error cause)
  | unpriced {reasons : List Str} (read : unreadableUnitPriceReasons request.offer = .ok reasons)
      (refused : reasons ≠ [])
  | window {deadline : Extended F} (read : codeExpiry request.now request.offer = .ok deadline)
      (closed : windowClosed (.wire (.number (.double deadline))) request.now = true)

omit [DecidableEq F] in
theorem assertOnDomain_eq_ok {request : Request F} {registered : Str} : assertOnDomain request registered = .ok () ↔
    ∃ url, checkoutUrl request = .ok url ∧ (url ≠ [] → isOnDomain (F := F) url registered = true) := by
  rw [assertOnDomain, bind_eq_ok]
  refine exists_congr fun url => and_congr_right fun _ => ?_
  by_cases off : url ≠ [] ∧ isOnDomain (F := F) url registered = false
  · rw [if_pos off]
    refine iff_of_false nofun fun on => ?_
    rw [on off.1] at off
    cases off.2
  · rw [if_neg off]
    refine iff_of_true rfl fun filled => ?_
    by_contra elsewhere
    exact off ⟨filled, Bool.eq_false_of_not_eq_true elsewhere⟩

omit [Spelling F] [Urls F] in
theorem assertOfferIsMintable_eq_ok {offer : Dict Str (Wire F)} {now deadline : Extended F} :
    assertOfferIsMintable offer now = .ok deadline ↔ codeExpiry now offer = .ok deadline ∧
      (∃ quantity, offerQuantity offer = .ok quantity) ∧ unreadableUnitPriceReasons offer = .ok [] := by
  simp only [assertOfferIsMintable, bind_eq_ok]
  constructor
  · rintro ⟨_, expiry, quantity, stated, reasons, price, read⟩
    split at read
    · rename_i none
      cases read
      exact ⟨expiry, ⟨quantity, stated⟩, none ▸ price⟩
    · cases read
  · rintro ⟨expiry, ⟨quantity, stated⟩, price⟩
    exact ⟨deadline, expiry, quantity, stated, [], price, if_pos rfl⟩

theorem preMint_eq_ok {request : Request F} {registered : Str} : preMint request = .ok registered ↔
    registeredDomainFor request = .ok registered ∧ assertOnDomain request registered = .ok () ∧
      ∃ deadline, assertOfferIsMintable request.offer request.now = .ok deadline ∧
        windowClosed (.wire (.number (.double deadline))) request.now = false := by
  simp only [preMint, bind_eq_ok]
  constructor
  · rintro ⟨_, placed, _, on, deadline, mintable, window⟩
    split at window
    · cases window
    · rename_i ahead
      cases window
      exact ⟨placed, on, deadline, mintable, Bool.eq_false_of_not_eq_true ahead⟩
  · rintro ⟨placed, on, deadline, mintable, ahead⟩
    refine ⟨registered, placed, (), on, deadline, mintable, ?_⟩
    rw [ahead]
    rfl

theorem refusedBefore_iff {request : Request F} : RefusedBefore request ↔ ∃ cause, preMint request = .error cause := by
  constructor
  · intro refused
    cases gate : preMint request with
    | error cause => exact ⟨cause, rfl⟩
    | ok registered =>
        obtain ⟨placed, on, deadline, mintable, ahead⟩ := preMint_eq_ok.mp gate
        obtain ⟨url, stated, hosted⟩ := assertOnDomain_eq_ok.mp on
        obtain ⟨expiry, ⟨quantity, counted⟩, price⟩ := assertOfferIsMintable_eq_ok.mp mintable
        cases refused with
        | domain unplaced => cases placed.symm.trans unplaced
        | url unwritable => cases stated.symm.trans unwritable
        | host placed' stated' filled off =>
            cases placed.symm.trans placed'
            cases stated.symm.trans stated'
            cases (hosted filled).symm.trans off
        | expiry unreadable => cases expiry.symm.trans unreadable
        | quantity unreadable => cases counted.symm.trans unreadable
        | price unread => cases price.symm.trans unread
        | unpriced read refused =>
            cases price.symm.trans read
            exact absurd rfl refused
        | window read closed =>
            cases expiry.symm.trans read
            cases ahead.symm.trans closed
  · rintro ⟨cause, failed⟩
    by_contra passes
    have placed : ∃ registered, registeredDomainFor request = .ok registered := by
      cases placed : registeredDomainFor request with
      | error cause => exact absurd (.domain placed) passes
      | ok registered => exact ⟨registered, rfl⟩
    obtain ⟨registered, placed⟩ := placed
    have on : assertOnDomain request registered = .ok () := by
      cases stated : checkoutUrl request with
      | error cause => exact absurd (.url stated) passes
      | ok url =>
          refine assertOnDomain_eq_ok.mpr ⟨url, stated, fun filled => ?_⟩
          by_contra off
          exact passes (.host placed stated filled (Bool.eq_false_of_not_eq_true off))
    have mintable : ∃ deadline, codeExpiry request.now request.offer = .ok deadline ∧
        assertOfferIsMintable request.offer request.now = .ok deadline := by
      cases expiry : codeExpiry request.now request.offer with
      | error cause => exact absurd (.expiry expiry) passes
      | ok deadline => cases counted : offerQuantity request.offer with
        | error cause => exact absurd (.quantity counted) passes
        | ok quantity => cases price : unreadableUnitPriceReasons request.offer with
          | error cause => exact absurd (.price price) passes
          | ok reasons =>
              by_cases none : reasons = []
              · exact ⟨deadline, rfl, assertOfferIsMintable_eq_ok.mpr ⟨expiry, ⟨quantity, counted⟩, none ▸ price⟩⟩
              · exact absurd (.unpriced price none) passes
    obtain ⟨deadline, expiry, mintable⟩ := mintable
    have ahead : windowClosed (.wire (.number (.double deadline))) request.now = false := by
      by_contra closed
      exact passes (.window expiry (Bool.eq_true_of_not_eq_false closed))
    rw [preMint_eq_ok.mpr ⟨placed, on, deadline, mintable, ahead⟩] at failed
    cases failed

/-! ## After the mint -/

/-- Every event can be published, or is refused for its shape alone. -/
def Publishes (provider : Provider F) (request : Request F) (minted : Minted F) : Prop :=
  ∀ expiresAt, resultExpiry request minted = .ok expiresAt →
    ∀ body ∈ bodies provider request minted request.registeredDomains.isSome expiresAt,
      provider.publish body.1 body.2 ≠ .error .failed

/-- Nothing is held against the permalink, the window and the cart of what the provider returned. -/
structure Usable (provider : Provider F) (request : Request F) (registered : Str) (minted : Minted F) : Prop where
  onDomain : isOnDomain (F := F) (asText minted.permalinkUrl) registered = true
  ahead : windowClosed minted.expiresAt request.now = false
  applies : rivals minted.permalinkUrl minted.code = []
  published : Publishes provider request minted

omit [DecidableEq F] [Spelling F] [Urls F] [Folding] [Format F] in
theorem events_returns (provider : Provider F) (request : Request F) (minted : Minted F) (verified : Bool)
    (expiresAt : Object F) : (∃ published, events provider request minted verified expiresAt = .ok published) ↔
      ∀ body ∈ bodies provider request minted verified expiresAt,
        provider.publish body.1 body.2 ≠ .error .failed := by
  rw [events, bind_returns]
  refine Iff.trans ⟨fun ⟨published, read, _⟩ => ⟨published, read⟩, fun ⟨published, read⟩ => ⟨published, read, _, rfl⟩⟩
    (mapM_returns.trans (forall₂_congr fun body _ => ?_))
  cases provider.publish body.1 body.2 with
  | ok _ => exact iff_of_true ⟨_, rfl⟩ nofun
  | error cause => cases cause with
    | malformed => exact iff_of_true ⟨_, rfl⟩ nofun
    | failed => exact iff_of_false nofun fun other => other rfl

theorem resultExpiry_returns {request : Request F} {minted : Minted F} (passed : ¬ RefusedBefore request) :
    ∃ expiresAt, resultExpiry request minted = .ok expiresAt := by
  unfold resultExpiry
  split
  · cases expiry : codeExpiry request.now request.offer with
    | error cause => exact absurd (.expiry expiry) passed
    | ok seconds => exact ⟨_, rfl⟩
  · exact ⟨_, rfl⟩

theorem buildResult_isSome (provider : Provider F) {request : Request F} (minted : Minted F)
    (passed : ¬ RefusedBefore request) :
    (buildResult provider request minted).isSome = true ↔ Publishes provider request minted := by
  obtain ⟨expiresAt, expiry⟩ : ∃ expiresAt, resultExpiry request minted = .ok expiresAt :=
    resultExpiry_returns passed
  have published := events_returns provider request minted request.registeredDomains.isSome expiresAt
  simp only [Publishes, expiry, Except.ok.injEq, forall_eq', ← published]
  rw [buildResult, expiry]
  dsimp only
  cases events provider request minted request.registeredDomains.isSome expiresAt with
  | error cause => exact iff_of_false nofun nofun
  | ok published => exact iff_of_true rfl ⟨_, rfl⟩

theorem complete_returns {provider : Provider F} {request : Request F} {registered : Str} {minted : Minted F}
    (passed : ¬ RefusedBefore request) :
    (∃ result, complete provider request registered minted = .ok result) ↔
      Usable provider request registered minted := by
  have built := buildResult_isSome provider minted passed
  unfold complete
  by_cases off : isOnDomain (F := F) (asText minted.permalinkUrl) registered = false
  · rw [if_pos off]
    exact iff_of_false not_returns_error fun usable => Bool.false_ne_true (off.symm.trans usable.onDomain)
  · rw [if_neg off]
    by_cases closed : windowClosed minted.expiresAt request.now = true
    · rw [if_pos closed]
      exact iff_of_false not_returns_error fun usable => Bool.false_ne_true (usable.ahead.symm.trans closed)
    · rw [if_neg closed]
      by_cases rival : rivals minted.permalinkUrl minted.code ≠ []
      · rw [if_pos rival]
        refine iff_of_false ?_ fun usable => rival usable.applies
        split <;> exact not_returns_error
      · rw [if_neg rival]
        have usable : Usable provider request registered minted ↔ Publishes provider request minted :=
          ⟨Usable.published, fun published => ⟨Bool.eq_true_of_not_eq_false off, Bool.eq_false_of_not_eq_true closed,
            not_not.mp rival, published⟩⟩
        rw [usable, ← built]
        cases buildResult provider request minted with
        | none => exact iff_of_false not_returns_error Bool.false_ne_true
        | some result => exact iff_of_true ⟨result, rfl⟩ rfl

omit [DecidableEq F] [Spelling F] [Urls F] in
theorem buildResult_code {provider : Provider F} {request : Request F} {minted : Minted F} {result : Result F}
    (built : buildResult provider request minted = some result) : result.code = minted.code := by
  unfold buildResult at built
  dsimp only at built
  split at built
  · cases built
  · split at built
    · cases built
    · rw [← Option.some.inj built]

omit [DecidableEq F] in
theorem complete_cases (provider : Provider F) (request : Request F) (registered : Str) (minted : Minted F) :
    (∃ result, complete provider request registered minted = .ok result ∧ result.code = minted.code) ∨
      (∃ kind orphan, complete provider request registered minted = .error (.orphaned kind orphan) ∧
        orphan.code = minted.code) ∨
          complete provider request registered minted = .error (.raised .unwritable) ∧ minted.code.text = none := by
  unfold complete
  dsimp only
  split
  · exact Or.inr (Or.inl ⟨_, _, rfl, rfl⟩)
  · split
    · exact Or.inr (Or.inl ⟨_, _, rfl, rfl⟩)
    · split
      · split
        · exact Or.inr (Or.inl ⟨_, _, rfl, rfl⟩)
        · rename_i unwritable
          exact Or.inr (Or.inr ⟨rfl, Option.not_isSome_iff_eq_none.mp unwritable⟩)
      · cases built : buildResult provider request minted with
        | none => exact Or.inr (Or.inl ⟨_, _, rfl, rfl⟩)
        | some result => exact Or.inl ⟨result, rfl, buildResult_code built⟩

theorem complete_accounted {provider : Provider F} {request : Request F} {registered : Str} {minted : Minted F}
    {created : List Str} (passed : ¬ RefusedBefore request) :
    Accounted (created, complete provider request registered minted) ↔
      Created created minted.code ∨ created = [] ∧ ¬ Usable provider request registered minted := by
  rw [← complete_returns passed]
  rcases complete_cases provider request registered minted with
    ⟨result, completed, code⟩ | ⟨kind, orphan, refused, code⟩ | ⟨raised, unwritable⟩
  · rw [completed, accounted_ok, code]
    exact (or_iff_left fun both => both.2 ⟨result, rfl⟩).symm
  · rw [refused, accounted_orphaned, code, or_comm]
    exact or_congr_right (and_iff_left not_returns_error).symm
  · have textless : ¬ Created created minted.code := by
      rintro ⟨c, spelled, -⟩
      rw [spelled] at unwritable
      cases unwritable
    rw [raised, accounted_raised, or_iff_right textless]
    exact (and_iff_left not_returns_error).symm

/-- What the port needs of a `mint` that ran for a request held against a domain. -/
def KeepsTheCode (provider : Provider F) (request : Request F) (registered : Str) : Prop :=
  let created := (provider.mint request).recorded
  match (provider.mint request).ending with
  | .returned minted => Created created minted.code ∨ created = [] ∧ ¬ Usable provider request registered minted
  | .unreadable => created = []
  | .orphaned orphan => created = [] ∨ Created created orphan.code
  | .offDomain => ∀ c ∈ created, ∀ d ∈ created, c = d
  | .failed => ∀ c ∈ created, ∀ d ∈ created, c = d
  | .interrupted => created = []

omit [Format F] [DecidableEq F] [Spelling F] [Urls F] [Folding] in
theorem accounted_lostInside {provider : Provider F} {request : Request F} {created : List Str}
    (filled : ∀ code ∈ created, code ≠ []) (kind : OrphanKind) (cause : Raised) :
    Accounted (created, .error (lostInside provider request created kind cause)) ↔
      ∀ c ∈ created, ∀ d ∈ created, c = d := by
  unfold lostInside
  cases last : created.getLast? with
  | none =>
      rw [List.getLast?_eq_none_iff.mp last]
      exact iff_of_true (accounted_raised.mpr rfl) nofun
  | some code =>
      have member := List.mem_of_getLast? last
      cases code with
      | nil => exact absurd rfl (filled [] member)
      | cons c code =>
          have some_ : created ≠ [] := List.ne_nil_of_mem member
          dsimp only
          rw [accounted_orphaned, or_iff_right some_]
          constructor
          · rintro ⟨_, -, -, only⟩ c inside d inside'
            rw [only c inside, only d inside']
          · intro same
            exact ⟨_, rfl, member, fun other inside => same other inside _ member⟩

/-- The checkout port loses no code exactly where it refuses ahead of the mint or the mint keeps to its side. -/
theorem checkout_accounted_iff (provider : Provider F) (request : Request F) :
    (Accounted (checkout provider request) ∧ (RefusedBefore request → (checkout provider request).1 = [])) ↔
      (¬ RefusedBefore request → ∀ registered, registeredDomainFor request = .ok registered →
        KeepsTheCode provider request registered) := by
  cases gate : preMint request with
  | error cause =>
      have refused : RefusedBefore request := refusedBefore_iff.mpr ⟨cause, gate⟩
      rw [checkout, gate]
      exact iff_of_true ⟨accounted_raised.mpr rfl, fun _ => rfl⟩ fun passed => absurd refused passed
  | ok registered =>
      have passed : ¬ RefusedBefore request := by
        intro refused
        obtain ⟨cause, failed⟩ := refusedBefore_iff.mp refused
        cases gate.symm.trans failed
      obtain ⟨placed, -⟩ := preMint_eq_ok.mp gate
      rw [and_iff_left fun refused => absurd refused passed, forall_prop_of_true passed, checkout, gate, placed]
      simp only [Except.ok.injEq, forall_eq', KeepsTheCode, mintRecordingOrphans]
      have filled := (provider.mint request).filled
      cases (provider.mint request).ending with
      | returned minted => exact complete_accounted passed
      | unreadable => exact accounted_raised
      | orphaned orphan => exact accounted_orphaned
      | offDomain => exact accounted_lostInside filled _ _
      | failed => exact accounted_lostInside filled _ _
      | interrupted => exact accounted_raised

end Laws

/-! ## A mint that forgets to return -/

@[reducible] def Urls.none (F : Type) : Urls F where
  urlsplit _ := Option.none
  parseQsl _ := Option.none
  redactAddresses text := text
  describe _ := []

def plainRequest : Request Binary64 where
  auctionId := str "a-1"
  bidRef := str "b-1"
  storeId := str "s-1"
  storeDomain := str "s.example.com"
  offer := []
  mode := str "redirect"
  now := 0.0
  registeredDomains := none

/-- Its `mint` creates a code and returns `None`. -/
def forgetful : Provider Binary64 where
  name := str "forgetful"
  mint _ := ⟨[str "PSX-0123ABCD"], by simp [str], .unreadable⟩
  token := str "t-1"
  publish _ _ := .ok ()

theorem forgetful_loses_code :
    letI := Spelling.strings Binary64
    letI := Urls.none Binary64
    letI := Folding.ascii
    ¬ Accounted (checkout forgetful plainRequest) := by
  let _ := Spelling.strings Binary64
  let _ := Urls.none Binary64
  let _ := Folding.ascii
  have gate : preMint plainRequest = .ok (str "s.example.com") := by decide +kernel
  rw [checkout, gate]
  exact fun accounted => nomatch accounted_raised.mp accounted

end Proxyshop.Checkout
