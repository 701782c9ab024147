import Proxyshop.Contracts.Boundary

/-!
# Collecting the bids of an auction

A roster and whatever came back become one entry for each store of the roster: its bid, or an offer
at its list price with the reason for it.
-/

namespace Proxyshop.Auction

open Python Numbers Contracts

/-- A row of the roster; its store is written as a text by every reader. -/
structure Rostered (F : Type) where
  storeId : Str
  fields : Dict Str (Wire F)

/-- What the fan-out handed back for one store. The markers and the refusal are the exchange's own
words; the bid is what the store answered. -/
structure Response (F : Type) where
  storeId : Option Str
  refusal : Option Str
  timedOut : Bool
  notAsked : Bool
  noAgent : Bool
  receivedAt : Wire F
  bid : Wire F

structure BidEntry (F : Type) where
  storeId : Str
  tier : Int
  fallback : Bool
  bid : Wire F
  receivedAt : Option (Extended F)
  fallbackReason : Option Str
  claims : List (Wire F)
  priceReasons : List Str
  boundaryReasons : List Str
  listPrice : Option (Extended F)

namespace Rostered

variable {F : Type}

def get (row : Rostered F) (key : Str) : Wire F := (Dict.get? row.fields key).getD .null

def value (row : Rostered F) : Wire F := .object row.fields

end Rostered

namespace Collect

def unreconcilablePriceReason : Str := str "bid_price_unreconcilable"

def illegibleOfferReason : Str := unreconcilable offerSite (str "illegible")

def storeDeclinedReason : Str := str "store_declined"

def storeRefusedReason : Str := str "store_refused"

def unprovenancedClaimReason : Str := str "bid_claim_unprovenanced"

def provenanceReasonPrefixes : List Str :=
  [reasonClaimWithoutProvenance, reasonClaimProvenanceEmptySource,
    reasonClaimProvenanceUnknownSource, reasonHostedNonHookProvenance,
    reasonUnverifiableClaimSite, reasonClaimValueUnwalkable,
    reasonUnverifiedDiscountAuthorisation]

def responseTimedOutReason : Str := str "response_timed_out"

def fanOutCapacityReason : Str := str "fan_out_capacity_exhausted"

def noAgentReason : Str := str "tier_0_no_agent:no_bid_endpoint"

def fallbackReasons : List Str :=
  [str "tier_0_no_agent", str "no_response", responseTimedOutReason, fanOutCapacityReason,
    str "response_after_deadline", str "response_carried_no_bid", str "response_not_stamped",
    str "arrival_stamp_unparseable", unreconcilablePriceReason, unprovenancedClaimReason,
    storeDeclinedReason, storeRefusedReason]

/-! ## Refusals -/

def maxRefusalDetailLength : Nat := 64

def isRefusalDetailCharacter (c : CodePoint) : Bool :=
  (97 ≤ c.val && c.val ≤ 122) || (65 ≤ c.val && c.val ≤ 90) || (48 ≤ c.val && c.val ≤ 57) ||
    c = CodePoint.ofChar '_' || c = CodePoint.ofChar '-' || c = CodePoint.ofChar '.'

/-- `refusal_reason`. -/
def refusalReason (family : Str) (detail : Option Str) : Str :=
  let token := family.strip
  match detail.map Str.strip with
  | none | some [] => token
  | some rendered =>
      if maxRefusalDetailLength < rendered.length ∨ !rendered.all isRefusalDetailCharacter then
        reasonAt token (str "undisclosed")
      else reasonAt token rendered

def isColon (c : CodePoint) : Bool := c = CodePoint.ofChar ':'

def familyOf (reason : Str) : Str := reason.takeWhile fun c => !isColon c

/-- What `_unusable_because` makes of a refusal the solicitor wrote. -/
def refusedBecause (stated : Str) : Str :=
  if familyOf stated ∈ fallbackReasons then
    refusalReason (familyOf stated) (Str.nonEmpty? ((stated.dropWhile fun c => !isColon c).drop 1))
  else refusalReason storeRefusedReason (some stated)

section Readings

variable {F : Type} [Format F]

/-- `_unusable_because`. -/
def unusableBecause [Unicode] (response : Response F) (deadline : Extended F) :
    Except PyError (Option Str) :=
  match (response.refusal.map Str.strip).bind Str.nonEmpty? with
  | some stated => .ok (some (refusedBecause stated))
  | none =>
      if response.timedOut then .ok (some responseTimedOutReason)
      else if response.notAsked then .ok (some fanOutCapacityReason)
      else if response.noAgent then .ok (some noAgentReason)
      else if response.bid.record?.isNone then .ok (some (str "response_carried_no_bid"))
      else if response.receivedAt.isNull then .ok (some (str "response_not_stamped"))
      else
        match Wire.toDouble response.receivedAt with
        | .error .overflowError => .error .overflowError
        | .error _ => .ok (some (str "arrival_stamp_unparseable"))
        | .ok arrived =>
            if arrived ≤ deadline then .ok none else .ok (some (str "response_after_deadline"))

/-! ## The fallback -/

def fallbackOfferTtlSeconds : Extended F := 900.0

/-- `fallback_expires_at`. -/
def fallbackExpiresAt (deadline : Extended F) : Option Str :=
  if deadline.isFinite then
    (fromTimestamp (deadline + fallbackOfferTtlSeconds)).map fun expires =>
      (expires.isoFormat (str "T")).replace (str "+00:00") (str "Z")
  else none

def text? : Option Str → Wire F
  | some s => .string s
  | none => .null

def variantRef (entry : Rostered F) : Dict Str (Wire F) :=
  match entry.get (str "variant_ref") with
  | .string raw => if raw.strip.isEmpty then [] else [(str "variant_ref", .string raw.strip)]
  | _ => []

/-- `_list_price_bid`. -/
def listPriceBid (entry : Rostered F) (auctionId : Option Str) (deadline : Extended F) :
    Except PyError (Wire F) := do
  let listed ← Wire.finiteNumber (entry.get (str "list_price"))
  let head : Dict Str (Wire F) :=
    [(str "product_ref", entry.get (str "product_ref")),
      (str "currency", (Dict.get? entry.fields (str "currency")).getD (.string (str "USD")))]
  let undated : Dict Str (Wire F) := head ++ [(str "expires_at", .null)] ++ variantRef entry
  let offer : Dict Str (Wire F) :=
    match listed with
    | none => undated
    | some listed =>
        if listed ≤ 0.0 then undated
        else
          head ++ [(str "expires_at", text? (fallbackExpiresAt deadline))] ++ variantRef entry ++
            [(str "unit_price", .number (.double listed)), (str "total_price", .number (.double listed))]
  return .object
    [(str "auction_id", text? auctionId), (str "store_id", .string entry.storeId),
      (str "offer", .object offer), (str "claims", .array []), (str "fallback", .bool true)]

/-! ## Whether a price is judged -/

/-- `_declares_a_discount`. -/
def declaresADiscount (offer : Wire F) : Except PyError Bool :=
  let discount := offer.get (str "discount")
  if discount.isNull then .ok false
  else
    match discount.get (str "value") with
    | .number n => do
        match ← n.toDouble with
        | .finite x => return Format.value x ≠ 0
        | _ => return true
    | _ => .ok true

/-- `_states_an_authorized_depth`. -/
def statesAnAuthorizedDepth (rostered : Rostered F) : Bool :=
  !(rostered.get maxDiscountRosterKey).isNull

/-- `priced is None or priced <= 0.0`, of the price at a site. -/
def isNothing (price : Option (Extended F)) : Bool := price.all fun priced => priced ≤ 0.0

/-- `_priced_at_nothing`. -/
def pricedAtNothing (offer : Wire F) (rostered : Rostered F) : Except PyError Bool := do
  let stated := rostered.get (str "list_price")
  match ← Wire.finiteNumber stated with
  | none => return !stated.isNull
  | some listed =>
      if listed ≤ 0.0 then return false
      else if offer.record?.isNone then return true
      else if isNothing (← Wire.finiteNumber (offer.get (str "unit_price"))) then return true
      else return isNothing (← Wire.finiteNumber (offer.get (str "total_price")))

def isUnder (floor : Extended F) (price : Option (Extended F)) : Bool :=
  price.any fun priced => 0.0 < priced ∧ priced < floor

/-- `_below_the_price_floor`. -/
def belowThePriceFloor (offer : Wire F) (rostered : Rostered F) : Except PyError Bool := do
  match ← Wire.finiteNumber (rostered.get (str "list_price")) with
  | none => return false
  | some listed =>
      if listed ≤ 0.0 ∨ offer.record?.isNone then return false
      else if isUnder (priceFloor listed) (← Wire.finiteNumber (offer.get (str "unit_price"))) then
        return true
      else return isUnder (priceFloor listed) (← Wire.finiteNumber (offer.get (str "total_price")))

def isUnreadable : Option (Wire F) → Except PyError Bool
  | none => .ok false
  | some price => do return (← Wire.finiteNumber price).isNone

/-- `_price_is_unreadable`. -/
def priceIsUnreadable (offer : Wire F) : Except PyError Bool :=
  match offer.record? with
  | none => .ok true
  | some fields => do
      let unit := Dict.get? fields (str "unit_price")
      let total := Dict.get? fields (str "total_price")
      if unit.isNone ∧ total.isNone then return true
      else if ← isUnreadable unit then return true
      else isUnreadable total

/- The parameter `text` is `str`, of the values that are not strings. -/
variable (text : Wire F → Str)

omit [Format F] in
/-- `_answers_about_another_product`: what cannot be written states nothing. -/
def answersAboutAnotherProduct (offer : Wire F) (rostered : Rostered F) : Bool :=
  let listed := rostered.get (str "product_ref")
  let offered := offer.get (str "product_ref")
  if listed.isNull ∨ offered.isNull then false
  else
    match Wire.write text offered, Wire.write text listed with
    | .ok offered, .ok listed => offered.strip ≠ listed.strip
    | _, _ => false

/-- `_is_judged`. -/
def isJudged (offer : Wire F) (rostered : Rostered F) : Except PyError Bool := do
  if ← declaresADiscount offer then return true
  if statesAnAuthorizedDepth rostered then return true
  if ← pricedAtNothing offer rostered then return true
  if ← priceIsUnreadable offer then return true
  if ← belowThePriceFloor offer rostered then return true
  return answersAboutAnotherProduct text offer rostered

/-! ## The two walls -/

/-- `_price_refusal`. -/
def priceRefusal [Unicode] [DecidableEq F] (bid : Wire F) (rostered : Rostered F) :
    Except PyError (List Str) := do
  let offer := bid.get (str "offer")
  if ← isJudged text offer rostered then
    let productRef := rostered.get (str "product_ref")
    if !Wire.hashable productRef then .error .typeError
    else
      let refused ← Boundary.priceReasons bid [(productRef, rostered.value)] .null
      if !refused.isEmpty ∨ offer.record?.isSome then return refused
      else return [illegibleOfferReason]
  else return []

/- What the generated model says of a bid, and `str(value or "")` of the values that are not
strings. -/
variable (model : Wire F → Option (List Str)) (truth : Wire F → Str)

/-- `_provenance_refusal`; the clock is read where the deadline is no instant. -/
def provenanceRefusal [Unicode] [DecidableEq F] (clock : DateTime) (bid : Wire F)
    (deadline : Extended F) : Except PyError (List Str) := do
  let now := (fromTimestamp deadline).getD clock
  let reasons ← Boundary.validateBid text model truth bid hostedPath [] now
  return reasons.filter fun reason => familyOf reason ∈ provenanceReasonPrefixes

/-! ## The collection -/

/-- `_tier`. -/
def tier [Unicode] (rostered : Rostered F) : Except PyError Int :=
  let read : Wire F → Except PyError Int := fun stated => do
    match ← Wire.finiteNumber stated with
    | some (.finite x) => return truncate (Format.value x)
    | _ => return 0
  match (Dict.get? rostered.fields (str "tier")).getD (.number (.integer 1)) with
  | .string stated =>
      match NumberText.readFloat? stated with
      | none => .ok 0
      | some number => read (.number (.double number))
  | stated => read stated

/-- The first usable answer of each store, and why the first unusable one of each was not. -/
structure Arrivals (F : Type) where
  onTime : Dict Str (Response F)
  rejected : Dict Str Str

def arrive [Unicode] (deadline : Extended F) (arrivals : Arrivals F) (response : Response F) :
    Except PyError (Arrivals F) :=
  match response.storeId with
  | none => .ok arrivals
  | some storeId => do
      match ← unusableBecause response deadline with
      | some unusable =>
          return { arrivals with rejected := Dict.setDefault arrivals.rejected storeId unusable }
      | none => return { arrivals with onTime := Dict.setDefault arrivals.onTime storeId response }

def namedAuction (response : Response F) : Except PyError (Option Str) :=
  let stated := response.bid.get (str "auction_id")
  if stated.isNull then .ok none else do return some (← Wire.write text stated)

def agreed (named : List (Option Str)) : Option Str :=
  match named.reduceOption.dedup with
  | [auctionId] => some auctionId
  | _ => none

/-- What becomes of a row: its bid, or the reason for the fallback with the refusals of either wall. -/
inductive Outcome (F : Type)
  | bid (answer : Response F)
  | fallback (reason : Str) (priceReasons boundaryReasons : List Str)

def outcome [Unicode] [DecidableEq F] (clock : DateTime) (deadline : Extended F)
    (arrivals : Arrivals F) (rostered : Rostered F) (tier : Int) : Except PyError (Outcome F) :=
  if tier ≤ 0 then .ok (.fallback (str "tier_0_no_agent") [] [])
  else
    match Dict.get? arrivals.onTime rostered.storeId with
    | none =>
        let reason := (Dict.get? arrivals.rejected rostered.storeId).getD (str "no_response")
        .ok (.fallback reason [] [])
    | some answer => do
        let refused ← priceRefusal text answer.bid rostered
        if !refused.isEmpty then return .fallback unreconcilablePriceReason refused []
        else
          let unprovenanced ← provenanceRefusal text model truth clock answer.bid deadline
          if !unprovenanced.isEmpty then return .fallback unprovenancedClaimReason [] unprovenanced
          else return .bid answer

def listedPrice (rostered : Rostered F) : Except PyError (Option (Extended F)) := do
  let listed ← Wire.finiteNumber (rostered.get (str "list_price"))
  return listed.filter fun listed => 0.0 < listed

def entryFor [Unicode] [DecidableEq F] (clock : DateTime) (deadline : Extended F)
    (arrivals : Arrivals F) (auctionId : Option Str) (rostered : Rostered F) :
    Except PyError (BidEntry F) := do
  let tier ← tier rostered
  let outcome ← outcome text model truth clock deadline arrivals rostered tier
  let listPrice ← listedPrice rostered
  match outcome with
  | .bid answer =>
      let receivedAt ← Wire.toDouble answer.receivedAt
      let claims ← Wire.itemsOrNone (answer.bid.get (str "claims"))
      return { storeId := rostered.storeId, tier, fallback := false, bid := answer.bid,
               receivedAt := some receivedAt, fallbackReason := none, claims, priceReasons := [],
               boundaryReasons := [], listPrice }
  | .fallback reason priceReasons boundaryReasons =>
      let bid ← listPriceBid rostered auctionId deadline
      return { storeId := rostered.storeId, tier, fallback := true, bid, receivedAt := none,
               fallbackReason := some reason, claims := [], priceReasons, boundaryReasons, listPrice }

/-- `collect_bids`. -/
def collectBids [Unicode] [DecidableEq F] (clock : DateTime) (roster : List (Rostered F))
    (responses : List (Response F)) (now : Extended F) : Except PyError (List (BidEntry F)) := do
  let arrivals ← responses.foldlM (arrive now) ⟨[], []⟩
  let named ← (Dict.values arrivals.onTime).mapM (namedAuction text)
  roster.mapM (entryFor text model truth clock now arrivals (agreed named))

end Readings
end Collect
end Proxyshop.Auction
