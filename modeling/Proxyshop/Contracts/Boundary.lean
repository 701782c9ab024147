import Proxyshop.Contracts.Price
import Proxyshop.Contracts.Provenance
import Proxyshop.Contracts.Timestamps

/-!
# The bid boundary on values off the wire

The price walk and the whole verdict on a bid, with the exceptions that a number or a text of the
bid can raise out of them.
-/

namespace Proxyshop.Contracts

open Python Numbers

def bidPaths : List Str := [hostedPath, externalPath]

def reasonUnknownPath : Str := str "unknown_path"

def reasonOfferExpired : Str := str "offer_expired"

def reasonOfferExpiryMissing : Str := str "offer_expiry_missing"

def reasonOfferExpiryUnparseable : Str := str "offer_expiry_unparseable"

def reasonStoreBlacklisted : Str := str "store_blacklisted"

def reasonTrustSnapshotUnavailable : Str := str "trust_snapshot_unavailable"

namespace Boundary

section Prices

variable {F : Type} [Format F]

/-- A mapping from product references, by the keys of its entries. -/
abbrev Roster (F : Type) := List (Wire F × Wire F)

/-- `_roster_row`. -/
def rosterRow (offer : Wire F) (listPrices : Roster F) : Option (Wire F) :=
  ((listPrices.find? fun entry => Wire.sameKey entry.1 (offer.get (str "product_ref"))).map
    Prod.snd).filter fun row => ¬ row.isNull

omit [Format F] in
def spelling [Unicode] : Wire F → Str
  | .string kind => Unicode.lower kind.strip
  | _ => str "not_a_string"

/-- What `_declared_depth` makes of a depth. -/
def declaredBy [Unicode] [DecidableEq F] (kind : Wire F) (depth : Option (Extended F)) :
    Option (Extended F) × List Str :=
  match depth with
  | none => (none, [unreconcilable offerDiscountSite (str "depth_not_a_number")])
  | some depth =>
      if depth = 0.0 then (some 0.0, [])
      else if spelling kind ∉ percentageDiscountTypes then
        (none, [unreconcilable offerDiscountSite (spelling kind)])
      else if depth < 0.0 ∨ 100.0 < depth then
        (none, [unreconcilable offerDiscountSite (str "depth_out_of_range")])
      else (some depth, [])

/-- `_declared_depth`. -/
def declaredDepth [Unicode] [DecidableEq F] (offer : Wire F) :
    Except PyError (Option (Extended F) × List Str) :=
  let discount := offer.get (str "discount")
  if discount.isNull then .ok (some 0.0, [])
  else do
    let depth ← Wire.finiteNumber (discount.get (str "value"))
    return declaredBy (discount.get (str "type")) depth

omit [Format F] in
def isListPriceClaim (claim : Wire F) : Bool :=
  match claim.get (str "key") with
  | .string key => key.strip = listPriceClaimKey
  | _ => false

omit [Format F] in
def listPriceClaims : Wire F → List (Wire F)
  | .array claims => claims.filter isListPriceClaim
  | _ => []

/-- The price a `list_price` claim states, `none` where it is unreadable. -/
def readableListPrice (claim : Wire F) : Except PyError (Option (Extended F)) := do
  let listed ← Wire.finiteNumber (claim.get (str "value"))
  return listed.filter fun listed => ¬ listed < 0.0

/-- `_carried_list_price`. -/
def carriedListPrice [DecidableEq F] (bid offer : Wire F) :
    Except PyError (Option (Extended F) × List Str) := do
  let claims := listPriceClaims (bid.get (str "claims")) ++ listPriceClaims (offer.get (str "commitments"))
  let stated ← claims.mapM readableListPrice
  return Price.statedListPrice stated

/-- `_authorized_depth`. -/
def authorizedDepth (row : Option (Wire F)) (maxDiscountPct : Wire F) :
    Except PyError (Option (Extended F) × List Str) :=
  let stated := row.elim .null fun row => row.record.get maxDiscountRosterKey
  let raw := if stated.isNull then maxDiscountPct else stated
  if raw.isNull then
    .ok (none, [unreconcilable offerDiscountSite (str "authorized_depth_unavailable")])
  else do
    let cap ← Wire.finiteNumber raw
    return Price.readCap cap

/-- What `_roster_list_price` makes of the number of a row. -/
def readListed : Option (Extended F) → Option (Extended F) × List Str
  | none => (none, [unreconcilable offerUnitPriceSite (str "unreadable_roster_list_price")])
  | some listed =>
      if listed < 0.0 then
        (none, [unreconcilable offerUnitPriceSite (str "unreadable_roster_list_price")])
      else (some listed, [])

/-- `_roster_list_price`. -/
def rosterListPrice (row : Option (Wire F)) : Except PyError (Option (Extended F) × List Str) :=
  match row with
  | none => .ok (none, [unreconcilable offerUnitPriceSite (str "list_price_unavailable")])
  | some row => do
      match ← Wire.finiteNumber row with
      | some listed => return readListed (some listed)
      | none => return readListed (← Wire.finiteNumber (row.record.get listPriceClaimKey))

/-- `_price_reasons`, of an offer whose row was looked up. -/
def offerPriceReasons [Unicode] [DecidableEq F] (bid offer : Wire F) (row : Option (Wire F))
    (maxDiscountPct : Wire F) : Except PyError (List Str) :=
  match offer.record? with
  | none => .ok [unreconcilable offerSite (str "illegible")]
  | some _ => do
      let declared ← declaredDepth offer
      let unitPrice ← Wire.finiteNumber (offer.get (str "unit_price"))
      let totalPrice ← Wire.finiteNumber (offer.get (str "total_price"))
      let reasons := declared.2 ++ Price.numberReasons offerUnitPriceSite unitPrice ++
        Price.numberReasons offerTotalPriceSite totalPrice
      match declared.1, unitPrice with
      | some depth, some unitPrice =>
          if unitPrice < 0.0 then return reasons
          else do
            let cap ← authorizedDepth row maxDiscountPct
            let carried ← carriedListPrice bid offer
            let rostered ← rosterListPrice row
            return reasons ++ Price.relationReasons (Price.authorization cap depth) carried rostered
              unitPrice totalPrice
      | _, _ => return reasons

/-- `price_reasons`. -/
def priceReasons [Unicode] [DecidableEq F] (bid : Wire F) (listPrices : Roster F)
    (maxDiscountPct : Wire F) : Except PyError (List Str) :=
  let offer := bid.get (str "offer")
  offerPriceReasons bid offer (rosterRow offer listPrices) maxDiscountPct

end Prices

section Verdict

variable {F : Type} [Format F]

/-! ## The other clauses -/

/-- The locations at which `_date_time_format_reasons` finds a malformed text in `fields`. -/
def malformed (holder : Wire F) (location : Str) (fields : List Str) : List Str :=
  fields.filterMap fun field =>
    match holder.get field with
    | .string text => if Rfc3339.isDateTime F text then none else some (location ++ str "." ++ field)
    | _ => none

def provenanceDateTimeFields : List Str := [str "observed_at"]

def offerDateTimeFields : List Str := [str "expires_at"]

def malformedClaims (claims : Wire F) (location : Str) : List Str :=
  match claims with
  | .array claims => (claims.mapIdx fun index claim =>
      malformed (claim.get (str "provenance"))
        (location ++ str "." ++ Str.ofNat index ++ str ".provenance") provenanceDateTimeFields).flatten
  | _ => []

/-- `_date_time_format_reasons`, of a bid without a signing envelope. -/
def dateTimeFormatReasons (bid offer : Wire F) (alreadyReported : List Str) : List Str :=
  let locations :=
    malformedClaims (bid.get (str "claims")) (str "claims") ++
      malformed offer (str "offer") offerDateTimeFields ++
      malformedClaims (offer.get (str "commitments")) offerCommitmentsSite ++
      malformed ((offer.get (str "discount")).get (str "provenance"))
        (offerDiscountSite ++ str ".provenance") provenanceDateTimeFields
  (locations.filter (· ∉ alreadyReported)).map (reasonAt reasonSchemaInvalid)

/-- `_expiry_reasons`. -/
def expiryReasons (offer : Wire F) (now : DateTime) : List Str :=
  match offer.get (str "expires_at") with
  | .null => [reasonOfferExpiryMissing]
  | raw =>
      let blank : Bool := match raw with
        | .string text => text.strip.isEmpty
        | _ => false
      if blank then [reasonOfferExpiryMissing]
      else
        match parseTimestamp raw with
        | none => [reasonOfferExpiryUnparseable]
        | some expiresAt => if expiresAt.instant ≤ now.instant then [reasonOfferExpired] else []

/-- `_js_truthy`. -/
def jsTruthy : Wire F → Except PyError Bool
  | .null => .ok false
  | .bool b => .ok b
  | .number n => do
      match ← n.toDouble with
      | .finite x => return Format.value x ≠ 0
      | .infinity _ => return true
      | .nan => return false
  | .string s => .ok !s.isEmpty
  | _ => .ok true

/- The parameter `text` is `str`, of the values that are not strings. -/
variable (text : Wire F → Str)

/-- `_eligibility_reasons`, by the rows of a snapshot. -/
def eligibilityReasons (storeId : Wire F) (trustSnapshot : Dict Str (Wire F)) :
    Except PyError (List Str) := do
  let unavailable : Except PyError (List Str) := do
    return [reasonAt reasonTrustSnapshotUnavailable (← Wire.write text storeId)]
  match storeId with
  | .string id =>
      match (Dict.get? trustSnapshot id).bind Json.record? with
      | none => unavailable
      | some row =>
          if ← jsTruthy (Json.get (.object row) (str "blacklisted")) then
            return [reasonAt reasonStoreBlacklisted id]
          else return []
  | _ => unavailable

/- The parameter `model` is what the generated model says of a bid: the locations it refuses, none of
them for a bid it accepts, and nothing where it raises. -/
variable (model : Wire F → Option (List Str))

def schemaReasons (bid : Wire F) : List Str :=
  match model bid with
  | none => [reasonSchemaInvalid]
  | some [] => []
  | some locations => [reasonAt reasonSchemaInvalid ((str ";").intercalate (locations.take 8))]

/-- The reasons of `validate_bid` on a path, at an instant: without a signing envelope and without a
catalog. The parameter `truth` is `str(value or "")`, of the values that are not strings. -/
def validateBid [Unicode] [DecidableEq F] (truth : Wire F → Str) (bid : Wire F) (path : Str)
    (trustSnapshot : Dict Str (Wire F)) (now : DateTime) : Except PyError (List Str) :=
  if path ∉ bidPaths then .ok [reasonAt reasonUnknownPath path]
  else do
    let offer := bid.get (str "offer")
    let price ← offerPriceReasons bid offer (rosterRow offer []) .null
    let eligibility ← eligibilityReasons text (bid.get (str "store_id")) trustSnapshot
    return schemaReasons model bid ++
      dateTimeFormatReasons bid offer (((model bid).getD []).take 8) ++
      (claimProvenanceReasons truth (bid.get (str "claims")) path none).1 ++
      offerClaimReasons truth offer path ++ price ++ expiryReasons offer now ++ eligibility

end Verdict
end Boundary
end Proxyshop.Contracts
