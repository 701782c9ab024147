import Proxyshop.Contracts.Price
import Proxyshop.Ecmascript.Text

/-!
# The price wall of the TypeScript door

The second implementation, over doubles. A value that may be `undefined` is an `Option`.
-/

namespace Proxyshop.Contracts

open Python Numbers Extended Ecmascript

namespace PriceTs

abbrev Value := Json (Extended Binary64)

abbrev Members := Dict Str Value

def readRecord : Option Value → Option Members
  | some (.object members) => some members
  | _ => none

/-- `record?.[name]`; no name read here is on the prototype. -/
def read (record : Option Members) (name : Str) : Option Value :=
  record.bind fun members => Dict.get? members name

def readOwn (table : Members) (key : Str) : Option Value := Dict.get? table key

def finiteNumber : Option Value → Option (Extended Binary64)
  | some (.number n) => if n.isFinite then some n else none
  | _ => none

/-- `value === null || value === undefined`. -/
def isMissing : Option Value → Bool
  | none => true
  | some value => value.isNull

def spelling [Unicode] : Option Value → Str
  | some (.string kind) => Unicode.lower kind.trim
  | _ => str "not_a_string"

def declaredDepth [Unicode] (offer : Members) : Option (Extended Binary64) × List Str :=
  let discount := Dict.get? offer (str "discount")
  if isMissing discount then (some 0.0, [])
  else
    let record := readRecord discount
    match finiteNumber (read record (str "value")) with
    | none => (none, [unreconcilable offerDiscountSite (str "depth_not_a_number")])
    | some depth =>
        if depth = 0.0 then (some 0.0, [])
        else
          let spelling := spelling (read record (str "type"))
          if spelling ∉ percentageDiscountTypes then
            (none, [unreconcilable offerDiscountSite spelling])
          else if depth < 0.0 ∨ 100.0 < depth then
            (none, [unreconcilable offerDiscountSite (str "depth_out_of_range")])
          else (some depth, [])

def readableListPrice (claim : Value) : Option (Extended Binary64) :=
  (finiteNumber (read (readRecord (some claim)) (str "value"))).filter fun listed => ¬ listed < 0.0

def listPriceClaims : Option Value → List (Option (Extended Binary64))
  | some (.array claims) => claims.filterMap fun claim =>
      match read (readRecord (some claim)) (str "key") with
      | some (.string key) =>
          if key.trim = listPriceClaimKey then some (readableListPrice claim) else none
      | _ => none
  | _ => []

def statedListPrice (stated : List (Option (Extended Binary64))) :
    Option (Extended Binary64) × List Str :=
  if none ∈ stated then (none, [unreconcilable offerUnitPriceSite (str "unreadable_list_price")])
  else
    match stated.reduceOption.dedup with
    | [] => (none, [])
    | [listed] => (some listed, [])
    | _ => (none, [unreconcilable offerUnitPriceSite (str "ambiguous_list_price")])

def carriedListPrice (bid offer : Members) : Option (Extended Binary64) × List Str :=
  statedListPrice (listPriceClaims (Dict.get? bid (str "claims")) ++
    listPriceClaims (Dict.get? offer (str "commitments")))

def propertyName : Option Value → Option Str
  | some (.string productRef) => some productRef
  | some (.number productRef) => some (numberToString productRef)
  | _ => none

def rosterRow (offer : Members) (listPrices : Value) : Option Value :=
  match readRecord (some listPrices), propertyName (Dict.get? offer (str "product_ref")) with
  | some table, some name => (readOwn table name).filter fun row => ¬ row.isNull
  | _, _ => none

def rosterListPrice (offer : Members) (listPrices : Value) :
    Option (Extended Binary64) × List Str :=
  match rosterRow offer listPrices with
  | none => (none, [unreconcilable offerUnitPriceSite (str "list_price_unavailable")])
  | some row =>
      let direct := finiteNumber (some row)
      match direct.or (finiteNumber (read (readRecord (some row)) listPriceClaimKey)) with
      | none => (none, [unreconcilable offerUnitPriceSite (str "unreadable_roster_list_price")])
      | some listed =>
          if listed < 0.0 then
            (none, [unreconcilable offerUnitPriceSite (str "unreadable_roster_list_price")])
          else (some listed, [])

def readCap : Option (Extended Binary64) → Option (Extended Binary64) × List Str
  | none => (none, [unreconcilable offerDiscountSite (str "unreadable_authorized_depth")])
  | some cap =>
      if cap < 0.0 ∨ 100.0 < cap then
        (none, [unreconcilable offerDiscountSite (str "unreadable_authorized_depth")])
      else (some cap, [])

def authorizedDepth (offer : Members) (listPrices : Value)
    (maxDiscountPct : Option (Extended Binary64)) : Option (Extended Binary64) × List Str :=
  let fromRow := (rosterRow offer listPrices).bind fun row =>
    read (readRecord (some row)) maxDiscountRosterKey
  let raw := if isMissing fromRow then maxDiscountPct.map .number else fromRow
  if isMissing raw then
    (none, [unreconcilable offerDiscountSite (str "authorized_depth_unavailable")])
  else readCap (finiteNumber raw)

def priceFloor (listed : Extended Binary64) : Extended Binary64 :=
  let absolute :=
    if minimumPayableAmount ≤ listed then
      least minimumPayableAmount (listed * absoluteFloorMaxFraction)
    else 0.0
  greatest (listed * priceFloorFraction) absolute

def numberReasons (site : Str) : Option (Extended Binary64) → List Str
  | none => [unreconcilable site (str "not_a_number")]
  | some price => if price < 0.0 then [unreconcilable site (str "negative")] else []

def floorReason (floor : Extended Binary64) : Str × Option (Extended Binary64) → List Str
  | (_, none) => []
  | (site, some priced) =>
      if priced = 0.0 then [unreconcilable site (str "not_positive")]
      else if 0.0 < priced ∧ priced < floor then [unreconcilable site (str "below_price_floor")]
      else []

/-- `authorized`, and what is pushed while it is decided. -/
def authorization (granted : Option (Extended Binary64) × List Str) (depth : Extended Binary64) :
    Extended Binary64 × List Str :=
  if 0.0 < depth then
    match granted.1 with
    | none => (0.0, granted.2)
    | some cap => (least depth cap, granted.2 ++ if cap < depth then [overAuthorizedDepth] else [])
  else (granted.1.getD depth, [])

/-- What follows the early return of `priceReasonsFor`. -/
def relationReasonsFor (bid offer : Members) (listPrices : Value)
    (maxDiscountPct : Option (Extended Binary64)) (depth unitPrice : Extended Binary64)
    (totalPrice : Option (Extended Binary64)) : List Str :=
  let granted := authorization (authorizedDepth offer listPrices maxDiscountPct) depth
  let authorized := granted.1
  let carried := carriedListPrice bid offer
  let rostered := rosterListPrice offer listPrices
  let listed := rostered.1.or carried.1
  let contradiction :=
    match rostered.1, carried.1 with
    | some held, some stated =>
        if priceReconciliationTolerance < magnitude (held - stated) then
          [unreconcilable offerUnitPriceSite (str "list_price_contradicts_roster")]
        else []
    | _, _ => []
  let floored :=
    match rostered.1 with
    | some held =>
        if 0.0 < held then
          [(offerUnitPriceSite, some unitPrice), (offerTotalPriceSite, totalPrice)].flatMap
            (floorReason (priceFloor held))
        else []
    | none => []
  let underUnit :=
    match listed with
    | some listed =>
        if unitPrice + priceReconciliationTolerance < listed * (100.0 - authorized) / 100.0 then
          [underDeclaredDepth offerUnitPriceSite]
        else []
    | none => []
  let underTotal :=
    match totalPrice with
    | some total =>
        if 0.0 < authorized ∧ 0.0 ≤ total ∧
            total + priceReconciliationTolerance < unitPrice * (100.0 - authorized) / 100.0 then
          [underDeclaredDepth offerTotalPriceSite]
        else []
    | none => []
  granted.2 ++ carried.2 ++ rostered.2 ++ contradiction ++ floored ++ underUnit ++ underTotal

/-- `priceReasonsFor` on an offer that is a record, with the relations that follow its early return. -/
def verdict (declared : Option (Extended Binary64) × List Str)
    (unitPrice totalPrice : Option (Extended Binary64))
    (relations : Extended Binary64 → Extended Binary64 → List Str) : List Str :=
  let reasons := declared.2 ++ numberReasons offerUnitPriceSite unitPrice ++
    numberReasons offerTotalPriceSite totalPrice
  match declared.1, unitPrice with
  | some depth, some unitPrice =>
      if unitPrice < 0.0 then reasons else reasons ++ relations depth unitPrice
  | _, _ => reasons

def priceReasonsFor [Unicode] (bid : Members) (offer : Option Value) (listPrices : Value)
    (maxDiscountPct : Option (Extended Binary64)) : List Str :=
  match readRecord offer with
  | none => [unreconcilable offerSite (str "illegible")]
  | some record =>
      let totalPrice := finiteNumber (Dict.get? record (str "total_price"))
      verdict (declaredDepth record) (finiteNumber (Dict.get? record (str "unit_price"))) totalPrice
        fun depth unitPrice =>
          relationReasonsFor bid record listPrices maxDiscountPct depth unitPrice totalPrice

def priceReasons [Unicode] (bid listPrices : Value) (maxDiscountPct : Option (Extended Binary64)) :
    List Str :=
  let record := (readRecord (some bid)).getD []
  priceReasonsFor record (Dict.get? record (str "offer")) listPrices maxDiscountPct

end PriceTs
end Proxyshop.Contracts
