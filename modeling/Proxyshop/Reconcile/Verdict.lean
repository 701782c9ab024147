import Proxyshop.Reconcile.Keys
import Proxyshop.Scoring.Engine

/-!
# The verdicts of one order

Every money comparison reads the webhook, the delivery comparison the fulfilment; the pixel is
recorded beside them. Reading a number or an instant out of its range raises.
-/

namespace Proxyshop.Reconcile

open Python

def priceTolerance : Float := 0.005

def discountTolerance : Float := 0.01

def deliveryToleranceDays : Float := 1.0 / 24.0

/-! ## Numbers -/

def digitRun (s : Str) : List Nat × Str :=
  ((s.takeWhile fun c => (Str.digit? c).isSome).filterMap Str.digit?,
    s.dropWhile fun c => (Str.digit? c).isSome)

def signRun (s : Str) : Bool × Str :=
  if Str.startsWith '-' s then (true, s.drop 1)
  else if Str.startsWith '+' s then (false, s.drop 1)
  else (false, s)

def exponent? (s : Str) : Option Int :=
  if s.isEmpty then some 0
  else if Str.startsWith 'e' s ∨ Str.startsWith 'E' s then
    let (negative, rest) := signRun (s.drop 1)
    let (digits, rest) := digitRun rest
    if digits.isEmpty ∨ ¬ rest.isEmpty then none
    else some (if negative then -(Str.ofDigits digits : Int) else Str.ofDigits digits)
  else none

/-- `float` of a text that `_NUMERIC_TEXT` matches. -/
def floatOfText (s : Str) : Option Float :=
  let (negative, rest) := signRun s
  let (whole, rest) := digitRun rest
  let (fraction, rest) := if Str.startsWith '.' rest then digitRun (rest.drop 1) else ([], rest)
  if whole.isEmpty ∧ fraction.isEmpty then none
  else (exponent? rest).map fun e =>
    let x := Double.ofDecimal (Str.ofDigits (whole ++ fraction)) (e - fraction.length)
    if negative then -x else x

def finite? (x : Float) : Option Float := if x.isFinite then some x else none

section Readings

variable [Unicode]

/-- `_number`; an integer beyond the floats raises. -/
def number (value : Value) : Except PyError (Option Float) :=
  match value with
  | .none | .bool _ => .ok none
  | .int _ | .float _ => value.toFloat.map finite?
  | value => .ok ((floatOfText (Str.strip value.toStr)).bind finite?)

/-! ## Discounts -/

def applicationAliases : List Str := [str "discountApplications", str "discount_applications"]

def isPercentageApplication (application : Record) : Bool :=
  let valueType := [str "value_type", str "valueType"].findSome? fun name =>
    (application.get name).asStr?.bind fun s => Str.nonEmpty? s.strip
  let type := (Dict.get? application (str "type")).getD (.str (str "percentage"))
  Unicode.lower (valueType.getD type.toStr) = str "percentage"

def isOrderWide (application : Record) : Bool :=
  let stated := (Dict.get? application (str "target_selection")).getD
    (application.get (str "targetSelection"))
  match stated.asStr?.bind fun s => Str.nonEmpty? s.strip with
  | some selection => Unicode.lower selection = str "all"
  | none => true

structure Tally where
  total : Float
  counted : Nat
  unreadable : Nat

def Tally.unread (t : Tally) : Tally := { t with unreadable := t.unreadable + 1 }

def Tally.add (t : Tally) (application : Value) : Except PyError Tally :=
  match application with
  | .dict application =>
      if !isPercentageApplication application || !isOrderWide application then .ok t.unread
      else do
        match ← number (Record.get application (str "value")) with
        | none => return t.unread
        | some value => return { t with
            total := t.total + value
            counted := t.counted + 1 }
  | _ => .ok t.unread

def applicationLists (payload : Record) : List (List Value) :=
  applicationAliases.filterMap fun name =>
    match payload.get name with
    | .list items => some items
    | _ => none

def discountPercentage (payload : Record) : Except PyError (Option Float) :=
  match applicationLists payload with
  | [] => number (payload.get (str "discount_percentage"))
  | lists => do
      let applications := (lists.find? fun items => !items.isEmpty).getD []
      let t ← applications.foldlM Tally.add ⟨0.0, 0, 0⟩
      return if t.counted = 0 ∧ t.unreadable ≠ 0 then none else some t.total

/-! ## Instants -/

def inUtc (t : DateTime) : Except PyError DateTime :=
  if t.offset.isNone then .ok t.replaceUtc else t.toUtc?.elim (.error .overflowError) .ok

def instant (value : Value) : Except PyError (Option DateTime) :=
  match value with
  | .datetime t => (inUtc t).map some
  | .str s =>
      let text := s.strip
      if text.isEmpty then .ok none
      else
        let numeric := (text.replace (str "Z") (str "+00:00")).replace (str "z") (str "+00:00")
        (DateTime.fromIsoFormat numeric).elim (.ok none) fun t => (inUtc t).map some
  | _ => .ok none

def elapsedDays (start stop : Value) : Except PyError (Option Float) := do
  let first ← instant start
  let last ← instant stop
  return first.bind fun first => last.map fun last =>
    Scoring.totalSeconds (last.instant - first.instant) / 86400.0

/-! ## The promise -/

structure Promised where
  productRef : Value
  unitPrice : Option Float
  totalPrice : Option Float
  discountPercentage : Option Float
  deliveryEstimateDays : Option Float

def promised (accepted : Record) : Except PyError Promised := do
  let offer := ((payload accepted).get (str "offer")).mapping
  let discount := (offer.get (str "discount")).mapping
  let type := (Dict.get? discount (str "type")).getD (.str (str "percentage"))
  let percentage ← if Unicode.lower type.toStr = str "percentage"
    then number (discount.get (str "value")) else .ok none
  let unitPrice ← number (offer.get (str "unit_price"))
  let totalPrice ← number (offer.get (str "total_price"))
  let deliveryEstimateDays ← number (offer.get (str "delivery_estimate_days"))
  return ⟨offer.get (str "product_ref"), unitPrice, totalPrice, percentage, deliveryEstimateDays⟩

def clusterOf (accepted : Record) : Option Value :=
  match (payload accepted).get (str "cluster_id") with
  | .none => none
  | .str s => if s.strip.isEmpty then none else some (.str s)
  | value => some value

/-! ## The reconciled event -/

structure ReconciledPayload where
  orderRef : Str
  checkoutToken : Value
  productRef : Value
  bidRef : Value
  priceHonored : Bool
  discountHonored : Bool
  priceComparable : Bool
  discountComparable : Bool
  observedPrice : Option Float
  observedDiscountPercentage : Option Float
  promisedPrice : Option Float
  promisedPriceBasis : Option Str
  promisedDiscountPercentage : Option Float
  shippedOnTime : Bool
  deliveryComparable : Bool
  promisedDeliveryDays : Option Float
  observedDispatchDays : Option Float
  fulfilledAt : Value
  fulfilmentMissing : Bool
  authority : Str
  pixelMissing : Bool
  pixelPrice : Option Float
  pixelAgrees : Bool
  clusterId : Option Value

structure ReconciledEvent where
  eventId : Str
  ts : Value
  kind : Str
  storeId : Option Str
  orderRef : Str
  payload : ReconciledPayload

def reconciledKind : Str := str "reconciled"

def floatValue (x : Option Float) : Value := x.elim .none .float

def textValue (s : Option Str) : Value := s.elim .none .str

def observedPriceOf (webhook : Record) : Except PyError (Option Float) := do
  match ← number ((payload webhook).get (str "total_price")) with
  | some price => return some price
  | none => number ((payload webhook).get (str "current_total_price"))

def fulfilledAtOf (fulfilment : Option Record) : Value :=
  fulfilment.elim .none fun fulfilment =>
    let stamp := (payload fulfilment).get (str "fulfilled_at")
    if stamp.isNone then fulfilment.get (str "ts") else stamp

def pixelPriceOf (pixel : Option Record) : Except PyError (Option Float) :=
  pixel.elim (.ok none) fun pixel => number ((payload pixel).get (str "total_price"))

def atMost (observed promised : Option Float) (slack : Float) : Bool :=
  observed.any fun observed => promised.any fun promised => observed ≤ promised + slack

/-- What `reconciled_event` reads before it judges. -/
structure Readings where
  observedPrice : Option Float
  observedDiscount : Option Float
  promisedDeliveryDays : Option Float
  observedDispatchDays : Option Float
  pixelPrice : Option Float

def readings (promised : Promised) (webhook : Record) (pixel : Option Record) (ts : Value)
    (fulfilment : Option Record) : Except PyError Readings := do
  let observedPrice ← observedPriceOf webhook
  let observedDiscount ← discountPercentage (payload webhook)
  let promisedDeliveryDays ← number (floatValue promised.deliveryEstimateDays)
  let observedDispatchDays ← elapsedDays ts (fulfilledAtOf fulfilment)
  let pixelPrice ← pixelPriceOf pixel
  return ⟨observedPrice, observedDiscount, promisedDeliveryDays, observedDispatchDays, pixelPrice⟩

def eventIdOf (storeId : Option Str) (orderRef : Str) : Str :=
  reconciledKind ++ idSeparator :: idComponent (textValue storeId) ++
    idSeparator :: idComponent (.str orderRef)

def judge (orderRef : Str) (storeId : Option Str) (checkoutToken : Value) (promised : Promised)
    (pixel : Option Record) (ts bidRef : Value) (clusterId : Option Value)
    (fulfilment : Option Record) (r : Readings) : ReconciledEvent :=
  let promisedPrice := promised.totalPrice.or promised.unitPrice
  let discountPct := promised.discountPercentage.getD 0.0
  let discountRequired : Bool := discountPct > 0.0
  { eventId := eventIdOf storeId orderRef
    ts := ts
    kind := reconciledKind
    storeId := storeId
    orderRef := orderRef
    payload :=
      { orderRef := orderRef
        checkoutToken := checkoutToken
        productRef := promised.productRef
        bidRef := bidRef
        priceHonored := atMost r.observedPrice promisedPrice priceTolerance
        discountHonored := !discountRequired ||
          r.observedDiscount.any fun observed => observed ≥ discountPct - discountTolerance
        -- a unit price is not comparable with an order's total
        priceComparable := r.observedPrice.isSome && promised.totalPrice.isSome
        discountComparable := !discountRequired || r.observedDiscount.isSome
        observedPrice := r.observedPrice
        observedDiscountPercentage := r.observedDiscount
        promisedPrice := promisedPrice
        promisedPriceBasis := if promised.totalPrice.isSome then some (str "total_price")
          else if promised.unitPrice.isSome then some (str "unit_price") else none
        promisedDiscountPercentage := promised.discountPercentage
        shippedOnTime := atMost r.observedDispatchDays r.promisedDeliveryDays deliveryToleranceDays
        deliveryComparable := r.promisedDeliveryDays.isSome && r.observedDispatchDays.isSome
        promisedDeliveryDays := r.promisedDeliveryDays
        observedDispatchDays := r.observedDispatchDays
        fulfilledAt := fulfilledAtOf fulfilment
        fulfilmentMissing := fulfilment.isNone
        authority := Kind.orderPaid.name
        pixelMissing := pixel.isNone
        pixelPrice := r.pixelPrice
        pixelAgrees := r.pixelPrice.any fun price => r.observedPrice.any fun observed =>
          (price - observed).abs ≤ priceTolerance
        clusterId := clusterId } }

def reconciledEvent (orderRef : Str) (storeId : Option Str) (checkoutToken : Value)
    (promised : Promised) (webhook : Record) (pixel : Option Record) (ts bidRef : Value)
    (clusterId : Option Value) (fulfilment : Option Record) : Except PyError ReconciledEvent := do
  let r ← readings promised webhook pixel ts fulfilment
  return judge orderRef storeId checkoutToken promised pixel ts bidRef clusterId fulfilment r

end Readings

/-! ## What the pixel decides -/

def ReconciledEvent.withPixel (e : ReconciledEvent) (pixel : Option Record) (price : Option Float) :
    ReconciledEvent :=
  { e with payload := { e.payload with
      pixelMissing := pixel.isNone
      pixelPrice := price
      pixelAgrees := price.any fun price => e.payload.observedPrice.any fun observed =>
        (price - observed).abs ≤ priceTolerance } }

def ReconciledEvent.offPixel (e : ReconciledEvent) : ReconciledEvent := e.withPixel none none

@[simp] theorem offPixel_withPixel (e : ReconciledEvent) (pixel : Option Record)
    (price : Option Float) : (e.withPixel pixel price).offPixel = e.offPixel := rfl

@[simp] theorem offPixel_eventId (e : ReconciledEvent) : e.offPixel.eventId = e.eventId := rfl

@[simp] theorem offPixel_storeId (e : ReconciledEvent) : e.offPixel.storeId = e.storeId := rfl

@[simp] theorem offPixel_orderRef (e : ReconciledEvent) : e.offPixel.orderRef = e.orderRef := rfl

section Pixel

variable [Unicode]

theorem readings_pixel (promised : Promised) (webhook : Record) (pixel : Option Record) (ts : Value)
    (fulfilment : Option Record) : readings promised webhook pixel ts fulfilment =
      (do
        let r ← readings promised webhook none ts fulfilment
        let price ← pixelPriceOf pixel
        return { r with pixelPrice := price }) := by
  simp only [readings, pixelPriceOf, Option.elim_none, bind_assoc, pure_bind]
  rfl

theorem reconciledEvent_pixel (orderRef : Str) (storeId : Option Str) (checkoutToken : Value)
    (promised : Promised) (webhook : Record) (pixel : Option Record) (ts bidRef : Value)
    (clusterId : Option Value) (fulfilment : Option Record) :
    reconciledEvent orderRef storeId checkoutToken promised webhook pixel ts bidRef clusterId fulfilment =
      (do
        let e ← reconciledEvent orderRef storeId checkoutToken promised webhook none ts bidRef clusterId
          fulfilment
        let price ← pixelPriceOf pixel
        return e.withPixel pixel price) := by
  rw [reconciledEvent, readings_pixel]
  simp only [reconciledEvent, bind_assoc, pure_bind]
  rfl

end Pixel

end Proxyshop.Reconcile
