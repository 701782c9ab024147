import Proxyshop.Reconcile.Poison

/-!
# The evidence behind a finding

What the offer, the webhook and the fulfilment have to state for a promise to be graded as kept or as
broken.
-/

namespace Proxyshop.Reconcile

open Python Structures

/-! ## Floats -/

theorem lt_iff {x y : Float} : x < y ↔ x.toModel.unpack.compare y.toModel.unpack = some .lt := by
  show decide (x.toModel < y.toModel) = true ↔ _
  rw [decide_eq_true_iff]
  exact beq_iff_eq

theorem pos_of_tolerance_lt {x : Float} (above : x > discountTolerance) : x > 0.0 := by
  have tolerance : ∃ m e pos, discountTolerance.toModel.unpack = .finite .positive m e pos := ⟨_, _, _, rfl⟩
  have zero : ∃ sign, (0.0 : Float).toModel.unpack = .zero sign := ⟨_, rfl⟩
  obtain ⟨m, e, pos, tolerance⟩ := tolerance
  obtain ⟨sign, zero⟩ := zero
  rw [gt_iff_lt, lt_iff, tolerance] at above
  rw [gt_iff_lt, lt_iff, zero]
  cases bits : x.toModel.unpack with
  | notANumber =>
      rw [bits] at above
      cases above
  | zero sign =>
      rw [bits] at above
      cases above
  | infinity sign =>
      rw [bits] at above
      cases sign with
      | negative => cases above
      | positive => rfl
  | finite sign =>
      rw [bits] at above
      cases sign with
      | negative => cases above
      | positive => rfl

section Evidence

variable [Unicode]

theorem number_finite {v : Value} {x : Float} (read : number v = .ok (some x)) : x.isFinite = true := by
  have kept : ∀ {y : Float}, finite? y = some x → x.isFinite = true := by
    intro y some
    unfold finite? at some
    split at some
    · cases some
      assumption
    · cases some
  cases v with
  | none => cases read
  | bool b => cases read
  | int i =>
      simp only [number] at read
      cases converted : (Value.int i).toFloat with
      | error e =>
          rw [converted] at read
          cases read
      | ok y =>
          rw [converted] at read
          exact kept (Except.ok.inj read)
  | float y => exact kept (Except.ok.inj read)
  | str s =>
      obtain ⟨y, -, some⟩ := Option.bind_eq_some_iff.mp (Except.ok.inj read)
      exact kept some
  | datetime t =>
      obtain ⟨y, -, some⟩ := Option.bind_eq_some_iff.mp (Except.ok.inj read)
      exact kept some
  | list items =>
      obtain ⟨y, -, some⟩ := Option.bind_eq_some_iff.mp (Except.ok.inj read)
      exact kept some
  | dict entries =>
      obtain ⟨y, -, some⟩ := Option.bind_eq_some_iff.mp (Except.ok.inj read)
      exact kept some

theorem number_again {v : Value} {x : Option Float} (read : number v = .ok x) :
    number (floatValue x) = .ok x := by
  rw [number_floatValue]
  cases x with
  | none => rfl
  | some x => rw [Option.bind_some, finite?, if_pos (number_finite read)]

/-! ## What is stated -/

inductive Promise
  | price
  | discount
  | delivery

def Promise.field : Promise → Str
  | .price => str "price"
  | .discount => str "discount"
  | .delivery => str "delivery"

def Promises (accepted : Record) : Promise → Float → Prop
  | .price, p => number ((offerOf accepted).get (str "total_price")) = .ok (some p)
  | .discount, p => isPercentage accepted = true ∧
      number ((discountOf accepted).get (str "value")) = .ok (some p) ∧ p > discountTolerance
  | .delivery, p => number ((offerOf accepted).get (str "delivery_estimate_days")) = .ok (some p)

/-- The total of the webhook, under its first spelling or, where that is no number, under the other. -/
def StatesTotal (webhook : Record) (total : Float) : Prop :=
  number ((payload webhook).get (str "total_price")) = .ok (some total) ∨
    (number ((payload webhook).get (str "total_price")) = .ok none ∧
      number ((payload webhook).get (str "current_total_price")) = .ok (some total))

/-- The percentage that an application takes off the order, if that is what it states. -/
def percentageOff : Value → Option Float
  | .dict application =>
      if isPercentageApplication application && isOrderWide application
      then (number (Record.get application (str "value"))).toOption.join else none
  | _ => none

/-- The order-wide percentages that the applications state, or none of any kind; without a list, the
scalar. -/
def StatesDiscount (payload : Record) (total : Float) : Prop :=
  (applicationLists payload = [] ∧ number (payload.get (str "discount_percentage")) = .ok (some total)) ∨
    (applicationLists payload ≠ [] ∧
      (applicationsOf payload = [] ∨ (applicationsOf payload).filterMap percentageOff ≠ []) ∧
      total = ((applicationsOf payload).filterMap percentageOff).foldl (· + ·) 0.0)

/-- The days from the payment to the fulfilment, both readable. -/
def StatesDispatch (webhook : Record) (fulfilment : Option Record) (days : Float) : Prop :=
  ∃ record placed fulfilled, fulfilment = some record ∧ instant (webhook.get (str "ts")) = .ok (some placed) ∧
    instant (fulfilledAtOf (some record)) = .ok (some fulfilled) ∧
    days = Scoring.totalSeconds (fulfilled.instant - placed.instant) / 86400.0

def States (webhook : Record) (fulfilment : Option Record) : Promise → Float → Prop
  | .price, o => StatesTotal webhook o
  | .discount, o => StatesDiscount (payload webhook) o
  | .delivery, o => StatesDispatch webhook fulfilment o

def Keeps : Promise → Float → Float → Prop
  | .price, p, o => o ≤ p + priceTolerance
  | .discount, p, o => o ≥ p - discountTolerance
  | .delivery, p, o => o ≤ p + deliveryToleranceDays

/-- A promise that is graded at all: a price may be one for a unit, and a delivery is graded once there
is a fulfilment. -/
def Gradeable (accepted : Record) (fulfilment : Option Record) : Promise → Prop
  | .price => (∃ p, Promises accepted .price p) ∨
      ∃ p, number ((offerOf accepted).get (str "unit_price")) = .ok (some p)
  | .discount => ∃ p, Promises accepted .discount p
  | .delivery => fulfilment.isSome = true ∧ ∃ p, Promises accepted .delivery p

def PromiseKept (accepted webhook : Record) (fulfilment : Option Record) (promise : Promise) : Prop :=
  ∃ p o, Promises accepted promise p ∧ States webhook fulfilment promise o ∧ Keeps promise p o

def PromiseBroken (accepted webhook : Record) (fulfilment : Option Record) (promise : Promise) : Prop :=
  ∃ p o, Promises accepted promise p ∧ States webhook fulfilment promise o ∧ ¬ Keeps promise p o

/-! ## What the readers make of it -/

theorem statesTotal_iff {webhook : Record} {price : Option Float} (read : observedPriceOf webhook = .ok price)
    {o : Float} : StatesTotal webhook o ↔ price = some o := by
  unfold observedPriceOf at read
  unfold StatesTotal
  obtain ⟨first, total, read⟩ := bind_eq_ok.mp read
  rw [total]
  cases first with
  | some p =>
      cases read
      simp
  | none => simp [show number _ = _ from read]

theorem add_eq_ok {t t' : Tally} {application : Value} (added : t.add application = .ok t') :
    t' = (percentageOff application).elim t.unread fun value => { t with
      total := t.total + value
      counted := t.counted + 1 } := by
  cases application with
  | dict application =>
      simp only [Tally.add] at added
      simp only [percentageOff]
      revert added
      cases isPercentageApplication application with
      | false =>
          intro added
          cases added
          rfl
      | true =>
          cases isOrderWide application with
          | false =>
              intro added
              cases added
              rfl
          | true =>
              intro added
              rw [if_neg (by simp)] at added
              obtain ⟨value, read, added⟩ := bind_eq_ok.mp added
              rw [read]
              cases value <;> cases added <;> rfl
  | _ =>
      cases added
      rfl

theorem tally_eq_ok {applications : List Value} {t t' : Tally}
    (tallied : applications.foldlM Tally.add t = .ok t') :
    t'.total = (applications.filterMap percentageOff).foldl (· + ·) t.total ∧
      t'.counted = t.counted + (applications.filterMap percentageOff).length ∧
      t'.counted + t'.unreadable = t.counted + t.unreadable + applications.length := by
  induction applications generalizing t with
  | nil =>
      cases tallied
      exact ⟨rfl, rfl, rfl⟩
  | cons a rest ih =>
      rw [List.foldlM_cons] at tallied
      obtain ⟨t₁, head, tail⟩ := bind_eq_ok.mp tallied
      obtain ⟨total, counted, all⟩ := ih tail
      have step := add_eq_ok head
      cases off : percentageOff a with
      | none =>
          rw [off] at step
          subst step
          rw [List.filterMap_cons_none off]
          refine ⟨total, counted, ?_⟩
          simp only [Option.elim_none, Tally.unread, List.length_cons] at all ⊢
          omega
      | some value =>
          rw [off] at step
          subst step
          rw [List.filterMap_cons_some off]
          simp only [Option.elim_some, List.foldl_cons, List.length_cons] at total counted all ⊢
          exact ⟨total, by omega, by omega⟩

theorem statesDiscount_iff {payload : Record} {discount : Option Float}
    (read : discountPercentage payload = .ok discount) {o : Float} :
    StatesDiscount payload o ↔ discount = some o := by
  unfold discountPercentage at read
  unfold StatesDiscount
  cases lists : applicationLists payload with
  | nil =>
      rw [lists] at read
      simp [show number _ = _ from read]
  | cons first rest =>
      have same : applicationsOf payload = ((first :: rest).find? fun items => !items.isEmpty).getD [] := by
        rw [applicationsOf, lists]
      simp only [lists, ← same] at read
      obtain ⟨t, tallied, read⟩ := bind_eq_ok.mp read
      obtain ⟨total, counted, all⟩ := tally_eq_ok tallied
      cases read
      simp only [Nat.zero_add] at counted all
      rw [← total]
      have unread : (applicationsOf payload = [] ∨ (applicationsOf payload).filterMap percentageOff ≠ []) ↔
          ¬ (t.counted = 0 ∧ t.unreadable ≠ 0) := by
        rw [← List.length_eq_zero_iff, ne_eq, ← List.length_eq_zero_iff, ← counted]
        omega
      rw [unread]
      by_cases none : t.counted = 0 ∧ t.unreadable ≠ 0
      · rw [if_pos none]
        simp [none]
      · rw [if_neg none]
        simp [none, eq_comm]

omit [Unicode] in
theorem statesDispatch_iff {webhook : Record} {fulfilment : Option Record} {days : Option Float}
    (read : elapsedDays (webhook.get (str "ts")) (fulfilledAtOf fulfilment) = .ok days) {d : Float} :
    StatesDispatch webhook fulfilment d ↔ fulfilment.isSome = true ∧ days = some d := by
  obtain ⟨first, placed, read⟩ := bind_eq_ok.mp read
  obtain ⟨last, fulfilled, read⟩ := bind_eq_ok.mp read
  cases read
  constructor
  · rintro ⟨record, start, stop, rfl, started, stopped, rfl⟩
    rw [started] at placed
    rw [stopped] at fulfilled
    cases placed
    cases fulfilled
    exact ⟨rfl, rfl⟩
  · rintro ⟨some, elapsed⟩
    obtain ⟨record, rfl⟩ := Option.isSome_iff_exists.mp some
    obtain ⟨start, rfl, elapsed⟩ := Option.bind_eq_some_iff.mp elapsed
    obtain ⟨stop, rfl, rfl⟩ := Option.map_eq_some_iff.mp elapsed
    exact ⟨record, start, stop, rfl, placed, fulfilled, rfl⟩

theorem promises_discount_iff {accepted : Record} {discount : Option Float}
    (read : percentageOf accepted = .ok discount) {p : Float} :
    Promises accepted .discount p ↔ discount = some p ∧ p > discountTolerance := by
  unfold percentageOf at read
  unfold Promises
  cases percent : isPercentage accepted with
  | false =>
      rw [percent, if_neg Bool.false_ne_true] at read
      cases read
      simp
  | true =>
      rw [percent, if_pos rfl] at read
      simp [read]

/-! ## The types of the findings -/

omit [Unicode] in
theorem typed {honored comparable : Bool} {kept broken : Prop}
    (keeps : comparable = true ∧ honored = true ↔ kept) (breaks : comparable = true ∧ honored = false ↔ broken) :
    let type := verdictObservationType (flag honored) (flag comparable)
    type = str "contradicted" ∧ broken ∨ type = str "fulfilled" ∧ kept ∨
      type = str "unsupported" ∧ ¬ broken ∧ ¬ kept := by
  cases comparable with
  | false => exact .inr (.inr ⟨rfl, by simpa using breaks, by simpa using keeps⟩)
  | true =>
      cases honored with
      | false => exact .inl ⟨rfl, by simpa using breaks⟩
      | true => exact .inr (.inl ⟨rfl, by simpa using keeps⟩)

section Judged

variable {webhook accepted : Record} {pixel fulfilment : Option Record} {v : ReconciledEvent}

/-- A graded promise has the type that the evidence warrants. -/
def Warranted (accepted webhook : Record) (fulfilment : Option Record) (promise : Promise) (type : Str) : Prop :=
  Gradeable accepted fulfilment promise ∧
    (type = str "contradicted" ∧ PromiseBroken accepted webhook fulfilment promise ∨
      type = str "fulfilled" ∧ PromiseKept accepted webhook fulfilment promise ∨
      type = str "unsupported" ∧ ¬ PromiseBroken accepted webhook fulfilment promise ∧
        ¬ PromiseKept accepted webhook fulfilment promise)

variable {promise : Promised} (promises : promised accepted = .ok promise)
include promises

theorem price_warranted {price : Option Float} (total : observedPriceOf webhook = .ok price)
    (graded : (promise.totalPrice.or promise.unitPrice).isSome = true) :
    Warranted accepted webhook fulfilment .price (verdictObservationType
      (flag (atMost price (promise.totalPrice.or promise.unitPrice) priceTolerance))
      (flag (price.isSome && promise.totalPrice.isSome))) := by
  obtain ⟨-, unit, whole, -, -⟩ := promised_eq_ok.mp promises
  have stated : ∀ p, Promises accepted .price p ↔ promise.totalPrice = some p := fun p => by
    simp [Promises, whole]
  have observed : ∀ o, States webhook fulfilment .price o ↔ price = some o := fun o => statesTotal_iff total
  refine ⟨?_, typed ?_ ?_⟩
  · simp only [Gradeable, stated, unit, Except.ok.injEq]
    revert graded
    cases promise.totalPrice with
    | some p => exact fun _ => .inl ⟨p, rfl⟩
    | none => exact fun graded => .inr (Option.isSome_iff_exists.mp graded)
  · simp only [PromiseKept, stated, observed]
    cases price with
    | none => simp
    | some o => cases promise.totalPrice <;> simp [atMost, Keeps]
  · simp only [PromiseBroken, stated, observed]
    cases price with
    | none => simp
    | some o => cases promise.totalPrice <;> simp [atMost, Keeps]

theorem discount_warranted {discount : Option Float} (read : discountPercentage (payload webhook) = .ok discount)
    {p : Float} (stated : promise.discountPercentage = some p) (above : p > discountTolerance) :
    Warranted accepted webhook fulfilment .discount (verdictObservationType
      (flag (!decide (promise.discountPercentage.getD 0.0 > 0.0) ||
        discount.any fun o => o ≥ promise.discountPercentage.getD 0.0 - discountTolerance))
      (flag (!decide (promise.discountPercentage.getD 0.0 > 0.0) || discount.isSome))) := by
  obtain ⟨percentage, -, -, -, -⟩ := promised_eq_ok.mp promises
  have promised : ∀ q, Promises accepted .discount q ↔ p = q := fun q => by
    rw [promises_discount_iff percentage, stated, Option.some.injEq]
    exact and_iff_left_of_imp fun same => same ▸ above
  have observed : ∀ o, States webhook fulfilment .discount o ↔ discount = some o := fun o =>
    statesDiscount_iff read
  have required : decide (promise.discountPercentage.getD 0.0 > 0.0) = true := by
    rw [stated]
    exact decide_eq_true (pos_of_tolerance_lt above)
  rw [required, stated]
  refine ⟨⟨p, (promised p).mpr rfl⟩, typed ?_ ?_⟩
  · simp only [PromiseKept, promised, observed]
    cases discount <;> simp [Keeps]
  · simp only [PromiseBroken, promised, observed]
    cases discount <;> simp [Keeps]

theorem delivery_warranted {dispatch : Option Float}
    (elapsed : elapsedDays (webhook.get (str "ts")) (fulfilledAtOf fulfilment) = .ok dispatch)
    (fulfilled : fulfilment.isSome = true) (graded : promise.deliveryEstimateDays.isSome = true) :
    Warranted accepted webhook fulfilment .delivery (verdictObservationType
      (flag (atMost dispatch promise.deliveryEstimateDays deliveryToleranceDays))
      (flag (promise.deliveryEstimateDays.isSome && dispatch.isSome))) := by
  obtain ⟨-, -, -, delivery, -⟩ := promised_eq_ok.mp promises
  obtain ⟨p, days⟩ := Option.isSome_iff_exists.mp graded
  have stated : ∀ q, Promises accepted .delivery q ↔ p = q := fun q => by simp [Promises, delivery, days]
  have observed : ∀ o, States webhook fulfilment .delivery o ↔ dispatch = some o := fun o => by
    rw [States, statesDispatch_iff elapsed]
    exact and_iff_right fulfilled
  rw [days]
  refine ⟨⟨fulfilled, p, (stated p).mpr rfl⟩, typed ?_ ?_⟩
  · simp only [PromiseKept, stated, observed]
    cases dispatch <;> simp [Keeps, atMost]
  · simp only [PromiseBroken, stated, observed]
    cases dispatch <;> simp [Keeps, atMost]

end Judged

/-! ## The findings themselves -/

theorem mem_gradedFields {p : ReconciledPayload} (price : number (floatValue p.promisedPrice) = .ok p.promisedPrice)
    (discount : number (floatValue p.promisedDiscountPercentage) = .ok p.promisedDiscountPercentage)
    (delivery : number (floatValue p.promisedDeliveryDays) = .ok p.promisedDeliveryDays) :
    ∃ graded, gradedFields p.toRecord = .ok graded ∧ ∀ g ∈ graded,
      (g.field = Promise.price.field ∧ p.promisedPrice.isSome = true ∧
          g.type = verdictObservationType (flag p.priceHonored) (flag p.priceComparable)) ∨
        (g.field = Promise.discount.field ∧
          (∃ x, p.promisedDiscountPercentage = some x ∧ x > discountTolerance) ∧
          g.type = verdictObservationType (flag p.discountHonored) (flag p.discountComparable)) ∨
        (g.field = Promise.delivery.field ∧ p.promisedDeliveryDays.isSome = true ∧ p.fulfilmentMissing = false ∧
          g.type = verdictObservationType (flag p.shippedOnTime) (flag p.deliveryComparable)) := by
  have first : number (Record.get p.toRecord (str "promised_price")) = .ok p.promisedPrice := price
  have second : number (Record.get p.toRecord (str "promised_discount_percentage")) =
      .ok p.promisedDiscountPercentage := discount
  have third : number (Record.get p.toRecord (str "promised_delivery_days")) = .ok p.promisedDeliveryDays := delivery
  have missing : (Dict.get? p.toRecord (str "fulfilment_missing")).getD (.bool true) =
      flag p.fulfilmentMissing := rfl
  rw [gradedFields, first, second, third]
  refine ⟨_, rfl, fun g member => ?_⟩
  rw [missing] at member
  simp only [List.mem_append, Option.mem_toList] at member
  rcases member with (member | member) | member
  · obtain ⟨x, some, rfl⟩ := Option.map_eq_some_iff.mp member
    obtain ⟨some, -⟩ := Option.filter_eq_some_iff.mp some
    exact .inl ⟨rfl, by rw [some]; rfl, rfl⟩
  · obtain ⟨x, some, rfl⟩ := Option.map_eq_some_iff.mp member
    obtain ⟨some, above⟩ := Option.filter_eq_some_iff.mp some
    exact .inr (.inl ⟨rfl, ⟨x, some, of_decide_eq_true above⟩, rfl⟩)
  · obtain ⟨x, some, rfl⟩ := Option.map_eq_some_iff.mp member
    obtain ⟨some, fulfilled⟩ := Option.filter_eq_some_iff.mp some
    exact .inr (.inr ⟨rfl, by rw [some]; rfl, by simpa [flag, Value.truthy] using fulfilled, rfl⟩)

theorem observationEvents_judged {v : ReconciledEvent} (kind : v.kind = reconciledKind)
    {graded : List GradedField} (read : gradedFields v.payload.toRecord = .ok graded) :
    ∃ events, observationEvents [v.toRecord] = .ok events ∧ ∀ event ∈ events, ∃ g ∈ graded,
      (payload event).get (str "field") = .str g.field ∧ (payload event).get (str "type") = .str g.type := by
  have named : ((Dict.get? v.toRecord (str "kind")).getD (.str [])).toStr = reconciledKind := by
    show (Value.str v.kind).toStr = reconciledKind
    rw [Value.toStr_str, kind]
  have body : payload v.toRecord = v.payload.toRecord := rfl
  unfold observationEvents
  rw [List.filter_cons_of_pos (by exact decide_eq_true named), List.filter_nil, List.mapM_cons, List.mapM_nil]
  unfold observationsOf
  simp only [body, read]
  split
  · exact ⟨[], rfl, nofun⟩
  · refine ⟨_, rfl, fun event member => ?_⟩
    simp only [List.flatten_cons, List.flatten_nil, List.append_nil] at member
    obtain ⟨g, inside, rfl⟩ := List.mem_map.mp member
    exact ⟨g, inside, rfl, rfl⟩

/-- Whatever the translation of a verdict says of a promise, the offer, the webhook and the fulfilment bear
it out. -/
theorem observations_warranted {webhook accepted : Record} {pixel fulfilment : Option Record}
    {v : ReconciledEvent} (judged : verdict webhook accepted pixel fulfilment = .ok v) :
    ∃ events, observationEvents [v.toRecord] = .ok events ∧ ∀ event ∈ events, ∃ promise type,
      (payload event).get (str "field") = .str (Promise.field promise) ∧
      (payload event).get (str "type") = .str type ∧ Warranted accepted webhook fulfilment promise type := by
  rw [verdict_pixel] at judged
  obtain ⟨e, graded, rest⟩ := bind_eq_ok.mp judged
  obtain ⟨seen, -, same⟩ := bind_eq_ok.mp rest
  cases same
  obtain ⟨promise, price, discount, days, dispatch, promises, total, discounts, again, elapsed, shape⟩ :=
    verdict_eq_ok.mp graded
  obtain ⟨percentage, unit, whole, delivery, -⟩ := promised_eq_ok.mp promises
  obtain rfl : promise.deliveryEstimateDays = days := Except.ok.inj ((number_again delivery).symm.trans again)
  have percent : number (floatValue promise.discountPercentage) = .ok promise.discountPercentage := by
    unfold percentageOf at percentage
    split at percentage
    · exact number_again percentage
    · rw [← Except.ok.inj percentage]
      rfl
  have priced : number (floatValue (promise.totalPrice.or promise.unitPrice)) =
      .ok (promise.totalPrice.or promise.unitPrice) := by
    cases some : promise.totalPrice with
    | some p => exact number_again (some ▸ whole)
    | none => exact number_again unit
  obtain ⟨graded, read, types⟩ := mem_gradedFields (p := (e.withPixel pixel seen).payload)
    (shape ▸ priced) (shape ▸ percent) (shape ▸ again)
  obtain ⟨events, translated, findings⟩ := observationEvents_judged
    (show (e.withPixel pixel seen).kind = reconciledKind from shape ▸ rfl) read
  subst shape
  refine ⟨events, translated, fun event member => ?_⟩
  obtain ⟨g, inside, field, type⟩ := findings event member
  rcases types g inside with ⟨name, some, ty⟩ | ⟨name, ⟨x, some, above⟩, ty⟩ | ⟨name, some, fulfilled, ty⟩
  · exact ⟨.price, _, name ▸ field, ty ▸ type, price_warranted promises total some⟩
  · exact ⟨.discount, _, name ▸ field, ty ▸ type, discount_warranted promises discounts some above⟩
  · have shipped : fulfilment.isNone = false := fulfilled
    exact ⟨.delivery, _, name ▸ field, ty ▸ type,
      delivery_warranted promises elapsed (by simpa using shipped) some⟩

end Evidence

/-- An offer of 100 in all, and the webhook of an order that was charged 130. -/
theorem overcharge_warranted :
    letI := Unicode.ascii
    let accepted : Record := [(str "payload", .dict [(str "offer", .dict [(str "total_price", .int 100)])])]
    let webhook : Record := [(str "store_id", .str (str "a")), (str "payload", .dict [(str "total_price", .int 130)])]
    ∃ v, verdict webhook accepted none none = .ok v ∧ ∃ events, observationEvents [v.toRecord] = .ok events ∧
      ∀ event ∈ events, ∃ promise type, (payload event).get (str "field") = .str (Promise.field promise) ∧
        (payload event).get (str "type") = .str type ∧ Warranted accepted webhook none promise type := by
  let tables : Unicode := Unicode.ascii
  have returns : (verdict [(str "store_id", .str (str "a")), (str "payload", .dict [(str "total_price", .int 130)])]
      [(str "payload", .dict [(str "offer", .dict [(str "total_price", .int 100)])])] none none).isOk = true := by
    decide
  obtain ⟨v, judged⟩ := returns_of_isOk returns
  exact ⟨v, judged, observations_warranted judged⟩

end Proxyshop.Reconcile
