import Proxyshop.Reconcile.EventIds
import Proxyshop.Structures.Fallible

/-!
# Streams that poison the door

What makes a run raise anything but its own refusal: a number that no float holds, or an instant that
UTC puts outside the calendar, among what is read of an order that has an offer.
-/

namespace Proxyshop.Reconcile

open Python Structures

section Poison

variable [Unicode]

/-! ## Values that raise -/

def overflows : Value → Bool
  | .int i => (Double.ofInt? i).isNone
  | _ => false

theorem number_returns {v : Value} : (∃ x, number v = .ok x) ↔ overflows v = false := by
  cases v with
  | int i =>
      simp only [number, Value.toFloat, overflows]
      cases Double.ofInt? i with
      | none => exact iff_of_false (by rintro ⟨_, read⟩; cases read) (by rintro ⟨⟩)
      | some x => exact iff_of_true ⟨_, rfl⟩ rfl
  | _ => exact iff_of_true ⟨_, rfl⟩ rfl

def stampOf : Value → Option DateTime
  | .datetime t => some t
  | .str s =>
      let text := s.strip
      if text.isEmpty then none
      else DateTime.fromIsoFormat ((text.replace (str "Z") (str "+00:00")).replace (str "z") (str "+00:00"))
  | _ => none

def leavesCalendar (t : DateTime) : Bool := t.offset.isSome && t.toUtc?.isNone

def offCalendar (v : Value) : Bool := (stampOf v).any leavesCalendar

omit [Unicode] in
theorem inUtc_returns {t : DateTime} : (∃ u, inUtc t = .ok u) ↔ leavesCalendar t = false := by
  unfold inUtc leavesCalendar
  cases t.offset with
  | none => exact iff_of_true ⟨_, rfl⟩ rfl
  | some offset =>
      cases t.toUtc? with
      | none => exact iff_of_false nofun nofun
      | some u => exact iff_of_true ⟨u, rfl⟩ rfl

omit [Unicode] in
theorem instant_eq (v : Value) : instant v = (stampOf v).elim (.ok none) fun t => (inUtc t).map some := by
  cases v with
  | str s =>
      simp only [instant, stampOf]
      split <;> rfl
  | _ => rfl

omit [Unicode] in
theorem instant_returns {v : Value} : (∃ t, instant v = .ok t) ↔ offCalendar v = false := by
  rw [instant_eq, offCalendar]
  cases stampOf v with
  | none => exact iff_of_true ⟨none, rfl⟩ rfl
  | some t =>
      rw [Option.any_some, ← inUtc_returns, Option.elim_some]
      cases inUtc t with
      | error e => exact iff_of_false nofun nofun
      | ok u => exact iff_of_true ⟨_, rfl⟩ ⟨u, rfl⟩

/-! ## Records that raise -/

def offerOf (accepted : Record) : Record := ((payload accepted).get (str "offer")).mapping

def discountOf (accepted : Record) : Record := ((offerOf accepted).get (str "discount")).mapping

def isPercentage (accepted : Record) : Bool :=
  Unicode.lower ((Dict.get? (discountOf accepted) (str "type")).getD (.str (str "percentage"))).toStr =
    str "percentage"

def percentageOf (accepted : Record) : Except PyError (Option Float) :=
  if isPercentage accepted = true then number ((discountOf accepted).get (str "value")) else .ok none

structure PlainOffer (accepted : Record) : Prop where
  discount : isPercentage accepted = true → overflows ((discountOf accepted).get (str "value")) = false
  unitPrice : overflows ((offerOf accepted).get (str "unit_price")) = false
  totalPrice : overflows ((offerOf accepted).get (str "total_price")) = false
  delivery : overflows ((offerOf accepted).get (str "delivery_estimate_days")) = false

theorem promised_eq_ok {accepted : Record} {promise : Promised} : promised accepted = .ok promise ↔
    percentageOf accepted = .ok promise.discountPercentage ∧
      number ((offerOf accepted).get (str "unit_price")) = .ok promise.unitPrice ∧
      number ((offerOf accepted).get (str "total_price")) = .ok promise.totalPrice ∧
      number ((offerOf accepted).get (str "delivery_estimate_days")) = .ok promise.deliveryEstimateDays ∧
      promise.productRef = (offerOf accepted).get (str "product_ref") := by
  have shape : promised accepted = percentageOf accepted >>= fun percentage => (do
      let unitPrice ← number ((offerOf accepted).get (str "unit_price"))
      let totalPrice ← number ((offerOf accepted).get (str "total_price"))
      let deliveryEstimateDays ← number ((offerOf accepted).get (str "delivery_estimate_days"))
      return ⟨(offerOf accepted).get (str "product_ref"), unitPrice, totalPrice, percentage,
        deliveryEstimateDays⟩) := by
    simp only [promised]
    split
    · have percent : isPercentage accepted = true := decide_eq_true ‹_›
      rw [percentageOf, if_pos percent]
      rfl
    · have other : isPercentage accepted = false := decide_eq_false ‹_›
      rw [percentageOf, other, if_neg Bool.false_ne_true]
      rfl
  rw [shape]
  constructor
  · intro read
    obtain ⟨percentage, discount, read⟩ := bind_eq_ok.mp read
    obtain ⟨unitPrice, unit, read⟩ := bind_eq_ok.mp read
    obtain ⟨totalPrice, total, read⟩ := bind_eq_ok.mp read
    obtain ⟨days, delivery, read⟩ := bind_eq_ok.mp read
    cases read
    exact ⟨discount, unit, total, delivery, rfl⟩
  · rintro ⟨discount, unit, total, delivery, ref⟩
    rw [discount, unit, total, delivery, ← ref]
    rfl

theorem promised_returns {accepted : Record} : (∃ promise, promised accepted = .ok promise) ↔
    PlainOffer accepted := by
  constructor
  · rintro ⟨promise, read⟩
    obtain ⟨discount, unit, total, delivery, -⟩ := promised_eq_ok.mp read
    refine ⟨fun percent => ?_, number_returns.mp ⟨_, unit⟩, number_returns.mp ⟨_, total⟩,
      number_returns.mp ⟨_, delivery⟩⟩
    rw [percentageOf, if_pos percent] at discount
    exact number_returns.mp ⟨_, discount⟩
  · rintro ⟨discount, unit, total, delivery⟩
    obtain ⟨unitPrice, unit⟩ := number_returns.mpr unit
    obtain ⟨totalPrice, total⟩ := number_returns.mpr total
    obtain ⟨days, delivery⟩ := number_returns.mpr delivery
    have percentage : ∃ x, percentageOf accepted = .ok x := by
      unfold percentageOf
      split
      · exact number_returns.mpr (discount ‹_›)
      · exact ⟨none, rfl⟩
    obtain ⟨x, percentage⟩ := percentage
    exact ⟨⟨_, unitPrice, totalPrice, x, days⟩, promised_eq_ok.mpr ⟨percentage, unit, total, delivery, rfl⟩⟩

/-- The first spelling of the webhook's total is asked first, and the other only where it is no number. -/
structure PlainTotal (webhook : Record) : Prop where
  total : overflows ((payload webhook).get (str "total_price")) = false
  current : number ((payload webhook).get (str "total_price")) = .ok none →
    overflows ((payload webhook).get (str "current_total_price")) = false

theorem observedPriceOf_returns {webhook : Record} : (∃ price, observedPriceOf webhook = .ok price) ↔
    PlainTotal webhook := by
  unfold observedPriceOf
  cases read : number ((payload webhook).get (str "total_price")) with
  | error e =>
      refine iff_of_false nofun fun plain => ?_
      obtain ⟨x, returned⟩ := number_returns.mpr plain.total
      rw [read] at returned
      cases returned
  | ok x =>
      have plain := number_returns.mp ⟨x, read⟩
      cases x with
      | some x => exact iff_of_true ⟨_, rfl⟩ ⟨plain, fun absent => by cases read.symm.trans absent⟩
      | none =>
          show (∃ price, number _ = .ok price) ↔ _
          rw [number_returns]
          exact ⟨fun current => ⟨plain, fun _ => current⟩, fun both => both.current read⟩

def applicationsOf (payload : Record) : List Value :=
  ((applicationLists payload).find? fun items => !items.isEmpty).getD []

def heavyApplication : Value → Bool
  | .dict application =>
      isPercentageApplication application && isOrderWide application &&
        overflows (Record.get application (str "value"))
  | _ => false

theorem tally_returns {t : Tally} {application : Value} :
    (∃ t', t.add application = .ok t') ↔ heavyApplication application = false := by
  cases application with
  | dict application =>
      simp only [Tally.add, heavyApplication]
      cases isPercentageApplication application with
      | false => exact iff_of_true ⟨_, rfl⟩ rfl
      | true =>
          cases isOrderWide application with
          | false => exact iff_of_true ⟨_, rfl⟩ rfl
          | true =>
              rw [if_neg (by simp), Bool.and_self, Bool.true_and, ← number_returns]
              cases number (Record.get application (str "value")) with
              | error e => exact iff_of_false (by rintro ⟨_, read⟩; cases read) (by rintro ⟨_, read⟩; cases read)
              | ok x => cases x <;> exact iff_of_true ⟨_, rfl⟩ ⟨_, rfl⟩
  | _ => exact iff_of_true ⟨_, rfl⟩ rfl

theorem tallies_return {t : Tally} {applications : List Value} :
    (∃ t', applications.foldlM Tally.add t = .ok t') ↔ ∀ a ∈ applications, heavyApplication a = false := by
  induction applications generalizing t with
  | nil => exact iff_of_true ⟨t, rfl⟩ nofun
  | cons a rest ih =>
      rw [List.foldlM_cons, bind_returns, List.forall_mem_cons, ← tally_returns (t := t)]
      constructor
      · rintro ⟨t', head, tail⟩
        exact ⟨⟨t', head⟩, ih.mp tail⟩
      · rintro ⟨⟨t', head⟩, tail⟩
        exact ⟨t', head, ih.mpr tail⟩

structure PlainDiscounts (payload : Record) : Prop where
  scalar : applicationLists payload = [] → overflows (payload.get (str "discount_percentage")) = false
  applications : ∀ a ∈ applicationsOf payload, heavyApplication a = false

theorem discountPercentage_returns {payload : Record} : (∃ x, discountPercentage payload = .ok x) ↔
    PlainDiscounts payload := by
  unfold discountPercentage
  cases lists : applicationLists payload with
  | nil =>
      rw [number_returns]
      have none : applicationsOf payload = [] := by rw [applicationsOf, lists]; rfl
      exact ⟨fun plain => ⟨fun _ => plain, none ▸ nofun⟩, fun both => both.scalar lists⟩
  | cons first rest =>
      have same : applicationsOf payload = ((first :: rest).find? fun items => !items.isEmpty).getD [] := by
        rw [applicationsOf, lists]
      show (∃ x, (_ >>= _) = _) ↔ _
      rw [bind_returns, ← same]
      constructor
      · rintro ⟨t, tallied, -⟩
        exact ⟨fun none => absurd (lists.symm.trans none) (List.cons_ne_nil _ _), tallies_return.mp ⟨t, tallied⟩⟩
      · rintro ⟨-, applications⟩
        obtain ⟨t, tallied⟩ := tallies_return (t := ⟨0.0, 0, 0⟩).mpr applications
        exact ⟨t, tallied, _, rfl⟩

omit [Unicode] in
theorem elapsedDays_returns {start stop : Value} : (∃ days, elapsedDays start stop = .ok days) ↔
    offCalendar start = false ∧ offCalendar stop = false := by
  rw [← instant_returns, ← instant_returns, elapsedDays, bind_returns]
  constructor
  · rintro ⟨first, started, rest⟩
    obtain ⟨last, stopped, -⟩ := bind_returns.mp rest
    exact ⟨⟨first, started⟩, last, stopped⟩
  · rintro ⟨⟨first, started⟩, last, stopped⟩
    exact ⟨first, started, bind_returns.mpr ⟨last, stopped, _, rfl⟩⟩

structure PlainOrder (webhook accepted : Record) (pixel fulfilment : Option Record) : Prop where
  offer : PlainOffer accepted
  total : PlainTotal webhook
  discounts : PlainDiscounts (payload webhook)
  placed : offCalendar (webhook.get (str "ts")) = false
  fulfilled : offCalendar (fulfilledAtOf fulfilment) = false
  pixel : ∀ beacon, pixel = some beacon → overflows ((payload beacon).get (str "total_price")) = false

theorem pixelPriceOf_returns {pixel : Option Record} : (∃ price, pixelPriceOf pixel = .ok price) ↔
    ∀ beacon, pixel = some beacon → overflows ((payload beacon).get (str "total_price")) = false := by
  cases pixel with
  | none => exact iff_of_true ⟨none, rfl⟩ nofun
  | some beacon =>
      simp only [pixelPriceOf, Option.elim_some, Option.some.injEq, forall_eq']
      exact number_returns

theorem verdict_returns {webhook accepted : Record} {pixel fulfilment : Option Record} :
    (∃ v, verdict webhook accepted pixel fulfilment = .ok v) ↔ PlainOrder webhook accepted pixel fulfilment := by
  rw [verdict_pixel, bind_returns]
  constructor
  · rintro ⟨e, judged, rest⟩
    obtain ⟨price, priced, -⟩ := bind_returns.mp rest
    obtain ⟨promise, total, discount, days, dispatch, promises, totals, discounts, -, elapsed, -⟩ :=
      verdict_eq_ok.mp judged
    obtain ⟨placed, fulfilled⟩ := elapsedDays_returns.mp ⟨_, elapsed⟩
    exact ⟨promised_returns.mp ⟨_, promises⟩, observedPriceOf_returns.mp ⟨_, totals⟩,
      discountPercentage_returns.mp ⟨_, discounts⟩, placed, fulfilled, pixelPriceOf_returns.mp ⟨_, priced⟩⟩
  · rintro ⟨offer, total, discounts, placed, fulfilled, pixel⟩
    obtain ⟨promise, promises⟩ := promised_returns.mpr offer
    obtain ⟨price, totals⟩ := observedPriceOf_returns.mpr total
    obtain ⟨discount, discounts⟩ := discountPercentage_returns.mpr discounts
    obtain ⟨dispatch, elapsed⟩ := elapsedDays_returns.mpr ⟨placed, fulfilled⟩
    obtain ⟨seen, priced⟩ := pixelPriceOf_returns.mpr pixel
    refine ⟨_, verdict_eq_ok.mpr ⟨promise, price, discount, _, dispatch, promises, totals, discounts,
      number_floatValue _, elapsed, rfl⟩, bind_returns.mpr ⟨seen, priced, _, rfl⟩⟩

/-! ## The door -/

def joinable (events : List Record) : List Record := events.filter fun event => !unjoinableWebhook event

/-- A run returns or refuses, refuses what it should, and returns on the rest of the stream, as does the
translation of what it then emits. -/
structure Unpoisoned (events : List Record) : Prop where
  answers : (∃ out, reconcile events = .ok out) ∨ reconcile events = .error .reconciliationInput
  refuses : reconcile events = .error .reconciliationInput ↔ ∃ event ∈ events, unjoinableWebhook event = true
  follows : ∃ out findings, reconcile (joinable events) = .ok out ∧
    observationEvents (out.map ReconciledEvent.toRecord) = .ok findings

theorem joinable_joins {events : List Record} : ∀ event ∈ joinable events, unjoinableWebhook event = false := by
  intro event member
  simpa using (List.mem_filter.mp member).2

theorem joinable_of_joins {events : List Record} (joins : ∀ event ∈ events, unjoinableWebhook event = false) :
    joinable events = events :=
  List.filter_eq_self.mpr fun event member => by rw [joins event member]; rfl

theorem reconcile_refuses {events : List Record} {event : Record} (member : event ∈ events)
    (orphan : unjoinableWebhook event = true) : reconcile events = .error .reconciliationInput := by
  have read : collect readEvent events = .error .reconciliationInput := by
    induction events with
    | nil => cases member
    | cons first rest ih =>
        rw [collect]
        cases here : readEvent first with
        | error e =>
            unfold readEvent at here
            split at here
            · cases here
            · split at here
              · cases here
              · split at here <;> cases here
                rfl
        | ok r =>
            have joins := readEvent_returns.mp ⟨r, here⟩
            have later : event ∈ rest := by
              refine (List.mem_cons.mp member).resolve_left ?_
              rintro rfl
              rw [orphan] at joins
              cases joins
            show (collect readEvent rest >>= _) = _
            rw [ih later]
            rfl
  rw [reconcile, read]
  rfl

theorem observations_return {events : List Record} {out : List ReconciledEvent}
    (returned : reconcile events = .ok out) :
    ∃ findings, observationEvents (out.map ReconciledEvent.toRecord) = .ok findings := by
  have formed := formed_of_reconcile returned
  obtain ⟨findings, translated, -⟩ := observationEvents_ids fun v member =>
    ⟨(formed v member).1, (formed v member).2.1, (formed v member).2.2.1⟩
  exact ⟨findings, translated⟩

/-- The orders of a stream, with the offer, the beacon and the fulfilment that each is judged by, can all
be read. -/
def AllPlain (events : List Record) : Prop :=
  ∀ e ∈ orders (relevantOf events), ∀ offer, offerFor (relevantOf events) e = some offer →
    PlainOrder e.event offer.event ((pixelsFor (relevantOf events) e).head?.map (·.event))
      ((fulfilmentFor (relevantOf events) e).map (·.event))

theorem gradeOrder_plain {relevant : List Relevant} {e : Relevant} :
    (∃ v, gradeOrder relevant e = .ok v) ↔ ∀ offer, offerFor relevant e = some offer →
      PlainOrder e.event offer.event ((pixelsFor relevant e).head?.map (·.event))
        ((fulfilmentFor relevant e).map (·.event)) := by
  cases found : offerFor relevant e with
  | none => exact iff_of_true ⟨none, gradeOrder_of_none found⟩ nofun
  | some offer =>
      rw [gradeOrder_of_some found]
      simp only [Option.some.injEq, forall_eq', ← verdict_returns]
      cases verdict e.event offer.event ((pixelsFor relevant e).head?.map (·.event))
        ((fulfilmentFor relevant e).map (·.event)) with
      | error failure =>
          refine iff_of_false ?_ ?_
          · rintro ⟨v, graded⟩
            cases graded
          · rintro ⟨v, judged⟩
            cases judged
      | ok v => exact iff_of_true ⟨some v, rfl⟩ ⟨v, rfl⟩

theorem reconcile_returns {events : List Record} : (∃ out, reconcile events = .ok out) ↔
    (∀ event ∈ events, unjoinableWebhook event = false) ∧ AllPlain events := by
  simp only [reconcile_eq_ok, gradeOrder_plain, exists_and_left, exists_eq, and_true]
  rfl

/-- Nothing poisons the door but an order whose offer, payment, beacon or fulfilment raises as it is
read. -/
theorem unpoisoned_iff (events : List Record) : Unpoisoned events ↔ AllPlain (joinable events) := by
  constructor
  · intro unpoisoned
    obtain ⟨out, -, returned, -⟩ := unpoisoned.follows
    exact (reconcile_returns.mp ⟨out, returned⟩).2
  · intro plain
    obtain ⟨out, returned⟩ := reconcile_returns.mpr ⟨joinable_joins, plain⟩
    obtain ⟨findings, translated⟩ := observations_return returned
    by_cases orphaned : ∃ event ∈ events, unjoinableWebhook event = true
    · obtain ⟨event, member, orphan⟩ := orphaned
      have refused := reconcile_refuses member orphan
      exact ⟨.inr refused, iff_of_true refused ⟨event, member, orphan⟩, out, findings, returned, translated⟩
    · have joins : ∀ event ∈ events, unjoinableWebhook event = false := by simpa using orphaned
      rw [joinable_of_joins joins] at returned
      refine ⟨.inl ⟨out, returned⟩, iff_of_false ?_ orphaned, out, findings, ?_, translated⟩
      · rw [returned]
        nofun
      · rw [joinable_of_joins joins]
        exact returned

end Poison

/-- An order that was fulfilled on the first day of the calendar, an hour east of UTC. -/
def earlyStream : List Record :=
  let fields : Record := [(str "store_id", .str (str "a")), (str "order_ref", .str (str "1")),
    (str "ts", .str (str "2026-01-01T00:00:00Z"))]
  let event (kind : String) (payload : Record) : Record :=
    (str "kind", .str (str kind)) :: fields ++ [(str "payload", .dict payload)]
  [event "accepted" [(str "offer", .dict [(str "total_price", .int 100)])],
    event "order_paid" [(str "total_price", .int 100)],
    event "order_fulfilled" [(str "order_ref", .str (str "1")),
      (str "fulfilled_at", .str (str "0001-01-01T00:00:00+01:00"))]]

theorem earlyStream_poisons :
    letI := Unicode.ascii
    ¬ Unpoisoned earlyStream := by
  let tables : Unicode := Unicode.ascii
  have raises : ((reconcile earlyStream).toOption.isNone &&
      earlyStream.all fun event => !unjoinableWebhook event) = true := by decide
  obtain ⟨none, joins⟩ := Bool.and_eq_true_iff.mp raises
  intro unpoisoned
  rcases unpoisoned.answers with ⟨out, returned⟩ | refused
  · rw [returned] at none
    cases none
  · obtain ⟨event, member, orphan⟩ := unpoisoned.refuses.mp refused
    have joined := List.all_eq_true.mp joins event member
    rw [orphan] at joined
    cases joined

end Proxyshop.Reconcile
