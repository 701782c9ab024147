import Proxyshop.Reconcile.Stream

/-!
# The findings of a reconciled event

A reconciled event as the ledger stores it, and the `offer_integrity` events made of it: one for every
promise it graded.
-/

namespace Proxyshop.Reconcile

open Python

def flag (b : Bool) : Value := .bool b

def ReconciledPayload.toRecord (p : ReconciledPayload) : Record :=
  [(str "order_ref", .str p.orderRef), (str "checkout_token", p.checkoutToken),
    (str "product_ref", p.productRef), (str "bid_ref", p.bidRef),
    (str "price_honored", flag p.priceHonored), (str "discount_honored", flag p.discountHonored),
    (str "price_comparable", flag p.priceComparable),
    (str "discount_comparable", flag p.discountComparable),
    (str "observed_price", floatValue p.observedPrice),
    (str "observed_discount_percentage", floatValue p.observedDiscountPercentage),
    (str "promised_price", floatValue p.promisedPrice),
    (str "promised_price_basis", textValue p.promisedPriceBasis),
    (str "promised_discount_percentage", floatValue p.promisedDiscountPercentage),
    (str "shipped_on_time", flag p.shippedOnTime),
    (str "delivery_comparable", flag p.deliveryComparable),
    (str "promised_delivery_days", floatValue p.promisedDeliveryDays),
    (str "observed_dispatch_days", floatValue p.observedDispatchDays),
    (str "fulfilled_at", p.fulfilledAt), (str "fulfilment_missing", flag p.fulfilmentMissing),
    (str "authority", .str p.authority), (str "pixel_missing", flag p.pixelMissing),
    (str "pixel_price", floatValue p.pixelPrice), (str "pixel_agrees", flag p.pixelAgrees)] ++
    p.clusterId.toList.map fun cluster => (str "cluster_id", cluster)

def ReconciledEvent.toRecord (e : ReconciledEvent) : Record :=
  [(str "event_id", .str e.eventId), (str "ts", e.ts), (str "kind", .str e.kind),
    (str "store_id", textValue e.storeId), (str "order_ref", .str e.orderRef),
    (str "payload", .dict e.payload.toRecord)]

def observationKind : Str := str "offer_integrity"

structure GradedField where
  field : Str
  dim : Str
  type : Str
  promised : Float
  observed : Value

def verdictObservationType (honored comparable : Value) : Str :=
  if !comparable.truthy then str "unsupported"
  else if honored.truthy then str "fulfilled" else str "contradicted"

def gradedField (payload : Record) (field dim comparable observed : Str) (promised : Option Float)
    (gradeable : Float → Bool) : Option GradedField :=
  (promised.filter gradeable).map fun promised =>
    ⟨field, dim, verdictObservationType (payload.get dim) (payload.get comparable), promised,
      payload.get observed⟩

section Findings

variable [Unicode]

def gradedFields (payload : Record) : Except PyError (List GradedField) := do
  let price ← number (payload.get (str "promised_price"))
  let discount ← number (payload.get (str "promised_discount_percentage"))
  let delivery ← number (payload.get (str "promised_delivery_days"))
  let fulfilled := !((Dict.get? payload (str "fulfilment_missing")).getD (.bool true)).truthy
  return (gradedField payload (str "price") (str "price_honored") (str "price_comparable")
      (str "observed_price") price fun _ => true).toList ++
    (gradedField payload (str "discount") (str "discount_honored") (str "discount_comparable")
      (str "observed_discount_percentage") discount fun promised =>
        promised > discountTolerance).toList ++
    (gradedField payload (str "delivery") (str "shipped_on_time") (str "delivery_comparable")
      (str "observed_dispatch_days") delivery fun _ => fulfilled).toList

def observationId (storeId orderRef : Value) (field : Str) : Str :=
  observationKind ++ idSeparator :: idComponent storeId ++ idSeparator :: idComponent orderRef ++
    idSeparator :: field

def observationsOf (event : Record) : Except PyError (List Record) :=
  let payload := payload event
  let storeId := (event.get (str "store_id")).or (payload.get (str "store_id"))
  if storeId.isNone then .ok [] else do
    let orderRef := (payload.get (str "order_ref")).or (event.get (str "order_ref"))
    let observedAt := (payload.get (str "observed_at")).or (event.get (str "ts"))
    let cluster := payload.get (str "cluster_id")
    let graded ← gradedFields payload
    return graded.map fun g =>
      [(str "event_id", .str (observationId storeId orderRef g.field)), (str "ts", observedAt),
        (str "kind", .str observationKind), (str "store_id", storeId), (str "order_ref", orderRef),
        (str "payload", .dict
          ([(str "bid_ref", payload.get (str "bid_ref")), (str "field", .str g.field),
            (str "promised", .float g.promised), (str "observed", g.observed),
            (str "dim", .str g.dim), (str "type", .str g.type), (str "observed_at", observedAt),
            (str "reconciled_event_id", event.get (str "event_id")),
            (str "authority", .str Kind.orderPaid.name)] ++
            if cluster.isNone then [] else [(str "cluster_id", cluster)]))]

def observationEvents (reconciled : List Record) : Except PyError (List Record) := do
  let lists ← (reconciled.filter fun event =>
    ((Dict.get? event (str "kind")).getD (.str [])).toStr = reconciledKind).mapM observationsOf
  return lists.flatten

/-! ## The findings of a run -/

theorem number_floatValue (x : Option Float) : number (floatValue x) = .ok (x.bind finite?) := by
  cases x <;> rfl

def fieldNames : List Str := [str "price", str "discount", str "delivery"]

omit [Unicode] in
theorem fields_gradedField (payload : Record) (field dim comparable observed : Str)
    (promised : Option Float) (gradeable : Float → Bool) :
    ((gradedField payload field dim comparable observed promised gradeable).toList.map
      (·.field)).Sublist [field] := by
  unfold gradedField
  cases promised.filter gradeable with
  | none => exact List.nil_sublist _
  | some promised => exact List.Sublist.refl _

theorem gradedFields_toRecord (p : ReconciledPayload) : ∃ graded,
    gradedFields p.toRecord = .ok graded ∧ (graded.map (·.field)).Sublist fieldNames := by
  have price : Record.get p.toRecord (str "promised_price") = floatValue p.promisedPrice := rfl
  have discount : Record.get p.toRecord (str "promised_discount_percentage") =
      floatValue p.promisedDiscountPercentage := rfl
  have delivery : Record.get p.toRecord (str "promised_delivery_days") =
      floatValue p.promisedDeliveryDays := rfl
  rw [gradedFields, price, discount, delivery, number_floatValue, number_floatValue, number_floatValue]
  refine ⟨_, rfl, ?_⟩
  rw [List.map_append, List.map_append]
  exact ((fields_gradedField ..).append (fields_gradedField ..)).append (fields_gradedField ..)

def findingIds (storeId : Option Str) (orderRef : Str) (fields : List Str) : List Str :=
  if storeId.isNone then [] else fields.map (observationId (textValue storeId) (.str orderRef))

theorem observationsOf_toRecord {e : ReconciledEvent} (solid : e.storeId ≠ some [])
    (kept : e.payload.orderRef = e.orderRef) :
    ∃ findings fields, observationsOf e.toRecord = .ok findings ∧ fields.Sublist fieldNames ∧
      findings.map (fun finding => Record.get finding (str "event_id")) =
        (findingIds e.storeId e.orderRef fields).map .str := by
  obtain ⟨graded, returned, short⟩ := gradedFields_toRecord e.payload
  have body : payload e.toRecord = e.payload.toRecord := rfl
  have store : (Record.get e.toRecord (str "store_id")).or
      (Record.get e.payload.toRecord (str "store_id")) = textValue e.storeId := by
    have inner : Record.get e.payload.toRecord (str "store_id") = .none := by
      unfold ReconciledPayload.toRecord
      cases e.payload.clusterId <;> rfl
    have outer : Record.get e.toRecord (str "store_id") = textValue e.storeId := rfl
    rw [inner, outer]
    cases named : e.storeId with
    | none => rfl
    | some s =>
        have nonempty : s ≠ [] := fun empty => solid (empty ▸ named)
        simp [textValue, Value.or, nonempty]
  have orderRef : (Record.get e.payload.toRecord (str "order_ref")).or
      (Record.get e.toRecord (str "order_ref")) = .str e.orderRef := by
    have inner : Record.get e.payload.toRecord (str "order_ref") = .str e.payload.orderRef := rfl
    have outer : Record.get e.toRecord (str "order_ref") = .str e.orderRef := rfl
    rw [inner, outer, kept, Value.or, ite_self]
  unfold observationsOf
  simp only [body, store, orderRef, returned]
  cases named : e.storeId with
  | none => exact ⟨[], [], rfl, List.nil_sublist _, rfl⟩
  | some s =>
      refine ⟨_, graded.map (·.field), rfl, short, ?_⟩
      show List.map _ _ = List.map Value.str (List.map _ (List.map _ graded))
      rw [List.map_map, List.map_map, List.map_map]
      rfl

theorem observationId_inj {s s' r r' field field' : Str} :
    observationId (.str s) (.str r) field = observationId (.str s') (.str r') field' ↔
      s = s' ∧ r = r' ∧ field = field' := by
  simp only [observationId, idComponent, Value.isNone, Value.toStr_str, List.append_assoc,
    List.cons_append, List.append_cancel_left_eq, List.cons.injEq, true_and]
  exact (idEscapes.join_inj (s := s) (t := s')).trans (and_congr_right' idEscapes.join_inj)

def IsFindingId (e : ReconciledEvent) (id : Value) : Prop :=
  ∃ s field, e.storeId = some s ∧ id = .str (observationId (.str s) (.str e.orderRef) field)

theorem isFindingId {e : ReconciledEvent} {fields : List Str} {id : Str}
    (member : id ∈ findingIds e.storeId e.orderRef fields) : IsFindingId e (.str id) := by
  unfold findingIds at member
  cases named : e.storeId with
  | none => simp [named] at member
  | some s =>
      rw [named] at member
      obtain ⟨field, -, rfl⟩ := List.mem_map.mp member
      exact ⟨s, field, named, rfl⟩

theorem nodup_findingIds (e : ReconciledEvent) {fields : List Str} (short : fields.Sublist fieldNames) :
    (findingIds e.storeId e.orderRef fields).Nodup := by
  unfold findingIds
  cases e.storeId with
  | none => exact List.nodup_nil
  | some s =>
      have distinct : fieldNames.Nodup := by decide
      exact (distinct.sublist short).map fun _ _ same => (observationId_inj.mp same).2.2

theorem observationEvents_ids {out : List ReconciledEvent}
    (formed : ∀ e ∈ out, e.kind = reconciledKind ∧ e.storeId ≠ some [] ∧ e.payload.orderRef = e.orderRef) :
    ∃ findings, observationEvents (out.map ReconciledEvent.toRecord) = .ok findings ∧
      (∀ finding ∈ findings, ∃ e ∈ out, IsFindingId e (Record.get finding (str "event_id"))) ∧
      (out.Pairwise (fun e e' => (e.storeId, e.orderRef) ≠ (e'.storeId, e'.orderRef)) →
        (findings.map fun finding => Record.get finding (str "event_id")).Nodup) := by
  induction out with
  | nil => exact ⟨[], rfl, nofun, fun _ => List.nodup_nil⟩
  | cons e out ih =>
      obtain ⟨⟨kind, solid, kept⟩, rest⟩ := List.forall_mem_cons.mp formed
      obtain ⟨findings, returned, sources, distinct⟩ := ih rest
      obtain ⟨own, fields, graded, short, ids⟩ := observationsOf_toRecord solid kept
      have owned : ∀ id ∈ own.map fun finding => Record.get finding (str "event_id"),
          IsFindingId e id := by
        intro id member
        rw [ids] at member
        obtain ⟨text, inside, rfl⟩ := List.mem_map.mp member
        exact isFindingId inside
      refine ⟨own ++ findings, ?_, ?_, ?_⟩
      · have named : ((Dict.get? e.toRecord (str "kind")).getD (.str [])).toStr = reconciledKind := by
          show (Value.str e.kind).toStr = reconciledKind
          rw [Value.toStr_str, kind]
        unfold observationEvents at returned ⊢
        rw [List.map_cons, List.filter_cons_of_pos (by exact decide_eq_true named), List.mapM_cons, graded]
        obtain ⟨lists, walked, flat⟩ := Ledger.bind_eq_ok.mp returned
        cases flat
        simp only [walked]
        rfl
      · intro finding member
        rcases List.mem_append.mp member with here | there
        · exact ⟨e, List.mem_cons_self, owned _ (List.mem_map_of_mem here)⟩
        · obtain ⟨e', inside, id⟩ := sources finding there
          exact ⟨e', List.mem_cons_of_mem _ inside, id⟩
      · intro apart
        obtain ⟨first, later⟩ := List.pairwise_cons.mp apart
        rw [List.map_append]
        refine List.Nodup.append ?_ (distinct later) ?_
        · rw [ids]
          exact (nodup_findingIds e short).map fun _ _ same => Value.str.inj same
        · intro id here there
          obtain ⟨s, field, named, rfl⟩ := owned id here
          obtain ⟨finding, inside, same⟩ := List.mem_map.mp there
          obtain ⟨e', member, s', field', named', id⟩ := sources finding inside
          have equal := observationId_inj.mp (Value.str.inj (same.symm.trans id))
          exact first e' member (by rw [named, named', equal.1, equal.2.1])

end Findings

end Proxyshop.Reconcile
