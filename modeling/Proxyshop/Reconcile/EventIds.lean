import Proxyshop.Reconcile.Findings
import Proxyshop.Reconcile.Isolation

/-!
# One ledger identity per order

The id of a reconciled event spells its store and its order reference. The orders are told apart by
their stripped identifiers under the attributed store, so two of them can share an id only where the
reference is blank or no store is named.
-/

namespace Proxyshop.Reconcile

open Python Structures

section EventIds

variable [Unicode]

theorem eventIdOf_inj {store store' : Option Str} {orderRef orderRef' : Str} (solid : store ≠ some [])
    (solid' : store' ≠ some []) :
    eventIdOf store orderRef = eventIdOf store' orderRef' ↔ store = store' ∧ orderRef = orderRef' := by
  have component : ∀ s : Option Str, idComponent (textValue s) = idEscapes.encode (s.getD []) := by
    intro s
    cases s with
    | none => rfl
    | some s => simp [idComponent, textValue, Value.isNone]
  have text : ∀ r : Str, idComponent (.str r) = idEscapes.encode r := by
    intro r
    simp [idComponent, Value.isNone]
  simp only [eventIdOf, component, text, List.append_assoc, List.cons_append,
    List.append_cancel_left_eq, List.cons.injEq, true_and]
  rw [show idSeparator = idEscapes.separator from rfl, idEscapes.join_inj, idEscapes.encode_injective.eq_iff]
  refine and_congr_left' ⟨fun same => ?_, fun same => by rw [same]⟩
  cases store with
  | none =>
      cases store' with
      | none => rfl
      | some s => exact absurd (congrArg some same.symm) solid'
  | some s =>
      cases store' with
      | none => exact absurd (congrArg some same) solid
      | some s' => exact congrArg some same

/-! ## The reference is one of the identifiers -/

theorem strip_text (v : Value) : Str.strip v.text = v.text := by
  unfold Value.text
  split
  · rfl
  · exact Str.strip_strip _

theorem mem_joinKeys_orderRefOf {webhook : Record} (identified : joinKeys webhook ≠ [])
    (solid : Str.strip (orderRefOf webhook) ≠ []) :
    keyComponent (Str.strip (orderRefOf webhook)) ∈ joinKeys webhook := by
  have candidate : ∀ v : Value, v ∈ [(payload webhook).get (str "checkout_token"),
      webhook.get (str "order_ref"), (payload webhook).get (str "order_ref"),
      (payload webhook).get (str "order_id")] → v.isNone = false → Str.strip v.toStr ≠ [] →
        keyComponent (Str.strip v.toStr) ∈ joinKeys webhook := by
    intro v member stated nonempty
    refine mem_joinKeys.mpr ⟨_, mem_stated.mpr ⟨v, member, ?_, nonempty⟩, rfl⟩
    simp [Value.text, stated]
  unfold orderRefOf at solid ⊢
  rw [Value.or] at solid ⊢
  by_cases named : (webhook.get (str "order_ref")).truthy = true
  · simp only [named, if_true] at solid ⊢
    have stated : (webhook.get (str "order_ref")).isNone = false := by
      cases found : webhook.get (str "order_ref") with
      | none => simp [found] at named
      | _ => rfl
    simp only [stated, Bool.false_eq_true, if_false] at solid ⊢
    exact candidate _ (by simp) stated solid
  · simp only [named, Bool.false_eq_true, if_false] at solid ⊢
    by_cases stated : ((payload webhook).get (str "order_id")).isNone = true
    · simp only [stated, if_true] at solid ⊢
      obtain ⟨key, rest, keys⟩ := List.exists_cons_of_ne_nil identified
      have first : key ∈ joinKeys webhook := by
        rw [keys]
        exact List.mem_cons_self
      obtain ⟨value, spelled, rfl⟩ := mem_joinKeys.mp first
      obtain ⟨v, -, rfl, -⟩ := mem_stated.mp spelled
      rw [keys, List.headD_cons, keyComponentDecoded_keyComponent, strip_text]
      exact List.mem_cons_self
    · simp only [stated, Bool.false_eq_true, if_false] at solid ⊢
      exact candidate _ (by simp) (by simpa using stated) solid

/-! ## Two orders of one identity -/

theorem scope_of_store {events : List Record} {e : Relevant} (member : e ∈ relevantOf events) {s : Str}
    (named : storeOf e.event = some s) : e.scope = s := by
  obtain ⟨r, -, rfl⟩ := List.mem_map.mp member
  show (attributedStore _ r).getD unattributedScope = s
  rw [attributedStore_of_store named]
  rfl

theorem scope_of_groupOf {relevant : List Relevant} {x e : Relevant}
    (same : groupOf relevant x = groupOf relevant e) : x.scope = e.scope := by
  have merged := (groupOf_iff relevant x e).mp same
  have within := (agree_inStore (s := e.scope)).within_joined merged.joined
  exact (inScope_key x).mp (within.1.mpr ((inScope_key e).mpr rfl))

theorem offerFor_eq_some {relevant : List Relevant} {e offer : Relevant}
    (found : offerFor relevant e = some offer) :
    offer ∈ relevant ∧ offer.kind = .accepted ∧ groupOf relevant offer = groupOf relevant e := by
  have met := List.find?_some found
  simp only [Bool.and_eq_true, decide_eq_true_eq] at met
  exact ⟨List.mem_of_find?_eq_some found, met⟩

/-- The store and the reference the event of an order is published under. -/
def publishedAs (relevant : List Relevant) (e : Relevant) : Option (Option Str × Str) :=
  (offerFor relevant e).map fun offer =>
    ((storeOf e.event).or (storeOf offer.event), orderRefOf e.event)

theorem scope_of_publishedAs {events : List Record} {e : Relevant} (member : e ∈ relevantOf events)
    {s r : Str} (published : publishedAs (relevantOf events) e = some (some s, r)) : e.scope = s := by
  obtain ⟨offer, found, same⟩ := Option.map_eq_some_iff.mp published
  obtain ⟨inside, -, group⟩ := offerFor_eq_some found
  have store := congrArg Prod.fst same
  cases named : storeOf e.event with
  | some t =>
      rw [named] at store
      rw [scope_of_store member named]
      exact Option.some.inj store
  | none =>
      rw [named] at store
      rw [← scope_of_groupOf group]
      exact scope_of_store inside store

theorem linked_of_orderRef {relevant : List Relevant} {e e' : Relevant} (member : e ∈ relevant)
    (member' : e' ∈ relevant) (paid : e.kind = .orderPaid) (paid' : e'.kind = .orderPaid)
    (scope : e.scope = e'.scope) (same : orderRefOf e.event = orderRefOf e'.event)
    (solid : Str.strip (orderRefOf e.event) ≠ []) : Linked relevant e.key e'.key := by
  have own : ∀ x : Relevant, x.kind = .orderPaid → Str.strip (orderRefOf x.event) ≠ [] →
      scopedKey x.scope (keyComponent (Str.strip (orderRefOf x.event))) ∈ x.keys := by
    intro x paid solid
    have identified := x.identified
    rw [paid, ne_eq, identifiersOf_orderPaid_eq_nil] at identified
    refine mem_scopedKeys.mpr ⟨_, ?_, rfl⟩
    rw [Read.identifiers, paid, identifiersOf_orderPaid]
    exact List.mem_append_left _ (mem_joinKeys_orderRefOf identified solid)
  have here := own e paid solid
  have there := own e' paid' (same ▸ solid)
  rw [← same, ← scope] at there
  exact (linked_equivalence relevant).trans (linked_keys member e.key_mem here)
    (linked_keys member' there e'.key_mem)

/-- Two orders published as one: under a blank reference, or under no store. -/
def Clash (relevant : List Relevant) (e e' : Relevant) : Prop :=
  ∃ store orderRef, publishedAs relevant e = some (store, orderRef) ∧
    publishedAs relevant e' = some (store, orderRef) ∧
      (Str.strip orderRef = [] ∨ store = none ∧ e.scope ≠ e'.scope)

theorem clash_of_publishedAs {events : List Record} {e e' : Relevant}
    (listed : e ∈ orders (relevantOf events)) (listed' : e' ∈ orders (relevantOf events))
    (apart : identityOf (relevantOf events) e ≠ identityOf (relevantOf events) e')
    {store : Option Str} {orderRef : Str}
    (published : publishedAs (relevantOf events) e = some (store, orderRef))
    (published' : publishedAs (relevantOf events) e' = some (store, orderRef)) :
    Clash (relevantOf events) e e' := by
  refine ⟨store, orderRef, published, published', ?_⟩
  by_cases blank : Str.strip orderRef = []
  · exact Or.inl blank
  obtain ⟨member, paid⟩ := mem_orders listed
  obtain ⟨member', paid'⟩ := mem_orders listed'
  have reference : ∀ {x}, publishedAs (relevantOf events) x = some (store, orderRef) →
      orderRefOf x.event = orderRef := by
    intro x published
    obtain ⟨offer, -, same⟩ := Option.map_eq_some_iff.mp published
    exact congrArg Prod.snd same
  have scopes : e.scope ≠ e'.scope := by
    intro scope
    apply apart
    rw [identityOf_iff]
    exact linked_of_orderRef member member' paid paid' scope
      ((reference published).trans (reference published').symm) (by rwa [reference published])
  cases store with
  | none => exact Or.inr ⟨rfl, scopes⟩
  | some s =>
      have scope := (scope_of_publishedAs member published).trans
        (scope_of_publishedAs member' published').symm
      exact absurd scope scopes

/-! ## The ids of a run -/

theorem formed_of_reconcile {events : List Record} {out : List ReconciledEvent}
    (returned : reconcile events = .ok out) : ∀ v ∈ out, v.kind = reconciledKind ∧ v.storeId ≠ some [] ∧
      v.payload.orderRef = v.orderRef ∧ v.eventId = eventIdOf v.storeId v.orderRef := by
  intro v member
  have cored : v.offPixel ∈ (orders (relevantOf events)).filterMap (core (relevantOf events)) := by
    rw [← offPixel_emitted returned]
    exact List.mem_map_of_mem member
  obtain ⟨e, -, emits⟩ := List.mem_filterMap.mp cored
  obtain ⟨offer, v', -, judged, same⟩ := core_eq_some.mp emits
  have solid : ∀ event, storeOf event ≠ some [] := by
    intro event
    unfold storeOf Str.nonEmpty?
    split
    · simp
    · rename_i nonempty
      intro same
      simp [Option.some.inj same] at nonempty
  obtain ⟨_, _, _, _, _, -, -, -, -, -, rfl⟩ := verdict_eq_ok.mp judged
  have store := (congrArg ReconciledEvent.storeId same).symm
  have ref := (congrArg ReconciledEvent.orderRef same).symm
  refine ⟨(congrArg ReconciledEvent.kind same).symm, ?_, ?_, ?_⟩
  · rw [show v.storeId = (storeOf e.event).or (storeOf offer.event) from store]
    cases named : storeOf e.event with
    | none => exact solid _
    | some s => exact fun empty => solid e.event (named.trans empty)
  · exact (congrArg (fun v => v.payload.orderRef) same).symm.trans ref.symm
  · rw [show v.storeId = _ from store, show v.orderRef = _ from ref]
    exact (congrArg ReconciledEvent.eventId same).symm

theorem published_of_reconcile {events : List Record} {out : List ReconciledEvent}
    (returned : reconcile events = .ok out) : out.map (fun v => (v.storeId, v.orderRef)) =
      (orders (relevantOf events)).filterMap (publishedAs (relevantOf events)) := by
  have named : out.map (fun v => (v.storeId, v.orderRef)) =
      (out.map ReconciledEvent.offPixel).map fun v => (v.storeId, v.orderRef) := by
    rw [List.map_map]
    rfl
  rw [named, offPixel_emitted returned, List.map_filterMap]
  apply List.filterMap_congr
  intro e member
  obtain ⟨read, -⟩ := gradeOrder_returns.mp ((reconcile_eq_ok.mp returned).2.1 e member)
  unfold publishedAs
  cases found : offerFor (relevantOf events) e with
  | none => simp [core, found]
  | some offer =>
      obtain ⟨v, judged⟩ := read offer found
      rw [core_eq_some.mpr ⟨offer, v, found, judged, rfl⟩, Option.map_some, Option.map_some,
        offPixel_storeId, offPixel_orderRef, storeId_of_verdict judged, orderRef_of_verdict judged]

/-- What the ledger asks of the ids: the events' are distinct, their findings' are distinct, and an id
with a store in it tells the order. -/
def OneIdentity (out : List ReconciledEvent) : Prop :=
  (out.map (·.eventId)).Nodup ∧
    (∃ findings, observationEvents (out.map ReconciledEvent.toRecord) = .ok findings ∧
      (findings.map fun finding => Record.get finding (str "event_id")).Nodup) ∧
    ∀ v ∈ out, ∀ v' ∈ out, v.storeId.isSome → v.eventId = v'.eventId →
      v.storeId = v'.storeId ∧ v.orderRef = v'.orderRef

/-- Every run has one identity per order unless two orders clash. -/
theorem oneIdentity_iff {events : List Record} {out : List ReconciledEvent}
    (returned : reconcile events = .ok out) : OneIdentity out ↔
      (orders (relevantOf events)).Pairwise fun e e' => ¬ Clash (relevantOf events) e e' := by
  have formed := formed_of_reconcile returned
  have ids : ∀ v ∈ out, ∀ v' ∈ out, v.eventId = v'.eventId ↔
      v.storeId = v'.storeId ∧ v.orderRef = v'.orderRef := by
    intro v member v' member'
    obtain ⟨-, solid, -, id⟩ := formed v member
    obtain ⟨-, solid', -, id'⟩ := formed v' member'
    rw [id, id', eventIdOf_inj solid solid']
  have named : (out.map (·.eventId)).Nodup ↔ (out.map fun v => (v.storeId, v.orderRef)).Nodup := by
    rw [List.Nodup, List.Nodup, List.pairwise_map, List.pairwise_map]
    refine List.Pairwise.iff_of_mem fun member member' => ?_
    rw [ne_eq, ne_eq, ids _ member _ member', Prod.mk.injEq]
  have clashes : (out.map fun v => (v.storeId, v.orderRef)).Nodup ↔
      (orders (relevantOf events)).Pairwise fun e e' => ¬ Clash (relevantOf events) e e' := by
    have apart : (orders (relevantOf events)).Pairwise fun e e' =>
        identityOf (relevantOf events) e ≠ identityOf (relevantOf events) e' := firsts_distinct _ _
    rw [published_of_reconcile returned, List.Nodup, List.pairwise_filterMap]
    constructor
    · refine fun distinct => distinct.imp ?_
      rintro e e' distinct ⟨store, orderRef, published, published', -⟩
      exact distinct _ published _ published' rfl
    · intro clear
      refine (apart.and clear).imp_of_mem ?_
      rintro e e' listed listed' ⟨apart, clear⟩ ⟨store, orderRef⟩ published _ published' rfl
      exact clear (clash_of_publishedAs listed listed' apart published published')
  constructor
  · exact fun identity => clashes.mp (named.mp identity.1)
  · intro clear
    have distinct := clashes.mpr clear
    refine ⟨named.mpr distinct, ?_, fun v member v' member' _ => (ids v member v' member').mp⟩
    obtain ⟨findings, returned, -, apart⟩ := observationEvents_ids fun v member =>
      let ⟨kind, solid, kept, _⟩ := formed v member
      ⟨kind, solid, kept⟩
    exact ⟨findings, returned, apart (List.pairwise_map.mp distinct)⟩

end EventIds

/-- Two checkouts of one shop whose platform left the order number empty. -/
def numberlessOrders : List Record :=
  let checkout (token orderId : String) : List Record :=
    let event (kind : String) (body : Record) : Record :=
      [(str "kind", .str (str kind)), (str "store_id", .str (str "a")),
        (str "payload", .dict ((str "checkout_token", .str (str token)) :: body))]
    [event "accepted" [(str "offer", .dict [(str "total_price", .int 100)])],
      event "order_paid" [(str "order_id", .str (str orderId)), (str "total_price", .int 120)]]
  checkout "t1" "" ++ checkout "t2" ""

theorem numberlessOrders_share_id :
    letI := Unicode.ascii
    ∃ out, reconcile numberlessOrders = .ok out ∧ ¬ OneIdentity out := by
  let tables : Unicode := Unicode.ascii
  have runs : ((reconcile numberlessOrders).toOption.map fun out =>
      decide (out.map (·.eventId)).Nodup) = some false := by decide
  obtain ⟨out, returned, shared⟩ := Option.map_eq_some_iff.mp runs
  refine ⟨out, ?_, fun identity => of_decide_eq_false shared identity.1⟩
  cases run : reconcile numberlessOrders with
  | error failure =>
      rw [run] at returned
      cases returned
  | ok found =>
      rw [run] at returned
      exact congrArg Except.ok (Option.some.inj returned)

theorem numberlessOrder_identity :
    letI := Unicode.ascii
    ∃ out, reconcile (numberlessOrders.take 2) = .ok out ∧ (OneIdentity out ↔
      (orders (relevantOf (numberlessOrders.take 2))).Pairwise fun e e' =>
        ¬ Clash (relevantOf (numberlessOrders.take 2)) e e') := by
  let tables : Unicode := Unicode.ascii
  have runs : (reconcile (numberlessOrders.take 2)).toOption.isSome = true := by decide
  cases run : reconcile (numberlessOrders.take 2) with
  | error failure =>
      rw [run] at runs
      cases runs
  | ok out => exact ⟨out, rfl, oneIdentity_iff run⟩

end Proxyshop.Reconcile
