import Proxyshop.Reconcile.Stream

/-!
# What the discount codes add

A stream is reconciled with its codes and once more without them: the bridge events left out and the
codes stripped from the offers and the webhooks. Nothing that the second run emits is lost or judged
otherwise by the first.
-/

namespace Proxyshop.Reconcile

open Python Structures Relation

def codeAliases : List Str := codeScalarAliases ++ codeListAliases

/-- The event with the discount fields as they read from a list of applications left out. -/
def ReconciledEvent.offDiscount (e : ReconciledEvent) : ReconciledEvent :=
  { e with payload := { e.payload with
      observedDiscountPercentage := none
      discountHonored := false
      discountComparable := false } }

section Strip

variable [Unicode]

/-- `bare` is the event without its discount codes, whatever has become of the fields they are in. -/
structure Stripped (event bare : Record) : Prop where
  fields : ∀ name, name ≠ str "payload" → Dict.get? bare name = Dict.get? event name
  payload : ∀ name, name ∉ codeAliases → Dict.get? (payload bare) name = Dict.get? (payload event) name
  codes : discountCodesOf bare = []

structure CodeStripper where
  strip : Record → Record
  strips : ∀ event, kindOf event = some .accepted ∨ kindOf event = some .orderPaid →
    Stripped event (strip event)
  keeps : ∀ event, ¬ (kindOf event = some .accepted ∨ kindOf event = some .orderPaid) →
    strip event = event

def isBridge (event : Record) : Bool := (kindOf event).any Kind.isBridge

def CodeStripper.withoutCodes (s : CodeStripper) (events : List Record) : List Record :=
  (events.filter fun event => !isBridge event).map s.strip

/-! ## What stripping leaves alone -/

namespace Stripped

variable {event bare : Record} (h : Stripped event bare)

include h

theorem get {name : Str} (other : name ≠ str "payload") : bare.get name = event.get name := by
  rw [Record.get, Record.get, h.fields name other]

theorem get_payload {name : Str} (other : name ∉ codeAliases) :
    (Reconcile.payload bare).get name = (Reconcile.payload event).get name := by
  rw [Record.get, Record.get, h.payload name other]

theorem kindOf : kindOf bare = Reconcile.kindOf event := by
  rw [Reconcile.kindOf, Reconcile.kindOf, h.fields _ (by decide)]

theorem joinKeys : joinKeys bare = Reconcile.joinKeys event := by
  rw [Reconcile.joinKeys, Reconcile.joinKeys, h.get_payload (by decide), h.get (by decide),
    h.get_payload (by decide), h.get_payload (by decide)]

theorem tokenKey : tokenKey bare = Reconcile.tokenKey event := by
  rw [Reconcile.tokenKey, Reconcile.tokenKey, h.get_payload (by decide)]

theorem fulfilmentKeys : fulfilmentKeys bare = Reconcile.fulfilmentKeys event := by
  rw [Reconcile.fulfilmentKeys, Reconcile.fulfilmentKeys, h.get (by decide),
    h.get_payload (by decide), h.get_payload (by decide)]

theorem identifiersOf (kind : Kind) : identifiersOf kind bare = Reconcile.identifiersOf kind event := by
  rw [Reconcile.identifiersOf, Reconcile.identifiersOf, bridgeKeys, bridgeKeys, h.tokenKey,
    h.fulfilmentKeys, h.joinKeys]

theorem storeOf : storeOf bare = Reconcile.storeOf event := by
  rw [Reconcile.storeOf, Reconcile.storeOf, h.get (by decide), h.get_payload (by decide)]

theorem orderRefOf : orderRefOf bare = Reconcile.orderRefOf event := by
  rw [Reconcile.orderRefOf, Reconcile.orderRefOf, h.get (by decide), h.get_payload (by decide),
    h.joinKeys]

theorem observedPriceOf : observedPriceOf bare = Reconcile.observedPriceOf event := by
  rw [Reconcile.observedPriceOf, Reconcile.observedPriceOf, h.get_payload (by decide),
    h.get_payload (by decide)]

theorem promised : promised bare = Reconcile.promised event := by
  rw [Reconcile.promised, Reconcile.promised, h.get_payload (by decide)]

theorem clusterOf : clusterOf bare = Reconcile.clusterOf event := by
  rw [Reconcile.clusterOf, Reconcile.clusterOf, h.get_payload (by decide)]

end Stripped

theorem verdict_stripped {webhook webhook' accepted accepted' : Record} {fulfilment : Option Record}
    {v v' : ReconciledEvent} (order : Stripped webhook webhook') (offer : Stripped accepted accepted')
    (h : verdict webhook accepted none fulfilment = .ok v)
    (h' : verdict webhook' accepted' none fulfilment = .ok v') :
    v.offDiscount = v'.offDiscount ∧
      (discountPercentage (payload webhook') = discountPercentage (payload webhook) → v = v') := by
  obtain ⟨promise, price, discount, days, dispatch, promises, prices, discounts, hdays, elapsed, rfl⟩ :=
    verdict_eq_ok.mp h
  obtain ⟨promise', price', discount', days', dispatch', promises', prices', discounts', hdays',
    elapsed', rfl⟩ := verdict_eq_ok.mp h'
  rw [offer.promised, promises] at promises'
  cases promises'
  rw [order.observedPriceOf, prices] at prices'
  cases prices'
  rw [hdays] at hdays'
  cases hdays'
  rw [order.get (by decide), elapsed] at elapsed'
  cases elapsed'
  rw [order.orderRefOf, order.storeOf, offer.storeOf, order.get_payload (by decide),
    offer.get_payload (by decide), order.get (by decide), offer.get_payload (by decide), offer.clusterOf]
  refine ⟨rfl, fun same => ?_⟩
  rw [discounts, discounts'] at same
  cases same
  rfl

def ownOffer (relevant : List Relevant) (e : Relevant) : Option Relevant :=
  relevant.find? fun x => x.kind = .accepted && identityOf relevant x = identityOf relevant e

/-! ## The stripped stream, read -/

namespace CodeStripper

variable (s : CodeStripper)

theorem kindOf_strip (event : Record) : kindOf (s.strip event) = kindOf event := by
  by_cases coded : kindOf event = some .accepted ∨ kindOf event = some .orderPaid
  · exact (s.strips event coded).kindOf
  · rw [s.keeps event coded]

theorem identifiersOf_strip (kind : Kind) (event : Record) :
    identifiersOf kind (s.strip event) = identifiersOf kind event := by
  by_cases coded : kindOf event = some .accepted ∨ kindOf event = some .orderPaid
  · exact (s.strips event coded).identifiersOf kind
  · rw [s.keeps event coded]

theorem storeOf_strip (event : Record) : storeOf (s.strip event) = storeOf event := by
  by_cases coded : kindOf event = some .accepted ∨ kindOf event = some .orderPaid
  · exact (s.strips event coded).storeOf
  · rw [s.keeps event coded]

def read (r : Read) : Read where
  kind := r.kind
  event := s.strip r.event
  named := (s.kindOf_strip r.event).trans r.named
  identified := by
    rw [s.identifiersOf_strip]
    exact r.identified

def relevant (e : Relevant) : Relevant := ⟨s.read e.toRead, e.scope⟩

@[simp] theorem identifiers_read (r : Read) : (s.read r).identifiers = r.identifiers :=
  s.identifiersOf_strip r.kind r.event

@[simp] theorem store_read (r : Read) : (s.read r).store = r.store := s.storeOf_strip r.event

@[simp] theorem ballots_read (r : Read) : (s.read r).ballots = r.ballots := by
  rw [Read.ballots, Read.ballots, s.store_read, s.identifiers_read]
  rfl

@[simp] theorem kind_relevant (e : Relevant) : (s.relevant e).kind = e.kind := rfl

@[simp] theorem keys_relevant (e : Relevant) : (s.relevant e).keys = e.keys :=
  congrArg (scopedKeys · e.scope) (s.identifiers_read e.toRead)

@[simp] theorem key_relevant (e : Relevant) : (s.relevant e).key = e.key := by
  have keys := s.keys_relevant e
  unfold Relevant.key
  simp only [keys]

theorem codes_read {r : Read} (own : r.kind.isBridge = false) : (s.read r).codes = [] := by
  rw [Read.codes]
  split
  · rename_i bears
    have coded : kindOf r.event = some .accepted ∨ kindOf r.event = some .orderPaid := by
      rw [r.named]
      cases kind : r.kind <;> simp [kind, Kind.isBridge, Kind.bearsCodes, read] at own bears ⊢
    exact (s.strips r.event coded).codes
  · rfl

theorem readOf_strip (event : Record) : readOf (s.strip event) = (readOf event).map s.read := by
  cases found : readOf event with
  | some r =>
      obtain rfl := readOf_eq_some.mp found
      exact readOf_eq_some.mpr rfl
  | none =>
      rw [Option.map_none]
      by_contra other
      obtain ⟨r, hr⟩ := Option.ne_none_iff_exists'.mp other
      have same := readOf_eq_some.mp hr
      have named := r.named
      have identified := r.identified
      rw [same, s.kindOf_strip] at named
      rw [same, s.identifiersOf_strip] at identified
      have read := readOf_eq_some.mpr (rfl : (⟨r.kind, event, named, identified⟩ : Read).event = event)
      rw [found] at read
      cases read

def bare (relevant : List Relevant) : List Relevant :=
  (relevant.filter fun e => !e.kind.isBridge).map s.relevant

theorem ballots_bridge {r : Read} (bridge : r.kind.isBridge = true) : r.ballots = [] := by
  rw [Read.ballots, Kind.votes, bridge]
  rfl

theorem flatMap_ballots (read : List Read) :
    ((read.filter fun r => !r.kind.isBridge).map s.read).flatMap Read.ballots =
      read.flatMap Read.ballots := by
  induction read with
  | nil => rfl
  | cons r read ih =>
      cases bridge : r.kind.isBridge with
      | true =>
          rw [List.filter_cons_of_neg (by simp [bridge]), ih, List.flatMap_cons, ballots_bridge bridge]
          rfl
      | false =>
          rw [List.filter_cons_of_pos (by simp [bridge]), List.map_cons, List.flatMap_cons,
            List.flatMap_cons, s.ballots_read, ih]

theorem relevantOf_withoutCodes (events : List Record) :
    relevantOf (s.withoutCodes events) = s.bare (relevantOf events) := by
  have reads : (s.withoutCodes events).filterMap readOf =
      ((events.filterMap readOf).filter fun r => !r.kind.isBridge).map s.read := by
    rw [withoutCodes, List.filterMap_map, List.filterMap_filter, List.filter_filterMap,
      List.map_filterMap]
    apply List.filterMap_congr
    intro event _
    cases found : readOf event with
    | none => simp [s.readOf_strip, found]
    | some r =>
        have kind : isBridge event = r.kind.isBridge := by
          rw [isBridge, ← readOf_eq_some.mp found, r.named]
          rfl
        cases bridge : r.kind.isBridge <;> simp [s.readOf_strip, found, kind, bridge]
  have stores : keyStores (((events.filterMap readOf).filter fun r => !r.kind.isBridge).map s.read) =
      keyStores (events.filterMap readOf) := by
    rw [keyStores, keyStores, s.flatMap_ballots]
  have scopes : ∀ stores r, attributedStore stores (s.read r) = attributedStore stores r := by
    intro stores r
    rw [attributedStore, attributedStore, candidates, candidates, s.store_read, s.identifiers_read]
  rw [relevantOf, relevantOf, reads, attributed, attributed, stores, bare, List.map_map,
    List.filter_map, List.map_map]
  apply List.map_congr_left
  intro r _
  show Relevant.mk (s.read r) _ = Relevant.mk (s.read r) _
  rw [scopes]

/-! ## The stripped stream, grouped -/

section Groups

variable {relevant : List Relevant}

theorem mem_bare {x : Relevant} : x ∈ s.bare relevant ↔
    ∃ e ∈ relevant, e.kind.isBridge = false ∧ s.relevant e = x := by
  simp only [bare, List.mem_map, List.mem_filter, Bool.not_eq_true', and_assoc]

theorem keys_bridge {e : Relevant} (bridge : e.kind.isBridge = true) {a b : Str} (left : a ∈ e.keys)
    (right : b ∈ e.keys) : a = b := by
  obtain ⟨key, inside, rfl⟩ := mem_scopedKeys.mp left
  obtain ⟨key', inside', rfl⟩ := mem_scopedKeys.mp right
  rw [Read.identifiers, identifiersOf, if_pos bridge, bridgeKeys, tokenKey] at inside inside'
  obtain ⟨text, named, rfl⟩ := List.mem_map.mp inside
  obtain ⟨text', named', rfl⟩ := List.mem_map.mp inside'
  obtain ⟨token, only, rfl, -⟩ := mem_stated.mp named
  obtain ⟨token', only', rfl, -⟩ := mem_stated.mp named'
  rw [List.mem_singleton.mp only, List.mem_singleton.mp only']

theorem linked_bare (a b : Str) : Linked (s.bare relevant) a b ↔ Linked relevant a b := by
  constructor
  · intro linked
    refine linked.mono ?_
    rintro x y ⟨e, member, left, right⟩
    obtain ⟨e, stays, -, rfl⟩ := s.mem_bare.mp member
    rw [s.keys_relevant] at left right
    exact ⟨e, stays, left, right⟩
  · show EqvGen (Shares relevant) a b → EqvGen (Shares (s.bare relevant)) a b
    refine EqvGen.eqvGen_le ?_ a b
    rintro x y ⟨e, member, left, right⟩
    cases bridge : e.kind.isBridge with
    | true =>
        rw [keys_bridge bridge left right]
        exact .refl y
    | false =>
        rw [← s.keys_relevant] at left right
        exact .rel _ _ ⟨s.relevant e, s.mem_bare.mpr ⟨e, member, bridge, rfl⟩, left, right⟩

theorem no_names (code k : Str) : ¬ (bridging (s.bare relevant)).names code k := by
  rintro ⟨x, member, coded, -⟩
  obtain ⟨e, -, own, rfl⟩ := s.mem_bare.mp member
  rw [Relevant.codeKeys, show (s.relevant e).codes = [] from s.codes_read own] at coded
  cases coded

theorem merged_bare (a b : Str) : Merged (s.bare relevant) a b ↔ Linked relevant a b := by
  rw [← s.linked_bare]
  refine ⟨fun merged => ?_, Or.inl⟩
  have joined := merged.joined
  refine (linked_equivalence (s.bare relevant)).eqvGen_iff.mp (joined.mono ?_)
  rintro x y (linked | ⟨code, -, named, -⟩)
  · exact linked
  · exact absurd named (s.no_names code x)

theorem identityOf_bare (x y : Relevant) :
    identityOf (s.bare relevant) (s.relevant x) = identityOf (s.bare relevant) (s.relevant y) ↔
      identityOf relevant x = identityOf relevant y := by
  rw [identityOf_iff, identityOf_iff, s.linked_bare, s.key_relevant, s.key_relevant]

theorem groupOf_bare (x y : Relevant) :
    groupOf (s.bare relevant) (s.relevant x) = groupOf (s.bare relevant) (s.relevant y) ↔
      identityOf relevant x = identityOf relevant y := by
  rw [groupOf_iff, identityOf_iff, s.merged_bare, s.key_relevant, s.key_relevant]

theorem orders_bare : orders (s.bare relevant) = (orders relevant).map s.relevant := by
  have paid : (s.bare relevant).filter (fun e => e.kind = .orderPaid) =
      (relevant.filter fun e => e.kind = .orderPaid).map s.relevant := by
    rw [bare, List.filter_map, List.filter_filter]
    congr 1
    apply List.filter_congr
    intro e _
    cases kind : e.kind <;> simp [kind, Kind.isBridge]
  rw [orders, orders, paid, firsts_map]
  congr 1
  exact firsts_congr fun x _ y _ => s.identityOf_bare x y

theorem find?_bare {p q : Relevant → Bool} (same : ∀ e, q (s.relevant e) = p e)
    (own : ∀ e, p e = true → e.kind.isBridge = false) :
    (s.bare relevant).find? q = (relevant.find? p).map s.relevant := by
  rw [bare, List.find?_map, List.find?_filter]
  congr 1
  apply List.find?_congr
  intro e _
  rw [Function.comp_apply, same]
  cases met : p e with
  | false => simp
  | true => simp [own e met]

theorem fulfilmentFor_bare (e : Relevant) : fulfilmentFor (s.bare relevant) (s.relevant e) =
    (fulfilmentFor relevant e).map s.relevant := by
  apply s.find?_bare
  · intro x
    rw [s.kind_relevant, decide_eq_decide.mpr (s.identityOf_bare x e)]
  · intro x met
    simp only [Bool.and_eq_true, decide_eq_true_eq] at met
    rw [met.1]
    rfl

theorem offerFor_bare (e : Relevant) :
    offerFor (s.bare relevant) (s.relevant e) = (ownOffer relevant e).map s.relevant := by
  apply s.find?_bare
  · intro x
    rw [s.kind_relevant, decide_eq_decide.mpr (s.groupOf_bare x e)]
  · intro x met
    simp only [Bool.and_eq_true, decide_eq_true_eq] at met
    rw [met.1]
    rfl

end Groups

end CodeStripper

theorem offerFor_of_own {relevant : List Relevant} {e offer : Relevant}
    (h : ownOffer relevant e = some offer) : offerFor relevant e = some offer := by
  have met := List.find?_some h
  simp only [Bool.and_eq_true, decide_eq_true_eq] at met
  rw [← h]
  apply List.find?_congr
  intro x member
  cases kind : decide (x.kind = .accepted) with
  | false => rfl
  | true =>
      rw [Bool.true_and, Bool.true_and, decide_eq_decide]
      refine ⟨fun same => ?_, groupOf_eq relevant⟩
      have linked := linked_of_groupOf relevant .offer member (List.mem_of_find?_eq_some h)
        (of_decide_eq_true kind) met.1 (same.trans (groupOf_eq relevant met.2).symm)
      exact ((identityOf_iff relevant x offer).mpr linked).trans met.2

/-- The list a discount may be read from is the same after stripping. -/
def CodeStripper.KeepsApplications (s : CodeStripper) (event : Record) : Prop :=
  ∀ name ∈ applicationAliases, (payload (s.strip event)).get name = (payload event).get name

theorem discountPercentage_strip {s : CodeStripper} {event : Record}
    (paid : kindOf event = some .orderPaid) (kept : s.KeepsApplications event) :
    discountPercentage (payload (s.strip event)) = discountPercentage (payload event) := by
  have lists : applicationLists (payload (s.strip event)) = applicationLists (payload event) := by
    apply List.filterMap_congr
    intro name member
    rw [kept name member]
  rw [discountPercentage, discountPercentage, lists,
    (s.strips event (Or.inr paid)).get_payload (by decide)]

end Strip

def bareEvent (event : Record) : Record :=
  Dict.set event (str "payload")
    (.dict ((payload event).filter fun field => !codeAliases.contains field.1))

theorem payload_bareEvent (event : Record) (name : Str) :
    Dict.get? (payload (bareEvent event)) name =
      if name ∈ codeAliases then none else Dict.get? (payload event) name := by
  have whole : payload (bareEvent event) =
      (payload event).filter fun field => !codeAliases.contains field.1 := by
    rw [payload, bareEvent, Record.get_set_self, Value.mapping_dict]
  rw [whole, Dict.get?_filter fun name => !codeAliases.contains name]
  simp

section Bare

variable [Unicode]

theorem discountCodesOf_bareEvent (event : Record) : discountCodesOf (bareEvent event) = [] := by
  have absent : ∀ name ∈ codeAliases, (payload (bareEvent event)).get name = .none := by
    intro name member
    apply Record.get_of_absent
    rw [payload_bareEvent, if_pos member]
  have scalars : scalarCodes (payload (bareEvent event)) = [] := by
    rw [scalarCodes, List.filterMap_eq_nil_iff]
    intro name member
    rw [absent name (List.mem_append_left _ member)]
    rfl
  have lists : (codeListAliases.flatMap fun name =>
      (listed ((payload (bareEvent event)).get name)).flatMap entryCodes) = [] := by
    rw [List.flatMap_eq_nil_iff]
    intro name member
    rw [absent name (List.mem_append_right _ member)]
    rfl
  rw [discountCodesOf, scalars, lists]
  rfl

theorem stripped_bareEvent (event : Record) : Stripped event (bareEvent event) where
  fields name other := Dict.get?_set_ne event _ other
  payload name other := by rw [payload_bareEvent, if_neg other]
  codes := discountCodesOf_bareEvent event

def stripCodes : CodeStripper where
  strip event := if kindOf event = some .accepted ∨ kindOf event = some .orderPaid
    then bareEvent event else event
  strips event coded := by
    rw [if_pos coded]
    exact stripped_bareEvent event
  keeps event other := if_neg other

end Bare

/-- A checkout whose webhook and offer share a token and whose code also leads to a bridge. -/
def bridgedCheckout : List Record :=
  let store : Str × Value := (str "store_id", .str (str "s"))
  let token : Str × Value := (str "checkout_token", .str (str "t"))
  let code : Str × Value := (str "discount_code", .str (str "PSX-1"))
  [[(str "kind", .str (str "accepted")), store,
      (str "payload", .dict [token, (str "offer", .dict [(str "total_price", .int 100)])])],
    [(str "kind", .str (str "code_created")), store,
      (str "payload", .dict [(str "checkout_token", .str (str "u")), code])],
    [(str "kind", .str (str "order_paid")), store, (str "order_ref", .str (str "1")),
      (str "ts", .str (str "2026-01-01T00:00:00Z")),
      (str "payload", .dict [token, code, (str "total_price", .int 130)])]]

end Proxyshop.Reconcile
