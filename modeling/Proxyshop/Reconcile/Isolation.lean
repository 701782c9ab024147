import Proxyshop.Reconcile.Stream

/-!
# One store at a time

Every composed key begins with its scope, so nothing another store writes can join two events of this
one or part them. What the stores do share is the run: an order of one that cannot be read takes the
events of all the others with it.
-/

namespace Proxyshop.Reconcile

open Python Structures Relation

section Isolation

variable [Unicode]

def ofStore (s : Str) (events : List Record) : List Record :=
  events.filter fun event => storeOf event = some s

def inStore (s : Str) (relevant : List Relevant) : List Relevant :=
  relevant.filter fun e => e.scope = s

def InScope (s k : Str) : Prop := ∃ key, scopedKey s key = k

variable {relevant : List Relevant} {s : Str}

theorem inScope_iff {e : Relevant} {k : Str} (member : k ∈ e.keys) : InScope s k ↔ e.scope = s := by
  obtain ⟨key, -, rfl⟩ := mem_scopedKeys.mp member
  constructor
  · rintro ⟨other, same⟩
    exact (scopedKey_inj.mp same).1.symm
  · rintro rfl
    exact ⟨key, rfl⟩

theorem mem_inStore {e : Relevant} : e ∈ inStore s relevant ↔ e ∈ relevant ∧ e.scope = s := by
  rw [inStore, List.mem_filter, decide_eq_true_eq]

theorem find?_inStore (p : Relevant → Bool) : (inStore s relevant).find? p =
    relevant.find? fun x => x.scope = s ∧ p x = true := by
  rw [inStore, List.find?_filter]
  simp

theorem filter_inStore (p : Relevant → Bool) : (inStore s relevant).filter p =
    relevant.filter fun x => p x && x.scope = s := List.filter_filter

theorem within_linked {a b : Str} (linked : Linked relevant a b) :
    (InScope s a ↔ InScope s b) ∧ (InScope s a → Linked (inStore s relevant) a b) := by
  refine eqvGen_within (fun x y ⟨e, _, left, right⟩ => ?_) (fun x y inside ⟨e, member, left, right⟩ => ?_)
    linked
  · rw [inScope_iff left, inScope_iff right]
  · exact ⟨e, mem_inStore.mpr ⟨member, (inScope_iff left).mp inside⟩, left, right⟩

theorem linked_of_inStore {a b : Str} (linked : Linked (inStore s relevant) a b) :
    Linked relevant a b :=
  linked.mono fun _ _ ⟨e, member, keys⟩ => ⟨e, (mem_inStore.mp member).1, keys⟩

theorem inScope_key (e : Relevant) : InScope s e.key ↔ e.scope = s := inScope_iff e.key_mem

theorem inScope_of_linked {e : Relevant} {k : Str} (linked : Linked relevant e.key k) :
    InScope s k ↔ e.scope = s := by
  rw [← (within_linked linked).1, inScope_key]

theorem scope_of_code {e : Relevant} {code : Str} (coded : code ∈ e.codeKeys) :
    ∃ key, code = scopedKey e.scope key := by
  obtain ⟨key, -, rfl⟩ := mem_scopedKeys.mp coded
  exact ⟨key, rfl⟩

variable (relevant) in
theorem within_names {code a b : Str} (left : (bridging relevant).names code a)
    (right : (bridging relevant).names code b) : InScope s a ↔ InScope s b := by
  obtain ⟨e, -, coded, linked⟩ := left
  obtain ⟨e', -, coded', linked'⟩ := right
  obtain ⟨key, rfl⟩ := scope_of_code coded
  obtain ⟨key', same⟩ := scope_of_code coded'
  rw [inScope_of_linked linked, inScope_of_linked linked', (scopedKey_inj.mp same).1]

theorem holds_inStore {p : Relevant → Prop} {k : Str} (inside : InScope s k) :
    (∃ e ∈ relevant, p e ∧ Linked relevant e.key k) ↔
      ∃ e ∈ inStore s relevant, p e ∧ Linked (inStore s relevant) e.key k := by
  constructor
  · rintro ⟨e, member, holds, linked⟩
    have scope := (inScope_of_linked linked).mp inside
    exact ⟨e, mem_inStore.mpr ⟨member, scope⟩, holds,
      (within_linked linked).2 ((inScope_key e).mpr scope)⟩
  · rintro ⟨e, member, holds, linked⟩
    exact ⟨e, (mem_inStore.mp member).1, holds, linked_of_inStore linked⟩

theorem agree_inStore :
    Bridging.Agree (bridging relevant) (bridging (inStore s relevant)) (InScope s) where
  linked inside := ⟨fun linked => (within_linked linked).2 inside, linked_of_inStore⟩
  marked inside := holds_inStore inside
  names inside := holds_inStore inside
  closed linked := (within_linked linked).1
  closed' linked := (within_linked (linked_of_inStore linked)).1
  within := within_names relevant
  within' left right := by
    obtain ⟨e, member, coded, linked⟩ := left
    obtain ⟨e', member', coded', linked'⟩ := right
    exact within_names relevant
      ⟨e, (mem_inStore.mp member).1, coded, linked_of_inStore linked⟩
      ⟨e', (mem_inStore.mp member').1, coded', linked_of_inStore linked'⟩

section Orders

variable (relevant) {e : Relevant} (scope : e.scope = s)

include scope

theorem identityOf_inStore (x : Relevant) : identityOf relevant x = identityOf relevant e ↔
    x.scope = s ∧ identityOf (inStore s relevant) x = identityOf (inStore s relevant) e := by
  have inside := (inScope_key e).mpr scope
  rw [identityOf_iff, identityOf_iff]
  constructor
  · intro linked
    have here := (within_linked linked).1.mpr inside
    exact ⟨(inScope_key x).mp here, (within_linked linked).2 here⟩
  · exact fun h => linked_of_inStore h.2

theorem groupOf_inStore (x : Relevant) : groupOf relevant x = groupOf relevant e ↔
    x.scope = s ∧ groupOf (inStore s relevant) x = groupOf (inStore s relevant) e := by
  have inside := (inScope_key e).mpr scope
  rw [groupOf_iff, groupOf_iff]
  constructor
  · intro merged
    have here := (agree_inStore.within_joined merged.joined).1.mpr inside
    exact ⟨(inScope_key x).mp here, (agree_inStore.merged here).mp merged⟩
  · rintro ⟨other, merged⟩
    exact (agree_inStore.merged ((inScope_key x).mpr other)).mpr merged

theorem offerFor_inStore : offerFor (inStore s relevant) e = offerFor relevant e := by
  rw [offerFor, offerFor, find?_inStore]
  apply List.find?_congr
  intro x _
  by_cases here : x.scope = s <;> simp [here, groupOf_inStore relevant scope x]

theorem fulfilmentFor_inStore : fulfilmentFor (inStore s relevant) e = fulfilmentFor relevant e := by
  rw [fulfilmentFor, fulfilmentFor, find?_inStore]
  apply List.find?_congr
  intro x _
  by_cases here : x.scope = s <;> simp [here, identityOf_inStore relevant scope x]

theorem ownPixels_inStore : ownPixels (inStore s relevant) e = ownPixels relevant e := by
  rw [ownPixels, ownPixels, filter_inStore]
  apply List.filter_congr
  intro x _
  by_cases here : x.scope = s <;> simp [here, identityOf_inStore relevant scope x]

theorem holding_inStore {kind : Kind} : identityOf relevant e ∈ holding relevant kind ↔
    identityOf (inStore s relevant) e ∈ holding (inStore s relevant) kind := by
  rw [mem_holding, mem_holding]
  constructor
  · rintro ⟨x, member, named, same⟩
    obtain ⟨here, same⟩ := (identityOf_inStore relevant scope x).mp same
    exact ⟨x, mem_inStore.mpr ⟨member, here⟩, named, same⟩
  · rintro ⟨x, member, named, same⟩
    obtain ⟨inside, here⟩ := mem_inStore.mp member
    exact ⟨x, inside, named, (identityOf_inStore relevant scope x).mpr ⟨here, same⟩⟩

theorem strayPixels_inStore : strayPixels (inStore s relevant) e = strayPixels relevant e := by
  rw [strayPixels, strayPixels, filter_inStore]
  apply List.filter_congr
  intro x _
  by_cases here : x.scope = s
  · simp [here, groupOf_inStore relevant scope x, holding_inStore relevant here]
  · simp [here, groupOf_inStore relevant scope x]

theorem pixelsFor_inStore : pixelsFor (inStore s relevant) e = pixelsFor relevant e := by
  rw [pixelsFor, pixelsFor, ownPixels_inStore relevant scope,
    strayPixels_inStore relevant scope]

theorem gradeOrder_inStore : gradeOrder (inStore s relevant) e = gradeOrder relevant e := by
  rw [gradeOrder, gradeOrder, offerFor_inStore relevant scope, pixelsFor_inStore relevant scope,
    fulfilmentFor_inStore relevant scope]

end Orders

theorem orders_inStore :
    orders (inStore s relevant) = (orders relevant).filter fun e => e.scope = s := by
  rw [orders, orders, ← firsts_filter]
  · have paid : (inStore s relevant).filter (fun e => e.kind = .orderPaid) =
        (relevant.filter fun e => e.kind = .orderPaid).filter fun e => e.scope = s := by
      rw [inStore, List.filter_comm]
    rw [paid]
    apply firsts_congr
    intro x hx y hy
    have here := of_decide_eq_true (List.mem_filter.mp hy).2
    have there := of_decide_eq_true (List.mem_filter.mp hx).2
    rw [identityOf_inStore relevant here]
    exact ⟨fun same => ⟨there, same⟩, And.right⟩
  · intro x _ y _ same
    rw [decide_eq_decide]
    have linked := (identityOf_iff relevant x y).mp same
    rw [← inScope_key, ← inScope_key, (within_linked linked).1]

/-! ## The stream of one store -/

def Named (events : List Record) : Prop :=
  ∀ event ∈ events, (kindOf event).isSome → (storeOf event).isSome

def Joinable (events : List Record) : Prop := ∀ event ∈ events, unjoinableWebhook event = false

variable {events : List Record}

def ownScope (r : Read) : Relevant := ⟨r, r.store.getD unattributedScope⟩

theorem relevantOf_named (named : Named events) :
    relevantOf events = (events.filterMap readOf).map ownScope := by
  apply List.map_congr_left
  intro r member
  obtain ⟨event, here, found⟩ := List.mem_filterMap.mp member
  have kind : (kindOf event).isSome := by
    rw [← readOf_eq_some.mp found, r.named]
    rfl
  have store := named event here kind
  rw [← readOf_eq_some.mp found] at store
  obtain ⟨store, stated⟩ := Option.isSome_iff_exists.mp store
  rw [attributedStore_of_store stated, ownScope, show r.store = some store from stated]

theorem store_of_relevant (named : Named events) {e : Relevant} (member : e ∈ relevantOf events) :
    storeOf e.event = some e.scope := by
  have here := event_mem member
  rw [relevantOf_named named] at member
  obtain ⟨r, -, rfl⟩ := List.mem_map.mp member
  have kind : (kindOf r.event).isSome := by
    rw [r.named]
    rfl
  obtain ⟨store, stated⟩ := Option.isSome_iff_exists.mp (named r.event here kind)
  show storeOf r.event = some ((storeOf r.event).getD unattributedScope)
  rw [stated]
  rfl

theorem named_ofStore (named : Named events) (s : Str) : Named (ofStore s events) :=
  fun event member => named event (List.mem_of_mem_filter member)

theorem relevantOf_ofStore (named : Named events) (s : Str) :
    relevantOf (ofStore s events) = inStore s (relevantOf events) := by
  rw [relevantOf_named (named_ofStore named s), inStore, relevantOf_named named, List.filter_map,
    ofStore, List.filterMap_filter, List.filter_filterMap]
  congr 1
  apply List.filterMap_congr
  intro event member
  cases found : readOf event with
  | none => simp
  | some r =>
      have here := readOf_eq_some.mp found
      have kind : (kindOf event).isSome := by
        rw [← here, r.named]
        rfl
      obtain ⟨store, stated⟩ := Option.isSome_iff_exists.mp (named event member kind)
      have own : (ownScope r).scope = store := by
        rw [ownScope, show r.store = some store by rw [Read.store, here, stated]]
        rfl
      by_cases same : store = s <;> simp [Option.filter, stated, own, same]

theorem returns_inStore {relevant : List Relevant} {s : Str} {e : Relevant} (scope : e.scope = s) :
    Returns (inStore s relevant) e ↔ Returns relevant e := by
  rw [Returns, Returns, ← gradeOrder_returns, ← gradeOrder_returns, gradeOrder_inStore relevant scope]

theorem storeId_of_outcome (named : Named events) {e : Relevant} (member : e ∈ relevantOf events)
    {v : ReconciledEvent} (h : outcome (gradeOrder (relevantOf events) e) = some v) :
    v.storeId = some e.scope := by
  have returns : ∃ v, gradeOrder (relevantOf events) e = .ok v := by
    cases graded : gradeOrder (relevantOf events) e with
    | error failure => simp [graded, outcome] at h
    | ok v => exact ⟨v, rfl⟩
  have cores := outcome_offPixel returns
  rw [h] at cores
  obtain ⟨offer, v', -, judged, same⟩ := core_eq_some.mp cores.symm
  rw [← offPixel_storeId, ← same, offPixel_storeId, storeId_of_verdict judged,
    store_of_relevant named member]
  rfl

def Isolated (events : List Record) : Prop :=
  ∀ s, (emitted events).filter (fun e => e.storeId = some s) = emitted (ofStore s events)

theorem emitted_ofStore (named : Named events) (joinable : Joinable events) {s : Str}
    (returns : ∀ e ∈ orders (relevantOf events), e.scope = s → Returns (relevantOf events) e) :
    emitted (ofStore s events) = ((orders (relevantOf events)).filter fun e => e.scope = s).filterMap
      fun e => outcome (gradeOrder (relevantOf events) e) := by
  rw [emitted_of_returns, relevantOf_ofStore named, orders_inStore]
  · apply List.filterMap_congr
    intro e member
    rw [gradeOrder_inStore _ (of_decide_eq_true (List.mem_filter.mp member).2)]
  · exact fun event member => joinable event (List.mem_of_mem_filter member)
  · intro e member
    rw [relevantOf_ofStore named, orders_inStore] at member
    obtain ⟨inside, scope⟩ := List.mem_filter.mp member
    rw [relevantOf_ofStore named, returns_inStore (of_decide_eq_true scope)]
    exact returns e inside (of_decide_eq_true scope)

theorem emitted_ofStore_of_raises (named : Named events) {e : Relevant}
    (member : e ∈ orders (relevantOf events)) (raises : ¬ Returns (relevantOf events) e) :
    emitted (ofStore e.scope events) = [] := by
  apply emitted_of_raises (e := e)
  · rw [relevantOf_ofStore named, orders_inStore]
    exact List.mem_filter.mpr ⟨member, decide_eq_true rfl⟩
  · rw [relevantOf_ofStore named, returns_inStore rfl]
    exact raises

end Isolation

/-- Two shops with one order each; the second was charged more than a float can hold. -/
def poisonedStream : List Record :=
  let checkout (store : String) (price : Int) : List Record :=
    let fields : Record := [(str "store_id", .str (str store)), (str "order_ref", .str (str "1"))]
    [(str "kind", .str (str "accepted")) :: fields ++
        [(str "payload", .dict [(str "offer", .dict [(str "total_price", .int 100)])])],
      (str "kind", .str (str "order_paid")) :: fields ++
        [(str "payload", .dict [(str "total_price", .int price)])]]
  checkout "a" 100 ++ checkout "b" (10 ^ 400)

end Proxyshop.Reconcile
