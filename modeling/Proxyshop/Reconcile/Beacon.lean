import Proxyshop.Reconcile.Isolation

/-!
# One more pixel

A pixel is never compared with anything. Its identifiers and its store are read like any other event's,
though, so it can bring two orders together, or an order and an offer; and its price can fail to be
read. Where it does neither, everything emitted without it is emitted with it.
-/

namespace Proxyshop.Reconcile

open Python Structures

/-- An element no earlier one agrees with under `f` is such a one under any `g` that tells the same
elements apart from it. -/
theorem mem_firsts_congr {α K L : Type} [DecidableEq K] [DecidableEq L] {f : α → K} {g : α → L}
    {l : List α} {a : α} (first : a ∈ firsts f l) (same : ∀ b ∈ l, g b = g a ↔ f b = f a) :
    a ∈ firsts g l := by
  obtain ⟨b, member, equal⟩ := exists_first g (mem_of_mem_firsts first)
  have found := find?_first member
  have found' := find?_first first
  rw [equal, List.find?_congr fun x inside => by rw [decide_eq_decide.mpr (same x inside)], found'] at found
  cases found
  exact member

section Beacon

variable [Unicode]

/-! ## Two readings of one stream -/

def placed (events : List Record) (r : Read) : Relevant :=
  ⟨r, (attributedStore (keyStores (events.filterMap readOf)) r).getD unattributedScope⟩

theorem relevantOf_eq_map (events : List Record) :
    relevantOf events = (events.filterMap readOf).map (placed events) := rfl

def SameOrder (events : List Record) (r q : Read) : Prop :=
  Linked (relevantOf events) (placed events r).key (placed events q).key

def SameGroup (events : List Record) (r q : Read) : Prop :=
  Merged (relevantOf events) (placed events r).key (placed events q).key

theorem identityOf_placed {events : List Record} (r q : Read) :
    identityOf (relevantOf events) (placed events r) = identityOf (relevantOf events) (placed events q) ↔
      SameOrder events r q := identityOf_iff _ _ _

theorem groupOf_placed {events : List Record} (r q : Read) :
    groupOf (relevantOf events) (placed events r) = groupOf (relevantOf events) (placed events q) ↔
      SameGroup events r q := groupOf_iff _ _ _

instance (events : List Record) (r q : Read) : Decidable (SameOrder events r q) :=
  decidable_of_iff _ (identityOf_placed r q)

instance (events : List Record) (r q : Read) : Decidable (SameGroup events r q) :=
  decidable_of_iff _ (groupOf_placed r q)

def Graded (events : List Record) (w : Read) : Prop :=
  w.kind = .orderPaid ∧ ∃ offer ∈ events.filterMap readOf, offer.kind = .accepted ∧ SameGroup events offer w

instance (events : List Record) (w : Read) : Decidable (Graded events w) :=
  inferInstanceAs (Decidable (_ ∧ _))

/-- No graded order gains or loses a webhook, a fulfilment or an offer. -/
def Kept (events events' : List Record) : Prop :=
  ∀ w ∈ events.filterMap readOf, Graded events w → ∀ r ∈ events.filterMap readOf,
    (r.kind = .orderPaid ∨ r.kind = .orderFulfilled → (SameOrder events' r w ↔ SameOrder events r w)) ∧
      (r.kind = .accepted → (SameGroup events' r w ↔ SameGroup events r w))

instance (events events' : List Record) : Decidable (Kept events events') :=
  inferInstanceAs (Decidable (∀ w ∈ events.filterMap readOf, Graded events w → _))

/-- Every event of the one run is an event of the other, its pixel aside. -/
def Preserved (events events' : List Record) : Prop :=
  ∀ v ∈ emitted events, ∃ v' ∈ emitted events', v'.offPixel = v.offPixel

def SameButPixels (events events' : List Record) : Prop :=
  (events'.filterMap readOf).filter (fun r => r.kind ≠ .checkoutPixel) =
    (events.filterMap readOf).filter fun r => r.kind ≠ .checkoutPixel

theorem sameButPixels_insert (pre post : List Record) {pixel : Record}
    (kind : kindOf pixel = some .checkoutPixel) : SameButPixels (pre ++ post) (pre ++ pixel :: post) := by
  rw [SameButPixels, List.filterMap_append, List.filterMap_append, List.filterMap_cons]
  cases read : readOf pixel with
  | none => rfl
  | some r =>
      have named : r.kind = .checkoutPixel := by
        have stated := r.named
        rw [readOf_eq_some.mp read, kind] at stated
        exact (Option.some.inj stated).symm
      simp [List.filter_append, named]

section Counterparts

variable {events events' : List Record} (same : SameButPixels events events')

include same

theorem filter_readOf {p : Read → Bool} (solid : ∀ r, p r = true → r.kind ≠ .checkoutPixel) :
    (events'.filterMap readOf).filter p = (events.filterMap readOf).filter p := by
  have narrow : ∀ l : List Read, l.filter p = (l.filter fun r => r.kind ≠ .checkoutPixel).filter p := by
    intro l
    rw [List.filter_filter]
    apply List.filter_congr
    intro r _
    cases met : p r with
    | false => rfl
    | true => simp [solid r met]
  rw [narrow, same, ← narrow]

theorem find?_counterpart {p p' : Relevant → Bool}
    (solid : ∀ x, p' x = true → x.kind ≠ .checkoutPixel)
    (agree : ∀ r ∈ events.filterMap readOf, p' (placed events' r) = p (placed events r)) :
    ((relevantOf events').find? p').map (·.event) = ((relevantOf events).find? p).map (·.event) := by
  have chosen : (events.filterMap readOf).filter (p' ∘ placed events') =
      (events.filterMap readOf).filter (p ∘ placed events) := List.filter_congr agree
  rw [relevantOf_eq_map, relevantOf_eq_map, List.find?_map, List.find?_map, Option.map_map,
    Option.map_map, ← List.head?_filter, ← List.head?_filter, filter_readOf same fun r => solid _, chosen]
  rfl

variable (kept : Kept events events') {w : Read} (graded : Graded events w)
  (read : w ∈ events.filterMap readOf)

include kept graded read

theorem orders_counterpart (listed : placed events w ∈ orders (relevantOf events)) :
    placed events' w ∈ orders (relevantOf events') := by
  have split : ∀ page : List Record, orders (relevantOf page) =
      (firsts (identityOf (relevantOf page) ∘ placed page)
        ((page.filterMap readOf).filter fun r => r.kind = .orderPaid)).map (placed page) := by
    intro page
    rw [orders, ← firsts_map, relevantOf_eq_map, List.filter_map]
    rfl
  rw [split] at listed ⊢
  refine List.mem_map_of_mem (mem_firsts_congr (f := identityOf (relevantOf events) ∘ placed events) ?_ ?_)
  · rw [filter_readOf same fun r paid => by simp [of_decide_eq_true paid]]
    obtain ⟨w', first, equal⟩ := List.mem_map.mp listed
    rwa [← show w' = w from congrArg Relevant.toRead equal]
  · intro r member
    rw [filter_readOf same fun r paid => by simp [of_decide_eq_true paid]] at member
    obtain ⟨inside, paid⟩ := List.mem_filter.mp member
    show identityOf _ _ = identityOf _ _ ↔ identityOf _ _ = identityOf _ _
    rw [identityOf_placed, identityOf_placed]
    exact (kept w read graded r inside).1 (Or.inl (of_decide_eq_true paid))

theorem offerFor_counterpart : (offerFor (relevantOf events') (placed events' w)).map (·.event) =
    (offerFor (relevantOf events) (placed events w)).map (·.event) := by
  apply find?_counterpart same
  · intro x met
    simp only [Bool.and_eq_true, decide_eq_true_eq] at met
    simp [met.1]
  · intro r inside
    by_cases accepted : r.kind = .accepted
    · rw [decide_eq_decide.mpr ((groupOf_placed r w).trans
        (((kept w read graded r inside).2 accepted).trans (groupOf_placed r w).symm))]
      rfl
    · simp [placed, accepted]

theorem fulfilmentFor_counterpart :
    (fulfilmentFor (relevantOf events') (placed events' w)).map (·.event) =
      (fulfilmentFor (relevantOf events) (placed events w)).map (·.event) := by
  apply find?_counterpart same
  · intro x met
    simp only [Bool.and_eq_true, decide_eq_true_eq] at met
    simp [met.1]
  · intro r inside
    by_cases fulfilled : r.kind = .orderFulfilled
    · rw [decide_eq_decide.mpr ((identityOf_placed r w).trans
        (((kept w read graded r inside).1 (Or.inr fulfilled)).trans (identityOf_placed r w).symm))]
      rfl
    · simp [placed, fulfilled]

theorem core_counterpart :
    core (relevantOf events') (placed events' w) = core (relevantOf events) (placed events w) := by
  have through : ∀ (relevant : List Relevant) (e : Relevant), core relevant e =
      ((offerFor relevant e).map (·.event)).bind fun offer => (verdict e.event offer none
        ((fulfilmentFor relevant e).map (·.event))).toOption.map ReconciledEvent.offPixel := by
    intro relevant e
    rw [core, Option.bind_map]
    rfl
  rw [through, through, offerFor_counterpart same kept graded read,
    fulfilmentFor_counterpart same kept graded read]
  rfl

end Counterparts

/-! ## Runs that emit nothing -/

def Silent (events : List Record) : Prop :=
  ¬ Joinable events ∨ (∀ e ∈ orders (relevantOf events), (offerFor (relevantOf events) e).isSome = false) ∨
    ∃ e ∈ orders (relevantOf events), ¬ Returns (relevantOf events) e

theorem emitted_eq_nil_iff {events : List Record} : emitted events = [] ↔ Silent events := by
  constructor
  · intro none
    by_cases joinable : Joinable events
    swap
    · exact Or.inl joinable
    by_cases returns : ∀ e ∈ orders (relevantOf events), Returns (relevantOf events) e
    swap
    · push Not at returns
      exact Or.inr (Or.inr returns)
    refine Or.inr (Or.inl fun e member => ?_)
    rw [emitted_of_returns joinable returns, List.filterMap_eq_nil_iff] at none
    rw [← outcome_isSome (returns e member), none e member]
    rfl
  · rintro (refused | offerless | ⟨e, member, raises⟩)
    · cases run : reconcile events with
      | error failure =>
          rw [emitted, run]
          rfl
      | ok out => exact absurd (reconcile_eq_ok.mp run).1 refused
    · by_contra some
      have joinable : Joinable events := by
        cases run : reconcile events with
        | error failure =>
            rw [emitted, run] at some
            exact absurd rfl some
        | ok out => exact (reconcile_eq_ok.mp run).1
      by_cases returns : ∀ e ∈ orders (relevantOf events), Returns (relevantOf events) e
      · rw [emitted_of_returns joinable returns, List.filterMap_eq_nil_iff] at some
        push Not at some
        obtain ⟨e, member, graded⟩ := some
        have offered := outcome_isSome (returns e member)
        rw [offerless e member, Option.isSome_eq_false_iff, Option.isNone_iff_eq_none] at offered
        exact graded offered
      · push Not at returns
        obtain ⟨e, member, raises⟩ := returns
        exact some (emitted_of_raises member raises)
    · exact emitted_of_raises member raises

theorem emitted_of_not_silent {events : List Record} (loud : ¬ Silent events) : Joinable events ∧
    ∀ e ∈ orders (relevantOf events), Returns (relevantOf events) e := by
  simp only [Silent, not_or, not_not, not_exists, not_and] at loud
  exact ⟨loud.1, loud.2.2⟩

theorem joinable_insert {pre post : List Record} {pixel : Record}
    (kind : kindOf pixel = some .checkoutPixel) (joinable : Joinable (pre ++ post)) :
    Joinable (pre ++ pixel :: post) := by
  intro event member
  rcases List.mem_append.mp member with before | after
  · exact joinable event (List.mem_append_left _ before)
  · rcases List.mem_cons.mp after with rfl | later
    · rw [unjoinableWebhook, kind]
      rfl
    · exact joinable event (List.mem_append_right _ later)

/-- A pixel that joins no webhook, fulfilment or offer to a graded order, and parts none from it,
loses an event only where the run with it raises. -/
theorem preserved_insert_iff {pre post : List Record} {pixel : Record}
    (kind : kindOf pixel = some .checkoutPixel) (kept : Kept (pre ++ post) (pre ++ pixel :: post)) :
    Preserved (pre ++ post) (pre ++ pixel :: post) ↔ Silent (pre ++ post) ∨
      ∀ e ∈ orders (relevantOf (pre ++ pixel :: post)), Returns (relevantOf (pre ++ pixel :: post)) e := by
  have same := sameButPixels_insert pre post kind
  constructor
  · intro preserved
    by_cases silent : Silent (pre ++ post)
    · exact Or.inl silent
    refine Or.inr fun e member => ?_
    by_contra raises
    obtain ⟨v, emits⟩ := List.exists_mem_of_ne_nil _ fun none => silent (emitted_eq_nil_iff.mp none)
    obtain ⟨v', emits', -⟩ := preserved v emits
    rw [emitted_of_raises member raises] at emits'
    cases emits'
  · rintro (silent | returns') v emits
    · rw [emitted_eq_nil_iff.mpr silent] at emits
      cases emits
    have loud : ¬ Silent (pre ++ post) := by
      intro silent
      rw [emitted_eq_nil_iff.mpr silent] at emits
      cases emits
    obtain ⟨joinable, returns⟩ := emitted_of_not_silent loud
    have joinable' := joinable_insert kind joinable
    rw [emitted_of_returns joinable returns] at emits
    obtain ⟨e, listed, graded⟩ := List.mem_filterMap.mp emits
    obtain ⟨w, read, rfl⟩ := List.mem_map.mp (mem_orders listed).1
    have cores := outcome_offPixel (gradeOrder_returns.mpr (returns _ listed))
    rw [graded, Option.map_some] at cores
    obtain ⟨offer, -, found, -⟩ := core_eq_some.mp cores.symm
    have chosen := List.find?_some found
    simp only [Bool.and_eq_true, decide_eq_true_eq] at chosen
    obtain ⟨q, inside, rfl⟩ := List.mem_map.mp (List.mem_of_find?_eq_some found)
    have isGraded : Graded (pre ++ post) w :=
      ⟨(mem_orders listed).2, q, inside, chosen.1, (groupOf_placed q w).mp chosen.2⟩
    have listed' := orders_counterpart same kept isGraded read listed
    have cores' := outcome_offPixel (gradeOrder_returns.mpr (returns' _ listed'))
    rw [core_counterpart same kept isGraded read] at cores'
    obtain ⟨v', graded', equal⟩ := Option.map_eq_some_iff.mp (cores'.trans cores.symm)
    refine ⟨v', ?_, equal⟩
    rw [emitted_of_returns joinable' returns']
    exact List.mem_filterMap.mpr ⟨_, listed', graded'⟩

theorem eventIds_of_preserved {events events' : List Record} (preserved : Preserved events events')
    {eventId : Str} (member : eventId ∈ (emitted events).map (·.eventId)) :
    eventId ∈ (emitted events').map (·.eventId) := by
  obtain ⟨v, emits, rfl⟩ := List.mem_map.mp member
  obtain ⟨v', emits', same⟩ := preserved v emits
  exact List.mem_map.mpr ⟨v', emits', by rw [← offPixel_eventId, same, offPixel_eventId]⟩

end Beacon

/-- Two checkouts, each with a token and an order reference of its own. -/
def twoCheckouts : List Record :=
  let checkout (n : String) : List Record :=
    let event (kind : String) (body : Record) : Record :=
      [(str "kind", .str (str kind)), (str "store_id", .str (str "a")),
        (str "order_ref", .str (str n)),
        (str "payload", .dict ((str "checkout_token", .str (str ("t" ++ n))) :: body))]
    [event "accepted" [(str "offer", .dict [(str "total_price", .int 100)])],
      event "order_paid" [(str "total_price", .int 120)]]
  checkout "1" ++ checkout "2"

def strayBeacon (token orderRef : String) : Record :=
  [(str "kind", .str (str "checkout_pixel")), (str "store_id", .str (str "a")),
    (str "order_ref", .str (str orderRef)),
    (str "payload", .dict [(str "checkout_token", .str (str token))])]

/-- A pixel with the token of one order and the reference of another makes one of them vanish. -/
theorem strayBeacon_hides_order :
    letI := Unicode.ascii
    kindOf (strayBeacon "t1" "2") = some .checkoutPixel ∧
      ¬ Preserved (twoCheckouts ++ []) (twoCheckouts ++ strayBeacon "t1" "2" :: []) := by
  let tables : Unicode := Unicode.ascii
  have named : kindOf (strayBeacon "t1" "2") = some .checkoutPixel := by decide
  have lost : ∃ eventId ∈ (emitted (twoCheckouts ++ [])).map (·.eventId),
      eventId ∉ (emitted (twoCheckouts ++ strayBeacon "t1" "2" :: [])).map (·.eventId) := by
    decide
  refine ⟨named, fun preserved => ?_⟩
  obtain ⟨eventId, member, missing⟩ := lost
  exact missing (eventIds_of_preserved preserved member)

theorem ownBeacon_preserved :
    letI := Unicode.ascii
    Preserved (twoCheckouts ++ []) (twoCheckouts ++ strayBeacon "t1" "1" :: []) ↔
      Silent (twoCheckouts ++ []) ∨
        ∀ e ∈ orders (relevantOf (twoCheckouts ++ strayBeacon "t1" "1" :: [])),
          Returns (relevantOf (twoCheckouts ++ strayBeacon "t1" "1" :: [])) e := by
  let tables : Unicode := Unicode.ascii
  have named : kindOf (strayBeacon "t1" "1") = some .checkoutPixel := by decide
  have kept : Kept (twoCheckouts ++ []) (twoCheckouts ++ strayBeacon "t1" "1" :: []) := by
    decide
  exact preserved_insert_iff named kept

end Proxyshop.Reconcile
