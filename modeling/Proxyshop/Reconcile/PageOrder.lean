import Proxyshop.Reconcile.Isolation
import Mathlib.Data.List.Perm.Basic

/-!
# The order of the page

The groups are read off the events as a set. Where no identity group holds two offers, two webhooks or
two fulfilments, the order of the page decides nothing but which of several pixels is recorded, and
through it whether the run returns.
-/

namespace Proxyshop.Reconcile

open Python Structures

theorem find?_perm {α : Type} {p : α → Bool} {l l' : List α} (perm : l.Perm l')
    (alone : (l.filter p).length ≤ 1) : l.find? p = l'.find? p := by
  rw [← List.head?_filter, ← List.head?_filter]
  have same := perm.filter p
  match found : l.filter p with
  | [] =>
      rw [found] at same
      rw [List.nil_perm.mp same]
  | [a] =>
      rw [found] at same
      rw [List.singleton_perm.mp same]
  | a :: b :: rest =>
      rw [found] at alone
      simp at alone

section PageOrder

variable [Unicode] {relevant relevant' : List Relevant} (perm : relevant.Perm relevant')

include perm

/-! ## The groups -/

theorem linked_perm : Linked relevant = Linked relevant' := by
  have shares : Shares relevant = Shares relevant' := by
    funext a b
    simp only [Shares, perm.mem_iff]
  rw [Linked, Linked, shares]

theorem bridging_perm : bridging relevant = bridging relevant' := by
  have linked := linked_perm perm
  simp only [bridging, linked, perm.mem_iff]

theorem identityOf_perm (x e : Relevant) : identityOf relevant x = identityOf relevant e ↔
    identityOf relevant' x = identityOf relevant' e := by
  rw [identityOf_iff, identityOf_iff, linked_perm perm]

theorem groupOf_perm (x e : Relevant) : groupOf relevant x = groupOf relevant e ↔
    groupOf relevant' x = groupOf relevant' e := by
  rw [groupOf_iff, groupOf_iff, Merged, Merged, bridging_perm perm]

theorem holding_perm (kind : Kind) (x : Relevant) : identityOf relevant x ∈ holding relevant kind ↔
    identityOf relevant' x ∈ holding relevant' kind := by
  simp only [mem_holding, perm.mem_iff, identityOf_perm perm]

theorem ownPixels_perm (e : Relevant) : (ownPixels relevant e).Perm (ownPixels relevant' e) := by
  have same : ownPixels relevant e = relevant.filter fun x =>
      x.kind = .checkoutPixel && identityOf relevant' x = identityOf relevant' e := by
    apply List.filter_congr
    intro x _
    rw [decide_eq_decide.mpr (identityOf_perm perm x e)]
  rw [same]
  exact perm.filter _

theorem strayPixels_perm (e : Relevant) : (strayPixels relevant e).Perm (strayPixels relevant' e) := by
  have same : strayPixels relevant e = relevant.filter fun x =>
      x.kind = .checkoutPixel && groupOf relevant' x = groupOf relevant' e &&
        !(identityOf relevant' x ∈ holding relevant' .orderPaid) := by
    apply List.filter_congr
    intro x _
    rw [decide_eq_decide.mpr (groupOf_perm perm x e), decide_eq_decide.mpr (holding_perm perm _ x)]
  rw [same]
  exact perm.filter _

theorem pixelsFor_perm (e : Relevant) : (pixelsFor relevant e).Perm (pixelsFor relevant' e) := by
  have own := ownPixels_perm perm e
  have empty : ownPixels relevant e = [] ↔ ownPixels relevant' e = [] := by
    rw [← List.length_eq_zero_iff, own.length_eq, List.length_eq_zero_iff]
  unfold pixelsFor
  split
  · rename_i none
    rw [if_pos (empty.mp none)]
    exact strayPixels_perm perm e
  · rename_i some
    rw [if_neg fun none => some (empty.mpr none)]
    exact own

omit perm

/-! ## Groups without duplicates -/

/-- No identity group holds two offers, two webhooks or two fulfilments. -/
def Uncrowded (relevant : List Relevant) : Prop :=
  relevant.Pairwise fun x y => x.kind = y.kind →
    x.kind ∈ [Kind.accepted, Kind.orderPaid, Kind.orderFulfilled] → ¬ Linked relevant x.key y.key

variable (uncrowded : Uncrowded relevant)

theorem alone_of_linked {p : Relevant → Bool} (kind : Kind)
    (crowd : kind ∈ [Kind.accepted, Kind.orderPaid, Kind.orderFulfilled])
    (uncrowded : Uncrowded relevant) (named : ∀ x, p x = true → x.kind = kind)
    (linked : ∀ x ∈ relevant, ∀ y ∈ relevant, p x = true → p y = true → Linked relevant x.key y.key) :
    (relevant.filter p).length ≤ 1 := by
  have apart : (relevant.filter p).Pairwise fun _ _ => False := by
    rw [List.pairwise_filter]
    refine uncrowded.imp_of_mem ?_
    intro x y hx hy apart px py
    have kindX := named x px
    exact apart (kindX.trans (named y py).symm) (kindX ▸ crowd) (linked x hx y hy px py)
  match found : relevant.filter p with
  | [] => simp
  | [x] => simp
  | x :: y :: rest =>
      rw [found] at apart
      exact absurd (List.mem_cons_self) ((List.pairwise_cons.mp apart).1 y)

theorem orders_uncrowded (uncrowded : Uncrowded relevant) :
    orders relevant = relevant.filter fun e => e.kind = .orderPaid := by
  apply firsts_of_distinct
  rw [List.pairwise_filter]
  refine uncrowded.imp ?_
  intro x y apart paid paid' same
  have kind := of_decide_eq_true paid
  exact apart (kind.trans (of_decide_eq_true paid').symm) (by rw [kind]; decide)
    ((identityOf_iff relevant x y).mp same)

theorem alone_offer (uncrowded : Uncrowded relevant) (e : Relevant) : (relevant.filter fun x =>
    x.kind = .accepted && groupOf relevant x = groupOf relevant e).length ≤ 1 := by
  apply alone_of_linked .accepted (by decide) uncrowded
  · intro x met
    simp only [Bool.and_eq_true, decide_eq_true_eq] at met
    exact met.1
  · intro x hx y hy left right
    simp only [Bool.and_eq_true, decide_eq_true_eq] at left right
    exact linked_of_groupOf relevant .offer hx hy left.1 right.1 (left.2.trans right.2.symm)

theorem alone_fulfilment (uncrowded : Uncrowded relevant) (e : Relevant) : (relevant.filter fun x =>
    x.kind = .orderFulfilled && identityOf relevant x = identityOf relevant e).length ≤ 1 := by
  apply alone_of_linked .orderFulfilled (by decide) uncrowded
  · intro x met
    simp only [Bool.and_eq_true, decide_eq_true_eq] at met
    exact met.1
  · intro x _ y _ left right
    simp only [Bool.and_eq_true, decide_eq_true_eq] at left right
    exact (identityOf_iff relevant x y).mp (left.2.trans right.2.symm)

include perm

theorem uncrowded_perm (uncrowded : Uncrowded relevant) : Uncrowded relevant' := by
  unfold Uncrowded
  rw [← linked_perm perm]
  refine (perm.pairwise_iff ?_).mp uncrowded
  intro x y apart same crowd linked
  exact apart same.symm (same ▸ crowd) ((linked_equivalence relevant).symm linked)

theorem orders_perm (uncrowded : Uncrowded relevant) : (orders relevant).Perm (orders relevant') := by
  rw [orders_uncrowded uncrowded, orders_uncrowded (uncrowded_perm perm uncrowded)]
  exact perm.filter _

theorem offerFor_perm (uncrowded : Uncrowded relevant) (e : Relevant) :
    offerFor relevant e = offerFor relevant' e := by
  rw [offerFor, find?_perm perm (alone_offer uncrowded e)]
  apply List.find?_congr
  intro x _
  rw [decide_eq_decide.mpr (groupOf_perm perm x e)]

theorem fulfilmentFor_perm (uncrowded : Uncrowded relevant) (e : Relevant) :
    fulfilmentFor relevant e = fulfilmentFor relevant' e := by
  rw [fulfilmentFor, find?_perm perm (alone_fulfilment uncrowded e)]
  apply List.find?_congr
  intro x _
  rw [decide_eq_decide.mpr (identityOf_perm perm x e)]

theorem core_perm (uncrowded : Uncrowded relevant) (e : Relevant) :
    core relevant e = core relevant' e := by
  rw [core, core, offerFor_perm perm uncrowded, fulfilmentFor_perm perm uncrowded]

theorem readable_perm (uncrowded : Uncrowded relevant) (e : Relevant) :
    Readable relevant e ↔ Readable relevant' e := by
  rw [Readable, Readable, offerFor_perm perm uncrowded, fulfilmentFor_perm perm uncrowded]

end PageOrder

/-! ## Attribution -/

section Attribution

variable [Unicode] {events events' : List Record}

theorem relevantOf_perm (perm : events.Perm events') : (relevantOf events).Perm (relevantOf events') := by
  have reads := perm.filterMap readOf
  have stores : attributedStore (keyStores (events.filterMap readOf)) =
      attributedStore (keyStores (events'.filterMap readOf)) := by
    funext r
    refine attributedStore_congr rfl fun store => ?_
    simp only [Claims, (reads.flatMap_right Read.ballots).mem_iff]
  rw [relevantOf, relevantOf, attributed, attributed, stores]
  exact reads.map _

/-! ## Every permutation of the page -/

def OrderIndependent (events : List Record) : Prop := ∀ events', events.Perm events' →
  ((emitted events).map ReconciledEvent.offPixel).Perm ((emitted events').map ReconciledEvent.offPixel)

/-- The order of the page decides whether a graded order's pixel can be read: all the rest can be,
there is a pixel that cannot be, and wherever there is one there is also one that can. -/
def PixelDecides (relevant : List Relevant) : Prop :=
  (∃ e ∈ orders relevant, (offerFor relevant e).isSome) ∧
    (∀ e ∈ orders relevant, Readable relevant e) ∧
    (∃ e ∈ orders relevant, (offerFor relevant e).isSome ∧
      ∃ pixel ∈ pixelsFor relevant e, ¬ Legible (some pixel)) ∧
    ∀ e ∈ orders relevant, (offerFor relevant e).isSome → pixelsFor relevant e ≠ [] →
      ∃ pixel ∈ pixelsFor relevant e, Legible (some pixel)

theorem emitted_of_unjoinable (refused : ¬ Joinable events) : emitted events = [] := by
  cases run : reconcile events with
  | error failure => rw [emitted, run]; rfl
  | ok out => exact absurd (reconcile_eq_ok.mp run).1 refused

theorem joinable_perm (perm : events.Perm events') : Joinable events ↔ Joinable events' :=
  ⟨fun all event member => all event (perm.mem_iff.mpr member),
    fun all event member => all event (perm.mem_iff.mp member)⟩

theorem legible_none : Legible none := ⟨none, rfl⟩

theorem emitted_perm (perm : events.Perm events') (uncrowded : Uncrowded (relevantOf events))
    (joinable : Joinable events) (returns : ∀ e ∈ orders (relevantOf events), Returns (relevantOf events) e)
    (returns' : ∀ e ∈ orders (relevantOf events'), Returns (relevantOf events') e) :
    ((emitted events).map ReconciledEvent.offPixel).Perm
      ((emitted events').map ReconciledEvent.offPixel) := by
  have same := relevantOf_perm perm
  have run : reconcile events = .ok (emitted events) := by
    rw [emitted_of_returns joinable returns]
    exact reconcile_eq_ok.mpr ⟨joinable, fun e member => gradeOrder_returns.mpr (returns e member), rfl⟩
  have joinable' := (joinable_perm perm).mp joinable
  have run' : reconcile events' = .ok (emitted events') := by
    rw [emitted_of_returns joinable' returns']
    exact reconcile_eq_ok.mpr ⟨joinable', fun e member => gradeOrder_returns.mpr (returns' e member), rfl⟩
  rw [offPixel_emitted run, offPixel_emitted run', funext fun e => core_perm same uncrowded e]
  exact (orders_perm same uncrowded).filterMap _

theorem emitted_of_offerless (none : ∀ e ∈ orders (relevantOf events),
    (offerFor (relevantOf events) e).isSome = false) : emitted events = [] := by
  cases run : reconcile events with
  | error failure => rw [emitted, run]; rfl
  | ok out =>
      rw [emitted, run]
      obtain ⟨-, -, rfl⟩ := reconcile_eq_ok.mp run
      refine List.filterMap_eq_nil_iff.mpr fun e member => ?_
      rw [gradeOrder_of_none (Option.not_isSome_iff_eq_none.mp (by simp [none e member]))]
      rfl

/-- The events whose pixel price cannot be read, put first or last. -/
def illegible (event : Record) : Bool :=
  decide (kindOf event = some .checkoutPixel) && !(pixelPriceOf (some event)).isOk

theorem legible_iff (pixel : Relevant) : Legible (some pixel) ↔ (pixelPriceOf (some pixel.event)).isOk := by
  unfold Legible
  rw [Option.map_some]
  cases pixelPriceOf (some pixel.event) with
  | error failure => simp [Except.isOk, Except.toBool]
  | ok price => simp [Except.isOk, Except.toBool]

theorem illegible_iff {pixel : Relevant} (kind : pixel.kind = .checkoutPixel) :
    illegible pixel.event = true ↔ ¬ Legible (some pixel) := by
  rw [illegible, pixel.named, kind, legible_iff]
  simp

theorem kind_of_pixelsFor {relevant : List Relevant} {e pixel : Relevant}
    (member : pixel ∈ pixelsFor relevant e) : pixel ∈ relevant ∧ pixel.kind = .checkoutPixel := by
  unfold pixelsFor at member
  split at member
  · obtain ⟨inside, met⟩ := List.mem_filter.mp member
    simp only [Bool.and_eq_true, decide_eq_true_eq] at met
    exact ⟨inside, met.1.1⟩
  · obtain ⟨inside, met⟩ := List.mem_filter.mp member
    simp only [Bool.and_eq_true, decide_eq_true_eq] at met
    exact ⟨inside, met.1⟩

theorem pixelsFor_eq_filter (relevant : List Relevant) (e : Relevant) :
    ∃ q, pixelsFor relevant e = relevant.filter q := by
  unfold pixelsFor
  split
  · exact ⟨_, rfl⟩
  · exact ⟨_, rfl⟩

theorem relevantOf_append (first second : List Record) : ∃ front back,
    relevantOf (first ++ second) = front ++ back ∧
      (∀ e ∈ front, e.event ∈ first) ∧ ∀ e ∈ back, e.event ∈ second := by
  have stated : ∀ (part : List Record) (f : Read → Relevant), (∀ r, (f r).toRead = r) →
      ∀ e ∈ (part.filterMap readOf).map f, e.event ∈ part := by
    intro part f same e member
    obtain ⟨r, read, rfl⟩ := List.mem_map.mp member
    obtain ⟨event, here, found⟩ := List.mem_filterMap.mp read
    rw [show (f r).event = r.event by rw [same], readOf_eq_some.mp found]
    exact here
  rw [relevantOf, List.filterMap_append, attributed, List.map_append]
  exact ⟨_, _, rfl, stated first _ fun _ => rfl, stated second _ fun _ => rfl⟩

theorem head_pixelsFor {first second : List Record} (p : Record → Bool) {e pixel : Relevant}
    (first_met : ∀ event ∈ first, p event = true) (second_not : ∀ event ∈ second, p event = false)
    (member : pixel ∈ pixelsFor (relevantOf (first ++ second)) e) (met : p pixel.event = true) :
    ∃ top, (pixelsFor (relevantOf (first ++ second)) e).head? = some top ∧ p top.event = true := by
  obtain ⟨front, back, split, inFirst, inSecond⟩ := relevantOf_append first second
  obtain ⟨q, chosen⟩ := pixelsFor_eq_filter (relevantOf (first ++ second)) e
  rw [chosen, split, List.filter_append] at member ⊢
  cases found : front.filter q with
  | nil =>
      rw [found, List.nil_append] at member
      have late := second_not _ (inSecond pixel (List.mem_of_mem_filter member))
      rw [late] at met
      cases met
  | cons top rest =>
      have here : top ∈ front.filter q := by
        rw [found]
        exact List.mem_cons_self
      exact ⟨top, rfl, first_met _ (inFirst top (List.mem_of_mem_filter here))⟩

theorem legible_of_not_illegible {pixel : Relevant} (kind : pixel.kind = .checkoutPixel) :
    illegible pixel.event = false ↔ Legible (some pixel) := by
  rw [← Bool.not_eq_true, illegible_iff kind, not_not]

theorem returns_perm {relevant relevant' : List Relevant} (perm : relevant.Perm relevant')
    (uncrowded : Uncrowded relevant) {e : Relevant} (readable : Readable relevant e)
    (legible : (offerFor relevant e).isSome → Legible (pixelsFor relevant' e).head?) :
    Returns relevant' e := by
  refine ⟨(readable_perm perm uncrowded e).mp readable, fun offered => legible ?_⟩
  rw [offerFor_perm perm uncrowded]
  exact offered

theorem emitted_illegible_first (uncrowded : Uncrowded (relevantOf events)) {e pixel : Relevant}
    (member : e ∈ orders (relevantOf events)) (offered : (offerFor (relevantOf events) e).isSome)
    (seen : pixel ∈ pixelsFor (relevantOf events) e) (hidden : ¬ Legible (some pixel)) :
    emitted (events.filter illegible ++ events.filter fun event => !illegible event) = [] := by
  have perm := relevantOf_perm (List.filter_append_perm illegible events).symm
  have kind := (kind_of_pixelsFor seen).2
  obtain ⟨top, first, met⟩ := head_pixelsFor illegible (e := e)
    (fun event inside => (List.mem_filter.mp inside).2)
    (fun event inside => by simpa using (List.mem_filter.mp inside).2)
    ((pixelsFor_perm perm e).mem_iff.mp seen) ((illegible_iff kind).mpr hidden)
  refine emitted_of_raises ((orders_perm perm uncrowded).mem_iff.mp member) fun returns => ?_
  have legible := returns.2 (by rwa [← offerFor_perm perm uncrowded])
  rw [first] at legible
  exact (illegible_iff (kind_of_pixelsFor (List.mem_of_mem_head? first)).2).mp met legible

theorem returns_illegible_last (uncrowded : Uncrowded (relevantOf events))
    (readable : ∀ e ∈ orders (relevantOf events), Readable (relevantOf events) e)
    (some : ∀ e ∈ orders (relevantOf events), (offerFor (relevantOf events) e).isSome →
      pixelsFor (relevantOf events) e ≠ [] →
        ∃ pixel ∈ pixelsFor (relevantOf events) e, Legible (some pixel))
    {e : Relevant} (member : e ∈ orders (relevantOf
      ((events.filter fun event => !illegible event) ++ events.filter illegible))) :
    Returns (relevantOf ((events.filter fun event => !illegible event) ++ events.filter illegible)) e := by
  have split := (List.filter_append_perm (fun event => !illegible event) events).symm
  simp only [Bool.not_not] at split
  have perm := relevantOf_perm split
  have here := (orders_perm perm uncrowded).mem_iff.mpr member
  refine returns_perm perm uncrowded (readable e here) fun offered => ?_
  by_cases none : pixelsFor (relevantOf events) e = []
  · have empty := (pixelsFor_perm perm e).symm
    rw [none, List.perm_nil] at empty
    rw [empty]
    exact legible_none
  · obtain ⟨pixel, seen, legible⟩ := some e here offered none
    have kind := (kind_of_pixelsFor seen).2
    obtain ⟨top, first, met⟩ := head_pixelsFor (fun event => !illegible event) (e := e)
      (fun event inside => (List.mem_filter.mp inside).2)
      (fun event inside => by simpa using (List.mem_filter.mp inside).2)
      ((pixelsFor_perm perm e).mem_iff.mp seen)
      (by rw [(legible_of_not_illegible kind).mpr legible]; rfl)
    rw [first]
    exact (legible_of_not_illegible (kind_of_pixelsFor (List.mem_of_mem_head? first)).2).mp
      (by simpa using met)

theorem pixelDecides_breaks (uncrowded : Uncrowded (relevantOf events)) (joinable : Joinable events)
    (decides : PixelDecides (relevantOf events)) : ¬ OrderIndependent events := by
  obtain ⟨⟨graded, listed, offered⟩, readable, ⟨e, member, offer, pixel, seen, hidden⟩, some⟩ := decides
  intro independent
  have silent := independent _ (List.filter_append_perm illegible events).symm
  rw [emitted_illegible_first uncrowded member offer seen hidden] at silent
  have split := (List.filter_append_perm (fun event => !illegible event) events).symm
  simp only [Bool.not_not] at split
  have perm := relevantOf_perm split
  have loud := (independent _ split).symm.trans silent
  rw [emitted_of_returns ((joinable_perm split).mp joinable)
    fun e member => returns_illegible_last uncrowded readable some member] at loud
  have none := List.filterMap_eq_nil_iff.mp (List.map_eq_nil_iff.mp (List.perm_nil.mp loud)) graded
    ((orders_perm perm uncrowded).mem_iff.mp listed)
  have emitted := outcome_isSome (returns_illegible_last uncrowded readable some
    ((orders_perm perm uncrowded).mem_iff.mp listed))
  rw [none, ← offerFor_perm perm uncrowded, offered] at emitted
  cases emitted

theorem uncrowded_of_kinds {relevant : List Relevant} (apart : relevant.Pairwise fun x y =>
    x.kind = y.kind → x.kind ∉ [Kind.accepted, Kind.orderPaid, Kind.orderFulfilled]) :
    Uncrowded relevant :=
  apart.imp fun apart same crowd _ => apart same crowd

end Attribution

/-- One order with two pixels, the second of a price no float can hold. -/
def twoPixelPage : List Record :=
  let checkout (kind : String) (body : Record) : Record :=
    [(str "kind", .str (str kind)), (str "store_id", .str (str "a")), (str "order_ref", .str (str "1")),
      (str "payload", .dict body)]
  [checkout "accepted" [(str "offer", .dict [(str "total_price", .int 100)])],
    checkout "order_paid" [(str "total_price", .int 100)],
    checkout "checkout_pixel" [(str "total_price", .int 100)],
    checkout "checkout_pixel" [(str "total_price", .int (10 ^ 400))]]

end Proxyshop.Reconcile
