import Proxyshop.Reconcile.Partition
import Proxyshop.Ledger.Canonical

/-!
# What is emitted for an order

The buckets hold the first event of each kind in each group, so an order is graded by the first offer
of its merged group and the first fulfilment of its own.
-/

namespace Proxyshop.Reconcile

open Python Structures

/-- What a step of the loop contributes when it does not raise. -/
def outcome {ε β : Type} : Except ε (Option β) → Option β
  | .ok b => b
  | .error _ => none

theorem collect_eq_ok {ε α β : Type} {f : α → Except ε (Option β)} {l : List α} {out : List β} :
    collect f l = .ok out ↔ (∀ a ∈ l, ∃ b, f a = .ok b) ∧ out = l.filterMap fun a => outcome (f a) := by
  induction l generalizing out with
  | nil => simp [collect, eq_comm]
  | cons a l ih =>
      rw [List.forall_mem_cons, List.filterMap_cons]
      cases head : f a with
      | error e =>
          constructor
          · intro h
            rw [collect, head] at h
            cases h
          · rintro ⟨⟨⟨b, h⟩, -⟩, -⟩
            cases h
      | ok b =>
          have step : collect f (a :: l) = (collect f l).map fun rest => b.toList ++ rest := by
            rw [collect, head]
            rfl
          rw [step]
          constructor
          · intro h
            cases tail : collect f l with
            | error e => simp [tail, Except.map] at h
            | ok rest =>
                obtain ⟨all, rfl⟩ := ih.mp tail
                rw [tail] at h
                refine ⟨⟨⟨b, rfl⟩, all⟩, (Except.ok.inj h).symm.trans ?_⟩
                cases b <;> rfl
          · rintro ⟨⟨-, all⟩, rfl⟩
            rw [ih.mpr ⟨all, rfl⟩]
            cases b <;> rfl

theorem collect_map {ε α β γ : Type} (f : β → Except ε (Option γ)) (g : α → β) (l : List α) :
    collect f (l.map g) = collect (fun a => f (g a)) l := by
  induction l with
  | nil => rfl
  | cons a l ih => rw [List.map_cons, collect, collect, ih]

theorem collect_congr {ε α β : Type} {f g : α → Except ε (Option β)} {l : List α}
    (same : ∀ a ∈ l, f a = g a) : collect f l = collect g l := by
  induction l with
  | nil => rfl
  | cons a l ih =>
      rw [collect, collect, same a List.mem_cons_self,
        ih fun b member => same b (List.mem_cons_of_mem _ member)]

section Emission

variable [Unicode] (relevant : List Relevant)

theorem identityOf_iff (x e : Relevant) :
    identityOf relevant x = identityOf relevant e ↔ Linked relevant x.key e.key := root_iff _ _

theorem groupOf_iff (x e : Relevant) :
    groupOf relevant x = groupOf relevant e ↔ Merged relevant x.key e.key :=
  merged_root_iff (Relevant.plain x.key_mem) (Relevant.plain e.key_mem)

theorem groupOf_eq {x e : Relevant} (same : identityOf relevant x = identityOf relevant e) :
    groupOf relevant x = groupOf relevant e :=
  (groupOf_iff relevant x e).mpr (Or.inl ((identityOf_iff relevant x e).mp same))

theorem linked_of_groupOf (side : Side) {x y : Relevant} (hx : x ∈ relevant) (hy : y ∈ relevant)
    (kindX : x.kind = side.kind) (kindY : y.kind = side.kind)
    (same : groupOf relevant x = groupOf relevant y) : Linked relevant x.key y.key := by
  have marked : ∀ z ∈ relevant, z.kind = side.kind → (bridging relevant).marked side z.key :=
    fun z member kind => ⟨z, member, kind, (linked_equivalence relevant).refl _⟩
  exact Bridging.single_merged x.key ((bridging relevant).merged_equivalence.refl _)
    ((groupOf_iff relevant x y).mp same) (marked x hx kindX) (marked y hy kindY)

/-! ## The events an order is graded by -/

def orders : List Relevant := firsts (identityOf relevant) (relevant.filter fun e => e.kind = .orderPaid)

def offerFor (e : Relevant) : Option Relevant :=
  relevant.find? fun x => x.kind = .accepted && groupOf relevant x = groupOf relevant e

def fulfilmentFor (e : Relevant) : Option Relevant :=
  relevant.find? fun x => x.kind = .orderFulfilled && identityOf relevant x = identityOf relevant e

def ownPixels (e : Relevant) : List Relevant :=
  relevant.filter fun x => x.kind = .checkoutPixel && identityOf relevant x = identityOf relevant e

/-- The pixels of the merged group that lie outside every order's identity group. -/
def strayPixels (e : Relevant) : List Relevant :=
  relevant.filter fun x => x.kind = .checkoutPixel && groupOf relevant x = groupOf relevant e &&
    !(identityOf relevant x ∈ holding relevant .orderPaid)

def pixelsFor (e : Relevant) : List Relevant :=
  if ownPixels relevant e = [] then strayPixels relevant e else ownPixels relevant e

def gradeOrder (e : Relevant) : Except ReconcileError (Option ReconciledEvent) :=
  match offerFor relevant e with
  | none => .ok none
  | some offer =>
      ((verdict e.event offer.event ((pixelsFor relevant e).head?.map (·.event))
        ((fulfilmentFor relevant e).map (·.event))).map some).mapError .python

variable {relevant}

theorem mem_orders {e : Relevant} (h : e ∈ orders relevant) : e ∈ relevant ∧ e.kind = .orderPaid := by
  obtain ⟨member, kind⟩ := List.mem_filter.mp (mem_of_mem_firsts h)
  exact ⟨member, of_decide_eq_true kind⟩

/-! ## What the buckets hold -/

theorem file_field {β : Type} (field : Filed → β) (step : β → Relevant → β)
    (same : ∀ filed e, step (field filed) e = field (Filed.add relevant filed e)) :
    field (file relevant) = relevant.foldl step (field Filed.empty) :=
  (List.foldl_hom field same).symm

theorem file_orders : (file relevant).orders =
    (orders relevant).map fun e => (identityOf relevant e, e.event) := by
  have filtered : (relevant.filter fun e => e.kind = .orderPaid).foldl
        (fun d e => Dict.setDefault d (identityOf relevant e) e.event) ([] : Dict Str Record) =
      relevant.foldl (fun d e => if decide (e.kind = .orderPaid) = true
        then Dict.setDefault d (identityOf relevant e) e.event else d) [] := List.foldl_filter
  rw [file_field Filed.orders (fun d e => if decide (e.kind = .orderPaid) = true
    then Dict.setDefault d (identityOf relevant e) e.event else d)]
  · rw [show Filed.empty.orders = [] from rfl, ← filtered, foldl_setDefault]
    simp [orders, Dict.contains]
  · intro filed e
    cases kind : e.kind <;> simp [Filed.add, kind]

theorem get?_groupOfOrder (identity : Str) : Dict.get? (file relevant).groupOfOrder identity =
    (relevant.find? fun x => x.kind = .orderPaid && identityOf relevant x = identity).map
      (groupOf relevant) := by
  rw [file_field Filed.groupOfOrder (fun d e => if decide (e.kind = .orderPaid) = true
    then Dict.setDefault d (identityOf relevant e) (groupOf relevant e) else d)]
  · rw [get?_foldl_setDefault]
    rfl
  · intro filed e
    cases kind : e.kind <;> simp [Filed.add, kind]

theorem get?_fulfilments (identity : Str) : Dict.get? (file relevant).fulfilments identity =
    (relevant.find? fun x => x.kind = .orderFulfilled && identityOf relevant x = identity).map
      (·.event) := by
  rw [file_field Filed.fulfilments (fun d e => if decide (e.kind = .orderFulfilled) = true
    then Dict.setDefault d (identityOf relevant e) e.event else d)]
  · rw [get?_foldl_setDefault]
    rfl
  · intro filed e
    cases kind : e.kind <;> simp [Filed.add, kind]

theorem get?_pixels (identity : Str) : Dict.get? (file relevant).pixels identity =
    (relevant.find? fun x => x.kind = .checkoutPixel && identityOf relevant x = identity).map
      (·.event) := by
  rw [file_field Filed.pixels (fun d e => if decide (e.kind = .checkoutPixel) = true
    then Dict.setDefault d (identityOf relevant e) e.event else d)]
  · rw [get?_foldl_setDefault]
    rfl
  · intro filed e
    cases kind : e.kind <;> simp [Filed.add, kind]

theorem get?_groupPixels (group : Str) : (Dict.get? (file relevant).groupPixels group).getD [] =
    (relevant.filter fun x => x.kind = .checkoutPixel && groupOf relevant x = group).map
      (identityOf relevant) := by
  rw [file_field Filed.groupPixels (fun d e => if decide (e.kind = .checkoutPixel) = true
    then Dict.adjust d (groupOf relevant e) [] fun roots => roots ++ [identityOf relevant e] else d)]
  · rw [get?_foldl_append]
    rfl
  · intro filed e
    cases kind : e.kind <;> simp [Filed.add, kind]

theorem get?_members (group : Str) (kind : Kind) :
    Dict.get? ((Dict.get? (file relevant).members group).getD []) kind =
      (relevant.find? fun x => x.kind = kind && groupOf relevant x = group).map (·.event) := by
  rw [file_field Filed.members (fun d e => Dict.adjust d (groupOf relevant e) []
    fun bucket => Dict.setDefault bucket e.kind e.event)]
  · rw [get?_foldl_adjust]
    rfl
  · intro filed e
    cases kind : e.kind <;> simp [Filed.add, kind]

theorem contains_orders (identity : Str) : Dict.contains (file relevant).orders identity =
    decide (identity ∈ holding relevant .orderPaid) := by
  rw [Bool.eq_iff_iff, Dict.contains_iff, file_orders, decide_eq_true_eq, mem_holding, Dict.keys,
    List.map_map, List.mem_map]
  constructor
  · rintro ⟨e, member, rfl⟩
    exact ⟨e, (mem_orders member).1, (mem_orders member).2, rfl⟩
  · rintro ⟨e, member, kind, rfl⟩
    have paid : e ∈ relevant.filter fun e => e.kind = .orderPaid :=
      List.mem_filter.mpr ⟨member, decide_eq_true kind⟩
    obtain ⟨first, found, same⟩ := exists_first (identityOf relevant) paid
    exact ⟨first, found, same⟩

/-! ## Emission, order by order -/

theorem groupOfOrder_of_mem {e : Relevant} (h : e ∈ orders relevant) :
    (Dict.get? (file relevant).groupOfOrder (identityOf relevant e)).getD [] = groupOf relevant e := by
  rw [get?_groupOfOrder]
  cases found : relevant.find? fun x => x.kind = .orderPaid &&
      identityOf relevant x = identityOf relevant e with
  | none =>
      have missing := List.find?_eq_none.mp found e (mem_orders h).1
      simp [(mem_orders h).2] at missing
  | some x =>
      have same := List.find?_some found
      simp only [Bool.and_eq_true, decide_eq_true_eq] at same
      exact groupOf_eq relevant same.2

theorem pixels_of_stray {e stray : Relevant} (h : (strayPixels relevant e).head? = some stray) :
    (relevant.find? fun x => x.kind = .checkoutPixel &&
      identityOf relevant x = identityOf relevant stray) = some stray := by
  rw [strayPixels, List.head?_filter] at h
  have chosen := List.find?_some h
  simp only [Bool.and_eq_true, decide_eq_true_eq, Bool.not_eq_true', decide_eq_false_iff_not] at chosen
  apply find?_narrower h
  · simp [chosen.1.1]
  · intro x _ met
    simp only [Bool.and_eq_true, decide_eq_true_eq] at met
    simp [met.1, met.2, groupOf_eq relevant met.2, chosen.1.2, chosen.2]

theorem pixelFor_eq (e : Relevant) :
    pixelFor (file relevant) (identityOf relevant e) (groupOf relevant e) =
      (pixelsFor relevant e).head?.map (·.event) := by
  rw [pixelFor, get?_pixels, get?_groupPixels, ← List.head?_filter]
  unfold pixelsFor
  cases own : ownPixels relevant e with
  | cons pixel rest =>
      unfold ownPixels at own
      rw [own]
      simp
  | nil =>
      unfold ownPixels at own
      rw [own, if_pos rfl, List.find?_map]
      have strays : (strayPixels relevant e).head? = (relevant.filter fun x =>
          x.kind = .checkoutPixel && groupOf relevant x = groupOf relevant e).find? fun x =>
          !Dict.contains (file relevant).orders (identityOf relevant x) := by
        rw [strayPixels, List.head?_filter, List.find?_filter]
        simp only [contains_orders, Bool.decide_and, Bool.decide_eq_true]
      rw [show ((fun candidate => !Dict.contains (file relevant).orders candidate) ∘
          identityOf relevant) = fun x => !Dict.contains (file relevant).orders (identityOf relevant x)
        from rfl, ← strays]
      cases first : (strayPixels relevant e).head? with
      | none => rfl
      | some stray =>
          show Dict.get? (file relevant).pixels (identityOf relevant stray) = _
          rw [get?_pixels, pixels_of_stray first]

theorem emit_eq (relevant : List Relevant) :
    emit relevant = collect (gradeOrder relevant) (orders relevant) := by
  rw [emit, file_orders, collect_map]
  apply collect_congr
  intro e member
  rw [emitOrder, gradeOrder, groupOfOrder_of_mem member, get?_members, get?_fulfilments, pixelFor_eq]
  unfold offerFor fulfilmentFor
  cases relevant.find? fun x => x.kind = .accepted && groupOf relevant x = groupOf relevant e <;> rfl

/-! ## The pixel aside -/

theorem verdict_eq_ok {webhook accepted : Record} {fulfilment : Option Record} {v : ReconciledEvent} :
    verdict webhook accepted none fulfilment = .ok v ↔ ∃ promise price discount days dispatch,
      promised accepted = .ok promise ∧ observedPriceOf webhook = .ok price ∧
      discountPercentage (payload webhook) = .ok discount ∧
      number (floatValue promise.deliveryEstimateDays) = .ok days ∧
      elapsedDays (webhook.get (str "ts")) (fulfilledAtOf fulfilment) = .ok dispatch ∧
      v = judge (orderRefOf webhook) ((storeOf webhook).or (storeOf accepted))
        (((payload webhook).get (str "checkout_token")).or ((payload accepted).get (str "checkout_token")))
        promise none (webhook.get (str "ts")) ((payload accepted).get (str "bid_ref"))
        (clusterOf accepted) fulfilment ⟨price, discount, days, dispatch, none⟩ := by
  simp only [verdict, reconciledEvent, readings, pixelPriceOf, Option.elim_none, Ledger.bind_eq_ok]
  constructor
  · rintro ⟨promise, promises, r, ⟨price, prices, discount, discounts, days, hdays, dispatch, elapsed,
      blank, unseen, read⟩, judged⟩
    cases unseen
    cases read
    cases judged
    exact ⟨promise, price, discount, days, dispatch, promises, prices, discounts, hdays, elapsed, rfl⟩
  · rintro ⟨promise, price, discount, days, dispatch, promises, prices, discounts, hdays, elapsed, rfl⟩
    exact ⟨promise, promises, _, ⟨price, prices, discount, discounts, days, hdays, dispatch, elapsed,
      .none, rfl, rfl⟩, rfl⟩

theorem verdict_pixel (webhook accepted : Record) (pixel fulfilment : Option Record) :
    verdict webhook accepted pixel fulfilment = (do
      let e ← verdict webhook accepted none fulfilment
      let price ← pixelPriceOf pixel
      return e.withPixel pixel price) := by
  simp only [verdict, bind_assoc]
  congr 1
  funext promise
  rw [reconciledEvent_pixel]

def Readable (relevant : List Relevant) (e : Relevant) : Prop :=
  ∀ offer, offerFor relevant e = some offer → ∃ v,
    verdict e.event offer.event none ((fulfilmentFor relevant e).map (·.event)) = .ok v

def Legible (pixel : Option Relevant) : Prop := ∃ price, pixelPriceOf (pixel.map (·.event)) = .ok price

def core (relevant : List Relevant) (e : Relevant) : Option ReconciledEvent :=
  (offerFor relevant e).bind fun offer =>
    (verdict e.event offer.event none ((fulfilmentFor relevant e).map (·.event))).toOption.map
      ReconciledEvent.offPixel

theorem core_eq_some {e : Relevant} {c : ReconciledEvent} : core relevant e = some c ↔
    ∃ offer v, offerFor relevant e = some offer ∧
      verdict e.event offer.event none ((fulfilmentFor relevant e).map (·.event)) = .ok v ∧
      v.offPixel = c := by
  unfold core
  cases offerFor relevant e with
  | none => simp
  | some offer =>
      cases graded : verdict e.event offer.event none ((fulfilmentFor relevant e).map (·.event)) with
      | error failure => simp [graded, Except.toOption]
      | ok v => simp [graded, Except.toOption]

theorem gradeOrder_of_none {e : Relevant} (h : offerFor relevant e = none) :
    gradeOrder relevant e = .ok none := by
  rw [gradeOrder, h]

theorem gradeOrder_of_some {e offer : Relevant} (h : offerFor relevant e = some offer) :
    gradeOrder relevant e = ((verdict e.event offer.event ((pixelsFor relevant e).head?.map (·.event))
      ((fulfilmentFor relevant e).map (·.event))).map some).mapError .python := by
  rw [gradeOrder, h]

theorem gradeOrder_returns {e : Relevant} : (∃ v, gradeOrder relevant e = .ok v) ↔
    Readable relevant e ∧
      ((offerFor relevant e).isSome → Legible (pixelsFor relevant e).head?) := by
  cases found : offerFor relevant e with
  | none =>
      rw [gradeOrder_of_none found]
      refine iff_of_true ⟨none, rfl⟩ ⟨?_, nofun⟩
      intro offer h
      rw [found] at h
      cases h
  | some offer =>
      rw [gradeOrder_of_some found, verdict_pixel, Readable, Legible, found]
      cases graded : verdict e.event offer.event none ((fulfilmentFor relevant e).map (·.event)) with
      | error failure =>
          refine iff_of_false ?_ ?_
          · rintro ⟨v, h⟩
            cases h
          · rintro ⟨read, -⟩
            obtain ⟨v, h⟩ := read offer rfl
            rw [graded] at h
            cases h
      | ok v =>
          cases priced : pixelPriceOf ((pixelsFor relevant e).head?.map (·.event)) with
          | error failure =>
              refine iff_of_false ?_ ?_
              · rintro ⟨v, h⟩
                cases h
              · rintro ⟨-, read⟩
                obtain ⟨price, h⟩ := read rfl
                cases h
          | ok price =>
              refine iff_of_true ⟨_, rfl⟩ ⟨?_, fun _ => ⟨price, rfl⟩⟩
              rintro other h
              cases h
              exact ⟨v, graded⟩

theorem outcome_offPixel {e : Relevant} (returns : ∃ v, gradeOrder relevant e = .ok v) :
    (outcome (gradeOrder relevant e)).map ReconciledEvent.offPixel = core relevant e := by
  obtain ⟨read, legible⟩ := gradeOrder_returns.mp returns
  unfold core
  cases found : offerFor relevant e with
  | none =>
      rw [gradeOrder_of_none found]
      rfl
  | some offer =>
      obtain ⟨v, graded⟩ := read offer found
      obtain ⟨price, priced⟩ := legible (by rw [found]; rfl)
      rw [gradeOrder_of_some found, verdict_pixel, graded, priced, Option.bind_some, graded]
      rfl

theorem storeId_of_verdict {webhook accepted : Record} {fulfilment : Option Record}
    {v : ReconciledEvent} (h : verdict webhook accepted none fulfilment = .ok v) :
    v.storeId = (storeOf webhook).or (storeOf accepted) := by
  obtain ⟨_, _, _, _, _, -, -, -, -, -, rfl⟩ := verdict_eq_ok.mp h
  rfl

theorem orderRef_of_verdict {webhook accepted : Record} {fulfilment : Option Record}
    {v : ReconciledEvent} (h : verdict webhook accepted none fulfilment = .ok v) :
    v.orderRef = orderRefOf webhook := by
  obtain ⟨_, _, _, _, _, -, -, -, -, -, rfl⟩ := verdict_eq_ok.mp h
  rfl

end Emission

end Proxyshop.Reconcile
