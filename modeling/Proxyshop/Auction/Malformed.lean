import Proxyshop.Auction.Arrivals
import Proxyshop.Contracts.Conversions

/-!
# Malformed answers

Which answers the collection survives. A number of an answer is converted wherever a wall reads it, an
identifier is written wherever it is quoted, and the claims of an admitted bid are listed.
-/

namespace Proxyshop.Auction.Collect

open Python Numbers Contracts Structures Boundary

variable {F : Type} [Format F]

/-! ## The numbers of an offer -/

theorem declaresADiscount_returns {offer : Wire F} :
    (∃ b, declaresADiscount offer = .ok b) ↔ (depthOf offer).huge = false := by
  unfold declaresADiscount
  by_cases absent : (offer.get (str "discount")).isNull = true
  · have small : (depthOf offer).huge = false := by
      rw [depthOf, Json.isNull_iff.mp absent]
      rfl
    simp [absent, small]
  · simp only [absent, if_false, Bool.false_eq_true]
    show _ ↔ Wire.huge (Json.get (offer.get (str "discount")) (str "value")) = false
    cases Json.get (offer.get (str "discount")) (str "value") with
    | number n =>
        show (∃ b, n.toDouble >>= _ = .ok b) ↔ n.huge = false
        rw [Literal.toDouble_eq]
        cases large : n.huge
        · simp only [Bool.false_eq_true, if_false, iff_true]
          show ∃ b, _ = Except.ok b
          cases n.nearest <;> exact ⟨_, rfl⟩
        · simp only [if_true, Bool.true_eq_false, iff_false]
          rintro ⟨_, raised⟩
          cases raised
    | _ => simp [Wire.huge]

structure PricesConvert (offer : Wire F) : Prop where
  unitPrice : Wire.huge (offer.get (str "unit_price")) = false
  totalPrice : Wire.huge (offer.get (str "total_price")) = false

theorem isUnreadable_returns {members : Dict Str (Wire F)} {site : Str}
    (small : Wire.huge (Json.get (.object members) site) = false) :
    ∃ b, isUnreadable (Dict.get? members site) = .ok b := by
  cases found : Dict.get? members site with
  | none => exact ⟨_, rfl⟩
  | some price =>
      rw [Json.get_object, found, Option.getD_some] at small
      show ∃ b, Wire.finiteNumber price >>= _ = .ok b
      rw [Wire.finiteNumber_eq_ok.mpr ⟨small, rfl⟩]
      exact ⟨_, rfl⟩

section Judgement

variable {offer : Wire F} {rostered : Rostered F} (prices : PricesConvert offer)
  (listed : Wire.huge (rostered.get (str "list_price")) = false)

include prices

theorem unitPrice_read : Wire.finiteNumber (offer.get (str "unit_price")) =
    .ok (Wire.amount (offer.get (str "unit_price"))) :=
  Wire.finiteNumber_eq_ok.mpr ⟨prices.unitPrice, rfl⟩

theorem totalPrice_read : Wire.finiteNumber (offer.get (str "total_price")) =
    .ok (Wire.amount (offer.get (str "total_price"))) :=
  Wire.finiteNumber_eq_ok.mpr ⟨prices.totalPrice, rfl⟩

include listed in
theorem pricedAtNothing_returns : ∃ b, pricedAtNothing offer rostered = .ok b := by
  unfold pricedAtNothing
  rw [bind_returns]
  refine ⟨_, Wire.finiteNumber_eq_ok.mpr ⟨listed, rfl⟩, ?_⟩
  split
  · exact ⟨_, rfl⟩
  · split
    · exact ⟨_, rfl⟩
    · split
      · exact ⟨_, rfl⟩
      · rw [unitPrice_read prices, totalPrice_read prices]
        show ∃ b, ite _ _ _ = Except.ok b
        split <;> exact ⟨_, rfl⟩

include listed in
theorem belowThePriceFloor_returns : ∃ b, belowThePriceFloor offer rostered = .ok b := by
  unfold belowThePriceFloor
  rw [bind_returns]
  refine ⟨_, Wire.finiteNumber_eq_ok.mpr ⟨listed, rfl⟩, ?_⟩
  split
  · exact ⟨_, rfl⟩
  · split
    · exact ⟨_, rfl⟩
    · rw [unitPrice_read prices, totalPrice_read prices]
      show ∃ b, ite _ _ _ = Except.ok b
      split <;> exact ⟨_, rfl⟩

theorem priceIsUnreadable_returns : ∃ b, priceIsUnreadable offer = .ok b := by
  unfold priceIsUnreadable
  cases offer with
  | object members =>
      obtain ⟨unit, unit_eq⟩ := isUnreadable_returns prices.unitPrice
      obtain ⟨total, total_eq⟩ := isUnreadable_returns prices.totalPrice
      simp only [Json.record?]
      split
      · exact ⟨_, rfl⟩
      · rw [unit_eq, total_eq]
        cases unit <;> exact ⟨_, rfl⟩
  | _ => exact ⟨_, rfl⟩

end Judgement

/-! ## The rows of a roster -/

structure WellFormed (rostered : Rostered F) : Prop where
  tier : ∃ n, rostered.get (str "tier") = .number (.integer n)
  productRef : rostered.get (str "product_ref") = .null ∨
    ∃ ref, rostered.get (str "product_ref") = .string ref
  listPrice : ∃ x, rostered.get (str "list_price") = .number (.double (.finite x)) ∧ 0 < Format.value x
  maxDiscountPct : rostered.get maxDiscountRosterKey = .null ∨
    ∃ x, rostered.get maxDiscountRosterKey = .number (.double (.finite x)) ∧
      0 ≤ Format.value x ∧ Format.value x ≤ 100

structure Catalogued (rostered : Rostered F) : Prop where
  productRef : rostered.get (str "product_ref") = .null ∨
    ∃ ref, rostered.get (str "product_ref") = .string ref
  listPrice : ∃ x, rostered.get (str "list_price") = .number (.double (.finite x)) ∧ 0 < Format.value x
  maxDiscountPct : rostered.get maxDiscountRosterKey = .null ∨
    ∃ x, rostered.get maxDiscountRosterKey = .number (.double (.finite x)) ∧
      0 ≤ Format.value x ∧ Format.value x ≤ 100

theorem WellFormed.catalogued {rostered : Rostered F} (formed : WellFormed rostered) :
    Catalogued rostered := ⟨formed.productRef, formed.listPrice, formed.maxDiscountPct⟩

omit [Format F] in
theorem value_get (rostered : Rostered F) (key : Str) :
    rostered.value.record.get key = rostered.get key := rfl

theorem rosterRow_cases (offer ref : Wire F) (rostered : Rostered F) :
    Boundary.rosterRow offer [(ref, rostered.value)] =
      if Wire.sameKey ref (offer.get (str "product_ref")) then some rostered.value else none := by
  unfold Boundary.rosterRow
  rw [List.find?_singleton]
  split <;> rfl

namespace Catalogued

variable {rostered : Rostered F} (formed : Catalogued rostered)

include formed

theorem hashable : (rostered.get (str "product_ref")).hashable = true := by
  rcases formed.productRef with absent | ⟨ref, named⟩
  · rw [absent]
    rfl
  · rw [named]
    rfl

theorem listed : Wire.huge (rostered.get (str "list_price")) = false := by
  obtain ⟨x, read, -⟩ := formed.listPrice
  rw [read]
  rfl

theorem rowConverts (offer ref : Wire F) :
    RowConverts (Boundary.rosterRow offer [(ref, rostered.value)]) := by
  rw [rosterRow_cases]
  split
  · constructor
    · unfold authorizedDepth
      rw [Option.elim_some, value_get]
      rcases formed.maxDiscountPct with absent | ⟨x, stated, -⟩
      · rw [absent]
        exact ⟨_, rfl⟩
      · rw [stated]
        exact ⟨_, rfl⟩
    · obtain ⟨x, read, -⟩ := formed.listPrice
      have number : Wire.finiteNumber (rostered.value.record.get listPriceClaimKey) =
          .ok (some (.finite x)) := by
        rw [value_get, listPriceClaimKey, read]
        rfl
      show ∃ r, Wire.finiteNumber (rostered.value.record.get listPriceClaimKey) >>= _ = Except.ok r
      rw [number]
      exact ⟨_, rfl⟩
  · exact rowConverts_none

end Catalogued

/-! ## The price wall -/

section Walls

variable [DecidableEq F] [Unicode] {text : Wire F → Str}

/-- The reasons the boundary gives for a bid on the row it was asked from. -/
def rowReasons (bid : Wire F) (rostered : Rostered F) : Except PyError (List Str) :=
  Boundary.priceReasons bid [(rostered.get (str "product_ref"), rostered.value)] .null

theorem rowReasons_illegible {bid : Wire F} (rostered : Rostered F)
    (illegible : (bid.get (str "offer")).record? = none) :
    rowReasons bid rostered = .ok [illegibleOfferReason] := by
  show Boundary.offerPriceReasons bid (bid.get (str "offer")) _ _ = _
  rw [Boundary.offerPriceReasons, illegible]
  rfl

theorem priceRefusal_eq_ok {bid : Wire F} {rostered : Rostered F} {refused : List Str}
    (hashable : (rostered.get (str "product_ref")).hashable = true) :
    priceRefusal text bid rostered = .ok refused ↔
      (isJudged text (bid.get (str "offer")) rostered = .ok false ∧ refused = []) ∨
        (isJudged text (bid.get (str "offer")) rostered = .ok true ∧
          rowReasons bid rostered = .ok refused) := by
  unfold priceRefusal
  rw [bind_eq_ok]
  constructor
  · rintro ⟨judged, asked, read⟩
    cases judged with
    | false => exact Or.inl ⟨asked, (Except.ok.inj read).symm⟩
    | true =>
        right
        refine ⟨asked, ?_⟩
        simp only [hashable, if_true, Bool.not_true, if_false, Bool.false_eq_true] at read
        obtain ⟨reasons, reasons_eq, read⟩ := bind_eq_ok.mp read
        by_cases legible : (bid.get (str "offer")).record?.isSome = true
        · rw [if_pos (Or.inr legible)] at read
          obtain rfl := Except.ok.inj read
          exact reasons_eq
        · have illegible := rowReasons_illegible rostered
            (Option.not_isSome_iff_eq_none.mp legible)
          obtain rfl := Except.ok.inj (reasons_eq.symm.trans illegible)
          rw [ite_self] at read
          obtain rfl := Except.ok.inj read
          exact reasons_eq
  · rintro (⟨asked, rfl⟩ | ⟨asked, reasons_eq⟩)
    · exact ⟨false, asked, rfl⟩
    · refine ⟨true, asked, ?_⟩
      simp only [hashable, if_true, Bool.not_true, if_false, Bool.false_eq_true]
      rw [bind_eq_ok]
      refine ⟨refused, reasons_eq, ?_⟩
      by_cases legible : (bid.get (str "offer")).record?.isSome = true
      · rw [if_pos (Or.inr legible)]
        rfl
      · have illegible := rowReasons_illegible rostered
          (Option.not_isSome_iff_eq_none.mp legible)
        obtain rfl := Except.ok.inj (reasons_eq.symm.trans illegible)
        rfl

/-! ## The provenance wall -/

variable (text) in
omit [DecidableEq F] [Unicode] in
theorem eligibilityReasons_returns {storeId : Wire F} :
    (∃ r, eligibilityReasons text storeId [] = .ok r) ↔ storeId.writable = true := by
  rw [← @Wire.write_returns F text]
  cases storeId with
  | string id => exact iff_of_true ⟨_, rfl⟩ ⟨_, rfl⟩
  | _ => exact bind_returns.trans ⟨fun ⟨s, written, _⟩ => ⟨s, written⟩, fun ⟨s, written⟩ => ⟨s, written, _, rfl⟩⟩

variable {model : Wire F → Option (List Str)} {truth : Wire F → Str} {clock : DateTime}
  {deadline : Extended F}

theorem provenanceRefusal_returns {bid : Wire F} :
    (∃ r, provenanceRefusal text model truth clock bid deadline = .ok r) ↔
      ((bid.get (str "offer")).record?.isSome → Converts bid (bid.get (str "offer"))) ∧
        Wire.writable (bid.get (str "store_id")) = true := by
  rw [← offerPriceReasons_returns rowConverts_none, ← eligibilityReasons_returns text]
  have hosted : ¬ hostedPath ∉ bidPaths := not_not.mpr List.mem_cons_self
  unfold provenanceRefusal validateBid
  simp only [if_neg hosted]
  constructor
  · rintro ⟨reasons, read⟩
    obtain ⟨verdict, read, -⟩ := bind_eq_ok.mp read
    obtain ⟨price, price_eq, read⟩ := bind_eq_ok.mp read
    obtain ⟨eligibility, eligibility_eq, -⟩ := bind_eq_ok.mp read
    exact ⟨⟨price, price_eq⟩, eligibility, eligibility_eq⟩
  · rintro ⟨⟨price, price_eq⟩, eligibility, eligibility_eq⟩
    have none : Boundary.rosterRow (bid.get (str "offer")) [] = none := rfl
    rw [none, price_eq, eligibility_eq]
    exact ⟨_, rfl⟩

/-! ## One entry -/

omit [Format F] [DecidableEq F] [Unicode] in
def iterable : Wire F → Bool
  | .array _ | .object _ | .string _ => true
  | _ => false

omit [DecidableEq F] [Unicode] in
theorem itemsOrNone_returns {v : Wire F} :
    (∃ items, Wire.itemsOrNone v = .ok items) ↔ (v.truthy = true → iterable v = true) := by
  unfold Wire.itemsOrNone
  by_cases filled : v.truthy = true
  · rw [if_pos filled]
    cases v <;> simp_all [Wire.items, iterable]
  · rw [if_neg filled]
    exact iff_of_true ⟨_, rfl⟩ fun full => absurd full filled

omit [Format F] [DecidableEq F] [Unicode] in
/-- The tier a row states; a row that states none is on the first. -/
def tierOf (rostered : Rostered F) : Wire F :=
  (Dict.get? rostered.fields (str "tier")).getD (.number (.integer 1))

def wholeOf (stated : Wire F) : Except PyError Int := do
  match ← Wire.finiteNumber stated with
  | some (.finite x) => return truncate (Format.value x)
  | _ => return 0

def tierFrom : Wire F → Except PyError Int
  | .string stated =>
      match (NumberText.readFloat? stated : Option (Extended F)) with
      | none => .ok 0
      | some number => wholeOf (.number (.double number))
  | stated => wholeOf stated

omit [DecidableEq F] in
theorem tier_eq (rostered : Rostered F) : tier rostered = tierFrom (tierOf rostered) := by
  show (match tierOf rostered with | .string stated => _ | stated => _) = _
  cases tierOf rostered <;> rfl

omit [DecidableEq F] [Unicode] in
theorem wholeOf_returns {stated : Wire F} :
    (∃ t, wholeOf stated = .ok t) ↔ stated.huge = false := by
  rw [← Wire.finiteNumber_returns, wholeOf, bind_returns]
  constructor
  · rintro ⟨number, read, -⟩
    exact ⟨number, read⟩
  · rintro ⟨number, read⟩
    refine ⟨number, read, ?_⟩
    split <;> exact ⟨_, rfl⟩

omit [DecidableEq F] in
theorem tier_returns {rostered : Rostered F} :
    (∃ t, tier rostered = .ok t) ↔ Wire.huge (tierOf rostered) = false := by
  rw [tier_eq]
  cases tierOf rostered with
  | string stated =>
      refine iff_of_true ?_ rfl
      rw [tierFrom]
      split
      · exact ⟨_, rfl⟩
      · exact wholeOf_returns.mpr rfl
  | _ => exact wholeOf_returns

omit [Format F] [DecidableEq F] [Unicode] in
theorem tierOf_eq {rostered : Rostered F} {n : Int}
    (stated : rostered.get (str "tier") = .number (.integer n)) :
    tierOf rostered = rostered.get (str "tier") := by
  unfold Rostered.get at stated ⊢
  unfold tierOf
  cases found : Dict.get? rostered.fields (str "tier") with
  | none =>
      rw [found] at stated
      cases stated
  | some v => rfl

variable (text model truth clock deadline) in
/-- The collection can make something of the answer to a row. -/
structure Digestible (bid : Wire F) (rostered : Rostered F) : Prop where
  /-- The numbers of its offer convert. -/
  converts : (bid.get (str "offer")).record?.isSome → Converts bid (bid.get (str "offer"))
  /-- Its store can be written, where the price wall has nothing against it. -/
  attributed : priceRefusal text bid rostered = .ok [] →
    Wire.writable (bid.get (str "store_id")) = true
  /-- Its claims can be listed, where neither wall has anything against it. -/
  listed : priceRefusal text bid rostered = .ok [] →
    provenanceRefusal text model truth clock bid deadline = .ok [] →
    Wire.truthy (bid.get (str "claims")) = true → iterable (bid.get (str "claims")) = true

omit [DecidableEq F] [Unicode] in
variable (text) in
theorem isJudged_returns {offer : Wire F} {rostered : Rostered F}
    (depth : (depthOf offer).huge = false) (prices : PricesConvert offer)
    (listed : Wire.huge (rostered.get (str "list_price")) = false) :
    ∃ judged, isJudged text offer rostered = .ok judged := by
  obtain ⟨declares, declares_eq⟩ := declaresADiscount_returns.mpr depth
  obtain ⟨nothing, nothing_eq⟩ := pricedAtNothing_returns prices listed
  obtain ⟨unreadable, unreadable_eq⟩ := priceIsUnreadable_returns prices
  obtain ⟨under, under_eq⟩ := belowThePriceFloor_returns prices listed
  unfold isJudged
  rw [declares_eq, nothing_eq, unreadable_eq, under_eq]
  cases declares
  · by_cases stated : statesAnAuthorizedDepth rostered = true
    · exact ⟨true, by rw [stated]; rfl⟩
    · rw [Bool.not_eq_true] at stated
      rw [stated]
      cases nothing <;> cases unreadable <;> cases under <;> exact ⟨_, rfl⟩
  · exact ⟨true, rfl⟩

theorem priceRefusal_returns {bid : Wire F} {rostered : Rostered F} (formed : Catalogued rostered)
    (converts : (bid.get (str "offer")).record?.isSome → Converts bid (bid.get (str "offer"))) :
    ∃ refused, priceRefusal text bid rostered = .ok refused := by
  have numbers : (depthOf (bid.get (str "offer"))).huge = false ∧
      PricesConvert (bid.get (str "offer")) := by
    cases legible : (bid.get (str "offer")).record? with
    | some members =>
        obtain ⟨depth, unit, total, -⟩ := converts (by rw [legible]; rfl)
        exact ⟨depth, unit, total⟩
    | none =>
        generalize bid.get (str "offer") = offer at legible
        cases offer with
        | object members => cases legible
        | _ => exact ⟨rfl, rfl, rfl⟩
  obtain ⟨judged, judged_eq⟩ := isJudged_returns text numbers.1 numbers.2 formed.listed
  cases judged with
  | false => exact ⟨[], (priceRefusal_eq_ok formed.hashable).mpr (Or.inl ⟨judged_eq, rfl⟩)⟩
  | true =>
      obtain ⟨reasons, reasons_eq⟩ := (offerPriceReasons_returns
        (formed.rowConverts (bid.get (str "offer")) (rostered.get (str "product_ref")))).mpr converts
      exact ⟨reasons, (priceRefusal_eq_ok formed.hashable).mpr (Or.inr ⟨judged_eq, reasons_eq⟩)⟩

theorem converts_of_refusal {bid : Wire F} {rostered : Rostered F} {refused : List Str}
    (formed : Catalogued rostered) (priced : priceRefusal text bid rostered = .ok refused)
    (traced : refused = [] → ∃ r, provenanceRefusal text model truth clock bid deadline = .ok r) :
    (bid.get (str "offer")).record?.isSome → Converts bid (bid.get (str "offer")) := by
  rcases (priceRefusal_eq_ok formed.hashable).mp priced with ⟨-, rfl⟩ | ⟨-, reasons_eq⟩
  · exact (provenanceRefusal_returns.mp (traced rfl)).1
  · exact (offerPriceReasons_returns (formed.rowConverts _ _)).mp ⟨_, reasons_eq⟩

variable (deadline) in
omit [DecidableEq F] [Unicode] in
theorem listPriceBid_returns {rostered : Rostered F} (formed : Catalogued rostered)
    (auctionId : Option Str) : ∃ bid, listPriceBid rostered auctionId deadline = .ok bid := by
  unfold listPriceBid
  rw [Wire.finiteNumber_eq_ok.mpr ⟨formed.listed, rfl⟩]
  exact ⟨_, rfl⟩

variable (text model truth clock deadline) in
theorem entryFor_returns {arrivals : Arrivals F} {rostered : Rostered F} (auctionId : Option Str)
    (formed : Catalogued rostered) (stamped : ∀ answer,
      Dict.get? arrivals.onTime rostered.storeId = some answer →
        ∃ x, answer.receivedAt = .number (.double x)) :
    (∃ entry, entryFor text model truth clock deadline arrivals auctionId rostered = .ok entry) ↔
      (∃ t, tier rostered = .ok t) ∧ ∀ t answer, tier rostered = .ok t → 0 < t →
        Dict.get? arrivals.onTime rostered.storeId = some answer →
          Digestible text model truth clock deadline answer.bid rostered := by
  obtain ⟨listPrice, listed⟩ : ∃ listPrice, listedPrice rostered = .ok listPrice := by
    unfold listedPrice
    rw [Wire.finiteNumber_eq_ok.mpr ⟨formed.listed, rfl⟩]
    exact ⟨_, rfl⟩
  unfold entryFor
  simp only [bind_returns, listed]
  constructor
  · rintro ⟨t, tier_eq, o, outcome_eq, listPrice, -, made⟩
    refine ⟨⟨t, tier_eq⟩, fun t' answer same positive found => ?_⟩
    obtain rfl := Except.ok.inj (tier_eq.symm.trans same)
    obtain ⟨refused, priced, rest⟩ := (outcome_answered positive found).mp outcome_eq
    have traced : refused = [] →
        ∃ r, provenanceRefusal text model truth clock answer.bid deadline = .ok r := by
      rintro rfl
      obtain ⟨refuses, -⟩ | ⟨-, unprovenanced, traced, -⟩ := rest
      · exact absurd rfl refuses
      · exact ⟨unprovenanced, traced⟩
    refine ⟨converts_of_refusal formed priced traced, fun admitted => ?_, fun admitted clean => ?_⟩
    · obtain rfl := Except.ok.inj (priced.symm.trans admitted)
      exact (provenanceRefusal_returns.mp (traced rfl)).2
    · obtain rfl := Except.ok.inj (priced.symm.trans admitted)
      obtain ⟨refuses, -⟩ | ⟨-, unprovenanced, traced, ⟨other, -⟩ | ⟨-, rfl⟩⟩ := rest
      · exact absurd rfl refuses
      · exact absurd (Except.ok.inj (traced.symm.trans clean)) other
      · obtain ⟨receivedAt, -, made⟩ := bind_returns.mp made
        obtain ⟨claims, claims_eq, -⟩ := bind_returns.mp made
        exact itemsOrNone_returns.mp ⟨claims, claims_eq⟩
  · rintro ⟨⟨t, tier_eq⟩, digests⟩
    refine ⟨t, tier_eq, ?_⟩
    obtain ⟨bid, bid_eq⟩ := listPriceBid_returns deadline formed auctionId
    rcases le_or_gt t 0 with idle | positive
    · obtain ⟨reason, outcome_eq⟩ := outcome_unanswered text model truth clock deadline
        (Or.inl idle : t ≤ 0 ∨ Dict.get? arrivals.onTime rostered.storeId = none)
      exact ⟨_, outcome_eq, _, rfl, bind_returns.mpr ⟨bid, bid_eq, _, rfl⟩⟩
    · cases found : Dict.get? arrivals.onTime rostered.storeId with
      | none =>
          obtain ⟨reason, outcome_eq⟩ := outcome_unanswered text model truth clock deadline
            (Or.inr found : t ≤ 0 ∨ _)
          exact ⟨_, outcome_eq, _, rfl, bind_returns.mpr ⟨bid, bid_eq, _, rfl⟩⟩
      | some answer =>
          obtain ⟨converts, attributed, listable⟩ := digests t answer tier_eq positive found
          obtain ⟨refused, priced⟩ := priceRefusal_returns formed converts
          by_cases admitted : refused = []
          · subst admitted
            obtain ⟨unprovenanced, traced⟩ := provenanceRefusal_returns.mpr
              ⟨converts, attributed priced⟩
            by_cases clean : unprovenanced = []
            · subst clean
              obtain ⟨claims, claims_eq⟩ := itemsOrNone_returns.mpr (listable priced traced)
              obtain ⟨x, stamp⟩ := stamped answer found
              have arrived : Wire.toDouble answer.receivedAt = .ok x := by
                rw [stamp]
                rfl
              exact ⟨_, (outcome_answered positive found).mpr
                ⟨[], priced, Or.inr ⟨rfl, [], traced, Or.inr ⟨rfl, rfl⟩⟩⟩, _, rfl,
                bind_returns.mpr ⟨x, arrived, bind_returns.mpr ⟨claims, claims_eq, _, rfl⟩⟩⟩
            · exact ⟨_, (outcome_answered positive found).mpr ⟨[], priced, Or.inr
                ⟨rfl, unprovenanced, traced, Or.inl ⟨clean, rfl⟩⟩⟩, _, rfl,
                bind_returns.mpr ⟨bid, bid_eq, _, rfl⟩⟩
          · exact ⟨_, (outcome_answered positive found).mpr ⟨refused, priced,
              Or.inl ⟨admitted, rfl⟩⟩, _, rfl, bind_returns.mpr ⟨bid, bid_eq, _, rfl⟩⟩

/-! ## The whole collection -/

/-- The arrival is the exchange's own clock reading, or there is none. -/
def Stamped (response : Response F) : Prop :=
  response.receivedAt = .null ∨ ∃ x, response.receivedAt = .number (.double x)

omit [DecidableEq F] in
theorem unusableBecause_returns {response : Response F} (stamped : Stamped response) :
    ∃ reason, unusableBecause response deadline = .ok reason := by
  unfold unusableBecause
  split
  · exact ⟨_, rfl⟩
  · split_ifs
    · exact ⟨_, rfl⟩
    · exact ⟨_, rfl⟩
    · exact ⟨_, rfl⟩
    · exact ⟨_, rfl⟩
    · exact ⟨_, rfl⟩
    · rename_i dated
      obtain ⟨x, stamp⟩ := stamped.resolve_left fun null => dated (Json.isNull_iff.mpr null)
      rw [stamp]
      show ∃ reason, ite _ _ _ = Except.ok reason
      split <;> exact ⟨_, rfl⟩

omit [DecidableEq F] in
theorem usable_bid {response : Response F} (good : usable deadline response = true) :
    response.bid.record?.isSome ∧ response.receivedAt ≠ .null := by
  unfold usable unusableBecause at good
  split at good
  · rename_i clean
    split at clean
    · cases clean
    · split_ifs at clean
      iterate 5 cases clean
      rename_i bidless undated
      rw [Option.isNone_iff_eq_none, ← ne_eq, ← Option.isSome_iff_ne_none] at bidless
      exact ⟨bidless, fun null => undated (Json.isNull_iff.mpr null)⟩
  · cases good

omit [Format F] [DecidableEq F] [Unicode] in
theorem namedAuction_returns {response : Response F} : (∃ named, namedAuction text response = .ok named) ↔
    Wire.writable (response.bid.get (str "auction_id")) = true := by
  unfold namedAuction
  by_cases absent : (response.bid.get (str "auction_id")).isNull = true
  · rw [Json.isNull_iff.mp absent]
    exact iff_of_true ⟨_, rfl⟩ (by simp [Wire.writable])
  · simp only [absent, if_false, Bool.false_eq_true, bind_returns, ← @Wire.write_returns F text]
    constructor
    · rintro ⟨s, written, _⟩
      exact ⟨s, written⟩
    · rintro ⟨s, written⟩
      exact ⟨s, written, _, rfl⟩

theorem storeIds_eq {arrivals : Arrivals F} {auctionId : Option Str} {roster : List (Rostered F)}
    {entries : List (BidEntry F)} (made : List.Forall₂ (fun rostered entry =>
      entryFor text model truth clock deadline arrivals auctionId rostered = .ok entry) roster entries) :
    entries.map BidEntry.storeId = roster.map Rostered.storeId := by
  induction made with
  | nil => rfl
  | cons head _ ih => rw [List.map_cons, List.map_cons, ih, (entryFor_cases head).1]

variable (text model truth clock) in
/-- Every tier converts, every answer on time names its auction by something that can be written, and
every answer that is read is digestible. -/
structure Collectable (roster : List (Rostered F)) (responses : List (Response F))
    (now : Extended F) : Prop where
  tiers : ∀ rostered ∈ roster, Wire.huge (rostered.get (str "tier")) = false
  named : ∀ storeId answer, answerOf now storeId responses = some answer →
    Wire.writable (answer.bid.get (str "auction_id")) = true
  digested : ∀ rostered ∈ roster, ∀ t answer, tier rostered = .ok t → 0 < t →
    answerOf now rostered.storeId responses = some answer →
      Digestible text model truth clock now answer.bid rostered

/-- A collection returns exactly when every tier is read, every answer on time names its auction and
every answer that is read is digestible. -/
theorem collectBids_returns {roster : List (Rostered F)} {responses : List (Response F)}
    {now : Extended F} (formed : ∀ rostered ∈ roster, Catalogued rostered)
    (stamped : ∀ response ∈ responses, Stamped response) :
    (∃ entries, collectBids text model truth clock roster responses now = .ok entries) ↔
      (∀ rostered ∈ roster, ∃ t, tier rostered = .ok t) ∧
        (∀ storeId answer, answerOf now storeId responses = some answer →
          Wire.writable (answer.bid.get (str "auction_id")) = true) ∧
        ∀ rostered ∈ roster, ∀ t answer, tier rostered = .ok t → 0 < t →
          answerOf now rostered.storeId responses = some answer →
            Digestible text model truth clock now answer.bid rostered := by
  obtain ⟨arrivals, walked⟩ : ∃ arrivals, responses.foldlM (arrive now) ⟨[], []⟩ = .ok arrivals :=
    arrivals_returns.mpr fun response member _ => unusableBecause_returns (stamped response member)
  have answers (storeId : Str) := (arrivals_get walked storeId).1
  have dated {storeId : Str} {answer : Response F}
      (found : answerOf now storeId responses = some answer) :
      ∃ x, answer.receivedAt = .number (.double x) := by
    have good := List.find?_some found
    simp only [Bool.decide_and, Bool.decide_eq_true, Bool.and_eq_true] at good
    exact (stamped answer (List.mem_of_find?_eq_some found)).resolve_left (usable_bid good.2).2
  have rows (auctionId : Option Str) : (∀ rostered ∈ roster, ∃ entry,
        entryFor text model truth clock now arrivals auctionId rostered = .ok entry) ↔
      (∀ rostered ∈ roster, ∃ t, tier rostered = .ok t) ∧
        ∀ rostered ∈ roster, ∀ t answer, tier rostered = .ok t → 0 < t →
          answerOf now rostered.storeId responses = some answer →
            Digestible text model truth clock now answer.bid rostered := by
    have one (rostered : Rostered F) (member : rostered ∈ roster) :=
      entryFor_returns text model truth clock now auctionId (formed rostered member)
        (fun answer found => dated ((answers rostered.storeId).symm.trans found))
    constructor
    · intro made
      refine ⟨fun rostered member => ((one rostered member).mp (made rostered member)).1, ?_⟩
      intro rostered member t answer tiered positive found
      exact ((one rostered member).mp (made rostered member)).2 t answer tiered positive
        ((answers rostered.storeId).trans found)
    · rintro ⟨tiers, digested⟩ rostered member
      refine (one rostered member).mpr ⟨tiers rostered member, ?_⟩
      intro t answer tiered positive found
      exact digested rostered member t answer tiered positive
        ((answers rostered.storeId).symm.trans found)
  have names : (∃ named, (Dict.values arrivals.onTime).mapM (namedAuction text) = .ok named) ↔
      ∀ storeId answer, answerOf now storeId responses = some answer →
        Wire.writable (answer.bid.get (str "auction_id")) = true := by
    rw [mapM_returns]
    simp only [namedAuction_returns, mem_onTime walked]
    exact ⟨fun all storeId answer found => all answer ⟨storeId, found⟩,
      fun all answer ⟨storeId, found⟩ => all storeId answer found⟩
  constructor
  · rintro ⟨entries, made⟩
    obtain ⟨arrivals', walked', made⟩ := bind_eq_ok.mp made
    obtain rfl := Except.ok.inj (walked.symm.trans walked')
    obtain ⟨named, named_eq, made⟩ := bind_eq_ok.mp made
    obtain ⟨tiers, digested⟩ := (rows _).mp (mapM_returns.mp ⟨entries, made⟩)
    exact ⟨tiers, names.mp ⟨named, named_eq⟩, digested⟩
  · rintro ⟨tiers, writable, digested⟩
    obtain ⟨named, named_eq⟩ := names.mpr writable
    obtain ⟨entries, made⟩ := mapM_returns.mpr ((rows (agreed named)).mpr ⟨tiers, digested⟩)
    exact ⟨entries, bind_eq_ok.mpr ⟨arrivals, walked, bind_eq_ok.mpr ⟨named, named_eq, made⟩⟩⟩

theorem collectBids_storeIds {roster : List (Rostered F)} {responses : List (Response F)}
    {now : Extended F} {entries : List (BidEntry F)}
    (made : collectBids text model truth clock roster responses now = .ok entries) :
    entries.map BidEntry.storeId = roster.map Rostered.storeId := by
  obtain ⟨arrivals, auctionId, -, made⟩ := collectBids_rows made
  exact storeIds_eq (mapM_eq_ok.mp made)

/-- A collection returns one entry for each row exactly when what it reads is collectable. -/
theorem collectBids_answers_iff (text : Wire F → Str) (model : Wire F → Option (List Str))
    (truth : Wire F → Str) (clock : DateTime) (roster : List (Rostered F))
    (responses : List (Response F)) (now : Extended F)
    (formed : ∀ rostered ∈ roster, WellFormed rostered)
    (stamped : ∀ response ∈ responses, Stamped response) :
    (∃ entries, collectBids text model truth clock roster responses now = .ok entries ∧
        entries.map BidEntry.storeId = roster.map Rostered.storeId) ↔
      Collectable text model truth clock roster responses now := by
  have tiered (rostered : Rostered F) (member : rostered ∈ roster) :
      (∃ t, tier rostered = .ok t) ↔ Wire.huge (rostered.get (str "tier")) = false := by
    obtain ⟨n, stated⟩ := (formed rostered member).tier
    rw [tier_returns, tierOf_eq stated]
  have returns := @collectBids_returns F _ _ _ text model truth clock roster responses now
    (fun rostered member => (formed rostered member).catalogued) stamped
  constructor
  · rintro ⟨entries, made, -⟩
    obtain ⟨tiers, named, digested⟩ := returns.mp ⟨entries, made⟩
    exact ⟨fun rostered member => (tiered rostered member).mp (tiers rostered member), named, digested⟩
  · rintro ⟨tiers, named, digested⟩
    obtain ⟨entries, made⟩ := returns.mpr
      ⟨fun rostered member => (tiered rostered member).mpr (tiers rostered member), named, digested⟩
    exact ⟨entries, made, collectBids_storeIds made⟩

end Walls

/-! ## A price that ends the collection -/

def hundred : Binary64 := ⟨100, 100, 0, by norm_num, by norm_num, by norm_num, by decide +kernel⟩

def listedRow : Rostered Binary64 where
  storeId := str "store-1"
  fields := [(str "store_id", .string (str "store-1")), (str "tier", .number (.integer 1)),
    (str "product_ref", .string (str "prod-1")), (str "list_price", .number (.double (.finite hundred)))]

theorem listedRow_wellFormed : WellFormed listedRow where
  tier := ⟨1, rfl⟩
  productRef := Or.inr ⟨_, rfl⟩
  listPrice := ⟨hundred, rfl, by decide⟩
  maxDiscountPct := Or.inl rfl

def answering (bid : Wire Binary64) : Response Binary64 where
  storeId := some (str "store-1")
  refusal := none
  timedOut := false
  notAsked := false
  noAgent := false
  receivedAt := .number (.double (.finite hundred))
  bid

def pricedOffer (price : Wire Binary64) : Wire Binary64 :=
  .object [(str "product_ref", .string (str "prod-1")), (str "unit_price", price),
    (str "total_price", price)]

def pricedBid (price : Wire Binary64) : Wire Binary64 := .object [(str "offer", pricedOffer price)]

def epoch : DateTime where
  year := 1970
  month := 1
  day := 1
  hour := 0
  minute := 0
  second := 0
  microsecond := 0
  offset := some 0
  valid := by decide

theorem single_of_read {α β : Type} {result : Except PyError (List α)} {f : α → β} {b : β}
    (read : result.toOption.map (List.map f) = some [b]) : ∃ a, result = .ok [a] ∧ f a = b := by
  cases result with
  | error e => cases read
  | ok all =>
      obtain ⟨a, rfl, same⟩ := List.map_eq_singleton_iff.mp (Option.some.inj read)
      exact ⟨a, rfl, same⟩

/-- A price no double holds ends the collection. -/
theorem vastPrice_ends_collection : letI := Unicode.ascii
    (∀ rostered ∈ [listedRow], WellFormed rostered) ∧
      (∀ response ∈ [answering (pricedBid (.number (.integer (10 ^ 400))))], Stamped response) ∧
      ¬ ∃ entries, collectBids (fun _ => []) (fun _ => some []) (fun _ => []) epoch [listedRow]
        [answering (pricedBid (.number (.integer (10 ^ 400))))] (.finite hundred) = .ok entries := by
  let _ := Unicode.ascii
  refine ⟨?_, ?_, ?_⟩
  · exact List.forall_mem_singleton.mpr listedRow_wellFormed
  · exact List.forall_mem_singleton.mpr (Or.inr ⟨_, rfl⟩)
  · have raised : (collectBids (fun _ => []) (fun _ => some []) (fun _ => []) epoch [listedRow]
        [answering (pricedBid (.number (.integer (10 ^ 400))))] (.finite hundred)).isOk = false := by
      decide +kernel
    rintro ⟨entries, made⟩
    rw [made] at raised
    cases raised

theorem listPrice_collected : letI := Unicode.ascii
    (∀ rostered ∈ [listedRow], WellFormed rostered) ∧
      (∀ response ∈ [answering (pricedBid (.number (.integer 100)))], Stamped response) ∧
      ((∃ entries, collectBids (fun _ => []) (fun _ => some []) (fun _ => []) epoch [listedRow]
          [answering (pricedBid (.number (.integer 100)))] (.finite hundred) = .ok entries ∧
          entries.map BidEntry.storeId = [listedRow].map Rostered.storeId) ↔
        Collectable (fun _ => []) (fun _ => some []) (fun _ => []) epoch [listedRow]
          [answering (pricedBid (.number (.integer 100)))] (.finite hundred)) := by
  let _ := Unicode.ascii
  have formed : ∀ rostered ∈ [listedRow], WellFormed rostered :=
    List.forall_mem_singleton.mpr listedRow_wellFormed
  have stamped : ∀ response ∈ [answering (pricedBid (.number (.integer 100)))], Stamped response :=
    List.forall_mem_singleton.mpr (Or.inr ⟨_, rfl⟩)
  exact ⟨formed, stamped, collectBids_answers_iff _ _ _ epoch _ _ (.finite hundred) formed stamped⟩

end Proxyshop.Auction.Collect
