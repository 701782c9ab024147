import Proxyshop.Contracts.Boundary
import Proxyshop.Structures.Fallible

/-!
# The numbers the boundary converts

Every exception of the price walk comes from one of six places: the depth, the two prices, the list
prices the claims carry, the cap and the list price of the roster.
-/

namespace Proxyshop.Contracts.Boundary

open Python Numbers Structures

variable {F : Type} [Format F] [DecidableEq F] [Unicode]

omit [Format F] [DecidableEq F] [Unicode] in
def depthOf (offer : Wire F) : Wire F := (offer.get (str "discount")).get (str "value")

def carriedClaims (bid offer : Wire F) : List (Wire F) :=
  listPriceClaims (bid.get (str "claims")) ++ listPriceClaims (offer.get (str "commitments"))

/-- The depth and the refusals of an offer whose depth converts. -/
def declared (offer : Wire F) : Option (Extended F) × List Str :=
  if (offer.get (str "discount")).isNull then (some 0.0, [])
  else declaredBy ((offer.get (str "discount")).get (str "type")) (Wire.amount (depthOf offer))

theorem declaredDepth_eq_ok {offer : Wire F} {r : Option (Extended F) × List Str} :
    declaredDepth offer = .ok r ↔ (depthOf offer).huge = false ∧ declared offer = r := by
  unfold declaredDepth declared
  by_cases absent : (offer.get (str "discount")).isNull = true
  · have small : (depthOf offer).huge = false := by
      rw [depthOf, Json.isNull_iff.mp absent]
      rfl
    simp [absent, small]
  · simp only [absent, if_false, Bool.false_eq_true]
    rw [bind_eq_ok]
    simp only [Wire.finiteNumber_eq_ok]
    constructor
    · rintro ⟨_, ⟨small, rfl⟩, read⟩
      exact ⟨small, Except.ok.inj read⟩
    · rintro ⟨small, rfl⟩
      exact ⟨_, ⟨small, rfl⟩, rfl⟩

omit [DecidableEq F] [Unicode] in
theorem readableListPrice_eq_ok {claim : Wire F} {listed : Option (Extended F)} :
    readableListPrice claim = .ok listed ↔ Wire.huge (claim.get (str "value")) = false ∧
      (Wire.amount (claim.get (str "value"))).filter (fun listed => ¬ listed < 0.0) = listed := by
  unfold readableListPrice
  rw [bind_eq_ok]
  simp only [Wire.finiteNumber_eq_ok]
  constructor
  · rintro ⟨_, ⟨small, rfl⟩, read⟩
    exact ⟨small, Except.ok.inj read⟩
  · rintro ⟨small, rfl⟩
    exact ⟨_, ⟨small, rfl⟩, rfl⟩

omit [Unicode] in
theorem carriedListPrice_returns {bid offer : Wire F} :
    (∃ r, carriedListPrice bid offer = .ok r) ↔
      ∀ claim ∈ carriedClaims bid offer, Wire.huge (claim.get (str "value")) = false := by
  have one (claim : Wire F) : (∃ listed, readableListPrice claim = .ok listed) ↔
      Wire.huge (claim.get (str "value")) = false := by
    simp [readableListPrice_eq_ok]
  simp only [← one]
  rw [← mapM_returns]
  unfold carriedListPrice carriedClaims
  simp only [bind_returns]
  exact ⟨fun ⟨stated, read, _⟩ => ⟨stated, read⟩, fun ⟨stated, read⟩ => ⟨stated, read, _, rfl⟩⟩

/-! ## The roster and the cap -/

def capOf (row : Option (Wire F)) (maxDiscountPct : Wire F) : Wire F :=
  let stated := row.elim .null fun row => row.record.get maxDiscountRosterKey
  if stated.isNull then maxDiscountPct else stated

omit [DecidableEq F] [Unicode] in
theorem authorizedDepth_returns {row : Option (Wire F)} {maxDiscountPct : Wire F} :
    (∃ r, authorizedDepth row maxDiscountPct = .ok r) ↔ (capOf row maxDiscountPct).huge = false := by
  unfold authorizedDepth
  change (∃ r, (if (capOf row maxDiscountPct).isNull then _ else _) = _) ↔ _
  by_cases unstated : (capOf row maxDiscountPct).isNull = true
  · rw [if_pos unstated, Json.isNull_iff.mp unstated]
    exact iff_of_true ⟨_, rfl⟩ rfl
  · rw [if_neg unstated, bind_returns, ← Wire.finiteNumber_returns]
    exact ⟨fun ⟨cap, read, _⟩ => ⟨cap, read⟩, fun ⟨cap, read⟩ => ⟨cap, read, _, rfl⟩⟩

/-- The list price of a row converts: the row itself, or the one its record states. -/
structure ListConverts (row : Wire F) : Prop where
  itself : row.huge = false
  stated : row.amount = none → Wire.huge (row.record.get listPriceClaimKey) = false

omit [DecidableEq F] [Unicode] in
theorem rosterListPrice_returns {row : Option (Wire F)} :
    (∃ r, rosterListPrice row = .ok r) ↔ ∀ r ∈ row, ListConverts r := by
  cases row with
  | none => exact iff_of_true ⟨_, rfl⟩ nofun
  | some row =>
      simp only [rosterListPrice, bind_returns, Option.mem_some_iff, forall_eq', Wire.finiteNumber_eq_ok]
      constructor
      · rintro ⟨_, ⟨small, rfl⟩, read⟩
        refine ⟨small, fun unpriced => ?_⟩
        rw [unpriced] at read
        obtain ⟨stated, read, -⟩ := bind_returns.mp read
        exact (Wire.finiteNumber_eq_ok.mp read).1
      · rintro ⟨small, stated⟩
        refine ⟨row.amount, ⟨small, rfl⟩, ?_⟩
        cases priced : row.amount with
        | some listed => exact ⟨_, rfl⟩
        | none => exact bind_returns.mpr ⟨_, Wire.finiteNumber_eq_ok.mpr ⟨stated priced, rfl⟩, _, rfl⟩

structure RowConverts (row : Option (Wire F)) : Prop where
  cap : ∃ r, authorizedDepth row .null = .ok r
  listed : ∃ r, rosterListPrice row = .ok r

omit [DecidableEq F] [Unicode] in
theorem rowConverts_none : RowConverts (none : Option (Wire F)) := ⟨⟨_, rfl⟩, ⟨_, rfl⟩⟩

/-! ## The walk -/

/-- The depth and the unit price of the offer are readable, so that there is arithmetic left to do. -/
def Arithmetic (offer : Wire F) : Prop :=
  ∃ depth price, (declared offer).1 = some depth ∧ Wire.amount (offer.get (str "unit_price")) = some price ∧
    ¬ price < 0.0

/-- The numbers that the walk reads of a bid and its offer convert; the list prices carried are read
only when the depth and the unit price are readable. -/
structure Converts (bid offer : Wire F) : Prop where
  depth : (depthOf offer).huge = false
  unitPrice : Wire.huge (offer.get (str "unit_price")) = false
  totalPrice : Wire.huge (offer.get (str "total_price")) = false
  carried : ∀ depth price, (declared offer).1 = some depth →
    Wire.amount (offer.get (str "unit_price")) = some price → ¬ price < 0.0 →
    ∀ claim ∈ carriedClaims bid offer, Wire.huge (claim.get (str "value")) = false

theorem offerPriceReasons_returns_iff {bid offer : Wire F} {row : Option (Wire F)} {maxDiscountPct : Wire F} :
    (∃ r, offerPriceReasons bid offer row maxDiscountPct = .ok r) ↔
      (offer.record?.isSome → Converts bid offer ∧ (Arithmetic offer →
        (capOf row maxDiscountPct).huge = false ∧ ∀ r ∈ row, ListConverts r)) := by
  unfold offerPriceReasons
  cases offer.record? with
  | none => exact iff_of_true ⟨_, rfl⟩ nofun
  | some members =>
      simp only [Option.isSome_some, forall_const]
      constructor
      · rintro ⟨reasons, read⟩
        obtain ⟨depth, depth_eq, read⟩ := bind_eq_ok.mp read
        obtain ⟨unit, unit_eq, read⟩ := bind_eq_ok.mp read
        obtain ⟨total, total_eq, read⟩ := bind_eq_ok.mp read
        obtain ⟨small, rfl⟩ := declaredDepth_eq_ok.mp depth_eq
        obtain ⟨unit_small, rfl⟩ := Wire.finiteNumber_eq_ok.mp unit_eq
        obtain ⟨total_small, rfl⟩ := Wire.finiteNumber_eq_ok.mp total_eq
        refine ⟨⟨small, unit_small, total_small, fun depth price readable priced positive => ?_⟩, ?_⟩
        · simp only [readable, priced, positive, if_false] at read
          obtain ⟨_, -, read⟩ := bind_eq_ok.mp read
          obtain ⟨carried, carried_eq, -⟩ := bind_eq_ok.mp read
          exact carriedListPrice_returns.mp ⟨carried, carried_eq⟩
        · rintro ⟨depth, price, readable, priced, positive⟩
          simp only [readable, priced, positive, if_false] at read
          obtain ⟨cap, cap_eq, read⟩ := bind_eq_ok.mp read
          obtain ⟨_, -, read⟩ := bind_eq_ok.mp read
          obtain ⟨rostered, rostered_eq, -⟩ := bind_eq_ok.mp read
          exact ⟨authorizedDepth_returns.mp ⟨cap, cap_eq⟩, rosterListPrice_returns.mp ⟨rostered, rostered_eq⟩⟩
      · rintro ⟨⟨small, unit_small, total_small, carried⟩, catalog⟩
        rw [bind_returns]
        refine ⟨_, declaredDepth_eq_ok.mpr ⟨small, rfl⟩, ?_⟩
        rw [bind_returns]
        refine ⟨_, Wire.finiteNumber_eq_ok.mpr ⟨unit_small, rfl⟩, ?_⟩
        rw [bind_returns]
        refine ⟨_, Wire.finiteNumber_eq_ok.mpr ⟨total_small, rfl⟩, ?_⟩
        split
        · rename_i depth price readable priced
          split
          · exact ⟨_, rfl⟩
          · rename_i positive
            obtain ⟨capped, rostered⟩ := catalog ⟨depth, price, readable, priced, positive⟩
            obtain ⟨cap, cap_eq⟩ := authorizedDepth_returns.mpr capped
            obtain ⟨listed, listed_eq⟩ :=
              carriedListPrice_returns.mpr (carried depth price readable priced positive)
            obtain ⟨held, held_eq⟩ := rosterListPrice_returns.mpr rostered
            rw [cap_eq, listed_eq, held_eq]
            exact ⟨_, rfl⟩
        · exact ⟨_, rfl⟩

theorem offerPriceReasons_returns {bid offer : Wire F} {row : Option (Wire F)}
    (converts : RowConverts row) :
    (∃ r, offerPriceReasons bid offer row .null = .ok r) ↔
      (offer.record?.isSome → Converts bid offer) := by
  have cap := authorizedDepth_returns.mp converts.cap
  have listed := rosterListPrice_returns.mp converts.listed
  rw [offerPriceReasons_returns_iff]
  exact forall_congr' fun _ => and_iff_left fun _ => ⟨cap, listed⟩

/-! ## Any bid, any roster, any cap -/

/-- The depth of the offer is readable: no discount, one of zero, or a percentage within its bounds. -/
def DepthReadable (offer : Wire F) : Prop :=
  (offer.get (str "discount")).isNull = true ∨ ∃ depth, Wire.amount (depthOf offer) = some depth ∧
    (depth = 0.0 ∨ spelling ((offer.get (str "discount")).get (str "type")) ∈ percentageDiscountTypes ∧
      ¬ (depth < 0.0 ∨ 100.0 < depth))

theorem depthReadable_iff {offer : Wire F} : DepthReadable offer ↔ ∃ depth, (declared offer).1 = some depth := by
  unfold DepthReadable declared declaredBy
  by_cases absent : (offer.get (str "discount")).isNull = true
  · rw [if_pos absent]
    exact iff_of_true (Or.inl absent) ⟨_, rfl⟩
  · rw [if_neg absent, or_iff_right absent]
    cases Wire.amount (depthOf offer) with
    | none => exact iff_of_false nofun nofun
    | some depth =>
        simp only [Option.some.injEq, exists_eq_left']
        by_cases zero : depth = 0.0
        · rw [if_pos zero]
          exact iff_of_true (Or.inl zero) ⟨_, rfl⟩
        · rw [if_neg zero, or_iff_right zero]
          by_cases kind : spelling ((offer.get (str "discount")).get (str "type")) ∈ percentageDiscountTypes
          · rw [if_neg (not_not.mpr kind), and_iff_right kind]
            by_cases outside : depth < 0.0 ∨ 100.0 < depth
            · rw [if_pos outside]
              exact iff_of_false (not_not.mpr outside) nofun
            · rw [if_neg outside]
              exact iff_of_true outside ⟨_, rfl⟩
          · rw [if_pos kind]
            exact iff_of_false (fun both => kind both.1) nofun

/-- The numbers read only where there is arithmetic to do: the list prices that claims carry, the cap, and
the list price of the roster. -/
structure CatalogInRange (bid offer : Wire F) (row : Option (Wire F)) (maxDiscountPct : Wire F) : Prop where
  carried : ∀ claim ∈ carriedClaims bid offer, Wire.huge (claim.get (str "value")) = false
  cap : (capOf row maxDiscountPct).huge = false
  listed : ∀ r ∈ row, ListConverts r

/-- Every number that the walk converts is within the range of the format. -/
structure InRange (bid offer : Wire F) (row : Option (Wire F)) (maxDiscountPct : Wire F) : Prop where
  depth : (depthOf offer).huge = false
  unitPrice : Wire.huge (offer.get (str "unit_price")) = false
  totalPrice : Wire.huge (offer.get (str "total_price")) = false
  catalog : DepthReadable offer → ∀ price, Wire.amount (offer.get (str "unit_price")) = some price →
    ¬ price < 0.0 → CatalogInRange bid offer row maxDiscountPct

theorem inRange_iff {bid offer : Wire F} {row : Option (Wire F)} {maxDiscountPct : Wire F} :
    InRange bid offer row maxDiscountPct ↔ Converts bid offer ∧ (Arithmetic offer →
      (capOf row maxDiscountPct).huge = false ∧ ∀ r ∈ row, ListConverts r) := by
  constructor
  · rintro ⟨depth, unitPrice, totalPrice, catalog⟩
    refine ⟨⟨depth, unitPrice, totalPrice, fun d price readable priced positive => ?_⟩, ?_⟩
    · exact (catalog (depthReadable_iff.mpr ⟨d, readable⟩) price priced positive).carried
    · rintro ⟨d, price, readable, priced, positive⟩
      obtain ⟨-, cap, listed⟩ := catalog (depthReadable_iff.mpr ⟨d, readable⟩) price priced positive
      exact ⟨cap, listed⟩
  · rintro ⟨⟨depth, unitPrice, totalPrice, carried⟩, catalog⟩
    refine ⟨depth, unitPrice, totalPrice, fun readable price priced positive => ?_⟩
    obtain ⟨d, readable⟩ := depthReadable_iff.mp readable
    obtain ⟨cap, listed⟩ := catalog ⟨d, price, readable, priced, positive⟩
    exact ⟨carried d price readable priced positive, cap, listed⟩

/-- The price wall answers with its reasons exactly where the offer is none or the numbers it converts are
within the range of the format. -/
theorem price_wall_returns_iff (bid : Wire F) (listPrices : Roster F) (maxDiscountPct : Wire F) :
    (∃ reasons, priceReasons bid listPrices maxDiscountPct = .ok reasons) ↔
      ((bid.get (str "offer")).record?.isSome → InRange bid (bid.get (str "offer"))
        (rosterRow (bid.get (str "offer")) listPrices) maxDiscountPct) := by
  rw [priceReasons, offerPriceReasons_returns_iff]
  exact forall_congr' fun _ => inRange_iff.symm

def priceless : Wire Binary64 :=
  .object [(str "offer", .object [(str "unit_price", .number (.integer (10 ^ 400)))])]

omit [Unicode] in
theorem price_wall_raises : letI := Unicode.ascii
    priceReasons priceless [] .null = .error .overflowError := by
  let tables : Unicode := Unicode.ascii
  have beyond : Wire.huge (.number (.integer (10 ^ 400)) : Wire Binary64) = true := by decide +kernel
  have raised : Wire.finiteNumber (.number (.integer (10 ^ 400)) : Wire Binary64) = .error .overflowError := by
    rw [Wire.finiteNumber_eq, if_pos beyond]
  change (Wire.finiteNumber (.number (.integer (10 ^ 400)) : Wire Binary64) >>= _) = _
  rw [raised]
  rfl

end Proxyshop.Contracts.Boundary
