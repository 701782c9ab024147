import Mathlib.Data.List.MinMax
import Mathlib.Data.List.ReduceOption
import Mathlib.Tactic.FieldSimp
import Proxyshop.Ranking.Scoring

/-!
# The features of an auction

What a candidate's price is worth beside the prices of its auction.
-/

namespace Proxyshop.Ranking

open Python Numbers Contracts Structures

/-! ## The price -/

def bandOf (listed : List (Option ℚ)) : Option (ℚ × ℚ) :=
  let priced := listed.reduceOption.filter fun price => 0 < price
  match priced.min?, priced.max? with
  | some low, some high => if priced.length < 2 ∨ high ≤ low then none else some (low, high)
  | _, _ => none

/-- `band_depth`. -/
def bandDepth (band : Option (ℚ × ℚ)) : Option ℚ :=
  match band with
  | none => none
  | some (low, high) => if high ≤ 0 ∨ high ≤ low then none else some ((high - low) / high)

def clamp01 (value : ℚ) : ℚ := clamp 0 1 value

/-- The discount depth of a charged price, saturating at the depth that clears the band. -/
def clearedShare (listed charged : ℚ) (depthToClear : Option ℚ) : ℚ :=
  let depth := clamp01 ((listed - charged) / listed)
  match depthToClear with
  | none => depth
  | some scale => if scale ≤ 0 then depth else clamp01 (depth / scale)

theorem bandDepth_pos {band : Option (ℚ × ℚ)} {depth : ℚ} (spanned : bandDepth band = some depth) :
    0 < depth := by
  unfold bandDepth at spanned
  split at spanned
  · cases spanned
  · split at spanned
    · cases spanned
    · rename_i apart
      obtain ⟨positive, wide⟩ := not_or.mp apart
      rw [← Option.some.inj spanned]
      exact div_pos (sub_pos.mpr (not_le.mp wide)) (not_le.mp positive)

theorem clearedShare_bounds (listed charged : ℚ) (depthToClear : Option ℚ) :
    0 ≤ clearedShare listed charged depthToClear ∧ clearedShare listed charged depthToClear ≤ 1 := by
  unfold clearedShare clamp01
  split
  · exact clamp_bounds zero_le_one _
  · split
    · exact clamp_bounds zero_le_one _
    · exact clamp_bounds zero_le_one _

theorem clearedShare_antitone {listed : ℚ} (positive : 0 < listed) {cheaper charged : ℚ}
    (h : cheaper ≤ charged) (depthToClear : Option ℚ) :
    clearedShare listed charged depthToClear ≤ clearedShare listed cheaper depthToClear := by
  have deeper : clamp01 ((listed - charged) / listed) ≤ clamp01 ((listed - cheaper) / listed) := by
    apply clamp_mono zero_le_one
    apply div_le_div_of_nonneg_right _ positive.le
    linarith
  unfold clearedShare
  split
  · exact deeper
  · split
    · exact deeper
    · rename_i scaled
      apply clamp_mono zero_le_one
      exact div_le_div_of_nonneg_right deeper (not_le.mp scaled).le

theorem clearedShare_of_cleared {listed charged depth : ℚ} (positive : 0 < listed) (scaled : 0 < depth)
    (shallow : depth ≤ 1) (cleared : charged ≤ listed * (1 - depth)) :
    clearedShare listed charged (some depth) = 1 := by
  have deep : depth ≤ (listed - charged) / listed := by
    rw [le_div_iff₀ positive]
    linarith
  have full : 1 ≤ clamp01 ((listed - charged) / listed) / depth := by
    rw [le_div_iff₀ scaled, one_mul]
    calc depth = clamp01 depth := (clamp_of_bounds scaled.le shallow).symm
      _ ≤ clamp01 ((listed - charged) / listed) := clamp_mono zero_le_one deep
  unfold clearedShare
  dsimp only
  rw [if_neg (not_le.mpr scaled)]
  apply le_antisymm (clamp_bounds zero_le_one _).2
  calc (1 : ℚ) = clamp01 1 := (clamp_of_bounds zero_le_one le_rfl).symm
    _ ≤ clamp01 (clamp01 ((listed - charged) / listed) / depth) := clamp_mono zero_le_one full

theorem clearedShare_of_undiscounted {listed charged : ℚ} (positive : 0 < listed) (h : listed ≤ charged)
    (depthToClear : Option ℚ) : clearedShare listed charged depthToClear = 0 := by
  have none : clamp01 ((listed - charged) / listed) = 0 := by
    have negative : (listed - charged) / listed ≤ 0 := div_nonpos_of_nonpos_of_nonneg (by linarith) positive.le
    rcases negative.eq_or_lt with zero | below
    · rw [zero]
      exact clamp_of_bounds le_rfl zero_le_one
    · exact if_pos below
  unfold clearedShare
  dsimp only
  rw [none]
  split
  · rfl
  · split
    · rfl
    · rw [zero_div]
      exact clamp_of_bounds le_rfl zero_le_one

theorem bandOf_perm {listed listed' : List (Option ℚ)} (perm : listed.Perm listed') :
    bandOf listed = bandOf listed' := by
  have priced : (listed.reduceOption.filter fun price => decide (0 < price)).Perm
      (listed'.reduceOption.filter fun price => decide (0 < price)) := (perm.filterMap id).filter _
  have least : (listed.reduceOption.filter fun price => decide (0 < price)).min? =
      (listed'.reduceOption.filter fun price => decide (0 < price)).min? := by
    apply Option.ext
    intro low
    simp only [List.min?_eq_some_iff, priced.mem_iff]
  have most : (listed.reduceOption.filter fun price => decide (0 < price)).max? =
      (listed'.reduceOption.filter fun price => decide (0 < price)).max? := by
    apply Option.ext
    intro high
    simp only [List.max?_eq_some_iff, priced.mem_iff]
  unfold bandOf
  dsimp only
  rw [least, most, priced.length_eq]

theorem depth_le_one {listed : List (Option ℚ)} {depth : ℚ}
    (spanned : bandDepth (bandOf listed) = some depth) : depth ≤ 1 := by
  cases band : bandOf listed with
  | none => rw [band] at spanned; cases spanned
  | some ends =>
      obtain ⟨low, high⟩ := ends
      have positive : 0 < low := by
        unfold bandOf at band
        dsimp only at band
        split at band
        · rename_i least _ found _
          split at band
          · cases band
          · cases band
            have member := List.min?_mem found
            simpa using List.of_mem_filter member
        · cases band
      rw [band] at spanned
      unfold bandDepth at spanned
      dsimp only at spanned
      split at spanned
      · cases spanned
      · rename_i apart
        have above := not_le.mp (not_or.mp apart).1
        rw [← Option.some.inj spanned, div_le_one above]
        linarith

section Price

variable {F : Type} [Format F] [Unicode]

/-- `offer_price`. -/
def offerPrice (offer : Wire F) : Except PyError (Option ℚ) := do
  match ← readNumber (offer.get (str "total_price")) with
  | some price => return some price
  | none => readNumber (offer.get (str "unit_price"))

/-- `price_band`. -/
def priceBand (listPrices : List (Wire F)) : Except PyError (Option (ℚ × ℚ)) := do
  return bandOf (← listPrices.mapM readNumber)

/-- `price_value`. -/
def priceValue (listPrice offer : Wire F) (depthToClear : Option ℚ) : Except PyError (Option ℚ) := do
  match ← readNumber listPrice with
  | none => return none
  | some listed =>
      if listed ≤ 0 then return none
      else
        match ← offerPrice offer with
        | none => return some 0
        | some charged => return some (clearedShare listed charged depthToClear)

/-- The feature of a candidate, in an auction whose roster states the prices given. -/
def priceFeature (listPrices : List (Wire F)) (listPrice offer : Wire F) : Except PyError (Option ℚ) := do
  priceValue listPrice offer (bandDepth (← priceBand listPrices))

theorem priceBand_eq {listPrices : List (Wire F)} (readable : ∀ price ∈ listPrices, Wire.huge price = false) :
    priceBand listPrices = .ok (bandOf (listPrices.map numberOf)) := by
  rw [priceBand, mapM_eq fun price listed => by rw [readNumber_eq, if_neg (by rw [readable price listed]; decide)]]
  rfl

theorem priceBand_returns {listPrices : List (Wire F)} :
    (∃ band, priceBand listPrices = .ok band) ↔ ∀ price ∈ listPrices, Wire.huge price = false := by
  constructor
  · intro returned
    obtain ⟨listed, read, -⟩ := bind_returns.mp returned
    intro price member
    exact readNumber_returns.mp (mapM_returns.mp ⟨listed, read⟩ price member)
  · intro readable
    exact ⟨_, priceBand_eq readable⟩

/-! ### The laws of the price term -/

def OfferReadable (offer : Wire F) : Prop :=
  Wire.huge (offer.get (str "total_price")) = false ∧
    (numberOf (offer.get (str "total_price")) = none → Wire.huge (offer.get (str "unit_price")) = false)

/-- No price that is read is an integer too large for a float. -/
structure PricesReadable (listPrices : List (Wire F)) (listPrice offer : Wire F) : Prop where
  roster : ∀ price ∈ listPrices, Wire.huge price = false
  listed : Wire.huge listPrice = false
  offer : ∀ listed, numberOf listPrice = some listed → 0 < listed → OfferReadable offer

theorem offerPrice_returns {offer : Wire F} : (∃ price, offerPrice offer = .ok price) ↔ OfferReadable offer := by
  unfold offerPrice OfferReadable
  rw [bind_returns]
  constructor
  · rintro ⟨total, read, rest⟩
    have small := readNumber_returns.mp ⟨total, read⟩
    refine ⟨small, fun absent => ?_⟩
    rw [readNumber_eq, if_neg (by rw [small]; decide), absent, Except.ok.injEq] at read
    subst read
    exact readNumber_returns.mp rest
  · rintro ⟨small, rest⟩
    refine ⟨numberOf (offer.get (str "total_price")), by rw [readNumber_eq, if_neg (by rw [small]; decide)], ?_⟩
    cases absent : numberOf (offer.get (str "total_price")) with
    | none => exact readNumber_returns.mpr (rest absent)
    | some price => exact ⟨_, rfl⟩

theorem priceValue_returns {listPrice offer : Wire F} {depthToClear : Option ℚ} :
    (∃ value, priceValue listPrice offer depthToClear = .ok value) ↔ Wire.huge listPrice = false ∧
      ∀ listed, numberOf listPrice = some listed → 0 < listed → OfferReadable offer := by
  unfold priceValue
  rw [bind_returns]
  constructor
  · rintro ⟨x, read, rest⟩
    have small := readNumber_returns.mp ⟨x, read⟩
    refine ⟨small, fun listed stated positive => ?_⟩
    rw [readNumber_eq, if_neg (by rw [small]; decide), stated, Except.ok.injEq] at read
    subst read
    dsimp only at rest
    rw [if_neg (not_le.mpr positive)] at rest
    obtain ⟨price, read, -⟩ := bind_returns.mp rest
    exact offerPrice_returns.mp ⟨price, read⟩
  · rintro ⟨small, rest⟩
    refine ⟨numberOf listPrice, by rw [readNumber_eq, if_neg (by rw [small]; decide)], ?_⟩
    cases stated : numberOf listPrice with
    | none => exact ⟨_, rfl⟩
    | some listed =>
        dsimp only
        split
        · exact ⟨_, rfl⟩
        · rename_i positive
          obtain ⟨price, read⟩ := offerPrice_returns.mpr (rest listed stated (not_le.mp positive))
          refine bind_returns.mpr ⟨price, read, ?_⟩
          cases price <;> exact ⟨_, rfl⟩

theorem priceFeature_returns {listPrices : List (Wire F)} {listPrice offer : Wire F} :
    (∃ value, priceFeature listPrices listPrice offer = .ok value) ↔
      PricesReadable listPrices listPrice offer := by
  unfold priceFeature
  rw [bind_returns]
  simp only [priceValue_returns]
  constructor
  · rintro ⟨band, spanned, listed, offer⟩
    exact ⟨priceBand_returns.mp ⟨band, spanned⟩, listed, offer⟩
  · rintro ⟨roster, listed, offer⟩
    obtain ⟨band, spanned⟩ := priceBand_returns.mpr roster
    exact ⟨band, spanned, listed, offer⟩

/-- What a roster, a list price and an offer come out as under the price term. -/
structure PriceLaws (listPrices : List (Wire F)) (listPrice offer : Wire F) : Prop where
  returns : ∃ value, priceFeature listPrices listPrice offer = .ok value
  unit : ∀ value, priceFeature listPrices listPrice offer = .ok (some value) → 0 ≤ value ∧ value ≤ 1
  cheaper : ∀ (cheap : Wire F) (lower charged value : ℚ), offerPrice offer = .ok (some charged) →
    offerPrice cheap = .ok (some lower) → lower ≤ charged →
    priceFeature listPrices listPrice offer = .ok (some value) →
      ∃ more, priceFeature listPrices listPrice cheap = .ok (some more) ∧ value ≤ more
  cleared : ∀ (band : Option (ℚ × ℚ)) (depth listed charged : ℚ), priceBand listPrices = .ok band →
    bandDepth band = some depth → numberOf listPrice = some listed → 0 < listed →
    offerPrice offer = .ok (some charged) → charged ≤ listed * (1 - depth) →
      priceFeature listPrices listPrice offer = .ok (some 1)
  undiscounted : ∀ listed : ℚ, numberOf listPrice = some listed → 0 < listed →
    (offerPrice offer = .ok none ∨ ∃ charged, offerPrice offer = .ok (some charged) ∧ listed ≤ charged) →
      priceFeature listPrices listPrice offer = .ok (some 0)
  unordered : ∀ listPrices', listPrices.Perm listPrices' →
    priceBand listPrices' = priceBand listPrices ∧
      priceFeature listPrices' listPrice offer = priceFeature listPrices listPrice offer

theorem priceFeature_eq {listPrices : List (Wire F)} {listPrice : Wire F}
    (roster : ∀ price ∈ listPrices, Wire.huge price = false) (small : Wire.huge listPrice = false)
    {listed : ℚ} (stated : numberOf listPrice = some listed) (positive : 0 < listed) {offer : Wire F}
    {price : Option ℚ} (read : offerPrice offer = .ok price) :
    priceFeature listPrices listPrice offer = .ok (some (price.elim 0 fun charged =>
      clearedShare listed charged (bandDepth (bandOf (listPrices.map numberOf))))) := by
  rw [priceFeature, priceBand_eq roster]
  change priceValue _ _ _ = _
  rw [priceValue, readNumber_eq, if_neg (by rw [small]; decide), stated]
  change (if listed ≤ 0 then _ else _) = _
  rw [if_neg (not_le.mpr positive), read]
  cases price <;> rfl

theorem priced_of_feature {listPrices : List (Wire F)} {listPrice offer : Wire F} {value : ℚ}
    (read : priceFeature listPrices listPrice offer = .ok (some value)) :
    ∃ listed, numberOf listPrice = some listed ∧ 0 < listed := by
  obtain ⟨band, -, valued⟩ := bind_eq_ok.mp read
  obtain ⟨x, number, valued⟩ := bind_eq_ok.mp valued
  have small := readNumber_returns.mp ⟨x, number⟩
  rw [readNumber_eq, if_neg (by rw [small]; decide), Except.ok.injEq] at number
  subst number
  cases stated : numberOf listPrice with
  | none => rw [stated] at valued; cases valued
  | some listed =>
      rw [stated] at valued
      dsimp only at valued
      split at valued
      · cases valued
      · exact ⟨listed, rfl, not_le.mp ‹_›⟩

end Price

/-! ### A list price too large to be read -/

def listing (n : Int) : Wire Binary64 := .number (.integer n)

def offerAt (n : Int) : Wire Binary64 := .object [(str "total_price", listing n)]

end Proxyshop.Ranking
