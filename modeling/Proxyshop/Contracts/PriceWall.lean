import Mathlib.Tactic.Linarith
import Proxyshop.Contracts.Price

/-!
# What the price wall admits

The verdict with the arithmetic taken exactly. A document is admitted exactly when its offer
reconciles with the roster and the cap it is measured against.
-/

namespace Proxyshop.Contracts

open Python Numbers Extended

namespace PriceWall

abbrev Document := Json (Extended ℚ)

def amount (q : ℚ) : Document := .number (.finite q)

theorem finiteNumber_eq_some {v : Document} {n : Extended ℚ} :
    v.finiteNumber = some n ↔ ∃ q, n = .finite q ∧ v = amount q := by
  rw [Json.finiteNumber_eq_some]
  constructor <;> rintro ⟨q, rfl, rfl⟩ <;> exact ⟨q, rfl, rfl⟩

theorem finiteNumber_eq_finite {v : Document} {q : ℚ} :
    v.finiteNumber = some (.finite q) ↔ v = amount q := by
  simp [finiteNumber_eq_some]

@[simp] theorem finiteNumber_amount (q : ℚ) : (amount q).finiteNumber = some (.finite q) := rfl

theorem amount_inj {a b : ℚ} : amount a = amount b ↔ a = b := by
  simp [amount]

theorem zero_exact : (0.0 : Extended ℚ) = .finite 0 := by
  rw [exact_ofScientific]
  norm_num

theorem hundred_exact : (100.0 : Extended ℚ) = .finite 100 := by
  rw [exact_ofScientific]
  norm_num

theorem cent_exact : (0.01 : Extended ℚ) = .finite (1 / 100) := by
  rw [exact_ofScientific]
  norm_num

theorem tolerance_exact : (priceReconciliationTolerance : Extended ℚ) = .finite (1 / 100) :=
  cent_exact

/-! ## What a document states -/

section Statements

variable [Unicode] (bid offer listPrices maxDiscountPct : Document)

def IsPercentage (discount : Document) : Prop :=
  ∃ kind, discount.get (str "type") = .string kind ∧
    Unicode.lower kind.strip ∈ percentageDiscountTypes

/-- The offer declares the percentage `d`, or no discount. -/
def Declares (d : ℚ) : Prop :=
  let discount := offer.get (str "discount")
  (discount = .null ∧ d = 0) ∨
    (discount.get (str "value") = amount d ∧ (d = 0 ∨ (IsPercentage discount ∧ 0 ≤ d ∧ d ≤ 100)))

omit [Unicode] in
/-- The roster prices the product of the offer at `listed`. -/
def Prices (listed : ℚ) : Prop :=
  0 ≤ listed ∧ ∃ row, Price.rosterRow offer listPrices = some row ∧
    (row = amount listed ∨ row.get listPriceClaimKey = amount listed)

/-- The roster row states the cap `c` or, where it states none, the call does. -/
def Authorizes (c : ℚ) : Prop :=
  0 ≤ c ∧ c ≤ 100 ∧
    ((∃ row, Price.rosterRow offer listPrices = some row ∧
        row.get maxDiscountRosterKey = amount c) ∨
      ((∀ row, Price.rosterRow offer listPrices = some row →
        row.get maxDiscountRosterKey = .null) ∧ maxDiscountPct = amount c))

/-- A claim of the bid or of the offer about the list price. -/
def ListPriceClaim (claim : Document) : Prop :=
  (∃ claims, (bid.get (str "claims") = .array claims ∨
      offer.get (str "commitments") = .array claims) ∧ claim ∈ claims) ∧
    ∃ key, claim.get (str "key") = .string key ∧ key.strip = listPriceClaimKey

end Statements

/-! ## The readers -/

section Readers

variable [Unicode] {bid offer listPrices maxDiscountPct : Document}

theorem spelling_mem_iff {discount : Document} :
    Price.spelling (discount.get (str "type")) ∈ percentageDiscountTypes ↔ IsPercentage discount := by
  unfold IsPercentage
  have other : str "not_a_string" ∉ percentageDiscountTypes := by decide
  cases discount.get (str "type") <;> simp [Price.spelling, other]

theorem declaredDepth_cases (offer : Document) :
    (∃ d, Declares offer d ∧ Price.declaredDepth offer = (some (.finite d), [])) ∨
      ((∀ d, ¬ Declares offer d) ∧ ∃ r, Price.declaredDepth offer = (none, [r])) := by
  unfold Price.declaredDepth Declares
  generalize offer.get (str "discount") = discount
  dsimp only
  by_cases missing : discount.isNull = true
  · left
    exact ⟨0, .inl ⟨Json.isNull_iff.mp missing, rfl⟩, by rw [if_pos missing, zero_exact]⟩
  · rw [if_neg missing]
    rw [Json.isNull_iff] at missing
    cases value : (discount.get (str "value")).finiteNumber with
    | none =>
        right
        refine ⟨?_, _, rfl⟩
        rintro d (⟨absent, -⟩ | ⟨stated, -⟩)
        · exact missing absent
        · rw [stated] at value
          cases value
    | some n =>
        obtain ⟨d, rfl, stated⟩ := finiteNumber_eq_some.mp value
        have only {e : ℚ} (other : discount.get (str "value") = amount e) : e = d :=
          amount_inj.mp (other.symm.trans stated)
        dsimp only
        simp only [zero_exact, hundred_exact, exact_lt, Extended.finite.injEq]
        by_cases zero : d = 0
        · left
          exact ⟨d, .inr ⟨stated, .inl zero⟩, by rw [if_pos zero, zero]⟩
        · rw [if_neg zero]
          by_cases percentage : Price.spelling (discount.get (str "type")) ∈ percentageDiscountTypes
          · rw [if_neg (not_not.mpr percentage)]
            rw [spelling_mem_iff] at percentage
            by_cases range : d < 0 ∨ 100 < d
            · right
              refine ⟨?_, _, if_pos range⟩
              rintro e (⟨absent, -⟩ | ⟨other, nothing | ⟨-, low, high⟩⟩)
              · exact missing absent
              · exact zero (only other ▸ nothing)
              · rw [only other] at low high
                rcases range with below | above <;> linarith
            · left
              rw [not_or, not_lt, not_lt] at range
              exact ⟨d, .inr ⟨stated, .inr ⟨percentage, range⟩⟩, if_neg (by
                rw [not_or, not_lt, not_lt]
                exact range)⟩
          · right
            refine ⟨?_, _, if_pos percentage⟩
            rintro e (⟨absent, -⟩ | ⟨other, nothing | ⟨known, -⟩⟩)
            · exact missing absent
            · exact zero (only other ▸ nothing)
            · exact percentage (spelling_mem_iff.mpr known)

omit [Unicode] in
theorem readCap_cases (raw : Document) :
    (∃ c, raw = amount c ∧ 0 ≤ c ∧ c ≤ 100 ∧
        Price.readCap raw.finiteNumber = (some (.finite c), [])) ∨
      ((∀ c, raw = amount c → 0 ≤ c → ¬ c ≤ 100) ∧
        ∃ r, Price.readCap raw.finiteNumber = (none, [r])) := by
  cases value : raw.finiteNumber with
  | none =>
      right
      refine ⟨?_, _, rfl⟩
      rintro c rfl
      cases value
  | some n =>
      obtain ⟨c, rfl, rfl⟩ := finiteNumber_eq_some.mp value
      unfold Price.readCap
      dsimp only
      simp only [zero_exact, hundred_exact, exact_lt]
      by_cases range : c < 0 ∨ 100 < c
      · right
        refine ⟨fun e same low high => ?_, _, if_pos range⟩
        obtain rfl := amount_inj.mp same
        rcases range with below | above <;> linarith
      · left
        refine ⟨c, rfl, ?_, ?_, if_neg range⟩
        · exact not_lt.mp fun below => range (.inl below)
        · exact not_lt.mp fun above => range (.inr above)

omit [Unicode] in
theorem authorizes_iff {c : ℚ} : Authorizes offer listPrices maxDiscountPct c ↔
    let stated := (Price.rosterRow offer listPrices).elim .null fun row =>
      row.record.get maxDiscountRosterKey
    (if stated.isNull then maxDiscountPct else stated) = amount c ∧ 0 ≤ c ∧ c ≤ 100 := by
  unfold Authorizes
  dsimp only
  cases Price.rosterRow offer listPrices with
  | none =>
      rw [Option.elim_none, if_pos Json.isNull_null]
      simp only [reduceCtorEq, false_and, exists_false, IsEmpty.forall_iff, implies_true, true_and,
        false_or]
      tauto
  | some row =>
      rw [Option.elim_some, Json.record_get]
      simp only [Option.some.injEq, exists_eq_left', forall_eq']
      split
      · rename_i missing
        rw [Json.isNull_iff] at missing
        rw [missing]
        simp only [amount, reduceCtorEq, false_or, true_and]
        tauto
      · rename_i present
        rw [Json.isNull_iff] at present
        simp only [present, false_and, or_false]
        tauto

omit [Unicode] in
theorem authorizedDepth_cases (offer listPrices maxDiscountPct : Document) :
    (∃ c, Authorizes offer listPrices maxDiscountPct c ∧
        Price.authorizedDepth offer listPrices maxDiscountPct = (some (.finite c), [])) ∨
      ((∀ c, ¬ Authorizes offer listPrices maxDiscountPct c) ∧
        ∃ r, Price.authorizedDepth offer listPrices maxDiscountPct = (none, [r])) := by
  simp only [authorizes_iff, Price.authorizedDepth]
  generalize (if ((Price.rosterRow offer listPrices).elim Json.null fun row =>
    row.record.get maxDiscountRosterKey).isNull = true then maxDiscountPct else _) = raw
  by_cases missing : raw.isNull = true
  · right
    rw [if_pos missing]
    refine ⟨?_, _, rfl⟩
    rintro c ⟨rfl, -⟩
    cases missing
  · rw [if_neg missing]
    rcases readCap_cases raw with ⟨c, stated, low, high, read⟩ | ⟨out, r, read⟩
    · exact .inl ⟨c, ⟨stated, low, high⟩, read⟩
    · exact .inr ⟨fun c ⟨stated, low, high⟩ => out c stated low high, r, read⟩

omit [Unicode] in
theorem rosterListPrice_cases (offer listPrices : Document) :
    (∃ listed, Prices offer listPrices listed ∧
        Price.rosterListPrice offer listPrices = (some (.finite listed), [])) ∨
      ((∀ listed, ¬ Prices offer listPrices listed) ∧
        ∃ r, Price.rosterListPrice offer listPrices = (none, [r])) := by
  unfold Price.rosterListPrice Prices
  cases Price.rosterRow offer listPrices with
  | none =>
      right
      refine ⟨?_, _, rfl⟩
      rintro listed ⟨-, row, found, -⟩
      cases found
  | some row =>
      have read (q : ℚ) : row.finiteNumber.or (row.record.get listPriceClaimKey).finiteNumber =
          some (.finite q) ↔ row = amount q ∨ row.get listPriceClaimKey = amount q := by
        rw [Json.record_get]
        constructor
        · intro found
          cases direct : row.finiteNumber with
          | none =>
              rw [direct, Option.none_or, finiteNumber_eq_finite] at found
              exact .inr found
          | some n =>
              rw [direct, Option.some_or, ← direct, finiteNumber_eq_finite] at found
              exact .inl found
        · rintro (rfl | stated)
          · rfl
          · have silent : row.finiteNumber = none := by
              cases row with
              | number n => cases stated
              | _ => rfl
            rw [silent, Option.none_or, stated]
            rfl
      dsimp only
      cases found : row.finiteNumber.or (row.record.get listPriceClaimKey).finiteNumber with
      | none =>
          right
          refine ⟨?_, _, rfl⟩
          rintro listed ⟨-, other, same, stated⟩
          obtain rfl := Option.some.inj same
          rw [(read listed).mpr stated] at found
          cases found
      | some n =>
          obtain ⟨q, rfl⟩ : ∃ q, n = .finite q := by
            rcases Option.or_eq_some_iff.mp found with direct | ⟨-, spelled⟩
            · obtain ⟨q, rfl, -⟩ := finiteNumber_eq_some.mp direct
              exact ⟨q, rfl⟩
            · obtain ⟨q, rfl, -⟩ := finiteNumber_eq_some.mp spelled
              exact ⟨q, rfl⟩
          simp only [zero_exact, exact_lt]
          by_cases negative : q < 0
          · right
            refine ⟨?_, _, if_pos negative⟩
            rintro listed ⟨positive, other, same, stated⟩
            obtain rfl := Option.some.inj same
            rw [(read listed).mpr stated, Option.some.injEq, Extended.finite.injEq] at found
            linarith
          · left
            exact ⟨q, ⟨not_lt.mp negative, row, rfl, (read q).mp found⟩, if_neg negative⟩

theorem Declares.unique {d e : ℚ} (hd : Declares offer d) (he : Declares offer e) : d = e := by
  rcases hd with ⟨absent, rfl⟩ | ⟨hd, -⟩ <;> rcases he with ⟨missing, rfl⟩ | ⟨he, -⟩
  · rfl
  · rw [absent] at he
    cases he
  · rw [missing] at hd
    cases hd
  · exact amount_inj.mp (hd.symm.trans he)

omit [Unicode] in
theorem Authorizes.unique {c e : ℚ} (hc : Authorizes offer listPrices maxDiscountPct c)
    (he : Authorizes offer listPrices maxDiscountPct e) : c = e :=
  amount_inj.mp ((authorizes_iff.mp hc).1.symm.trans (authorizes_iff.mp he).1)

omit [Unicode] in
theorem Prices.unique {a b : ℚ} (ha : Prices offer listPrices a) (hb : Prices offer listPrices b) :
    a = b := by
  obtain ⟨-, row, found, ha⟩ := ha
  obtain ⟨-, other, same, hb⟩ := hb
  obtain rfl := Option.some.inj (found.symm.trans same)
  rcases ha with rfl | ha <;> rcases hb with hb | hb
  · exact amount_inj.mp hb
  · cases hb
  · rw [hb] at ha
    cases ha
  · exact amount_inj.mp (ha.symm.trans hb)

end Readers

/-! ## The claims about the list price -/

section Claims

variable {bid offer : Document}

theorem mem_listPriceClaims {claims : Document} {entry : Option (Extended ℚ)} :
    entry ∈ Price.listPriceClaims claims ↔ ∃ items, claims = .array items ∧ ∃ claim ∈ items,
      (∃ key, claim.get (str "key") = .string key ∧ key.strip = listPriceClaimKey) ∧
        entry = Price.readableListPrice claim := by
  cases claims with
  | array items =>
      simp only [Price.listPriceClaims, List.mem_filterMap, Json.array.injEq, exists_eq_left']
      apply exists_congr
      intro claim
      apply and_congr_right
      intro _
      cases claim.get (str "key") <;> simp [eq_comm]
  | _ => simp [Price.listPriceClaims]

theorem readableListPrice_eq_some {claim : Document} {v : ℚ} :
    Price.readableListPrice claim = some (.finite v) ↔
      claim.get (str "value") = amount v ∧ 0 ≤ v := by
  rw [Price.readableListPrice, Option.filter_eq_some_iff, finiteNumber_eq_finite, zero_exact]
  simp

/-- The list price claims name one price, within a cent of `listed`. -/
def Agree (bid offer : Document) (listed : ℚ) : Prop :=
  (∀ claim, ListPriceClaim bid offer claim →
    ∃ v, claim.get (str "value") = amount v ∧ 0 ≤ v ∧ |listed - v| ≤ 1 / 100) ∧
  ∀ a b, ListPriceClaim bid offer a → ListPriceClaim bid offer b →
    a.get (str "value") = b.get (str "value")

theorem mem_stated {entry : Option (Extended ℚ)} :
    entry ∈ Price.listPriceClaims (bid.get (str "claims")) ++
        Price.listPriceClaims (offer.get (str "commitments")) ↔
      ∃ claim, ListPriceClaim bid offer claim ∧ entry = Price.readableListPrice claim := by
  rw [List.mem_append, mem_listPriceClaims, mem_listPriceClaims]
  constructor
  · rintro (⟨items, found, claim, member, about, rfl⟩ | ⟨items, found, claim, member, about, rfl⟩)
    · exact ⟨claim, ⟨⟨items, .inl found, member⟩, about⟩, rfl⟩
    · exact ⟨claim, ⟨⟨items, .inr found, member⟩, about⟩, rfl⟩
  · rintro ⟨claim, ⟨⟨items, found | found, member⟩, about⟩, rfl⟩
    · exact .inl ⟨items, found, claim, member, about, rfl⟩
    · exact .inr ⟨items, found, claim, member, about, rfl⟩

theorem readable_of_ne_none {claim : Document} (h : Price.readableListPrice claim ≠ none) :
    ∃ v, Price.readableListPrice claim = some (.finite v) := by
  obtain ⟨n, read⟩ := Option.ne_none_iff_exists'.mp h
  have number := read
  rw [Price.readableListPrice, Option.filter_eq_some_iff, finiteNumber_eq_some] at number
  obtain ⟨⟨v, rfl, -⟩, -⟩ := number
  exact ⟨v, read⟩

theorem carried_eq_nil_iff {listed : ℚ} :
    ((Price.carriedListPrice bid offer).2 = [] ∧
      Price.contradictionReasons (some (.finite listed)) (Price.carriedListPrice bid offer).1 = []) ↔
      Agree bid offer listed := by
  unfold Price.carriedListPrice
  have members := @mem_stated bid offer
  generalize Price.listPriceClaims (bid.get (str "claims")) ++
    Price.listPriceClaims (offer.get (str "commitments")) = stated at members ⊢
  have near {v : ℚ} : Price.contradictionReasons (some (Extended.finite listed))
      (some (.finite v)) = [] ↔ |listed - v| ≤ 1 / 100 := by
    simp only [Price.contradictionReasons, tolerance_exact, exact_sub, exact_magnitude, exact_lt,
      ite_eq_right_iff, List.cons_ne_nil, imp_false, not_lt]
  rcases Price.statedListPrice_cases stated with ⟨h, e⟩ | ⟨h, e⟩ | ⟨h, e⟩ | ⟨n, h, e⟩
  · rw [e]
    constructor
    · rintro ⟨quiet, -⟩
      cases quiet
    · rintro ⟨readable, -⟩
      obtain ⟨claim, about, unreadable⟩ := members.mp h
      obtain ⟨v, stated, positive, -⟩ := readable claim about
      rw [readableListPrice_eq_some.mpr ⟨stated, positive⟩] at unreadable
      cases unreadable
  · rw [e]
    constructor
    · rintro ⟨quiet, -⟩
      cases quiet
    · rintro ⟨-, same⟩
      obtain ⟨-, a, ha, b, hb, differ⟩ := h
      obtain ⟨claim, about, rfl⟩ := members.mp ha
      obtain ⟨other, also, rfl⟩ := members.mp hb
      exact absurd (by rw [Price.readableListPrice, same claim other about also,
        Price.readableListPrice]) differ
  · rw [e]
    constructor
    · intro _
      have silent (claim : Document) : ¬ ListPriceClaim bid offer claim := by
        intro about
        have entry := members.mpr ⟨claim, about, rfl⟩
        rw [h] at entry
        cases entry
      exact ⟨fun claim about => absurd about (silent claim), fun claim _ about => absurd about (silent claim)⟩
    · intro _
      exact ⟨rfl, rfl⟩
  · rw [e]
    obtain ⟨claim, about, read⟩ := members.mp h.1
    obtain ⟨v, number⟩ := readable_of_ne_none (by rw [← read]; exact Option.some_ne_none n)
    obtain rfl := Option.some.inj (read.trans number)
    rw [near]
    constructor
    · rintro ⟨-, close⟩
      have value {claim : Document} (about : ListPriceClaim bid offer claim) :
          claim.get (str "value") = amount v ∧ 0 ≤ v :=
        readableListPrice_eq_some.mp (h.2 _ (members.mpr ⟨claim, about, rfl⟩))
      exact ⟨fun claim about => ⟨v, (value about).1, (value about).2, close⟩,
        fun a b ha hb => (value ha).1.trans (value hb).1.symm⟩
    · rintro ⟨readable, -⟩
      obtain ⟨w, stated, -, close⟩ := readable claim about
      obtain rfl := amount_inj.mp ((readableListPrice_eq_some.mp number).1.symm.trans stated)
      exact ⟨rfl, close⟩

end Claims

/-! ## The floor -/

theorem priceFloor_exact (listed : ℚ) : ∃ floor, priceFloor (.finite listed) = .finite floor ∧
    (0 < listed → 0 < floor) := by
  have clamped : ∃ absolute, (if minimumPayableAmount ≤ (.finite listed : Extended ℚ) then
      least minimumPayableAmount (Extended.finite listed * absoluteFloorMaxFraction) else 0.0) =
        Extended.finite absolute := by
    simp only [minimumPayableAmount, absoluteFloorMaxFraction, exact_ofScientific, exact_mul,
      exact_least, exact_le]
    split <;> exact ⟨_, rfl⟩
  obtain ⟨absolute, clamp⟩ := clamped
  refine ⟨max (listed * (1 / 1000)) absolute, ?_, fun positive => ?_⟩
  · rw [priceFloor, clamp, priceFloorFraction, exact_ofScientific, exact_mul, exact_greatest]
    norm_num
  · exact lt_max_of_lt_left (by positivity)

theorem numberReasons_eq_nil_iff (site : Str) {v : Document} :
    Price.numberReasons site v.finiteNumber = [] ↔ ∃ q, v = amount q ∧ 0 ≤ q := by
  cases read : v.finiteNumber with
  | none =>
      simp only [Price.numberReasons, List.cons_ne_nil, false_iff, not_exists, not_and]
      rintro q rfl
      cases read
  | some n =>
      obtain ⟨q, rfl, rfl⟩ := finiteNumber_eq_some.mp read
      simp [Price.numberReasons, zero_exact, amount_inj]

theorem belowFloorReasons_eq_nil_iff {site : Str} {floor priced : ℚ} (positive : 0 < floor)
    (stated : 0 ≤ priced) :
    Price.belowFloorReasons (.finite floor) site (some (.finite priced)) = [] ↔ floor ≤ priced := by
  simp only [Price.belowFloorReasons, zero_exact, exact_lt, Extended.finite.injEq]
  split
  · rename_i zero
    simp [zero, positive]
  · rename_i nonzero
    have above : 0 < priced := lt_of_le_of_ne stated (Ne.symm nonzero)
    simp [above]

theorem floorReasons_eq_nil_iff {listed unitPrice totalPrice : ℚ} (unit : 0 ≤ unitPrice)
    (total : 0 ≤ totalPrice) :
    Price.floorReasons (some (.finite listed)) (.finite unitPrice) (some (.finite totalPrice)) = [] ↔
      (0 < listed → ∃ floor, priceFloor (.finite listed) = .finite floor ∧ 0 < floor ∧
        floor ≤ unitPrice ∧ floor ≤ totalPrice) := by
  obtain ⟨floor, floored, positive⟩ := priceFloor_exact listed
  simp only [Price.floorReasons, zero_exact, exact_lt, floored]
  split
  · rename_i priced
    have above := positive priced
    rw [List.append_eq_nil_iff, belowFloorReasons_eq_nil_iff above unit,
      belowFloorReasons_eq_nil_iff above total]
    constructor
    · rintro ⟨unit, total⟩ -
      exact ⟨floor, rfl, above, unit, total⟩
    · intro bound
      obtain ⟨_, same, -, unit, total⟩ := bound priced
      obtain rfl := Extended.finite.inj same
      exact ⟨unit, total⟩
  · rename_i free
    simp [free]

/-! ## The depth the prices are measured against -/

theorem discounted_exact (price depth : ℚ) : Price.discounted (.finite price) (.finite depth) =
    Extended.finite (price * (100 - depth) / 100) := by
  rw [Price.discounted, hundred_exact, exact_sub, exact_mul, exact_div _ _ (by norm_num)]

theorem unitReasons_eq_nil_iff {listed unitPrice authorized : ℚ} :
    Price.unitReasons (some (.finite listed)) (.finite unitPrice) (.finite authorized) = [] ↔
      listed * (100 - authorized) / 100 ≤ unitPrice + 1 / 100 := by
  simp only [Price.unitReasons, tolerance_exact, exact_add, discounted_exact, exact_lt,
    ite_eq_right_iff, List.cons_ne_nil, imp_false, not_lt]

theorem totalReasons_eq_nil_iff {unitPrice totalPrice authorized : ℚ} (total : 0 ≤ totalPrice) :
    Price.totalReasons (.finite unitPrice) (some (.finite totalPrice)) (.finite authorized) = [] ↔
      (0 < authorized → unitPrice * (100 - authorized) / 100 ≤ totalPrice + 1 / 100) := by
  simp only [Price.totalReasons, tolerance_exact, exact_add, discounted_exact, exact_lt, zero_exact,
    exact_le, total, true_and, ite_eq_right_iff, List.cons_ne_nil, imp_false, not_and, not_lt]

section Basis

variable (offer listPrices maxDiscountPct : Document)

/-- The depth `a` under which the prices of an offer declaring `d` are measured. -/
def Basis (d a : ℚ) : Prop :=
  (0 < d ∧ a = d ∧ ∃ c, Authorizes offer listPrices maxDiscountPct c ∧ d ≤ c) ∨
    (d = 0 ∧ (Authorizes offer listPrices maxDiscountPct a ∨
      (a = 0 ∧ ∀ c, ¬ Authorizes offer listPrices maxDiscountPct c)))

variable {offer listPrices maxDiscountPct} {d : ℚ}

theorem Basis.unique {a b : ℚ} (ha : Basis offer listPrices maxDiscountPct d a)
    (hb : Basis offer listPrices maxDiscountPct d b) : a = b := by
  rcases ha with ⟨positive, rfl, -⟩ | ⟨rfl, ha⟩ <;> rcases hb with ⟨also, rfl, -⟩ | ⟨zero, hb⟩
  · rfl
  · exact absurd zero positive.ne'
  · exact absurd rfl also.ne
  · rcases ha with ha | ⟨rfl, none⟩ <;> rcases hb with hb | ⟨rfl, nothing⟩
    · exact ha.unique hb
    · exact absurd ha (nothing a)
    · exact absurd hb (none b)
    · rfl

theorem authorization_cases (nonneg : 0 ≤ d) :
    (∃ a, Basis offer listPrices maxDiscountPct d a ∧ Price.authorization
        (Price.authorizedDepth offer listPrices maxDiscountPct) (.finite d) = (.finite a, [])) ∨
      ((∀ a, ¬ Basis offer listPrices maxDiscountPct d a) ∧ (Price.authorization
        (Price.authorizedDepth offer listPrices maxDiscountPct) (.finite d)).2 ≠ []) := by
  unfold Price.authorization
  rw [zero_exact]
  rcases authorizedDepth_cases offer listPrices maxDiscountPct with ⟨c, cap, read⟩ | ⟨none, r, read⟩
  · rw [read]
    by_cases positive : 0 < d
    · rw [if_pos (exact_lt 0 d |>.mpr positive)]
      simp only [exact_least, exact_lt, List.nil_append]
      by_cases excess : c < d
      · right
        refine ⟨?_, by simp [excess]⟩
        rintro a (⟨-, -, limit, other, within⟩ | ⟨rfl, -⟩)
        · rw [other.unique cap] at within
          linarith
        · exact lt_irrefl _ positive
      · left
        rw [if_neg excess, min_eq_left (not_lt.mp excess)]
        exact ⟨d, .inl ⟨positive, rfl, c, cap, not_lt.mp excess⟩, rfl⟩
    · left
      rw [if_neg fun above => positive ((exact_lt 0 d).mp above)]
      exact ⟨c, .inr ⟨le_antisymm (not_lt.mp positive) nonneg, .inl cap⟩, rfl⟩
  · rw [read]
    by_cases positive : 0 < d
    · right
      rw [if_pos (exact_lt 0 d |>.mpr positive)]
      refine ⟨?_, List.cons_ne_nil _ _⟩
      rintro a (⟨-, -, c, cap, -⟩ | ⟨rfl, -⟩)
      · exact none c cap
      · exact lt_irrefl _ positive
    · left
      rw [if_neg fun above => positive ((exact_lt 0 d).mp above)]
      have zero : d = 0 := le_antisymm (not_lt.mp positive) nonneg
      exact ⟨0, .inr ⟨zero, .inr ⟨rfl, none⟩⟩, by rw [zero]; rfl⟩

end Basis

/-! ## Admission -/

section Admission

variable [Unicode] {bid listPrices maxDiscountPct : Document} {members : Dict Str Document}
  {listed d a unitPrice totalPrice : ℚ}

/-- The offer states its prices and its depth, the roster prices its product, and all but the total
price reconciles under the depth `a`. -/
structure UnitReconciles (bid offer listPrices maxDiscountPct : Document)
    (listed d a unitPrice totalPrice : ℚ) : Prop where
  priced : Prices offer listPrices listed
  declared : Declares offer d
  range : 0 ≤ d ∧ d ≤ 100
  basis : Basis offer listPrices maxDiscountPct d a
  unit : offer.get (str "unit_price") = amount unitPrice ∧ 0 ≤ unitPrice
  total : offer.get (str "total_price") = amount totalPrice ∧ 0 ≤ totalPrice
  underUnit : listed * (100 - a) / 100 ≤ unitPrice + 1 / 100
  floor : 0 < listed → ∃ floor, priceFloor (.finite listed) = .finite floor ∧ 0 < floor ∧
    floor ≤ unitPrice ∧ floor ≤ totalPrice
  agree : Agree bid offer listed

structure Reconciles (bid offer listPrices maxDiscountPct : Document)
    (listed d a unitPrice totalPrice : ℚ) : Prop extends
    UnitReconciles bid offer listPrices maxDiscountPct listed d a unitPrice totalPrice where
  underTotal : 0 < a → unitPrice * (100 - a) / 100 ≤ totalPrice + 1 / 100

theorem Declares.range {offer : Document} (h : Declares offer d) : 0 ≤ d ∧ d ≤ 100 := by
  rcases h with ⟨-, rfl⟩ | ⟨-, rfl | ⟨-, range⟩⟩
  · norm_num
  · norm_num
  · exact range

theorem priceReasons_of_object (found : bid.get (str "offer") = .object members) :
    Price.priceReasons bid listPrices maxDiscountPct =
      Price.verdict (Price.declaredDepth (.object members))
        (Json.get (.object members) (str "unit_price")).finiteNumber
        (Json.get (.object members) (str "total_price")).finiteNumber
        fun depth unitPrice => Price.relationReasons
          (Price.authorization (Price.authorizedDepth (.object members) listPrices maxDiscountPct) depth)
          (Price.carriedListPrice bid (.object members))
          (Price.rosterListPrice (.object members) listPrices) unitPrice
          (Json.get (.object members) (str "total_price")).finiteNumber := by
  rw [Price.priceReasons, found]
  rfl

omit [Unicode] in
theorem verdict_of_readable {relations : Extended ℚ → Extended ℚ → List Str} {unit total : Document}
    (unitStated : unit = amount unitPrice ∧ 0 ≤ unitPrice)
    (totalStated : total = amount totalPrice ∧ 0 ≤ totalPrice) :
    Price.verdict (some (.finite d), []) unit.finiteNumber total.finiteNumber relations =
      relations (.finite d) (.finite unitPrice) := by
  obtain ⟨rfl, unitNonneg⟩ := unitStated
  have unit := (numberReasons_eq_nil_iff offerUnitPriceSite).mpr ⟨unitPrice, rfl, unitNonneg⟩
  have total := (numberReasons_eq_nil_iff offerTotalPriceSite).mpr ⟨totalPrice, totalStated⟩
  unfold Price.verdict
  rw [unit, total, finiteNumber_amount]
  dsimp only
  rw [if_neg (by rw [zero_exact, exact_lt]; exact not_lt.mpr unitNonneg)]
  rfl

theorem priceReasons_of_unitReconciles (found : bid.get (str "offer") = .object members)
    (h : UnitReconciles bid (.object members) listPrices maxDiscountPct listed d a unitPrice
      totalPrice) :
    Price.priceReasons bid listPrices maxDiscountPct =
      Price.totalReasons (.finite unitPrice) (some (.finite totalPrice)) (.finite a) := by
  have declared : Price.declaredDepth (.object members) = (some (.finite d), []) := by
    rcases declaredDepth_cases (.object members) with ⟨e, other, read⟩ | ⟨none, -⟩
    · rw [read, other.unique h.declared]
    · exact absurd h.declared (none d)
  have rostered : Price.rosterListPrice (.object members) listPrices = (some (.finite listed), []) := by
    rcases rosterListPrice_cases (.object members) listPrices with ⟨e, other, read⟩ | ⟨none, -⟩
    · rw [read, other.unique h.priced]
    · exact absurd h.priced (none listed)
  have granted : Price.authorization (Price.authorizedDepth (.object members) listPrices
      maxDiscountPct) (.finite d) = (.finite a, []) := by
    rcases authorization_cases h.range.1 with ⟨e, other, read⟩ | ⟨none, -⟩
    · rw [read, other.unique h.basis]
    · exact absurd h.basis (none a)
  obtain ⟨silent, near⟩ := carried_eq_nil_iff.mpr h.agree
  have floor := (floorReasons_eq_nil_iff h.unit.2 h.total.2).mpr h.floor
  have under := unitReasons_eq_nil_iff.mpr h.underUnit
  rw [priceReasons_of_object found, declared, verdict_of_readable h.unit h.total, granted, rostered,
    h.total.1, finiteNumber_amount, Price.relationReasons, silent]
  dsimp only
  rw [near, floor, Option.some_or, under]
  rfl

theorem reconciles_of_admitted (found : bid.get (str "offer") = .object members)
    (admitted : Price.priceReasons bid listPrices maxDiscountPct = []) :
    ∃ listed d a unitPrice totalPrice,
      Reconciles bid (.object members) listPrices maxDiscountPct listed d a unitPrice totalPrice := by
  rw [priceReasons_of_object found] at admitted
  obtain ⟨quiet, unitQuiet, totalQuiet, relations⟩ := Price.verdict_eq_nil admitted
  rcases declaredDepth_cases (.object members) with ⟨d, declared, read⟩ | ⟨-, r, refused⟩
  · obtain ⟨unitPrice, unit, unitNonneg⟩ := (numberReasons_eq_nil_iff _).mp unitQuiet
    obtain ⟨totalPrice, total, totalNonneg⟩ := (numberReasons_eq_nil_iff _).mp totalQuiet
    have related := relations (.finite d) (.finite unitPrice) (by rw [read])
      (finiteNumber_eq_finite.mpr unit)
      (by rw [zero_exact, exact_lt]; exact not_lt.mpr unitNonneg)
    simp only [Price.relationReasons, List.append_eq_nil_iff, total, finiteNumber_amount] at related
    obtain ⟨⟨⟨⟨⟨⟨granted, silent⟩, rostered⟩, near⟩, floor⟩, underUnit⟩, underTotal⟩ := related
    rcases rosterListPrice_cases (.object members) listPrices with
      ⟨listed, priced, held⟩ | ⟨-, r, refused⟩
    · rcases authorization_cases declared.range.1 with ⟨a, basis, authorized⟩ | ⟨-, refused⟩
      · rw [held, Option.some_or, authorized] at underUnit
        rw [held] at near floor
        rw [authorized] at underTotal
        exact ⟨listed, d, a, unitPrice, totalPrice, {
          priced := priced
          declared := declared
          range := declared.range
          basis := basis
          unit := ⟨unit, unitNonneg⟩
          total := ⟨total, totalNonneg⟩
          underUnit := unitReasons_eq_nil_iff.mp underUnit
          floor := (floorReasons_eq_nil_iff unitNonneg totalNonneg).mp floor
          agree := carried_eq_nil_iff.mp ⟨silent, near⟩
          underTotal := (totalReasons_eq_nil_iff totalNonneg).mp underTotal }⟩
      · exact absurd granted refused
    · rw [refused] at rostered
      cases rostered
  · rw [refused] at quiet
    cases quiet

theorem admitted_iff : Price.priceReasons bid listPrices maxDiscountPct = [] ↔
    ∃ members, bid.get (str "offer") = .object members ∧ ∃ listed d a unitPrice totalPrice,
      Reconciles bid (.object members) listPrices maxDiscountPct listed d a unitPrice totalPrice := by
  constructor
  · intro admitted
    cases found : bid.get (str "offer") with
    | object members => exact ⟨members, rfl, reconciles_of_admitted found admitted⟩
    | _ =>
        rw [Price.priceReasons, found] at admitted
        cases admitted
  · rintro ⟨members, found, listed, d, a, unitPrice, totalPrice, reconciles⟩
    rw [priceReasons_of_unitReconciles found reconciles.toUnitReconciles]
    exact (totalReasons_eq_nil_iff reconciles.total.2).mpr reconciles.underTotal

/-! ## The roster left out, and a lower cap -/

omit [Unicode] in
theorem rosterRow_nil (offer : Document) :
    Price.rosterRow offer .null = Price.rosterRow offer (.object []) := by
  unfold Price.rosterRow
  cases offer.get (str "product_ref") <;> rfl

theorem priceReasons_without_roster (bid maxDiscountPct : Document) :
    Price.priceReasons bid .null maxDiscountPct =
      Price.priceReasons bid (.object []) maxDiscountPct := by
  unfold Price.priceReasons Price.offerPriceReasons Price.authorizedDepth Price.rosterListPrice
  rw [rosterRow_nil]

omit [Unicode] in
theorem authorizes_amount_iff {offer : Document} {cap c : ℚ} :
    Authorizes offer listPrices (amount cap) c ↔ 0 ≤ c ∧ c ≤ 100 ∧
      ((∃ row, Price.rosterRow offer listPrices = some row ∧
          row.get maxDiscountRosterKey = amount c) ∨
        ((∀ row, Price.rosterRow offer listPrices = some row →
          row.get maxDiscountRosterKey = .null) ∧ cap = c)) := by
  rw [Authorizes, amount_inj]

omit [Unicode] in
theorem basis_of_lower {offer : Document} {lower upper : ℚ} (le : lower ≤ upper)
    (readable : upper ≤ 100) (h : Basis offer listPrices (amount lower) d a) :
    ∃ b, Basis offer listPrices (amount upper) d b ∧ a ≤ b ∧
      (a = b ∨ (d = 0 ∧ (0 < a ∨ (lower ≤ 0 ∧ 0 < upper)))) := by
  rcases h with ⟨positive, rfl, c, cap, within⟩ | ⟨rfl, cap | ⟨rfl, none⟩⟩
  · refine ⟨a, ?_, le_rfl, .inl rfl⟩
    obtain ⟨low, high, row | ⟨silent, rfl⟩⟩ := authorizes_amount_iff.mp cap
    · exact .inl ⟨positive, rfl, c, authorizes_amount_iff.mpr ⟨low, high, .inl row⟩, within⟩
    · exact .inl ⟨positive, rfl, upper,
        authorizes_amount_iff.mpr ⟨low.trans le, readable, .inr ⟨silent, rfl⟩⟩, within.trans le⟩
  · obtain ⟨low, high, row | ⟨silent, rfl⟩⟩ := authorizes_amount_iff.mp cap
    · exact ⟨a, .inr ⟨rfl, .inl (authorizes_amount_iff.mpr ⟨low, high, .inl row⟩)⟩, le_rfl, .inl rfl⟩
    · refine ⟨upper, .inr ⟨rfl, .inl (authorizes_amount_iff.mpr
        ⟨low.trans le, readable, .inr ⟨silent, rfl⟩⟩)⟩, le, ?_⟩
      rcases low.eq_or_lt with zero | positive
      · rcases (zero ▸ le : (0 : ℚ) ≤ upper).eq_or_lt with same | above
        · exact .inl (zero.symm.trans same)
        · exact .inr ⟨rfl, .inr ⟨zero.ge, above⟩⟩
      · exact .inr ⟨rfl, .inl positive⟩
  · by_cases some : ∃ c, Authorizes offer listPrices (amount upper) c
    · obtain ⟨c, cap⟩ := some
      refine ⟨c, .inr ⟨rfl, .inl cap⟩, cap.1, ?_⟩
      obtain ⟨low, high, row | ⟨silent, rfl⟩⟩ := authorizes_amount_iff.mp cap
      · exact absurd (authorizes_amount_iff.mpr ⟨low, high, .inl row⟩) (none c)
      · rcases low.eq_or_lt with zero | positive
        · exact .inl zero
        · refine .inr ⟨rfl, .inr ⟨?_, positive⟩⟩
          by_contra above
          exact none lower (authorizes_amount_iff.mpr
            ⟨(not_le.mp above).le, le.trans readable, .inr ⟨silent, rfl⟩⟩)
    · exact ⟨0, .inr ⟨rfl, .inr ⟨rfl, not_exists.mp some⟩⟩, le_rfl, .inl rfl⟩

/-- Where a lower cap admits, the higher one does too; unless the lower one is no longer positive,
no depth is declared, and the total price is under the unit price at the higher one. -/
theorem admitted_of_lower {lower upper : ℚ} (le : lower ≤ upper) (readable : upper ≤ 100)
    (admitted : Price.priceReasons bid listPrices (amount lower) = []) :
    Price.priceReasons bid listPrices (amount upper) = [] ∨
      (lower ≤ 0 ∧ 0 < upper ∧ Declares (bid.get (str "offer")) 0 ∧
        Price.priceReasons bid listPrices (amount upper) =
          [underDeclaredDepth offerTotalPriceSite]) := by
  obtain ⟨members, found, listed, d, a, unitPrice, totalPrice, h⟩ := admitted_iff.mp admitted
  obtain ⟨b, basis, deeper, moved⟩ := basis_of_lower le readable h.basis
  have cheaper {price : ℚ} (nonneg : 0 ≤ price) :
      price * (100 - b) / 100 ≤ price * (100 - a) / 100 := by
    gcongr
  have verdict := priceReasons_of_unitReconciles found { h.toUnitReconciles with
    basis := basis
    underUnit := (cheaper h.priced.1).trans h.underUnit }
  have same : (a = b ∨ 0 < a) → Price.priceReasons bid listPrices (amount upper) = [] := by
    rintro kept
    rw [verdict, totalReasons_eq_nil_iff h.total.2]
    intro positive
    rcases kept with rfl | also
    · exact h.underTotal positive
    · exact (cheaper h.unit.2).trans (h.underTotal also)
  rcases moved with kept | ⟨rfl, positive | ⟨nothing, above⟩⟩
  · exact .inl (same (.inl kept))
  · exact .inl (same (.inr positive))
  · rw [verdict]
    unfold Price.totalReasons
    dsimp only
    split
    · exact .inr ⟨nothing, above, by rw [found]; exact h.declared, rfl⟩
    · exact .inl rfl

/-- A document is admitted exactly when its offer reconciles; a roster left out is an empty one; and
a lower readable cap admits no more, but for an offer without a declared depth whose total price the
higher cap refuses and the lower one, authorizing nothing, leaves alone. -/
theorem priceWall_sound (bid listPrices maxDiscountPct : Document) :
    (Price.priceReasons bid listPrices maxDiscountPct = [] →
      ∃ members, bid.get (str "offer") = .object members ∧ ∃ listed d a unitPrice totalPrice,
        Reconciles bid (.object members) listPrices maxDiscountPct listed d a unitPrice totalPrice) ∧
    Price.priceReasons bid .null maxDiscountPct =
      Price.priceReasons bid (.object []) maxDiscountPct ∧
    ∀ lower upper : ℚ, lower ≤ upper → upper ≤ 100 →
      Price.priceReasons bid listPrices (amount lower) = [] →
      Price.priceReasons bid listPrices (amount upper) = [] ∨
        (lower ≤ 0 ∧ 0 < upper ∧ Declares (bid.get (str "offer")) 0 ∧
          Price.priceReasons bid listPrices (amount upper) =
            [underDeclaredDepth offerTotalPriceSite]) :=
  ⟨admitted_iff.mp, priceReasons_without_roster bid maxDiscountPct,
    fun _ _ => admitted_of_lower⟩

end Admission

/-! ## A lower cap that admits -/

/-- List price and unit price a hundred, total price one, no discount. -/
def undiscountedBid : Document :=
  .object [(str "offer", .object [
    (str "product_ref", .string (str "prod-1")),
    (str "unit_price", amount 100),
    (str "total_price", amount 1)])]

def rosterAtHundred : Document := .object [(str "prod-1", amount 100)]

theorem lower_cap_admits : letI := Unicode.ascii
    Price.priceReasons undiscountedBid rosterAtHundred (amount 20) ≠ [] ∧
      Price.priceReasons undiscountedBid rosterAtHundred (amount 0) = [] := by
  decide +kernel

theorem undiscountedBid_reconciles : letI := Unicode.ascii
    ∃ members, undiscountedBid.get (str "offer") = .object members ∧
      ∃ listed d a unitPrice totalPrice, Reconciles undiscountedBid (.object members)
        rosterAtHundred (amount 0) listed d a unitPrice totalPrice := by
  let tables : Unicode := Unicode.ascii
  exact (priceWall_sound undiscountedBid rosterAtHundred (amount 0)).1 (by decide +kernel)

end PriceWall
end Proxyshop.Contracts
