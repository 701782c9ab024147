import Proxyshop.Auction.Malformed
import Proxyshop.Numbers.Monotone

/-!
# What the entries charge

Whether a bid is judged or not, an entry charges for a listed product no less than its floor. A bid
that nothing turns the wall on for was read by the same predicates that the wall would refuse it by.
-/

namespace Proxyshop.Auction.Collect

open Python Numbers Contracts Structures Boundary

/-! ## The floor -/

def nought : Binary64 := ⟨0, 0, 0, by norm_num, by norm_num, by norm_num, by norm_num⟩

theorem hundred_eq : (100.0 : Extended Binary64) = .finite hundred :=
  Binary64.literal_eq hundred (by rw [hundred]; norm_num)

theorem nought_eq : (0.0 : Extended Binary64) = .finite nought :=
  Binary64.literal_eq nought (by rw [nought]; norm_num)

theorem positive_iff {x : Binary64} : (0.0 : Extended Binary64) < .finite x ↔ 0 < x.value := by
  rw [nought_eq]
  exact Extended.finite_lt_finite

theorem negative_iff {x : Binary64} : Extended.finite x < 0.0 ↔ x.value < 0 := by
  rw [nought_eq]
  exact Extended.finite_lt_finite

theorem eq_nought_iff {x : Binary64} : Extended.finite x = 0.0 ↔ x.value = 0 := by
  rw [nought_eq, Extended.finite.injEq]
  exact ⟨fun same => same ▸ rfl, fun same => Binary64.ext same⟩

theorem fraction_le {x : Binary64} (positive : 0 ≤ x.value) {f : Binary64}
    (high : f.value ≤ 1) : Extended.finite x * .finite f ≤ .finite x := by
  show Binary64.round (x.value * f.value) ≤ .finite x
  rw [← Binary64.round_value x]
  exact Binary64.round_mono (mul_le_of_le_one_right positive high)

theorem priceFloor_le {x : Binary64} (positive : 0 < x.value) :
    priceFloor (.finite x) ≤ Extended.finite x := by
  obtain ⟨f, fraction, high⟩ : ∃ f : Binary64,
      (priceFloorFraction : Extended Binary64) = .finite f ∧ f.value ≤ 1 := by
    obtain ⟨f, made, -, high⟩ := Binary64.round_between (q := (0.001 : ℚ))
      (x := ⟨1, 1, 0, by norm_num, by norm_num, by norm_num, by decide +kernel⟩) (by norm_num)
      (by norm_num)
    exact ⟨f, made, high⟩
  unfold priceFloor
  apply Extended.greatest_le
  · rw [fraction]
    exact fraction_le positive.le high
  · split
    · rename_i payable
      apply Extended.le_through (Extended.least_le_left _) payable
      exact Binary64.round_ne_nan _
    · apply Extended.le_of_less
      exact positive_iff.mpr positive

/-! ## The bound -/

theorem discounted_of_depth {x d : Binary64} (low : 0 ≤ d.value) (high : d.value ≤ 100) :
    ∃ r : Binary64, Binary64.round (100 - d.value) = .finite r ∧ 0 ≤ r.value ∧
      Price.discounted (.finite x) (.finite d) =
        Binary64.round (x.value * r.value) / .finite hundred := by
  obtain ⟨r, made, nonnegative, -⟩ := Binary64.round_between (q := 100 - d.value) (x := hundred)
    (by linarith) (by show 100 - d.value ≤ 100; linarith)
  refine ⟨r, made, nonnegative, ?_⟩
  unfold Price.discounted
  rw [hundred_eq]
  show _ * Binary64.round (100 - d.value) / _ = _
  rw [made]
  rfl

theorem discounted_anti {x c d : Binary64} (positive : 0 ≤ x.value) (low : 0 ≤ d.value)
    (h : d.value ≤ c.value) (high : c.value ≤ 100) :
    Price.discounted (.finite x) (.finite c) ≤ Price.discounted (.finite x) (.finite d) := by
  obtain ⟨r, made, -, left⟩ := discounted_of_depth (x := x) (low.trans h) high
  obtain ⟨r', made', -, right⟩ := discounted_of_depth (x := x) low (h.trans high)
  have remaining : Extended.finite r ≤ Extended.finite r' := by
    rw [← made, ← made']
    exact Binary64.round_mono (by linarith)
  rw [left, right]
  apply Binary64.div_mono (show (0 : ℚ) < 100 by norm_num)
  exact Binary64.round_mono (mul_le_mul_of_nonneg_left (Extended.finite_le_finite.mp remaining)
    positive)

theorem discounted_ne_nan {x d : Binary64} (low : 0 ≤ d.value) (high : d.value ≤ 100) :
    Price.discounted (.finite x) (.finite d) ≠ .nan := by
  obtain ⟨r, -, -, made⟩ := discounted_of_depth (x := x) low high
  rw [made]
  exact Binary64.div_ne_nan (show (0 : ℚ) < 100 by norm_num) (Binary64.round_ne_nan _)

/-! ## A bid the boundary is silent on -/

section Walls

variable [Unicode] {text : Wire Binary64 → Str} {bid offer : Wire Binary64}
  {rostered : Rostered Binary64}

def capOf (rostered : Rostered Binary64) : Option (Extended Binary64) :=
  let stated := rostered.get maxDiscountRosterKey
  if stated.isNull then none else (Price.readCap (Wire.amount stated)).1

omit [Unicode] in
theorem readCap_cases (cap : Option (Extended Binary64)) :
    (∃ c, cap = some c ∧ Price.readCap cap = (some c, []) ∧ ¬ c < 0.0 ∧ ¬ 100.0 < c) ∨
      (Price.readCap cap).1 = none ∧ (Price.readCap cap).2 ≠ [] := by
  unfold Price.readCap
  cases cap with
  | none => exact Or.inr ⟨rfl, List.cons_ne_nil _ _⟩
  | some c =>
      dsimp only
      split
      · exact Or.inr ⟨rfl, List.cons_ne_nil _ _⟩
      · rename_i inside
        exact Or.inl ⟨c, rfl, rfl, fun below => inside (Or.inl below),
          fun above => inside (Or.inr above)⟩

omit [Unicode] in
theorem capOf_finite {c : Extended Binary64} (read : capOf rostered = some c) :
    ∃ x : Binary64, c = .finite x ∧ 0 ≤ x.value ∧ x.value ≤ 100 := by
  unfold capOf at read
  dsimp only at read
  split at read
  · cases read
  · rcases readCap_cases (Wire.amount (rostered.get maxDiscountRosterKey)) with
      ⟨c', amount, cap, low, high⟩ | ⟨none, -⟩
    · rw [cap] at read
      obtain rfl := Option.some.inj read
      obtain ⟨x, rfl⟩ := Extended.isFinite_iff.mp (Wire.amount_finite amount)
      rw [hundred_eq, Extended.finite_lt_finite] at high
      rw [negative_iff] at low
      exact ⟨x, rfl, not_lt.mp low, not_lt.mp high⟩
    · rw [none] at read
      cases read

omit [Unicode] in
theorem authorizedDepth_capOf {cap : Option (Extended Binary64) × List Str}
    (read : authorizedDepth (some rostered.value) .null = .ok cap) :
    cap.1 = capOf rostered ∧ (cap.1 = none → cap.2 ≠ []) := by
  unfold authorizedDepth at read
  unfold capOf
  rw [Option.elim_some, value_get] at read
  by_cases silent : (rostered.get maxDiscountRosterKey).isNull = true
  · simp only [silent, if_true, Json.isNull_null] at read ⊢
    obtain rfl := Except.ok.inj read
    exact ⟨rfl, fun _ => List.cons_ne_nil _ _⟩
  · simp only [silent, if_false, Bool.false_eq_true] at read ⊢
    obtain ⟨amount, number, read⟩ := bind_eq_ok.mp read
    obtain ⟨-, rfl⟩ := Wire.finiteNumber_eq_ok.mp number
    obtain rfl := Except.ok.inj read
    refine ⟨rfl, fun none => ?_⟩
    rcases readCap_cases (Wire.amount (rostered.get maxDiscountRosterKey)) with
      ⟨c, -, cap, -⟩ | ⟨-, refused⟩
    · rw [cap] at none
      cases none
    · exact refused

theorem declared_cases (offer : Wire Binary64) :
    (∃ x : Binary64, declared offer = (some (.finite x), []) ∧ 0 ≤ x.value ∧ x.value ≤ 100 ∧
        ((offer.get (str "discount")).isNull = true ∨
          Wire.amount (depthOf offer) = some (.finite x))) ∨
      (declared offer).1 = none ∧ (declared offer).2 ≠ [] := by
  unfold declared
  split
  · rename_i absent
    left
    refine ⟨nought, by rw [nought_eq], le_refl (0 : ℚ), ?_, Or.inl absent⟩
    show (0 : ℚ) ≤ 100
    norm_num
  · unfold declaredBy
    cases amount : Wire.amount (depthOf offer) with
    | none => exact Or.inr ⟨rfl, List.cons_ne_nil _ _⟩
    | some d =>
        obtain ⟨x, rfl⟩ := Extended.isFinite_iff.mp (Wire.amount_finite amount)
        dsimp only
        by_cases nothing : Extended.finite x = (0.0 : Extended Binary64)
        · rw [if_pos nothing]
          have zero := eq_nought_iff.mp nothing
          left
          refine ⟨x, by rw [nothing], zero.ge, ?_, Or.inr rfl⟩
          rw [zero]
          norm_num
        · rw [if_neg nothing]
          split
          · exact Or.inr ⟨rfl, List.cons_ne_nil _ _⟩
          · split
            · exact Or.inr ⟨rfl, List.cons_ne_nil _ _⟩
            · rename_i inside
              rw [not_or, negative_iff, hundred_eq, Extended.finite_lt_finite, not_lt, not_lt] at inside
              exact Or.inl ⟨x, rfl, inside.1, inside.2, Or.inr rfl⟩

omit [Unicode] in
theorem numberReasons_silent {site : Str} {price : Option (Extended Binary64)}
    (silent : Price.numberReasons site price = []) : ∃ p, price = some p ∧ ¬ p < 0.0 := by
  cases price with
  | none => cases silent
  | some p =>
      refine ⟨p, rfl, fun negative => ?_⟩
      rw [Price.numberReasons, if_pos negative] at silent
      cases silent

theorem offerPriceReasons_silent {row : Option (Wire Binary64)}
    (silent : offerPriceReasons bid offer row .null = .ok []) :
    ∃ d u t cap carried held, declared offer = (some d, []) ∧
      Wire.amount (offer.get (str "unit_price")) = some u ∧ ¬ u < 0.0 ∧
      Wire.amount (offer.get (str "total_price")) = some t ∧ ¬ t < 0.0 ∧
      authorizedDepth row .null = .ok cap ∧ rosterListPrice row = .ok held ∧
      Price.relationReasons (Price.authorization cap d) carried held u (some t) = [] := by
  unfold offerPriceReasons at silent
  cases legible : offer.record? with
  | none =>
      rw [legible] at silent
      cases silent
  | some members =>
      simp only [legible] at silent
      obtain ⟨stated, depth_eq, silent⟩ := bind_eq_ok.mp silent
      obtain ⟨unit, unit_eq, silent⟩ := bind_eq_ok.mp silent
      obtain ⟨total, total_eq, silent⟩ := bind_eq_ok.mp silent
      obtain ⟨-, rfl⟩ := declaredDepth_eq_ok.mp depth_eq
      obtain ⟨-, rfl⟩ := Wire.finiteNumber_eq_ok.mp unit_eq
      obtain ⟨-, rfl⟩ := Wire.finiteNumber_eq_ok.mp total_eq
      have quiet : (declared offer).2 = [] ∧
          Price.numberReasons offerUnitPriceSite (Wire.amount (offer.get (str "unit_price"))) = [] ∧
          Price.numberReasons offerTotalPriceSite (Wire.amount (offer.get (str "total_price"))) = [] := by
        split at silent
        · split at silent
          · have reasons := Except.ok.inj silent
            simpa only [List.append_eq_nil_iff, and_assoc] using reasons
          · obtain ⟨cap, -, silent⟩ := bind_eq_ok.mp silent
            obtain ⟨carried, -, silent⟩ := bind_eq_ok.mp silent
            obtain ⟨held, -, silent⟩ := bind_eq_ok.mp silent
            have reasons := (List.append_eq_nil_iff.mp (Except.ok.inj silent)).1
            simpa only [List.append_eq_nil_iff, and_assoc] using reasons
        · have reasons := Except.ok.inj silent
          simpa only [List.append_eq_nil_iff, and_assoc] using reasons
      obtain ⟨depth, unit, total⟩ := quiet
      obtain ⟨u, priced, positive⟩ := numberReasons_silent unit
      obtain ⟨t, totalled, positive'⟩ := numberReasons_silent total
      obtain ⟨x, stated, -⟩ := (declared_cases offer).resolve_right fun refused => refused.2 depth
      rw [stated, priced, totalled] at silent
      simp only [positive, if_false] at silent
      obtain ⟨cap, cap_eq, silent⟩ := bind_eq_ok.mp silent
      obtain ⟨carried, -, silent⟩ := bind_eq_ok.mp silent
      obtain ⟨held, held_eq, silent⟩ := bind_eq_ok.mp silent
      exact ⟨_, u, t, cap, carried, held, stated, priced, positive, totalled, positive', cap_eq,
        held_eq, (List.append_eq_nil_iff.mp (Except.ok.inj silent)).2⟩

/-! ## What is charged -/

structure Lists (rostered : Rostered Binary64) (listed : Binary64) : Prop where
  amount : Wire.amount (rostered.get (str "list_price")) = some (.finite listed)
  positive : 0 < listed.value

/-- The offer charges a price, and as much in total, that are no less than a floor. -/
def Charges (offer : Wire Binary64) (floor : Extended Binary64) : Prop :=
  ∃ u t, Wire.amount (offer.get (str "unit_price")) = some u ∧
    Wire.amount (offer.get (str "total_price")) = some t ∧ floor ≤ u ∧ floor ≤ t

/-- A cap that is stated bounds the unit price; one that cannot be read authorizes nothing. -/
def Bounded (rostered : Rostered Binary64) (offer : Wire Binary64) (listed : Extended Binary64) : Prop :=
  (rostered.get maxDiscountRosterKey).isNull = false →
    ∃ u, Wire.amount (offer.get (str "unit_price")) = some u ∧
      (u = listed ∨ Price.discounted listed ((capOf rostered).getD 0.0) ≤
        u + priceReconciliationTolerance)

/-- A discount declared is one that the cap of the row covers. -/
def Authorized (rostered : Rostered Binary64) (offer : Wire Binary64) : Prop :=
  ∀ n, depthOf offer = .number n → 0.0 < n.nearest → ∃ c, capOf rostered = some c ∧ n.nearest ≤ c

omit [Unicode] in
variable (text) in
/-- What is offered is nothing, or the product listed by one key or by one text. -/
def SameProduct (listed offered : Wire Binary64) : Prop :=
  offered = .null ∨ Wire.sameKey listed offered = true ∨
    ∃ s t, Wire.write text offered = .ok s ∧ Wire.write text listed = .ok t ∧ s.strip = t.strip

variable (text) in
/-- The offer names the product of the row, or it names none; what cannot be written is left open. -/
def NamesProduct (rostered : Rostered Binary64) (offer : Wire Binary64) : Prop :=
  rostered.get (str "product_ref") ≠ .null →
    Wire.writable (offer.get (str "product_ref")) = true →
    Wire.writable (rostered.get (str "product_ref")) = true →
      SameProduct text (rostered.get (str "product_ref")) (offer.get (str "product_ref"))

omit [Unicode] in
theorem floor_of_silent {floor p : Extended Binary64} {site : Str} (priced : p.isFinite = true)
    (defined : floor ≠ .nan) (positive : ¬ p < 0.0)
    (silent : Price.belowFloorReasons floor site (some p) = []) : floor ≤ p := by
  obtain ⟨x, rfl⟩ := Extended.isFinite_iff.mp priced
  unfold Price.belowFloorReasons at silent
  dsimp only at silent
  split at silent
  · cases silent
  · rename_i something
    split at silent
    · cases silent
    · rename_i inside
      have above : 0 < x.value := by
        rw [negative_iff, not_lt] at positive
        rw [eq_nought_iff] at something
        exact lt_of_le_of_ne positive (Ne.symm something)
      apply Extended.le_of_not_less (fun undefined => by cases undefined) defined
      exact fun below => inside ⟨positive_iff.mpr above, below⟩

omit [Unicode] in
theorem priceFloor_ne_nan {x : Binary64} (positive : 0 < x.value) :
    priceFloor (.finite x) ≠ (.nan : Extended Binary64) := by
  intro undefined
  have under := priceFloor_le positive
  rw [undefined] at under
  cases under

omit [Unicode] in
theorem authorization_silent {x : Binary64} {cap : Option (Extended Binary64) × List Str}
    (capped : cap.1 = capOf rostered) (refusing : cap.1 = none → cap.2 ≠ []) (low : 0 ≤ x.value)
    (silent : (Price.authorization cap (.finite x)).2 = []) :
    ∃ g c : Binary64, (Price.authorization cap (.finite x)).1 = .finite g ∧
      (capOf rostered).getD 0.0 = .finite c ∧ 0 ≤ g.value ∧ g.value ≤ c.value ∧ c.value ≤ 100 ∧
      (0 < x.value → ∃ limit, capOf rostered = some limit ∧ Extended.finite x ≤ limit) := by
  unfold Price.authorization at silent ⊢
  rw [← capped]
  by_cases positive : (0.0 : Extended Binary64) < .finite x
  · simp only [if_pos positive] at silent ⊢
    cases limit : cap.1 with
    | none =>
        rw [limit] at silent
        exact absurd silent (refusing limit)
    | some c =>
        obtain ⟨y, rfl, low', high⟩ := capOf_finite (capped.symm.trans limit)
        simp only [limit, List.append_eq_nil_iff] at silent
        have covered : ¬ Extended.finite y < Extended.finite x := by
          intro deeper
          rw [if_pos deeper] at silent
          exact List.cons_ne_nil _ _ silent.2
        have under : x.value ≤ y.value := not_lt.mp fun deeper =>
          covered (Extended.finite_lt_finite.mpr deeper)
        refine ⟨x, y, if_neg covered, rfl, low, under, high, fun _ => ⟨_, rfl, ?_⟩⟩
        exact Extended.finite_le_finite.mpr under
  · simp only [if_neg positive]
    have nothing : x.value = 0 :=
      le_antisymm (not_lt.mp fun above => positive (positive_iff.mpr above)) low
    cases limit : cap.1 with
    | none =>
        refine ⟨x, nought, rfl, nought_eq, low, nothing.le, ?_, fun above => ?_⟩
        · show (0 : ℚ) ≤ 100
          norm_num
        · exact absurd above (not_lt.mpr nothing.le)
    | some c =>
        obtain ⟨y, rfl, low', high⟩ := capOf_finite (capped.symm.trans limit)
        exact ⟨y, y, rfl, rfl, low', le_rfl, high, fun above => absurd above (not_lt.mpr nothing.le)⟩

omit [Unicode] in
theorem bounded_of_silent {listed g c : Binary64} {u : Extended Binary64}
    {carried : Option (Extended Binary64)} (priced : u.isFinite = true) (positive : 0 < listed.value)
    (low : 0 ≤ g.value) (covered : g.value ≤ c.value) (high : c.value ≤ 100)
    (silent : Price.unitReasons ((some (.finite listed)).or carried) u (.finite g) = []) :
    Price.discounted (.finite listed) (.finite c) ≤ u + priceReconciliationTolerance := by
  obtain ⟨x, rfl⟩ := Extended.isFinite_iff.mp priced
  rw [Option.some_or, Price.unitReasons, ite_eq_right_iff] at silent
  have defined : Extended.finite x + priceReconciliationTolerance ≠ (.nan : Extended Binary64) := by
    have tolerated : (priceReconciliationTolerance : Extended Binary64) ≠ .nan :=
      Binary64.round_ne_nan _
    cases tolerance : (priceReconciliationTolerance : Extended Binary64) with
    | finite y => exact Binary64.round_ne_nan _
    | infinity s => nofun
    | nan => exact absurd tolerance tolerated
  have enough : ¬ Extended.finite x + priceReconciliationTolerance <
      Price.discounted (.finite listed) (.finite g) :=
    fun under => List.cons_ne_nil _ _ (silent under)
  exact Extended.le_through (discounted_anti positive.le low covered high)
    (Extended.le_of_not_less defined (discounted_ne_nan low (covered.trans high)) enough)

theorem rowReasons_silent {listed : Binary64} (lists : Lists rostered listed)
    (silent : rowReasons bid rostered = .ok []) :
    Charges (bid.get (str "offer")) (priceFloor (.finite listed)) ∧
      Bounded rostered (bid.get (str "offer")) (.finite listed) ∧
      Authorized rostered (bid.get (str "offer")) ∧
      Wire.sameKey (rostered.get (str "product_ref")) ((bid.get (str "offer")).get (str "product_ref")) =
        true := by
  obtain ⟨d, u, t, cap, carried, held, stated, priced, positive, totalled, positive', cap_eq, held_eq,
    relations⟩ := offerPriceReasons_silent silent
  rw [rosterRow_cases] at cap_eq held_eq
  unfold Price.relationReasons at relations
  simp only [List.append_eq_nil_iff] at relations
  obtain ⟨⟨⟨⟨⟨⟨granted, -⟩, heldSilent⟩, -⟩, floors⟩, units⟩, -⟩ := relations
  split at cap_eq
  · rename_i same
    rw [if_pos same] at held_eq
    have number : Wire.finiteNumber (rostered.value.record.get listPriceClaimKey) =
        .ok (some (.finite listed)) := by
      rw [value_get]
      exact Wire.finiteNumber_eq_ok.mpr ⟨Wire.huge_of_amount lists.amount, lists.amount⟩
    have reading : rosterListPrice (some rostered.value) = .ok (some (.finite listed), []) := by
      show Wire.finiteNumber (rostered.value.record.get listPriceClaimKey) >>= _ = _
      rw [number]
      show Except.ok (readListed (some (.finite listed))) = _
      rw [readListed, if_neg (fun negative => absurd (negative_iff.mp negative)
        (not_lt.mpr lists.positive.le))]
    obtain rfl := Except.ok.inj (held_eq.symm.trans reading)
    obtain ⟨capped, refusing⟩ := authorizedDepth_capOf cap_eq
    have bounds : (0.0 : Extended Binary64) < .finite listed := positive_iff.mpr lists.positive
    have depth : ∃ x : Binary64, d = .finite x ∧ 0 ≤ x.value ∧ x.value ≤ 100 ∧
        (((bid.get (str "offer")).get (str "discount")).isNull = true ∨
          Wire.amount (depthOf (bid.get (str "offer"))) = some (.finite x)) := by
      obtain ⟨x, stated', rest⟩ := (declared_cases (bid.get (str "offer"))).resolve_right
        fun refused => by rw [stated] at refused; exact refused.2 rfl
      rw [stated] at stated'
      exact ⟨x, Option.some.inj (Prod.mk.inj stated').1, rest⟩
    obtain ⟨x, rfl, low, high, source⟩ := depth
    obtain ⟨g, c, authorized, read, floor, covered, top, limited⟩ :=
      authorization_silent capped refusing low granted
    refine ⟨?_, ?_, ?_, same⟩
    · rw [Price.floorReasons, if_pos bounds, List.append_eq_nil_iff] at floors
      have defined := priceFloor_ne_nan lists.positive
      exact ⟨u, t, priced, totalled,
        floor_of_silent (Wire.amount_finite priced) defined positive floors.1,
        floor_of_silent (Wire.amount_finite totalled) defined positive' floors.2⟩
    · intro _
      refine ⟨u, priced, Or.inr ?_⟩
      rw [authorized] at units
      rw [read]
      exact bounded_of_silent (Wire.amount_finite priced) lists.positive floor covered top units
    · intro n stated positive
      rcases source with absent | amount
      · rw [depthOf, Json.isNull_iff.mp absent] at stated
        cases stated
      · have nearest : n.nearest = .finite x := by
          rw [stated, Wire.amount, Option.ite_none_right_eq_some] at amount
          exact Option.some.inj amount.2
        rw [nearest] at positive ⊢
        exact limited (positive_iff.mp positive)
  · rename_i other
    rw [if_neg other] at held_eq
    obtain rfl := Except.ok.inj held_eq
    cases heldSilent

/-! ## A bid that is not judged -/

omit [Unicode] in
theorem isJudged_false {offer : Wire Binary64} (asked : isJudged text offer rostered = .ok false) :
    declaresADiscount offer = .ok false ∧ statesAnAuthorizedDepth rostered = false ∧
      pricedAtNothing offer rostered = .ok false ∧ belowThePriceFloor offer rostered = .ok false ∧
      answersAboutAnotherProduct text offer rostered = false := by
  unfold isJudged at asked
  obtain ⟨declares, declares_eq, asked⟩ := bind_eq_ok.mp asked
  cases declares with
  | true => cases asked
  | false =>
      cases states : statesAnAuthorizedDepth rostered with
      | true =>
          rw [states] at asked
          cases asked
      | false =>
          rw [states] at asked
          obtain ⟨nothing, nothing_eq, asked⟩ := bind_eq_ok.mp asked
          cases nothing with
          | true => cases asked
          | false =>
              obtain ⟨unreadable, -, asked⟩ := bind_eq_ok.mp asked
              cases unreadable with
              | true => cases asked
              | false =>
                  obtain ⟨under, under_eq, asked⟩ := bind_eq_ok.mp asked
                  cases under with
                  | true => cases asked
                  | false => exact ⟨declares_eq, rfl, nothing_eq, under_eq, Except.ok.inj asked⟩

omit [Unicode] in
theorem floor_of_unjudged {floor : Extended Binary64} {price : Option (Extended Binary64)}
    (finite : ∀ p, price = some p → p.isFinite = true) (defined : floor ≠ .nan)
    (something : isNothing price = false) (enough : isUnder floor price = false) :
    ∃ p, price = some p ∧ floor ≤ p := by
  cases price with
  | none => cases something
  | some p =>
      obtain ⟨x, rfl⟩ := Extended.isFinite_iff.mp (finite p rfl)
      rw [isNothing, Option.all_some, decide_eq_false_iff_not] at something
      rw [isUnder, Option.any_some, decide_eq_false_iff_not] at enough
      refine ⟨_, rfl, Extended.le_of_not_less (fun undefined => by cases undefined) defined ?_⟩
      intro below
      apply enough
      refine ⟨positive_iff.mpr (not_le.mp fun nonpositive => something ?_), below⟩
      rw [nought_eq]
      exact Extended.finite_le_finite.mpr nonpositive

omit [Unicode] in
theorem charges_of_unjudged {offer : Wire Binary64} {listed : Binary64} (lists : Lists rostered listed)
    (nothing : pricedAtNothing offer rostered = .ok false)
    (under : belowThePriceFloor offer rostered = .ok false) :
    Charges offer (priceFloor (.finite listed)) := by
  have read : Wire.finiteNumber (rostered.get (str "list_price")) = .ok (some (.finite listed)) :=
    Wire.finiteNumber_eq_ok.mpr ⟨Wire.huge_of_amount lists.amount, lists.amount⟩
  have above : ¬ Extended.finite listed ≤ (0.0 : Extended Binary64) :=
    Extended.not_le_of_less (positive_iff.mpr lists.positive)
  unfold pricedAtNothing at nothing
  obtain ⟨stated, stated_eq, nothing⟩ := bind_eq_ok.mp nothing
  obtain rfl := Except.ok.inj (read.symm.trans stated_eq)
  simp only [if_neg above] at nothing
  split at nothing
  · cases nothing
  · rename_i legible
    obtain ⟨unit, unit_eq, nothing⟩ := bind_eq_ok.mp nothing
    split at nothing
    · cases nothing
    · rename_i something
      obtain ⟨total, total_eq, nothing⟩ := bind_eq_ok.mp nothing
      have something' := Except.ok.inj nothing
      unfold belowThePriceFloor at under
      obtain ⟨stated, stated_eq, under⟩ := bind_eq_ok.mp under
      obtain rfl := Except.ok.inj (read.symm.trans stated_eq)
      simp only [above, legible, or_self, if_false, Bool.false_eq_true] at under
      obtain ⟨unit', unit_eq', under⟩ := bind_eq_ok.mp under
      obtain rfl := Except.ok.inj (unit_eq.symm.trans unit_eq')
      split at under
      · cases under
      · rename_i enough
        obtain ⟨total', total_eq', under⟩ := bind_eq_ok.mp under
        obtain rfl := Except.ok.inj (total_eq.symm.trans total_eq')
        have enough' := Except.ok.inj under
        obtain ⟨-, rfl⟩ := Wire.finiteNumber_eq_ok.mp unit_eq
        obtain ⟨-, rfl⟩ := Wire.finiteNumber_eq_ok.mp total_eq
        have defined := priceFloor_ne_nan lists.positive
        obtain ⟨u, priced, floor⟩ := floor_of_unjudged (fun _ => Wire.amount_finite) defined
          (Bool.not_eq_true _ ▸ something) (Bool.not_eq_true _ ▸ enough)
        obtain ⟨t, totalled, floor'⟩ := floor_of_unjudged (fun _ => Wire.amount_finite) defined
          something' enough'
        exact ⟨u, t, priced, totalled, floor, floor'⟩

omit [Unicode] in
theorem authorized_of_undeclared {offer : Wire Binary64}
    (undeclared : declaresADiscount offer = .ok false) : Authorized rostered offer := by
  intro n stated positive
  unfold declaresADiscount at undeclared
  dsimp only at undeclared
  split at undeclared
  · rename_i absent
    rw [depthOf, Json.isNull_iff.mp absent] at stated
    cases stated
  · have number : (offer.get (str "discount")).get (str "value") = .number n := stated
    simp only [number] at undeclared
    obtain ⟨x, read, undeclared⟩ := bind_eq_ok.mp undeclared
    rw [Literal.toDouble_eq] at read
    split at read
    · cases read
    · obtain rfl := Except.ok.inj read
      split at undeclared
      · rename_i y nearest
        have zero : y.value = 0 := not_not.mp (of_decide_eq_false (Except.ok.inj undeclared))
        rw [nearest, positive_iff, zero] at positive
        exact absurd positive (lt_irrefl _)
      · cases undeclared

omit [Unicode] in
theorem names_of_unjudged {offer : Wire Binary64}
    (same : answersAboutAnotherProduct text offer rostered = false) :
    NamesProduct text rostered offer := by
  intro present writable writable'
  unfold answersAboutAnotherProduct at same
  by_cases absent : (offer.get (str "product_ref")).isNull = true
  · exact Or.inl (Json.isNull_iff.mp absent)
  · have named : ¬ (rostered.get (str "product_ref")).isNull = true :=
      fun null => present (Json.isNull_iff.mp null)
    obtain ⟨s, s_eq⟩ := (@Wire.write_returns _ text _).mpr writable
    obtain ⟨t, t_eq⟩ := (@Wire.write_returns _ text _).mpr writable'
    simp only [named, absent, or_self, if_false, s_eq, t_eq, Bool.false_eq_true] at same
    exact Or.inr (Or.inr ⟨s, t, s_eq, t_eq, not_not.mp (of_decide_eq_false same)⟩)

theorem priceRefusal_silent (priced : priceRefusal text bid rostered = .ok []) :
    isJudged text (bid.get (str "offer")) rostered = .ok false ∨ rowReasons bid rostered = .ok [] := by
  cases hashable : (rostered.get (str "product_ref")).hashable with
  | true =>
      rcases (priceRefusal_eq_ok hashable).mp priced with ⟨asked, -⟩ | ⟨-, silent⟩
      · exact Or.inl asked
      · exact Or.inr silent
  | false =>
      unfold priceRefusal at priced
      obtain ⟨judged, asked, priced⟩ := bind_eq_ok.mp priced
      cases judged with
      | false => exact Or.inl asked
      | true =>
          simp only [hashable] at priced
          cases priced

theorem priceRefusal_sound {listed : Binary64} (lists : Lists rostered listed)
    (priced : priceRefusal text bid rostered = .ok []) :
    Charges (bid.get (str "offer")) (priceFloor (.finite listed)) ∧
      Bounded rostered (bid.get (str "offer")) (.finite listed) ∧
      Authorized rostered (bid.get (str "offer")) ∧
      NamesProduct text rostered (bid.get (str "offer")) := by
  rcases priceRefusal_silent priced with asked | silent
  · obtain ⟨undeclared, unstated, nothing, under, same⟩ := isJudged_false asked
    refine ⟨charges_of_unjudged lists nothing under, ?_, authorized_of_undeclared undeclared,
      names_of_unjudged same⟩
    intro stated
    rw [statesAnAuthorizedDepth, stated] at unstated
    cases unstated
  · obtain ⟨charges, bounded, authorized, same⟩ := rowReasons_silent lists silent
    exact ⟨charges, bounded, authorized, fun _ _ _ => Or.inr (Or.inl same)⟩

/-! ## The fallback -/

omit [Unicode] in
theorem variantRef_cases (rostered : Rostered Binary64) :
    variantRef rostered = [] ∨ ∃ v, variantRef rostered = [(str "variant_ref", v)] := by
  unfold variantRef
  split
  · split
    · exact Or.inl rfl
    · exact Or.inr ⟨_, rfl⟩
  · exact Or.inl rfl

omit [Unicode] in
theorem fallback_charges {listed : Binary64} (lists : Lists rostered listed)
    {auctionId : Option Str} {deadline : Extended Binary64} {bid : Wire Binary64}
    (made : listPriceBid rostered auctionId deadline = .ok bid) :
    (bid.get (str "offer")).get (str "unit_price") = .number (.double (.finite listed)) ∧
      (bid.get (str "offer")).get (str "total_price") = .number (.double (.finite listed)) ∧
      (bid.get (str "offer")).get (str "product_ref") = rostered.get (str "product_ref") := by
  unfold listPriceBid at made
  obtain ⟨stated, read, made⟩ := bind_eq_ok.mp made
  obtain ⟨-, same⟩ := Wire.finiteNumber_eq_ok.mp read
  rw [lists.amount] at same
  have above : ¬ Extended.finite listed ≤ (0.0 : Extended Binary64) :=
    Extended.not_le_of_less (positive_iff.mpr lists.positive)
  simp only [← same, if_neg above] at made
  obtain rfl := Except.ok.inj made
  rcases variantRef_cases rostered with none | ⟨v, one⟩
  · rw [none]
    exact ⟨rfl, rfl, rfl⟩
  · rw [one]
    exact ⟨rfl, rfl, rfl⟩

omit [Unicode] in
theorem fallback_unpriced (unlisted : ∀ listed, ¬ Lists rostered listed) {auctionId : Option Str}
    {deadline : Extended Binary64} {bid : Wire Binary64}
    (made : listPriceBid rostered auctionId deadline = .ok bid) :
    (bid.get (str "offer")).get (str "unit_price") = .null ∧
      (bid.get (str "offer")).get (str "total_price") = .null ∧
      (bid.get (str "offer")).get (str "expires_at") = .null := by
  unfold listPriceBid at made
  obtain ⟨stated, read, made⟩ := bind_eq_ok.mp made
  obtain ⟨-, rfl⟩ := Wire.finiteNumber_eq_ok.mp read
  have undated : ∀ listed, Wire.amount (rostered.get (str "list_price")) = some listed →
      listed ≤ 0.0 := by
    intro listed amount
    obtain ⟨x, rfl⟩ := Extended.isFinite_iff.mp (Wire.amount_finite amount)
    rw [nought_eq]
    refine Extended.finite_le_finite.mpr (not_lt.mp fun positive => ?_)
    exact unlisted x ⟨amount, positive⟩
  have offered : bid.get (str "offer") = .object ([(str "product_ref", rostered.get (str "product_ref")),
      (str "currency", (Dict.get? rostered.fields (str "currency")).getD (.string (str "USD"))),
      (str "expires_at", .null)] ++ variantRef rostered) := by
    cases amount : Wire.amount (rostered.get (str "list_price")) with
    | none =>
        rw [amount] at made
        obtain rfl := Except.ok.inj made
        rfl
    | some listed =>
        rw [amount] at made
        obtain rfl := Except.ok.inj made
        simp only [if_pos (undated listed amount)]
        rfl
  rw [offered]
  rcases variantRef_cases rostered with none | ⟨v, one⟩
  · rw [none]
    exact ⟨rfl, rfl, rfl⟩
  · rw [one]
    exact ⟨rfl, rfl, rfl⟩

/-! ## The collection -/

variable (text) in
structure Priced (rostered : Rostered Binary64) (listed : Binary64) (entry : BidEntry Binary64) :
    Prop where
  charges : Charges (entry.bid.get (str "offer")) (priceFloor (.finite listed))
  bounded : Bounded rostered (entry.bid.get (str "offer")) (.finite listed)
  authorized : entry.fallback = false → Authorized rostered (entry.bid.get (str "offer"))
  named : NamesProduct text rostered (entry.bid.get (str "offer"))

structure Unpriced (entry : BidEntry Binary64) : Prop where
  unitPrice : (entry.bid.get (str "offer")).get (str "unit_price") = .null
  totalPrice : (entry.bid.get (str "offer")).get (str "total_price") = .null
  expiresAt : (entry.bid.get (str "offer")).get (str "expires_at") = .null

/-- The entries of a collection are priced by their rows. -/
theorem collectBids_priced (text : Wire Binary64 → Str) (model : Wire Binary64 → Option (List Str))
    (truth : Wire Binary64 → Str) (clock : DateTime) (roster : List (Rostered Binary64))
    (responses : List (Response Binary64)) (now : Extended Binary64)
    (entries : List (BidEntry Binary64))
    (made : collectBids text model truth clock roster responses now = .ok entries) :
    List.Forall₂ (fun rostered entry => entry.storeId = rostered.storeId ∧
      (∀ listed, Lists rostered listed → Priced text rostered listed entry) ∧
      ((∀ listed, ¬ Lists rostered listed) → entry.fallback = true → Unpriced entry))
      roster entries := by
  obtain ⟨arrivals, auctionId, -, made⟩ := collectBids_rows made
  refine (mapM_eq_ok.mp made).imp fun rostered entry entry_eq => ?_
  obtain ⟨stored, -, -, ⟨kept, answer, -, admits, same, -⟩ | ⟨replaced, offered, -, -⟩⟩ :=
    entryFor_cases entry_eq
  · refine ⟨stored, fun listed lists => ?_, fun _ replaced => ?_⟩
    · obtain ⟨charges, bounded, authorized, named⟩ := priceRefusal_sound lists admits.priced
      rw [← same] at charges bounded authorized named
      exact ⟨charges, bounded, fun _ => authorized, named⟩
    · rw [kept] at replaced
      cases replaced
  · refine ⟨stored, fun listed lists => ?_, fun unlisted _ => ?_⟩
    · obtain ⟨unit, total, product⟩ := fallback_charges lists offered
      have floor := priceFloor_le lists.positive
      refine ⟨⟨.finite listed, .finite listed, ?_, ?_, floor, floor⟩, fun _ => ⟨.finite listed, ?_, Or.inl rfl⟩,
        fun kept => ?_, fun present _ writable => ?_⟩
      · rw [unit]
        rfl
      · rw [total]
        rfl
      · rw [unit]
        rfl
      · rw [replaced] at kept
        cases kept
      · obtain ⟨s, s_eq⟩ := (@Wire.write_returns _ text _).mpr writable
        rw [product]
        exact Or.inr (Or.inr ⟨s, s, s_eq, s_eq, rfl⟩)
    · obtain ⟨unit, total, expires⟩ := fallback_unpriced unlisted offered
      exact ⟨unit, total, expires⟩

end Walls

/-! ## Prices the claims of a row leave open -/

/-- An offer of another product, under a name that cannot be written. -/
def vastProductBid : Wire Binary64 :=
  .object [(str "offer", .object [(str "product_ref", .number (.integer (10 ^ 4400))),
    (str "unit_price", .number (.integer 100)), (str "total_price", .number (.integer 100))])]

def illegiblyCappedRow : Rostered Binary64 :=
  { listedRow with
    fields := listedRow.fields ++ [(maxDiscountRosterKey, .string (str "twenty"))] }

theorem vastProduct_collected : letI := Unicode.ascii
    let text : Wire Binary64 → Str := fun _ => []
    Lists listedRow hundred ∧ Lists illegiblyCappedRow hundred ∧
      (∃ entry, collectBids text (fun _ => some []) (fun _ => []) epoch [listedRow]
          [answering vastProductBid] (.finite hundred) = .ok [entry] ∧ entry.fallback = false ∧
        ¬ SameProduct text (listedRow.get (str "product_ref"))
          ((entry.bid.get (str "offer")).get (str "product_ref"))) ∧
      ∃ entry, collectBids text (fun _ => some []) (fun _ => []) epoch [illegiblyCappedRow]
          [answering (pricedBid (.number (.integer 101)))] (.finite hundred) = .ok [entry] ∧
        entry.fallback = false ∧ (illegiblyCappedRow.get maxDiscountRosterKey).isNull = false ∧
        capOf illegiblyCappedRow = none ∧
        Wire.amount ((entry.bid.get (str "offer")).get (str "unit_price")) ≠
          some (.finite hundred) := by
  let _ := Unicode.ascii
  have positive : (0 : ℚ) < hundred.value := by decide
  refine ⟨⟨rfl, positive⟩, ⟨rfl, positive⟩, ?_, ?_⟩
  · obtain ⟨entry, made, observed⟩ := single_of_read
      (f := fun entry : BidEntry Binary64 => (entry.fallback,
        ((entry.bid.get (str "offer")).get (str "product_ref")).isNull,
        Wire.sameKey (listedRow.get (str "product_ref"))
          ((entry.bid.get (str "offer")).get (str "product_ref")),
        Wire.writable ((entry.bid.get (str "offer")).get (str "product_ref"))))
      (by decide +kernel : (collectBids (fun _ => []) (fun _ => some []) (fun _ => []) epoch
        [listedRow] [answering vastProductBid] (.finite hundred)).toOption.map (List.map _) =
          some [(false, false, false, false)])
    simp only [Prod.mk.injEq] at observed
    obtain ⟨kept, present, apart, unwritable⟩ := observed
    refine ⟨entry, made, kept, ?_⟩
    rintro (absent | same | ⟨s, t, written, -⟩)
    · rw [absent] at present
      cases present
    · rw [same] at apart
      cases apart
    · rw [Wire.write_returns.mp ⟨s, written⟩] at unwritable
      cases unwritable
  · obtain ⟨entry, made, observed⟩ := single_of_read
      (f := fun entry : BidEntry Binary64 => (entry.fallback,
        decide (Wire.amount ((entry.bid.get (str "offer")).get (str "unit_price")) =
          some (.finite hundred))))
      (by decide +kernel : (collectBids (fun _ => []) (fun _ => some []) (fun _ => []) epoch
        [illegiblyCappedRow] [answering (pricedBid (.number (.integer 101)))]
          (.finite hundred)).toOption.map (List.map _) = some [(false, false)])
    simp only [Prod.mk.injEq, decide_eq_false_iff_not] at observed
    exact ⟨entry, made, observed.1, rfl, rfl, observed.2⟩

theorem pricedBid_priced : letI := Unicode.ascii
    ∃ entry, collectBids (fun _ => []) (fun _ => some []) (fun _ => []) epoch [listedRow]
        [answering (pricedBid (.number (.integer 100)))] (.finite hundred) = .ok [entry] ∧
      Lists listedRow hundred ∧ Priced (fun _ => []) listedRow hundred entry := by
  let _ := Unicode.ascii
  obtain ⟨entry, made, -⟩ := single_of_read (f := BidEntry.fallback)
    (by decide +kernel : (collectBids (fun _ => []) (fun _ => some []) (fun _ => []) epoch
      [listedRow] [answering (pricedBid (.number (.integer 100)))]
        (.finite hundred)).toOption.map (List.map _) = some [false])
  have lists : Lists listedRow hundred := ⟨rfl, by decide⟩
  have rows := collectBids_priced (fun _ => []) (fun _ => some []) (fun _ => []) epoch [listedRow]
    [answering (pricedBid (.number (.integer 100)))] (.finite hundred) [entry] made
  obtain ⟨-, priced, -⟩ := (List.forall₂_cons.mp rows).1
  exact ⟨entry, made, lists, priced hundred lists⟩

end Proxyshop.Auction.Collect
