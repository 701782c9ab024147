import Proxyshop.Hooks.Tools
import Proxyshop.Numbers.Monotone
import Proxyshop.Numbers.Whole

/-!
# The walls of the envelope

A discount is granted where the walls stand open for it, and a tighter envelope opens none of them.
-/

namespace Proxyshop.Hooks

open Python Numbers Contracts Structures Verification Learning

/-! ## Floors -/

section Floors

variable [Folding]

structure Binds (productRef : Str) (raw : Wire Binary64) (floor : Extended Binary64) : Prop where
  applies : ∃ entry, asMapping raw = .ok entry ∧
    Json.get (.object entry) (str "product_ref") ∈ [.null, .string [], .string productRef] ∧
    amountOrZero (Json.get (.object entry) (str "min_price")) = .ok floor

def Elsewhere (productRef : Str) (raw : Wire Binary64) : Prop :=
  ∃ entry, asMapping raw = .ok entry ∧
    Json.get (.object entry) (str "product_ref") ∉ [.null, .string [], .string productRef]

variable {productRef : Str} {raw : Wire Binary64} {floor floor' : Extended Binary64}

theorem tighten_of_binds (binds : Binds productRef raw floor') (floor : Extended Binary64) :
    ToolHooks.tighten productRef floor raw = .ok (floor.greatest floor') := by
  obtain ⟨entry, mapped, applies, amount⟩ := binds.applies
  unfold ToolHooks.tighten
  rw [mapped]
  dsimp only [bind, Except.bind]
  simp only [List.mem_cons, List.not_mem_nil, or_false] at applies
  rcases applies with scope | scope | scope
  · rw [scope, amount]
    rfl
  · rw [scope, amount]
    rfl
  · rw [scope, amount]
    show (if productRef.isEmpty || decide (productRef = productRef) then _ else _) = _
    rw [decide_eq_true rfl, Bool.or_true]
    rfl

theorem tighten_of_elsewhere (elsewhere : Elsewhere productRef raw) (floor : Extended Binary64) :
    ToolHooks.tighten productRef floor raw = .ok floor := by
  obtain ⟨entry, mapped, applies⟩ := elsewhere
  unfold ToolHooks.tighten
  rw [mapped]
  dsimp only [bind, Except.bind]
  simp only [List.mem_cons, List.not_mem_nil, or_false, not_or] at applies
  obtain ⟨named, filled, other⟩ := applies
  cases scope : Json.get (.object entry) (str "product_ref") with
  | null => exact absurd scope named
  | string s =>
      rw [scope] at filled other
      show (if s.isEmpty || decide (s = productRef) then _ else _) = _
      rw [if_neg]
      · rfl
      · intro same
        rcases Bool.or_eq_true_iff.mp same with empty | own
        · exact filled (congrArg Json.string (List.isEmpty_iff.mp empty))
        · exact other (congrArg Json.string (of_decide_eq_true own))
  | _ => rfl

theorem binds_of_tighten (read : ToolHooks.tighten productRef floor raw = .ok floor') :
    (∃ own, Binds productRef raw own) ∨ Elsewhere productRef raw := by
  unfold ToolHooks.tighten at read
  obtain ⟨entry, mapped, read⟩ := bind_eq_ok.mp read
  by_cases applies : Json.get (.object entry) (str "product_ref") ∈ [.null, .string [], .string productRef]
  · left
    split at read
    · obtain ⟨own, amount, -⟩ := bind_eq_ok.mp read
      exact ⟨own, entry, mapped, applies, amount⟩
    · rename_i scope named
      split at read
      · obtain ⟨own, amount, -⟩ := bind_eq_ok.mp read
        exact ⟨own, entry, mapped, applies, amount⟩
      · rename_i other
        exfalso
        rw [named] at applies
        simp only [List.mem_cons, List.not_mem_nil, or_false, Json.string.injEq, reduceCtorEq,
          false_or] at applies
        apply other
        rcases applies with rfl | rfl <;> simp
    · rename_i unnamed untexted
      exfalso
      simp only [List.mem_cons, List.not_mem_nil, or_false] at applies
      rcases applies with null | empty | own
      · exact unnamed null
      · exact untexted _ empty
      · exact untexted _ own
  · exact .inr ⟨entry, mapped, applies⟩

theorem tighten_cases (read : ToolHooks.tighten productRef floor raw = .ok floor') :
    (∃ own, Binds productRef raw own ∧ floor' = floor.greatest own) ∨
      Elsewhere productRef raw ∧ floor' = floor := by
  rcases binds_of_tighten read with ⟨own, binds⟩ | elsewhere
  · rw [tighten_of_binds binds] at read
    exact .inl ⟨own, binds, (Except.ok.inj read).symm⟩
  · rw [tighten_of_elsewhere elsewhere] at read
    exact .inr ⟨elsewhere, (Except.ok.inj read).symm⟩

end Floors

section Folds

variable [Folding] {productRef : Str} {start start' floor' : Extended Binary64} {raws raws' : List (Wire Binary64)}

theorem foldlM_tighten_le (defined : start ≠ .nan)
    (read : raws.foldlM (ToolHooks.tighten productRef) start = .ok floor') :
    floor' ≠ .nan ∧ start ≤ floor' ∧ ∀ raw ∈ raws, ∀ own, Binds productRef raw own → own ≠ .nan → own ≤ floor' := by
  induction raws generalizing start with
  | nil =>
      cases read
      exact ⟨defined, Extended.le_self defined, fun _ member => absurd member List.not_mem_nil⟩
  | cons raw raws ih =>
      rw [List.foldlM_cons] at read
      obtain ⟨next, tightened, read⟩ := bind_eq_ok.mp read
      have le : next ≠ .nan ∧ start ≤ next := by
        rcases tighten_cases tightened with ⟨own, -, rfl⟩ | ⟨-, rfl⟩
        · exact ⟨Extended.greatest_ne_nan defined, Extended.le_greatest_left defined⟩
        · exact ⟨defined, Extended.le_self defined⟩
      obtain ⟨ended, above, bound⟩ := ih le.1 read
      refine ⟨ended, Extended.le_through le.2 above, ?_⟩
      intro other member own binds stated
      rcases List.mem_cons.mp member with rfl | later
      · rw [tighten_of_binds binds] at tightened
        cases tightened
        exact Extended.le_through (Extended.le_greatest_right defined stated) above
      · exact bound other later own binds stated

theorem foldlM_tighten_sublist (fewer : raws.Sublist raws') (le : start ≤ start') (defined : start ≠ .nan)
    (defined' : start' ≠ .nan) (read : raws'.foldlM (ToolHooks.tighten productRef) start' = .ok floor') :
    ∃ floor, raws.foldlM (ToolHooks.tighten productRef) start = .ok floor ∧ floor ≤ floor' := by
  induction fewer generalizing start start' with
  | slnil =>
      cases read
      exact ⟨start, rfl, le⟩
  | cons raw fewer ih =>
      rw [List.foldlM_cons] at read
      obtain ⟨next, tightened, rest⟩ := bind_eq_ok.mp read
      rcases tighten_cases tightened with ⟨own, -, rfl⟩ | ⟨-, rfl⟩
      · exact ih (Extended.le_through le (Extended.le_greatest_left defined')) defined (Extended.greatest_ne_nan defined') rest
      · exact ih le defined defined' rest
  | cons_cons raw fewer ih =>
      rw [List.foldlM_cons] at read
      obtain ⟨next, tightened, rest⟩ := bind_eq_ok.mp read
      rcases tighten_cases tightened with ⟨own, binds, rfl⟩ | ⟨elsewhere, rfl⟩
      · obtain ⟨floor, folded, below⟩ := ih (Extended.greatest_mono le defined') (Extended.greatest_ne_nan defined)
          (Extended.greatest_ne_nan defined') rest
        refine ⟨floor, ?_, below⟩
        rw [List.foldlM_cons, tighten_of_binds binds]
        exact folded
      · obtain ⟨floor, folded, below⟩ := ih le defined defined' rest
        refine ⟨floor, ?_, below⟩
        rw [List.foldlM_cons, tighten_of_elsewhere elsewhere]
        exact folded

end Folds

/-! ## Depths -/

def hundredPercent : Binary64 := ⟨100, Binary64.representable_of_small (n := 100) (by decide)⟩

namespace ToolHooks

theorem wallTolerance_finite : ∃ y : Binary64, wallTolerance = .finite y := by
  obtain ⟨y, rounded, -⟩ := Binary64.round_between (q := 1e-9)
    (x := ⟨2, Binary64.representable_of_small (n := 2) (by decide)⟩) (by norm_num) (by norm_num)
  exact ⟨y, rounded⟩

theorem add_tolerance_ne_nan {a : Extended Binary64} (defined : a ≠ .nan) : a + wallTolerance ≠ .nan := by
  obtain ⟨y, fine⟩ := wallTolerance_finite
  rw [fine]
  cases a with
  | nan => exact absurd rfl defined
  | finite x => exact Binary64.round_ne_nan _
  | infinity s => exact nofun

theorem rest_finite {y : Binary64} (nonneg : 0 ≤ y.value) : ∃ z : Binary64, (100.0 : Extended Binary64) - .finite y = .finite z := by
  have literal : (100.0 : Extended Binary64) = .finite hundredPercent :=
    Binary64.literal_eq hundredPercent (by rw [hundredPercent]; norm_num)
  have rest : (100.0 : Extended Binary64) - .finite y = Binary64.round (100 - y.value) := by
    rw [literal]
    rfl
  have low : Extended.finite y.neg ≤ Binary64.round (100 - y.value) := by
    rw [← Binary64.round_value]
    exact Binary64.round_mono (show -y.value ≤ _ by linarith)
  have high : Binary64.round (100 - y.value) ≤ .finite hundredPercent := by
    rw [← Binary64.round_value]
    exact Binary64.round_mono (show _ ≤ (100 : ℚ) by linarith)
  rw [rest]
  cases rounded : Binary64.round (100 - y.value) with
  | finite z => exact ⟨z, rfl⟩
  | nan => exact absurd rounded (Binary64.round_ne_nan _)
  | infinity s =>
      rw [rounded] at low high
      cases s
      · cases high
      · cases low

theorem resultingPrice_ne_nan {x y : Binary64} (nonneg : 0 ≤ y.value) :
    resultingPrice (.finite x) (.finite y) ≠ .nan := by
  obtain ⟨z, rest⟩ := rest_finite nonneg
  unfold resultingPrice
  rw [rest, show (100.0 : Extended Binary64) = .finite hundredPercent from
    Binary64.literal_eq hundredPercent (by rw [hundredPercent]; norm_num)]
  exact Binary64.div_ne_nan (by rw [hundredPercent]; norm_num) (Binary64.round_ne_nan _)

end ToolHooks

structure Clears [Folding] (h : ToolHooks) (productRef : Str) (pct cap price floor : Extended Binary64) : Prop where
  capped : h.maxDiscountPct = .ok cap
  listed : Dict.contains h.catalog productRef = true
  finite : pct.isFinite = true
  nonneg : ¬ pct < 0.0
  inside : ¬ cap + ToolHooks.wallTolerance < pct
  priced : h.listPrice productRef = .ok (some price)
  floored : h.priceFloor productRef = .ok floor
  above : ¬ ToolHooks.resultingPrice price pct + ToolHooks.wallTolerance < floor

namespace ToolHooks

section Depths

variable [Folding] [Spelling Binary64] {h : ToolHooks} {productRef : Str} {requested : Wire Binary64}
  {pct : Extended Binary64}

theorem refusal_ne_none {reason : Reason} {limit : Extended Binary64} {path : Str} :
    h.refusal productRef pct reason limit path ≠ .ok none := by
  unfold refusal
  cases h.envelopeRef path with
  | error e => exact nofun
  | ok ruleRef => exact nofun

theorem evaluateDiscount_eq_none : h.evaluateDiscount productRef pct = .ok none ↔
    ∃ cap price floor, Clears h productRef pct cap price floor := by
  constructor
  · intro evaluated
    unfold evaluateDiscount at evaluated
    obtain ⟨cap, capped, evaluated⟩ := bind_eq_ok.mp evaluated
    split at evaluated
    · rename_i listed
      split at evaluated
      · exact absurd evaluated refusal_ne_none
      · rename_i finite
        split at evaluated
        · exact absurd evaluated refusal_ne_none
        · rename_i nonneg
          split at evaluated
          · exact absurd evaluated refusal_ne_none
          · rename_i inside
            obtain ⟨listPrice, priced, evaluated⟩ := bind_eq_ok.mp evaluated
            cases listPrice with
            | none => exact absurd evaluated refusal_ne_none
            | some price =>
                obtain ⟨floor, floored, evaluated⟩ := bind_eq_ok.mp evaluated
                split at evaluated
                · exact absurd evaluated refusal_ne_none
                · rename_i above
                  exact ⟨cap, price, floor, capped, listed, by simpa using finite, nonneg, inside, priced, floored,
                    above⟩
    · exact absurd evaluated refusal_ne_none
  · rintro ⟨cap, price, floor, clears⟩
    unfold evaluateDiscount
    rw [clears.capped, clears.priced, clears.floored]
    show (if Dict.contains h.catalog productRef then _ else _) = _
    rw [if_pos clears.listed, if_neg (by simp [clears.finite]), if_neg clears.nonneg, if_neg clears.inside]
    show (if resultingPrice price pct + wallTolerance < floor then _ else _) = _
    rw [if_neg clears.above]
    rfl

theorem wouldAuthorize_eq_true : h.wouldAuthorize productRef requested = .ok true ↔
    ∃ pct, requested.toDouble = .ok pct ∧ h.evaluateDiscount productRef pct = .ok none := by
  unfold wouldAuthorize
  split
  · rename_i pct read
    have told : (∃ other, requested.toDouble = .ok other ∧ h.evaluateDiscount productRef other = .ok none) ↔
        h.evaluateDiscount productRef pct = .ok none := by
      constructor
      · rintro ⟨other, same, evaluated⟩
        cases read.symm.trans same
        exact evaluated
      · exact fun evaluated => ⟨pct, read, evaluated⟩
    rw [told]
    generalize h.evaluateDiscount productRef pct = evaluated
    cases evaluated with
    | error e => exact iff_of_false nofun nofun
    | ok denied =>
        cases denied with
        | none => exact iff_of_true rfl rfl
        | some denied => exact iff_of_false nofun nofun
  all_goals
    rename_i raised
    rw [raised]
    refine iff_of_false nofun ?_
    rintro ⟨_, read, -⟩
    cases read

variable [Minting]

/-- A grant of the depth can be minted, and has a fingerprint. -/
def Citable (h : ToolHooks) (productRef : Str) (pct : Extended Binary64) : Prop :=
  ∃ claim, h.grantClaim productRef pct = .ok [claim] ∧ Minting.conforms claim = true ∧
    ∃ fingerprint, Minting.fingerprint claim = .ok fingerprint

def Grants (h : ToolHooks) (productRef : Str) (requested : Wire Binary64) (claims : List MintedClaim) : Prop :=
  (h.authorizeDiscount productRef requested).1 = .ok (.inl claims)

omit [Folding] [Spelling Binary64] in
theorem publish_ok {hook subject outcome : Str} {read : Except PyError (List MintedClaim)}
    {claims : List MintedClaim} (published : (h.publish hook subject outcome read).1 = .ok claims) :
    read = .ok claims := by
  unfold publish at published
  split at published
  · cases published
  · split at published
    · split at published <;> cases published
      rfl
    · cases published

theorem Grants.evaluated {claims : List MintedClaim} (grants : h.Grants productRef requested claims) :
    ∃ pct, requested.toDouble = .ok pct ∧ h.evaluateDiscount productRef pct = .ok none ∧
      h.grantClaim productRef pct = .ok claims := by
  unfold Grants authorizeDiscount at grants
  split at grants
  · cases grants
  · cases grants
  · cases grants
  · rename_i pct read
    split at grants
    · cases grants
    · cases grants
    · rename_i evaluated
      refine ⟨pct, read, evaluated, ?_⟩
      split at grants
      · cases grants
      · rename_i published
        cases grants
        exact publish_ok (congrArg Prod.fst published)

theorem grants_of_citable (read : requested.toDouble = .ok pct) (citable : h.Citable productRef pct)
    (evaluated : h.evaluateDiscount productRef pct = .ok none) : ∃ claims, h.Grants productRef requested claims := by
  obtain ⟨claim, granted, conforms, fingerprint, printed⟩ := citable
  refine ⟨[claim], ?_⟩
  unfold Grants authorizeDiscount
  rw [read]
  simp only [evaluated, publish, granted, List.all_cons, conforms, List.all_nil, Bool.and_true, if_true, emit,
    emitOne, printed]

/-! ## Tightening -/

structure Tightened (h h' : ToolHooks) : Prop where
  catalog : h'.catalog = h.catalog
  cap : h'.maxDiscountPct = h.maxDiscountPct ∨
    ∃ cap cap', h.maxDiscountPct = .ok cap ∧ h'.maxDiscountPct = .ok cap' ∧ cap' ≤ cap
  floors : (sequence (h.envelopeField (str "floors"))).Sublist (sequence (h'.envelopeField (str "floors")))

omit [Spelling Binary64] [Minting] in
theorem Clears.loosened {h' : ToolHooks} (tightened : Tightened h h') {cap price floor : Extended Binary64}
    (clears : Clears h' productRef pct cap price floor) :
    ∃ cap floor, Clears h productRef pct cap price floor := by
  obtain ⟨x, -, zero⟩ := Binary64.zero_literal
  have defined : (0.0 : Extended Binary64) ≠ .nan := by
    rw [zero]
    exact nofun
  have priced : h.listPrice productRef = .ok (some price) := by
    rw [← clears.priced, listPrice, listPrice, tightened.catalog]
  have listed : Dict.contains h.catalog productRef = true := tightened.catalog ▸ clears.listed
  obtain ⟨floor', floored, below⟩ := foldlM_tighten_sublist tightened.floors (Extended.le_self defined) defined
    defined clears.floored
  have above : ¬ resultingPrice price pct + wallTolerance < floor' :=
    fun under => clears.above (Extended.less_of_less_of_not_less under
      (fun higher => Extended.not_le_of_less higher below) (foldlM_tighten_le defined clears.floored).1)
  rcases tightened.cap with same | ⟨cap', cap'', capped, capped', lower⟩
  · exact ⟨cap, floor', same ▸ clears.capped, listed, clears.finite, clears.nonneg, clears.inside, priced, floored,
      above⟩
  · cases capped'.symm.trans clears.capped
    refine ⟨cap', floor', capped, listed, clears.finite, clears.nonneg, ?_, priced, floored, above⟩
    obtain ⟨tolerance, fine⟩ := wallTolerance_finite
    have inside := clears.inside
    rw [fine] at inside ⊢
    exact fun beyond => inside (Extended.less_of_le_of_less (Binary64.add_mono lower) beyond)

omit [Spelling Binary64] [Minting] in
theorem listPrice_finite {price : Extended Binary64} (priced : h.listPrice productRef = .ok (some price)) :
    price.isFinite = true := by
  unfold listPrice at priced
  split at priced
  · cases priced
  · split at priced
    · have chosen := Except.ok.inj priced
      rw [Option.ite_none_right_eq_some] at chosen
      obtain ⟨finite, same⟩ := chosen
      exact Option.some.inj same ▸ finite
    · cases priced
    · cases priced
    · cases priced

structure Inside (h : ToolHooks) (productRef : Str) (pct : Extended Binary64) : Prop where
  finite : pct.isFinite = true
  nonneg : 0.0 ≤ pct
  capped : ∃ cap, h.maxDiscountPct = .ok cap ∧ (cap ≠ .nan → pct ≤ cap + wallTolerance)
  priced : ∃ price, h.listPrice productRef = .ok (some price) ∧ price.isFinite = true ∧
    ∀ raw ∈ sequence (h.envelopeField (str "floors")), ∀ floor, Binds productRef raw floor → floor ≠ .nan →
      floor ≤ resultingPrice price pct + wallTolerance

omit [Spelling Binary64] [Minting] in
theorem Clears.depthInside {cap price floor : Extended Binary64} (clears : Clears h productRef pct cap price floor) :
    h.Inside productRef pct := by
  obtain ⟨x, zero, nought⟩ := Binary64.zero_literal
  have defined : (0.0 : Extended Binary64) ≠ .nan := by
    rw [nought]
    exact nofun
  have finite := listPrice_finite clears.priced
  obtain ⟨y, rfl⟩ := Extended.isFinite_iff.mp clears.finite
  obtain ⟨z, rfl⟩ := Extended.isFinite_iff.mp finite
  have nonneg : (0.0 : Extended Binary64) ≤ .finite y := Extended.le_of_not_less nofun defined clears.nonneg
  have positive : 0 ≤ y.value := by
    rw [nought, Extended.finite_le_finite] at nonneg
    exact zero.ge.trans nonneg
  refine ⟨rfl, nonneg, ⟨cap, clears.capped, ?_⟩, _, clears.priced, rfl, ?_⟩
  · exact fun stated => Extended.le_of_not_less (add_tolerance_ne_nan stated) nofun clears.inside
  · intro raw member own binds stated
    obtain ⟨ended, -, bound⟩ := foldlM_tighten_le defined clears.floored
    have above := Extended.le_of_not_less (add_tolerance_ne_nan (resultingPrice_ne_nan positive)) ended clears.above
    exact Extended.le_through (bound raw member own binds stated) above

/-! ## The policy -/

omit [Minting] in
theorem walledDepth_legal {proposed : Wire Binary64} {depth : Extended Binary64} {walled : Bool}
    (read : h.walledDepth productRef proposed = .ok (depth, walled)) :
    depth = 0.0 ∨ h.wouldAuthorize productRef (.number (.double depth)) = .ok true := by
  unfold walledDepth at read
  split at read
  · split at read
    · cases read
      exact .inl rfl
    · obtain ⟨authorized, asked, read⟩ := bind_eq_ok.mp read
      cases authorized with
      | true =>
          cases read
          exact .inr asked
      | false =>
          cases read
          exact .inl rfl
  · cases read
    exact .inl rfl
  · cases read
    exact .inl rfl
  · cases read

omit [Folding] [Spelling Binary64] [Minting] in
theorem get?_passedOn (chosen action : Dict Str (Wire Binary64)) {name : Str}
    (own : name ∉ ["commitment_keys", "value_prop", "pitch_variant"].map str) :
    Dict.get? (passedOn chosen action) name = Dict.get? action name := by
  unfold passedOn
  generalize ["commitment_keys", "value_prop", "pitch_variant"] = names at own
  induction names generalizing action with
  | nil => rfl
  | cons passed names ih =>
      rw [List.map_cons, List.mem_cons, not_or] at own
      obtain ⟨other, own⟩ := own
      rw [List.foldl_cons, ih _ own]
      cases Dict.get? chosen (str passed) with
      | none => rfl
      | some value => exact Dict.get?_set_ne _ _ other

structure Legal (h : ToolHooks) (action : Dict Str (Wire Binary64)) (productRef : Str)
    (depth : Extended Binary64) : Prop where
  names : Json.get (.object action) (str "product_ref") = .string productRef
  states : Json.get (.object action) (str "discount_pct") = .number (.double depth)
  authorized : depth = 0.0 ∨ h.wouldAuthorize productRef (.number (.double depth)) = .ok true

omit [Minting] in
theorem policyAction_legal {clusterId version : Str} {action : Dict Str (Wire Binary64)} {walled : Bool}
    (read : h.policyAction clusterId productRef version = .ok (action, walled)) :
    ∃ depth, h.Legal action productRef depth := by
  unfold policyAction at read
  obtain ⟨keys, _, read⟩ := bind_eq_ok.mp read
  obtain ⟨chosen, _, read⟩ := bind_eq_ok.mp read
  split at read
  · cases read
    refine ⟨0.0, ?_, ?_, .inl rfl⟩
    · rw [Json.get_object, get?_passedOn _ _ (by decide)]
      rfl
    · rw [Json.get_object, get?_passedOn _ _ (by decide)]
      rfl
  · obtain ⟨⟨depth, refused⟩, made, read⟩ := bind_eq_ok.mp read
    cases read
    refine ⟨depth, ?_, ?_, walledDepth_legal made⟩
    · rw [Json.get_object, Dict.get?_set_ne _ _ (by decide), get?_passedOn _ _ (by decide)]
      rfl
    · rw [Json.get_object, Dict.get?_set_self]
      rfl

/-- The walls of the envelope hold for whatever the hooks mint. -/
structure Walled (h : ToolHooks) : Prop where
  asked : ∀ productRef requested claims, h.Grants productRef requested claims →
    h.wouldAuthorize productRef requested = .ok true
  granted : ∀ productRef requested pct, Wire.toDouble requested = .ok pct → h.Citable productRef pct →
    h.wouldAuthorize productRef requested = .ok true → ∃ claims, h.Grants productRef requested claims
  inside : ∀ productRef requested claims, h.Grants productRef requested claims →
    ∃ pct, Wire.toDouble requested = .ok pct ∧ claims.map MintedClaim.value = [.number (.double pct)] ∧
      h.Inside productRef pct
  policy : ∀ context claims, (h.choosePolicyAction context).1 = .ok claims →
    ∃ action productRef depth, claims.map MintedClaim.value = [.object action] ∧ h.Legal action productRef depth
  monotone : ∀ h', Tightened h h' → ∀ productRef requested,
    h'.wouldAuthorize productRef requested = .ok true → h.wouldAuthorize productRef requested = .ok true

theorem walls_hold (h : ToolHooks) : h.Walled where
  asked := by
    intro productRef requested claims grants
    obtain ⟨pct, read, evaluated, -⟩ := grants.evaluated
    exact wouldAuthorize_eq_true.mpr ⟨pct, read, evaluated⟩
  granted := by
    intro productRef requested pct read citable authorized
    obtain ⟨other, same, evaluated⟩ := wouldAuthorize_eq_true.mp authorized
    cases read.symm.trans same
    exact grants_of_citable read citable evaluated
  inside := by
    intro productRef requested claims grants
    obtain ⟨pct, read, evaluated, minted⟩ := grants.evaluated
    obtain ⟨cap, price, floor, clears⟩ := evaluateDiscount_eq_none.mp evaluated
    refine ⟨pct, read, ?_, Clears.depthInside clears⟩
    obtain ⟨ruleRef, _, minted⟩ := bind_eq_ok.mp minted
    obtain ⟨ref, _, minted⟩ := bind_eq_ok.mp minted
    cases minted
    rfl
  policy := by
    intro context claims answered
    unfold choosePolicyAction at answered
    split at answered
    · cases answered
    · rename_i clusterId productRef version _
      split at answered
      · cases answered
      · rename_i action walled made
        have read := publish_ok answered
        cases read
        obtain ⟨depth, legal⟩ := policyAction_legal made
        exact ⟨action, productRef, depth, rfl, legal⟩
  monotone := by
    intro h' tightened productRef requested authorized
    obtain ⟨pct, read, evaluated⟩ := wouldAuthorize_eq_true.mp authorized
    obtain ⟨cap, price, floor, clears⟩ := evaluateDiscount_eq_none.mp evaluated
    obtain ⟨cap', floor', cleared⟩ := Clears.loosened tightened clears
    exact wouldAuthorize_eq_true.mpr ⟨pct, read, evaluateDiscount_eq_none.mpr ⟨cap', price, floor', cleared⟩⟩

end Depths

/-! ## What the walls overlook -/

def shopOf (storeId : Str) (cap : Wire Binary64) : ToolHooks where
  storeId := storeId
  envelope := [(str "max_discount_pct", cap)]
  catalog := [(str "p", [(str "list_price", .number (.integer 100))])]
  liveState := []
  learnedPolicy := .null
  networkPriors := []
  asOf := none
  calls := []
  claims := []
  ledger := .empty
  bidRef := []

@[reducible] def plainMinting : Minting := ⟨fun _ => true, fun claim => .ok claim.ref⟩

/-- An undefined cap authorizes half of the price, a grant that is authorized is not minted for a store whose
name holds the separator, and the cold start names no depth for a product that has none. -/
theorem undefined_cap_authorizes :
    letI : Folding := .ascii
    letI : Spelling Binary64 := .strings Binary64
    letI : Minting := plainMinting
    ((shopOf (str "s") (.number (.double .nan))).maxDiscountPct = .ok .nan ∧
      (shopOf (str "s") (.number (.double .nan))).wouldAuthorize (str "p") (.number (.integer 50)) = .ok true) ∧
    ((shopOf (str "s@t") (.number (.integer 20))).wouldAuthorize (str "p") (.number (.integer 5)) = .ok true ∧
      ¬ ∃ claims, (shopOf (str "s@t") (.number (.integer 20))).Grants (str "p") (.number (.integer 5)) claims) ∧
    ∃ action, ((shopOf (str "s") .null).choosePolicyAction (.object [(str "product_ref", .string (str "q"))])).1
        = .ok [action] ∧
      Json.get action.value (str "discount_pct") = .number (.double 0.0) ∧
      (shopOf (str "s") .null).wouldAuthorize (str "q") (.number (.double 0.0)) = .ok false := by
  let _ : Folding := .ascii
  let _ : Spelling Binary64 := .strings Binary64
  let _ : Minting := plainMinting
  refine ⟨⟨by decide +kernel, by decide +kernel⟩, ⟨by decide +kernel, ?_⟩, ?_⟩
  · rintro ⟨claims, grants⟩
    obtain ⟨pct, read, -, minted⟩ := grants.evaluated
    obtain ⟨ruleRef, cited, minted⟩ := bind_eq_ok.mp minted
    obtain ⟨ref, joined, -⟩ := bind_eq_ok.mp minted
    cases cited
    cases joined
  · exact ⟨_, rfl, rfl, by decide +kernel⟩

end ToolHooks
end Proxyshop.Hooks
