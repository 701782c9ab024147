import Proxyshop.Contracts.Timestamps
import Proxyshop.Numbers.Whole
import Proxyshop.Verification.Normalize

/-!
# Reading an accepted offer

The fields of an offer that shape a discount code, each in the spellings it comes in, and the refusals
of those that a code cannot be built from.
-/

namespace Proxyshop.Merchant

open Python Numbers Contracts Structures
open Verification (Spelling textOf reprOf textOf_returns)

/-- What a reader raises: `UnusableOffer`, `OffDomainOffer`, or an error that is neither. -/
inductive OfferError
  | unusable
  | offDomain
  | python (e : PyError)
  deriving DecidableEq

theorem writable_of_finite {n : ℤ} (small : Wire.huge (.number (.integer n) : Wire Binary64) = false) :
    Wire.writable (.number (.integer n) : Wire Binary64) = true := by
  have rounds : (Binary64.round n).isFinite = true := (Bool.not_eq_false' _).mp small
  have bound : (n.natAbs : ℚ) < 10 ^ NumberText.maxStrDigits := by
    calc (n.natAbs : ℚ) = |(n : ℚ)| := by rw [Nat.cast_natAbs, Int.cast_abs]
      _ < 2 ^ 1024 := Binary64.abs_lt_of_isFinite rounds
      _ ≤ 10 ^ 1024 := by gcongr; norm_num
      _ ≤ 10 ^ NumberText.maxStrDigits := pow_le_pow_right₀ (by norm_num) (by decide)
  rw [Wire.writable, Wire.writableNumber, decide_eq_true_iff, Str.length_ofNat_lt (by decide)]
  exact_mod_cast bound
section Fields

variable {F : Type}

/-- `_read`: the first of the names that holds a value. -/
def readField (offer : Wire F) (names : List Str) : Wire F :=
  ((names.map offer.get).find? fun v => !v.isNull).getD .null

/-- `a if a is not None else b`. -/
def firstStated (v w : Wire F) : Wire F := if v.isNull then w else v

@[simp] theorem firstStated_null (w : Wire F) : firstStated .null w = w := rfl

variable [Spelling F]

/-- A refusalOf whose message quotes the value, which `repr` may raise out of. -/
def refusalOf (v : Wire F) : OfferError :=
  match reprOf v with
  | .ok _ => .unusable
  | .error e => .python e

theorem refusalOf_eq (v : Wire F) : refusalOf v = if v.writable then .unusable else .python .valueError := by
  unfold refusalOf reprOf
  split <;> split <;> simp_all

variable [Format F] [Unicode]

/-- `_finite`. -/
def finite (v : Wire F) : Except OfferError F :=
  match v with
  | .bool _ => .error (refusalOf v)
  | v =>
      match v.toDouble with
      | .ok (.finite x) => .ok x
      | .ok _ => .error (refusalOf v)
      -- an integer that no double is near to: `float` raises what is not caught
      | .error .overflowError => .error (.python .overflowError)
      | .error _ => .error (refusalOf v)

/-- What a number raises is the value's to answer for: it is refused where it is no integer too large,
for a double or for `repr`. -/
theorem finite_refuses {v : Wire F} {e : OfferError} (raised : finite v = .error e) :
    e = .unusable ↔ v.huge = false ∧ v.writable = true := by
  have quoted : v.huge = false → (refusalOf v = .unusable ↔ v.huge = false ∧ v.writable = true) := by
    intro small
    rw [refusalOf_eq]
    split <;> simp [*]
  cases v with
  | number n =>
      simp only [finite, Wire.toDouble, Literal.toDouble_eq] at raised
      by_cases large : n.huge = true
      · rw [if_pos large] at raised
        cases raised
        simp [Wire.huge, large]
      · rw [if_neg large] at raised
        have small : Wire.huge (.number n : Wire F) = false := by simpa [Wire.huge] using large
        cases near : n.nearest with
        | finite x => simp [near] at raised
        | infinity negative =>
            simp only [near, Except.error.injEq] at raised
            rw [← raised]
            exact quoted small
        | nan =>
            simp only [near, Except.error.injEq] at raised
            rw [← raised]
            exact quoted small
  | string s =>
      rw [← quoted rfl]
      simp only [finite, Wire.toDouble] at raised
      cases read : NumberText.readFloat? (F := F) s with
      | none =>
          simp only [read, Option.elim_none, Except.error.injEq] at raised
          rw [← raised]
      | some x =>
          rw [read, Option.elim_some] at raised
          cases x with
          | finite x => cases raised
          | infinity negative =>
              simp only [Except.error.injEq] at raised
              rw [← raised]
          | nan =>
              simp only [Except.error.injEq] at raised
              rw [← raised]
  | _ =>
      simp only [finite, Wire.toDouble, Except.error.injEq] at raised
      rw [← raised]
      exact quoted rfl

theorem finite_legible {v : Wire F} {x : F} (read : finite v = .ok x) : v.huge = false := by
  cases v with
  | number n =>
      simp only [finite, Wire.toDouble, Literal.toDouble_eq] at read
      by_cases large : n.huge = true
      · simp [large] at read
      · simpa [Wire.huge] using large
  | _ => rfl

end Fields

/-! ## The discount -/

def percentageDiscountTypes : List Str := [str "percentage", str "percent", str "pct"]

def fixedAmountDiscountTypes : List Str := [str "fixed_amount", str "fixed", str "amount"]

def maxDiscountPercent : ℚ := 100

inductive DiscountUnit
  | points
  | money
  deriving DecidableEq

inductive NumberField
  | nested
  | points
  | money
  deriving DecidableEq

structure OfferDiscount (F : Type) where
  type : Str
  percent : Option F
  amount : Option F
  currency : Option Str

def OfferDiscount.number {F : Type} (d : OfferDiscount F) : DiscountUnit → Option F
  | .points => d.percent
  | .money => d.amount

/-- The type and the number that are merged out of the two spellings, with the field the number is
from. -/
structure MergedDiscount (F : Type) where
  rawType : Wire F
  rawValue : Wire F
  readFrom : NumberField

section Discounts

variable {F : Type}

/-- The type the offer declares, its nested discount's before its own. -/
def declaredType (offer : Wire F) : Wire F :=
  firstStated ((readField offer [str "discount"]).get (str "type"))
    (readField offer [str "discount_type", str "discountType"])

def nestedNumber (offer : Wire F) : Wire F := (readField offer [str "discount"]).get (str "value")

def pointsNumber (offer : Wire F) : Wire F :=
  readField offer [str "discount_pct", str "discountPct", str "discount_percent"]

def moneyNumber (offer : Wire F) : Wire F :=
  readField offer [str "discount_amount", str "discountAmount"]

/-- The fields of `offer_discount` before it decides on a unit. A nested discount that is no mapping
has no fields. -/
def mergedDiscount (offer : Wire F) : MergedDiscount F :=
  let rawType := declaredType offer
  let rawValue := firstStated (nestedNumber offer) (pointsNumber offer)
  if rawValue.isNull then
    let rawValue := moneyNumber offer
    { rawType := if !rawValue.isNull && rawType.isNull then .string (str "fixed_amount") else rawType
      rawValue
      readFrom := .money }
  else
    { rawType, rawValue, readFrom := if (nestedNumber offer).isNull then .points else .nested }

variable [Spelling F]

/-- `_currency`: a value that is no text is described, which spells a number out. -/
def currencyOf : Wire F → Except OfferError (Option Str)
  | .null => .ok none
  | .string s => .ok s.strip.nonEmpty?
  | .number n => .error (refusalOf (.number n : Wire F))
  | _ => .error .unusable

variable [Unicode]

def discountKind (rawType : Wire F) : Except OfferError Str :=
  if rawType.isNull then .ok (str "percentage")
  else
    match textOf rawType with
    | .ok s => .ok (Unicode.lower s.strip)
    | .error e => .error (.python e)

variable [Format F]

def offerDiscount (offer : Wire F) : Except OfferError (OfferDiscount F) := do
  let merged := mergedDiscount offer
  let kind ← discountKind merged.rawType
  if kind ∈ fixedAmountDiscountTypes then
    if merged.rawValue.isNull then .error .unusable
    else
      let amount ← finite merged.rawValue
      if Format.value amount ≤ 0 then .error (refusalOf merged.rawValue)
      else
        let currency ← currencyOf (readField offer [str "currency", str "currency_code", str "currencyCode"])
        return { type := kind, percent := none, amount := some amount, currency }
  else if kind ∉ percentageDiscountTypes then .error (refusalOf merged.rawType)
  else if merged.rawValue.isNull then .error .unusable
  else
    let percent ← finite merged.rawValue
    if 0 < Format.value percent ∧ Format.value percent ≤ maxDiscountPercent then
      return { type := kind, percent := some percent, amount := none, currency := none }
    else .error .unusable

/-! ## The unit of a discount -/

def typeUnit (kind : Str) : Option DiscountUnit :=
  if kind ∈ fixedAmountDiscountTypes then some .money
  else if kind ∈ percentageDiscountTypes then some .points
  else none

/-- The unit that the field states its number in: for a nested one, what the type says. -/
def NumberField.unit (kind : Str) : NumberField → Option DiscountUnit
  | .nested => typeUnit kind
  | .points => some .points
  | .money => some .money

/-- The discount is the number of the field it is read from, in the unit of that field, or it is
refused. -/
def UnitKept (offer : Wire F) : Prop :=
  match offerDiscount offer with
  | .error e => e = .unusable
  | .ok d => ∃ unit x, (mergedDiscount offer).readFrom.unit d.type = some unit ∧
      finite (mergedDiscount offer).rawValue = .ok x ∧
      ∀ other, d.number other = if other = unit then some x else none

/-- The first number the offer states: a nested value, percentage points, a sum of money. -/
def statedNumber (offer : Wire F) : Wire F :=
  firstStated (firstStated (nestedNumber offer) (pointsNumber offer)) (moneyNumber offer)

/-- The type that decides: where none is declared, a sum of money is one when it is the only number. -/
def decidingType (offer : Wire F) : Wire F :=
  if (declaredType offer).isNull ∧ (nestedNumber offer).isNull ∧ (pointsNumber offer).isNull ∧
      (moneyNumber offer).isNull = false then
    .string (str "fixed_amount")
  else declaredType offer

def statedCurrency (offer : Wire F) : Wire F :=
  readField offer [str "currency", str "currency_code", str "currencyCode"]

def declaredUnit (offer : Wire F) : Option DiscountUnit :=
  (discountKind (decidingType offer)).toOption.bind typeUnit

def DiscountUnit.admits : DiscountUnit → F → Prop
  | .points, x => 0 < Format.value x ∧ Format.value x ≤ maxDiscountPercent
  | .money, x => 0 < Format.value x

/-- No integer on the way to the discount is too large for a double or for a text. -/
structure LegibleDiscount (offer : Wire F) : Prop where
  type : (decidingType offer).writable = true
  number : (declaredUnit offer).isSome → (statedNumber offer).huge = false ∧ (statedNumber offer).writable = true
  currency : declaredUnit offer = some .money → ∀ x, finite (statedNumber offer) = .ok x →
    DiscountUnit.money.admits x → ∀ n, statedCurrency offer = .number n → Wire.writable (.number n : Wire F) = true

/-- Percentage points where the type says money, or a sum of money where it says points, and nothing
else to refuse. -/
def CrossedDiscount (offer : Wire F) : Prop :=
  (nestedNumber offer).isNull = true ∧ ∃ x, finite (statedNumber offer) = .ok x ∧
    ((declaredUnit offer = some .money ∧ DiscountUnit.money.admits x ∧ (pointsNumber offer).isNull = false ∧
        ∃ c, currencyOf (statedCurrency offer) = .ok c) ∨
      (declaredUnit offer = some .points ∧ DiscountUnit.points.admits x ∧ (pointsNumber offer).isNull = true))

omit [Spelling F] [Unicode] [Format F] in
theorem mergedDiscount_rawType (offer : Wire F) : (mergedDiscount offer).rawType = decidingType offer := by
  cases nested : (nestedNumber offer).isNull <;> cases points : (pointsNumber offer).isNull <;>
    cases money : (moneyNumber offer).isNull <;> cases type : (declaredType offer).isNull <;>
    simp [mergedDiscount, decidingType, firstStated, nested, points, money, type]

omit [Spelling F] [Unicode] [Format F] in
theorem mergedDiscount_rawValue (offer : Wire F) : (mergedDiscount offer).rawValue = statedNumber offer := by
  cases nested : (nestedNumber offer).isNull <;> cases points : (pointsNumber offer).isNull <;>
    simp [mergedDiscount, statedNumber, firstStated, nested, points]

omit [Spelling F] [Unicode] [Format F] in
theorem mergedDiscount_readFrom (offer : Wire F) : (mergedDiscount offer).readFrom =
    if (nestedNumber offer).isNull then (if (pointsNumber offer).isNull then .money else .points)
    else .nested := by
  cases nested : (nestedNumber offer).isNull <;> cases points : (pointsNumber offer).isNull <;>
    simp [mergedDiscount, firstStated, nested, points]

def OfferDiscount.of (kind : Str) (currency : Option Str) (x : F) : DiscountUnit → OfferDiscount F
  | .points => { type := kind, percent := some x, amount := none, currency := none }
  | .money => { type := kind, percent := none, amount := some x, currency }

omit [Spelling F] [Unicode] [Format F] in
theorem number_of (kind : Str) (currency : Option Str) (x : F) (unit other : DiscountUnit) :
    (OfferDiscount.of kind currency x unit).number other = if other = unit then some x else none := by
  cases unit <;> cases other <;> rfl

omit [Spelling F] [Unicode] in
instance (unit : DiscountUnit) (x : F) : Decidable (unit.admits x) := by
  cases unit
  · exact inferInstanceAs (Decidable (0 < Format.value x ∧ Format.value x ≤ maxDiscountPercent))
  · exact inferInstanceAs (Decidable (0 < Format.value x))

def DiscountUnit.currency (offer : Wire F) : DiscountUnit → Except OfferError (Option Str)
  | .points => .ok none
  | .money => currencyOf (statedCurrency offer)

/-- What is raised of a number that the unit does not admit. -/
def DiscountUnit.outside (offer : Wire F) : DiscountUnit → OfferError
  | .points => .unusable
  | .money => refusalOf (statedNumber offer)

theorem finite_null : finite (.null : Wire F) = .error .unusable := rfl

theorem offerDiscount_eq (offer : Wire F) : offerDiscount offer =
    match discountKind (decidingType offer) with
    | .error e => .error e
    | .ok kind =>
        match typeUnit kind with
        | none => .error (refusalOf (decidingType offer))
        | some unit =>
            match finite (statedNumber offer) with
            | .error e => .error e
            | .ok x =>
                if unit.admits x then (unit.currency offer).map fun c => .of kind c x unit
                else .error (unit.outside offer) := by
  unfold offerDiscount
  dsimp only
  rw [mergedDiscount_rawType, mergedDiscount_rawValue]
  have null : (statedNumber offer).isNull = true → finite (statedNumber offer) = .error .unusable := by
    intro null
    rw [Json.isNull_iff.mp null]
    rfl
  cases discountKind (decidingType offer) with
  | error e => rfl
  | ok kind =>
      change (if kind ∈ fixedAmountDiscountTypes then _ else _) = _
      by_cases fixed : kind ∈ fixedAmountDiscountTypes
      · simp only [typeUnit, if_pos fixed]
        by_cases absent : (statedNumber offer).isNull = true
        · rw [if_pos absent, null absent]
        rw [if_neg absent]
        cases finite (statedNumber offer) with
        | error e => rfl
        | ok x =>
            change (if Format.value x ≤ 0 then _ else _) = if 0 < Format.value x then _ else _
            by_cases positive : 0 < Format.value x
            · rw [if_neg (not_le.mpr positive), if_pos positive]
              change currencyOf (statedCurrency offer) >>= _ = (currencyOf (statedCurrency offer)).map _
              cases currencyOf (statedCurrency offer) <;> rfl
            · rw [if_pos (not_lt.mp positive), if_neg positive]
              rfl
      · simp only [typeUnit, if_neg fixed]
        by_cases percentage : kind ∈ percentageDiscountTypes
        · simp only [percentage, not_true_eq_false, if_false, if_true]
          by_cases absent : (statedNumber offer).isNull = true
          · rw [if_pos absent, null absent]
          rw [if_neg absent]
          cases finite (statedNumber offer) <;> rfl
        · simp only [percentage, not_false_eq_true, if_true, if_false]


omit [Format F] in
theorem discountKind_returns {v : Wire F} : (∃ kind, discountKind v = .ok kind) ↔ v.writable = true := by
  unfold discountKind
  split
  · rename_i null
    rw [Json.isNull_iff.mp null]
    exact iff_of_true ⟨_, rfl⟩ rfl
  · rw [← textOf_returns]
    cases textOf v <;> simp

omit [Format F] in
theorem discountKind_raises {v : Wire F} {e : OfferError} (raised : discountKind v = .error e) :
    e ≠ .unusable := by
  unfold discountKind at raised
  split at raised
  · cases raised
  · cases text : textOf v <;> simp_all only [reduceCtorEq, Except.error.injEq]
    rw [← raised]
    nofun

omit [Unicode] [Format F] in
theorem currencyOf_refuses {v : Wire F} {e : OfferError} (raised : currencyOf v = .error e) :
    e = .unusable ↔ ∀ n, v = .number n → Wire.writable (.number n : Wire F) = true := by
  cases v with
  | number n =>
      simp only [currencyOf, Except.error.injEq] at raised
      rw [← raised, refusalOf_eq]
      split <;> simp [*]
  | _ => simp_all [currencyOf]

omit [Unicode] [Format F] in
theorem currencyOf_legible {v : Wire F} {c : Option Str} (read : currencyOf v = .ok c) (n : Literal F) :
    v ≠ .number n := by
  rintro rfl
  cases read


end Discounts

section Doubles

variable [Spelling Binary64] [Unicode]

theorem finite_writable {v : Wire Binary64} {x : Binary64} (read : finite v = .ok x) : v.writable = true := by
  cases v with
  | number n =>
      cases n with
      | integer n => exact writable_of_finite (finite_legible read)
      | double x => rfl
  | string s => exact Wire.writable_string s
  | _ => cases read

theorem legibleDiscount_iff (offer : Wire Binary64) :
    LegibleDiscount offer ↔ ∀ e, offerDiscount offer = .error e → e = .unusable := by
  rw [offerDiscount_eq]
  cases typed : discountKind (decidingType offer) with
  | error e =>
      have unwritable : ¬ (decidingType offer).writable = true := by
        rw [← discountKind_returns, typed]
        nofun
      exact iff_of_false (fun legible => unwritable legible.type) fun refuses =>
        discountKind_raises typed (refuses e rfl)
  | ok kind =>
      have written := discountKind_returns.mp ⟨kind, typed⟩
      have declared : declaredUnit offer = typeUnit kind := by
        rw [declaredUnit, typed]
        rfl
      dsimp only
      cases named : typeUnit kind with
      | none =>
          rw [named] at declared
          refine iff_of_true ⟨written, by simp [declared], by simp [declared]⟩ fun e raised => ?_
          cases raised
          rw [refusalOf_eq, if_pos written]
      | some unit =>
          rw [named] at declared
          dsimp only
          cases read : finite (statedNumber offer) with
          | error e =>
              constructor
              · rintro legible _ ⟨⟩
                exact (finite_refuses read).mpr (legible.number (by simp [declared]))
              · intro refuses
                have legible := (finite_refuses read).mp (refuses e rfl)
                exact ⟨written, fun _ => legible, fun _ x again => by simp [read] at again⟩
          | ok x =>
              have number := And.intro (finite_legible read) (finite_writable read)
              dsimp only
              by_cases admitted : unit.admits x
              · rw [if_pos admitted]
                cases unit with
                | points => exact iff_of_true ⟨written, fun _ => number, by simp [declared]⟩ (by nofun)
                | money =>
                    rw [DiscountUnit.currency]
                    cases spelled : currencyOf (statedCurrency offer) with
                    | ok c =>
                        have stated := currencyOf_legible spelled
                        refine iff_of_true ⟨written, fun _ => number, fun _ _ _ _ n same => ?_⟩ (by nofun)
                        exact absurd same (stated n)
                    | error e =>
                        constructor
                        · rintro legible _ ⟨⟩
                          exact (currencyOf_refuses spelled).mpr (legible.currency declared x read admitted)
                        · intro refuses
                          have quoted := (currencyOf_refuses spelled).mp (refuses e rfl)
                          exact ⟨written, fun _ => number, fun _ _ _ _ => quoted⟩
              · rw [if_neg admitted]
                constructor
                · rintro - e ⟨⟩
                  cases unit with
                  | points => rfl
                  | money => rw [DiscountUnit.outside, refusalOf_eq, if_pos number.2]
                · intro _
                  refine ⟨written, fun _ => number, fun money y again positive => ?_⟩
                  rw [declared, Option.some.injEq] at money
                  rw [read, Except.ok.injEq] at again
                  rw [money, again] at admitted
                  exact absurd positive admitted

theorem offerDiscount_eq_ok {offer : Wire Binary64} {d : OfferDiscount Binary64} :
    offerDiscount offer = .ok d ↔ ∃ kind unit x c, discountKind (decidingType offer) = .ok kind ∧
      typeUnit kind = some unit ∧ finite (statedNumber offer) = .ok x ∧ unit.admits x ∧
      unit.currency offer = .ok c ∧ d = .of kind c x unit := by
  rw [offerDiscount_eq]
  cases typed : discountKind (decidingType offer) with
  | error e => simp
  | ok kind =>
      dsimp only
      cases named : typeUnit kind with
      | none => simp [named]
      | some unit =>
          dsimp only
          cases read : finite (statedNumber offer) with
          | error e => simp
          | ok x =>
              by_cases admitted : unit.admits x
              · cases spelled : unit.currency offer <;> simp [*, Except.map, eq_comm]
              · simp [*]

theorem declaredUnit_eq_some {offer : Wire Binary64} {unit : DiscountUnit} :
    declaredUnit offer = some unit ↔
      ∃ kind, discountKind (decidingType offer) = .ok kind ∧ typeUnit kind = some unit := by
  simp [declaredUnit, Option.bind_eq_some_iff, toOption_eq_some]

theorem CrossedDiscount.made {offer : Wire Binary64} (crossed : CrossedDiscount offer) :
    ∃ d, offerDiscount offer = .ok d := by
  obtain ⟨-, x, read, ⟨declared, admitted, -, c, spelled⟩ | ⟨declared, admitted, -⟩⟩ := crossed
  · obtain ⟨kind, typed, named⟩ := declaredUnit_eq_some.mp declared
    exact ⟨_, offerDiscount_eq_ok.mpr ⟨kind, .money, x, c, typed, named, read, admitted, spelled, rfl⟩⟩
  · obtain ⟨kind, typed, named⟩ := declaredUnit_eq_some.mp declared
    exact ⟨_, offerDiscount_eq_ok.mpr ⟨kind, .points, x, none, typed, named, read, admitted, rfl, rfl⟩⟩

theorem unitKept_of_minted {offer : Wire Binary64} {kind : Str} {unit : DiscountUnit} {x : Binary64}
    {c : Option Str} (typed : discountKind (decidingType offer) = .ok kind) (named : typeUnit kind = some unit)
    (read : finite (statedNumber offer) = .ok x) (admitted : unit.admits x)
    (spelled : unit.currency offer = .ok c) :
    UnitKept offer ↔ (mergedDiscount offer).readFrom.unit kind = some unit := by
  have made := offerDiscount_eq_ok.mpr ⟨kind, unit, x, c, typed, named, read, admitted, spelled, rfl⟩
  have type : (OfferDiscount.of kind c x unit).type = kind := by cases unit <;> rfl
  rw [UnitKept, made]
  dsimp only
  rw [mergedDiscount_rawValue, type]
  constructor
  · rintro ⟨unit', y, stated, -, numbers⟩
    have number := numbers unit'
    rw [number_of, if_pos rfl] at number
    split at number
    · rename_i same
      rwa [← same]
    · cases number
  · exact fun stated => ⟨unit, x, stated, read, number_of kind c x unit⟩

/-- A discount is in the unit of the field that stated it just when no integer is too large and no number
is crossed with the other unit's type. -/
theorem unitKept_iff (offer : Wire Binary64) :
    UnitKept offer ↔ LegibleDiscount offer ∧ ¬ CrossedDiscount offer := by
  rw [legibleDiscount_iff]
  cases made : offerDiscount offer with
  | error e =>
      have unit : UnitKept offer ↔ e = .unusable := by rw [UnitKept, made]
      have uncrossed : ¬ CrossedDiscount offer := by
        intro crossed
        obtain ⟨d, made'⟩ := crossed.made
        rw [made] at made'
        cases made'
      rw [unit, and_iff_left uncrossed]
      exact ⟨by rintro rfl _ ⟨⟩; rfl, fun refuses => refuses e rfl⟩
  | ok d =>
      obtain ⟨kind, unit, x, c, typed, named, read, admitted, spelled, rfl⟩ := offerDiscount_eq_ok.mp made
      have declared := declaredUnit_eq_some.mpr ⟨kind, typed, named⟩
      rw [unitKept_of_minted typed named read admitted spelled, mergedDiscount_readFrom,
        and_iff_right (by nofun), CrossedDiscount]
      cases nested : (nestedNumber offer).isNull
      · simp [NumberField.unit, named]
      cases points : (pointsNumber offer).isNull
      · cases unit with
        | points => simp [NumberField.unit, declared]
        | money =>
            have minted : ∃ x, finite (statedNumber offer) = .ok x ∧ DiscountUnit.money.admits x ∧
                ∃ c, currencyOf (statedCurrency offer) = .ok c := ⟨x, read, admitted, c, spelled⟩
            simpa [NumberField.unit, declared] using minted
      · cases unit with
        | money => simp [NumberField.unit, declared]
        | points =>
            have minted : ∃ x, finite (statedNumber offer) = .ok x ∧ DiscountUnit.points.admits x :=
              ⟨x, read, admitted⟩
            simpa [NumberField.unit, declared] using minted

omit [Spelling Binary64] [Unicode] in
/-- Twenty percentage points off under a type that says money: a discount of twenty is minted. -/
theorem points_minted_as_money :
    letI := Spelling.strings Binary64
    letI := Unicode.ascii
    ¬ UnitKept (.object [(str "discount_type", .string (str "fixed_amount")),
      (str "discount_pct", .number (.integer 20))] : Wire Binary64) := by
  let _ := Spelling.strings Binary64
  let _ := Unicode.ascii
  let twenty : Binary64 := ⟨20, Binary64.representable_of_small (n := 20) (by decide)⟩
  have read : finite (.number (.integer 20) : Wire Binary64) = .ok twenty := by
    have near : Format.round ((20 : ℤ) : ℚ) = Extended.finite twenty := Binary64.round_value twenty
    simp only [finite, Wire.toDouble, Literal.toDouble, near]
  have positive : DiscountUnit.money.admits twenty := by
    show (0 : ℚ) < 20
    norm_num
  have typed : discountKind (decidingType (.object [(str "discount_type", .string (str "fixed_amount")),
      (str "discount_pct", .number (.integer 20))] : Wire Binary64)) = .ok (str "fixed_amount") := by
    decide
  rw [unitKept_of_minted typed (by decide) read positive (c := none) rfl]
  decide

end Doubles

/-! ## The window, the quantity and the variant -/

/-- `MAX_CODE_LIFETIME`. -/
def maxCodeLifetime : Int := 48 * 3600 * microsPerSecond

/-- `t + timedelta(microseconds=micros)`, which no date may be reached by. -/
def shifted (t : DateTime) (micros : Int) : Option DateTime := DateTime.ofWall? (t.wall + micros) t.offset

section Window

variable {F : Type} [Spelling F] [Format F] [Unicode]

def instantOf (v : Wire F) (seconds : F) : Except OfferError DateTime :=
  (fromTimestamp (.finite seconds)).elim (.error (refusalOf v)) .ok

/-- A number is an epoch second; the timestamps of the boundary come before a text that spells a
number. -/
def parseInstant (v : Wire F) : Except OfferError DateTime :=
  match v with
  | .number n => do instantOf v (← finite (.number n : Wire F))
  | v =>
      match parseTimestamp v with
      | some t => .ok t.aware
      | none => do instantOf v (← finite v)

def offerExpiresAt (offer : Wire F) : Except OfferError (Option DateTime) :=
  match readField offer [str "expires_at", str "expiresAt", str "expiry"] with
  | .null => .ok none
  | raw => do return some (← parseInstant raw)

/-- `min(t, u)`. -/
def sooner (t u : DateTime) : DateTime := if u.instant < t.instant then u else t

def codeExpiry (now : DateTime) (offer : Wire F) : Except OfferError DateTime :=
  if now.offset.isNone then .error .unusable
  else
    match shifted now maxCodeLifetime with
    | none => .error (.python .overflowError)
    | some cap => do
        let expiresAt ← offerExpiresAt offer
        let endsAt := expiresAt.elim cap (sooner cap)
        if endsAt.instant ≤ now.instant then .error .unusable else return endsAt

omit [Format F] in
def offerQuantity (offer : Wire F) : Except OfferError Int :=
  match readField offer [str "quantity", str "qty"] with
  | .null | .string [] => .ok 1
  | quantity =>
      match (textOf quantity).toOption.bind fun text => NumberText.readInt? text.strip with
      | none => .error (refusalOf quantity)
      | some n => if n < 1 then .error (refusalOf quantity) else .ok n

omit [Format F] [Unicode] in
def variantText (offer : Wire F) : Except OfferError (Option Str) :=
  match readField offer [str "variant_id", str "variant_ref", str "variantId", str "variant"] with
  | .null => .ok none
  | raw =>
      match textOf raw with
      | .error e => .error (.python e)
      | .ok text => .ok text.strip.nonEmpty?

def slash : CodePoint := CodePoint.ofChar '/'

/-- `text.rsplit("/", 1)[-1]`. -/
def lastSegment (text : Str) : Str := text.rtakeWhile fun c => c ≠ slash

def gidScheme : Str := str "gid://"

def variantGidPrefix : Str := str "gid://shopify/ProductVariant/"

omit [Format F] [Unicode] in
/-- The variant in the permalink: the last segment of its spelling. -/
def offerVariantId (offer : Wire F) : Except OfferError (Option Str) := do
  match ← variantText offer with
  | none => return none
  | some text =>
      if (lastSegment text).isEmpty then
        .error (refusalOf (readField offer [str "variant_id", str "variant_ref", str "variantId", str "variant"]))
      else return some (lastSegment text)

omit [Format F] [Unicode] in
def offerVariantGid (offer : Wire F) : Except OfferError (Option Str) := do
  match ← variantText offer with
  | none => return none
  | some text => return some (if gidScheme.isPrefixOf text then text else variantGidPrefix ++ text)

end Window

/-! ## The prices and the shop -/

/-- What is used of `decimal`: the number a text reads as, if it is a decimal and that finite, and whether
a list price and a unit price contradict a percentage. -/
class Decimals (F : Type) where
  decimal : Str → Option (Option ℚ)
  contradicted : ℚ → ℚ → F → Except PyError Bool

/-- `urlsplit(url).hostname`. -/
class Hosts where
  hostname : Str → Except PyError (Option Str)

section Mintable

variable {F : Type} [Spelling F] [Format F] [Unicode] [Decimals F] [Hosts]

def listPriceFields : List Str := [str "list_price", str "listPrice", str "compare_at_price"]

def unitPriceFields : List Str := [str "unit_price", str "unitPrice"]

def priceOf (raw : Wire F) : Except OfferError (Option ℚ) :=
  match (textOf raw).toOption.bind fun text => (Decimals.decimal F text.strip).join with
  | none => .error (refusalOf raw)
  | some amount => if amount < 0 then .error (refusalOf raw) else .ok (some amount)

/-- `_stated_price`: a blank text states none. -/
def statedPrice (offer : Wire F) (names : List Str) : Except OfferError (Option ℚ) :=
  match readField offer names with
  | .null => .ok none
  | .string s => if s.strip.isEmpty then .ok none else priceOf (.string s : Wire F)
  | .number n => priceOf (.number n : Wire F)
  | _ => .error .unusable

def assertDiscountMatchesPrices (offer : Wire F) (discount : OfferDiscount F) : Except OfferError Unit := do
  let listPrice ← statedPrice offer listPriceFields
  let unitPrice ← statedPrice offer unitPriceFields
  match discount.percent, listPrice, unitPrice with
  | some percent, some listed, some unit =>
      if listed = 0 then (if unit = 0 then .ok () else .error .unusable)
      else
        match Decimals.contradicted listed unit percent with
        | .error e => .error (.python e)
        | .ok true => .error .unusable
        | .ok false => .ok ()
  | _, _, _ => .ok ()

/-- `shopify_discount_percentage`: the fraction that the mutation takes. -/
def OfferDiscount.shopifyPercentage (d : OfferDiscount F) : Except OfferError (Option (Extended F)) :=
  match d.percent with
  | none => .ok none
  | some percent =>
      let kind := Unicode.lower d.type.strip
      if kind ∈ fixedAmountDiscountTypes then .ok none
      else if kind ∉ percentageDiscountTypes then .error .unusable
      else if 0 ≤ Format.value percent ∧ Format.value percent ≤ maxDiscountPercent then
        .ok (some (.finite percent / 100.0))
      else .error .unusable

def myshopifySuffix : Str := str ".myshopify.com"

def isLabelEnd (c : CodePoint) : Bool :=
  (48 ≤ c.val && c.val ≤ 57) || (65 ≤ c.val && c.val ≤ 90) || (97 ≤ c.val && c.val ≤ 122)

/-- `_LABEL`. -/
def isLabel (label : Str) : Bool :=
  label.head?.any isLabelEnd && label.getLast?.any isLabelEnd && label.length ≤ 63 &&
    label.all fun c => isLabelEnd c || c = CodePoint.ofChar '-'

def isControl (c : CodePoint) : Bool := (c.val < 0x21 && c ≠ CodePoint.ofChar ' ') || c.val = 0x7F

/-- `normalize_shop_domain`, where it does not raise `InvalidShopDomain`. -/
def normalizeShopDomain (raw : Str) : Option Str :=
  let candidate := Unicode.lower raw.strip
  let forbidden := [str "://", str "@", str "/", str "?", str "#", str ":", str "\\", str "\r", str "\n"]
  let labels := candidate.splitOn (CodePoint.ofChar '.')
  if !raw.any isControl && !candidate.isEmpty && !candidate.any CodePoint.isSpace &&
      !forbidden.any (fun f => decide (f <:+: candidate)) && myshopifySuffix.isSuffixOf candidate &&
      (3 ≤ labels.length && labels.all isLabel) then some candidate else none

/-- `_host_of`. -/
def hostOf : Wire F → Except OfferError (Option Str)
  | .string url =>
      if url.strip.isEmpty then .ok none
      else
        match Hosts.hostname url.strip with
        | .error e => .error (.python e)
        | .ok host => .ok (host.bind Str.nonEmpty?)
  | _ => .ok none

/-- The shop's own host, which a host that the offer names must be. -/
def shopDomainFor (storeId : Str) (offer : Wire F) : Except OfferError Str := do
  let raw := storeId.strip
  if raw.isEmpty then .error .unusable
  else
    let candidate := if myshopifySuffix.isSuffixOf (Unicode.lower raw) then raw else raw ++ myshopifySuffix
    match normalizeShopDomain candidate with
    | none => .error .unusable
    | some shop =>
        let stated ← hostOf (readField offer [str "checkout_url", str "checkoutUrl", str "permalink_url", str "url"])
        let named := readField offer [str "shop_domain", str "shopDomain", str "shop"]
        let declared ← match stated with
          | some host => .ok (some host)
          | none =>
              match if named.truthy then textOf named else .ok [] with
              | .error e => .error (.python e)
              | .ok text => hostOf (.string (str "https://" ++ text) : Wire F)
        if declared.all fun host => Unicode.lower host = shop then return shop else .error .offDomain

def assertOfferIsMintable (storeId : Str) (offer : Wire F) (now : DateTime) : Except OfferError Unit := do
  let _ ← shopDomainFor storeId offer
  let _ ← codeExpiry now offer
  let _ ← offerQuantity offer
  let _ ← offerVariantId offer
  let discount ← offerDiscount offer
  assertDiscountMatchesPrices offer discount
  match ← discount.shopifyPercentage with
  | none => if discount.amount.isNone then .error .unusable else .ok ()
  | some _ => .ok ()

end Mintable

end Proxyshop.Merchant
