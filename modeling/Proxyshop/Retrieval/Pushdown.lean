import Mathlib.Data.List.Infix
import Mathlib.Data.List.ReduceOption
import Proxyshop.Graph.Filters
import Proxyshop.Graph.Readings
import Proxyshop.Structures.Fallible
import Proxyshop.Verification.Normalize

/-!
# What the query may be asked

A criterion that is pushed into the query is decided there as it is decided here, over the nodes of a
graph that is coherent.
-/

/-!
## The hard criteria of an intent

A criterion is decided against the readings of a candidate, and pushed into the query where the query
can say it.
-/

namespace Proxyshop.Retrieval

open Python Numbers Contracts Verification Graph

inductive Test
  | eq (value : Wire Binary64)
  | lte (bound : Literal Binary64)
  | gte (bound : Literal Binary64)
  | oneOf (options : List (Wire Binary64)) (given : options ≠ [])
  | contains (needle : Str)

structure HardCriterion where
  field : Str
  test : Test
  unit : Option Str
  named : field.strip ≠ []

inductive Reason
  | noAttribute (field : Str)
  | noUnit (field unit : Str) (seen : List (Option Str))
  | unsatisfied (field : Str) (readings : List Reading)

variable [Folding] [Spelling Binary64]

omit [Spelling Binary64] in
def HardCriterion.canonicalField (criterion : HardCriterion) : Str := slug criterion.field

/-- `math.isclose` under both tolerances. -/
def isClose (x y : Extended Binary64) : Bool :=
  let tolerance : Extended Binary64 := 1e-9
  let difference := (y - x).magnitude
  if x ≤ y && y ≤ x then true
  else if (x matches .infinity _) || (y matches .infinity _) then false
  else difference ≤ (tolerance * y).magnitude || difference ≤ (tolerance * x).magnitude ||
    difference ≤ tolerance

/-- `_equals`. -/
def equalTo (reading : Reading) : Wire Binary64 → Except PyError Bool
  | .bool b => .ok (reading.valueBool = some b)
  | .number n =>
      match reading.valueNumber with
      | none => .ok false
      | some x => do return isClose x (← n.toDouble)
  | expected =>
      match reading.valueString with
      | none => .ok false
      | some value => do return canonicalText value = canonicalText (← textOf expected)

/-- `_matches`. -/
def matchesTest (reading : Reading) : Test → Except PyError Bool
  | .eq value => equalTo reading value
  | .lte bound =>
      match reading.valueNumber with
      | none => .ok false
      | some x => do return x ≤ (← bound.toDouble)
  | .gte bound =>
      match reading.valueNumber with
      | none => .ok false
      | some x => do return (← bound.toDouble) ≤ x
  | .oneOf options _ => options.anyM (equalTo reading)
  | .contains needle =>
      match reading.valueString with
      | none => .ok false
      | some value => .ok (canonicalText needle <:+: canonicalText value)

namespace HardCriterion

/-- `decide`: the reason that the candidate fails, if it does. -/
def decide (criterion : HardCriterion) (attributes : List Reading) : Except PyError (Option Reason) := do
  let named := attributes.filter fun reading => slug reading.key = criterion.canonicalField
  if named.isEmpty then return some (.noAttribute criterion.field)
  let inUnit := match criterion.unit with
    | none => named
    | some unit => named.filter fun reading =>
        reading.unit.any fun stated => canonicalText stated = canonicalText unit
  if inUnit.isEmpty then
    return some (.noUnit criterion.field (criterion.unit.getD []) (named.map Reading.unit))
  if ← inUnit.anyM (matchesTest · criterion.test) then return none
  return some (.unsatisfied criterion.field inUnit)

/-- `is_budget_bound`. -/
def isBudgetBound (criterion : HardCriterion) : Bool :=
  criterion.canonicalField = slug "price_usd" && match criterion.test with
    | .lte _ | .gte _ => true
    | _ => false

def pushdown (criterion : HardCriterion) : Except PyError (Option AttributeFilter) :=
  if criterion.isBudgetBound then .ok none
  else match criterion.test with
    | .eq (.bool b) => .ok (some { key := criterion.field
                                   valueBool := some b
                                   unit := criterion.unit })
    | .eq (.number _) => .ok none
    | .eq value => do
        return some { key := criterion.field
                      valueString := some (← textOf value)
                      unit := criterion.unit }
    | .lte bound => do
        return some { key := criterion.field
                      maxNumber := some (← bound.toDouble)
                      unit := criterion.unit }
    | .gte bound => do
        return some { key := criterion.field
                      minNumber := some (← bound.toDouble)
                      unit := criterion.unit }
    | .oneOf _ _ | .contains _ => .ok none

end HardCriterion

abbrev RetrievalQuery := List HardCriterion

namespace RetrievalQuery

def attributeFilters (query : RetrievalQuery) : Except PyError (List AttributeFilter) := do
  return (← query.mapM HardCriterion.pushdown).reduceOption

def localOnlyCriteria (query : RetrievalQuery) : Except PyError (List HardCriterion) :=
  query.filterM fun criterion => do return (← criterion.pushdown).isNone

/-- The reasons for which a candidate is excluded; a money bound is not decided here. -/
def exclusionReasons (query : RetrievalQuery) (attributes : List Reading) :
    Except PyError (List Reason) := do
  return (← (query.filter fun criterion => !criterion.isBudgetBound).mapM
    fun criterion => criterion.decide attributes).reduceOption

end RetrievalQuery
end Proxyshop.Retrieval

namespace Proxyshop.Retrieval

open Python Numbers Contracts Verification Structures Graph

variable [Folding]

section Rows

variable {nodes : List Properties}

theorem readingOf_collectedOf (r : Reading) : readingOf (collectedOf r) = some r := by
  rcases r with ⟨key, value, number, flag, unit⟩
  cases value <;> cases number <;> cases flag <;> cases unit <;> rfl

theorem mem_attrsOf (coherent : ∀ node ∈ nodes, Coherent node) {a : Collected} (member : a ∈ attrsOf nodes) :
    a = collect (fun _ => none) ∨ ∃ r, a = collectedOf r := by
  unfold attrsOf at member
  split at member
  · exact Or.inl (List.mem_singleton.mp member)
  · rw [List.mem_dedup, List.mem_map] at member
    obtain ⟨node, inside, rfl⟩ := member
    exact Or.inr (coherent node inside)

theorem mem_project (coherent : ∀ node ∈ nodes, Coherent node) (r : Reading) :
    r ∈ project (attrsOf nodes) ↔ collectedOf r ∈ attrsOf nodes := by
  rw [project, List.mem_filterMap]
  constructor
  · rintro ⟨a, member, read⟩
    rcases mem_attrsOf coherent member with rfl | ⟨r', rfl⟩
    · cases read
    · rw [readingOf_collectedOf, Option.some.injEq] at read
      rwa [← read]
  · exact fun member => ⟨collectedOf r, member, readingOf_collectedOf r⟩

end Rows

theorem accepts_iff {nodes : List Properties} (coherent : ∀ node ∈ nodes, Coherent node) (f : AttributeFilter) :
    accepts (attrsOf nodes) f = true ↔
      ∃ r ∈ project (attrsOf nodes), satisfies f.asParameter (collectedOf r) = some true := by
  rw [accepts, decide_eq_true_eq, Truth.any_holds]
  constructor
  · rintro ⟨a, member, holds⟩
    rcases mem_attrsOf coherent member with rfl | ⟨r, rfl⟩
    · simp [satisfies, collect, equals] at holds
    · exact ⟨r, (mem_project coherent r).mpr member, holds⟩
  · rintro ⟨r, projected, holds⟩
    exact ⟨collectedOf r, (mem_project coherent r).mp projected, holds⟩

variable [Spelling Binary64]

/-- The criterion is about the reading: of its attribute, and in its unit. -/
def HardCriterion.Concerns (criterion : HardCriterion) (r : Reading) : Prop :=
  slug r.key = criterion.canonicalField ∧
    ∀ unit, criterion.unit = some unit → r.unit.map canonicalText = some (canonicalText unit)

omit [Folding] [Spelling Binary64] in
theorem equals_text (s t : Str) : equals (text s) (text t) = some true ↔ s = t := by
  simp [equals, text]

omit [Spelling Binary64] in
theorem unit_holds (stated wanted : Option Str) :
    Truth.or (isNull (wanted.map fun unit => Scalar.text (canonicalText unit)))
        (equals (stated.map fun unit => Scalar.text (canonicalText unit))
          (wanted.map fun unit => Scalar.text (canonicalText unit))) = some true ↔
      ∀ unit, wanted = some unit → stated.map canonicalText = some (canonicalText unit) := by
  cases wanted <;> cases stated <;> simp [isNull, equals]

omit [Spelling Binary64] in
theorem satisfies_collectedOf (f : AttributeFilter) (r : Reading) :
    satisfies f.asParameter (collectedOf r) = some true ↔
      (slug r.key = slug f.key ∧
        ∀ unit, f.unit = some unit → r.unit.map canonicalText = some (canonicalText unit)) ∧
        (∀ value, f.valueString = some value → r.valueString.map canonicalText = some (canonicalText value)) ∧
        (∀ flag, f.valueBool = some flag → r.valueBool = some flag) ∧
        (∀ x, f.equalsNumber = some x → ∃ y, r.valueNumber = some y ∧ y ≤ x ∧ x ≤ y) ∧
        (∀ x, f.minNumber = some x → ∃ y, r.valueNumber = some y ∧ x ≤ y) ∧
        ∀ x, f.maxNumber = some x → ∃ y, r.valueNumber = some y ∧ y ≤ x := by
  rcases r with ⟨key, value, number, flag, unit⟩
  rcases f with ⟨key', value', flag', same, least, most, unit'⟩
  have flags : Truth.or (isNull (flag'.map .flag)) (equals (flag.map .flag) (flag'.map .flag)) = some true ↔
      ∀ b, flag' = some b → flag = some b := by
    cases flag <;> cases flag' <;> simp [isNull, equals]
  have sames : Truth.or (isNull (same.map .number)) (equals (number.map .number) (same.map .number)) = some true ↔
      ∀ x, same = some x → ∃ y, number = some y ∧ y ≤ x ∧ x ≤ y := by
    cases number <;> cases same <;> simp [isNull, equals]
  have leasts : Truth.or (isNull (least.map .number)) (Truth.and (some (number.map Scalar.number).isSome)
      (atMost (least.map .number) (number.map .number))) = some true ↔
      ∀ x, least = some x → ∃ y, number = some y ∧ x ≤ y := by
    cases number <;> cases least <;> simp [isNull, atMost]
  have mosts : Truth.or (isNull (most.map .number)) (Truth.and (some (number.map Scalar.number).isSome)
      (atMost (number.map .number) (most.map .number))) = some true ↔
      ∀ x, most = some x → ∃ y, number = some y ∧ y ≤ x := by
    cases number <;> cases most <;> simp [isNull, atMost]
  simp only [satisfies, AttributeFilter.asParameter, collectedOf, Truth.and_holds, equals_text, unit_holds,
    flags, sames, leasts, mosts]
  constructor
  · rintro ⟨⟨⟨⟨⟨⟨key, value⟩, flag⟩, same⟩, least⟩, most⟩, unit⟩
    exact ⟨⟨key, unit⟩, value, flag, same, least, most⟩
  · rintro ⟨⟨key, unit⟩, value, flag, same, least, most⟩
    exact ⟨⟨⟨⟨⟨⟨key, value⟩, flag⟩, same⟩, least⟩, most⟩, unit⟩

omit [Spelling Binary64] in
theorem satisfies_text (criterion : HardCriterion) (s : Str) (r : Reading) :
    satisfies (AttributeFilter.asParameter
        { key := criterion.field
          valueString := some s
          unit := criterion.unit }) (collectedOf r) = some true ↔
      criterion.Concerns r ∧ (r.valueString.any fun stated => canonicalText stated = canonicalText s) = true := by
  rw [satisfies_collectedOf]
  cases r.valueString <;> simp [HardCriterion.Concerns, HardCriterion.canonicalField]

theorem equalTo_text {value : Wire Binary64} (other : ∀ b, value ≠ .bool b) (other' : ∀ n, value ≠ .number n)
    {s : Str} (read : textOf value = .ok s) (r : Reading) :
    equalTo r value = .ok (r.valueString.any fun stated => canonicalText stated = canonicalText s) := by
  cases value with
  | bool b => exact absurd rfl (other b)
  | number n => exact absurd rfl (other' n)
  | _ =>
      cases stated : r.valueString with
      | none => simp [equalTo, stated]
      | some value =>
          simp only [equalTo, stated, read]
          rfl

theorem pushed_decides {criterion : HardCriterion} {f : AttributeFilter}
    (pushed : criterion.pushdown = .ok (some f)) (r : Reading) :
    ∃ b, matchesTest r criterion.test = .ok b ∧
      (satisfies f.asParameter (collectedOf r) = some true ↔ criterion.Concerns r ∧ b = true) := by
  unfold HardCriterion.pushdown at pushed
  split at pushed
  · cases pushed
  · cases test : criterion.test with
    | eq value =>
        rw [test] at pushed
        cases value with
        | bool b =>
            cases pushed
            refine ⟨r.valueBool = some b, rfl, ?_⟩
            simp [satisfies_collectedOf, HardCriterion.Concerns, HardCriterion.canonicalField]
        | number n => cases pushed
        | null | string _ | array _ | object _ =>
            obtain ⟨s, read, pushed⟩ := bind_eq_ok.mp pushed
            cases pushed
            exact ⟨_, equalTo_text (by simp) (by simp) read r, satisfies_text criterion s r⟩
    | lte bound =>
        rw [test] at pushed
        obtain ⟨x, read, pushed⟩ := bind_eq_ok.mp pushed
        cases pushed
        refine ⟨r.valueNumber.any fun y => y ≤ x, ?_, ?_⟩
        · cases number : r.valueNumber with
          | none => simp [matchesTest, number]
          | some y =>
              simp only [matchesTest, number, read]
              rfl
        · rw [satisfies_collectedOf]
          cases r.valueNumber <;> simp [HardCriterion.Concerns, HardCriterion.canonicalField]
    | gte bound =>
        rw [test] at pushed
        obtain ⟨x, read, pushed⟩ := bind_eq_ok.mp pushed
        cases pushed
        refine ⟨r.valueNumber.any fun y => x ≤ y, ?_, ?_⟩
        · cases number : r.valueNumber with
          | none => simp [matchesTest, number]
          | some y =>
              simp only [matchesTest, number, read]
              rfl
        · rw [satisfies_collectedOf]
          cases r.valueNumber <;> simp [HardCriterion.Concerns, HardCriterion.canonicalField]
    | oneOf options given =>
        rw [test] at pushed
        cases pushed
    | contains needle =>
        rw [test] at pushed
        cases pushed

def HardCriterion.concerned (criterion : HardCriterion) (readings : List Reading) : List Reading :=
  let named := readings.filter fun reading => slug reading.key = criterion.canonicalField
  match criterion.unit with
  | none => named
  | some unit => named.filter fun reading =>
      reading.unit.any fun stated => canonicalText stated = canonicalText unit

omit [Spelling Binary64] in
theorem mem_concerned {criterion : HardCriterion} {readings : List Reading} {r : Reading} :
    r ∈ criterion.concerned readings ↔ r ∈ readings ∧ criterion.Concerns r := by
  unfold HardCriterion.concerned HardCriterion.Concerns
  cases criterion.unit with
  | none => simp
  | some unit => cases stated : r.unit <;> simp [stated, and_comm]

theorem decide_cases (criterion : HardCriterion) (readings : List Reading) :
    (∃ reason, criterion.decide readings = .ok (some reason) ∧ criterion.concerned readings = []) ∨
      criterion.decide readings = (do
        if ← (criterion.concerned readings).anyM (matchesTest · criterion.test) then return none
        return some (.unsatisfied criterion.field (criterion.concerned readings))) := by
  unfold HardCriterion.decide
  dsimp only
  split
  · rename_i empty
    rw [List.isEmpty_iff] at empty
    refine Or.inl ⟨_, rfl, ?_⟩
    unfold HardCriterion.concerned
    rw [empty]
    cases criterion.unit <;> rfl
  · by_cases empty : (criterion.concerned readings).isEmpty = true
    · exact Or.inl ⟨_, if_pos empty, List.isEmpty_iff.mp empty⟩
    · exact Or.inr (if_neg empty)

theorem passes_of_decide {criterion : HardCriterion} {readings : List Reading}
    (passed : criterion.decide readings = .ok none) :
    ∃ r ∈ readings, criterion.Concerns r ∧ matchesTest r criterion.test = .ok true := by
  rcases decide_cases criterion readings with ⟨reason, failed, -⟩ | walked
  · rw [failed] at passed
    cases passed
  · rw [walked] at passed
    obtain ⟨b, answered, passed⟩ := bind_eq_ok.mp passed
    cases b with
    | true =>
        obtain ⟨r, inside, passes⟩ := anyM_eq_true answered
        obtain ⟨member, concerns⟩ := mem_concerned.mp inside
        exact ⟨r, member, concerns, passes⟩
    | false => cases passed

theorem decide_of_passes {criterion : HardCriterion} {readings : List Reading}
    (decided : ∀ r ∈ readings, ∃ b, matchesTest r criterion.test = .ok b) {r : Reading}
    (member : r ∈ readings) (concerns : criterion.Concerns r)
    (passes : matchesTest r criterion.test = .ok true) : criterion.decide readings = .ok none := by
  have inside := mem_concerned.mpr ⟨member, concerns⟩
  rcases decide_cases criterion readings with ⟨reason, -, empty⟩ | walked
  · rw [empty] at inside
    cases inside
  · obtain ⟨b, answered⟩ := anyM_decided (l := criterion.concerned readings)
      fun r' inside' => decided r' (mem_concerned.mp inside').1
    rw [walked, answered]
    cases b with
    | true => rfl
    | false =>
        have fails := anyM_eq_false.mp answered r inside
        rw [fails] at passes
        cases passes

/-! ## What can be pushed -/

/-- The operand of a criterion that is pushed can be written, or read as a double. -/
def HardCriterion.Fits (criterion : HardCriterion) : Prop :=
  criterion.isBudgetBound = true ∨ match criterion.test with
    | .eq (.bool _) | .eq (.number _) | .oneOf _ _ | .contains _ => True
    | .eq value => value.writable = true
    | .lte bound | .gte bound => bound.huge = false

omit [Folding] [Spelling Binary64] in
theorem toDouble_returns {n : Literal Binary64} : (∃ x, n.toDouble = .ok x) ↔ n.huge = false := by
  rw [Literal.toDouble_eq]
  cases n.huge <;> simp

theorem pushdown_returns {criterion : HardCriterion} :
    (∃ pushed, criterion.pushdown = .ok pushed) ↔ criterion.Fits := by
  unfold HardCriterion.pushdown HardCriterion.Fits
  split
  · rename_i budget
    exact iff_of_true ⟨_, rfl⟩ (Or.inl budget)
  · rename_i other
    rw [or_iff_right other]
    have lifted {A B : Type} {x : Except PyError A} {f : A → B} :
        (∃ b, (do return f (← x)) = (.ok b : Except PyError B)) ↔ ∃ a, x = .ok a := by
      cases x with
      | error e => exact ⟨nofun, nofun⟩
      | ok a => exact iff_of_true ⟨f a, rfl⟩ ⟨a, rfl⟩
    cases criterion.test with
    | eq value =>
        cases value with
        | bool _ | number _ => exact iff_of_true ⟨_, rfl⟩ trivial
        | null | string _ | array _ | object _ => exact lifted.trans textOf_returns
    | lte bound | gte bound => exact lifted.trans toDouble_returns
    | oneOf _ _ | contains _ => exact iff_of_true ⟨_, rfl⟩ trivial

theorem fits_of_passes {criterion : HardCriterion} {r : Reading}
    (passes : matchesTest r criterion.test = .ok true) : criterion.Fits := by
  right
  cases test : criterion.test with
  | eq value =>
      rw [test] at passes
      cases value with
      | bool _ | number _ => trivial
      | null | string _ | array _ | object _ =>
          cases stated : r.valueString with
          | none => simp [matchesTest, equalTo, stated] at passes
          | some text =>
              simp only [matchesTest, equalTo, stated] at passes
              obtain ⟨s, read, -⟩ := bind_eq_ok.mp passes
              exact textOf_returns.mp ⟨s, read⟩
  | lte bound | gte bound =>
      rw [test] at passes
      cases number : r.valueNumber with
      | none => simp [matchesTest, number] at passes
      | some y =>
          simp only [matchesTest, number] at passes
          obtain ⟨x, read, -⟩ := bind_eq_ok.mp passes
          exact toDouble_returns.mp ⟨x, read⟩
  | oneOf _ _ | contains _ => trivial

def HardCriterion.pushed (criterion : HardCriterion) : Option AttributeFilter :=
  match criterion.pushdown with
  | .ok pushed => pushed
  | .error _ => none

theorem HardCriterion.Fits.pushdown_eq {criterion : HardCriterion} (fits : criterion.Fits) :
    criterion.pushdown = .ok criterion.pushed := by
  obtain ⟨filter, pushed⟩ := pushdown_returns.mpr fits
  rw [HardCriterion.pushed, pushed]

/-- Each criterion is either decided locally only or pushed as one filter. -/
def Accounted (query : RetrievalQuery) : Prop :=
  ∃ filters locals pushed, query.attributeFilters = .ok filters ∧ query.localOnlyCriteria = .ok locals ∧
    query.Perm (locals ++ pushed) ∧
    List.Forall₂ (fun (criterion : HardCriterion) filter => criterion.pushdown = .ok (some filter)) pushed filters ∧
    ∀ criterion ∈ locals, criterion.pushdown = .ok none

theorem attributeFilters_eq {query : RetrievalQuery} (fits : ∀ criterion ∈ query, criterion.Fits) :
    query.attributeFilters = .ok (query.filterMap HardCriterion.pushed) := by
  rw [RetrievalQuery.attributeFilters, mapM_eq fun criterion member => (fits criterion member).pushdown_eq]
  change Except.ok _ = _
  delta List.reduceOption
  rw [List.filterMap_map]
  rfl

theorem accounted_iff (query : RetrievalQuery) : Accounted query ↔ ∀ criterion ∈ query, criterion.Fits := by
  constructor
  · rintro ⟨filters, -, -, made, -⟩ criterion member
    obtain ⟨out, walked, -⟩ := bind_eq_ok.mp made
    obtain ⟨pushed, -, returned⟩ := (mapM_members walked).2 criterion member
    exact pushdown_returns.mp ⟨pushed, returned⟩
  · intro fits
    have pushdown_eq (criterion : HardCriterion) (member : criterion ∈ query) :=
      (fits criterion member).pushdown_eq
    refine ⟨_, query.filter (·.pushed.isNone), query.filter (fun criterion => !criterion.pushed.isNone),
      attributeFilters_eq fits, ?_, (List.filter_append_perm _ query).symm, ?_, ?_⟩
    · apply filterM_eq
      intro criterion member
      rw [pushdown_eq criterion member]
      rfl
    · clear fits
      induction query with
      | nil => exact .nil
      | cons criterion query ih =>
          obtain ⟨head, tail⟩ := List.forall_mem_cons.mp pushdown_eq
          cases held : criterion.pushed with
          | none => simpa [held] using ih tail
          | some filter =>
              rw [held] at head
              simpa [held] using And.intro head (by simpa using ih tail)
    · intro criterion member
      obtain ⟨inside, absent⟩ := List.mem_filter.mp member
      rw [pushdown_eq criterion inside, Option.isNone_iff_eq_none.mp absent]

theorem decided_of_exclusionReasons {query : RetrievalQuery} {readings : List Reading}
    (unexcluded : query.exclusionReasons readings = .ok []) {criterion : HardCriterion}
    (member : criterion ∈ query) (other : criterion.isBudgetBound = false) :
    criterion.decide readings = .ok none := by
  obtain ⟨out, walked, empty⟩ := bind_eq_ok.mp unexcluded
  have inside : criterion ∈ query.filter fun criterion => !criterion.isBudgetBound := by
    simp [member, other]
  obtain ⟨reason, listed, decided⟩ := (mapM_members walked).2 criterion inside
  rw [decided]
  cases reason with
  | none => rfl
  | some reason =>
      have kept : reason ∈ out.reduceOption := List.reduceOption_mem_iff.mpr listed
      rw [Except.ok.inj empty] at kept
      cases kept

section Graph

variable {nodes : List Properties} {query : RetrievalQuery}

theorem accepts_of_unexcluded (coherent : ∀ node ∈ nodes, Coherent node)
    (unexcluded : query.exclusionReasons (project (attrsOf nodes)) = .ok []) :
    ∃ filters, query.attributeFilters = .ok filters ∧
      ∀ filter ∈ filters, accepts (attrsOf nodes) filter = true := by
  have decided (criterion : HardCriterion) (member : criterion ∈ query)
      (other : criterion.isBudgetBound = false) := decided_of_exclusionReasons unexcluded member other
  have fits : ∀ criterion ∈ query, criterion.Fits := by
    intro criterion member
    cases budget : criterion.isBudgetBound with
    | true => exact Or.inl budget
    | false =>
        obtain ⟨r, -, -, passes⟩ := passes_of_decide (decided criterion member budget)
        exact fits_of_passes passes
  refine ⟨_, attributeFilters_eq fits, ?_⟩
  intro filter listed
  obtain ⟨criterion, member, held⟩ := List.mem_filterMap.mp listed
  have pushed : criterion.pushdown = .ok (some filter) := by
    rw [(fits criterion member).pushdown_eq, held]
  have other : criterion.isBudgetBound = false := by
    by_contra budget
    rw [Bool.not_eq_false] at budget
    simp [HardCriterion.pushdown, budget] at pushed
  obtain ⟨r, projected, concerns, passes⟩ := passes_of_decide (decided criterion member other)
  obtain ⟨b, answered, same⟩ := pushed_decides pushed r
  rw [answered] at passes
  exact (accepts_iff coherent filter).mpr ⟨r, projected, same.mpr ⟨concerns, Except.ok.inj passes⟩⟩

theorem decide_of_accepts (coherent : ∀ node ∈ nodes, Coherent node) {criterion : HardCriterion}
    {filter : AttributeFilter} (pushed : criterion.pushdown = .ok (some filter))
    (accepted : accepts (attrsOf nodes) filter = true) :
    criterion.decide (project (attrsOf nodes)) = .ok none := by
  obtain ⟨r, projected, holds⟩ := (accepts_iff coherent filter).mp accepted
  obtain ⟨b, answered, same⟩ := pushed_decides pushed r
  obtain ⟨concerns, rfl⟩ := same.mp holds
  apply decide_of_passes _ projected concerns answered
  intro r' _
  obtain ⟨b, answered, -⟩ := pushed_decides pushed r'
  exact ⟨b, answered⟩

end Graph

variable [Collation]

/-- What the query is shown of the attribute nodes with these ids. -/
def shown (g : Catalogue) (ids : List Str) : List Collected :=
  attrsOf (ids.filterMap fun id => g (.node .attributeValue id))

/-- Where each reading is written over a node that it agrees with, asking the graph loses no candidate
that the exchange would admit, and the graph accepts none by a pushed criterion that the exchange
rejects; each criterion is accounted for once where the operands of the pushed ones can be read. -/
theorem pushdown_faithful (w : World) (unread : ∀ id, w.graph (.node .attributeValue id) = none)
    (batch : List Op) (steps : ∀ part op, part ++ [op] <+: batch → Congruent op (final step part w))
    (ids : List Str) (query : RetrievalQuery) :
    let attrs := shown (final step batch w).graph ids
    (query.exclusionReasons (project attrs) = .ok [] →
      ∃ filters, query.attributeFilters = .ok filters ∧ ∀ filter ∈ filters, accepts attrs filter = true) ∧
    (∀ criterion ∈ query, ∀ filter, criterion.pushdown = .ok (some filter) → accepts attrs filter = true →
      criterion.decide (project attrs) = .ok none) ∧
    (Accounted query ↔ ∀ criterion ∈ query, criterion.Fits) := by
  have start : CoherentGraph w.graph := by
    intro id node held
    rw [unread] at held
    cases held
  have coherent : ∀ node ∈ ids.filterMap fun id => (final step batch w).graph (.node .attributeValue id),
      Coherent node := by
    intro node member
    obtain ⟨id, -, held⟩ := List.mem_filterMap.mp member
    exact final_coherent start steps id node held
  exact ⟨accepts_of_unexcluded coherent, fun criterion _ filter pushed => decide_of_accepts coherent pushed,
    accounted_iff query⟩

def fiftyId : Str := "av_volume_db27f5bd43a04769d308d2c2611a65cb"

def fifty (unit : Option Str) : AttributeValue where
  key := "volume"
  valueString := none
  valueNumber := some 50.0
  valueBool := none
  unit := unit
  attrId := fiftyId

def cream : Op := .upsertProduct ⟨"p", "Cream", "", "active"⟩ (some earlierReading)

def atLeastTen (unit : Option Str) : HardCriterion where
  field := "volume"
  test := .gte (.integer 10)
  unit := unit
  named := by decide

omit [Folding] [Spelling Binary64] [Collation] in
theorem pushdown_faithful_fifty :
    letI := Folding.ascii
    letI := Spelling.strings Binary64
    letI := Collation.codePoints
    let w := final step [cream, .upsertAttribute "p" (fifty none) (some earlierReading)] ⟨.empty, none⟩
    let attrs := shown w.graph [fiftyId]
    let query : RetrievalQuery := [atLeastTen none]
    (query.exclusionReasons (project attrs) = .ok [] →
      ∃ filters, query.attributeFilters = .ok filters ∧ ∀ filter ∈ filters, accepts attrs filter = true) ∧
    (∀ criterion ∈ query, ∀ filter, criterion.pushdown = .ok (some filter) → accepts attrs filter = true →
      criterion.decide (project attrs) = .ok none) ∧
    (Accounted query ↔ ∀ criterion ∈ query, criterion.Fits) := by
  let _ := Folding.ascii
  let _ := Spelling.strings Binary64
  let _ := Collation.codePoints
  refine pushdown_faithful ⟨.empty, none⟩ (fun _ => rfl) _ ?_ [fiftyId] [atLeastTen none]
  intro part op inside
  match part with
  | [] =>
      simp only [List.nil_append, List.cons_prefix_cons] at inside
      rw [inside.1]
      exact trivial
  | [first] =>
      simp only [List.cons_append, List.nil_append, List.cons_prefix_cons] at inside
      rw [inside.1, inside.2.1]
      exact ⟨⟨some "volume", by decide, rfl⟩, ⟨none, by decide, rfl⟩, none, by decide, rfl⟩
  | first :: second :: rest =>
      simp only [List.cons_append, List.cons_prefix_cons, List.prefix_nil, List.append_eq_nil_iff] at inside
      simp at inside

/-- A reading whose unit is blank, and the same reading without a unit. -/
def blankThenNone : List Op :=
  [cream, .upsertAttribute "p" (fifty (some [])) (some earlierReading),
    .upsertAttribute "p" (fifty none) (some earlierReading)]

omit [Folding] [Spelling Binary64] [Collation] in
/-- Both readings have one id; written after each other they leave a node that the exchange admits and
the pushed filter rejects. -/
theorem blank_unit_lost :
    letI := Folding.ascii
    letI := Spelling.strings Binary64
    letI := Collation.codePoints
    attributeValueId "volume" none (some 50.0) none (some []) = .ok fiftyId ∧
      attributeValueId "volume" none (some 50.0) none none = .ok fiftyId ∧
      (answers step blankThenNone ⟨.empty, none⟩).all Except.isOk = true ∧
      let attrs := shown (final step blankThenNone ⟨.empty, none⟩).graph [fiftyId]
      RetrievalQuery.exclusionReasons [atLeastTen (some [])] (project attrs) = .ok [] ∧
        ∃ filter, (atLeastTen (some [])).pushdown = .ok (some filter) ∧ accepts attrs filter = false := by
  let _ := Folding.ascii
  let _ := Spelling.strings Binary64
  let _ := Collation.codePoints
  have unexcluded {x : Except PyError (List Reason)} (empty : x.toOption.map List.length = some 0) : x = .ok [] := by
    rcases x with e | _ | _
    · cases empty
    · rfl
    · cases empty
  have sent : (atLeastTen (some [])).pushed.isSome = true := by decide +kernel
  refine ⟨by decide +kernel, by decide +kernel, by decide +kernel, unexcluded (by decide +kernel),
    (atLeastTen (some [])).pushed.get sent, ?_, by decide +kernel +revert⟩
  have fits : (atLeastTen (some [])).Fits := by
    right
    change Literal.huge (.integer 10) = false
    decide +kernel
  rw [fits.pushdown_eq, Option.some_get]

end Proxyshop.Retrieval
