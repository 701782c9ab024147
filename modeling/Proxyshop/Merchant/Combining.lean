import Proxyshop.Contracts.Json
import Proxyshop.Structures.Worklist

/-!
# What a shop's discounts combine with

The combination policy and the automatic discounts that one Admin answer states, each the first of its
kind that a bounded walk meets, and the verdict on a code of a class.
-/

namespace Proxyshop.Merchant

open Python Contracts Structures

/-- Which flag governs a code: that of a variant's discount or that of the whole order's. -/
inductive DiscountClass
  | product
  | order
  deriving DecidableEq

inductive CombinesWithVerdict
  | clear
  | conflict
  | unknown
  deriving DecidableEq

/-- The flags of `DiscountCombinesWith`, where they are stated. -/
structure CombinesWithPolicy where
  orderDiscounts : Option Bool
  productDiscounts : Option Bool
  shippingDiscounts : Option Bool

def CombinesWithPolicy.forClass (policy : CombinesWithPolicy) : DiscountClass → Option Bool
  | .product => policy.productDiscounts
  | .order => policy.orderDiscounts

structure ShopDiscountConfiguration where
  combinesWith : Option CombinesWithPolicy
  automaticDiscounts : List Str
  automaticDiscountsKnown : Bool
  hasActiveAutomaticDiscount : Option Bool
  source : Str

def automaticDiscountListKeys : List Str :=
  [str "automaticDiscounts", str "automatic_discounts", str "automaticDiscountNodes", str "discountNodes"]

def hasAutomaticKeys : List Str := [str "hasActiveAutomaticDiscount", str "has_active_automatic_discount"]

def combinesWithKeys : List Str := [str "combinesWith", str "combines_with"]

def walkDepth : Nat := 10

def walkNodes : Nat := 2048

section Answers

variable {N : Type}

/-! ## The walk -/

def strictBool : Json N → Option Bool
  | .bool b => some b
  | _ => none

def strictList : Json N → Option (List (Json N))
  | .array items => some items
  | _ => none

def pairsOf : Json N → List (Str × Json N)
  | .object members => members
  | _ => []

def valuesOf : Json N → List (Json N)
  | .object members => members.map Prod.snd
  | .array items => items
  | _ => []

/-- `_walk`. -/
def walkPairs (response : Json N) : List (Str × Json N) :=
  breadthFirst valuesOf pairsOf walkDepth walkNodes [(response, 0)]

/-- `CombinesWithPolicy.from_wire`. -/
def policyOf : Json N → Option CombinesWithPolicy
  | .object members => some {
      orderDiscounts := strictBool (Json.get (.object members) (str "orderDiscounts"))
      productDiscounts := strictBool (Json.get (.object members) (str "productDiscounts"))
      shippingDiscounts := strictBool (Json.get (.object members) (str "shippingDiscounts")) }
  | _ => none

mutual

/-- `_node_identifier`. -/
def nodeIdentifier : Json N → Str
  | .object members =>
      let own := [str "id", str "title", str "handle", str "__typename"].findSome? fun key =>
        match Json.get (.object members) key with
        | .string s => s.strip.nonEmpty?
        | _ => none
      own.getD (innerIdentifier members)
  | _ => str "automatic-discount"

def innerIdentifier : List (Str × Json N) → Str
  | [] => str "automatic-discount"
  | (key, v) :: members => if key = str "automaticDiscount" then nodeIdentifier v else innerIdentifier members

end

/-- The first value under one of the keys that reads as what is looked for. -/
def firstUnder {α : Type} (keys : List Str) (read : Json N → Option α) (pairs : List (Str × Json N)) : Option α :=
  (pairs.filter fun pair => pair.1 ∈ keys).findSome? fun pair => read pair.2

def parseShopDiscountConfiguration (response : Json N) : ShopDiscountConfiguration :=
  let pairs := walkPairs response
  let nodes := firstUnder automaticDiscountListKeys strictList pairs
  { combinesWith := firstUnder combinesWithKeys policyOf pairs
    automaticDiscounts := (nodes.getD []).map nodeIdentifier
    automaticDiscountsKnown := nodes.isSome
    hasActiveAutomaticDiscount := firstUnder hasAutomaticKeys strictBool pairs
    source := str "admin-api" }

end Answers

/-! ## The verdict -/

/-- `has_automatic_discount`. -/
def ShopDiscountConfiguration.hasAutomaticDiscount (config : ShopDiscountConfiguration) : Option Bool :=
  if !config.automaticDiscounts.isEmpty then some true
  else if config.hasActiveAutomaticDiscount.isSome then config.hasActiveAutomaticDiscount
  else if config.automaticDiscountsKnown then some false
  else none

def combinesWithVerdict (config : ShopDiscountConfiguration) (discountClass : DiscountClass) :
    CombinesWithVerdict :=
  match config.combinesWith.bind fun policy => policy.forClass discountClass with
  | none => .unknown
  | some true => .clear
  | some false =>
      match config.hasAutomaticDiscount with
      | some true => .conflict
      | some false => .clear
      | none => .unknown

theorem combinesWithVerdict_eq_conflict (config : ShopDiscountConfiguration) (discountClass : DiscountClass) :
    combinesWithVerdict config discountClass = .conflict ↔
      (config.combinesWith.bind fun policy => policy.forClass discountClass) = some false ∧
        config.hasAutomaticDiscount = some true := by
  unfold combinesWithVerdict
  split
  · simp [*]
  · simp [*]
  · split <;> simp [*]

theorem combinesWithVerdict_eq_clear (config : ShopDiscountConfiguration) (discountClass : DiscountClass) :
    combinesWithVerdict config discountClass = .clear ↔
      (config.combinesWith.bind fun policy => policy.forClass discountClass) = some true ∨
        (config.combinesWith.bind fun policy => policy.forClass discountClass) = some false ∧
          config.hasAutomaticDiscount = some false := by
  unfold combinesWithVerdict
  split
  · simp [*]
  · simp [*]
  · split <;> simp [*]

/-! ## What an answer states -/

section Stated

variable {N : Type}

/-- The walk meets every pair that is not too deep, if there are not too many values. -/
def WithinBounds (response : Json N) : Prop := levelNodes valuesOf walkDepth [response] ≤ walkNodes

def statedPairs (response : Json N) : List (Str × Json N) := levelOrder valuesOf pairsOf walkDepth [response]

theorem walkPairs_eq {response : Json N} (within : WithinBounds response) :
    walkPairs response = statedPairs response := by
  have walked := breadthFirst_levels valuesOf pairsOf walkDepth 0 [response] walkNodes within
  rwa [Nat.zero_add] at walked

/-- A value anywhere inside another one, or that value itself. -/
def Inside : Json N → Json N → Prop := Relation.ReflTransGen fun v w => w ∈ valuesOf v

/-- The discounts in a list under one of the keys, or in the nodes of a connection under it. -/
def discountsOf (v : Json N) : List (Json N) :=
  ((strictList v).or (strictList (v.get (str "nodes")))).getD []

def Listed (response discount : Json N) : Prop :=
  ∃ holder, Inside response holder ∧
    ∃ pair ∈ pairsOf holder, pair.1 ∈ automaticDiscountListKeys ∧ discount ∈ discountsOf pair.2

/-- A policy anywhere inside the discount has the flag of the class. -/
def States (discount : Json N) (discountClass : DiscountClass) (flag : Bool) : Prop :=
  ∃ holder, Inside discount holder ∧
    ∃ pair ∈ pairsOf holder, pair.1 ∈ combinesWithKeys ∧
      ∃ policy, policyOf pair.2 = some policy ∧ policy.forClass discountClass = some flag

def Combines (discount : Json N) (discountClass : DiscountClass) : Prop :=
  States discount discountClass true ∧ ¬ States discount discountClass false

def Silent (discount : Json N) (discountClass : DiscountClass) : Prop :=
  ∀ flag, ¬ States discount discountClass flag

/-- The verdict on an answer is about every discount that is listed. -/
structure VerdictSound (response : Json N) (discountClass : DiscountClass) (verdict : CombinesWithVerdict) :
    Prop where
  clear : verdict = .clear → ∀ discount, Listed response discount → Combines discount discountClass
  refused : (∃ discount, Listed response discount ∧ States discount discountClass false) → verdict = .conflict
  silent : (∃ discount, Listed response discount ∧ Silent discount discountClass) →
    verdict = .unknown ∨ verdict = .conflict

/-- The flag of the policy that is stated first, level by level. -/
def governingFlag (response : Json N) (discountClass : DiscountClass) : Option Bool :=
  (firstUnder combinesWithKeys policyOf (statedPairs response)).bind fun policy => policy.forClass discountClass

/-- Whether a discount is running: by the first list, if it has a member, then by the first flag. -/
def runningFlag (response : Json N) : Option Bool :=
  match firstUnder automaticDiscountListKeys strictList (statedPairs response) with
  | some (_ :: _) => some true
  | some [] => some ((firstUnder hasAutomaticKeys strictBool (statedPairs response)).getD false)
  | none => firstUnder hasAutomaticKeys strictBool (statedPairs response)

theorem hasAutomaticDiscount_eq {response : Json N} (within : WithinBounds response) :
    (parseShopDiscountConfiguration response).hasAutomaticDiscount = runningFlag response := by
  unfold ShopDiscountConfiguration.hasAutomaticDiscount parseShopDiscountConfiguration runningFlag
  rw [walkPairs_eq within]
  cases found : firstUnder automaticDiscountListKeys strictList (statedPairs response) with
  | none => cases flag : firstUnder hasAutomaticKeys strictBool (statedPairs response) <;> simp [found, flag]
  | some nodes =>
      cases nodes with
      | nil => cases flag : firstUnder hasAutomaticKeys strictBool (statedPairs response) <;> simp [found, flag]
      | cons node nodes => simp [found]

/-- The verdict is about every listed discount just when the flag stated first stands for them: where one
of them refuses, it refuses and a discount is known to run; where one says nothing, it does not clear. -/
theorem verdictSound_iff {response : Json N} (within : WithinBounds response) (discountClass : DiscountClass) :
    VerdictSound response discountClass
        (combinesWithVerdict (parseShopDiscountConfiguration response) discountClass) ↔
      ((∃ discount, Listed response discount ∧ States discount discountClass false) →
          governingFlag response discountClass = some false ∧ runningFlag response = some true) ∧
        ((∃ discount, Listed response discount ∧ Silent discount discountClass) →
          governingFlag response discountClass ≠ some true ∧
            ¬ (governingFlag response discountClass = some false ∧ runningFlag response = some false)) := by
  set config := parseShopDiscountConfiguration response with parsed
  have governing : (config.combinesWith.bind fun policy => policy.forClass discountClass) =
      governingFlag response discountClass := by
    rw [parsed, parseShopDiscountConfiguration, governingFlag, walkPairs_eq within]
  have conflict := combinesWithVerdict_eq_conflict config discountClass
  have clear := combinesWithVerdict_eq_clear config discountClass
  rw [governing, hasAutomaticDiscount_eq within] at conflict clear
  have unclear : combinesWithVerdict config discountClass = .unknown ∨
      combinesWithVerdict config discountClass = .conflict ↔
        combinesWithVerdict config discountClass ≠ .clear := by
    cases combinesWithVerdict config discountClass <;> simp
  constructor
  · intro sound
    refine ⟨fun refused => conflict.mp (sound.refused refused), fun silent => ?_⟩
    have other := unclear.mp (sound.silent silent)
    rw [Ne, clear, not_or] at other
    exact other
  · rintro ⟨refused, silent⟩
    have hushed : (∃ discount, Listed response discount ∧ Silent discount discountClass) →
        combinesWithVerdict config discountClass ≠ .clear := by
      rw [Ne, clear, not_or]
      exact silent
    refine ⟨fun cleared discount listed => ?_, fun some => conflict.mpr (refused some), fun some => ?_⟩
    · have agrees : ¬ States discount discountClass false := by
        intro refuses
        have verdict := conflict.mpr (refused ⟨discount, listed, refuses⟩)
        rw [cleared] at verdict
        cases verdict
      refine ⟨?_, agrees⟩
      by_contra unsaid
      apply hushed ⟨discount, listed, fun flag => ?_⟩ cleared
      cases flag
      · exact agrees
      · exact unsaid
    · exact unclear.mpr (hushed some)

/-- An active discount that combines with a product's code or does not. -/
def activeDiscount (id : String) (flag : Bool) : Json ℚ :=
  .object [(str "id", .string (str id)),
    (str "combinesWith", .object [(str "productDiscounts", .bool flag)])]

def automaticDiscounts (listed : Json ℚ) : Json ℚ := .object [(str "automaticDiscountNodes", listed)]

def oneRefusing : Json ℚ := automaticDiscounts (.array [activeDiscount "1" false])

/-- Two discounts in the shape that the query asks for, of which the second does not combine. -/
def secondRefusing : Json ℚ :=
  automaticDiscounts (.object [(str "nodes", .array [activeDiscount "1" true, activeDiscount "2" false])])

theorem refusing_shop_conflicts :
    VerdictSound oneRefusing .product
      (combinesWithVerdict (parseShopDiscountConfiguration oneRefusing) .product) := by
  have within : WithinBounds oneRefusing := by
    unfold WithinBounds
    decide
  refine (verdictSound_iff within .product).mpr ⟨fun _ => ?_, fun _ => ?_⟩
  · exact ⟨by decide, by decide⟩
  · exact ⟨by decide, by decide⟩

/-- The discount that is met first answers for the one that refuses. -/
theorem second_discount_unheard :
    WithinBounds secondRefusing ∧ ¬ VerdictSound secondRefusing .product
      (combinesWithVerdict (parseShopDiscountConfiguration secondRefusing) .product) := by
  constructor
  · unfold WithinBounds
    decide
  intro sound
  have listed : Listed secondRefusing (activeDiscount "2" false) :=
    ⟨_, .refl, (str "automaticDiscountNodes", _), List.mem_cons_self, by decide,
      List.mem_cons_of_mem _ List.mem_cons_self⟩
  have combines := sound.clear (by decide) (activeDiscount "2" false) listed
  refine combines.2 ⟨_, .refl, (str "combinesWith", _), List.mem_cons_of_mem _ List.mem_cons_self,
    by decide, _, rfl, ?_⟩
  decide

end Stated

end Proxyshop.Merchant
