import Mathlib.Data.List.Dedup
import Mathlib.Data.List.ReduceOption
import Proxyshop.Contracts.Json

/-!
# The price wall

What an offer states as its price, measured against the depth its caller authorized and the list
price its caller holds. The numbers are those of any format.
-/

namespace Proxyshop.Contracts

open Python Numbers Extended

def reasonPriceUnreconcilable : Str := str "price_unreconcilable"

def reasonPriceUnderDeclaredDepth : Str := str "price_under_declared_depth"

def reasonDiscountOverAuthorizedDepth : Str := str "discount_over_authorized_depth"

def offerSite : Str := str "offer"

def offerDiscountSite : Str := str "offer.discount"

def offerUnitPriceSite : Str := str "offer.unit_price"

def offerTotalPriceSite : Str := str "offer.total_price"

def percentageDiscountTypes : List Str := [str "percentage", str "percent", str "pct"]

def listPriceClaimKey : Str := str "list_price"

def maxDiscountRosterKey : Str := str "max_discount_pct"

def unreconcilable (site why : Str) : Str :=
  reasonPriceUnreconcilable ++ str ":" ++ site ++ str ":" ++ why

def underDeclaredDepth (site : Str) : Str := reasonPriceUnderDeclaredDepth ++ str ":" ++ site

def overAuthorizedDepth : Str := reasonDiscountOverAuthorizedDepth ++ str ":" ++ offerDiscountSite

section Constants

variable {F : Type} [Format F]

def priceReconciliationTolerance : Extended F := 0.01

def minimumPayableAmount : Extended F := 0.01

def priceFloorFraction : Extended F := 0.001

def absoluteFloorMaxFraction : Extended F := 0.02

def priceFloor (listed : Extended F) : Extended F :=
  let absolute :=
    if minimumPayableAmount ≤ listed then
      least minimumPayableAmount (listed * absoluteFloorMaxFraction)
    else 0.0
  greatest (listed * priceFloorFraction) absolute

end Constants

namespace Price

variable {F : Type} [Format F] [DecidableEq F]

def spelling [Unicode] : Json (Extended F) → Str
  | .string kind => Unicode.lower kind.strip
  | _ => str "not_a_string"

/-- The depth and the refusals of `_declared_depth`. -/
def declaredDepth [Unicode] (offer : Json (Extended F)) : Option (Extended F) × List Str :=
  let discount := offer.get (str "discount")
  if discount.isNull then (some 0.0, [])
  else
    match (discount.get (str "value")).finiteNumber with
    | none => (none, [unreconcilable offerDiscountSite (str "depth_not_a_number")])
    | some depth =>
        if depth = 0.0 then (some 0.0, [])
        else
          let spelling := spelling (discount.get (str "type"))
          if spelling ∉ percentageDiscountTypes then
            (none, [unreconcilable offerDiscountSite spelling])
          else if depth < 0.0 ∨ 100.0 < depth then
            (none, [unreconcilable offerDiscountSite (str "depth_out_of_range")])
          else (some depth, [])

/-- The price a `list_price` claim states, `none` where it is unreadable. -/
def readableListPrice (claim : Json (Extended F)) : Option (Extended F) :=
  (claim.get (str "value")).finiteNumber.filter fun listed => ¬ listed < 0.0

/-- One entry for each claim of the list that is about the list price. -/
def listPriceClaims : Json (Extended F) → List (Option (Extended F))
  | .array claims => claims.filterMap fun claim =>
      match claim.get (str "key") with
      | .string key =>
          if key.strip = listPriceClaimKey then some (readableListPrice claim) else none
      | _ => none
  | _ => []

/-- The list price that claims state, once all of them are read. -/
def statedListPrice (stated : List (Option (Extended F))) : Option (Extended F) × List Str :=
  if none ∈ stated then (none, [unreconcilable offerUnitPriceSite (str "unreadable_list_price")])
  else
    match stated.reduceOption.dedup with
    | [] => (none, [])
    | [listed] => (some listed, [])
    | _ => (none, [unreconcilable offerUnitPriceSite (str "ambiguous_list_price")])

/-- The claims name two prices, and all of them are readable. -/
def Ambiguous (stated : List (Option (Extended F))) : Prop :=
  none ∉ stated ∧ ∃ a ∈ stated, ∃ b ∈ stated, a ≠ b

def Names (stated : List (Option (Extended F))) (listed : Extended F) : Prop :=
  some listed ∈ stated ∧ ∀ entry ∈ stated, entry = some listed

omit [Format F] in
theorem mem_of_reduceOption_dedup {stated : List (Option (Extended F))} (readable : none ∉ stated)
    {entry : Option (Extended F)} : entry ∈ stated ↔
      ∃ listed ∈ stated.reduceOption.dedup, entry = some listed := by
  constructor
  · intro member
    cases entry with
    | none => exact absurd member readable
    | some listed =>
        exact ⟨listed, List.mem_dedup.mpr (List.reduceOption_mem_iff.mpr member), rfl⟩
  · rintro ⟨listed, member, rfl⟩
    exact List.reduceOption_mem_iff.mp (List.mem_dedup.mp member)

omit [Format F] in
theorem statedListPrice_cases (stated : List (Option (Extended F))) :
    (none ∈ stated ∧ statedListPrice stated =
        (none, [unreconcilable offerUnitPriceSite (str "unreadable_list_price")])) ∨
      (Ambiguous stated ∧ statedListPrice stated =
        (none, [unreconcilable offerUnitPriceSite (str "ambiguous_list_price")])) ∨
      (stated = [] ∧ statedListPrice stated = (none, [])) ∨
      ∃ listed, Names stated listed ∧ statedListPrice stated = (some listed, []) := by
  unfold statedListPrice
  by_cases unreadable : none ∈ stated
  · left
    exact ⟨unreadable, if_pos unreadable⟩
  · right
    rw [if_neg unreadable]
    have members := @mem_of_reduceOption_dedup F _ stated unreadable
    have distinct := List.nodup_dedup stated.reduceOption
    rcases dedup : stated.reduceOption.dedup with _ | ⟨a, _ | ⟨b, rest⟩⟩
    · right
      left
      refine ⟨List.eq_nil_iff_forall_not_mem.mpr fun entry member => ?_, rfl⟩
      obtain ⟨listed, inside, -⟩ := members.mp member
      rw [dedup] at inside
      cases inside
    · right
      right
      refine ⟨a, ⟨members.mpr ⟨a, ?_, rfl⟩, fun entry member => ?_⟩, rfl⟩
      · rw [dedup]
        exact List.mem_cons_self
      · obtain ⟨listed, inside, rfl⟩ := members.mp member
        rw [dedup, List.mem_singleton] at inside
        rw [inside]
    · left
      rw [dedup] at members distinct
      refine ⟨⟨unreadable, some a, members.mpr ⟨a, List.mem_cons_self, rfl⟩, some b,
        members.mpr ⟨b, List.mem_cons_of_mem _ List.mem_cons_self, rfl⟩, ?_⟩, rfl⟩
      intro same
      obtain rfl := Option.some.inj same
      exact (List.nodup_cons.mp distinct).1 List.mem_cons_self

def carriedListPrice (bid offer : Json (Extended F)) : Option (Extended F) × List Str :=
  statedListPrice
    (listPriceClaims (bid.get (str "claims")) ++ listPriceClaims (offer.get (str "commitments")))

/-- A reference that is no string equals no key of the table, or cannot be looked up. -/
def rosterRow (offer listPrices : Json (Extended F)) : Option (Json (Extended F)) :=
  match listPrices, offer.get (str "product_ref") with
  | .object table, .string productRef =>
      (Dict.get? table productRef).filter fun row => ¬ row.isNull
  | _, _ => none

def readCap : Option (Extended F) → Option (Extended F) × List Str
  | none => (none, [unreconcilable offerDiscountSite (str "unreadable_authorized_depth")])
  | some cap =>
      if cap < 0.0 ∨ 100.0 < cap then
        (none, [unreconcilable offerDiscountSite (str "unreadable_authorized_depth")])
      else (some cap, [])

def authorizedDepth (offer listPrices maxDiscountPct : Json (Extended F)) :
    Option (Extended F) × List Str :=
  let stated := (rosterRow offer listPrices).elim .null fun row => row.record.get maxDiscountRosterKey
  let raw := if stated.isNull then maxDiscountPct else stated
  if raw.isNull then
    (none, [unreconcilable offerDiscountSite (str "authorized_depth_unavailable")])
  else readCap raw.finiteNumber

def rosterListPrice (offer listPrices : Json (Extended F)) : Option (Extended F) × List Str :=
  match rosterRow offer listPrices with
  | none => (none, [unreconcilable offerUnitPriceSite (str "list_price_unavailable")])
  | some row =>
      match row.finiteNumber.or (row.record.get listPriceClaimKey).finiteNumber with
      | none => (none, [unreconcilable offerUnitPriceSite (str "unreadable_roster_list_price")])
      | some listed =>
          if listed < 0.0 then
            (none, [unreconcilable offerUnitPriceSite (str "unreadable_roster_list_price")])
          else (some listed, [])

/-! ## The walk -/

def numberReasons (site : Str) : Option (Extended F) → List Str
  | none => [unreconcilable site (str "not_a_number")]
  | some price => if price < 0.0 then [unreconcilable site (str "negative")] else []

/-- The depth the prices are measured against, with the cap read for it. No declared depth needs no
authorization, but the price is still measured against what is authorized. -/
def authorization (cap : Option (Extended F) × List Str) (depth : Extended F) :
    Extended F × List Str :=
  if 0.0 < depth then
    match cap.1 with
    | none => (0.0, cap.2)
    | some limit => (least depth limit, cap.2 ++ if limit < depth then [overAuthorizedDepth] else [])
  else (cap.1.getD depth, [])

def contradictionReasons : Option (Extended F) → Option (Extended F) → List Str
  | some rostered, some carried =>
      if priceReconciliationTolerance < magnitude (rostered - carried) then
        [unreconcilable offerUnitPriceSite (str "list_price_contradicts_roster")]
      else []
  | _, _ => []

def belowFloorReasons (floor : Extended F) (site : Str) : Option (Extended F) → List Str
  | none => []
  | some priced =>
      if priced = 0.0 then [unreconcilable site (str "not_positive")]
      else if 0.0 < priced ∧ priced < floor then [unreconcilable site (str "below_price_floor")]
      else []

def floorReasons (rostered : Option (Extended F)) (unitPrice : Extended F)
    (totalPrice : Option (Extended F)) : List Str :=
  match rostered with
  | none => []
  | some rostered =>
      if 0.0 < rostered then
        belowFloorReasons (priceFloor rostered) offerUnitPriceSite (some unitPrice) ++
          belowFloorReasons (priceFloor rostered) offerTotalPriceSite totalPrice
      else []

def discounted (price depth : Extended F) : Extended F := price * (100.0 - depth) / 100.0

def unitReasons (listed : Option (Extended F)) (unitPrice authorized : Extended F) : List Str :=
  match listed with
  | none => []
  | some listed =>
      if unitPrice + priceReconciliationTolerance < discounted listed authorized then
        [underDeclaredDepth offerUnitPriceSite]
      else []

def totalReasons (unitPrice : Extended F) (totalPrice : Option (Extended F))
    (authorized : Extended F) : List Str :=
  match totalPrice with
  | none => []
  | some totalPrice =>
      if 0.0 < authorized ∧ 0.0 ≤ totalPrice ∧
          totalPrice + priceReconciliationTolerance < discounted unitPrice authorized then
        [underDeclaredDepth offerTotalPriceSite]
      else []

/-- What is left to say of an offer whose depth and unit price are readable: the depth authorized,
the list price carried and the list price held, each with its refusals. -/
def relationReasons (granted : Extended F × List Str) (carried rostered : Option (Extended F) × List Str)
    (unitPrice : Extended F) (totalPrice : Option (Extended F)) : List Str :=
  granted.2 ++ carried.2 ++ rostered.2 ++ contradictionReasons rostered.1 carried.1 ++
    floorReasons rostered.1 unitPrice totalPrice ++
    unitReasons (rostered.1.or carried.1) unitPrice granted.1 ++
    totalReasons unitPrice totalPrice granted.1

def verdict (declared : Option (Extended F) × List Str) (unitPrice totalPrice : Option (Extended F))
    (relations : Extended F → Extended F → List Str) : List Str :=
  let reasons := declared.2 ++ numberReasons offerUnitPriceSite unitPrice ++
    numberReasons offerTotalPriceSite totalPrice
  match declared.1, unitPrice with
  | some depth, some unitPrice =>
      if unitPrice < 0.0 then reasons else reasons ++ relations depth unitPrice
  | _, _ => reasons

omit [DecidableEq F] in
theorem verdict_eq_nil {declared : Option (Extended F) × List Str}
    {unitPrice totalPrice : Option (Extended F)} {relations : Extended F → Extended F → List Str}
    (h : verdict declared unitPrice totalPrice relations = []) :
    declared.2 = [] ∧ numberReasons offerUnitPriceSite unitPrice = [] ∧
      numberReasons offerTotalPriceSite totalPrice = [] ∧
      ∀ depth price, declared.1 = some depth → unitPrice = some price → ¬ price < 0.0 →
        relations depth price = [] := by
  have quiet : declared.2 ++ numberReasons offerUnitPriceSite unitPrice ++
      numberReasons offerTotalPriceSite totalPrice = [] ∧
      ∀ depth price, declared.1 = some depth → unitPrice = some price → ¬ price < 0.0 →
        relations depth price = [] := by
    obtain ⟨depth, declared⟩ := declared
    cases depth with
    | none => exact ⟨h, fun e q absent _ _ => by cases absent⟩
    | some depth =>
        cases unitPrice with
        | none => exact ⟨h, fun e q _ absent _ => by cases absent⟩
        | some price =>
            dsimp only [verdict] at h
            split at h
            · rename_i negative
              refine ⟨h, fun e q _ same positive => ?_⟩
              obtain rfl := Option.some.inj same
              exact absurd negative positive
            · rw [List.append_eq_nil_iff] at h
              refine ⟨h.1, fun e q other same _ => ?_⟩
              obtain rfl := Option.some.inj other
              obtain rfl := Option.some.inj same
              exact h.2
  obtain ⟨reasons, relations⟩ := quiet
  rw [List.append_eq_nil_iff, List.append_eq_nil_iff] at reasons
  exact ⟨reasons.1.1, reasons.1.2, reasons.2, relations⟩

/-- `_price_reasons`. -/
def offerPriceReasons [Unicode] (bid offer listPrices maxDiscountPct : Json (Extended F)) :
    List Str :=
  match offer.record? with
  | none => [unreconcilable offerSite (str "illegible")]
  | some _ =>
      let totalPrice := (offer.get (str "total_price")).finiteNumber
      verdict (declaredDepth offer) (offer.get (str "unit_price")).finiteNumber totalPrice
        fun depth unitPrice =>
          relationReasons (authorization (authorizedDepth offer listPrices maxDiscountPct) depth)
            (carriedListPrice bid offer) (rosterListPrice offer listPrices) unitPrice totalPrice

/-- An argument that is not passed is `null`. -/
def priceReasons [Unicode] (bid listPrices maxDiscountPct : Json (Extended F)) : List Str :=
  offerPriceReasons bid (bid.get (str "offer")) listPrices maxDiscountPct

end Price
end Proxyshop.Contracts
