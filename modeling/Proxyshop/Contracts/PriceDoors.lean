import Proxyshop.Contracts.PriceParity

/-!
# When the two doors agree

The exact condition under which both price walls give one list of refusals, and a bid that only one
of them refuses.
-/

namespace Proxyshop.Contracts

open Python Numbers Extended Ecmascript

namespace PriceTs

variable {bid offer roster : Members} {cap : Option (Extended Binary64)}

/-! ## The declared depth -/

/-- What a readable non-zero depth comes to under the spelling of its type. -/
def declaredBy (spelling : Str) (depth : Extended Binary64) : Option (Extended Binary64) × List Str :=
  if spelling ∉ percentageDiscountTypes then (none, [unreconcilable offerDiscountSite spelling])
  else if depth < 0.0 ∨ 100.0 < depth then
    (none, [unreconcilable offerDiscountSite (str "depth_out_of_range")])
  else (some depth, [])

theorem spelling_of_string [Unicode] {v : Option Value} {kind : Str}
    (h : v.getD .null = .string kind) : spelling v = Unicode.lower kind.trim := by
  cases v with
  | none => cases h
  | some v =>
      rw [Option.getD_some] at h
      rw [h]
      rfl

theorem declared_of_kind [Unicode] {kind : Str} (named : kind ∈ declaredKind (.object offer)) :
    ∃ depth, Price.declaredDepth (.object offer) = declaredBy (Unicode.lower kind.strip) depth ∧
      declaredDepth offer = declaredBy (Unicode.lower kind.trim) depth := by
  simp only [declaredKind] at named
  split at named
  · rename_i depth type value kindly
    simp only [Option.ite_none_left_eq_some, Option.mem_def, Option.some.injEq] at named
    obtain ⟨nonzero, rfl⟩ := named
    have present : ¬ (Json.get (.object offer) (str "discount")).isNull = true := by
      intro missing
      cases discount : Json.get (.object offer) (str "discount") with
      | null =>
          rw [discount] at value
          cases value
      | _ =>
          rw [discount] at missing
          cases missing
    refine ⟨depth, ?_, ?_⟩
    · dsimp only [Price.declaredDepth]
      rw [if_neg present, value]
      dsimp only
      rw [if_neg nonzero, kindly]
      rfl
    · simp only [declaredDepth, isMissing_eq, finiteNumber_eq, read_getD, ← Json.get_object]
      rw [if_neg present, value]
      dsimp only
      rw [if_neg nonzero, spelling_of_string (by rw [read_getD, ← Json.get_object]; exact kindly)]
      rfl
  · cases named

theorem isSolid_percentage {spelling : Str} (h : spelling ∈ percentageDiscountTypes) :
    spelling.isSolid = true ∧ spelling ≠ [] := by
  have all : ∀ s ∈ percentageDiscountTypes, s.isSolid = true ∧ s ≠ [] := by decide
  exact all spelling h

theorem declaredBy_of_mem {spelling : Str} {depth : Extended Binary64}
    (h : spelling ∈ percentageDiscountTypes) {r : Str} (member : r ∈ (declaredBy spelling depth).2) :
    r ∈ vocabulary := by
  unfold declaredBy at member
  rw [if_neg (not_not.mpr h)] at member
  split at member
  · obtain rfl := List.mem_singleton.mp member
    simp [vocabulary]
  · cases member

theorem declaredBy_of_notMem {spelling : Str} {depth : Extended Binary64}
    (h : spelling ∉ percentageDiscountTypes) :
    declaredBy spelling depth = (none, [unreconcilable offerDiscountSite spelling]) := if_pos h

theorem not_isSolid_unreconcilable {site spelling : Str} (h : spelling.isSolid = false) :
    (unreconcilable site spelling).isSolid = false := by
  rw [Str.isSolid, unreconcilable, List.all_append, ← Str.isSolid, ← Str.isSolid, h, Bool.and_false]

/-! ## The verdicts -/

theorem verdict_eq (declared : Option (Extended Binary64) × List Str)
    (unitPrice totalPrice : Option (Extended Binary64))
    (relations : Extended Binary64 → Extended Binary64 → List Str) :
    verdict declared unitPrice totalPrice relations =
      Price.verdict declared unitPrice totalPrice relations := by
  unfold verdict Price.verdict
  rw [numberReasons_eq, numberReasons_eq]
  obtain ⟨depth, reasons⟩ := declared
  cases depth <;> cases unitPrice <;> rfl

theorem mem_verdict {r : Str} {declared : Option (Extended Binary64) × List Str}
    {unitPrice totalPrice : Option (Extended Binary64)}
    {relations : Extended Binary64 → Extended Binary64 → List Str}
    (h : r ∈ Price.verdict declared unitPrice totalPrice relations) :
    r ∈ declared.2 ∨ r ∈ vocabulary ∨ ∃ depth unitPrice, r ∈ relations depth unitPrice := by
  have numbers : r ∈ declared.2 ++ Price.numberReasons offerUnitPriceSite unitPrice ++
      Price.numberReasons offerTotalPriceSite totalPrice → r ∈ declared.2 ∨ r ∈ vocabulary := by
    intro member
    rcases List.mem_append.mp member with member | total
    · rcases List.mem_append.mp member with declared | unit
      · exact .inl declared
      · exact .inr (mem_of_number (.inl rfl) unit)
    · exact .inr (mem_of_number (.inr rfl) total)
  unfold Price.verdict at h
  dsimp only at h
  split at h
  · split at h
    · exact (numbers h).imp_right .inl
    · rcases List.mem_append.mp h with reasons | relation
      · exact (numbers reasons).imp_right .inl
      · exact .inr (.inr ⟨_, _, relation⟩)
  · exact (numbers h).imp_right .inl

/-- The relations of the Python door, after its early return. -/
def relationsPy (bid offer roster : Members) (cap : Option (Extended Binary64))
    (depth unitPrice : Extended Binary64) : List Str :=
  Price.relationReasons
    (Price.authorization (Price.authorizedDepth (.object offer) (.object roster) (capValue cap)) depth)
    (Price.statedListPrice (statedPy bid offer))
    (Price.rosterListPrice (.object offer) (.object roster)) unitPrice
    (Json.get (.object offer) (str "total_price")).finiteNumber

def relationsTs (bid offer roster : Members) (cap : Option (Extended Binary64))
    (depth unitPrice : Extended Binary64) : List Str :=
  Price.relationReasons (Price.authorization (authorizedDepth offer (.object roster) cap) depth)
    (Price.statedListPrice (statedTs bid offer)) (rosterListPrice offer (.object roster)) unitPrice
    (Json.get (.object offer) (str "total_price")).finiteNumber

theorem priceReasonsPy_eq [Unicode] (found : Dict.get? bid (str "offer") = some (.object offer)) :
    Price.priceReasons (.object bid) (.object roster) (capValue cap) =
      Price.verdict (Price.declaredDepth (.object offer))
        (Json.get (.object offer) (str "unit_price")).finiteNumber
        (Json.get (.object offer) (str "total_price")).finiteNumber
        (relationsPy bid offer roster cap) := by
  unfold Price.priceReasons
  rw [Json.get_object, found]
  rfl

theorem priceReasons_eq [Unicode] (found : Dict.get? bid (str "offer") = some (.object offer)) :
    priceReasons (.object bid) (.object roster) cap =
      Price.verdict (declaredDepth offer)
        (Json.get (.object offer) (str "unit_price")).finiteNumber
        (Json.get (.object offer) (str "total_price")).finiteNumber
        (relationsTs bid offer roster cap) := by
  rw [← verdict_eq]
  show priceReasonsFor bid (Dict.get? bid (str "offer")) (.object roster) cap = _
  rw [found]
  have relations : (fun depth unitPrice => relationReasonsFor bid offer (.object roster) cap depth
      unitPrice (finiteNumber (Dict.get? offer (str "total_price")))) =
      relationsTs bid offer roster cap := by
    funext depth unitPrice
    rw [relationReasonsFor_eq, carriedListPrice_eq, finiteNumber_eq]
    rfl
  rw [← relations, Json.get_object, Json.get_object, ← finiteNumber_eq, ← finiteNumber_eq]
  rfl

theorem mem_relationsPy {depth unitPrice : Extended Binary64} {r : Str}
    (h : r ∈ relationsPy bid offer roster cap depth unitPrice) :
    r ∈ listPriceUnavailable :: vocabulary := by
  rcases mem_of_relation h with granted | carried | rostered | known
  · rcases mem_of_authorization granted with read | known
    · exact List.mem_cons_of_mem _ (mem_of_authorizedDepth read)
    · exact List.mem_cons_of_mem _ known
  · exact List.mem_cons_of_mem _ (mem_of_statedListPrice carried)
  · exact mem_of_rosterListPrice rostered
  · exact List.mem_cons_of_mem _ known

theorem mem_relationsTs {depth unitPrice : Extended Binary64} {r : Str}
    (h : r ∈ relationsTs bid offer roster cap depth unitPrice) :
    (rosterRow offer (.object roster) = none ∧ r = listPriceUnavailable) ∨ r ∈ vocabulary := by
  rcases mem_of_relation h with granted | carried | rostered | known
  · rcases mem_of_authorization granted with read | known
    · exact .inr (mem_of_authorizedDepthTs read)
    · exact .inr known
  · exact .inr (mem_of_statedListPrice carried)
  · exact mem_of_rosterListPriceTs rostered
  · exact .inr known

theorem mem_relationsTs_cons {depth unitPrice : Extended Binary64} {r : Str}
    (h : r ∈ relationsTs bid offer roster cap depth unitPrice) :
    r ∈ listPriceUnavailable :: vocabulary := by
  rcases mem_relationsTs h with ⟨-, rfl⟩ | known
  · exact List.mem_cons_self
  · exact List.mem_cons_of_mem _ known

/-! ## Agreement -/

/-- No number that refers to the product spells the name of a roster row. -/
def Unnumbered (offer roster : Members) : Prop :=
  ∀ n row, Dict.get? offer (str "product_ref") = some (.number n) →
    Dict.get? roster (numberToString n) = some row → row.isNull = true

/-- What an offer must be for both doors to refuse it alike: the type of its discount is spelled
alike by both; and, where its depth and unit price are readable, its product is not referred to by
a number that names a row, and the claims each door takes to be about the list price weigh alike. -/
structure Alike [Unicode] (bid offer roster : Members) (cap : Option (Extended Binary64)) : Prop where
  kind : ∀ kind ∈ declaredKind (.object offer),
    Unicode.lower kind.strip = Unicode.lower kind.trim
  priced : ∀ depth unitPrice, (Price.declaredDepth (.object offer)).1 = some depth →
    (Json.get (.object offer) (str "unit_price")).finiteNumber = some unitPrice →
    ¬ unitPrice < 0.0 → Unnumbered offer roster ∧
      SameWeight (Price.rosterListPrice (.object offer) (.object roster)).1 unitPrice
        (Price.authorization
          (Price.authorizedDepth (.object offer) (.object roster) (capValue cap)) depth).1
        (statedPy bid offer) (statedTs bid offer)

theorem kind_of_eq [Casing] {unitPrice totalPrice : Option (Extended Binary64)}
    (equal : Price.verdict (Price.declaredDepth (.object offer)) unitPrice totalPrice
        (relationsPy bid offer roster cap) =
      Price.verdict (declaredDepth offer) unitPrice totalPrice (relationsTs bid offer roster cap))
    (kind : Str) (named : kind ∈ declaredKind (.object offer)) :
    Unicode.lower kind.strip = Unicode.lower kind.trim := by
  obtain ⟨depth, py, ts⟩ := declared_of_kind named
  rw [py, ts] at equal
  by_contra differ
  -- a refusal that spells a text with a blank at an end is none of the other door's
  have refuted {spelling other : Str} {relations : Extended Binary64 → Extended Binary64 → List Str}
      (unknown : spelling ∉ percentageDiscountTypes) (known : other ∈ percentageDiscountTypes)
      (blank : spelling.isSolid = false)
      (solid : ∀ {d u r}, r ∈ relations d u → r ∈ listPriceUnavailable :: vocabulary)
      (member : unreconcilable offerDiscountSite spelling ∈
        Price.verdict (declaredBy other depth) unitPrice totalPrice relations) : False := by
    have inside : unreconcilable offerDiscountSite spelling ∈ listPriceUnavailable :: vocabulary := by
      rcases mem_verdict member with declared | number | ⟨d, u, relation⟩
      · exact List.mem_cons_of_mem _ (declaredBy_of_mem known declared)
      · exact List.mem_cons_of_mem _ number
      · exact solid relation
    have clean := solid_vocabulary _ inside
    rw [not_isSolid_unreconcilable blank] at clean
    cases clean
  have first {spelling : Str} {relations : Extended Binary64 → Extended Binary64 → List Str}
      (unknown : spelling ∉ percentageDiscountTypes) :
      unreconcilable offerDiscountSite spelling ∈
        Price.verdict (declaredBy spelling depth) unitPrice totalPrice relations := by
    rw [declaredBy_of_notMem unknown]
    exact List.mem_cons_self
  have space (c : CodePoint) (h : c.isSpace = true) : c.isBlank = true := by
    rw [CodePoint.isBlank, h, Bool.true_or]
  have white (c : CodePoint) (h : c.isWhiteSpace = true) : c.isBlank = true := by
    rw [CodePoint.isBlank, h, Bool.or_true]
  by_cases knownPy : Unicode.lower kind.strip ∈ percentageDiscountTypes
  · obtain ⟨solid, nonempty⟩ := isSolid_percentage knownPy
    have blank := Str.not_solid_of_ne space white nonempty solid (Ne.symm differ)
    have unknownTs : Unicode.lower kind.trim ∉ percentageDiscountTypes := by
      intro known
      exact Bool.false_ne_true (blank.symm.trans (isSolid_percentage known).1)
    exact refuted unknownTs knownPy blank mem_relationsPy (equal ▸ first unknownTs)
  · by_cases knownTs : Unicode.lower kind.trim ∈ percentageDiscountTypes
    · obtain ⟨solid, nonempty⟩ := isSolid_percentage knownTs
      have blank := Str.not_solid_of_ne white space nonempty solid differ
      exact refuted knownPy knownTs blank mem_relationsTs_cons (equal ▸ first knownPy)
    · rw [declaredBy_of_notMem knownPy, declaredBy_of_notMem knownTs] at equal
      have head := (List.cons.inj equal).1
      exact differ (List.append_cancel_left head)

theorem unnumbered_of_eq {depth unitPrice : Extended Binary64}
    (equal : relationsPy bid offer roster cap depth unitPrice =
      relationsTs bid offer roster cap depth unitPrice) : Unnumbered offer roster := by
  intro n row named found
  by_contra present
  have other : Price.rosterRow (.object offer) (.object roster) = none := by
    unfold Price.rosterRow
    rw [Json.get_object, named]
    rfl
  have mine : rosterRow offer (.object roster) = some row := by
    unfold rosterRow
    rw [named]
    show (Dict.get? roster (numberToString n)).filter _ = some row
    rw [found, Option.filter_some, if_pos (by simpa using present)]
  have refused : listPriceUnavailable ∈ relationsPy bid offer roster cap depth unitPrice := by
    have reason : (Price.rosterListPrice (.object offer) (.object roster)).2 =
        [listPriceUnavailable] := by
      rw [Price.rosterListPrice, other]
      rfl
    simp [relationsPy, Price.relationReasons, reason]
  rw [equal] at refused
  rcases mem_relationsTs refused with ⟨missing, -⟩ | known
  · rw [mine] at missing
    cases missing
  · exact listPriceUnavailable_notMem known

theorem relations_eq_iff {depth unitPrice : Extended Binary64} :
    relationsPy bid offer roster cap depth unitPrice =
        relationsTs bid offer roster cap depth unitPrice ↔
      Unnumbered offer roster ∧
        SameWeight (Price.rosterListPrice (.object offer) (.object roster)).1 unitPrice
          (Price.authorization
            (Price.authorizedDepth (.object offer) (.object roster) (capValue cap)) depth).1
          (statedPy bid offer) (statedTs bid offer) := by
  have aligned (rows : Unnumbered offer roster) :
      relationsTs bid offer roster cap depth unitPrice =
        Price.relationReasons (Price.authorization
            (Price.authorizedDepth (.object offer) (.object roster) (capValue cap)) depth)
          (Price.statedListPrice (statedTs bid offer))
          (Price.rosterListPrice (.object offer) (.object roster)) unitPrice
          (Json.get (.object offer) (str "total_price")).finiteNumber := by
    have same := rosterRow_eq rows
    rw [relationsTs, authorizedDepth_eq same, rosterListPrice_eq same]
  constructor
  · intro equal
    have rows := unnumbered_of_eq equal
    rw [aligned rows] at equal
    exact ⟨rows, relationReasons_stated_iff.mp equal⟩
  · rintro ⟨rows, weight⟩
    rw [aligned rows]
    exact relationReasons_stated_iff.mpr weight

theorem alike_iff [Casing] (found : Dict.get? bid (str "offer") = some (.object offer)) :
    Price.priceReasons (.object bid) (.object roster) (capValue cap) =
        priceReasons (.object bid) (.object roster) cap ↔ Alike bid offer roster cap := by
  rw [priceReasonsPy_eq found, priceReasons_eq found]
  constructor
  · intro equal
    have kinds := kind_of_eq equal
    refine ⟨kinds, fun depth unitPrice declared priced positive => ?_⟩
    rw [declaredDepth_eq kinds] at equal
    simp only [Price.verdict, declared, priced, if_neg positive] at equal
    exact relations_eq_iff.mp (List.append_cancel_left equal)
  · rintro ⟨kinds, alike⟩
    rw [declaredDepth_eq kinds]
    unfold Price.verdict
    cases declared : (Price.declaredDepth (.object offer)).1 with
    | none => rfl
    | some depth =>
        cases priced : (Json.get (.object offer) (str "unit_price")).finiteNumber with
        | none => rfl
        | some unitPrice =>
            dsimp only
            split
            · rfl
            · rename_i positive
              rw [relations_eq_iff.mpr (alike depth unitPrice declared priced positive)]

/-- The two doors give one list of refusals for a bid exactly when its offer, if it is an object,
is read alike by both. -/
theorem priceReasons_agree_iff [Casing] (bid : Value) (roster : Members)
    (cap : Option (Extended Binary64)) :
    Price.priceReasons bid (.object roster) (capValue cap) =
        priceReasons bid (.object roster) cap ↔
      ∀ members offer, bid = .object members → Dict.get? members (str "offer") = some (.object offer) →
        Alike members offer roster cap := by
  constructor
  · rintro equal members offer rfl found
    exact (alike_iff found).mp equal
  · intro alike
    cases bid with
    | object members =>
        cases found : Dict.get? members (str "offer") with
        | none =>
            unfold Price.priceReasons
            rw [Json.get_object, found]
            show _ = priceReasonsFor members (Dict.get? members (str "offer")) _ _
            rw [found]
            rfl
        | some value =>
            cases value with
            | object offer => exact (alike_iff found).mpr (alike members offer rfl found)
            | _ =>
                unfold Price.priceReasons
                rw [Json.get_object, found]
                show _ = priceReasonsFor members (Dict.get? members (str "offer")) _ _
                rw [found]
                rfl
    | _ => rfl

/-! ## A bid only one door refuses -/

/-- A depth of twenty under a type with a byte order mark behind it. -/
def markedBid : Value :=
  .object [(str "offer", .object [
    (str "product_ref", .string (str "prod-1")),
    (str "unit_price", .number 80.0),
    (str "total_price", .number 80.0),
    (str "discount", .object [(str "type", .string (str "percent\uFEFF")),
      (str "value", .number 20.0)])])]

def cappedRoster : Members :=
  [(str "prod-1", .object [(str "list_price", .number 100.0),
    (str "max_discount_pct", .number 20.0)])]

theorem markedBid_divides_doors : letI := Casing.ascii
    Price.priceReasons markedBid (.object cappedRoster) .null =
        [str "price_unreconcilable:offer.discount:percent\uFEFF"] ∧
      priceReasons markedBid (.object cappedRoster) none = [] := by
  decide +kernel

end PriceTs
end Proxyshop.Contracts
