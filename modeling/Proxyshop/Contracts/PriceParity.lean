import Proxyshop.Contracts.PriceTs

/-!
# The two doors

The refusals of the two price walls compared, for every document and roster.
-/

namespace Proxyshop.Contracts

open Python Numbers Extended Ecmascript

namespace PriceTs

def capValue (maxDiscountPct : Option (Extended Binary64)) : Value := maxDiscountPct.elim .null .number

/-! ## Reading a field -/

theorem finiteNumber_eq (v : Option Value) : finiteNumber v = (v.getD .null).finiteNumber := by
  cases v with
  | none => rfl
  | some v => cases v <;> rfl

theorem isMissing_eq (v : Option Value) : isMissing v = (v.getD .null).isNull := by
  cases v <;> rfl

theorem read_getD (v : Option Value) (name : Str) :
    (read (readRecord v) name).getD .null = (v.getD .null).get name := by
  cases v with
  | none => rfl
  | some v => cases v <;> rfl

theorem spelling_eq [Unicode] {v : Option Value}
    (same : ∀ kind, v.getD .null = .string kind →
      Unicode.lower kind.strip = Unicode.lower kind.trim) :
    spelling v = Price.spelling (v.getD .null) := by
  cases v with
  | none => rfl
  | some v =>
      cases v with
      | string kind => exact (same kind rfl).symm
      | _ => rfl

/-! ## The readers -/

section Readers

variable {bid offer table : Members} {cap : Option (Extended Binary64)}

/-- The type of the discount, where the walk gets to read it. -/
def declaredKind (offer : Value) : Option Str :=
  let discount := offer.get (str "discount")
  match (discount.get (str "value")).finiteNumber, discount.get (str "type") with
  | some depth, .string kind => if depth = 0.0 then none else some kind
  | _, _ => none

theorem declaredDepth_eq [Unicode] (kinds : ∀ kind ∈ declaredKind (.object offer),
    Unicode.lower kind.strip = Unicode.lower kind.trim) :
    declaredDepth offer = Price.declaredDepth (.object offer) := by
  simp only [declaredDepth, Price.declaredDepth, isMissing_eq, finiteNumber_eq, read_getD,
    ← Json.get_object]
  split
  · rfl
  · cases value : ((Json.get (.object offer) (str "discount")).get (str "value")).finiteNumber with
    | none => rfl
    | some depth =>
        dsimp only
        split
        · rfl
        · rename_i nonzero
          rw [spelling_eq, read_getD, ← Json.get_object]
          intro kind named
          rw [read_getD, ← Json.get_object] at named
          apply kinds kind
          simp only [declaredKind, value, named, if_neg nonzero, Option.mem_def]

theorem statedListPrice_eq (stated : List (Option (Extended Binary64))) :
    statedListPrice stated = Price.statedListPrice stated := by
  unfold statedListPrice Price.statedListPrice
  split
  · rfl
  · rcases stated.reduceOption.dedup with _ | ⟨listed, _ | _⟩ <;> rfl

/-- What the Python door reads in the claims of the bid and of the offer. -/
def statedPy (bid offer : Members) : List (Option (Extended Binary64)) :=
  Price.listPriceClaims ((Json.object bid).get (str "claims")) ++
    Price.listPriceClaims ((Json.object offer).get (str "commitments"))

def statedTs (bid offer : Members) : List (Option (Extended Binary64)) :=
  listPriceClaims (Dict.get? bid (str "claims")) ++
    listPriceClaims (Dict.get? offer (str "commitments"))

theorem carriedListPrice_eq (bid offer : Members) :
    carriedListPrice bid offer = Price.statedListPrice (statedTs bid offer) :=
  statedListPrice_eq _

theorem rosterRow_eq (named : ∀ n row, Dict.get? offer (str "product_ref") = some (.number n) →
      Dict.get? table (numberToString n) = some row → row.isNull = true) :
    rosterRow offer (.object table) = Price.rosterRow (.object offer) (.object table) := by
  unfold rosterRow Price.rosterRow
  rw [Json.get_object]
  cases ref : Dict.get? offer (str "product_ref") with
  | none => rfl
  | some value =>
      cases value with
      | number n =>
          show (Dict.get? table (numberToString n)).filter _ = none
          rw [Option.filter_eq_none_iff]
          intro row found
          simp [named n row ref found]
      | _ => rfl

theorem rosterListPrice_eq
    (rows : rosterRow offer (.object table) = Price.rosterRow (.object offer) (.object table)) :
    rosterListPrice offer (.object table) = Price.rosterListPrice (.object offer) (.object table) := by
  rw [rosterListPrice, Price.rosterListPrice, rows]
  cases Price.rosterRow (.object offer) (.object table) with
  | none => rfl
  | some row =>
      simp only [finiteNumber_eq, read_getD, Option.getD_some, Json.record_get]
      cases (Json.finiteNumber row).or (Json.get row listPriceClaimKey).finiteNumber <;> rfl

theorem readCap_eq (cap : Option (Extended Binary64)) : readCap cap = Price.readCap cap := by
  cases cap <;> rfl

theorem authorizedDepth_eq
    (rows : rosterRow offer (.object table) = Price.rosterRow (.object offer) (.object table)) :
    authorizedDepth offer (.object table) cap =
      Price.authorizedDepth (.object offer) (.object table) (capValue cap) := by
  have stated : ((Price.rosterRow (.object offer) (.object table)).bind fun row =>
      read (readRecord (some row)) maxDiscountRosterKey).getD .null =
      (Price.rosterRow (.object offer) (.object table)).elim .null fun row =>
        row.record.get maxDiscountRosterKey := by
    cases Price.rosterRow (.object offer) (.object table) with
    | none => rfl
    | some row =>
        rw [Option.bind_some, read_getD, Option.elim_some, Json.record_get]
        rfl
  have given : (cap.map Json.number).getD .null = capValue cap := by
    cases cap <;> rfl
  simp only [authorizedDepth, Price.authorizedDepth, rows, isMissing_eq, finiteNumber_eq, stated,
    apply_ite (Option.getD · Json.null), given, readCap_eq]

end Readers

/-! ## The relations -/

theorem priceFloor_eq (listed : Extended Binary64) :
    priceFloor listed = Contracts.priceFloor listed := rfl

theorem numberReasons_eq (site : Str) (price : Option (Extended Binary64)) :
    numberReasons site price = Price.numberReasons site price := by
  cases price <;> rfl

theorem floorReason_eq (floor : Extended Binary64) (site : Str)
    (priced : Option (Extended Binary64)) :
    floorReason floor (site, priced) = Price.belowFloorReasons floor site priced := by
  cases priced <;> rfl

theorem authorization_eq (granted : Option (Extended Binary64) × List Str)
    (depth : Extended Binary64) : authorization granted depth = Price.authorization granted depth := by
  unfold authorization Price.authorization
  obtain ⟨cap, reasons⟩ := granted
  split
  · cases cap <;> rfl
  · rfl

theorem relationReasonsFor_eq (bid offer : Members) (listPrices : Value)
    (cap : Option (Extended Binary64)) (depth unitPrice : Extended Binary64)
    (totalPrice : Option (Extended Binary64)) :
    relationReasonsFor bid offer listPrices cap depth unitPrice totalPrice =
      Price.relationReasons (Price.authorization (authorizedDepth offer listPrices cap) depth)
        (carriedListPrice bid offer) (rosterListPrice offer listPrices) unitPrice totalPrice := by
  unfold relationReasonsFor Price.relationReasons
  rw [authorization_eq]
  generalize rosterListPrice offer listPrices = rostered
  generalize carriedListPrice bid offer = carried
  obtain ⟨rostered, rosterReasons⟩ := rostered
  obtain ⟨carried, carriedReasons⟩ := carried
  dsimp only
  congr 1
  · congr 1
    · congr 1
      · congr 1
        cases rostered <;> cases carried <;> rfl
      · cases rostered with
        | none => rfl
        | some held =>
            simp only [List.flatMap_cons, List.flatMap_nil, List.append_nil, floorReason_eq]
            rfl
    · cases rostered <;> cases carried <;> rfl
  · cases totalPrice <;> rfl

/-! ## The carried price -/

section Weight

variable {rostered : Option (Extended Binary64)} {unitPrice authorized : Extended Binary64}
  {stated : List (Option (Extended Binary64))}

def unreadable : Str := unreconcilable offerUnitPriceSite (str "unreadable_list_price")

def ambiguous : Str := unreconcilable offerUnitPriceSite (str "ambiguous_list_price")

def contradicted : Str := unreconcilable offerUnitPriceSite (str "list_price_contradicts_roster")

def under : Str := underDeclaredDepth offerUnitPriceSite

/-- A carried price is refused: it contradicts the price held, or there is none and the unit price
is under it. -/
def Refused (rostered : Option (Extended Binary64)) (unitPrice authorized : Extended Binary64)
    (stated : List (Option (Extended Binary64))) : Prop :=
  ∃ listed, Price.Names stated listed ∧
    match rostered with
    | some held => priceReconciliationTolerance < magnitude (held - listed)
    | none => unitPrice + priceReconciliationTolerance < Price.discounted listed authorized

theorem names_unique {a b : Extended Binary64} (ha : Price.Names stated a)
    (hb : Price.Names stated b) : a = b :=
  Option.some.inj (hb.2 _ ha.1)

theorem refused_of_names {listed : Extended Binary64} (named : Price.Names stated listed) :
    Refused rostered unitPrice authorized stated ↔
      match rostered with
      | some held => priceReconciliationTolerance < magnitude (held - listed)
      | none => unitPrice + priceReconciliationTolerance < Price.discounted listed authorized := by
  constructor
  · rintro ⟨other, same, refused⟩
    obtain rfl := names_unique same named
    exact refused
  · intro refused
    exact ⟨listed, named, refused⟩

theorem not_refused (anonymous : ∀ listed, ¬ Price.Names stated listed) :
    ¬ Refused rostered unitPrice authorized stated := by
  rintro ⟨listed, named, -⟩
  exact anonymous listed named

theorem not_names_of_unreadable (h : none ∈ stated) (listed : Extended Binary64) :
    ¬ Price.Names stated listed := by
  rintro ⟨-, all⟩
  cases all none h

theorem not_names_of_ambiguous (h : Price.Ambiguous stated) (listed : Extended Binary64) :
    ¬ Price.Names stated listed := by
  rintro ⟨-, all⟩
  obtain ⟨-, a, ha, b, hb, differ⟩ := h
  exact differ ((all a ha).trans (all b hb).symm)

theorem not_names_nil (listed : Extended Binary64) : ¬ Price.Names [] listed := by
  rintro ⟨member, -⟩
  cases member

open Classical in
theorem carriedReasons (stated : List (Option (Extended Binary64))) :
    (Price.statedListPrice stated).2 = (if none ∈ stated then [unreadable] else []) ++
      if Price.Ambiguous stated then [ambiguous] else [] := by
  rcases Price.statedListPrice_cases stated with ⟨h, e⟩ | ⟨h, e⟩ | ⟨rfl, e⟩ | ⟨listed, h, e⟩
  · rw [e, if_pos h, if_neg fun other => other.1 h]
    rfl
  · rw [e, if_neg h.1, if_pos h]
    rfl
  · simp [e, Price.Ambiguous]
  · rw [e, if_neg fun other => not_names_of_unreadable other listed h,
      if_neg fun other => not_names_of_ambiguous other listed h]
    rfl

variable (unitPrice authorized) in
open Classical in
theorem contradictions (stated : List (Option (Extended Binary64))) (held : Extended Binary64) :
    Price.contradictionReasons (some held) (Price.statedListPrice stated).1 =
      if Refused (some held) unitPrice authorized stated then [contradicted] else [] := by
  rcases Price.statedListPrice_cases stated with ⟨h, e⟩ | ⟨h, e⟩ | ⟨rfl, e⟩ | ⟨listed, h, e⟩
  · rw [e, if_neg (not_refused (not_names_of_unreadable h))]
    rfl
  · rw [e, if_neg (not_refused (not_names_of_ambiguous h))]
    rfl
  · rw [e, if_neg (not_refused not_names_nil)]
    rfl
  · simp only [e, refused_of_names h, Price.contradictionReasons, contradicted]

open Classical in
theorem undercuts :
    Price.unitReasons (Price.statedListPrice stated).1 unitPrice authorized =
      if Refused none unitPrice authorized stated then [under] else [] := by
  rcases Price.statedListPrice_cases stated with ⟨h, e⟩ | ⟨h, e⟩ | ⟨rfl, e⟩ | ⟨listed, h, e⟩
  · rw [e, if_neg (not_refused (not_names_of_unreadable h))]
    rfl
  · rw [e, if_neg (not_refused (not_names_of_ambiguous h))]
    rfl
  · rw [e, if_neg (not_refused not_names_nil)]
    rfl
  · simp only [e, refused_of_names h, Price.unitReasons, under]

/-- Two readings of the claims about the list price that no verdict tells apart. -/
structure SameWeight (rostered : Option (Extended Binary64))
    (unitPrice authorized : Extended Binary64) (py ts : List (Option (Extended Binary64))) :
    Prop where
  unreadable : none ∈ py ↔ none ∈ ts
  ambiguous : Price.Ambiguous py ↔ Price.Ambiguous ts
  refused : Refused rostered unitPrice authorized py ↔ Refused rostered unitPrice authorized ts

def weighed (rostered : Option (Extended Binary64)) (unitPrice authorized : Extended Binary64)
    (stated : List (Option (Extended Binary64))) : List Str :=
  (Price.statedListPrice stated).2 ++
    Price.contradictionReasons rostered (Price.statedListPrice stated).1 ++
    Price.unitReasons (rostered.or (Price.statedListPrice stated).1) unitPrice authorized

theorem unitReasons_subset (listed : Option (Extended Binary64)) :
    Price.unitReasons listed unitPrice authorized ⊆ [under] := by
  unfold Price.unitReasons
  split
  · exact List.nil_subset _
  · split
    · exact List.Subset.refl _
    · exact List.nil_subset _

def refusal (rostered : Option (Extended Binary64)) : Str :=
  if rostered.isSome then contradicted else under

theorem mem_weighed (t : Str) : t ∈ weighed rostered unitPrice authorized stated ↔
    (t = unreadable ∧ none ∈ stated) ∨ (t = ambiguous ∧ Price.Ambiguous stated) ∨
      (t = refusal rostered ∧ Refused rostered unitPrice authorized stated) ∨
      (rostered.isSome ∧ t ∈ Price.unitReasons rostered unitPrice authorized) := by
  unfold weighed
  rw [carriedReasons]
  cases rostered with
  | none =>
      rw [Option.none_or, undercuts, Price.contradictionReasons.eq_2 _ _ (by simp)]
      simp [refusal, and_comm]
  | some held =>
      rw [Option.some_or, contradictions unitPrice authorized stated held]
      simp [refusal, and_comm]

theorem reasons_apart : unreadable ≠ ambiguous ∧ unreadable ≠ contradicted ∧ unreadable ≠ under ∧
    ambiguous ≠ contradicted ∧ ambiguous ≠ under ∧ contradicted ≠ under := by
  simp only [unreadable, ambiguous, contradicted, under, unreconcilable, underDeclaredDepth,
    reasonPriceUnreconcilable, reasonPriceUnderDeclaredDepth, offerUnitPriceSite, str_literal rfl]
  decide

theorem sameWeight_of_mem {py ts : List (Option (Extended Binary64))}
    (same : ∀ t, t ∈ weighed rostered unitPrice authorized py ↔
      t ∈ weighed rostered unitPrice authorized ts) :
    SameWeight rostered unitPrice authorized py ts := by
  obtain ⟨ua, uc, uu, ac, au, cu⟩ := reasons_apart
  have kept {t : Str} (other : t ≠ under) :
      t ∉ Price.unitReasons rostered unitPrice authorized := fun member =>
    other (List.mem_singleton.mp (unitReasons_subset _ member))
  have unread : unreadable ≠ refusal rostered := by
    unfold refusal
    split
    · exact uc
    · exact uu
  have ambig : ambiguous ≠ refusal rostered := by
    unfold refusal
    split
    · exact ac
    · exact au
  have refused : ¬ (rostered.isSome ∧
      refusal rostered ∈ Price.unitReasons rostered unitPrice authorized) := by
    rintro ⟨held, member⟩
    rw [refusal, if_pos held] at member
    exact kept cu member
  constructor
  · simpa [mem_weighed, ua, unread, kept uu] using same unreadable
  · simpa [mem_weighed, ua.symm, ambig, kept au] using same ambiguous
  · have verdict := same (refusal rostered)
    rw [mem_weighed, mem_weighed] at verdict
    simpa [unread.symm, ambig.symm, refused] using verdict

open Classical in
theorem relationReasons_stated_iff {granted : Extended Binary64 × List Str}
    {rostered : Option (Extended Binary64) × List Str} {totalPrice : Option (Extended Binary64)}
    {py ts : List (Option (Extended Binary64))} :
    Price.relationReasons granted (Price.statedListPrice py) rostered unitPrice totalPrice =
        Price.relationReasons granted (Price.statedListPrice ts) rostered unitPrice totalPrice ↔
      SameWeight rostered.1 unitPrice granted.1 py ts := by
  constructor
  · intro equal
    apply sameWeight_of_mem
    intro t
    have counts := congrArg (List.count t) equal
    simp only [Price.relationReasons, List.count_append] at counts
    have sums : (weighed rostered.1 unitPrice granted.1 py).count t =
        (weighed rostered.1 unitPrice granted.1 ts).count t := by
      simp only [weighed, List.count_append]
      omega
    rw [← List.count_pos_iff, ← List.count_pos_iff, sums]
  · rintro ⟨unread, ambig, refused⟩
    have reasons : (Price.statedListPrice py).2 = (Price.statedListPrice ts).2 := by
      rw [carriedReasons, carriedReasons]
      simp only [unread, ambig]
    have against : Price.contradictionReasons rostered.1 (Price.statedListPrice py).1 =
        Price.contradictionReasons rostered.1 (Price.statedListPrice ts).1 := by
      cases held : rostered.1 with
      | none => cases (Price.statedListPrice py).1 <;> cases (Price.statedListPrice ts).1 <;> rfl
      | some price =>
          rw [held] at refused
          rw [contradictions unitPrice granted.1 py price, contradictions unitPrice granted.1 ts price]
          simp only [refused]
    have below : Price.unitReasons (rostered.1.or (Price.statedListPrice py).1) unitPrice granted.1 =
        Price.unitReasons (rostered.1.or (Price.statedListPrice ts).1) unitPrice granted.1 := by
      cases held : rostered.1 with
      | none =>
          rw [held] at refused
          rw [Option.none_or, Option.none_or, undercuts, undercuts]
          simp only [refused]
      | some price => rfl
    simp only [Price.relationReasons, reasons, against, below]

end Weight

/-! ## The refusals a walk can give -/

section Vocabulary

def listPriceUnavailable : Str := unreconcilable offerUnitPriceSite (str "list_price_unavailable")

/-- The refusals with no text of the bid in them, but for a product no roster row is about. -/
def vocabulary : List Str :=
  [offerUnitPriceSite, offerTotalPriceSite].flatMap (fun site =>
      [str "not_a_number", str "negative", str "not_positive", str "below_price_floor"].map
        (unreconcilable site)) ++
    [str "depth_not_a_number", str "depth_out_of_range", str "authorized_depth_unavailable",
      str "unreadable_authorized_depth"].map (unreconcilable offerDiscountSite) ++
    [unreadable, ambiguous, contradicted, under, underDeclaredDepth offerTotalPriceSite,
      overAuthorizedDepth, unreconcilable offerUnitPriceSite (str "unreadable_roster_list_price")]

theorem solid_vocabulary : ∀ r ∈ listPriceUnavailable :: vocabulary, r.isSolid = true := by
  simp only [listPriceUnavailable, vocabulary, unreadable, ambiguous, contradicted, under, unreconcilable,
    underDeclaredDepth, overAuthorizedDepth, reasonPriceUnreconcilable, reasonPriceUnderDeclaredDepth,
    offerDiscountSite, offerUnitPriceSite, offerTotalPriceSite, str_literal rfl]
  decide

theorem listPriceUnavailable_notMem : listPriceUnavailable ∉ vocabulary := by
  simp only [listPriceUnavailable, vocabulary, unreadable, ambiguous, contradicted, under, unreconcilable,
    underDeclaredDepth, overAuthorizedDepth, reasonPriceUnreconcilable, reasonPriceUnderDeclaredDepth,
    offerDiscountSite, offerUnitPriceSite, offerTotalPriceSite, str_literal rfl]
  decide

variable {r : Str} {cap carried rostered : Option (Extended Binary64) × List Str}
  {granted : Extended Binary64 × List Str} {depth unitPrice : Extended Binary64}
  {totalPrice price : Option (Extended Binary64)}

theorem mem_of_number {site : Str} (sites : site = offerUnitPriceSite ∨ site = offerTotalPriceSite)
    (h : r ∈ Price.numberReasons site price) : r ∈ vocabulary := by
  unfold Price.numberReasons at h
  split at h
  · obtain rfl := List.mem_singleton.mp h
    rcases sites with rfl | rfl <;> simp [vocabulary]
  · split at h
    · obtain rfl := List.mem_singleton.mp h
      rcases sites with rfl | rfl <;> simp [vocabulary]
    · cases h

theorem mem_of_readCap (h : r ∈ (Price.readCap price).2) : r ∈ vocabulary := by
  unfold Price.readCap at h
  split at h
  · obtain rfl := List.mem_singleton.mp h
    simp [vocabulary]
  · split at h
    · obtain rfl := List.mem_singleton.mp h
      simp [vocabulary]
    · cases h

theorem mem_of_cap {raw : Value} (h : r ∈ (if raw.isNull = true then
      ((none : Option (Extended Binary64)),
        [unreconcilable offerDiscountSite (str "authorized_depth_unavailable")])
    else Price.readCap raw.finiteNumber).2) : r ∈ vocabulary := by
  split at h
  · obtain rfl := List.mem_singleton.mp h
    simp [vocabulary]
  · exact mem_of_readCap h

theorem mem_of_authorizedDepth {offer listPrices maxDiscountPct : Value}
    (h : r ∈ (Price.authorizedDepth offer listPrices maxDiscountPct).2) : r ∈ vocabulary :=
  mem_of_cap h

theorem mem_of_authorizedDepthTs {offer : Members} {listPrices : Value}
    {maxDiscountPct : Option (Extended Binary64)}
    (h : r ∈ (authorizedDepth offer listPrices maxDiscountPct).2) : r ∈ vocabulary := by
  simp only [authorizedDepth, readCap_eq, isMissing_eq _, finiteNumber_eq] at h
  exact mem_of_cap h

theorem mem_of_authorization (h : r ∈ (Price.authorization cap depth).2) :
    r ∈ cap.2 ∨ r ∈ vocabulary := by
  unfold Price.authorization at h
  split at h
  · split at h
    · exact .inl h
    · rcases List.mem_append.mp h with read | excess
      · exact .inl read
      · split at excess
        · obtain rfl := List.mem_singleton.mp excess
          simp [vocabulary]
        · cases excess
  · cases h

theorem mem_of_statedListPrice {stated : List (Option (Extended Binary64))}
    (h : r ∈ (Price.statedListPrice stated).2) : r ∈ vocabulary := by
  classical
  rw [carriedReasons, List.mem_append] at h
  rcases h with h | h <;> split at h
  · obtain rfl := List.mem_singleton.mp h
    simp [vocabulary]
  · cases h
  · obtain rfl := List.mem_singleton.mp h
    simp [vocabulary]
  · cases h

theorem mem_of_rosterListPrice {offer listPrices : Value}
    (h : r ∈ (Price.rosterListPrice offer listPrices).2) : r ∈ listPriceUnavailable :: vocabulary := by
  unfold Price.rosterListPrice at h
  split at h
  · obtain rfl := List.mem_singleton.mp h
    exact List.mem_cons_self
  · apply List.mem_cons_of_mem
    split at h
    · obtain rfl := List.mem_singleton.mp h
      simp [vocabulary]
    · split at h
      · obtain rfl := List.mem_singleton.mp h
        simp [vocabulary]
      · cases h

theorem mem_of_rosterListPriceTs {offer : Members} {listPrices : Value}
    (h : r ∈ (rosterListPrice offer listPrices).2) :
    (rosterRow offer listPrices = none ∧ r = listPriceUnavailable) ∨ r ∈ vocabulary := by
  unfold rosterListPrice at h
  split at h
  · rename_i missing
    exact .inl ⟨missing, List.mem_singleton.mp h⟩
  · right
    dsimp only at h
    split at h
    · obtain rfl := List.mem_singleton.mp h
      simp [vocabulary]
    · split at h
      · obtain rfl := List.mem_singleton.mp h
        simp [vocabulary]
      · cases h

theorem mem_of_contradiction {held stated : Option (Extended Binary64)}
    (h : r ∈ Price.contradictionReasons held stated) : r ∈ vocabulary := by
  unfold Price.contradictionReasons at h
  split at h
  · split at h
    · obtain rfl := List.mem_singleton.mp h
      simp [vocabulary, contradicted]
    · cases h
  · cases h

theorem mem_of_belowFloor {floor : Extended Binary64} {site : Str}
    (sites : site = offerUnitPriceSite ∨ site = offerTotalPriceSite)
    (h : r ∈ Price.belowFloorReasons floor site price) : r ∈ vocabulary := by
  unfold Price.belowFloorReasons at h
  split at h
  · cases h
  · split at h
    · obtain rfl := List.mem_singleton.mp h
      rcases sites with rfl | rfl <;> simp [vocabulary]
    · split at h
      · obtain rfl := List.mem_singleton.mp h
        rcases sites with rfl | rfl <;> simp [vocabulary]
      · cases h

theorem mem_of_floor (h : r ∈ Price.floorReasons price unitPrice totalPrice) : r ∈ vocabulary := by
  unfold Price.floorReasons at h
  split at h
  · cases h
  · split at h
    · rcases List.mem_append.mp h with unit | total
      · exact mem_of_belowFloor (.inl rfl) unit
      · exact mem_of_belowFloor (.inr rfl) total
    · cases h

theorem mem_of_total {authorized : Extended Binary64}
    (h : r ∈ Price.totalReasons unitPrice totalPrice authorized) : r ∈ vocabulary := by
  unfold Price.totalReasons at h
  split at h
  · cases h
  · split at h
    · obtain rfl := List.mem_singleton.mp h
      simp [vocabulary]
    · cases h

theorem mem_of_relation
    (h : r ∈ Price.relationReasons granted carried rostered unitPrice totalPrice) :
    r ∈ granted.2 ∨ r ∈ carried.2 ∨ r ∈ rostered.2 ∨ r ∈ vocabulary := by
  simp only [Price.relationReasons, List.mem_append, or_assoc] at h
  rcases h with read | read | read | against | floor | unit | total
  · exact .inl read
  · exact .inr (.inl read)
  · exact .inr (.inr (.inl read))
  · exact .inr (.inr (.inr (mem_of_contradiction against)))
  · exact .inr (.inr (.inr (mem_of_floor floor)))
  · have low : r = under := List.mem_singleton.mp (unitReasons_subset _ unit)
    exact .inr (.inr (.inr (by simp [vocabulary, low])))
  · exact .inr (.inr (.inr (mem_of_total total)))

end Vocabulary

end PriceTs
end Proxyshop.Contracts
