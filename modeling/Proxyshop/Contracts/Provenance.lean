import Proxyshop.Contracts.ClaimWalk

/-!
# Provenance at every claim-bearing site

A statement is judged by where it came from: the claims of a bid, the commitments of its offer and
the offer's discount are judged by one table, and so is every provenance block inside their values.
-/

namespace Proxyshop.Contracts

open Python ClaimValue

def hostedPath : Str := str "hosted"

def externalPath : Str := str "external"

def offerCommitmentsSite : Str := str "offer.commitments"

def reasonSchemaInvalid : Str := str "schema_invalid"

def reasonClaimWithoutProvenance : Str := str "claim_without_provenance"

def reasonClaimProvenanceEmptySource : Str := str "claim_provenance_empty_source"

def reasonClaimProvenanceUnknownSource : Str := str "claim_provenance_unknown_source"

def reasonHostedNonHookProvenance : Str := str "hosted_non_hook_provenance"

def reasonUnverifiableClaimSite : Str := str "unverifiable_claim_site"

def reasonUnverifiedDiscountAuthorisation : Str := str "unverified_discount_authorisation"

def reasonClaimValueUnwalkable : Str := str "claim_value_unwalkable"

def reasonAt (reason label : Str) : Str := reason ++ str ":" ++ label

section Verdicts

/- The parameter `text` is `str(value or "")`, of the values that are not strings. -/
variable {N : Type} (text : Json N → Str)

/-- `_source_text`. -/
def sourceText : Json N → Str
  | .string raw => trimmed raw
  | raw => trimmed (text raw)

/-- `_verdict_for_source`: the reasons, and whether the statement goes to verification. -/
def verdictForSource (source path label : Str) (addressable : Bool) : List Str × Bool :=
  if source ∈ hookProvenanceSources then ([], false)
  else if source ∈ nonHookProvenanceSources then
    if path = hostedPath then
      ([reasonAt (reasonAt reasonHostedNonHookProvenance label) source], false)
    else if addressable then ([], true)
    else ([reasonAt (reasonAt reasonUnverifiableClaimSite label) source], false)
  else ([reasonAt (reasonAt reasonClaimProvenanceUnknownSource label) source], false)

/-- `_source_verdict`; the walk over the holder's value is done here unless it is handed in. -/
def sourceVerdict (holder : Json N) (path label : Str) (addressable : Bool)
    (valueWalk : Option (List (Str × Str) × Bool × Bool)) : List Str × Bool :=
  let provenance := holder.get (str "provenance")
  if provenance.isNull then ([reasonAt reasonClaimWithoutProvenance label], false)
  else
    let source := sourceText text (provenance.get (str "source"))
    if source = [] then ([reasonAt reasonClaimProvenanceEmptySource label], false)
    else
      let own := verdictForSource source path label addressable
      let walk := valueWalk.getD (walkClaimValue (holder.get (str "value")) label)
      let nested := walk.1.map fun entry => verdictForSource entry.2 path entry.1 addressable
      let reasons := own.1 ++ nested.flatMap Prod.fst
      if walk.2.2 then (reasons ++ [reasonAt reasonClaimValueUnwalkable label], false)
      else (reasons, own.2 || nested.any Prod.snd)

/-- `_asserts_discount_authorisation`. -/
def assertsDiscountAuthorisation (claim : Json N) (mentionsAuthorisation : Bool) : Bool :=
  match claim.get (str "key") with
  | .string key => isAuthorisationKey key || mentionsAuthorisation
  | _ => mentionsAuthorisation

/-- `_authorisation_verdict`. -/
def authorisationVerdict (claim : Json N) (path label : Str)
    (addressable mentionsAuthorisation : Bool) : List Str × Bool :=
  if path ≠ externalPath ∨ !assertsDiscountAuthorisation claim mentionsAuthorisation then ([], false)
  else if addressable then ([], true)
  else ([reasonAt reasonUnverifiedDiscountAuthorisation label], false)

/-- The verdict on the claim at an index, with whether it goes to verification. -/
def claimVerdict (path : Str) (site : Option Str) (index : Nat) (claim : Json N) :
    List Str × Bool :=
  let label := match site with
    | none => Str.ofNat index
    | some site => site ++ str "[" ++ Str.ofNat index ++ str "]"
  let valueWalk := walkClaimValue (claim.get (str "value")) label
  let source := sourceVerdict text claim path label site.isNone (some valueWalk)
  let authorisation := authorisationVerdict claim path label site.isNone valueWalk.2.1
  (source.1 ++ authorisation.1, source.2 || authorisation.2)

/-- `_claim_provenance_reasons`: the reasons, and the indexes of the claims to verify. -/
def claimProvenanceReasons (claims : Json N) (path : Str) (site : Option Str) :
    List Str × List Nat :=
  match claims with
  | .null => ([], [])
  | .array claims =>
      let verdicts := claims.mapIdx (claimVerdict text path site)
      (verdicts.flatMap Prod.fst, verdicts.findIdxs Prod.snd)
  | _ => ([reasonSchemaInvalid], [])

/-- `_offer_claim_reasons`. -/
def offerClaimReasons (offer : Json N) (path : Str) : List Str :=
  if offer.isNull then []
  else
    let commitments :=
      (claimProvenanceReasons text (offer.get (str "commitments")) path (some offerCommitmentsSite)).1
    let discount := offer.get (str "discount")
    if discount.isNull then commitments
    else commitments ++ (sourceVerdict text discount path offerDiscountSite false none).1

/-! ## The hosted path -/

theorem sellerAsserted_unhooked : sellerAsserted ∉ hookProvenanceSources := by decide

/-- No block inside the value declares the source that no hook mints. -/
def Hooked (value : Json N) : Prop :=
  ∀ label node, Within (root value label) node →
    declaredProvenanceSource node.value ≠ some sellerAsserted

omit text in
theorem within_label {value : Json N} {label : Str} {node : Node N}
    (within : Within (root value label) node) (other : Str) :
    ∃ path, Within (root value other) ⟨node.value, path, node.depth⟩ := by
  induction within with
  | top => exact ⟨_, .top⟩
  | member _ inside ih =>
      obtain ⟨path, within⟩ := ih
      exact ⟨_, .member within inside⟩
  | item _ inside ih =>
      obtain ⟨path, within⟩ := ih
      exact ⟨_, .item within inside⟩

theorem verdictForSource_hosted {source label : Str} {addressable : Bool}
    (admitted : (verdictForSource source hostedPath label addressable).1 = []) :
    source ∈ hookProvenanceSources := by
  unfold verdictForSource at admitted
  split at admitted
  · assumption
  · split at admitted
    · rw [if_pos rfl] at admitted
      cases admitted
    · cases admitted

theorem sourceVerdict_hosted {holder : Json N} {label : Str} {addressable : Bool}
    {valueWalk : Option (List (Str × Str) × Bool × Bool)}
    (walk : valueWalk.getD (walkClaimValue (holder.get (str "value")) label) =
      walkClaimValue (holder.get (str "value")) label)
    (admitted : (sourceVerdict text holder hostedPath label addressable valueWalk).1 = []) :
    Hooked (holder.get (str "value")) := by
  unfold sourceVerdict at admitted
  rw [walk] at admitted
  dsimp only at admitted
  split at admitted
  · cases admitted
  · split at admitted
    · cases admitted
    · split at admitted
      · exact absurd admitted (List.append_ne_nil_of_right_ne_nil _ (List.cons_ne_nil _ _))
      · rename_i whole
        rw [Bool.not_eq_true] at whole
        obtain ⟨_, nested⟩ := List.append_eq_nil_iff.mp admitted
        rw [List.flatMap_eq_nil_iff] at nested
        intro other node within declares
        obtain ⟨path, within⟩ := within_label within label
        have found := (mem_found_iff whole).mpr ⟨_, within, rfl, declares⟩
        have hook := verdictForSource_hosted (nested _ (List.mem_map_of_mem found))
        exact sellerAsserted_unhooked hook

theorem sourceVerdict_sourced {holder : Json N} {label : Str} {addressable : Bool}
    {valueWalk : Option (List (Str × Str) × Bool × Bool)}
    (admitted : (sourceVerdict text holder hostedPath label addressable valueWalk).1 = []) :
    (∃ members, holder = .object members) ∧
      sourceText text ((holder.get (str "provenance")).get (str "source")) ∈ hookProvenanceSources := by
  unfold sourceVerdict at admitted
  dsimp only at admitted
  split at admitted
  · cases admitted
  · rename_i provenanced
    constructor
    · cases holder with
      | object members => exact ⟨members, rfl⟩
      | _ => exact absurd rfl provenanced
    · split at admitted
      · cases admitted
      · split at admitted
        · exact absurd admitted (List.append_ne_nil_of_right_ne_nil _ (List.cons_ne_nil _ _))
        · exact verdictForSource_hosted (List.append_eq_nil_iff.mp admitted).1

theorem claimProvenanceReasons_each {items : List (Json N)} {path : Str} {site : Option Str}
    (admitted : (claimProvenanceReasons text (.array items) path site).1 = []) {claim : Json N}
    (member : claim ∈ items) : ∃ label, (sourceVerdict text claim path label site.isNone
      (some (walkClaimValue (claim.get (str "value")) label))).1 = [] := by
  obtain ⟨i, bound, rfl⟩ := List.getElem_of_mem member
  have verdict := List.flatMap_eq_nil_iff.mp admitted _ (List.mem_mapIdx.mpr ⟨i, bound, rfl⟩)
  exact ⟨_, (List.append_eq_nil_iff.mp verdict).1⟩

theorem claimProvenanceReasons_hosted {claims : Json N} {site : Option Str}
    (admitted : (claimProvenanceReasons text claims hostedPath site).1 = []) {items : List (Json N)}
    (list : claims = .array items) : ∀ claim ∈ items, Hooked (claim.get (str "value")) := by
  subst list
  intro claim member
  obtain ⟨label, verdict⟩ := claimProvenanceReasons_each text admitted member
  exact sourceVerdict_hosted text rfl verdict

omit text in
theorem hooked_null : Hooked (.null : Json N) := by
  intro label node within declares
  have scalar : node.value = .null := by
    clear declares
    induction within with
    | top => rfl
    | member _ _ ih => cases ih
    | item _ _ ih => cases ih
  rw [scalar] at declares
  cases declares

theorem offerClaimReasons_hosted {offer : Json N}
    (admitted : offerClaimReasons text offer hostedPath = []) :
    (∀ items, offer.get (str "commitments") = .array items →
      ∀ claim ∈ items, Hooked (claim.get (str "value"))) ∧
    Hooked ((offer.get (str "discount")).get (str "value")) := by
  unfold offerClaimReasons at admitted
  split at admitted
  · rename_i none
    rw [Json.isNull_iff.mp none]
    exact ⟨fun _ list => (by cases list), hooked_null⟩
  · dsimp only at admitted
    split at admitted
    · rename_i none
      rw [Json.isNull_iff.mp none]
      exact ⟨fun items list => claimProvenanceReasons_hosted text admitted list, hooked_null⟩
    · obtain ⟨commitments, discount⟩ := List.append_eq_nil_iff.mp admitted
      exact ⟨fun items list => claimProvenanceReasons_hosted text commitments list,
        sourceVerdict_hosted text rfl discount⟩

/-- The walk skips nothing exactly when it opens every container; then it reports every block and
every authorisation, in whatever order the members stand, and what the hosted path admits states
nothing that no hook minted. -/
theorem walkClaimValue_complete :
    (∀ (claimed : Document N) (label : Str), ∃ found mentionsAuthorisation truncated,
      walkClaimValue claimed.value label = (found, mentionsAuthorisation, truncated) ∧
      ((start claimed.value label).run fuel).stack = [] ∧
      (∀ node, node ∈ occurrences claimed.value label ↔ Within (root claimed.value label) node) ∧
      (truncated = false ↔
        (start claimed.value label).opened fuel = containers claimed.value label) ∧
      (truncated = false →
        found = (occurrences claimed.value label).filterMap reported ∧
        (∀ path source, (path, source) ∈ found ↔
          ∃ node, Within (root claimed.value label) node ∧ node.path = path ∧
            declaredProvenanceSource node.value = some source) ∧
        (mentionsAuthorisation = true ↔
          ∃ node members, Within (root claimed.value label) node ∧ node.value = .object members ∧
            ∃ key ∈ Dict.keys members, trimmed key ∈ discountAuthorisationClaimKeys)) ∧
      ∀ other : Document N, Json.Same (· = ·) claimed.value other.value →
        walkClaimValue other.value label = walkClaimValue claimed.value label) ∧
    ∀ bid : Json N,
      (claimProvenanceReasons text (bid.get (str "claims")) hostedPath none).1 = [] →
      offerClaimReasons text (bid.get (str "offer")) hostedPath = [] →
        (∀ items, bid.get (str "claims") = .array items →
          ∀ claim ∈ items, Hooked (claim.get (str "value"))) ∧
        (∀ items, (bid.get (str "offer")).get (str "commitments") = .array items →
          ∀ claim ∈ items, Hooked (claim.get (str "value"))) ∧
        Hooked (((bid.get (str "offer")).get (str "discount")).get (str "value")) := by
  constructor
  · intro claimed label
    refine ⟨_, _, _, rfl, start_stack _ _, fun _ => mem_occurrences_iff, ?_, ?_, ?_⟩
    · exact (whole_iff _ _).trans (opened_eq_containers_iff _ _).symm
    · intro whole
      exact ⟨found_of_whole whole, fun _ _ => mem_found_iff whole, mem_mentions_iff whole⟩
    · intro other same
      exact (walk_related same claimed.keyed other.keyed label).symm
  · intro bid claims offer
    have site := offerClaimReasons_hosted text offer
    exact ⟨fun _ list => claimProvenanceReasons_hosted text claims list, site.1, site.2⟩

end Verdicts

def networkBlock : Json Unit :=
  .object [(str "source", .string (str " network")), (str "ref", .array [.number ()])]

def nestedBid : Json Unit :=
  .object [(str "claims", .array [.object [(str "provenance", networkBlock),
    (str "value", .object [(str "b", .array [networkBlock]), (str "a", .null)])]])]

theorem nestedBid_hooked :
    Hooked (Json.object [(str "b", .array [networkBlock]), (str "a", .null)]) := by
  have admitted := (walkClaimValue_complete fun _ : Json Unit => []).2 nestedBid
    (by decide) (by decide)
  exact admitted.1 _ rfl _ List.mem_cons_self

end Proxyshop.Contracts
