import Proxyshop.Auction.Malformed
import Proxyshop.Contracts.Document
import Proxyshop.Contracts.Provenance

/-!
# The provenance wall at collection

What an admitted answer states about where its claims came from. The boundary's verdict is read by
families, and a list of claims that is none is reported under a family no reader of this door acts on.
-/

namespace Proxyshop.Contracts

open Python ClaimValue

variable {N : Type}

/-! ## Blocks inside an object -/

theorem within_object {members : Dict Str (Json N)} {label : Str} {node : Node N}
    (within : Within (root (.object members) label) node) :
    node.value = .object members ∨
      ∃ entry ∈ members, ∃ inner, Within (root entry.2 label) inner ∧ inner.value = node.value := by
  induction within with
  | top => exact Or.inl rfl
  | member _ inside ih =>
      rcases ih with whole | ⟨entry, held, ⟨value, path, depth⟩, within, same⟩
      · cases whole
        exact Or.inr ⟨_, inside, _, .top, rfl⟩
      · cases same
        exact Or.inr ⟨entry, held, _, .member within inside, rfl⟩
  | item _ inside ih =>
      rcases ih with whole | ⟨entry, held, ⟨value, path, depth⟩, within, same⟩
      · cases whole
      · cases same
        exact Or.inr ⟨entry, held, _, .item within inside, rfl⟩

theorem within_of_member {members : Dict Str (Json N)} {entry : Str × Json N}
    (held : entry ∈ members) {label : Str} {inner : Node N}
    (within : Within (root entry.2 label) inner) :
    ∃ node, Within (root (.object members) label) node ∧ node.value = inner.value := by
  induction within with
  | top => exact ⟨_, .member .top held, rfl⟩
  | member _ inside ih =>
      obtain ⟨⟨value, path, depth⟩, within, same⟩ := ih
      cases same
      exact ⟨_, .member within inside, rfl⟩
  | item _ inside ih =>
      obtain ⟨⟨value, path, depth⟩, within, same⟩ := ih
      cases same
      exact ⟨_, .item within inside, rfl⟩

theorem hooked_object {members : Dict Str (Json N)} : Hooked (.object members) ↔
    declaredProvenanceSource (.object members) ≠ some sellerAsserted ∧
      ∀ entry ∈ members, Hooked entry.2 := by
  constructor
  · intro hooked
    refine ⟨hooked [] _ .top, fun entry held label inner within => ?_⟩
    obtain ⟨node, within, same⟩ := within_of_member held within
    rw [← same]
    exact hooked label node within
  · rintro ⟨own, inside⟩ label node within
    rcases within_object within with whole | ⟨entry, held, inner, within, same⟩
    · rw [whole]
      exact own
    · rw [← same]
      exact inside entry held label inner within

end Proxyshop.Contracts

namespace Proxyshop.Auction.Collect

open Python Numbers Contracts ClaimValue Structures Boundary

/-! ## Families -/

theorem familyOf_reasonAt {reason : Str} (listed : reason ∈ provenanceReasonPrefixes) (label : Str) :
    familyOf (reasonAt reason label) ∈ provenanceReasonPrefixes := by
  have plain : ∀ c ∈ reason, (!isColon c) = true := by
    have all : (provenanceReasonPrefixes.all fun prefixed => prefixed.all fun c => !isColon c) = true := by
      decide
    exact List.all_eq_true.mp (List.all_eq_true.mp all reason listed)
  have first : familyOf (reasonAt reason label) = reason := by
    unfold familyOf reasonAt
    rw [List.append_assoc, List.takeWhile_append_of_pos plain]
    exact List.append_nil reason
  rw [first]
  exact listed

theorem familyOf_reasonAt_reasonAt {reason : Str} (listed : reason ∈ provenanceReasonPrefixes)
    (label source : Str) :
    familyOf (reasonAt (reasonAt reason label) source) ∈ provenanceReasonPrefixes := by
  have nested : reasonAt (reasonAt reason label) source =
      reasonAt reason (label ++ str ":" ++ source) := by
    simp only [reasonAt, List.append_assoc]
  rw [nested]
  exact familyOf_reasonAt listed _

section Listed

variable {N : Type} (truth : Json N → Str)

def Listed (reasons : List Str) : Prop := ∀ reason ∈ reasons, familyOf reason ∈ provenanceReasonPrefixes

theorem listed_nil : Listed [] := nofun

theorem listed_one {reason : Str} (listed : familyOf reason ∈ provenanceReasonPrefixes) :
    Listed [reason] := List.forall_mem_singleton.mpr listed

theorem Listed.append {first second : List Str} (listed : Listed first) (listed' : Listed second) :
    Listed (first ++ second) := List.forall_mem_append.mpr ⟨listed, listed'⟩

theorem Listed.filter_eq_nil {reasons : List Str} (listed : Listed reasons)
    (none : reasons.filter (fun reason => familyOf reason ∈ provenanceReasonPrefixes) = []) :
    reasons = [] := by
  rw [List.filter_eq_self.mpr fun reason member => decide_eq_true (listed reason member)] at none
  exact none

theorem verdictForSource_listed (source path label : Str) (addressable : Bool) :
    Listed (verdictForSource source path label addressable).1 := by
  unfold verdictForSource
  split
  · exact listed_nil
  · split
    · split
      · exact listed_one (familyOf_reasonAt_reasonAt (by decide) label source)
      · split
        · exact listed_nil
        · exact listed_one (familyOf_reasonAt_reasonAt (by decide) label source)
    · exact listed_one (familyOf_reasonAt_reasonAt (by decide) label source)

theorem sourceVerdict_listed (holder : Json N) (path label : Str) (addressable : Bool)
    (valueWalk : Option (List (Str × Str) × Bool × Bool)) :
    Listed (sourceVerdict truth holder path label addressable valueWalk).1 := by
  unfold sourceVerdict
  dsimp only
  split
  · exact listed_one (familyOf_reasonAt (by decide) label)
  · split
    · exact listed_one (familyOf_reasonAt (by decide) label)
    · have nested (found : List (Str × Str)) : Listed ((found.map fun entry =>
          verdictForSource entry.2 path entry.1 addressable).flatMap Prod.fst) := by
        intro reason member
        obtain ⟨verdict, walked, inside⟩ := List.mem_flatMap.mp member
        obtain ⟨entry, -, rfl⟩ := List.mem_map.mp walked
        exact verdictForSource_listed _ _ _ _ reason inside
      have own := verdictForSource_listed (sourceText truth
        ((holder.get (str "provenance")).get (str "source"))) path label addressable
      split
      · apply Listed.append
        · exact Listed.append own (nested _)
        · exact listed_one (familyOf_reasonAt (by decide) label)
      · exact Listed.append own (nested _)

theorem claimVerdict_listed (path : Str) (site : Option Str) (index : Nat) (claim : Json N) :
    Listed (claimVerdict truth path site index claim).1 := by
  have authorised (label : Str) (addressable mentions : Bool) :
      Listed (authorisationVerdict claim path label addressable mentions).1 := by
    unfold authorisationVerdict
    split
    · exact listed_nil
    · split
      · exact listed_nil
      · exact listed_one (familyOf_reasonAt (by decide) label)
  exact Listed.append (sourceVerdict_listed truth _ _ _ _ _) (authorised _ _ _)

theorem claimProvenanceReasons_listed (claims : List (Json N)) (path : Str) (site : Option Str) :
    Listed (claimProvenanceReasons truth (.array claims) path site).1 := by
  intro reason member
  obtain ⟨verdict, mapped, inside⟩ := List.mem_flatMap.mp member
  obtain ⟨index, bound, rfl⟩ := List.mem_mapIdx.mp mapped
  exact claimVerdict_listed truth path site index _ reason inside

theorem offerClaimReasons_silent {offer : Json N} {path : Str}
    (silent : (offerClaimReasons truth offer path).filter
      (fun reason => familyOf reason ∈ provenanceReasonPrefixes) = []) :
    (∀ items, offer.get (str "commitments") = .array items →
        (claimProvenanceReasons truth (.array items) path (some offerCommitmentsSite)).1 = []) ∧
      (offer.get (str "discount") ≠ .null →
        (sourceVerdict truth (offer.get (str "discount")) path offerDiscountSite false none).1 = []) := by
  unfold offerClaimReasons at silent
  split at silent
  · rename_i absent
    rw [Json.isNull_iff.mp absent]
    exact ⟨fun _ list => (by cases list), fun stated => absurd rfl stated⟩
  · dsimp only at silent
    split at silent
    · rename_i undiscounted
      refine ⟨fun items list => ?_, fun stated => absurd (Json.isNull_iff.mp undiscounted) stated⟩
      rw [list] at silent
      exact Listed.filter_eq_nil (claimProvenanceReasons_listed truth items _ _) silent
    · rw [List.filter_append, List.append_eq_nil_iff] at silent
      constructor
      · intro items list
        rw [list] at silent
        exact Listed.filter_eq_nil (claimProvenanceReasons_listed truth items _ _) silent.1
      · intro _
        exact Listed.filter_eq_nil (sourceVerdict_listed truth _ _ _ _ _) silent.2

end Listed

/-! ## An admitted answer -/

section Collected

variable {F : Type} [Format F] [DecidableEq F] [Unicode] {text : Wire F → Str}
  {model : Wire F → Option (List Str)} {truth : Wire F → Str} {clock : DateTime}
  {deadline : Extended F}

theorem provenanceRefusal_silent {bid : Wire F}
    (traced : provenanceRefusal text model truth clock bid deadline = .ok []) :
    (∀ items, bid.get (str "claims") = .array items →
        (claimProvenanceReasons truth (.array items) hostedPath none).1 = []) ∧
      (∀ items, (bid.get (str "offer")).get (str "commitments") = .array items →
        (claimProvenanceReasons truth (.array items) hostedPath (some offerCommitmentsSite)).1 = []) ∧
      ((bid.get (str "offer")).get (str "discount") ≠ .null →
        (sourceVerdict truth ((bid.get (str "offer")).get (str "discount")) hostedPath
          offerDiscountSite false none).1 = []) := by
  have hosted : ¬ hostedPath ∉ bidPaths := not_not.mpr List.mem_cons_self
  unfold provenanceRefusal validateBid at traced
  simp only [if_neg hosted] at traced
  obtain ⟨reasons, verdict, silent⟩ := bind_eq_ok.mp traced
  obtain ⟨price, -, verdict⟩ := bind_eq_ok.mp verdict
  obtain ⟨eligibility, -, verdict⟩ := bind_eq_ok.mp verdict
  obtain rfl := Except.ok.inj verdict
  have silent := Except.ok.inj silent
  simp only [List.filter_append, List.append_eq_nil_iff] at silent
  obtain ⟨⟨⟨⟨⟨-, claims⟩, offer⟩, -⟩, -⟩, -⟩ := silent
  refine ⟨fun items list => ?_, offerClaimReasons_silent truth offer⟩
  rw [list] at claims
  exact Listed.filter_eq_nil (claimProvenanceReasons_listed truth items _ _) claims

/-- A mapping whose own provenance source is one of the hooks'. -/
def Attested (claim : Wire F) : Prop :=
  (∃ members, claim = .object members) ∧
    ∃ source, (claim.get (str "provenance")).get (str "source") = .string source ∧
      trimmed source ∈ hookProvenanceSources

/-- The values that the commitments of an offer carry; what is no list is one. -/
def commitmentValues : Wire F → List (Wire F)
  | .array items => items.map fun commitment => commitment.get (str "value")
  | commitments => [commitments]

structure Walled (entry : BidEntry F) : Prop where
  fallback : entry.fallback = true → entry.claims = []
  attested : entry.fallback = false → ∀ claim ∈ entry.claims, Attested claim
  values : entry.fallback = false → ∀ claim ∈ entry.claims, Hooked (claim.get (str "value"))
  commitments : entry.fallback = false →
    ∀ value ∈ commitmentValues ((entry.bid.get (str "offer")).get (str "commitments")), Hooked value
  discount : entry.fallback = false → Hooked ((entry.bid.get (str "offer")).get (str "discount"))

/-- The claims and the commitments are lists, and the discount states nothing beside its value. -/
structure Enlisted (bid : Wire F) : Prop where
  claims : Wire.truthy (bid.get (str "claims")) = true → ∃ items, bid.get (str "claims") = .array items
  commitments : ∀ commitments, (bid.get (str "offer")).get (str "commitments") = commitments →
    (∃ items, commitments = .array items) ∨ Hooked commitments
  discount : ∀ members, (bid.get (str "offer")).get (str "discount") = .object members →
    declaredProvenanceSource (.object members) ≠ some sellerAsserted ∧
      ∀ entry ∈ members, entry.1 ≠ str "value" → Hooked entry.2

section Walls

/- No value but a text is spelled as the name of a hook. -/
variable (spelled : ∀ v : Wire F, (∀ s, v ≠ .string s) → trimmed (truth v) ∉ hookProvenanceSources)

include spelled

omit [DecidableEq F] [Unicode] [Format F] in
theorem attested_of_verdict {claim : Wire F} {label : Str} {addressable : Bool}
    {valueWalk : Option (List (Str × Str) × Bool × Bool)}
    (admitted : (sourceVerdict truth claim hostedPath label addressable valueWalk).1 = []) :
    Attested claim := by
  obtain ⟨mapping, hook⟩ := sourceVerdict_sourced truth admitted
  refine ⟨mapping, ?_⟩
  cases stated : (claim.get (str "provenance")).get (str "source") with
  | string source =>
      rw [stated] at hook
      exact ⟨source, rfl, hook⟩
  | _ =>
      rw [stated] at hook
      exact absurd hook (spelled _ nofun)

theorem walled_iff_enlisted {entry : BidEntry F} (kept : entry.fallback = false)
    (keyed : entry.bid.Keyed)
    (traced : provenanceRefusal text model truth clock entry.bid deadline = .ok [])
    (claimed : Wire.itemsOrNone (entry.bid.get (str "claims")) = .ok entry.claims) :
    Walled entry ↔ Enlisted entry.bid := by
  obtain ⟨claims, commitments, discount⟩ := provenanceRefusal_silent traced
  unfold Wire.itemsOrNone at claimed
  constructor
  · intro walled
    refine ⟨fun full => ?_, fun commitments stated => ?_, fun members stated => ?_⟩
    · have attested := walled.attested kept
      rw [if_pos full] at claimed
      cases stated : entry.bid.get (str "claims") with
      | array items => exact ⟨items, rfl⟩
      | object members =>
          rw [stated] at full claimed
          obtain claimed := Except.ok.inj claimed
          cases members with
          | nil => cases full
          | cons member members =>
              obtain ⟨⟨_, mapping⟩, -⟩ := attested (.string member.1) (claimed ▸ List.mem_cons_self)
              cases mapping
      | string s =>
          rw [stated] at full claimed
          obtain claimed := Except.ok.inj claimed
          cases s with
          | nil => cases full
          | cons c s =>
              obtain ⟨⟨_, mapping⟩, -⟩ := attested (.string [c]) (claimed ▸ List.mem_cons_self)
              cases mapping
      | _ =>
          rw [stated] at claimed
          cases claimed
    · have values := walled.commitments kept
      rw [stated] at values
      cases commitments with
      | array items => exact Or.inl ⟨items, rfl⟩
      | _ => exact Or.inr (values _ List.mem_cons_self)
    · have hooked := walled.discount kept
      rw [stated, hooked_object] at hooked
      exact ⟨hooked.1, fun entry held _ => hooked.2 entry held⟩
  · intro enlisted
    have listed : entry.claims = [] ∨ entry.bid.get (str "claims") = .array entry.claims := by
      by_cases full : Wire.truthy (entry.bid.get (str "claims")) = true
      · obtain ⟨items, list⟩ := enlisted.claims full
        rw [if_pos full, list] at claimed
        obtain rfl : items = entry.claims := Except.ok.inj claimed
        exact Or.inr list
      · rw [if_neg full] at claimed
        exact Or.inl (Except.ok.inj claimed).symm
    refine ⟨fun other => ?_, fun _ claim member => ?_, fun _ claim member => ?_,
      fun _ value member => ?_, fun _ => ?_⟩
    · rw [kept] at other
      cases other
    · rcases listed with none | list
      · rw [none] at member
        cases member
      · obtain ⟨label, admitted⟩ := claimProvenanceReasons_each truth (claims _ list) member
        exact attested_of_verdict spelled admitted
    · rcases listed with none | list
      · rw [none] at member
        cases member
      · exact claimProvenanceReasons_hosted truth (claims _ list) rfl claim member
    · cases stated : (entry.bid.get (str "offer")).get (str "commitments") with
      | array items =>
          rw [stated] at member
          obtain ⟨commitment, held, rfl⟩ := List.mem_map.mp member
          exact claimProvenanceReasons_hosted truth (commitments _ stated) rfl commitment held
      | _ =>
          rw [stated] at member
          obtain rfl := List.mem_singleton.mp member
          exact (enlisted.commitments _ stated).resolve_left nofun
    · by_cases absent : (entry.bid.get (str "offer")).get (str "discount") = .null
      · rw [absent]
        exact hooked_null
      · have admitted := discount absent
        have value := sourceVerdict_hosted truth rfl admitted
        obtain ⟨⟨members, stated⟩, -⟩ := sourceVerdict_sourced truth admitted
        obtain ⟨own, others⟩ := enlisted.discount members stated
        have distinct := ((keyed.get (str "offer")).get (str "discount"))
        rw [stated] at value distinct ⊢
        refine hooked_object.mpr ⟨own, fun member held => ?_⟩
        by_cases walked : member.1 = str "value"
        · have found : Dict.get? members (str "value") = some member.2 :=
            Dict.get?_of_mem distinct.distinct (walked ▸ held)
          rw [Json.get_object, found] at value
          exact value
        · exact others member held walked

end Walls

/-- The entries of a collection are walled exactly when every admitted bid is enlisted. -/
theorem collectBids_walled_iff (text : Wire F → Str) (model : Wire F → Option (List Str))
    (truth : Wire F → Str) (clock : DateTime) (roster : List (Rostered F))
    (responses : List (Response F)) (now : Extended F)
    (spelled : ∀ v : Wire F, (∀ s, v ≠ .string s) → trimmed (truth v) ∉ hookProvenanceSources)
    (keyed : ∀ response ∈ responses, response.bid.Keyed) (entries : List (BidEntry F))
    (made : collectBids text model truth clock roster responses now = .ok entries) :
    (∀ entry ∈ entries, Walled entry) ↔ ∀ rostered ∈ roster, ∀ answer,
      answerOf now rostered.storeId responses = some answer →
        Admits text model truth clock now rostered answer → Enlisted answer.bid := by
  obtain ⟨arrivals, auctionId, walked, made⟩ := collectBids_rows made
  have answers (storeId : Str) := (arrivals_get walked storeId).1
  have sent {storeId : Str} {answer : Response F}
      (found : answerOf now storeId responses = some answer) : answer.bid.Keyed :=
    keyed answer (List.mem_of_find?_eq_some found)
  obtain ⟨rows, made⟩ := mapM_members made
  constructor
  · intro walled rostered member answer found admits
    obtain ⟨entry, inside, entry_eq⟩ := made rostered member
    obtain ⟨-, -, -, ⟨kept, held, found', -, same, claimed⟩ | ⟨-, -, -, unmet⟩⟩ :=
      entryFor_cases entry_eq
    · obtain rfl := Option.some.inj (found.symm.trans ((answers _).symm.trans found'))
      have keyed := sent found
      have traced := admits.traced
      rw [← same] at claimed keyed traced ⊢
      exact (walled_iff_enlisted spelled kept keyed traced claimed).mp (walled entry inside)
    · exact absurd admits (unmet answer ((answers _).trans found))
  · intro enlisted entry inside
    obtain ⟨rostered, member, entry_eq⟩ := rows entry inside
    obtain ⟨-, -, -, ⟨kept, answer, found, admits, same, claimed⟩ | ⟨replaced, -, none, -⟩⟩ :=
      entryFor_cases entry_eq
    · have found := (answers _).symm.trans found
      have shape := enlisted rostered member answer found admits
      have keyed := sent found
      have traced := admits.traced
      rw [← same] at claimed shape keyed traced
      exact (walled_iff_enlisted spelled kept keyed traced claimed).mpr shape
    · refine ⟨fun _ => none, ?_, ?_, ?_, ?_⟩ <;>
        · intro kept
          rw [replaced] at kept
          cases kept

end Collected

/-! ## Claims that are no list -/

def claimingBid (claims : Wire Binary64) : Wire Binary64 :=
  .object [(str "offer", pricedOffer (.number (.integer 100))), (str "claims", claims)]

theorem claimingBid_keyed {claims : Wire Binary64} (keyed : claims.Keyed) :
    (claimingBid claims).Keyed := by
  have distinct : [str "offer", str "claims"].Nodup := by decide
  refine .object distinct ?_
  simp only [List.forall_mem_cons]
  refine ⟨.object (by decide) ?_, keyed, List.forall_mem_nil _⟩
  simp only [List.forall_mem_cons]
  exact ⟨.string _, .number _, .number _, List.forall_mem_nil _⟩

theorem answering_keyed {claims : Wire Binary64} (keyed : claims.Keyed) :
    ∀ response ∈ [answering (claimingBid claims)], response.bid.Keyed := by
  intro response sent
  rw [List.mem_singleton.mp sent]
  exact claimingBid_keyed keyed

/-- The name of a member stands among the claims of the entry. -/
theorem memberNames_pass_wall : letI := Unicode.ascii
    let responses := [answering (claimingBid (.object [(str "fabric", .bool true)]))]
    (∀ v : Wire Binary64, (∀ s, v ≠ .string s) → trimmed ((fun _ => []) v) ∉ hookProvenanceSources) ∧
      (∀ response ∈ responses, response.bid.Keyed) ∧
      ∃ entries, collectBids (fun _ => []) (fun _ => some []) (fun _ => []) epoch [listedRow]
          responses (.finite hundred) = .ok entries ∧
        ∃ entry ∈ entries, entry.fallback = false ∧ ∃ claim ∈ entry.claims, ¬ Attested claim := by
  let _ := Unicode.ascii
  have unspelled : trimmed [] ∉ hookProvenanceSources := by decide
  refine ⟨fun _ _ => unspelled, ?_, ?_⟩
  · exact answering_keyed (.object (by decide) (List.forall_mem_singleton.mpr (.bool _)))
  · obtain ⟨entry, made, own⟩ := single_of_read
      (f := fun entry : BidEntry Binary64 => (entry.fallback, entry.claims.map isMapping))
      (by decide +kernel : (collectBids (fun _ => []) (fun _ => some []) (fun _ => []) epoch [listedRow]
        [answering (claimingBid (.object [(str "fabric", .bool true)]))] (.finite hundred)).toOption.map
          (List.map _) = some [(false, [false])])
    obtain ⟨kept, claims⟩ := Prod.mk.inj own
    obtain ⟨claim, listed, other⟩ := List.map_eq_singleton_iff.mp claims
    refine ⟨[entry], made, entry, List.mem_cons_self, kept, claim, ?_, ?_⟩
    · rw [listed]
      exact List.mem_cons_self
    · rintro ⟨⟨members, rfl⟩, -⟩
      cases other

def networkClaim : Wire Binary64 :=
  .object [(str "provenance", .object [(str "source", .string (str "network"))])]

theorem networkClaim_walled : letI := Unicode.ascii
    let responses := [answering (claimingBid (.array [networkClaim]))]
    (∀ v : Wire Binary64, (∀ s, v ≠ .string s) → trimmed ((fun _ => []) v) ∉ hookProvenanceSources) ∧
      (∀ response ∈ responses, response.bid.Keyed) ∧
      ∃ entries, collectBids (fun _ => []) (fun _ => some []) (fun _ => []) epoch [listedRow]
          responses (.finite hundred) = .ok entries ∧
        ((∀ entry ∈ entries, Walled entry) ↔ ∀ rostered ∈ [listedRow], ∀ answer,
          answerOf (.finite hundred) rostered.storeId responses = some answer →
            Admits (fun _ => []) (fun _ => some []) (fun _ => []) epoch (.finite hundred) rostered
              answer → Enlisted answer.bid) := by
  let _ := Unicode.ascii
  have unspelled : trimmed [] ∉ hookProvenanceSources := by decide
  have spelled (v : Wire Binary64) (_ : ∀ s, v ≠ .string s) :
      trimmed ((fun _ => []) v) ∉ hookProvenanceSources := unspelled
  have keyed : ∀ response ∈ [answering (claimingBid (.array [networkClaim]))],
      response.bid.Keyed := by
    apply answering_keyed
    have source : Json.Keyed (.object [(str "source", .string (str "network"))] : Wire Binary64) :=
      .object (by decide) (List.forall_mem_singleton.mpr (.string _))
    have claim : networkClaim.Keyed := .object (by decide) (List.forall_mem_singleton.mpr source)
    exact .array (List.forall_mem_singleton.mpr claim)
  have returned : (collectBids (fun _ => []) (fun _ => some []) (fun _ => []) epoch [listedRow]
      [answering (claimingBid (.array [networkClaim]))] (.finite hundred)).isOk = true := by
    decide +kernel
  refine ⟨spelled, keyed, ?_⟩
  cases made : collectBids (fun _ => []) (fun _ => some []) (fun _ => []) epoch [listedRow]
      [answering (claimingBid (.array [networkClaim]))] (.finite hundred) with
  | error e =>
      rw [made] at returned
      cases returned
  | ok entries =>
      exact ⟨entries, rfl, collectBids_walled_iff _ _ _ epoch _ _ (.finite hundred) spelled keyed
        entries made⟩

end Proxyshop.Auction.Collect
