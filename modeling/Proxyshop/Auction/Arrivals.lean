import Proxyshop.Auction.Collect
import Proxyshop.Structures.Fallible

/-!
# What arrived

The grouping of the responses, store by store: the first usable answer of a store and the reason of
its first unusable one. Both are read off the store's own responses.
-/

namespace Proxyshop.Auction.Collect

open Python Numbers Contracts Structures

variable {F : Type} [Format F] [Unicode]

/-! ## By store -/

def usable (deadline : Extended F) (response : Response F) : Bool :=
  match unusableBecause response deadline with
  | .ok none => true
  | _ => false

def unusableReason (deadline : Extended F) (response : Response F) : Option Str :=
  match unusableBecause response deadline with
  | .ok reason => reason
  | .error _ => none

def answerOf (deadline : Extended F) (storeId : Str) (responses : List (Response F)) :
    Option (Response F) :=
  responses.find? fun response => response.storeId = some storeId ∧ usable deadline response

/-- Why the first unusable response of a store was not usable. -/
def rejectionOf (deadline : Extended F) (storeId : Str) (responses : List (Response F)) : Option Str :=
  (responses.filter fun response => response.storeId = some storeId).findSome? (unusableReason deadline)

theorem answerOf_filter (deadline : Extended F) (storeId : Str) (responses : List (Response F)) :
    answerOf deadline storeId (responses.filter fun response => response.storeId = some storeId) =
      answerOf deadline storeId responses := by
  unfold answerOf
  rw [List.find?_filter]
  congr 1
  funext response
  by_cases own : response.storeId = some storeId <;> simp [own]

/-! ## The grouping -/

theorem arrive_returns {deadline : Extended F} (arrivals : Arrivals F) (response : Response F) :
    (∃ next, arrive deadline arrivals response = .ok next) ↔
      (response.storeId.isSome → ∃ reason, unusableBecause response deadline = .ok reason) := by
  unfold arrive
  cases response.storeId with
  | none => exact iff_of_true ⟨_, rfl⟩ nofun
  | some storeId =>
      simp only [bind_returns, Option.isSome_some, forall_const]
      constructor
      · rintro ⟨reason, read, -⟩
        exact ⟨reason, read⟩
      · rintro ⟨reason, read⟩
        refine ⟨reason, read, ?_⟩
        cases reason <;> exact ⟨_, rfl⟩

theorem arrive_spec {deadline : Extended F} {arrivals next : Arrivals F} {response : Response F}
    (step : arrive deadline arrivals response = .ok next) (storeId : Str) :
    Dict.get? next.onTime storeId =
        (Dict.get? arrivals.onTime storeId).or (answerOf deadline storeId [response]) ∧
      Dict.get? next.rejected storeId =
        (Dict.get? arrivals.rejected storeId).or (rejectionOf deadline storeId [response]) := by
  unfold arrive at step
  cases owner : response.storeId with
  | none =>
      rw [owner] at step
      obtain rfl := Except.ok.inj step
      simp [answerOf, rejectionOf, owner]
  | some other =>
      simp only [owner] at step
      obtain ⟨reason, read, step⟩ := bind_eq_ok.mp step
      by_cases own : other = storeId
      · subst own
        cases reason with
        | none =>
            obtain rfl := Except.ok.inj step
            have good : usable deadline response = true := by rw [usable, read]
            have silent : unusableReason deadline response = none := by rw [unusableReason, read]
            simp only [answerOf, rejectionOf, Dict.get?_setDefault]
            cases Dict.get? arrivals.onTime other <;> simp [silent, good, owner]
        | some why =>
            obtain rfl := Except.ok.inj step
            have bad : usable deadline response = false := by rw [usable, read]
            have stated : unusableReason deadline response = some why := by rw [unusableReason, read]
            simp only [answerOf, rejectionOf, Dict.get?_setDefault]
            cases Dict.get? arrivals.rejected other <;> simp [stated, bad, owner]
      · have apart : response.storeId ≠ some storeId := by
          rw [owner]
          exact fun same => own (Option.some.inj same)
        have away : storeId ≠ other := Ne.symm own
        cases reason <;> obtain rfl := Except.ok.inj step <;>
          simp [answerOf, rejectionOf, apart, away, Dict.get?_setDefault]

theorem arrivals_spec {deadline : Extended F} {responses : List (Response F)}
    {arrivals final : Arrivals F} (walked : responses.foldlM (arrive deadline) arrivals = .ok final)
    (storeId : Str) :
    Dict.get? final.onTime storeId =
        (Dict.get? arrivals.onTime storeId).or (answerOf deadline storeId responses) ∧
      Dict.get? final.rejected storeId =
        (Dict.get? arrivals.rejected storeId).or (rejectionOf deadline storeId responses) := by
  induction responses generalizing arrivals with
  | nil =>
      obtain rfl := Except.ok.inj walked
      simp [answerOf, rejectionOf]
  | cons response responses ih =>
      rw [List.foldlM_cons] at walked
      obtain ⟨next, step, walked⟩ := bind_eq_ok.mp walked
      obtain ⟨answered, rejected⟩ := arrive_spec step storeId
      obtain ⟨later, laterRejected⟩ := ih walked
      have one : answerOf deadline storeId (response :: responses) =
          (answerOf deadline storeId [response]).or (answerOf deadline storeId responses) := by
        unfold answerOf
        rw [← List.singleton_append, List.find?_append]
      have oneRejected : rejectionOf deadline storeId (response :: responses) =
          (rejectionOf deadline storeId [response]).or (rejectionOf deadline storeId responses) := by
        unfold rejectionOf
        rw [← List.singleton_append, List.filter_append, List.findSome?_append]
      rw [later, laterRejected, answered, rejected, one, oneRejected, Option.or_assoc,
        Option.or_assoc]
      exact ⟨rfl, rfl⟩

theorem arrivals_get {deadline : Extended F} {responses : List (Response F)} {final : Arrivals F}
    (walked : responses.foldlM (arrive deadline) ⟨[], []⟩ = .ok final) (storeId : Str) :
    Dict.get? final.onTime storeId = answerOf deadline storeId responses ∧
      Dict.get? final.rejected storeId = rejectionOf deadline storeId responses := by
  obtain ⟨answered, rejected⟩ := arrivals_spec walked storeId
  rw [answered, rejected]
  exact ⟨rfl, rfl⟩

theorem arrivals_returns {deadline : Extended F} {responses : List (Response F)}
    {arrivals : Arrivals F} : (∃ final, responses.foldlM (arrive deadline) arrivals = .ok final) ↔
      ∀ response ∈ responses, response.storeId.isSome →
        ∃ reason, unusableBecause response deadline = .ok reason :=
  foldlM_returns arrive_returns arrivals

omit [Unicode] in
theorem nodup_setDefault {V : Type} {d : Dict Str V} (distinct : (Dict.keys d).Nodup) (k : Str)
    (v : V) : (Dict.keys (Dict.setDefault d k v)).Nodup := by
  rw [Dict.setDefault_eq]
  split
  · exact distinct
  · exact Dict.nodup_keys_set distinct k v

theorem arrivals_distinct {deadline : Extended F} {responses : List (Response F)}
    {arrivals final : Arrivals F} (walked : responses.foldlM (arrive deadline) arrivals = .ok final)
    (distinct : (Dict.keys arrivals.onTime).Nodup) : (Dict.keys final.onTime).Nodup := by
  induction responses generalizing arrivals with
  | nil =>
      obtain rfl := Except.ok.inj walked
      exact distinct
  | cons response responses ih =>
      rw [List.foldlM_cons] at walked
      obtain ⟨next, step, walked⟩ := bind_eq_ok.mp walked
      apply ih walked
      unfold arrive at step
      split at step
      · obtain rfl := Except.ok.inj step
        exact distinct
      · obtain ⟨reason, -, step⟩ := bind_eq_ok.mp step
        cases reason
        · obtain rfl := Except.ok.inj step
          exact nodup_setDefault distinct _ _
        · obtain rfl := Except.ok.inj step
          exact distinct

theorem mem_onTime {deadline : Extended F} {responses : List (Response F)} {final : Arrivals F}
    (walked : responses.foldlM (arrive deadline) ⟨[], []⟩ = .ok final) {answer : Response F} :
    answer ∈ Dict.values final.onTime ↔ ∃ storeId, answerOf deadline storeId responses = some answer := by
  have distinct := arrivals_distinct walked List.nodup_nil
  constructor
  · intro member
    obtain ⟨⟨storeId, _⟩, inside, rfl⟩ := List.mem_map.mp member
    exact ⟨storeId, (arrivals_get walked storeId).1.symm.trans (Dict.get?_of_mem distinct inside)⟩
  · rintro ⟨storeId, found⟩
    rw [← (arrivals_get walked storeId).1] at found
    exact List.mem_map.mpr ⟨_, Dict.mem_of_get? found, rfl⟩

end Proxyshop.Auction.Collect

/-!
## The entry of a row

What the entry of a row is, by what becomes of the answer of its store.
-/

namespace Proxyshop.Auction.Collect

open Python Numbers Contracts Structures

variable {F : Type} [Format F] [Unicode] [DecidableEq F] {text : Wire F → Str}
  {model : Wire F → Option (List Str)} {truth : Wire F → Str} {clock : DateTime}
  {deadline : Extended F} {arrivals : Arrivals F} {auctionId : Option Str} {rostered : Rostered F}
  {t : Int}

variable (text model truth clock deadline) in
theorem outcome_unanswered (unanswered : t ≤ 0 ∨ Dict.get? arrivals.onTime rostered.storeId = none) :
    ∃ reason, outcome text model truth clock deadline arrivals rostered t =
      .ok (.fallback reason [] []) := by
  unfold outcome
  split
  · exact ⟨_, rfl⟩
  · rename_i positive
    rw [unanswered.resolve_left positive]
    exact ⟨_, rfl⟩

theorem outcome_answered {answer : Response F} (positive : 0 < t)
    (found : Dict.get? arrivals.onTime rostered.storeId = some answer) {o : Outcome F} :
    outcome text model truth clock deadline arrivals rostered t = .ok o ↔
      ∃ refused, priceRefusal text answer.bid rostered = .ok refused ∧
        ((refused ≠ [] ∧ o = .fallback unreconcilablePriceReason refused []) ∨
          (refused = [] ∧ ∃ unprovenanced,
            provenanceRefusal text model truth clock answer.bid deadline = .ok unprovenanced ∧
            ((unprovenanced ≠ [] ∧ o = .fallback unprovenancedClaimReason [] unprovenanced) ∨
              (unprovenanced = [] ∧ o = .bid answer)))) := by
  unfold outcome
  rw [if_neg (not_le.mpr positive), found]
  simp only [bind_eq_ok]
  apply exists_congr
  intro refused
  apply and_congr_right
  intro _
  cases refused with
  | cons reason refused =>
      simp only [ne_eq, reduceCtorEq, not_false_eq_true, true_and, false_and, or_false]
      exact ⟨fun read => (Except.ok.inj read).symm, fun same => same ▸ rfl⟩
  | nil =>
      simp only [ne_eq, not_true_eq_false, false_and, true_and, false_or]
      show provenanceRefusal text model truth clock answer.bid deadline >>= _ = .ok o ↔ _
      rw [bind_eq_ok]
      apply exists_congr
      intro unprovenanced
      apply and_congr_right
      intro _
      cases unprovenanced with
      | cons reason unprovenanced =>
          simp only [reduceCtorEq, not_false_eq_true, true_and, false_and, or_false]
          exact ⟨fun read => (Except.ok.inj read).symm, fun same => same ▸ rfl⟩
      | nil =>
          simp only [not_true_eq_false, false_and, true_and, false_or]
          exact ⟨fun read => (Except.ok.inj read).symm, fun same => same ▸ rfl⟩

variable (text model truth clock deadline) in
structure Admits (rostered : Rostered F) (answer : Response F) : Prop where
  tiered : ∃ t, tier rostered = .ok t ∧ 0 < t
  priced : priceRefusal text answer.bid rostered = .ok []
  traced : provenanceRefusal text model truth clock answer.bid deadline = .ok []

theorem outcome_cases {o : Outcome F} (tier_eq : tier rostered = .ok t)
    (outcome_eq : outcome text model truth clock deadline arrivals rostered t = .ok o) :
    (∃ answer, o = .bid answer ∧ Dict.get? arrivals.onTime rostered.storeId = some answer ∧
        Admits text model truth clock deadline rostered answer) ∨
      ((∃ reason prices boundary, o = .fallback reason prices boundary) ∧
        ∀ answer, Dict.get? arrivals.onTime rostered.storeId = some answer →
          ¬ Admits text model truth clock deadline rostered answer) := by
  rcases le_or_gt t 0 with idle | positive
  · right
    obtain ⟨reason, other⟩ := outcome_unanswered text model truth clock deadline
      (Or.inl idle : t ≤ 0 ∨ Dict.get? arrivals.onTime rostered.storeId = none)
    refine ⟨⟨reason, [], [], Except.ok.inj (outcome_eq.symm.trans other)⟩, fun answer _ admits => ?_⟩
    obtain ⟨t', tier_eq', positive⟩ := admits.tiered
    obtain rfl := Except.ok.inj (tier_eq.symm.trans tier_eq')
    exact absurd idle (not_le.mpr positive)
  · cases found : Dict.get? arrivals.onTime rostered.storeId with
    | none =>
        right
        obtain ⟨reason, other⟩ := outcome_unanswered text model truth clock deadline
          (Or.inr found : t ≤ 0 ∨ Dict.get? arrivals.onTime rostered.storeId = none)
        exact ⟨⟨reason, [], [], Except.ok.inj (outcome_eq.symm.trans other)⟩, nofun⟩
    | some held =>
        obtain ⟨refused, priced, ⟨refuses, rfl⟩ | ⟨rfl, unprovenanced, traced, ⟨refuses, rfl⟩ |
          ⟨rfl, rfl⟩⟩⟩ := (outcome_answered positive found).mp outcome_eq
        · right
          refine ⟨⟨_, _, _, rfl⟩, fun answer same admits => refuses ?_⟩
          obtain rfl := Option.some.inj same
          exact Except.ok.inj (priced.symm.trans admits.priced)
        · right
          refine ⟨⟨_, _, _, rfl⟩, fun answer same admits => refuses ?_⟩
          obtain rfl := Option.some.inj same
          exact Except.ok.inj (traced.symm.trans admits.traced)
        · exact Or.inl ⟨held, rfl, rfl, ⟨t, tier_eq, positive⟩, priced, traced⟩

theorem entryFor_cases {entry : BidEntry F}
    (made : entryFor text model truth clock deadline arrivals auctionId rostered = .ok entry) :
    entry.storeId = rostered.storeId ∧ tier rostered = .ok entry.tier ∧
      listedPrice rostered = .ok entry.listPrice ∧
      ((entry.fallback = false ∧ ∃ answer,
          Dict.get? arrivals.onTime rostered.storeId = some answer ∧
            Admits text model truth clock deadline rostered answer ∧ entry.bid = answer.bid ∧
            Wire.itemsOrNone (answer.bid.get (str "claims")) = .ok entry.claims) ∨
        (entry.fallback = true ∧ listPriceBid rostered auctionId deadline = .ok entry.bid ∧
          entry.claims = [] ∧
          ∀ answer, Dict.get? arrivals.onTime rostered.storeId = some answer →
            ¬ Admits text model truth clock deadline rostered answer)) := by
  unfold entryFor at made
  obtain ⟨t, tier_eq, made⟩ := bind_eq_ok.mp made
  obtain ⟨o, outcome_eq, made⟩ := bind_eq_ok.mp made
  obtain ⟨listPrice, listed_eq, made⟩ := bind_eq_ok.mp made
  obtain ⟨answer, rfl, found, admits⟩ | ⟨⟨_, _, _, rfl⟩, unmet⟩ := outcome_cases tier_eq outcome_eq
  · obtain ⟨receivedAt, _, made⟩ := bind_eq_ok.mp made
    obtain ⟨claims, claims_eq, made⟩ := bind_eq_ok.mp made
    obtain rfl := Except.ok.inj made
    exact ⟨rfl, tier_eq, listed_eq, Or.inl ⟨rfl, answer, found, admits, rfl, claims_eq⟩⟩
  · obtain ⟨bid, bid_eq, made⟩ := bind_eq_ok.mp made
    obtain rfl := Except.ok.inj made
    exact ⟨rfl, tier_eq, listed_eq, Or.inr ⟨rfl, bid_eq, rfl, unmet⟩⟩

theorem collectBids_rows {roster : List (Rostered F)} {responses : List (Response F)}
    {now : Extended F} {entries : List (BidEntry F)}
    (made : collectBids text model truth clock roster responses now = .ok entries) :
    ∃ arrivals auctionId, responses.foldlM (arrive now) ⟨[], []⟩ = .ok arrivals ∧
      roster.mapM (entryFor text model truth clock now arrivals auctionId) = .ok entries := by
  obtain ⟨arrivals, walked, made⟩ := bind_eq_ok.mp made
  obtain ⟨named, -, made⟩ := bind_eq_ok.mp made
  exact ⟨arrivals, agreed named, walked, made⟩

end Proxyshop.Auction.Collect
