import Proxyshop.Auction.TrustBacked
import Proxyshop.Contracts.Wire
import Proxyshop.Ranking.TrustRow
import Proxyshop.Structures.Fallible

/-!
# One answer about a store

The eligibility source, the ranker and the bandit read the same row.
-/

/-!
## The bandit's starting state

A Beta posterior for every store and cluster, seeded from the rows of the trust snapshot.
-/

namespace Proxyshop.Policy

open Python Numbers Contracts Structures

structure Posterior (F : Type) where
  alpha : Extended F
  beta : Extended F

/-- The sets of stores are lists in the order of the stores. -/
structure BanditState (F : Type) where
  stores : List Str
  clusters : List Str
  posteriors : Dict Str (Dict Str (Posterior F))
  blacklisted : List Str
  lowData : List Str
  explorationFloor : Extended F
  draws : Int

section

variable {F : Type} [Format F]

def defaultDraws : Int := 512

def priorWeight : Extended F := 4.0

/-- `_clamp01`. -/
def clamp01 (value : Extended F) : Extended F :=
  if value < 0.0 then 0.0 else if 1.0 < value then 1.0 else value

/-- `_is_blacklisted`. -/
def isBlacklisted (record : Wire F) : Bool :=
  match record.get (str "blacklisted") with
  | .null => true
  | answer => Wire.truthy answer

variable [Unicode]

/-- `float(raw)`, or the default of an absent number. -/
def numberOr (default : Extended F) : Wire F → Except PyError (Extended F)
  | .null => .ok default
  | raw => Wire.toDouble raw

/-- `_prior`. -/
def prior (record : Wire F) : Except PyError (Posterior F) := do
  let score := clamp01 (← numberOr 0.5 (record.get (str "score")))
  let confidence := clamp01 (← numberOr 0.0 (record.get (str "confidence")))
  let weight := priorWeight * confidence
  return ⟨1.0 + weight * score, 1.0 + weight * (1.0 - score)⟩

/-- `_unique`. -/
def unique (values : List Str) : Except PyError (List Str) :=
  if values.Nodup ∧ values ≠ [] then .ok values else .error .valueError

def floorOf (config : Wire F) : Except PyError (Extended F) := do
  let floor ← numberOr 0.0 (config.get (str "exploration_floor"))
  if 0.0 ≤ floor ∧ floor ≤ 1.0 then return floor else throw .valueError

def drawsOf (config : Wire F) : Except PyError Int := do
  let draws ← match config.get (str "draws") with
    | .null => .ok defaultDraws
    | raw => Wire.toInt raw
  if draws < 1 then throw .valueError else return draws

/-- `initial_state`. -/
def initialState (stores clusters : List Str) (trustSnapshot : Dict Str (Wire F)) (config : Wire F) :
    Except PyError (BanditState F) := do
  let storeIds ← unique stores
  let clusterIds ← unique clusters
  let explorationFloor ← floorOf config
  let draws ← drawsOf config
  let record := fun storeId => (Dict.get? trustSnapshot storeId).getD .null
  let priors ← storeIds.mapM fun storeId => do return (storeId, ← prior (record storeId))
  return {
    stores := storeIds
    clusters := clusterIds
    posteriors := clusterIds.map fun clusterId => (clusterId, priors)
    blacklisted := storeIds.filter fun storeId => isBlacklisted (record storeId)
    lowData := storeIds.filter fun storeId => Wire.truthy ((record storeId).get (str "low_data"))
    explorationFloor
    draws }

structure Asked (stores clusters : List Str) (config : Wire F) : Prop where
  stores : stores.Nodup ∧ stores ≠ []
  clusters : clusters.Nodup ∧ clusters ≠ []
  floor : ∃ floor, floorOf config = .ok floor
  draws : ∃ draws, drawsOf config = .ok draws

omit [Unicode] in
theorem unique_eq_ok {values names : List Str} :
    unique values = .ok names ↔ (values.Nodup ∧ values ≠ []) ∧ names = values := by
  unfold unique
  split
  · simp [*, eq_comm]
  · simp [*]

variable {stores clusters : List Str} {trustSnapshot : Dict Str (Wire F)} {config : Wire F}

theorem initialState_returns (trustSnapshot : Dict Str (Wire F)) (asked : Asked stores clusters config) :
    (∃ state, initialState stores clusters trustSnapshot config = .ok state) ↔
      ∀ storeId ∈ stores, ∃ p, prior ((Dict.get? trustSnapshot storeId).getD .null) = .ok p := by
  obtain ⟨floor, floor_eq⟩ := asked.floor
  obtain ⟨draws, draws_eq⟩ := asked.draws
  have walked := @mapM_returns _ _ _ (fun storeId => do
    return (storeId, ← prior ((Dict.get? trustSnapshot storeId).getD .null))) stores
  simp only [bind_returns] at walked
  have named := unique_eq_ok.mpr ⟨asked.stores, rfl⟩
  have clustered := unique_eq_ok.mpr ⟨asked.clusters, rfl⟩
  simp only [initialState, named, clustered, floor_eq, draws_eq]
  have seeded := @bind_returns PyError (List (Str × Posterior F)) (BanditState F)
  refine seeded.trans ⟨?_, ?_⟩
  · rintro ⟨priors, read, -⟩ storeId member
    obtain ⟨p, read, -⟩ := walked.mp ⟨priors, read⟩ storeId member
    exact ⟨p, read⟩
  · intro reads
    obtain ⟨priors, read⟩ := walked.mpr fun storeId member =>
      ⟨(reads storeId member).choose, (reads storeId member).choose_spec, _, rfl⟩
    exact ⟨priors, read, _, rfl⟩

theorem initialState_eq_ok {state : BanditState F}
    (built : initialState stores clusters trustSnapshot config = .ok state) :
    state.stores = stores ∧
      (∀ storeId ∈ stores, ∃ p, prior ((Dict.get? trustSnapshot storeId).getD .null) = .ok p) ∧
      state.blacklisted
        = stores.filter (fun storeId => isBlacklisted ((Dict.get? trustSnapshot storeId).getD .null)) ∧
      state.lowData = stores.filter fun storeId =>
        Wire.truthy (((Dict.get? trustSnapshot storeId).getD .null).get (str "low_data")) := by
  obtain ⟨storeIds, named, built⟩ := bind_eq_ok.mp built
  rw [(unique_eq_ok.mp named).2] at built
  obtain ⟨clusterIds, -, built⟩ := bind_eq_ok.mp built
  obtain ⟨floor, -, built⟩ := bind_eq_ok.mp built
  obtain ⟨draws, -, built⟩ := bind_eq_ok.mp built
  obtain ⟨priors, walked, built⟩ := bind_eq_ok.mp built
  obtain rfl := Except.ok.inj built
  refine ⟨rfl, fun storeId member => ?_, rfl, rfl⟩
  obtain ⟨entry, read⟩ := mapM_returns.mp ⟨priors, walked⟩ storeId member
  obtain ⟨p, read, -⟩ := bind_eq_ok.mp read
  exact ⟨p, read⟩

end
end Proxyshop.Policy

namespace Proxyshop.Policy

open Python Numbers Contracts Structures Verification Auction Ranking

section

variable {F : Type} [Format F] [Spelling F] [Unicode]

omit [Format F] [Spelling F] [Unicode] in
/-- The rows of a document, for the readers that are handed them. -/
def rowsOf (document : Wire F) : Dict Str (Wire F) := (snapshotRows document).getD []

structure OneAnswer (described : Wire F → Str) (document : Wire F) (storeId : Str) : Prop where
  trust (source : Str) :
    (TrustBackedSellerEligibility.check described ⟨.ok document, source⟩ storeId).admits = true ↔
      (storeRow document storeId).get (str "blacklisted") = .bool false
  filters : blacklistReason storeId (.object (rowsOf document)) = none ↔
    (storeRow document storeId).get (str "blacklisted") = .bool false
  bandit {stores clusters : List Str} {config : Wire F} (asked : Asked stores clusters config)
    (roster : storeId ∈ stores) :
    (∃ state, initialState stores clusters (rowsOf document) config = .ok state ∧
        storeId ∉ state.blacklisted) ↔
      (storeRow document storeId).get (str "blacklisted") = .bool false
  layered (declared : Dict Str Str) (source layer : Str) (asked : Nat) :
    storeId ∉ Dict.keys declared → ∃ decision, LayeredSellerEligibility.check described
        ⟨declared, TrustBackedSellerEligibility.port described ⟨.ok document, source⟩, layer⟩ asked
        storeId = .ok decision ∧
      (decision.status = eligible ↔
        (storeRow document storeId).get (str "blacklisted") = .bool false)
  slot {summary : TrustSummary F} : trustSummary storeId (storeRow document storeId) = .ok summary →
    isLowData summary = true → (storeRow document storeId).get (str "low_data") = .bool true
  floor {stores clusters : List Str} {config : Wire F} {state : BanditState F} :
    Asked stores clusters config →
    initialState stores clusters (rowsOf document) config = .ok state → storeId ∈ state.lowData →
    (storeRow document storeId).get (str "low_data") = .bool true

def falsyFlag (flag : Wire F) : Bool :=
  !flag.isNull && !Wire.truthy flag && match flag with
    | .bool _ => false
    | _ => true

/-- The rows can be answered from: those of all stores when the store is not blacklisted, and the flags
of its own row otherwise. -/
structure Answerable (document : Wire F) (storeId : Str) : Prop where
  numbers : (storeRow document storeId).get (str "blacklisted") = .bool false →
    ∀ other, legibleRow (storeRow document other) = true
  blacklisted : legibleRow (storeRow document storeId) = true →
    falsyFlag ((storeRow document storeId).get (str "blacklisted")) = false
  lowData : legibleRow (storeRow document storeId) = true →
    Wire.truthy ((storeRow document storeId).get (str "low_data")) = true →
    (storeRow document storeId).get (str "low_data") = .bool true

omit [Format F] [Spelling F] [Unicode] in
theorem rowsOf_get? (document : Wire F) (storeId : Str) :
    (Dict.get? (rowsOf document) storeId).getD .null = storeRow document storeId := by
  unfold rowsOf storeRow
  cases snapshotRows document <;> rfl

omit [Spelling F] in
theorem isOk_stated (default : Extended F) (raw : Wire F) :
    (stated raw).isOk = true ↔ ∃ x, numberOr default raw = .ok x := by
  have taken (x : Except PyError (Extended F)) :
      (x >>= fun n => (.ok (some n) : Except PyError _)).isOk = true ↔ ∃ n, x = .ok n := by
    cases x with
    | error e => exact iff_of_false nofun nofun
    | ok n => exact iff_of_true rfl ⟨n, rfl⟩
  cases raw with
  | null => exact iff_of_true rfl ⟨default, rfl⟩
  | _ => exact taken _

omit [Spelling F] in
theorem prior_returns {row : Wire F} : (∃ p, prior row = .ok p) ↔ legibleRow row = true := by
  rw [legibleRow, Bool.and_eq_true, isOk_stated 0.5, isOk_stated 0.0]
  unfold prior
  rw [bind_returns]
  constructor
  · rintro ⟨score, read, rest⟩
    obtain ⟨confidence, more, -⟩ := bind_returns.mp rest
    exact ⟨⟨score, read⟩, confidence, more⟩
  · rintro ⟨⟨score, read⟩, confidence, more⟩
    exact ⟨score, read, bind_returns.mpr ⟨confidence, more, _, rfl⟩⟩

omit [Spelling F] [Unicode] in
theorem isBlacklisted_eq_false_iff {row : Wire F} : isBlacklisted row = false ↔
    row.get (str "blacklisted") = .bool false ∨ falsyFlag (row.get (str "blacklisted")) = true := by
  unfold isBlacklisted falsyFlag
  cases row.get (str "blacklisted") with
  | bool b => cases b <;> simp [Wire.truthy]
  | _ => simp [Json.isNull, Wire.truthy]

omit [Spelling F] in
theorem exposable_iff {stores clusters : List Str} {config document : Wire F} {storeId : Str}
    (asked : Asked stores clusters config) (roster : storeId ∈ stores) :
    (∃ state, initialState stores clusters (rowsOf document) config = .ok state ∧
        storeId ∉ state.blacklisted) ↔
      (∀ other ∈ stores, legibleRow (storeRow document other) = true) ∧
        isBlacklisted (storeRow document storeId) = false := by
  have returns := initialState_returns (rowsOf document) asked
  simp only [rowsOf_get?, prior_returns] at returns
  rw [← returns]
  constructor
  · rintro ⟨state, built, free⟩
    refine ⟨⟨state, built⟩, ?_⟩
    rw [(initialState_eq_ok built).2.2.1, List.mem_filter, rowsOf_get?] at free
    simpa [roster] using free
  · rintro ⟨⟨state, built⟩, free⟩
    refine ⟨state, built, ?_⟩
    rw [(initialState_eq_ok built).2.2.1, List.mem_filter, rowsOf_get?, free]
    exact fun h => Bool.noConfusion h.2

omit [Format F] [Unicode] in
theorem trustRow_rowsOf (document : Wire F) (storeId : Str) :
    trustRow storeId (.object (rowsOf document)) = storeRow document storeId := by
  rw [trustRow, rowsOf_get?]

end

/-! ## Doubles -/

section

variable [Spelling Binary64] [Unicode] {document : Wire Binary64} {storeId : Str}

omit [Spelling Binary64] in
theorem asked_roster {stores : List Str} (distinct : stores.Nodup) (inhabited : stores ≠ []) :
    Asked (F := Binary64) stores [[]] .null where
  stores := ⟨distinct, inhabited⟩
  clusters := ⟨List.nodup_singleton _, List.cons_ne_nil _ _⟩
  floor := by
    have bounds : (0.0 : Extended Binary64) ≤ 0.0 ∧ (0.0 : Extended Binary64) ≤ 1.0 := by decide +kernel
    exact ⟨0.0, (if_pos bounds : (if _ then _ else Except.error PyError.valueError) = .ok 0.0)⟩
  draws := ⟨defaultDraws, rfl⟩

theorem OneAnswer.answerable {described : Wire Binary64 → Str}
    (one : OneAnswer described document storeId) : Answerable document storeId where
  numbers free other := by
    have roster : storeId ∈ [storeId, other].dedup := List.mem_dedup.mpr List.mem_cons_self
    have asked := asked_roster (List.nodup_dedup [storeId, other]) (List.ne_nil_of_mem roster)
    have exposable := (exposable_iff asked roster).mp ((one.bandit asked roster).mpr free)
    exact exposable.1 other (List.mem_dedup.mpr (by simp))
  blacklisted legible := by
    by_contra falsy
    rw [Bool.not_eq_false] at falsy
    have roster : storeId ∈ [storeId] := List.mem_singleton_self _
    have asked := asked_roster (List.nodup_singleton storeId) (List.cons_ne_nil _ _)
    have own : ∀ other ∈ [storeId], legibleRow (storeRow document other) = true := by simpa using legible
    have exposable := (exposable_iff asked roster).mpr ⟨own, isBlacklisted_eq_false_iff.mpr (.inr falsy)⟩
    rw [(one.bandit asked roster).mp exposable] at falsy
    cases falsy
  lowData legible marked := by
    have roster : storeId ∈ [storeId] := List.mem_singleton_self _
    have asked := asked_roster (List.nodup_singleton storeId) (List.cons_ne_nil _ _)
    have returns := initialState_returns (rowsOf document) asked
    simp only [rowsOf_get?, prior_returns] at returns
    obtain ⟨state, built⟩ := returns.mpr (by simpa using legible)
    apply one.floor asked built
    rw [(initialState_eq_ok built).2.2.2, List.mem_filter, rowsOf_get?]
    exact ⟨roster, marked⟩

/-- The readers give one answer about a store exactly when its rows can be answered from. -/
theorem oneAnswer_iff (described : Wire Binary64 → Str) (document : Wire Binary64) (storeId : Str) :
    OneAnswer described document storeId ↔ Answerable document storeId := by
  constructor
  · exact OneAnswer.answerable
  · intro answerable
    have free_iff : isBlacklisted (storeRow document storeId) = false →
        legibleRow (storeRow document storeId) = true →
        (storeRow document storeId).get (str "blacklisted") = .bool false := by
      intro free legible
      rcases isBlacklisted_eq_false_iff.mp free with stated | falsy
      · exact stated
      · rw [answerable.blacklisted legible] at falsy
        cases falsy
    exact
      { trust := fun source => admits_check
        filters := by rw [blacklistReason_eq_none_iff, trustRow_rowsOf]
        bandit := by
          intro stores clusters config asked roster
          rw [exposable_iff asked roster]
          constructor
          · rintro ⟨legible, free⟩
            exact free_iff free (legible storeId roster)
          · intro stated
            exact ⟨fun other _ => answerable.numbers stated other,
              isBlacklisted_eq_false_iff.mpr (.inl stated)⟩
        layered := by
          intro declared source layer asked left
          obtain ⟨decision, read, -, status⟩ := check_of_defers
            ⟨.ok document, source⟩ layer left asked
          exact ⟨decision, read, status.trans admits_check⟩
        slot := by
          intro summary read low
          obtain ⟨legible, marked⟩ := isLowData_trustSummary read
          exact answerable.lowData legible (marked.mp low)
        floor := by
          intro stores clusters config state asked built low
          obtain ⟨-, legible, -, lowData⟩ := initialState_eq_ok built
          rw [lowData, List.mem_filter, rowsOf_get?] at low
          have own := legible storeId low.1
          rw [rowsOf_get?, prior_returns] at own
          exact answerable.lowData own low.2 }

end

/-- A flag of zero is unreadable to the gates, and a no to the bandit. -/
theorem zero_flag_exposed :
    letI : Spelling Binary64 := ⟨fun _ => [], fun _ => [], fun _ => []⟩
    letI : Unicode := Unicode.ascii
    ¬ OneAnswer (F := Binary64) (fun _ => [])
      (.object [(str "s", .object [(str "blacklisted", .number (.integer 0))])]) (str "s") := by
  let spelling : Spelling Binary64 := ⟨fun _ => [], fun _ => [], fun _ => []⟩
  let tables : Unicode := Unicode.ascii
  intro one
  have readable := one.answerable.blacklisted rfl
  exact absurd readable (by decide)

end Proxyshop.Policy
