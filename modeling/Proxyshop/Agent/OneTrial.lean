import Mathlib.Logic.Relation
import Proxyshop.Agent.Runner
import Proxyshop.Structures.Fallible

/-!
# One impression, one trial

A runner answers auctions and takes in trust events in any order. The episode keeps beside it which
impressions were folded and what the usable attributions reported.
-/

namespace Proxyshop.Agent

open Python Numbers Contracts Learning Verification Structures

/-! ## Records -/

def trialOf {F : Type} : Except PyError (ArmCredit F) → List (Str × Bool)
  | .ok credit =>
      match credit.reason, credit.won with
      | .impression, some won => [(credit.auctionId, won)]
      | _, _ => []
  | .error _ => []

namespace Runner

section Records

variable {F : Type} [Format F] [Unicode] [Spelling F] [DecidableEq F] {r : Runner F}
  {event : TrustEventPayload F}

def Creditable (r : Runner F) (auctionId : Str) : Prop :=
  r.learning ≠ none ∧ Dict.contains r.played auctionId = true ∧ Dict.contains r.credited auctionId = false

/-- The outcome row that the event is to be folded as, if any. -/
def rowOf (r : Runner F) (event : TrustEventPayload F) (arm : Arm F) : ImpressionReading F → Option (Wire F)
  | .usable outcome =>
      if Dict.contains r.credited event.auction then none
      else some (outcomeRow (arm.atDepth outcome.depth) r.storeId outcome.won .attribution)
  | .refused _ =>
      (verdict event.delta).map fun won => outcomeRow (arm.atDepth arm.depth) r.storeId won .trustEvent

/-- The attribution of the event can be read, and the row that it is folded as can be counted. -/
def Absorbs (r : Runner F) (event : TrustEventPayload F) : Prop :=
  ∃ reading, r.reading event = .ok reading ∧
    ∀ state arm row, r.learning = some state → Dict.get? r.played event.auction = some arm →
      r.rowOf event arm reading = some row → ∃ learned, state.update [row] = .ok learned

omit [Format F] [Unicode] [Spelling F] [DecidableEq F] in
theorem accept_eq_ok {pushed : Option (TrustEventPayload F)} :
    r.accept pushed = .ok event ↔ pushed = some event ∧ event.storeId = r.storeId ∧ event.delta.isFinite := by
  cases pushed with
  | none => exact ⟨nofun, nofun⟩
  | some sent =>
      rw [accept, Option.some.injEq]
      constructor
      · intro accepted
        split at accepted
        · split at accepted
          · cases accepted
            exact ⟨rfl, ‹_›, ‹_›⟩
          · cases accepted
        · cases accepted
      · rintro ⟨rfl, own, finite⟩
        rw [if_pos own, if_pos finite]

theorem trialOf_credit : trialOf (r.credit event).1 = [] ∨ ∃ outcome,
    r.reading event = .ok (.usable outcome) ∧ r.Creditable event.auction ∧
      trialOf (r.credit event).1 = [(event.auction, outcome.won)] := by
  unfold credit
  cases read : r.reading event with
  | error e => exact .inl rfl
  | ok reading =>
      cases learned : r.learning with
      | none => exact .inl rfl
      | some state =>
          cases remembered : Dict.get? r.played event.auction with
          | none => exact .inl rfl
          | some arm =>
              have known : Dict.contains r.played event.auction = true := by
                rw [Dict.contains, remembered]
                rfl
              dsimp only
              cases reading with
              | refused reason =>
                  rw [creditArm]
                  cases verdict event.delta with
                  | none => exact .inl rfl
                  | some won =>
                      dsimp only [fold]
                      split <;> exact .inl rfl
              | usable outcome =>
                  rw [creditArm]
                  split
                  · exact .inl rfl
                  · rename_i uncredited
                    dsimp only [fold]
                    split
                    · exact .inl rfl
                    · refine .inr ⟨outcome, rfl, ⟨?_, known, Bool.eq_false_of_not_eq_true uncredited⟩, rfl⟩
                      rw [learned]
                      exact Option.some_ne_none state

theorem credit_returns (absorbs : r.Absorbs event) : ∃ credit, (r.credit event).1 = .ok credit := by
  obtain ⟨reading, read, counted⟩ := absorbs
  unfold credit
  rw [read]
  dsimp only
  cases learned : r.learning with
  | none => exact ⟨_, rfl⟩
  | some state =>
      cases remembered : Dict.get? r.played event.auction with
      | none => exact ⟨_, rfl⟩
      | some arm =>
          have counts := counted state arm
          dsimp only
          cases reading with
          | refused reason =>
              rw [creditArm]
              cases judged : verdict event.delta with
              | none => exact ⟨_, rfl⟩
              | some won =>
                  obtain ⟨learned', update⟩ := counts _ learned remembered (by rw [rowOf, judged, Option.map_some])
                  dsimp only [fold]
                  rw [update]
                  exact ⟨_, rfl⟩
          | usable outcome =>
              rw [creditArm]
              split
              · exact ⟨_, rfl⟩
              · rename_i uncredited
                obtain ⟨learned', update⟩ := counts _ learned remembered (by rw [rowOf, if_neg uncredited])
                dsimp only [fold, mark]
                rw [update]
                exact ⟨_, rfl⟩

end Records
end Runner

/-! ## Episodes -/

/-- A runner, the impressions that were folded with their outcomes, and the usable attributions that
were taken in with what they reported. -/
structure Episode (F : Type) where
  runner : Runner F
  trials : List (Str × Bool)
  reports : List (Str × Bool)

namespace Episode

section Episodes

variable {F : Type} [Format F] [Unicode] [Spelling F] [DecidableEq F]

omit [DecidableEq F] in
def reportOf (r : Runner F) (event : TrustEventPayload F) : List (Str × Bool) :=
  match r.reading event with
  | .ok (.usable outcome) => [(event.auction, outcome.won)]
  | _ => []

def absorb (h : Episode F) (event : TrustEventPayload F) : Except PyError (ArmCredit F) × Episode F :=
  let done := h.runner.record event
  (done.1,
    { runner := done.2
      trials := h.trials ++ trialOf done.1
      reports := h.reports ++ reportOf h.runner event })

def absorbAll : Episode F → List (TrustEventPayload F) → Except PyError Unit × Episode F
  | h, [] => (.ok (), h)
  | h, event :: events =>
      match h.absorb event with
      | (.error e, h') => (.error e, h')
      | (.ok _, h') => absorbAll h' events

inductive Action (F : Type)
  | run (request : Wire F)
  | ingest (pushed : Option (TrustEventPayload F))
  | ingestTrustEvents (pushed : List (Option (TrustEventPayload F)))
  | edit (context : Exposed F)

variable (A : Type) [Sampling F] [Bidding F A]

def act (h : Episode F) : Action F → Episode F
  | .run request => { h with runner := (h.runner.answer A request).2 }
  | .ingest pushed =>
      match h.runner.accept pushed with
      | .error _ => h
      | .ok event => (h.absorb event).2
  | .ingestTrustEvents pushed =>
      match pushed.mapM h.runner.accept with
      | .error _ => h
      | .ok events => (h.absorbAll events).2
  | .edit context => { h with runner := { h.runner with context } }

end Episodes

/-! ## The claim of an episode -/

section Claims

variable {F : Type} [Format F] [Unicode] [Spelling F] [DecidableEq F]

/-- No impression is folded twice, and it is folded as a win if some attribution of it reported one. -/
structure OneTrial (h : Episode F) : Prop where
  once : (h.trials.map Prod.fst).Nodup
  won : ∀ auctionId won, (auctionId, won) ∈ h.trials → (won = true ↔ (auctionId, true) ∈ h.reports)

def AllOrNothing (r : Runner F) (pushed : List (Option (TrustEventPayload F))) : Prop :=
  (∃ events : List (TrustEventPayload F), pushed = events.map some ∧
    r.ingestTrustEvents pushed = (.ok (), events.foldl (fun r event => (r.record event).2) r)) ∨
  ∃ e, r.ingestTrustEvents pushed = (.error e, r)

/-- A usable attribution folds no impression a second time and none as a loss that was reported
converted, and reports no conversion of one that was folded as a loss. -/
structure Fit (h : Episode F) (event : TrustEventPayload F) : Prop where
  once : ∀ outcome, h.runner.reading event = .ok (.usable outcome) → h.runner.Creditable event.auction →
    event.auction ∉ h.trials.map Prod.fst
  early : ∀ outcome, h.runner.reading event = .ok (.usable outcome) → h.runner.Creditable event.auction →
    outcome.won = false → (event.auction, true) ∉ h.reports
  late : ∀ outcome, h.runner.reading event = .ok (.usable outcome) → outcome.won = true →
    (event.auction, false) ∉ h.trials

/-- Every event of the batch fits and can be absorbed where it is recorded. -/
def AllFit : Episode F → List (TrustEventPayload F) → Prop
  | _, [] => True
  | h, event :: events => h.Fit event ∧ h.runner.Absorbs event ∧ AllFit (h.absorb event).2 events

def Meets (h : Episode F) : Action F → Prop
  | .ingest pushed => ∀ event, h.runner.accept pushed = .ok event → h.Fit event
  | .ingestTrustEvents pushed => ∀ events, pushed.mapM h.runner.accept = .ok events → h.AllFit events
  | _ => True

def begun (context : Exposed F) (storeId : Str) (mode : Merchant.Activation)
    (learning : Option (StoreLearningState F)) : Episode F :=
  ⟨.initial context storeId mode learning, [], []⟩

variable {h : Episode F} {event : TrustEventPayload F}

omit [Format F] [Unicode] [Spelling F] [DecidableEq F] in
theorem OneTrial.report (one : OneTrial h) {auctionId : Str} {reported : Bool}
    (late : reported = true → (auctionId, false) ∉ h.trials) {won : Bool} {other : Str}
    (folded : (other, won) ∈ h.trials) : won = true ↔ (other, true) ∈ h.reports ++ [(auctionId, reported)] := by
  rw [List.mem_append, List.mem_singleton, ← one.won other won folded, Prod.mk.injEq]
  constructor
  · exact .inl
  · rintro (won | ⟨rfl, rfl⟩)
    · exact won
    · cases won with
      | true => rfl
      | false => exact absurd folded (late rfl)

theorem OneTrial.absorb (one : OneTrial h) (fit : h.Fit event) : OneTrial (h.absorb event).2 := by
  rcases @Runner.trialOf_credit F _ _ _ _ (h.runner.posture event) event with none | ⟨outcome, read, creditable, one_more⟩
  · have kept : (h.absorb event).2.trials = h.trials :=
      (congrArg (h.trials ++ ·) none).trans (List.append_nil _)
    refine ⟨by rw [kept]; exact one.once, fun auctionId won folded => ?_⟩
    rw [kept] at folded
    show won = true ↔ _ ∈ h.reports ++ reportOf h.runner event
    rw [reportOf]
    split
    · rename_i outcome read
      exact one.report (fit.late outcome read) folded
    · rw [List.append_nil]
      exact one.won auctionId won folded
  · have trials : (h.absorb event).2.trials = h.trials ++ [(event.auction, outcome.won)] :=
      congrArg (h.trials ++ ·) one_more
    have reports : (h.absorb event).2.reports = h.reports ++ [(event.auction, outcome.won)] := by
      show h.reports ++ reportOf h.runner event = _
      rw [reportOf, show h.runner.reading event = .ok (.usable outcome) from read]
    have unfolded := fit.once outcome read creditable
    constructor
    · rw [trials, List.map_append, List.nodup_append]
      refine ⟨one.once, List.nodup_singleton _, ?_⟩
      rintro a earlier b later rfl
      rw [List.map_singleton, List.mem_singleton] at later
      rw [later] at earlier
      exact unfolded earlier
    · intro auctionId won folded
      rw [reports]
      rw [trials, List.mem_append, List.mem_singleton] at folded
      rcases folded with earlier | same
      · exact one.report (fit.late outcome read) earlier
      · cases same
        rw [List.mem_append, List.mem_singleton, Prod.mk.injEq]
        constructor
        · exact fun won => .inr ⟨rfl, won.symm⟩
        · rintro (reported | ⟨-, won⟩)
          · by_contra lost
            exact fit.early outcome read creditable (Bool.eq_false_of_not_eq_true lost) reported
          · exact won.symm

theorem OneTrial.absorbAll {events : List (TrustEventPayload F)} (one : OneTrial h)
    (fit : h.AllFit events) : OneTrial (h.absorbAll events).2 := by
  induction events generalizing h with
  | nil => exact one
  | cons event events ih =>
      obtain ⟨fits, -, rest⟩ := fit
      have next := one.absorb fits
      rw [Episode.absorbAll]
      split
      · rename_i raised
        rw [raised] at next
        exact next
      · rename_i absorbed
        rw [absorbed] at next rest
        exact ih next rest

theorem absorbAll_runner (h : Episode F) (events : List (TrustEventPayload F)) :
    ((h.absorbAll events).1, (h.absorbAll events).2.runner) = h.runner.recordAll events := by
  induction events generalizing h with
  | nil => rfl
  | cons event events ih =>
      have same : (h.absorb event).1 = (h.runner.record event).1 := rfl
      have next : (h.absorb event).2.runner = (h.runner.record event).2 := rfl
      rw [Episode.absorbAll, Runner.recordAll]
      generalize h.absorb event = absorbed at same next
      generalize h.runner.record event = recorded at same next
      obtain ⟨result, h'⟩ := absorbed
      obtain ⟨result', r'⟩ := recorded
      cases same
      cases next
      cases result with
      | error e => rfl
      | ok credit => exact ih h'

theorem recordAll_of_fit {events : List (TrustEventPayload F)} (fit : h.AllFit events) :
    h.runner.recordAll events
      = (.ok (), events.foldl (fun r event => (r.record event).2) h.runner) := by
  induction events generalizing h with
  | nil => rfl
  | cons event events ih =>
      obtain ⟨-, absorbs, rest⟩ := fit
      have absorbs' : (h.runner.posture event).Absorbs event := absorbs
      obtain ⟨credit, returned⟩ := Runner.credit_returns absorbs'
      have recorded : h.runner.record event = (.ok credit, (h.runner.record event).2) :=
        Prod.ext returned rfl
      rw [Runner.recordAll, recorded]
      exact ih rest

theorem allOrNothing_of_meets {pushed : List (Option (TrustEventPayload F))}
    (meets : h.Meets (.ingestTrustEvents pushed)) : AllOrNothing h.runner pushed := by
  unfold AllOrNothing Runner.ingestTrustEvents
  cases accepted : pushed.mapM h.runner.accept with
  | error e => exact .inr ⟨e, rfl⟩
  | ok events =>
      refine .inl ⟨events, ?_, recordAll_of_fit (meets events accepted)⟩
      have paired : List.Forall₂ Eq pushed (events.map some) :=
        List.forall₂_map_right_iff.mpr
          ((mapM_eq_ok.mp accepted).imp fun _ _ taken => (Runner.accept_eq_ok.mp taken).1)
      rwa [List.forall₂_eq_eq_eq] at paired

def Foreign (r : Runner F) (event : TrustEventPayload F) : Prop :=
  event.storeId ≠ r.storeId ∨ event.delta.isFinite = false

theorem ingest_foreign {r : Runner F} (foreign : Foreign r event) :
    ∃ e, r.ingest (some event) = (.error e, r) := by
  unfold Runner.ingest
  split
  · exact ⟨_, rfl⟩
  · rename_i taken accepted
    obtain ⟨same, own, finite⟩ := Runner.accept_eq_ok.mp accepted
    cases same
    rcases foreign with other | infinite
    · exact absurd own other
    · rw [infinite] at finite
      cases finite

theorem ingestTrustEvents_foreign {r : Runner F} {pushed : List (Option (TrustEventPayload F))}
    (foreign : Foreign r event) (inside : some event ∈ pushed) :
    ∃ e, r.ingestTrustEvents pushed = (.error e, r) := by
  unfold Runner.ingestTrustEvents
  split
  · exact ⟨_, rfl⟩
  · rename_i events accepted
    obtain ⟨taken, -, accepted⟩ := (mapM_members accepted).2 _ inside
    obtain ⟨same, own, finite⟩ := Runner.accept_eq_ok.mp accepted
    cases same
    rcases foreign with other | infinite
    · exact absurd own other
    · rw [infinite] at finite
      cases finite

section Runs

variable (A : Type) [Sampling F] [Bidding F A]

def MetStep (h h' : Episode F) : Prop := ∃ action, h.Meets action ∧ h' = h.act A action

theorem OneTrial.act {action : Action F} (one : OneTrial h) (meets : h.Meets action) :
    OneTrial (h.act A action) := by
  cases action with
  | run request => exact ⟨one.once, one.won⟩
  | edit context => exact ⟨one.once, one.won⟩
  | ingest pushed =>
      rw [Episode.act]
      split
      · exact one
      · rename_i event accepted
        exact one.absorb (meets event accepted)
  | ingestTrustEvents pushed =>
      rw [Episode.act]
      split
      · exact one
      · rename_i events accepted
        exact one.absorbAll (meets events accepted)

end Runs

end Claims

/-! ## A sale, and two ways to lose it -/

section Sales

@[reducible] def coldSampling : Sampling Binary64 where
  sampleArm _ clusterId _ _ := .ok (coldArm clusterId)
  policyForAuction _ _ _ _ := .ok .null

@[reducible] def soleAuction : Bidding Binary64 Unit where
  bid _ _ := .ok ()
  auctionId _ := str "auction-1"
  storeId _ := str "store-1"

def newcomer : Episode Binary64 :=
  begun (.plain (.object [(str "envelope", .object [])])) (str "store-1") .shadow
    (some (initialState ⟨[], 0⟩ (some (str "store-1")) defaultDepthBuckets))

def soleRequest : Wire Binary64 :=
  .object
    [(str "auction_id", .string (str "auction-1")),
      (str "intent", .object [(str "cluster_id", .string (str "cluster-1"))])]

def attributed (arm converted : Wire Binary64) : TrustEventPayload Binary64 where
  storeId := str "store-1"
  dim := .priceHonored
  delta := 1.0
  auctionId := some (str "auction-1")
  payload := .object
    [(attributionKey, .object
      [(str "schema_version", .number (.integer 1)), (str "auction_id", .string (str "auction-1")),
        (str "arm", arm), (str "shown", .bool true), (str "converted", converted)])]

def listPrice : Wire Binary64 := .object []

def vastDiscount : Wire Binary64 :=
  .object [(str "discount", .object
    [(str "type", .string (str "percentage")), (str "value", .number (.integer (10 ^ 400)))])]

end Sales
end Episode
end Proxyshop.Agent
