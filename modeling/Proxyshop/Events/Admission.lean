import Proxyshop.Ledger.Projection
import Proxyshop.Structures.Fallible
import Mathlib.Data.List.ReduceOption

/-!
# What the door admits

`POST /events` runs the replay over the one event it is about to seal, at the event's own instant. All
that can go wrong in folding an observation lies in the observation, so what passes alone passes in
every chain.
-/

namespace Proxyshop.Events

open Python Feedback Scoring Ledger Structures

section Admission

variable [Unicode]

/-- The field that makes an event one the replay cannot read; whatever else is raised escapes. -/
def unreplayableField (m : Manifest) (body : Record) : Except ScoreError (Option Str) :=
  let observations := observationsFromEvents [body] []
  if observations.isEmpty then .ok none
  else
    match score m observations (body.get (str "ts")) with
    | .ok _ => .ok none
    | .error .unknownTrustDimension => .ok (some (str "dim"))
    | .error .unknownObservationType => .ok (some (str "type"))
    | .error .invalidObservationWeight => .ok (some (str "weight"))
    | .error (.python .valueError) => .ok (some (str "observed_at"))
    | .error (.python .keyError) => .ok (some (str "payload"))
    | .error e => .error e

def Admitted (m : Manifest) (body : Record) : Prop := unreplayableField m body = .ok none

def Parseable (instant : Value) : Prop := ∃ t, parseInstant instant = .ok t

/-- The instant can be spelled in UTC, within the years a date can have. -/
def HasUtc (instant : Value) : Prop := ∀ t, parseInstant instant = .ok (some t) → t.toUtc?.isSome

structure Scorable (m : Manifest) (o : Observation) : Prop where
  dimension : ∃ d, requireTrustDimension o.dim = .ok d
  weighted : ∃ w, relativeObservationWeight o = .ok w
  published : ∃ w, observationWeight m o.type.toStr = .ok w
  dated : m.halfLifeDays ≤ 0.0 ∨ Parseable o.observedAt

variable {m : Manifest} {asOf : Value}

theorem decayFactor_returns (parseable : Parseable asOf) {observedAt : Value} :
    (∃ decay, decayFactor m observedAt asOf = .ok decay) ↔
      m.halfLifeDays ≤ 0.0 ∨ Parseable observedAt := by
  unfold decayFactor
  split
  · rename_i settled
    exact iff_of_true ⟨1.0, rfl⟩ (Or.inl settled)
  · rename_i decays
    obtain ⟨reference, parsed⟩ := parseable
    rw [or_iff_right decays, bind_returns]
    constructor
    · rintro ⟨observed, dated, -⟩
      exact ⟨observed, dated⟩
    · rintro ⟨observed, dated⟩
      refine ⟨observed, dated, bind_returns.mpr ⟨reference, parsed, ?_⟩⟩
      split
      · dsimp only
        split
        · exact ⟨_, rfl⟩
        · exact ⟨_, rfl⟩
      · exact ⟨_, rfl⟩

theorem observe_returns (parseable : Parseable asOf) (entries : Entries) (o : Observation) :
    (∃ entries', observe m asOf entries o = .ok entries') ↔ Scorable m o := by
  unfold observe
  simp only [bind_returns]
  constructor
  · rintro ⟨d, dimension, w, weighted, w', published, decay, decayed, -⟩
    exact ⟨⟨d, dimension⟩, ⟨w, weighted⟩, ⟨w', published⟩,
      (decayFactor_returns parseable).mp ⟨decay, decayed⟩⟩
  · rintro ⟨⟨d, dimension⟩, ⟨w, weighted⟩, ⟨w', published⟩, dated⟩
    obtain ⟨decay, decayed⟩ := (decayFactor_returns parseable).mpr dated
    exact ⟨d, dimension, w, weighted, w', published, decay, decayed, _, rfl⟩

omit [Unicode] in
theorem rfc3339_returns (t : DateTime) : (∃ text, rfc3339 t = .ok text) ↔ t.toUtc?.isSome := by
  unfold rfc3339
  cases t.toUtc? with
  | none => exact iff_of_false nofun nofun
  | some u => exact iff_of_true ⟨_, rfl⟩ rfl

theorem score_returns (parseable : Parseable asOf) (observations : List Observation) :
    (∃ snapshot, score m observations asOf = .ok snapshot) ↔
      HasUtc asOf ∧ ∀ o ∈ observations, Scorable m o := by
  have folds : (∃ entries, observations.foldlM (observe m asOf) (fun _ => blankDimension m) = .ok entries) ↔
      ∀ o ∈ observations, Scorable m o := foldlM_returns (observe_returns parseable) _
  obtain ⟨parsed, instant⟩ := parseable
  have built : ∀ make : Entries → Snapshot, (∃ snapshot, (do
      let entries ← observations.foldlM (observe m asOf) fun _ => blankDimension m
      pure (make entries) : Except ScoreError Snapshot) = .ok snapshot) ↔ ∀ o ∈ observations, Scorable m o := by
    intro make
    rw [bind_returns, ← folds]
    exact ⟨fun ⟨entries, folded, _⟩ => ⟨entries, folded⟩,
      fun ⟨entries, folded⟩ => ⟨entries, folded, _, rfl⟩⟩
  unfold score
  rw [instant]
  cases parsed with
  | none =>
      have utc : HasUtc asOf := by
        intro t parses
        cases instant.symm.trans parses
      rw [and_iff_right utc]
      exact built _
  | some t =>
      have utc : HasUtc asOf ↔ ∃ text, rfc3339 t = .ok text := by
        rw [rfc3339_returns]
        refine ⟨fun spells => spells t instant, fun spelt t' parses => ?_⟩
        cases instant.symm.trans parses
        exact spelt
      rw [utc]
      refine (bind_returns (x := rfc3339 t)).trans ?_
      constructor
      · rintro ⟨text, spelled, rest⟩
        exact ⟨⟨text, spelled⟩, (built _).mp rest⟩
      · rintro ⟨⟨text, spelled⟩, scorable⟩
        exact ⟨text, spelled, (built _).mpr scorable⟩

theorem parseable_of_score {observations : List Observation} {snapshot : Snapshot}
    (returned : score m observations asOf = .ok snapshot) : Parseable asOf := by
  unfold score at returned
  obtain ⟨parsed, instant, -⟩ := bind_returns.mp ⟨snapshot, returned⟩
  exact ⟨parsed, instant⟩

/-! ## One event, alone and in a chain -/

omit [Unicode] in
theorem relativeObservationWeight_contradicted (o : Observation) : relativeObservationWeight
    { o with weight := some (.float (baseFeedbackWeight * returnContradictionFactor)) } =
      .ok (baseFeedbackWeight * returnContradictionFactor) := by
  have within : 0.0 ≤ baseFeedbackWeight * returnContradictionFactor ∧
      baseFeedbackWeight * returnContradictionFactor ≤ maxObservationWeight := by
    decide
  simp only [relativeObservationWeight, Option.getD_some, Value.toFloat]
  rw [if_pos within]

theorem scorable_of_projection {event : Record} {o o' : Observation} {returned : Bool}
    (alone : projection false event = some o) (inChain : projection returned event = some o')
    (scorable : Scorable m o) : Scorable m o' := by
  by_cases dependent : DependsOnReturn event
  · obtain ⟨base, projected⟩ := projection_of_dependent dependent
    rw [projected] at alone inChain
    cases alone
    cases inChain
    refine ⟨scorable.dimension, ?_, scorable.published, scorable.dated⟩
    cases returned with
    | false => exact scorable.weighted
    | true => exact ⟨_, relativeObservationWeight_contradicted _⟩
  · rw [projection_of_independent dependent, alone] at inChain
    cases inChain
    exact scorable

theorem admitted_iff {event : Record} : Admitted m event ↔ ∀ o, projection false event = some o →
    Parseable (event.get (str "ts")) ∧ HasUtc (event.get (str "ts")) ∧ Scorable m o := by
  have alone : observationsFromEvents [event] [] = (projection false event).toList :=
    observations_of_event event []
  unfold Admitted unreplayableField
  rw [alone]
  cases projected : projection false event with
  | none => exact iff_of_true rfl nofun
  | some o =>
      simp only [Option.toList_some, List.isEmpty_cons, Bool.false_eq_true, if_false]
      have passes : (∃ snapshot, score m [o] (event.get (str "ts")) = .ok snapshot) ↔
          ∀ o', some o = some o' → Parseable (event.get (str "ts")) ∧ HasUtc (event.get (str "ts")) ∧
            Scorable m o' := by
        constructor
        · rintro ⟨snapshot, returned⟩ o' same
          cases same
          have parseable := parseable_of_score returned
          obtain ⟨utc, scorable⟩ := (score_returns parseable [o]).mp ⟨snapshot, returned⟩
          exact ⟨parseable, utc, scorable o List.mem_cons_self⟩
        · intro readable
          obtain ⟨parseable, utc, scorable⟩ := readable o rfl
          refine (score_returns parseable [o]).mpr ⟨utc, fun o' member => ?_⟩
          rwa [List.mem_singleton.mp member]
      rw [← passes]
      cases score m [o] (event.get (str "ts")) with
      | ok snapshot => exact iff_of_true rfl ⟨snapshot, rfl⟩
      | error e =>
          refine iff_of_false (fun passed => ?_) nofun
          cases e with
          | python e => cases e <;> cases passed
          | _ => cases passed

/-! ## The chain -/

theorem mem_emissions {returned : List (Str × Str)} {events : List Record} {o : Observation}
    (member : some o ∈ emissions returned events) :
    ∃ event ∈ events, ∃ refunded, projection refunded event = some o := by
  induction events generalizing returned with
  | nil => cases member
  | cons event events ih =>
      rw [emissions, projectEvent_eq] at member
      rcases List.mem_cons.mp member with here | later
      · exact ⟨event, List.mem_cons_self, _, here.symm⟩
      · obtain ⟨event', inside, projects⟩ := ih later
        exact ⟨event', List.mem_cons_of_mem _ inside, projects⟩

theorem projection_isSome (event : Record) (returned returned' : Bool) :
    (projection returned event).isSome = (projection returned' event).isSome := by
  by_cases dependent : DependsOnReturn event
  · obtain ⟨base, projected⟩ := projection_of_dependent dependent
    rw [projected, projected]
    rfl
  · rw [projection_of_independent dependent, projection_of_independent dependent returned']

theorem scorable_of_chain {events : List Record} (admitted : ∀ event ∈ events, Admitted m event)
    {o : Observation} (member : o ∈ observationsFromEvents events []) : Scorable m o := by
  have emitted : some o ∈ emissions [] events := List.reduceOption_mem_iff.mp member
  obtain ⟨event, inside, refunded, projects⟩ := mem_emissions emitted
  have alone : (projection false event).isSome := by
    rw [projection_isSome event false refunded, projects]
    rfl
  obtain ⟨base, projected⟩ := Option.isSome_iff_exists.mp alone
  exact scorable_of_projection projected projects (admitted_iff.mp (admitted event inside) base projected).2.2

theorem observations_eq_nil_iff {events : List Record} : observationsFromEvents events [] = [] ↔
    ∀ event ∈ events, observationsFromEvents [event] [] = [] := by
  have step : ∀ (events : List Record) (returned : List (Str × Str)),
      observationsFromEvents events returned = [] ↔
        ∀ event ∈ events, observationsFromEvents [event] [] = [] := by
    intro events
    induction events with
    | nil => exact fun returned => iff_of_true rfl nofun
    | cons event events ih =>
        intro returned
        have head : observationsFromEvents (event :: events) returned =
            (projection (returned.contains (walkKey event)) event).toList ++
              observationsFromEvents events (returned ++ (returnIn event).toList) := by
          unfold observationsFromEvents
          rw [emissions, projectEvent_eq]
          cases projection (returned.contains (walkKey event)) event <;> rfl
        rw [head, List.append_eq_nil_iff, ih, List.forall_mem_cons, observations_of_event,
          Option.toList_eq_nil_iff, Option.toList_eq_nil_iff, ← Option.not_isSome_iff_eq_none,
          ← Option.not_isSome_iff_eq_none, projection_isSome event _ false,
          projection_isSome event (List.contains [] _) false]
  exact step events []

theorem mem_groupByStore {observations : List Observation} {group : Str × List Observation}
    (member : group ∈ groupByStore observations) :
    ∀ o ∈ group.2, o ∈ observations := by
  have step : ∀ (rest : List Observation) (grouped : Dict Str (List Observation)),
      (∀ group ∈ grouped, ∀ o ∈ group.2, o ∈ observations) → (∀ o ∈ rest, o ∈ observations) →
        ∀ group ∈ rest.foldl (fun grouped o => Dict.set grouped o.storeId.toStr
          ((Dict.get? grouped o.storeId.toStr).getD [] ++ [o])) grouped, ∀ o ∈ group.2,
            o ∈ observations := by
    intro rest
    induction rest with
    | nil => exact fun grouped inside _ => inside
    | cons o rest ih =>
        intro grouped inside others
        obtain ⟨here, later⟩ := List.forall_mem_cons.mp others
        refine ih _ (fun group member => ?_) later
        rcases Dict.mem_set member with old | rfl
        · exact inside group old
        · intro o' member'
          rcases List.mem_append.mp member' with before | new
          · cases found : Dict.get? grouped o.storeId.toStr with
            | none =>
                rw [found] at before
                cases before
            | some rows =>
                rw [found] at before
                exact inside _ (Dict.mem_of_get? found) o' before
          · rwa [List.mem_singleton.mp new]
  exact step observations [] nofun (fun _ inside => inside) group member

theorem groupByStore_ne_nil {observations : List Observation} (some : observations ≠ []) :
    groupByStore observations ≠ [] := by
  obtain ⟨front, o, rfl⟩ := List.eq_nil_or_concat observations |>.resolve_left some
  rw [groupByStore, List.concat_eq_append, List.foldl_append, List.foldl_cons, List.foldl_nil]
  intro empty
  have found := Dict.get?_set_self (front.foldl (fun grouped o => Dict.set grouped o.storeId.toStr
    ((Dict.get? grouped o.storeId.toStr).getD [] ++ [o])) []) o.storeId.toStr
    ((Dict.get? (front.foldl (fun grouped o => Dict.set grouped o.storeId.toStr
      ((Dict.get? grouped o.storeId.toStr).getD [] ++ [o])) []) o.storeId.toStr).getD [] ++ [o])
  rw [empty] at found
  cases found

theorem replay_returns {events : List Record} (admitted : ∀ event ∈ events, Admitted m event)
    (parseable : Parseable asOf) : (∃ snapshots, replay m events asOf = .ok snapshots) ↔
      HasUtc asOf ∨ ∀ event ∈ events, observationsFromEvents [event] [] = [] := by
  have scorable : ∀ group ∈ groupByStore (observationsFromEvents events []),
      ∀ o ∈ group.2, Scorable m o :=
    fun group member o inside => scorable_of_chain admitted (mem_groupByStore member o inside)
  unfold replay scoreByStore
  rw [mapM_returns, ← observations_eq_nil_iff]
  have scored : ∀ group : Str × List Observation, (∃ out, (do
      return (group.1, ← score m group.2 asOf) : Except ScoreError (Str × Snapshot)) = .ok out) ↔
        ∃ snapshot, score m group.2 asOf = .ok snapshot := by
    intro group
    rw [bind_returns]
    exact ⟨fun ⟨snapshot, returned, _⟩ => ⟨snapshot, returned⟩,
      fun ⟨snapshot, returned⟩ => ⟨snapshot, returned, _, rfl⟩⟩
  constructor
  · intro all
    by_cases none : observationsFromEvents events [] = []
    · exact Or.inr none
    · obtain ⟨group, member⟩ := List.exists_mem_of_ne_nil _ (groupByStore_ne_nil none)
      exact Or.inl ((score_returns parseable _).mp ((scored group).mp (all group member))).1
  · rintro (utc | none) group member
    · exact (scored group).mpr ((score_returns parseable _).mpr ⟨utc, scorable group member⟩)
    · rw [none] at member
      cases member

/-- A chain of admitted events can be replayed at every instant that has a UTC form. With the published
prior the mean of a dimension never divides by zero. -/
theorem published_replay_returns_iff {events : List Record}
    (admitted : ∀ event ∈ events, Admitted Manifest.published event) (parseable : Parseable asOf) :
    (∃ snapshots, replay Manifest.published events asOf = .ok snapshots) ↔
      HasUtc asOf ∨ ∀ event ∈ events, observationsFromEvents [event] [] = [] :=
  replay_returns admitted parseable

theorem parseable_of_isSome {instant : Value} (parses : (parseInstant instant).toOption.isSome) :
    Parseable instant := by
  cases parsed : parseInstant instant with
  | error e =>
      rw [parsed] at parses
      cases parses
  | ok t => exact ⟨t, parsed⟩

end Admission

def verifiedReport : Record :=
  [(str "event_id", .str (str "e-1")), (str "ts", .str (str "2026-01-01T00:00:00Z")),
    (str "kind", .str (str "claim_verified")), (str "store_id", .str (str "s")),
    (str "payload", .dict [(str "dim", .str (str "price_honored")), (str "status", .str (str "verified"))])]

theorem verifiedReport_admitted :
    letI := Unicode.ascii
    Admitted Manifest.published verifiedReport := by
  let tables : Unicode := Unicode.ascii
  have passes : (unreplayableField Manifest.published verifiedReport).toOption = some none := by
    decide
  show unreplayableField Manifest.published verifiedReport = .ok none
  cases screened : unreplayableField Manifest.published verifiedReport with
  | error e =>
      rw [screened] at passes
      cases passes
  | ok field =>
      rw [screened] at passes
      exact congrArg Except.ok (Option.some.inj passes)

def beyondUtc : Value := .str (str "9999-12-31T23:00:00-01:00")

theorem beyondUtc_not_replayed :
    letI := Unicode.ascii
    Admitted Manifest.published verifiedReport ∧ Parseable beyondUtc ∧
      ¬ ∃ snapshots, replay Manifest.published [verifiedReport] beyondUtc = .ok snapshots := by
  let tables : Unicode := Unicode.ascii
  have parses : (parseInstant beyondUtc).toOption.isSome = true := by decide
  have raises : (replay Manifest.published [verifiedReport] beyondUtc).toOption.isSome = false := by
    decide
  refine ⟨verifiedReport_admitted, parseable_of_isSome parses, ?_⟩
  rintro ⟨snapshots, replayed⟩
  rw [replayed] at raises
  cases raises

def aMonthLater : Value := .str (str "2026-02-01T00:00:00+01:00")

theorem verifiedReport_replayed :
    letI := Unicode.ascii
    (∃ snapshots, replay Manifest.published [verifiedReport] aMonthLater = .ok snapshots) ↔
      HasUtc aMonthLater ∨ ∀ event ∈ [verifiedReport], observationsFromEvents [event] [] = [] := by
  let tables : Unicode := Unicode.ascii
  have admitted : ∀ event ∈ [verifiedReport], Admitted Manifest.published event := by
    intro event member
    rw [List.mem_singleton.mp member]
    exact verifiedReport_admitted
  have parses : (parseInstant aMonthLater).toOption.isSome = true := by decide
  exact published_replay_returns_iff admitted (parseable_of_isSome parses)

end Proxyshop.Events
