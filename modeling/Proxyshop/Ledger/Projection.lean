import Proxyshop.Feedback.Weighting
import Proxyshop.Scoring.Engine

/-!
# What one event projects to

The walk of the replay reads an event and the set of orders returned before it; only the membership of
the event's own order decides what it emits.
-/

/-!
## Replaying the ledger into observations and snapshots
-/

namespace Proxyshop.Ledger

open Python Feedback Scoring

def claimVerifiedKind : Str := str "claim_verified"

section Replay

variable [Unicode]

/-- The type an event's payload names, or the one its kind gives it. -/
def observationType (event payload : Record) (fold : Option Fold) : Value :=
  let named := payload.get (str "type")
  if !named.isNone then named
  else if kindOf event = claimVerifiedKind then payload.get (str "status")
  else ((fold.bind Fold.type).map Value.str).getD .none

/-- The weight an observation carries: the payload's own, or a fold's that is not one. -/
def observationWeightOf (payload : Record) (fold : Option Fold) : Option Value :=
  let named := payload.get (str "weight")
  if !named.isNone then some named
  else fold.bind fun f => if f.weight != 1.0 then some (.float f.weight) else none

/-- The order an event of kind `refund` returns. -/
def returnOf (event payload : Record) : Option (Str × Str) :=
  let storeId := columnOr event payload (str "store_id")
  let orderRef := columnOr event payload (str "order_ref")
  if kindOf event = returnKind ∧ !storeId.isNone ∧ !orderRef.isNone then
    some (storeId.toStr, orderRef.toStr)
  else none

def observationIn (event payload : Record) (fold : Option Fold) : Option Observation :=
  let storeId := columnOr event payload (str "store_id")
  let dim := payload.get (str "dim")
  let type := observationType event payload fold
  if dim.isNone ∨ type.isNone ∨ storeId.isNone then none
  else some ⟨storeId, dim, type, (payload.get (str "observed_at")).or (event.get (str "ts")),
    observationWeightOf payload fold⟩

/-- One turn of the loop: the orders returned so far, and the observation the event emits. -/
def projectEvent (returned : List (Str × Str)) (event : Record) :
    List (Str × Str) × Option Observation :=
  match (event.get (str "payload")).or (.dict []) with
  | .dict payload =>
      let returned := returned ++ (returnOf event payload).toList
      let storeId := columnOr event payload (str "store_id")
      let orderRef := columnOr event payload (str "order_ref")
      let fold := if kindOf event = feedbackKind then
          foldFeedback event (returned.contains (storeId.toStr, orderRef.toStr))
        else none
      (returned, observationIn event payload fold)
  | _ => (returned, none)

def emissions (returned : List (Str × Str)) : List Record → List (Option Observation)
  | [] => []
  | event :: events =>
      (projectEvent returned event).2 :: emissions (projectEvent returned event).1 events

def observationsFromEvents (events : List Record) (returnedOrders : List (Str × Str)) :
    List Observation := (emissions returnedOrders events).reduceOption

/-- Observations by store, the stores in the order they first appear. -/
def groupByStore (observations : List Observation) : Dict Str (List Observation) :=
  observations.foldl (fun grouped o =>
    Dict.set grouped o.storeId.toStr ((Dict.get? grouped o.storeId.toStr).getD [] ++ [o])) []

def scoreByStore (m : Manifest) (observations : List Observation) (asOf : Value) :
    Except ScoreError (Dict Str Snapshot) :=
  (groupByStore observations).mapM fun (storeId, rows) => do return (storeId, ← score m rows asOf)

def replay (m : Manifest) (events : List Record) (asOf : Value) :
    Except ScoreError (Dict Str Snapshot) := scoreByStore m (observationsFromEvents events []) asOf

/-! ## A weight spelled out -/

theorem groupByStore_explicit (observations : List Observation) :
    groupByStore (observations.map Observation.explicit) =
      Dict.mapValues (List.map Observation.explicit) (groupByStore observations) := by
  have grouped : ∀ rows : List Observation, ∀ groups : Dict Str (List Observation),
      (rows.map Observation.explicit).foldl (fun grouped o =>
        Dict.set grouped o.storeId.toStr ((Dict.get? grouped o.storeId.toStr).getD [] ++ [o]))
        (Dict.mapValues (List.map Observation.explicit) groups) =
      Dict.mapValues (List.map Observation.explicit) (rows.foldl (fun grouped o =>
        Dict.set grouped o.storeId.toStr ((Dict.get? grouped o.storeId.toStr).getD [] ++ [o])) groups) := by
    intro rows
    induction rows with
    | nil => intro groups; rfl
    | cons o rows ih =>
        intro groups
        have same : o.explicit.storeId = o.storeId := rfl
        rw [List.map_cons, List.foldl_cons, List.foldl_cons, ← ih, Dict.mapValues_set, same,
          Dict.get?_mapValues]
        cases Dict.get? groups o.storeId.toStr <;> simp
  exact grouped observations []

theorem scoreByStore_explicit (m : Manifest) (observations : List Observation) (asOf : Value) :
    scoreByStore m (observations.map Observation.explicit) asOf = scoreByStore m observations asOf := by
  unfold scoreByStore
  rw [groupByStore_explicit, Dict.mapValues, List.mapM_map]
  simp only [Function.comp_def, score_explicit]

end Replay
end Proxyshop.Ledger

namespace Proxyshop.Ledger

open Python Feedback Scoring

/-- The payload the walk reads, where it does not skip the event. -/
def walkPayload (event : Record) : Option Record :=
  ((event.get (str "payload")).or (.dict [])).asDict?

theorem payloadOf_of_walk {event payload : Record} (walked : walkPayload event = some payload) :
    payloadOf event = payload := by
  unfold walkPayload Value.or at walked
  unfold payloadOf
  split at walked
  · rw [Value.mapping, walked]
    rfl
  · rename_i empty
    have none : payload = [] := (Option.some.inj walked).symm
    rw [none]
    cases stored : event.get (str "payload") with
    | dict entries => simpa [stored, Value.truthy] using empty
    | _ => rfl

theorem walkPayload_of_field {event : Record} {name : Str}
    (field : ((payloadOf event).get name).isNone = false) :
    walkPayload event = some (payloadOf event) := by
  cases walked : walkPayload event with
  | some payload => rw [payloadOf_of_walk walked]
  | none =>
      have empty : payloadOf event = [] := by
        unfold payloadOf
        unfold walkPayload Value.or at walked
        split at walked
        · rw [Value.mapping, walked]
          rfl
        · cases walked
      rw [empty] at field
      cases field

theorem contradicted_weight :
    (baseFeedbackWeight * returnContradictionFactor != 1.0) = true ∧
      (baseFeedbackWeight != 1.0) = false := by
  decide

section Projection

variable [Unicode]

def returnIn (event : Record) : Option (Str × Str) := (walkPayload event).bind (returnOf event)

def walkKey (event : Record) : Str × Str := ((storeIdOf event).toStr, (orderRefOf event).toStr)

/-- What an event projects to once it is known whether its order was returned. -/
def projection (returned : Bool) (event : Record) : Option Observation :=
  (walkPayload event).bind fun payload => observationIn event payload
    (if kindOf event = feedbackKind then foldFeedback event returned else none)

theorem returnOf_of_feedback {event : Record} (feedback : kindOf event = feedbackKind)
    (payload : Record) : returnOf event payload = none := by
  rw [returnOf, feedback, if_neg]
  rintro ⟨same, -⟩
  simp [feedbackKind, returnKind] at same

theorem projectEvent_eq (returned : List (Str × Str)) (event : Record) :
    projectEvent returned event =
      (returned ++ (returnIn event).toList, projection (returned.contains (walkKey event)) event) := by
  unfold projectEvent returnIn projection
  cases walked : walkPayload event with
  | none =>
      unfold walkPayload at walked
      cases read : (event.get (str "payload")).or (.dict []) with
      | dict payload => simp [read, Value.asDict?] at walked
      | _ => simp
  | some payload =>
      have read : (event.get (str "payload")).or (.dict []) = .dict payload := by
        unfold walkPayload at walked
        cases read : (event.get (str "payload")).or (.dict []) with
        | dict _ =>
            rw [read] at walked
            rw [Option.some.inj walked]
        | _ => simp [read, Value.asDict?] at walked
      have stored := payloadOf_of_walk walked
      subst stored
      by_cases feedback : kindOf event = feedbackKind
      · simp only [read, feedback, returnOf_of_feedback feedback, Option.bind_some, if_true,
          Option.toList_none, List.append_nil]
        rfl
      · simp only [read, if_neg feedback, Option.bind_some]

theorem emissions_append (returned : List (Str × Str)) (before after : List Record) :
    emissions returned (before ++ after) =
      emissions returned before ++ emissions (returned ++ before.filterMap returnIn) after := by
  induction before generalizing returned with
  | nil => simp [emissions]
  | cons event before ih =>
      simp only [List.cons_append, emissions, projectEvent_eq]
      rw [ih, List.append_assoc]
      cases refund : returnIn event <;> simp [refund]

theorem emissions_length (returned : List (Str × Str)) (events : List Record) :
    (emissions returned events).length = events.length := by
  induction events generalizing returned with
  | nil => rfl
  | cons event events ih => simp [emissions, ih]

/-! ## When the return decides an observation -/

/-- A positive report that leaves its weight to the projection. -/
structure DependsOnReturn (event : Record) : Prop where
  feedback : kindOf event = feedbackKind
  positive : isPositive (payloadOf event) = true
  unweighted : ((payloadOf event).get (str "weight")).isNone = true
  dim : ((payloadOf event).get (str "dim")).isNone = false
  typed : ((payloadOf event).get (str "type")).isNone = false ∨ statesAnAnswer (payloadOf event) = true
  store : (storeIdOf event).isNone = false

theorem projection_of_other {event : Record} (other : kindOf event ≠ feedbackKind)
    (returned returned' : Bool) : projection returned event = projection returned' event := by
  simp only [projection, if_neg other]

/-- The type a report carries: the one it names, or the one its answer derives. -/
def reportType (payload : Record) : Option Value :=
  if !(payload.get (str "type")).isNone then some (payload.get (str "type"))
  else if statesAnAnswer payload then
    some (.str (if isPositive payload then feedbackPositiveType else feedbackNegativeType))
  else none

def reportWeight (payload : Record) (returned : Bool) : Option Value :=
  if !(payload.get (str "weight")).isNone then some (payload.get (str "weight"))
  else if isPositive payload && returned then
    some (.float (baseFeedbackWeight * returnContradictionFactor))
  else none

theorem projection_of_feedback {event : Record} (feedback : kindOf event = feedbackKind)
    (dim : ((payloadOf event).get (str "dim")).isNone = false)
    (store : (storeIdOf event).isNone = false) (returned : Bool) :
    projection returned event = (reportType (payloadOf event)).map fun type =>
      ⟨storeIdOf event, (payloadOf event).get (str "dim"), type,
        ((payloadOf event).get (str "observed_at")).or (event.get (str "ts")),
        reportWeight (payloadOf event) returned⟩ := by
  have storeColumn : (columnOr event (payloadOf event) (str "store_id")).isNone = false := store
  have weight : observationWeightOf (payloadOf event) (foldFeedback event returned) =
      reportWeight (payloadOf event) returned := by
    rw [foldFeedback_of_feedback feedback store]
    unfold observationWeightOf reportWeight
    cases contradicted : isPositive (payloadOf event) && returned <;>
      simp [contradicted_weight]
  have type : observationType event (payloadOf event) (foldFeedback event returned) =
      (reportType (payloadOf event)).getD .none := by
    rw [foldFeedback_of_feedback feedback store]
    unfold observationType reportType
    by_cases named : (!((payloadOf event).get (str "type")).isNone) = true
    · simp only [if_pos named, Option.getD_some]
    · simp only [if_neg named]
      rw [if_neg (by simp [feedback, feedbackKind, claimVerifiedKind])]
      by_cases stated : statesAnAnswer (payloadOf event) = true <;> simp [stated]
  simp only [projection, walkPayload_of_field dim, Option.bind_some, if_pos feedback, observationIn,
    weight, type, dim, storeColumn]
  unfold reportType
  split
  · rename_i named
    simp only [Option.getD_some, Option.map_some]
    rw [if_neg (by simpa using named)]
    rfl
  · split
    · simp only [Option.getD_some, Option.map_some]
      rw [if_neg (by simp [Value.isNone])]
      rfl
    · simp

theorem projection_of_storeless {event : Record} (storeless : (storeIdOf event).isNone = true)
    (returned : Bool) : projection returned event = none := by
  unfold projection
  cases walked : walkPayload event with
  | none => rfl
  | some payload =>
      have stored := payloadOf_of_walk walked
      subst stored
      have missing : (columnOr event (payloadOf event) (str "store_id")).isNone = true := storeless
      simp [observationIn, missing]

theorem projection_of_dimensionless {event : Record}
    (dimensionless : ((payloadOf event).get (str "dim")).isNone = true) (returned : Bool) :
    projection returned event = none := by
  unfold projection
  cases walked : walkPayload event with
  | none => rfl
  | some payload =>
      have stored := payloadOf_of_walk walked
      subst stored
      simp [observationIn, dimensionless]

theorem reportType_isSome {payload : Record} : (reportType payload).isSome = true ↔
    (payload.get (str "type")).isNone = false ∨ statesAnAnswer payload = true := by
  unfold reportType
  split
  · rename_i named
    simpa using Or.inl (by simpa using named)
  · rename_i unnamed
    split
    · rename_i stated
      simp [stated]
    · rename_i silent
      simp [silent] at unnamed ⊢
      exact unnamed

theorem projection_of_dependent {event : Record} (dependent : DependsOnReturn event) :
    ∃ o : Observation, ∀ returned, projection returned event = some { o with
      weight := if returned then some (.float (baseFeedbackWeight * returnContradictionFactor))
        else none } := by
  obtain ⟨type, typed⟩ := Option.isSome_iff_exists.mp (reportType_isSome.mpr dependent.typed)
  refine ⟨⟨storeIdOf event, (payloadOf event).get (str "dim"), type,
    ((payloadOf event).get (str "observed_at")).or (event.get (str "ts")), none⟩, ?_⟩
  intro returned
  rw [projection_of_feedback dependent.feedback dependent.dim dependent.store, typed]
  simp [reportWeight, dependent.unweighted, dependent.positive]

theorem projection_of_independent {event : Record} (independent : ¬ DependsOnReturn event)
    (returned : Bool) : projection returned event = projection false event := by
  by_cases feedback : kindOf event = feedbackKind
  · cases store : (storeIdOf event).isNone with
    | true => rw [projection_of_storeless store, projection_of_storeless store]
    | false =>
        cases dim : ((payloadOf event).get (str "dim")).isNone with
        | true => rw [projection_of_dimensionless dim, projection_of_dimensionless dim]
        | false =>
            rw [projection_of_feedback feedback dim store, projection_of_feedback feedback dim store]
            cases typed : reportType (payloadOf event) with
            | none => rfl
            | some type =>
                have weight : reportWeight (payloadOf event) returned =
                    reportWeight (payloadOf event) false := by
                  unfold reportWeight
                  split
                  · rfl
                  · rename_i unweighted
                    have negative : isPositive (payloadOf event) = false := by
                      by_contra positive
                      exact independent ⟨feedback, by simpa using positive, by simpa using unweighted,
                        dim, reportType_isSome.mp (by rw [typed]; rfl), store⟩
                    rw [negative]
                    rfl
                rw [weight]
  · exact projection_of_other feedback returned false

theorem projection_agree_iff (event : Record) (returned returned' : Bool) :
    (projection returned event).map Observation.explicit =
        (projection returned' event).map Observation.explicit ↔
      (DependsOnReturn event → returned = returned') := by
  constructor
  · intro agree dependent
    obtain ⟨o, projected⟩ := projection_of_dependent dependent
    rw [projected, projected] at agree
    have weights := congrArg Observation.weight (Option.some.inj agree)
    have apart : Value.float (baseFeedbackWeight * returnContradictionFactor) ≠ .float 1.0 := by
      intro same
      have weighted := contradicted_weight.1
      rw [Value.float.inj same] at weighted
      cases weighted.symm.trans contradicted_weight.2
    cases returned <;> cases returned'
    · rfl
    · exact False.elim (apart (Option.some.inj weights).symm)
    · exact False.elim (apart (Option.some.inj weights))
    · rfl
  · intro same
    by_cases dependent : DependsOnReturn event
    · rw [same dependent]
    · rw [projection_of_independent dependent, projection_of_independent dependent returned']

theorem walkKey_of_identity {event : Record} {order : Str × Str}
    (identity : orderIdentity event = some order) : walkKey event = order := by
  unfold orderIdentity at identity
  split at identity
  · cases identity
  · exact Option.some.inj identity

theorem observations_of_event (event : Record) (returned : List (Str × Str)) :
    observationsFromEvents [event] returned =
      (projection (returned.contains (walkKey event)) event).toList := by
  unfold observationsFromEvents
  simp only [emissions, projectEvent_eq]
  cases projection (returned.contains (walkKey event)) event <;> rfl

theorem observedAt_of_projection {event : Record} {returned : Bool} {o : Observation}
    (projected : projection returned event = some o) :
    o.observedAt.or (event.get (str "ts")) = o.observedAt := by
  unfold projection at projected
  obtain ⟨payload, -, observed⟩ := Option.bind_eq_some_iff.mp projected
  generalize (if kindOf event = feedbackKind then foldFeedback event returned else none) = fold
    at observed
  simp only [observationIn] at observed
  split at observed
  · cases observed
  · rw [← Option.some.inj observed]
    simp only [Value.or]
    split
    · rfl
    · split <;> rfl

/-! ## The walk over a stream -/

/-- Whether the walk has seen a refund of the event's order. -/
def returnedInWalk (before : List Record) (event : Record) : Bool :=
  (before.filterMap returnIn).contains (walkKey event)

/-- What the walk over the whole stream emits for the event at a position. -/
def emittedAt (events : List Record) (position : Nat) : Option Observation :=
  ((emissions [] events)[position]?).join

theorem emittedAt_eq (before after : List Record) (event : Record) :
    emittedAt (before ++ event :: after) before.length =
      projection (returnedInWalk before event) event := by
  unfold emittedAt
  rw [emissions_append, List.getElem?_append_right (by rw [emissions_length]), emissions_length]
  simp only [Nat.sub_self, emissions, List.getElem?_cons_zero, Option.join_some, projectEvent_eq,
    List.nil_append]
  rfl

end Projection
end Proxyshop.Ledger
