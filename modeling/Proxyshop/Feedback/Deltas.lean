import Proxyshop.Ledger.Projection
import Mathlib.Data.List.ReduceOption

/-!
# The movement one event is worth

A store is told how far one ledger row moved a dimension of its score: the scorer is run over the
store's history before and after the event's observation, at the event's own instant.
-/

namespace Proxyshop.Feedback

open Python Scoring Ledger

/-! ## Attribution -/

def attributionSchemaVersion : Nat := 1

def bidKind : Str := str "bid_placed"

def impressionKind : Str := str "shown"

def conversionKind : Str := str "accepted"

def offerFields : List Str := ["discount", "unit_price", "currency", "product_ref"].map str

structure Impression where
  schemaVersion : Nat
  auctionId : Str
  bidRef : Str
  slot : Option Str
  orderRef : Option Str
  shown : Bool
  converted : Bool
  arm : Option Record

structure ImpressionWalk where
  bidRef : Str
  slot : Option Str
  shown : Bool
  converted : Bool
  arm : Option Record

def armOf (offer : Value) : Option Record :=
  let body := offer.mapping
  if body.isEmpty then none
  else some (offerFields.filterMap fun field => (Dict.get? body field).map fun v => (field, v))

/-- `_arm(offer) or arm`: an offer naming none of the published fields keeps the earlier arm. -/
def orArm (offer : Value) (arm : Option Record) : Option Record :=
  match armOf offer with
  | some (field :: fields) => some (field :: fields)
  | _ => arm

section Deltas

variable [Unicode]

def ImpressionWalk.row (walk : ImpressionWalk) (row : Record) : ImpressionWalk :=
  let payload := payloadOf row
  let kind := (row.get (str "kind")).text
  let walk := { walk with bidRef := Str.or walk.bidRef (payload.get (str "bid_ref")).text }
  if kind = bidKind then
    { walk with arm := orArm (payload.get (str "offer")) walk.arm }
  else if kind = impressionKind then
    { walk with shown := true, slot := (Str.nonEmpty? (payload.get (str "slot")).text).or walk.slot }
  else if kind = conversionKind then
    { walk with converted := true, arm := orArm (payload.get (str "offer")) walk.arm }
  else walk

def impressionFor (event : Record) (history : List Record) : Option Impression :=
  let auctionId := (event.get (str "auction_id")).text
  if auctionId.isEmpty then none
  else
    let rows := history.filter fun row => (row.get (str "auction_id")).text = auctionId
    let walk := rows.foldl ImpressionWalk.row ⟨[], none, false, false, none⟩
    some ⟨attributionSchemaVersion, auctionId,
      Str.or walk.bidRef (auctionId ++ str ":" ++ (event.get (str "store_id")).text), walk.slot,
      Str.nonEmpty? (event.get (str "order_ref")).text, walk.shown, walk.converted, walk.arm⟩

/-! ## The delta -/

structure TrustDelta where
  storeId : Str
  dim : Str
  delta : Float
  attribution : Option Impression
  event : Record
  reasonCode : Str

def observationOf (event : Record) : Option Observation := (observationsFromEvents [event] []).head?

def dimensionMean (snapshot : Snapshot) (dim : Str) : Except ScoreError Float :=
  match trustDimensions.find? fun d => d.name = dim with
  | none => .error (.python .keyError)
  | some d =>
      let entry := snapshot.dims d
      let total := entry.alpha + entry.beta
      .ok (if total > 0.0 then entry.alpha / total else 0.0)

def deltaForEvent (m : Manifest) (event : Record) (history : List Record) (asOf : Value) :
    Except ScoreError (Option TrustDelta) :=
  match observationOf event with
  | none => .ok none
  | some observation => do
      let prior := observationsFromEvents history []
      let reference := if asOf.isNone then event.get (str "ts") else asOf
      let dim := observation.dim.toStr
      let before ← score m prior reference
      let after ← score m (prior ++ [observation]) reference
      let delta := (← dimensionMean after dim) - (← dimensionMean before dim)
      return some ⟨observation.storeId.toStr, dim, delta, impressionFor event history, event,
        observation.type.toStr⟩

/-! ## The movement a replay recomputes -/

/-- The scores before and after the event's observation lands, as a replay folds the two streams. -/
def movement (m : Manifest) (event : Record) (history : List Record) (dim : Str) :
    Except ScoreError Float := do
  let asOf := event.get (str "ts")
  let before ← score m (observationsFromEvents history []) asOf
  let after ← score m (observationsFromEvents (history ++ [event]) []) asOf
  return (← dimensionMean after dim) - (← dimensionMean before dim)

/-- The delta pushed for an event that carries an observation is the replay's movement. -/
def ReportsMovement (m : Manifest) (event : Record) (history : List Record) : Prop :=
  ∀ observation, observationOf event = some observation →
    (deltaForEvent m event history .none).map (Option.map TrustDelta.delta) =
      (movement m event history observation.dim.toStr).map some

/-- A positive report that leaves its weight to the projection, on an order the history returns. -/
def ContradictedByReturn (event : Record) (history : List Record) : Prop :=
  DependsOnReturn event ∧ returnedInWalk history event = true

theorem observations_snoc (history : List Record) (event : Record) :
    observationsFromEvents (history ++ [event]) [] =
      observationsFromEvents history [] ++ (projection (returnedInWalk history event) event).toList := by
  unfold observationsFromEvents
  rw [emissions_append, List.reduceOption_append]
  simp only [emissions, projectEvent_eq, List.nil_append, returnedInWalk]
  cases projection ((history.filterMap returnIn).contains (walkKey event)) event <;> rfl

theorem observationOf_eq (event : Record) : observationOf event = projection false event := by
  unfold observationOf
  rw [observations_of_event, List.contains_nil]
  cases projection false event <;> rfl

theorem projection_of_walk {event : Record} {history : List Record}
    (uncontradicted : ¬ ContradictedByReturn event history) :
    projection (returnedInWalk history event) event = projection false event := by
  by_cases dependent : DependsOnReturn event
  · have unreturned : returnedInWalk history event = false := by
      by_contra returned
      exact uncontradicted ⟨dependent, by simpa using returned⟩
    rw [unreturned]
  · exact projection_of_independent dependent _

theorem reportsMovement_of_uncontradicted {event : Record} {history : List Record}
    (uncontradicted : ¬ ContradictedByReturn event history) (m : Manifest) :
    ReportsMovement m event history := by
  intro observation carried
  have after : observationsFromEvents (history ++ [event]) [] =
      observationsFromEvents history [] ++ [observation] := by
    rw [observations_snoc, projection_of_walk uncontradicted, ← observationOf_eq, carried]
    rfl
  unfold deltaForEvent movement
  rw [carried, after]
  simp only [Value.isNone_none, if_true]
  cases score m (observationsFromEvents history []) (event.get (str "ts")) with
  | error e => rfl
  | ok before =>
      cases score m (observationsFromEvents history [] ++ [observation]) (event.get (str "ts")) with
      | error e => rfl
      | ok after =>
          cases moved : dimensionMean after observation.dim.toStr with
          | error e => simp [bind, Except.bind, moved]; rfl
          | ok high =>
              cases moved' : dimensionMean before observation.dim.toStr with
              | error e => simp [bind, Except.bind, moved, moved']; rfl
              | ok low => simp [bind, Except.bind, moved, moved']; rfl

/-- The observations scored after the event are, weights spelled out, the ones a replay scores. -/
def ScoresReplay (event : Record) (history : List Record) : Prop :=
  ∀ observation, observationOf event = some observation →
    (observationsFromEvents history [] ++ [observation]).map Observation.explicit =
      (observationsFromEvents (history ++ [event]) []).map Observation.explicit

theorem scoresReplay_iff (event : Record) (history : List Record) :
    ScoresReplay event history ↔ ¬ ContradictedByReturn event history := by
  unfold ScoresReplay
  rw [observations_snoc, observationOf_eq]
  simp only [List.map_append, List.append_cancel_left_eq]
  constructor
  · rintro scored ⟨dependent, returned⟩
    obtain ⟨o, projected⟩ := projection_of_dependent dependent
    have agree := scored _ (projected false)
    rw [returned, projected true] at agree
    have same := (projection_agree_iff event false true).mp (by
      rw [projected, projected]
      exact congrArg List.head? agree) dependent
    cases same
  · intro uncontradicted observation carried
    rw [projection_of_walk uncontradicted, carried]
    rfl

/-- The delta is the replay's movement unless the history returns the order of a report whose weight
is left to the projection; there the two fold different observations. -/
theorem delta_reports_movement (event : Record) (history : List Record) :
    (¬ ContradictedByReturn event history → ∀ m, ReportsMovement m event history) ∧
      (ScoresReplay event history ↔ ¬ ContradictedByReturn event history) :=
  ⟨reportsMovement_of_uncontradicted, scoresReplay_iff event history⟩

end Deltas

def returnedOrder : Record :=
  [(str "event_id", .str (str "r-1")), (str "ts", .str (str "2026-07-01T00:00:00.000Z")),
    (str "kind", .str (str "refund")), (str "store_id", .str (str "s")),
    (str "order_ref", .str (str "o")), (str "payload", .dict [(str "order_ref", .str (str "o"))])]

def reportOnReturnedOrder : Record :=
  [(str "event_id", .str (str "f-1")), (str "ts", .str (str "2026-07-02T00:00:00.000Z")),
    (str "kind", .str (str "feedback")), (str "store_id", .str (str "s")),
    (str "order_ref", .str (str "o")),
    (str "payload", .dict [(str "matched_pitch", .bool true),
      (str "dim", .str (str "feedback_match")), (str "type", .str (str "fulfilled"))])]

theorem reportOnReturnedOrder_without_return : letI := Unicode.ascii
    ReportsMovement Manifest.published reportOnReturnedOrder [] := by
  let tables : Unicode := Unicode.ascii
  apply (delta_reports_movement reportOnReturnedOrder []).1
  rintro ⟨-, returned⟩
  simp [returnedInWalk] at returned

theorem reportOnReturnedOrder_moves_too_far : letI := Unicode.ascii
    ¬ ReportsMovement Manifest.published reportOnReturnedOrder [returnedOrder] := by
  let tables : Unicode := Unicode.ascii
  intro reports
  let above (delta : Except ScoreError (Option Float)) : Bool :=
    (delta.toOption.bind id).any fun x => 0.05 < x
  have observed : (observationOf reportOnReturnedOrder).map (fun o => o.dim.toStr) =
      some (str "feedback_match") := by decide
  obtain ⟨o, carried, dim⟩ := Option.map_eq_some_iff.mp observed
  have same := congrArg above (reports o carried)
  rw [dim] at same
  revert same
  decide +kernel

end Proxyshop.Feedback
