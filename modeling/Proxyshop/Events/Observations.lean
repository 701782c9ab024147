import Proxyshop.Ledger.Projection
import Mathlib.Data.List.ReduceOption

/-!
# The observation an appended event writes

The append path asks the columns of earlier rows whether an order was returned; the replay walks the
events and falls back to their payloads.
-/

namespace Proxyshop.Events

open Python Feedback Scoring Ledger

/-- A row of `ledger.commerce_events`. -/
structure LedgerRow where
  seq : Nat
  eventId : Str
  ts : Str
  kind : Str
  auctionId : Option Str
  storeId : Option Str
  orderRef : Option Str
  payload : Value
  prevHash : Str
  eventHash : Str

def LedgerRow.toEvent (row : LedgerRow) : Record :=
  let column (name : Str) (text : Option Str) : Record := (text.map fun s => (name, .str s)).toList
  [(str "event_id", .str row.eventId), (str "ts", .str row.ts), (str "kind", .str row.kind),
    (str "payload", if row.payload.isNone then .dict [] else row.payload)] ++
    column (str "auction_id") row.auctionId ++ column (str "store_id") row.storeId ++
    column (str "order_ref") row.orderRef ++
    [(str "prev_hash", .str row.prevHash), (str "event_hash", .str row.eventHash),
      (str "seq", .int row.seq)]

structure CommerceEvents where
  rows : List LedgerRow
  ordered : rows.Pairwise fun earlier later => earlier.seq < later.seq

def CommerceEvents.events (chain : CommerceEvents) : List Record := chain.rows.map LedgerRow.toEvent

/-- A row of `ledger.trust_observations`; a `NULL` weight is `none`. -/
structure ObservationRow where
  eventSeq : Nat
  storeId : Value
  dim : Value
  observationType : Value
  weight : Option Value
  observedAt : Value

def ObservationRow.observation (row : ObservationRow) : Observation :=
  ⟨row.storeId, row.dim, row.observationType, row.observedAt, row.weight⟩

/-- `_OBSERVATION_INSERT`: one row for an event, however often it is offered. -/
def insertObservation (table : List ObservationRow) (row : ObservationRow) : List ObservationRow :=
  if table.any fun other => other.eventSeq = row.eventSeq then table else table ++ [row]

/-- The rows `_RETURNED_SQL` selects, its bound on `seq` aside. -/
def LedgerRow.returns (row : LedgerRow) (order : Str × Str) : Bool :=
  row.kind = returnKind ∧ row.storeId = some order.1 ∧ row.orderRef = some order.2

section Persistence

variable [Unicode]

def returnedBefore (chain : List LedgerRow) (event : Record) (seq : Nat) : Bool :=
  match orderIdentity event with
  | none => false
  | some order => chain.any fun row => row.returns order && decide (row.seq < seq)

/-- The orders the append path tells the projection were returned. -/
def returnedOrdersFor (chain : List LedgerRow) (seq : Nat) (event : Record) : List (Str × Str) :=
  if kindOf event = feedbackKind ∧ returnedBefore chain event seq then (orderIdentity event).toList
  else []

def observationRow (seq : Nat) (event : Record) (observation : Observation) : ObservationRow :=
  ⟨seq, observation.storeId, observation.dim, observation.type, observation.weight,
    observation.observedAt.or (event.get (str "ts"))⟩

def persistEventObservations (chain : List LedgerRow) (seq : Nat) (event : Record)
    (table : List ObservationRow) : List ObservationRow :=
  ((observationsFromEvents [event] (returnedOrdersFor chain seq event)).map
    (observationRow seq event)).foldl insertObservation table

/-- The observations the append path has written once every row of the chain has landed. -/
def servedRows (chain : List LedgerRow) : List ObservationRow :=
  chain.foldl (fun table row => persistEventObservations chain row.seq row.toEvent table) []

end Persistence

/-! ## What the table holds -/

section Written

variable [Unicode]

theorem observations_persisted (chain : List LedgerRow) (seq : Nat) (event : Record) :
    observationsFromEvents [event] (returnedOrdersFor chain seq event) =
      (projection (returnedBefore chain event seq) event).toList := by
  rw [observations_of_event]
  unfold returnedOrdersFor
  by_cases feedback : kindOf event = feedbackKind
  · cases returned : returnedBefore chain event seq with
    | false => simp
    | true =>
        unfold returnedBefore at returned
        cases identity : orderIdentity event with
        | none => simp [identity] at returned
        | some order => simp [feedback, walkKey_of_identity identity]
  · rw [projection_of_other feedback]

theorem persistEventObservations_fresh {table : List ObservationRow} {seq : Nat}
    (fresh : ∀ row ∈ table, row.eventSeq ≠ seq) (chain : List LedgerRow) (event : Record) :
    (persistEventObservations chain seq event table).map ObservationRow.observation =
      table.map ObservationRow.observation ++
        (projection (returnedBefore chain event seq) event).toList ∧
    ∀ row ∈ persistEventObservations chain seq event table, row ∈ table ∨ row.eventSeq = seq := by
  unfold persistEventObservations
  rw [observations_persisted]
  cases projected : projection (returnedBefore chain event seq) event with
  | none => exact ⟨by simp, fun row member => Or.inl (by simpa using member)⟩
  | some o =>
      simp only [Option.toList_some, List.map_cons, List.map_nil, List.foldl_cons, List.foldl_nil,
        insertObservation]
      have absent : ¬ (table.any fun other =>
          other.eventSeq = (observationRow seq event o).eventSeq) = true := by
        intro found
        obtain ⟨other, member, same⟩ := List.any_eq_true.mp found
        exact fresh other member (of_decide_eq_true same)
      rw [if_neg absent]
      constructor
      · simp [ObservationRow.observation, observationRow, observedAt_of_projection projected]
      · intro row member
        rcases List.mem_append.mp member with old | new
        · exact Or.inl old
        · rw [List.mem_singleton.mp new]
          exact Or.inr rfl

theorem persisted_rows (chain : List LedgerRow) (rows : List LedgerRow)
    (ordered : rows.Pairwise fun earlier later => earlier.seq < later.seq)
    (table : List ObservationRow) (fresh : ∀ row ∈ rows, ∀ other ∈ table, other.eventSeq < row.seq) :
    ((rows.foldl (fun table row => persistEventObservations chain row.seq row.toEvent table) table).map
      ObservationRow.observation) = table.map ObservationRow.observation ++
        rows.flatMap fun row =>
          (projection (returnedBefore chain row.toEvent row.seq) row.toEvent).toList := by
  induction rows generalizing table with
  | nil => simp
  | cons row rows ih =>
      obtain ⟨later, rest⟩ := List.pairwise_cons.mp ordered
      obtain ⟨written, seqs⟩ := persistEventObservations_fresh
        (fun other member => Nat.ne_of_lt (fresh row List.mem_cons_self other member)) chain row.toEvent
      rw [List.foldl_cons, ih rest, written, List.flatMap_cons, List.append_assoc]
      intro next member other written
      rcases seqs other written with old | same
      · exact fresh next (List.mem_cons_of_mem _ member) other old
      · rw [same]
        exact later next member

theorem servedRows_eq (chain : CommerceEvents) :
    (servedRows chain.rows).map ObservationRow.observation = chain.rows.flatMap fun row =>
      (projection (returnedBefore chain.rows row.toEvent row.seq) row.toEvent).toList := by
  unfold servedRows
  rw [persisted_rows chain.rows chain.rows chain.ordered [] (by simp)]
  rfl

/-! ## The served score and the replayed one -/

/-- Whether an earlier row carries a refund of the event's order in its columns. -/
def returnedInColumns (before : List LedgerRow) (event : Record) : Bool :=
  (orderIdentity event).any fun order => before.any fun row => row.returns order

/-- Every written observation is the one the replay emits, and the scores are equal. -/
structure ServesReplay (chain : CommerceEvents) : Prop where
  observation : ∀ before row after, chain.rows = before ++ row :: after →
    (persistEventObservations chain.rows row.seq row.toEvent []).map
        (Observation.explicit ∘ ObservationRow.observation) =
      ((emittedAt chain.events before.length).map Observation.explicit).toList
  score : ∀ m asOf, scoreByStore m ((servedRows chain.rows).map ObservationRow.observation) asOf =
    replay m chain.events asOf

/-- Columns and walk agree about the order of every report whose weight a return decides. -/
def ReturnsAgree (chain : CommerceEvents) : Prop :=
  ∀ before row after, chain.rows = before ++ row :: after → DependsOnReturn row.toEvent →
    returnedInColumns before row.toEvent = returnedInWalk (before.map LedgerRow.toEvent) row.toEvent

theorem returnedBefore_eq (chain : CommerceEvents) {before after : List LedgerRow} {row : LedgerRow}
    (position : chain.rows = before ++ row :: after) :
    returnedBefore chain.rows row.toEvent row.seq = returnedInColumns before row.toEvent := by
  have ordered := chain.ordered
  rw [position] at ordered
  obtain ⟨-, fromRow, below⟩ := List.pairwise_append.mp ordered
  have above := (List.pairwise_cons.mp fromRow).1
  unfold returnedBefore returnedInColumns
  cases identity : orderIdentity row.toEvent with
  | none => rfl
  | some order =>
      rw [position, Option.any_some, Bool.eq_iff_iff]
      simp only [List.any_eq_true, Bool.and_eq_true, decide_eq_true_eq]
      constructor
      · rintro ⟨other, member, returns, earlier⟩
        rcases List.mem_append.mp member with old | new
        · exact ⟨other, old, returns⟩
        · rcases List.mem_cons.mp new with rfl | later
          · exact absurd earlier (Nat.lt_irrefl _)
          · exact absurd earlier (Nat.lt_asymm (above other later))
      · rintro ⟨other, member, returns⟩
        exact ⟨other, List.mem_append_left _ member, returns,
          below other member row List.mem_cons_self⟩

/-- The observation written for a row is the one the walk emits. -/
def ObservationAgrees (chain : CommerceEvents) : Prop :=
  ∀ before row after, chain.rows = before ++ row :: after →
    (projection (returnedInColumns before row.toEvent) row.toEvent).map Observation.explicit =
      (projection (returnedInWalk (before.map LedgerRow.toEvent) row.toEvent) row.toEvent).map
        Observation.explicit

theorem observationAgrees_iff (chain : CommerceEvents) :
    ObservationAgrees chain ↔ ReturnsAgree chain := by
  unfold ObservationAgrees ReturnsAgree
  simp only [projection_agree_iff]

theorem written_iff (chain : CommerceEvents) {before after : List LedgerRow} {row : LedgerRow}
    (position : chain.rows = before ++ row :: after) :
    (persistEventObservations chain.rows row.seq row.toEvent []).map
        (Observation.explicit ∘ ObservationRow.observation) =
      ((emittedAt chain.events before.length).map Observation.explicit).toList ↔
    (projection (returnedInColumns before row.toEvent) row.toEvent).map Observation.explicit =
      (projection (returnedInWalk (before.map LedgerRow.toEvent) row.toEvent) row.toEvent).map
        Observation.explicit := by
  have untouched : ∀ other ∈ ([] : List ObservationRow), other.eventSeq ≠ row.seq := by simp
  obtain ⟨written, -⟩ := persistEventObservations_fresh untouched chain.rows row.toEvent
  have emitted := emittedAt_eq (before.map LedgerRow.toEvent) (after.map LedgerRow.toEvent) row.toEvent
  rw [List.length_map] at emitted
  unfold CommerceEvents.events
  rw [← List.map_map, written, returnedBefore_eq chain position, position,
    List.map_append (f := LedgerRow.toEvent), List.map_cons, emitted]
  cases projection (returnedInColumns before row.toEvent) row.toEvent <;>
    cases projection (returnedInWalk (before.map LedgerRow.toEvent) row.toEvent) row.toEvent <;> simp

theorem emissions_explicit {chain : CommerceEvents} (agrees : ObservationAgrees chain)
    (before rows : List LedgerRow) (position : chain.rows = before ++ rows) :
    (emissions ((before.map LedgerRow.toEvent).filterMap returnIn) (rows.map LedgerRow.toEvent)).map
        (Option.map Observation.explicit) =
      rows.map fun row => (projection (returnedBefore chain.rows row.toEvent row.seq) row.toEvent).map
        Observation.explicit := by
  induction rows generalizing before with
  | nil => rfl
  | cons row rows ih =>
      have next := ih (before ++ [row]) (by rw [position]; simp)
      have here := agrees before row rows position
      simp only [List.map_cons, emissions, projectEvent_eq]
      rw [returnedBefore_eq chain position, here, ← next]
      congr 2
      rw [List.map_append, List.filterMap_append, List.map_singleton]
      cases refund : returnIn row.toEvent <;> simp [refund]

theorem replay_of_agrees {chain : CommerceEvents} (agrees : ObservationAgrees chain) (m : Manifest)
    (asOf : Value) : scoreByStore m ((servedRows chain.rows).map ObservationRow.observation) asOf =
      replay m chain.events asOf := by
  have emitted := emissions_explicit agrees [] chain.rows rfl
  have same : ((servedRows chain.rows).map ObservationRow.observation).map Observation.explicit =
      (observationsFromEvents chain.events []).map Observation.explicit := by
    unfold observationsFromEvents
    rw [servedRows_eq, ← List.reduceOption_map, ← List.filterMap_eq_flatMap_toList,
      List.map_filterMap]
    refine Eq.trans ?_ (congrArg List.reduceOption emitted.symm)
    delta List.reduceOption
    rw [List.filterMap_map]
    rfl
  unfold replay
  rw [← scoreByStore_explicit, same, scoreByStore_explicit]

theorem ServesReplay.returnsAgree {chain : CommerceEvents} (serves : ServesReplay chain) :
    ReturnsAgree chain := by
  apply (observationAgrees_iff chain).mp
  intro before row after position
  exact (written_iff chain position).mp (serves.observation before row after position)

theorem servesReplay_iff (chain : CommerceEvents) : ServesReplay chain ↔ ReturnsAgree chain := by
  constructor
  · exact ServesReplay.returnsAgree
  · intro returns
    have agrees := (observationAgrees_iff chain).mpr returns
    exact ⟨fun before row after position => (written_iff chain position).mpr
      (agrees before row after position), replay_of_agrees agrees⟩

end Written

def payloadRefund : LedgerRow where
  seq := 1
  eventId := str "r-1"
  ts := str "2026-07-01T00:00:00.000Z"
  kind := str "refund"
  auctionId := none
  storeId := some (str "s")
  orderRef := none
  payload := .dict [(str "order_ref", .str (str "o")), (str "amount", .int 1), (str "reason", .str [])]
  prevHash := []
  eventHash := []

def reportAfterRefund : LedgerRow where
  seq := 2
  eventId := str "f-1"
  ts := str "2026-07-02T00:00:00.000Z"
  kind := str "feedback"
  auctionId := none
  storeId := some (str "s")
  orderRef := some (str "o")
  payload := .dict [(str "matched_pitch", .bool true), (str "dim", .str (str "feedback_match")),
    (str "type", .str (str "fulfilled"))]
  prevHash := []
  eventHash := []

def reportedRefund : CommerceEvents where
  rows := [payloadRefund, reportAfterRefund]
  ordered := by simp [payloadRefund, reportAfterRefund]

theorem reportedRefund_not_served : letI := Unicode.ascii; ¬ ServesReplay reportedRefund := by
  let tables : Unicode := Unicode.ascii
  intro serves
  have dependent : DependsOnReturn reportAfterRefund.toEvent :=
    ⟨by decide, by decide, by decide, by decide,
      Or.inl (by decide), by decide⟩
  have agree := serves.returnsAgree [payloadRefund] reportAfterRefund [] rfl dependent
  revert agree
  decide

end Proxyshop.Events
