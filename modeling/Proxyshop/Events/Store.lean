import Proxyshop.Ledger.Canonical

/-!
# The in-memory event store

An append is a computation that may raise over the three fields it mutates: the event list, the
index by id and the anchor.
-/

namespace Proxyshop.Events

open Python Ledger

def eventFields : List Str :=
  ["event_id", "ts", "kind", "auction_id", "store_id", "order_ref", "payload"].map str

def ledgerEventKinds : List Str :=
  ["accepted", "auction_closed", "auction_opened", "bid_placed", "blacklist_expired", "blacklisted",
    "checkout_pixel", "checkout_redirect", "claim_verified", "code_created", "feedback",
    "offer_integrity", "order_fulfilled", "order_paid", "policy_event", "reconciled", "refund",
    "shown"].map str

inductive Fault
  | notAnObject
  | notCanonical (cause : Error)
  | missingTs
  | eventId
  | payload
  | unknownFields (names : List Str)
  deriving DecidableEq

inductive AppendError
  | invalidEvent (fault : Fault)
  | unknownEventKind
  | idempotencyConflict
  /-- Raised below the store and let through. -/
  | ledger (cause : Error)
  deriving DecidableEq

inductive InitError
  | brokenChain (reason : Option Reason)
  | ledger (cause : Error)

structure AppendOutcome where
  event : Record
  inserted : Bool
  headHash : Str
  seq : Int
  length : Nat

structure InMemoryEventStore where
  events : List Record
  byId : Dict Str Record
  anchorLength : Nat
  anchorHead : Str

/-- The methods of the store: a raise keeps the mutations made before it. -/
abbrev StoreM := ExceptT AppendError (StateM InMemoryEventStore)

structure StreamReport where
  chain : Report
  length : Nat
  expectedLength : Option Int
  expectedHead : Option Str
  streamHash : Option Str

structure AnchoredReport where
  stream : StreamReport
  anchorOk : Bool

def AnchoredReport.ok (report : AnchoredReport) : Bool := report.stream.chain.ok

section Store

variable [Unicode]

def checkKind : Value → Except AppendError Unit
  | .str kind => if kind ∈ ledgerEventKinds then .ok () else .error .unknownEventKind
  | .list _ | .dict _ => .error (.ledger (.python .typeError))
  | _ => .error .unknownEventKind

def checkEventId : Value → Except AppendError Unit
  | .str eventId => if eventId.strip = [] then .error (.invalidEvent .eventId) else .ok ()
  | _ => .error (.invalidEvent .eventId)

def checkBody (body : Record) : Except AppendError Unit := do
  if !Dict.contains body (str "ts") then .error (.invalidEvent .missingTs)
  checkEventId (body.get (str "event_id"))
  checkKind (body.get (str "kind"))
  if (body.get (str "payload")).asDict?.isNone then .error (.invalidEvent .payload)
  let unknown := (Dict.keys body).filter fun name => name ∉ eventFields
  if unknown ≠ [] then .error (.invalidEvent (.unknownFields unknown))

def normaliseEvent (event : Value) : Except AppendError Record :=
  match event with
  | .dict fields => match canonicalEvent fields with
      | .ok body => do
          checkBody body
          return body
      | .error cause =>
          .error (if cause.isValueError then .invalidEvent (.notCanonical cause) else .ledger cause)
  | _ => .error (.invalidEvent .notAnObject)

def rowId (row : Record) : Str := (row.get (str "event_id")).toStr

/-! ## Integrity reports -/

def streamHashOrNone (events : List Record) : Except Error (Option Str) :=
  match streamHash events with
  | .ok hash => .ok (some hash)
  | .error (.canonicalisation _) => .ok none
  | .error cause => .error cause

def verifyStream (events : List Record) (expectedLength : Option Int) (expectedHead : Option Str)
    (allowEmpty : Bool) : Except Error StreamReport := do
  let chain ← verifyChain events expectedLength expectedHead allowEmpty
  return ⟨chain, events.length, expectedLength, expectedHead, ← streamHashOrNone events⟩

def anchoredReport (events : List Record) (length : Nat) (headHash : Str) :
    Except Error AnchoredReport := do
  let expectedHead := if length ≠ 0 then some headHash else none
  let stream ← verifyStream events (some (length : Int)) expectedHead (length == 0)
  return ⟨stream, events.length == length && (length == 0 || stream.streamHash == some headHash)⟩

namespace InMemoryEventStore

def numberRows : Nat → List Record → List Record
  | _, [] => []
  | index, row :: rows =>
      Dict.setDefault row (str "seq") (.int (index + 1 : Nat)) :: numberRows (index + 1) rows

def indexRows (rows : List Record) : Dict Str Record :=
  rows.foldl (fun byId row => Dict.set byId (rowId row) row) []

def init (events : List Record) : Except InitError InMemoryEventStore :=
  if events.isEmpty then .ok ⟨[], [], 0, genesisHash⟩
  else
    match verifyStream events none none false with
    | .error cause => .error (.ledger cause)
    | .ok report =>
        if report.chain.ok then
          let rows := numberRows 0 events
          match chainHead rows with
          | .error cause => .error (.ledger cause)
          | .ok head => .ok ⟨rows, indexRows rows, rows.length, head⟩
        else .error (.brokenChain report.chain.reason)

def verify (s : InMemoryEventStore) : Except Error AnchoredReport :=
  anchoredReport s.events s.anchorLength s.anchorHead

def ledger {α : Type} (x : Except Error α) : StoreM α :=
  match x with
  | .ok a => pure a
  | .error cause => throw (.ledger cause)

def python {α : Type} (x : Except PyError α) : StoreM α :=
  match x with
  | .ok a => pure a
  | .error e => throw (.ledger (.python e))

def answerStored (existing : Record) : StoreM AppendOutcome := do
  let s ← get
  let head ← ledger (chainHead s.events)
  let seq ← python (existing.get (str "seq")).toInt
  return ⟨existing, false, head, seq, s.events.length⟩

def appendExisting (existing body : Record) : StoreM AppendOutcome := do
  let stored ← ledger (canonicalText existing)
  let incoming ← ledger (canonicalJson (.dict body))
  if stored = incoming then answerStored existing else throw .idempotencyConflict

def insertRow (eventId : Str) (row : Record) : StoreM AppendOutcome := do
  modify fun s => { s with events := s.events ++ [row] }
  modify fun s => { s with byId := Dict.set s.byId eventId row }
  modify fun s => { s with anchorLength := s.anchorLength + 1 }
  modify fun s => { s with anchorHead := (row.get (str "event_hash")).toStr }
  let s ← get
  let seq ← python (row.get (str "seq")).toInt
  return ⟨row, true, s.anchorHead, seq, s.anchorLength⟩

def appendNew (eventId : Str) (body : Record) : StoreM AppendOutcome := do
  let s ← get
  let head ← ledger (chainHead s.events)
  let row ← ledger (sealEvent body head)
  insertRow eventId (Dict.set row (str "seq") (.int (s.events.length + 1 : Nat)))

def append (event : Value) : StoreM AppendOutcome := do
  let body ← ExceptT.mk (pure (normaliseEvent event))
  let eventId := rowId body
  match Dict.get? (← get).byId eventId with
  | some existing => appendExisting existing body
  | none => appendNew eventId body

def call (s : InMemoryEventStore) (event : Value) :
    Except AppendError AppendOutcome × InMemoryEventStore := (append event).run.run s

def appendAll (s : InMemoryEventStore) (events : List Value) : InMemoryEventStore :=
  events.foldl (fun s event => (call s event).2) s

end InMemoryEventStore
end Store
end Proxyshop.Events
