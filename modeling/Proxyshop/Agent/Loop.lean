import Proxyshop.Agent.Runner

/-!
# The loop of a runner

An answer is computed in every mode, logged to the sink, and handed to the submitter only if the runner
submits. The sink and the submitter are other people's objects: what they are given they may keep and
rewrite, and a call of them may raise.
-/

namespace Proxyshop.Agent

open Python Numbers Contracts Learning Verification Structures
open Merchant (Activation)
open Scoring (Dimension)

/-! ## Collaborators -/

/-- An injected sink or submitter: `None`, an object that can be called, or one whose methods are looked
for. -/
structure Collaborator where
  present : Bool
  callable : Bool
  exposes : Str → Except PyError Bool

def collaboratorMethods : List Str :=
  ["write", "append", "log", "record", "put", "enqueue", "send", "submit"].map str

inductive Call
  | direct
  | method (name : Str)

/-- `_delivery`. -/
def delivery (c : Collaborator) : Except PyError (Option Call) :=
  if c.present then
    if c.callable then .ok (some .direct)
    else return (← collaboratorMethods.findM? c.exposes).map .method
  else .ok none

/-- A call to a collaborator is made, or raises before it is. -/
def reach (c : Collaborator) : Except PyError Call :=
  match delivery c with
  | .error e => .error e
  | .ok none => .error .typeError
  | .ok (some call) => .ok call

/-- What a collaborator makes of a call: it may raise, and it may rewrite the objects that it holds. -/
structure Reply (A : Type) where
  raises : Bool
  edit : Nat → A → A

/-- The objects at the addresses that are held are rewritten. -/
def meddle {A : Type} (held : List Nat) (edit : Nat → A → A) (objects : List A) : List A :=
  objects.mapIdx fun address answer => if address ∈ held then edit address answer else answer

/-! ## Entries -/

structure TrustSignal (F : Type) where
  dim : Dimension
  netDelta : Extended F
  observations : Nat

/-- The reason of an answer, and the sum of the deltas of a dimension. -/
class Reporting (F : Type) (A : Type) where
  rationaleFor : A → List (TrustSignal F) → Except PyError Str
  sum : List (Extended F) → Extended F

/-- `BidLogEntry`, whose answer is the object at an address. -/
structure BidLogEntry (F : Type) where
  auctionId : Str
  storeId : Str
  mode : Activation
  submitting : Bool
  rationale : Str
  trustPosture : List (TrustSignal F)
  answer : Nat
  arm : Option (Arm F)

/-! ## Activation -/

namespace Runner

variable {F : Type}

/-- `mode.setter`. -/
def assign (r : Runner F) (submitter : Collaborator) (value : Exposed F) : Except PyError (Runner F) := do
  let mode ← asMode value
  if mode = .active then
    match ← delivery submitter with
    | none => throw .valueError
    | some _ => return { r with mode }
  else return { r with mode }

/-- `__init__`. -/
def opened (context : Exposed F) (storeId : Str) (sink submitter : Collaborator) (mode : Option (Exposed F))
    (learning : Option (StoreLearningState F)) : Except PyError (Runner F) :=
  if sink.present then
    (initial context storeId .shadow learning).assign submitter
      (mode.getD (.plain (.string (envelopeStates context).text)))
  else .error .valueError

section Entries

variable (A : Type) [Bidding F A] [Reporting F A]

/-- `trust_posture`. -/
def trustPosture (r : Runner F) : List (TrustSignal F) :=
  (sortBy Str.le (fun entry => entry.1.name) r.deltas).map fun entry =>
    { dim := entry.1, netDelta := Reporting.sum A entry.2, observations := entry.2.length }

/-- The entry that an answer is logged as, which stands at an address. -/
def entry (r : Runner F) (arm : Option (Arm F)) (answer : A) (address : Nat) :
    Except PyError (BidLogEntry F) := do
  let rationale ← Reporting.rationaleFor answer (r.trustPosture A)
  return {
    auctionId := Bidding.auctionId F answer
    storeId := Str.or (Bidding.storeId F answer) r.storeId
    mode := r.mode
    submitting := r.submits
    rationale
    trustPosture := r.trustPosture A
    answer := address
    arm }

end Entries
end Runner

/-! ## The desk -/

inductive Delivery (F A : Type)
  /-- The sink took the entry; the answer is the entry's as the sink left it. -/
  | logged (call : Nat) (entry : BidLogEntry F) (answer : A) (decided : Runner F)
  | unlogged (call : Nat) (entry : BidLogEntry F)
  | submitted (call : Nat) (answer : A) (raised : Bool)

/-- A runner with its collaborators, the answers at their addresses, and which of them the sink and the
submitter hold. -/
structure Desk (F A : Type) where
  runner : Runner F
  sink : Collaborator
  submitter : Collaborator
  objects : List A
  shown : List Nat
  copies : List Nat
  entries : List (BidLogEntry F)
  deliveries : List (Delivery F A)
  calls : Nat

namespace Desk

variable {F A : Type}

def initial (runner : Runner F) (sink submitter : Collaborator) : Desk F A where
  runner := runner
  sink := sink
  submitter := submitter
  objects := []
  shown := []
  copies := []
  entries := []
  deliveries := []
  calls := 0

/-- `_emit` of a private copy of the answer to the submitter. -/
def submit (d : Desk F A) (answer : A) (reply : Reply A) : Desk F A :=
  match reach d.submitter with
  | .error _ => { d with objects := d.objects ++ [answer] }
  | .ok _ =>
      { d with
        objects := meddle (d.objects.length :: d.copies) reply.edit (d.objects ++ [answer])
        copies := d.objects.length :: d.copies
        deliveries := d.deliveries ++ [.submitted d.calls answer reply.raises] }

/-- The sink holds the answer at an address from now on, and rewrites what it holds. -/
def give (d : Desk F A) (address : Nat) (edit : Nat → A → A) : Desk F A :=
  { d with
    objects := meddle (address :: d.shown) edit d.objects
    shown := address :: d.shown }

def write (d : Desk F A) (entry : BidLogEntry F) (answer : A) : Desk F A :=
  { d with
    entries := d.entries ++ [entry]
    deliveries := d.deliveries ++ [.logged d.calls entry answer d.runner] }

/-- `_emit` of the entry to the sink, and of its answer to the submitter if the entry says so. -/
def log (d : Desk F A) (entry : BidLogEntry F) (answer : A) (sinkReply reply : Reply A) : Desk F A :=
  match reach d.sink with
  | .error _ => d
  | .ok _ =>
      let given := d.give entry.answer sinkReply.edit
      let left := given.objects.getD entry.answer answer
      if sinkReply.raises then { given with deliveries := d.deliveries ++ [.unlogged d.calls entry] }
      else if entry.submitting then (given.write entry left).submit left reply
      else given.write entry left

section Acting

variable [Format F] [Unicode] [Spelling F] [DecidableEq F]
variable [Sampling F] [Bidding F A] [Reporting F A]

omit [Unicode] [DecidableEq F] in
/-- `run`. -/
def run (d : Desk F A) (request : Wire F) (sinkReply reply : Reply A) : Desk F A :=
  match d.runner.answer A request with
  | (.error _, r) => { d with runner := r }
  | (.ok (arm, answer), r) =>
      let d' := { d with
        runner := r
        objects := d.objects ++ [answer]
        calls := d.calls + 1 }
      match r.entry A arm answer d.objects.length with
      | .error _ => d'
      | .ok entry => d'.log entry answer sinkReply reply

inductive Action (F A : Type)
  | assign (value : Exposed F)
  | edit (context : Exposed F)
  | ingest (pushed : Option (TrustEventPayload F))
  | ingestTrustEvents (pushed : List (Option (TrustEventPayload F)))
  | run (request : Wire F) (sinkReply reply : Reply A)
  | sinkActs (edit : Nat → A → A)
  | submitterActs (edit : Nat → A → A)
  | change (sink submitter : Collaborator)

def act (d : Desk F A) : Action F A → Desk F A
  | .assign value =>
      match d.runner.assign d.submitter value with
      | .error _ => d
      | .ok runner => { d with runner }
  | .edit context => { d with runner := { d.runner with context } }
  | .ingest pushed => { d with runner := (d.runner.ingest pushed).2 }
  | .ingestTrustEvents pushed => { d with runner := (d.runner.ingestTrustEvents pushed).2 }
  | .run request sinkReply reply => d.run request sinkReply reply
  | .sinkActs edit => { d with objects := meddle d.shown edit d.objects }
  | .submitterActs edit => { d with objects := meddle d.copies edit d.objects }
  | .change sink submitter => { d with sink, submitter }

end Acting
end Desk
end Proxyshop.Agent
