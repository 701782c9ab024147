import Proxyshop.Contracts.Timestamps
import Proxyshop.Python.Dict
import Proxyshop.Structures.Interleaving

/-!
# The external door

What a call judges by the clock, and when it sweeps the replay memory, spends its nonce and hands its
submission on. The gates that read neither the clock nor the replay memory are parameters of a call.
Instants are microseconds.
-/

namespace Proxyshop.External

open Python Numbers Contracts Structures

/-! ## The replay memory -/

structure NonceStore where
  maxEntries : Nat
  consumed : Dict (Str × Str) (Option Int)

inductive Consumption
  | spendable
  | replayed
  | full
  deriving DecidableEq

namespace NonceStore

/-- `purge_expired`: a pair without a retention is kept. -/
def purgeExpired (store : NonceStore) (moment : Int) : NonceStore :=
  { store with consumed := store.consumed.filter fun entry => !entry.2.any fun retainUntil => retainUntil < moment }

def consume (store : NonceStore) (key : Str × Str) (retention : Option Int) : NonceStore × Consumption :=
  if Dict.contains store.consumed key then (store, .replayed)
  else if store.maxEntries ≤ store.consumed.length then (store, .full)
  else ({ store with consumed := Dict.set store.consumed key retention }, .spendable)

end NonceStore

/-! ## Submissions and their gates -/

/-- The signed fields that the door acts on, and the others. -/
structure Submission (F : Type) where
  signerId : Str
  keyId : Str
  nonce : Str
  issuedAt : Wire F
  auctionId : Str
  fields : Dict Str (Wire F)

/-- The window that every call is judged by, and the real deadline of every auction. -/
structure Deployment (F : Type) where
  freshnessWindowSeconds : Wire F
  deadline : Str → Wire F

/-- One call: its submission, whether its process knows the auction at that moment, and the reasons
found by the gates before the clock is read and by those after it. -/
structure Call (F : Type) where
  submission : Submission F
  auctionKnown : Bool
  authenticity : List Str
  eligibility : Int → List Str

/-- `_auction_terms`: the deadline that the call passes. -/
def auctionDeadline {F : Type} (x : Deployment F) (c : Call F) : Wire F :=
  if c.auctionKnown then x.deadline c.submission.auctionId else .null

structure Receipt where
  accepted : Bool
  reasons : List Str
  deriving DecidableEq

def refuse (reasons : List Str) : Receipt := { accepted := false, reasons }

def Submission.key {F : Type} (submission : Submission F) : Str × Str :=
  (submission.signerId, submission.nonce)

section Gates

variable {F : Type} [Format F] [Unicode] (x : Deployment F)

/-- `_freshness_window`. -/
def freshnessWindow (value : Wire F) : Option F :=
  match value.toDouble with
  | .ok (.finite window) => if Format.value window < 0 then none else some window
  | _ => none

def exceeds (age : Int) (window : F) : Bool :=
  Extended.finite window < Format.round ((age : ℚ) / 1000000)

/-- `timedelta(seconds=window)`. -/
def timedeltaMicros (window : F) : Option Int :=
  let whole := truncate (Format.value window)
  match Format.round (F := F) ((Format.value window - whole) * 1000000) with
  | .finite micros => some (whole * 1000000 + nearest (Format.value micros))
  | _ => none

/-- The gates 4a and 4b at a reading of the clock: the reasons, if the call is refused. -/
def judge (c : Call F) (evaluatedAt : Int) : Option (List Str) :=
  match parseTimestamp c.submission.issuedAt with
  | none => some [str "issued_at_unparseable"]
  | some issuedAt =>
      match freshnessWindow x.freshnessWindowSeconds with
      | none => some [str "freshness_window_invalid"]
      | some window =>
          if exceeds (evaluatedAt - issuedAt.instant) window then some [str "issued_at_stale"]
          else if exceeds (issuedAt.instant - evaluatedAt) window then some [str "issued_at_future_dated"]
          else
            match parseTimestamp (auctionDeadline x c) with
            | none =>
                if (auctionDeadline x c).isNull then none else some [str "auction_deadline_unparseable"]
            | some deadline =>
                if deadline.instant < evaluatedAt then some [str "after_auction_deadline"] else none

def gates (c : Call F) (evaluatedAt : Int) : Option (List Str) :=
  (judge x c evaluatedAt).or
    (if (c.eligibility evaluatedAt).isEmpty then none else some (c.eligibility evaluatedAt))

/-- `_nonce_retention`, as the replay memory reads it. -/
def nonceRetention (c : Call F) : Option Int :=
  match parseTimestamp (auctionDeadline x c) with
  | some deadline => some deadline.instant
  | none => do
      let issuedAt ← parseTimestamp c.submission.issuedAt
      let micros ← timedeltaMicros (← freshnessWindow x.freshnessWindowSeconds)
      -- an instant out of range raises, and the pair is kept
      let _ ← DateTime.ofWall? (issuedAt.wall + micros) issuedAt.offset
      return issuedAt.instant + micros

end Gates

/-! ## Calls under way -/

inductive Op (F : Type)
  | now
  | purgeExpired (moment : Int)
  | consume (key : Str × Str) (retention : Option Int)
  | enqueue (submission : Submission F)

def Answer {F : Type} : Op F → Type
  | .now => Int
  | .purgeExpired _ => Unit
  | .consume _ _ => Consumption
  | .enqueue _ => Bool

abbrev Door (F : Type) := Program (Op F) Answer Empty Receipt

/-- How far a call has come: its gates are passed, the memory is swept, its nonce is spent. -/
inductive Stage
  | idle
  | judged (evaluatedAt : Int)
  | swept (evaluatedAt : Int)
  | spent
  deriving DecidableEq

/-- What the calls share. The stages, and the calls that have spent their nonce, are only recorded. -/
structure Exchange (F ι : Type) where
  clock : Int
  nonces : NonceStore
  queue : List (Submission F)
  stages : ι → Stage
  spent : List ι

section Calls

variable {F ι : Type} [Format F] [Unicode] [DecidableEq ι] (x : Deployment F)

/-- After the nonce is spent: a queue that raises did not take the item. -/
def handOn (c : Call F) : Consumption → Door F
  | .full => .returns (refuse [str "replay_memory_exhausted"])
  | .replayed => .returns (refuse [str "replayed_nonce"])
  | .spendable => .perform (.enqueue c.submission) fun (taken : Bool) =>
      if taken then .returns { accepted := true, reasons := [] }
      else .returns (refuse [str "verification_queue_unavailable"])

def spend (c : Call F) : Door F := .perform (.consume c.submission.key (nonceRetention x c)) (handOn c)

/-- The replay memory is swept at the instant that the call was judged at. -/
def sweep (c : Call F) (evaluatedAt : Int) : Door F := .perform (.purgeExpired evaluatedAt) fun _ => spend x c

/-- `receive_bid`. -/
def receiveBid (c : Call F) : Door F :=
  if c.authenticity.isEmpty then
    .perform .now fun evaluatedAt =>
      match gates x c evaluatedAt with
      | some reasons => .returns (refuse reasons)
      | none => sweep x c evaluatedAt
  else .returns (refuse c.authenticity)

/-- What an operation does to what the calls share; the clock never goes backwards. -/
inductive Effect (calls : ι → Call F) (i : ι) (s : Exchange F ι) :
    (op : Op F) → Answer op → Exchange F ι → Prop
  | now {reading : Int} (later : s.clock ≤ reading) : Effect calls i s .now reading
      { s with
        clock := reading
        stages := Function.update s.stages i
          (if gates x (calls i) reading = none then .judged reading else .idle) }
  | purgeExpired {moment : Int} : Effect calls i s (.purgeExpired moment) ()
      { s with
        nonces := s.nonces.purgeExpired moment
        stages := Function.update s.stages i (.swept moment) }
  | spends {key : Str × Str} {retention : Option Int}
      (spendable : (s.nonces.consume key retention).2 = .spendable) :
      Effect calls i s (.consume key retention) .spendable
        { s with
          nonces := (s.nonces.consume key retention).1
          stages := Function.update s.stages i .spent
          spent := s.spent ++ [i] }
  | refuses {key : Str × Str} {retention : Option Int}
      (unspendable : (s.nonces.consume key retention).2 ≠ .spendable) :
      Effect calls i s (.consume key retention) (s.nonces.consume key retention).2
        { s with stages := Function.update s.stages i .idle }
  | enqueue {submission : Submission F} (taken : Bool) : Effect calls i s (.enqueue submission) taken
      { s with queue := if taken then s.queue ++ [submission] else s.queue }

def opened (calls : ι → Call F) (clock : Int) (nonces : NonceStore) :
    World (Exchange F ι) ι (Op F) Answer Empty Receipt where
  shared := { clock, nonces, queue := [], stages := fun _ => .idle, spent := [] }
  calls i := receiveBid x (calls i)

def Accepted (w : World (Exchange F ι) ι (Op F) Answer Empty Receipt) (i : ι) : Prop :=
  ∃ receipt : Receipt, (w.calls i).finished = some (.ok receipt) ∧ receipt.accepted = true

end Calls
end Proxyshop.External
