import Proxyshop.External.Door
import Proxyshop.Ranking.Verification
import Proxyshop.Structures.Custody

/-!
# The verification queue

An admitted submission is appended to a list that has a ceiling, and drains take items off its head,
verify them and tell the ledger, or put them back at its tail. An entry of the list is named by the
call whose submission it holds.
-/

namespace Proxyshop.External.Backlog

open Python hiding Value
open Numbers Contracts Structures Verification Ranking

/-! ## What is asked of the queue, the catalogue and the ledger -/

inductive Op (ι : Type)
  | door (op : External.Op Binary64)
  | llen
  | rpush (entry : ι)
  | lpop
  | snapshotFor (storeId : Str) (productRef : Value)
  | record (entry : ι) (announcement : Announcement)
  | countVerified (entry : ι)

def Answer {ι : Type} : Op ι → Type
  | .door op => External.Answer op
  | .llen => Nat
  | .rpush _ => Unit
  | .lpop => Option ι
  | .snapshotFor _ _ => Value
  | .record _ _ => Bool
  | .countVerified _ => Unit

inductive Fault
  | queueFull
  | recorder
  | verifier (error : PyError)

structure DrainReport where
  verified : Nat
  deferred : Nat
  reason : Str

inductive Outcome
  | receipt (receipt : Receipt)
  | report (report : DrainReport)

abbrev Task (ι A : Type) := Program (Op ι) Answer Fault A

/-- The ceiling, whether a recorder is bound, the approved routing of claim types, the version of the
verifier, and how the claims of a pitch are read out of its text. -/
structure Wiring where
  maxItems : Int
  recorder : Bool
  dimensions : Option (Option Str → Option Str)
  verifierVersion : Value
  decomposePitch : (storeId auctionId text : Str) → (vocabulary : List Str) → List Value

/-! ## Items -/

structure WorkItem where
  storeId : Str
  auctionId : Str
  productRef : Value
  claims : Value
  message : Value

def namedStore (submission : Submission Binary64) : Str :=
  match (Json.object submission.fields).get (str "store_id") with
  | .string storeId => storeId
  | _ => []

/-- `_work_item`, as it is read back. -/
def workItem (submission : Submission Binary64) : WorkItem where
  storeId := namedStore submission
  auctionId := submission.auctionId
  productRef := ((Json.object submission.fields).get (str "offer")).get (str "product_ref")
  claims := (Json.object submission.fields).get (str "claims")
  message := (Json.object submission.fields).get (str "message")

section Programs

variable [Spelling Binary64] [Folding] [Sealing] {ι : Type} (q : Wiring)

/-- `RedisVerificationQueue.enqueue`. -/
def enqueue (entry : ι) : Task ι Unit :=
  .perform .llen fun (depth : Nat) =>
    if q.maxItems ≤ depth then .raises .queueFull
    else .perform (.rpush entry) fun _ => .returns ()

/-- `_requeue`: a queue that refuses the item is not heard. -/
def requeue (entry : ι) : Task ι Unit := (enqueue q entry).handle fun _ => .returns ()

/-! ## Verifying an item -/

/-- The claims that the message is read to make, if it has a text. -/
def pitchOf (item : WorkItem) : Option (List Str → List Value) :=
  match item.message with
  | .string text => if text.strip.isEmpty then none else some (q.decomposePitch item.storeId item.auctionId text)
  | _ => none

def announcement (b : Bench) (dimension : Option Str → Option Str) (findings : List (Finding Binary64))
    (claim : Value × Nat) : Except PyError (Option Announcement) := do
  let (status, _) ← b.verdictOn claim.1 findings[claim.2]?
  return claimVerdictPayload dimension (claimRefFor b.storeId claim.2) status
    (findings[claim.2]?.bind Finding.claimType)

def announce (entry : ι) : Option Announcement → Task ι Unit
  | none => .returns ()
  | some announcement => .perform (.record entry announcement) fun (taken : Bool) =>
      if taken then .returns () else .raises .recorder

/-- The claims are announced one after another, each before it is attested. -/
def attestEach (b : Bench) (dimension : Option Str → Option Str) (findings : List (Finding Binary64))
    (entry : ι) : List (Value × Nat) → Task ι Unit
  | [] => .returns ()
  | claim :: rest =>
      match announcement b dimension findings claim with
      | .error error => .raises (.verifier error)
      | .ok announced => (announce entry announced).bind fun _ =>
          match b.attest dimension findings claim with
          | .error error => .raises (.verifier error)
          | .ok _ => attestEach b dimension findings entry rest

/-- The claims to attest, with what the exchange holds for them. -/
def benchFor (item : WorkItem) (claims : List Value) (snapshot : Value) :
    Except PyError (Option (Bench × List Value)) := do
  let narrowed ← narrowedTo snapshot item.productRef
  let decidable ← decidableKeys narrowed item.productRef
  let presented := presentedClaims decidable (pitchOf q item) claims
  if presented.isEmpty then return none
  return some (⟨item.storeId, ← spelledOrNone item.productRef, narrowed, decidable, q.verifierVersion⟩,
    presented)

/-- `verify_work_item`. -/
def verifyWorkItem (dimension : Option Str → Option Str) (entry : ι) (item : WorkItem) : Task ι Unit :=
  match Wire.itemsOrNone item.claims with
  | .error error => .raises (.verifier error)
  | .ok claims =>
      if claims.isEmpty && (pitchOf q item).isNone then .returns ()
      else
        .perform (.snapshotFor item.storeId item.productRef) fun (snapshot : Value) =>
          match benchFor q item claims snapshot with
          | .error error => .raises (.verifier error)
          | .ok none => .returns ()
          | .ok (some (bench, presented)) =>
              attestEach bench dimension (bench.findings presented) entry presented.zipIdx

/-! ## Drains and submissions -/

/-- An item that the verifier fails on is put back, and the drain ends. -/
def verifyOrRequeue (dimension : Option Str → Option Str) (entry : ι) (item : WorkItem) : Task ι Bool :=
  ((verifyWorkItem q dimension entry item).bind fun _ => .returns true).handle fun _ =>
    (requeue q entry).bind fun _ => .returns false

variable (x : Deployment Binary64) (calls : ι → Call Binary64)

def drainUpTo (dimension : Option Str → Option Str) : Nat → Nat → Nat → Task ι DrainReport
  | 0, verified, deferred => .returns ⟨verified, deferred, []⟩
  | batch + 1, verified, deferred => .perform .lpop fun (popped : Option ι) =>
      match popped with
      | none => .returns ⟨verified, deferred, []⟩
      | some entry =>
          let item := workItem (calls entry).submission
          .perform (.snapshotFor item.storeId item.productRef) fun (snapshot : Value) =>
            if snapshot.isNull then
              (requeue q entry).bind fun _ => drainUpTo dimension batch verified (deferred + 1)
            else (verifyOrRequeue q dimension entry item).bind fun done =>
              if done then
                .perform (.countVerified entry) fun _ => drainUpTo dimension batch (verified + 1) deferred
              else .returns ⟨verified, deferred + 1, str "verifier_failed"⟩

/-- `drain_verification_queue`. -/
def drainVerificationQueue (maxItems : Int) : Task ι DrainReport :=
  if q.recorder then
    match q.dimensions with
    | none => .returns ⟨0, 0, str "no_claim_dimension_routing"⟩
    | some dimension => drainUpTo q calls dimension maxItems.toNat 0 0
  else .returns ⟨0, 0, str "no_ledger_recorder"⟩

/-- What the door asks for, the queue being this one: one that raises did not take the item. -/
def carryOut (entry : ι) : (op : External.Op Binary64) → Task ι (External.Answer op)
  | .now => .perform (.door .now) .returns
  | .purgeExpired moment => .perform (.door (.purgeExpired moment)) .returns
  | .consume key retention => .perform (.door (.consume key retention)) .returns
  | .enqueue _ => ((enqueue q entry).bind fun _ => .returns true).handle fun _ => .returns false

def submit (i : ι) : Task ι Receipt := (receiveBid x (calls i)).expand (carryOut q i)

end Programs

/-! ## What the parties share -/

inductive Party (ι κ : Type)
  | submission (call : ι)
  | drain (run : κ)
  deriving DecidableEq

/-- A submission has been appended, or found the queue full; a drain holds an entry, of which it has
told the ledger. -/
inductive Stage (ι : Type)
  | idle
  | sent
  | full
  | holds (entry : ι) (told : List Announcement)

namespace Stage

variable {ι : Type}

def held : Stage ι → Option ι
  | .holds entry _ => some entry
  | _ => none

def tell (announcement : Announcement) : Stage ι → Stage ι
  | .holds entry told => .holds entry (told ++ [announcement])
  | stage => stage

end Stage

namespace Party

variable {ι κ : Type}

def rested : Party ι κ → Stage ι
  | .submission _ => .sent
  | .drain _ => .idle

def turnedAway : Party ι κ → Stage ι
  | .submission _ => .full
  | .drain _ => .idle

end Party

/-- The stages, the entries verified and those dropped are only recorded. -/
structure Service (ι κ : Type) where
  exchange : Exchange Binary64 ι
  backlog : List ι
  ledger : List (ι × Announcement)
  stages : Party ι κ → Stage ι
  verified : List ι
  dropped : List ι

section Effects

variable {ι κ : Type} [DecidableEq ι] [DecidableEq κ]

namespace Service

variable (s : Service ι κ) (p : Party ι κ)

def turnsAway : Service ι κ :=
  { s with
    stages := Function.update s.stages p p.turnedAway
    dropped := s.dropped ++ (s.stages p).held.toList }

def appends (entry : ι) : Service ι κ :=
  { s with
    backlog := s.backlog ++ [entry]
    stages := Function.update s.stages p p.rested }

def tells (entry : ι) (announcement : Announcement) : Service ι κ :=
  { s with
    ledger := s.ledger ++ [(entry, announcement)]
    stages := Function.update s.stages p ((s.stages p).tell announcement) }

def counts (entry : ι) : Service ι κ :=
  { s with
    stages := Function.update s.stages p .idle
    verified := s.verified ++ [entry] }

end Service

variable [Spelling Binary64] [Folding] [Sealing]
variable (x : Deployment Binary64) (calls : ι → Call Binary64) (q : Wiring)

/-- What an operation does. The catalogue may answer differently each time, and the recorder may
raise. -/
inductive Effect : Party ι κ → Service ι κ → (op : Op ι) → Answer op → Service ι κ → Prop
  | door {i : ι} {s : Service ι κ} {op : External.Op Binary64} {answer : External.Answer op}
      {exchange : Exchange Binary64 ι} (done : External.Effect x calls i s.exchange op answer exchange) :
      Effect (.submission i) s (.door op) answer { s with exchange }
  | llen {p : Party ι κ} {s : Service ι κ} :
      Effect p s .llen s.backlog.length (if q.maxItems ≤ s.backlog.length then s.turnsAway p else s)
  | rpush {p : Party ι κ} {s : Service ι κ} {entry : ι} : Effect p s (.rpush entry) () (s.appends p entry)
  | empty {p : Party ι κ} {s : Service ι κ} (nothing : s.backlog = []) : Effect p s .lpop none s
  | lpop {p : Party ι κ} {s : Service ι κ} {entry : ι} {rest : List ι} (head : s.backlog = entry :: rest) :
      Effect p s .lpop (some entry)
        { s with
          backlog := rest
          stages := Function.update s.stages p (.holds entry []) }
  | snapshotFor {p : Party ι κ} {s : Service ι κ} {storeId : Str} {productRef : Value} (snapshot : Value) :
      Effect p s (.snapshotFor storeId productRef) snapshot s
  | record {p : Party ι κ} {s : Service ι κ} {entry : ι} {announcement : Announcement} (taken : Bool) :
      Effect p s (.record entry announcement) taken (if taken then s.tells p entry announcement else s)
  | countVerified {p : Party ι κ} {s : Service ι κ} {entry : ι} :
      Effect p s (.countVerified entry) () (s.counts p entry)

abbrev Channel (ι κ : Type) := World (Service ι κ) (Party ι κ) (Op ι) Answer Fault Outcome

/-- Submissions and drains on one queue, none of which has begun. -/
def opened (batch : κ → Int) (clock : Int) (nonces : NonceStore) : Channel ι κ where
  shared :=
    { exchange := (External.opened x calls clock nonces).shared
      backlog := []
      ledger := []
      stages := fun _ => .idle
      verified := []
      dropped := [] }
  calls
    | .submission i => (submit q x calls i).bind fun receipt => .returns (.receipt receipt)
    | .drain k => (drainVerificationQueue q calls (batch k)).bind fun report => .returns (.report report)

/-- The submission has been answered by an accepting receipt. -/
def Admitted (w : Channel ι κ) (i : ι) : Prop :=
  ∃ receipt : Receipt, (w.calls (.submission i)).finished = some (.ok (.receipt receipt)) ∧
    receipt.accepted = true

end Effects
end Proxyshop.External.Backlog
