import Proxyshop.External.Door
import Proxyshop.Structures.Interleaving

/-!
# One submission and its caller

A call of the door, where every read of an object of the caller may answer differently each time, or
raise. The canonicaliser and the keyed hash are given.
-/

namespace Proxyshop.External.Caller

open Python Numbers Contracts Structures

/-! ## Documents -/

inductive Key
  | text (s : Str)
  | other (id : Nat)
  deriving DecidableEq

/-- A value copied into plain containers; a leaf is text, a number, or anything that is no container. -/
inductive Plain (L : Type)
  | leaf (x : L)
  | mapping (entries : List (Key × Plain L))
  | sequence (items : List (Plain L))

abbrev Document (L : Type) := Dict Key (Plain L)

/-- The leaves that are text. -/
class Leaves (L : Type) where
  text : L → Option Str
  ofText : Str → L

namespace Document

variable {L : Type} [Leaves L]

def textAt (d : Document L) (name : Str) : Option Str :=
  match Dict.get? d (.text name) with
  | some (.leaf x) => Leaves.text x
  | _ => none

/-- `body["signature"] = signature`. -/
def signed (d : Document L) (signature : Str) : Document L :=
  Dict.set d (.text (str "signature")) (.leaf (Leaves.ofText signature))

end Document

/-- `canonical_signing_bytes` and `payload_hash`, each of which may raise, and HMAC in hexadecimal. -/
class Signing (L : Type) where
  bytes : Document L → Option (List UInt8)
  payloadHash : Document L → Option Str
  hmac : Str → List UInt8 → Str

/-- `_work_item`. -/
structure WorkItem (L : Type) where
  auctionId : Option (Plain L)
  storeId : Option (Plain L)
  signerId : Option (Plain L)
  keyId : Option (Plain L)
  issuedAt : Option (Plain L)
  nonce : Option (Plain L)
  payloadHash : Str
  unverifiedClaimIndexes : List Nat
  submission : Document L

def workItem {L : Type} [Leaves L] (submission : Document L) (signature digest : Str) (indexes : List Nat) :
    WorkItem L where
  auctionId := Dict.get? submission (.text (str "auction_id"))
  storeId := Dict.get? submission (.text (str "store_id"))
  signerId := Dict.get? submission (.text (str "signer_id"))
  keyId := Dict.get? submission (.text (str "key_id"))
  issuedAt := Dict.get? submission (.text (str "issued_at"))
  nonce := Dict.get? submission (.text (str "nonce"))
  payloadHash := digest
  unverifiedClaimIndexes := indexes
  submission := submission.signed signature

/-! ## Operations -/

/-- What a read of the caller's objects finds: a leaf, or a container that is read by its number. -/
inductive Reading (L : Type)
  | leaf (x : L)
  | mapping (object : Nat)
  | sequence (object : Nat)

structure Verdict where
  ok : Bool
  reasons : List Str
  unverifiedClaimIndexes : List Nat

/-- The reads of the call's arguments, and what it does to the replay memory and the queue. The payload
is the object 0. -/
inductive Op (F L : Type)
  | isMapping
  | canonicalise
  | keys (object : Nat)
  | get (object : Nat) (key : Key)
  | items (object : Nat)
  | signerKeys (signerId : Str)
  | secret (object : Nat) (keyId : Str)
  | now
  | freshnessWindow
  | auctionDeadline
  | blacklist
  | trustRow (storeId : Option (Plain L))
  | validate (submission : Document L) (row : Option Nat) (evaluatedAt : Int)
  | resolveEnqueue
  | hasMemory
  | purgeExpired (moment : Int)
  | consume (key : Str × Str) (retention : Option Int)
  | enqueue (item : WorkItem L)

def Found {F L : Type} : Op F L → Type
  | .isMapping => Bool
  | .canonicalise => Unit
  | .keys _ => List Key
  | .get _ _ => Reading L
  | .items _ => List (Reading L)
  -- neither a mapping nor a text is found as `none`
  | .signerKeys _ => Option Nat
  | .secret _ _ => Option Str
  | .now => Int
  | .freshnessWindow => Wire F
  | .auctionDeadline => Wire F
  -- an entry that is no text is found as `none`
  | .blacklist => Option (List (Option Str))
  | .trustRow _ => Option Nat
  | .validate _ _ _ => Verdict
  | .resolveEnqueue => Bool
  | .hasMemory => Bool
  | .purgeExpired _ => Unit
  | .consume _ _ => Consumption
  | .enqueue _ => Unit

abbrev Answer {F L : Type} (op : Op F L) : Type := Except Unit (Found op)

/-! ## Stops -/

inductive Named (L : Type)
  | nobody
  | caller
  | document (d : Document L)

/-- A call ends early by a refusal, or by an exception that nothing inside handles. -/
inductive Stop (L : Type)
  | refused (reasons : List Str) (named : Named L)
  | raised

structure Receipt where
  accepted : Bool
  reasons : List Str
  signerId : Option Str
  nonce : Option Str
  unverifiedClaimIndexes : List Nat

abbrev Gate (F L A : Type) := Program (Op F L) Answer (Stop L) A

section Gates

variable {F L : Type} [Leaves L]

def ask (op : Op F L) : Gate F L (Found op) :=
  .perform op fun
    | .ok found => .returns found
    | .error _ => .raises .raised

def attempt (op : Op F L) : Gate F L (Option (Found op)) :=
  .perform op fun
    | .ok found => .returns (some found)
    | .error _ => .returns none

def refuse {A : Type} (reasons : List Str) (named : Named L) : Gate F L A := .raises (.refused reasons named)

def require (passed : Bool) (reason : Str) (named : Named L) : Gate F L Unit :=
  if passed then .returns () else refuse [reason] named

/-! ## The snapshot -/

def plainEntries (plain : Reading L → Gate F L (Plain L)) (object : Nat) :
    List Key → Gate F L (List (Key × Plain L))
  | [] => .returns []
  | key :: keys => do
      let reading ← ask (.get object key)
      let value ← plain reading
      let entries ← plainEntries plain object keys
      return (key, value) :: entries

def plainItems (plain : Reading L → Gate F L (Plain L)) : List (Reading L) → Gate F L (List (Plain L))
  | [] => .returns []
  | reading :: readings => do
      let value ← plain reading
      let items ← plainItems plain readings
      return value :: items

/-- `_plain`, with the levels that may still be copied. -/
def plain : Nat → Reading L → Gate F L (Plain L)
  | 0, .leaf x => if (Leaves.text x).isSome then .returns (.leaf x) else .raises .raised
  | 0, _ => .raises .raised
  | _ + 1, .leaf x => .returns (.leaf x)
  | levels + 1, .mapping object => do
      let keys ← ask (.keys object)
      let entries ← plainEntries (plain levels) object keys
      return .mapping (Dict.update [] entries)
  | levels + 1, .sequence object => do
      let readings ← ask (.items object)
      let items ← plainItems (plain levels) readings
      return .sequence items

def snapshotMaxDepth : Nat := 32

/-- `_snapshot`, of a payload that is a mapping. -/
def snapshot : Gate F L (Document L) := do
  let keys ← ask (.keys 0)
  let entries ← plainEntries (plain (snapshotMaxDepth - 1)) 0 keys
  return Dict.update [] entries

/-! ## Gates 1 to 3 -/

variable [Signing L]

/-- `isinstance(signature, str) and signature.strip()`. -/
def presented (signature : Option Str) : Bool := signature.any fun s => !(Str.strip s).isEmpty

omit [Signing L] in
def submitted (signature : Option Str) : Gate F L (Document L) := do
  let mapping ← ask .isMapping
  require mapping (str "malformed_submission") .nobody
  require (presented signature) (str "signature_missing") .caller
  let canonical ← attempt .canonicalise
  require canonical.isSome (str "signing_envelope_uncanonicalizable") .caller
  snapshot.handle fun _ => refuse [str "malformed_submission"] .caller

/-- A document with what the door acts on: its hash and the three ids that are text. -/
structure Anchored (L : Type) where
  document : Document L
  bytes : List UInt8
  digest : Str
  signerId : Str
  keyId : Str
  nonce : Str

def anchor (d : Document L) : Gate F L (Anchored L) :=
  match Signing.bytes d, Signing.payloadHash d, d.textAt (str "signer_id"), d.textAt (str "key_id"),
      d.textAt (str "nonce") with
  | some bytes, some digest, some signerId, some keyId, some nonce =>
      .returns { document := d, bytes, digest, signerId, keyId, nonce }
  | _, _, _, _, _ => refuse [str "signing_envelope_uncanonicalizable"] (.document d)

omit [Leaves L] [Signing L] in
/-- `keyring_secret`, guarded: an empty secret is none. -/
def keyringSecret (signerId keyId : Str) : Gate F L (Option Str) := do
  match ← attempt (.signerKeys signerId) with
  | some (some object) =>
      let found ← attempt (.secret object keyId)
      return found.join.filter fun secret => !secret.isEmpty
  | _ => return none

/-- Key selection, and `verify_signature`. -/
def verify (a : Anchored L) (signature : Str) : Gate F L Unit := do
  match ← keyringSecret a.signerId a.keyId with
  | none => refuse [str "unknown_signing_key"] (.document a.document)
  | some secret =>
      require (Signing.hmac L secret a.bytes = signature) (str "signature_invalid") (.document a.document)

/-! ## Gates 4 and 5 -/

def timed [Format F] [Unicode] (a : Anchored L) (window deadline : Wire F) : Deployment F × Call F :=
  ({ freshnessWindowSeconds := window, deadline := fun _ => deadline },
    { submission :=
        { signerId := a.signerId
          keyId := a.keyId
          nonce := a.nonce
          issuedAt := (a.document.textAt (str "issued_at")).elim .null .string
          auctionId := []
          fields := [] }
      auctionKnown := true
      authenticity := []
      eligibility := fun _ => [] })

/-- Freshness and the deadline: the instant judged at, and the retention of the nonce. -/
def inTime [Format F] [Unicode] (a : Anchored L) : Gate F L (Int × Option Int) := do
  let evaluatedAt ← ask .now
  let window ← ask .freshnessWindow
  let deadline ← ask .auctionDeadline
  let (x, c) := timed a window deadline
  match judge x c evaluatedAt with
  | some reasons => refuse reasons (.document a.document)
  | none => return (evaluatedAt, nonceRetention x c)

/-- `_blacklisted`, by what a guarded read of the blacklist finds. -/
def blacklisted (d : Document L) : Option (Option (List (Option Str))) → Bool
  | none => true
  | some none => false
  | some (some entries) =>
      entries.any fun entry =>
        entry.isNone || d.textAt (str "store_id") = entry || d.textAt (str "signer_id") = entry

/-- Eligibility and the shared boundary: the indexes of the claims to verify. -/
def eligible (a : Anchored L) (signature : Str) (evaluatedAt : Int) : Gate F L (List Nat) := do
  let blocked ← attempt .blacklist
  require (!blacklisted a.document blocked) (str "store_blacklisted") (.document a.document)
  let row ← attempt (.trustRow (Dict.get? a.document (.text (str "store_id"))))
  let verdict ← ask (.validate (a.document.signed signature) (Option.join row) evaluatedAt)
  if verdict.ok then return verdict.unverifiedClaimIndexes
  else refuse verdict.reasons (.document a.document)

/-! ## Gate 6 -/

def handOn (a : Anchored L) (signature : Str) (indexes : List Nat) : Gate F L Receipt := do
  let taken ← attempt (.enqueue (workItem a.document signature a.digest indexes))
  require taken.isSome (str "verification_queue_unavailable") (.document a.document)
  return {
    accepted := true
    reasons := []
    signerId := some a.signerId
    nonce := some a.nonce
    unverifiedClaimIndexes := indexes }

/-- The nonce is spent, once there is a queue to write to and a memory to spend it in. -/
def spendNonce (a : Anchored L) (signature : Str) (indexes : List Nat) (evaluatedAt : Int)
    (retention : Option Int) : Gate F L Receipt := do
  let enqueue ← attempt .resolveEnqueue
  require (enqueue.getD false) (str "verification_queue_unavailable") (.document a.document)
  let memory ← ask .hasMemory
  require memory (str "replay_memory_unavailable") (.document a.document)
  ask (.purgeExpired evaluatedAt)
  match ← ask (.consume (a.signerId, a.nonce) retention) with
  | .full => refuse [str "replay_memory_exhausted"] (.document a.document)
  | .replayed => refuse [str "replayed_nonce"] (.document a.document)
  | .spendable => handOn a signature indexes

/-- Every gate before the sixth: the anchored document, the instant and the retention, and the indexes. -/
def gates [Format F] [Unicode] (signature : Option Str) : Gate F L (Anchored L × (Int × Option Int) × List Nat) := do
  let d ← submitted signature
  let a ← anchor d
  verify a (signature.getD [])
  let time ← inTime a
  let indexes ← eligible a (signature.getD []) time.1
  return (a, time, indexes)

/-- `_receive_bid`. -/
def judgeBid [Format F] [Unicode] (signature : Option Str) : Gate F L Receipt := do
  let (a, time, indexes) ← gates signature
  spendNonce a (signature.getD []) indexes time.1 time.2

/-! ## Receipts -/

omit [Signing L] in
def namedText {E : Type} (name : Str) : Program (Op F L) Answer E (Option Str) :=
  .perform (.get 0 (.text name)) fun
    | .ok (Reading.leaf x) => .returns (Leaves.text x)
    | _ => .returns none

omit [Signing L] in
/-- `_refuse`. -/
def refusal {E : Type} (reasons : List Str) : Named L → Program (Op F L) Answer E Receipt
  | .nobody => .returns ⟨false, reasons, none, none, []⟩
  | .document d => .returns ⟨false, reasons, d.textAt (str "signer_id"), d.textAt (str "nonce"), []⟩
  | .caller => do
      let signerId ← namedText (str "signer_id")
      let nonce ← namedText (str "nonce")
      return ⟨false, reasons, signerId, nonce, []⟩

/-- `receive_bid`. -/
def receiveBid [Format F] [Unicode] (signature : Option Str) : Program (Op F L) Answer Empty Receipt :=
  (judgeBid signature).settle fun
    | .refused reasons named => refusal reasons named
    | .raised => refusal [str "door_failed_closed"] .caller

end Gates

/-! ## The scene of a call -/

/-- The replay memory and the queue, what was handed to the queue, the caller's own state, and every
operation with its answer. -/
structure Scene (F L S : Type) where
  nonces : NonceStore
  queue : List (WorkItem L)
  handed : List (WorkItem L)
  own : S
  trace : List (Σ op : Op F L, Answer op)

section Scenes

variable {F L S : Type}

/-- What an operation that does not raise does to the memory and the queue, and what it then finds. -/
def effect (s : Scene F L S) : (op : Op F L) → Answer op → Answer op × Scene F L S
  | .purgeExpired moment, .ok _ => (.ok (), { s with nonces := s.nonces.purgeExpired moment })
  | .consume key retention, .ok _ =>
      (.ok (s.nonces.consume key retention).2, { s with nonces := (s.nonces.consume key retention).1 })
  | .enqueue item, .ok _ => (.ok (), { s with queue := s.queue ++ [item], handed := s.handed ++ [item] })
  | .enqueue item, .error e => (.error e, { s with handed := s.handed ++ [item] })
  | _, answer => (answer, s)

/-- The caller answers whatever it is asked, by a state of its own. -/
def answer (caller : (op : Op F L) → S → Answer op × S) (op : Op F L) (s : Scene F L S) :
    Answer op × Scene F L S :=
  let said := caller op s.own
  let done := effect { s with own := said.2 } op said.1
  (done.1, { done.2 with trace := done.2.trace ++ [⟨op, done.1⟩] })

end Scenes
end Proxyshop.External.Caller
