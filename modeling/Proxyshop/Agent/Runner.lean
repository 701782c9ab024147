import Proxyshop.Learning.State
import Proxyshop.Merchant.Envelope
import Proxyshop.Scoring.Engine

/-!
# The runner of a store agent

A runner answers the auctions of one store under the mode it was put in, remembers the arm it played in
each, and takes in the trust events that the platform pushes.
-/

/-!
## Outcomes of an impression

A pushed event may carry the impression that its movement is attributed to. It is read as one outcome
of one arm, or as the reason why it is none.
-/

namespace Proxyshop.Agent

open Python Numbers Contracts Learning Verification

/-! ## Arms -/

structure Arm (F : Type) where
  clusterId : Str
  pitchVariant : Str
  commitmentSet : List Str
  depth : Extended F
  deriving DecidableEq

section Reading

variable {F : Type} [Format F]

def defaultPitchVariant : Str := str "buyer_led"

def coldArm (clusterId : Str) : Arm F where
  clusterId := clusterId
  pitchVariant := defaultPitchVariant
  commitmentSet := []
  depth := 0.0

/-- `verdict`, of a number. -/
def verdict (delta : Extended F) : Option Bool :=
  if delta.isFinite then if delta ≤ 0.0 ∧ 0.0 ≤ delta then none else some (0.0 < delta) else none

inductive Source
  | trustEvent
  | attribution
  deriving DecidableEq

def Source.text : Source → Str
  | .trustEvent => str "trust_event"
  | .attribution => str "trust_attribution"

def outcomeRow (arm : Arm F) (storeId : Str) (won : Bool) (source : Source) : Wire F :=
  .object
    [(str "store_id", .string storeId), (str "cluster_id", .string arm.clusterId), (str "won", .bool won),
      (str "discount_depth", .number (.double arm.depth)),
      (str "commitments", .array (arm.commitmentSet.map .string)),
      (str "pitch_variant", .string arm.pitchVariant), (str "source", .string source.text)]

/-! ## Readings -/

inductive ReadingReason
  | absent
  | unrecognisedSchemaVersion
  | auctionMismatch
  | noArm
  | unreadableDiscount
  | unauthorizedDepth
  | notShown
  deriving DecidableEq

structure ImpressionOutcome (F : Type) where
  auctionId : Str
  won : Bool
  depth : Extended F

/-- `ImpressionReading`: an outcome stands beside no reason but `usable`. -/
inductive ImpressionReading (F : Type)
  | usable (outcome : ImpressionOutcome F)
  | refused (reason : ReadingReason)

def ImpressionReading.outcome : ImpressionReading F → Option (ImpressionOutcome F)
  | .usable outcome => some outcome
  | .refused _ => none

def attributionKey : Str := str "trust_attribution"

def percentageDiscountTypes : List Str := [str "percentage", str "percent", str "pct"]

def depthWallTolerance : Extended F := 1e-9

variable [Unicode] [Spelling F]

/-- `str(raw_type).strip().lower()`. -/
def discountSpelling (rawType : Wire F) : Except PyError Str :=
  match rawType with
  | .null => .ok []
  | _ => return Unicode.lower (Str.strip (← textOf rawType))

/-- `_depth_of`. -/
def depthOf (arm : Wire F) : Except PyError (Option (Extended F)) :=
  match arm.get (str "discount") with
  | .null => .ok (some 0.0)
  | .object members => do
      let spelling ← discountSpelling (Json.get (.object members) (str "type"))
      if spelling ∈ percentageDiscountTypes then
        percentAsFraction (Json.get (.object members) (str "value"))
      else return none
  | _ => .ok none

omit [Unicode] [Spelling F] in
/-- The widest rung, and no more than the envelope authorises. -/
def ceiling (depthBuckets : List (Extended F)) (maxDepth : Option (Extended F)) : Extended F :=
  let widest := match depthBuckets with
    | [] => 0.0
    | first :: rest => rest.foldl Extended.greatest first
  maxDepth.elim widest (Extended.least widest)

omit [Format F] [Unicode] [Spelling F] in
/-- The outcome of a record that states a depth which the store may play. -/
def shownOutcome (record : Wire F) (auctionId : Str) (depth : Extended F) : ImpressionReading F :=
  match record.get (str "converted") with
  | .bool true => .usable { auctionId, won := true, depth }
  | _ =>
      match record.get (str "shown") with
      | .bool true => .usable { auctionId, won := false, depth }
      | _ => .refused .notShown

def readArm (record : Wire F) (auctionId : Str) (maxDepth : Option (Extended F))
    (depthBuckets : List (Extended F)) : Except PyError (ImpressionReading F) :=
  match record.get (str "arm") with
  | .object arm => do
      match ← depthOf (.object arm) with
      | none => return .refused .unreadableDiscount
      | some depth =>
          if ceiling depthBuckets maxDepth + depthWallTolerance < depth then
            return .refused .unauthorizedDepth
          else return shownOutcome record auctionId depth
  | _ => .ok (.refused .noArm)

def readRecord (record : Wire F) (auctionId : Str) (maxDepth : Option (Extended F))
    (depthBuckets : List (Extended F)) : Except PyError (ImpressionReading F) :=
  match record.get (str "schema_version") with
  | .number (.integer 1) => do
      let named ← textOrEmpty (record.get (str "auction_id"))
      if named = auctionId then readArm record auctionId maxDepth depthBuckets
      else return .refused .auctionMismatch
  | _ => .ok (.refused .unrecognisedSchemaVersion)

def readImpression (payload : Wire F) (auctionId : Str) (maxDepth : Option (Extended F))
    (depthBuckets : List (Extended F)) : Except PyError (ImpressionReading F) :=
  match payload.get attributionKey with
  | .object record => readRecord (.object record) auctionId maxDepth depthBuckets
  | _ => .ok (.refused .absent)

end Reading
end Proxyshop.Agent

namespace Proxyshop.Agent

open Python Numbers Contracts Learning Verification Structures
open Merchant (Activation)
open Scoring (Dimension)

/-! ## Contexts -/

/-- A value that a field is read off: a plain one, or an object a read of which may raise. -/
inductive Exposed (F : Type)
  | plain (v : Wire F)
  | object (read : Str → Option (Exposed F))

/-- `_field`: whatever cannot be read is not there. -/
def Exposed.field {F : Type} : Exposed F → Str → Exposed F
  | .plain v, name => .plain (v.get name)
  | .object read, name => (read name).getD (.plain .null)

def Exposed.value {F : Type} : Exposed F → Option (Wire F)
  | .plain v => some v
  | .object _ => none

/-- `_as_mode`. -/
def asMode {F : Type} : Exposed F → Except PyError Activation
  | .plain (.string stated) =>
      match Activation.ofText? stated with
      | some mode => .ok mode
      | none => .error .valueError
  | _ => .error .valueError

/-- `_envelope_states`. -/
def envelopeStates {F : Type} (context : Exposed F) : Activation :=
  match asMode ((context.field (str "envelope")).field (str "activation")) with
  | .ok mode => mode
  | .error _ => .shadow

/-! ## Events -/

structure TrustEventPayload (F : Type) where
  storeId : Str
  dim : Dimension
  delta : Extended F
  auctionId : Option Str
  payload : Wire F

def TrustEventPayload.auction {F : Type} (event : TrustEventPayload F) : Str := event.auctionId.getD []

inductive CreditReason
  | noState
  | unremembered
  | impression
  | already
  | deltaSign
  | noEvidence
  deriving DecidableEq

structure ArmCredit (F : Type) where
  reason : CreditReason
  /-- Why the attribution was not usable, if it was not. -/
  attribution : Option ReadingReason
  auctionId : Str
  clusterId : Option Str
  discountDepth : Option (Extended F)
  won : Option Bool
  source : Option Source
  observations : Int

def ImpressionReading.reason {F : Type} : ImpressionReading F → Option ReadingReason
  | .usable _ => none
  | .refused reason => some reason

def ArmCredit.nothing {F : Type} (reason : CreditReason) (reading : ImpressionReading F) (auctionId : Str)
    (clusterId : Option Str) (observations : Int) : ArmCredit F where
  reason := reason
  attribution := reading.reason
  auctionId := auctionId
  clusterId := clusterId
  discountDepth := none
  won := none
  source := none
  observations := observations

/-! ## What a runner is given -/

/-- The draws of a store's policy. -/
class Sampling (F : Type) where
  sampleArm : StoreLearningState F → Str → Str → Wire F → Except PyError (Arm F)
  policyForAuction : StoreLearningState F → Str → Arm F → Wire F → Except PyError (Wire F)

/-- The runtime that answers a request under a context, by a bid or by a decline. -/
class Bidding (F : Type) (A : Type) where
  bid : Wire F → Exposed F → Except PyError A
  auctionId : A → Str
  storeId : A → Str

/-! ## Rings -/

def maxRememberedArms : Nat := 512

def ring {V : Type} (d : Dict Str V) : Dict Str V := d.drop (d.length - maxRememberedArms)

def Arm.atDepth {F : Type} [DecidableEq F] (arm : Arm F) (depth : Extended F) : Arm F :=
  if depth = arm.depth then arm else { arm with depth }

/-! ## State -/

structure Runner (F : Type) where
  context : Exposed F
  storeId : Str
  mode : Activation
  deltas : Dict Dimension (List (Extended F))
  learning : Option (StoreLearningState F)
  played : Dict Str (Arm F)
  credited : Dict Str Bool

namespace Runner

variable {F : Type} [Format F]

/-- `killed_by_envelope`. -/
def killedByEnvelope (r : Runner F) : Bool := envelopeStates r.context = .killed

/-- `submits`. -/
def submits (r : Runner F) : Bool := r.mode = .active && !r.killedByEnvelope

/-- `_remember`. -/
def remember (r : Runner F) (auctionId : Str) (arm : Arm F) : Runner F :=
  if auctionId.isEmpty then r else { r with played := ring (Dict.set r.played auctionId arm) }

omit [Format F] in
def initial (context : Exposed F) (storeId : Str) (mode : Activation)
    (learning : Option (StoreLearningState F)) : Runner F where
  context := context
  storeId := storeId
  mode := mode
  deltas := []
  learning := learning
  played := []
  credited := []

variable [Unicode]

/-- `authorized_depth`. -/
def authorizedDepth (r : Runner F) : Except PyError (Option (Extended F)) :=
  match ((r.context.field (str "envelope")).field (str "max_discount_pct")).value with
  | some stated => percentAsFraction stated
  | none => .ok none

variable [Spelling F]

/-- What the event says of its impression, under the envelope and the grid as they stand. -/
def reading (r : Runner F) (event : TrustEventPayload F) : Except PyError (ImpressionReading F) := do
  let maxDepth ← r.authorizedDepth
  readImpression event.payload event.auction maxDepth
    (r.learning.elim defaultDepthBuckets StoreLearningState.depthBuckets)

/-! ## Answering -/

section Answering

variable (A : Type) [Sampling F] [Bidding F A] (r : Runner F)

omit [Unicode] [Bidding F A] in
/-- The arm of a cluster, and the mapping that the auction is answered under: a store that has no record
in the cluster is answered as its context stands. -/
def playArm (state : StoreLearningState F) (members : List (Str × Wire F)) (clusterId auctionId : Str) :
    Except PyError (Option (Arm F) × Exposed F) := do
  let arm ← Sampling.sampleArm state clusterId auctionId (Json.get (.object members) (str "envelope"))
  match state.cluster clusterId with
  | none => return (some (coldArm clusterId), .plain (.object members))
  | some _ =>
      let policy ← Sampling.policyForAuction state clusterId arm
        (Json.get (.object members) (str "learned_policy"))
      return (some arm, .plain (.object (Dict.set members (str "learned_policy") policy)))

omit [Unicode] [Bidding F A] in
/-- `_select_arm`. -/
def selectArm (request : Wire F) : Except PyError (Option (Arm F) × Exposed F) :=
  match r.learning, r.context with
  | some state, .plain (.object members) => do
      let clusterId ← textOrEmpty ((request.get (str "intent")).get (str "cluster_id"))
      let auctionId ← textOrEmpty (request.get (str "auction_id"))
      if clusterId.isEmpty || auctionId.isEmpty then return (none, r.context)
      else playArm state members clusterId auctionId
  | _, _ => .ok (none, r.context)

omit [Format F] [Unicode] [Spelling F] [Sampling F] in
/-- The arm that was played is remembered under the auction of the answer. -/
def rememberPlayed (arm : Option (Arm F)) (answer : A) : Runner F :=
  match arm with
  | none => r
  | some arm => r.remember (Bidding.auctionId F answer) arm

omit [Unicode] in
def answer (request : Wire F) : Except PyError (Option (Arm F) × A) × Runner F :=
  match r.selectArm request with
  | .error e => (.error e, r)
  | .ok (arm, context) =>
      match Bidding.bid request context with
      | .error e => (.error e, r)
      | .ok answer => (.ok (arm, answer), r.rememberPlayed A arm answer)

end Answering

/-! ## Credit -/

variable [DecidableEq F]

/-- One outcome is folded into the state: if that raises, nothing is. -/
def fold (r : Runner F) (state : StoreLearningState F) (arm : Arm F) (reason : CreditReason)
    (source : Source) (won : Bool) (depth : Extended F) (reading : ImpressionReading F) (auctionId : Str) :
    Except PyError (ArmCredit F) × Runner F :=
  match state.update [outcomeRow (arm.atDepth depth) r.storeId won source] with
  | .error e => (.error e, r)
  | .ok learned =>
      (.ok
        { reason
          attribution := reading.reason
          auctionId
          clusterId := some arm.clusterId
          discountDepth := some depth
          won := some won
          source := some source
          observations := learned.observations },
        { r with learning := some learned })

def mark (r : Runner F) (auctionId : Str) (won : Bool) : Runner F :=
  { r with credited := ring (Dict.set r.credited auctionId won) }

/-- The arm that was played in the auction is credited with what the event says. -/
def creditArm (r : Runner F) (state : StoreLearningState F) (arm : Arm F) (event : TrustEventPayload F) :
    ImpressionReading F → Except PyError (ArmCredit F) × Runner F
  | .usable outcome =>
      if Dict.contains r.credited event.auction then
        (.ok (.nothing .already (.usable outcome) event.auction (some arm.clusterId) state.observations), r)
      else
        (r.mark event.auction outcome.won).fold state arm .impression .attribution outcome.won outcome.depth
          (.usable outcome) event.auction
  | .refused reason =>
      match verdict event.delta with
      | none =>
          (.ok (.nothing .noEvidence (.refused reason) event.auction (some arm.clusterId) state.observations),
            r)
      | some won => r.fold state arm .deltaSign .trustEvent won arm.depth (.refused reason) event.auction

/-- `_credit`. -/
def credit (r : Runner F) (event : TrustEventPayload F) : Except PyError (ArmCredit F) × Runner F :=
  match r.reading event with
  | .error e => (.error e, r)
  | .ok reading =>
      match r.learning with
      | none => (.ok (.nothing .noState reading event.auction none 0), r)
      | some state =>
          match Dict.get? r.played event.auction with
          | none => (.ok (.nothing .unremembered reading event.auction none state.observations), r)
          | some arm => r.creditArm state arm event reading

/-! ## Trust intake -/

omit [Format F] [Unicode] [Spelling F] [DecidableEq F] in
/-- `_accept`, of an event that the contract's model may not have been able to read. -/
def accept (r : Runner F) : Option (TrustEventPayload F) → Except PyError (TrustEventPayload F)
  | none => .error .valueError
  | some event =>
      if event.storeId = r.storeId then if event.delta.isFinite then .ok event else .error .valueError
      else .error .valueError

def posture (r : Runner F) (event : TrustEventPayload F) : Runner F :=
  { r with deltas := Dict.adjust r.deltas event.dim [] (· ++ [event.delta]) }

/-- `_record`. -/
def record (r : Runner F) (event : TrustEventPayload F) : Except PyError (ArmCredit F) × Runner F :=
  (r.posture event).credit event

def ingest (r : Runner F) (pushed : Option (TrustEventPayload F)) :
    Except PyError (ArmCredit F) × Runner F :=
  match r.accept pushed with
  | .error e => (.error e, r)
  | .ok event => r.record event

def recordAll : Runner F → List (TrustEventPayload F) → Except PyError Unit × Runner F
  | r, [] => (.ok (), r)
  | r, event :: events =>
      match r.record event with
      | (.error e, r') => (.error e, r')
      | (.ok _, r') => recordAll r' events

def ingestTrustEvents (r : Runner F) (pushed : List (Option (TrustEventPayload F))) :
    Except PyError Unit × Runner F :=
  match pushed.mapM r.accept with
  | .error e => (.error e, r)
  | .ok events => r.recordAll events

end Runner
end Proxyshop.Agent
