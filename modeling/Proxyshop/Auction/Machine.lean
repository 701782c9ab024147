import Proxyshop.Auction.Store
import Proxyshop.Events.Store

/-!
# The auction state machine
-/

namespace Proxyshop.Auction

open Python Structures

/-- `LedgerRecorder.record`; a sink that fails is not the caller's concern. -/
def ledgerRecord (event : LedgerFields) : Call Unit :=
  if event.kind ∈ Events.ledgerEventKinds then .perform (.record event) .returns
  else throw (.unknownEventKind event.kind)

def get (auctionId : Str) : Call AuctionRecord := do
  match ← load auctionId with
  | none => throw (.unknownAuction auctionId)
  | some record => return record

def AuctionRecord.fresh (auctionId intentId clusterId : Str) (roster : List Record)
    (deadline : Option Float) : AuctionRecord where
  auctionId
  intentId
  clusterId
  state := .created
  roster
  acceptedBidRef := none
  openedAt := none
  closedAt := none
  deadline
  history := []

def create (auctionId intentId clusterId : Str) (roster : List Record) (deadline : Option Float) :
    Call AuctionRecord := do
  match ← reserve auctionId creationReservation auctionId with
  | some _ => throw (.illegalTransition auctionId .exists)
  | none =>
      let attempt : Call AuctionRecord := do
        match ← load auctionId with
        | some _ => throw (.illegalTransition auctionId .exists)
        | none =>
            let record := AuctionRecord.fresh auctionId intentId clusterId roster deadline
            save record
            return record
      attempt.handle fun raised => do
        release auctionId creationReservation auctionId
        throw raised

def AuctionRecord.stamped (record : AuctionRecord) (target : State) (now : Option Float)
    (bidRef : Option Str) : AuctionRecord :=
  match target with
  | .opened => { record with openedAt := now }
  | .closed | .expired => { record with closedAt := now }
  | .accepted => { record with acceptedBidRef := bidRef }
  | .created => record

def AuctionRecord.moved (record : AuctionRecord) (target : State) (now : Option Float)
    (bidRef : Option Str) : AuctionRecord :=
  { record.stamped target now bidRef with
    state := target
    history := record.history ++ [⟨target, now⟩] }

def transitionKind : State → Str
  | .opened => str "auction_opened"
  | .closed | .expired => str "auction_closed"
  | .accepted => str "accepted"
  -- No transition arrives here, and the table has no row for it.
  | .created => []

variable [Unicode]

def transitionBody (record : AuctionRecord) (target : State) (payload : Record) : Record :=
  let body : Record :=
    [(str "state", .str target.name), (str "intent_id", .str record.intentId),
      (str "cluster_id", .str record.clusterId)]
  let roster : Record :=
    if target = .opened then
      [(str "roster_size", .int record.roster.length),
        (str "roster", .list (record.roster.map fun entry =>
          .str (Value.or (entry.get (str "store_id")) (.str [])).toStr))]
    else []
  (body.update roster).update payload

def transitionEvent (record : AuctionRecord) (auctionId : Str) (target : State) (payload : Record)
    (storeId : Option Str) : LedgerFields where
  kind := transitionKind target
  auctionId := some auctionId
  storeId
  orderRef := none
  payload := transitionBody record target payload
  ts := none
  eventId := none

def transition (auctionId : Str) (target : State) (now : Option Float) (payload : Record)
    (bidRef storeId : Option Str) : Call AuctionRecord := do
  let record ← get auctionId
  if target ∉ transitions record.state then
    throw (.illegalTransition auctionId (.notLegal record.state target))
  let source := record.state
  match ← reserve auctionId (exitReservation source) target.name with
  | some taken => throw (.illegalTransition auctionId (.alreadyLeft source taken target))
  | none =>
      let attempt : Call AuctionRecord := do
        let record ← get auctionId
        if record.state ≠ source then
          throw (.illegalTransition auctionId (.movedOn source record.state target))
        let record := record.moved target now bidRef
        save record
        return record
      let record ← attempt.handle fun raised => do
        release auctionId (exitReservation source) target.name
        throw raised
      ledgerRecord (transitionEvent record auctionId target payload storeId)
      return record

/-- One call of a method of `AuctionStateMachine`. -/
inductive MachineCall
  | create (auctionId intentId clusterId : Str) (roster : List Record) (deadline : Option Float)
  | openAuction (auctionId : Str) (now : Option Float)
  | close (auctionId : Str) (now : Option Float) (reason : Str) (shortlistSize : Option Int)
      (outcome : Record)
  | expire (auctionId : Str) (now : Option Float)
  | accept (auctionId bidRef : Str) (now : Option Float) (checkoutToken : Option Str)
      (offer : Option Record) (storeId : Option Str)

namespace MachineCall

def auctionId : MachineCall → Str
  | create auctionId _ _ _ _ => auctionId
  | openAuction auctionId _ => auctionId
  | close auctionId _ _ _ _ => auctionId
  | expire auctionId _ => auctionId
  | accept auctionId _ _ _ _ _ => auctionId

/-- The state a transition moves to; a creation is not a transition. -/
def target : MachineCall → Option State
  | create _ _ _ _ _ => none
  | openAuction _ _ => some .opened
  | close _ _ _ _ _ => some .closed
  | expire _ _ => some .expired
  | accept _ _ _ _ _ _ => some .accepted

def payload : MachineCall → Record
  | create _ _ _ _ _ => []
  | openAuction _ _ => []
  | close _ _ reason shortlistSize outcome =>
      let payload : Record :=
        [(str "reason", .str reason), (str "shortlist_size", shortlistSize.elim .none .int)]
      payload.update outcome
  | expire _ _ => [(str "reason", .str (str "expired")), (str "shortlist_size", .none)]
  | accept _ bidRef _ checkoutToken offer _ =>
      [(str "bid_ref", .str bidRef), (str "checkout_token", checkoutToken.elim .none .str),
        (str "offer", offer.elim .none .dict)]

def storeId : MachineCall → Option Str
  | accept _ _ _ _ _ storeId => storeId
  | _ => none

def bidRef : MachineCall → Option Str
  | accept _ bidRef _ _ _ _ => some bidRef
  | _ => none

def program (call : MachineCall) : Call AuctionRecord :=
  match call with
  | create auctionId intentId clusterId roster deadline =>
      Auction.create auctionId intentId clusterId roster deadline
  | openAuction auctionId now => transition auctionId .opened now [] none none
  | close auctionId now _ _ _ => transition auctionId .closed now call.payload none none
  | expire auctionId now => transition auctionId .expired now call.payload none none
  | accept auctionId bidRef now _ _ storeId =>
      transition auctionId .accepted now call.payload (some bidRef) storeId

end MachineCall
end Proxyshop.Auction
