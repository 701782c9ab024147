import Proxyshop.Python.Value
import Proxyshop.Structures.Interleaving

/-!
# The auction store

The record of an auction, and the operations that a call performs on what it shares with other calls:
the store of records and reservations, the ledger recorder, the merchant. A reservation is one `SET NX`.
-/

/-!
## Checkout requests

What a checkout provider is asked, and what comes back of its `mint`. A mint reports every code that it
brings into existence, whether it then returns or raises.
-/

namespace Proxyshop.Checkout

open Python

structure CheckoutRequest where
  auctionId : Str
  bidRef : Str
  storeId : Str
  storeDomain : Str
  offer : Record
  mode : Str
  now : Float

structure MintedCheckout where
  code : Str
  permalinkUrl : Str
  expiresAt : Option Float

structure OrphanedCode where
  code : Str
  permalinkUrl : Str
  provider : Str
  storeId : Str
  auctionId : Str
  bidRef : Str
  expiresAt : Option Float

inductive MintError
  | orphaned (orphan : OrphanedCode)
  | offDomain
  | failed

structure Minting where
  recorded : List Str
  outcome : Except MintError MintedCheckout

end Proxyshop.Checkout

namespace Proxyshop.Auction

open Python Structures Checkout

inductive State
  | created
  | opened
  | closed
  | accepted
  | expired
  deriving DecidableEq, Repr

def State.name : State → Str
  | .created => str "created"
  | .opened => str "open"
  | .closed => str "closed"
  | .accepted => str "accepted"
  | .expired => str "expired"

def transitions : State → List State
  | .created => [.opened, .expired]
  | .opened => [.closed, .expired]
  | .closed => [.accepted, .expired]
  | .accepted => []
  | .expired => []

def exitReservation (state : State) : Str := str "exit:" ++ state.name

def creationReservation : Str := str "create"

structure Move where
  state : State
  moment : Option Float

structure AuctionRecord where
  auctionId : Str
  intentId : Str
  clusterId : Str
  state : State
  roster : List Record
  acceptedBidRef : Option Str
  openedAt : Option Float
  closedAt : Option Float
  deadline : Option Float
  history : List Move

/-- What `LedgerRecorder.record` is handed. -/
structure LedgerFields where
  kind : Str
  auctionId : Option Str
  storeId : Option Str
  orderRef : Option Str
  payload : Record
  ts : Option Str
  eventId : Option Str

inductive Refusal
  | exists
  | notLegal (state target : State)
  | alreadyLeft (source : State) (taken : Str) (target : State)
  | movedOn (source state target : State)
  deriving DecidableEq

inductive Raised
  | unknownAuction (auctionId : Str)
  | illegalTransition (auctionId : Str) (why : Refusal)
  | unknownEventKind (kind : Str)
  | store
  deriving DecidableEq

inductive Operation
  | load (auctionId : Str)
  | reserve (auctionId name token : Str)
  | save (record : AuctionRecord)
  | release (auctionId name token : Str)
  | record (event : LedgerFields)
  | mint (request : CheckoutRequest)

@[reducible] def Answer : Operation → Type
  | .load _ => Except Raised (Option AuctionRecord)
  | .reserve _ _ _ => Except Raised (Option Str)
  | .save _ => Except Raised Unit
  | .release _ _ _ => Unit
  | .record _ => Unit
  | .mint _ => Minting

/-- Beside what the store holds, who put it there and in which order: no operation reads that. -/
structure Shared (ι : Type) where
  records : Str → Option AuctionRecord
  reservations : Str × Str → Option (Str × ι)
  saves : List (ι × AuctionRecord)
  ledger : List (ι × LedgerFields)
  mints : List (ι × CheckoutRequest × Minting)

namespace Shared

variable {ι : Type}

def empty : Shared ι where
  records _ := none
  reservations _ := none
  saves := []
  ledger := []
  mints := []

def saved (s : Shared ι) (i : ι) (record : AuctionRecord) : Shared ι :=
  { s with
    records := Function.update s.records record.auctionId (some record)
    saves := s.saves ++ [(i, record)] }

theorem saved_records (s : Shared ι) (i : ι) (record : AuctionRecord) :
    (s.saved i record).records record.auctionId = some record := Function.update_self ..

def reserved (s : Shared ι) (key : Str × Str) (holder : Option (Str × ι)) : Shared ι :=
  { s with reservations := Function.update s.reservations key holder }

end Shared

/-- What an operation of the call `i` may do. A load, a reservation or a save that fails does nothing. -/
def effect {ι : Type} (i : ι) (s : Shared ι) : (op : Operation) → Answer op → Shared ι → Prop
  | .load auctionId, answer, s' =>
      s' = s ∧ (answer = .error .store ∨ answer = .ok (s.records auctionId))
  | .reserve auctionId name token, answer, s' =>
      answer = .error .store ∧ s' = s ∨
        match s.reservations (auctionId, name) with
        | some (held, _) => answer = .ok (some held) ∧ s' = s
        | none => answer = .ok none ∧ s' = s.reserved (auctionId, name) (some (token, i))
  | .save record, answer, s' =>
      answer = .error .store ∧ s' = s ∨ answer = .ok () ∧ s' = s.saved i record
  | .release auctionId name token, _, s' =>
      match s.reservations (auctionId, name) with
      | some (held, _) =>
          s' = if held = token then s.reserved (auctionId, name) none else s
      | none => s' = s
  | .record event, _, s' => s' = { s with ledger := s.ledger ++ [(i, event)] }
  | .mint request, answer, s' => s' = { s with mints := s.mints ++ [(i, request, answer)] }

abbrev Call (A : Type) := Program Operation Answer Raised A

def load (auctionId : Str) : Call (Option AuctionRecord) :=
  .perform (.load auctionId) fun
    | .ok record => .returns record
    | .error error => .raises error

def reserve (auctionId name token : Str) : Call (Option Str) :=
  .perform (.reserve auctionId name token) fun
    | .ok taken => .returns taken
    | .error error => .raises error

def save (record : AuctionRecord) : Call Unit :=
  .perform (.save record) fun
    | .ok _ => .returns ()
    | .error error => .raises error

def release (auctionId name token : Str) : Call Unit :=
  .perform (.release auctionId name token) .returns

end Proxyshop.Auction
