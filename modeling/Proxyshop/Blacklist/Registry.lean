import Proxyshop.Blacklist.Fold
import Mathlib.Data.List.Sort

/-!
# The persistent registry

`app.seller_blacklist`, the sealed delisting events, and the three things that happen to them: an event
is sealed, an operator opens or reopens a listing, and a snapshot read folds the chain over the table
and writes its overlay back.
-/

namespace Proxyshop.Blacklist

open Python Scoring

inductive Status
  | active
  | underReview
  | appealed
  | expired
  deriving DecidableEq

def Status.name : Status → Str
  | .active => str "active"
  | .underReview => str "under_review"
  | .appealed => str "appealed"
  | .expired => str "expired"

def Status.blocking (status : Status) : Bool := status ≠ .expired

structure ListingRow where
  businessIdentity : Str
  reasonCode : Str
  source : Str
  status : Status
  expiresAt : Value

def ListingRow.live (identity : Str) (row : ListingRow) : Bool :=
  row.status.blocking ∧ row.businessIdentity = identity

/-- `seller_blacklist_one_live_entry_idx`: an identity has at most one live row. -/
def OneLive (rows : List ListingRow) : Prop :=
  ∀ identity, rows.countP (ListingRow.live identity) ≤ 1

theorem live_identity {row : ListingRow} {identity : Str} (live : row.live identity = true) :
    row.businessIdentity = identity := (of_decide_eq_true live).2

theorem countP_live_eq_zero {rows : List ListingRow} {identity : Str}
    (free : rows.any (ListingRow.live identity) = false) :
    rows.countP (ListingRow.live identity) = 0 := by
  apply List.countP_eq_zero.mpr
  intro row member live
  exact Bool.false_ne_true (free.symm.trans (List.any_eq_true.mpr ⟨row, member, live⟩))

theorem OneLive.append {rows : List ListingRow} (one : OneLive rows) {row : ListingRow}
    (free : rows.any (ListingRow.live row.businessIdentity) = false) : OneLive (rows ++ [row]) := by
  intro identity
  rw [List.countP_append, List.countP_singleton]
  by_cases live : row.live identity = true
  · rw [← live_identity live, countP_live_eq_zero free]
    split <;> simp
  · rw [if_neg live]
    exact one identity

def ListingRow.expire (closed : Str) (row : ListingRow) : ListingRow :=
  if row.live closed then { row with status := .expired } else row

theorem ListingRow.live_expire {row : ListingRow} {closed identity : Str}
    (live : (row.expire closed).live identity = true) : row.live identity = true := by
  unfold ListingRow.expire at live
  split at live
  · simp [ListingRow.live, Status.blocking] at live
  · exact live

theorem OneLive.expire {rows : List ListingRow} (one : OneLive rows) (closed : Str) :
    OneLive (rows.map (ListingRow.expire closed)) := by
  intro identity
  rw [List.countP_map]
  refine le_trans (List.countP_mono_left ?_) (one identity)
  intro row _ live
  exact ListingRow.live_expire live

theorem OneLive.update {before after : List ListingRow} {row : ListingRow}
    (one : OneLive (before ++ row :: after)) (status : Status)
    (free : (before ++ after).any (ListingRow.live row.businessIdentity) = false) :
    OneLive (before ++ { row with status } :: after) := by
  intro identity
  by_cases same : row.businessIdentity = identity
  · have zero := countP_live_eq_zero free
    rw [same, List.countP_append] at zero
    rw [List.countP_append, List.countP_cons]
    split <;> omega
  · have dead : ¬ ListingRow.live identity { row with status } = true := fun live =>
      same (of_decide_eq_true live).2
    have old := one identity
    rw [List.countP_append, List.countP_cons] at old ⊢
    rw [if_neg dead]
    omega

structure SellerBlacklist where
  rows : List ListingRow
  oneLive : OneLive rows

def unrecordedDelistingSource : Str := str "unrecorded"

def ListingRow.entry (row : ListingRow) : BlacklistEntry :=
  ⟨row.businessIdentity, Str.or row.reasonCode unrecordedReasonCode, row.status.name, row.expiresAt, none⟩

namespace SellerBlacklist

/-- `_blacklist_from_rows`: a later row of an identity replaces an earlier one. -/
def registry (table : SellerBlacklist) : Registry := fun identity =>
  some (Dict.get? (table.rows.foldl (fun entries row =>
    Dict.set entries row.businessIdentity row.entry) []) identity)

/-- An insert the unique index refuses leaves the table as it is. -/
def insert (table : SellerBlacklist) (row : ListingRow) : SellerBlacklist :=
  if taken : table.rows.any (ListingRow.live row.businessIdentity) = true then table
  else ⟨table.rows ++ [row], table.oneLive.append (by simpa using taken)⟩

/-- `_EXPIRE_LISTING_SQL`. -/
def expire (table : SellerBlacklist) (identity : Str) : SellerBlacklist :=
  ⟨table.rows.map (ListingRow.expire identity), table.oneLive.expire identity⟩

/-- An update of one row's status, refused while another row of its identity is live. -/
def reopen (table : SellerBlacklist) (position : Nat) (status : Status) :
    Option (Str × SellerBlacklist) :=
  match split : table.rows.drop position with
  | [] => none
  | row :: after =>
      let before := table.rows.take position
      if taken : (before ++ after).any (ListingRow.live row.businessIdentity) = true then none
      else some (row.businessIdentity, ⟨before ++ { row with status } :: after, by
        have one := table.oneLive
        rw [← List.take_append_drop position table.rows, split] at one
        exact one.update status (by simpa using taken)⟩)

end SellerBlacklist

/-- What an operator does by hand: a new listing, or another status for a row that is there. -/
inductive OperatorEdit
  | openListing (row : ListingRow)
  | reopen (position : Nat) (status : Status)

/-- The identity listed and the table after, where the edit leaves a blocking row and is accepted. -/
def SellerBlacklist.edit (table : SellerBlacklist) : OperatorEdit → Option (Str × SellerBlacklist)
  | .openListing row =>
      if row.status.blocking then
        if table.rows.any (ListingRow.live row.businessIdentity) then none
        else some (row.businessIdentity, table.insert row)
      else none
  | .reopen position status => if status.blocking then table.reopen position status else none

/-! ## Writing the overlay back -/

/-- One statement of `persist_folded_listings`; `none` where the database refuses it. -/
def persistListing (timestamptz : Value → Option Value) (table : SellerBlacklist)
    (listing : Str × BlacklistEntry) : Option SellerBlacklist :=
  let (identity, entry) := listing
  if entry.status = Status.expired.name then some (table.expire identity)
  else (timestamptz entry.expiresAt).map fun expiresAt =>
    table.insert ⟨identity, entry.reasonCode, Str.or (entry.note.getD []) unrecordedDelistingSource,
      .active, expiresAt⟩

/-- One transaction; a refused statement rolls all of it back. -/
def persistFoldedListings (timestamptz : Value → Option Value) (table : SellerBlacklist)
    (overlay : Dict Str BlacklistEntry) : SellerBlacklist :=
  ((overlay.insertionSort fun a b => Str.le a.1 b.1).foldlM (persistListing timestamptz) table).getD
    table

/-! ## The registry, the chain and the reads in flight -/

/-- A row of `_DELISTINGS_SQL`, its roster column aside. -/
structure SealedEvent where
  kind : Str
  storeId : Option Str
  payload : Value

section Reads

variable [Unicode] (sellers : Str → Option Str) (timestamptz : Value → Option Value)

/-- `_delistings_from_rows`: the roster names the business where the payload does not. -/
def delistingEvent (event : SealedEvent) : DelistingEvent :=
  let body := event.payload.mapping
  let named := Str.strip ((body.get (str "business_identity")).or (.str [])).toStr
  let body := if named.isEmpty then
      match event.storeId.bind sellers with
      | some identity => Dict.set body (str "business_identity") (.str identity)
      | none => body
    else body
  ⟨event.kind, (event.storeId.map Value.str).getD .none, body⟩

def delistings (chain : List SealedEvent) : List DelistingEvent :=
  (chain.filter fun event => event.kind ∈ delistingKinds).map (delistingEvent sellers)

def blacklistFor (table : SellerBlacklist) (chain : List SealedEvent) : FoldedBlacklist :=
  foldDelistingEvents (delistings sellers chain) table.registry []

/-- The overlays of the reads that have answered and not yet written back. -/
structure State where
  table : SellerBlacklist
  chain : List SealedEvent
  pending : List (Dict Str BlacklistEntry)

inductive Step
  | sealEvent (event : SealedEvent)
  | operate (edit : OperatorEdit)
  | read
  | writeBack (position : Nat)

def step (s : State) : Step → State
  | .sealEvent event => { s with chain := s.chain ++ [event] }
  | .operate edit => match s.table.edit edit with
      | none => s
      | some (_, table) => { s with table }
  | .read => { s with pending := s.pending ++ [(blacklistFor sellers s.table s.chain).overlay] }
  | .writeBack position => match s.pending[position]? with
      | none => s
      | some overlay =>
          { s with table := persistFoldedListings timestamptz s.table overlay
                   pending := s.pending.eraseIdx position }

def run (s : State) (steps : List Step) : State := steps.foldl (step sellers timestamptz) s

end Reads
end Proxyshop.Blacklist
