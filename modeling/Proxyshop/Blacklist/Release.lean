import Proxyshop.Blacklist.Registry

/-!
# A listing stays in force until a new expiry is sealed
-/

namespace Proxyshop.Blacklist

open Python Scoring

/-! ## The newest row of an identity -/

namespace SellerBlacklist

def newest (table : SellerBlacklist) (identity : Str) : Option ListingRow :=
  (table.rows.filter fun row => row.businessIdentity = identity).getLast?

theorem get?_entries (rows : List ListingRow) (identity : Str) :
    Dict.get? (rows.foldl (fun entries row => Dict.set entries row.businessIdentity row.entry) []) identity =
      ((rows.filter fun row => row.businessIdentity = identity).getLast?).map ListingRow.entry := by
  induction rows using List.reverseRecOn with
  | nil => rfl
  | append_singleton rows row ih =>
      rw [List.foldl_append, List.foldl_cons, List.foldl_nil, Dict.get?_set, ih, List.filter_append]
      by_cases same : row.businessIdentity = identity
      · simp [same]
      · simp [same, Ne.symm same]

theorem registry_eq (table : SellerBlacklist) (identity : Str) :
    table.registry identity = some ((table.newest identity).map ListingRow.entry) := by
  rw [registry, get?_entries]
  rfl

theorem blocking_entry (row : ListingRow) : row.entry.blocking = row.status.blocking := by
  unfold ListingRow.entry BlacklistEntry.blocking
  cases row.status <;> simp [Status.name, Status.blocking, clearingBlacklistStatuses]

def blocks (table : SellerBlacklist) (identity : Str) : Bool :=
  (table.newest identity).any fun row => row.status.blocking

theorem blockingEntry_newest (table : SellerBlacklist) (identity : Str) :
    blockingEntry ((table.newest identity).map ListingRow.entry) = table.blocks identity := by
  unfold blocks blockingEntry
  cases table.newest identity with
  | none => rfl
  | some row => exact blocking_entry row

theorem any_live_of_blocks {table : SellerBlacklist} {identity : Str}
    (blocks : table.blocks identity = true) : table.rows.any (ListingRow.live identity) = true := by
  unfold SellerBlacklist.blocks at blocks
  cases newest : table.newest identity with
  | none => simp [newest] at blocks
  | some row =>
      have blocking : row.status.blocking = true := by simpa [newest] using blocks
      have member := List.mem_filter.mp (List.mem_of_getLast? newest)
      exact List.any_eq_true.mpr ⟨row, member.1, by simpa [ListingRow.live, blocking] using member.2⟩

theorem newest_insert (table : SellerBlacklist) (row : ListingRow) {identity : Str}
    (other : row.businessIdentity ≠ identity) : (table.insert row).newest identity = table.newest identity := by
  unfold insert newest
  split
  · rfl
  · rw [List.filter_append]
    simp [other]

theorem newest_expire (table : SellerBlacklist) {closed identity : Str} (other : closed ≠ identity) :
    (table.expire closed).newest identity = table.newest identity := by
  have same (row : ListingRow) : (row.expire closed).businessIdentity = row.businessIdentity := by
    unfold ListingRow.expire
    split <;> rfl
  have untouched : ∀ row ∈ table.rows.filter fun row => row.businessIdentity = identity,
      row.expire closed = row := by
    intro row member
    have mine : row.businessIdentity = identity := by simpa using (List.mem_filter.mp member).2
    unfold ListingRow.expire
    rw [if_neg]
    intro live
    exact other ((live_identity live).symm.trans mine)
  unfold newest expire
  simp only [List.filter_map, Function.comp_def, same]
  rw [List.map_congr_left untouched, List.map_id']

theorem reopen_cases {table after : SellerBlacklist} {position : Nat} {status : Status} {opened : Str}
    (accepted : table.reopen position status = some (opened, after)) :
    ∃ before row rest, table.rows = before ++ row :: rest ∧
      (before ++ rest).any (ListingRow.live row.businessIdentity) = false ∧
      opened = row.businessIdentity ∧ after.rows = before ++ { row with status } :: rest := by
  unfold reopen at accepted
  split at accepted
  · cases accepted
  · rename_i row rest split
    dsimp only at accepted
    split at accepted
    · cases accepted
    · rename_i free
      obtain ⟨rfl, rfl⟩ := Prod.mk.inj (Option.some.inj accepted)
      refine ⟨table.rows.take position, row, rest, ?_, by simpa using free, rfl, rfl⟩
      rw [← split, List.take_append_drop]

theorem newest_reopen {table after : SellerBlacklist} {position : Nat} {status : Status}
    {identity opened : Str} (accepted : table.reopen position status = some (opened, after))
    (other : opened ≠ identity) : after.newest identity = table.newest identity := by
  obtain ⟨before, row, rest, split, -, rfl, updated⟩ := reopen_cases accepted
  unfold newest
  rw [split, updated, List.filter_append, List.filter_append]
  simp [other]

theorem blocks_reopen {table after : SellerBlacklist} {position : Nat} {status : Status}
    {identity opened : Str} (blocks : table.blocks identity = true) (blocking : status.blocking = true)
    (accepted : table.reopen position status = some (opened, after)) :
    after.blocks identity = true := by
  by_cases same : opened = identity
  · obtain ⟨before, row, rest, split, free, rfl, updated⟩ := reopen_cases accepted
    unfold SellerBlacklist.blocks newest at blocks ⊢
    rw [split, List.filter_append] at blocks
    rw [updated, List.filter_append]
    cases later : (rest.filter fun row => row.businessIdentity = identity).getLast? with
    | none =>
        have none : (rest.filter fun row => row.businessIdentity = identity) = [] :=
          List.getLast?_eq_none_iff.mp later
        simp [same, none, blocking]
    | some newer =>
        -- a newer row of the identity is live, so the index refuses this one
        have member := List.mem_filter.mp (List.mem_of_getLast? later)
        have newerBlocks : newer.status.blocking = true := by
          simpa [same, List.getLast?_append, List.getLast?_cons, later] using blocks
        have live : newer.live row.businessIdentity = true := by
          rw [same]
          simpa [ListingRow.live, newerBlocks] using member.2
        have taken := List.any_eq_true.mpr ⟨newer, List.mem_append_right before member.1, live⟩
        exact absurd (free.symm.trans taken) Bool.false_ne_true
  · rw [SellerBlacklist.blocks, newest_reopen accepted same]
    exact blocks

theorem blocks_edit {table after : SellerBlacklist} {edit : OperatorEdit} {identity opened : Str}
    (blocks : table.blocks identity = true) (accepted : table.edit edit = some (opened, after)) :
    after.blocks identity = true := by
  have live := any_live_of_blocks blocks
  cases edit with
  | openListing row =>
      unfold SellerBlacklist.edit at accepted
      dsimp only at accepted
      by_cases blocking : row.status.blocking = true
      · rw [if_pos blocking] at accepted
        by_cases taken : table.rows.any (ListingRow.live row.businessIdentity) = true
        · rw [if_pos taken] at accepted
          cases accepted
        · rw [if_neg taken] at accepted
          obtain ⟨-, rfl⟩ := Prod.mk.inj (Option.some.inj accepted)
          have other : row.businessIdentity ≠ identity := fun same => taken (by rw [same]; exact live)
          rw [SellerBlacklist.blocks, newest_insert table row other]
          exact blocks
      · rw [if_neg blocking] at accepted
        cases accepted
  | reopen position status =>
      unfold SellerBlacklist.edit at accepted
      dsimp only at accepted
      by_cases blocking : status.blocking = true
      · rw [if_pos blocking] at accepted
        exact blocks_reopen blocks blocking accepted
      · rw [if_neg blocking] at accepted
        cases accepted

/-- Whether the row an edit leaves blocking is the newest of its identity. -/
def opensNewest (table : SellerBlacklist) : OperatorEdit → Bool
  | .openListing _ => true
  | .reopen position _ => match table.rows.drop position with
      | [] => false
      | row :: rest => rest.all fun later => later.businessIdentity ≠ row.businessIdentity

theorem blocks_reopened {table after : SellerBlacklist} {position : Nat} {status : Status}
    {opened : Str} (blocking : status.blocking = true)
    (accepted : table.reopen position status = some (opened, after)) :
    after.blocks opened = table.opensNewest (.reopen position status) := by
  unfold reopen at accepted
  unfold opensNewest
  split at accepted
  · cases accepted
  · rename_i row rest split
    dsimp only at accepted ⊢
    rw [split]
    dsimp only
    split at accepted
    · cases accepted
    · rename_i free
      obtain ⟨rfl, rfl⟩ := Prod.mk.inj (Option.some.inj accepted)
      unfold SellerBlacklist.blocks newest
      dsimp only
      rw [List.filter_append, List.filter_cons_of_pos (by simp)]
      by_cases newest : rest.all (fun later => later.businessIdentity ≠ row.businessIdentity) = true
      · have none : (rest.filter fun later => later.businessIdentity = row.businessIdentity) = [] := by
          simpa [List.filter_eq_nil_iff] using newest
        rw [newest, none]
        simp [blocking]
      · cases later : (rest.filter fun later => later.businessIdentity = row.businessIdentity).getLast? with
        | none =>
            have none := List.getLast?_eq_none_iff.mp later
            exact absurd (by simpa [List.filter_eq_nil_iff] using none) newest
        | some newer =>
            have member := List.mem_filter.mp (List.mem_of_getLast? later)
            have dead : newer.status.blocking = false := by
              by_contra blocks
              apply free
              exact List.any_eq_true.mpr ⟨newer, List.mem_append_right _ member.1,
                by simpa [ListingRow.live] using ⟨by simpa using blocks, by simpa using member.2⟩⟩
            rw [Bool.not_eq_true] at newest
            rw [newest]
            simp [List.getLast?_append, List.getLast?_cons, later, dead]

theorem blocks_edited {table after : SellerBlacklist} {edit : OperatorEdit} {opened : Str}
    (accepted : table.edit edit = some (opened, after)) (identity : Str) :
    after.blocks identity =
      if identity = opened then table.opensNewest edit else table.blocks identity := by
  unfold SellerBlacklist.edit at accepted
  cases edit with
  | openListing row =>
      dsimp only at accepted
      split at accepted
      · rename_i blocking
        split at accepted
        · cases accepted
        · rename_i free
          obtain ⟨rfl, rfl⟩ := Prod.mk.inj (Option.some.inj accepted)
          by_cases same : identity = row.businessIdentity
          · rw [if_pos same, same]
            unfold SellerBlacklist.blocks newest insert
            rw [dif_neg free]
            simp [opensNewest, blocking]
          · rw [if_neg same, SellerBlacklist.blocks, newest_insert table row (Ne.symm same)]
            rfl
      · cases accepted
  | reopen position status =>
      dsimp only at accepted
      split at accepted
      · rename_i blocking
        by_cases same : identity = opened
        · rw [if_pos same, same]
          exact blocks_reopened blocking accepted
        · rw [if_neg same, SellerBlacklist.blocks, newest_reopen accepted (Ne.symm same)]
          rfl
      · cases accepted

theorem newest_persistListing {timestamptz : Value → Option Value} {table after : SellerBlacklist}
    {listing : Str × BlacklistEntry} {identity : Str} (other : listing.1 ≠ identity)
    (written : persistListing timestamptz table listing = some after) :
    after.newest identity = table.newest identity := by
  unfold persistListing at written
  dsimp only at written
  split at written
  · rw [← Option.some.inj written]
    exact newest_expire table other
  · obtain ⟨expiresAt, -, rfl⟩ := Option.map_eq_some_iff.mp written
    exact newest_insert table _ other

theorem newest_persisted {timestamptz : Value → Option Value} {overlay : Dict Str BlacklistEntry}
    {identity : Str} (absent : ∀ listing ∈ overlay, listing.1 ≠ identity) :
    ∀ {table after : SellerBlacklist}, overlay.foldlM (persistListing timestamptz) table = some after →
      after.newest identity = table.newest identity := by
  induction overlay with
  | nil =>
      intro table after written
      rw [← Option.some.inj written]
  | cons listing overlay ih =>
      intro table after written
      rw [List.foldlM_cons] at written
      obtain ⟨next, first, rest⟩ := Option.bind_eq_some_iff.mp written
      rw [ih (fun other member => absent other (List.mem_cons_of_mem _ member)) rest,
        newest_persistListing (absent listing List.mem_cons_self) first]

theorem newest_persistFoldedListings (timestamptz : Value → Option Value) (table : SellerBlacklist)
    {overlay : Dict Str BlacklistEntry} {identity : Str}
    (absent : Dict.get? overlay identity = none) :
    (persistFoldedListings timestamptz table overlay).newest identity = table.newest identity := by
  unfold persistFoldedListings
  cases written : (overlay.insertionSort fun a b => Str.le a.1 b.1).foldlM
      (persistListing timestamptz) table with
  | none => rfl
  | some after =>
      apply newest_persisted _ written
      intro listing member same
      have inside := (List.perm_insertionSort _ overlay).mem_iff.mp member
      have key := (Dict.get?_eq_none_iff overlay identity).mp absent
      exact key (List.mem_map.mpr ⟨listing, inside, same⟩)

end SellerBlacklist

/-! ## One step -/

section Run

variable [Unicode] (sellers : Str → Option Str) (timestamptz : Value → Option Value)

/-- The kind of the latest sealed decision about an identity. -/
def latestDecision (chain : List SealedEvent) (identity : Str) : Option Str :=
  latestKind [] (delistings sellers chain) identity

def releases (identity : Str) (event : SealedEvent) : Bool :=
  event.kind = blacklistExpiredKind ∧ delistingIdentity (delistingEvent sellers event) [] = some identity

/-- The chain lists the identity, or it does not mention it and its newest row blocks. -/
def InForce (s : State) (identity : Str) : Prop :=
  latestDecision sellers s.chain identity = some blacklistedKind ∨
    latestDecision sellers s.chain identity = none ∧ s.table.blocks identity = true

/-- An overlay in flight speaks only of identities the chain has decided about. -/
def PendingSealed (s : State) : Prop :=
  ∀ overlay ∈ s.pending, ∀ identity, latestDecision sellers s.chain identity = none →
    Dict.get? overlay identity = none

theorem latestDecision_snoc (chain : List SealedEvent) (event : SealedEvent) (identity : Str) :
    latestDecision sellers (chain ++ [event]) identity =
      if decides [] identity (delistingEvent sellers event) then some event.kind
      else latestDecision sellers chain identity := by
  unfold latestDecision delistings
  rw [List.filter_append, List.map_append]
  by_cases kind : event.kind ∈ delistingKinds
  · rw [List.filter_cons_of_pos (by simpa using kind), List.filter_nil, List.map_singleton,
      latestKind_snoc]
    rfl
  · rw [List.filter_cons_of_neg (by simpa using kind), List.filter_nil, List.map_nil, List.append_nil,
      if_neg]
    intro decision
    exact kind (of_decide_eq_true decision).1

theorem lookup_blacklistFor (s : State) (identity : Str) :
    ∃ entry, (blacklistFor sellers s.table s.chain).lookup identity = some entry ∧
      (blockingEntry entry = true ↔ InForce sellers s identity) := by
  obtain ⟨entry, served, settled⟩ := lookup_foldDelistingEvents (delistings sellers s.chain) []
    (s.table.registry_eq identity)
  refine ⟨entry, served, ?_⟩
  rw [settled]
  unfold InForce latestDecision
  cases latest : latestKind [] (delistings sellers s.chain) identity with
  | none => simp [SellerBlacklist.blockingEntry_newest]
  | some kind => simp

theorem pendingSealed_step {s : State} (sealed : PendingSealed sellers s) (action : Step) :
    PendingSealed sellers (step sellers timestamptz s action) := by
  cases action with
  | sealEvent event =>
      intro overlay member identity undecided
      apply sealed overlay member identity
      have latest := latestDecision_snoc sellers s.chain event identity
      rw [show latestDecision sellers (s.chain ++ [event]) identity = none from undecided] at latest
      split at latest
      · cases latest
      · exact latest.symm
  | operate edit =>
      unfold step
      dsimp only
      cases s.table.edit edit with
      | none => exact sealed
      | some edited => exact sealed
  | read =>
      intro overlay member identity undecided
      rcases List.mem_append.mp member with old | new
      · exact sealed overlay old identity undecided
      · rw [List.mem_singleton.mp new]
        exact overlay_of_undecided (delistings sellers s.chain) s.table.registry [] undecided
  | writeBack position =>
      unfold step
      dsimp only
      cases s.pending[position]? with
      | none => exact sealed
      | some written =>
          intro overlay member
          exact sealed overlay (List.mem_of_mem_eraseIdx member)

theorem inForce_step {s : State} {identity : Str} (held : InForce sellers s identity)
    (sealed : PendingSealed sellers s) (action : Step)
    (kept : ∀ event, action = .sealEvent event → releases sellers identity event = false) :
    InForce sellers (step sellers timestamptz s action) identity := by
  cases action with
  | sealEvent event =>
      unfold InForce step
      dsimp only
      rw [latestDecision_snoc]
      by_cases decision : decides [] identity (delistingEvent sellers event) = true
      · obtain ⟨kind, named⟩ := of_decide_eq_true decision
        have listed : event.kind = blacklistedKind := by
          have kinds : event.kind = blacklistedKind ∨ event.kind = blacklistExpiredKind := by
            simpa [delistingKinds, delistingEvent] using kind
          rcases kinds with listed | expired
          · exact listed
          · have releasing := kept event rfl
            simp [releases, expired, named] at releasing
        rw [if_pos decision, listed]
        exact Or.inl rfl
      · rw [if_neg decision]
        exact held
  | operate edit =>
      unfold step
      dsimp only
      cases accepted : s.table.edit edit with
      | none => exact held
      | some edited =>
          obtain ⟨opened, table⟩ := edited
          rcases held with listed | ⟨undecided, blocks⟩
          · exact Or.inl listed
          · exact Or.inr ⟨undecided, SellerBlacklist.blocks_edit blocks accepted⟩
  | read => exact held
  | writeBack position =>
      unfold step
      dsimp only
      cases found : s.pending[position]? with
      | none => exact held
      | some overlay =>
          rcases held with listed | ⟨undecided, blocks⟩
          · exact Or.inl listed
          · have absent := sealed overlay (List.mem_of_getElem? found) identity undecided
            refine Or.inr ⟨undecided, ?_⟩
            unfold SellerBlacklist.blocks
            rw [SellerBlacklist.newest_persistFoldedListings timestamptz s.table absent]
            exact blocks

/-! ## Every run -/

theorem pendingSealed_run {s : State} (sealed : PendingSealed sellers s) (steps : List Step) :
    PendingSealed sellers (run sellers timestamptz s steps) := by
  induction steps generalizing s with
  | nil => exact sealed
  | cons action steps ih => exact ih (pendingSealed_step sellers timestamptz sealed action)

theorem inForce_run {s : State} {identity : Str} (held : InForce sellers s identity)
    (sealed : PendingSealed sellers s) (steps : List Step)
    (kept : ∀ event, Step.sealEvent event ∈ steps → releases sellers identity event = false) :
    InForce sellers (run sellers timestamptz s steps) identity := by
  induction steps generalizing s with
  | nil => exact held
  | cons action steps ih =>
      apply ih (inForce_step sellers timestamptz held sealed action ?_)
        (pendingSealed_step sellers timestamptz sealed action)
      · intro event member
        exact kept event (List.mem_cons_of_mem _ member)
      · intro event same
        exact kept event (by rw [same]; exact List.mem_cons_self)

/-- No listing of the identity, in the table or sealed, has run past its own `expires_at`. -/
def WindowsOpen (s : State) (identity : Str) (asOf : Value) : Prop :=
  (∀ row ∈ s.table.rows, row.businessIdentity = identity → passed row.expiresAt asOf = false) ∧
    ∀ event ∈ delistings sellers s.chain, decides [] identity event → event.kind = blacklistedKind →
      passed (event.payload.get (str "expires_at")) asOf = false

/-- Every read answers that the identity is blacklisted until an expiry for it is sealed. -/
def BlockedUntilExpiry (s : State) (identity : Str) : Prop :=
  ∀ steps asOf,
    (∀ event key, Step.sealEvent event ∈ steps → businessIdentityOf (.str identity) = some key →
      releases sellers key event = false) →
    let later := run sellers timestamptz s steps
    (∀ key, businessIdentityOf (.str identity) = some key → WindowsOpen sellers later key asOf) →
    isBlacklisted (blacklistFor sellers later.table later.chain).lookup (.str identity) asOf = true

theorem isBlacklisted_inForce {s : State} {identity key : Str} {asOf : Value}
    (named : businessIdentityOf (.str identity) = some key) (held : InForce sellers s key)
    (windows : WindowsOpen sellers s key asOf) :
    isBlacklisted (blacklistFor sellers s.table s.chain).lookup (.str identity) asOf = true := by
  obtain ⟨entry, served, settled⟩ := lookup_blacklistFor sellers s key
  have blocked := settled.mpr held
  unfold isBlacklisted
  rw [named]
  dsimp only
  rw [served]
  cases entry with
  | none => cases blocked
  | some entry =>
      have unexpired := expiresAt_foldDelistingEvents (delistings sellers s.chain) []
        (s.table.registry_eq key) (fun window => passed window asOf = false) (by
          intro listed found
          obtain ⟨row, newest, rfl⟩ := Option.map_eq_some_iff.mp found
          have member := List.mem_filter.mp (List.mem_of_getLast? newest)
          exact windows.1 row member.1 (by simpa using member.2)) windows.2 entry served
      simpa [BlacklistEntry.expiredAt, unexpired, blockingEntry] using blocked

theorem inForce_of_isBlacklisted {s : State} {identity key : Str}
    (named : businessIdentityOf (.str identity) = some key)
    (answer : isBlacklisted (blacklistFor sellers s.table s.chain).lookup (.str identity) .none = true) :
    InForce sellers s key := by
  obtain ⟨entry, served, settled⟩ := lookup_blacklistFor sellers s key
  apply settled.mp
  unfold isBlacklisted at answer
  rw [named] at answer
  dsimp only at answer
  rw [served] at answer
  cases entry with
  | none => cases answer
  | some entry =>
      rw [Bool.and_eq_true] at answer
      exact answer.1

theorem passed_none (expiresAt : Value) : passed expiresAt .none = false := by
  unfold passed
  cases instant expiresAt <;> rfl

/-- The key a read looks the identity up by is one the chain lists; or the chain does not mention it, and
the row opened is the newest of that key. -/
def OpensInForce (s : State) (edit : OperatorEdit) (identity : Str) : Prop :=
  ∀ key, businessIdentityOf (.str identity) = some key →
    latestDecision sellers s.chain key = some blacklistedKind ∨
      latestDecision sellers s.chain key = none ∧
        (if key = identity then s.table.opensNewest edit else s.table.blocks key) = true

end Run

/-! ## An expiry that was applied long ago -/

def emptyTable : SellerBlacklist := ⟨[], by simp [OneLive]⟩

def listedAcme : SealedEvent :=
  ⟨str "blacklisted", none, .dict [(str "business_identity", .str (str "acme"))]⟩

def expiredAcme : SealedEvent :=
  ⟨str "blacklist_expired", none, .dict [(str "business_identity", .str (str "acme"))]⟩

def operatorListing : ListingRow := ⟨str "acme", str "manual_review", str "operator", .active, .none⟩

end Proxyshop.Blacklist
