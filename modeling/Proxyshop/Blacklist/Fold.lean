import Proxyshop.Scoring.Engine
import Proxyshop.Structures.Latch

/-!
# Sealed delisting events as listings
-/

namespace Proxyshop.Blacklist

open Python Scoring

def blacklistedKind : Str := str "blacklisted"

def blacklistExpiredKind : Str := str "blacklist_expired"

def delistingKinds : List Str := [blacklistedKind, blacklistExpiredKind]

def clearingBlacklistStatuses : List Str := [str "expired"]

def unrecordedReasonCode : Str := str "unrecorded"

structure BlacklistEntry where
  businessIdentity : Str
  reasonCode : Str
  status : Str
  expiresAt : Value
  note : Option Str

def BlacklistEntry.blocking (entry : BlacklistEntry) : Bool :=
  entry.status ∉ clearingBlacklistStatuses

/-- The answer of a registry for one identity; `none` where the lookup raises. -/
abbrev Registry := Str → Option (Option BlacklistEntry)

/-- The registry beneath, and the listings the fold changed. -/
structure FoldedBlacklist where
  base : Registry
  overlay : Dict Str BlacklistEntry

def FoldedBlacklist.lookup (folded : FoldedBlacklist) : Registry := fun identity =>
  match Dict.get? folded.overlay identity with
  | some entry => some (some entry)
  | none => folded.base identity

structure DelistingEvent where
  kind : Str
  storeId : Value
  payload : Record

def blockingEntry (entry : Option BlacklistEntry) : Bool := entry.any BlacklistEntry.blocking

/-- The listing a `blacklist_expired` event leaves of a blocking one. -/
def closedEntry (identity : Str) (current : BlacklistEntry) : BlacklistEntry :=
  ⟨identity, Str.or current.reasonCode unrecordedReasonCode, str "expired", current.expiresAt,
    current.note⟩

theorem blocking_closedEntry (identity : Str) (current : BlacklistEntry) :
    (closedEntry identity current).blocking = false := by
  simp [closedEntry, BlacklistEntry.blocking, clearingBlacklistStatuses]

section Fold

variable [Unicode]

def instant (value : Value) : Option DateTime := ((parseInstant value).toOption).join

/-- Whether an `expires_at` has passed by a reference instant. -/
def passed (expiresAt asOf : Value) : Bool :=
  match instant expiresAt, instant asOf with
  | some expiry, some moment => expiry.instant ≤ moment.instant
  | _, _ => false

def BlacklistEntry.expiredAt (entry : BlacklistEntry) (asOf : Value) : Bool :=
  passed entry.expiresAt asOf

def businessIdentityOf (identity : Value) : Option Str :=
  if identity.isNone then none else Str.nonEmpty? (Str.strip identity.toStr)

def isBlacklisted (blacklist : Registry) (identity : Value) (asOf : Value) : Bool :=
  match businessIdentityOf identity with
  | none => true
  | some identity => match blacklist identity with
      | none => true
      | some none => false
      | some (some entry) => entry.blocking && !entry.expiredAt asOf

def delistingIdentity (event : DelistingEvent) (identities : Dict Str Value) : Option Str :=
  let identity := (event.payload.get (str "business_identity")).text
  if !identity.isEmpty then some identity
  else
    let storeId := Str.or (event.payload.get (str "store_id")).text event.storeId.text
    if !storeId.isEmpty && !identities.isEmpty then
      Str.nonEmpty? ((Dict.get? identities storeId).getD .none).text
    else none

/-- The listing a `blacklisted` event opens. -/
def openedEntry (identity : Str) (payload : Record) : BlacklistEntry :=
  ⟨identity, Str.or (payload.get (str "reason_code")).text unrecordedReasonCode, str "active",
    payload.get (str "expires_at"), Str.nonEmpty? (payload.get (str "source")).text⟩

/-- What an event makes of the entry its identity has; `none` leaves it as it is. -/
def foldDecision (identity kind : Str) (payload : Record) (current : Option (Option BlacklistEntry)) :
    Option BlacklistEntry :=
  if kind = blacklistedKind then
    match current with
    | some entry => if blockingEntry entry then none else some (openedEntry identity payload)
    | none => some (openedEntry identity payload)
  else
    match current with
    | some (some entry) => if entry.blocking then some (closedEntry identity entry) else none
    | _ => none

def foldEvent (base : Registry) (identities : Dict Str Value) (overlay : Dict Str BlacklistEntry)
    (event : DelistingEvent) : Dict Str BlacklistEntry :=
  if event.kind ∉ delistingKinds then overlay
  else match delistingIdentity event identities with
    | none => overlay
    | some identity =>
        match foldDecision identity event.kind event.payload (FoldedBlacklist.lookup ⟨base, overlay⟩ identity) with
        | none => overlay
        | some entry => Dict.set overlay identity entry

def foldDelistingEvents (events : List DelistingEvent) (base : Registry)
    (identities : Dict Str Value) : FoldedBlacklist :=
  ⟨base, events.foldl (foldEvent base identities) []⟩

/-! ## The latest decision settles an identity -/

/-- Whether an event is a delisting decision about an identity. -/
def decides (identities : Dict Str Value) (identity : Str) (event : DelistingEvent) : Bool :=
  event.kind ∈ delistingKinds ∧ delistingIdentity event identities = some identity

/-- The kind of the latest delisting decision about an identity. -/
def latestKind (identities : Dict Str Value) (events : List DelistingEvent) (identity : Str) :
    Option Str := ((events.filter (decides identities identity)).getLast?).map DelistingEvent.kind

theorem latestKind_snoc (identities : Dict Str Value) (events : List DelistingEvent)
    (event : DelistingEvent) (identity : Str) : latestKind identities (events ++ [event]) identity =
      if decides identities identity event then some event.kind
      else latestKind identities events identity := by
  unfold latestKind
  rw [List.filter_append]
  by_cases decision : decides identities identity event = true
  · simp [decision]
  · simp [decision]

theorem get?_foldEvent (base : Registry) (identities : Dict Str Value)
    (overlay : Dict Str BlacklistEntry) (event : DelistingEvent) (identity : Str) :
    Dict.get? (foldEvent base identities overlay event) identity =
      if decides identities identity event then
        (foldDecision identity event.kind event.payload
          (FoldedBlacklist.lookup ⟨base, overlay⟩ identity)).or (Dict.get? overlay identity)
      else Dict.get? overlay identity := by
  unfold foldEvent decides
  by_cases kind : event.kind ∈ delistingKinds
  · rw [if_neg (by simpa using kind)]
    cases named : delistingIdentity event identities with
    | none => simp
    | some other =>
        dsimp only
        by_cases same : other = identity
        · subst same
          rw [if_pos (by simp [kind])]
          cases foldDecision other event.kind event.payload
              (FoldedBlacklist.lookup ⟨base, overlay⟩ other) with
          | none => rfl
          | some entry => simp
        · rw [if_neg (by simp [same])]
          cases foldDecision other event.kind event.payload
              (FoldedBlacklist.lookup ⟨base, overlay⟩ other) with
          | none => rfl
          | some entry => exact Dict.get?_set_ne overlay entry (Ne.symm same)
  · rw [if_pos (by simpa using kind), if_neg (by simp [kind])]

theorem lookup_foldEvent (base : Registry) (identities : Dict Str Value)
    (overlay : Dict Str BlacklistEntry) (event : DelistingEvent) (identity : Str) :
    FoldedBlacklist.lookup ⟨base, foldEvent base identities overlay event⟩ identity =
      if decides identities identity event then
        ((foldDecision identity event.kind event.payload
          (FoldedBlacklist.lookup ⟨base, overlay⟩ identity)).map some).or
            (FoldedBlacklist.lookup ⟨base, overlay⟩ identity)
      else FoldedBlacklist.lookup ⟨base, overlay⟩ identity := by
  rw [FoldedBlacklist.lookup, get?_foldEvent]
  by_cases decision : decides identities identity event = true
  · simp only [if_pos decision]
    cases foldDecision identity event.kind event.payload
      (FoldedBlacklist.lookup ⟨base, overlay⟩ identity) <;> rfl
  · simp only [if_neg decision]
    rfl

theorem foldDecision_cases {identity kind : Str} {payload : Record} {current : Option BlacklistEntry}
    {entry : BlacklistEntry} (decision : foldDecision identity kind payload (some current) = some entry) :
    (kind = blacklistedKind ∧ entry = openedEntry identity payload) ∨
      ∃ old, current = some old ∧ entry = closedEntry identity old := by
  unfold foldDecision at decision
  by_cases opens : kind = blacklistedKind
  · rw [if_pos opens] at decision
    dsimp only at decision
    split at decision
    · cases decision
    · exact Or.inl ⟨opens, (Option.some.inj decision).symm⟩
  · rw [if_neg opens] at decision
    cases current with
    | none => cases decision
    | some old =>
        dsimp only at decision
        split at decision
        · exact Or.inr ⟨old, rfl, (Option.some.inj decision).symm⟩
        · cases decision

theorem blocking_openedEntry (identity : Str) (payload : Record) :
    (openedEntry identity payload).blocking = true := by
  simp [openedEntry, BlacklistEntry.blocking, clearingBlacklistStatuses]

theorem blocking_foldDecision (identity kind : Str) (payload : Record)
    (current : Option BlacklistEntry) :
    ∃ entry, ((foldDecision identity kind payload (some current)).map some).or (some current) =
      some entry ∧ blockingEntry entry = decide (kind = blacklistedKind) := by
  unfold foldDecision
  by_cases opens : kind = blacklistedKind
  · simp only [opens, decide_true, if_true]
    by_cases blocked : blockingEntry current = true
    · rw [if_pos blocked]
      exact ⟨current, rfl, blocked⟩
    · rw [if_neg blocked]
      exact ⟨_, rfl, blocking_openedEntry identity payload⟩
  · simp only [opens, decide_false, if_false]
    cases current with
    | none => exact ⟨none, rfl, rfl⟩
    | some entry =>
        by_cases blocked : entry.blocking = true
        · simp only [if_pos blocked]
          exact ⟨_, rfl, blocking_closedEntry identity entry⟩
        · simp only [if_neg blocked]
          exact ⟨some entry, rfl, by simpa [blockingEntry] using blocked⟩

theorem lookup_foldDelistingEvents (events : List DelistingEvent) {base : Registry}
    (identities : Dict Str Value) {identity : Str} {beneath : Option BlacklistEntry}
    (answered : base identity = some beneath) :
    ∃ entry, (foldDelistingEvents events base identities).lookup identity = some entry ∧
      blockingEntry entry = match latestKind identities events identity with
        | none => blockingEntry beneath
        | some kind => decide (kind = blacklistedKind) := by
  induction events using List.reverseRecOn with
  | nil => exact ⟨beneath, answered, rfl⟩
  | append_singleton events event ih =>
      obtain ⟨current, found, settled⟩ := ih
      unfold foldDelistingEvents at found ⊢
      rw [List.foldl_append, List.foldl_cons, List.foldl_nil, lookup_foldEvent, latestKind_snoc, found]
      by_cases decision : decides identities identity event = true
      · simp only [if_pos decision]
        exact blocking_foldDecision identity event.kind event.payload current
      · simp only [if_neg decision]
        exact ⟨current, rfl, settled⟩

theorem expiresAt_foldDelistingEvents (events : List DelistingEvent) {base : Registry}
    (identities : Dict Str Value) {identity : Str} {beneath : Option BlacklistEntry}
    (answered : base identity = some beneath) (holds : Value → Prop)
    (listed : ∀ entry, beneath = some entry → holds entry.expiresAt)
    (sealed : ∀ event ∈ events, decides identities identity event → event.kind = blacklistedKind →
      holds (event.payload.get (str "expires_at"))) :
    ∀ entry, (foldDelistingEvents events base identities).lookup identity = some (some entry) →
      holds entry.expiresAt := by
  induction events using List.reverseRecOn with
  | nil =>
      intro entry found
      exact listed entry (Option.some.inj (answered.symm.trans found))
  | append_singleton events event ih =>
      have before := ih fun other member => sealed other (List.mem_append_left _ member)
      have here := sealed event (List.mem_append_right _ List.mem_cons_self)
      obtain ⟨current, served, -⟩ := lookup_foldDelistingEvents events identities answered
      intro entry found
      unfold foldDelistingEvents at found before served
      rw [List.foldl_append, List.foldl_cons, List.foldl_nil, lookup_foldEvent, served] at found
      by_cases decides : decides identities identity event = true
      · rw [if_pos decides] at found
        cases decision : foldDecision identity event.kind event.payload (some current) with
        | none =>
            rw [decision] at found
            exact before entry (served.trans found)
        | some changed =>
            rw [decision] at found
            have same : changed = entry := Option.some.inj (Option.some.inj found)
            subst same
            rcases foldDecision_cases decision with ⟨opens, rfl⟩ | ⟨old, held, rfl⟩
            · exact here decides opens
            · exact before old (served.trans (congrArg some held))
      · rw [if_neg decides] at found
        exact before entry (served.trans found)

theorem overlay_of_undecided (events : List DelistingEvent) (base : Registry)
    (identities : Dict Str Value) {identity : Str}
    (undecided : latestKind identities events identity = none) :
    Dict.get? (foldDelistingEvents events base identities).overlay identity = none := by
  induction events using List.reverseRecOn with
  | nil => rfl
  | append_singleton events event ih =>
      rw [latestKind_snoc] at undecided
      by_cases decides : decides identities identity event = true
      · rw [if_pos decides] at undecided
        cases undecided
      · rw [if_neg decides] at undecided
        unfold foldDelistingEvents at ih ⊢
        rw [List.foldl_append, List.foldl_cons, List.foldl_nil, get?_foldEvent, if_neg decides]
        exact ih undecided

end Fold
end Proxyshop.Blacklist

/-!
## Folding the same events again

For one identity the fold is a latch: a listing opens it where nothing blocks, and an expiry closes what
blocks.
-/

namespace Proxyshop.Blacklist

open Python Scoring Structures

variable [Unicode]

/-- The listings of an identity as a latch that payloads open. -/
def listingLatch (identity : Str) : Latch Record BlacklistEntry where
  opened := openedEntry identity
  closed := closedEntry identity
  held := BlacklistEntry.blocking
  held_opened := blocking_openedEntry identity
  held_closed := blocking_closedEntry identity

def DelistingEvent.turn (event : DelistingEvent) : Turn Record :=
  if event.kind = blacklistedKind then .on event.payload else .off

def decisions (identities : Dict Str Value) (events : List DelistingEvent) (identity : Str) :
    List (Turn Record) := (events.filter (decides identities identity)).map DelistingEvent.turn

theorem decision_turn (identity : Str) (event : DelistingEvent) (current : Option BlacklistEntry) :
    ((foldDecision identity event.kind event.payload (some current)).map some).or (some current) =
      some ((listingLatch identity).turn current event.turn) := by
  unfold foldDecision DelistingEvent.turn
  by_cases opens : event.kind = blacklistedKind
  · simp only [opens, if_true, Latch.turn]
    change _ = some (if blockingEntry current then _ else _)
    split <;> rfl
  · simp only [opens, if_false, Latch.turn]
    cases current with
    | none => rfl
    | some entry =>
        change _ = some (if entry.blocking then _ else _)
        dsimp only
        split <;> rfl

theorem lookup_decisions (events : List DelistingEvent) {base : Registry} (identities : Dict Str Value)
    {identity : Str} {beneath : Option BlacklistEntry} (answered : base identity = some beneath) :
    (foldDelistingEvents events base identities).lookup identity =
      some ((listingLatch identity).run beneath (decisions identities events identity)) := by
  unfold decisions
  induction events using List.reverseRecOn with
  | nil => exact answered
  | append_singleton events event ih =>
      unfold foldDelistingEvents at ih ⊢
      rw [List.foldl_append, List.foldl_cons, List.foldl_nil, lookup_foldEvent, ih, List.filter_append]
      by_cases decides : decides identities identity event = true
      · rw [if_pos decides, decision_turn, List.filter_cons_of_pos decides, List.map_append, Latch.run_append]
        rfl
      · rw [if_neg decides, List.filter_cons_of_neg decides, List.filter_nil, List.append_nil]

/-- What a listing says: its status, its reason, its window and its note. -/
def BlacklistEntry.record (entry : BlacklistEntry) : Str × Str × Value × Option Str :=
  (entry.status, entry.reasonCode, entry.expiresAt, entry.note)

def answering (entries : Str → Option BlacklistEntry) : Registry := fun identity => some (entries identity)

/-- A second fold of the events leaves each listing as it is just where no identity is listed and then
expired, once, over a listing that blocked it and that closes otherwise than the sealed one would. -/
theorem refold_iff (events : List DelistingEvent) (identities : Dict Str Value)
    (entries : Str → Option BlacklistEntry) :
    let folded := foldDelistingEvents events (answering entries) identities
    (∀ identity, ((foldDelistingEvents events folded.lookup identities).lookup identity).map
        (Option.map BlacklistEntry.record) = (folded.lookup identity).map (Option.map BlacklistEntry.record)) ↔
      ∀ identity payload, firstOfOne (decisions identities events identity) = some payload →
        ∀ entry, entries identity = some entry → entry.blocking = true →
          (closedEntry identity (openedEntry identity payload)).record = (closedEntry identity entry).record := by
  refine forall_congr' fun identity => ?_
  have first := lookup_decisions events identities (show answering entries identity = some (entries identity) from rfl)
  rw [lookup_decisions events identities first, first, Option.map_some, Option.map_some, Option.some.injEq]
  exact (listingLatch identity).run_twice_iff BlacklistEntry.record _ _

def reviewed (identity : Str) : Option BlacklistEntry :=
  if identity = str "biz" then some ⟨"biz", "manual_review", "under_review", .none, none⟩ else none

/-- The score lists the business too, and then the listing expires. -/
def listedThenExpired : List DelistingEvent :=
  [⟨blacklistedKind, .str "store",
      [(str "business_identity", .str "biz"), (str "reason_code", .str "trust_score_below_threshold")]⟩,
    ⟨blacklistExpiredKind, .str "store", [(str "business_identity", .str "biz")]⟩]

omit [Unicode] in
/-- The expiry ends the reviewer's listing; folded again, it is said to have ended the other one. -/
theorem refolded_reason_lost : letI := Unicode.ascii
    let folded := foldDelistingEvents listedThenExpired (answering reviewed) []
    let again := foldDelistingEvents listedThenExpired folded.lookup []
    ((folded.lookup (str "biz")).join.map fun entry => (entry.status, entry.reasonCode)) =
        some (str "expired", str "manual_review") ∧
      ((again.lookup (str "biz")).join.map fun entry => (entry.status, entry.reasonCode)) =
        some (str "expired", str "trust_score_below_threshold") := by
  let _ := Unicode.ascii
  decide

end Proxyshop.Blacklist
