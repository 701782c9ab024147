import Proxyshop.Blacklist.Fold
import Proxyshop.Numbers.Binary64

/-!
# The delistings that a snapshot recommends

A snapshot reads the registry once for each store, and its scores and the lapsed listings imply the
events that are sealed and folded back.
-/

namespace Proxyshop.Blacklist

open Python Scoring Numbers Structures

def blockingBlacklistStatuses : List Str := ["active", "under_review", "appealed"].map str

def trustScoreReasonCode : Str := str "trust_score_below_threshold"

def delistingSource : Str := str "trust-score"

def blacklistThreshold : Extended Binary64 := 0.35

def belowBlacklistThreshold (score : Option (Extended Binary64)) : Bool :=
  score.any fun score => score < blacklistThreshold

/-- A registry as it is read: by identity, and by iteration where it offers one. -/
structure Source where
  lookup : Registry
  records : Option (List BlacklistEntry)

/-- `FoldedBlacklist.__iter__`. -/
def FoldedBlacklist.records (folded : FoldedBlacklist) (records : List BlacklistEntry) :
    List BlacklistEntry :=
  (records.map fun record => (Dict.get? folded.overlay record.businessIdentity.strip).getD record) ++
    (folded.overlay.filter fun listing =>
      listing.1 ∉ records.map fun record => record.businessIdentity.strip).map Prod.snd

def FoldedBlacklist.source (folded : FoldedBlacklist) (base : Source) : Source :=
  ⟨folded.lookup, base.records.map folded.records⟩

/-- A store and the score of its observations, where that is a number. -/
structure StoreRecord where
  storeId : Option Str
  businessIdentity : Value
  score : Option (Extended Binary64)

structure StoreEntry where
  storeId : Str
  businessIdentity : Option Str
  score : Option (Extended Binary64)
  blacklisted : Bool

structure Subject where
  storeId : Str
  identity : Str
  entry : StoreEntry

def Subject.below (subject : Subject) : Bool := belowBlacklistThreshold subject.entry.score

structure Snapshot where
  stores : Dict Str StoreEntry
  delistings : List DelistingEvent

def listedRecords (blacklist : Source) (identities : List Str) : List BlacklistEntry :=
  blacklist.records.getD
    (identities.eraseDups.filterMap fun identity => (blacklist.lookup identity).join)

section Reading

variable [Unicode]

def storeEntry (blacklist : Registry) (asOf : Value) (storeId : Str) (store : StoreRecord) : StoreEntry where
  storeId := storeId
  businessIdentity := businessIdentityOf store.businessIdentity
  score := store.score
  blacklisted := isBlacklisted blacklist store.businessIdentity asOf

def subjectOf (entry : StoreEntry) : Option Subject :=
  match businessIdentityOf ((entry.businessIdentity.map Value.str).getD .none) with
  | none => none
  | some identity =>
      if entry.storeId.strip.isEmpty then none else some ⟨entry.storeId.strip, identity, entry⟩

/-- The reasons of the listings that block as recorded and have lapsed. -/
def lapsedReasons (blacklist : Source) (asOf : Value) (identities : List Str) : Dict Str Str :=
  (listedRecords blacklist identities).foldl (fun lapsed record =>
    if record.businessIdentity.isEmpty || record.status ∉ blockingBlacklistStatuses then lapsed
    else if record.expiredAt asOf then
      Dict.set lapsed record.businessIdentity (Str.or record.reasonCode unrecordedReasonCode)
    else lapsed) []

omit [Unicode] in
def Subject.expiry (subject : Subject) (reasonCode : Str) : DelistingEvent where
  kind := blacklistExpiredKind
  storeId := .str subject.storeId
  payload := [(str "store_id", .str subject.storeId), (str "reason_code", .str reasonCode),
    (str "business_identity", .str subject.identity)]

omit [Unicode] in
def Subject.listing (subject : Subject) : DelistingEvent where
  kind := blacklistedKind
  storeId := .str subject.storeId
  payload := [(str "store_id", .str subject.storeId), (str "reason_code", .str trustScoreReasonCode),
    (str "source", .str delistingSource), (str "expires_at", .none),
    (str "business_identity", .str subject.identity)]

omit [Unicode] in
/-- The events about one store; `expired` is the reason of its identity's lapsed listing. -/
def Subject.events (subject : Subject) (expired : Option Str) : List DelistingEvent :=
  (expired.map subject.expiry).toList ++
    if !subject.entry.blacklisted && subject.below then [subject.listing] else []

def subjectsOf (entries : List StoreEntry) : List Subject := entries.filterMap subjectOf

def delistingEvents (entries : List StoreEntry) (blacklist : Source) (asOf : Value) :
    List DelistingEvent :=
  let subjects := subjectsOf entries
  let lapsed := lapsedReasons blacklist asOf (subjects.map Subject.identity)
  subjects.flatMap fun subject => subject.events (Dict.get? lapsed subject.identity)

/-- The entries by store id; a later store of one id replaces an earlier one. -/
def snapshotStores (stores : List StoreRecord) (blacklist : Registry) (asOf : Value) : Dict Str StoreEntry :=
  stores.foldl (fun entries store => match store.storeId with
    | none => entries
    | some storeId => Dict.set entries storeId (storeEntry blacklist asOf storeId store)) []

def buildSnapshot (stores : List StoreRecord) (blacklist : Source) (asOf : Value) : Snapshot :=
  let entries := snapshotStores stores blacklist.lookup asOf
  ⟨entries, delistingEvents (Dict.values entries) blacklist asOf⟩

/-! ## What is decided about an identity -/

def blockedAt (blacklist : Registry) (identity : Str) (asOf : Value) : Bool :=
  match blacklist identity with
  | none => true
  | some entry => entry.any fun entry => entry.blocking && !entry.expiredAt asOf

theorem isBlacklisted_eq {identity : Value} {named : Str} (known : businessIdentityOf identity = some named)
    (blacklist : Registry) (asOf : Value) :
    isBlacklisted blacklist identity asOf = blockedAt blacklist named asOf := by
  unfold isBlacklisted blockedAt
  rw [known]
  dsimp only
  rcases blacklist named with _ | _ | entry <;> rfl

theorem businessIdentityOf_fixed {identity : Value} {named : Str}
    (known : businessIdentityOf identity = some named) : named.strip = named ∧ named.isEmpty = false := by
  unfold businessIdentityOf Str.nonEmpty? at known
  split at known
  · cases known
  · split at known
    · cases known
    · rename_i solid
      rw [← Option.some.inj known]
      exact ⟨Str.strip_strip _, by simpa using solid⟩

theorem businessIdentityOf_str {named : Str} (stripped : named.strip = named) (solid : named.isEmpty = false) :
    businessIdentityOf (.str named) = some named := by
  change Str.nonEmpty? (Str.strip named) = some named
  rw [stripped, Str.nonEmpty?, solid]
  rfl

theorem subjectOf_cases {entry : StoreEntry} {subject : Subject} (written : subjectOf entry = some subject) :
    subject.entry = entry ∧ subject.storeId = entry.storeId.strip ∧
      subject.identity.strip = subject.identity ∧ subject.identity.isEmpty = false := by
  unfold subjectOf at written
  split at written
  · cases written
  · rename_i identity known
    split at written
    · cases written
    · rw [← Option.some.inj written]
      exact ⟨rfl, rfl, businessIdentityOf_fixed known⟩

theorem subjectOf_identity {entry : StoreEntry} {subject : Subject}
    (fixed : ∀ named, entry.businessIdentity = some named → named.strip = named ∧ named.isEmpty = false)
    (written : subjectOf entry = some subject) : entry.businessIdentity = some subject.identity := by
  unfold subjectOf at written
  cases held : entry.businessIdentity with
  | none =>
      rw [held] at written
      cases written
  | some named =>
      obtain ⟨stripped, solid⟩ := fixed named held
      rw [held, Option.map_some, Option.getD_some, businessIdentityOf_str stripped solid] at written
      dsimp only at written
      split at written
      · cases written
      · rw [← Option.some.inj written]

theorem text_str (s : Str) : Value.text (.str s) = s.strip := rfl

section Subjects

variable {subject : Subject} {identity : Str}

theorem decides_expiry (stripped : subject.identity.strip = subject.identity)
    (solid : subject.identity.isEmpty = false) (reasonCode : Str) :
    decides [] identity (subject.expiry reasonCode) = decide (subject.identity = identity) := by
  have named : delistingIdentity (subject.expiry reasonCode) [] = some subject.identity := by
    unfold delistingIdentity
    have read : Record.get (subject.expiry reasonCode).payload (str "business_identity") = .str subject.identity := rfl
    rw [read, text_str, stripped]
    simp [solid]
  unfold decides
  rw [named]
  simp [Subject.expiry, delistingKinds]

theorem decides_listing (stripped : subject.identity.strip = subject.identity)
    (solid : subject.identity.isEmpty = false) :
    decides [] identity subject.listing = decide (subject.identity = identity) := by
  have named : delistingIdentity subject.listing [] = some subject.identity := by
    unfold delistingIdentity
    have read : Record.get subject.listing.payload (str "business_identity") = .str subject.identity := rfl
    rw [read, text_str, stripped]
    simp [solid]
  unfold decides
  rw [named]
  simp [Subject.listing, delistingKinds]

omit [Unicode] in
theorem turn_expiry (reasonCode : Str) : (subject.expiry reasonCode).turn = .off :=
  if_neg (by simp only [Subject.expiry]; decide)

omit [Unicode] in
theorem turn_listing : subject.listing.turn = .on subject.listing.payload := if_pos rfl

end Subjects

omit [Unicode] in
def Subject.turns (lapsed free : Bool) (subject : Subject) : List (Turn Record) :=
  (if lapsed then [.off] else []) ++ if free && subject.below then [.on subject.listing.payload] else []

theorem decisions_append (events events' : List DelistingEvent) (identity : Str) :
    decisions [] (events ++ events') identity = decisions [] events identity ++ decisions [] events' identity := by
  simp [decisions]

theorem decisions_events {subject : Subject} (stripped : subject.identity.strip = subject.identity)
    (solid : subject.identity.isEmpty = false) (expired : Option Str) (identity : Str) :
    decisions [] (subject.events expired) identity =
      if subject.identity = identity then subject.turns expired.isSome (!subject.entry.blacklisted) else [] := by
  unfold Subject.events Subject.turns
  rw [decisions_append]
  by_cases same : subject.identity = identity
  · rw [if_pos same]
    congr 1
    · cases expired with
      | none => rfl
      | some reason => simp [decisions, decides_expiry stripped solid, same, turn_expiry]
    · split
      · simp [decisions, decides_listing stripped solid, same, turn_listing]
      · rfl
  · rw [if_neg same, List.append_eq_nil_iff]
    constructor
    · cases expired with
      | none => rfl
      | some reason => simp [decisions, decides_expiry stripped solid, same]
    · split
      · simp [decisions, decides_listing stripped solid, same]
      · rfl

end Reading
end Proxyshop.Blacklist
