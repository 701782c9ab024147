import Proxyshop.Blacklist.Recommend

/-!
# Folding a recommendation back

Each store of an identity gives its latch an off where the listing has lapsed, and then an on where its
score is below the threshold and nothing blocks it. What the last of them leaves is what the next snapshot
reads.
-/

namespace Proxyshop.Blacklist

open Python Scoring Numbers Structures

variable [Unicode]

def blockedEntry (asOf : Value) (entry : Option BlacklistEntry) : Bool :=
  entry.any fun entry => entry.blocking && !entry.expiredAt asOf

theorem blockedEntry_of_free {asOf : Value} {entry : Option BlacklistEntry}
    (free : entry.any BlacklistEntry.blocking = false) : blockedEntry asOf entry = false := by
  cases entry with
  | none => rfl
  | some entry =>
      have clears : entry.blocking = false := free
      simp [blockedEntry, clears]

theorem blockedEntry_listing (subject : Subject) (identity : Str) (asOf : Value) :
    blockedEntry asOf (some (openedEntry identity subject.listing.payload)) = true := by
  have window : (openedEntry identity subject.listing.payload).expiresAt = .none := rfl
  simp [blockedEntry, blocking_openedEntry, BlacklistEntry.expiredAt, window, passed, instant, parseInstant,
    Except.toOption]

section Turns

variable {identity : Str} {subjects : List Subject} {current : Option BlacklistEntry}

theorem run_lapsed_free (asOf : Value) (subject : Subject) :
    blockedEntry asOf ((listingLatch identity).run current
        ((subjects ++ [subject]).flatMap (Subject.turns true true))) = subject.below ∧
      (((listingLatch identity).run current
        ((subjects ++ [subject]).flatMap (Subject.turns true true))).any BlacklistEntry.blocking) =
          subject.below := by
  rw [List.flatMap_append, Latch.run_append, List.flatMap_singleton]
  generalize (listingLatch identity).run current (subjects.flatMap (Subject.turns true true)) = before
  have closed := Latch.free_off (l := listingLatch identity) before
  cases below : subject.below with
  | true =>
      have opened : (listingLatch identity).run before (subject.turns true true) =
          some (openedEntry identity subject.listing.payload) := by
        simp only [Subject.turns, below, Bool.and_self, if_true, List.singleton_append, Latch.run_cons]
        exact Latch.turn_on_free closed _
      rw [opened]
      exact ⟨blockedEntry_listing subject identity asOf, blocking_openedEntry identity _⟩
  | false =>
      have left : (listingLatch identity).run before (subject.turns true true) =
          (listingLatch identity).turn before .off := by
        simp only [Subject.turns, below, Bool.and_false, if_true]
        rfl
      rw [left]
      exact ⟨blockedEntry_of_free closed, closed⟩

theorem run_lapsed_blocked (identity : Str) (current : Option BlacklistEntry) (named : subjects ≠ []) :
    (((listingLatch identity).run current (subjects.flatMap (Subject.turns true false))).any
      BlacklistEntry.blocking) = false := by
  obtain ⟨before, subject, rfl⟩ := (List.eq_nil_or_concat subjects).resolve_left named
  rw [List.concat_eq_append, List.flatMap_append, Latch.run_append, List.flatMap_singleton]
  exact Latch.free_off (l := listingLatch identity) _

theorem run_kept_blocked :
    (listingLatch identity).run current (subjects.flatMap (Subject.turns false false)) = current := by
  have silent : subjects.flatMap (Subject.turns false false) = [] := by simp [Subject.turns]
  rw [silent]
  rfl

omit [Unicode] in
theorem turns_kept_on : ∀ turn ∈ subjects.flatMap (Subject.turns false true), turn.isOn = true := by
  intro turn member
  obtain ⟨subject, -, given⟩ := List.mem_flatMap.mp member
  cases below : subject.below with
  | false => simp [Subject.turns, below] at given
  | true =>
      rw [Subject.turns, below] at given
      rw [List.mem_singleton.mp given]
      rfl

theorem run_kept_free {asOf : Value} (free : blockedEntry asOf current = false) :
    blockedEntry asOf ((listingLatch identity).run current (subjects.flatMap (Subject.turns false true))) =
      (subjects.any Subject.below && !current.any BlacklistEntry.blocking) := by
  cases standing : current.any BlacklistEntry.blocking with
  | true =>
      rw [Latch.run_ons (l := listingLatch identity) standing turns_kept_on, free]
      simp
  | false =>
      rw [Bool.not_false, Bool.and_true]
      induction subjects with
      | nil => exact free
      | cons subject subjects ih =>
          rw [List.flatMap_cons, Latch.run_append, List.any_cons]
          cases below : subject.below with
          | false =>
              have silent : subject.turns false true = [] := by simp [Subject.turns, below]
              rw [silent]
              exact ih
          | true =>
              have listed : subject.turns false true = [.on subject.listing.payload] := by
                simp [Subject.turns, below]
              have opened : (listingLatch identity).run current [.on subject.listing.payload] =
                  some (openedEntry identity subject.listing.payload) := Latch.turn_on_free standing _
              have held : (some (openedEntry identity subject.listing.payload)).any
                  (listingLatch identity).held = true :=
                blocking_openedEntry identity subject.listing.payload
              rw [listed, opened, Latch.run_ons (l := listingLatch identity) held turns_kept_on,
                blockedEntry_listing]
              rfl

end Turns

/-! ## From the stores to the decisions -/

section Stores

variable (stores : List StoreRecord) (registry : Source) (asOf : Value)

omit [Unicode] in
def keptStores : Dict Str StoreRecord :=
  stores.foldl (fun kept store => match store.storeId with
    | none => kept
    | some storeId => Dict.set kept storeId store) []

omit [Unicode] in
theorem map_set {K V W : Type} [DecidableEq K] (f : K → V → W) (d : Dict K V) (k : K) (v : V) :
    (Dict.set d k v).map (fun entry => (entry.1, f entry.1 entry.2)) =
      Dict.set (d.map fun entry => (entry.1, f entry.1 entry.2)) k (f k v) := by
  induction d with
  | nil => rfl
  | cons entry d ih =>
      simp only [Dict.set, List.map_cons]
      split
      · simp
      · simp [ih]

theorem values_snapshotStores (blacklist : Registry) :
    Dict.values (snapshotStores stores blacklist asOf) =
      (keptStores stores).map fun entry => storeEntry blacklist asOf entry.1 entry.2 := by
  have same : snapshotStores stores blacklist asOf =
      (keptStores stores).map fun entry => (entry.1, storeEntry blacklist asOf entry.1 entry.2) := by
    unfold snapshotStores keptStores
    induction stores using List.reverseRecOn with
    | nil => rfl
    | append_singleton stores store ih =>
        rw [List.foldl_append, List.foldl_append, List.foldl_cons, List.foldl_cons, List.foldl_nil, List.foldl_nil,
          ih]
        cases store.storeId with
        | none => rfl
        | some storeId => exact (map_set _ _ _ _).symm
  rw [same, Dict.values, List.map_map]
  rfl

/-- The stores of an identity that events are written about. -/
def speakers (entries : List StoreEntry) (identity : Str) : List Subject :=
  (subjectsOf entries).filter fun subject => subject.identity = identity

/-- Whether a listing of the identity has lapsed, as the recommendation sees it. -/
def lapsedFor (entries : List StoreEntry) (registry : Source) (asOf : Value) (identity : Str) : Bool :=
  (Dict.get? (lapsedReasons registry asOf ((subjectsOf entries).map Subject.identity)) identity).isSome

theorem mem_subjects {stores : List StoreRecord} {blacklist : Registry} {asOf : Value} {subject : Subject}
    (member : subject ∈ subjectsOf (Dict.values (snapshotStores stores blacklist asOf))) :
    subject.entry ∈ Dict.values (snapshotStores stores blacklist asOf) ∧
      subject.entry.businessIdentity = some subject.identity ∧
      subject.identity.strip = subject.identity ∧ subject.identity.isEmpty = false ∧
      subject.entry.blacklisted = blockedAt blacklist subject.identity asOf := by
  obtain ⟨entry, listed, written⟩ := List.mem_filterMap.mp member
  obtain ⟨rfl, -, stripped, solid⟩ := subjectOf_cases written
  refine ⟨listed, ?_⟩
  rw [values_snapshotStores] at listed
  obtain ⟨⟨storeId, store⟩, -, made⟩ := List.mem_map.mp listed
  have identified : subject.entry.businessIdentity = some subject.identity := by
    apply subjectOf_identity _ written
    intro named known
    rw [← made] at known
    exact businessIdentityOf_fixed known
  refine ⟨identified, stripped, solid, ?_⟩
  rw [← made] at identified ⊢
  exact isBlacklisted_eq identified blacklist asOf

theorem decisions_delistingEvents (identity : Str) :
    let entries := Dict.values (snapshotStores stores registry.lookup asOf)
    decisions [] (delistingEvents entries registry asOf) identity =
      (speakers entries identity).flatMap
        (Subject.turns (lapsedFor entries registry asOf identity) (!blockedAt registry.lookup identity asOf)) := by
  intro entries
  unfold delistingEvents speakers lapsedFor
  dsimp only
  have known := fun subject => @mem_subjects _ stores registry.lookup asOf subject
  change ∀ subject, subject ∈ subjectsOf entries → _ at known
  generalize lapsedReasons registry asOf ((subjectsOf entries).map Subject.identity) = lapsed
  revert known
  induction subjectsOf entries with
  | nil => exact fun _ => rfl
  | cons subject subjects ih =>
      intro known
      obtain ⟨-, -, stripped, solid, blacklisted⟩ := known subject List.mem_cons_self
      rw [List.flatMap_cons, decisions_append, decisions_events stripped solid,
        ih fun other member => known other (List.mem_cons_of_mem _ member)]
      by_cases same : subject.identity = identity
      · rw [if_pos same, List.filter_cons_of_pos (by simpa using same), List.flatMap_cons, blacklisted, same]
      · rw [if_neg same, List.filter_cons_of_neg (by simpa using same), List.nil_append]

theorem lookup_unread (events : List DelistingEvent) {base : Registry} {identity : Str}
    (unread : base identity = none) (offs : (decisions [] events identity).any Turn.isOn = false) :
    (foldDelistingEvents events base []).lookup identity = none := by
  induction events using List.reverseRecOn with
  | nil => exact unread
  | append_singleton events event ih =>
      rw [decisions_append, List.any_append, Bool.or_eq_false_iff] at offs
      have before := ih offs.1
      unfold foldDelistingEvents at before ⊢
      rw [List.foldl_append, List.foldl_cons, List.foldl_nil, lookup_foldEvent, before]
      split
      · rename_i decides
        have expiry : event.kind ≠ blacklistedKind := by
          intro opens
          simp [decisions, decides, DelistingEvent.turn, opens, Turn.isOn] at offs
        simp [foldDecision, expiry]
      · rfl

end Stores

/-! ## The fixed point -/

/-- The registry holds a listing that blocks the identity and whose window has passed. -/
def Lapsed (blacklist : Registry) (identity : Str) (asOf : Value) : Prop :=
  ∃ entry, blacklist identity = some (some entry) ∧ entry.blocking = true ∧ entry.expiredAt asOf = true

def SomeBelow (entries : List StoreEntry) (identity : Str) : Prop :=
  ∃ entry ∈ entries, entry.businessIdentity = some identity ∧ belowBlacklistThreshold entry.score = true

/-- The recommendation folded back, and the snapshot that is then built, recommend no listing; each store
below the threshold is blacklisted, and a lapsed listing of an identity that is not below is closed. -/
def Converges (stores : List StoreRecord) (registry : Source) (asOf : Value) : Prop :=
  let snapshot := buildSnapshot stores registry asOf
  let folded := foldDelistingEvents snapshot.delistings registry.lookup []
  let again := buildSnapshot stores (folded.source registry) asOf
  (∀ event ∈ again.delistings, event.kind ≠ blacklistedKind) ∧
    (∀ entry ∈ Dict.values again.stores, belowBlacklistThreshold entry.score = true →
      entry.businessIdentity.isSome = true → entry.blacklisted = true) ∧
    ∀ entry ∈ Dict.values snapshot.stores, ∀ identity, entry.businessIdentity = some identity →
      Lapsed registry.lookup identity asOf → ¬ SomeBelow (Dict.values snapshot.stores) identity →
        blockingEntry (folded.lookup identity).join = false

/-- For an identity that is below the threshold: its listing cannot be read; or an expiry is recommended,
nothing blocks it and its last store is below; or no expiry is recommended, and it is blocked, or is listed
for one of its stores and has no lapsed listing left. For any other, a lapsed listing is recommended to
expire. -/
def Settled (entries : List StoreEntry) (registry : Source) (asOf : Value) (identity : Str) : Prop :=
  let expiring := speakers entries identity ≠ [] ∧ lapsedFor entries registry asOf identity = true
  let blocked := blockedAt registry.lookup identity asOf = true
  (SomeBelow entries identity →
    registry.lookup identity = none ∨
      (expiring ∧ ¬ blocked ∧ ∃ subject ∈ (speakers entries identity).getLast?, subject.below = true) ∨
      (¬ expiring ∧ (blocked ∨
        (∃ subject ∈ speakers entries identity, subject.below = true) ∧ ¬ Lapsed registry.lookup identity asOf))) ∧
    (¬ SomeBelow entries identity → Lapsed registry.lookup identity asOf → expiring)

section Fixed

variable {stores : List StoreRecord} {registry : Source} {asOf : Value} {identity : Str}

theorem flatMap_of_silent (identity : Str) {entries : List StoreEntry} {lapsed : Bool} (free : Bool)
    (silent : ¬ (speakers entries identity ≠ [] ∧ lapsed = true)) :
    (speakers entries identity).flatMap (Subject.turns lapsed free) =
      (speakers entries identity).flatMap (Subject.turns false free) := by
  cases lapsed with
  | false => rfl
  | true =>
      have none : speakers entries identity = [] := by simpa using silent
      rw [none]
      rfl

theorem lapsed_iff {current : Option BlacklistEntry} (answered : registry.lookup identity = some current)
    (free : blockedEntry asOf current = false) :
    Lapsed registry.lookup identity asOf ↔ current.any BlacklistEntry.blocking = true := by
  unfold Lapsed
  rw [answered]
  cases current with
  | none => simp
  | some entry =>
      have window : entry.blocking = true → entry.expiredAt asOf = true := by simpa [blockedEntry] using free
      simp only [Option.some.injEq, exists_eq_left', Option.any_some]
      exact ⟨And.left, fun blocks => ⟨blocks, window blocks⟩⟩

theorem blockedAt_folded :
    let snapshot := buildSnapshot stores registry asOf
    let entries := Dict.values snapshot.stores
    let expiring := speakers entries identity ≠ [] ∧ lapsedFor entries registry asOf identity = true
    let blocked := blockedAt registry.lookup identity asOf = true
    blockedAt (foldDelistingEvents snapshot.delistings registry.lookup []).lookup identity asOf = true ↔
      registry.lookup identity = none ∨
        (expiring ∧ ¬ blocked ∧ ∃ subject ∈ (speakers entries identity).getLast?, subject.below = true) ∨
        (¬ expiring ∧ (blocked ∨
          (∃ subject ∈ speakers entries identity, subject.below = true) ∧
            ¬ Lapsed registry.lookup identity asOf)) := by
  intro snapshot entries expiring blocked
  have turns := decisions_delistingEvents stores registry asOf identity
  change decisions [] snapshot.delistings identity =
    (speakers entries identity).flatMap (Subject.turns (lapsedFor entries registry asOf identity)
      (!blockedAt registry.lookup identity asOf)) at turns
  cases answer : registry.lookup identity with
  | none =>
      refine iff_of_true ?_ (Or.inl rfl)
      have unread := lookup_unread snapshot.delistings answer (by
        rw [turns, blockedAt, answer]
        simp [Subject.turns, Turn.isOn])
      rw [blockedAt, unread]
  | some current =>
      have read : blockedAt registry.lookup identity asOf = blockedEntry asOf current := by
        rw [blockedAt, answer]
        rfl
      have served := lookup_decisions snapshot.delistings [] answer
      rw [turns] at served
      rw [blockedAt, served]
      change blockedEntry asOf _ = true ↔ _
      rw [or_iff_right (Option.some_ne_none current)]
      by_cases expires : expiring
      · simp only [expires, not_true_eq_false, true_and, false_and, or_false]
        obtain ⟨named, lapsed⟩ := expires
        rw [lapsed]
        cases blocks : blockedAt registry.lookup identity asOf with
        | true =>
            have closed := run_lapsed_blocked identity current named
            rw [Bool.not_true, blockedEntry_of_free closed]
            simp [blocked, blocks]
        | false =>
            obtain ⟨before, subject, last⟩ := (List.eq_nil_or_concat _).resolve_left named
            rw [List.concat_eq_append] at last
            rw [last, Bool.not_false, (run_lapsed_free asOf subject).1]
            simp [blocked, blocks]
      · simp only [expires, not_false_eq_true, true_and, false_and, false_or]
        rw [flatMap_of_silent identity _ expires]
        cases blocks : blockedAt registry.lookup identity asOf with
        | true =>
            rw [Bool.not_true, run_kept_blocked, ← read]
            simp [blocked, blocks]
        | false =>
            have free := read.symm.trans blocks
            rw [Bool.not_false, run_kept_free free, lapsed_iff answer free]
            simp [blocked, blocks]

theorem blockingEntry_folded (lapsed : Lapsed registry.lookup identity asOf)
    (above : ¬ SomeBelow (Dict.values (buildSnapshot stores registry asOf).stores) identity) :
    let snapshot := buildSnapshot stores registry asOf
    let entries := Dict.values snapshot.stores
    blockingEntry ((foldDelistingEvents snapshot.delistings registry.lookup []).lookup identity).join = false ↔
      speakers entries identity ≠ [] ∧ lapsedFor entries registry asOf identity = true := by
  intro snapshot entries
  obtain ⟨entry, answer, blocks, window⟩ := lapsed
  have free : blockedAt registry.lookup identity asOf = false := by simp [blockedAt, answer, blocks, window]
  have none_below : ∀ subject ∈ speakers entries identity, subject.below = false := by
    intro subject member
    obtain ⟨written, same⟩ := List.mem_filter.mp member
    obtain ⟨listed, identified, -⟩ := mem_subjects written
    rw [of_decide_eq_true same] at identified
    by_contra below
    exact above ⟨subject.entry, listed, identified, by simpa [Subject.below] using below⟩
  have served := lookup_decisions snapshot.delistings [] answer
  have turns := decisions_delistingEvents stores registry asOf identity
  change decisions [] snapshot.delistings identity = (speakers entries identity).flatMap _ at turns
  rw [turns, free, Bool.not_false] at served
  rw [served, Option.join_some]
  by_cases expires : speakers entries identity ≠ [] ∧ lapsedFor entries registry asOf identity = true
  · refine iff_of_true ?_ expires
    obtain ⟨named, lapsed⟩ := expires
    change lapsedFor (Dict.values (snapshotStores stores registry.lookup asOf)) registry asOf identity = true at lapsed
    rw [lapsed]
    obtain ⟨before, subject, last⟩ := (List.eq_nil_or_concat _).resolve_left named
    rw [List.concat_eq_append] at last
    rw [last, blockingEntry, (run_lapsed_free asOf subject).2]
    exact none_below subject (by rw [last]; simp)
  · refine iff_of_false ?_ expires
    have silent := flatMap_of_silent identity true expires
    change (speakers entries identity).flatMap (Subject.turns (lapsedFor (Dict.values (snapshotStores stores
      registry.lookup asOf)) registry asOf identity) true) = _ at silent
    have nothing : (speakers entries identity).flatMap (Subject.turns false true) = [] := by
      rw [List.flatMap_eq_nil_iff]
      intro subject member
      simp [Subject.turns, none_below subject member]
    rw [silent, nothing]
    simp [Latch.run, blockingEntry, blocks]

theorem again_entry {blacklist : Registry} (blacklist' : Registry) {entry : StoreEntry}
    (listed : entry ∈ Dict.values (snapshotStores stores blacklist asOf)) :
    ∃ entry' ∈ Dict.values (snapshotStores stores blacklist' asOf),
      entry'.businessIdentity = entry.businessIdentity ∧ entry'.score = entry.score ∧
        ∀ identity, entry.businessIdentity = some identity →
          entry'.blacklisted = blockedAt blacklist' identity asOf := by
  rw [values_snapshotStores] at listed ⊢
  obtain ⟨⟨storeId, store⟩, kept, rfl⟩ := List.mem_map.mp listed
  exact ⟨storeEntry blacklist' asOf storeId store, List.mem_map.mpr ⟨_, kept, rfl⟩, rfl, rfl,
    fun _ identified => isBlacklisted_eq identified blacklist' asOf⟩

theorem blacklisted_of_mem {blacklist : Registry} {entry : StoreEntry}
    (listed : entry ∈ Dict.values (snapshotStores stores blacklist asOf)) (known : entry.businessIdentity = some identity) :
    entry.blacklisted = blockedAt blacklist identity asOf := by
  rw [values_snapshotStores] at listed
  obtain ⟨⟨storeId, store⟩, -, rfl⟩ := List.mem_map.mp listed
  exact isBlacklisted_eq known blacklist asOf

/-- A recommendation converges exactly where each identity of the snapshot is settled. -/
theorem converges_iff (stores : List StoreRecord) (registry : Source) (asOf : Value) :
    Converges stores registry asOf ↔
      ∀ entry ∈ Dict.values (buildSnapshot stores registry asOf).stores, ∀ identity,
        entry.businessIdentity = some identity →
          Settled (Dict.values (buildSnapshot stores registry asOf).stores) registry asOf identity := by
  unfold Converges Settled
  dsimp only
  constructor
  · rintro ⟨-, listed, closed⟩ entry member identity identified
    refine ⟨fun below => blockedAt_folded.mp ?_,
      fun above lapsed => (blockingEntry_folded lapsed above).mp (closed entry member identity identified lapsed above)⟩
    obtain ⟨low, lowMember, lowIdentified, lowBelow⟩ := below
    obtain ⟨again, againMember, sameIdentity, sameScore, blacklisted⟩ := again_entry _ lowMember
    rw [← blacklisted identity lowIdentified]
    apply listed again againMember
    · rw [sameScore]
      exact lowBelow
    · rw [sameIdentity, lowIdentified]
      rfl
  · intro settled
    have listed : ∀ entry ∈ Dict.values (buildSnapshot stores ((foldDelistingEvents
        (buildSnapshot stores registry asOf).delistings registry.lookup []).source registry) asOf).stores,
        belowBlacklistThreshold entry.score = true → entry.businessIdentity.isSome = true →
          entry.blacklisted = true := by
      intro entry member below named
      obtain ⟨identity, identified⟩ := Option.isSome_iff_exists.mp named
      obtain ⟨before, beforeMember, sameIdentity, sameScore, -⟩ :=
        again_entry registry.lookup member
      rw [blacklisted_of_mem member identified]
      apply blockedAt_folded.mpr
      apply (settled before beforeMember identity (sameIdentity.trans identified)).1
      exact ⟨before, beforeMember, sameIdentity.trans identified, by rw [sameScore]; exact below⟩
    refine ⟨?_, listed, fun entry member identity identified lapsed above =>
      (blockingEntry_folded lapsed above).mpr ((settled entry member identity identified).2 above lapsed)⟩
    intro event member opens
    obtain ⟨subject, written, given⟩ := List.mem_flatMap.mp member
    obtain ⟨inside, identified, -⟩ := mem_subjects written
    rcases List.mem_append.mp given with expiry | listing
    · obtain ⟨reason, -, rfl⟩ := by simpa using expiry
      exact absurd opens (by simp only [Subject.expiry]; decide)
    · split at listing
      · rename_i open_
        rw [Bool.and_eq_true, Bool.not_eq_true'] at open_
        have blocked := listed subject.entry inside open_.2 (by rw [identified]; rfl)
        exact Bool.false_ne_true (open_.1.symm.trans blocked)
      · cases listing

end Fixed

def lapsedBusiness : Source where
  lookup := fun identity =>
    some (if identity = str "biz" then some ⟨"biz", "manual_review", "active", .str "2026-01-01T00:00:00Z", none⟩
      else none)
  records := none

/-- Two of its stores: one below the threshold, and after it one that is not. -/
def twoStores : List StoreRecord :=
  [⟨some (str "s1"), .str (str "biz"), some 0.1⟩, ⟨some (str "s2"), .str (str "biz"), some 0.9⟩]

omit [Unicode] in
/-- The second store's expiry ends the listing that the first one's score has just opened. -/
theorem second_store_relists : letI := Unicode.ascii
    let asOf := Value.str (str "2026-02-01T00:00:00Z")
    let snapshot := buildSnapshot twoStores lapsedBusiness asOf
    let folded := foldDelistingEvents snapshot.delistings lapsedBusiness.lookup []
    let again := buildSnapshot twoStores (folded.source lapsedBusiness) asOf
    (Dict.values again.stores).map (fun entry =>
        (entry.storeId, belowBlacklistThreshold entry.score, entry.blacklisted)) =
      [(str "s1", true, false), (str "s2", false, false)] ∧
    again.delistings.map DelistingEvent.kind = [blacklistedKind] := by
  let _ := Unicode.ascii
  decide +kernel

end Proxyshop.Blacklist
