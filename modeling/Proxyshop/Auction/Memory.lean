import Mathlib.Algebra.Order.Group.Defs
import Mathlib.Algebra.Order.Ring.Rat
import Mathlib.Data.List.Perm.Subperm
import Mathlib.Data.List.ProdSigma
import Mathlib.Tactic.IntervalCases
import Mathlib.Tactic.Linarith
import Proxyshop.Auction.Store
import Proxyshop.Python.Dict

/-!
# The bounded store

The store of one process: at most so many records, each for so long. The clock is a function of how
often it has been read.
-/

namespace Proxyshop.Auction.Memory

open Python

inductive Gone
  | evicted
  | expired
  deriving DecidableEq

/-- A record that a call forgets: when it was written, and at which reading of the clock it is forgotten. -/
structure Departure where
  key : Str
  reason : Gone
  written : ℚ
  moment : ℚ

structure Bounds where
  capacity : Nat
  ttlSeconds : ℚ
  positive : 0 < capacity

structure Store where
  records : Dict Str AuctionRecord
  writtenAt : Dict Str ℚ
  reservations : Dict (Str × Str) (ℚ × Str)
  gone : Dict Str (Gone × ℚ)
  evicted : Nat
  expired : Nat
  readings : Nat
  /-- What the call at hand has forgotten. -/
  departed : List Departure

def Store.empty : Store where
  records := []
  writtenAt := []
  reservations := []
  gone := []
  evicted := 0
  expired := 0
  readings := 0
  departed := []

def acceptanceReservationName : Str := str "accept"

def reservationNames : List Str :=
  [creationReservation, exitReservation .created, exitReservation .opened, exitReservation .closed,
    acceptanceReservationName]

def reservationNamesPerAuction : Nat := 5

inductive Access
  | load (auctionId : Str)
  | save (record : AuctionRecord)
  | reserve (auctionId name token : Str)
  | release (auctionId name token : Str)

inductive Reply
  | record (record : Option AuctionRecord)
  | holder (holder : Option Str)
  | done

variable (bounds : Bounds) (clock : Nat → ℚ)

namespace Store

/-! ## The bounds -/

/-- `_aged_out`. -/
def agedOut (s : Store) (key : Str) (moment : ℚ) : Bool :=
  bounds.ttlSeconds ≤ moment - (Dict.get? s.writtenAt key).getD 0

/-- `_claimed`. -/
def claimed (s : Store) (key : Str) (moment : ℚ) : Bool :=
  match Dict.get? s.reservations (key, acceptanceReservationName) with
  | some held => moment - held.1 < bounds.ttlSeconds
  | none => false

/-- `_forget`, at a moment that the caller has read. -/
def forget (s : Store) (key : Str) (reason : Gone) (moment : ℚ) : Store :=
  let remembered := Dict.erase s.gone key ++ [(key, reason, clock s.readings)]
  { s with
    records := Dict.erase s.records key
    writtenAt := Dict.erase s.writtenAt key
    reservations := s.reservations.filter fun held => held.1.1 ≠ key
    gone := remembered.drop (remembered.length - bounds.capacity)
    readings := s.readings + 1
    departed := s.departed ++ [⟨key, reason, (Dict.get? s.writtenAt key).getD 0, moment⟩] }

def forgetExpired (s : Store) (key : Str) (moment : ℚ) : Store :=
  { s.forget bounds clock key .expired moment with expired := s.expired + 1 }

def forgetEvicted (s : Store) (key : Str) (moment : ℚ) : Store :=
  { s.forget bounds clock key .evicted moment with evicted := s.evicted + 1 }

/-- The first loop of `_evict`: no pass leaves as many records as there were. -/
def reap (moment : ℚ) : Nat → Store → Store
  | 0, s => s
  | passes + 1, s =>
      match s.records with
      | [] => s
      | (oldest, _) :: _ =>
          if s.agedOut bounds oldest moment then reap moment passes (s.forgetExpired bounds clock oldest moment)
          else s

def victim (s : Store) (oldest : Str) (moment : ℚ) : Str :=
  ((s.records.find? fun entry => !s.claimed bounds entry.1 moment).map Prod.fst).getD oldest

/-- The second loop of `_evict`: each pass drops one record. -/
def evictOver (moment : ℚ) : Nat → Store → Store
  | 0, s => s
  | passes + 1, s =>
      match s.records with
      | [] => s
      | (oldest, _) :: _ =>
          let victim := s.victim bounds oldest moment
          evictOver moment passes
            (if s.agedOut bounds victim moment then s.forgetExpired bounds clock victim moment
            else s.forgetEvicted bounds clock victim moment)

/-- `_evict`. -/
def evict (s : Store) : Store :=
  let moment := clock s.readings
  let s := reap bounds clock moment s.records.length { s with readings := s.readings + 1 }
  evictOver bounds clock moment (s.records.length - bounds.capacity) s

/-! ## The operations -/

def load (s : Store) (auctionId : Str) : Store × Option AuctionRecord :=
  match Dict.get? s.records auctionId with
  | none => (s, none)
  | some record =>
      let moment := clock s.readings
      let s := { s with readings := s.readings + 1 }
      if s.agedOut bounds auctionId moment then (s.forgetExpired bounds clock auctionId moment, none)
      else (s, some record)

def save (s : Store) (record : AuctionRecord) : Store :=
  let key := record.auctionId
  evict bounds clock { s with
    records := Dict.set (Dict.erase s.records key) key record
    writtenAt := Dict.set s.writtenAt key (clock s.readings)
    gone := Dict.erase s.gone key
    readings := s.readings + 1 }

/-- The reservation that the backstop drops first: one with no record behind it, or else the oldest. -/
def dropped (s : Store) (oldest : (Str × Str) × (ℚ × Str)) : (Str × Str) × (ℚ × Str) :=
  (s.reservations.find? fun held => !Dict.contains s.records held.1.1).getD oldest

/-- The backstop of `reserve`: each pass drops one reservation. -/
def trim : Nat → Store → Store
  | 0, s => s
  | passes + 1, s =>
      match s.reservations with
      | [] => s
      | oldest :: _ => trim passes { s with reservations := Dict.erase s.reservations (s.dropped oldest).1 }

def grant (s : Store) (pair : Str × Str) (token : Str) : Store :=
  let s := { s with
    reservations := Dict.set s.reservations pair (clock s.readings, token)
    readings := s.readings + 1 }
  trim (s.reservations.length - bounds.capacity * reservationNamesPerAuction) s

def reserve (s : Store) (auctionId name token : Str) : Store × Option Str :=
  match Dict.get? s.reservations (auctionId, name) with
  | some (writtenAt, holder) =>
      let moment := clock s.readings
      let s := { s with readings := s.readings + 1 }
      if moment - writtenAt < bounds.ttlSeconds then (s, some holder)
      else
        (({ s with reservations := Dict.erase s.reservations (auctionId, name) } : Store).grant bounds clock
          (auctionId, name) token, none)
  | none => (s.grant bounds clock (auctionId, name) token, none)

def release (s : Store) (auctionId name token : Str) : Store :=
  match Dict.get? s.reservations (auctionId, name) with
  | some held =>
      if held.2 = token then { s with reservations := Dict.erase s.reservations (auctionId, name) } else s
  | none => s

/-- The store as a call finds it, which has forgotten nothing yet. -/
def started (s : Store) : Store := { s with departed := [] }

def perform (s : Store) (access : Access) : Store × Reply :=
  let s := s.started
  match access with
  | .load auctionId =>
      let (s, record) := s.load bounds clock auctionId
      (s, .record record)
  | .save record => (s.save bounds clock record, .done)
  | .reserve auctionId name token =>
      let (s, holder) := s.reserve bounds clock auctionId name token
      (s, .holder holder)
  | .release auctionId name token => (s.release auctionId name token, .done)

end Store

/-! ## Runs -/

def after (calls : Nat → Access) : Nat → Store
  | 0 => .empty
  | k + 1 => ((after calls k).perform bounds clock (calls k)).1

def reply (calls : Nat → Access) (k : Nat) : Reply := ((after bounds clock calls k).perform bounds clock (calls k)).2

/-- The last reading of the clock by the calls before the given one. -/
def lastReading (calls : Nat → Access) (k : Nat) : ℚ := clock ((after bounds clock calls k).readings - 1)

def Forgets (calls : Nat → Access) (k : Nat) (auctionId : Str) : Prop :=
  ∃ d ∈ (after bounds clock calls (k + 1)).departed, d.key = auctionId

/-- The reservation that a call won has not been released, its record not been forgotten, and its time
has not passed. -/
structure Undisturbed (calls : Nat → Access) (i j : Nat) (auctionId name token : Str) : Prop where
  kept : ∀ k, i ≤ k → k < j → ¬ Forgets bounds clock calls k auctionId
  unreleased : ∀ k, i < k → k < j → calls k ≠ .release auctionId name token
  live : lastReading bounds clock calls j - lastReading bounds clock calls (i + 1) < bounds.ttlSeconds

/-- What the store promises of its first `n` calls. -/
structure Secure (calls : Nat → Access) (n : Nat) : Prop where
  records_bounded : ∀ k ≤ n, (after bounds clock calls k).records.length ≤ bounds.capacity
  reservations_bounded : ∀ k ≤ n, (after bounds clock calls k).reservations.length ≤
    bounds.capacity * reservationNamesPerAuction
  held : ∀ i j auctionId name token, i < j → j ≤ n → calls i = .reserve auctionId name token →
    reply bounds clock calls i = .holder none → Undisturbed bounds clock calls i j auctionId name token →
    Dict.get? (after bounds clock calls j).reservations (auctionId, name) =
      some (lastReading bounds clock calls (i + 1), token)
  single : ∀ i j auctionId name token other, i < j → j < n → calls i = .reserve auctionId name token →
    reply bounds clock calls i = .holder none → calls j = .reserve auctionId name other →
    Undisturbed bounds clock calls i (j + 1) auctionId name token →
    reply bounds clock calls j = .holder (some token)
  /-- A record under acceptance is evicted only where every other record is. -/
  spared : ∀ k < n, ∀ d ∈ (after bounds clock calls (k + 1)).departed, d.reason = .evicted →
    (after bounds clock calls k).claimed bounds d.key d.moment = true →
    ∀ entry ∈ (after bounds clock calls (k + 1)).records,
      (after bounds clock calls (k + 1)).claimed bounds entry.1 d.moment = true
  /-- A record is not loaded once its time has passed since it was last saved. -/
  unread : ∀ i j record, i < j → j < n → calls i = .save record →
    (∀ k, i < k → k < j → ∀ other : AuctionRecord, other.auctionId = record.auctionId → calls k ≠ .save other) →
    calls j = .load record.auctionId →
    bounds.ttlSeconds ≤ clock (after bounds clock calls j).readings - clock (after bounds clock calls i).readings →
    reply bounds clock calls j = .record none
  /-- A record that goes once its time has passed since it was last saved has expired. -/
  classified : ∀ i k record, i ≤ k → k < n → calls i = .save record →
    (∀ m, i < m → m ≤ k → ∀ other : AuctionRecord, other.auctionId = record.auctionId → calls m ≠ .save other) →
    ∀ d ∈ (after bounds clock calls (k + 1)).departed, d.key = record.auctionId →
      (d.reason = .expired ↔
        bounds.ttlSeconds ≤ d.moment - clock (after bounds clock calls i).readings)
  counted : ∀ k < n,
    (after bounds clock calls (k + 1)).expired = (after bounds clock calls k).expired +
        ((after bounds clock calls (k + 1)).departed.filter fun d => d.reason = .expired).length ∧
      (after bounds clock calls (k + 1)).evicted = (after bounds clock calls k).evicted +
        ((after bounds clock calls (k + 1)).departed.filter fun d => d.reason = .evicted).length

/-! ## What a call forgets -/

variable {bounds : Bounds} {clock : Nat → ℚ}

/-- The records of `ds` have been forgotten at one moment, and nothing else has changed but the clock and
what remembers them. -/
structure Shrunk (bounds : Bounds) (moment : ℚ) (s s' : Store) (ds : List Departure) : Prop where
  records : s'.records = s.records.filter fun entry => entry.1 ∉ ds.map Departure.key
  writtenAt : s'.writtenAt = s.writtenAt.filter fun entry => entry.1 ∉ ds.map Departure.key
  reservations : s'.reservations = s.reservations.filter fun held => held.1.1 ∉ ds.map Departure.key
  departed : s'.departed = s.departed ++ ds
  readings : s.readings ≤ s'.readings
  expired : s'.expired = s.expired + (ds.filter fun d => d.reason = .expired).length
  evicted : s'.evicted = s.evicted + (ds.filter fun d => d.reason = .evicted).length
  known : ∀ d ∈ ds, d.key ∈ Dict.keys s.records
  written : ∀ d ∈ ds, d.moment = moment ∧ d.written = (Dict.get? s.writtenAt d.key).getD 0 ∧
    (d.reason = .expired ↔ bounds.ttlSeconds ≤ moment - d.written)
  spared : ∀ d ∈ ds, d.reason = .evicted → s.claimed bounds d.key moment = true →
    ∀ entry ∈ s'.records, s.claimed bounds entry.1 moment = true

theorem filter_keep {A : Type} (key : A → Str) (gone gone' : List Str) (l : List A) :
    (l.filter fun a => key a ∉ gone).filter (fun a => key a ∉ gone') = l.filter fun a => key a ∉ gone ++ gone' := by
  rw [List.filter_filter]
  congr 1
  funext a
  rw [← Bool.decide_and]
  exact decide_eq_decide.mpr (by rw [List.mem_append, not_or, and_comm])

theorem get?_keep {V : Type} (gone : List Str) (d : Dict Str V) (key : Str) :
    Dict.get? (d.filter fun entry => entry.1 ∉ gone) key = if key ∈ gone then none else Dict.get? d key := by
  rw [Dict.get?_filter (fun key => decide (key ∉ gone))]
  by_cases inside : key ∈ gone <;> simp [inside]

theorem get?_keepPairs {V : Type} (gone : List Str) (d : Dict (Str × Str) V) (pair : Str × Str) :
    Dict.get? (d.filter fun held => held.1.1 ∉ gone) pair =
      if pair.1 ∈ gone then none else Dict.get? d pair := by
  rw [Dict.get?_filter (fun pair : Str × Str => decide (pair.1 ∉ gone))]
  by_cases inside : pair.1 ∈ gone <;> simp [inside]

namespace Shrunk

variable {moment : ℚ} {s s' s'' : Store} {ds ds' : List Departure}

theorem refl (s : Store) : Shrunk bounds moment s s [] where
  records := by simp
  writtenAt := by simp
  reservations := by simp
  departed := by simp
  readings := le_rfl
  expired := by simp
  evicted := by simp
  known := nofun
  written := nofun
  spared := nofun

theorem claimed_eq (shrunk : Shrunk bounds moment s s' ds) {key : Str} (kept : key ∉ ds.map Departure.key) :
    s'.claimed bounds key moment = s.claimed bounds key moment := by
  unfold Store.claimed
  rw [shrunk.reservations, get?_keepPairs, if_neg kept]

theorem kept_of_known (shrunk : Shrunk bounds moment s s' ds) {key : Str} (known : key ∈ Dict.keys s'.records) :
    key ∈ Dict.keys s.records ∧ key ∉ ds.map Departure.key := by
  rw [shrunk.records] at known
  obtain ⟨entry, inside, rfl⟩ := List.mem_map.mp known
  obtain ⟨held, kept⟩ := List.mem_filter.mp inside
  exact ⟨List.mem_map_of_mem held, by simpa using kept⟩

theorem trans (first : Shrunk bounds moment s s' ds) (second : Shrunk bounds moment s' s'' ds') :
    Shrunk bounds moment s s'' (ds ++ ds') where
  records := by
    rw [second.records, first.records, List.map_append]
    exact filter_keep Prod.fst _ _ _
  writtenAt := by
    rw [second.writtenAt, first.writtenAt, List.map_append]
    exact filter_keep Prod.fst _ _ _
  reservations := by
    rw [second.reservations, first.reservations, List.map_append]
    exact filter_keep (fun held : (Str × Str) × ℚ × Str => held.1.1) _ _ _
  departed := by rw [second.departed, first.departed, List.append_assoc]
  readings := first.readings.trans second.readings
  expired := by
    rw [second.expired, first.expired, List.filter_append, List.length_append, Nat.add_assoc]
  evicted := by
    rw [second.evicted, first.evicted, List.filter_append, List.length_append, Nat.add_assoc]
  known := by
    intro d member
    rcases List.mem_append.mp member with early | late
    · exact first.known d early
    · exact (first.kept_of_known (second.known d late)).1
  written := by
    intro d member
    rcases List.mem_append.mp member with early | late
    · exact first.written d early
    · have kept := (first.kept_of_known (second.known d late)).2
      have read := second.written d late
      rwa [first.writtenAt, get?_keep, if_neg kept] at read
  spared := by
    intro d member evicted claimed entry inside
    have kept : entry ∈ s'.records := by
      rw [second.records] at inside
      exact List.mem_of_mem_filter inside
    rcases List.mem_append.mp member with early | late
    · exact first.spared d early evicted claimed entry kept
    · have here := (first.kept_of_known (second.known d late)).2
      have there := (first.kept_of_known (List.mem_map_of_mem kept)).2
      rw [← first.claimed_eq there]
      exact second.spared d late evicted ((first.claimed_eq here).trans claimed) entry inside

end Shrunk

namespace Store

variable {moment : ℚ} {s : Store} {key : Str}

theorem forgetExpired_shrunk (known : key ∈ Dict.keys s.records) (aged : s.agedOut bounds key moment = true) :
    Shrunk bounds moment s (s.forgetExpired bounds clock key moment)
      [⟨key, .expired, (Dict.get? s.writtenAt key).getD 0, moment⟩] where
  records := by simp [forgetExpired, forget, Dict.erase]
  writtenAt := by simp [forgetExpired, forget, Dict.erase]
  reservations := by simp [forgetExpired, forget]
  departed := rfl
  readings := Nat.le_succ _
  expired := rfl
  evicted := rfl
  known := by simpa using known
  written := by simpa [agedOut] using aged
  spared := by simp

theorem forgetEvicted_shrunk (known : key ∈ Dict.keys s.records) (young : s.agedOut bounds key moment = false)
    (spares : s.claimed bounds key moment = true → ∀ entry ∈ s.records, s.claimed bounds entry.1 moment = true) :
    Shrunk bounds moment s (s.forgetEvicted bounds clock key moment)
      [⟨key, .evicted, (Dict.get? s.writtenAt key).getD 0, moment⟩] where
  records := by simp [forgetEvicted, forget, Dict.erase]
  writtenAt := by simp [forgetEvicted, forget, Dict.erase]
  reservations := by simp [forgetEvicted, forget]
  departed := rfl
  readings := Nat.le_succ _
  expired := rfl
  evicted := rfl
  known := by simpa using known
  written := by simpa [agedOut] using young
  spared := by
    simp only [List.mem_singleton, forall_eq]
    intro _ claimed entry inside
    exact spares claimed entry (List.mem_of_mem_filter inside)

variable (bounds clock) in
theorem reap_shrunk (moment : ℚ) (passes : Nat) (s : Store) :
    ∃ ds, Shrunk bounds moment s (s.reap bounds clock moment passes) ds := by
  induction passes generalizing s with
  | zero => exact ⟨[], Shrunk.refl s⟩
  | succ passes ih =>
      unfold reap
      split
      · exact ⟨[], Shrunk.refl s⟩
      · rename_i oldest record rest listed
        split
        · rename_i aged
          have known : oldest ∈ Dict.keys s.records := by
            rw [listed]
            exact List.mem_cons_self
          obtain ⟨ds, shrunk⟩ := ih (s.forgetExpired bounds clock oldest moment)
          exact ⟨_, (forgetExpired_shrunk known aged).trans shrunk⟩
        · exact ⟨[], Shrunk.refl s⟩

variable (bounds) in
theorem victim_spares (s : Store) (oldest : Str) (moment : ℚ) (known : oldest ∈ Dict.keys s.records) :
    s.victim bounds oldest moment ∈ Dict.keys s.records ∧
      (s.claimed bounds (s.victim bounds oldest moment) moment = true →
        ∀ entry ∈ s.records, s.claimed bounds entry.1 moment = true) := by
  unfold victim
  cases found : s.records.find? fun entry => !s.claimed bounds entry.1 moment with
  | none => exact ⟨known, fun _ => by simpa using List.find?_eq_none.mp found⟩
  | some entry =>
      refine ⟨List.mem_map_of_mem (List.mem_of_find?_eq_some found), fun claimed => ?_⟩
      have unclaimed := List.find?_some found
      rw [Option.map_some, Option.getD_some] at claimed
      simp [claimed] at unclaimed

variable (bounds clock) in
theorem evictOver_shrunk (moment : ℚ) (passes : Nat) (s : Store) :
    ∃ ds, Shrunk bounds moment s (s.evictOver bounds clock moment passes) ds := by
  induction passes generalizing s with
  | zero => exact ⟨[], Shrunk.refl s⟩
  | succ passes ih =>
      unfold evictOver
      split
      · exact ⟨[], Shrunk.refl s⟩
      · rename_i oldest record rest listed
        obtain ⟨known, spares⟩ := victim_spares bounds s oldest moment
          (by rw [listed]; exact List.mem_cons_self)
        dsimp only
        split
        · rename_i aged
          obtain ⟨ds, shrunk⟩ := ih (s.forgetExpired bounds clock (s.victim bounds oldest moment) moment)
          exact ⟨_, (forgetExpired_shrunk known aged).trans shrunk⟩
        · rename_i young
          obtain ⟨ds, shrunk⟩ := ih (s.forgetEvicted bounds clock (s.victim bounds oldest moment) moment)
          exact ⟨_, (forgetEvicted_shrunk known (by simpa using young) spares).trans shrunk⟩

theorem erase_length_lt {K V : Type} [DecidableEq K] {d : Dict K V} {k : K} (known : k ∈ Dict.keys d) :
    (Dict.erase d k).length < d.length := by
  obtain ⟨entry, inside, rfl⟩ := List.mem_map.mp known
  exact List.length_filter_lt_length_iff_exists.mpr ⟨entry, inside, by simp⟩

theorem evictOver_length (moment : ℚ) (passes : Nat) (s : Store) :
    (s.evictOver bounds clock moment passes).records.length ≤ s.records.length - passes := by
  induction passes generalizing s with
  | zero => exact le_rfl
  | succ passes ih =>
      unfold evictOver
      split
      · rename_i listed
        simp [listed]
      · rename_i oldest record rest listed
        have known := (victim_spares bounds s oldest moment
          (by rw [listed]; exact List.mem_cons_self)).1
        have shorter := erase_length_lt known
        dsimp only
        split
        · refine (ih _).trans ?_
          change (Dict.erase s.records _).length - passes ≤ _
          omega
        · refine (ih _).trans ?_
          change (Dict.erase s.records _).length - passes ≤ _
          omega

variable (bounds clock) in
theorem evict_shrunk (s : Store) : ∃ ds,
    Shrunk bounds (clock s.readings) { s with readings := s.readings + 1 } (s.evict bounds clock) ds := by
  obtain ⟨ds, reaped⟩ := reap_shrunk bounds clock (clock s.readings) s.records.length
    { s with readings := s.readings + 1 }
  obtain ⟨ds', evicted⟩ := evictOver_shrunk bounds clock (clock s.readings) _ _
  exact ⟨ds ++ ds', reaped.trans evicted⟩

theorem evict_length (s : Store) : (s.evict bounds clock).records.length ≤ bounds.capacity := by
  refine (evictOver_length _ _ _).trans ?_
  omega

theorem dropped_mem {s : Store} {oldest : (Str × Str) × (ℚ × Str)} (held : oldest ∈ s.reservations) :
    s.dropped oldest ∈ s.reservations := by
  unfold dropped
  cases found : s.reservations.find? fun held => !Dict.contains s.records held.1.1 with
  | none => exact held
  | some orphan => exact List.mem_of_find?_eq_some found

theorem trim_length (passes : Nat) (s : Store) :
    (s.trim passes).reservations.length ≤ s.reservations.length - passes := by
  induction passes generalizing s with
  | zero => exact le_rfl
  | succ passes ih =>
      unfold trim
      split
      · rename_i listed
        simp [listed]
      · rename_i oldest rest listed
        have held : oldest ∈ s.reservations := by
          rw [listed]
          exact List.mem_cons_self
        have shorter := erase_length_lt (List.mem_map_of_mem (f := Prod.fst) (dropped_mem held))
        refine (ih _).trans ?_
        change (Dict.erase s.reservations _).length - passes ≤ _
        omega

variable (bounds clock) in
theorem grant_length (s : Store) (pair : Str × Str) (token : Str) :
    (s.grant bounds clock pair token).reservations.length ≤ bounds.capacity * reservationNamesPerAuction := by
  refine (trim_length _ _).trans ?_
  omega

theorem trim_eq (passes : Nat) (s : Store) : ∃ kept : Dict (Str × Str) (ℚ × Str),
    s.trim passes = { s with reservations := kept } ∧ kept.Sublist s.reservations := by
  induction passes generalizing s with
  | zero => exact ⟨s.reservations, rfl, List.Sublist.refl _⟩
  | succ passes ih =>
      unfold trim
      split
      · exact ⟨s.reservations, rfl, List.Sublist.refl _⟩
      · rename_i oldest rest listed
        obtain ⟨kept, made, within⟩ := ih { s with
          reservations := Dict.erase s.reservations (s.dropped oldest).1 }
        exact ⟨kept, made, within.trans List.filter_sublist⟩

/-! ## One call -/

def free (s : Store) (bounds : Bounds) (clock : Nat → ℚ) (pair : Str × Str) : Option Store :=
  match Dict.get? s.reservations pair with
  | some held =>
      if clock s.readings - held.1 < bounds.ttlSeconds then none
      else some { s with
        reservations := Dict.erase s.reservations pair
        readings := s.readings + 1 }
  | none => some s

def placed (s : Store) (clock : Nat → ℚ) (pair : Str × Str) (token : Str) : Store :=
  { s with
    reservations := Dict.set s.reservations pair (clock s.readings, token)
    readings := s.readings + 1 }

theorem reserve_eq (s : Store) (auctionId name token : Str) : s.reserve bounds clock auctionId name token =
    match s.free bounds clock (auctionId, name) with
    | some f => (f.grant bounds clock (auctionId, name) token, none)
    | none => ({ s with readings := s.readings + 1 }, (Dict.get? s.reservations (auctionId, name)).map Prod.snd) := by
  unfold reserve free
  cases Dict.get? s.reservations (auctionId, name) with
  | none => rfl
  | some held =>
      dsimp only
      split <;> simp_all

theorem free_eq_some {s f : Store} {pair : Str × Str} (freed : s.free bounds clock pair = some f) :
    f.reservations = Dict.erase s.reservations pair ∧ f.records = s.records ∧ f.writtenAt = s.writtenAt ∧
      f.departed = s.departed ∧ f.expired = s.expired ∧ f.evicted = s.evicted ∧ s.readings ≤ f.readings ∧
      ∀ held, Dict.get? s.reservations pair = some held →
        bounds.ttlSeconds ≤ clock s.readings - held.1 := by
  unfold free at freed
  split at freed
  · rename_i held found
    split at freed
    · cases freed
    · rename_i lapsed
      cases freed
      refine ⟨rfl, rfl, rfl, rfl, rfl, rfl, Nat.le_succ _, fun other same => ?_⟩
      obtain rfl := Option.some.inj (found.symm.trans same)
      exact not_lt.mp lapsed
  · rename_i absent
    cases freed
    refine ⟨?_, rfl, rfl, rfl, rfl, rfl, le_rfl, fun held found => ?_⟩
    · have missing := (Dict.get?_eq_none_iff _ _).mp absent
      rw [Dict.erase, List.filter_eq_self.mpr]
      intro entry inside
      exact decide_eq_true fun same => missing (same ▸ List.mem_map_of_mem inside)
    · rw [absent] at found
      cases found

theorem grant_eq (s : Store) (pair : Str × Str) (token : Str) : s.grant bounds clock pair token =
    (s.placed clock pair token).trim ((s.placed clock pair token).reservations.length -
      bounds.capacity * reservationNamesPerAuction) := rfl

/-- Everything but the reservations, as a call leaves it before it forgets anything. -/
structure Entered (clock : Nat → ℚ) (access : Access) (s base : Store) : Prop where
  records : base.records = match access with
    | .save record => Dict.set (Dict.erase s.records record.auctionId) record.auctionId record
    | _ => s.records
  writtenAt : base.writtenAt = match access with
    | .save record => Dict.set s.writtenAt record.auctionId (clock s.readings)
    | _ => s.writtenAt
  departed : base.departed = []
  expired : base.expired = s.expired
  evicted : base.evicted = s.evicted
  readings : s.readings ≤ base.readings

variable (bounds clock) in
theorem perform_entered (s : Store) (access : Access) : ∃ moment base ds,
    Shrunk bounds moment base (s.perform bounds clock access).1 ds ∧ Entered clock access s base ∧
      match access with
      | .load _ | .save _ => base.reservations = s.reservations
      | _ => ds = [] := by
  cases access with
  | load auctionId =>
      simp only [perform, load]
      split
      · exact ⟨0, _, [], Shrunk.refl _, ⟨rfl, rfl, rfl, rfl, rfl, le_rfl⟩, rfl⟩
      · rename_i record found
        split
        · rename_i aged
          have known : auctionId ∈ Dict.keys s.records := by
            by_contra absent
            exact Option.some_ne_none record (found.symm.trans ((Dict.get?_eq_none_iff _ _).mpr absent))
          exact ⟨_, _, _, forgetExpired_shrunk known aged, ⟨rfl, rfl, rfl, rfl, rfl, Nat.le_succ _⟩, rfl⟩
        · exact ⟨0, _, [], Shrunk.refl _, ⟨rfl, rfl, rfl, rfl, rfl, Nat.le_succ _⟩, rfl⟩
  | save record =>
      obtain ⟨ds, shrunk⟩ := evict_shrunk bounds clock { s with
        records := Dict.set (Dict.erase s.records record.auctionId) record.auctionId record
        writtenAt := Dict.set s.writtenAt record.auctionId (clock s.readings)
        gone := Dict.erase s.gone record.auctionId
        readings := s.readings + 1
        departed := [] }
      exact ⟨_, _, ds, shrunk, ⟨rfl, rfl, rfl, rfl, rfl, Nat.le_add_right _ 2⟩, rfl⟩
  | reserve auctionId name token =>
      simp only [perform, reserve_eq]
      split
      · rename_i f freed
        obtain ⟨-, records, written, departed, expired, evicted, readings, -⟩ := free_eq_some freed
        obtain ⟨kept, made, -⟩ := trim_eq ((f.placed clock (auctionId, name) token).reservations.length -
          bounds.capacity * reservationNamesPerAuction) (f.placed clock (auctionId, name) token)
        rw [grant_eq, made]
        exact ⟨0, _, [], Shrunk.refl _, ⟨records, written, departed, expired, evicted, readings.trans (Nat.le_succ _)⟩, rfl⟩
      · exact ⟨0, _, [], Shrunk.refl _, ⟨rfl, rfl, rfl, rfl, rfl, Nat.le_succ _⟩, rfl⟩
  | release auctionId name token =>
      simp only [perform, release]
      split
      · split
        · exact ⟨0, _, [], Shrunk.refl _, ⟨rfl, rfl, rfl, rfl, rfl, le_rfl⟩, rfl⟩
        · exact ⟨0, _, [], Shrunk.refl _, ⟨rfl, rfl, rfl, rfl, rfl, le_rfl⟩, rfl⟩
      · exact ⟨0, _, [], Shrunk.refl _, ⟨rfl, rfl, rfl, rfl, rfl, le_rfl⟩, rfl⟩

theorem perform_readings (s : Store) (access : Access) :
    s.readings ≤ (s.perform bounds clock access).1.readings := by
  obtain ⟨moment, base, ds, shrunk, entered, -⟩ := perform_entered bounds clock s access
  exact entered.readings.trans shrunk.readings

/-- The tables are within their bounds, and no pair is reserved twice. -/
structure Sound (bounds : Bounds) (s : Store) : Prop where
  distinct : (Dict.keys s.reservations).Nodup
  named : ∀ held ∈ s.reservations, held.1.2 ∈ reservationNames
  records_bounded : s.records.length ≤ bounds.capacity
  reservations_bounded : s.reservations.length ≤ bounds.capacity * reservationNamesPerAuction

theorem Sound.empty (bounds : Bounds) : Sound bounds .empty where
  distinct := List.nodup_nil
  named := nofun
  records_bounded := Nat.zero_le _
  reservations_bounded := Nat.zero_le _

theorem Sound.sublist {s s' : Store} (sound : Sound bounds s) (records : s'.records.length ≤ bounds.capacity)
    (reservations : s'.reservations.Sublist s.reservations) : Sound bounds s' where
  distinct := sound.distinct.sublist (reservations.map Prod.fst)
  named := fun held inside => sound.named held (reservations.subset inside)
  records_bounded := records
  reservations_bounded := reservations.length_le.trans sound.reservations_bounded

theorem orphan_exists {s : Store} (distinct : (Dict.keys s.reservations).Nodup)
    (named : ∀ held ∈ s.reservations, held.1.2 ∈ reservationNames)
    (records : s.records.length ≤ bounds.capacity)
    (crowded : bounds.capacity * reservationNamesPerAuction < s.reservations.length) :
    ∃ orphan, s.reservations.find? (fun held => !Dict.contains s.records held.1.1) = some orphan := by
  by_contra unfound
  have covered : s.reservations.find? (fun held => !Dict.contains s.records held.1.1) = none :=
    Option.eq_none_iff_forall_ne_some.mpr fun orphan found => unfound ⟨orphan, found⟩
  have within : Dict.keys s.reservations ⊆ Dict.keys s.records ×ˢ reservationNames := by
    intro pair inside
    obtain ⟨held, member, rfl⟩ := List.mem_map.mp inside
    have known := List.find?_eq_none.mp covered held member
    exact List.mem_product.mpr ⟨(Dict.contains_iff _ _).mp (by simpa using known), named held member⟩
  have few := (List.subperm_of_subset distinct within).length_le
  rw [List.length_product, Dict.keys, Dict.keys, List.length_map, List.length_map] at few
  have most : s.records.length * reservationNames.length ≤ bounds.capacity * reservationNamesPerAuction :=
    Nat.mul_le_mul_right _ records
  omega

section Grant

variable {f : Store} {pair : Str × Str} {token : Str}

theorem placed_reservations (vacant : pair ∉ Dict.keys f.reservations) :
    (f.placed clock pair token).reservations = f.reservations ++ [(pair, clock f.readings, token)] :=
  Dict.set_of_not_mem vacant _

variable (clock token) in
theorem grant_cases (sound : Sound bounds f) (vacant : pair ∉ Dict.keys f.reservations)
    (named : pair.2 ∈ reservationNames) :
    f.reservations.length < bounds.capacity * reservationNamesPerAuction ∧
        f.grant bounds clock pair token = f.placed clock pair token ∨
      bounds.capacity * reservationNamesPerAuction ≤ f.reservations.length ∧ ∃ orphan,
        (f.reservations ++ [(pair, clock f.readings, token)]).find?
            (fun held => !Dict.contains f.records held.1.1) = some orphan ∧
          f.grant bounds clock pair token = { f.placed clock pair token with
            reservations := Dict.erase (f.reservations ++ [(pair, clock f.readings, token)]) orphan.1 } := by
  have listed : (f.placed clock pair token).reservations = _ := placed_reservations vacant
  have bounded := sound.reservations_bounded
  have length : (f.placed clock pair token).reservations.length = f.reservations.length + 1 := by
    rw [listed, List.length_append]
    rfl
  rw [grant_eq, length]
  rcases Nat.lt_or_ge f.reservations.length (bounds.capacity * reservationNamesPerAuction) with roomy | full
  · refine Or.inl ⟨roomy, ?_⟩
    rw [Nat.sub_eq_zero_of_le roomy]
    rfl
  · refine Or.inr ⟨full, ?_⟩
    have distinct : (Dict.keys (f.placed clock pair token).reservations).Nodup :=
      Dict.nodup_keys_set sound.distinct _ _
    obtain ⟨orphan, found⟩ := orphan_exists distinct (by
        intro held inside
        rw [listed] at inside
        rcases List.mem_append.mp inside with old | new
        · exact sound.named held old
        · rw [List.mem_singleton.mp new]
          exact named) sound.records_bounded (by omega)
    have once : f.reservations.length + 1 - bounds.capacity * reservationNamesPerAuction = 1 := by omega
    refine ⟨orphan, listed ▸ found, ?_⟩
    rw [once, trim]
    split
    · rename_i none
      rw [none] at length
      cases length
    · rename_i oldest rest _
      rw [dropped, found, trim, listed]
      rfl

end Grant

/-! ### What becomes of a reservation -/

/-- A reservation is added only where the backstop drops none that is live. -/
def Roomy (s : Store) (bounds : Bounds) (clock : Nat → ℚ) : Access → Prop
  | .reserve auctionId name token => ∀ f, s.free bounds clock (auctionId, name) = some f →
      bounds.capacity * reservationNamesPerAuction ≤ f.reservations.length → ∀ orphan,
      (f.reservations ++ [((auctionId, name), clock f.readings, token)]).find?
        (fun held => !Dict.contains f.records held.1.1) = some orphan →
      bounds.ttlSeconds ≤ clock f.readings - orphan.2.1
  | _ => True

theorem roomy_of_few {s : Store} (few : s.reservations.length < bounds.capacity * reservationNamesPerAuction)
    (access : Access) : s.Roomy bounds clock access := by
  cases access with
  | reserve auctionId name token =>
      intro f freed full
      rw [(free_eq_some freed).1] at full
      have within : (Dict.erase s.reservations (auctionId, name)).length ≤ s.reservations.length :=
        List.length_filter_le _ _
      omega
  | _ => trivial

theorem started_free (s : Store) (pair : Str × Str) :
    s.started.free bounds clock pair = (s.free bounds clock pair).map started := by
  unfold free started
  dsimp only
  split
  · split <;> rfl
  · rfl

theorem perform_reserve (s : Store) (auctionId name token : Str) :
    s.perform bounds clock (.reserve auctionId name token) =
      match s.free bounds clock (auctionId, name) with
      | some f => (f.started.grant bounds clock (auctionId, name) token, .holder none)
      | none => ({ s.started with readings := s.readings + 1 },
          .holder ((Dict.get? s.reservations (auctionId, name)).map Prod.snd)) := by
  simp only [perform, reserve_eq, started_free]
  cases s.free bounds clock (auctionId, name) <;> rfl

theorem get?_erase {K V : Type} [DecidableEq K] (d : Dict K V) (k k' : K) :
    Dict.get? (Dict.erase d k) k' = if k' = k then none else Dict.get? d k' := by
  rw [Dict.erase, Dict.get?_filter (fun key => decide (key ≠ k))]
  by_cases same : k' = k <;> simp [same]

theorem erase_vacant {K V : Type} [DecidableEq K] (d : Dict K V) (k : K) : k ∉ Dict.keys (Dict.erase d k) := by
  rw [← Dict.get?_eq_none_iff, get?_erase, if_pos rfl]

theorem free_sound {s f : Store} {pair : Str × Str} (sound : Sound bounds s)
    (freed : s.free bounds clock pair = some f) :
    Sound bounds f.started ∧ pair ∉ Dict.keys f.started.reservations := by
  obtain ⟨reservations, records, -⟩ := free_eq_some freed
  have within : f.started.reservations.Sublist s.reservations := by
    rw [started, reservations]
    exact List.filter_sublist
  refine ⟨sound.sublist ?_ within, ?_⟩
  · rw [started, records]
    exact sound.records_bounded
  · rw [started, reservations]
    exact erase_vacant _ _

theorem grant_sound {f : Store} {pair : Str × Str} {token : Str} (sound : Sound bounds f)
    (named : pair.2 ∈ reservationNames) : Sound bounds (f.grant bounds clock pair token) := by
  have bounded := grant_length bounds clock f pair token
  obtain ⟨kept, made, within⟩ := trim_eq ((f.placed clock pair token).reservations.length -
    bounds.capacity * reservationNamesPerAuction) (f.placed clock pair token)
  rw [grant_eq, made] at bounded ⊢
  refine ⟨(Dict.nodup_keys_set sound.distinct _ _).sublist (within.map Prod.fst), ?_,
    sound.records_bounded, bounded⟩
  intro held inside
  rcases Dict.mem_set (within.subset inside) with old | new
  · exact sound.named held old
  · rw [new]
    exact named

end Store

def Access.Named : Access → Prop
  | .reserve _ name _ => name ∈ reservationNames
  | _ => True

namespace Store

theorem perform_sound {s : Store} {access : Access} (sound : Sound bounds s) (named : access.Named) :
    Sound bounds (s.perform bounds clock access).1 := by
  cases access with
  | load auctionId =>
      obtain ⟨moment, base, ds, shrunk, entered, same⟩ :=
        perform_entered bounds clock s (.load auctionId)
      apply sound.sublist
      · rw [shrunk.records, entered.records]
        exact (List.length_filter_le _ _).trans sound.records_bounded
      · rw [shrunk.reservations, same]
        exact List.filter_sublist
  | save record =>
      obtain ⟨moment, base, ds, shrunk, entered, same⟩ :=
        perform_entered bounds clock s (.save record)
      apply sound.sublist
      · exact evict_length _
      · rw [shrunk.reservations, same]
        exact List.filter_sublist
  | reserve auctionId name token =>
      rw [perform_reserve]
      split
      · rename_i f freed
        exact grant_sound (free_sound sound freed).1 named
      · exact sound.sublist sound.records_bounded (List.Sublist.refl _)
  | release auctionId name token =>
      simp only [perform, release]
      split
      · split
        · exact sound.sublist sound.records_bounded List.filter_sublist
        · exact sound.sublist sound.records_bounded (List.Sublist.refl _)
      · exact sound.sublist sound.records_bounded (List.Sublist.refl _)

theorem perform_origin {s : Store} {access : Access} (sound : Sound bounds s) {pair : Str × Str}
    {held : ℚ × Str} (found : Dict.get? (s.perform bounds clock access).1.reservations pair = some held) :
    (Dict.get? s.reservations pair = some held ∧
        (∀ d ∈ (s.perform bounds clock access).1.departed, d.key ≠ pair.1) ∧
        access ≠ .release pair.1 pair.2 held.2) ∨
      access = .reserve pair.1 pair.2 held.2 ∧ (s.perform bounds clock access).2 = .holder none ∧
        held.1 = clock ((s.perform bounds clock access).1.readings - 1) := by
  have forgotten (access : Access) (kind : (∃ auctionId, access = .load auctionId) ∨ ∃ record, access = .save record)
      (found : Dict.get? (s.perform bounds clock access).1.reservations pair = some held) :
      Dict.get? s.reservations pair = some held ∧
        ∀ d ∈ (s.perform bounds clock access).1.departed, d.key ≠ pair.1 := by
    obtain ⟨moment, base, ds, shrunk, entered, same⟩ :=
      perform_entered bounds clock s access
    have same : base.reservations = s.reservations := by
      rcases kind with ⟨_, rfl⟩ | ⟨_, rfl⟩
      · exact same
      · exact same
    rw [shrunk.reservations, same, get?_keepPairs] at found
    rw [shrunk.departed, entered.departed]
    split at found
    · cases found
    · rename_i kept
      exact ⟨found, fun d member here => kept (here ▸ List.mem_map_of_mem member)⟩
  cases access with
  | load auctionId =>
      obtain ⟨old, kept⟩ := forgotten _ (.inl ⟨_, rfl⟩) found
      exact Or.inl ⟨old, kept, by rintro ⟨⟩⟩
  | save record =>
      obtain ⟨old, kept⟩ := forgotten _ (.inr ⟨_, rfl⟩) found
      exact Or.inl ⟨old, kept, by rintro ⟨⟩⟩
  | reserve auctionId name token =>
      rw [perform_reserve] at found ⊢
      split at found
      · rename_i f freed
        obtain ⟨clean, vacant⟩ := free_sound sound freed
        obtain ⟨reservations, -⟩ := free_eq_some freed
        obtain ⟨kept, made, within⟩ := trim_eq ((f.started.placed clock (auctionId, name) token).reservations.length -
          bounds.capacity * reservationNamesPerAuction) (f.started.placed clock (auctionId, name) token)
        dsimp only
        rw [grant_eq, made] at found ⊢
        have placed := Dict.get?_of_mem (Dict.nodup_keys_set clean.distinct _ _)
          (within.subset (Dict.mem_of_get? found))
        rw [Dict.get?_set] at placed
        split at placed
        · rename_i here
          subst here
          obtain rfl := Option.some.inj placed
          exact Or.inr ⟨rfl, rfl, rfl⟩
        · refine Or.inl ⟨?_, List.forall_mem_nil _, by rintro ⟨⟩⟩
          rw [started, reservations, get?_erase] at placed
          split at placed
          · cases placed
          · exact placed
      · exact Or.inl ⟨found, List.forall_mem_nil _, by rintro ⟨⟩⟩
  | release auctionId name token =>
      left
      simp only [perform, release] at found ⊢
      split at found
      · rename_i holder there
        split at found
        · rename_i owns
          rw [get?_erase] at found
          split at found
          · cases found
          · rename_i other
            rw [if_pos owns]
            exact ⟨found, List.forall_mem_nil _, fun same => other (by cases same; rfl)⟩
        · rename_i foreign
          rw [if_neg foreign]
          refine ⟨found, List.forall_mem_nil _, fun same => ?_⟩
          cases same
          exact foreign (congrArg Prod.snd (Option.some.inj (there.symm.trans found)))
      · rename_i absent
        refine ⟨found, List.forall_mem_nil _, fun same => ?_⟩
        cases same
        exact Option.some_ne_none held (found.symm.trans absent)

section Kept

variable {f : Store} {pair : Str × Str} {token : Str}

variable (clock token) in
theorem placed_distinct (sound : Sound bounds f) (vacant : pair ∉ Dict.keys f.reservations) :
    (Dict.keys (f.reservations ++ [(pair, clock f.readings, token)])).Nodup := by
  rw [← placed_reservations vacant]
  exact Dict.nodup_keys_set sound.distinct _ _

theorem grant_keeps (sound : Sound bounds f) (vacant : pair ∉ Dict.keys f.reservations)
    (named : pair.2 ∈ reservationNames)
    (roomy : bounds.capacity * reservationNamesPerAuction ≤ f.reservations.length → ∀ orphan,
      (f.reservations ++ [(pair, clock f.readings, token)]).find?
        (fun held => !Dict.contains f.records held.1.1) = some orphan →
      bounds.ttlSeconds ≤ clock f.readings - orphan.2.1)
    {other : Str × Str} {held : ℚ × Str}
    (found : Dict.get? (f.reservations ++ [(pair, clock f.readings, token)]) other = some held)
    (live : clock f.readings - held.1 < bounds.ttlSeconds) :
    Dict.get? (f.grant bounds clock pair token).reservations other = some held := by
  rcases grant_cases clock token sound vacant named with
    ⟨-, made⟩ | ⟨full, orphan, first, made⟩
  · rw [made, placed_reservations vacant]
    exact found
  · have spared : other ≠ orphan.1 := by
      rintro rfl
      have same := Dict.get?_of_mem (placed_distinct clock token sound vacant)
        (List.mem_of_find?_eq_some first)
      obtain rfl := Option.some.inj (found.symm.trans same)
      exact not_lt.mpr (roomy full orphan first) live
    rw [made, get?_erase, if_neg spared]
    exact found

end Kept

theorem perform_keeps {s : Store} {access : Access} (ordered : Monotone clock) (sound : Sound bounds s)
    (named : access.Named) (roomy : s.Roomy bounds clock access) {pair : Str × Str} {held : ℚ × Str}
    (found : Dict.get? s.reservations pair = some held)
    (kept : ∀ d ∈ (s.perform bounds clock access).1.departed, d.key ≠ pair.1)
    (unreleased : access ≠ .release pair.1 pair.2 held.2)
    (live : clock ((s.perform bounds clock access).1.readings - 1) - held.1 < bounds.ttlSeconds) :
    Dict.get? (s.perform bounds clock access).1.reservations pair = some held := by
  have remembered (access : Access) (kind : match access with
        | .load _ | .save _ => True
        | _ => False)
      (kept : ∀ d ∈ (s.perform bounds clock access).1.departed, d.key ≠ pair.1) :
      Dict.get? (s.perform bounds clock access).1.reservations pair = some held := by
    obtain ⟨moment, base, ds, shrunk, entered, same⟩ :=
      perform_entered bounds clock s access
    have same : base.reservations = s.reservations := by
      cases access <;> first | exact same | cases kind
    rw [shrunk.departed, entered.departed, List.nil_append] at kept
    rw [shrunk.reservations, same, get?_keepPairs, if_neg]
    · exact found
    · intro inside
      obtain ⟨d, member, here⟩ := List.mem_map.mp inside
      exact kept d member here
  cases access with
  | load auctionId => exact remembered _ trivial kept
  | save record => exact remembered _ trivial kept
  | reserve auctionId name token =>
      rw [perform_reserve] at live ⊢
      cases freed : s.free bounds clock (auctionId, name) with
      | none => exact found
      | some f =>
          rw [freed] at live
          obtain ⟨clean, vacant⟩ := free_sound sound freed
          obtain ⟨reservations, _, _, _, _, _, readings, lapsed⟩ := free_eq_some freed
          obtain ⟨_, made, -⟩ := trim_eq ((f.started.placed clock (auctionId, name) token).reservations.length -
            bounds.capacity * reservationNamesPerAuction) (f.started.placed clock (auctionId, name) token)
          dsimp only at live ⊢
          have live : clock f.readings - held.1 < bounds.ttlSeconds := by
            rw [grant_eq, made] at live
            exact live
          apply grant_keeps clean vacant named (roomy f freed) _ live
          have apart : pair ≠ (auctionId, name) := by
            rintro rfl
            have past := lapsed held found
            have later := ordered readings
            linarith
          rw [Dict.get?_append, started, reservations, get?_erase, if_neg apart, found]
          rfl
  | release auctionId name token =>
      simp only [perform, release]
      split
      · rename_i holder there
        split
        · rename_i owns
          rw [get?_erase, if_neg]
          · exact found
          · rintro rfl
            obtain rfl := Option.some.inj (there.symm.trans found)
            exact unreleased (by rw [owns])
        · exact found
      · exact found

theorem perform_won {s : Store} {auctionId name token : Str}
    (won : (s.perform bounds clock (.reserve auctionId name token)).2 = .holder none) :
    ∃ f, s.free bounds clock (auctionId, name) = some f ∧
      (s.perform bounds clock (.reserve auctionId name token)).1 =
        f.started.grant bounds clock (auctionId, name) token ∧
      (s.perform bounds clock (.reserve auctionId name token)).1.readings = f.readings + 1 ∧
      (s.perform bounds clock (.reserve auctionId name token)).1.departed = [] := by
  rw [perform_reserve] at won ⊢
  cases freed : s.free bounds clock (auctionId, name) with
  | none =>
      rw [freed] at won
      unfold free at freed
      split at freed
      · rename_i held found
        rw [found] at won
        cases won
      · cases freed
  | some f =>
      obtain ⟨_, made, -⟩ := trim_eq ((f.started.placed clock (auctionId, name) token).reservations.length -
        bounds.capacity * reservationNamesPerAuction) (f.started.placed clock (auctionId, name) token)
      refine ⟨f, rfl, rfl, ?_, ?_⟩
      · dsimp only
        rw [grant_eq, made]
        rfl
      · dsimp only
        rw [grant_eq, made]
        rfl

theorem perform_granted {s : Store} {auctionId name token : Str} (sound : Sound bounds s)
    (named : name ∈ reservationNames) (roomy : s.Roomy bounds clock (.reserve auctionId name token))
    (alive : 0 < bounds.ttlSeconds)
    (won : (s.perform bounds clock (.reserve auctionId name token)).2 = .holder none) :
    Dict.get? (s.perform bounds clock (.reserve auctionId name token)).1.reservations (auctionId, name) =
      some (clock ((s.perform bounds clock (.reserve auctionId name token)).1.readings - 1), token) := by
  obtain ⟨f, freed, made, read, -⟩ := perform_won won
  obtain ⟨clean, vacant⟩ := free_sound sound freed
  rw [read, made, Nat.add_sub_cancel]
  apply grant_keeps clean vacant named (roomy f freed)
  · rw [Dict.get?_append, (Dict.get?_eq_none_iff _ _).mpr vacant]
    exact Dict.get?_cons_self _ _ _
  · change clock f.readings - clock f.readings < _
    rw [sub_self]
    exact alive

theorem perform_drops {s : Store} {access : Access} (sound : Sound bounds s) (named : access.Named)
    (crowded : ¬ s.Roomy bounds clock access) : ∃ auctionId name token, access = .reserve auctionId name token ∧
      (s.perform bounds clock access).2 = .holder none ∧ (s.perform bounds clock access).1.departed = [] ∧
      ∃ pair held, clock ((s.perform bounds clock access).1.readings - 1) - held.1 < bounds.ttlSeconds ∧
        Dict.get? (s.perform bounds clock access).1.reservations pair = none ∧
        (Dict.get? s.reservations pair = some held ∨ pair = (auctionId, name) ∧
          held = (clock ((s.perform bounds clock access).1.readings - 1), token)) := by
  cases access with
  | reserve auctionId name token =>
      simp only [Roomy, not_forall, not_le] at crowded
      obtain ⟨f, freed, full, orphan, first, live⟩ := crowded
      have won : (s.perform bounds clock (.reserve auctionId name token)).2 = .holder none := by
        rw [perform_reserve, freed]
      obtain ⟨f', freed', made, read, silent⟩ := perform_won won
      obtain rfl := Option.some.inj (freed.symm.trans freed')
      obtain ⟨clean, vacant⟩ := free_sound sound freed
      obtain ⟨reservations, -⟩ := free_eq_some freed
      refine ⟨auctionId, name, token, rfl, won, silent, orphan.1, orphan.2, ?_, ?_, ?_⟩
      · rw [read, Nat.add_sub_cancel]
        exact live
      · rcases grant_cases clock token clean vacant named with
          ⟨room, -⟩ | ⟨-, orphan', first', granted⟩
        · exact absurd room (not_lt.mpr full)
        · obtain rfl := Option.some.inj (first.symm.trans first')
          rw [made, granted, get?_erase, if_pos rfl]
      · rw [read, Nat.add_sub_cancel]
        rcases List.mem_append.mp (List.mem_of_find?_eq_some first) with old | new
        · left
          have there := Dict.get?_of_mem clean.distinct old
          rw [started, reservations, get?_erase] at there
          split at there
          · cases there
          · exact there
        · right
          rw [List.mem_singleton.mp new]
          exact ⟨rfl, rfl⟩
  | _ => exact absurd trivial crowded

/-! ### What becomes of a record -/

theorem perform_load_aged {s : Store} {auctionId : Str}
    (aged : ∀ record, Dict.get? s.records auctionId = some record →
      bounds.ttlSeconds ≤ clock s.readings - (Dict.get? s.writtenAt auctionId).getD 0) :
    (s.perform bounds clock (.load auctionId)).2 = .record none := by
  change Reply.record (s.started.load bounds clock auctionId).2 = .record none
  unfold load
  split
  · rfl
  · rename_i record found
    dsimp only
    split
    · rfl
    · rename_i young
      exact absurd (decide_eq_true (aged record found)) young

theorem perform_unsaved {s : Store} {access : Access} {key : Str} {record : AuctionRecord}
    (unsaved : ∀ other : AuctionRecord, other.auctionId = key → access ≠ .save other)
    (found : Dict.get? (s.perform bounds clock access).1.records key = some record) :
    Dict.get? s.records key = some record ∧
      Dict.get? (s.perform bounds clock access).1.writtenAt key = Dict.get? s.writtenAt key := by
  obtain ⟨moment, base, ds, shrunk, entered, -⟩ := perform_entered bounds clock s access
  rw [shrunk.records, get?_keep] at found
  split at found
  · cases found
  · rename_i kept
    rw [shrunk.writtenAt, get?_keep, if_neg kept]
    rw [entered.records] at found
    rw [entered.writtenAt]
    cases access with
    | save other =>
        have apart : key ≠ other.auctionId := fun same => unsaved other same.symm rfl
        dsimp only at found ⊢
        rw [Dict.get?_set_ne _ _ apart, get?_erase, if_neg apart] at found
        exact ⟨found, Dict.get?_set_ne _ _ apart⟩
    | _ => exact ⟨found, rfl⟩

theorem perform_saved {s : Store} {record record' : AuctionRecord}
    (found : Dict.get? (s.perform bounds clock (.save record)).1.records record.auctionId = some record') :
    Dict.get? (s.perform bounds clock (.save record)).1.writtenAt record.auctionId = some (clock s.readings) := by
  obtain ⟨moment, base, ds, shrunk, entered, -⟩ :=
    perform_entered bounds clock s (.save record)
  rw [shrunk.records, get?_keep] at found
  split at found
  · cases found
  · rename_i kept
    rw [shrunk.writtenAt, get?_keep, if_neg kept, entered.writtenAt]
    exact Dict.get?_set_self _ _ _

theorem perform_departed {s : Store} {access : Access} {d : Departure}
    (gone : d ∈ (s.perform bounds clock access).1.departed) :
    (d.reason = .expired ↔ bounds.ttlSeconds ≤ d.moment - d.written) ∧
      ((∃ record, access = .save record ∧ record.auctionId = d.key ∧ d.written = clock s.readings) ∨
        (∀ record, access = .save record → record.auctionId ≠ d.key) ∧ d.key ∈ Dict.keys s.records ∧
          d.written = (Dict.get? s.writtenAt d.key).getD 0) := by
  obtain ⟨moment, base, ds, shrunk, entered, -⟩ := perform_entered bounds clock s access
  rw [shrunk.departed, entered.departed, List.nil_append] at gone
  obtain ⟨rfl, written, classified⟩ := shrunk.written d gone
  have known := shrunk.known d gone
  refine ⟨classified, ?_⟩
  rw [entered.records] at known
  rw [entered.writtenAt] at written
  cases access with
  | save record =>
      dsimp only at known written
      by_cases here : record.auctionId = d.key
      · left
        refine ⟨record, rfl, here, ?_⟩
        rw [here, Dict.get?_set_self, Option.getD_some] at written
        exact written
      · right
        rw [Dict.get?_set_ne _ _ (Ne.symm here)] at written
        refine ⟨fun other same => by cases same; exact here, ?_, written⟩
        by_contra absent
        rw [← Dict.get?_eq_none_iff] at absent
        rw [← Dict.contains_iff, Dict.contains, Dict.get?_set_ne _ _ (Ne.symm here), get?_erase,
          if_neg (Ne.symm here), absent] at known
        cases known
  | _ =>
      refine Or.inr ⟨?_, known, written⟩
      intro record same
      cases same

theorem perform_spares {s : Store} {access : Access} {d : Departure}
    (gone : d ∈ (s.perform bounds clock access).1.departed) (evicted : d.reason = .evicted)
    (claimed : s.claimed bounds d.key d.moment = true) :
    ∀ entry ∈ (s.perform bounds clock access).1.records,
      (s.perform bounds clock access).1.claimed bounds entry.1 d.moment = true := by
  obtain ⟨moment, base, ds, shrunk, entered, same⟩ := perform_entered bounds clock s access
  rw [shrunk.departed, entered.departed, List.nil_append] at gone
  obtain ⟨rfl, -⟩ := shrunk.written d gone
  have same : base.reservations = s.reservations := by
    cases access with
    | load _ => exact same
    | save _ => exact same
    | reserve _ _ _ => rw [same] at gone; cases gone
    | release _ _ _ => rw [same] at gone; cases gone
  have claimed : base.claimed bounds d.key d.moment = true := by
    unfold Store.claimed at claimed ⊢
    rw [same]
    exact claimed
  intro entry inside
  have kept := (shrunk.kept_of_known (List.mem_map_of_mem inside)).2
  rw [shrunk.claimed_eq kept]
  exact shrunk.spared d gone evicted claimed entry inside

theorem perform_counted (s : Store) (access : Access) :
    (s.perform bounds clock access).1.expired = s.expired +
        ((s.perform bounds clock access).1.departed.filter fun d => d.reason = .expired).length ∧
      (s.perform bounds clock access).1.evicted = s.evicted +
        ((s.perform bounds clock access).1.departed.filter fun d => d.reason = .evicted).length := by
  obtain ⟨moment, base, ds, shrunk, entered, -⟩ := perform_entered bounds clock s access
  rw [shrunk.expired, shrunk.evicted, shrunk.departed, entered.departed, entered.expired, entered.evicted]
  exact ⟨rfl, rfl⟩

end Store

/-! ## The promises over runs -/

section Runs

variable {calls : Nat → Access} {n : Nat}

theorem after_sound (named : ∀ k < n, (calls k).Named) {k : Nat} (bound : k ≤ n) :
    Store.Sound bounds (after bounds clock calls k) := by
  induction k with
  | zero => exact Store.Sound.empty bounds
  | succ k ih => exact Store.perform_sound (ih (by omega)) (named k (by omega))

variable (bounds calls) in
theorem lastReading_mono (ordered : Monotone clock) {j k : Nat} (h : j ≤ k) :
    lastReading bounds clock calls j ≤ lastReading bounds clock calls k := by
  have grows : Monotone fun k => (after bounds clock calls k).readings :=
    monotone_nat_of_le_succ fun k => Store.perform_readings _ _
  exact ordered (Nat.sub_le_sub_right (grows h) 1)

theorem Undisturbed.before (ordered : Monotone clock) {i j k : Nat} {auctionId name token : Str}
    (undisturbed : Undisturbed bounds clock calls i k auctionId name token) (h : j ≤ k) :
    Undisturbed bounds clock calls i j auctionId name token where
  kept m start stop := undisturbed.kept m start (stop.trans_le h)
  unreleased m start stop := undisturbed.unreleased m start (stop.trans_le h)
  live := by
    have earlier := lastReading_mono bounds calls ordered h
    have live := undisturbed.live
    linarith

theorem held_of_undisturbed (ordered : Monotone clock) (named : ∀ k < n, (calls k).Named)
    (roomy : ∀ k < n, (after bounds clock calls k).Roomy bounds clock (calls k)) {i j : Nat}
    {auctionId name token : Str} (start : i < j) (bound : j ≤ n)
    (reserves : calls i = .reserve auctionId name token) (won : reply bounds clock calls i = .holder none)
    (undisturbed : Undisturbed bounds clock calls i j auctionId name token) :
    Dict.get? (after bounds clock calls j).reservations (auctionId, name) =
      some (lastReading bounds clock calls (i + 1), token) := by
  induction j, start using Nat.le_induction with
  | base =>
      have alive : 0 < bounds.ttlSeconds := by
        have live := undisturbed.live
        rwa [sub_self] at live
      have here := roomy i (by omega)
      have name' := named i (by omega)
      unfold reply at won
      rw [reserves] at here name' won
      have granted := Store.perform_granted (after_sound named (by omega)) name' here alive won
      rw [← reserves] at granted
      exact granted
  | succ j later ih =>
      have held := ih (by omega) (undisturbed.before ordered (Nat.le_succ j))
      exact Store.perform_keeps ordered (after_sound named (by omega)) (named j (by omega)) (roomy j (by omega)) held
        (fun d gone same => undisturbed.kept j (by omega) (by omega) ⟨d, gone, same⟩)
        (undisturbed.unreleased j (by omega) (by omega)) undisturbed.live

theorem held_origin (named : ∀ k < n, (calls k).Named) {k : Nat} (bound : k ≤ n) {pair : Str × Str}
    {held : ℚ × Str} (found : Dict.get? (after bounds clock calls k).reservations pair = some held) :
    ∃ i < k, calls i = .reserve pair.1 pair.2 held.2 ∧ reply bounds clock calls i = .holder none ∧
      held.1 = lastReading bounds clock calls (i + 1) ∧
      (∀ m, i ≤ m → m < k → ¬ Forgets bounds clock calls m pair.1) ∧
      ∀ m, i < m → m < k → calls m ≠ .release pair.1 pair.2 held.2 := by
  induction k with
  | zero => cases found
  | succ k ih =>
      have sound : Store.Sound bounds (after bounds clock calls _) := after_sound named (Nat.le_of_succ_le bound)
      rcases Store.perform_origin sound found with ⟨old, kept, unreleased⟩ | ⟨reserves, won, stamp⟩
      · obtain ⟨i, before, reserves, won, stamp, unforgotten, unreleased'⟩ := ih (by omega) old
        refine ⟨i, by omega, reserves, won, stamp, ?_, ?_⟩
        · intro m start stop
          rcases Nat.lt_succ_iff_lt_or_eq.mp stop with earlier | rfl
          · exact unforgotten m start earlier
          · rintro ⟨d, gone, same⟩
            exact kept d gone same
        · intro m start stop
          rcases Nat.lt_succ_iff_lt_or_eq.mp stop with earlier | rfl
          · exact unreleased' m start earlier
          · exact unreleased
      · refine ⟨k, Nat.lt_succ_self k, reserves, won, stamp, ?_, ?_⟩
        · intro m start stop
          obtain rfl : m = k := by omega
          rintro ⟨d, gone, -⟩
          have named' := named m (by omega)
          rw [reserves] at named' won
          obtain ⟨f, -, -, -, silent⟩ := Store.perform_won won
          rw [after, reserves, silent] at gone
          cases gone
        · intro m start stop
          omega

theorem stamped {i k : Nat} {record record' : AuctionRecord} (start : i < k) (saves : calls i = .save record)
    (last : ∀ m, i < m → m < k → ∀ other : AuctionRecord, other.auctionId = record.auctionId →
      calls m ≠ .save other)
    (found : Dict.get? (after bounds clock calls k).records record.auctionId = some record') :
    Dict.get? (after bounds clock calls k).writtenAt record.auctionId =
      some (clock (after bounds clock calls i).readings) := by
  induction k, start using Nat.le_induction generalizing record' with
  | base =>
      rw [after, saves] at found ⊢
      exact Store.perform_saved found
  | succ k later ih =>
      obtain ⟨old, same⟩ := Store.perform_unsaved (last k (by omega) (by omega)) found
      exact same.trans (ih (fun m first stop => last m first (by omega)) old)

/-- The store keeps its promises in exactly the runs whose backstop drops nothing that is live. -/
theorem store_secure_iff (bounds : Bounds) (clock : Nat → ℚ) (ordered : Monotone clock) (calls : Nat → Access)
    (n : Nat) (named : ∀ k < n, (calls k).Named) :
    Secure bounds clock calls n ↔ ∀ k < n, (after bounds clock calls k).Roomy bounds clock (calls k) := by
  constructor
  · intro secure k bound
    by_contra crowded
    obtain ⟨auctionId, name, token, reserves, won, silent, pair, held, live, lost, origin⟩ :=
      Store.perform_drops (after_sound named bound.le) (named k bound) crowded
    have untouched (m : Nat) (here : m = k) (id : Str) : ¬ Forgets bounds clock calls m id := by
      subst here
      rintro ⟨d, gone, -⟩
      rw [after, silent] at gone
      cases gone
    rcases origin with old | ⟨rfl, rfl⟩
    · obtain ⟨i, before, reserves', won', stamp, unforgotten, unreleased⟩ := held_origin named bound.le old
      have kept := secure.held i (k + 1) pair.1 pair.2 held.2 (by omega) bound reserves' won' {
        kept := fun m start stop => by
          rcases Nat.lt_succ_iff_lt_or_eq.mp stop with earlier | here
          · exact unforgotten m start earlier
          · exact untouched m here pair.1
        unreleased := fun m start stop => by
          rcases Nat.lt_succ_iff_lt_or_eq.mp stop with earlier | rfl
          · exact unreleased m start earlier
          · rw [reserves]
            nofun
        live := by
          rw [← stamp]
          exact live }
      exact Option.some_ne_none _ (kept.symm.trans lost)
    · have kept := secure.held k (k + 1) auctionId name token (Nat.lt_succ_self k) bound reserves won {
        kept := fun m start stop => untouched m (by omega) auctionId
        unreleased := fun m start stop => by omega
        live := live }
      exact Option.some_ne_none _ (kept.symm.trans lost)
  · intro roomy
    exact {
      records_bounded := fun k bound => (after_sound named bound).records_bounded
      reservations_bounded := fun k bound => (after_sound named bound).reservations_bounded
      held := fun i j auctionId name token start bound reserves won undisturbed =>
        held_of_undisturbed ordered named roomy start bound reserves won undisturbed
      single := fun i j auctionId name token other start bound reserves won again undisturbed => by
        have held := held_of_undisturbed ordered named roomy start bound.le reserves won
          (undisturbed.before ordered (Nat.le_succ j))
        rw [reply, again, Store.perform_reserve, Store.free, held]
        have live := undisturbed.live
        have reading : clock (after bounds clock calls j).readings ≤ lastReading bounds clock calls (j + 1) := by
          apply ordered
          rw [after, again, Store.perform_reserve]
          split
          · rename_i f freed
            obtain ⟨-, -, -, -, -, -, readings, -⟩ := Store.free_eq_some freed
            obtain ⟨_, made, -⟩ := Store.trim_eq ((f.started.placed clock (auctionId, name) other).reservations.length -
              bounds.capacity * reservationNamesPerAuction) (f.started.placed clock (auctionId, name) other)
            dsimp only
            rw [Store.grant_eq, made]
            exact readings
          · exact le_rfl
        dsimp only
        rw [if_pos (by linarith)]
        rfl
      spared := fun k bound d gone evicted claimed => Store.perform_spares gone evicted claimed
      unread := fun i j record start bound saves last loads aged => by
        rw [reply, loads]
        apply Store.perform_load_aged
        intro record' found
        rw [stamped start saves last found]
        exact aged
      classified := fun i k record start bound saves last d gone same => by
        obtain ⟨classified, written⟩ := Store.perform_departed gone
        rw [classified]
        have stamp : d.written = clock (after bounds clock calls i).readings := by
          rcases written with ⟨other, saved, here, written⟩ | ⟨unsaved, known, written⟩
          · rcases start.lt_or_eq with before | rfl
            · exact absurd saved (last k before le_rfl other (here.trans same))
            · exact written
          · rcases start.lt_or_eq with before | rfl
            · rw [same] at known written
              obtain ⟨record', found⟩ := Option.isSome_iff_exists.mp ((Dict.contains_iff _ _).mpr known)
              rw [written, stamped before saves (fun m first stop => last m first stop.le) found]
              rfl
            · exact absurd same.symm (unsaved record saves)
        rw [stamp]
      counted := fun k bound => Store.perform_counted _ _ }

end Runs

/-! ### One store of one record -/

def blankRecord (auctionId : Str) : AuctionRecord where
  auctionId := auctionId
  intentId := []
  clusterId := []
  state := .closed
  roster := []
  acceptedBidRef := none
  openedAt := none
  closedAt := none
  deadline := none
  history := []

/-- An auction whose five reservations are held, and two calls that create another. -/
def crowdedCreation : List Access :=
  .save (blankRecord (str "a")) :: reservationNames.map (fun name => .reserve (str "a") name (str "t")) ++
    [.reserve (str "b") creationReservation (str "first"), .reserve (str "b") creationReservation (str "second")]

def ofList (accesses : List Access) (k : Nat) : Access := (accesses[k]?).getD (.load [])

def oneRecord : Bounds where
  capacity := 1
  ttlSeconds := 900
  positive := Nat.one_pos

def Reply.won : Reply → Bool
  | .holder none => true
  | _ => false

theorem Reply.eq_of_won {answer : Reply} (won : answer.won = true) : answer = .holder none := by
  cases answer with
  | holder holder =>
      cases holder with
      | none => rfl
      | some _ => cases won
  | _ => cases won

theorem single_auction_secure : Secure oneRecord (fun _ => 0) (ofList crowdedCreation) 6 := by
  apply (store_secure_iff oneRecord (fun _ => 0) monotone_const (ofList crowdedCreation) 6 _).mpr
  · intro k bound
    apply Store.roomy_of_few
    interval_cases k <;> decide +kernel
  · intro k bound
    interval_cases k
    all_goals first | trivial | (show _ ∈ reservationNames; decide)

theorem two_creators_win :
    reply oneRecord (fun _ => 0) (ofList crowdedCreation) 6 = .holder none ∧
      reply oneRecord (fun _ => 0) (ofList crowdedCreation) 7 = .holder none ∧
      ¬ Secure oneRecord (fun _ => 0) (ofList crowdedCreation) 8 := by
  have won : reply oneRecord (fun _ => 0) (ofList crowdedCreation) 6 = .holder none :=
    Reply.eq_of_won (by decide +kernel)
  refine ⟨won, Reply.eq_of_won (by decide +kernel), fun secure => ?_⟩
  have held := secure.held 6 7 (str "b") creationReservation (str "first") (by omega) (by omega) rfl won {
    kept := fun k start stop => by
      obtain rfl : k = 6 := by omega
      rintro ⟨d, gone, -⟩
      have silent : (after oneRecord (fun _ => 0) (ofList crowdedCreation) 7).departed.isEmpty = true := by
        decide +kernel
      rw [List.isEmpty_iff.mp silent] at gone
      cases gone
    unreleased := fun k start stop => by omega
    live := by decide +kernel }
  have lost : (Dict.get? (after oneRecord (fun _ => 0) (ofList crowdedCreation) 7).reservations
      (str "b", creationReservation)).isNone = true := by decide +kernel
  rw [held] at lost
  cases lost

end Proxyshop.Auction.Memory
