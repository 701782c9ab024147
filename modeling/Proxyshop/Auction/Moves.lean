import Proxyshop.Auction.Machine

/-!
# What the calls of an auction may rely on

A reservation belongs to the call that won it and has not raised, and the call that has re-read the
record behind its reservation holds the record that stands.
-/

namespace Proxyshop.Auction

open Python Structures

/-! ## Departures -/

/-- The reservation of the one move out of a state, or out of there being no record. -/
def departure : Option State → Str
  | none => creationReservation
  | some state => exitReservation state

theorem departure_injective : Function.Injective departure := by
  intro s t same
  cases s with
  | none =>
      cases t with
      | none => rfl
      | some t => exact absurd same (by cases t <;> decide)
  | some s =>
      cases t with
      | none => exact absurd same (by cases s <;> decide)
      | some t =>
          have names := List.append_cancel_left same
          cases s <;> cases t <;> first | rfl | exact absurd names (by decide)

/-- What a call that found `before` may write. -/
def Succeeds : Option AuctionRecord → AuctionRecord → Prop
  | none, after => after.state = .created
  | some before, after =>
      ∃ target ∈ transitions before.state, ∃ now bidRef, after = before.moved target now bidRef

/-- Every record of the list was written by a call that had found the record before it. -/
def Written : Option AuctionRecord → List AuctionRecord → Prop
  | _, [] => True
  | before, after :: rest => Succeeds before after ∧ Written (some after) rest

theorem last_or {A : Type} (a : A) (l : List A) (start : Option A) :
    (a :: l).getLast?.or start = l.getLast?.or (some a) := by
  rw [List.getLast?_cons]
  cases l.getLast? <;> rfl

theorem written_concat {before : Option AuctionRecord} {l : List AuctionRecord}
    {after : AuctionRecord} :
    Written before (l ++ [after]) ↔ Written before l ∧ Succeeds (l.getLast?.or before) after := by
  induction l generalizing before with
  | nil => exact and_comm
  | cons r l ih => rw [List.cons_append, Written, ih, Written, last_or, and_assoc]

@[simp] theorem moved_state (record : AuctionRecord) (target : State) (now : Option Float)
    (bidRef : Option Str) : (record.moved target now bidRef).state = target := rfl

@[simp] theorem moved_auctionId (record : AuctionRecord) (target : State) (now : Option Float)
    (bidRef : Option Str) : (record.moved target now bidRef).auctionId = record.auctionId := by
  cases target <;> rfl

def State.rank : State → Nat
  | .created => 1
  | .opened => 2
  | .closed => 3
  | .accepted => 4
  | .expired => 4

def rank (state : Option State) : Nat := state.elim 0 State.rank

theorem rank_lt_of_succeeds {before : Option AuctionRecord} {after : AuctionRecord}
    (follows : Succeeds before after) : rank (before.map (·.state)) < after.state.rank := by
  cases before with
  | none =>
      rw [show after.state = .created from follows]
      exact Nat.one_pos
  | some before =>
      obtain ⟨target, legal, now, bidRef, rfl⟩ := follows
      show before.state.rank < target.rank
      cases state : before.state <;> rw [state] at legal <;> cases target <;>
        simp [transitions, State.rank] at legal ⊢

theorem rank_lt_of_written {before : Option AuctionRecord} {l : List AuctionRecord}
    (written : Written before l) : ∀ r ∈ l, rank (before.map (·.state)) < r.state.rank := by
  induction l generalizing before with
  | nil => exact fun _ member => by cases member
  | cons after rest ih =>
      have first := rank_lt_of_succeeds written.1
      intro r member
      rcases List.mem_cons.mp member with same | later
      · rw [same]
        exact first
      · exact first.trans (ih written.2 r later)

/-! ## Marks -/

/-- Where a call stands: what it has reserved, found, written and reported. -/
inductive Mark
  | idle
  | reserved (auctionId : Str) (source : Option State) (token : Str)
  | reread (auctionId token : Str) (seen : Option AuctionRecord)
  | moved (auctionId token : Str) (before : Option AuctionRecord) (after : AuctionRecord)
      (event : Option LedgerFields)

namespace Mark

def claim : Mark → Option ((Str × Str) × Str)
  | idle => none
  | reserved auctionId source token => some ((auctionId, departure source), token)
  | reread auctionId token seen => some ((auctionId, departure (seen.map (·.state))), token)
  | moved auctionId token before _ _ => some ((auctionId, departure (before.map (·.state))), token)

def written : Mark → Option AuctionRecord
  | moved _ _ _ after _ => some after
  | _ => none

def reported : Mark → Option LedgerFields
  | moved _ _ _ _ event => event
  | _ => none

end Mark

section Invariant

variable {ι : Type}

namespace Shared

def savesOf (s : Shared ι) (auctionId : Str) : List (ι × AuctionRecord) :=
  s.saves.filter fun entry => entry.2.auctionId = auctionId

variable [DecidableEq ι]

def savesBy (s : Shared ι) (i : ι) : List AuctionRecord :=
  (s.saves.filter fun entry => entry.1 = i).map Prod.snd

def eventsBy (s : Shared ι) (i : ι) : List LedgerFields :=
  (s.ledger.filter fun entry => entry.1 = i).map Prod.snd

end Shared

/-- The call `i` wrote `after` right after `before`, of saves that began after `start`. -/
inductive Placed : Option AuctionRecord → List (ι × AuctionRecord) → Option AuctionRecord → ι →
    AuctionRecord → Prop
  | head {start : Option AuctionRecord} {i : ι} {after : AuctionRecord}
      {rest : List (ι × AuctionRecord)} : Placed start ((i, after) :: rest) start i after
  | tail {start before : Option AuctionRecord} {i : ι} {after : AuctionRecord}
      {entry : ι × AuctionRecord} {rest : List (ι × AuctionRecord)}
      (placed : Placed (some entry.2) rest before i after) :
      Placed start (entry :: rest) before i after

section Placed

variable {start before : Option AuctionRecord} {saves : List (ι × AuctionRecord)} {i : ι}
  {after : AuctionRecord}

theorem Placed.concat (placed : Placed start saves before i after) (entry : ι × AuctionRecord) :
    Placed start (saves ++ [entry]) before i after := by
  induction placed with
  | head => exact .head
  | tail _ ih => exact .tail ih

theorem placed_last : Placed start (saves ++ [(i, after)])
    ((saves.map Prod.snd).getLast?.or start) i after := by
  induction saves generalizing start with
  | nil => exact .head
  | cons entry rest ih =>
      rw [List.map_cons, last_or]
      exact .tail ih

theorem Placed.start_le (placed : Placed start saves before i after)
    (written : Written start (saves.map Prod.snd)) :
    rank (start.map (·.state)) ≤ rank (before.map (·.state)) := by
  induction placed with
  | head => exact le_rfl
  | tail _ ih => exact (rank_lt_of_succeeds written.1).le.trans (ih written.2)

theorem Placed.unique {before' : Option AuctionRecord} {j : ι} {after' : AuctionRecord}
    (placed : Placed start saves before i after) (placed' : Placed start saves before' j after')
    (written : Written start (saves.map Prod.snd))
    (same : before.map (·.state) = before'.map (·.state)) : i = j := by
  induction placed with
  | head =>
      cases placed' with
      | head => rfl
      | tail later =>
          have above := (rank_lt_of_succeeds written.1).trans_le (later.start_le written.2)
          rw [same] at above
          exact absurd above (lt_irrefl _)
  | tail earlier ih =>
      cases placed' with
      | head =>
          have above := (rank_lt_of_succeeds written.1).trans_le (earlier.start_le written.2)
          rw [same] at above
          exact absurd above (lt_irrefl _)
      | tail later => exact ih later written.2 same

theorem Placed.lt_last (placed : Placed start saves before i after)
    (written : Written start (saves.map Prod.snd)) {last : AuctionRecord}
    (final : (saves.map Prod.snd).getLast? = some last) :
    rank (before.map (·.state)) < last.state.rank := by
  induction placed with
  | @head start i after rest =>
      exact rank_lt_of_written written last (List.mem_of_getLast? final)
  | @tail start before i after entry rest placed ih =>
      apply ih written.2
      cases rest with
      | nil => cases placed
      | cons entry' rest =>
          rw [List.map_cons, List.map_cons, List.getLast?_cons_cons] at final
          exact final

theorem Placed.final (placed : Placed start saves before i after)
    (written : Written start (saves.map Prod.snd)) (terminal : transitions after.state = []) :
    (saves.map Prod.snd).getLast? = some after := by
  induction placed with
  | @head start i after rest =>
      cases rest with
      | nil => rfl
      | cons entry rest =>
          obtain ⟨target, legal, _⟩ := written.2.1
          rw [terminal] at legal
          cases legal
  | @tail start before i after entry rest placed ih =>
      have last := ih written.2 terminal
      cases rest with
      | nil => cases placed
      | cons entry' rest =>
          rw [List.map_cons, List.map_cons, List.getLast?_cons_cons]
          exact last

end Placed

variable [DecidableEq ι]

structure Invariant (s : Shared ι) (marks : ι → Mark) : Prop where
  held : ∀ key token i,
    s.reservations key = some (token, i) ↔ (marks i).claim = some (key, token)
  saved : ∀ i, s.savesBy i = (marks i).written.toList
  reported : ∀ i, s.eventsBy i = (marks i).reported.toList
  current : ∀ auctionId, s.records auctionId = (s.savesOf auctionId).getLast?.map Prod.snd
  chain : ∀ auctionId, Written none ((s.savesOf auctionId).map Prod.snd)
  reread : ∀ i auctionId token seen, marks i = .reread auctionId token seen →
    s.records auctionId = seen
  placed : ∀ i auctionId token before after event,
    marks i = .moved auctionId token before after event →
      Placed none (s.savesOf auctionId) before i after

variable {s : Shared ι} {marks : ι → Mark} {i : ι}

theorem invariant_empty : Invariant (Shared.empty : Shared ι) fun _ => .idle where
  held _ _ _ := by simp [Shared.empty, Mark.claim]
  saved _ := rfl
  reported _ := rfl
  current _ := rfl
  chain _ := trivial
  reread _ _ _ _ mark := by cases mark
  placed _ _ _ _ _ _ mark := by cases mark

theorem Invariant.keyed (invariant : Invariant s marks) {auctionId : Str} {record : AuctionRecord}
    (stands : s.records auctionId = some record) : record.auctionId = auctionId := by
  rw [invariant.current, Option.map_eq_some_iff] at stands
  obtain ⟨entry, last, rfl⟩ := stands
  simpa using List.of_mem_filter (List.mem_of_getLast? last)

theorem Invariant.remark (invariant : Invariant s marks) {mark : Mark}
    (claim : mark.claim = (marks i).claim) (written : mark.written = (marks i).written)
    (reported : mark.reported = (marks i).reported)
    (reread : ∀ auctionId token seen, mark = .reread auctionId token seen →
      s.records auctionId = seen)
    (placed : ∀ auctionId token before after event,
      mark = .moved auctionId token before after event →
        Placed none (s.savesOf auctionId) before i after) :
    Invariant s (Function.update marks i mark) where
  held key token j := by
    rw [invariant.held, Function.update_apply]
    split
    case isTrue same => rw [same, claim]
    case isFalse => rfl
  saved j := by
    rw [invariant.saved, Function.update_apply]
    split
    case isTrue same => rw [same, written]
    case isFalse => rfl
  reported j := by
    rw [invariant.reported, Function.update_apply]
    split
    case isTrue same => rw [same, reported]
    case isFalse => rfl
  current := invariant.current
  chain := invariant.chain
  reread j auctionId token seen := by
    rw [Function.update_apply]
    split
    case isTrue => exact reread auctionId token seen
    case isFalse => exact invariant.reread j auctionId token seen
  placed j auctionId token before after event := by
    rw [Function.update_apply]
    split
    case isTrue same => rw [same]; exact placed auctionId token before after event
    case isFalse => exact invariant.placed j auctionId token before after event

/-! ## What one operation keeps -/

theorem Invariant.won (invariant : Invariant s marks) (idle : marks i = .idle) {auctionId token : Str}
    {source : Option State} (free : s.reservations (auctionId, departure source) = none) :
    Invariant (s.reserved (auctionId, departure source) (some (token, i)))
      (Function.update marks i (.reserved auctionId source token)) where
  held key token' j := by
    show Function.update s.reservations _ _ key = _ ↔ _
    rw [Function.update_apply, Function.update_apply]
    have others := invariant.held key token' j
    by_cases mine : key = (auctionId, departure source)
    · subst mine
      rw [if_pos rfl]
      split
      case isTrue same =>
        subst same
        simp [Mark.claim]
      case isFalse other =>
        rw [free] at others
        simp only [Option.some.injEq, Prod.mk.injEq]
        exact ⟨fun h => absurd h.2.symm other, fun h => absurd (others.mpr h) nofun⟩
    · rw [if_neg mine, others]
      split
      case isTrue same =>
        subst same
        rw [idle]
        simp only [Mark.claim, Option.some.injEq, Prod.mk.injEq]
        exact ⟨nofun, fun h => absurd h.1.symm mine⟩
      case isFalse => rfl
  saved j := by
    show s.savesBy j = _
    rw [invariant.saved, Function.update_apply]
    split
    case isTrue same => rw [same, idle]; rfl
    case isFalse => rfl
  reported j := by
    show s.eventsBy j = _
    rw [invariant.reported, Function.update_apply]
    split
    case isTrue same => rw [same, idle]; rfl
    case isFalse => rfl
  current := invariant.current
  chain := invariant.chain
  reread j auctionId token seen := by
    rw [Function.update_apply]
    split
    case isTrue => exact nofun
    case isFalse => exact invariant.reread j auctionId token seen
  placed j auctionId token before after event := by
    rw [Function.update_apply]
    split
    case isTrue => exact nofun
    case isFalse => exact invariant.placed j auctionId token before after event

theorem Invariant.released (invariant : Invariant s marks) {key : Str × Str} {token : Str}
    (claim : (marks i).claim = some (key, token)) (written : (marks i).written = none)
    (reported : (marks i).reported = none) :
    Invariant (s.reserved key none) (Function.update marks i .idle) where
  held key' token' j := by
    show Function.update s.reservations _ _ key' = _ ↔ _
    rw [Function.update_apply, Function.update_apply]
    have mine := (invariant.held key token i).mpr claim
    have others := invariant.held key' token' j
    by_cases same : key' = key
    · subst same
      rw [if_pos rfl]
      refine ⟨nofun, fun h => ?_⟩
      split at h
      case isTrue => cases h
      case isFalse other =>
        rw [← others, mine] at h
        cases h
        exact absurd rfl other
    · rw [if_neg same, others]
      split
      case isTrue own =>
        subst own
        rw [claim]
        refine ⟨fun h => ?_, nofun⟩
        cases h
        exact absurd rfl same
      case isFalse => rfl
  saved j := by
    show s.savesBy j = _
    rw [invariant.saved, Function.update_apply]
    split
    case isTrue same => rw [same, written]; rfl
    case isFalse => rfl
  reported j := by
    show s.eventsBy j = _
    rw [invariant.reported, Function.update_apply]
    split
    case isTrue same => rw [same, reported]; rfl
    case isFalse => rfl
  current := invariant.current
  chain := invariant.chain
  reread j auctionId token seen := by
    rw [Function.update_apply]
    split
    case isTrue => exact nofun
    case isFalse => exact invariant.reread j auctionId token seen
  placed j auctionId token before after event := by
    rw [Function.update_apply]
    split
    case isTrue => exact nofun
    case isFalse => exact invariant.placed j auctionId token before after event

theorem Invariant.alone (invariant : Invariant s marks) {auctionId token token' : Str}
    {seen seen' : Option AuctionRecord} {j : ι} (mine : marks i = .reread auctionId token seen)
    (other : marks j = .reread auctionId token' seen') : i = j := by
  have here := invariant.reread i _ _ _ mine
  rw [invariant.reread j _ _ _ other] at here
  subst here
  have held := (invariant.held (auctionId, departure (seen'.map (·.state))) token i).mpr (by
    rw [mine]
    rfl)
  have held' := (invariant.held (auctionId, departure (seen'.map (·.state))) token' j).mpr (by
    rw [other]
    rfl)
  rw [held] at held'
  cases held'
  rfl

theorem Invariant.wrote (invariant : Invariant s marks) {auctionId token : Str}
    {seen : Option AuctionRecord} (mark : marks i = .reread auctionId token seen)
    {after : AuctionRecord} (keyed : after.auctionId = auctionId) (follows : Succeeds seen after) :
    Invariant (s.saved i after) (Function.update marks i (.moved auctionId token seen after none)) := by
  have stands := invariant.reread i _ _ _ mark
  have last := invariant.current auctionId
  rw [stands] at last
  have mine : (s.saved i after).savesOf auctionId = s.savesOf auctionId ++ [(i, after)] := by
    simp [Shared.savesOf, Shared.saved, keyed]
  have others {other : Str} (apart : other ≠ auctionId) :
      (s.saved i after).savesOf other = s.savesOf other := by
    simp [Shared.savesOf, Shared.saved, keyed, apart.symm]
  constructor
  case held =>
    intro key token' j
    show s.reservations key = _ ↔ _
    rw [invariant.held, Function.update_apply]
    split
    case isTrue same => rw [same, mark]; rfl
    case isFalse => rfl
  case saved =>
    intro j
    rw [Function.update_apply]
    split
    case isTrue same =>
      subst same
      have before := invariant.saved j
      rw [mark] at before
      simp only [Shared.savesBy, Mark.written, Option.toList_none, List.map_eq_nil_iff] at before
      simp [Shared.savesBy, Shared.saved, before, Mark.written]
    case isFalse other =>
      rw [← invariant.saved j]
      simp [Shared.savesBy, Shared.saved, Ne.symm other]
  case reported =>
    intro j
    show s.eventsBy j = _
    rw [invariant.reported, Function.update_apply]
    split
    case isTrue same => rw [same, mark]; rfl
    case isFalse => rfl
  case current =>
    intro other
    show Function.update s.records _ _ other = _
    rw [Function.update_apply, keyed]
    split
    case isTrue same =>
      rw [same, mine, List.getLast?_concat]
      rfl
    case isFalse apart => rw [others apart, invariant.current]
  case chain =>
    intro other
    by_cases same : other = auctionId
    · rw [same, mine, List.map_append, List.map_singleton, written_concat]
      refine ⟨invariant.chain auctionId, ?_⟩
      rw [List.getLast?_map, ← last, Option.or_none]
      exact follows
    · rw [others same]
      exact invariant.chain other
  case reread =>
    intro j other token' seen'
    rw [Function.update_apply]
    split
    case isTrue => exact nofun
    case isFalse apart =>
      intro mark'
      show Function.update s.records _ _ other = _
      rw [Function.update_apply, keyed]
      split
      case isTrue same =>
        subst same
        exact absurd (invariant.alone mark mark').symm apart
      case isFalse => exact invariant.reread j other token' seen' mark'
  case placed =>
    intro j other token' before after' event
    rw [Function.update_apply]
    split
    case isTrue same =>
      intro mark'
      cases mark'
      subst same
      have placed : Placed none (s.savesOf auctionId ++ [(j, after)]) _ j after := placed_last
      rw [Option.or_none, List.getLast?_map, ← last] at placed
      rw [mine]
      exact placed
    case isFalse =>
      intro mark'
      have placed := invariant.placed j _ _ _ _ _ mark'
      by_cases same : other = auctionId
      · subst same
        rw [mine]
        exact placed.concat _
      · rw [others same]
        exact placed

theorem Invariant.told (invariant : Invariant s marks) {auctionId token : Str}
    {before : Option AuctionRecord} {after : AuctionRecord}
    (mark : marks i = .moved auctionId token before after none) (event : LedgerFields) :
    Invariant { s with ledger := s.ledger ++ [(i, event)] }
      (Function.update marks i (.moved auctionId token before after (some event))) where
  held key token' j := by
    show s.reservations key = _ ↔ _
    rw [invariant.held, Function.update_apply]
    split
    case isTrue same => rw [same, mark]; rfl
    case isFalse => rfl
  saved j := by
    show s.savesBy j = _
    rw [invariant.saved, Function.update_apply]
    split
    case isTrue same => rw [same, mark]; rfl
    case isFalse => rfl
  reported j := by
    rw [Function.update_apply]
    split
    case isTrue same =>
      subst same
      have silent := invariant.reported j
      rw [mark] at silent
      simp only [Shared.eventsBy, Mark.reported, Option.toList_none, List.map_eq_nil_iff] at silent
      simp [Shared.eventsBy, silent, Mark.reported]
    case isFalse other =>
      rw [← invariant.reported j]
      simp [Shared.eventsBy, Ne.symm other]
  current := invariant.current
  chain := invariant.chain
  reread j auctionId' token' seen := by
    rw [Function.update_apply]
    split
    case isTrue => exact nofun
    case isFalse => exact invariant.reread j auctionId' token' seen
  placed j auctionId' token' before' after' event' := by
    rw [Function.update_apply]
    split
    case isTrue same =>
      intro mark'
      cases mark'
      rw [same]
      exact invariant.placed i _ _ _ _ _ mark
    case isFalse => exact invariant.placed j auctionId' token' before' after' event'

end Invariant
end Proxyshop.Auction
