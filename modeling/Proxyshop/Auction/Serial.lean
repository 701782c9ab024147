import Proxyshop.Auction.Calls

/-!
# One move at a time

Whatever the order in which concurrent calls get through to the store, an auction is as if its calls
had been made one after another.
-/

namespace Proxyshop.Auction

open Python Structures

section Calls

variable [Unicode]

namespace MachineCall

/-- The call is a legal one when `stands` is the record of its auction. -/
def Legal (call : MachineCall) (stands : Option AuctionRecord) : Prop :=
  match call.target, stands with
  | none, none => True
  | some target, some record => target ∈ transitions record.state
  | _, _ => False

def event (call : MachineCall) (record : AuctionRecord) : Option LedgerFields :=
  call.target.map fun target =>
    transitionEvent record call.auctionId target call.payload call.storeId

def Settles (call : MachineCall) : Except Raised AuctionRecord → Mark → Prop
  | .error _, m => m = .idle
  | .ok record, m => ∃ token before,
      m = .moved call.auctionId token before record (call.event record) ∧ call.Legal before ∧
      record.auctionId = call.auctionId ∧ record.state = call.target.getD .created ∧
      ∀ bidRef, call.target = some .accepted → call.bidRef = some bidRef →
        record.acceptedBidRef = some bidRef

section Upholds

variable {ι : Type} [DecidableEq ι] {i : ι}

theorem upholds (call : MachineCall) :
    Upholds effect Invariant i call.program .idle call.Settles := by
  have transits {auctionId : Str} {target : State} {now : Option Float} {payload : Record}
      {bidRef storeId : Option Str} (keyed : call.auctionId = auctionId)
      (aims : call.target = some target) (pays : call.payload = payload)
      (bids : call.bidRef = bidRef) (stores : call.storeId = storeId) :
      Upholds effect Invariant i (transition auctionId target now payload bidRef storeId)
        .idle call.Settles := by
    apply Upholds.imp _ upholds_transition
    intro outcome m settled
    cases outcome with
    | error error => exact settled
    | ok record =>
        obtain ⟨before, same, legal, rfl, rfl⟩ := settled
        refine ⟨target.name, some before, ?_, ?_, ?_, ?_, ?_⟩
        · rw [event, keyed, aims, pays, stores]
          rfl
        · simp only [Legal, aims]
          exact legal
        · rw [moved_auctionId, same, keyed]
        · rw [aims]
          rfl
        · intro ref accepts named
          rw [aims] at accepts
          cases accepts
          rw [bids] at named
          exact named
  cases call with
  | create auctionId intentId clusterId roster deadline =>
      apply Upholds.imp _ upholds_create
      intro outcome m settled
      cases outcome with
      | error error => exact settled
      | ok record =>
          obtain ⟨keyed, state, mark⟩ := settled
          exact ⟨auctionId, none, mark, trivial, keyed, state, nofun⟩
  | openAuction auctionId now => exact transits rfl rfl rfl rfl rfl
  | close auctionId now reason shortlistSize outcome => exact transits rfl rfl rfl rfl rfl
  | expire auctionId now => exact transits rfl rfl rfl rfl rfl
  | accept auctionId bidRef now checkoutToken offer storeId => exact transits rfl rfl rfl rfl rfl

end Upholds
end MachineCall
end Calls

/-! ## A call that nobody disturbs -/

section Alone

variable {ι : Type} {i : ι} {s : Shared ι} {auctionId : Str}

theorem reserves {name token : Str} (free : s.reservations (auctionId, name) = none) :
    effect i s (.reserve auctionId name token) (.ok none)
      (s.reserved (auctionId, name) (some (token, i))) := by
  refine .inr ?_
  rw [free]
  exact ⟨rfl, rfl⟩

theorem loads {stands : Option AuctionRecord} (found : s.records auctionId = stands) :
    effect i s (.load auctionId) (.ok stands) s := ⟨rfl, .inr (by rw [found])⟩

theorem saves {record : AuctionRecord} :
    effect i s (.save record) (.ok ()) (s.saved i record) := .inr ⟨rfl, rfl⟩

theorem create_alone {intentId clusterId : Str} {roster : List Record} {deadline : Option Float}
    (stands : s.records auctionId = none)
    (free : s.reservations (auctionId, creationReservation) = none) :
    let record := AuctionRecord.fresh auctionId intentId clusterId roster deadline
    Relation.ReflTransGen (Advance effect i)
      (s, create auctionId intentId clusterId roster deadline)
      ((s.reserved (auctionId, creationReservation) (some (auctionId, i))).saved i record,
        .returns record) := by
  intro record
  let s' := s.reserved (auctionId, creationReservation) (some (auctionId, i))
  have loading : effect i s' (.load auctionId) (.ok none) s' := loads stands
  exact .head (.perform (reserves free)) (.head (.perform loading) (.head (.perform saves) .refl))

variable [Unicode]

theorem transition_alone {record : AuctionRecord} {target : State} {now : Option Float}
    {payload : Record} {bidRef storeId : Option Str} (stands : s.records auctionId = some record)
    (keyed : record.auctionId = auctionId) (legal : target ∈ transitions record.state)
    (free : s.reservations (auctionId, exitReservation record.state) = none) :
    ∃ s' after, Relation.ReflTransGen (Advance effect i)
        (s, transition auctionId target now payload bidRef storeId) (s', .returns after) ∧
      s'.records auctionId = some after := by
  let after := record.moved target now bidRef
  let s' := s.reserved (auctionId, exitReservation record.state) (some (target.name, i))
  let event := transitionEvent after auctionId target payload storeId
  let s'' := s'.saved i after
  refine ⟨{ s'' with ledger := s''.ledger ++ [(i, event)] }, after, ?_, ?_⟩
  case refine_2 =>
    show Function.update s.records after.auctionId (some after) auctionId = some after
    rw [moved_auctionId, keyed, Function.update_self]
  have lawful : ¬ target ∉ transitions record.state := not_not_intro legal
  have known : event.kind ∈ Events.ledgerEventKinds := transitionKind_known legal
  have loading : effect i s' (.load auctionId) (.ok (some record)) s' := loads stands
  refine .head (.perform (loads stands)) ?_
  show Relation.ReflTransGen _ (s, ite _ _ _) _
  rw [if_neg lawful]
  refine .head (.perform (reserves free)) (.head (.perform loading) ?_)
  show Relation.ReflTransGen _ (s', Program.bind _ (Program.handle _ (ite _ _ _))) _
  rw [if_neg (not_not_intro rfl)]
  refine .head (.perform saves) ?_
  show Relation.ReflTransGen _ (s'', Program.bind _ (ledgerRecord event)) _
  rw [ledgerRecord, if_pos known]
  have telling : effect i s'' (.record event) () { s'' with ledger := s''.ledger ++ [(i, event)] } :=
    rfl
  exact .head (.perform telling) .refl

theorem MachineCall.alone (call : MachineCall) (legal : call.Legal (s.records call.auctionId))
    (keyed : ∀ record, s.records call.auctionId = some record → record.auctionId = call.auctionId)
    (free : s.reservations
      (call.auctionId, departure ((s.records call.auctionId).map (·.state))) = none) :
    ∃ s' after, Relation.ReflTransGen (Advance effect i) (s, call.program) (s', .returns after) ∧
      s'.records call.auctionId = some after := by
  cases stands : s.records call.auctionId with
  | none =>
      rw [stands] at legal free
      cases call with
      | create auctionId intentId clusterId roster deadline =>
          exact ⟨_, _, create_alone stands free, Shared.saved_records ..⟩
      | _ => exact legal.elim
  | some record =>
      rw [stands] at legal free
      cases call with
      | create auctionId intentId clusterId roster deadline => exact legal.elim
      | _ => exact transition_alone stands (keyed record stands) legal free

end Alone

/-! ## Every run -/

theorem written_states {before : AuctionRecord} {l : List AuctionRecord}
    (written : Written (some before) l) :
    ((before :: l).map (·.state)).IsChain fun s t => t ∈ transitions s := by
  induction l generalizing before with
  | nil => exact .singleton _
  | cons after rest ih =>
      obtain ⟨follows, later⟩ := written
      refine .cons_cons ?_ (ih later)
      obtain ⟨target, legal, now, bidRef, rfl⟩ := follows
      exact legal

theorem legal_accepted {call : MachineCall} {before : Option AuctionRecord}
    (accepts : call.target = some .accepted) (legal : call.Legal before) :
    before.map (·.state) = some .closed := by
  cases before with
  | none => simp [MachineCall.Legal, accepts] at legal
  | some record =>
      simp only [MachineCall.Legal, accepts] at legal
      cases state : record.state <;> rw [state] at legal <;> simp [transitions] at legal
      simp [state]

section Runs

variable [Unicode] {ι : Type} [DecidableEq ι]

abbrev Auctions (ι : Type) := World (Shared ι) ι Operation Answer Raised AuctionRecord

def start (calls : ι → MachineCall) : Auctions ι := ⟨Shared.empty, fun i => (calls i).program⟩

/-- The save of the call `i` took the auction out of `source`, or out of there being no record. -/
def Left (s : Shared ι) (auctionId : Str) (source : Option State) (i : ι) : Prop :=
  ∃ before after, before.map (·.state) = source ∧ Placed none (s.savesOf auctionId) before i after

structure Serialised (calls : ι → MachineCall) (w : Auctions ι) (auctionId : Str) : Prop where
  starts : ∀ state ∈ ((w.shared.savesOf auctionId).map (·.2.state)).head?, state = .created
  path : ((w.shared.savesOf auctionId).map (·.2.state)).IsChain fun s t => t ∈ transitions s
  stands : w.shared.records auctionId = ((w.shared.savesOf auctionId).map Prod.snd).getLast?
  /-- Every record was written from the one that it replaced. -/
  fresh : Written none ((w.shared.savesOf auctionId).map Prod.snd)
  leftOnce : ∀ source i j, Left w.shared auctionId source i → Left w.shared auctionId source j → i = j
  returned : ∀ i record, (calls i).auctionId = auctionId → w.calls i = .returns record →
    w.shared.savesBy i = [record] ∧ w.shared.eventsBy i = ((calls i).event record).toList ∧
      ∃ before, (calls i).Legal before ∧ Left w.shared auctionId (before.map (·.state)) i
  raised : ∀ i error, (calls i).auctionId = auctionId → w.calls i = .raises error →
    w.shared.savesBy i = [] ∧ w.shared.eventsBy i = [] ∧
      ∀ key token, w.shared.reservations key ≠ some (token, i)
  acceptedOnce : ∀ i j record record', (calls i).auctionId = auctionId →
    (calls j).auctionId = auctionId → (calls i).target = some .accepted →
    (calls j).target = some .accepted → w.calls i = .returns record →
    w.calls j = .returns record' → i = j
  acceptedRef : ∀ i record bidRef, (calls i).auctionId = auctionId →
    (calls i).target = some .accepted → (calls i).bidRef = some bidRef →
    w.calls i = .returns record →
      w.shared.records auctionId = some record ∧ record.acceptedBidRef = some bidRef
  /-- Once whoever holds a reservation of the auction is over, a legal call is bound to succeed. -/
  retry : ∀ i, (calls i).auctionId = auctionId → w.calls i = (calls i).program →
    (calls i).Legal (w.shared.records auctionId) →
    (∀ name token j, w.shared.reservations (auctionId, name) = some (token, j) →
      (w.calls j).finished.isSome = true) →
    ∃ w' after, Solo effect i w w' ∧ w'.calls i = .returns after ∧
      w'.shared.records auctionId = some after

/-- Of whatever calls, in whatever order their operations are performed. -/
theorem auction_serialised (calls : ι → MachineCall) {w : Auctions ι}
    (run : Run effect (start calls) w) (auctionId : Str) : Serialised calls w auctionId := by
  have started : Stands effect Invariant (fun i => (calls i).Settles) (start calls) fun _ => .idle :=
    ⟨invariant_empty, fun i => (calls i).upholds⟩
  obtain ⟨marks, stands⟩ := started.run run
  have invariant := stands.1
  have chain := invariant.chain auctionId
  have last : w.shared.records auctionId = ((w.shared.savesOf auctionId).map Prod.snd).getLast? := by
    rw [invariant.current, List.getLast?_map]
  have once : ∀ source i j, Left w.shared auctionId source i → Left w.shared auctionId source j →
      i = j := by
    intro source i j ⟨before, after, state, placed⟩ ⟨before', after', state', placed'⟩
    exact placed.unique placed' chain (state.trans state'.symm)
  have settled {i : ι} {record : AuctionRecord} (returns : w.calls i = .returns record) :
      (calls i).Settles (.ok record) (marks i) := stands.finished (by rw [returns]; rfl)
  have failed {i : ι} {error : Raised} (raises : w.calls i = .raises error) : marks i = .idle :=
    stands.finished (i := i) (show _ = some (.error error) by rw [raises]; rfl)
  have moved {i : ι} {record : AuctionRecord} (here : (calls i).auctionId = auctionId)
      (returns : w.calls i = .returns record) : ∃ before, (calls i).Legal before ∧
        Placed none (w.shared.savesOf auctionId) before i record := by
    obtain ⟨token, before, mark, legal, _, _, _⟩ := settled returns
    rw [here] at mark
    exact ⟨before, legal, invariant.placed i _ _ _ _ _ mark⟩
  constructor
  case stands => exact last
  case fresh => exact chain
  case leftOnce => exact once
  case starts =>
    cases saves : w.shared.savesOf auctionId with
    | nil => exact nofun
    | cons entry rest =>
        rw [saves] at chain
        intro state first
        cases first
        exact chain.1
  case path =>
    cases saves : w.shared.savesOf auctionId with
    | nil => exact .nil
    | cons entry rest =>
        rw [saves] at chain
        have states := written_states chain.2
        rw [← List.map_cons (f := Prod.snd), List.map_map] at states
        exact states
  case returned =>
    intro i record here returns
    obtain ⟨before, legal, placed⟩ := moved here returns
    obtain ⟨token, before', mark, _, _, _, _⟩ := settled returns
    refine ⟨?_, ?_, before, legal, before, record, rfl, placed⟩
    · rw [invariant.saved, mark]
      rfl
    · rw [invariant.reported, mark]
      rfl
  case raised =>
    intro i error _ raises
    have idle := failed raises
    refine ⟨?_, ?_, ?_⟩
    · rw [invariant.saved, idle]
      rfl
    · rw [invariant.reported, idle]
      rfl
    · intro key token held
      rw [invariant.held, idle] at held
      cases held
  case acceptedOnce =>
    intro i j record record' here here' accepts accepts' returns returns'
    obtain ⟨before, legal, placed⟩ := moved here returns
    obtain ⟨before', legal', placed'⟩ := moved here' returns'
    have same := (legal_accepted accepts legal).trans (legal_accepted accepts' legal').symm
    exact placed.unique placed' chain same
  case acceptedRef =>
    intro i record bidRef here accepts named returns
    obtain ⟨before, legal, placed⟩ := moved here returns
    obtain ⟨token, before', mark, _, _, state, refs⟩ := settled returns
    have terminal : transitions record.state = [] := by
      rw [state, accepts]
      rfl
    exact ⟨last.trans (placed.final chain terminal), refs bidRef accepts named⟩
  case retry =>
    intro i here unstarted legal idle
    subst here
    have free : w.shared.reservations
        ((calls i).auctionId, departure ((w.shared.records (calls i).auctionId).map (·.state))) =
          none := by
      by_contra taken
      obtain ⟨⟨token, j⟩, held⟩ := Option.ne_none_iff_exists'.mp taken
      obtain ⟨outcome, ended⟩ := Option.isSome_iff_exists.mp (idle _ token j held)
      have claim := (invariant.held _ _ _).mp held
      have settles := stands.finished ended
      cases outcome with
      | error error =>
          rw [show marks j = .idle from settles] at claim
          cases claim
      | ok record =>
          obtain ⟨token', before, mark, _, _, _, _⟩ := settles
          have placed := invariant.placed j _ _ _ _ _ mark
          rw [mark, Mark.claim, Option.some.injEq, Prod.mk.injEq, Prod.mk.injEq] at claim
          obtain ⟨⟨same, exit⟩, -⟩ := claim
          rw [same] at placed
          have source := departure_injective exit
          cases final : w.shared.records (calls i).auctionId with
          | none =>
              rw [final, eq_comm, List.getLast?_eq_none_iff, List.map_eq_nil_iff] at last
              rw [last] at placed
              cases placed
          | some record' =>
              have later := placed.lt_last chain (last.symm.trans final)
              rw [source, final] at later
              exact absurd later (lt_irrefl _)
    obtain ⟨s', after, advances, written⟩ := (calls i).alone (i := i) legal
      (fun _ => invariant.keyed) free
    rw [← unstarted] at advances
    exact ⟨_, after, Solo.of_advances effect advances, Function.update_self .., written⟩

end Runs

def openedAuction : Bool → MachineCall
  | false => .create (str "auction-1") (str "intent-1") (str "cluster-1") [] none
  | true => .openAuction (str "auction-1") none

theorem openedAuction_serialised : letI := Unicode.ascii
    ∃ w record, Run effect (start openedAuction) w ∧ w.calls true = .returns record ∧
      Serialised openedAuction w (str "auction-1") := by
  let _ := Unicode.ascii
  let record := AuctionRecord.fresh (str "auction-1") (str "intent-1") (str "cluster-1") [] none
  let s : Shared Bool := (Shared.empty.reserved (str "auction-1", creationReservation)
    (some (str "auction-1", false))).saved false record
  have creating : Relation.ReflTransGen (Advance effect false)
      (Shared.empty, (openedAuction false).program) (s, .returns record) := create_alone rfl rfl
  have created := Solo.of_advances (w := start openedAuction) effect creating
  have stands : s.records (str "auction-1") = some record := Shared.saved_records ..
  obtain ⟨s', after, opening, -⟩ := (openedAuction true).alone (i := true) (s := s)
    (by
      show MachineCall.Legal _ (s.records (str "auction-1"))
      rw [stands]
      exact List.mem_cons_self)
    (fun found same => by
      change s.records (str "auction-1") = _ at same
      rw [stands] at same
      cases same
      rfl)
    (by
      show s.reservations (str "auction-1", departure ((s.records (str "auction-1")).map _)) = none
      rw [stands]
      decide)
  let w : Auctions Bool := ⟨s, Function.update (start openedAuction).calls false (.returns record)⟩
  have opened := Solo.of_advances (i := true) (w := w) effect opening
  have run := created.run.trans opened.run
  refine ⟨_, after, run, ?_, auction_serialised openedAuction run _⟩
  show Function.update w.calls true (.returns after) true = _
  rw [Function.update_self]

end Proxyshop.Auction
