import Mathlib.Logic.Relation
import Proxyshop.Agent.Loop
import Proxyshop.Structures.Fallible

/-!
# Nothing leaves unlogged

Whatever happens at a desk, an answer is submitted only right after its entry was logged by an active
runner whose envelope was not killed, and the submitter cannot reach an entry.
-/

namespace Proxyshop.Agent

open Python Numbers Contracts Learning Verification Structures
open Merchant (Activation)

/-! ## Objects -/

section Objects

variable {A : Type} {held : List Nat} {edit : Nat → A → A} {objects : List A}

@[simp] theorem length_meddle : (meddle held edit objects).length = objects.length := List.length_mapIdx

theorem getElem?_meddle {address : Nat} (free : address ∉ held) :
    (meddle held edit objects)[address]? = objects[address]? := by
  rw [meddle, List.getElem?_mapIdx]
  cases objects[address]? with
  | none => rfl
  | some answer => exact congrArg some (if_neg free)

end Objects

/-! ## Deliveries -/

namespace Delivery

variable {F A : Type}

def call : Delivery F A → Nat
  | .logged call _ _ _ => call
  | .unlogged call _ => call
  | .submitted call _ _ => call

def isSubmission : Delivery F A → Bool
  | .submitted _ _ _ => true
  | _ => false

end Delivery

section Deliveries

variable {F A : Type}

/-- The last delivery logged the answer for an active runner that the envelope did not kill, and it is
the only one of its call. -/
def Covered (before : List (Delivery F A)) (call : Nat) (answer : A) : Prop :=
  ∃ earlier entry decided, before = earlier ++ [.logged call entry answer decided] ∧
    entry.mode = .active ∧ decided.mode = .active ∧ decided.killedByEnvelope = false ∧
    ∀ other ∈ earlier, other.call ≠ call

/-- Every submission is covered by what was delivered before it. -/
def Preceded (deliveries : List (Delivery F A)) : Prop :=
  ∀ before after call answer raised, deliveries = before ++ .submitted call answer raised :: after →
    Covered before call answer

theorem Preceded.snoc {deliveries : List (Delivery F A)} {last : Delivery F A} (preceded : Preceded deliveries)
    (covered : ∀ call answer raised, last = .submitted call answer raised → Covered deliveries call answer) :
    Preceded (deliveries ++ [last]) := by
  intro before after call answer raised split
  rcases List.eq_nil_or_concat after with rfl | ⟨after, x, rfl⟩
  · obtain ⟨rfl, same⟩ := List.append_inj' split rfl
    exact covered call answer raised (List.singleton_inj.mp same)
  · rw [List.concat_eq_append, ← List.cons_append, ← List.append_assoc] at split
    obtain ⟨same, -⟩ := List.append_inj' split rfl
    exact preceded before after call answer raised same

theorem Preceded.snoc_other {deliveries : List (Delivery F A)} {last : Delivery F A}
    (preceded : Preceded deliveries) (other : last.isSubmission = false) : Preceded (deliveries ++ [last]) := by
  refine preceded.snoc fun call answer raised same => ?_
  rw [same] at other
  cases other

end Deliveries

namespace Desk

variable {F A : Type} {d : Desk F A}

/-! ## Submitting and logging -/

section Emitting

variable (d) (answer : A) (sinkReply reply : Reply A) (entry : BidLogEntry F)

@[simp] theorem submit_entries : (d.submit answer reply).entries = d.entries := by
  rw [submit]
  split <;> rfl

@[simp] theorem submit_calls : (d.submit answer reply).calls = d.calls := by
  rw [submit]
  split <;> rfl

theorem submit_deliveries : ∃ new, (d.submit answer reply).deliveries = d.deliveries ++ new ∧
    (new = [] ∨ new = [.submitted d.calls answer reply.raises]) := by
  rw [submit]
  split
  · exact ⟨[], (List.append_nil _).symm, .inl rfl⟩
  · exact ⟨_, rfl, .inr rfl⟩

variable {d answer reply}

theorem submit_objects {address : Nat} (inside : address < d.objects.length) (free : address ∉ d.copies) :
    (d.submit answer reply).objects[address]? = d.objects[address]? := by
  have appended : (d.objects ++ [answer])[address]? = d.objects[address]? := List.getElem?_append_left inside
  rw [submit]
  split
  · exact appended
  · refine (getElem?_meddle ?_).trans appended
    rw [List.mem_cons, not_or]
    exact ⟨inside.ne, free⟩

end Emitting

/-- What the submitter holds is not what the entries refer to. -/
structure Apart (d : Desk F A) : Prop where
  copies : ∀ address ∈ d.copies, address < d.objects.length ∧ address ∉ d.shown
  shown : ∀ address ∈ d.shown, address < d.objects.length
  entries : ∀ entry ∈ d.entries, entry.answer ∈ d.shown

theorem Apart.submit (apart : Apart d) (answer : A) (reply : Reply A) : Apart (d.submit answer reply) := by
  have longer : (d.objects ++ [answer]).length = d.objects.length + 1 := List.length_append
  rw [Desk.submit]
  split
  · refine ⟨fun address held => ?_, fun address held => ?_, apart.entries⟩
    · exact ⟨longer ▸ Nat.lt_succ_of_lt (apart.copies address held).1, (apart.copies address held).2⟩
    · exact longer ▸ Nat.lt_succ_of_lt (apart.shown address held)
  · refine ⟨fun address held => ?_, fun address held => ?_, apart.entries⟩
    · dsimp only
      rw [length_meddle, longer]
      rcases List.mem_cons.mp held with rfl | earlier
      · exact ⟨Nat.lt_succ_self _, fun shown => (apart.shown _ shown).false⟩
      · exact ⟨Nat.lt_succ_of_lt (apart.copies address earlier).1, (apart.copies address earlier).2⟩
    · dsimp only
      rw [length_meddle, longer]
      exact Nat.lt_succ_of_lt (apart.shown address held)

theorem Apart.give (apart : Apart d) {address : Nat} (inside : address < d.objects.length)
    (free : address ∉ d.copies) (edit : Nat → A → A) : Apart (d.give address edit) := by
  refine ⟨fun copy held => ?_, fun shown held => ?_, fun e member => ?_⟩
  · obtain ⟨bound, hidden⟩ := apart.copies copy held
    refine ⟨bound.trans_eq length_meddle.symm, List.not_mem_cons_of_ne_of_not_mem ?_ hidden⟩
    exact fun same => free (same ▸ held)
  · refine Nat.lt_of_lt_of_eq ?_ length_meddle.symm
    rcases List.mem_cons.mp held with rfl | earlier
    · exact inside
    · exact apart.shown shown earlier
  · exact List.mem_cons_of_mem _ (apart.entries e member)

theorem Apart.write (apart : Apart d) {entry : BidLogEntry F} (shown : entry.answer ∈ d.shown)
    (answer : A) : Apart (d.write entry answer) := by
  refine ⟨apart.copies, apart.shown, fun e member => ?_⟩
  rcases List.mem_append.mp member with earlier | last
  · exact apart.entries e earlier
  · rw [List.mem_singleton.mp last]
    exact shown

section Logging

variable {entry : BidLogEntry F} {answer : A} {sinkReply reply : Reply A}

theorem Apart.log (apart : Apart d) (inside : entry.answer < d.objects.length)
    (free : entry.answer ∉ d.copies) : Apart (d.log entry answer sinkReply reply) := by
  have given := apart.give inside free sinkReply.edit
  have written (left : A) := given.write List.mem_cons_self left
  rw [Desk.log]
  split
  · exact apart
  · dsimp only
    split
    · exact ⟨given.copies, given.shown, given.entries⟩
    · split
      · exact (written _).submit _ _
      · exact written _

inductive Logged (d : Desk F A) (entry : BidLogEntry F) (sinkReply : Reply A) : List (Delivery F A) → Prop
  | nothing : Logged d entry sinkReply []
  | unlogged : Logged d entry sinkReply [.unlogged d.calls entry]
  | logged (answer : A) : Logged d entry sinkReply [.logged d.calls entry answer d.runner]
  | submitted (answer : A) (raised : Bool) (sunk : sinkReply.raises = false)
      (reached : (reach d.sink).isOk = true) (submitting : entry.submitting = true) : Logged d entry sinkReply
        [.logged d.calls entry answer d.runner, .submitted d.calls answer raised]

theorem log_deliveries (d : Desk F A) (entry : BidLogEntry F) (answer : A) (sinkReply reply : Reply A) :
    ∃ new, (d.log entry answer sinkReply reply).deliveries = d.deliveries ++ new ∧
      Logged d entry sinkReply new := by
  rw [Desk.log]
  split
  · exact ⟨[], (List.append_nil _).symm, .nothing⟩
  · rename_i called reached
    dsimp only
    split
    · exact ⟨_, rfl, .unlogged⟩
    · rename_i sunk
      split
      · rename_i submitting
        generalize (d.give entry.answer sinkReply.edit).objects.getD entry.answer answer = left
        obtain ⟨new, delivered, none | one⟩ :=
          ((d.give entry.answer sinkReply.edit).write entry left).submit_deliveries left reply
        · refine ⟨[.logged d.calls entry left d.runner], ?_, .logged left⟩
          rw [delivered, none, List.append_nil]
          rfl
        · refine ⟨_, ?_, .submitted left reply.raises (Bool.eq_false_of_not_eq_true sunk) ?_ submitting⟩
          · rw [delivered, one]
            exact List.append_assoc ..
          · rw [reached]
            rfl
      · exact ⟨_, rfl, .logged _⟩

@[simp] theorem log_calls : (d.log entry answer sinkReply reply).calls = d.calls := by
  rw [Desk.log]
  split
  · rfl
  · dsimp only
    split
    · rfl
    · split
      · exact submit_calls ..
      · rfl

theorem log_reply (apart : Apart d) (inside : entry.answer < d.objects.length)
    (free : entry.answer ∉ d.copies) (reply' : Reply A) :
    (d.log entry answer sinkReply reply).entries = (d.log entry answer sinkReply reply').entries ∧
      ∀ e ∈ (d.log entry answer sinkReply reply).entries,
        (d.log entry answer sinkReply reply).objects[e.answer]?
          = (d.log entry answer sinkReply reply').objects[e.answer]? := by
  rw [Desk.log, Desk.log]
  split
  · exact ⟨rfl, fun _ _ => rfl⟩
  · dsimp only
    split
    · exact ⟨rfl, fun _ _ => rfl⟩
    · split
      · generalize (d.give entry.answer sinkReply.edit).objects.getD entry.answer answer = left
        rw [submit_entries, submit_entries]
        refine ⟨rfl, fun e member => ?_⟩
        have written := (apart.give inside free sinkReply.edit).write List.mem_cons_self left
        have shown := written.entries e member
        have kept (reply : Reply A) :
            (((d.give entry.answer sinkReply.edit).write entry left).submit left reply).objects[e.answer]?
              = (d.give entry.answer sinkReply.edit).objects[e.answer]? :=
          submit_objects (written.shown _ shown) fun held => (written.copies _ held).2 shown
        rw [kept, kept]
      · exact ⟨rfl, fun _ _ => rfl⟩

end Logging

/-! ## Running -/

def answered (d : Desk F A) (r : Runner F) (answer : A) : Desk F A :=
  { d with
    runner := r
    objects := d.objects ++ [answer]
    calls := d.calls + 1 }

theorem Apart.answered (apart : Apart d) (r : Runner F) (answer : A) : Apart (d.answered r answer) := by
  have longer : (d.objects ++ [answer]).length = d.objects.length + 1 := List.length_append
  refine ⟨fun address held => ?_, fun address held => ?_, apart.entries⟩
  · exact ⟨longer ▸ Nat.lt_succ_of_lt (apart.copies address held).1, (apart.copies address held).2⟩
  · exact longer ▸ Nat.lt_succ_of_lt (apart.shown address held)

theorem Apart.unheld (apart : Apart d) (r : Runner F) (answer : A) {address : Nat}
    (last : address = d.objects.length) :
    address < (d.answered r answer).objects.length ∧ address ∉ (d.answered r answer).copies := by
  subst last
  refine ⟨?_, fun held => (apart.copies _ held).1.false⟩
  rw [Desk.answered, List.length_append]
  exact Nat.lt_succ_self _

section Running

variable [Format F] [Spelling F] [Sampling F] [Bidding F A] [Reporting F A]
variable {request : Wire F} {sinkReply reply : Reply A}

omit [Reporting F A] in
theorem answer_keeps (r : Runner F) (request : Wire F) :
    (r.answer A request).2.mode = r.mode ∧ (r.answer A request).2.context = r.context := by
  rw [Runner.answer]
  split
  · exact ⟨rfl, rfl⟩
  · split
    · exact ⟨rfl, rfl⟩
    · unfold Runner.rememberPlayed
      split
      · exact ⟨rfl, rfl⟩
      · rw [Runner.remember]
        split <;> exact ⟨rfl, rfl⟩

omit [Format F] [Spelling F] [Sampling F] in
theorem entry_eq_ok {r : Runner F} {arm : Option (Arm F)} {answer : A} {address : Nat} {entry : BidLogEntry F}
    (made : r.entry A arm answer address = .ok entry) :
    entry.mode = r.mode ∧ entry.submitting = r.submits ∧ entry.answer = address := by
  obtain ⟨rationale, -, made⟩ := bind_eq_ok.mp made
  cases made
  exact ⟨rfl, rfl, rfl⟩

theorem run_cases (d : Desk F A) (request : Wire F) : ∃ r : Runner F,
    r.mode = d.runner.mode ∧ r.context = d.runner.context ∧ ((∀ sinkReply reply, d.run request sinkReply reply = { d with runner := r }) ∨
      ∃ answer, (∀ sinkReply reply, d.run request sinkReply reply = d.answered r answer) ∨
        ∃ entry : BidLogEntry F, entry.mode = r.mode ∧ entry.submitting = r.submits ∧
          entry.answer = d.objects.length ∧
          ∀ sinkReply reply, d.run request sinkReply reply = (d.answered r answer).log entry answer sinkReply reply) := by
  obtain ⟨mode, context⟩ := answer_keeps (A := A) d.runner request
  refine ⟨(d.runner.answer A request).2, mode, context, ?_⟩
  unfold run
  generalize d.runner.answer A request = answering at mode context ⊢
  obtain ⟨_ | ⟨arm, answer⟩, r⟩ := answering
  · exact .inl fun _ _ => rfl
  · refine .inr ⟨answer, ?_⟩
    dsimp only
    cases made : r.entry A arm answer d.objects.length with
    | error e => exact .inl fun _ _ => rfl
    | ok entry =>
        obtain ⟨mode, submitting, address⟩ := entry_eq_ok made
        exact .inr ⟨entry, mode, submitting, address, fun _ _ => rfl⟩

omit [Format F] [Spelling F] [Sampling F] in
theorem submits_congr {r r' : Runner F} (mode : r.mode = r'.mode) (context : r.context = r'.context) :
    r.submits = r'.submits := by
  rw [Runner.submits, Runner.submits, Runner.killedByEnvelope, Runner.killedByEnvelope, mode, context]

theorem run_deliveries (d : Desk F A) (request : Wire F) (sinkReply reply : Reply A) :
    ∃ new, (d.run request sinkReply reply).deliveries = d.deliveries ++ new ∧
      d.calls ≤ (d.run request sinkReply reply).calls ∧
      (new = [] ∨ ∃ (e : Desk F A) (entry : BidLogEntry F), (d.run request sinkReply reply).calls = e.calls ∧
        e.calls = d.calls + 1 ∧ e.sink = d.sink ∧ entry.mode = e.runner.mode ∧
        entry.submitting = e.runner.submits ∧ e.runner.submits = d.runner.submits ∧
        Logged e entry sinkReply new) := by
  obtain ⟨r, mode, context, ended | ⟨answer, ended | ⟨entry, stated, submitting, -, logged⟩⟩⟩ :=
    run_cases d request
  · rw [ended]
    exact ⟨[], (List.append_nil _).symm, le_rfl, .inl rfl⟩
  · rw [ended]
    exact ⟨[], (List.append_nil _).symm, Nat.le_succ _, .inl rfl⟩
  · obtain ⟨new, delivered, shape⟩ := (d.answered r answer).log_deliveries entry answer sinkReply reply
    rw [logged, log_calls]
    exact ⟨new, delivered, Nat.le_succ _, .inr ⟨d.answered r answer, entry, rfl, rfl, rfl, stated, submitting,
      submits_congr mode context, shape⟩⟩

theorem run_withheld (d : Desk F A) (request : Wire F) (sinkReply reply : Reply A)
    (withheld : d.runner.submits = false ∨ sinkReply.raises = true ∨ (reach d.sink).isOk = false) :
    ∃ new, (d.run request sinkReply reply).deliveries = d.deliveries ++ new ∧
      ∀ delivery ∈ new, delivery.isSubmission = false := by
  obtain ⟨new, delivered, -, rfl | ⟨e, entry, -, -, sink, -, submitting, same, shape⟩⟩ :=
    run_deliveries d request sinkReply reply
  · exact ⟨[], delivered, List.forall_mem_nil _⟩
  · refine ⟨new, delivered, ?_⟩
    cases shape with
    | nothing => exact List.forall_mem_nil _
    | unlogged => exact List.forall_mem_singleton.mpr rfl
    | logged answer => exact List.forall_mem_singleton.mpr rfl
    | submitted answer raised sunk reached submits =>
        rw [submitting, same] at submits
        rw [sink] at reached
        rcases withheld with silent | fails | lost
        · exact absurd (silent.symm.trans submits) Bool.false_ne_true
        · exact absurd (sunk.symm.trans fails) Bool.false_ne_true
        · exact absurd (lost.symm.trans reached) Bool.false_ne_true

theorem Apart.run (apart : Apart d) (request : Wire F) (sinkReply reply : Reply A) :
    Apart (d.run request sinkReply reply) := by
  obtain ⟨r, -, -, ended | ⟨answer, ended | ⟨entry, -, -, address, logged⟩⟩⟩ := run_cases d request
  · rw [ended]
    exact ⟨apart.copies, apart.shown, apart.entries⟩
  · rw [ended]
    exact apart.answered r answer
  · rw [logged]
    obtain ⟨inside, free⟩ := apart.unheld r answer address
    exact (apart.answered r answer).log inside free

end Running

/-! ## Guarded desks -/

section Guarding

variable [Format F] [Unicode] [Spelling F] [DecidableEq F]
variable [Sampling F] [Bidding F A] [Reporting F A]

structure Guarded (d : Desk F A) : Prop where
  preceded : Preceded d.deliveries
  /-- Nothing is submitted while the runner is not active or the envelope reads killed. -/
  quiet : (d.runner.mode ≠ .active ∨ d.runner.killedByEnvelope = true) → ∀ action, ∃ new,
    (d.act action).deliveries = d.deliveries ++ new ∧ ∀ delivery ∈ new, delivery.isSubmission = false
  /-- Nothing is submitted where the sink fails. -/
  sunk : ∀ request sinkReply reply, (sinkReply.raises = true ∨ (reach d.sink).isOk = false) → ∃ new,
    (d.run request sinkReply reply).deliveries = d.deliveries ++ new ∧
      ∀ delivery ∈ new, delivery.isSubmission = false
  /-- An assignment that fails changes nothing. -/
  refused : ∀ value e, d.runner.assign d.submitter value = .error e → d.act (.assign value) = d
  /-- The submitter changes no entry by its replies. -/
  unanswering : ∀ request sinkReply reply reply',
    (d.run request sinkReply reply).entries = (d.run request sinkReply reply').entries ∧
      ∀ entry ∈ (d.run request sinkReply reply).entries,
        (d.run request sinkReply reply).objects[entry.answer]?
          = (d.run request sinkReply reply').objects[entry.answer]?
  /-- The submitter changes no entry by what it does later. -/
  unreachable : ∀ edit, ∀ entry ∈ d.entries,
    (d.act (.submitterActs edit)).objects[entry.answer]? = d.objects[entry.answer]?

omit [Format F] [Unicode] [Spelling F] [DecidableEq F] [Sampling F] [Bidding F A] [Reporting F A] in
theorem Logged.preceded {e : Desk F A} {entry : BidLogEntry F} {sinkReply : Reply A}
    {earlier new : List (Delivery F A)} (shape : Logged e entry sinkReply new)
    (mode : entry.mode = e.runner.mode) (submitting : entry.submitting = e.runner.submits)
    (preceded : Preceded earlier) (numbered : ∀ delivery ∈ earlier, delivery.call < e.calls) :
    Preceded (earlier ++ new) := by
  have others (delivery) (member : delivery ∈ earlier) : delivery.call ≠ e.calls :=
    (numbered delivery member).ne
  cases shape with
  | nothing => exact (List.append_nil earlier).symm ▸ preceded
  | unlogged => exact preceded.snoc_other rfl
  | logged answer => exact preceded.snoc_other rfl
  | submitted answer raised sunk reached submits =>
      rw [submitting, Runner.submits, Bool.and_eq_true, decide_eq_true_eq, Bool.not_eq_true'] at submits
      rw [← List.singleton_append, ← List.append_assoc]
      refine (preceded.snoc_other rfl).snoc ?_
      intro call answer' raised' same
      cases same
      exact ⟨earlier, entry, e.runner, rfl, mode.trans submits.1, submits.1, submits.2, others⟩

omit [Format F] [Unicode] [Spelling F] [DecidableEq F] [Sampling F] [Bidding F A] [Reporting F A] in
theorem Logged.call {e : Desk F A} {entry : BidLogEntry F} {sinkReply : Reply A}
    {new : List (Delivery F A)} (shape : Logged e entry sinkReply new) :
    ∀ delivery ∈ new, delivery.call = e.calls := by
  cases shape with
  | nothing => exact List.forall_mem_nil _
  | unlogged => exact List.forall_mem_singleton.mpr rfl
  | logged answer => exact List.forall_mem_singleton.mpr rfl
  | submitted answer raised =>
      exact List.forall_mem_cons.mpr ⟨rfl, List.forall_mem_singleton.mpr rfl⟩

structure Invariant (d : Desk F A) : Prop where
  preceded : Preceded d.deliveries
  numbered : ∀ delivery ∈ d.deliveries, delivery.call ≤ d.calls
  apart : Apart d

omit [Unicode] [DecidableEq F] in
theorem Invariant.run (invariant : Invariant d) (request : Wire F) (sinkReply reply : Reply A) :
    Invariant (d.run request sinkReply reply) := by
  obtain ⟨new, delivered, later, rfl | ⟨e, entry, calls, next, -, mode, submitting, -, shape⟩⟩ :=
    run_deliveries d request sinkReply reply
  · rw [List.append_nil] at delivered
    refine ⟨delivered ▸ invariant.preceded, fun delivery member => ?_, invariant.apart.run ..⟩
    exact (invariant.numbered delivery (delivered ▸ member)).trans later
  · have earlier (delivery) (member : delivery ∈ d.deliveries) : delivery.call < e.calls :=
      next ▸ Nat.lt_succ_of_le (invariant.numbered delivery member)
    refine ⟨?_, fun delivery member => ?_, invariant.apart.run ..⟩
    · rw [delivered]
      exact shape.preceded mode submitting invariant.preceded earlier
    · rw [delivered, List.mem_append] at member
      rw [calls]
      rcases member with before | now
      · exact (earlier delivery before).le
      · exact (shape.call delivery now).le

theorem Invariant.act (invariant : Invariant d) (action : Action F A) : Invariant (d.act action) := by
  obtain ⟨preceded, numbered, apart⟩ := invariant
  cases action with
  | run request sinkReply reply => exact Invariant.run ⟨preceded, numbered, apart⟩ request sinkReply reply
  | assign value =>
      rw [Desk.act]
      split
      · exact ⟨preceded, numbered, apart⟩
      · exact ⟨preceded, numbered, apart.copies, apart.shown, apart.entries⟩
  | sinkActs edit =>
      refine ⟨preceded, numbered, fun copy held => ?_, fun address held => ?_, apart.entries⟩
      · exact ⟨(apart.copies copy held).1.trans_eq length_meddle.symm, (apart.copies copy held).2⟩
      · exact (apart.shown address held).trans_eq length_meddle.symm
  | submitterActs edit =>
      refine ⟨preceded, numbered, fun copy held => ?_, fun address held => ?_, apart.entries⟩
      · exact ⟨(apart.copies copy held).1.trans_eq length_meddle.symm, (apart.copies copy held).2⟩
      · exact (apart.shown address held).trans_eq length_meddle.symm
  | edit context => exact ⟨preceded, numbered, apart.copies, apart.shown, apart.entries⟩
  | ingest pushed => exact ⟨preceded, numbered, apart.copies, apart.shown, apart.entries⟩
  | ingestTrustEvents pushed => exact ⟨preceded, numbered, apart.copies, apart.shown, apart.entries⟩
  | change sink submitter => exact ⟨preceded, numbered, apart.copies, apart.shown, apart.entries⟩

theorem act_withheld (silent : d.runner.submits = false) (action : Action F A) : ∃ new,
    (d.act action).deliveries = d.deliveries ++ new ∧ ∀ delivery ∈ new, delivery.isSubmission = false := by
  have nothing : ∃ new, d.deliveries = d.deliveries ++ new ∧
      ∀ delivery ∈ new, delivery.isSubmission = false :=
    ⟨[], (List.append_nil _).symm, List.forall_mem_nil _⟩
  cases action with
  | run request sinkReply reply => exact run_withheld d request sinkReply reply (.inl silent)
  | assign value =>
      rw [Desk.act]
      split <;> exact nothing
  | edit context => exact nothing
  | ingest pushed => exact nothing
  | ingestTrustEvents pushed => exact nothing
  | sinkActs edit => exact nothing
  | submitterActs edit => exact nothing
  | change sink submitter => exact nothing

theorem Invariant.guarded (invariant : Invariant d) : Guarded d where
  preceded := invariant.preceded
  quiet still action := by
    refine act_withheld ?_ action
    rw [Runner.submits, Bool.and_eq_false_iff]
    rcases still with inactive | killed
    · exact .inl (decide_eq_false inactive)
    · exact .inr (by rw [killed, Bool.not_true])
  sunk request sinkReply reply fails := run_withheld d request sinkReply reply (.inr fails)
  refused value e failed := by
    rw [Desk.act, failed]
  unanswering request sinkReply reply reply' := by
    obtain ⟨r, -, -, ended | ⟨answer, ended | ⟨entry, -, -, address, logged⟩⟩⟩ := run_cases d request
    · rw [ended, ended]
      exact ⟨rfl, fun _ _ => rfl⟩
    · rw [ended, ended]
      exact ⟨rfl, fun _ _ => rfl⟩
    · rw [logged, logged]
      obtain ⟨inside, free⟩ := invariant.apart.unheld r answer address
      exact log_reply (invariant.apart.answered r answer) inside free reply'
  unreachable edit entry member :=
    getElem?_meddle fun held => (invariant.apart.copies _ held).2 (invariant.apart.entries entry member)

def Acts (d d' : Desk F A) : Prop := ∃ action, d' = d.act action

omit [Format F] [Unicode] [Spelling F] [DecidableEq F] [Sampling F] [Bidding F A] [Reporting F A] in
theorem initial_invariant (runner : Runner F) (sink submitter : Collaborator) :
    Invariant (initial runner sink submitter : Desk F A) where
  preceded := by
    intro before after call answer raised split
    cases before <;> cases split
  numbered := List.forall_mem_nil _
  apart := ⟨List.forall_mem_nil _, List.forall_mem_nil _, List.forall_mem_nil _⟩

theorem Invariant.of_run {runner : Runner F} {sink submitter : Collaborator}
    (run : Relation.ReflTransGen Acts (initial runner sink submitter : Desk F A) d) : Invariant d := by
  induction run with
  | refl => exact initial_invariant runner sink submitter
  | tail _ step ih =>
      obtain ⟨action, rfl⟩ := step
      exact ih.act action

end Guarding

/-! ## Envelopes that state nothing -/

section Stating

def Unstated (context : Exposed F) : Prop :=
  ∀ mode : Activation, ((context.field (str "envelope")).field (str "activation")).value ≠ some (.string mode.text)

theorem asMode_eq_ok {value : Exposed F} {mode : Activation} :
    asMode value = .ok mode ↔ value.value = some (.string mode.text) := by
  cases value with
  | object read => exact ⟨nofun, nofun⟩
  | plain v =>
      cases v with
      | string stated =>
          rw [asMode, Exposed.value, Option.some.injEq, Json.string.injEq]
          constructor
          · intro read
            split at read
            · rename_i found stated
              cases read
              exact Activation.ofText?_eq_some.mp stated
            · cases read
          · rintro rfl
            rw [Activation.ofText?_text]
      | _ => exact ⟨nofun, nofun⟩

theorem envelopeStates_unstated {context : Exposed F} (unstated : Unstated context) :
    envelopeStates context = .shadow := by
  unfold envelopeStates
  split
  · rename_i mode read
    exact absurd (asMode_eq_ok.mp read) (unstated mode)
  · rfl

theorem opened_unstated {context : Exposed F} {storeId : Str} {sink submitter : Collaborator}
    {learning : Option (StoreLearningState F)} {r : Runner F} (unstated : Unstated context)
    (opened : Runner.opened context storeId sink submitter none learning = .ok r) : r.mode = .shadow := by
  unfold Runner.opened at opened
  split at opened
  · obtain ⟨mode, read, assigned⟩ := bind_eq_ok.mp opened
    rw [Option.getD_none, envelopeStates_unstated unstated] at read
    cases read
    rw [if_neg (by simp)] at assigned
    cases assigned
    rfl
  · cases opened

end Stating

/-- Whatever happens at a desk, an answer is submitted only right after it was logged by a runner that was
active under an envelope that was not killed, the submitter reaches no entry, and a runner whose envelope
states no activation starts in shadow. -/
theorem nothing_leaves_unlogged [Format F] [Unicode] [Spelling F] [DecidableEq F] [Sampling F] [Bidding F A]
    [Reporting F A] :
    (∀ (runner : Runner F) sink submitter (d : Desk F A),
      Relation.ReflTransGen Acts (initial runner sink submitter) d → Guarded d) ∧
    ∀ context storeId sink submitter learning (r : Runner F), Unstated context →
      Runner.opened context storeId sink submitter none learning = .ok r → r.mode = .shadow :=
  ⟨fun _ _ _ _ run => (Invariant.of_run run).guarded, fun _ _ _ _ _ _ => opened_unstated⟩

/-! ## A submission -/

section Submission

@[reducible] def plainSampling : Sampling Binary64 where
  sampleArm _ clusterId _ _ := .ok (coldArm clusterId)
  policyForAuction _ _ _ _ := .ok .null

@[reducible] def plainBidding : Bidding Binary64 Nat where
  bid _ _ := .ok 7
  auctionId _ := str "auction-1"
  storeId _ := str "store-1"

@[reducible] def plainReporting : Reporting Binary64 Nat where
  rationaleFor _ _ := .ok (str "the list price stands")
  sum _ := 0.0

def called : Collaborator where
  present := true
  callable := true
  exposes _ := .ok false

def active : Runner Binary64 :=
  .initial (.plain (.object [])) (str "store-1") .active none

def willing : Reply Nat where
  raises := false
  edit _ answer := answer

theorem answer_logged_then_submitted :
    letI : Unicode := Unicode.ascii
    letI : Spelling Binary64 := .strings Binary64
    letI := plainSampling
    letI := plainBidding
    letI := plainReporting
    let d := (initial active called called : Desk Binary64 Nat).act (.run (.object []) willing willing)
    d.deliveries.map Delivery.isSubmission = [false, true] ∧ Guarded d := by
  intro d
  let _ : Unicode := Unicode.ascii
  let _ : Spelling Binary64 := .strings Binary64
  let _ := plainSampling
  let _ := plainBidding
  let _ := plainReporting
  exact ⟨by decide, nothing_leaves_unlogged.1 active called called d (.single ⟨_, rfl⟩)⟩

end Submission
end Desk
end Proxyshop.Agent
