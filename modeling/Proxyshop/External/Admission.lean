import Proxyshop.External.Door

/-!
# One admission of a submission

A pair is forgotten by a sweep after its retention. As long as no call of the same submission stands
between its gates and its nonce then, and a call without the deadline is not judged after it, whoever
comes later is refused by an earlier gate.
-/

namespace Proxyshop.External

open Python Numbers Contracts Structures

section Once

variable {F ι : Type} [Format F] [Unicode] [DecidableEq ι] {x : Deployment F}

/-! ## What the gates promise -/

section Gates

omit [DecidableEq ι]

def Retains (retention : Option Int) (moment : Int) : Prop := ∀ r, retention = some r → moment ≤ r

/-- Where the gate admits an age, the window as a time span covers it. -/
def Covers (window : Wire F) : Prop :=
  ∀ w, freshnessWindow window = some w → ∀ micros, timedeltaMicros w = some micros →
    ∀ age, exceeds age w = false → age ≤ micros

theorem judge_passed {c : Call F} {evaluatedAt : Int} (passed : gates x c evaluatedAt = none) :
    (∃ issuedAt window, parseTimestamp c.submission.issuedAt = some issuedAt ∧
      freshnessWindow x.freshnessWindowSeconds = some window ∧
      exceeds (evaluatedAt - issuedAt.instant) window = false) ∧
    ∀ deadline, parseTimestamp (auctionDeadline x c) = some deadline → evaluatedAt ≤ deadline.instant := by
  have judged : judge x c evaluatedAt = none := by
    cases judged : judge x c evaluatedAt with
    | none => rfl
    | some reasons => simp [gates, judged] at passed
  unfold judge at judged
  cases issued : parseTimestamp c.submission.issuedAt with
  | none =>
      rw [issued] at judged
      cases judged
  | some issuedAt =>
      cases fresh : freshnessWindow x.freshnessWindowSeconds with
      | none =>
          rw [issued, fresh] at judged
          cases judged
      | some window =>
          rw [issued, fresh] at judged
          dsimp only at judged
          split at judged
          · cases judged
          · rename_i recent
            split at judged
            · cases judged
            · refine ⟨⟨issuedAt, window, rfl, rfl, by simpa using recent⟩, fun deadline given => ?_⟩
              rw [given] at judged
              dsimp only at judged
              split at judged
              · cases judged
              · omega

theorem retains_fresh {a c : Call F} (covers : Covers x.freshnessWindowSeconds)
    (same : a.submission = c.submission) (unbounded : parseTimestamp (auctionDeadline x a) = none)
    {evaluatedAt : Int} (passed : gates x c evaluatedAt = none) :
    Retains (nonceRetention x a) evaluatedAt := by
  obtain ⟨⟨issuedAt, window, issued, fresh, recent⟩, -⟩ := judge_passed passed
  intro r retention
  rw [nonceRetention, unbounded, same, issued, fresh] at retention
  simp only [Option.bind_eq_bind, Option.bind_some] at retention
  obtain ⟨micros, span, retention⟩ := Option.bind_eq_some_iff.mp retention
  obtain ⟨_, -, retention⟩ := Option.bind_eq_some_iff.mp retention
  obtain rfl := Option.some.inj retention
  have covered := covers window fresh micros span _ recent
  omega

theorem retains_deadline {a c : Call F} {deadline : DateTime}
    (retained : parseTimestamp (auctionDeadline x a) = some deadline)
    (given : parseTimestamp (auctionDeadline x c) = some deadline)
    {evaluatedAt : Int} (passed : gates x c evaluatedAt = none) :
    Retains (nonceRetention x a) evaluatedAt := by
  intro r retention
  rw [nonceRetention, retained] at retention
  obtain rfl := Option.some.inj retention
  exact (judge_passed passed).2 deadline given

omit [Unicode] in
theorem deadline_or_none {a c : Call F} (same : a.submission = c.submission)
    {deadline : DateTime} (retained : parseTimestamp (auctionDeadline x a) = some deadline) :
    parseTimestamp (auctionDeadline x c) = some deadline ∨ c.auctionKnown = false := by
  unfold auctionDeadline at retained ⊢
  cases known : c.auctionKnown with
  | false => exact Or.inr rfl
  | true =>
      left
      split at retained
      · rw [same] at retained
        exact retained
      · cases retained

end Gates

/-! ## Sweeps in time -/

def InFlight : Stage → Prop
  | .judged _ | .swept _ => True
  | .idle | .spent => False

/-- At a sweep, no other call between its gates and its nonce has its submission's pair recorded and
no longer retained, and a call without the deadline is not past the one that its pair was recorded
under. -/
structure InTime (x : Deployment F) (calls : ι → Call F) (s : Exchange F ι) (i : ι) (moment : Int) :
    Prop where
  overtaken : ∀ a ∈ s.spent, ∀ b, b ≠ i → InFlight (s.stages b) →
    (calls a).submission = (calls b).submission → Retains (nonceRetention x (calls a)) moment
  unknown : ∀ a ∈ s.spent, (calls a).submission = (calls i).submission →
    (calls i).auctionKnown = false → Retains (nonceRetention x (calls a)) moment

/-- An operation, where a sweep meets a condition on the state before it. -/
def EffectWhere (x : Deployment F) (calls : ι → Call F) (sweeps : Exchange F ι → ι → Int → Prop) (i : ι)
    (s : Exchange F ι) (op : Op F) (answer : Answer op) (s' : Exchange F ι) : Prop :=
  Effect x calls i s op answer s' ∧ ∀ moment, op = .purgeExpired moment → sweeps s i moment

abbrev TimelyEffect (x : Deployment F) (calls : ι → Call F) :
    ι → Exchange F ι → (op : Op F) → Answer op → Exchange F ι → Prop :=
  EffectWhere x calls (InTime x calls)

section Invariant

variable (x) (calls : ι → Call F)

def Held (s : Exchange F ι) (a : ι) : Prop :=
  Dict.get? s.nonces.consumed (calls a).submission.key = some (nonceRetention x (calls a))

/-- The retention is over, and whoever of the submission is under way has been judged after it. -/
structure Gone (s : Exchange F ι) (a : ι) (r : Int) : Prop where
  retention : nonceRetention x (calls a) = some r
  elapsed : r < s.clock
  judged : ∀ b, (calls a).submission = (calls b).submission → ∀ moment,
    s.stages b = .judged moment → r < moment
  swept : ∀ b, (calls a).submission = (calls b).submission → ∀ moment, s.stages b ≠ .swept moment

structure Invariant (s : Exchange F ι) : Prop where
  passed : ∀ i moment, s.stages i = .judged moment ∨ s.stages i = .swept moment →
    gates x (calls i) moment = none ∧ moment ≤ s.clock
  held : ∀ a ∈ s.spent, Held x calls s a ∨ ∃ r, Gone x calls s a r
  once : ∀ a ∈ s.spent, ∀ b ∈ s.spent, (calls a).submission = (calls b).submission → a = b
  recorded : ∀ i, s.stages i = .spent → i ∈ s.spent

def Placed (s : Exchange F ι) (stages : ι → Stage) : Prop := s.stages = stages ∧ Invariant x calls s

end Invariant

section Steps

variable {calls : ι → Call F} {s : Exchange F ι} {i : ι}

theorem Gone.moves {a : ι} {r : Int} (gone : Gone x calls s a r) {clock : Int} (later : s.clock ≤ clock)
    (nonces : NonceStore) (spent : List ι) {stage : Stage}
    (judged : (calls a).submission = (calls i).submission → ∀ moment, stage = .judged moment → r < moment)
    (swept : (calls a).submission = (calls i).submission → ∀ moment, stage ≠ .swept moment) :
    Gone x calls { s with clock, nonces, stages := Function.update s.stages i stage, spent } a r where
  retention := gone.retention
  elapsed := gone.elapsed.trans_le later
  judged := by
    intro b same moment at_gates
    by_cases own : b = i
    · subst own
      exact judged same moment (by simpa using at_gates)
    · exact gone.judged b same moment (by simpa [own] using at_gates)
  swept := by
    intro b same moment
    by_cases own : b = i
    · subst own
      simpa using swept same moment
    · simpa [own] using gone.swept b same moment

theorem passed_update {clock : Int} (invariant : Invariant x calls s) (later : s.clock ≤ clock)
    {stage : Stage} (own : ∀ moment, stage = .judged moment ∨ stage = .swept moment →
      gates x (calls i) moment = none ∧ moment ≤ clock) :
    ∀ j moment, Function.update s.stages i stage j = .judged moment ∨
      Function.update s.stages i stage j = .swept moment →
      gates x (calls j) moment = none ∧ moment ≤ clock := by
  intro j moment under_way
  by_cases mine : j = i
  · subst mine
    exact own moment (by simpa using under_way)
  · have before := invariant.passed j moment (by simpa [mine] using under_way)
    exact ⟨before.1, before.2.trans later⟩

theorem recorded_update (invariant : Invariant x calls s) {stage : Stage} (unspent : stage ≠ .spent) :
    ∀ j, Function.update s.stages i stage j = .spent → j ∈ s.spent := by
  intro j spent
  by_cases mine : j = i
  · subst mine
    exact absurd (by simpa using spent) unspent
  · exact invariant.recorded j (by simpa [mine] using spent)

theorem Invariant.now (invariant : Invariant x calls s) {reading : Int} (later : s.clock ≤ reading) :
    Invariant x calls { s with
      clock := reading
      stages := Function.update s.stages i
        (if gates x (calls i) reading = none then .judged reading else .idle) } where
  passed := by
    apply passed_update invariant later
    intro moment under_way
    split at under_way
    · rename_i passed
      have same : moment = reading := by simpa [eq_comm] using under_way
      exact ⟨same ▸ passed, same.le⟩
    · simp at under_way
  held := by
    intro a spent
    rcases invariant.held a spent with held | ⟨r, gone⟩
    · exact Or.inl held
    · refine Or.inr ⟨r, gone.moves later s.nonces s.spent ?_ ?_⟩
      · intro _ moment judged
        split at judged
        · obtain rfl := Stage.judged.inj judged
          exact gone.elapsed.trans_le later
        · cases judged
      · intro _ moment
        split <;> simp
  once := invariant.once
  recorded := recorded_update invariant (by split <;> simp)

omit [DecidableEq ι] in
theorem sweep_retains (covers : Covers x.freshnessWindowSeconds) {moment : Int}
    (passed : gates x (calls i) moment = none) (inTime : InTime x calls s i moment) {a : ι}
    (spent : a ∈ s.spent) (same : (calls a).submission = (calls i).submission) :
    Retains (nonceRetention x (calls a)) moment := by
  cases retained : parseTimestamp (auctionDeadline x (calls a)) with
  | none => exact retains_fresh covers same retained passed
  | some deadline =>
      rcases deadline_or_none same retained with given | unknown
      · exact retains_deadline retained given passed
      · exact inTime.unknown a spent same unknown

omit [Format F] [Unicode] [DecidableEq ι] in
theorem get?_purgeExpired {nonces : NonceStore} {key : Str × Str} {retention : Option Int} {moment : Int}
    (held : Dict.get? nonces.consumed key = some retention) (retains : Retains retention moment) :
    Dict.get? (nonces.purgeExpired moment).consumed key = some retention := by
  have kept : (!retention.any fun retainUntil => retainUntil < moment) = true := by
    cases retention with
    | none => rfl
    | some r =>
        have fresh := retains r rfl
        simp
        omega
  unfold NonceStore.purgeExpired
  dsimp only
  generalize nonces.consumed = d at held ⊢
  induction d with
  | nil => cases held
  | cons entry d ih =>
      obtain ⟨k, v⟩ := entry
      rw [Dict.get?_cons] at held
      split at held
      · rename_i same
        obtain rfl := Option.some.inj held
        rw [List.filter_cons_of_pos (by simpa using kept), same, Dict.get?_cons_self]
      · rename_i other
        rw [List.filter_cons]
        split
        · rw [Dict.get?_cons_ne other]
          exact ih held
        · exact ih held

theorem Invariant.purgeExpired (covers : Covers x.freshnessWindowSeconds)
    (invariant : Invariant x calls s) {moment : Int} (judged : s.stages i = .judged moment)
    (inTime : InTime x calls s i moment) :
    Invariant x calls { s with
      nonces := s.nonces.purgeExpired moment
      stages := Function.update s.stages i (.swept moment) } := by
  have own := invariant.passed i moment (Or.inl judged)
  have retains (a : ι) (spent : a ∈ s.spent) (same : (calls a).submission = (calls i).submission) :
      Retains (nonceRetention x (calls a)) moment := sweep_retains covers own.1 inTime spent same
  refine { passed := ?_, held := ?_, once := invariant.once,
           recorded := recorded_update invariant (by simp) }
  · apply passed_update invariant le_rfl
    intro other under_way
    have same : other = moment := by simpa [eq_comm] using under_way
    exact same ▸ own
  · intro a spent
    rcases invariant.held a spent with held | ⟨r, gone⟩
    · by_cases kept : Retains (nonceRetention x (calls a)) moment
      · exact Or.inl (get?_purgeExpired held kept)
      · obtain ⟨r, retention, elapsed⟩ : ∃ r, nonceRetention x (calls a) = some r ∧ r < moment := by
          simpa [Retains] using kept
        have unswept (b : ι) (same : (calls a).submission = (calls b).submission) :
            ¬ InFlight (Function.update s.stages i (.swept moment) b) := by
          intro flying
          by_cases mine : b = i
          · subst mine
            exact kept (retains a spent same)
          · exact kept (inTime.overtaken a spent b mine (by simpa [mine] using flying) same)
        refine Or.inr ⟨r, { retention, elapsed := elapsed.trans_le own.2, judged := ?_, swept := ?_ }⟩
        · intro b same other found
          dsimp only at found
          exact absurd (by rw [found]; trivial) (unswept b same)
        · intro b same other found
          dsimp only at found
          exact absurd (by rw [found]; trivial) (unswept b same)
    · refine Or.inr ⟨r, gone.moves le_rfl _ _ (fun _ _ => by simp) ?_⟩
      intro same
      have late := gone.judged i same moment judged
      have early := retains a spent same r gone.retention
      omega

theorem Invariant.spends (invariant : Invariant x calls s) {moment : Int}
    (swept : s.stages i = .swept moment)
    (spendable : (s.nonces.consume (calls i).submission.key (nonceRetention x (calls i))).2 = .spendable) :
    Invariant x calls { s with
      nonces := (s.nonces.consume (calls i).submission.key (nonceRetention x (calls i))).1
      stages := Function.update s.stages i .spent
      spent := s.spent ++ [i] } := by
  have absent : Dict.contains s.nonces.consumed (calls i).submission.key ≠ true := by
    intro present
    rw [NonceStore.consume, if_pos present] at spendable
    cases spendable
  have stored : (s.nonces.consume (calls i).submission.key (nonceRetention x (calls i))).1.consumed
      = Dict.set s.nonces.consumed (calls i).submission.key (nonceRetention x (calls i)) := by
    rw [NonceStore.consume, if_neg absent] at spendable ⊢
    split at spendable
    · cases spendable
    · rename_i room
      rw [if_neg room]
  have other (a : ι) (held : Held x calls s a) : (calls a).submission.key ≠ (calls i).submission.key := by
    intro same
    rw [Held, same] at held
    exact absent (by rw [Dict.contains, held]; rfl)
  have new (a : ι) (spent : a ∈ s.spent) : (calls a).submission ≠ (calls i).submission := by
    intro same
    rcases invariant.held a spent with held | ⟨r, gone⟩
    · exact other a held (congrArg Submission.key same)
    · exact gone.swept i same moment swept
  refine { passed := passed_update invariant le_rfl (by simp), held := ?_, once := ?_, recorded := ?_ }
  · intro a member
    rcases List.mem_append.mp member with spent | own
    · rcases invariant.held a spent with held | ⟨r, gone⟩
      · left
        rw [Held, stored, Dict.get?_set_ne _ _ (other a held)]
        exact held
      · exact Or.inr ⟨r, gone.moves le_rfl _ _ (by simp) (by simp)⟩
    · obtain rfl := List.mem_singleton.mp own
      left
      rw [Held, stored, Dict.get?_set_self]
  · intro a member b member' same
    rcases List.mem_append.mp member with spent | own <;> rcases List.mem_append.mp member' with spent' | own'
    · exact invariant.once a spent b spent' same
    · obtain rfl := List.mem_singleton.mp own'
      exact absurd same (new a spent)
    · obtain rfl := List.mem_singleton.mp own
      exact absurd same.symm (new b spent')
    · rw [List.mem_singleton.mp own, List.mem_singleton.mp own']
  · intro j spent
    by_cases mine : j = i
    · exact List.mem_append_right _ (List.mem_singleton.mpr mine)
    · exact List.mem_append_left _ (invariant.recorded j (by simpa [mine] using spent))

theorem Invariant.refuses (invariant : Invariant x calls s) :
    Invariant x calls { s with stages := Function.update s.stages i .idle } where
  passed := passed_update invariant le_rfl (by simp)
  held := fun a spent => (invariant.held a spent).imp id fun ⟨r, gone⟩ =>
    ⟨r, gone.moves le_rfl s.nonces s.spent (by simp) (by simp)⟩
  once := invariant.once
  recorded := recorded_update invariant (by simp)

omit [DecidableEq ι] in
theorem Invariant.enqueue (invariant : Invariant x calls s) (queue : List (Submission F)) :
    Invariant x calls { s with queue } where
  passed := invariant.passed
  held := fun a spent => (invariant.held a spent).imp id fun ⟨r, gone⟩ =>
    ⟨r, gone.retention, gone.elapsed, gone.judged, gone.swept⟩
  once := invariant.once
  recorded := invariant.recorded

end Steps

/-! ## Runs -/

section Runs

variable {calls : ι → Call F}

def Outcome (outcome : Except Empty Receipt) (stage : Stage) : Prop :=
  ∀ receipt : Receipt, outcome = .ok receipt → receipt.accepted = true → stage = .spent

omit [Format F] [Unicode] [DecidableEq ι] in
theorem outcome_refuse (reasons : List Str) (stage : Stage) : Outcome (.ok (refuse reasons)) stage := by
  intro receipt same accepted
  obtain rfl := Except.ok.inj same
  cases accepted

theorem handOn_upholds (i : ι) {answer : Consumption} {stage : Stage}
    (spent : answer = .spendable → stage = .spent) :
    Upholds (TimelyEffect x calls) (Placed x calls) i (handOn (calls i) answer) stage Outcome := by
  cases answer with
  | full => exact outcome_refuse _ _
  | replayed => exact outcome_refuse _ _
  | spendable =>
      intro s marks placed own taken s' done
      obtain ⟨done, -⟩ := done
      cases done with
      | enqueue taken =>
          refine ⟨stage, ?_, ?_⟩
          · rw [← own, Function.update_eq_self]
            obtain ⟨rfl, invariant⟩ := placed
            exact ⟨rfl, invariant.enqueue _⟩
          · change Bool at taken
            cases taken with
            | true => exact fun _ _ _ => spent rfl
            | false => exact outcome_refuse _ _

theorem receiveBid_upholds (covers : Covers x.freshnessWindowSeconds) (i : ι) :
    Upholds (TimelyEffect x calls) (Placed x calls) i (receiveBid x (calls i)) .idle Outcome := by
  unfold receiveBid
  split
  · intro s marks placed own reading s' done
    obtain ⟨done, -⟩ := done
    obtain ⟨rfl, invariant⟩ := placed
    cases done with
    | now later =>
        refine ⟨_, ⟨rfl, invariant.now later⟩, ?_⟩
        dsimp only
        cases passed : gates x (calls i) reading with
        | some reasons => exact outcome_refuse _ _
        | none =>
            rw [if_pos rfl]
            intro s marks placed own nothing s' done
            obtain ⟨done, inTime⟩ := done
            obtain ⟨rfl, invariant⟩ := placed
            cases done with
            | purgeExpired =>
                refine ⟨_, ⟨rfl, invariant.purgeExpired covers own (inTime _ rfl)⟩, ?_⟩
                intro s marks placed own answer s' done
                obtain ⟨done, -⟩ := done
                obtain ⟨rfl, invariant⟩ := placed
                cases done with
                | spends spendable =>
                    exact ⟨_, ⟨rfl, invariant.spends own spendable⟩, handOn_upholds i fun _ => rfl⟩
                | refuses unspendable =>
                    exact ⟨_, ⟨rfl, invariant.refuses⟩,
                      handOn_upholds i fun spendable => absurd spendable unspendable⟩
  · exact outcome_refuse _ _

theorem opened_stands (covers : Covers x.freshnessWindowSeconds) (clock : Int) (nonces : NonceStore) :
    Stands (TimelyEffect x calls) (Placed x calls) (fun _ => Outcome) (opened x calls clock nonces)
      fun _ => .idle := by
  refine ⟨⟨rfl, ?_⟩, fun i => receiveBid_upholds covers i⟩
  exact { passed := by simp [opened], held := fun _ member => absurd member List.not_mem_nil,
          once := fun _ member => absurd member List.not_mem_nil, recorded := by simp [opened] }

/-- However the calls interleave, a submission is admitted at most once where every sweep is in
time. -/
theorem admitted_once (covers : Covers x.freshnessWindowSeconds) (clock : Int) (nonces : NonceStore)
    {w : World (Exchange F ι) ι (Op F) Answer Empty Receipt}
    (run : Run (TimelyEffect x calls) (opened x calls clock nonces) w) {i j : ι}
    (first : Accepted w i) (second : Accepted w j)
    (same : (calls i).submission = (calls j).submission) : i = j := by
  obtain ⟨marks, stands⟩ := (opened_stands covers clock nonces).run run
  have spent (k : ι) (accepted : Accepted w k) : k ∈ w.shared.spent := by
    obtain ⟨receipt, finished, accepting⟩ := accepted
    obtain ⟨placed, invariant⟩ := stands.1
    refine invariant.recorded k ?_
    rw [placed]
    exact stands.finished finished receipt rfl accepting
  exact stands.1.2.once i (spent i first) j (spent j second) same

end Runs

/-! ## A call that is overtaken -/

section Building

variable {calls : ι → Call F} {sweeps : Exchange F ι → ι → Int → Prop}
variable {w w' : World (Exchange F ι) ι (Op F) Answer Empty Receipt}

theorem runs_now (run : Run (EffectWhere x calls sweeps) w w') (i : ι) (reading : Int)
    (due : w'.calls i = receiveBid x (calls i)) (authentic : (calls i).authenticity.isEmpty = true)
    (later : w'.shared.clock ≤ reading) (passed : gates x (calls i) reading = none) :
    Run (EffectWhere x calls sweeps) w
      ⟨{ w'.shared with clock := reading, stages := Function.update w'.shared.stages i (.judged reading) },
        Function.update w'.calls i (sweep x (calls i) reading)⟩ := by
  rw [receiveBid, if_pos authentic] at due
  have done : Effect x calls i w'.shared .now reading _ := .now later
  have allowed : EffectWhere x calls sweeps i w'.shared _ _ _ := And.intro done fun _ other => by cases other
  have step := Step.perform due allowed
  simp only [passed, if_true] at step
  exact run.tail ⟨i, step⟩

theorem runs_sweep (run : Run (EffectWhere x calls sweeps) w w') (i : ι) {evaluatedAt : Int}
    (due : w'.calls i = sweep x (calls i) evaluatedAt) (allowed : sweeps w'.shared i evaluatedAt) :
    Run (EffectWhere x calls sweeps) w
      ⟨{ w'.shared with
          nonces := w'.shared.nonces.purgeExpired evaluatedAt
          stages := Function.update w'.shared.stages i (.swept evaluatedAt) },
        Function.update w'.calls i (spend x (calls i))⟩ :=
  run.tail ⟨i, .perform due ⟨.purgeExpired, fun _ same => Op.purgeExpired.inj same ▸ allowed⟩⟩

theorem runs_spend (run : Run (EffectWhere x calls sweeps) w w') (i : ι)
    (due : w'.calls i = spend x (calls i))
    (spendable : (w'.shared.nonces.consume (calls i).submission.key (nonceRetention x (calls i))).2
      = .spendable) :
    Run (EffectWhere x calls sweeps) w
      ⟨{ w'.shared with
          nonces := (w'.shared.nonces.consume (calls i).submission.key (nonceRetention x (calls i))).1
          stages := Function.update w'.shared.stages i .spent
          spent := w'.shared.spent ++ [i] },
        Function.update w'.calls i (handOn (calls i) .spendable)⟩ := by
  have done : Effect x calls i w'.shared (.consume (calls i).submission.key (nonceRetention x (calls i)))
      .spendable _ := .spends spendable
  have allowed : EffectWhere x calls sweeps i w'.shared _ _ _ := And.intro done fun _ other => by cases other
  exact run.tail ⟨i, .perform due allowed⟩

theorem runs_enqueue (run : Run (EffectWhere x calls sweeps) w w') (i : ι)
    (due : w'.calls i = handOn (calls i) .spendable) :
    Run (EffectWhere x calls sweeps) w
      ⟨{ w'.shared with queue := w'.shared.queue ++ [(calls i).submission] },
        Function.update w'.calls i (.returns { accepted := true, reasons := [] })⟩ := by
  have done : Effect x calls i w'.shared (.enqueue (calls i).submission) true
      { w'.shared with queue := w'.shared.queue ++ [(calls i).submission] } := .enqueue true
  have allowed : EffectWhere x calls sweeps i w'.shared _ _ _ := And.intro done fun _ other => by cases other
  exact run.tail ⟨i, .perform due allowed⟩

theorem runs_plain (run : Run (EffectWhere x calls sweeps) w w') : Run (Effect x calls) w w' := by
  induction run with
  | refl => exact .refl
  | tail _ step ih =>
      obtain ⟨i, due, done⟩ := step
      exact ih.tail ⟨i, .perform due done.1⟩

end Building
end Once

section Overtaken

/-- An auction that closes ten seconds after the epoch, another without a deadline, and a freshness
window of five minutes. -/
def fiveMinutes : Deployment ℚ where
  freshnessWindowSeconds := .number (.integer 300)
  deadline auctionId := if auctionId = str "closing" then .number (.integer 10) else .null

def signedFor (auctionId nonce : String) : Call ℚ where
  submission := { signerId := str "signer", keyId := str "key", nonce := str nonce
                  issuedAt := .number (.integer 0), auctionId := str auctionId, fields := [] }
  auctionKnown := true
  authenticity := []
  eligibility _ := []

inductive Caller
  | original
  | replay
  | other
  deriving DecidableEq

def callers : Caller → Call ℚ
  | .original | .replay => signedFor "closing" "nonce"
  | .other => signedFor "open" "another"

def sinceEpoch (seconds : Int) : Int := epochMicros + seconds * 1000000

def door [Unicode] : World (Exchange ℚ Caller) Caller (Op ℚ) Answer Empty Receipt :=
  opened fiveMinutes callers (sinceEpoch 0) { maxEntries := 8, consumed := [] }

theorem fiveMinutes_covers : letI := Unicode.ascii
    Covers fiveMinutes.freshnessWindowSeconds := by
  let tables : Unicode := Unicode.ascii
  intro w fresh micros span age admitted
  have window : freshnessWindow fiveMinutes.freshnessWindowSeconds = some 300 := by decide
  obtain rfl := Option.some.inj (window.symm.trans fresh)
  have length : timedeltaMicros (300 : ℚ) = some 300000000 := by decide +kernel
  obtain rfl := Option.some.inj (length.symm.trans span)
  simp [exceeds] at admitted
  have bound : ¬ (300 : ℚ) < age / 1000000 := fun above => admitted (decide_eq_true above)
  rw [not_lt, div_le_iff₀ (by norm_num)] at bound
  have whole : (age : ℚ) ≤ 300000000 := by linarith
  exact_mod_cast whole

/-- The original is admitted, and no other call of its submission. -/
theorem original_admitted_once : letI := Unicode.ascii
    ∃ w, Run (TimelyEffect fiveMinutes callers) door w ∧
    Accepted w .original ∧ ∀ j, Accepted w j →
      (callers .original).submission = (callers j).submission → Caller.original = j := by
  let tables : Unicode := Unicode.ascii
  have start : Run (TimelyEffect fiveMinutes callers) door door := .refl
  have judged := runs_now start .original (sinceEpoch 0) rfl rfl (by decide)
    (by decide +kernel)
  have first := runs_enqueue (runs_spend (runs_sweep judged .original rfl
    ⟨fun _ member => absurd member List.not_mem_nil, fun _ member => absurd member List.not_mem_nil⟩)
    .original rfl (by decide)) .original rfl
  refine ⟨_, first, ⟨_, rfl, rfl⟩, fun j other same => ?_⟩
  exact admitted_once fiveMinutes_covers _ _ first ⟨_, rfl, rfl⟩ other same

/-- The replay is judged in time, then a later call sweeps its pair, and then it spends the nonce that
the original had spent. -/
theorem replay_admitted : letI := Unicode.ascii
    ¬ ∀ w, Run (Effect fiveMinutes callers) door w → ∀ i j, Accepted w i →
    Accepted w j → (callers i).submission = (callers j).submission → i = j := by
  let tables : Unicode := Unicode.ascii
  have start : Run (EffectWhere fiveMinutes callers fun _ _ _ => True) door door := .refl
  have first := runs_enqueue (runs_spend (runs_sweep (runs_now start .original (sinceEpoch 0) rfl rfl
    (by decide +kernel) (by decide +kernel)) .original rfl trivial) .original rfl
    (by decide)) .original rfl
  have judged := runs_now first .replay (sinceEpoch 5) rfl rfl (by decide)
    (by decide +kernel)
  have overtaken := runs_sweep (runs_now judged .other (sinceEpoch 11) rfl rfl
    (by decide +kernel) (by decide +kernel)) .other rfl trivial
  have second := runs_enqueue (runs_spend (runs_sweep overtaken .replay rfl trivial) .replay rfl
    (by decide +kernel)) .replay rfl
  intro once
  have same := once _ (runs_plain second) .original .replay ⟨_, rfl, rfl⟩ ⟨_, rfl, rfl⟩ rfl
  cases same

end Overtaken
end Proxyshop.External
