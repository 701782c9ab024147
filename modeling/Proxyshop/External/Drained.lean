import Proxyshop.External.Backlog

/-!
# Admitted items are kept

An item that was admitted is in the queue, held by one drain, verified, or was dropped by a drain that
found the queue full. Where nobody finds the queue full, nothing is dropped, and no nonce is spent on a
submission that is refused for it.
-/

namespace Proxyshop.External.Backlog

open Python hiding Value
open Numbers Contracts Structures Verification Ranking

/-! ## Where the entries are -/

section Standing

variable {ι κ : Type}

def holdings (stages : Party ι κ → Stage ι) (k : κ) : Option ι := (stages (.drain k)).held

def Sent (stages : Party ι κ → Stage ι) (i : ι) : Prop := stages (.submission i) = .sent

def Service.lying (s : Service ι κ) : List ι := s.backlog ++ (s.verified ++ s.dropped)

variable [DecidableEq ι] [DecidableEq κ] {stages : Party ι κ → Stage ι} {stage : Stage ι} {i : ι} {k : κ}

theorem holdings_submission :
    holdings (Function.update stages (.submission i) stage) = holdings stages := by
  funext k
  rw [holdings, Function.update_of_ne (by simp), holdings]

theorem holdings_drain :
    holdings (Function.update stages (.drain k) stage)
      = Function.update (holdings stages) k stage.held := by
  funext j
  by_cases mine : j = k
  · subst mine
    rw [holdings, Function.update_self, Function.update_self]
  · rw [holdings, Function.update_of_ne (by simpa using mine), Function.update_of_ne mine, holdings]

theorem sent_drain : Sent (Function.update stages (.drain k) stage) = Sent stages := by
  funext i
  rw [Sent, Function.update_of_ne (by simp), Sent]

theorem sent_sends {j : ι} :
    Sent (Function.update stages (.submission i) .sent) j ↔ j = i ∨ Sent stages j := by
  by_cases mine : j = i
  · simp [Sent, mine]
  · rw [Sent, Function.update_of_ne (by simpa using mine), Sent]
    exact (or_iff_right mine).symm

theorem sent_full (unsent : ¬ Sent stages i) :
    Sent (Function.update stages (.submission i) .full) = Sent stages := by
  funext j
  by_cases mine : j = i
  · subst mine
    simpa [Sent] using unsent
  · rw [Sent, Function.update_of_ne (by simpa using mine), Sent]

end Standing

section Keeping

variable [Spelling Binary64] [Folding] [Sealing] {ι κ : Type}
variable (x : Deployment Binary64) (calls : ι → Call Binary64) (q : Wiring)

/-- The verdicts on the claims of the item, against some answer of the catalogue, are announced so. -/
def Attests (item : WorkItem) (announced : List Announcement) : Prop :=
  ∃ dimension claims snapshot attested, q.dimensions = some dimension ∧
    Wire.itemsOrNone item.claims = .ok claims ∧
    attestCandidateClaims dimension q.verifierVersion snapshot item.productRef item.storeId
      (pitchOf q item) claims = .ok attested ∧ attested.announced = announced

/-- The ledger has been told every verdict on the claims of the item. -/
def Announced (ledger : List (ι × Announcement)) (entry : ι) : Prop :=
  ∃ announced, Attests q (workItem (calls entry).submission) announced ∧
    ∀ announcement ∈ announced, (entry, announcement) ∈ ledger

structure Invariant (s : Service ι κ) : Prop where
  custody : Custody s.lying (holdings s.stages) (Sent s.stages)
  told : ∀ p entry told, s.stages p = .holds entry told →
    ∀ announcement ∈ told, (entry, announcement) ∈ s.ledger
  announced : ∀ entry ∈ s.verified, Announced calls q s.ledger entry

def Placed (s : Service ι κ) (stages : Party ι κ → Stage ι) : Prop :=
  s.stages = stages ∧ Invariant calls q s

variable [DecidableEq ι] [DecidableEq κ] {calls q} {s : Service ι κ} {i : ι} {k : κ} {entry : ι}
variable {told : List Announcement}

omit [Spelling Binary64] [Folding] [Sealing] in
theorem told_update {ledger : List (ι × Announcement)} {p : Party ι κ} {stage : Stage ι}
    (before : ∀ p entry told, s.stages p = .holds entry told →
      ∀ announcement ∈ told, (entry, announcement) ∈ s.ledger)
    (grows : s.ledger ⊆ ledger)
    (own : ∀ entry told, stage = .holds entry told → ∀ announcement ∈ told, (entry, announcement) ∈ ledger)
    (p' : Party ι κ) (entry : ι) (told : List Announcement)
    (holds : Function.update s.stages p stage p' = .holds entry told) (announcement : Announcement)
    (member : announcement ∈ told) : (entry, announcement) ∈ ledger := by
  by_cases mine : p' = p
  · subst mine
    rw [Function.update_self] at holds
    exact own entry told holds announcement member
  · rw [Function.update_of_ne mine] at holds
    exact grows (before p' entry told holds announcement member)

omit [DecidableEq ι] in
theorem Announced.mono {ledger ledger' : List (ι × Announcement)} (announced : Announced calls q ledger entry)
    (grows : ledger ⊆ ledger') : Announced calls q ledger' entry := by
  obtain ⟨announcements, attests, told⟩ := announced
  exact ⟨announcements, attests, fun announcement member => grows (told announcement member)⟩

theorem Invariant.sends (invariant : Invariant calls q s) (unsent : s.stages (.submission i) ≠ .sent) :
    Invariant calls q (s.appends (.submission i) i) where
  custody := by
    have issued := invariant.custody.issue unsent fun _ => sent_sends
    rw [← @holdings_submission _ _ _ _ s.stages .sent i] at issued
    exact issued.perm (by simpa [Service.lying, Service.appends] using List.perm_middle.symm)
  told := told_update invariant.told (List.Subset.refl _) (by simp [Party.rested])
  announced := invariant.announced

theorem Invariant.refused (invariant : Invariant calls q s) (idle : s.stages (.submission i) = .idle) :
    Invariant calls q (s.turnsAway (.submission i)) where
  custody := by
    have unsent : ¬ Sent s.stages i := by simp [Sent, idle]
    rw [Service.turnsAway, idle]
    simpa [Service.lying, Stage.held, Party.turnedAway, holdings_submission, sent_full unsent]
      using invariant.custody
  told := told_update invariant.told (List.Subset.refl _) (by simp [Party.turnedAway])
  announced := invariant.announced

theorem Invariant.pops (invariant : Invariant calls q s) {rest : List ι} (head : s.backlog = entry :: rest)
    (idle : s.stages (.drain k) = .idle) : Invariant calls q
      { s with
        backlog := rest
        stages := Function.update s.stages (.drain k) (.holds entry []) } where
  custody := by
    have lying := invariant.custody
    rw [Service.lying, head, List.cons_append] at lying
    have taken := lying.take (k := k) (by rw [holdings, idle]; rfl)
    rw [Service.lying, holdings_drain, sent_drain]
    exact taken
  told := told_update invariant.told (List.Subset.refl _) (by simp)
  announced := invariant.announced

theorem Invariant.lays (invariant : Invariant calls q s) (holds : s.stages (.drain k) = .holds entry told)
    {s' : Service ι κ} (lying : s'.lying.Perm (entry :: s.lying))
    (stages : s'.stages = Function.update s.stages (.drain k) .idle) :
    Custody s'.lying (holdings s'.stages) (Sent s'.stages) := by
  have laid := invariant.custody.put (k := k) (a := entry) (by rw [holdings, holds, Stage.held])
  rw [stages, holdings_drain, sent_drain]
  exact laid.perm lying.symm

theorem Invariant.returns (invariant : Invariant calls q s)
    (holds : s.stages (.drain k) = .holds entry told) :
    Invariant calls q (s.appends (.drain k) entry) where
  custody := invariant.lays holds
    (by simp [Service.lying, Service.appends]) rfl
  told := told_update invariant.told (List.Subset.refl _) (by simp [Party.rested])
  announced := invariant.announced

theorem Invariant.drops (invariant : Invariant calls q s)
    (holds : s.stages (.drain k) = .holds entry told) : Invariant calls q (s.turnsAway (.drain k)) where
  custody := by
    refine invariant.lays holds ?_ rfl
    have last := List.perm_append_singleton entry s.lying
    simp only [Service.lying, Service.turnsAway, holds, Stage.held, Option.toList_some,
      List.append_assoc] at last ⊢
    exact last
  told := told_update invariant.told (List.Subset.refl _) (by simp [Party.turnedAway])
  announced := invariant.announced

theorem Invariant.counts (invariant : Invariant calls q s)
    (holds : s.stages (.drain k) = .holds entry told)
    (attests : Attests q (workItem (calls entry).submission) told) :
    Invariant calls q (s.counts (.drain k) entry) where
  custody := by
    refine invariant.lays holds ?_ rfl
    rw [Service.lying, Service.counts]
    simpa [Service.lying] using @List.perm_middle _ entry (s.backlog ++ s.verified) s.dropped
  told := told_update invariant.told (List.Subset.refl _) (by simp)
  announced := by
    intro entry' member
    rcases List.mem_append.mp member with before | own
    · exact invariant.announced entry' before
    · obtain rfl := List.mem_singleton.mp own
      exact ⟨told, attests, invariant.told _ _ _ holds⟩

theorem Invariant.tells (invariant : Invariant calls q s)
    (holds : s.stages (.drain k) = .holds entry told) (announcement : Announcement) :
    Invariant calls q (s.tells (.drain k) entry announcement) where
  custody := by
    have same : Function.update (holdings s.stages) k (some entry) = holdings s.stages := by
      rw [Function.update_eq_self_iff, holdings, holds, Stage.held]
    rw [Service.tells, holds, Stage.tell, Service.lying, holdings_drain, sent_drain, Stage.held, same]
    exact invariant.custody
  told := by
    refine told_update invariant.told (List.subset_append_left _ _) ?_
    rw [holds, Stage.tell]
    rintro entry' told' ⟨⟩ announcement' member
    rcases List.mem_append.mp member with before | own
    · exact List.mem_append_left _ (invariant.told _ _ _ holds _ before)
    · obtain rfl := List.mem_singleton.mp own
      exact List.mem_append_right _ (List.mem_singleton.mpr rfl)
  announced := fun entry' member => (invariant.announced entry' member).mono (List.subset_append_left _ _)

/-! ## Programs -/

section Programs

variable {x}

theorem requeue_upholds (k : κ) (entry : ι) (told : List Announcement) :
    Upholds (Effect x calls q) (Placed calls q) (.drain k) (requeue q entry) (.holds entry told)
      fun outcome stage => outcome = .ok () ∧ stage = .idle := by
  intro s stages placed own depth s' done
  obtain ⟨rfl, invariant⟩ := placed
  cases done with
  | llen =>
      dsimp only
      split
      · exact ⟨.idle, ⟨rfl, invariant.drops own⟩, rfl, rfl⟩
      · refine ⟨_, ⟨(Function.update_eq_self ..).symm, invariant⟩, ?_⟩
        rw [own]
        intro s stages placed own nothing s' done
        obtain ⟨rfl, invariant⟩ := placed
        cases done with
        | rpush => exact ⟨.idle, ⟨rfl, invariant.returns own⟩, rfl, rfl⟩

theorem announce_upholds (k : κ) (entry : ι) (told : List Announcement) (announced : Option Announcement) :
    Upholds (Effect x calls q) (Placed calls q) (.drain k) (announce entry announced) (.holds entry told)
      fun outcome stage => match outcome with
        | .ok _ => stage = .holds entry (told ++ announced.toList)
        | .error _ => ∃ told', stage = .holds entry told' := by
  cases announced with
  | none => simp [announce, Upholds]
  | some announcement =>
      intro s stages placed own taken s' done
      obtain ⟨rfl, invariant⟩ := placed
      cases done with
      | record =>
          change Bool at taken
          cases taken with
          | true =>
              refine ⟨_, ⟨rfl, invariant.tells own announcement⟩, ?_⟩
              rw [own]
              rfl
          | false => exact ⟨_, ⟨(Function.update_eq_self ..).symm, invariant⟩, told, own⟩

omit [DecidableEq ι] [Folding] in
theorem announcement_of_attest {b : Bench} {dimension : Option Str → Option Str}
    {findings : List (Finding Binary64)} {claim : Value × Nat} {attested : Value × Option Announcement}
    (found : b.attest dimension findings claim = .ok attested) :
    announcement b dimension findings claim = .ok attested.2 := by
  unfold Bench.attest at found
  obtain ⟨⟨status, reason⟩, verdict, found⟩ := bind_eq_ok.mp found
  obtain ⟨unit, -, found⟩ := bind_eq_ok.mp found
  obtain ⟨sealed, -, found⟩ := bind_eq_ok.mp found
  cases found
  rw [announcement, verdict]
  rfl

theorem attestEach_upholds (k : κ) (entry : ι) (b : Bench) (dimension : Option Str → Option Str)
    (findings : List (Finding Binary64)) (claims : List (Value × Nat)) (told : List Announcement) :
    Upholds (Effect x calls q) (Placed calls q) (.drain k) (attestEach b dimension findings entry claims)
      (.holds entry told)
      fun outcome stage => match outcome with
        | .ok _ => ∃ entries, claims.mapM (b.attest dimension findings) = .ok entries ∧
            stage = .holds entry (told ++ entries.filterMap Prod.snd)
        | .error _ => ∃ told', stage = .holds entry told' := by
  induction claims generalizing told with
  | nil => exact ⟨[], rfl, by simp⟩
  | cons claim rest ih =>
      rw [attestEach]
      cases found : announcement b dimension findings claim with
      | error error => exact ⟨told, rfl⟩
      | ok announced =>
          apply Upholds.bind
          apply (announce_upholds k entry told announced).imp
          intro outcome stage post
          cases outcome with
          | error error => exact post
          | ok done =>
              obtain rfl := post
              cases attested : b.attest dimension findings claim with
              | error error => exact ⟨_, rfl⟩
              | ok one =>
                  have same : announced = one.2 :=
                    Except.ok.inj (found.symm.trans (announcement_of_attest attested))
                  apply (ih (told ++ announced.toList)).imp
                  intro outcome stage post
                  cases outcome with
                  | error error => exact post
                  | ok done =>
                      obtain ⟨entries, all, stands⟩ := post
                      refine ⟨one :: entries, ?_, ?_⟩
                      · simp only [List.mapM_cons, attested, all]
                        rfl
                      · rw [stands, same, List.append_assoc]
                        cases told : one.2 <;> simp [told]

omit [DecidableEq ι] in
theorem attestCandidateClaims_eq_bench (dimension : Option Str → Option Str) (item : WorkItem)
    {claims : List Value} (any : ¬ (claims.isEmpty && (pitchOf q item).isNone) = true) (snapshot : Value) :
    attestCandidateClaims dimension q.verifierVersion snapshot item.productRef item.storeId
        (pitchOf q item) claims = (do
      match ← benchFor q item claims snapshot with
      | none => return ⟨[], []⟩
      | some (b, presented) =>
          let entries ← presented.zipIdx.mapM (b.attest dimension (b.findings presented))
          return ⟨entries.map Prod.fst, entries.filterMap Prod.snd⟩) := by
  rw [attestCandidateClaims, if_neg any, benchFor]
  cases narrowedTo snapshot item.productRef with
  | error error => rfl
  | ok narrowed =>
      dsimp only [bind, Except.bind]
      cases decidableKeys narrowed item.productRef with
      | error error => rfl
      | ok decidable =>
          dsimp only
          split
          · rfl
          · cases spelledOrNone item.productRef <;> rfl

theorem verifyWorkItem_upholds (k : κ) (entry : ι) {dimension : Option Str → Option Str}
    (routed : q.dimensions = some dimension) (item : WorkItem) :
    Upholds (Effect x calls q) (Placed calls q) (.drain k) (verifyWorkItem q dimension entry item)
      (.holds entry [])
      fun outcome stage => match outcome with
        | .ok _ => ∃ told, Attests q item told ∧ stage = .holds entry told
        | .error _ => ∃ told, stage = .holds entry told := by
  unfold verifyWorkItem
  cases stated : Wire.itemsOrNone item.claims with
  | error error => exact ⟨[], rfl⟩
  | ok claims =>
      dsimp only
      split
      · rename_i none
        refine ⟨[], ⟨dimension, claims, .null, ⟨[], []⟩, routed, stated, ?_, rfl⟩, rfl⟩
        rw [attestCandidateClaims, if_pos none]
        rfl
      · rename_i any
        intro s stages placed own snapshot s' done
        obtain ⟨rfl, invariant⟩ := placed
        cases done with
        | snapshotFor =>
            refine ⟨_, ⟨(Function.update_eq_self ..).symm, invariant⟩, ?_⟩
            rw [own]
            have same := attestCandidateClaims_eq_bench dimension item any snapshot
            dsimp only
            cases bench : benchFor q item claims snapshot with
            | error error => exact ⟨[], rfl⟩
            | ok made =>
                rw [bench] at same
                cases made with
                | none => exact ⟨[], ⟨dimension, claims, snapshot, _, routed, stated, same, rfl⟩, rfl⟩
                | some made =>
                    apply (attestEach_upholds k entry made.1 dimension _ _ []).imp
                    intro outcome stage post
                    cases outcome with
                    | error error => exact post
                    | ok done =>
                        obtain ⟨entries, all, stands⟩ := post
                        dsimp only [bind, Except.bind] at same
                        rw [all] at same
                        exact ⟨_, ⟨dimension, claims, snapshot, _, routed, stated, same, rfl⟩, stands⟩

theorem verifyOrRequeue_upholds (k : κ) (entry : ι) {dimension : Option Str → Option Str}
    (routed : q.dimensions = some dimension) (item : WorkItem) :
    Upholds (Effect x calls q) (Placed calls q) (.drain k) (verifyOrRequeue q dimension entry item)
      (.holds entry [])
      fun outcome stage => match outcome with
        | .ok true => ∃ told, Attests q item told ∧ stage = .holds entry told
        | .ok false => stage = .idle
        | .error _ => False := by
  apply Upholds.handle
  apply Upholds.bind
  apply (verifyWorkItem_upholds k entry routed item).imp
  intro outcome stage post
  cases outcome with
  | ok done => exact post
  | error error =>
      obtain ⟨told, rfl⟩ := post
      apply Upholds.bind
      apply (requeue_upholds k entry told).imp
      rintro outcome stage ⟨rfl, idle⟩
      exact idle

def Ends (outcome : Except Fault DrainReport) (stage : Stage ι) : Prop :=
  (∃ report, outcome = .ok report) ∧ stage = .idle

theorem drainUpTo_upholds (k : κ) {dimension : Option Str → Option Str}
    (routed : q.dimensions = some dimension) (batch verified deferred : Nat) :
    Upholds (Effect x calls q) (Placed calls q) (.drain k)
      (drainUpTo q calls dimension batch verified deferred) .idle Ends := by
  induction batch generalizing verified deferred with
  | zero => exact ⟨⟨_, rfl⟩, rfl⟩
  | succ batch ih =>
      intro s stages placed own popped s' done
      obtain ⟨rfl, invariant⟩ := placed
      cases done with
      | empty => exact ⟨.idle, ⟨by rw [← own, Function.update_eq_self], invariant⟩, ⟨_, rfl⟩, rfl⟩
      | @lpop _ _ entry rest head =>
          refine ⟨_, ⟨rfl, invariant.pops head own⟩, ?_⟩
          intro s stages placed own snapshot s' done
          obtain ⟨rfl, invariant⟩ := placed
          cases done with
          | snapshotFor =>
              refine ⟨_, ⟨(Function.update_eq_self ..).symm, invariant⟩, ?_⟩
              rw [own]
              dsimp only
              split
              · apply Upholds.bind
                apply (requeue_upholds k entry []).imp
                rintro outcome stage ⟨rfl, rfl⟩
                exact ih verified (deferred + 1)
              · apply Upholds.bind
                apply (verifyOrRequeue_upholds k entry routed _).imp
                intro outcome stage post
                match outcome, post with
                | .ok false, idle => exact ⟨⟨_, rfl⟩, idle⟩
                | .ok true, post =>
                    obtain ⟨told, attests, rfl⟩ := post
                    intro s stages placed own nothing s' done
                    obtain ⟨rfl, invariant⟩ := placed
                    cases done with
                    | countVerified =>
                        exact ⟨.idle, ⟨rfl, invariant.counts own attests⟩, ih (verified + 1) deferred⟩

theorem drainVerificationQueue_upholds (k : κ) (maxItems : Int) :
    Upholds (Effect x calls q) (Placed calls q) (.drain k) (drainVerificationQueue q calls maxItems)
      .idle Ends := by
  unfold drainVerificationQueue
  split
  · cases routed : q.dimensions with
    | none => exact ⟨⟨_, rfl⟩, rfl⟩
    | some dimension => exact drainUpTo_upholds k routed _ 0 0
  · exact ⟨⟨_, rfl⟩, rfl⟩

def Answers (outcome : Except Fault Receipt) (stage : Stage ι) : Prop :=
  ∀ receipt : Receipt, outcome = .ok receipt → receipt.accepted = true → stage = .sent

omit [Spelling Binary64] [Folding] [Sealing] [DecidableEq ι] in
theorem answers_refuse (reasons : List Str) (stage : Stage ι) : Answers (.ok (refuse reasons)) stage := by
  rintro receipt ⟨⟩ ⟨⟩

theorem door_upholds (i : ι) {op : External.Op Binary64} {next : External.Answer op → Task ι Receipt}
    {stage : Stage ι}
    (rest : ∀ answer, Upholds (Effect x calls q) (Placed calls q) (.submission i : Party ι κ) (next answer)
      stage Answers) :
    Upholds (Effect x calls q) (Placed calls q) (.submission i : Party ι κ) (.perform (.door op) next) stage
      Answers := by
  intro s stages placed own answer s' done
  obtain ⟨rfl, invariant⟩ := placed
  cases done with
  | door done =>
      refine ⟨_, ⟨(Function.update_eq_self ..).symm, ?_⟩, own ▸ rest answer⟩
      exact ⟨invariant.custody, invariant.told, invariant.announced⟩

theorem enqueue_upholds (i : ι) :
    Upholds (Effect x calls q) (Placed calls q) (.submission i : Party ι κ)
      ((handOn (calls i) .spendable).expand (carryOut q i)) .idle Answers := by
  intro s stages placed own depth s' done
  obtain ⟨rfl, invariant⟩ := placed
  cases done with
  | llen =>
      dsimp only [Program.expand, Program.bind]
      split
      · exact ⟨.full, ⟨rfl, invariant.refused own⟩, answers_refuse _ _⟩
      · refine ⟨_, ⟨(Function.update_eq_self ..).symm, invariant⟩, ?_⟩
        rw [own]
        intro s stages placed own nothing s' done
        obtain ⟨rfl, invariant⟩ := placed
        cases done with
        | rpush =>
            refine ⟨.sent, ⟨rfl, invariant.sends (by simp [own])⟩, ?_⟩
            rintro receipt - -
            rfl

theorem submit_upholds (i : ι) :
    Upholds (Effect x calls q) (Placed calls q) (.submission i : Party ι κ) (submit q x calls i) .idle
      Answers := by
  unfold submit receiveBid
  split
  · apply door_upholds
    intro evaluatedAt
    change Int at evaluatedAt
    dsimp only [Program.expand, Program.bind]
    cases gates x (calls i) evaluatedAt with
    | some reasons => exact answers_refuse _ _
    | none =>
        apply door_upholds
        intro nothing
        apply door_upholds
        intro answer
        change Consumption at answer
        cases answer with
        | full => exact answers_refuse _ _
        | replayed => exact answers_refuse _ _
        | spendable => exact enqueue_upholds i
  · exact answers_refuse _ _

end Programs

/-! ## Runs -/

section Runs

variable {x} {batch : κ → Int} {clock : Int} {nonces : NonceStore} {w : Channel ι κ}

/-- A drain reports with nothing in hand, and whoever is accepted has appended its item. -/
def Concludes : Party ι κ → Except Fault Outcome → Stage ι → Prop
  | .submission _, outcome, stage =>
      ∀ receipt : Receipt, outcome = .ok (.receipt receipt) → receipt.accepted = true → stage = .sent
  | .drain _, outcome, stage => (∃ report, outcome = .ok (.report report)) ∧ stage = .idle

theorem opened_stands :
    Stands (Effect x calls q) (Placed calls q) Concludes (opened x calls q batch clock nonces)
      fun _ => .idle := by
  refine ⟨⟨rfl, ?_⟩, ?_⟩
  · refine ⟨⟨List.nodup_nil, ?_, ?_, ?_⟩, ?_, ?_⟩ <;> simp [opened, holdings, Sent, Stage.held, Service.lying]
  · intro p
    cases p with
    | submission i =>
        apply Upholds.bind
        apply (submit_upholds i).imp
        intro outcome stage answers
        cases outcome with
        | error error => nofun
        | ok receipt =>
            rintro receipt' ⟨⟩ accepted
            exact answers receipt rfl accepted
    | drain k =>
        apply Upholds.bind
        apply (drainVerificationQueue_upholds k (batch k)).imp
        rintro outcome stage ⟨⟨report, rfl⟩, idle⟩
        exact ⟨⟨report, rfl⟩, idle⟩

theorem conserved (run : Run (Effect x calls q) (opened x calls q batch clock nonces) w) :
    Invariant calls q w.shared ∧ (∀ i, Admitted w i → Sent w.shared.stages i) ∧
      ∀ k entry, holdings w.shared.stages k = some entry → (w.calls (.drain k)).finished = none := by
  obtain ⟨marks, stands⟩ := opened_stands.run run
  obtain ⟨placed, invariant⟩ := stands.1
  refine ⟨invariant, fun i admitted => ?_, fun k entry holds => ?_⟩
  · obtain ⟨receipt, finished, accepted⟩ := admitted
    rw [Sent, placed]
    exact stands.finished finished receipt rfl accepted
  · cases finished : (w.calls (.drain k)).finished with
    | none => rfl
    | some outcome =>
        have idle := (stands.finished finished).2
        rw [holdings, placed, idle] at holds
        cases holds

inductive Kept (calls : ι → Call Binary64) (q : Wiring) (s : Service ι κ) (entry : ι) : Prop
  | queued (waits : entry ∈ s.backlog) (free : ∀ k, holdings s.stages k ≠ some entry)
      (unverified : entry ∉ s.verified)
  | held (k : κ) (holds : holdings s.stages k = some entry)
      (single : ∀ j, holdings s.stages j = some entry → j = k) (unqueued : entry ∉ s.backlog)
      (unverified : entry ∉ s.verified)
  | verified (done : entry ∈ s.verified) (announced : Announced calls q s.ledger entry)
      (unqueued : entry ∉ s.backlog) (free : ∀ k, holdings s.stages k ≠ some entry)

/-- Every admitted item is in one place, nothing is there twice, and whoever was refused because the
queue was full can retry. -/
structure Keeps (calls : ι → Call Binary64) (q : Wiring) (w : Channel ι κ) : Prop where
  kept : ∀ i, Admitted w i → Kept calls q w.shared i
  running : ∀ k entry, holdings w.shared.stages k = some entry → (w.calls (.drain k)).finished = none
  queuedOnce : w.shared.backlog.Nodup
  verifiedOnce : w.shared.verified.Nodup
  unspent : ∀ i, w.shared.stages (.submission i) = .full →
    Dict.contains w.shared.exchange.nonces.consumed (calls i).submission.key = false

omit [DecidableEq ι] [DecidableEq κ] in
theorem Invariant.kept (invariant : Invariant calls q s) (sent : Sent s.stages entry)
    (undropped : entry ∉ s.dropped) : Kept calls q s entry := by
  obtain ⟨distinct, apart, single, somewhere⟩ := invariant.custody
  rcases (somewhere entry).mp sent with lies | ⟨k, holds⟩
  · have free (k : κ) : holdings s.stages k ≠ some entry := fun holds => apart k entry holds lies
    rw [Service.lying, List.nodup_append'] at distinct
    obtain ⟨-, distinct, disjoint⟩ := distinct
    rcases List.mem_append.mp lies with waits | lies
    · exact .queued waits free fun verified => disjoint waits (List.mem_append_left _ verified)
    · rcases List.mem_append.mp lies with verified | dropped
      · exact .verified verified (invariant.announced entry verified)
          (fun waits => disjoint waits (List.mem_append_left _ verified)) free
      · exact absurd dropped undropped
  · have outside := apart k entry holds
    simp only [Service.lying, List.mem_append, not_or] at outside
    exact .held k holds (fun j holds' => single j k entry holds' holds) outside.1 outside.2.1

def Roomy (q : Wiring) (s : Service ι κ) (op : Op ι) : Prop := op = .llen → (s.backlog.length : Int) < q.maxItems

def EffectWhere (x : Deployment Binary64) (calls : ι → Call Binary64) (q : Wiring)
    (allowed : Service ι κ → Op ι → Prop) (p : Party ι κ) (s : Service ι κ) (op : Op ι) (answer : Answer op)
    (s' : Service ι κ) : Prop :=
  Effect x calls q p s op answer s' ∧ allowed s op

/-- An operation, where a depth that is read is below the ceiling. -/
abbrev RoomyEffect (x : Deployment Binary64) (calls : ι → Call Binary64) (q : Wiring) :
    Party ι κ → Service ι κ → (op : Op ι) → Answer op → Service ι κ → Prop :=
  EffectWhere x calls q (Roomy q)

structure Unfilled (s : Service ι κ) : Prop where
  undropped : s.dropped = []
  admitted : ∀ p, s.stages p ≠ .full

omit [Spelling Binary64] [Folding] [Sealing] in
theorem unfilled_update {p : Party ι κ} {stage : Stage ι} (before : ∀ p, s.stages p ≠ .full)
    (own : stage ≠ .full) (p' : Party ι κ) : Function.update s.stages p stage p' ≠ .full := by
  by_cases mine : p' = p
  · subst mine
    rwa [Function.update_self]
  · rw [Function.update_of_ne mine]
    exact before p'

omit [Spelling Binary64] [Sealing] in
theorem Unfilled.step {p : Party ι κ} {op : Op ι} {answer : Answer op} {s' : Service ι κ}
    (unfilled : Unfilled s) (done : RoomyEffect x calls q p s op answer s') : Unfilled s' := by
  obtain ⟨undropped, admitted⟩ := unfilled
  obtain ⟨done, roomy⟩ := done
  cases done with
  | door done => exact ⟨undropped, admitted⟩
  | llen =>
      rw [if_neg (not_le.mpr (roomy rfl))]
      exact ⟨undropped, admitted⟩
  | rpush => exact ⟨undropped, unfilled_update admitted (by cases p <;> nofun)⟩
  | empty => exact ⟨undropped, admitted⟩
  | lpop => exact ⟨undropped, unfilled_update admitted nofun⟩
  | snapshotFor => exact ⟨undropped, admitted⟩
  | record taken =>
      split
      · refine ⟨undropped, unfilled_update admitted ?_⟩
        intro full
        have before := admitted p
        cases stands : s.stages p <;> simp_all [Stage.tell]
      · exact ⟨undropped, admitted⟩
  | countVerified => exact ⟨undropped, unfilled_update admitted nofun⟩

/-- Where every depth that is read is below the ceiling, every admitted item is kept. -/
theorem admitted_kept
    (run : Run (RoomyEffect x calls q) (opened x calls q batch clock nonces) w) :
    Keeps calls q w := by
  obtain ⟨invariant, sent, running⟩ := conserved (run.imp fun _ _ _ _ _ done => done.1)
  have unfilled : Unfilled w.shared :=
    run.keeps (fun _ _ _ _ _ unfilled done => unfilled.step done) ⟨rfl, nofun⟩
  have distinct := invariant.custody.distinct
  rw [Service.lying, List.nodup_append', List.nodup_append'] at distinct
  refine ⟨fun i admitted => ?_, running, distinct.1, distinct.2.1.1, fun i full => ?_⟩
  · exact invariant.kept (sent i admitted) (by simp [unfilled.undropped])
  · exact absurd full (unfilled.admitted _)

end Runs

/-! ## One call after another -/

section Building

variable {x} {allowed : Service ι κ → Op ι → Prop}

omit [Spelling Binary64] [Sealing]

/-- The state after the call has passed the gates and spent its nonce. -/
def Service.spends (x : Deployment Binary64) (calls : ι → Call Binary64) (s : Service ι κ) (i : ι)
    (reading : Int) : Service ι κ :=
  { s with
    exchange :=
      { clock := reading
        nonces := ((s.exchange.nonces.purgeExpired reading).consume (calls i).submission.key
          (nonceRetention x (calls i))).1
        queue := s.exchange.queue
        stages := Function.update (Function.update (Function.update s.exchange.stages i (.judged reading)) i
          (.swept reading)) i .spent
        spent := s.exchange.spent ++ [i] } }

theorem advances_door {op : External.Op Binary64} {answer : External.Answer op}
    {next : External.Answer op → Task ι Outcome} {exchange : Exchange Binary64 ι}
    (free : ∀ op : External.Op Binary64, ∀ s : Service ι κ, allowed s (.door op))
    (done : External.Effect x calls i s.exchange op answer exchange) :
    Advance (EffectWhere x calls q allowed) (.submission i) (s, .perform (.door op) next)
      ({ s with exchange }, next answer) :=
  .perform ⟨.door done, free _ _⟩

theorem spends (i : ι) (s : Service ι κ) (reading : Int) (f : Receipt → Task ι Outcome)
    (free : ∀ op : External.Op Binary64, ∀ s : Service ι κ, allowed s (.door op))
    (authentic : (calls i).authenticity.isEmpty = true) (later : s.exchange.clock ≤ reading)
    (passed : gates x (calls i) reading = none)
    (spendable : ((s.exchange.nonces.purgeExpired reading).consume (calls i).submission.key
      (nonceRetention x (calls i))).2 = .spendable) :
    Relation.ReflTransGen (Advance (EffectWhere x calls q allowed) (.submission i))
      (s, (submit q x calls i).bind f)
      (s.spends x calls i reading, ((handOn (calls i) .spendable).expand (carryOut q i)).bind f) := by
  rw [submit, receiveBid, if_pos authentic]
  refine .head (advances_door free (.now later)) ?_
  dsimp only [Program.expand, Program.bind]
  rw [passed, if_pos rfl]
  refine .head (advances_door free .purgeExpired) ?_
  exact .single (advances_door free (.spends spendable))

theorem appended (i : ι) (s : Service ι κ) (f : Receipt → Task ι Outcome)
    (room : (s.backlog.length : Int) < q.maxItems) (free : ∀ op, allowed s op) :
    Relation.ReflTransGen (Advance (EffectWhere x calls q allowed) (.submission i))
      (s, ((handOn (calls i) .spendable).expand (carryOut q i)).bind f)
      (s.appends (.submission i) i, f { accepted := true, reasons := [] }) := by
  have reads : EffectWhere x calls q allowed (.submission i) s .llen s.backlog.length _ :=
    ⟨.llen, free _⟩
  rw [if_neg (not_le.mpr room)] at reads
  refine .head (.perform reads) ?_
  dsimp only
  rw [if_neg (not_le.mpr room)]
  exact .single (.perform ⟨.rpush, free _⟩)

theorem turned_away (i : ι) (s : Service ι κ) (f : Receipt → Task ι Outcome)
    (full : q.maxItems ≤ s.backlog.length) (free : ∀ op, allowed s op) :
    Relation.ReflTransGen (Advance (EffectWhere x calls q allowed) (.submission i))
      (s, ((handOn (calls i) .spendable).expand (carryOut q i)).bind f)
      (s.turnsAway (.submission i), f (refuse [str "verification_queue_unavailable"])) := by
  have reads : EffectWhere x calls q allowed (.submission i) s .llen s.backlog.length _ :=
    ⟨.llen, free _⟩
  rw [if_pos full] at reads
  refine .head (.perform reads) ?_
  dsimp only
  rw [if_pos full]
  exact .refl

section Submissions

variable {w w' : Channel ι κ} {f : Receipt → Task ι Outcome} {reading : Int}

theorem runs_submission (run : Run (EffectWhere x calls q allowed) w w') (i : ι) (reading : Int)
    (due : w'.calls (.submission i) = (submit q x calls i).bind f)
    (free : ∀ op : External.Op Binary64, ∀ s : Service ι κ, allowed s (.door op))
    (authentic : (calls i).authenticity.isEmpty = true) (later : w'.shared.exchange.clock ≤ reading)
    (passed : gates x (calls i) reading = none)
    (spendable : ((w'.shared.exchange.nonces.purgeExpired reading).consume (calls i).submission.key
      (nonceRetention x (calls i))).2 = .spendable) {s : Service ι κ} {answer : Receipt}
    (rest : Relation.ReflTransGen (Advance (EffectWhere x calls q allowed) (.submission i))
      (w'.shared.spends x calls i reading, ((handOn (calls i) .spendable).expand (carryOut q i)).bind f)
      (s, f answer)) :
    Run (EffectWhere x calls q allowed) w ⟨s, Function.update w'.calls (.submission i) (f answer)⟩ := by
  have advances := (spends i w'.shared reading f free authentic later passed spendable).trans rest
  rw [← due] at advances
  exact run.trans (Solo.run _ (Solo.of_advances _ advances))

end Submissions

end Building
end Keeping

/-! ## A full queue -/

section Full

inductive Seller
  | first
  | second
  deriving DecidableEq

def offered : Seller → Call Binary64
  | .first => signed "first"
  | .second => signed "second"
where
  signed (nonce : String) : Call Binary64 :=
    { submission := { signerId := str "signer", keyId := str "key", nonce := str nonce,
                      issuedAt := .number (.integer 0), auctionId := str "auction", fields := [] }
      auctionKnown := true
      authenticity := []
      eligibility _ := [] }

def fresh : Deployment Binary64 where
  freshnessWindowSeconds := .number (.integer 300)
  deadline _ := .null

def single : Wiring where
  maxItems := 1
  recorder := true
  dimensions := some fun _ => none
  verifierVersion := .null
  decomposePitch _ _ _ _ := []

def epoch [Folding] [Spelling Binary64] [Sealing] : Channel Seller Unit :=
  opened fresh offered single (fun _ => 8) epochMicros { maxEntries := 8, consumed := [] }

/-- The item of the first is taken off the queue, verified and counted. -/
theorem first_kept :
    letI := Folding.ascii
    letI := Spelling.strings Binary64
    letI := Sealing.plain
    ∃ w, Run (RoomyEffect fresh offered single) epoch w ∧ Keeps offered single w := by
  let _ := Folding.ascii
  let _ := Spelling.strings Binary64
  let _ := Sealing.plain
  have start : Run (RoomyEffect fresh offered single) epoch epoch := .refl
  have admitted := runs_submission start .first epochMicros rfl (fun _ _ => nofun) rfl
    (by decide +kernel) (by decide +kernel) (by decide +kernel)
    (appended Seller.first _ _ (by decide) fun _ _ => by decide)
  have popped := admitted.tail ⟨.drain (), .perform rfl ⟨.lpop rfl, nofun⟩⟩
  have found := popped.tail ⟨.drain (), .perform rfl ⟨.snapshotFor (.object []), nofun⟩⟩
  have counted := found.tail ⟨.drain (), .perform rfl ⟨.countVerified, nofun⟩⟩
  exact ⟨_, counted, admitted_kept counted⟩

/-- The second is refused because the first has filled the queue, and its nonce is spent. -/
theorem second_spent :
    letI := Folding.ascii
    letI := Spelling.strings Binary64
    letI := Sealing.plain
    ¬ ∀ w, Run (Effect fresh offered single) epoch w → Keeps offered single w := by
  let _ := Folding.ascii
  let _ := Spelling.strings Binary64
  let _ := Sealing.plain
  let any : Service Seller Unit → Op Seller → Prop := fun _ _ => True
  have start : Run (EffectWhere fresh offered single any) epoch epoch := .refl
  have first := runs_submission start .first epochMicros rfl (fun _ _ => trivial) rfl (by decide)
    (by decide +kernel) (by decide +kernel) (appended Seller.first _ _ (by decide +kernel) fun _ => trivial)
  have second := runs_submission first .second epochMicros rfl (fun _ _ => trivial) rfl (by decide)
    (by decide +kernel) (by decide +kernel) (turned_away Seller.second _ _ (by decide +kernel) fun _ => trivial)
  intro keeps
  have unspent := (keeps _ (second.imp fun _ _ _ _ _ done => done.1)).unspent .second rfl
  revert unspent
  decide +kernel

end Full
end Proxyshop.External.Backlog
