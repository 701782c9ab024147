import Proxyshop.Merchant.History

/-!
# What stands on file

Every state on file was derived from the head its call had read, is not older than the state before
it, and is approved where it is active. This holds along every interleaving of the calls.
-/

namespace Proxyshop.Merchant

open Python Numbers Contracts Structures

section Histories

variable {F : Type} [Format F] [Shortest F]

/-- How a call of each verb comes from the head it read to the state it files. -/
inductive Derived : Verb → Option (Envelope F) → Envelope F → Prop
  | recorded (head : Option (Envelope F)) (e : Envelope F) : Derived .recorded head e
  | first {e : Envelope F} (version : e.version = firstVersion) (shadow : e.activation = .shadow) :
      Derived .put none e
  | edited {head e : Envelope F} (version : e.version = head.version + 1)
      (activation : e.activation = head.activation.edited) : Derived .put (some head) e
  | activated {head e : Envelope F} (terms : e.toTerms = head.toTerms)
      (unkilled : head.activation ≠ .killed) (active : e.activation = .active) :
      Derived .activated (some head) e
  | killed {head e : Envelope F} (terms : e.toTerms = head.toTerms) (killed : e.activation = .killed) :
      Derived .killed (some head) e
  | revived {head e : Envelope F} (terms : e.toTerms = head.toTerms)
      (killed : head.activation = .killed) (shadow : e.activation = .shadow) :
      Derived .revived (some head) e

structure Sound (verbs : Set Verb) (earlier : List (Filed F)) (f : Filed F) : Prop where
  newer : goesBackwards earlier f.envelope = false
  approved : Approved f.envelope
  derived : (f.origin = none ∧ ∀ g ∈ earlier, g.origin = none) ∨
    ∃ verb ∈ verbs, f.origin = some verb ∧ f.read ≤ earlier.length ∧
      Derived verb (current? (earlier.take f.read)) f.envelope

structure WellFiled (verbs : Set Verb) (storeId : Str) (history : List (Filed F)) : Prop where
  store : ∀ f ∈ history, f.envelope.storeId = storeId
  sound : ∀ earlier f, earlier ++ [f] <+: history → Sound verbs earlier f

omit [Format F] [Shortest F] in
theorem prefix_append_singleton {α : Type} {earlier history : List α} {f g : α} :
    earlier ++ [f] <+: history ++ [g] ↔ (earlier = history ∧ f = g) ∨ earlier ++ [f] <+: history := by
  rw [List.prefix_concat_iff]
  apply or_congr _ Iff.rfl
  constructor
  · intro same
    obtain ⟨left, right⟩ := List.append_inj' same rfl
    exact ⟨left, List.singleton_injective right⟩
  · intro same
    rw [same.1, same.2]

variable {verbs : Set Verb} {storeId : Str} {history : List (Filed F)}

theorem wellFiled_nil : WellFiled (F := F) verbs storeId [] where
  store _ member := absurd member List.not_mem_nil
  sound _ _ initial := absurd (List.prefix_nil.mp initial) (by simp)

theorem WellFiled.append (held : WellFiled verbs storeId history) {f : Filed F}
    (named : f.envelope.storeId = storeId) (sound : Sound verbs history f) :
    WellFiled verbs storeId (history ++ [f]) where
  store g member := by
    rcases List.mem_append.mp member with old | new
    · exact held.store g old
    · rw [List.mem_singleton.mp new]
      exact named
  sound earlier g initial := by
    rcases prefix_append_singleton.mp initial with ⟨rfl, rfl⟩ | old
    · exact sound
    · exact held.sound earlier g old

theorem WellFiled.of_prefix (held : WellFiled verbs storeId history) {earlier : List (Filed F)}
    (initial : earlier <+: history) : WellFiled verbs storeId earlier where
  store f member := held.store f (initial.subset member)
  sound older f shorter := held.sound older f (shorter.trans initial)

omit [Format F] [Shortest F] in
theorem current?_mem {e : Envelope F} (head : current? history = some e) :
    ∃ f ∈ history, f.envelope = e := by
  obtain ⟨f, last, rfl⟩ := Option.map_eq_some_iff.mp head
  exact ⟨f, List.mem_of_getLast? last, rfl⟩

theorem WellFiled.current_storeId (held : WellFiled verbs storeId history) {e : Envelope F}
    (head : current? history = some e) : e.storeId = storeId := by
  obtain ⟨f, member, rfl⟩ := current?_mem head
  exact held.store f member

end Histories

/-! ## Calls -/

section Calls

variable {F R ι : Type} [Format F] [Coercion F] [Shortest F] [EnvelopeRepository F R] [DecidableEq ι]

/-- The store whose history a call has read, and the states that were on file. -/
abbrev Mark (F : Type) := Option (Str × List (Filed F))

omit [Format F] [Coercion F] [Shortest F] [EnvelopeRepository F R] in
def HasRead (s : EnvelopeVersions F R) (mark : Mark F) : Prop :=
  ∀ storeId earlier, mark = some (storeId, earlier) → earlier <+: s.history storeId

omit [Coercion F] [EnvelopeRepository F R] in
/-- Every history is well filed, its loaded states are the ones of `loaded`, and a call has read the
beginning of a history. -/
structure Files (verbs : Set Verb) (loaded : Str → List (Filed F)) (s : EnvelopeVersions F R)
    (marks : ι → Mark F) : Prop where
  wellFiled : ∀ storeId, WellFiled verbs storeId (s.history storeId)
  origins : ∀ storeId, (s.history storeId).filter (·.origin.isNone) = loaded storeId
  read : ∀ i, HasRead s (marks i)

variable {verbs : Set Verb} {loaded : Str → List (Filed F)} {s : EnvelopeVersions F R}
  {marks : ι → Mark F}

omit [Format F] [Coercion F] [Shortest F] [DecidableEq ι] [EnvelopeRepository F R] in
theorem prefix_appended (history : Str → List (Filed F)) (f : Filed F) (storeId : Str) :
    history storeId <+: appended history f storeId := by
  by_cases same : storeId = f.envelope.storeId
  · subst same
    rw [appended, Function.update_self]
    exact List.prefix_append _ _
  · rw [appended, Function.update_of_ne same]

omit [Coercion F] [DecidableEq ι] [EnvelopeRepository F R] in
theorem Files.append (held : Files verbs loaded s marks) {f : Filed F} {repository : R}
    (called : f.origin.isNone = false) (sound : Sound verbs (s.history f.envelope.storeId) f) :
    Files verbs loaded { repository, history := appended s.history f } marks where
  wellFiled storeId := by
    by_cases same : storeId = f.envelope.storeId
    · subst same
      show WellFiled verbs _ (appended s.history f _)
      rw [appended, Function.update_self]
      exact (held.wellFiled _).append rfl sound
    · show WellFiled verbs _ (appended s.history f _)
      rw [appended, Function.update_of_ne same]
      exact held.wellFiled storeId
  origins storeId := by
    by_cases same : storeId = f.envelope.storeId
    · subst same
      show (appended s.history f _).filter _ = _
      rw [appended, Function.update_self, List.filter_append, held.origins,
        List.filter_cons_of_neg (by simp [called]), List.filter_nil, List.append_nil]
    · show (appended s.history f _).filter _ = _
      rw [appended, Function.update_of_ne same, held.origins]
  read i storeId earlier read :=
    (held.read i storeId earlier read).trans (prefix_appended s.history f storeId)

omit [Coercion F] [EnvelopeRepository F R] in
theorem Files.mark (held : Files verbs loaded s marks) {i : ι} {mark : Mark F} (read : HasRead s mark) :
    Files verbs loaded s (Function.update marks i mark) where
  wellFiled := held.wellFiled
  origins := held.origins
  read j := by
    by_cases same : j = i
    · subst same
      rwa [Function.update_self]
    · rw [Function.update_of_ne same]
      exact held.read j

abbrev UpholdsFiles (verbs : Set Verb) (loaded : Str → List (Filed F)) (i : ι) {A : Type} (p : Calling F A) (mark : Mark F) : Prop :=
  Upholds (fun _ : ι => Effect (F := F) (R := R)) (Files verbs loaded) i p mark fun _ _ => True

variable {i : ι} {mark : Mark F} {A B : Type}

omit [Coercion F] in
theorem upholds_attempt {x : Except EnvelopeError A} {f : A → Calling F B}
    (rest : ∀ a, x = .ok a → UpholdsFiles (R := R) verbs loaded i (f a) mark) :
    UpholdsFiles (R := R) verbs loaded i (attempt x >>= f) mark := by
  cases x with
  | error e => trivial
  | ok a => exact rest a rfl

omit [Coercion F] in
theorem upholds_historyOf {storeId : Str} {f : List (Filed F) → Calling F B}
    (rest : ∀ history, WellFiled verbs storeId history →
      UpholdsFiles (R := R) verbs loaded i (f history) (some (storeId, history))) :
    UpholdsFiles (R := R) verbs loaded i (historyOf storeId >>= f) mark := by
  intro s marks held own answer s' done
  cases done
  refine ⟨some (storeId, s.history storeId), held.mark ?_, rest _ (held.wellFiled storeId)⟩
  rintro _ _ ⟨⟩
  exact List.prefix_rfl

theorem recordAs_upholds {verb : Verb} {read : Nat} {e : Wire F} (served : verb ∈ verbs)
    (fits : ∀ s candidate, HasRead (R := R) s mark → Envelope.fromObj e .keep = .ok candidate →
      read ≤ (s.history candidate.storeId).length ∧
        Derived verb (current? ((s.history candidate.storeId).take read)) candidate) :
    UpholdsFiles (R := R) verbs loaded i (recordAs verb read e) mark := by
  refine upholds_attempt fun candidate made => upholds_attempt fun _ covered => ?_
  have approved := approved_of_refused (trimmed_of_resolved (Envelope.fromObj_eq_ok.mp made).1) covered
  intro s marks held own answer s' done
  have reads : HasRead s mark := own ▸ held.read i
  have unmoved : Files verbs loaded s (Function.update marks i mark) := held.mark reads
  cases done with
  | backwards older => exact ⟨mark, unmoved, trivial⟩
  | refused newer failed => exact ⟨mark, unmoved, trivial⟩
  | lost newer => exact ⟨mark, unmoved, trivial⟩
  | filed newer saved =>
      obtain ⟨enough, derived⟩ := fits s candidate reads made
      exact ⟨mark, unmoved.append rfl ⟨newer, approved, .inr ⟨verb, served, rfl, enough, derived⟩⟩,
        trivial⟩

theorem recordAs_upholds_of_read {verb : Verb} {storeId : Str} {history : List (Filed F)}
    {e : Envelope F} (served : verb ∈ verbs) (named : e.storeId = storeId)
    (derived : ∀ candidate : Envelope F, candidate.toTerms = e.toTerms →
      candidate.activation = e.activation → Derived verb (current? history) candidate) :
    UpholdsFiles (R := R) verbs loaded i (recordAs verb history.length e.toDict)
      (some (storeId, history)) := by
  apply recordAs_upholds served
  intro s candidate reads made
  obtain ⟨terms, activation⟩ := Envelope.fromObj_toDict made
  have store : candidate.storeId = storeId := by rw [← named, ← terms]
  have initial : history <+: s.history candidate.storeId := store ▸ reads storeId history rfl
  rw [← List.prefix_iff_eq_take.mp initial]
  exact ⟨initial.length_le, derived candidate terms activation⟩

theorem record_upholds {e : Wire F} (served : Verb.recorded ∈ verbs) :
    UpholdsFiles (R := R) verbs loaded i (record e) mark :=
  recordAs_upholds served fun _ candidate _ _ => ⟨Nat.zero_le _, .recorded _ candidate⟩

omit [Coercion F] in
theorem upholds_current {storeId : Str} {f : Envelope F × Nat → Calling F B}
    (rest : ∀ history head, WellFiled verbs storeId history → current? history = some head →
      UpholdsFiles (R := R) verbs loaded i (f (head, history.length)) (some (storeId, history))) :
    UpholdsFiles (R := R) verbs loaded i (current storeId >>= f) mark := by
  apply upholds_historyOf
  intro history held
  dsimp only [Program.bind]
  cases head : current? history with
  | none => trivial
  | some e => exact rest history e held head

theorem activate_upholds {storeId : Str} {approval : Wire F} (served : Verb.activated ∈ verbs) :
    UpholdsFiles (R := R) verbs loaded i (activate storeId approval) mark := by
  apply upholds_current
  intro history head held found
  apply upholds_attempt
  intro active made
  obtain ⟨terms, unkilled, activation⟩ := activateEnvelope_eq_ok made
  apply recordAs_upholds_of_read served
  · rw [terms]
    exact held.current_storeId found
  · intro candidate kept activated
    rw [found]
    exact .activated (kept.trans terms) unkilled (activated.trans activation)

theorem kill_upholds {storeId : Str} (served : Verb.killed ∈ verbs) :
    UpholdsFiles (R := R) verbs loaded i (kill storeId) mark := by
  apply upholds_current
  intro history head held found
  apply upholds_attempt
  intro killed made
  obtain ⟨terms, activation⟩ := killEnvelope_eq_ok made
  apply recordAs_upholds_of_read served
  · rw [terms]
    exact held.current_storeId found
  · intro candidate kept stopped
    rw [found]
    exact .killed (kept.trans terms) (stopped.trans activation)

theorem revive_upholds {storeId : Str} (served : Verb.revived ∈ verbs) :
    UpholdsFiles (R := R) verbs loaded i (revive storeId) mark := by
  apply upholds_current
  intro history head held found
  apply upholds_attempt
  intro revived made
  obtain ⟨terms, killed, activation⟩ := reviveEnvelope_eq_ok made
  apply recordAs_upholds_of_read served
  · rw [terms]
    exact held.current_storeId found
  · intro candidate kept lifted
    rw [found]
    exact .revived (kept.trans terms) killed (lifted.trans activation)

theorem put_upholds {storeId : Str} {terms : Wire F} (served : Verb.put ∈ verbs) :
    UpholdsFiles (R := R) verbs loaded i (put storeId terms) mark := by
  apply upholds_attempt
  intro submitted read
  split
  · trivial
  · rename_i named
    rw [not_not] at named
    apply upholds_historyOf
    intro history held
    apply upholds_attempt
    intro next made
    cases head : current? history with
    | none =>
        rw [head] at made
        obtain ⟨store, version, activation⟩ := firstEnvelope_eq_ok made
        apply recordAs_upholds_of_read served (store.trans named)
        intro candidate kept activated
        rw [head]
        exact .first (by rw [← version, ← kept]) (activated.trans activation)
    | some e =>
        rw [head] at made
        obtain ⟨store, version, activation⟩ := editEnvelope_eq_ok made
        apply recordAs_upholds_of_read served
        · rw [store]
          exact held.current_storeId head
        · intro candidate kept activated
          rw [head]
          exact .edited (by rw [← version, ← kept]) (activated.trans activation)

theorem Calls.upholds {verb : Verb} {call : Call F} (called : Calls verb call) (served : verb ∈ verbs) :
    UpholdsFiles (R := R) verbs loaded i call mark := by
  cases called with
  | record e => exact record_upholds served
  | put storeId terms => exact put_upholds served
  | activate storeId approval => exact activate_upholds served
  | kill storeId => exact kill_upholds served
  | revive storeId => exact revive_upholds served

/-! ## Runs -/

/-- The loaded states of one store, each of which comes from a state that the repository returned. -/
structure Restored (verbs : Set Verb) (stored : List (Envelope F)) (storeId : Str)
    (history : List (Filed F)) : Prop where
  wellFiled : WellFiled verbs storeId history
  origin : ∀ f ∈ history, f.origin = none
  returned : ∀ f ∈ history, ∃ e ∈ stored, e.toTerms = f.envelope.toTerms

omit [DecidableEq ι] [EnvelopeRepository F R] in
theorem restoreOne_eq_ok {history history' : Str → List (Filed F)} {e : Envelope F}
    (made : restoreOne history e = .ok history') :
    ∃ f : Filed F, history' = appended history f ∧ f.origin = none ∧
      f.envelope.toTerms = e.toTerms ∧ Approved f.envelope ∧
      goesBackwards (history f.envelope.storeId) f.envelope = false := by
  obtain ⟨read, validated, made⟩ := bind_eq_ok.mp made
  obtain ⟨candidate, brought, made⟩ := bind_eq_ok.mp made
  obtain ⟨_, covered, made⟩ := bind_eq_ok.mp made
  have trimmed := restorable_trimmed brought
    (trimmed_of_resolved (Envelope.fromObj_eq_ok.mp validated).1)
  split at made
  · cases made
  · rename_i newer
    cases made
    exact ⟨_, rfl, rfl, (restorable_toTerms brought).trans (Envelope.fromObj_toDict validated).1,
      approved_of_refused trimmed covered, Bool.eq_false_of_not_eq_true newer⟩

omit [DecidableEq ι] [EnvelopeRepository F R] in
theorem restoreOne_keeps {stored : List (Envelope F)} {history history' : Str → List (Filed F)}
    {e : Envelope F} (member : e ∈ stored)
    (held : ∀ storeId, Restored verbs stored storeId (history storeId))
    (made : restoreOne history e = .ok history') (storeId : Str) :
    Restored verbs stored storeId (history' storeId) := by
  obtain ⟨f, rfl, origin, terms, approved, newer⟩ := restoreOne_eq_ok made
  by_cases same : storeId = f.envelope.storeId
  · subst same
    rw [appended, Function.update_self]
    have before := held f.envelope.storeId
    refine ⟨before.wellFiled.append rfl ⟨newer, approved, .inl ⟨origin, before.origin⟩⟩, ?_, ?_⟩
    · intro g listed
      rcases List.mem_append.mp listed with old | new
      · exact before.origin g old
      · rw [List.mem_singleton.mp new, origin]
    · intro g listed
      rcases List.mem_append.mp listed with old | new
      · exact before.returned g old
      · rw [List.mem_singleton.mp new]
        exact ⟨e, member, terms.symm⟩
  · rw [appended, Function.update_of_ne same]
    exact held storeId

theorem opened_eq_ok {repository : R} (boot : EnvelopeVersions.opened repository = .ok s) :
    ∃ stored, EnvelopeRepository.load repository = .ok stored ∧ s.repository = repository ∧
      stored.foldlM restoreOne (fun _ => []) = .ok s.history := by
  obtain ⟨stored, read, made⟩ := bind_eq_ok.mp boot
  obtain ⟨history, walked, made⟩ := bind_eq_ok.mp made
  cases made
  exact ⟨stored, read, rfl, walked⟩

theorem restored_of_walked {stored : List (Envelope F)} {history : Str → List (Filed F)}
    (walked : stored.foldlM restoreOne (fun _ => []) = .ok history) (storeId : Str) :
    Restored verbs stored storeId (history storeId) := by
  have empty (storeId : Str) : Restored verbs stored storeId ([] : List (Filed F)) :=
    ⟨wellFiled_nil, fun _ member => absurd member List.not_mem_nil,
      fun _ member => absurd member List.not_mem_nil⟩
  exact foldlM_keeps (fun history : Str → List (Filed F) => ∀ storeId,
      Restored verbs stored storeId (history storeId))
    empty (fun _ e member _ held => restoreOne_keeps member held) walked storeId

omit [DecidableEq ι] in
theorem opened_files {repository : R} (boot : EnvelopeVersions.opened repository = .ok s) :
    Files verbs s.history s fun _ : ι => none where
  wellFiled storeId := by
    obtain ⟨stored, -, -, walked⟩ := opened_eq_ok boot
    exact (restored_of_walked walked storeId).wellFiled
  origins storeId := by
    obtain ⟨stored, -, -, walked⟩ := opened_eq_ok boot
    have restored : Restored verbs stored storeId _ := restored_of_walked walked storeId
    exact List.filter_eq_self.mpr fun f member => by rw [restored.origin f member]; rfl
  read _ _ _ read := nomatch read

/-- A process that has opened its repository, and calls of these verbs that are about to begin. -/
def Begins (verbs : Set Verb) (w : Callers F R ι) : Prop :=
  (∃ repository, EnvelopeVersions.opened repository = .ok w.shared) ∧
    ∀ i, ∃ verb ∈ verbs, Calls verb (w.calls i)

abbrev Runs (w w' : Callers F R ι) : Prop := Run (fun _ : ι => Effect (F := F) (R := R)) w w'

omit [Format F] [Coercion F] [Shortest F] in
theorem Runs.reads {w w' : Callers F R ι} (run : Runs w w') (i : ι) {storeId : Str}
    {next : List (Filed F) → Call F} (due : w'.calls i = .perform (.head storeId) next) :
    Runs w ⟨w'.shared, Function.update w'.calls i (next (w'.shared.history storeId))⟩ :=
  run.tail ⟨i, .perform due (.head _ _)⟩

omit [Format F] [Coercion F] [Shortest F] in
theorem Runs.files {w w' : Callers F R ι} (run : Runs w w') (i : ι) {filed : Filed F}
    {next : Except EnvelopeError Unit → Call F} {repository : R}
    (due : w'.calls i = .perform (.file filed) next)
    (newer : goesBackwards (w'.shared.history filed.envelope.storeId) filed.envelope = false)
    (saved : EnvelopeRepository.persist w'.shared.repository filed.envelope = .ok repository) :
    Runs w ⟨{ repository, history := appended w'.shared.history filed },
      Function.update w'.calls i (next (.ok ()))⟩ :=
  run.tail ⟨i, .perform due (.filed newer saved)⟩

abbrev StandsFiles (verbs : Set Verb) (loaded : Str → List (Filed F)) (w : Callers F R ι)
    (marks : ι → Mark F) : Prop :=
  Stands (fun _ : ι => Effect (F := F) (R := R)) (Files verbs loaded) (fun _ _ _ => True) w marks

theorem opened_stands {w : Callers F R ι} {repository : R}
    (boot : EnvelopeVersions.opened repository = .ok w.shared)
    (called : ∀ i, ∃ verb ∈ verbs, Calls verb (w.calls i)) :
    StandsFiles verbs w.shared.history w fun _ => none := by
  refine ⟨opened_files boot, fun i => ?_⟩
  obtain ⟨verb, served, call⟩ := called i
  exact call.upholds served

theorem Begins.files {w w' : Callers F R ι} (begins : Begins verbs w) (run : Runs w w') (storeId : Str) :
    WellFiled verbs storeId (w'.shared.history storeId) := by
  obtain ⟨⟨repository, boot⟩, called⟩ := begins
  obtain ⟨marks, held, -⟩ := (opened_stands boot called).run run
  exact held.wellFiled storeId

end Calls
end Proxyshop.Merchant
