import Proxyshop.Merchant.Kill

/-!
# One version, one set of terms

The versions of a history never decrease and an active state is approved, whatever the calls do. That
a version number names one set of terms is up to the two calls that bring terms of their own.
-/

namespace Proxyshop.Merchant

open Python Numbers Contracts Structures

/-! ## The bidding gate -/

structure BiddingDecision where
  storeId : Str
  activation : Activation
  version : Option Int
  mayBid : Bool
  reason : Str

def reasonFor (activation : Activation) : Str :=
  if activation = .active then str "the store's current envelope is active"
  else if activation = .shadow then
    str "the store's current envelope is in shadow and has not been approved live"
  else str "the store's current envelope is '" ++ activation.text ++ str "'"

/-- `_decide`. -/
def biddingDecision {F : Type} (storeId : Str) (history : List (Filed F)) : BiddingDecision :=
  match current? history with
  | none =>
      { storeId, activation := .shadow, version := none, mayBid := false,
        reason := str "no envelope has ever been recorded for this store" }
  | some envelope =>
      { storeId, activation := envelope.activation, version := some envelope.version,
        mayBid := envelope.isLive, reason := reasonFor envelope.activation }

def storeMayBid {F : Type} (storeId : Str) (history : List (Filed F)) : Bool :=
  (biddingDecision storeId history).mayBid

theorem storeMayBid_iff {F : Type} {storeId : Str} {history : List (Filed F)} :
    storeMayBid storeId history = true ↔
      ∃ head, current? history = some head ∧ head.activation = .active := by
  unfold storeMayBid biddingDecision
  cases current? history with
  | none => simp
  | some head => simp [Envelope.isLive]

/-! ## One history -/

section Histories

variable {F : Type}

def VersionsAgree (states : List (Filed F)) : Prop :=
  ∀ f ∈ states, ∀ g ∈ states, f.envelope.version = g.envelope.version →
    f.envelope.toTerms = g.envelope.toTerms

/-- The versions never decrease, a version names one set of terms, and a live state is approved. -/
structure Consistent [Format F] [Shortest F] (storeId : Str) (history : List (Filed F)) : Prop where
  ordered : history.Pairwise fun f g => f.envelope.version ≤ g.envelope.version
  agree : VersionsAgree history
  approved : ∀ f ∈ history, Approved f.envelope
  bids : storeMayBid storeId history = true →
    ∃ head, current? history = some head ∧ head.activation = .active ∧ Approved head

/-- A call that brings terms of its own does not file them under the version of the head, unless the
head has the same terms. -/
def KeepsTerms (earlier : List (Filed F)) (f : Filed F) : Prop :=
  f.origin = some .put ∨ f.origin = some .recorded → ∀ head, current? earlier = some head →
    head.version = f.envelope.version → head.toTerms = f.envelope.toTerms

theorem le_current {history : List (Filed F)}
    (ordered : history.Pairwise fun f g => f.envelope.version ≤ g.envelope.version)
    {head : Envelope F} (found : current? history = some head) {f : Filed F} (member : f ∈ history) :
    f.envelope.version ≤ head.version := by
  rcases List.eq_nil_or_concat history with rfl | ⟨earlier, last, rfl⟩
  · cases member
  · rw [List.concat_eq_append] at *
    rw [current?_append] at found
    cases found
    rcases List.mem_append.mp member with old | new
    · exact (List.pairwise_append.mp ordered).2.2 f old last List.mem_cons_self
    · rw [List.mem_singleton.mp new]

theorem goesBackwards_eq_false {history : List (Filed F)} {e : Envelope F} :
    goesBackwards history e = false ↔ ∀ head, current? history = some head → head.version ≤ e.version := by
  unfold goesBackwards
  cases current? history with
  | none => simp
  | some head => simp

variable [Format F] [Shortest F] {verbs : Set Verb} {storeId : Str} {history : List (Filed F)}

theorem WellFiled.ordered (held : WellFiled verbs storeId history) :
    history.Pairwise fun f g => f.envelope.version ≤ g.envelope.version := by
  induction history using List.reverseRecOn with
  | nil => exact List.Pairwise.nil
  | append_singleton earlier f ih =>
      have before := ih (held.of_prefix (List.prefix_append _ _))
      have newer := (held.sound earlier f List.prefix_rfl).newer
      refine List.pairwise_append.mpr ⟨before, List.pairwise_singleton _ _, fun g member h new => ?_⟩
      rw [List.mem_singleton.mp new]
      cases found : current? earlier with
      | none =>
          rw [current?, Option.map_eq_none_iff, List.getLast?_eq_none_iff] at found
          rw [found] at member
          cases member
      | some head =>
          exact (le_current before found member).trans (goesBackwards_eq_false.mp newer head found)

omit [Format F] [Shortest F] in
theorem Derived.terms_on_file {verb : Verb} {read : Option (Envelope F)} {e : Envelope F}
    (derived : Derived verb read e) (put : verb ≠ .put) (recorded : verb ≠ .recorded) :
    ∃ head, read = some head ∧ e.toTerms = head.toTerms := by
  cases derived with
  | recorded => exact absurd rfl recorded
  | first version shadow => exact absurd rfl put
  | edited version activation => exact absurd rfl put
  | activated terms unkilled active => exact ⟨_, rfl, terms⟩
  | killed terms killed => exact ⟨_, rfl, terms⟩
  | revived terms killed shadow => exact ⟨_, rfl, terms⟩

theorem WellFiled.versionsAgree (held : WellFiled verbs storeId history)
    (loaded : VersionsAgree (history.filter (·.origin.isNone)))
    (keeps : ∀ earlier f, earlier ++ [f] <+: history → KeepsTerms earlier f) :
    VersionsAgree history := by
  induction history using List.reverseRecOn with
  | nil => exact fun _ member => absurd member List.not_mem_nil
  | append_singleton earlier f ih =>
      have initial : earlier <+: earlier ++ [f] := List.prefix_append _ _
      have agree := ih (held.of_prefix initial)
        (fun g member h member' => loaded g ((List.Sublist.filter _ initial.sublist).subset member) h
          ((List.Sublist.filter _ initial.sublist).subset member'))
        (fun older g shorter => keeps older g (shorter.trans initial))
      have sound := held.sound earlier f List.prefix_rfl
      -- the new state against each of the earlier ones
      have fresh : ∀ g ∈ earlier, g.envelope.version = f.envelope.version →
          g.envelope.toTerms = f.envelope.toTerms := by
        intro g member same
        rcases sound.derived with ⟨origin, origins⟩ | ⟨verb, -, called, -, derived⟩
        · apply loaded g _ f _ same
          · rw [List.mem_filter, origins g member]
            exact ⟨List.mem_append_left _ member, rfl⟩
          · rw [List.mem_filter, origin]
            exact ⟨List.mem_append_right _ List.mem_cons_self, rfl⟩
        · by_cases lifecycle : verb ≠ .put ∧ verb ≠ .recorded
          · obtain ⟨head, read, terms⟩ := derived.terms_on_file lifecycle.1 lifecycle.2
            obtain ⟨h, listed, rfl⟩ := current?_mem read
            rw [terms] at same ⊢
            exact agree g member h (List.mem_of_mem_take listed) same
          · have own : f.origin = some .put ∨ f.origin = some .recorded := by
              rw [called, Option.some.injEq, Option.some.injEq]
              tauto
            cases found : current? earlier with
            | none =>
                rw [current?, Option.map_eq_none_iff, List.getLast?_eq_none_iff] at found
                rw [found] at member
                cases member
            | some head =>
                have below := le_current (held.of_prefix initial).ordered found member
                have above := goesBackwards_eq_false.mp sound.newer head found
                have level : head.version = f.envelope.version := by omega
                rw [← keeps earlier f List.prefix_rfl own head found level]
                obtain ⟨last, listed, rfl⟩ := current?_mem found
                exact agree g member last listed (same.trans level.symm)
      intro g member h member' same
      rcases List.mem_append.mp member with old | new <;>
        rcases List.mem_append.mp member' with old' | new'
      · exact agree g old h old' same
      · obtain rfl := List.mem_singleton.mp new'
        exact fresh g old same
      · obtain rfl := List.mem_singleton.mp new
        exact (fresh h old' same.symm).symm
      · rw [List.mem_singleton.mp new, List.mem_singleton.mp new']

theorem WellFiled.consistent (held : WellFiled verbs storeId history)
    (agree : VersionsAgree history) : Consistent storeId history := by
  have approved : ∀ f ∈ history, Approved f.envelope := by
    intro f member
    obtain ⟨earlier, later, rfl⟩ := List.append_of_mem member
    exact (held.sound earlier f ⟨later, by simp⟩).approved
  refine ⟨held.ordered, agree, approved, fun bids => ?_⟩
  obtain ⟨head, found, active⟩ := storeMayBid_iff.mp bids
  obtain ⟨f, member, rfl⟩ := current?_mem found
  exact ⟨_, found, active, approved f member⟩

theorem Consistent.keepsTerms (consistent : Consistent storeId history) {earlier : List (Filed F)}
    {f : Filed F} (initial : earlier ++ [f] <+: history) : KeepsTerms earlier f := by
  intro _ head found same
  obtain ⟨last, member, rfl⟩ := current?_mem found
  exact consistent.agree last (initial.subset (List.mem_append_left _ member)) f
    (initial.subset (List.mem_append_right _ List.mem_cons_self)) same

end Histories

/-! ## Many lives -/

section Lives

variable {F R ι : Type} [Format F] [Coercion F] [Shortest F] [EnvelopeRepository F R] [DecidableEq ι]

open EnvelopeRepository

omit [Coercion F] [DecidableEq ι] in
def OneTermsOnFile (r : R) : Prop :=
  ∀ t t' : Terms F, OnFile r t → OnFile r t' → t.storeId = t'.storeId → t.version = t'.version → t = t'

/-- The worlds that a service passes, the latest first. A process may end at any time, and the next one
opens the repository that it left. -/
inductive Lives (first : R) : List (Callers F R ι) → Prop
  | opened {w : Callers F R ι} (boot : EnvelopeVersions.opened first = .ok w.shared)
      (called : ∀ i, ∃ verb, Calls verb (w.calls i)) : Lives first [w]
  | step {w w' : Callers F R ι} {past : List (Callers F R ι)} {i : ι} (lives : Lives first (w :: past))
      (step : Step (fun _ : ι => Effect (F := F) (R := R)) i w w') : Lives first (w' :: w :: past)
  | reopened {w w' : Callers F R ι} {past : List (Callers F R ι)} (lives : Lives first (w :: past))
      (boot : EnvelopeVersions.opened w.shared.repository = .ok w'.shared)
      (called : ∀ i, ∃ verb, Calls verb (w'.calls i)) : Lives first (w' :: w :: past)

omit [Coercion F] in
/-- What the repository would read back is what it made of the states on file. -/
def Mirrors (s : EnvelopeVersions F R) : Prop :=
  ∀ t, OnFile s.repository t →
    ∃ f ∈ s.history t.storeId, f.envelope.version = t.version ∧ kept R f.envelope.toTerms = t

omit [EnvelopeRepository F R] [DecidableEq ι] in
theorem mem_of_walked {stored : List (Envelope F)} {history history' : Str → List (Filed F)}
    (walked : stored.foldlM restoreOne history = .ok history') :
    (∀ storeId, history storeId <+: history' storeId) ∧
      ∀ e ∈ stored, ∃ f ∈ history' e.storeId, f.envelope.toTerms = e.toTerms := by
  induction stored generalizing history with
  | nil =>
      cases walked
      exact ⟨fun _ => List.prefix_rfl, fun _ member => absurd member List.not_mem_nil⟩
  | cons e stored ih =>
      rw [List.foldlM_cons] at walked
      obtain ⟨next, first, rest⟩ := bind_eq_ok.mp walked
      obtain ⟨f, rfl, -, terms, -, -⟩ := restoreOne_eq_ok first
      obtain ⟨grown, listed⟩ := ih rest
      refine ⟨fun storeId => (prefix_appended history f storeId).trans (grown storeId), ?_⟩
      intro e' member
      rcases List.mem_cons.mp member with rfl | later
      · refine ⟨f, (grown e'.storeId).subset ?_, terms⟩
        rw [← terms, appended, Function.update_self]
        exact List.mem_append_right _ List.mem_cons_self
      · exact listed e' later

omit [DecidableEq ι] in
theorem opened_mirrors {repository : R} {s : EnvelopeVersions F R}
    (boot : EnvelopeVersions.opened repository = .ok s) : Mirrors s := by
  obtain ⟨stored, read, rfl, walked⟩ := opened_eq_ok boot
  intro t held
  obtain ⟨e, member, rfl⟩ := (onFile_iff read).mp held
  obtain ⟨f, listed, terms⟩ := (mem_of_walked walked).2 e member
  refine ⟨f, listed, by rw [← terms], ?_⟩
  rw [terms, kept_of_onFile held]

omit [DecidableEq ι] in
theorem opened_agree {repository : R} {s : EnvelopeVersions F R}
    (onFile : OneTermsOnFile (F := F) repository) (boot : EnvelopeVersions.opened repository = .ok s)
    (storeId : Str) : VersionsAgree (s.history storeId) := by
  obtain ⟨stored, read, -, walked⟩ := opened_eq_ok boot
  have restored : Restored Set.univ stored storeId _ := restored_of_walked walked storeId
  have held (f : Filed F) (member : f ∈ s.history storeId) : OnFile repository f.envelope.toTerms := by
    obtain ⟨e, listed, terms⟩ := restored.returned f member
    exact (onFile_iff read).mpr ⟨e, listed, terms⟩
  intro f member g member' same
  refine onFile _ _ (held f member) (held g member') ?_ same
  rw [restored.wellFiled.store f member, restored.wellFiled.store g member']

omit [Format F] [Coercion F] [Shortest F] [DecidableEq ι] in
theorem Mirrors.oneTerms {s : EnvelopeVersions F R} (mirrors : Mirrors s)
    (agree : ∀ storeId, VersionsAgree (s.history storeId)) :
    OneTermsOnFile (F := F) s.repository := by
  intro t t' held held' store version
  obtain ⟨f, member, numbered, rfl⟩ := mirrors t held
  obtain ⟨g, member', numbered', rfl⟩ := mirrors t' held'
  rw [store] at member
  rw [agree _ f member g member' (numbered.trans (version.trans numbered'.symm))]

omit [Format F] [Coercion F] [Shortest F] [DecidableEq ι] in
theorem Mirrors.step {s s' : EnvelopeVersions F R} {op : Operation F} {answer : Answer op}
    (mirrors : Mirrors s) (effect : Effect s op answer s') : Mirrors s' := by
  cases effect with
  | head => exact mirrors
  | backwards => exact mirrors
  | refused => exact mirrors
  | lost => exact mirrors
  | filed newer saved =>
      rename_i filed repository
      intro t held
      rcases onFile_of_persist saved held with old | rfl
      · obtain ⟨f, member, same⟩ := mirrors t old
        exact ⟨f, (prefix_appended s.history filed _).subset member, same⟩
      · refine ⟨filed, ?_, (kept_version _).symm, rfl⟩
        show filed ∈ appended s.history filed _
        rw [kept_storeId, appended, Function.update_self]
        exact List.mem_append_right _ List.mem_cons_self

/-- The calls stand where they should, the loaded versions agree, and the repository mirrors the file. -/
structure Kept (w : Callers F R ι) : Prop where
  stands : ∃ loaded marks, StandsFiles Set.univ loaded w marks ∧ ∀ storeId, VersionsAgree (loaded storeId)
  mirrors : Mirrors w.shared

/-- In every history, the calls that bring terms keep to the terms of the version. -/
def AllKeepTerms (w : Callers F R ι) : Prop :=
  ∀ storeId earlier f, earlier ++ [f] <+: w.shared.history storeId → KeepsTerms earlier f

def AllConsistent (w : Callers F R ι) : Prop :=
  ∀ storeId, Consistent storeId (w.shared.history storeId)

omit [Coercion F] in
theorem Kept.consistent {w : Callers F R ι} (kept : Kept w) (keeps : AllKeepTerms w) :
    AllConsistent w := by
  intro storeId
  obtain ⟨loaded, marks, ⟨held, -⟩, agree⟩ := kept.stands
  have filed := held.wellFiled storeId
  refine filed.consistent (filed.versionsAgree ?_ (keeps storeId))
  rw [held.origins]
  exact agree storeId

theorem kept_of_opened {w : Callers F R ι} {repository : R}
    (onFile : OneTermsOnFile (F := F) repository)
    (boot : EnvelopeVersions.opened repository = .ok w.shared)
    (called : ∀ i, ∃ verb, Calls verb (w.calls i)) : Kept w where
  stands := ⟨w.shared.history, fun _ => none,
    opened_stands boot fun i => (called i).imp fun _ call => ⟨trivial, call⟩, opened_agree onFile boot⟩
  mirrors := opened_mirrors boot

omit [Coercion F] in
theorem Kept.step {w w' : Callers F R ι} {i : ι} (kept : Kept w)
    (step : Step (fun _ : ι => Effect (F := F) (R := R)) i w w') : Kept w' where
  stands := by
    obtain ⟨loaded, marks, stands, agree⟩ := kept.stands
    obtain ⟨mark, stands⟩ := stands.step step
    exact ⟨loaded, _, stands, agree⟩
  mirrors := by
    cases step with
    | perform due done => exact kept.mirrors.step done

def LatestKept : List (Callers F R ι) → Prop
  | [] => True
  | w :: _ => Kept w

theorem Lives.consistent {first : R} {worlds : List (Callers F R ι)} (lives : Lives first worlds)
    (onFile : OneTermsOnFile (F := F) first) (keeps : ∀ w ∈ worlds, AllKeepTerms w) :
    LatestKept worlds ∧ ∀ w ∈ worlds, AllConsistent w := by
  induction lives with
  | opened boot called =>
      have kept := kept_of_opened onFile boot called
      refine ⟨kept, fun v member => ?_⟩
      obtain rfl := List.mem_singleton.mp member
      exact kept.consistent (keeps _ member)
  | step lives step ih =>
      obtain ⟨kept, consistent⟩ := ih fun v member => keeps v (List.mem_cons_of_mem _ member)
      have kept' := Kept.step kept step
      exact ⟨kept', List.forall_mem_cons.mpr
        ⟨kept'.consistent (keeps _ List.mem_cons_self), consistent⟩⟩
  | reopened lives boot called ih =>
      obtain ⟨kept, consistent⟩ := ih fun v member => keeps v (List.mem_cons_of_mem _ member)
      have agree storeId := (consistent _ List.mem_cons_self storeId).agree
      have kept' := kept_of_opened ((Kept.mirrors kept).oneTerms agree) boot called
      exact ⟨kept', List.forall_mem_cons.mpr
        ⟨kept'.consistent (keeps _ List.mem_cons_self), consistent⟩⟩

theorem Lives.oneTermsOnFile {first : R} {worlds : List (Callers F R ι)} (lives : Lives first worlds)
    (consistent : ∀ w ∈ worlds, AllConsistent w) : OneTermsOnFile (F := F) first := by
  induction lives with
  | opened boot called =>
      obtain ⟨_, -, rfl, -⟩ := opened_eq_ok boot
      exact (opened_mirrors boot).oneTerms fun storeId =>
        (consistent _ List.mem_cons_self storeId).agree
  | step lives step ih => exact ih fun w member => consistent w (List.mem_cons_of_mem _ member)
  | reopened lives boot called ih =>
      exact ih fun w member => consistent w (List.mem_cons_of_mem _ member)

theorem Lives.of_runs {first : R} {w w' : Callers F R ι} {past : List (Callers F R ι)}
    (lives : Lives first (w :: past)) (run : Runs w w') : ∃ past', Lives first (w' :: past') := by
  induction run with
  | refl => exact ⟨past, lives⟩
  | tail _ step ih =>
      obtain ⟨past', before⟩ := ih
      obtain ⟨i, step⟩ := step
      exact ⟨_, before.step step⟩

end Lives

/-! ## Two first envelopes -/

theorem race_opens_twice : ∃ (past : List (Callers ℚ (InMemory ℚ) Caller)) (w : _), Lives (⟨[]⟩ : InMemory ℚ) (w :: past) ∧
    ¬ VersionsAgree (w.shared.history (str "store")) := by
  have start : Runs race race := .refl
  have both := (start.reads .opens (by with_unfolding_all rfl)).reads .edits
    (by with_unfolding_all rfl)
  have opened := both.files .opens (by with_unfolding_all rfl) (by with_unfolding_all rfl) rfl
  have again := opened.files .edits (by with_unfolding_all rfl) (by with_unfolding_all rfl) rfl
  have life : Lives (⟨[]⟩ : InMemory ℚ) [race] :=
    .opened rfl fun i => (race_begins.2 i).imp fun _ call => call.2
  obtain ⟨past, lives⟩ := life.of_runs again
  refine ⟨past, _, lives, fun agree => ?_⟩
  have terms := agree _ List.mem_cons_self _ (List.mem_cons_of_mem _ List.mem_cons_self) rfl
  have caps : Extended.finite (500 : ℚ) = .finite 600 := congrArg Terms.budgetCap terms
  exact absurd (Extended.finite.inj caps) (by norm_num)

end Proxyshop.Merchant
