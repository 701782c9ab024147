import Proxyshop.Merchant.Filings

/-!
# The kill switch

A kill stands until a revive that began after it is on file. A call that read the history before the
kill can file over it, and that is the only way a kill is lifted early.
-/

namespace Proxyshop.Merchant

open Python Numbers Contracts Structures

section Switch

variable {F : Type} [Format F] [Shortest F]

omit [Format F] [Shortest F] in
def Stopped (history : List (Filed F)) : Prop :=
  ∃ (k : Nat) (f : Filed F), history[k]? = some f ∧ f.origin = some .killed ∧
    ∀ (j : Nat) (g : Filed F), k < j → history[j]? = some g → g.origin = some .revived → g.read ≤ k

omit [Format F] [Shortest F] in
def Halted (history : List (Filed F)) : Prop :=
  (∃ head, current? history = some head ∧ head.activation = .killed) ∧ isLive history = false

omit [Format F] [Shortest F] in
/-- Where the store is stopped, a state that is not killed comes from a call that read the history
after every kill. -/
def Timely (earlier : List (Filed F)) (f : Filed F) : Prop :=
  Stopped earlier → f.envelope.activation ≠ .killed →
    ∀ (k : Nat) (g : Filed F), earlier[k]? = some g → g.origin = some .killed → k < f.read

variable {verbs : Set Verb} {storeId : Str} {history : List (Filed F)} {f : Filed F}

omit [Format F] [Shortest F] in
@[simp] theorem current?_append : current? (history ++ [f]) = some f.envelope := by
  simp [current?]

omit [Format F] [Shortest F] in
theorem halted_append : Halted (history ++ [f]) ↔ f.envelope.activation = .killed := by
  constructor
  · rintro ⟨⟨head, found, killed⟩, -⟩
    rw [current?_append] at found
    cases found
    exact killed
  · intro killed
    refine ⟨⟨f.envelope, current?_append, killed⟩, ?_⟩
    rw [isLive, current?_append, Option.any_some, Envelope.isLive, killed]
    rfl

omit [Format F] [Shortest F] in
theorem Stopped.append_of_read (stopped : Stopped history) {k : Nat} {g : Filed F}
    (landed : history[k]? = some g) (killed : g.origin = some .killed) (before : f.read ≤ k) :
    Stopped (history ++ [f]) := by
  obtain ⟨k₀, g₀, landed₀, killed₀, unlifted⟩ := stopped
  -- the later of the two kills is one that nothing has lifted
  have latest : ∃ (m : Nat) (h : Filed F), history[m]? = some h ∧ h.origin = some .killed ∧ k₀ ≤ m ∧ k ≤ m := by
    rcases Nat.le_total k₀ k with le | le
    · exact ⟨k, g, landed, killed, le, Nat.le_refl k⟩
    · exact ⟨k₀, g₀, landed₀, killed₀, Nat.le_refl k₀, le⟩
  obtain ⟨m, h, landed, killed, above, below⟩ := latest
  have short : m < history.length := (List.getElem?_eq_some_iff.mp landed).1
  refine ⟨m, h, by rw [List.getElem?_append_left short, landed], killed, ?_⟩
  intro j g later found revived
  by_cases old : j < history.length
  · rw [List.getElem?_append_left old] at found
    exact (unlifted j g (above.trans_lt later) found revived).trans above
  · rw [List.getElem?_append_right (Nat.le_of_not_lt old), List.getElem?_singleton] at found
    split at found
    · cases found
      exact before.trans below
    · cases found

omit [Format F] [Shortest F] in
theorem current?_take {n : Nat} {g : Filed F} (found : history[n]? = some g) :
    current? (history.take (n + 1)) = some g.envelope := by
  rw [current?, List.getLast?_take, if_neg n.succ_ne_zero, Nat.add_sub_cancel, found]
  rfl

omit [Format F] [Shortest F] in
theorem take_append_prefix {j : Nat} (found : history[j]? = some f) :
    history.take j ++ [f] <+: history := by
  rw [← Option.toList_some, ← found, ← List.take_add_one]
  exact List.take_prefix _ _

omit [Format F] [Shortest F] in
theorem Derived.killed_of_kill {head : Option (Envelope F)} {e : Envelope F}
    (derived : Derived .killed head e) : e.activation = .killed := by
  cases derived with
  | killed terms killed => exact killed

omit [Format F] [Shortest F] in
theorem Derived.stays_killed {verb : Verb} {head e : Envelope F} (derived : Derived verb (some head) e)
    (killed : head.activation = .killed) (raw : verb ≠ .recorded) (lifting : verb ≠ .revived) :
    e.activation = .killed := by
  cases derived with
  | recorded => exact absurd rfl raw
  | edited version activation => rw [activation, killed, Activation.edited]
  | activated terms unkilled active => exact absurd killed unkilled
  | killed terms killed => exact killed
  | revived terms killed shadow => exact absurd rfl lifting

theorem killed_since (held : WellFiled verbs storeId history) (raw : Verb.recorded ∉ verbs)
    (timely : ∀ earlier f, earlier ++ [f] <+: history → Timely earlier f) {k : Nat} {kill : Filed F}
    (landed : history[k]? = some kill) (killed : kill.origin = some .killed)
    (unlifted : ∀ (j : Nat) (g : Filed F), k < j → history[j]? = some g → g.origin = some .revived →
      g.read ≤ k) (j : Nat) (since : k ≤ j) (g : Filed F) (found : history[j]? = some g) :
    g.envelope.activation = .killed := by
  induction j using Nat.strong_induction_on generalizing g with
  | _ j ih =>
      have initial := take_append_prefix found
      have short : j < history.length := (List.getElem?_eq_some_iff.mp found).1
      have origin := (held.sound _ g initial).derived
      rcases since.eq_or_lt with rfl | later
      · obtain rfl : kill = g := Option.some.inj (landed.symm.trans found)
        rw [killed] at origin
        rcases origin with ⟨loaded, -⟩ | ⟨verb, -, called, -, derived⟩
        · cases loaded
        · cases called
          exact derived.killed_of_kill
      · have landed' : (history.take j)[k]? = some kill := by
          rw [List.getElem?_take, if_pos later, landed]
        by_contra unkilled
        rcases origin with ⟨-, loaded⟩ | ⟨verb, served, called, enough, derived⟩
        · have first := loaded kill (List.mem_of_getElem? landed')
          rw [killed] at first
          cases first
        · have stopped : Stopped (history.take j) := by
            refine ⟨k, kill, landed', killed, fun i h after listed => unlifted i h after ?_⟩
            rw [List.getElem?_take] at listed
            exact (Option.ite_none_right_eq_some.mp listed).2
          have began := timely _ g initial stopped unkilled k kill landed' killed
          -- the head that the call read was filed at the kill or after it
          obtain ⟨n, counted⟩ := Nat.exists_eq_add_one_of_ne_zero (Nat.ne_of_gt (Nat.zero_lt_of_lt began))
          rw [counted, List.length_take, min_eq_left short.le] at enough
          have read : history[n]? = some history[n] := List.getElem?_eq_getElem (by omega)
          have head := ih n (by omega) (by omega) _ read
          rw [counted, List.take_take, min_eq_left enough, current?_take read] at derived
          refine unkilled (derived.stays_killed head (fun same => raw (same ▸ served)) fun revived => ?_)
          have early := unlifted j g later found (revived ▸ called)
          omega

theorem WellFiled.stopped_iff (held : WellFiled verbs storeId history) (raw : Verb.recorded ∉ verbs) :
    (∀ earlier, earlier <+: history → Stopped earlier → Halted earlier) ↔
      ∀ earlier f, earlier ++ [f] <+: history → Timely earlier f := by
  constructor
  · intro lawful earlier f initial stopped unkilled k g landed killed
    by_contra early
    exact unkilled (halted_append.mp (lawful _ initial
      (stopped.append_of_read landed killed (Nat.le_of_not_lt early))))
  · intro timely earlier initial ⟨k, kill, landed, killed, unlifted⟩
    have short : k < earlier.length := (List.getElem?_eq_some_iff.mp landed).1
    rcases List.eq_nil_or_concat earlier with rfl | ⟨older, f, rfl⟩
    · cases short
    · rw [List.concat_eq_append] at *
      apply halted_append.mpr
      exact killed_since (held.of_prefix initial) raw
        (fun older f shorter => timely older f (shorter.trans initial)) landed killed unlifted
        older.length (by simpa using Nat.lt_succ_iff.mp (by simpa using short)) f (by simp)

end Switch

section Runs

variable {F R ι : Type} [Format F] [Coercion F] [Shortest F] [EnvelopeRepository F R] [DecidableEq ι]

/-- The calls that change an envelope through its lifecycle. -/
def transitions : Set Verb := {.put, .activated, .killed, .revived}

end Runs

/-! ## An edit in flight -/

def plainTerms (budgetCap : Int) : Wire ℚ :=
  .object [(str "store_id", .string (str "store")), (str "version", .number (.integer 1)),
    (str "floors", .array []), (str "max_discount_pct", .number (.integer 20)),
    (str "budget_cap", .number (.integer budgetCap)), (str "pursue_clusters", .array []),
    (str "standing_commitments", .array []), (str "activation", .string (str "shadow"))]

inductive Caller
  | opens
  | edits
  | kills
  deriving DecidableEq

/-- A store is opened; then its terms are edited and it is killed. -/
def race : Callers ℚ (InMemory ℚ) Caller where
  shared := { repository := ⟨[]⟩, history := fun _ => [] }
  calls
    | .opens => put (str "store") (plainTerms 500)
    | .edits => put (str "store") (plainTerms 600)
    | .kills => kill (str "store")

theorem race_begins : Begins transitions race := by
  refine ⟨⟨⟨[]⟩, rfl⟩, fun i => ?_⟩
  cases i with
  | opens => exact ⟨.put, by simp [transitions], .put _ _⟩
  | edits => exact ⟨.put, by simp [transitions], .put _ _⟩
  | kills => exact ⟨.killed, by simp [transitions], .kill _⟩

theorem race_runs : ∃ w, Runs race w ∧ Stopped (w.shared.history (str "store")) ∧
    ¬ Halted (w.shared.history (str "store")) := by
  have start : Runs race race := .refl
  have opened := (start.reads .opens (by with_unfolding_all rfl)).files .opens
    (by with_unfolding_all rfl) (by with_unfolding_all rfl) rfl
  have both := (opened.reads .edits (by with_unfolding_all rfl)).reads .kills
    (by with_unfolding_all rfl)
  have killed := both.files .kills (by with_unfolding_all rfl) (by with_unfolding_all rfl) rfl
  have lifted := killed.files .edits (by with_unfolding_all rfl) (by with_unfolding_all rfl) rfl
  refine ⟨_, lifted, ?_, ?_⟩
  · refine ⟨1, _, rfl, rfl, ?_⟩
    rintro (_ | _ | _ | j) g later found revived
    · omega
    · omega
    · cases found
      cases revived
    · cases found
  · rintro ⟨⟨head, found, killed⟩, -⟩
    cases found
    cases killed

end Proxyshop.Merchant
