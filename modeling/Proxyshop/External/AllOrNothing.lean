import Proxyshop.External.Caller

/-!
# The door is all or nothing

Whatever the caller's objects answer, a submission is refused without a trace in the replay memory and
the queue, or the one document that was authenticated and approved is queued and its nonce is spent.
-/

namespace Proxyshop.External.Caller

open Python Numbers Contracts Structures Program

/-! ## Reads -/

section Reads

variable {F L S : Type}

def IsRead : Op F L → Prop
  | .purgeExpired _ => False
  | .consume _ _ => False
  | .enqueue _ => False
  | _ => True

/-- The memory and the queue are as they were, and what was read is still on record. -/
structure Quietly (s s' : Scene F L S) : Prop where
  nonces : s'.nonces = s.nonces
  queue : s'.queue = s.queue
  handed : s'.handed = s.handed
  trace : ∀ event ∈ s.trace, event ∈ s'.trace

theorem Quietly.refl (s : Scene F L S) : Quietly s s := ⟨rfl, rfl, rfl, fun _ => id⟩

theorem Quietly.trans {a b c : Scene F L S} (first : Quietly a b) (second : Quietly b c) : Quietly a c where
  nonces := second.nonces.trans first.nonces
  queue := second.queue.trans first.queue
  handed := second.handed.trans first.handed
  trace event member := second.trace event (first.trace event member)

variable {caller : (op : Op F L) → S → Answer op × S}

theorem quietly_answer (op : Op F L) (reading : IsRead op) (s : Scene F L S) :
    Quietly s (answer caller op s).2 := by
  have recorded (event) (member : event ∈ s.trace) (last : Σ op : Op F L, Answer op) :
      event ∈ s.trace ++ [last] := List.mem_append_left _ member
  cases op with
  | purgeExpired moment => exact reading.elim
  | consume key retention => exact reading.elim
  | enqueue item => exact reading.elim
  | _ => exact ⟨rfl, rfl, rfl, fun event member => recorded event member _⟩

theorem quietly_of_only {E A : Type} {p : Program (Op F L) Answer E A} (only : p.Only IsRead)
    (s : Scene F L S) : p.Ends (answer caller) s fun _ s' => Quietly s s' :=
  only.keeps Quietly.refl Quietly.trans quietly_answer s

end Reads

/-! ## Gates that only read -/

section Reading

variable {F L : Type} [Leaves L]

omit [Leaves L] in
theorem only_ask (op : Op F L) (reading : IsRead op) : (ask op).Only IsRead :=
  ⟨reading, fun found => by cases found <;> trivial⟩

omit [Leaves L] in
theorem only_attempt (op : Op F L) (reading : IsRead op) : (attempt op).Only IsRead :=
  ⟨reading, fun found => by cases found <;> trivial⟩

omit [Leaves L] in
theorem only_require (passed : Bool) (reason : Str) (named : Named L) :
    (require passed reason named : Gate F L Unit).Only IsRead := by
  unfold require
  split <;> trivial

omit [Leaves L] in
theorem only_plainEntries {copy : Reading L → Gate F L (Plain L)} (only : ∀ reading, (copy reading).Only IsRead)
    (object : Nat) (keys : List Key) : (plainEntries copy object keys).Only IsRead := by
  induction keys with
  | nil => trivial
  | cons key keys ih =>
      exact (only_ask (.get object key) trivial).bind fun reading => (only reading).bind fun value => ih.bind fun _ => trivial

omit [Leaves L] in
theorem only_plainItems {copy : Reading L → Gate F L (Plain L)} (only : ∀ reading, (copy reading).Only IsRead)
    (readings : List (Reading L)) : (plainItems copy readings).Only IsRead := by
  induction readings with
  | nil => trivial
  | cons reading readings ih => exact (only reading).bind fun value => ih.bind fun _ => trivial

theorem only_plain (levels : Nat) (reading : Reading L) : (plain levels reading : Gate F L _).Only IsRead := by
  induction levels generalizing reading with
  | zero =>
      cases reading with
      | leaf x =>
          rw [plain]
          split <;> trivial
      | _ => trivial
  | succ levels ih =>
      cases reading with
      | leaf x => trivial
      | mapping object =>
          exact (only_ask (.keys object) trivial).bind fun keys => (only_plainEntries ih object keys).bind fun _ => trivial
      | sequence object =>
          exact (only_ask (.items object) trivial).bind fun readings => (only_plainItems ih readings).bind fun _ => trivial

theorem only_submitted (signature : Option Str) : (submitted signature : Gate F L _).Only IsRead := by
  refine (only_ask .isMapping trivial).bind fun mapping => (only_require ..).bind fun _ => (only_require ..).bind fun _ =>
    (only_attempt .canonicalise trivial).bind fun canonical => (only_require ..).bind fun _ => Only.handle ?_ fun _ => trivial
  exact (only_ask (.keys 0) trivial).bind fun keys =>
    (only_plainEntries (only_plain _) 0 keys).bind fun _ => trivial

omit [Leaves L] in
theorem only_keyringSecret (signerId keyId : Str) : (keyringSecret signerId keyId : Gate F L _).Only IsRead := by
  refine (only_attempt (.signerKeys signerId) trivial).bind fun found => ?_
  match found with
  | some (some object) => exact (only_attempt (.secret object keyId) trivial).bind fun _ => trivial
  | some none => trivial
  | none => trivial

theorem only_namedText {E : Type} (name : Str) :
    (namedText name : Program (Op F L) Answer E (Option Str)).Only IsRead := by
  refine ⟨trivial, fun found => ?_⟩
  match found with
  | .ok (.leaf x) => trivial
  | .ok (.mapping object) => trivial
  | .ok (.sequence object) => trivial
  | .error e => trivial

theorem only_refusal {E : Type} (reasons : List Str) (named : Named L) :
    (refusal reasons named : Program (Op F L) Answer E Receipt).Only IsRead := by
  cases named with
  | caller => exact (only_namedText _).bind fun _ => (only_namedText _).bind fun _ => trivial
  | _ => trivial

end Reading
/-! ## What is on record -/

section Records

variable {F L S : Type} {caller : (op : Op F L) → S → Answer op × S} {s : Scene F L S}

def Recorded (trace : List (Σ op : Op F L, Answer op)) (op : Op F L) (found : Found op) : Prop :=
  ⟨op, .ok found⟩ ∈ trace

theorem Quietly.recorded {s' : Scene F L S} (quiet : Quietly s s') {op : Op F L} {found : Found op}
    (recorded : Recorded s.trace op found) : Recorded s'.trace op found := quiet.trace _ recorded

theorem ask_ends (op : Op F L) (reading : IsRead op) : (ask op).Ends (answer caller) s fun outcome s' =>
    Quietly s s' ∧ ∀ found, outcome = .ok found → Recorded s'.trace op found := by
  refine ⟨quietly_of_only (only_ask op reading) s, ?_⟩
  have last : (⟨op, (answer caller op s).1⟩ : Σ op : Op F L, Answer op) ∈ (answer caller op s).2.trace :=
    List.mem_append_right _ List.mem_cons_self
  unfold ask Program.exec
  generalize answer caller op s = done at last ⊢
  obtain ⟨e | found, s'⟩ := done
  · exact fun _ absurd => nomatch absurd
  · rintro _ ⟨⟩
    exact last

theorem attempt_ends (op : Op F L) (reading : IsRead op) : (attempt op).Ends (answer caller) s fun outcome s' =>
    Quietly s s' ∧ ∀ found, outcome = .ok (some found) → Recorded s'.trace op found := by
  refine ⟨quietly_of_only (only_attempt op reading) s, ?_⟩
  have last : (⟨op, (answer caller op s).1⟩ : Σ op : Op F L, Answer op) ∈ (answer caller op s).2.trace :=
    List.mem_append_right _ List.mem_cons_self
  unfold attempt Program.exec
  generalize answer caller op s = done at last ⊢
  obtain ⟨e | found, s'⟩ := done
  · exact fun _ absurd => nomatch absurd
  · rintro _ ⟨⟩
    exact last

/-- The secret that the keyring holds for a signer and a key. -/
def Selected (trace : List (Σ op : Op F L, Answer op)) (signerId keyId secret : Str) : Prop :=
  secret ≠ [] ∧ ∃ object, Recorded trace (.signerKeys signerId) (some object) ∧
    Recorded trace (.secret object keyId) (some secret)

theorem keyringSecret_ends (signerId keyId : Str) :
    (keyringSecret signerId keyId).Ends (answer caller) s fun outcome s' =>
      Quietly s s' ∧ ∀ secret, outcome = .ok (some secret) → Selected s'.trace signerId keyId secret := by
  refine ⟨quietly_of_only (only_keyringSecret signerId keyId) s, ?_⟩
  show (keyringSecret signerId keyId).Ends (answer caller) s fun outcome (s' : Scene F L S) =>
    ∀ secret, outcome = .ok (some secret) → Selected s'.trace signerId keyId secret
  refine Ends.bind ((attempt_ends (.signerKeys signerId) trivial).imp ?_)
  rintro (e | _ | _ | object) s₁ ⟨-, keys⟩
  · exact fun _ absurd => nomatch absurd
  · exact fun _ absurd => nomatch absurd
  · exact fun _ absurd => nomatch absurd
  · refine Ends.bind ((attempt_ends (.secret object keyId) trivial).imp ?_)
    rintro (e | _ | _ | found) s₂ ⟨quiet, secrets⟩
    · exact fun _ absurd => nomatch absurd
    · exact fun _ absurd => nomatch absurd
    · exact fun _ absurd => nomatch absurd
    · intro secret selected
      obtain ⟨same, filled⟩ := Option.filter_eq_some_iff.mp (Except.ok.inj selected)
      cases same
      refine ⟨fun empty => ?_, object, quiet.recorded (keys _ rfl), secrets _ rfl⟩
      rw [empty] at filled
      cases filled

end Records
/-! ## What the gates have established -/

section Passing

variable {F L S : Type} [Leaves L] [Signing L] {caller : (op : Op F L) → S → Answer op × S}
  {s : Scene F L S}

/-- The document is what its hash, its bytes and its ids are taken of. -/
structure Anchors (a : Anchored L) : Prop where
  bytes : Signing.bytes a.document = some a.bytes
  digest : Signing.payloadHash a.document = some a.digest
  signerId : a.document.textAt (str "signer_id") = some a.signerId
  keyId : a.document.textAt (str "key_id") = some a.keyId
  nonce : a.document.textAt (str "nonce") = some a.nonce

/-- The signature is the keyed hash of the document under the one secret that was selected. -/
def Authentic (trace : List (Σ op : Op F L, Answer op)) (a : Anchored L) (signature : Str) : Prop :=
  ∃ secret, Selected trace a.signerId a.keyId secret ∧ Signing.hmac L secret a.bytes = signature

/-- The blacklist was read, and names neither the store nor the signer. -/
def Unblocked (trace : List (Σ op : Op F L, Answer op)) (d : Document L) : Prop :=
  ∃ blocked, Recorded trace .blacklist blocked ∧ ∀ entries, blocked = some entries → ∀ entry ∈ entries,
    entry.isSome = true ∧ d.textAt (str "store_id") ≠ entry ∧ d.textAt (str "signer_id") ≠ entry

def Approved (trace : List (Σ op : Op F L, Answer op)) (submission : Document L) (indexes : List Nat) : Prop :=
  ∃ row evaluatedAt verdict, Recorded trace (.validate submission row evaluatedAt) verdict ∧
    verdict.ok = true ∧ verdict.unverifiedClaimIndexes = indexes

omit [Leaves L] [Signing L] in
theorem Selected.mono {trace trace' : List (Σ op : Op F L, Answer op)}
    (kept : ∀ event ∈ trace, event ∈ trace') {signerId keyId secret : Str}
    (selected : Selected trace signerId keyId secret) : Selected trace' signerId keyId secret := by
  obtain ⟨filled, object, keys, found⟩ := selected
  exact ⟨filled, object, kept _ keys, kept _ found⟩

theorem anchor_ends (d : Document L) : (anchor d : Gate F L _).Ends (answer caller) s fun outcome s' =>
    s' = s ∧ ∀ a, outcome = .ok a → a.document = d ∧ Anchors a := by
  unfold anchor
  split
  · rename_i bytes digest signerId keyId nonce
    refine ⟨rfl, ?_⟩
    rintro _ ⟨⟩
    exact ⟨rfl, bytes, digest, signerId, keyId, nonce⟩
  · exact ⟨rfl, fun _ absurd => nomatch absurd⟩

omit [Leaves L] [Signing L] in
theorem require_ends (passed : Bool) (reason : Str) (named : Named L) :
    (require passed reason named : Gate F L Unit).Ends (answer caller) s fun outcome s' =>
      s' = s ∧ (outcome = .ok () → passed = true) := by
  unfold require
  split
  · rename_i passed
    exact ⟨rfl, fun _ => passed⟩
  · exact ⟨rfl, fun absurd => nomatch absurd⟩

omit [Leaves L] in
theorem verify_ends (a : Anchored L) (signature : Str) : (verify a signature).Ends (answer caller) s fun outcome s' =>
    Quietly s s' ∧ (outcome = .ok () → Authentic s'.trace a signature) := by
  refine Ends.bind ((keyringSecret_ends a.signerId a.keyId).imp ?_)
  rintro (e | _ | secret) s₁ ⟨quiet, selected⟩
  · exact ⟨quiet, fun absurd => nomatch absurd⟩
  · exact ⟨quiet, fun absurd => nomatch absurd⟩
  · refine (require_ends _ _ _).imp ?_
    rintro outcome s₂ ⟨rfl, passed⟩
    exact ⟨quiet, fun ok => ⟨secret, selected secret rfl, of_decide_eq_true (passed ok)⟩⟩

omit [Signing L] in
theorem blacklisted_eq_false {d : Document L} {found : Option (Option (List (Option Str)))}
    (clear : blacklisted d found = false) : ∃ blocked, found = some blocked ∧
      ∀ entries, blocked = some entries → ∀ entry ∈ entries,
        entry.isSome = true ∧ d.textAt (str "store_id") ≠ entry ∧ d.textAt (str "signer_id") ≠ entry := by
  match found with
  | none => cases clear
  | some none => exact ⟨none, rfl, nofun⟩
  | some (some entries) =>
      refine ⟨some entries, rfl, ?_⟩
      rintro _ ⟨⟩ entry member
      have named := List.any_eq_false.mp clear entry member
      simp only [Bool.or_eq_true, decide_eq_true_eq, not_or, Option.isNone_iff_eq_none] at named
      exact ⟨Option.isSome_iff_ne_none.mpr named.1.1, named.1.2, named.2⟩

omit [Signing L] in
theorem eligible_ends (a : Anchored L) (signature : Str) (evaluatedAt : Int) :
    (eligible a signature evaluatedAt).Ends (answer caller) s fun outcome s' =>
      Quietly s s' ∧ ∀ indexes, outcome = .ok indexes →
        Unblocked s'.trace a.document ∧ Approved s'.trace (a.document.signed signature) indexes := by
  refine Ends.bind ((attempt_ends .blacklist trivial).imp ?_)
  rintro (e | found) s₁ ⟨quiet, listed⟩
  · exact ⟨quiet, fun _ absurd => nomatch absurd⟩
  refine Ends.bind ((require_ends _ _ _).imp ?_)
  rintro (e | ⟨⟩) s₂ ⟨rfl, clear⟩
  · exact ⟨quiet, fun _ absurd => nomatch absurd⟩
  obtain ⟨blocked, rfl, unnamed⟩ := blacklisted_eq_false ((Bool.not_eq_true' _).mp (clear rfl))
  refine Ends.bind ((attempt_ends (.trustRow _) trivial).imp ?_)
  rintro (e | row) s₃ ⟨quiet', -⟩
  · exact ⟨quiet.trans quiet', fun _ absurd => nomatch absurd⟩
  refine Ends.bind ((ask_ends (.validate _ _ evaluatedAt) trivial).imp ?_)
  rintro (e | verdict) s₄ ⟨quiet'', judged⟩
  · exact ⟨(quiet.trans quiet').trans quiet'', fun _ absurd => nomatch absurd⟩
  have quietly := (quiet.trans quiet').trans quiet''
  dsimp only
  split
  · rename_i approved
    refine ⟨quietly, ?_⟩
    rintro _ ⟨⟩
    exact ⟨⟨blocked, (quiet'.trans quiet'').recorded (listed _ rfl), unnamed⟩,
      ⟨_, evaluatedAt, verdict, judged _ rfl, approved, rfl⟩⟩
  · exact ⟨quietly, fun _ absurd => nomatch absurd⟩

variable [Format F] [Unicode]

omit [Signing L] in
theorem only_inTime (a : Anchored L) : (inTime a : Gate F L _).Only IsRead := by
  refine (only_ask .now trivial).bind fun evaluatedAt => (only_ask .freshnessWindow trivial).bind fun window =>
    (only_ask .auctionDeadline trivial).bind fun deadline => ?_
  dsimp only
  split <;> trivial

/-- What holds of a submission that has passed every gate before the sixth. -/
structure Passed (trace : List (Σ op : Op F L, Answer op)) (a : Anchored L) (signature : Str)
    (indexes : List Nat) : Prop where
  anchors : Anchors a
  authentic : Authentic trace a signature
  unblocked : Unblocked trace a.document
  approved : Approved trace (a.document.signed signature) indexes

omit [Format F] [Unicode] in
theorem Passed.mono {trace trace' : List (Σ op : Op F L, Answer op)}
    (kept : ∀ event ∈ trace, event ∈ trace') {a : Anchored L} {signature : Str} {indexes : List Nat}
    (passed : Passed trace a signature indexes) : Passed trace' a signature indexes := by
  obtain ⟨anchors, ⟨secret, selected, keyed⟩, ⟨blocked, listed, unnamed⟩,
    ⟨row, evaluatedAt, verdict, judged, approved⟩⟩ := passed
  exact ⟨anchors, ⟨secret, selected.mono kept, keyed⟩, ⟨blocked, kept _ listed, unnamed⟩,
    ⟨row, evaluatedAt, verdict, kept _ judged, approved⟩⟩

theorem gates_ends (signature : Option Str) : (gates signature).Ends (answer caller) s fun outcome s' =>
    Quietly s s' ∧ ∀ a time indexes, outcome = .ok (a, time, indexes) →
      Passed s'.trace a (signature.getD []) indexes := by
  refine Ends.bind ((quietly_of_only (only_submitted signature) s).imp ?_)
  rintro (e | d) s₁ quiet
  · exact ⟨quiet, fun _ _ _ absurd => nomatch absurd⟩
  refine Ends.bind ((anchor_ends d).imp ?_)
  rintro (e | a) s₂ ⟨rfl, anchors⟩
  · exact ⟨quiet, fun _ _ _ absurd => nomatch absurd⟩
  refine Ends.bind ((verify_ends a _).imp ?_)
  rintro (e | ⟨⟩) s₃ ⟨quiet₃, authentic⟩
  · exact ⟨quiet.trans quiet₃, fun _ _ _ absurd => nomatch absurd⟩
  refine Ends.bind ((quietly_of_only (only_inTime a) s₃).imp ?_)
  rintro (e | time) s₄ quiet₄
  · exact ⟨(quiet.trans quiet₃).trans quiet₄, fun _ _ _ absurd => nomatch absurd⟩
  refine Ends.bind ((eligible_ends a _ time.1).imp ?_)
  rintro (e | indexes) s₅ ⟨quiet₅, eligible⟩
  · exact ⟨((quiet.trans quiet₃).trans quiet₄).trans quiet₅, fun _ _ _ absurd => nomatch absurd⟩
  refine ⟨((quiet.trans quiet₃).trans quiet₄).trans quiet₅, ?_⟩
  rintro _ _ _ ⟨⟩
  obtain ⟨secret, selected, keyed⟩ := authentic rfl
  obtain ⟨unblocked, approved⟩ := eligible indexes rfl
  exact ⟨(anchors a rfl).2, ⟨secret, selected.mono (quiet₄.trans quiet₅).trace, keyed⟩, unblocked, approved⟩

end Passing

/-! ## The sixth gate -/

section Admitting

variable {F L S : Type} [Leaves L] {caller : (op : Op F L) → S → Answer op × S}

/-- Nothing was handed to the queue, and no nonce is spent that was not. -/
structure Untouched (s s' : Scene F L S) : Prop where
  queue : s'.queue = s.queue
  handed : s'.handed = s.handed
  nonces : ∀ pair ∈ Dict.keys s'.nonces.consumed, pair ∈ Dict.keys s.nonces.consumed

omit [Leaves L] in
theorem Quietly.untouched {s s' : Scene F L S} (quiet : Quietly s s') : Untouched s s' :=
  ⟨quiet.queue, quiet.handed, fun _ member => quiet.nonces ▸ member⟩

/-- The nonce of the document is the one that is spent, and the item the one that is handed on. -/
structure HandedOn (s s' : Scene F L S) (a : Anchored L) (item : WorkItem L) : Prop where
  unspent : ∃ moment, (a.signerId, a.nonce) ∉ Dict.keys (s.nonces.purgeExpired moment).consumed ∧
    Dict.keys s'.nonces.consumed = Dict.keys (s.nonces.purgeExpired moment).consumed ++ [(a.signerId, a.nonce)]
  handed : s'.handed = s.handed ++ [item]
  trace : ∀ event ∈ s.trace, event ∈ s'.trace

inductive Admission (s : Scene F L S) (a : Anchored L) (signature : Str) (indexes : List Nat) :
    Except (Stop L) Receipt → Scene F L S → Prop
  | refused {stop : Stop L} {s' : Scene F L S} (untouched : Untouched s s') :
      Admission s a signature indexes (.error stop) s'
  | untaken {stop : Stop L} {s' : Scene F L S} (queue : s'.queue = s.queue)
      (handed : HandedOn s s' a (workItem a.document signature a.digest indexes)) :
      Admission s a signature indexes (.error stop) s'
  | accepted {receipt : Receipt} {s' : Scene F L S} (accepts : receipt.accepted = true)
      (queue : s'.queue = s.queue ++ [workItem a.document signature a.digest indexes])
      (handed : HandedOn s s' a (workItem a.document signature a.digest indexes)) :
      Admission s a signature indexes (.ok receipt) s'

omit [Leaves L] in
theorem keys_purgeExpired (store : NonceStore) (moment : Int) :
    ∀ pair ∈ Dict.keys (store.purgeExpired moment).consumed, pair ∈ Dict.keys store.consumed := by
  intro pair member
  obtain ⟨entry, kept, rfl⟩ := List.mem_map.mp member
  exact List.mem_map_of_mem (List.mem_filter.mp kept).1

theorem consume_spendable {store : NonceStore} {key : Str × Str} {retention : Option Int}
    (spendable : (store.consume key retention).2 = .spendable) : key ∉ Dict.keys store.consumed ∧
      Dict.keys (store.consume key retention).1.consumed = Dict.keys store.consumed ++ [key] := by
  unfold NonceStore.consume at spendable ⊢
  split at spendable
  · cases spendable
  · rename_i fresh
    have unspent : key ∉ Dict.keys store.consumed := by rwa [← Dict.contains_iff]
    split at spendable
    · cases spendable
    · rename_i room
      rw [if_neg fresh, if_neg room]
      refine ⟨unspent, ?_⟩
      show Dict.keys (Dict.set store.consumed key retention) = _
      rw [Dict.set_of_not_mem unspent, Dict.keys, List.map_append]
      rfl

theorem consume_unspendable {store : NonceStore} {key : Str × Str} {retention : Option Int}
    (unspendable : (store.consume key retention).2 ≠ .spendable) :
    (store.consume key retention).1 = store := by
  unfold NonceStore.consume at unspendable ⊢
  split
  · rfl
  · split
    · rfl
    · rename_i fresh room
      rw [if_neg fresh, if_neg room] at unspendable
      exact absurd rfl unspendable

omit [Leaves L] in
theorem sweep_ends (s : Scene F L S) (moment : Int) :
    (ask (.purgeExpired moment) : Gate F L Unit).Ends (answer caller) s fun outcome s' =>
      s'.queue = s.queue ∧ s'.handed = s.handed ∧ (∀ event ∈ s.trace, event ∈ s'.trace) ∧
        ((∃ stop, outcome = .error stop ∧ s'.nonces = s.nonces) ∨
          outcome = .ok () ∧ s'.nonces = s.nonces.purgeExpired moment) := by
  have recorded (event) (member : event ∈ s.trace) (last : Σ op : Op F L, Answer op) :
      event ∈ s.trace ++ [last] := List.mem_append_left _ member
  unfold ask Program.Ends Program.exec answer
  obtain ⟨said, own⟩ := caller (.purgeExpired moment) s.own
  cases said with
  | error e => exact ⟨rfl, rfl, fun event member => recorded event member _, .inl ⟨_, rfl, rfl⟩⟩
  | ok nothing => exact ⟨rfl, rfl, fun event member => recorded event member _, .inr ⟨rfl, rfl⟩⟩

omit [Leaves L] in
theorem spend_ends (s : Scene F L S) (key : Str × Str) (retention : Option Int) :
    (ask (.consume key retention) : Gate F L Consumption).Ends (answer caller) s fun outcome s' =>
      s'.queue = s.queue ∧ s'.handed = s.handed ∧ (∀ event ∈ s.trace, event ∈ s'.trace) ∧
        ((∃ stop, outcome = .error stop ∧ s'.nonces = s.nonces) ∨
          outcome = .ok (s.nonces.consume key retention).2 ∧
            s'.nonces = (s.nonces.consume key retention).1) := by
  have recorded (event) (member : event ∈ s.trace) (last : Σ op : Op F L, Answer op) :
      event ∈ s.trace ++ [last] := List.mem_append_left _ member
  unfold ask Program.Ends Program.exec answer
  obtain ⟨said, own⟩ := caller (.consume key retention) s.own
  cases said with
  | error e => exact ⟨rfl, rfl, fun event member => recorded event member _, .inl ⟨_, rfl, rfl⟩⟩
  | ok nothing => exact ⟨rfl, rfl, fun event member => recorded event member _, .inr ⟨rfl, rfl⟩⟩

theorem handOn_ends (s : Scene F L S) (a : Anchored L) (signature : Str) (indexes : List Nat) :
    (handOn a signature indexes).Ends (answer caller) s fun outcome s' =>
      s'.nonces = s.nonces ∧ s'.handed = s.handed ++ [workItem a.document signature a.digest indexes] ∧
        (∀ event ∈ s.trace, event ∈ s'.trace) ∧
        ((∃ stop, outcome = .error stop ∧ s'.queue = s.queue) ∨ ∃ receipt, outcome = .ok receipt ∧
          receipt.accepted = true ∧ s'.queue = s.queue ++ [workItem a.document signature a.digest indexes]) := by
  have recorded (event) (member : event ∈ s.trace) (last : Σ op : Op F L, Answer op) :
      event ∈ s.trace ++ [last] := List.mem_append_left _ member
  unfold handOn
  generalize workItem a.document signature a.digest indexes = item
  refine Ends.bind ?_
  unfold attempt Program.Ends Program.exec answer
  obtain ⟨said, own⟩ := caller (.enqueue item) s.own
  cases said with
  | error e => exact ⟨rfl, rfl, fun event member => recorded event member _, .inl ⟨_, rfl, rfl⟩⟩
  | ok nothing =>
      exact ⟨rfl, rfl, fun event member => recorded event member _, .inr ⟨_, rfl, rfl, rfl⟩⟩

theorem spendNonce_ends (s : Scene F L S) (a : Anchored L) (signature : Str) (indexes : List Nat)
    (evaluatedAt : Int) (retention : Option Int) :
    (spendNonce a signature indexes evaluatedAt retention).Ends (answer caller) s
      (Admission s a signature indexes) := by
  refine Ends.bind ((attempt_ends .resolveEnqueue trivial).imp ?_)
  rintro (e | found) s₁ ⟨quiet, -⟩
  · exact .refused quiet.untouched
  refine Ends.bind ((require_ends _ _ _).imp ?_)
  rintro (e | ⟨⟩) s₂ ⟨rfl, -⟩
  · exact .refused quiet.untouched
  refine Ends.bind ((ask_ends .hasMemory trivial).imp ?_)
  rintro (e | memory) s₃ ⟨quiet₃, -⟩
  · exact .refused (quiet.trans quiet₃).untouched
  refine Ends.bind ((require_ends _ _ _).imp ?_)
  rintro (e | ⟨⟩) s₄ ⟨rfl, -⟩
  · exact .refused (quiet.trans quiet₃).untouched
  have quietly := quiet.trans quiet₃
  refine Ends.bind ((sweep_ends _ evaluatedAt).imp ?_)
  rintro outcome s₅ ⟨queue, handed, kept, ⟨stop, rfl, nonces⟩ | ⟨rfl, nonces⟩⟩
  · refine .refused ⟨queue.trans quietly.queue, handed.trans quietly.handed, fun pair member => ?_⟩
    rw [nonces, quietly.nonces] at member
    exact member
  rw [quietly.nonces] at nonces
  have swept : ∀ pair ∈ Dict.keys s₅.nonces.consumed, pair ∈ Dict.keys s.nonces.consumed := by
    rw [nonces]
    exact keys_purgeExpired s.nonces evaluatedAt
  refine Ends.bind ((spend_ends _ (a.signerId, a.nonce) retention).imp ?_)
  rintro outcome s₆ ⟨queue₆, handed₆, kept₆, ⟨stop, rfl, spent⟩ | ⟨rfl, spent⟩⟩
  · exact .refused ⟨(queue₆.trans queue).trans quietly.queue, (handed₆.trans handed).trans quietly.handed,
      fun pair member => swept pair (spent ▸ member)⟩
  dsimp only
  by_cases spendable : (s₅.nonces.consume (a.signerId, a.nonce) retention).2 = .spendable
  · obtain ⟨unspent, keys⟩ := consume_spendable spendable
    rw [spendable]
    refine (handOn_ends s₆ a signature indexes).imp ?_
    rintro outcome s₇ ⟨nonces₇, handed₇, kept₇, taken⟩
    have handedOn : HandedOn s s₇ a (workItem a.document signature a.digest indexes) := by
      refine ⟨⟨evaluatedAt, nonces ▸ unspent, ?_⟩, ?_, fun event member => ?_⟩
      · rw [nonces₇, spent, keys, nonces]
      · rw [handed₇, handed₆, handed, quietly.handed]
      · exact kept₇ event (kept₆ event (kept event (quietly.trace event member)))
    rcases taken with ⟨stop, rfl, queue₇⟩ | ⟨receipt, rfl, accepts, queue₇⟩
    · exact .untaken (by rw [queue₇, queue₆, queue, quietly.queue]) handedOn
    · exact .accepted accepts (by rw [queue₇, queue₆, queue, quietly.queue]) handedOn
  · have unchanged : s₆.nonces = s₅.nonces := spent.trans (consume_unspendable spendable)
    have untouched : Untouched s s₆ :=
      ⟨(queue₆.trans queue).trans quietly.queue, (handed₆.trans handed).trans quietly.handed,
        fun pair member => swept pair (unchanged ▸ member)⟩
    cases verdict : (s₅.nonces.consume (a.signerId, a.nonce) retention).2 with
    | spendable => exact absurd verdict spendable
    | full => exact .refused untouched
    | replayed => exact .refused untouched

end Admitting
/-! ## The whole call -/

section Receiving

variable {F L S : Type} [Leaves L] [Signing L] [Format F] [Unicode]

omit [Signing L] [Format F] [Unicode] in
theorem refusal_ends {E : Type} {caller : (op : Op F L) → S → Answer op × S} {s : Scene F L S}
    (reasons : List Str) (named : Named L) :
    (refusal reasons named : Program (Op F L) Answer E Receipt).Ends (answer caller) s fun outcome s' =>
      Quietly s s' ∧ ∀ receipt, outcome = .ok receipt → receipt.accepted = false := by
  refine ⟨quietly_of_only (only_refusal reasons named) s, ?_⟩
  cases named with
  | nobody =>
      rintro _ ⟨⟩
      rfl
  | document d =>
      rintro _ ⟨⟩
      rfl
  | caller =>
      show (refusal reasons .caller : Program (Op F L) Answer E Receipt).Ends (answer caller) s
        fun outcome _ => ∀ receipt, outcome = .ok receipt → receipt.accepted = false
      unfold refusal
      refine Ends.bind ((quietly_of_only (only_namedText _) s).imp ?_)
      rintro (e | signerId) s₁ -
      · exact fun _ absurd => nomatch absurd
      refine Ends.bind ((quietly_of_only (only_namedText _) s₁).imp ?_)
      rintro (e | nonce) s₂ -
      · exact fun _ absurd => nomatch absurd
      · rintro _ ⟨⟩
        rfl

inductive Received (s : Scene F L S) (signature : Str) (receipt : Receipt) (s' : Scene F L S) : Prop
  /-- It was refused before the queue was written to. -/
  | refused (refused : receipt.accepted = false) (untouched : Untouched s s')
  /-- The queue raised. -/
  | untaken (refused : receipt.accepted = false) (a : Anchored L) (indexes : List Nat)
      (queue : s'.queue = s.queue) (handed : HandedOn s s' a (workItem a.document signature a.digest indexes))
  | accepted (accepts : receipt.accepted = true) (a : Anchored L) (indexes : List Nat)
      (passed : Passed s'.trace a signature indexes)
      (queue : s'.queue = s.queue ++ [workItem a.document signature a.digest indexes])
      (handed : HandedOn s s' a (workItem a.document signature a.digest indexes))

omit [Leaves L] [Signing L] [Format F] [Unicode] in
theorem HandedOn.before {s₀ s s' : Scene F L S} (quiet : Quietly s₀ s) {a : Anchored L} {item : WorkItem L}
    (handed : HandedOn s s' a item) : HandedOn s₀ s' a item where
  unspent := quiet.nonces ▸ handed.unspent
  handed := quiet.handed ▸ handed.handed
  trace event member := handed.trace event (quiet.trace event member)

omit [Leaves L] [Signing L] [Format F] [Unicode] in
theorem Untouched.around {s₀ s s' s'' : Scene F L S} (quiet : Quietly s₀ s) (untouched : Untouched s s')
    (after : Quietly s' s'') : Untouched s₀ s'' where
  queue := (after.queue.trans untouched.queue).trans quiet.queue
  handed := (after.handed.trans untouched.handed).trans quiet.handed
  nonces pair member := by
    rw [after.nonces] at member
    exact quiet.nonces ▸ untouched.nonces pair member

omit [Leaves L] [Signing L] [Format F] [Unicode] in
theorem HandedOn.after {s s' s'' : Scene F L S} {a : Anchored L} {item : WorkItem L}
    (handed : HandedOn s s' a item) (after : Quietly s' s'') : HandedOn s s'' a item where
  unspent := after.nonces ▸ handed.unspent
  handed := after.handed.trans handed.handed
  trace event member := after.trace event (handed.trace event member)

theorem judgeBid_ends {caller : (op : Op F L) → S → Answer op × S} (s : Scene F L S) (signature : Option Str) :
    (judgeBid signature).Ends (answer caller) s fun outcome s' =>
      (∃ stop, outcome = .error stop ∧ (Untouched s s' ∨ ∃ a indexes, s'.queue = s.queue ∧
        HandedOn s s' a (workItem a.document (signature.getD []) a.digest indexes))) ∨
      ∃ receipt, outcome = .ok receipt ∧ Received s (signature.getD []) receipt s' := by
  refine Ends.bind ((gates_ends signature).imp ?_)
  rintro (stop | ⟨a, time, indexes⟩) s₁ ⟨quiet, passed⟩
  · exact .inl ⟨stop, rfl, .inl quiet.untouched⟩
  refine (spendNonce_ends s₁ a (signature.getD []) indexes time.1 time.2).imp ?_
  rintro outcome s₂ (⟨untouched⟩ | ⟨queue, handed⟩ | ⟨accepts, queue, handed⟩)
  · exact .inl ⟨_, rfl, .inl (untouched.around quiet (.refl s₂))⟩
  · exact .inl ⟨_, rfl, .inr ⟨a, indexes, queue.trans quiet.queue, handed.before quiet⟩⟩
  · refine .inr ⟨_, rfl, .accepted accepts a indexes ?_ ?_ (handed.before quiet)⟩
    · exact (passed a time indexes rfl).mono handed.trace
    · rw [queue, quiet.queue]

/-- Whatever the caller's objects answer, a call of the door returns a receipt, and has left the replay
memory and the queue alone, or has queued the one document that it authenticated and spent its nonce. -/
theorem receives_all_or_nothing (caller : (op : Op F L) → S → Answer op × S) (signature : Option Str)
    (nonces : NonceStore) (queue : List (WorkItem L)) (own : S) :
    (receiveBid signature).Ends (answer caller) ⟨nonces, queue, [], own, []⟩ fun outcome s' =>
      ∃ receipt, outcome = .ok receipt ∧
        Received ⟨nonces, queue, [], own, []⟩ (signature.getD []) receipt s' := by
  refine Ends.settle ((judgeBid_ends _ signature).imp ?_)
  rintro outcome s₁ (⟨stop, rfl, settled⟩ | ⟨receipt, rfl, received⟩)
  · have refusing (reasons : List Str) (named : Named L) :
        (refusal reasons named : Program (Op F L) Answer Empty Receipt).Ends (answer caller) s₁
          fun outcome s' => ∃ receipt, outcome = .ok receipt ∧
            Received ⟨nonces, queue, [], own, []⟩ (signature.getD []) receipt s' := by
      refine (refusal_ends reasons named).imp ?_
      rintro (e | receipt) s₂ ⟨after, refused⟩
      · exact e.elim
      · refine ⟨receipt, rfl, ?_⟩
        rcases settled with untouched | ⟨a, indexes, unqueued, handed⟩
        · exact .refused (refused receipt rfl) (untouched.around (.refl _) after)
        · exact .untaken (refused receipt rfl) a indexes (after.queue.trans unqueued) (handed.after after)
    cases stop with
    | refused reasons named => exact refusing reasons named
    | raised => exact refusing _ _
  · exact ⟨receipt, rfl, received⟩

end Receiving

section Acceptance

@[reducible] def texts : Leaves Str where
  text := some
  ofText := id

@[reducible] def keyed : Signing Str where
  bytes _ := some []
  payloadHash _ := some (str "sha256:0")
  hmac secret _ := secret

def honest : (op : Op Binary64 Str) → Unit → Answer op × Unit
  | .isMapping, _ => (.ok true, ())
  | .keys _, _ =>
      (.ok (["signer_id", "key_id", "nonce", "issued_at"].map fun name => Key.text (str name)), ())
  | .get _ (.text name), _ =>
      (.ok (.leaf (if name = str "issued_at" then str "2026-01-01T00:00:00Z" else str "x")), ())
  | .signerKeys _, _ => (.ok (some 1), ())
  | .secret _ _, _ => (.ok (some (str "secret")), ())
  | .now, _ => (.ok (63902822400000000 : Int), ())
  | .freshnessWindow, _ => (.ok (.number (.integer 300)), ())
  | .auctionDeadline, _ => (.ok .null, ())
  | .blacklist, _ => (.ok none, ())
  | .validate _ _ _, _ => (.ok ⟨true, [], []⟩, ())
  | .resolveEnqueue, _ => (.ok true, ())
  | .hasMemory, _ => (.ok true, ())
  | .canonicalise, _ => (.ok (), ())
  | .purgeExpired _, _ => (.ok (), ())
  | .consume _ _, _ => (.ok .spendable, ())
  | .enqueue _, _ => (.ok (), ())
  | _, _ => (.error (), ())

example :
    let _ : Unicode := Unicode.ascii
    let _ := texts
    let _ := keyed
    ((receiveBid (some (str "secret"))).exec (answer honest) ⟨⟨4, []⟩, [], [], (), []⟩).2.queue.length = 1 := by
  decide +kernel

end Acceptance
end Proxyshop.External.Caller
