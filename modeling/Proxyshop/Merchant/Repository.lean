import Proxyshop.Merchant.Digest

/-!
# The persistence seam

What a backing store answers, and which of the states it hands back may be brought back. `OnFile` says
which terms a repository reads back, and `kept` what it makes of the terms that it is given.
-/

/-!
## The version algebra

Edit, activate, kill and revive. Each takes an envelope and returns a new one.
-/

namespace Proxyshop.Merchant

open Python Numbers Contracts Structures

variable {F : Type} [Format F] [Coercion F]

def raising {A : Type} : Except PyError A → Except EnvelopeError A
  | .ok a => .ok a
  | .error e => .error (.python e)

def editableFields : List Str :=
  [str "floors", str "max_discount_pct", str "budget_cap", str "pursue_clusters",
    str "standing_commitments"]

/-- What an edit makes of the activation: a kill is carried forward. -/
def Activation.edited : Activation → Activation
  | .killed => .killed
  | _ => .shadow

def editEnvelope (envelope : Envelope F) (changes : Dict Str (Wire F)) :
    Except EnvelopeError (Envelope F) := do
  let current ← Envelope.fromObj envelope.toDict .keep
  if changes.isEmpty ∨ ¬ (Dict.keys changes).all (· ∈ editableFields) then .error .editRefused
  else
    let document := Dict.update current.document changes
    let document := Dict.set document (str "version") (.number (.integer (current.version + 1)))
    let document := Dict.set document (str "activation") (.string current.activation.edited.text)
    Envelope.fromObj (.object document) .drop

def activateEnvelope [Shortest F] (envelope : Envelope F) (approval : Wire F) :
    Except EnvelopeError (Envelope F) := do
  let current ← Envelope.fromObj envelope.toDict .drop
  if current.activation = .killed then .error .approvalRejected
  else
    let artifact ← ApprovalArtifact.parse approval
    if ← raising (approvalCovers current.toTerms artifact.envelopeHash) then
      return current.withActivation .active (some artifact)
    else .error .approvalRejected

def killEnvelope (envelope : Envelope F) : Except EnvelopeError (Envelope F) := do
  let current ← Envelope.fromObj envelope.toDict .keep
  return current.withActivation .killed current.approval

def reviveEnvelope (envelope : Envelope F) : Except EnvelopeError (Envelope F) := do
  let current ← Envelope.fromObj envelope.toDict .keep
  if current.activation = .killed then return current.withActivation .shadow none
  else .error .reviveRefused

/-! ## What each returns -/

theorem killEnvelope_eq_ok {envelope killed : Envelope F} (made : killEnvelope envelope = .ok killed) :
    killed.toTerms = envelope.toTerms ∧ killed.activation = .killed := by
  obtain ⟨current, read, made⟩ := bind_eq_ok.mp made
  cases made
  exact ⟨(Envelope.fromObj_toDict read).1, rfl⟩

theorem reviveEnvelope_eq_ok {envelope revived : Envelope F}
    (made : reviveEnvelope envelope = .ok revived) :
    revived.toTerms = envelope.toTerms ∧ envelope.activation = .killed ∧
      revived.activation = .shadow := by
  obtain ⟨current, read, made⟩ := bind_eq_ok.mp made
  obtain ⟨terms, activation⟩ := Envelope.fromObj_toDict read
  split at made
  · rename_i killed
    cases made
    exact ⟨terms, activation ▸ killed, rfl⟩
  · cases made

theorem activateEnvelope_eq_ok [Shortest F] {envelope active : Envelope F} {approval : Wire F}
    (made : activateEnvelope envelope approval = .ok active) :
    active.toTerms = envelope.toTerms ∧ envelope.activation ≠ .killed ∧
      active.activation = .active := by
  obtain ⟨current, read, made⟩ := bind_eq_ok.mp made
  obtain ⟨terms, activation⟩ := Envelope.fromObj_toDict read
  split at made
  · cases made
  · rename_i unkilled
    obtain ⟨artifact, -, made⟩ := bind_eq_ok.mp made
    obtain ⟨covered, -, made⟩ := bind_eq_ok.mp made
    cases covered
    · cases made
    · cases made
      exact ⟨terms, activation ▸ unkilled, rfl⟩

theorem editEnvelope_eq_ok {envelope edited : Envelope F} {changes : Dict Str (Wire F)}
    (made : editEnvelope envelope changes = .ok edited) :
    edited.storeId = envelope.storeId ∧ edited.version = envelope.version + 1 ∧
      edited.activation = envelope.activation.edited := by
  obtain ⟨current, read, made⟩ := bind_eq_ok.mp made
  obtain ⟨terms, activation⟩ := Envelope.fromObj_toDict read
  split at made
  · cases made
  · rename_i allowed
    rw [not_or, not_not, List.all_eq_true] at allowed
    have unnamed : str "store_id" ∉ Dict.keys changes := fun member =>
      absurd (of_decide_eq_true (allowed.2 _ member)) (by simp [editableFields])
    have valid := (Envelope.fromObj_eq_ok.mp made).2.2
    have store := valid.storeId
    have version := valid.version
    obtain ⟨s, spelled, kept⟩ := valid.activation
    simp only [Json.get_object, Dict.get?_set, str_inj, reduceIte, String.reduceEq,
      Option.getD_some, Dict.get?_update_of_not_mem _ _ unnamed, Coercion.asInt_integer,
      Option.some.injEq] at store version spelled
    have store : Json.string current.storeId = .string edited.storeId := store
    cases spelled
    rw [Activation.ofText?_text, Option.some.injEq] at kept
    rw [← terms, ← activation, ← version, ← kept, Json.string.inj store]
    exact ⟨rfl, rfl, rfl⟩

end Proxyshop.Merchant

namespace Proxyshop.Merchant

open Python Numbers Contracts Structures

section Restoring

variable {F : Type} [Format F] [Shortest F]

/-- An active version comes back in shadow unless an approval covers it. -/
def restorable (envelope : Envelope F) : Except EnvelopeError (Envelope F) :=
  if envelope.activation ≠ .active then .ok envelope
  else
    match envelope.approval with
    | none => .ok (envelope.withActivation .shadow none)
    | some approval => do
        if ← raising (approvalCovers envelope.toTerms approval.envelopeHash) then return envelope
        else return envelope.withActivation .shadow none

def refuseUnapprovedActivation (candidate : Envelope F) : Except EnvelopeError Unit :=
  if candidate.activation ≠ .active then .ok ()
  else
    match candidate.approval with
    | none => .error .approvalRejected
    | some approval => do
        if ← raising (approvalCovers candidate.toTerms approval.envelopeHash) then return ()
        else .error .approvalRejected

/-- Where the envelope is active, it carries an approval of its own terms. -/
def Approved (e : Envelope F) : Prop :=
  e.activation = .active → ∃ approval, e.approval = some approval ∧
    approvalDigest e.toTerms = .ok approval.envelopeHash

/-- The hash that the approval carries has no blanks around it. -/
def Trimmed (e : Envelope F) : Prop :=
  ∀ approval, e.approval = some approval → approval.envelopeHash.strip = approval.envelopeHash

omit [Format F] [Shortest F] in
theorem trimmed_of_resolved {raw : Wire F} {e : Envelope F} {carried : Carried F}
    (read : resolvedApproval raw carried = .ok e.approval) : Trimmed e := by
  intro approval held
  rw [held] at read
  unfold resolvedApproval at read
  cases carried with
  | keep =>
      simp only at read
      split at read
      · cases read
      · obtain ⟨a, parsed, made⟩ := bind_eq_ok.mp read
        cases made
        exact ApprovalArtifact.parse_hash parsed
  | drop => cases read
  | attach raw =>
      obtain ⟨a, parsed, made⟩ := bind_eq_ok.mp read
      cases made
      exact ApprovalArtifact.parse_hash parsed

theorem restorable_trimmed {e e' : Envelope F} (made : restorable e = .ok e') (trimmed : Trimmed e) :
    Trimmed e' := by
  unfold restorable at made
  split at made
  · cases made
    exact trimmed
  · split at made
    · cases made
      exact fun _ held => nomatch held
    · obtain ⟨covered, -, made⟩ := bind_eq_ok.mp made
      cases covered <;> cases made
      · exact fun _ held => nomatch held
      · exact trimmed

theorem restorable_toTerms {e e' : Envelope F} (made : restorable e = .ok e') :
    e'.toTerms = e.toTerms := by
  unfold restorable at made
  split at made
  · cases made
    rfl
  · split at made
    · cases made
      rfl
    · obtain ⟨covered, -, made⟩ := bind_eq_ok.mp made
      cases covered <;> cases made <;> rfl

theorem raising_eq_ok {A : Type} {x : Except PyError A} {a : A} (made : raising x = .ok a) :
    x = .ok a := by
  cases x with
  | error e => cases made
  | ok b =>
      cases made
      rfl

theorem approved_of_refused {e : Envelope F} (trimmed : Trimmed e)
    (made : refuseUnapprovedActivation e = .ok ()) : Approved e := by
  intro active
  unfold refuseUnapprovedActivation at made
  rw [if_neg (not_not.mpr active)] at made
  cases held : e.approval with
  | none =>
      rw [held] at made
      cases made
  | some approval =>
      rw [held] at made
      obtain ⟨covered, checked, made⟩ := bind_eq_ok.mp made
      cases covered
      · cases made
      · refine ⟨approval, rfl, ?_⟩
        rw [approvalCovers_eq_true (raising_eq_ok checked), trimmed approval held]

end Restoring

/-! ## The protocol -/

class EnvelopeRepository (F R : Type) where
  load : R → Except EnvelopeError (List (Envelope F))
  persist : R → Envelope F → Except EnvelopeError R
  OnFile : R → Terms F → Prop
  kept : Terms F → Terms F
  kept_storeId (t : Terms F) : (kept t).storeId = t.storeId
  kept_version (t : Terms F) : (kept t).version = t.version
  kept_of_onFile {r : R} {t : Terms F} (held : OnFile r t) : kept t = t
  onFile_iff {r : R} {loaded : List (Envelope F)} (read : load r = .ok loaded) {t : Terms F} :
    OnFile r t ↔ ∃ e ∈ loaded, e.toTerms = t
  onFile_of_persist {r r' : R} {e : Envelope F} (saved : persist r e = .ok r') {t : Terms F}
    (held : OnFile r' t) : OnFile r t ∨ t = kept e.toTerms

/-- The default backing store: the states of every store, oldest first. -/
structure InMemory (F : Type) where
  states : List (Envelope F)

instance (F : Type) : EnvelopeRepository F (InMemory F) where
  load r := .ok r.states
  persist r e := .ok ⟨r.states ++ [e]⟩
  OnFile r t := ∃ e ∈ r.states, e.toTerms = t
  kept t := t
  kept_storeId _ := rfl
  kept_version _ := rfl
  kept_of_onFile _ := rfl
  onFile_iff read := by
    cases read
    rfl
  onFile_of_persist saved t held := by
    cases saved
    obtain ⟨e, member, rfl⟩ := held
    rcases List.mem_append.mp member with old | new
    · exact .inl ⟨e, old, rfl⟩
    · rw [List.mem_singleton.mp new]
      exact .inr rfl

end Proxyshop.Merchant
