import Proxyshop.Merchant.Repository
import Proxyshop.Structures.Interleaving

/-!
# The history of a store's envelopes

Every state is appended and none is overwritten. A call reads the head of a history, computes, and
files under the lock; other calls may come between the two. Beside each state stands how it came on
file and how many states its call had read.
-/

namespace Proxyshop.Merchant

open Python Numbers Contracts Structures

inductive Verb
  | recorded
  | put
  | activated
  | killed
  | revived
  deriving DecidableEq

/-- A state on file. One that was loaded has no call as its origin. -/
structure Filed (F : Type) where
  envelope : Envelope F
  origin : Option Verb
  read : Nat

/-- `EnvelopeVersions`. -/
structure EnvelopeVersions (F R : Type) where
  repository : R
  history : Str → List (Filed F)

variable {F R : Type} [Format F] [Coercion F] [Shortest F] [EnvelopeRepository F R]

open EnvelopeRepository

/-! ## Reading -/

omit [Format F] [Coercion F] [Shortest F] in
def current? (history : List (Filed F)) : Option (Envelope F) := history.getLast?.map Filed.envelope

omit [Format F] [Coercion F] [Shortest F] in
def isLive (history : List (Filed F)) : Bool := (current? history).any Envelope.isLive

omit [Format F] [Coercion F] [Shortest F] in
def goesBackwards (history : List (Filed F)) (candidate : Envelope F) : Bool :=
  (current? history).any fun head => candidate.version < head.version

omit [Format F] [Coercion F] [Shortest F] in
def appended (history : Str → List (Filed F)) (filed : Filed F) : Str → List (Filed F) :=
  Function.update history filed.envelope.storeId (history filed.envelope.storeId ++ [filed])

/-! ## Loading -/

def restoreOne (history : Str → List (Filed F)) (stored : Envelope F) :
    Except EnvelopeError (Str → List (Filed F)) := do
  let candidate ← restorable (← Envelope.fromObj stored.toDict .keep)
  refuseUnapprovedActivation candidate
  if goesBackwards (history candidate.storeId) candidate then .error .versionWentBackwards
  else return appended history { envelope := candidate, origin := none, read := 0 }

/-- `EnvelopeVersions(repository)`. -/
def EnvelopeVersions.opened (repository : R) : Except EnvelopeError (EnvelopeVersions F R) := do
  let history ← (← load repository).foldlM restoreOne fun _ => []
  return { repository, history }

/-! ## Calls -/

inductive Operation (F : Type)
  | head (storeId : Str)
  | file (filed : Filed F)

abbrev Answer : Operation F → Type
  | .head _ => List (Filed F)
  | .file _ => Except EnvelopeError Unit

/-- What one operation does. A write that the repository refuses, or that is lost on its way there,
changes nothing. -/
inductive Effect : EnvelopeVersions F R → (op : Operation F) → Answer op → EnvelopeVersions F R → Prop
  | head (s : EnvelopeVersions F R) (storeId : Str) : Effect s (.head storeId) (s.history storeId) s
  | backwards {s : EnvelopeVersions F R} {filed : Filed F}
      (older : goesBackwards (s.history filed.envelope.storeId) filed.envelope = true) :
      Effect s (.file filed) (.error .versionWentBackwards) s
  | refused {s : EnvelopeVersions F R} {filed : Filed F} {e : EnvelopeError}
      (newer : goesBackwards (s.history filed.envelope.storeId) filed.envelope = false)
      (failed : persist s.repository filed.envelope = .error e) : Effect s (.file filed) (.error e) s
  | lost {s : EnvelopeVersions F R} {filed : Filed F}
      (newer : goesBackwards (s.history filed.envelope.storeId) filed.envelope = false) :
      Effect s (.file filed) (.error .unsaved) s
  | filed {s : EnvelopeVersions F R} {filed : Filed F} {repository : R}
      (newer : goesBackwards (s.history filed.envelope.storeId) filed.envelope = false)
      (saved : persist s.repository filed.envelope = .ok repository) :
      Effect s (.file filed) (.ok ()) { repository, history := appended s.history filed }

abbrev Calling (F : Type) : Type → Type := Program (Operation F) Answer EnvelopeError

abbrev Call (F : Type) := Calling F (Envelope F)

abbrev Callers (F R ι : Type) :=
  World (EnvelopeVersions F R) ι (Operation F) Answer EnvelopeError (Envelope F)

omit [Format F] [Coercion F] [Shortest F] in
def attempt {A : Type} : Except EnvelopeError A → Calling F A
  | .ok a => .returns a
  | .error e => .raises e

/-- `record`, by the verb that it serves. -/
def recordAs (verb : Verb) (read : Nat) (envelope : Wire F) : Calling F (Envelope F) := do
  let candidate ← attempt (Envelope.fromObj envelope .keep)
  attempt (refuseUnapprovedActivation candidate)
  attempt (← Program.operation (.file { envelope := candidate, origin := some verb, read }))
  return candidate

def record (envelope : Wire F) : Call F := recordAs .recorded 0 envelope

def historyOf (storeId : Str) : Calling F (List (Filed F)) := Program.operation (Operation.head storeId)

/-- `current`, and how many states are on file. -/
def current (storeId : Str) : Calling F (Envelope F × Nat) := do
  let history ← historyOf storeId
  match current? history with
  | none => throw .unknownStore
  | some head => return (head, history.length)

def changesOf (submitted : Envelope F) : Dict Str (Wire F) :=
  [(str "floors", submitted.toDict.get (str "floors")),
    (str "max_discount_pct", submitted.toDict.get (str "max_discount_pct")),
    (str "budget_cap", submitted.toDict.get (str "budget_cap")),
    (str "pursue_clusters", submitted.toDict.get (str "pursue_clusters")),
    (str "standing_commitments", submitted.toDict.get (str "standing_commitments"))]

def firstVersion : Int := 1

/-- The first envelope of a store, which starts in shadow whatever was submitted. -/
def firstEnvelope (submitted : Envelope F) : Except EnvelopeError (Envelope F) := do
  let first ← Envelope.fromObj
    (.object (Dict.set submitted.document (str "version") (.number (.integer firstVersion)))) .drop
  return first.withActivation .shadow none

omit [Shortest F] in
theorem firstEnvelope_eq_ok {submitted first : Envelope F} (made : firstEnvelope submitted = .ok first) :
    first.storeId = submitted.storeId ∧ first.version = firstVersion ∧ first.activation = .shadow := by
  obtain ⟨e, read, made⟩ := bind_eq_ok.mp made
  cases made
  have valid := (Envelope.fromObj_eq_ok.mp read).2.2
  have store := valid.storeId
  have version := valid.version
  simp only [Json.get_object, Dict.get?_set, str_inj, reduceIte, String.reduceEq, Option.getD_some,
    Coercion.asInt_integer, Option.some.injEq] at store version
  have store : Json.string submitted.storeId = .string e.storeId := store
  exact ⟨(Json.string.inj store).symm, version.symm, rfl⟩

def successor (submitted : Envelope F) : Option (Envelope F) → Except EnvelopeError (Envelope F)
  | none => firstEnvelope submitted
  | some head => editEnvelope head (changesOf submitted)

def put (storeId : Str) (terms : Wire F) : Calling F (Envelope F) := do
  let submitted ← attempt (Envelope.fromObj terms .drop)
  if submitted.storeId ≠ storeId then throw .storeMismatch
  else
    let history ← historyOf storeId
    let candidate ← attempt (successor submitted (current? history))
    recordAs .put history.length candidate.toDict

def activate (storeId : Str) (approval : Wire F) : Calling F (Envelope F) := do
  let (head, read) ← current storeId
  let active ← attempt (activateEnvelope head approval)
  recordAs .activated read active.toDict

def kill (storeId : Str) : Calling F (Envelope F) := do
  let (head, read) ← current storeId
  let killed ← attempt (killEnvelope head)
  recordAs .killed read killed.toDict

def revive (storeId : Str) : Calling F (Envelope F) := do
  let (head, read) ← current storeId
  let revived ← attempt (reviveEnvelope head)
  recordAs .revived read revived.toDict

inductive Calls : Verb → Call F → Prop
  | record (envelope : Wire F) : Calls .recorded (record envelope)
  | put (storeId : Str) (terms : Wire F) : Calls .put (put storeId terms)
  | activate (storeId : Str) (approval : Wire F) : Calls .activated (activate storeId approval)
  | kill (storeId : Str) : Calls .killed (kill storeId)
  | revive (storeId : Str) : Calls .revived (revive storeId)

end Proxyshop.Merchant
