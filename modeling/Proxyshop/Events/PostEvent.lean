import Proxyshop.Events.Admission
import Proxyshop.Events.StoreInvariant
import Proxyshop.Ledger.Faithful
import Proxyshop.Ledger.Moments

/-!
# Posting an event

The core of `POST /events`: the body is normalised, the replay is run over it, and it is appended. What is
raised at each stage is followed to the answer.
-/

namespace Proxyshop.Events

open Python Feedback Scoring Ledger
open Contracts (Json Paired)

/-! ## The request -/

def maxIdentifierLength : Nat := 128

/-- `UNRENDERABLE_IDENTIFIER_CHARACTERS`. -/
def isUnrenderable (c : CodePoint) : Bool := c.val < 0x20 || (0x7F ≤ c.val && c.val ≤ 0x9F)

/-- What the length screen and the character screen let through. -/
structure Screened (identifier : Str) : Prop where
  short : identifier.length ≤ maxIdentifierLength
  renderable : ∀ c ∈ identifier, isUnrenderable c = false ∧ c.val < 0x100

structure EventIn where
  eventId : Str
  ts : Str
  kind : Str
  auctionId : Option Str
  storeId : Option Str
  orderRef : Option Str
  payload : List (Str × Json Number)
  extra : List (Str × Json Number)
  undeclared : ∀ member ∈ extra, member.1 ∉ eventFields
  screened : ∀ identifier ∈ eventId :: [auctionId, storeId, orderRef].reduceOption, Screened identifier

namespace EventIn

def optional : Option Str → Json Number
  | none => .null
  | some s => .string s

def others (e : EventIn) : List (Str × Json Number) :=
  [(str "kind", .string e.kind), (str "auction_id", optional e.auctionId), (str "store_id", optional e.storeId),
    (str "order_ref", optional e.orderRef), (str "payload", .object e.payload)]

def wire (e : EventIn) (ts : Str) (rest : List (Str × Json Number)) : List (Str × Json Number) :=
  (str "event_id", .string e.eventId) :: (str "ts", .string ts) :: rest

/-- `model_dump()`. -/
def dump (e : EventIn) : Record := valueMembers (e.wire e.ts (e.others ++ e.extra))

def keeps (member : Str × Json Number) : Bool := member.1 ∉ chainFields && !member.2.isNull

def stray (e : EventIn) : List (Str × Json Number) := e.extra.filter keeps

/-- The canonical body, with the timestamp in its normal form. -/
def body (e : EventIn) (ts : Str) : Record := valueMembers (e.wire ts (e.others.filter keeps))

structure Regular (e : EventIn) : Prop where
  named : e.eventId.strip ≠ []
  known : e.kind ∈ ledgerEventKinds
  bare : e.stray = []

end EventIn

inductive PostError
  | event (cause : AppendError)
  | unreplayable (field : Str)
  /-- Raised by the scorer and caught nowhere. -/
  | score (cause : ScoreError)

def AppendError.IsRefusal : AppendError → Prop
  | .ledger _ => False
  | _ => True

def PostError.IsRefusal : PostError → Prop
  | .event cause => cause.IsRefusal
  | .unreplayable _ => True
  | .score _ => False

section Posting

variable [Unicode]

/-- `post_event`, from the dump of the model to the append. -/
def postEvent (s : InMemoryEventStore) (e : EventIn) :
    Except PostError AppendOutcome × InMemoryEventStore :=
  match normaliseEvent (.dict e.dump) with
  | .error cause => (.error (.event cause), s)
  | .ok body => match unreplayableField Manifest.published body with
      | .error cause => (.error (.score cause), s)
      | .ok (some field) => (.error (.unreplayable field), s)
      | .ok none =>
          let (outcome, s') := s.call (.dict e.dump)
          (outcome.mapError .event, s')

def postAll (s : InMemoryEventStore) (events : List EventIn) : InMemoryEventStore :=
  events.foldl (fun s e => (postEvent s e).2) s

/-- An event is appended or answered with its stored row, or it is refused and the store is as it was. -/
def EndsWell {C : Type} (refusal : C → Prop) (s : InMemoryEventStore) :
    Except C AppendOutcome × InMemoryEventStore → Prop
  | (.ok _, _) => True
  | (.error cause, s') => refusal cause ∧ s' = s

def Answered (s : InMemoryEventStore) (e : EventIn) : Prop := EndsWell PostError.IsRefusal s (postEvent s e)

/-! ## The canonical body -/

namespace EventIn

omit [Unicode] in
theorem isNone_valueOf (v : Json Number) : (valueOf v).isNone = v.isNull := by
  cases v with
  | number n =>
      cases n
      · rw [valueOf]; rfl
      · rw [valueOf]; rfl
  | _ => rw [valueOf]; rfl

theorem canonicalFields_members {members : List (Str × Json Number)} (undated : ∀ m ∈ members, m.1 ≠ str "ts") :
    canonicalFields (valueMembers members) = .ok (valueMembers (members.filter keeps)) := by
  induction members with
  | nil => rfl
  | cons member members ih =>
      obtain ⟨name, v⟩ := member
      obtain ⟨here, later⟩ := List.forall_mem_cons.mp undated
      rw [valueMembers, canonicalFields, ih later, isNone_valueOf, if_neg here, List.filter_cons]
      by_cases kept : keeps (name, v) = true
      · rw [if_pos kept, valueMembers, if_neg]
        · rfl
        · simpa [keeps] using kept
      · rw [if_neg kept, if_pos]
        simpa [keeps, Classical.or_iff_not_imp_left] using kept

theorem canonicalFields_wire (e : EventIn) {ts : Str} {rest : List (Str × Json Number)}
    (undated : ∀ m ∈ rest, m.1 ≠ str "ts") :
    canonicalFields (valueMembers (e.wire ts rest)) = (do
      let ts ← rfc3339Ms (.str ts)
      return valueMembers (e.wire ts (rest.filter keeps))) := by
  have eventId : ¬ (str "event_id" ∈ chainFields ∨ (Value.str e.eventId).isNone = true) := by
    simp [chainFields, Value.isNone]
  have stamp : ¬ (str "ts" ∈ chainFields ∨ (Value.str ts).isNone = true) := by
    simp [chainFields, Value.isNone]
  have other : str "event_id" ≠ str "ts" := by decide
  simp only [wire, valueMembers, valueOf, canonicalFields, if_neg eventId, if_neg stamp, if_neg other, if_true,
    canonicalFields_members undated]
  cases rfc3339Ms (.str ts) <;> rfl

omit [Unicode] in
theorem keys_valueMembers (members : List (Str × Json Number)) :
    Dict.keys (valueMembers members) = members.map Prod.fst := by
  rw [valueMembers_eq, Dict.keys, List.map_map]
  rfl

omit [Unicode] in
theorem mem_valueMembers {members : List (Str × Json Number)} {name : Str} {v : Json Number}
    (member : (name, v) ∈ members) : (name, valueOf v) ∈ valueMembers members := by
  rw [valueMembers_eq]
  exact List.mem_map_of_mem (f := fun m : Str × Json Number => (m.1, valueOf m.2)) member

omit [Unicode] in
theorem kept_kind (e : EventIn) : (str "kind", Json.string e.kind) ∈ e.others.filter keeps :=
  List.mem_filter.mpr ⟨by simp [others], by simp [keeps, chainFields, Json.isNull]⟩

omit [Unicode] in
theorem kept_payload (e : EventIn) : (str "payload", Json.object e.payload) ∈ e.others.filter keeps :=
  List.mem_filter.mpr ⟨by simp [others], by simp [keeps, chainFields, Json.isNull]⟩

theorem canonicalEvent_wire (e : EventIn) {ts : Str} {rest : List (Str × Json Number)}
    (undated : ∀ m ∈ rest, m.1 ≠ str "ts") (kind : str "kind" ∈ (rest.filter keeps).map Prod.fst)
    (payload : str "payload" ∈ (rest.filter keeps).map Prod.fst) :
    canonicalEvent (valueMembers (e.wire ts rest)) = (do
      let ts ← rfc3339Ms (.str ts)
      return valueMembers (e.wire ts (rest.filter keeps))) := by
  rw [canonicalEvent, canonicalFields_wire e undated]
  cases rfc3339Ms (.str ts) with
  | error cause => rfl
  | ok ts' =>
      have has {name : Str} (member : name ∈ (e.wire ts' (rest.filter keeps)).map Prod.fst) :
          Dict.contains (valueMembers (e.wire ts' (rest.filter keeps))) name = true := by
        rw [Dict.contains_iff, keys_valueMembers]
        exact member
      have eventId_ := @has (str "event_id") (by simp [wire])
      have kind_ := has (List.mem_cons_of_mem _ (List.mem_cons_of_mem _ kind))
      have payload_ := has (List.mem_cons_of_mem _ (List.mem_cons_of_mem _ payload))
      have complete : [str "event_id", str "kind"].filter (fun name =>
          !Dict.contains (valueMembers (e.wire ts' (rest.filter keeps))) name) = [] := by
        simp [eventId_, kind_]
      simp only [bind, Except.bind, pure, Except.pure, complete, if_true]
      rw [Dict.setDefault_of_contains payload_]

/-! ## What the ledger takes -/

omit [Unicode] in
theorem undated_others (e : EventIn) : ∀ m ∈ e.others ++ e.extra, m.1 ≠ str "ts" := by
  intro m member
  rcases List.mem_append.mp member with inside | outside
  · have names : ∀ m ∈ e.others, m.1 ≠ str "ts" := by simp [others]
    exact names m inside
  · intro same
    exact e.undeclared m outside (by rw [same]; decide)

omit [Unicode] in
theorem filter_others (e : EventIn) : (e.others ++ e.extra).filter keeps = e.others.filter keeps ++ e.stray :=
  List.filter_append ..

theorem canonicalEvent_dump (e : EventIn) : canonicalEvent e.dump = (do
    let ts ← rfc3339Ms (.str e.ts)
    return valueMembers (e.wire ts (e.others.filter keeps ++ e.stray))) := by
  rw [dump, canonicalEvent_wire e e.undated_others, filter_others]
  · rw [filter_others, List.map_append]
    exact List.mem_append_left _ (List.mem_map_of_mem e.kept_kind)
  · rw [filter_others, List.map_append]
    exact List.mem_append_left _ (List.mem_map_of_mem e.kept_payload)

omit [Unicode] in
theorem names_kept (e : EventIn) (ts : Str) :
    ((e.wire ts (e.others.filter keeps)).map Prod.fst).Sublist eventFields := by
  have inside : ((e.others.filter keeps).map Prod.fst).Sublist (e.others.map Prod.fst) :=
    List.filter_sublist.map Prod.fst
  exact (inside.cons_cons _).cons_cons _

omit [Unicode] in
theorem get?_body (e : EventIn) (ts : Str) {name : Str} {v : Json Number}
    (member : (name, v) ∈ e.wire ts (e.others.filter keeps)) : Dict.get? (e.body ts) name = some (valueOf v) := by
  apply Dict.get?_of_mem _ (mem_valueMembers member)
  rw [keys_valueMembers]
  exact (e.names_kept ts).nodup (by decide)

omit [Unicode] in
theorem valueMembers_append (first rest : List (Str × Json Number)) :
    valueMembers (first ++ rest) = valueMembers first ++ valueMembers rest := by
  rw [valueMembers_eq, valueMembers_eq, valueMembers_eq, List.map_append]

omit [Unicode] in
theorem stray_undeclared (e : EventIn) : ∀ name ∈ e.stray.map Prod.fst, name ∉ eventFields := by
  intro name member
  obtain ⟨m, inside, rfl⟩ := List.mem_map.mp member
  exact e.undeclared m (List.mem_filter.mp inside).1

omit [Unicode] in
theorem checkBody_dump (e : EventIn) (ts : Str) :
    checkBody (valueMembers (e.wire ts (e.others.filter keeps ++ e.stray))) =
      if e.eventId.strip = [] then .error (.invalidEvent .eventId)
      else if e.kind ∉ ledgerEventKinds then .error .unknownEventKind
      else if e.stray ≠ [] then .error (.invalidEvent (.unknownFields (e.stray.map Prod.fst))) else .ok () := by
  have split : valueMembers (e.wire ts (e.others.filter keeps ++ e.stray)) =
      e.body ts ++ valueMembers e.stray := valueMembers_append (e.wire ts (e.others.filter keeps)) e.stray
  have got {name : Str} {v : Json Number} (member : (name, v) ∈ e.wire ts (e.others.filter keeps)) :
      Dict.get? (e.body ts ++ valueMembers e.stray) name = some (valueOf v) := by
    rw [Dict.get?_append, e.get?_body ts member, Option.some_or]
  have stamp := @got (str "ts") (.string ts) (by simp [wire])
  have eventId := @got (str "event_id") (.string e.eventId) (by simp [wire])
  have kind := got (List.mem_cons_of_mem _ (List.mem_cons_of_mem _ e.kept_kind))
  have payload := got (List.mem_cons_of_mem _ (List.mem_cons_of_mem _ e.kept_payload))
  have unknown : (Dict.keys (e.body ts ++ valueMembers e.stray)).filter (fun name => name ∉ eventFields) =
      e.stray.map Prod.fst := by
    rw [Dict.keys, List.map_append, List.filter_append]
    have known : ((e.body ts).map Prod.fst).filter (fun name => decide (name ∉ eventFields)) = [] := by
      rw [List.filter_eq_nil_iff]
      intro name member
      have column : name ∈ eventFields := by
        apply (e.names_kept ts).subset
        rw [← keys_valueMembers]
        exact member
      simpa using column
    have others : ((valueMembers e.stray).map Prod.fst).filter (fun name => decide (name ∉ eventFields)) =
        e.stray.map Prod.fst := by
      rw [← Dict.keys, keys_valueMembers, List.filter_eq_self]
      intro name member
      simpa using e.stray_undeclared name member
    rw [known, others, List.nil_append]
  rw [split, checkBody, Dict.contains, stamp, Record.get_of_get? eventId, Record.get_of_get? kind,
    Record.get_of_get? payload, unknown]
  simp only [valueOf, checkEventId, checkKind, Value.asDict?, Option.isSome_some, Option.isNone_some, Bool.not_true,
    Bool.false_eq_true, if_false, ne_eq, List.map_eq_nil_iff]
  by_cases blank : e.eventId.strip = []
  · rw [if_pos blank, if_pos blank]
    rfl
  · rw [if_neg blank, if_neg blank]
    by_cases known : e.kind ∈ ledgerEventKinds
    · rw [if_pos known, if_neg (not_not.mpr known)]
      by_cases bare : e.stray = []
      · rw [if_neg (not_not.mpr bare)]
        simp [bare, pure, Except.pure, bind, Except.bind]
      · rw [if_pos bare]
        simp [bare, bind, Except.bind]
    · rw [if_neg known, if_pos known]
      rfl

theorem normaliseEvent_dump {e : EventIn} {ts : Str} (normal : rfc3339Ms (.str e.ts) = .ok ts) :
    (e.Regular ∧ normaliseEvent (.dict e.dump) = .ok (e.body ts)) ∨
      ¬ e.Regular ∧ ∃ cause : AppendError, cause.IsRefusal ∧ normaliseEvent (.dict e.dump) = .error cause := by
  have made : canonicalEvent e.dump = .ok (valueMembers (e.wire ts (e.others.filter keeps ++ e.stray))) := by
    rw [canonicalEvent_dump, normal]
    rfl
  rw [normaliseEvent, made]
  dsimp only
  rw [checkBody_dump]
  by_cases blank : e.eventId.strip = []
  · rw [if_pos blank]
    exact Or.inr ⟨fun regular => regular.named blank, .invalidEvent .eventId, trivial, rfl⟩
  · rw [if_neg blank]
    by_cases known : e.kind ∈ ledgerEventKinds
    · rw [if_neg (not_not.mpr known)]
      by_cases bare : e.stray = []
      · rw [if_neg (not_not.mpr bare), bare, List.append_nil]
        exact Or.inl ⟨⟨blank, known, bare⟩, rfl⟩
      · rw [if_pos bare]
        exact Or.inr ⟨fun regular => bare regular.bare, .invalidEvent (.unknownFields _), trivial, rfl⟩
    · rw [if_pos known]
      exact Or.inr ⟨fun regular => known regular.known, .unknownEventKind, trivial, rfl⟩

theorem normaliseEvent_error {e : EventIn} {cause : Error} (abnormal : rfc3339Ms (.str e.ts) = .error cause) :
    normaliseEvent (.dict e.dump) =
      .error (if cause.isValueError then .invalidEvent (.notCanonical cause) else .ledger cause) := by
  have failed : canonicalEvent e.dump = .error cause := by
    rw [canonicalEvent_dump, abnormal]
    rfl
  rw [normaliseEvent, failed]

end EventIn

/-! ## What the scorer raises -/

/-- A weight that is beyond every double, on an observation of a trust dimension. -/
structure Overweight (o : Observation) : Prop where
  dimension : ∃ d, requireTrustDimension o.dim = .ok d
  beyond : ∃ i, o.weight = some (.int i) ∧ Double.ofInt? i = none

omit [Unicode] in
theorem relativeObservationWeight_error {o : Observation} {cause : ScoreError}
    (raised : relativeObservationWeight o = .error cause) : cause = .invalidObservationWeight ∨
      (cause = .python .overflowError ∧ ∃ i, o.weight = some (.int i) ∧ Double.ofInt? i = none) := by
  unfold relativeObservationWeight at raised
  cases weight : o.weight with
  | none =>
      rw [weight] at raised
      cases raised
  | some value =>
      rw [weight, Option.getD_some] at raised
      cases value with
      | none => cases raised
      | int i =>
          dsimp only [Value.toFloat] at raised
          cases read : Double.ofInt? i with
          | none =>
              rw [read] at raised
              cases raised
              exact Or.inr ⟨rfl, i, rfl, read⟩
          | some x =>
              rw [read] at raised
              dsimp only [Option.elim_some] at raised
              split at raised
              · cases raised
              · exact Or.inl (Except.error.inj raised).symm
      | float x =>
          dsimp only [Value.toFloat] at raised
          split at raised
          · cases raised
          · exact Or.inl (Except.error.inj raised).symm
      | _ =>
          cases raised
          exact Or.inl rfl

omit [Unicode] in
theorem relativeObservationWeight_overflow {o : Observation} {i : Int} (weight : o.weight = some (.int i))
    (beyond : Double.ofInt? i = none) : relativeObservationWeight o = .error (.python .overflowError) := by
  rw [relativeObservationWeight, weight]
  dsimp only [Option.getD_some, Value.toFloat]
  rw [beyond]
  rfl

theorem parseInstant_error {value : Value} {cause : ScoreError} (raised : parseInstant value = .error cause) :
    cause = .python .valueError := by
  unfold parseInstant at raised
  split at raised
  · cases raised
  · cases raised
  · dsimp only at raised
    split at raised
    · cases raised
    · split at raised
      · cases raised
      · exact (Except.error.inj raised).symm

theorem decayFactor_error {m : Manifest} {observedAt asOf : Value} {cause : ScoreError}
    (raised : decayFactor m observedAt asOf = .error cause) : cause = .python .valueError := by
  unfold decayFactor at raised
  split at raised
  · cases raised
  · rcases Structures.bind_eq_error.mp raised with early | ⟨observed, -, raised⟩
    · exact parseInstant_error early
    · rcases Structures.bind_eq_error.mp raised with late | ⟨reference, -, raised⟩
      · exact parseInstant_error late
      · split at raised
        · dsimp only at raised
          split at raised <;> cases raised
        · cases raised

theorem observe_error {m : Manifest} {asOf : Value} {entries : Entries} {o : Observation} {cause : ScoreError}
    (raised : observe m asOf entries o = .error cause) :
    cause ∈ [ScoreError.unknownTrustDimension, .unknownObservationType, .invalidObservationWeight,
        .python .valueError] ∨ cause = .python .overflowError ∧ Overweight o := by
  unfold observe at raised
  rcases Structures.bind_eq_error.mp raised with dim | ⟨d, dimension, raised⟩
  · left
    unfold requireTrustDimension at dim
    split at dim
    · cases dim
    · rw [← Except.error.inj dim]
      simp
  · rcases Structures.bind_eq_error.mp raised with weight | ⟨relative, -, raised⟩
    · rcases relativeObservationWeight_error weight with rfl | ⟨rfl, beyond⟩
      · simp
      · exact Or.inr ⟨rfl, ⟨d, dimension⟩, beyond⟩
    · left
      rcases Structures.bind_eq_error.mp raised with type | ⟨published, -, raised⟩
      · unfold observationWeight at type
        cases stated : Dict.get? m.observationWeights o.type.toStr with
        | none =>
            rw [stated] at type
            rw [← Except.error.inj type]
            simp
        | some w =>
            rw [stated] at type
            cases type
      · rcases Structures.bind_eq_error.mp raised with decay | ⟨decay, -, raised⟩
        · rw [decayFactor_error decay]
          simp
        · cases raised

theorem observe_overweight {m : Manifest} {asOf : Value} {entries : Entries} {o : Observation}
    (heavy : Overweight o) : observe m asOf entries o = .error (.python .overflowError) := by
  obtain ⟨⟨d, dimension⟩, i, weight, beyond⟩ := heavy
  rw [observe, dimension, relativeObservationWeight_overflow weight beyond]
  rfl

theorem score_singleton {m : Manifest} {o : Observation} {asOf : Value} {t : DateTime} {text : Str}
    (parsed : parseInstant asOf = .ok (some t)) (spelled : rfc3339 t = .ok text) {cause : ScoreError} :
    score m [o] asOf = .error cause ↔ observe m asOf (fun _ => blankDimension m) o = .error cause := by
  unfold score
  rw [parsed]
  simp only [bind, Except.bind, spelled, List.foldlM_cons, List.foldlM_nil]
  cases observe m asOf (fun _ => blankDimension m) o <;> simp [pure, Except.pure]

theorem unreplayableField_error_iff {body : Record} {t : DateTime}
    (stamp : body.get (str "ts") = .str (spellMoment t)) :
    (∃ cause, unreplayableField Manifest.published body = .error cause) ↔
      1000 ≤ t.year ∧ ∃ o, projection false body = some o ∧ Overweight o := by
  have alone : observationsFromEvents [body] [] = (projection false body).toList :=
    observations_of_event body []
  unfold unreplayableField
  rw [alone, stamp]
  cases projected : projection false body with
  | none => exact iff_of_false nofun nofun
  | some o =>
      simp only [Option.toList_some, List.isEmpty_cons, Bool.false_eq_true, if_false, Option.some.injEq,
        exists_eq_left']
      by_cases late : 1000 ≤ t.year
      · obtain ⟨u, utc, parsed⟩ := parseInstant_late late
        have toUtc : u.toUtc?.isSome := by
          rw [DateTime.toUtc?, if_pos utc]
          rfl
        obtain ⟨text, spelled⟩ := (rfc3339_returns u).mpr toUtc
        rw [and_iff_right late]
        constructor
        · rintro ⟨cause, raised⟩
          cases scored : score Manifest.published [o] (.str (spellMoment t)) with
          | ok snapshot =>
              rw [scored] at raised
              cases raised
          | error cause' =>
              rw [scored] at raised
              rcases observe_error ((score_singleton parsed spelled).mp scored) with answer | ⟨-, heavy⟩
              · simp only [List.mem_cons, List.not_mem_nil, or_false] at answer
                rcases answer with rfl | rfl | rfl | rfl <;> cases raised
              · exact heavy
        · intro heavy
          rw [(score_singleton parsed spelled).mpr (observe_overweight heavy)]
          exact ⟨_, rfl⟩
      · refine iff_of_false ?_ fun both => late both.1
        rintro ⟨cause, raised⟩
        unfold score at raised
        rw [parseInstant_early (Nat.not_le.mp late)] at raised
        cases raised

/-! ## What the event observes -/

/-- An observation that names no instant is of the instant of its event. -/
def redate (ts : Str) (o : Observation) : Observation := { o with observedAt := o.observedAt.or (.str ts) }

/-- An observation the published scorer folds, at the instant it names. -/
structure Foldable (o : Observation) : Prop where
  dimension : ∃ d, requireTrustDimension o.dim = .ok d
  weighted : ∃ w, relativeObservationWeight o = .ok w
  published : ∃ w, observationWeight Manifest.published o.type.toStr = .ok w
  dated : o.observedAt.truthy = true → Parseable o.observedAt

theorem scorable_redate {o : Observation} {ts : Str} (parseable : Parseable (.str ts)) :
    Scorable Manifest.published (redate ts o) ↔ Foldable o := by
  have decays : ¬ Manifest.published.halfLifeDays ≤ 0.0 := by decide
  have dated : (Manifest.published.halfLifeDays ≤ 0.0 ∨ Parseable (redate ts o).observedAt) ↔
      (o.observedAt.truthy = true → Parseable o.observedAt) := by
    rw [or_iff_right decays, redate, Value.or]
    cases o.observedAt.truthy with
    | true => simp
    | false => simpa using parseable
  constructor
  · rintro ⟨dimension, weighted, published, at_⟩
    exact ⟨dimension, weighted, published, dated.mp at_⟩
  · rintro ⟨dimension, weighted, published, at_⟩
    exact ⟨dimension, weighted, published, dated.mpr at_⟩

omit [Unicode] in
theorem overweight_redate {o : Observation} {ts : Str} : Overweight (redate ts o) ↔ Overweight o :=
  ⟨fun ⟨dimension, beyond⟩ => ⟨dimension, beyond⟩, fun ⟨dimension, beyond⟩ => ⟨dimension, beyond⟩⟩

omit [Unicode] in
theorem feedbackObservation_map (verdict : Verdict) (observedAt observedAt' : Value) {A : Type}
    (f : Str → Float → A) :
    (feedbackObservation verdict observedAt).map (fun o => f o.type o.weight) =
      (feedbackObservation verdict observedAt').map fun o => f o.type o.weight := by
  unfold feedbackObservation
  split <;> rfl

namespace EventIn

def observation (e : EventIn) : Option Observation := projection false (e.body [])

omit [Unicode] in
theorem get_body_ne (e : EventIn) (ts : Str) {name : Str} (other : name ≠ str "ts") :
    (e.body ts).get name = (e.body []).get name := by
  unfold body wire
  simp only [valueMembers, Record.get, Dict.get?_cons, if_neg other.symm]

omit [Unicode] in
theorem get_body_ts (e : EventIn) (ts : Str) : (e.body ts).get (str "ts") = .str ts :=
  Record.get_of_get? (e.get?_body ts (List.mem_cons_of_mem _ List.mem_cons_self) : _ = some (valueOf (.string ts)))

theorem projection_body (e : EventIn) (ts : Str) :
    projection false (e.body ts) = e.observation.map (redate ts) := by
  have payload := e.get_body_ne ts (show str "payload" ≠ str "ts" by decide)
  have kind : kindOf (e.body ts) = kindOf (e.body []) := by rw [kindOf, kindOf, e.get_body_ne ts (by decide)]
  have storeId (payload : Record) :
      columnOr (e.body ts) payload (str "store_id") = columnOr (e.body []) payload (str "store_id") := by
    rw [columnOr, columnOr, e.get_body_ne ts (by decide)]
  have orderRef (payload : Record) :
      columnOr (e.body ts) payload (str "order_ref") = columnOr (e.body []) payload (str "order_ref") := by
    rw [columnOr, columnOr, e.get_body_ne ts (by decide)]
  have fold : foldFeedback (e.body ts) false = foldFeedback (e.body []) false := by
    simp only [foldFeedback, storeIdOf, orderRefOf, payloadOf, payload, kind, storeId, orderRef]
    congr 2
    exact feedbackObservation_map _ _ _ fun type weight =>
      (⟨if statesAnAnswer (payloadOf (e.body [])) then some type else none, weight⟩ : Fold)
  have type (payload : Record) (fold : Option Fold) :
      observationType (e.body ts) payload fold = observationType (e.body []) payload fold := by
    rw [observationType, observationType, kind]
  have instant (v : Value) : v.or (.str ts) = (v.or (.str [])).or (.str ts) := by
    unfold Value.or
    cases filled : v.truthy with
    | true => simp only [if_true, filled]
    | false => rfl
  unfold observation projection walkPayload
  rw [payload, kind, fold]
  generalize (if kindOf (e.body []) = feedbackKind then foldFeedback (e.body []) false else none) = folded
  cases ((e.body []).get (str "payload")).or (.dict []) with
  | dict payload =>
      simp only [Value.asDict?, Option.bind_some, observationIn, storeId, type, get_body_ts]
      split
      · rfl
      · rw [instant]
        rfl
  | _ => rfl

end EventIn

/-! ## What the append can spell -/

/-- A number of the canonical form: an integer that is a double, or a finite double. -/
def Written : Number → Prop
  | .inl i => isRepresentableAsDouble i = true
  | .inr x => ¬ (x.isNaN = true ∨ x.isInf = true)

omit [Unicode] in
theorem serialiseNumber_returns : (fun n => ∃ s, serialiseNumber n = .ok s) = Written := by
  funext n
  apply propext
  cases n with
  | inl i =>
      rw [serialiseNumber, serialiseInt, Written]
      split
      · rename_i whole
        exact iff_of_true ⟨_, rfl⟩ whole
      · rename_i beyond
        exact iff_of_false (by rintro ⟨_, raised⟩; cases raised) beyond
  | inr x =>
      rw [serialiseNumber, serialiseFloat, Written]
      split
      · rename_i infinite
        exact iff_of_false (by rintro ⟨_, raised⟩; cases raised) (not_not.mpr infinite)
      · rename_i finite
        exact iff_of_true ⟨_, rfl⟩ finite

omit [Unicode] in
theorem Screened.paired {identifier : Str} (screened : Screened identifier) : Paired identifier := by
  rw [paired_iff]
  intro c member
  have small := (screened.renderable c member).2
  simp only [CodePoint.isSurrogate, Bool.and_eq_false_iff, decide_eq_false_iff_not]
  omega

omit [Unicode] in
theorem paired_padded (width n : Nat) : Paired (Str.padded width n) := by
  rw [Str.padded, paired_append]
  refine ⟨?_, paired_ofNat n⟩
  rw [paired_iff]
  intro c member
  rw [List.eq_of_mem_replicate member]
  rfl

omit [Unicode] in
theorem paired_spellMoment (t : DateTime) : Paired (spellMoment t) := by
  simp only [spellMoment, DateTime.stamp, paired_append, paired_ofNat, paired_padded, true_and, and_true]
  unfold Paired
  decide

theorem canonicalBytes_returns (v : Json Number) :
    (∃ bytes, canonicalBytes (valueOf v) = .ok bytes) ↔ ∃ text, canonicalJson (valueOf v) = .ok text := by
  unfold canonicalBytes
  rw [canonicalJson_valueOf]
  cases written : canonicalTree serialiseNumber v with
  | error cause => exact iff_of_false nofun nofun
  | ok text =>
      obtain ⟨bytes, encoded⟩ := encodeUtf8_of_paired (canonicalTree_paired serialiseNumber serialiseNumber_paired v written)
      refine iff_of_true ⟨bytes, ?_⟩ ⟨text, rfl⟩
      simp only [bind, Except.bind, encoded]
      rfl

namespace EventIn

omit [Unicode] in
theorem spellable_optional {identifier : Option Str} (screened : ∀ s, identifier = some s → Screened s) :
    Spellable Written (optional identifier) := by
  cases identifier with
  | none => exact .null
  | some s => exact .string (screened s rfl).paired

omit [Unicode] in
theorem spellable_wire {e : EventIn} (regular : e.Regular) (t : DateTime) :
    Spellable Written (.object (e.wire (spellMoment t) (e.others.filter keeps))) ↔
      Spellable Written (.object e.payload) := by
  constructor
  · intro whole
    cases whole with
    | object _ values => exact values _ (List.mem_cons_of_mem _ (List.mem_cons_of_mem _ e.kept_payload))
  · intro payload
    have columns : ∀ name ∈ eventFields, Paired name := by unfold Paired; decide
    have kinds : ∀ kind ∈ ledgerEventKinds, Paired kind := by unfold Paired; decide
    have screened : ∀ identifier ∈ [e.auctionId, e.storeId, e.orderRef], ∀ s, identifier = some s → Screened s := by
      rintro _ member s rfl
      exact e.screened s (List.mem_cons_of_mem _ (List.reduceOption_mem_iff.mpr member))
    refine .object (fun member inside => ?_) (fun member inside => ?_)
    · exact columns _ ((e.names_kept _).subset (List.mem_map_of_mem inside))
    · have spelled : ∀ member ∈ e.wire (spellMoment t) e.others, Spellable Written member.2 := by
        simp only [wire, others, List.forall_mem_cons]
        refine ⟨.string (e.screened _ List.mem_cons_self).paired, .string (paired_spellMoment t),
          .string (kinds _ regular.known), ?_, ?_, ?_, payload, List.forall_mem_nil _⟩
        · exact spellable_optional (screened _ (by simp))
        · exact spellable_optional (screened _ (by simp))
        · exact spellable_optional (screened _ (by simp))
      have kept : (e.wire (spellMoment t) (e.others.filter keeps)).Sublist (e.wire (spellMoment t) e.others) :=
        (List.filter_sublist.cons_cons _).cons_cons _
      exact spelled member (kept.subset inside)

omit [Unicode] in
theorem dict_body (e : EventIn) (ts : Str) :
    Value.dict (e.body ts) = valueOf (.object (e.wire ts (e.others.filter keeps))) := by
  rw [valueOf]
  rfl

theorem canonicalJson_body {e : EventIn} (regular : e.Regular) (t : DateTime) :
    (∃ text, canonicalJson (.dict (e.body (spellMoment t))) = .ok text) ↔
      Spellable Written (.object e.payload) := by
  rw [dict_body, canonicalJson_valueOf, canonicalTree_returns, serialiseNumber_returns, spellable_wire regular]

theorem canonicalEvent_body (e : EventIn) (ts : Str) :
    canonicalEvent (e.body ts) = (do return e.body (← rfc3339Ms (.str ts))) := by
  have again : (e.others.filter keeps).filter keeps = e.others.filter keeps := by
    rw [List.filter_filter]
    simp only [Bool.and_self]
  have undated : ∀ m ∈ e.others.filter keeps, m.1 ≠ str "ts" := fun m member =>
    e.undated_others m (List.mem_append_left _ (List.mem_filter.mp member).1)
  rw [body, canonicalEvent_wire e undated, again]
  · rfl
  · rw [again]
    exact List.mem_map_of_mem e.kept_kind
  · rw [again]
    exact List.mem_map_of_mem e.kept_payload

theorem sealEvent_body {e : EventIn} (regular : e.Regular) (t : DateTime) {head : Str}
    (ascii : Str.isAscii head = true) : (∃ row, sealEvent (e.body (spellMoment t)) head = .ok row) ↔
      1000 ≤ t.year ∧ Spellable Written (.object e.payload) := by
  rw [← canonicalJson_body regular t]
  have link : head.encodeAscii = some (head.map fun c => UInt8.ofNat c.val) := by
    rw [Str.encodeAscii, if_pos ascii]
  unfold sealEvent computeEventHash hashMessage
  rw [link, canonicalEvent_body]
  by_cases late : 1000 ≤ t.year
  · rw [and_iff_right late, rfc3339Ms_spellMoment late, dict_body, ← canonicalBytes_returns, ← dict_body]
    dsimp only [bind, Except.bind, pure, Except.pure]
    cases canonicalBytes (.dict (e.body (spellMoment t))) with
    | error cause => exact iff_of_false (by rintro ⟨_, made⟩; cases made) (by rintro ⟨_, made⟩; cases made)
    | ok bytes => exact iff_of_true ⟨_, rfl⟩ ⟨bytes, rfl⟩
  · rw [rfc3339Ms_early (Nat.not_le.mp late)]
    exact iff_of_false (by rintro ⟨_, made⟩; cases made) fun both => late both.1

end EventIn

/-! ## The append -/

/-- What every store built from a prefix keeps: its chain verifies, and it answers with rows of the chain. -/
structure Kept (s : InMemoryEventStore) : Prop where
  linked : verifyLinks genesisHash 0 s.events = .ok (.inr s.anchorHead)
  indexed : ∀ eventId row, Dict.get? s.byId eventId = some row → row ∈ s.events

open InMemoryEventStore

theorem kept_init {rows : List Record} {s : InMemoryEventStore} (built : init rows = .ok s) : Kept s := by
  obtain ⟨head, linked, events, byId, -, anchorHead⟩ := init_eq_ok built
  have indexed : ∀ (rows : List Record) (byId : Dict Str Record) (eventId : Str) (row : Record),
      Dict.get? (rows.foldl (fun byId row => Dict.set byId (rowId row) row) byId) eventId = some row →
        row ∈ rows ∨ Dict.get? byId eventId = some row := by
    intro rows
    induction rows with
    | nil => exact fun _ _ _ found => Or.inr found
    | cons first rows ih =>
        intro byId eventId row found
        rcases ih _ _ _ found with later | earlier
        · exact Or.inl (List.mem_cons_of_mem _ later)
        · rw [Dict.get?_set] at earlier
          split at earlier
          · rw [Option.some.inj earlier]
            exact Or.inl List.mem_cons_self
          · exact Or.inr earlier
  constructor
  · rw [events, verifyLinks_numberRows, linked, anchorHead]
  · intro eventId row found
    rw [byId] at found
    rw [events]
    exact (indexed _ _ _ _ found).resolve_right (by rintro ⟨⟩)

theorem Kept.call {s : InMemoryEventStore} (kept : Kept s) (event : Value) : Kept (s.call event).2 := by
  rcases s.call_cases event with ⟨_, refused⟩ | ⟨_, _, _, _, -, -, -, -, -, answered⟩ |
    ⟨body, head, row, outcome, -, -, headRead, sealing, -, -, stored⟩
  · rw [refused]
    exact kept
  · rw [answered]
    exact kept
  · rw [stored]
    have ascii : Str.isAscii s.anchorHead = true := ascii_of_verified (by decide) kept.linked
    rw [chainHead_of_verified kept.linked] at headRead
    rw [← Except.ok.inj headRead] at sealing
    obtain ⟨-, -, checked⟩ := s.numbered_of_sealed ascii sealing
    constructor
    · rw [inserted, verifyLinks_append kept.linked, verifyLinks, checked]
      rfl
    · intro eventId other found
      rw [inserted, Dict.get?_set] at found
      rw [inserted, List.mem_append, List.mem_singleton]
      split at found
      · exact Or.inr (Option.some.inj found).symm
      · exact Or.inl (kept.indexed _ _ found)

theorem Kept.post {s : InMemoryEventStore} (kept : Kept s) (e : EventIn) : Kept (postEvent s e).2 := by
  unfold postEvent
  split
  · exact kept
  · split
    · exact kept
    · exact kept
    · exact kept.call _

theorem Kept.postAll {s : InMemoryEventStore} (kept : Kept s) (history : List EventIn) :
    Kept (postAll s history) := by
  induction history generalizing s with
  | nil => exact kept
  | cons e history ih => exact ih (kept.post e)

/-- The `seq` of a stored row is read where the row is answered with. -/
def ReadsBack (s : InMemoryEventStore) (e : EventIn) : Prop :=
  ∀ row, Dict.get? s.byId e.eventId = some row → canonicalText row = canonicalText e.dump →
    ∃ n, (row.get (str "seq")).toInt = .ok n

theorem call_endsWell {s : InMemoryEventStore} (kept : Kept s) {e : EventIn} (regular : e.Regular) {t : DateTime}
    (normal : rfc3339Ms (.str e.ts) = .ok (spellMoment t)) :
    EndsWell AppendError.IsRefusal s (s.call (.dict e.dump)) ↔ Spellable Written (.object e.payload) ∧
      (Dict.get? s.byId e.eventId = none → 1000 ≤ t.year) ∧ ReadsBack s e := by
  have made : canonicalEvent e.dump = .ok (e.body (spellMoment t)) := by
    rw [e.canonicalEvent_dump, normal, regular.bare, List.append_nil]
    rfl
  have text : canonicalText e.dump = canonicalJson (.dict (e.body (spellMoment t))) := by
    rw [canonicalText, made]
    rfl
  have normalised : normaliseEvent (.dict e.dump) = .ok (e.body (spellMoment t)) := by
    rcases EventIn.normaliseEvent_dump normal with ⟨-, normalised⟩ | ⟨irregular, -⟩
    · exact normalised
    · exact absurd regular irregular
  have named : rowId (e.body (spellMoment t)) = e.eventId := by
    rw [rowId, Record.get_of_get? (e.get?_body _ List.mem_cons_self), valueOf, Value.toStr_str]
  have headRead := chainHead_of_verified kept.linked
  rw [call_of_normal s normalised, named, ReadsBack, text, ← EventIn.canonicalJson_body regular t]
  cases found : Dict.get? s.byId e.eventId with
  | none =>
      have ascii : Str.isAscii s.anchorHead = true := ascii_of_verified (by decide) kept.linked
      have sealing := EventIn.sealEvent_body regular t ascii
      rw [← EventIn.canonicalJson_body regular t] at sealing
      dsimp only
      rw [appendNew, run_get, run_ledger_ok headRead]
      cases sealed_ : sealEvent (e.body (spellMoment t)) s.anchorHead with
      | error cause =>
          rw [run_ledger_error rfl]
          refine iff_of_false And.left ?_
          rintro ⟨written, late, -⟩
          obtain ⟨row, made⟩ := sealing.mpr ⟨late rfl, written⟩
          rw [sealed_] at made
          cases made
      | ok row =>
          have seqRead : ((s.numbered row).get (str "seq")).toInt = .ok (s.events.length + 1 : Nat) := by
            rw [numbered_seq, Value.toInt_int]
          obtain ⟨late, written⟩ := sealing.mp ⟨row, sealed_⟩
          rw [run_ledger_ok rfl, ← numbered, run_insertRow s e.eventId seqRead]
          exact iff_of_true trivial ⟨written, fun _ => late, by rintro _ ⟨⟩⟩
  | some existing =>
      obtain ⟨stored, spelled⟩ := canonicalText_of_verified kept.linked existing (kept.indexed _ _ found)
      dsimp only
      rw [appendExisting, run_ledger_ok spelled]
      cases incoming : canonicalJson (.dict (e.body (spellMoment t))) with
      | error cause =>
          rw [run_ledger_error rfl]
          refine iff_of_false And.left ?_
          rintro ⟨⟨_, written⟩, -⟩
          cases written
      | ok text =>
          rw [run_ledger_ok rfl]
          by_cases same : stored = text
          · rw [if_pos same, answerStored, run_get, run_ledger_ok headRead]
            cases read : (existing.get (str "seq")).toInt with
            | error cause =>
                rw [run_python_error rfl]
                refine iff_of_false And.left ?_
                rintro ⟨-, -, reads⟩
                obtain ⟨n, seqRead⟩ := reads existing rfl (by rw [spelled, same])
                rw [read] at seqRead
                cases seqRead
            | ok seq =>
                rw [run_python_ok rfl]
                refine iff_of_true trivial ⟨⟨text, rfl⟩, by rintro ⟨⟩, ?_⟩
                rintro row ⟨⟩ -
                exact ⟨seq, read⟩
          · rw [if_neg same]
            refine iff_of_true ⟨trivial, rfl⟩ ⟨⟨text, rfl⟩, by rintro ⟨⟩, ?_⟩
            rintro row ⟨⟩ both
            rw [spelled] at both
            exact absurd (Except.ok.inj both) same

/-! ## The door -/

def Moment (e : EventIn) (w : Int) : Prop := e.Regular ∧ utc? e.ts = some w

def Folds (e : EventIn) (w : Int) : Prop := ∀ o, e.observation = some o → fourDigits ≤ w ∧ Foldable o

/-- What an event must be like for the door to have an answer to it. -/
structure Digestible (s : InMemoryEventStore) (e : EventIn) : Prop where
  /-- The offset does not move the moment out of the years a date can have. -/
  dated : ∀ w, utc? e.ts = some w → 0 ≤ w ∧ w < DateTime.endOfYears
  light : ∀ w, Moment e w → fourDigits ≤ w → ∀ o, e.observation = some o → ¬ Overweight o
  written : ∀ w, Moment e w → Folds e w → Spellable Written (.object e.payload)
  late : ∀ w, Moment e w → Folds e w → Dict.get? s.byId e.eventId = none → fourDigits ≤ w
  readable : ∀ w, Moment e w → Folds e w → ReadsBack s e

theorem folds_iff_admitted {e : EventIn} {t : DateTime} :
    Folds e t.wall ↔ Admitted Manifest.published (e.body (spellMoment t)) := by
  rw [admitted_iff, e.projection_body, e.get_body_ts, Folds, ← year_iff_fourDigits]
  by_cases late : 1000 ≤ t.year
  · obtain ⟨u, utc, parsed⟩ := parseInstant_late late
    have parseable : Parseable (.str (spellMoment t)) := ⟨some u, parsed⟩
    have hasUtc : HasUtc (.str (spellMoment t)) := by
      intro u' parsed'
      rw [parsed] at parsed'
      cases parsed'
      rw [DateTime.toUtc?, if_pos utc]
      rfl
    constructor
    · intro folds o projected
      obtain ⟨o, observed, rfl⟩ := Option.map_eq_some_iff.mp projected
      exact ⟨parseable, hasUtc, (scorable_redate parseable).mpr (folds o observed).2⟩
    · intro admitted o observed
      have projected := admitted _ (by rw [observed, Option.map_some])
      exact ⟨late, (scorable_redate parseable).mp projected.2.2⟩
  · have unread : ¬ Parseable (.str (spellMoment t)) := by
      rintro ⟨u, parsed⟩
      rw [parseInstant_early (Nat.not_le.mp late)] at parsed
      cases parsed
    cases e.observation with
    | none => exact iff_of_true nofun nofun
    | some o => exact iff_of_false (fun folds => late (folds o rfl).1) fun admitted => unread (admitted _ rfl).1

theorem digestible_iff {s : InMemoryEventStore} {e : EventIn} {w : Int} (read : utc? e.ts = some w) :
    Digestible s e ↔ (0 ≤ w ∧ w < DateTime.endOfYears) ∧ (e.Regular →
      (fourDigits ≤ w → ∀ o, e.observation = some o → ¬ Overweight o) ∧
        (Folds e w → Spellable Written (.object e.payload) ∧
          (Dict.get? s.byId e.eventId = none → fourDigits ≤ w) ∧ ReadsBack s e)) := by
  constructor
  · rintro ⟨dated, light, written, late, readable⟩
    exact ⟨dated w read, fun regular => ⟨light w ⟨regular, read⟩, fun folds =>
      ⟨written w ⟨regular, read⟩ folds, late w ⟨regular, read⟩ folds, readable w ⟨regular, read⟩ folds⟩⟩⟩
  · rintro ⟨dated, regular⟩
    have same {w' : Int} (read' : utc? e.ts = some w') : w = w' := Option.some.inj (read.symm.trans read')
    constructor
    · intro w' read'
      exact same read' ▸ dated
    · intro w' moment
      exact same moment.2 ▸ (regular moment.1).1
    · intro w' moment folds
      exact ((regular moment.1).2 (same moment.2 ▸ folds)).1
    · intro w' moment folds
      exact same moment.2 ▸ ((regular moment.1).2 (same moment.2 ▸ folds)).2.1
    · intro w' moment folds
      exact ((regular moment.1).2 (same moment.2 ▸ folds)).2.2

theorem digestible_of_unread {s : InMemoryEventStore} {e : EventIn} (unread : utc? e.ts = none) :
    Digestible s e := by
  have nowhere {w : Int} : utc? e.ts ≠ some w := by
    rw [unread]
    exact nofun
  exact ⟨fun _ read => absurd read nowhere, fun _ moment => absurd moment.2 nowhere,
    fun _ moment => absurd moment.2 nowhere, fun _ moment => absurd moment.2 nowhere,
    fun _ moment => absurd moment.2 nowhere⟩

omit [Unicode] in
theorem endsWell_mapError {s : InMemoryEventStore} (result : Except AppendError AppendOutcome × InMemoryEventStore) :
    EndsWell PostError.IsRefusal s (result.1.mapError .event, result.2) ↔
      EndsWell AppendError.IsRefusal s result := by
  obtain ⟨outcome, s'⟩ := result
  cases outcome with
  | ok outcome => exact Iff.rfl
  | error cause => exact Iff.rfl

theorem answered_of_regular {s : InMemoryEventStore} (kept : Kept s) {e : EventIn} (regular : e.Regular)
    {t : DateTime} (normal : rfc3339Ms (.str e.ts) = .ok (spellMoment t))
    (normalised : normaliseEvent (.dict e.dump) = .ok (e.body (spellMoment t))) : Answered s e ↔
      (1000 ≤ t.year → ∀ o, e.observation = some o → ¬ Overweight o) ∧
        (Folds e t.wall → Spellable Written (.object e.payload) ∧
          (Dict.get? s.byId e.eventId = none → 1000 ≤ t.year) ∧ ReadsBack s e) := by
  have raises := unreplayableField_error_iff (e.get_body_ts (spellMoment t))
  have light : (1000 ≤ t.year → ∀ o, e.observation = some o → ¬ Overweight o) ↔
      ¬ ∃ cause, unreplayableField Manifest.published (e.body (spellMoment t)) = .error cause := by
    rw [raises, e.projection_body]
    constructor
    · rintro light ⟨late, _, projected, heavy⟩
      obtain ⟨o, observed, rfl⟩ := Option.map_eq_some_iff.mp projected
      exact light late o observed (overweight_redate.mp heavy)
    · intro none late o observed heavy
      exact none ⟨late, _, by rw [observed, Option.map_some], overweight_redate.mpr heavy⟩
  rw [light, folds_iff_admitted, Admitted, Answered, postEvent, normalised]
  dsimp only
  cases screened : unreplayableField Manifest.published (e.body (spellMoment t)) with
  | error cause => exact iff_of_false And.left fun both => both.1 ⟨cause, rfl⟩
  | ok field =>
      cases field with
      | some field => exact iff_of_true ⟨trivial, rfl⟩ ⟨nofun, nofun⟩
      | none =>
          have quiet : ¬ ∃ cause, (.ok none : Except ScoreError (Option Str)) = .error cause := nofun
          rw [and_iff_right quiet, forall_prop_of_true rfl, ← call_endsWell kept regular normal]
          exact endsWell_mapError _

theorem answered_iff {s : InMemoryEventStore} (kept : Kept s) (e : EventIn) :
    Answered s e ↔ Digestible s e := by
  cases read : utc? e.ts with
  | none =>
      obtain ⟨cause, abnormal, value⟩ := rfc3339Ms_unread read
      rw [Answered, postEvent, EventIn.normaliseEvent_error abnormal, if_pos value]
      exact iff_of_true ⟨trivial, rfl⟩ (digestible_of_unread read)
  | some w =>
      have normal := rfc3339Ms_read read
      rw [digestible_iff read]
      split at normal
      · rename_i inside
        obtain ⟨t, rfl, normal⟩ := normal
        rw [and_iff_right inside]
        rcases EventIn.normaliseEvent_dump normal with ⟨regular, normalised⟩ | ⟨irregular, cause, refusal, refused⟩
        · rw [forall_prop_of_true regular, answered_of_regular kept regular normal normalised, year_iff_fourDigits]
        · rw [Answered, postEvent, refused]
          exact iff_of_true ⟨refusal, rfl⟩ fun regular => absurd regular irregular
      · rename_i outside
        rw [Answered, postEvent, EventIn.normaliseEvent_error normal]
        exact iff_of_false And.left fun both => outside both.1

end Posting

-- nothing below is to run the door by unfolding it
attribute [irreducible] Answered

def counted (n : Int) : EventIn where
  eventId := str "e-1"
  ts := str "2026-01-01T00:00:00Z"
  kind := str "policy_event"
  auctionId := none
  storeId := none
  orderRef := none
  payload := [(str "n", .number (.inl n))]
  extra := []
  undeclared := nofun
  screened := by
    intro identifier member
    rw [List.mem_singleton.mp member]
    have plain : (str "e-1").all (fun c => !isUnrenderable c && decide (c.val < 0x100)) = true := by decide
    exact ⟨by decide, fun c inside => by simpa using List.all_eq_true.mp plain c inside⟩

def emptyStore : InMemoryEventStore where
  events := []
  byId := []
  anchorLength := 0
  anchorHead := genesisHash

end Proxyshop.Events
