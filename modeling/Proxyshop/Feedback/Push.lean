import Proxyshop.Feedback.Deltas
import Proxyshop.Feedback.Scrub
import Proxyshop.Structures.Fallible

/-!
# The trust push

The payload one delta becomes on the wire. What two events alike but for identity have in common: the
movement they are worth, and everything of the payload but the texts a container is spelled into.
-/

namespace Proxyshop.Feedback

open Python Scoring Ledger

theorem Twin.eq_or {v v' : Value} (twin : Twin v v') :
    v = v' ∨ isContainer v = true ∧ isContainer v' = true := by
  cases twin with
  | same => exact Or.inl rfl
  | containers held held' => exact Or.inr ⟨held, held'⟩

/-! ## How a container is spelled -/

def isBracket (c : CodePoint) : Bool := c = CodePoint.ofChar '[' || c = CodePoint.ofChar '\x7b'

def opened (s : Str) : Bool := s.head?.any isBracket

theorem exists_of_opened {s : Str} (h : opened s = true) : ∃ c rest, s = c :: rest ∧ isBracket c = true := by
  cases s with
  | nil => cases h
  | cons c rest => exact ⟨c, rest, rfl, by simpa [opened] using h⟩

theorem isBracket_cases {c : CodePoint} (bracket : isBracket c = true) :
    c = CodePoint.ofChar '[' ∨ c = CodePoint.ofChar '\x7b' := by
  simpa [isBracket] using bracket

theorem digit?_bracket {c : CodePoint} (bracket : isBracket c = true) : Str.digit? c = none := by
  rcases isBracket_cases bracket with rfl | rfl <;> decide

theorem lowerAscii_bracket {c : CodePoint} (bracket : isBracket c = true) : lowerAscii c = c := by
  rcases isBracket_cases bracket with rfl | rfl <;> decide

theorem isAscii_bracket {c : CodePoint} (bracket : isBracket c = true) : c.isAscii = true := by
  rcases isBracket_cases bracket with rfl | rfl <;> decide

theorem isSpace_bracket {c : CodePoint} (bracket : isBracket c = true) : c.isSpace = false := by
  rcases isBracket_cases bracket with rfl | rfl <;> decide

theorem strip_of_ends {c d : CodePoint} (front : c.isSpace = false) (back : d.isSpace = false)
    (s : Str) : Str.strip (c :: (s ++ [d])) = c :: (s ++ [d]) := by
  have left : (c :: (s ++ [d])).dropWhile CodePoint.isSpace = c :: (s ++ [d]) := by simp [front]
  rw [Str.strip, left, ← List.cons_append]
  exact List.rdropWhile_concat_neg _ _ _ (by simp [back])

section Spelling

variable [Unicode]

theorem opened_of_container {v : Value} (held : isContainer v = true) :
    opened v.toStr = true ∧ v.toStr.strip = v.toStr := by
  have spelled : ∃ c d s, v.toStr = c :: (s ++ [d]) ∧ isBracket c = true ∧ d.isSpace = false := by
    cases v with
    | list items =>
        refine ⟨CodePoint.ofChar '[', CodePoint.ofChar ']', (str ", ").intercalate (Value.reprItems items),
          ?_, by decide, by decide⟩
        rw [Value.toStr.eq_3 _ (by simp) (by simp), Value.repr]
        rfl
    | dict entries =>
        refine ⟨CodePoint.ofChar '\x7b', CodePoint.ofChar '\x7d',
          (str ", ").intercalate (Value.reprEntries entries), ?_, by decide, by decide⟩
        rw [Value.toStr.eq_3 _ (by simp) (by simp), Value.repr]
        rfl
    | _ => cases held
  obtain ⟨c, d, s, eq, bracket, back⟩ := spelled
  rw [eq]
  exact ⟨by simpa [opened] using bracket, strip_of_ends (isSpace_bracket bracket) back s⟩

theorem opened_strip {v : Value} (held : isContainer v = true) : opened v.toStr.strip = true := by
  rw [(opened_of_container held).2]
  exact (opened_of_container held).1

theorem toStr_ne_of_container {v : Value} (held : isContainer v = true) {s : Str} (plain : opened s = false) :
    v.toStr ≠ s := by
  intro same
  have spelled := (opened_of_container held).1
  rw [same, plain] at spelled
  cases spelled

theorem Twin.toStr_iff {v v' : Value} (twin : Twin v v') {s : Str} (plain : opened s = false) :
    v.toStr = s ↔ v'.toStr = s := by
  cases twin with
  | same => exact Iff.rfl
  | containers held held' =>
      exact iff_of_false (toStr_ne_of_container held plain) (toStr_ne_of_container held' plain)

omit [Unicode] in
theorem fromIsoFormat_opened {s : Str} (h : opened s = true) : DateTime.fromIsoFormat s = none := by
  obtain ⟨c, rest, rfl, bracket⟩ := exists_of_opened h
  have undated (cut : Nat) : IsoFormat.date ((c :: rest).take cut) = none := by
    have unread : IsoFormat.asciiNumber 4 ((c :: rest).take cut) = none := by
      cases cut with
      | zero => rfl
      | succ cut =>
          simp [IsoFormat.asciiNumber, Str.number, Str.digits, digit?_bracket bracket]
    rw [IsoFormat.date, unread]
    rfl
  unfold DateTime.fromIsoFormat
  split
  · rfl
  · dsimp only
    rw [undated]
    rfl

theorem parseInstant_container {v : Value} (held : isContainer v = true) :
    parseInstant v = .error (.python .valueError) := by
  obtain ⟨c, rest, spelled, bracket⟩ := exists_of_opened (opened_strip held)
  have unread (zulu : Prop) [Decidable zulu] :
      DateTime.fromIsoFormat (if zulu then (c :: rest).dropLast ++ str "+00:00" else c :: rest) = none := by
    split
    · cases rest with
      | nil => rfl
      | cons d rest => exact fromIsoFormat_opened (by simpa [opened] using bracket)
    · exact fromIsoFormat_opened (by simpa [opened] using bracket)
  have atom : v ≠ .none ∧ ∀ t, v ≠ .datetime t := by
    cases v <;> cases held <;> exact ⟨nofun, nofun⟩
  rw [parseInstant.eq_3 _ atom.1 atom.2]
  simp only [spelled, List.isEmpty_cons, Bool.false_eq_true, if_false]
  rw [unread]

theorem Twin.parseInstant {v v' : Value} (twin : Twin v v') :
    Scoring.parseInstant v = Scoring.parseInstant v' := by
  cases twin with
  | same => rfl
  | containers held held' => rw [parseInstant_container held, parseInstant_container held']

end Spelling

section Alike

variable [Redaction]

open Redaction

theorem opened_lower {s : Str} (h : opened s = true) : opened (Unicode.lower s) = true := by
  obtain ⟨c, rest, rfl, bracket⟩ := exists_of_opened h
  rw [opened, lower_head c rest (isAscii_bracket bracket), lowerAscii_bracket bracket]
  exact bracket

theorem word_of_container {v : Value} (held : isContainer v = true) {words : List Str}
    (plain : words.any opened = false) : Unicode.lower v.toStr.strip ∉ words := by
  intro listed
  exact List.any_eq_false.mp plain _ listed (opened_lower (opened_strip held))

theorem Twin.word_iff {v v' : Value} (twin : Twin v v') {words : List Str}
    (plain : words.any opened = false) :
    Unicode.lower v.toStr.strip ∈ words ↔ Unicode.lower v'.toStr.strip ∈ words := by
  cases twin with
  | same => exact Iff.rfl
  | containers held held' =>
      exact iff_of_false (word_of_container held plain) (word_of_container held' plain)

/-! ## The keys the push reads and writes -/

def plainKeys : List Str :=
  ["event_id", "ts", "kind", "auction_id", "store_id", "order_ref", "prev_hash", "payload", "dim", "type",
    "weight", "observed_at", "status", "matched_pitch", "answer", "pseudonym", "buyer_pseudonym",
    "cluster_id", "trust_report", "trust_attribution", "schema_version", "reason_code",
    "identity_disclosed", "redacted_fields", "policy", "bid_ref", "slot", "shown", "converted", "arm",
    "discount", "unit_price", "currency", "product_ref"].map str

theorem plain_key {k : Str} (listed : k ∈ plainKeys) : isIdentityKey k = false := by
  have lowered : ∀ k ∈ plainKeys, k.strip.isAscii = true ∧
      (decide (k.strip.map lowerAscii ∈ identityKeys) ||
        identityKeySubstrings.any fun fragment => fragment <:+: k.strip.map lowerAscii) = false := by
    simp only [plainKeys, identityKeys, identityKeySubstrings, List.map, str_literal rfl]
    decide
  obtain ⟨ascii, plain⟩ := lowered k listed
  rw [isIdentityKey, lower_ascii _ ascii]
  exact plain

theorem AlikeRecords.field {r r' : Record} (alike : AlikeRecords r r') {k : Str} (listed : k ∈ plainKeys) :
    Alike (r.get k) (r'.get k) := alike.get (plain_key listed)

theorem AlikeRecords.payloadOf {event event' : Record} (alike : AlikeRecords event event') :
    AlikeRecords (Feedback.payloadOf event) (Feedback.payloadOf event') :=
  (alike.field (by decide)).mapping

theorem AlikeRecords.columnOr {event event' payload payload' : Record} (alike : AlikeRecords event event')
    (alike' : AlikeRecords payload payload') {k : Str} (listed : k ∈ plainKeys) :
    Alike (Feedback.columnOr event payload k) (Feedback.columnOr event' payload' k) :=
  (alike.field listed).or (alike'.field listed)

theorem AlikeRecords.kindOf_iff {event event' : Record} (alike : AlikeRecords event event') {kind : Str}
    (plain : opened kind = false) : kindOf event = kind ↔ kindOf event' = kind :=
  ((alike.field (by decide)).or rfl).twin.toStr_iff plain

theorem AlikeRecords.isPositive {r r' : Record} (alike : AlikeRecords r r') :
    Feedback.isPositive r = Feedback.isPositive r' := by
  have answers : Alike ((Dict.get? r (str "answer")).getD (.str []))
      ((Dict.get? r' (str "answer")).getD (.str [])) := by
    have related := alike.get? (plain_key (by decide : str "answer" ∈ plainKeys))
    generalize Dict.get? r (str "answer") = stored, Dict.get? r' (str "answer") = stored' at related ⊢
    cases related with
    | none => exact rfl
    | some same => exact same
  have matched := (alike.field (by decide : str "matched_pitch" ∈ plainKeys)).twin
  have answered := answers.twin.word_iff
    (by decide : (["matched", "yes", "true", "good", "great"].map str).any opened = false)
  unfold Feedback.isPositive
  generalize r.get (str "matched_pitch") = m, r'.get (str "matched_pitch") = m' at matched ⊢
  cases matched with
  | same =>
      cases m with
      | none => exact decide_eq_decide.mpr answered
      | _ => rfl
  | containers held held' =>
      have worded := (Twin.containers held held' ‹_› ‹_›).word_iff
        (by decide : (["true", "yes", "y", "1", "matched"].map str).any opened = false)
      cases m <;> cases held <;> cases m' <;> cases held' <;> exact decide_eq_decide.mpr worded

theorem AlikeRecords.statesAnAnswer {r r' : Record} (alike : AlikeRecords r r') :
    Feedback.statesAnAnswer r = Feedback.statesAnAnswer r' := by
  unfold Feedback.statesAnAnswer
  rw [Bool.eq_iff_iff, List.any_eq_true, List.any_eq_true]
  apply exists_congr
  intro field
  apply and_congr_right
  intro listed
  have plain : field ∈ plainKeys := by
    simp only [answerFields, List.mem_cons, List.not_mem_nil, or_false] at listed
    rcases listed with rfl | rfl <;> decide
  have twin := (alike.field plain).twin
  generalize r.get field = v, r'.get field = v' at twin ⊢
  cases twin with
  | same => exact Iff.rfl
  | containers held held' =>
      have spelled {v : Value} (held : isContainer v = true) : (!v.toStr.strip.isEmpty) = true := by
        obtain ⟨c, rest, eq, -⟩ := exists_of_opened (opened_strip held)
        rw [eq]
        rfl
      have answered := spelled held
      have answered' := spelled held'
      cases v <;> cases held <;> cases v' <;> cases held' <;> exact iff_of_true answered answered'

theorem AlikeRecords.foldFeedback {event event' : Record} (alike : AlikeRecords event event')
    (returned : Bool) : Feedback.foldFeedback event returned = Feedback.foldFeedback event' returned := by
  have kinds := alike.kindOf_iff (by decide : opened feedbackKind = false)
  by_cases feedback : kindOf event = feedbackKind
  · have stores : Alike (storeIdOf event) (storeIdOf event') :=
      alike.columnOr alike.payloadOf (by decide)
    cases store : (storeIdOf event).isNone with
    | true =>
        have store' := stores.twin.isNone.symm.trans store
        rw [Feedback.foldFeedback, if_neg (not_not_intro feedback), if_pos store, Feedback.foldFeedback,
          if_neg (not_not_intro (kinds.mp feedback)), if_pos store']
    | false =>
        have store' := stores.twin.isNone.symm.trans store
        rw [foldFeedback_of_feedback feedback store, foldFeedback_of_feedback (kinds.mp feedback) store',
          alike.payloadOf.statesAnAnswer, alike.payloadOf.isPositive]
  · rw [foldFeedback_of_other feedback, foldFeedback_of_other (kinds.not.mp feedback)]

/-! ## The observation two alike events carry -/

structure TwinObservations (o o' : Observation) : Prop where
  storeId : Alike o.storeId o'.storeId
  dim : Twin o.dim o'.dim
  type : Twin o.type o'.type
  observedAt : Twin o.observedAt o'.observedAt
  weight : Option.Rel Twin o.weight o'.weight

theorem AlikeRecords.observationType {event event' payload payload' : Record}
    (alike : AlikeRecords event event') (alike' : AlikeRecords payload payload') (fold : Option Fold) :
    Twin (Ledger.observationType event payload fold) (Ledger.observationType event' payload' fold) := by
  have named := (alike'.field (by decide : str "type" ∈ plainKeys)).twin
  have kinds := alike.kindOf_iff (by decide : opened claimVerifiedKind = false)
  unfold Ledger.observationType
  dsimp only
  rw [named.isNone]
  split
  · exact named
  · by_cases verified : kindOf event = claimVerifiedKind
    · rw [if_pos verified, if_pos (kinds.mp verified)]
      exact (alike'.field (by decide)).twin
    · rw [if_neg verified, if_neg (kinds.not.mp verified)]
      exact .same _

theorem AlikeRecords.observationWeightOf {payload payload' : Record} (alike : AlikeRecords payload payload')
    (fold : Option Fold) :
    Option.Rel Twin (Ledger.observationWeightOf payload fold) (Ledger.observationWeightOf payload' fold) := by
  have named := (alike.field (by decide : str "weight" ∈ plainKeys)).twin
  unfold Ledger.observationWeightOf
  dsimp only
  rw [named.isNone]
  split
  · exact .some named
  · cases fold.bind fun f => if f.weight != 1.0 then some (Value.float f.weight) else none with
    | none => exact .none
    | some v => exact .some (.same v)

theorem AlikeRecords.observationIn {event event' payload payload' : Record}
    (alike : AlikeRecords event event') (alike' : AlikeRecords payload payload') (fold : Option Fold) :
    Option.Rel TwinObservations (Ledger.observationIn event payload fold)
      (Ledger.observationIn event' payload' fold) := by
  have stores := alike.columnOr alike' (by decide : str "store_id" ∈ plainKeys)
  have dims := (alike'.field (by decide : str "dim" ∈ plainKeys)).twin
  have types := alike.observationType alike' fold
  unfold Ledger.observationIn
  dsimp only
  rw [stores.twin.isNone, dims.isNone, types.isNone]
  split
  · exact .none
  · exact .some ⟨stores, dims, types, ((alike'.field (by decide)).or (alike.field (by decide))).twin,
      alike'.observationWeightOf fold⟩

theorem AlikeRecords.observationOf {event event' : Record} (alike : AlikeRecords event event') :
    Option.Rel TwinObservations (Feedback.observationOf event) (Feedback.observationOf event') := by
  rw [observationOf_eq, observationOf_eq]
  have walked : Option.Rel AlikeRecords (walkPayload event) (walkPayload event') :=
    ((alike.field (by decide)).or rfl).asDict?
  have folds : (if kindOf event = feedbackKind then Feedback.foldFeedback event false else none) =
      if kindOf event' = feedbackKind then Feedback.foldFeedback event' false else none := by
    rw [alike.foldFeedback]
    exact if_congr (alike.kindOf_iff (by decide)) rfl rfl
  unfold projection
  rw [folds]
  generalize walkPayload event = read, walkPayload event' = read' at walked ⊢
  cases walked with
  | none => exact .none
  | some alike' => exact alike.observationIn alike' _

end Alike

/-! ## The movement two alike events are worth -/

/-- What the observation moves its dimension by, scored after the earlier ones. -/
def worth [Unicode] (m : Manifest) (prior : List Observation) (o : Observation) (reference : Value) :
    Except ScoreError Float := do
  let before ← score m prior reference
  let after ← score m (prior ++ [o]) reference
  return (← dimensionMean after o.dim.toStr) - (← dimensionMean before o.dim.toStr)

/-- No type the manifest weighs is spelled as a container is. -/
def NamesPlainTypes (m : Manifest) : Prop := (Dict.keys m.observationWeights).any opened = false

section Worth

variable [Redaction]

omit [Redaction] in
theorem requireTrustDimension_container {v : Value} (held : isContainer v = true) :
    requireTrustDimension v = .error .unknownTrustDimension := by
  cases v <;> cases held <;> rfl

theorem observationWeight_container {m : Manifest} (plain : NamesPlainTypes m) {v : Value}
    (held : isContainer v = true) : observationWeight m v.toStr = .error .unknownObservationType := by
  have unnamed : Dict.get? m.observationWeights v.toStr = none := by
    rw [Dict.get?_eq_none_iff]
    intro named
    exact List.any_eq_false.mp plain _ named (opened_of_container held).1
  rw [observationWeight, unnamed]
  rfl

omit [Redaction] in
theorem relativeObservationWeight_twin {o o' : Observation} (twin : Option.Rel Twin o.weight o'.weight) :
    relativeObservationWeight o = relativeObservationWeight o' := by
  unfold relativeObservationWeight
  generalize o.weight = w, o'.weight = w' at twin ⊢
  cases twin with
  | none => rfl
  | @some v v' twin =>
      rcases twin.eq_or with rfl | ⟨held, held'⟩
      · rfl
      · cases v <;> cases held <;> cases v' <;> cases held' <;> rfl

theorem decayFactor_twin (m : Manifest) {v v' : Value} (twin : Twin v v') (asOf : Value) :
    decayFactor m v asOf = decayFactor m v' asOf := by
  unfold decayFactor
  rw [twin.parseInstant]

theorem observe_twin {m : Manifest} (plain : NamesPlainTypes m) {o o' : Observation}
    (twins : TwinObservations o o') (asOf : Value) (entries : Entries) :
    observe m asOf entries o = observe m asOf entries o' := by
  have weights := relativeObservationWeight_twin twins.weight
  have dims : requireTrustDimension o.dim = requireTrustDimension o'.dim := by
    cases twins.dim.eq_or with
    | inl same => rw [same]
    | inr held => rw [requireTrustDimension_container held.1, requireTrustDimension_container held.2]
  unfold observe
  rw [dims, weights, decayFactor_twin m twins.observedAt asOf]
  cases twins.type.eq_or with
  | inl same => rw [same]
  | inr held =>
      dsimp only
      rw [observationWeight_container plain held.1, observationWeight_container plain held.2]
      rfl

theorem named_of_observe {m : Manifest} (plain : NamesPlainTypes m) {o : Observation} {asOf : Value}
    {entries entries' : Entries} (scored : observe m asOf entries o = .ok entries') :
    isContainer o.dim = false ∧ isContainer o.type = false := by
  unfold observe at scored
  constructor
  · by_contra held
    rw [requireTrustDimension_container (by simpa using held)] at scored
    cases scored
  · by_contra held
    have unweighed := observationWeight_container plain (by simpa using held : isContainer o.type = true)
    dsimp only at scored
    rw [unweighed] at scored
    cases dimension : requireTrustDimension o.dim <;> cases relative : relativeObservationWeight o <;>
      rw [dimension, relative] at scored <;> cases scored

theorem score_snoc_twin {m : Manifest} (plain : NamesPlainTypes m) (prior : List Observation)
    {o o' : Observation} (twins : TwinObservations o o') (asOf : Value) :
    score m (prior ++ [o]) asOf = score m (prior ++ [o']) asOf := by
  have step (entries : Entries) : [o].foldlM (observe m asOf) entries = [o'].foldlM (observe m asOf) entries := by
    rw [List.foldlM_cons, List.foldlM_cons, observe_twin plain twins]
  unfold score
  simp only [List.foldlM_append, step]

theorem named_of_score {m : Manifest} (plain : NamesPlainTypes m) {prior : List Observation}
    {o : Observation} {asOf : Value} {snapshot : Snapshot}
    (scored : score m (prior ++ [o]) asOf = .ok snapshot) :
    isContainer o.dim = false ∧ isContainer o.type = false := by
  have folded : ∃ entries, (prior ++ [o]).foldlM (observe m asOf) (fun _ => blankDimension m) =
      .ok entries := by
    unfold score at scored
    cases walked : (prior ++ [o]).foldlM (observe m asOf) (fun _ => blankDimension m) with
    | ok entries => exact ⟨entries, rfl⟩
    | error e =>
        simp only [walked] at scored
        cases parsed : parseInstant asOf with
        | error e => rw [parsed] at scored; cases scored
        | ok moment =>
            cases moment with
            | none => rw [parsed] at scored; cases scored
            | some reference =>
                rw [parsed] at scored
                cases stamped : rfc3339 reference <;> simp [stamped, bind, Except.bind] at scored
  obtain ⟨entries, folded⟩ := folded
  rw [List.foldlM_append] at folded
  obtain ⟨earlier, -, last⟩ := Structures.bind_eq_ok.mp folded
  rw [List.foldlM_cons] at last
  obtain ⟨_, observed, -⟩ := Structures.bind_eq_ok.mp last
  exact named_of_observe plain observed

theorem score_reference_twin (m : Manifest) (observations : List Observation) {v v' : Value}
    (twin : Twin v v') : score m observations v = score m observations v' := by
  rcases twin.eq_or with rfl | ⟨held, held'⟩
  · rfl
  · unfold score
    rw [parseInstant_container held, parseInstant_container held']
    rfl

theorem worth_twin {m : Manifest} (plain : NamesPlainTypes m) (prior : List Observation)
    {o o' : Observation} (twins : TwinObservations o o') {v v' : Value} (twin : Twin v v') :
    worth m prior o v = worth m prior o' v' := by
  unfold worth
  rw [score_reference_twin m prior twin, score_reference_twin m (prior ++ [o]) twin]
  rcases twins.dim.eq_or with same | ⟨held, held'⟩
  · rw [score_snoc_twin plain prior twins, same]
  · have unscored {o : Observation} (held : isContainer o.dim = true) (snapshot : Snapshot) :
        score m (prior ++ [o]) v' ≠ .ok snapshot := by
      intro scored
      have named := (named_of_score plain scored).1
      rw [held] at named
      cases named
    cases score m prior v' with
    | error e => rfl
    | ok before =>
        have left := unscored held
        rw [← score_snoc_twin plain prior twins]
        cases after : score m (prior ++ [o]) v' with
        | error e => rfl
        | ok snapshot => exact absurd after (left snapshot)

theorem named_of_worth {m : Manifest} (plain : NamesPlainTypes m) {prior : List Observation}
    {o : Observation} {reference : Value} {delta : Float}
    (moved : worth m prior o reference = .ok delta) :
    isContainer o.dim = false ∧ isContainer o.type = false := by
  unfold worth at moved
  obtain ⟨_, -, moved⟩ := Structures.bind_eq_ok.mp moved
  obtain ⟨_, scored, -⟩ := Structures.bind_eq_ok.mp moved
  exact named_of_score plain scored

end Worth

/-! ## The payload -/

def trustReportKey : Str := str "trust_report"

def trustAttributionKey : Str := str "trust_attribution"

def trustEventSchemaVersion : Str := str "trust-event-1.0.0"

def disclosurePolicy : Str := str "R13/R5: the affected store learns what moved and never who moved it."

def wireEventFields : List Str :=
  ["event_id", "ts", "kind", "auction_id", "store_id", "order_ref", "prev_hash", "payload"].map str

def Impression.record (impression : Impression) : Record :=
  [(str "schema_version", .int impression.schemaVersion), (str "auction_id", .str impression.auctionId),
    (str "bid_ref", .str impression.bidRef), (str "slot", (impression.slot.map Value.str).getD .none),
    (str "order_ref", (impression.orderRef.map Value.str).getD .none),
    (str "shown", .bool impression.shown), (str "converted", .bool impression.converted),
    (str "arm", (impression.arm.map Value.dict).getD .none)]

structure PseudonymousContext where
  clusterId : Option Str
  pseudonym : Option Str

structure TrustPayload where
  storeId : Str
  dim : Str
  delta : Float
  event : Record
  pseudonymousContext : PseudonymousContext

section Payload

variable [Redaction]

open Redaction

/-- `None if value is None else str(value)`. -/
def strOf (v : Value) : Option Str := if v.isNone then none else some v.toStr

def pseudonymOf (event : Record) : Value :=
  (((payloadOf event).get (str "pseudonym")).or ((payloadOf event).get (str "buyer_pseudonym"))).or
    (event.get (str "pseudonym"))

def clusterIdOf (event : Record) : Value :=
  ((payloadOf event).get (str "cluster_id")).or (event.get (str "cluster_id"))

def pseudonymousContext (event : Record) : PseudonymousContext :=
  ⟨(strOf (clusterIdOf event)).map redactText, strOf (pseudonymOf event)⟩

def trustReport (reasonCode : Str) (redactedFields : Nat) : Record :=
  [(str "schema_version", .str trustEventSchemaVersion), (str "reason_code", scrub (.str reasonCode)),
    (str "identity_disclosed", .bool false), (str "redacted_fields", .int redactedFields),
    (str "policy", .str disclosurePolicy)]

/-- The payload of the scrubbed event, with what `_wire_event` adds to it. -/
def wirePayload (scrubbed : Record) (report : Record) (attribution : Option Impression) : Record :=
  let payload := Dict.set (payloadOf scrubbed) trustReportKey (.dict report)
  match attribution with
  | none => payload
  | some impression => Dict.set payload trustAttributionKey (.dict impression.record)

def wireEvent (event : Record) (report : Record) (attribution : Option Impression) : Record :=
  let projected := (scrubEntries event).filter fun (k, _) => k ∈ wireEventFields
  let projected := Dict.set projected (str "payload") (.dict (wirePayload projected report attribution))
  Dict.set projected (str "order_ref") (((strOf (event.get (str "order_ref"))).map Value.str).getD .none)

def trustEventPayload (delta : TrustDelta) : TrustPayload :=
  ⟨delta.storeId, delta.dim, if delta.delta == 0.0 then 0.0 else delta.delta,
    wireEvent delta.event (trustReport delta.reasonCode (removedEntries delta.event)) delta.attribution,
    pseudonymousContext delta.event⟩

/-- What is pushed for an event: nothing, where it carries no observation. -/
def pushFor (m : Manifest) (event : Record) (history : List Record) (asOf : Value) :
    Except ScoreError (Option TrustPayload) :=
  (deltaForEvent m event history asOf).map (Option.map trustEventPayload)

end Payload

section Disclosure

variable [Redaction]

open Redaction

theorem deltaForEvent_eq (m : Manifest) (event : Record) (history : List Record) (asOf : Value) :
    deltaForEvent m event history asOf =
      match observationOf event with
      | none => .ok none
      | some o => (worth m (observationsFromEvents history []) o
          (if asOf.isNone then event.get (str "ts") else asOf)).map fun delta =>
        some ⟨o.storeId.toStr, o.dim.toStr, delta, impressionFor event history, event, o.type.toStr⟩ := by
  unfold deltaForEvent worth
  cases observationOf event with
  | none => rfl
  | some o =>
      dsimp only
      cases score m (observationsFromEvents history []) (if asOf.isNone then event.get (str "ts") else asOf) with
      | error e => rfl
      | ok before =>
          cases score m (observationsFromEvents history [] ++ [o])
              (if asOf.isNone then event.get (str "ts") else asOf) with
          | error e => rfl
          | ok after =>
              cases high : dimensionMean after o.dim.toStr with
              | error e => simp [bind, Except.bind, Except.map, high]
              | ok x =>
                  cases low : dimensionMean before o.dim.toStr <;>
                    simp [bind, Except.bind, Except.map, high, low, pure, Except.pure]

/-! ## What the scrub leaves and what is put back -/

theorem identityFreeEntries_filter {entries : Record} (p : Str × Value → Bool)
    (free : identityFreeEntries entries = true) : identityFreeEntries (entries.filter p) = true := by
  induction entries with
  | nil => rfl
  | cons entry entries ih =>
      obtain ⟨k, v⟩ := entry
      rw [identityFreeEntries, Bool.and_eq_true] at free
      rw [List.filter_cons]
      split
      · rw [identityFreeEntries, free.1, ih free.2]
        rfl
      · exact ih free.2

theorem identityFree_get {entries : Record} (free : identityFreeEntries entries = true) (k : Str) :
    identityFree (entries.get k) = true := by
  induction entries with
  | nil => rfl
  | cons entry entries ih =>
      obtain ⟨k', v⟩ := entry
      rw [identityFreeEntries, Bool.and_eq_true, Bool.and_eq_true] at free
      by_cases same : k' = k
      · rw [same, Record.get_of_get? (Dict.get?_cons_self k v entries)]
        exact free.1.2
      · have rest := ih free.2
        rw [Record.get] at rest ⊢
        rw [Dict.get?_cons_ne same]
        exact rest

theorem identityFree_payloadOf {event : Record} (free : identityFreeEntries event = true) :
    identityFreeEntries (payloadOf event) = true := by
  have stored := identityFree_get free (str "payload")
  unfold payloadOf
  cases payload : event.get (str "payload") with
  | dict entries =>
      rw [payload, identityFree] at stored
      exact stored
  | _ => rfl

theorem identityFree_textOrNone (text : Option Str) :
    identityFree ((text.map Value.str).getD .none) = true := by
  cases text <;> rfl

theorem identityFree_trustReport (reasonCode : Str) (redactedFields : Nat) :
    identityFree (.dict (trustReport reasonCode redactedFields)) = true := by
  simp [trustReport, identityFree, identityFreeEntries, scrub, plain_key (by decide : str "schema_version" ∈ plainKeys),
    plain_key (by decide : str "reason_code" ∈ plainKeys),
    plain_key (by decide : str "identity_disclosed" ∈ plainKeys),
    plain_key (by decide : str "redacted_fields" ∈ plainKeys), plain_key (by decide : str "policy" ∈ plainKeys)]

theorem identityFree_impression (impression : Impression) :
    identityFree (.dict impression.record) = impression.arm.elim true identityFreeEntries := by
  cases armed : impression.arm <;> simp [armed, Impression.record, identityFree, identityFreeEntries, identityFree_textOrNone,
    plain_key (by decide : str "schema_version" ∈ plainKeys),
    plain_key (by decide : str "auction_id" ∈ plainKeys), plain_key (by decide : str "bid_ref" ∈ plainKeys),
    plain_key (by decide : str "slot" ∈ plainKeys), plain_key (by decide : str "order_ref" ∈ plainKeys),
    plain_key (by decide : str "shown" ∈ plainKeys), plain_key (by decide : str "converted" ∈ plainKeys),
    plain_key (by decide : str "arm" ∈ plainKeys)]

theorem identityFree_wireEvent (event : Record) (reasonCode : Str) (redactedFields : Nat)
    (attribution : Option Impression) :
    identityFreeEntries (wireEvent event (trustReport reasonCode redactedFields) attribution) =
      (attribution.bind Impression.arm).elim true identityFreeEntries := by
  have scrubbed := identityFreeEntries_filter (fun entry => entry.1 ∈ wireEventFields)
    (identityFreeEntries_scrub event)
  have reported : identityFreeEntries
      (Dict.set (payloadOf ((scrubEntries event).filter fun entry => entry.1 ∈ wireEventFields))
        trustReportKey (.dict (trustReport reasonCode redactedFields))) = true := by
    rw [identityFreeEntries_set (identityFree_payloadOf scrubbed) (plain_key (by decide)),
      identityFree_trustReport]
  have projected (v : Value) := identityFreeEntries_set scrubbed
    (plain_key (by decide : str "payload" ∈ plainKeys)) v
  have attached : identityFree (.dict (wirePayload
      ((scrubEntries event).filter fun entry => entry.1 ∈ wireEventFields)
      (trustReport reasonCode redactedFields) attribution)) =
      (attribution.bind Impression.arm).elim true identityFreeEntries := by
    rw [identityFree]
    unfold wirePayload
    cases attribution with
    | none => exact reported
    | some impression =>
        dsimp only
        rw [identityFreeEntries_set reported (plain_key (by decide)), identityFree_impression]
        rfl
  have ordered := identityFree_textOrNone (strOf (event.get (str "order_ref")))
  rw [← attached, Bool.eq_iff_iff, wireEvent]
  constructor
  · intro free
    have stored := identityFree_get free (str "payload")
    rw [Record.get_set_ne _ _ (by decide), Record.get_set_self] at stored
    exact stored
  · intro free
    rw [identityFreeEntries_set ((projected _).trans free) (plain_key (by decide)), ordered]

/-! ## The arm -/

def offerOf (row : Record) : Record := ((payloadOf row).get (str "offer")).mapping

/-- A bid or an acceptance whose offer names a published offer field. -/
def armed (row : Record) : Bool :=
  ((row.get (str "kind")).text = bidKind || (row.get (str "kind")).text = conversionKind) &&
    offerFields.any fun field => (Dict.get? (offerOf row) field).isSome

/-- The row of the event's auction whose offer the arm is read from. -/
def armRow (event : Record) (history : List Record) : Option Record :=
  let auctionId := (event.get (str "auction_id")).text
  if auctionId.isEmpty then none
  else ((history.filter fun row => (row.get (str "auction_id")).text = auctionId).filter armed).getLast?

/-- No offer term the arm copies has a key that carries identity, at any depth. -/
def ArmClean (event : Record) (history : List Record) : Prop :=
  ∀ row, armRow event history = some row →
    ∀ field ∈ offerFields, identityFree ((offerOf row).get field) = true

omit [Redaction] in
theorem orArm_eq (offer : Value) (arm : Option Record) : orArm offer arm =
    if offerFields.any fun field => (Dict.get? offer.mapping field).isSome then armOf offer else arm := by
  have read : armOf offer = none ∨ armOf offer =
      some (offerFields.filterMap fun field => (Dict.get? offer.mapping field).map fun v => (field, v)) := by
    unfold armOf
    dsimp only
    split
    · exact Or.inl rfl
    · exact Or.inr rfl
  cases stated : offerFields.any fun field => (Dict.get? offer.mapping field).isSome with
  | false =>
      have unstated : (offerFields.filterMap fun field =>
          (Dict.get? offer.mapping field).map fun v => (field, v)) = [] := by
        rw [List.filterMap_eq_nil_iff]
        intro field listed
        have missing := List.any_eq_false.mp stated field listed
        simpa using missing
      rw [orArm]
      rcases read with eq | eq
      · rw [eq]
        rfl
      · rw [eq, unstated]
        rfl
  | true =>
      obtain ⟨field, listed, present⟩ := List.any_eq_true.mp stated
      obtain ⟨v, value⟩ := Option.isSome_iff_exists.mp present
      have full : armOf offer ≠ none := by
        unfold armOf
        dsimp only
        rw [if_neg]
        · rintro ⟨⟩
        · intro empty
          rw [List.isEmpty_iff.mp empty] at value
          cases value
      have term : (field, v) ∈ offerFields.filterMap fun field =>
          (Dict.get? offer.mapping field).map fun v => (field, v) := by
        rw [List.mem_filterMap]
        exact ⟨field, listed, by rw [value]; rfl⟩
      rw [orArm, read.resolve_left full]
      cases terms : offerFields.filterMap fun field =>
          (Dict.get? offer.mapping field).map fun v => (field, v) with
      | nil => rw [terms] at term; cases term
      | cons head tail => rfl

theorem arm_row (walk : ImpressionWalk) (row : Record) : (walk.row row).arm =
    if armed row then armOf ((payloadOf row).get (str "offer")) else walk.arm := by
  unfold ImpressionWalk.row armed offerOf
  dsimp only
  split
  · rename_i bid
    simp [bid, orArm_eq]
  · rename_i notBid
    split
    · rename_i shown
      simp [shown, impressionKind, bidKind, conversionKind]
    · split
      · rename_i won
        simp [won, orArm_eq]
      · rename_i lost
        simp [notBid, lost]

theorem arm_walk (rows : List Record) (walk : ImpressionWalk) : (rows.foldl ImpressionWalk.row walk).arm =
    ((rows.filter armed).getLast?).elim walk.arm fun row => armOf ((payloadOf row).get (str "offer")) := by
  induction rows using List.reverseRecOn with
  | nil => rfl
  | append_singleton rows row ih =>
      rw [List.foldl_append, List.foldl_cons, List.foldl_nil, arm_row, List.filter_append]
      cases played : armed row with
      | true => simp [played]
      | false => simp [played, ih]

theorem identityFree_armOf {offer : Value} {fields : Record} (read : armOf offer = some fields) :
    identityFreeEntries fields = true ↔ ∀ field ∈ offerFields, identityFree (offer.mapping.get field) = true := by
  have walked (names : List Str) (plain : ∀ name ∈ names, isIdentityKey name = false) :
      identityFreeEntries (names.filterMap fun field => (Dict.get? offer.mapping field).map fun v => (field, v)) =
        true ↔ ∀ name ∈ names, identityFree (offer.mapping.get name) = true := by
    induction names with
    | nil => simp [identityFreeEntries]
    | cons name names ih =>
        have rest := ih fun other listed => plain other (List.mem_cons_of_mem _ listed)
        rw [List.forall_mem_cons, ← rest, List.filterMap_cons]
        cases stored : Dict.get? offer.mapping name with
        | none => simp [Record.get_of_absent stored, identityFree]
        | some v =>
            simp [Record.get_of_get? stored, identityFreeEntries, plain name List.mem_cons_self]
  have terms : fields = offerFields.filterMap fun field =>
      (Dict.get? offer.mapping field).map fun v => (field, v) := by
    unfold armOf at read
    dsimp only at read
    split at read
    · cases read
    · exact (Option.some.inj read).symm
  rw [terms]
  apply walked
  intro name listed
  apply plain_key
  revert name
  decide

theorem arm_clean_iff (event : Record) (history : List Record) :
    ((impressionFor event history).bind Impression.arm).elim true identityFreeEntries = true ↔
      ArmClean event history := by
  unfold impressionFor ArmClean armRow
  dsimp only
  split
  · simp
  · rw [Option.bind_some, arm_walk]
    cases (List.filter armed _).getLast? with
    | none => simp
    | some row =>
        simp only [Option.elim_some, Option.some.injEq, forall_eq']
        cases read : armOf ((payloadOf row).get (str "offer")) with
        | some fields => exact identityFree_armOf read
        | none =>
            have bare : offerOf row = [] := by
              unfold armOf at read
              dsimp only at read
              split at read
              · exact List.isEmpty_iff.mp ‹_›
              · cases read
            rw [bare]
            exact iff_of_true rfl fun _ _ => rfl

/-! ## The texts a payload carries -/

/-- The events' fields that the payload carries unscrubbed, as texts, are spelled the same. -/
structure SameTexts (event event' : Record) : Prop where
  store : (storeIdOf event).toStr = (storeIdOf event').toStr
  auction : (event.get (str "auction_id")).text = (event'.get (str "auction_id")).text
  order : strOf (event.get (str "order_ref")) = strOf (event'.get (str "order_ref"))
  pseudonym : strOf (pseudonymOf event) = strOf (pseudonymOf event')
  cluster : (strOf (clusterIdOf event)).map redactText = (strOf (clusterIdOf event')).map redactText

theorem text_of_strOf {v v' : Value} (same : strOf v = strOf v') : v.text = v'.text := by
  unfold strOf at same
  unfold Value.text
  split at same <;> split at same
  · rw [if_pos ‹_›, if_pos ‹_›]
  · cases same
  · cases same
  · rw [if_neg ‹_›, if_neg ‹_›, Option.some.inj same]

theorem impressionFor_congr {event event' : Record} (alike : AlikeRecords event event')
    (same : SameTexts event event') (history : List Record) :
    impressionFor event history = impressionFor event' history := by
  have store : (event.get (str "store_id")).text = (event'.get (str "store_id")).text := by
    have stores := alike.field (by decide : str "store_id" ∈ plainKeys)
    cases full : (event.get (str "store_id")).truthy with
    | false => rw [stores.of_falsy full]
    | true =>
        have spelled := same.store
        rw [storeIdOf, columnOr, Value.or, if_pos full, storeIdOf, columnOr, Value.or,
          if_pos (stores.truthy.symm.trans full)] at spelled
        unfold Value.text
        rw [stores.twin.isNone, spelled]
  unfold impressionFor
  dsimp only
  rw [same.auction, store, text_of_strOf same.order]

theorem auctionId_of_impression {event : Record} {history : List Record} {impression : Impression}
    (read : impressionFor event history = some impression) :
    impression.auctionId = (event.get (str "auction_id")).text := by
  unfold impressionFor at read
  dsimp only at read
  split at read
  · cases read
  · rw [← Option.some.inj read]

theorem impressionFor_isNone (event : Record) (history : List Record) :
    impressionFor event history = none ↔ (event.get (str "auction_id")).text = [] := by
  unfold impressionFor
  dsimp only
  split
  · rename_i empty
    exact iff_of_true rfl (List.isEmpty_iff.mp empty)
  · rename_i full
    simpa using full

theorem order_of_wireEvent (event report : Record) (attribution : Option Impression) :
    (wireEvent event report attribution).get (str "order_ref") =
      ((strOf (event.get (str "order_ref"))).map Value.str).getD .none := Record.get_set_self _ _ _

theorem attribution_of_wireEvent (event report : Record) (impression : Impression) :
    (payloadOf (wireEvent event report (some impression))).get trustAttributionKey =
      .dict impression.record := by
  rw [payloadOf, wireEvent, Record.get_set_ne _ _ (by decide), Record.get_set_self]
  exact Record.get_set_self _ _ _

theorem alike_auction_empty {event event' : Record} (alike : AlikeRecords event event') :
    (event.get (str "auction_id")).text = [] ↔ (event'.get (str "auction_id")).text = [] := by
  have twin := (alike.field (by decide : str "auction_id" ∈ plainKeys)).twin
  rcases twin.eq_or with same | ⟨held, held'⟩
  · rw [same]
  · have spelled {v : Value} (held : isContainer v = true) : v.text ≠ [] := by
      obtain ⟨c, rest, eq, -⟩ := exists_of_opened (opened_strip held)
      have named : v.isNone = false := by cases v <;> cases held <;> rfl
      rw [Value.text, named, if_neg (by decide), eq]
      exact nofun
    exact iff_of_false (spelled held) (spelled held')

theorem scrubEntries_alike {event event' : Record} (alike : AlikeRecords event event') :
    scrubEntries event = scrubEntries event' := by
  rw [← scrubEntries_blank event, alike, scrubEntries_blank event']

theorem removedEntries_alike {event event' : Record} (alike : AlikeRecords event event') :
    removedEntries event = removedEntries event' := by
  rw [← removedEntries_blank event, alike, removedEntries_blank event']

omit [Redaction] in
theorem textOrNone_inj {s t : Option Str}
    (same : (s.map Value.str).getD .none = (t.map Value.str).getD .none) : s = t := by
  cases s <;> cases t <;> simp_all

theorem payload_eq_iff {event event' : Record} (alike : AlikeRecords event event') (history : List Record)
    (dim : Str) (delta : Float) (reasonCode : Str) :
    trustEventPayload ⟨(storeIdOf event').toStr, dim, delta, impressionFor event' history, event', reasonCode⟩ =
        trustEventPayload ⟨(storeIdOf event).toStr, dim, delta, impressionFor event history, event, reasonCode⟩ ↔
      SameTexts event event' := by
  have removals := removedEntries_alike alike
  constructor
  · intro same
    unfold trustEventPayload at same
    obtain ⟨stores, -, -, events, contexts⟩ := TrustPayload.mk.inj same
    obtain ⟨clusters, pseudonyms⟩ := PseudonymousContext.mk.inj contexts
    have orders := congrArg (fun r : Record => r.get (str "order_ref")) events
    simp only [order_of_wireEvent] at orders
    refine ⟨stores.symm, ?_, (textOrNone_inj orders).symm, pseudonyms.symm, clusters.symm⟩
    cases read : impressionFor event history with
    | none =>
        have empty := (impressionFor_isNone event history).mp read
        rw [empty, (alike_auction_empty alike).mp empty]
    | some impression =>
        cases read' : impressionFor event' history with
        | none =>
            have empty := (impressionFor_isNone event' history).mp read'
            rw [empty, (alike_auction_empty alike).mpr empty]
        | some impression' =>
            simp only [read, read'] at events
            have records := congrArg (fun r => (payloadOf r).get trustAttributionKey) events
            simp only [attribution_of_wireEvent] at records
            have ids := congrArg (fun r : Record => r.get (str "auction_id")) (Value.dict.inj records)
            rw [← auctionId_of_impression read, ← auctionId_of_impression read']
            exact (Value.str.inj ids).symm
  · intro same
    have wired : wireEvent event' (trustReport reasonCode (removedEntries event'))
        (impressionFor event' history) =
        wireEvent event (trustReport reasonCode (removedEntries event)) (impressionFor event history) := by
      unfold wireEvent
      rw [scrubEntries_alike alike, removals, impressionFor_congr alike same, same.order]
    unfold trustEventPayload pseudonymousContext
    dsimp only
    rw [wired, same.store, same.pseudonym, same.cluster]

/-! ## What a push discloses -/

def Announced (m : Manifest) (event : Record) (history : List Record) (asOf : Value) : Prop :=
  ∃ delta, deltaForEvent m event history asOf = .ok (some delta)

/-- No key of the pushed event carries identity, and the other event is pushed as the event is. -/
def PushDiscreet (m : Manifest) (event event' : Record) (history : List Record) (asOf : Value) : Prop :=
  (∀ payload, pushFor m event history asOf = .ok (some payload) → identityFree (.dict payload.event) = true) ∧
    pushFor m event' history asOf = pushFor m event history asOf

theorem storeId_of_observationOf {event : Record} {o : Observation} (carried : observationOf event = some o) :
    o.storeId = storeIdOf event := by
  rw [observationOf_eq] at carried
  unfold projection at carried
  obtain ⟨payload, walked, observed⟩ := Option.bind_eq_some_iff.mp carried
  rw [← payloadOf_of_walk walked] at observed
  generalize (if kindOf event = feedbackKind then foldFeedback event false else none) = fold at observed
  unfold observationIn at observed
  dsimp only at observed
  split at observed
  · cases observed
  · rw [← Option.some.inj observed]
    rfl

theorem identityFree_pushFor {m : Manifest} {event : Record} {history : List Record} {asOf : Value}
    {payload : TrustPayload} (pushed : pushFor m event history asOf = .ok (some payload)) :
    identityFree (.dict payload.event) = true ↔ ArmClean event history := by
  rw [pushFor, deltaForEvent_eq] at pushed
  cases observed : observationOf event with
  | none => simp [observed, Except.map] at pushed
  | some o =>
      rw [observed] at pushed
      dsimp only at pushed
      cases moved : worth m (observationsFromEvents history []) o
          (if asOf.isNone then event.get (str "ts") else asOf) with
      | error e => simp [moved, Except.map] at pushed
      | ok delta =>
          simp only [moved, Except.map, Option.map_some, Except.ok.injEq, Option.some.injEq] at pushed
          rw [← pushed, ← arm_clean_iff, identityFree]
          unfold trustEventPayload
          dsimp only
          rw [identityFree_wireEvent]

theorem push_discreet_iff (m : Manifest) (plain : NamesPlainTypes m) (event event' : Record)
    (alike : AlikeRecords event event') (history : List Record) (asOf : Value) :
    PushDiscreet m event event' history asOf ↔
      (Announced m event history asOf → ArmClean event history ∧ SameTexts event event') := by
  have carried := alike.observationOf
  have references : Twin (if asOf.isNone then event.get (str "ts") else asOf)
      (if asOf.isNone then event'.get (str "ts") else asOf) := by
    split
    · exact (alike.field (by decide)).twin
    · exact .same asOf
  unfold PushDiscreet Announced pushFor
  rw [deltaForEvent_eq, deltaForEvent_eq]
  cases observed : observationOf event with
  | none =>
      cases observed' : observationOf event' with
      | some o' => rw [observed, observed'] at carried; cases carried
      | none => simp [Except.map]
  | some o =>
      cases observed' : observationOf event' with
      | none => rw [observed, observed'] at carried; cases carried
      | some o' =>
          rw [observed, observed'] at carried
          obtain ⟨twins⟩ : TwinObservations o o' ∧ True := by cases carried; exact ⟨‹_›, trivial⟩
          dsimp only
          rw [← worth_twin plain (observationsFromEvents history []) twins references]
          cases moved : worth m (observationsFromEvents history []) o
              (if asOf.isNone then event.get (str "ts") else asOf) with
          | error e => simp [Except.map]
          | ok delta =>
              obtain ⟨dimNamed, typeNamed⟩ := named_of_worth plain moved
              have dims : o'.dim = o.dim := by
                rcases twins.dim.eq_or with same | ⟨held, -⟩
                · exact same.symm
                · rw [dimNamed] at held
                  cases held
              have types : o'.type = o.type := by
                rcases twins.type.eq_or with same | ⟨held, -⟩
                · exact same.symm
                · rw [typeNamed] at held
                  cases held
              rw [dims, types, storeId_of_observationOf observed, storeId_of_observationOf observed']
              simp only [Except.map, Option.map_some, Except.ok.injEq, Option.some.injEq, exists_eq',
                forall_true_left, forall_eq']
              rw [payload_eq_iff alike]
              apply and_congr_left'
              rw [← arm_clean_iff, identityFree]
              unfold trustEventPayload
              dsimp only
              rw [identityFree_wireEvent]

end Disclosure

/-! ## An arm that names a buyer -/

@[reducible] def Redaction.ascii : Redaction where
  toUnicode := Unicode.ascii
  redactText s := s
  lower_ascii _ _ := rfl
  lower_head _ _ _ := rfl

/-- A bid of the auction, its offer's discount with the terms given. -/
def bidRow (discount : Record) : Record :=
  [(str "event_id", .str (str "b-1")), (str "ts", .str (str "2026-07-01T00:00:00.000Z")),
    (str "kind", .str (str "bid_placed")), (str "auction_id", .str (str "a-1")),
    (str "store_id", .str (str "s")),
    (str "payload", .dict [(str "offer", .dict [(str "discount", .dict discount)])])]

/-- A verified claim of the auction, on the order of the buyer named. -/
def claimOf (buyer : Str) : Record :=
  [(str "event_id", .str (str "c-1")), (str "ts", .str (str "2026-07-02T00:00:00.000Z")),
    (str "kind", .str (str "claim_verified")), (str "auction_id", .str (str "a-1")),
    (str "store_id", .str (str "s")),
    (str "payload", .dict [(str "dim", .str (str "catalog_claim_accuracy")),
      (str "status", .str (str "verified")), (str "buyer_email", .str buyer)])]

def isAnnounced [Redaction] (m : Manifest) (event : Record) (history : List Record) : Bool :=
  match deltaForEvent m event history .none with
  | .ok (some _) => true
  | _ => false

theorem plain_arm_discreet : letI := Redaction.ascii
    isAnnounced Manifest.published (claimOf (str "dana")) [bidRow [(str "value", .int 10)]] = true ∧
      PushDiscreet Manifest.published (claimOf (str "dana")) (claimOf (str "robin"))
        [bidRow [(str "value", .int 10)]] .none := by
  let _ := Redaction.ascii
  refine ⟨by decide, ?_⟩
  apply (push_discreet_iff Manifest.published (by unfold NamesPlainTypes; decide) (claimOf (str "dana"))
    (claimOf (str "robin")) (by rfl) [bidRow [(str "value", .int 10)]] .none).mpr
  intro _
  constructor
  · intro row armed
    have read : armRow (claimOf (str "dana")) [bidRow [(str "value", .int 10)]] =
        some (bidRow [(str "value", .int 10)]) := by rfl
    rw [read] at armed
    rw [← Option.some.inj armed]
    decide
  · exact ⟨rfl, rfl, rfl, rfl, rfl⟩

theorem arm_names_buyer : letI := Redaction.ascii
    ¬ PushDiscreet Manifest.published (claimOf (str "dana")) (claimOf (str "dana"))
      [bidRow [(str "value", .int 10), (str "email", .str (str "dana"))]] .none := by
  let _ := Redaction.ascii
  rintro ⟨discreet, -⟩
  have announced : isAnnounced Manifest.published (claimOf (str "dana"))
      [bidRow [(str "value", .int 10), (str "email", .str (str "dana"))]] = true := by
    decide
  unfold isAnnounced at announced
  split at announced
  · rename_i delta built
    have pushed : pushFor Manifest.published (claimOf (str "dana"))
        [bidRow [(str "value", .int 10), (str "email", .str (str "dana"))]] .none =
          .ok (some (trustEventPayload delta)) := by
      rw [pushFor, built]
      rfl
    have clean := (identityFree_pushFor pushed).mp (discreet _ pushed)
    have named : ¬ identityFree ((offerOf (bidRow [(str "value", .int 10), (str "email", .str (str "dana"))])).get
        (str "discount")) = true := by
      decide
    exact named (clean _ (by rfl) (str "discount") (by decide))
  · cases announced

end Proxyshop.Feedback
