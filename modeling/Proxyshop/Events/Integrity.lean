import Proxyshop.Events.Store
import Proxyshop.Ledger.ChainLaws

/-!
# Reports over a stream nobody holds

The report of a list and the report of a scan. The scan remembers the last two events that went past
it, which is all that the description of a break reads.
-/

namespace Proxyshop.Events.Integrity

open Python Ledger

inductive Cause
  | link (reason : Reason)
  | anchorMissing
  deriving DecidableEq

def Cause.name : Cause → Str
  | .link .unsealed => str "unsealed"
  | .link .brokenLink => str "broken_link"
  | .link .tampered => str "tampered"
  | .link .empty => str "empty"
  | .link .truncated => str "truncated"
  | .link .headMismatch => str "head_mismatch"
  | .anchorMissing => str "anchor_missing"

/-- `_REASON_MEANINGS`. -/
def Cause.meaning : Cause → Str
  | .link .unsealed => str ("the event carries no event_hash, so there is nothing to check it against; an " ++
      "unsealed stream is unverifiable, which is not the same as verified")
  | .link .brokenLink => str ("the event's stored prev_hash is not its predecessor's event_hash: the stream has " ++
      "been reordered, spliced, or had an event removed from the middle")
  | .link .tampered => str ("the event's content no longer hashes to the event_hash stored on it: its body was " ++
      "rewritten after it was sealed")
  | .link .empty => str ("there are no events at all; verifying nothing is not verifying, and an empty read " ++
      "arrives for reasons unrelated to integrity (wrong database, missing SELECT grant, " ++
      "a store that never loaded)")
  | .link .truncated => str ("every link verifies, but there are fewer events than the anchor recorded: the " ++
      "stream was cut from the tail, which no link inside it can detect")
  | .link .headMismatch => str ("every link verifies, but the stream folds to a different head than the one " ++
      "recorded at write time: this is not the stream that was committed to")
  | .anchorMissing => str ("every link verifies, but the commitment that makes truncation detectable is gone, " ++
      "so 'intact' cannot be asserted")

structure Summary where
  ok : Bool
  brokenAt : Option Nat
  reason : Option Cause
  headHash : Str
  verified : Nat

def Summary.ofChain (report : Report) : Summary :=
  ⟨report.ok, report.brokenAt, report.reason.map .link, report.headHash, report.verified⟩

structure BrokenEvent where
  index : Nat
  eventId : Value
  seq : Value
  kind : Value
  storedPrevHash : Value
  storedEventHash : Value
  expectedPrevHash : Str
  recomputedEventHash : Option Str
  predecessorEventId : Value

structure ScanReport where
  summary : Summary
  length : Nat
  expectedLength : Option Int
  expectedHead : Option Str
  streamHash : Option Str
  brokenEvent : Option BrokenEvent
  detail : Str

structure AnchorReport where
  report : ScanReport
  anchor : Option Record
  anchorOk : Bool

section Reports

variable [Unicode]

/-! ## What broke -/

def recomputedHash (prev : Str) (event : Record) : Except Error (Option Str) :=
  match computeEventHash prev event with
  | .ok hash => .ok (some hash)
  | .error (.canonicalisation _) => .ok none
  | .error cause => .error cause

/-- The two sentences that follow a reason that an event can be blamed for. -/
def blame (row : Record) (predecessor : Option Record) (index : Nat) (broken : BrokenEvent) : Option Cause → Str
  | some (.link .tampered) => str " It stores event_hash " ++ broken.storedEventHash.toStr ++
      str ", but its content hashes to " ++ broken.recomputedEventHash.getD (str "None") ++ str "."
  | some (.link .brokenLink) => match predecessor with
      | none => str " It is the FIRST event in this stream, so its prev_hash must be the genesis link " ++
          genesisHash ++ str "; it stores " ++ (row.get (str "prev_hash")).toStr ++
          str (" instead. There is no predecessor to compare it against: either the stream does not begin where " ++
            "the ledger begins -- events ahead of it were removed, or the read was " ++
            "filtered or started after seq 0 -- or this event's prev_hash was rewritten.")
      | some _ => str " It stores prev_hash " ++ (row.get (str "prev_hash")).toStr ++
          str ", but the event before it (index " ++ Str.ofInt (index - 1) ++ str ", event_id=" ++
          broken.predecessorEventId.repr ++ str ") hashes to " ++ broken.expectedPrevHash ++ str "."
  | _ => []

def describeBreakAt (row predecessor : Option Record) (report : Summary) :
    Except Error (Option BrokenEvent × Str) :=
  if report.ok then
    return (none, str "ledger chain intact: " ++ Str.ofNat report.verified ++ str " event(s) verified, head " ++
      report.headHash)
  else
    let reason := (report.reason.map Cause.name).getD (str "None")
    let meaning := (report.reason.map Cause.meaning).getD (str "the chain did not verify")
    match row, report.brokenAt with
    | some row, some index => do
        let expectedPrev := match predecessor with
          | none => genesisHash
          | some predecessor => ((predecessor.get (str "event_hash")).or (.str [])).toStr
        let broken : BrokenEvent := {
          index
          eventId := row.get (str "event_id")
          seq := row.get (str "seq")
          kind := row.get (str "kind")
          storedPrevHash := row.get (str "prev_hash")
          storedEventHash := row.get (str "event_hash")
          expectedPrevHash := expectedPrev
          recomputedEventHash := ← recomputedHash expectedPrev row
          predecessorEventId := (predecessor.map (Record.get · (str "event_id"))).getD .none
        }
        let where_ := str "index " ++ Str.ofNat index ++ str " (event_id=" ++ broken.eventId.repr ++
          str ", seq=" ++ broken.seq.repr ++ str ", kind=" ++ broken.kind.repr ++ str ")"
        return (some broken, str "ledger chain broken at " ++ where_ ++ str ": reason=" ++ reason ++ str " -- " ++
          meaning ++ str "." ++ blame row predecessor index broken report.reason)
    | _, _ => return (none, str "ledger chain NOT intact after " ++ Str.ofNat report.verified ++
        str " event(s): reason=" ++ reason ++ str " -- " ++ meaning)

def describeBreak (events : List Record) (report : Summary) : Except Error (Option BrokenEvent × Str) :=
  match report.brokenAt with
  | none => describeBreakAt none none report
  | some index =>
      if report.ok ∨ ¬ index < events.length then describeBreakAt none none report
      else describeBreakAt events[index]? (if 0 < index then events[index - 1]? else none) report

/-! ## The report of a list -/

def verifyStream (events : List Record) (expectedLength : Option Int) (expectedHead : Option Str)
    (allowEmpty : Bool) : Except Error ScanReport := do
  let report := Summary.ofChain (← verifyChain events expectedLength expectedHead allowEmpty)
  let (brokenEvent, detail) ← describeBreak events report
  return ⟨report, events.length, expectedLength, expectedHead, ← streamHashOrNone events, brokenEvent, detail⟩

def anchorField (anchor : Record) (name : Str) : Except Error Value :=
  match Dict.get? anchor name with
  | some v => .ok v
  | none => .error (.python .keyError)

def anchorLength (anchor : Record) : Except Error Int := do
  match (← anchorField anchor (str "length")).toInt with
  | .ok length => return length
  | .error cause => .error (.python cause)

def anchorHead (anchor : Record) : Except Error Str := do
  return (← anchorField anchor (str "head_hash")).toStr

def committedHead (anchor : Record) (length : Int) : Except Error (Option Str) :=
  if length = 0 then .ok none else some <$> anchorHead anchor

/-- The report of a stream that verifies with no anchor beside it. -/
def anchorMissing (summary : Summary) (length : Nat) : Summary :=
  { summary with
    ok := false
    reason := some .anchorMissing
    brokenAt := some length }

def anchoredReport (events : List Record) (anchor : Option Record) : Except Error AnchorReport := do
  match anchor with
  | none => do
      let report ← verifyStream events none none false
      if report.summary.ok then
        let summary := anchorMissing report.summary events.length
        return ⟨{ report with
          summary
          detail := (← describeBreak events summary).2 }, none, false⟩
      else return ⟨report, none, false⟩
  | some anchor => do
      let length ← anchorLength anchor
      let expectedHead ← committedHead anchor length
      let report ← verifyStream events (some length) expectedHead (length == 0)
      let anchorOk := (events.length : Int) == length && (length == 0 || report.streamHash == expectedHead)
      return ⟨report, some anchor, anchorOk⟩

/-! ## The report of a scan -/

/-- `_TwoEventWindow`: what is still to come, how many went past, and the last two of them. -/
structure Window where
  rows : List Record
  count : Nat
  previous : Option Record
  current : Option Record

def Window.pass (w : Window) (row : Record) (rows : List Record) : Window where
  rows := rows
  count := w.count + 1
  previous := w.current
  current := some row

omit [Unicode] in
@[simp] theorem Window.pass_count (w : Window) (row : Record) (rows : List Record) :
    (w.pass row rows).count = w.count + 1 := rfl

def Window.drain (w : Window) : Nat := w.rows.foldl (fun count _ => count + 1) w.count

/-- The loop of `verify_chain` over a window. -/
def windowLinks (prev : Str) (index : Nat) (w : Window) :
    List Record → Except Error ((Report ⊕ Str) × Window)
  | [] => .ok (.inr prev, { w with rows := [] })
  | event :: events => do
      let w := w.pass event events
      match ← verifyEvent prev event with
      | .inl reason => return (.inl (broken index reason prev), w)
      | .inr link => windowLinks link (index + 1) w events

def windowChain (w : Window) (expectedLength : Option Int) (expectedHead : Option Str) (allowEmpty : Bool) :
    Except Error (Report × Window) := do
  match ← windowLinks genesisHash 0 w w.rows with
  | (.inl report, w) => return (report, w)
  | (.inr head, w) => return (← verifyAnchor w.count head expectedLength expectedHead allowEmpty, w)

/-- The offending event and the one before it, where the break is one the window has just seen. -/
def Window.offending (w : Window) (report : Summary) : Option Record × Option Record :=
  match report.brokenAt with
  | some index => if report.ok = false ∧ index + 1 = w.count then (w.current, w.previous) else (none, none)
  | none => (none, none)

/-- A rewindable scan hands out the same events each time it is asked. -/
def verifyScan (scan : Unit → List Record) (expectedLength : Option Int) (expectedHead : Option Str)
    (allowEmpty : Bool) : Except Error ScanReport := do
  let (chain, w) ← windowChain ⟨scan (), 0, none, none⟩ expectedLength expectedHead allowEmpty
  let report := Summary.ofChain chain
  let (row, predecessor) := w.offending report
  let length := w.drain
  let (brokenEvent, detail) ← describeBreakAt row predecessor report
  let streamHash ← if report.ok then pure (some report.headHash) else streamHashOrNone (scan ())
  return ⟨report, length, expectedLength, expectedHead, streamHash, brokenEvent, detail⟩

def anchoredScanReport (scan : Unit → List Record) (anchor : Option Record) : Except Error AnchorReport := do
  match anchor with
  | none => do
      let report ← verifyScan scan none none false
      if report.summary.ok then
        let summary := anchorMissing report.summary report.length
        return ⟨{ report with
          summary
          detail := (← describeBreakAt none none summary).2 }, none, false⟩
      else return ⟨report, none, false⟩
  | some anchor => do
      let length ← anchorLength anchor
      let expectedHead ← committedHead anchor length
      let report ← verifyScan scan (some length) expectedHead (length == 0)
      let anchorOk := (report.length : Int) == length && (length == 0 || report.streamHash == expectedHead)
      return ⟨report, some anchor, anchorOk⟩

/-! ## What the window has seen -/

omit [Unicode] in
theorem drain_eq (w : Window) : w.drain = w.count + w.rows.length := by
  unfold Window.drain
  generalize w.count = count
  induction w.rows generalizing count with
  | nil => rfl
  | cons row rows ih =>
      rw [List.foldl_cons, ih, List.length_cons]
      omega

theorem windowLinks_inr {prev : Str} {index : Nat} {events : List Record} {head : Str}
    (links : verifyLinks prev index events = .ok (.inr head)) (w : Window) :
    ∃ w', windowLinks prev index w events = .ok (.inr head, w') ∧
      w'.count = w.count + events.length ∧ w'.rows = [] := by
  induction events generalizing prev index w with
  | nil =>
      cases links
      exact ⟨_, rfl, rfl, rfl⟩
  | cons event events ih =>
      obtain ⟨outcome, checked, links⟩ := bind_eq_ok.mp links
      cases outcome with
      | inl reason => cases links
      | inr link =>
          obtain ⟨w', run, count, rest⟩ := ih links (w.pass event events)
          refine ⟨w', ?_, ?_, rest⟩
          · rw [windowLinks, checked]
            exact run
          · rw [count, Window.pass_count, List.length_cons]
            omega

theorem windowLinks_inl {prev : Str} {index : Nat} {events : List Record} {report : Report}
    (links : verifyLinks prev index events = .ok (.inl report)) (w : Window) :
    ∃ w' before event after, windowLinks prev index w events = .ok (.inl report, w') ∧
      events = before ++ event :: after ∧ report.ok = false ∧ report.brokenAt = some (index + before.length) ∧
      w'.rows = after ∧ w'.count = w.count + before.length + 1 ∧ w'.current = some event ∧
      w'.previous = before.getLast?.or w.current := by
  induction events generalizing prev index w with
  | nil => cases links
  | cons event events ih =>
      obtain ⟨outcome, checked, links⟩ := bind_eq_ok.mp links
      cases outcome with
      | inl reason =>
          cases links
          refine ⟨w.pass event events, [], event, events, ?_, rfl, rfl, rfl, rfl, rfl, rfl, rfl⟩
          rw [windowLinks, checked]
          rfl
      | inr link =>
          obtain ⟨w', before, offending, after, run, split, failed, at_, rest, count, current, previous⟩ :=
            ih links (w.pass event events)
          refine ⟨w', event :: before, offending, after, ?_, by rw [split]; rfl, failed, ?_, rest, ?_, current, ?_⟩
          · rw [windowLinks, checked]
            exact run
          · rw [at_, List.length_cons]
            congr 1
            omega
          · rw [count, Window.pass_count, List.length_cons]
            omega
          · rw [previous, Window.pass, List.getLast?_cons]
            cases before.getLast? <;> rfl

theorem windowLinks_error {prev : Str} {index : Nat} {events : List Record} {cause : Error}
    (links : verifyLinks prev index events = .error cause) (w : Window) :
    windowLinks prev index w events = .error cause := by
  induction events generalizing prev index w with
  | nil => cases links
  | cons event events ih =>
      rw [verifyLinks] at links
      rw [windowLinks]
      cases checked : verifyEvent prev event with
      | error e =>
          rw [checked] at links
          cases links
          rfl
      | ok outcome =>
          rw [checked] at links
          cases outcome with
          | inl reason => cases links
          | inr link => exact ih links (w.pass event events)

/-! ## The two reports agree -/

omit [Unicode] in
theorem verifyAnchor_past {length : Nat} {head : Str} {expectedLength : Option Int} {expectedHead : Option Str}
    {allowEmpty : Bool} {report : Report}
    (run : verifyAnchor length head expectedLength expectedHead allowEmpty = .ok report) :
    (report.ok = true → report.headHash = head) ∧ ∀ index ∈ report.brokenAt, length ≤ index := by
  unfold verifyAnchor at run
  split at run
  · rename_i empty
    cases run
    refine ⟨nofun, fun index broken => ?_⟩
    cases broken
    exact empty.1.le
  · split at run
    · cases run
      refine ⟨nofun, fun index broken => ?_⟩
      cases broken
      exact le_rfl
    · obtain ⟨matched, -, run⟩ := bind_eq_ok.mp run
      cases matched with
      | true =>
          cases run
          exact ⟨fun _ => rfl, nofun⟩
      | false =>
          cases run
          refine ⟨nofun, fun index broken => ?_⟩
          cases broken
          exact le_rfl

theorem describeBreak_past {events : List Record} (report : Summary)
    (past : ∀ index ∈ report.brokenAt, events.length ≤ index) :
    describeBreak events report = describeBreakAt none none report := by
  unfold describeBreak
  cases broken : report.brokenAt with
  | none => rfl
  | some index => exact if_pos (Or.inr (Nat.not_lt.mpr (past index broken)))

theorem describeBreak_at {events before after : List Record} {event : Record} (report : Summary)
    (failed : report.ok = false) (split : events = before ++ event :: after)
    (broken : report.brokenAt = some before.length) :
    describeBreak events report = describeBreakAt (some event) before.getLast? report := by
  have inside : before.length < events.length := by
    rw [split, List.length_append, List.length_cons]
    omega
  have offending : events[before.length]? = some event := by
    rw [split, List.getElem?_append_right le_rfl, Nat.sub_self]
    rfl
  have predecessor : (if 0 < before.length then events[before.length - 1]? else none) = before.getLast? := by
    cases before with
    | nil => rfl
    | cons first before =>
        rw [if_pos (by simp), List.getLast?_eq_getElem?, split, List.getElem?_append_left]
        simp
  unfold describeBreak
  rw [broken]
  dsimp only
  rw [if_neg (by simp [failed, inside]), offending, predecessor]

omit [Unicode] in
theorem offending_past {w : Window} {report : Summary} (past : ∀ index ∈ report.brokenAt, w.count ≤ index) :
    w.offending report = (none, none) := by
  unfold Window.offending
  cases broken : report.brokenAt with
  | none => rfl
  | some index =>
      have beyond := past index broken
      exact if_neg fun last => by omega

theorem verifyScan_eq (scan : Unit → List Record) (expectedLength : Option Int) (expectedHead : Option Str)
    (allowEmpty : Bool) : verifyScan scan expectedLength expectedHead allowEmpty =
      verifyStream (scan ()) expectedLength expectedHead allowEmpty := by
  unfold verifyScan verifyStream windowChain verifyChain
  generalize scan () = events
  cases links : verifyLinks genesisHash 0 events with
  | error cause =>
      rw [windowLinks_error links]
      rfl
  | ok outcome =>
      cases outcome with
      | inl report =>
          obtain ⟨w, before, event, after, run, split, failed, broken, rest, count, current, previous⟩ :=
            windowLinks_inl links ⟨events, 0, none, none⟩
          dsimp only at count previous
          rw [Nat.zero_add] at count
          have brokenAt : (Summary.ofChain report).brokenAt = some before.length := by
            rw [Summary.ofChain, broken, Nat.zero_add]
          have seen : w.offending (Summary.ofChain report) = (some event, before.getLast?) := by
            have last : before.length + 1 = w.count := count.symm
            rw [Window.offending, brokenAt]
            dsimp only
            rw [if_pos ⟨failed, last⟩, current, previous, Option.or_none]
          have whole : w.drain = events.length := by
            rw [drain_eq, rest, count, split, List.length_append, List.length_cons]
            omega
          rw [run]
          simp only [bind, Except.bind, pure, Except.pure, seen, whole,
            describeBreak_at (Summary.ofChain report) failed split brokenAt]
          simp only [Summary.ofChain, failed, Bool.false_eq_true, if_false]
      | inr head =>
          obtain ⟨w, run, count, rest⟩ := windowLinks_inr links ⟨events, 0, none, none⟩
          dsimp only at count
          rw [Nat.zero_add] at count
          have whole : w.drain = events.length := by
            rw [drain_eq, rest, count]
            rfl
          rw [run]
          simp only [bind, Except.bind, pure, Except.pure, count]
          cases judged : verifyAnchor events.length head expectedLength expectedHead allowEmpty with
          | error cause => rfl
          | ok report =>
              obtain ⟨folded, past⟩ := verifyAnchor_past judged
              have unseen : w.offending (Summary.ofChain report) = (none, none) :=
                offending_past (by rw [count]; exact past)
              simp only [unseen, whole, describeBreak_past (Summary.ofChain report) past]
              cases describeBreakAt none none (Summary.ofChain report) with
              | error cause => rfl
              | ok described =>
                  cases ok : report.ok with
                  | true =>
                      have recomputed : streamHashOrNone events = .ok (some report.headHash) := by
                        rw [streamHashOrNone, streamHash, streamHash_of_verified links, folded ok]
                      simp only [Summary.ofChain, ok, if_true, recomputed]
                  | false => simp only [Summary.ofChain, ok, Bool.false_eq_true, if_false]

theorem length_verifyStream {events : List Record} {expectedLength : Option Int} {expectedHead : Option Str}
    {allowEmpty : Bool} {report : ScanReport}
    (run : verifyStream events expectedLength expectedHead allowEmpty = .ok report) :
    report.length = events.length := by
  obtain ⟨chain, -, run⟩ := bind_eq_ok.mp run
  obtain ⟨described, -, run⟩ := bind_eq_ok.mp run
  obtain ⟨hash, -, run⟩ := bind_eq_ok.mp run
  cases run
  rfl

/-- Key for key, whatever the stream and whatever the anchor. -/
theorem anchoredScanReport_eq (scan : Unit → List Record) (anchor : Option Record) :
    anchoredScanReport scan anchor = anchoredReport (scan ()) anchor := by
  unfold anchoredScanReport anchoredReport
  cases anchor with
  | none =>
      dsimp only
      rw [verifyScan_eq]
      cases run : verifyStream (scan ()) none none false with
      | error cause => rfl
      | ok report =>
          have past : ∀ index ∈ (anchorMissing report.summary report.length).brokenAt,
              (scan ()).length ≤ index := by
            intro index broken
            cases broken
            exact (length_verifyStream run).ge
          simp only [bind, Except.bind, ← length_verifyStream run, describeBreak_past _ past]
  | some anchor =>
      dsimp only
      refine bind_congr fun length => bind_congr fun expectedHead => ?_
      rw [verifyScan_eq]
      cases run : verifyStream (scan ()) (some length) expectedHead (length == 0) with
      | error cause => rfl
      | ok report => simp only [bind, Except.bind, ← length_verifyStream run]

end Reports
end Proxyshop.Events.Integrity
