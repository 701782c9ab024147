import Proxyshop.Events.Store
import Proxyshop.Ledger.ChainLaws

/-!
# What holds of the in-memory store after any sequence of appends
-/

namespace Proxyshop.Events

open Python Ledger

namespace InMemoryEventStore

/-! ## The outcomes of one call -/

theorem run_get {β : Type} (f : InMemoryEventStore → StoreM β) (s : InMemoryEventStore) :
    ((get : StoreM InMemoryEventStore) >>= f).run.run s = (f s).run.run s := rfl

theorem run_ledger_ok {α β : Type} {x : Except Error α} {a : α} (h : x = .ok a)
    (f : α → StoreM β) (s : InMemoryEventStore) : (ledger x >>= f).run.run s = (f a).run.run s := by
  subst h
  rfl

theorem run_ledger_error {α β : Type} {x : Except Error α} {e : Error} (h : x = .error e)
    (f : α → StoreM β) (s : InMemoryEventStore) :
    (ledger x >>= f).run.run s = (.error (.ledger e), s) := by
  subst h
  rfl

theorem run_python_ok {α β : Type} {x : Except PyError α} {a : α} (h : x = .ok a)
    (f : α → StoreM β) (s : InMemoryEventStore) : (python x >>= f).run.run s = (f a).run.run s := by
  subst h
  rfl

theorem run_python_error {α β : Type} {x : Except PyError α} {e : PyError} (h : x = .error e)
    (f : α → StoreM β) (s : InMemoryEventStore) :
    (python x >>= f).run.run s = (.error (.ledger (.python e)), s) := by
  subst h
  rfl

def numbered (s : InMemoryEventStore) (row : Record) : Record :=
  Dict.set row (str "seq") (.int (s.events.length + 1 : Nat))

theorem numbered_seq (s : InMemoryEventStore) (row : Record) :
    (s.numbered row).get (str "seq") = .int (s.events.length + 1 : Nat) :=
  Record.get_set_self row _ _

theorem mem_numberRows {index : Nat} {rows : List Record} {row : Record}
    (h : row ∈ numberRows index rows) :
    ∃ old ∈ rows, ∃ n : Nat, row = Dict.setDefault old (str "seq") (.int n) := by
  induction rows generalizing index with
  | nil => cases h
  | cons first rows ih =>
      rcases List.mem_cons.mp h with rfl | later
      · exact ⟨first, List.mem_cons_self, _, rfl⟩
      · obtain ⟨old, member, n, equal⟩ := ih later
        exact ⟨old, List.mem_cons_of_mem _ member, n, equal⟩

theorem numberRows_of_mem (index : Nat) {rows : List Record} {old : Record} (h : old ∈ rows) :
    ∃ n : Nat, Dict.setDefault old (str "seq") (.int n) ∈ numberRows index rows := by
  induction rows generalizing index with
  | nil => cases h
  | cons first rows ih =>
      rcases List.mem_cons.mp h with rfl | later
      · exact ⟨_, List.mem_cons_self⟩
      · obtain ⟨n, member⟩ := ih (index + 1) later
        exact ⟨n, List.mem_cons_of_mem _ member⟩

section Calls

variable [Unicode]

def inserted (s : InMemoryEventStore) (eventId : Str) (row : Record) : InMemoryEventStore where
  events := s.events ++ [row]
  byId := Dict.set s.byId eventId row
  anchorLength := s.anchorLength + 1
  anchorHead := (row.get (str "event_hash")).toStr

theorem run_insertRow (s : InMemoryEventStore) (eventId : Str) {row : Record} {seq : Int}
    (h : (row.get (str "seq")).toInt = .ok seq) : (insertRow eventId row).run.run s =
      (.ok ⟨row, true, (row.get (str "event_hash")).toStr, seq, s.anchorLength + 1⟩,
        s.inserted eventId row) :=
  run_python_ok h
    (fun seq => (pure ⟨row, true, (row.get (str "event_hash")).toStr, seq, s.anchorLength + 1⟩ :
      StoreM AppendOutcome))
    (s.inserted eventId row)

theorem appendNew_cases (s : InMemoryEventStore) (eventId : Str) (body : Record) :
    (∃ e, (appendNew eventId body).run.run s = (.error e, s)) ∨
    ∃ head row outcome, chainHead s.events = .ok head ∧ sealEvent body head = .ok row ∧
      outcome.event = s.numbered row ∧ outcome.inserted = true ∧
      (appendNew eventId body).run.run s = (.ok outcome, s.inserted eventId (s.numbered row)) := by
  rw [appendNew, run_get]
  cases headRead : chainHead s.events with
  | error e => exact Or.inl ⟨_, run_ledger_error rfl _ s⟩
  | ok head =>
      rw [run_ledger_ok rfl]
      cases sealing : sealEvent body head with
      | error e => exact Or.inl ⟨_, run_ledger_error rfl _ s⟩
      | ok row =>
          rw [run_ledger_ok rfl]
          have seqRead : ((s.numbered row).get (str "seq")).toInt = .ok (s.events.length + 1 : Nat) := by
            rw [numbered_seq, Value.toInt_int]
          rw [← numbered, run_insertRow s eventId seqRead]
          exact Or.inr ⟨head, row, _, rfl, sealing, rfl, rfl, rfl⟩

theorem run_answerStored (s : InMemoryEventStore) {existing : Record} {head : Str} {seq : Int}
    (headRead : chainHead s.events = .ok head)
    (seqRead : (existing.get (str "seq")).toInt = .ok seq) :
    (answerStored existing).run.run s = (.ok ⟨existing, false, head, seq, s.events.length⟩, s) := by
  rw [answerStored, run_get, run_ledger_ok headRead, run_python_ok seqRead]
  rfl

theorem run_appendExisting (s : InMemoryEventStore) {existing body : Record} {text head : Str}
    {seq : Int} (stored : canonicalText existing = .ok text)
    (incoming : canonicalJson (.dict body) = .ok text) (headRead : chainHead s.events = .ok head)
    (seqRead : (existing.get (str "seq")).toInt = .ok seq) :
    (appendExisting existing body).run.run s =
      (.ok ⟨existing, false, head, seq, s.events.length⟩, s) := by
  rw [appendExisting, run_ledger_ok stored, run_ledger_ok incoming, if_pos rfl,
    run_answerStored s headRead seqRead]

theorem answerStored_cases (s : InMemoryEventStore) (existing : Record) :
    (∃ e, (answerStored existing).run.run s = (.error e, s)) ∨
    ∃ outcome seq, outcome.event = existing ∧ outcome.inserted = false ∧
      (existing.get (str "seq")).toInt = .ok seq ∧
      (answerStored existing).run.run s = (.ok outcome, s) := by
  rw [answerStored, run_get]
  cases headRead : chainHead s.events with
  | error e => exact Or.inl ⟨_, run_ledger_error rfl _ s⟩
  | ok head =>
      rw [run_ledger_ok rfl]
      cases seqRead : (existing.get (str "seq")).toInt with
      | error e => exact Or.inl ⟨_, run_python_error rfl _ s⟩
      | ok seq =>
          rw [run_python_ok rfl]
          exact Or.inr ⟨_, seq, rfl, rfl, rfl, rfl⟩

theorem appendExisting_cases (s : InMemoryEventStore) (existing body : Record) :
    (∃ e, (appendExisting existing body).run.run s = (.error e, s)) ∨
    ∃ outcome seq, outcome.event = existing ∧ outcome.inserted = false ∧
      (existing.get (str "seq")).toInt = .ok seq ∧
      (appendExisting existing body).run.run s = (.ok outcome, s) := by
  rw [appendExisting]
  cases stored : canonicalText existing with
  | error e => exact Or.inl ⟨_, run_ledger_error rfl _ s⟩
  | ok text =>
      rw [run_ledger_ok rfl]
      cases incoming : canonicalJson (.dict body) with
      | error e => exact Or.inl ⟨_, run_ledger_error rfl _ s⟩
      | ok text' =>
          rw [run_ledger_ok rfl]
          split
          · exact answerStored_cases s existing
          · exact Or.inl ⟨_, rfl⟩

theorem call_of_normal (s : InMemoryEventStore) {event : Value} {body : Record}
    (h : normaliseEvent event = .ok body) : s.call event =
      (match Dict.get? s.byId (rowId body) with
        | some existing => appendExisting existing body
        | none => appendNew (rowId body) body).run.run s := by
  rw [call, append, h]
  rfl

theorem call_cases (s : InMemoryEventStore) (event : Value) :
    (∃ e, s.call event = (.error e, s)) ∨
    (∃ body existing outcome seq, normaliseEvent event = .ok body ∧
      Dict.get? s.byId (rowId body) = some existing ∧ outcome.event = existing ∧
      outcome.inserted = false ∧ (existing.get (str "seq")).toInt = .ok seq ∧
      s.call event = (.ok outcome, s)) ∨
    ∃ body head row outcome, normaliseEvent event = .ok body ∧
      Dict.get? s.byId (rowId body) = none ∧ chainHead s.events = .ok head ∧
      sealEvent body head = .ok row ∧ outcome.event = s.numbered row ∧ outcome.inserted = true ∧
      s.call event = (.ok outcome, s.inserted (rowId body) (s.numbered row)) := by
  cases normal : normaliseEvent event with
  | error e =>
      left
      refine ⟨e, ?_⟩
      rw [call, append, normal]
      rfl
  | ok body =>
      rw [call_of_normal s normal]
      cases found : Dict.get? s.byId (rowId body) with
      | some existing =>
          rcases appendExisting_cases s existing body with ⟨e, refused⟩ | ⟨outcome, seq, event, kept, read, answer⟩
          · exact Or.inl ⟨e, refused⟩
          · exact Or.inr (Or.inl ⟨body, existing, outcome, seq, rfl, found, event, kept, read, answer⟩)
      | none =>
          rcases appendNew_cases s (rowId body) body with ⟨e, refused⟩ | ⟨head, row, outcome, rest⟩
          · exact Or.inl ⟨e, refused⟩
          · obtain ⟨headRead, sealing, event, new, answer⟩ := rest
            exact Or.inr (Or.inr ⟨body, head, row, outcome, rfl, found, headRead, sealing, event, new, answer⟩)

/-! ## The invariant the store keeps -/

def Reappendable (row : Record) : Prop :=
  ∃ body, normaliseEvent (.dict row) = .ok body ∧ rowId body = rowId row

structure Sound (s : InMemoryEventStore) : Prop where
  linked : verifyLinks genesisHash 0 s.events = .ok (.inr s.anchorHead)
  counted : s.anchorLength = s.events.length
  distinct : (s.events.map rowId).Nodup
  indexed : ∀ eventId row, Dict.get? s.byId eventId = some row ↔ row ∈ s.events ∧ rowId row = eventId
  readable : ∀ row ∈ s.events, Reappendable row → ∃ n, (row.get (str "seq")).toInt = .ok n

theorem rowId_set {k : Str} (other : str "event_id" ≠ k) (row : Record) (v : Value) :
    rowId (Dict.set row k v) = rowId row := by
  rw [rowId, Record.get_set_ne _ _ other, rowId]

theorem normaliseEvent_eq_ok {event : Value} {body : Record} (h : normaliseEvent event = .ok body) :
    ∃ fields, event = .dict fields ∧ canonicalEvent fields = .ok body ∧ checkBody body = .ok () := by
  unfold normaliseEvent at h
  split at h
  · rename_i fields
    split at h
    · rename_i made
      obtain ⟨_, checked, h⟩ := bind_eq_ok.mp h
      cases h
      exact ⟨fields, rfl, made, checked⟩
    · cases h
  · cases h

theorem normaliseEvent_of_canonical {row body : Record} {event : Value}
    (h : normaliseEvent event = .ok body) (canonical : canonicalEvent row = .ok body) :
    normaliseEvent (.dict row) = .ok body := by
  obtain ⟨fields, -, -, checked⟩ := normaliseEvent_eq_ok h
  simp only [normaliseEvent, canonical, checked, bind, Except.bind, pure, Except.pure]

theorem numbered_of_sealed (s : InMemoryEventStore) {body row : Record} {prev : Str}
    (ascii : Str.isAscii prev = true) (h : sealEvent body prev = .ok row) :
    rowId (s.numbered row) = rowId body ∧ canonicalEvent (s.numbered row) = canonicalEvent body ∧
      verifyEvent prev (s.numbered row) =
        .ok (.inr ((s.numbered row).get (str "event_hash")).toStr) := by
  obtain ⟨hash, stored, checked⟩ := verifyEvent_sealed ascii h
  obtain ⟨_, computed, rfl⟩ := sealEvent_eq_ok h
  refine ⟨?_, ?_, ?_⟩
  · rw [numbered, rowId_set (by decide), rowId_set (by decide), rowId_set (by decide)]
  · rw [numbered, canonicalEvent_set (by decide), canonicalEvent_set (by decide),
      canonicalEvent_set (by decide)]
  · rw [numbered, verifyEvent_set (by decide) (by decide) (by decide), checked,
      Record.get_set_ne _ _ (by decide), stored, Value.toStr_str]

theorem Sound.chainHead {s : InMemoryEventStore} (sound : Sound s) :
    chainHead s.events = .ok s.anchorHead := chainHead_of_verified sound.linked

theorem Sound.inserted {s : InMemoryEventStore} (sound : Sound s) {body row : Record}
    (fresh : Dict.get? s.byId (rowId body) = none) (sealing : sealEvent body s.anchorHead = .ok row) :
    Sound (s.inserted (rowId body) (s.numbered row)) := by
  have ascii : Str.isAscii s.anchorHead = true := ascii_of_verified (by decide) sound.linked
  obtain ⟨sameId, -, checked⟩ := s.numbered_of_sealed ascii sealing
  have absent : ∀ old ∈ s.events, rowId old ≠ rowId body := by
    intro old member same
    have found := (sound.indexed (rowId body) old).mpr ⟨member, same⟩
    rw [fresh] at found
    cases found
  constructor
  · rw [InMemoryEventStore.inserted, verifyLinks_append sound.linked, verifyLinks, checked]
    rfl
  · rw [InMemoryEventStore.inserted, sound.counted, List.length_append, List.length_singleton]
  · rw [InMemoryEventStore.inserted, List.map_append, List.nodup_append]
    refine ⟨sound.distinct, List.nodup_singleton _, ?_⟩
    intro eventId old eventId' new
    obtain ⟨oldRow, member, rfl⟩ := List.mem_map.mp old
    rw [List.map_singleton, List.mem_singleton] at new
    rw [new, sameId]
    exact absent oldRow member
  · intro eventId other
    rw [InMemoryEventStore.inserted, Dict.get?_set]
    simp only [List.mem_append, List.mem_singleton]
    split
    · rename_i same
      subst same
      constructor
      · intro equal
        rw [← Option.some.inj equal]
        exact ⟨Or.inr rfl, sameId⟩
      · rintro ⟨member | rfl, equal⟩
        · exact absurd equal (absent other member)
        · rfl
    · rename_i different
      rw [sound.indexed]
      constructor
      · rintro ⟨member, equal⟩
        exact ⟨Or.inl member, equal⟩
      · rintro ⟨member | rfl, equal⟩
        · exact ⟨member, equal⟩
        · exact absurd (equal.symm.trans sameId) different
  · intro other member reappendable
    rcases List.mem_append.mp member with old | new
    · exact sound.readable other old reappendable
    · rw [List.mem_singleton.mp new]
      exact ⟨_, by rw [numbered_seq, Value.toInt_int]⟩

theorem Sound.call {s : InMemoryEventStore} (sound : Sound s) (event : Value) :
    Sound (s.call event).2 := by
  rcases s.call_cases event with ⟨e, refused⟩ | ⟨_, _, outcome, _, _, _, _, _, _, answered⟩ |
      ⟨body, head, row, outcome, _, fresh, headRead, sealing, _, _, stored⟩
  · rw [refused]
    exact sound
  · rw [answered]
    exact sound
  · rw [stored]
    rw [sound.chainHead] at headRead
    obtain rfl := Except.ok.inj headRead
    exact sound.inserted fresh sealing

theorem Sound.appendAll {s : InMemoryEventStore} (sound : Sound s) (events : List Value) :
    Sound (s.appendAll events) := by
  induction events generalizing s with
  | nil => exact sound
  | cons event events ih => exact ih (sound.call event)

/-! ## The ledger property -/

structure LedgerProperty (s : InMemoryEventStore) : Prop where
  verifies : ∃ report, s.verify = .ok report ∧ report.ok = true ∧ report.anchorOk = true
  accepted : ∀ event outcome s', s.call event = (.ok outcome, s') →
    if outcome.inserted then
      ∃ body, normaliseEvent event = .ok body ∧ canonicalEvent outcome.event = .ok body ∧
        rowId outcome.event = rowId body ∧ s'.events = s.events ++ [outcome.event]
    else s' = s
  refused : ∀ event e s', s.call event = (.error e, s') → s' = s
  reappended : ∀ row ∈ s.events, ∀ event body, normaliseEvent event = .ok body →
    canonicalEvent row = .ok body → rowId row = rowId body →
      ∃ outcome, s.call event = (.ok outcome, s) ∧ outcome.event = row ∧ outcome.inserted = false
  distinct : (s.events.map rowId).Nodup

theorem Sound.verifies {s : InMemoryEventStore} (sound : Sound s) :
    ∃ report, s.verify = .ok report ∧ report.ok = true ∧ report.anchorOk = true := by
  have hash : streamHashOrNone s.events = .ok (some s.anchorHead) := by
    rw [streamHashOrNone, streamHash, streamHash_of_verified sound.linked]
  have ascii : Str.isAscii s.anchorHead = true := ascii_of_verified (by decide) sound.linked
  have anchor : verifyAnchor s.events.length s.anchorHead (some (s.events.length : Int))
      (if s.events.length ≠ 0 then some s.anchorHead else none) (s.events.length == 0) =
        .ok ⟨true, none, none, s.anchorHead, s.events.length⟩ := by
    rw [verifyAnchor, if_neg (by simp), if_neg (by simp)]
    cases count : s.events.length with
    | zero => rfl
    | succ n =>
        rw [if_pos (Nat.succ_ne_zero n), Option.elim_some, compareDigest_self ascii]
        rfl
  have chain : verifyChain s.events (some (s.events.length : Int))
      (if s.events.length ≠ 0 then some s.anchorHead else none) (s.events.length == 0) =
        .ok ⟨true, none, none, s.anchorHead, s.events.length⟩ := by
    rw [verifyChain, sound.linked]
    exact anchor
  refine ⟨⟨⟨⟨true, none, none, s.anchorHead, s.events.length⟩, s.events.length,
    some (s.events.length : Int), if s.events.length ≠ 0 then some s.anchorHead else none,
    some s.anchorHead⟩, true⟩, ?_, rfl, rfl⟩
  rw [verify, anchoredReport, sound.counted, verifyStream, chain, hash]
  simp [bind, Except.bind, pure, Except.pure]

theorem Sound.reappended {s : InMemoryEventStore} (sound : Sound s) {row : Record}
    (member : row ∈ s.events) {event : Value} {body : Record} (normal : normaliseEvent event = .ok body)
    (canonical : canonicalEvent row = .ok body) (sameId : rowId row = rowId body) :
    ∃ outcome, s.call event = (.ok outcome, s) ∧ outcome.event = row ∧ outcome.inserted = false := by
  have found : Dict.get? s.byId (rowId body) = some row := (sound.indexed _ _).mpr ⟨member, sameId⟩
  obtain ⟨seq, seqRead⟩ := sound.readable row member
    ⟨body, normaliseEvent_of_canonical normal canonical, sameId.symm⟩
  obtain ⟨text, stored⟩ := canonicalText_of_verified sound.linked row member
  have incoming : canonicalJson (.dict body) = .ok text := by
    rw [← stored, canonicalText, canonical]
    rfl
  refine ⟨⟨row, false, s.anchorHead, seq, s.events.length⟩, ?_, rfl, rfl⟩
  rw [call_of_normal s normal, found]
  exact run_appendExisting s stored incoming sound.chainHead seqRead

theorem Sound.ledgerProperty {s : InMemoryEventStore} (sound : Sound s) : LedgerProperty s where
  verifies := sound.verifies
  accepted := by
    intro event outcome s' answered
    rcases s.call_cases event with ⟨e, refused⟩ | ⟨_, _, outcome', _, _, _, _, kept, _, same⟩ |
      ⟨body, head, row, outcome', normal, fresh, headRead, sealing, event', new, stored⟩
    · rw [refused] at answered
      cases answered
    · rw [same] at answered
      cases answered
      rw [kept]
      rfl
    · rw [stored] at answered
      cases answered
      have ascii := ascii_of_verified (by decide) sound.linked
      rw [sound.chainHead] at headRead
      obtain rfl := Except.ok.inj headRead
      obtain ⟨sameId, canonical, -⟩ := s.numbered_of_sealed ascii sealing
      obtain ⟨fields, -, made, -⟩ := normaliseEvent_eq_ok normal
      rw [new, if_pos rfl, event']
      obtain ⟨again, read⟩ := canonicalEvent_of_sealed sealing
      exact ⟨body, normal, by rw [canonical, read, canonicalEvent_idem made read], sameId, rfl⟩
  refused := by
    intro event e s' refused
    rcases s.call_cases event with ⟨e', same⟩ | ⟨_, _, _, _, _, _, _, _, _, answered⟩ |
      ⟨_, _, _, _, _, _, _, _, _, _, stored⟩
    · rw [same] at refused
      cases refused
      rfl
    · rw [answered] at refused
      cases refused
    · rw [stored] at refused
      cases refused
  reappended := fun _ member _ _ normal canonical sameId => sound.reappended member normal canonical sameId
  distinct := sound.distinct

/-! ## The constructor -/

/-- The prefix gives each of its rows an id of its own, and a row that can be appended again a
`seq` that `int` reads, where it has one. -/
structure PrefixCondition (rows : List Record) : Prop where
  distinct : (rows.map rowId).Nodup
  readable : ∀ row ∈ rows, Reappendable row → ∀ v, Dict.get? row (str "seq") = some v →
    ∃ n, v.toInt = .ok n

theorem rowId_setDefault {k : Str} (other : str "event_id" ≠ k) (row : Record) (v : Value) :
    rowId (Dict.setDefault row k v) = rowId row := by
  rw [Dict.setDefault_eq]
  split
  · rfl
  · exact rowId_set other row v

theorem canonicalEvent_setDefault {k : Str} (chain : k ∈ chainFields) (row : Record) (v : Value) :
    canonicalEvent (Dict.setDefault row k v) = canonicalEvent row := by
  rw [Dict.setDefault_eq]
  split
  · rfl
  · exact canonicalEvent_set chain row v

theorem reappendable_setDefault (row : Record) (v : Value) :
    Reappendable (Dict.setDefault row (str "seq") v) ↔ Reappendable row := by
  simp only [Reappendable, normaliseEvent, canonicalEvent_setDefault (k := str "seq") (by decide),
    rowId_setDefault (k := str "seq") (by decide)]

theorem map_rowId_numberRows (index : Nat) (rows : List Record) :
    (numberRows index rows).map rowId = rows.map rowId := by
  induction rows generalizing index with
  | nil => rfl
  | cons row rows ih => rw [numberRows, List.map_cons, List.map_cons, ih, rowId_setDefault (by decide)]

theorem verifyLinks_numberRows {prev : Str} (start index : Nat) (rows : List Record) :
    verifyLinks prev start (numberRows index rows) = verifyLinks prev start rows := by
  induction rows generalizing prev start index with
  | nil => rfl
  | cons row rows ih =>
      have same : verifyEvent prev (Dict.setDefault row (str "seq") (.int (index + 1 : Nat))) =
          verifyEvent prev row := by
        rw [Dict.setDefault_eq]
        split
        · rfl
        · exact verifyEvent_set (by decide) (by decide) (by decide) prev row _
      simp only [numberRows, verifyLinks, same, ih]

theorem get?_indexRows_aux {rows : List Record} (distinct : (rows.map rowId).Nodup)
    (byId : Dict Str Record) (eventId : Str) (row : Record) :
    Dict.get? (rows.foldl (fun byId row => Dict.set byId (rowId row) row) byId) eventId = some row ↔
      (row ∈ rows ∧ rowId row = eventId) ∨
        (eventId ∉ rows.map rowId ∧ Dict.get? byId eventId = some row) := by
  induction rows generalizing byId with
  | nil => simp
  | cons first rows ih =>
      obtain ⟨fresh, rest⟩ := List.nodup_cons.mp distinct
      rw [List.foldl_cons, ih rest, Dict.get?_set, List.map_cons, List.mem_cons (a := eventId), not_or]
      by_cases same : eventId = rowId first
      · subst same
        have elsewhere : ¬ (row ∈ rows ∧ rowId row = rowId first) := by
          rintro ⟨member, equal⟩
          exact fresh (equal ▸ List.mem_map_of_mem member)
        constructor
        · rintro (old | ⟨-, new⟩)
          · exact absurd old elsewhere
          · rw [if_pos rfl] at new
            obtain rfl := Option.some.inj new
            exact Or.inl ⟨List.mem_cons_self, rfl⟩
        · rintro (⟨member, equal⟩ | ⟨⟨other, -⟩, -⟩)
          · rcases List.mem_cons.mp member with rfl | later
            · exact Or.inr ⟨fresh, by rw [if_pos rfl]⟩
            · exact absurd ⟨later, equal⟩ elsewhere
          · exact absurd rfl other
      · rw [if_neg same]
        constructor
        · rintro (⟨member, equal⟩ | ⟨other, old⟩)
          · exact Or.inl ⟨List.mem_cons_of_mem _ member, equal⟩
          · exact Or.inr ⟨⟨same, other⟩, old⟩
        · rintro (⟨member, equal⟩ | ⟨⟨-, other⟩, old⟩)
          · rcases List.mem_cons.mp member with rfl | later
            · exact absurd equal.symm same
            · exact Or.inl ⟨later, equal⟩
          · exact Or.inr ⟨other, old⟩

theorem get?_indexRows {rows : List Record} (distinct : (rows.map rowId).Nodup) (eventId : Str)
    (row : Record) :
    Dict.get? (indexRows rows) eventId = some row ↔ row ∈ rows ∧ rowId row = eventId := by
  rw [indexRows, get?_indexRows_aux distinct]
  simp

theorem init_eq_ok {rows : List Record} {s : InMemoryEventStore} (h : init rows = .ok s) :
    ∃ head, verifyLinks genesisHash 0 rows = .ok (.inr head) ∧ s.events = numberRows 0 rows ∧
      s.byId = indexRows (numberRows 0 rows) ∧ s.anchorLength = rows.length ∧ s.anchorHead = head := by
  have lengths : (numberRows 0 rows).length = rows.length := by
    simpa using congrArg List.length (map_rowId_numberRows 0 rows)
  unfold init at h
  split at h
  · rename_i empty
    obtain rfl := List.isEmpty_iff.mp empty
    cases h
    exact ⟨genesisHash, rfl, rfl, rfl, rfl, rfl⟩
  · split at h
    · cases h
    · rename_i report verified
      split at h
      · rename_i ok
        obtain ⟨chain, checked, rest⟩ := bind_eq_ok.mp verified
        obtain ⟨hash, -, rest⟩ := bind_eq_ok.mp rest
        cases rest
        obtain ⟨head, linked⟩ := verifyLinks_of_ok checked ok
        have headRead : chainHead (numberRows 0 rows) = .ok head :=
          chainHead_of_verified (by rw [verifyLinks_numberRows, linked])
        simp only [headRead] at h
        cases h
        exact ⟨head, linked, rfl, rfl, lengths, rfl⟩
      · cases h

theorem init_of_verified {rows : List Record} {head : Str}
    (h : verifyLinks genesisHash 0 rows = .ok (.inr head)) : ∃ s, init rows = .ok s := by
  unfold init
  split
  · exact ⟨_, rfl⟩
  · rename_i filled
    have nonempty : rows.length ≠ 0 := by simpa [List.isEmpty_iff] using filled
    have chain : verifyChain rows none none false = .ok ⟨true, none, none, head, rows.length⟩ := by
      rw [verifyChain, h]
      simp [bind, Except.bind, verifyAnchor, nonempty, pure, Except.pure]
    have stream : verifyStream rows none none false =
        .ok ⟨⟨true, none, none, head, rows.length⟩, rows.length, none, none, some head⟩ := by
      rw [verifyStream, chain, streamHashOrNone, streamHash, streamHash_of_verified h]
      rfl
    have headRead : chainHead (numberRows 0 rows) = .ok head :=
      chainHead_of_verified (by rw [verifyLinks_numberRows, h])
    rw [stream]
    simp only [if_pos, headRead]
    exact ⟨_, rfl⟩

theorem map_rowId_chainEvents {prev : Str} {events rows : List Record}
    (h : chainEvents prev events = .ok rows) : rows.map rowId = events.map rowId := by
  induction events generalizing prev rows with
  | nil =>
      cases h
      rfl
  | cons event events ih =>
      obtain ⟨row, sealing, h⟩ := bind_eq_ok.mp h
      obtain ⟨rest, later, h⟩ := bind_eq_ok.mp h
      cases h
      obtain ⟨hash, -, rfl⟩ := sealEvent_eq_ok sealing
      rw [List.map_cons, List.map_cons, ih later, rowId_set (by decide), rowId_set (by decide)]

theorem sound_init {rows : List Record} {s : InMemoryEventStore} (h : init rows = .ok s)
    (condition : PrefixCondition rows) : Sound s := by
  obtain ⟨head, linked, events, byId, length, anchorHead⟩ := init_eq_ok h
  have distinct : ((numberRows 0 rows).map rowId).Nodup := by
    rw [map_rowId_numberRows]
    exact condition.distinct
  constructor
  · rw [events, verifyLinks_numberRows, linked, anchorHead]
  · rw [length, events]
    have lengths := congrArg List.length (map_rowId_numberRows 0 rows)
    simpa using lengths.symm
  · rw [events]
    exact distinct
  · intro eventId row
    rw [byId, events, get?_indexRows distinct]
  · intro row member reappendable
    rw [events] at member
    obtain ⟨old, inPrefix, n, rfl⟩ := mem_numberRows member
    rw [reappendable_setDefault] at reappendable
    have read := condition.readable old inPrefix reappendable
    rw [Record.get, Dict.get?_setDefault, if_pos rfl]
    cases stored : Dict.get? old (str "seq") with
    | none => exact ⟨n, rfl⟩
    | some v => exact read v stored

end Calls

end InMemoryEventStore
end Proxyshop.Events
