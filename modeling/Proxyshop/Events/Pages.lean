import Proxyshop.Events.StoreInvariant
import Proxyshop.Python.Value
import Proxyshop.Structures.Paging

/-!
# Reading the chain a page at a time

The cursor of a read is the label a row carries. The constructor keeps the labels it is handed, an
append numbers by the length of the list.
-/

namespace Proxyshop.Events

open Python Ledger Structures

/-- `bounded_page`: the rows a generator yields, until it ends, raises or the page is full. -/
def boundedPage (limit : Option Int) (maxBytes : Int) (page : List Record) (used : Nat) :
    List (Except PyError Record) → Except PyError (List Record × Bool)
  | [] => .ok (page, false)
  | .error e :: _ => .error e
  | .ok row :: rows =>
      if limit.any (· ≤ (page.length : Int)) then .ok (page, true)
      else
        let size := (Json.dumps (.dict row)).length
        if page ≠ [] ∧ maxBytes < ((used + size : Nat) : Int) then .ok (page, true)
        else boundedPage limit maxBytes (page ++ [row]) (used + size) rows

theorem boundedPage_spec {limit : Int} (maxBytes : Int) (page : List Record) (used : Nat)
    (rows : List Record) (room : page ≠ [] ∨ 1 ≤ limit) : ∃ taken rest more,
      boundedPage (some limit) maxBytes page used (rows.map .ok) = .ok (page ++ taken, more) ∧
        rows = taken ++ rest ∧ (more = false → rest = []) ∧ (more = true → page ++ taken ≠ []) := by
  induction rows generalizing page used with
  | nil => exact ⟨[], [], false, by simp [boundedPage], rfl, fun _ => rfl, nofun⟩
  | cons row rows ih =>
      rw [List.map_cons, boundedPage]
      by_cases full : limit ≤ page.length
      · refine ⟨[], row :: rows, true, by simp [full], rfl, nofun, fun _ empty => ?_⟩
        rw [List.append_nil] at empty
        rw [empty, List.length_nil] at full
        rcases room with some | positive
        · exact some empty
        · exact absurd (positive.trans full) (by decide)
      · simp only [Option.any_some, full, decide_false, Bool.false_eq_true, if_false]
        split
        · rename_i heavy
          exact ⟨[], row :: rows, true, by simp, rfl, nofun, fun _ => by simpa using heavy.1⟩
        · obtain ⟨taken, rest, more, read, split, done, -⟩ :=
            ih (page ++ [row]) (used + (Json.dumps (.dict row)).length) (Or.inl (by simp))
          refine ⟨row :: taken, rest, more, ?_, by rw [split]; rfl, done, by simp⟩
          rw [read, List.append_assoc, List.singleton_append]

theorem boundedPage_bound {limit maxBytes : Int} {page : List Record} {used : Nat}
    {stream : List (Except PyError Record)} {out : List Record} {more : Bool}
    (read : boundedPage (some limit) maxBytes page used stream = .ok (out, more))
    (room : page.length ≤ limit) :
    out.length ≤ limit ∧ ∀ row ∈ out, row ∈ page ∨ .ok row ∈ stream := by
  induction stream generalizing page used with
  | nil =>
      cases read
      exact ⟨room, fun _ => Or.inl⟩
  | cons item stream ih =>
      cases item with
      | error e => cases read
      | ok row =>
          rw [boundedPage] at read
          by_cases full : limit ≤ page.length
          · simp only [Option.any_some, full, decide_true, if_true] at read
            cases read
            exact ⟨room, fun _ => Or.inl⟩
          · simp only [Option.any_some, full, decide_false, Bool.false_eq_true, if_false] at read
            split at read
            · cases read
              exact ⟨room, fun _ => Or.inl⟩
            · have wider : ((page ++ [row]).length : Int) ≤ limit := by
                rw [List.length_append, List.length_singleton]
                omega
              obtain ⟨short, sources⟩ := ih read wider
              refine ⟨short, fun other member => ?_⟩
              rcases sources other member with old | later
              · rcases List.mem_append.mp old with before | new
                · exact Or.inl before
                · rw [List.mem_singleton.mp new]
                  exact Or.inr List.mem_cons_self
              · exact Or.inr (List.mem_cons_of_mem _ later)

section Pages

variable [Unicode]

/-- `int(row.get("seq", 0))`. -/
def seqOf (row : Record) : Except PyError Int := ((Dict.get? row (str "seq")).getD (.int 0)).toInt

def yielded (after : Int) (row : Record) : Option (Except PyError Record) :=
  match seqOf row with
  | .error e => some (.error e)
  | .ok seq => if after < seq then some (.ok row) else none

def inStoreId (storeId : Option Str) : Except PyError Record → Bool
  | .error _ => true
  | .ok row => storeId.all fun s => (row.get (str "store_id")).asStr? = some s

namespace InMemoryEventStore

def iterEvents (s : InMemoryEventStore) (after : Int) : List (Except PyError Record) :=
  s.events.filterMap (yielded after)

def readPage (s : InMemoryEventStore) (after : Int) (storeId : Option Str) (limit : Option Int)
    (maxBytes : Int) : Except PyError (List Record × Bool) :=
  boundedPage limit maxBytes [] 0 ((s.iterEvents after).filter (inStoreId storeId))

/-- However the pages are bounded, walking them gives the chain. -/
def PagesChain (s : InMemoryEventStore) : Prop :=
  ∀ limit : Int, 1 ≤ limit → ∀ maxBytes : Int,
    Walk seqOf (fun after => s.readPage after none (some limit) maxBytes) 0 s.events

end InMemoryEventStore

namespace InMemoryEventStore

omit [Unicode] in
theorem filter_inStoreId (stream : List (Except PyError Record)) :
    stream.filter (inStoreId none) = stream := by
  rw [List.filter_eq_self]
  intro item _
  cases item <;> rfl

theorem yields_ascending {after : Int} {front back : List Record} (ascending : Ascending seqOf after back)
    (behind : ∀ row ∈ front, ∃ seq, seqOf row = .ok seq ∧ seq ≤ after) :
    (front ++ back).filterMap (yielded after) = back.map .ok := by
  have passed : front.filterMap (yielded after) = [] := by
    rw [List.filterMap_eq_nil_iff]
    intro row member
    obtain ⟨seq, labelled, below⟩ := behind row member
    simp [yielded, labelled, below]
  rw [List.filterMap_append, passed, List.nil_append, ← List.filterMap_eq_map]
  apply List.filterMap_congr
  intro row member
  obtain ⟨seq, labelled, above⟩ := ascending.label_of_mem member
  simp [yielded, labelled, above]

theorem serves_readPage (s : InMemoryEventStore) {limit : Int} (positive : 1 ≤ limit) (maxBytes : Int) :
    Serves seqOf (fun after => s.readPage after none (some limit) maxBytes) s.events := by
  rintro after back ascending ⟨front, split, behind⟩
  obtain ⟨taken, rest, more, read, parts, done, some⟩ :=
    boundedPage_spec maxBytes [] 0 back (Or.inr positive)
  refine ⟨taken, rest, more, ?_, parts, done, some⟩
  show boundedPage _ _ _ _ _ = _
  rw [filter_inStoreId, iterEvents, split, yields_ascending ascending behind]
  exact read

theorem readPage_narrow (s : InMemoryEventStore) {maxBytes after : Int} {taken : List Record} {more : Bool}
    (read : s.readPage after none (some 1) maxBytes = .ok (taken, more)) :
    Ascending seqOf after taken := by
  unfold readPage at read
  rw [filter_inStoreId] at read
  obtain ⟨short, sources⟩ := boundedPage_bound read (by decide)
  match taken with
  | [] => trivial
  | [row] =>
      rcases sources row List.mem_cons_self with old | inside
      · cases old
      · obtain ⟨other, -, yields⟩ := List.mem_filterMap.mp inside
        unfold yielded at yields
        cases labelled : seqOf other with
        | error e => simp [labelled] at yields
        | ok seq =>
            simp only [labelled] at yields
            split at yields
            · rename_i above
              cases yields
              exact ⟨seq, labelled, above, trivial⟩
            · cases yields
  | _ :: _ :: _ =>
      simp only [List.length_cons] at short
      omega

theorem pagesChain_iff_ascending (s : InMemoryEventStore) : PagesChain s ↔ Ascending seqOf 0 s.events := by
  constructor
  · intro pages
    exact ascending_of_walk (fun _ _ _ read => s.readPage_narrow read) (pages 1 (le_refl 1) 0)
  · intro ascending limit positive maxBytes
    exact walk_of_ascending (s.serves_readPage positive maxBytes) ascending ⟨[], rfl, nofun⟩

/-! ## The labels of a store -/

theorem seqOf_numbered (s : InMemoryEventStore) (row : Record) :
    seqOf (s.numbered row) = .ok (s.events.length + 1 : Nat) := by
  rw [seqOf, numbered, Dict.get?_set_self, Option.getD_some, Value.toInt_int]

theorem events_appendAll (s : InMemoryEventStore) (events : List Value) : ∃ rows,
    (s.appendAll events).events = s.events ++ rows ∧ Consecutive seqOf (0 + s.events.length) rows := by
  induction events generalizing s with
  | nil => exact ⟨[], (List.append_nil _).symm, trivial⟩
  | cons event events ih =>
      rcases s.call_cases event with ⟨e, refused⟩ | ⟨_, _, _, _, _, _, _, _, _, same⟩ |
        ⟨body, _, row, _, _, _, _, _, _, _, inserts⟩
      · have kept : s.appendAll (event :: events) = s.appendAll events := by
          rw [appendAll, List.foldl_cons, refused]
          rfl
        rw [kept]
        exact ih s
      · have kept : s.appendAll (event :: events) = s.appendAll events := by
          rw [appendAll, List.foldl_cons, same]
          rfl
        rw [kept]
        exact ih s
      · have grown : s.appendAll (event :: events) =
            (s.inserted (rowId body) (s.numbered row)).appendAll events := by
          rw [appendAll, List.foldl_cons, inserts]
          rfl
        obtain ⟨rows, extended, numbered⟩ := ih (s.inserted (rowId body) (s.numbered row))
        refine ⟨s.numbered row :: rows, ?_, ?_, ?_⟩
        · rw [grown, extended]
          exact List.append_assoc _ _ _
        · rw [seqOf_numbered]
          congr 1
          push_cast
          omega
        · have next : (0 : Int) + ((s.inserted (rowId body) (s.numbered row)).events.length : Nat) =
              0 + (s.events.length : Nat) + 1 := by
            rw [inserted, List.length_append, List.length_singleton]
            push_cast
            omega
          rwa [next] at numbered

end InMemoryEventStore

end Pages

/-- A sealed row as a ledger whose serial has a gap hands it out. -/
def gappedPrefix [Unicode] : List Record :=
  ((chainEvents genesisHash [firstEvent]).toOption.getD []).map fun row =>
    Dict.set row (str "seq") (.int 2)

def secondEvent : Record := Dict.set firstEvent (str "event_id") (.str (str "e-2"))

end Proxyshop.Events
