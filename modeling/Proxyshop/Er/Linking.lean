import Proxyshop.Er.Matching
import Proxyshop.Structures.Labelled
import Mathlib.Data.List.ReduceOption

/-!
# From decisions about pairs to edges

Records that share a key are compared, and the linked pairs are admitted strongest first, unless one
would join two trade items into a component.
-/

namespace Proxyshop.Er

open Python Numbers Contracts Verification Structures

def minBlockTokenLength : Nat := 3

structure SameAsEdge where
  leftId : Str
  rightId : Str
  confidence : Num
  method : Method
  deriving DecidableEq

structure ResolutionReport where
  edges : List SameAsEdge
  threshold : Num
  records : Nat
  compared : Nat
  droppedBlocks : List Str
  withheld : List SameAsEdge

/-! ## Blocking -/

section Blocks

def blocks (keys : List (List Str)) : Dict Str (List Nat) :=
  keys.zipIdx.foldl (fun blocks record =>
    record.1.foldl (fun blocks key => Dict.adjust blocks key [] fun members => members ++ [record.2])
      blocks) []

def expand : List Nat → List (Nat × Nat)
  | [] => []
  | left :: members =>
      (members.map fun right => if left < right then (left, right) else (right, left)) ++ expand members

def pairLe (a b : Nat × Nat) : Bool := a.1 < b.1 || (a.1 == b.1 && a.2 ≤ b.2)

/-- The pairs to score, and the keys of the blocks that are too large to expand. -/
def pairsOfBlocks (maxBlockSize : Int) (blocks : Dict Str (List Nat)) : List (Nat × Nat) × List Str :=
  let large (block : Str × List Nat) : Bool := maxBlockSize < block.2.length
  let ordered := byKey Str.le blocks
  (((ordered.filter fun block => !large block).flatMap fun block => expand block.2).dedup.insertionSort
      fun a b => pairLe a b,
    (ordered.filter large).map Prod.fst)

end Blocks

variable [Spelling Binary64] [Lettering] [Summation]

omit [Summation] in
def blockingKeys (record : Record) : Except PyError (List Str) := do
  let canonicalGtin ← gtinOf record
  let words := (tokens (recordName record)).filter fun token => minBlockTokenLength ≤ token.length
  return ((canonicalGtin.toList.map fun gtin => str "gtin:" ++ gtin) ++
    words.map fun token => str "tok:" ++ token).dedup

omit [Summation] in
def candidatePairs (records : List Record) (maxBlockSize : Int) :
    Except PyError (List (Nat × Nat) × List Str) := do
  return pairsOfBlocks maxBlockSize (blocks (← records.mapM blockingKeys))

/-! ## Resolution -/

structure Proposal where
  edge : SameAsEdge
  left : Nat
  right : Nat

/-- The edge of a decision, if it links two different names. -/
def edgeOf (decision : MatchDecision) : Option SameAsEdge :=
  if !decision.linked then none
  else if decision.pair.1 = [] ∨ decision.pair.2 = [] ∨ decision.pair.1 = decision.pair.2 then none
  else some ⟨decision.pair.1, decision.pair.2, decision.confidence, decision.method⟩

def propose (records : List Record) (threshold : Value) (pair : Nat × Nat) :
    Except PyError (Option Proposal) := do
  let decision ← matching (records[pair.1]?.getD []) (records[pair.2]?.getD []) threshold
  return (edgeOf decision).map fun edge => ⟨edge, pair.1, pair.2⟩

def strBelow (a b : Str) : Bool := !Str.le b a

def edgeBelow (a b : SameAsEdge) : Bool :=
  decide (b.confidence < a.confidence) || (a.confidence = b.confidence &&
    (strBelow a.leftId b.leftId || (a.leftId = b.leftId && strBelow a.rightId b.rightId)))

def idsBelow (a b : SameAsEdge) : Bool :=
  strBelow a.leftId b.leftId || (a.leftId = b.leftId && strBelow a.rightId b.rightId)

def Proposal.ends (p : Proposal) : Nat × Nat := (p.left, p.right)

def known (gtins : List (Option Str)) (position : Nat) : Option Str := gtins[position]?.getD none

/-- `_GtinConsistentComponents`, a position alone in each. -/
def components (gtins : List (Option Str)) : Labelled Nat Str := Labelled.start (known gtins)

def proposals (records : List Record) (threshold : Value) (pairs : List (Nat × Nat)) :
    Except PyError (List Proposal) := do
  let decisions ← pairs.mapM (propose records threshold)
  return decisions.reduceOption.insertionSort fun a b => !edgeBelow b.edge a.edge

def resolve (records : List Record) (threshold : Value) (maxBlockSize : Int) :
    Except PyError ResolutionReport := do
  let (pairs, dropped) ← candidatePairs records maxBlockSize
  let proposed ← proposals records threshold pairs
  let gtins ← records.mapM gtinOf
  let (edges, withheld) := Labelled.sift Proposal.ends (components gtins) proposed
  let floor ← Wire.toDouble threshold
  return {
    edges := (edges.map Proposal.edge).insertionSort fun a b => !idsBelow b a
    threshold := floor
    records := records.length
    compared := pairs.length
    droppedBlocks := dropped
    withheld := (withheld.map Proposal.edge).insertionSort fun a b => !idsBelow b a
  }

omit [Spelling Binary64] [Lettering] [Summation] in
theorem components_sieved (gtins : List (Option Str)) (proposed : List Proposal) :
    Sieved (fun kept p => Labelled.Clash (known gtins) (kept.map Proposal.ends) p.left p.right) []
      proposed (Labelled.sift Proposal.ends (components gtins) proposed).1
      (Labelled.sift Proposal.ends (components gtins) proposed).2 := by
  have tracks : Labelled.Tracks (known gtins) (([] : List Proposal).map Proposal.ends)
      (components gtins) := Labelled.tracks_start _
  exact tracks.sieved proposed

theorem resolve_eq_ok {records : List Record} {threshold : Value} {maxBlockSize : Int}
    {report : ResolutionReport} (resolved : resolve records threshold maxBlockSize = .ok report) :
    ∃ pairs dropped proposed gtins floor,
      candidatePairs records maxBlockSize = .ok (pairs, dropped) ∧
      proposals records threshold pairs = .ok proposed ∧ records.mapM gtinOf = .ok gtins ∧
      Wire.toDouble threshold = .ok floor ∧
      report.edges = ((Labelled.sift Proposal.ends (components gtins) proposed).1.map
        Proposal.edge).insertionSort (fun a b => !idsBelow b a) ∧
      report.threshold = floor ∧ report.records = records.length ∧ report.compared = pairs.length ∧
      report.droppedBlocks = dropped ∧
      report.withheld = ((Labelled.sift Proposal.ends (components gtins) proposed).2.map
        Proposal.edge).insertionSort fun a b => !idsBelow b a := by
  obtain ⟨⟨pairs, dropped⟩, blocked, resolved⟩ := bind_eq_ok.mp resolved
  obtain ⟨proposed, decided, resolved⟩ := bind_eq_ok.mp resolved
  obtain ⟨gtins, read, resolved⟩ := bind_eq_ok.mp resolved
  obtain ⟨floor, number, resolved⟩ := bind_eq_ok.mp resolved
  cases resolved
  exact ⟨pairs, dropped, proposed, gtins, floor, blocked, decided, read, number, rfl, rfl, rfl, rfl, rfl,
    rfl⟩

theorem mem_proposals {records : List Record} {threshold : Value} {pairs : List (Nat × Nat)}
    {proposed : List Proposal} (made : proposals records threshold pairs = .ok proposed) {p : Proposal} :
    p ∈ proposed ↔ p.ends ∈ pairs ∧ ∃ d, matching (records[p.left]?.getD []) (records[p.right]?.getD [])
      threshold = .ok d ∧ edgeOf d = some p.edge := by
  obtain ⟨decisions, walked, made⟩ := bind_eq_ok.mp made
  cases made
  rw [List.mem_insertionSort, List.reduceOption_mem_iff]
  obtain ⟨from_pair, from_member⟩ := mapM_members walked
  constructor
  · intro member
    obtain ⟨pair, inside, proposes⟩ := from_pair _ member
    obtain ⟨d, made, same⟩ := bind_eq_ok.mp proposes
    obtain ⟨edge, linked, rfl⟩ := Option.map_eq_some_iff.mp (Except.ok.inj same)
    exact ⟨inside, d, made, linked⟩
  · rintro ⟨inside, d, made, linked⟩
    obtain ⟨answer, member, proposes⟩ := from_member _ inside
    obtain ⟨d', made', same⟩ := bind_eq_ok.mp proposes
    obtain rfl := Except.ok.inj (made.symm.trans made')
    rw [linked] at same
    cases same
    exact member

omit [Spelling Binary64] [Lettering] [Summation] in
theorem edgeOf_eq_some {d : MatchDecision} {e : SameAsEdge} :
    edgeOf d = some e ↔ d.linked = true ∧ d.pair.1 ≠ [] ∧ d.pair.2 ≠ [] ∧ d.pair.1 ≠ d.pair.2 ∧
      e = ⟨d.pair.1, d.pair.2, d.confidence, d.method⟩ := by
  unfold edgeOf
  cases d.linked with
  | false => exact iff_of_false nofun fun h => Bool.false_ne_true h.1
  | true =>
      rw [Bool.not_true, if_neg Bool.false_ne_true]
      split
      · rename_i degenerate
        refine iff_of_false nofun ?_
        rintro ⟨-, left, right, differ, -⟩
        rcases degenerate with h | h | h
        · exact left h
        · exact right h
        · exact differ h
      · rename_i proper
        push Not at proper
        constructor
        · intro same
          exact ⟨rfl, proper.1, proper.2.1, proper.2.2, (Option.some.inj same).symm⟩
        · intro h
          rw [h.2.2.2.2]

end Proxyshop.Er
