import Proxyshop.Structures.Sorted
import Proxyshop.Structures.Interleaving
import Mathlib.Data.Rat.Defs
import Mathlib.Algebra.Order.Ring.Rat

/-!
# The durable posterior book

A hash holds two fields for every pair of a cluster and a store, and a sorted set holds the instant of
its last write. Writers record outcomes one command at a time.
-/

namespace Proxyshop.Policy

open Python Structures

inductive Half
  | alpha
  | beta
  deriving DecidableEq

structure Prior where
  alpha : ℚ
  beta : ℚ
  deriving DecidableEq

def Prior.mass (prior : Prior) : ℚ := prior.alpha + prior.beta

/-- One outcome to record, of the pair named by its member of the sorted set. -/
structure Outcome where
  member : Str
  converted : Bool
  prior : Prior

/-! ## Commands -/

inductive Command
  | zadd (member : Str)
  | zcard
  | zpopmin (count : Nat)
  | hdel (member : Str)
  | hsetnx (member : Str) (half : Half) (value : ℚ)
  | hincrbyfloat (member : Str) (half : Half) (amount : ℚ)

abbrev Reply : Command → Type
  | .zcard => Nat
  | .zpopmin _ => List Str
  | _ => Unit

/-- `bandit:pairs` and `bandit:posteriors`. -/
structure Book where
  pairs : Dict Str ℚ
  posteriors : Dict (Str × Half) ℚ

namespace Book

def empty : Book := ⟨[], []⟩

def ranked (entry entry' : Str × ℚ) : Bool :=
  entry.2 < entry'.2 || (entry.2 = entry'.2 && Str.le entry.1 entry'.1)

def lowest (pairs : Dict Str ℚ) (count : Nat) : List Str :=
  ((pairs.insertionSort fun entry entry' => ranked entry entry').take count).map Prod.fst

def run (clock : ℚ) (book : Book) : (command : Command) → Reply command × Book
  | .zadd member => ((), { book with pairs := Dict.set book.pairs member clock })
  | .zcard => (book.pairs.length, book)
  | .zpopmin count =>
      (lowest book.pairs count,
        { book with pairs := book.pairs.filter fun entry => entry.1 ∉ lowest book.pairs count })
  | .hdel member => ((), { book with posteriors := book.posteriors.filter fun field => field.1.1 ≠ member })
  | .hsetnx member half value =>
      ((), { book with posteriors := Dict.setDefault book.posteriors (member, half) value })
  | .hincrbyfloat member half amount =>
      ((), { book with posteriors := Dict.adjust book.posteriors (member, half) 0 (· + amount) })

end Book

/-! ## Recording an outcome -/

abbrev Recording := Program Command Reply Empty Unit

def send (command : Command) : Program Command Reply Empty (Reply command) := Program.operation command

/-- The fields of the pairs that were popped are deleted one pair after the other. -/
def evict : List Str → Recording
  | [] => pure ()
  | stale :: rest => do
      send (.hdel stale)
      evict rest

def evictOverflow (overflow : Nat) : Recording :=
  if 0 < overflow then do
    let evicted ← send (.zpopmin overflow)
    evict evicted
  else pure ()

/-- The prior is seeded where it is not there, and the outcome is counted. -/
def fold (outcome : Outcome) : Recording := do
  send (.hsetnx outcome.member .alpha outcome.prior.alpha)
  send (.hsetnx outcome.member .beta outcome.prior.beta)
  send (.hincrbyfloat outcome.member (if outcome.converted then .alpha else .beta) 1)

/-- `_write`. -/
def write (maxPairs : Nat) (outcome : Outcome) : Recording := do
  send (.zadd outcome.member)
  let size ← send .zcard
  evictOverflow (size - maxPairs)
  fold outcome

/-! ## History -/

inductive Stage
  | idle
  | touched
  | counted (overflow : Nat)
  | evicting (stale : List Str)
  | halfSeeded
  | seeded
  deriving DecidableEq

/-- The pairs that the call has popped and whose fields it has not deleted. -/
def Stage.leaving : Stage → List Str
  | .evicting stale => stale
  | _ => []

def Stage.after (maxPairs : Nat) (stage : Stage) : (command : Command) → Reply command → Stage
  | .zadd _, _ => .touched
  | .zcard, size => .counted (size - maxPairs)
  | .zpopmin _, popped => .evicting popped
  | .hdel _, _ => .evicting stage.leaving.tail
  | .hsetnx _ .alpha _, _ => .halfSeeded
  | .hsetnx _ .beta _, _ => .seeded
  | .hincrbyfloat _ _ _, _ => .idle

/-- The book with where the calls stand, how many outcomes of each pair were counted since it was last
evicted, and which call seeded it. -/
structure History (ι : Type) where
  book : Book
  stages : ι → Stage
  outcomes : Str → Nat
  seeder : Str → Option ι

namespace History

variable {ι : Type}

def initial : History ι := ⟨Book.empty, fun _ => .idle, fun _ => 0, fun _ => none⟩

def counts (s : History ι) : (command : Command) → Reply command → Str → Nat
  | .zpopmin _, popped, member => if member ∈ popped then 0 else s.outcomes member
  | .hincrbyfloat counted _ _, _, member =>
      if member = counted then s.outcomes member + 1 else s.outcomes member
  | _, _, member => s.outcomes member

def seeders (s : History ι) (i : ι) : Command → Str → Option ι
  | .hsetnx seeded .alpha _, member =>
      if member = seeded ∧ Dict.get? s.book.posteriors (seeded, .alpha) = none then some i
      else s.seeder member
  | _, member => s.seeder member

end History

variable {ι : Type} [DecidableEq ι]

def Effect (maxPairs : Nat) (i : ι) (s : History ι) (command : Command) (reply : Reply command)
    (s' : History ι) : Prop :=
  ∃ clock, reply = (s.book.run clock command).1 ∧
    s' =
      { book := (s.book.run clock command).2
        stages := Function.update s.stages i ((s.stages i).after maxPairs command reply)
        outcomes := s.counts command reply
        seeder := s.seeders i command }

def Quiet (s : History ι) : Prop := ∀ i, s.stages i = .idle

/-- The two structures name the same pairs, and every pair holds its prior and its outcomes. -/
structure Consistent (maxPairs : Nat) (outcomes : ι → Outcome) (s : History ι) : Prop where
  bounded : s.book.pairs.length ≤ maxPairs
  fields : ∀ member half, (member, half) ∈ Dict.keys s.book.posteriors ↔ member ∈ Dict.keys s.book.pairs
  counts : ∀ member ∈ Dict.keys s.book.pairs, ∃ i alpha beta, s.seeder member = some i ∧
    (outcomes i).member = member ∧ Dict.get? s.book.posteriors (member, .alpha) = some alpha ∧
    Dict.get? s.book.posteriors (member, .beta) = some beta ∧
    alpha + beta = (outcomes i).prior.mass + s.outcomes member

/-- A pop takes no pair that a call is recording, a pair is seeded only when no call has still to delete
its fields, and both halves of a pair are seeded from one prior. -/
def Orderly (outcomes : ι → Outcome) (s : History ι) : Command → Prop
  | .zpopmin count => ∀ member ∈ Book.lowest s.book.pairs count, ∀ j, s.stages j ≠ .idle →
      (outcomes j).member ≠ member
  | .hsetnx member .alpha _ => ∀ j, member ∉ (s.stages j).leaving
  | .hsetnx member .beta value => Dict.get? s.book.posteriors (member, .beta) = none →
      ∀ j, s.seeder member = some j → (outcomes j).prior.beta = value
  | _ => True

def OrderlyEffect (maxPairs : Nat) (outcomes : ι → Outcome) (i : ι) (s : History ι)
    (command : Command) (reply : Reply command) (s' : History ι) : Prop :=
  Effect maxPairs i s command reply s' ∧ Orderly outcomes s command

def fresh (maxPairs : Nat) (outcomes : ι → Outcome) : World (History ι) ι Command Reply Empty Unit where
  shared := History.initial
  calls := fun i => write maxPairs (outcomes i)

end Proxyshop.Policy
