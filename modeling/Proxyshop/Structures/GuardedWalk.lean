import Mathlib.Data.List.Basic
import Mathlib.Data.Fintype.Card

/-!
# Walks that are guarded against cycles

A visit records what it finds and calls further visits, in an order of its own. A call that meets a name
already on its path is closed, and a walk that is nested too deeply is cut short: it keeps what it has
found, and goes no further anywhere.
-/

namespace Proxyshop.Structures

inductive Errand (R C : Type)
  | found (record : R)
  | call (next : C)

structure Trail (R : Type) where
  found : List R
  finished : Bool

namespace Trail

variable {R : Type}

def done (found : List R) : Trail R := ⟨found, true⟩

def cut : Trail R := ⟨[], false⟩

def andThen (w w' : Trail R) : Trail R := if w.finished then ⟨w.found ++ w'.found, w'.finished⟩ else w

def all : List (Trail R) → Trail R
  | [] => done []
  | w :: rest => w.andThen (all rest)

theorem all_finished {walks : List (Trail R)} : (all walks).finished = true ↔ ∀ w ∈ walks, w.finished = true := by
  induction walks with
  | nil => simp [all, done]
  | cons w rest ih =>
      rw [all, andThen, List.forall_mem_cons, ← ih]
      split <;> simp [*]

theorem mem_all_of_finished {walks : List (Trail R)} (finished : (all walks).finished = true) {r : R} :
    r ∈ (all walks).found ↔ ∃ w ∈ walks, r ∈ w.found := by
  induction walks with
  | nil => simp [all, done]
  | cons w rest ih =>
      obtain ⟨first, later⟩ := List.forall_mem_cons.mp (all_finished.mp finished)
      rw [all, andThen, if_pos first, List.mem_append, ih (all_finished.mpr later)]
      simp

end Trail

def Errand.walk {R C : Type} (visit : C → Trail R) : Errand R C → Trail R
  | .found record => .done [record]
  | .call next => visit next

section Guarded

variable {R C ι : Type} [DecidableEq ι] (plan : C → List (Errand R C)) (name : C → Option ι) (closed : C → R)

def Closes (seen : List ι) (c : C) : Prop := ∃ i ∈ name c, i ∈ seen

instance (seen : List ι) (c : C) : Decidable (Closes name seen c) :=
  inferInstanceAs (Decidable (∃ i ∈ name c, i ∈ seen))

/-- The names on the path of a call that the call `c` makes. -/
def onward (seen : List ι) (c : C) : List ι := (name c).toList ++ seen

def guardedWalk : Nat → List ι → C → Trail R
  | 0, _, _ => .cut
  | limit + 1, seen, c =>
      if Closes name seen c then .done [closed c]
      else Trail.all ((plan c).map (Errand.walk (guardedWalk limit (onward name seen c))))

/-- The calls that a walk makes, with the names on their paths. -/
inductive Called (root : C) : List ι → C → Prop
  | root : Called root [] root
  | call {seen : List ι} {c next : C} (before : Called root seen c) (opens : ¬ Closes name seen c)
      (errand : .call next ∈ plan c) : Called root (onward name seen c) next

variable {plan name closed} {seen : List ι} {c : C} {r : R}

/-- What a call records of itself, the calls that it makes apart. -/
def Records (plan : C → List (Errand R C)) (name : C → Option ι) (closed : C → R) (seen : List ι) (c : C)
    (r : R) : Prop :=
  (Closes name seen c ∧ r = closed c) ∨ (¬ Closes name seen c ∧ .found r ∈ plan c)

theorem guardedWalk_open (limit : Nat) (opens : ¬ Closes name seen c) :
    guardedWalk plan name closed (limit + 1) seen c = Trail.all ((plan c).map
      (Errand.walk (guardedWalk plan name closed limit (onward name seen c)))) := by
  rw [guardedWalk, if_neg opens]

theorem called_of_mem {root : C} {limit : Nat} (called : Called plan name root seen c)
    (finished : (guardedWalk plan name closed limit seen c).finished = true)
    (member : r ∈ (guardedWalk plan name closed limit seen c).found) :
    ∃ seen' c', Called plan name root seen' c' ∧ Records plan name closed seen' c' r := by
  induction limit generalizing seen c with
  | zero => cases finished
  | succ limit ih =>
      by_cases closes : Closes name seen c
      · rw [guardedWalk, if_pos closes] at member
        exact ⟨seen, c, called, .inl ⟨closes, List.mem_singleton.mp member⟩⟩
      · rw [guardedWalk_open limit closes] at finished member
        obtain ⟨w, made, inside⟩ := (Trail.mem_all_of_finished finished).mp member
        obtain ⟨errand, planned, rfl⟩ := List.mem_map.mp made
        have ends := Trail.all_finished.mp finished _ made
        cases errand with
        | found record =>
            obtain rfl := List.mem_singleton.mp inside
            exact ⟨seen, c, called, .inr ⟨closes, planned⟩⟩
        | call next => exact ih (called.call closes planned) ends inside

theorem mem_of_records {limit : Nat}
    (finished : (guardedWalk plan name closed limit seen c).finished = true)
    (records : Records plan name closed seen c r) :
    r ∈ (guardedWalk plan name closed limit seen c).found := by
  cases limit with
  | zero => cases finished
  | succ limit =>
      rcases records with ⟨closes, rfl⟩ | ⟨opens, planned⟩
      · rw [guardedWalk, if_pos closes]
        exact List.mem_singleton.mpr rfl
      · rw [guardedWalk_open limit opens] at finished ⊢
        exact (Trail.mem_all_of_finished finished).mpr
          ⟨_, List.mem_map_of_mem planned, List.mem_singleton.mpr rfl⟩

theorem Called.inside {root : C} {limit : Nat} (called : Called plan name root seen c)
    (finished : (guardedWalk plan name closed limit [] root).finished = true) :
    ∃ limit', (guardedWalk plan name closed limit' seen c).finished = true ∧
      (guardedWalk plan name closed limit' seen c).found ⊆ (guardedWalk plan name closed limit [] root).found := by
  induction called with
  | root => exact ⟨limit, finished, List.Subset.refl _⟩
  | @call seen c next before opens errand ih =>
      obtain ⟨limit', ends, inside⟩ := ih
      cases limit' with
      | zero => cases ends
      | succ limit' =>
          rw [guardedWalk_open limit' opens] at ends inside
          have made := List.mem_map_of_mem
            (f := Errand.walk (guardedWalk plan name closed limit' (onward name seen c))) errand
          refine ⟨limit', Trail.all_finished.mp ends _ made, fun r member => inside ?_⟩
          exact (Trail.mem_all_of_finished ends).mpr ⟨_, made, member⟩

theorem mem_guardedWalk {root : C} {limit : Nat}
    (finished : (guardedWalk plan name closed limit [] root).finished = true) :
    r ∈ (guardedWalk plan name closed limit [] root).found ↔
      ∃ seen c, Called plan name root seen c ∧ Records plan name closed seen c r := by
  constructor
  · exact called_of_mem .root finished
  · rintro ⟨seen, c, called, records⟩
    obtain ⟨limit', ends, inside⟩ := called.inside finished
    exact inside (mem_of_records ends records)

theorem guardedWalk_finished [Fintype ι]
    (named : ∀ c, name c = none → ∀ next, .call next ∉ plan c) {limit : Nat}
    (distinct : seen.Nodup) (deep : Fintype.card ι + 2 ≤ limit + seen.length) :
    (guardedWalk plan name closed limit seen c).finished = true := by
  induction limit generalizing seen c with
  | zero =>
      have few := distinct.length_le_card
      omega
  | succ limit ih =>
      by_cases closes : Closes name seen c
      · rw [guardedWalk, if_pos closes]
        rfl
      · rw [guardedWalk_open limit closes, Trail.all_finished]
        intro w made
        obtain ⟨errand, planned, rfl⟩ := List.mem_map.mp made
        cases errand with
        | found record => rfl
        | call next =>
            cases known : name c with
            | none => exact absurd planned (named c known next)
            | some i =>
                have new : i ∉ seen := fun member => closes ⟨i, known, member⟩
                apply ih
                · simpa [onward, known] using ⟨new, distinct⟩
                · simp only [onward, known, Option.toList_some, List.singleton_append, List.length_cons]
                  omega

end Guarded
end Proxyshop.Structures
