import Mathlib.Data.List.TakeWhile

/-!
# Latches

A latch is opened with a value where it is not held, and closed where it is. Running the same turns again
from where they ended changes what it shows in one case only.
-/

namespace Proxyshop.Structures

variable {A E V : Type*}

structure Latch (A E : Type*) where
  opened : A → E
  closed : E → E
  held : E → Bool
  held_opened : ∀ a, held (opened a) = true
  held_closed : ∀ e, held (closed e) = false

inductive Turn (A : Type*)
  | on (a : A)
  | off

def Turn.isOn : Turn A → Bool
  | .on _ => true
  | .off => false

/-- The value of the first turn, where the turns are some ons and then some offs. -/
def firstOfOne : List (Turn A) → Option A
  | .on a :: turns =>
      let rest := turns.dropWhile Turn.isOn
      if rest.isEmpty || rest.any Turn.isOn then none else some a
  | _ => none

namespace Latch

variable (l : Latch A E)

def turn (current : Option E) : Turn A → Option E
  | .on a => if current.any l.held then current else some (l.opened a)
  | .off => if current.any l.held then current.map l.closed else current

def run (current : Option E) (turns : List (Turn A)) : Option E := turns.foldl l.turn current

variable {l}

theorem run_cons (current : Option E) (turn : Turn A) (turns : List (Turn A)) :
    l.run current (turn :: turns) = l.run (l.turn current turn) turns := rfl

theorem run_append (current : Option E) (turns turns' : List (Turn A)) :
    l.run current (turns ++ turns') = l.run (l.run current turns) turns' := List.foldl_append

theorem free_off (current : Option E) : (l.turn current .off).any l.held = false := by
  unfold turn
  cases held : current.any l.held with
  | true => cases current <;> simp [l.held_closed]
  | false => simpa using held

theorem held_on (current : Option E) (a : A) : (l.turn current (.on a)).any l.held = true := by
  unfold turn
  cases held : current.any l.held <;> simp [held, l.held_opened]

theorem turn_on_held {current : Option E} (held : current.any l.held = true) (a : A) :
    l.turn current (.on a) = current := if_pos held

theorem turn_on_free {current : Option E} (free : current.any l.held = false) (a : A) :
    l.turn current (.on a) = some (l.opened a) := by simp [turn, free]

theorem turn_off_free {current : Option E} (free : current.any l.held = false) :
    l.turn current .off = current := by simp [turn, free]

theorem run_ons {current : Option E} (held : current.any l.held = true) {turns : List (Turn A)}
    (ons : ∀ turn ∈ turns, turn.isOn = true) : l.run current turns = current := by
  induction turns with
  | nil => rfl
  | cons turn turns ih =>
      obtain ⟨first, rest⟩ := List.forall_mem_cons.mp ons
      cases turn with
      | off => cases first
      | on a => rw [run_cons, turn_on_held held, ih rest]

theorem run_offs {current : Option E} (free : current.any l.held = false) {turns : List (Turn A)}
    (offs : turns.any Turn.isOn = false) : l.run current turns = current := by
  induction turns with
  | nil => rfl
  | cons turn turns ih =>
      rw [List.any_cons, Bool.or_eq_false_iff] at offs
      cases turn with
      | on a => cases offs.1
      | off => rw [run_cons, turn_off_free free, ih offs.2]

theorem run_free {current other : Option E} (free : current.any l.held = false)
    (free' : other.any l.held = false) {turns : List (Turn A)} (opens : turns.any Turn.isOn = true) :
    l.run current turns = l.run other turns := by
  induction turns with
  | nil => cases opens
  | cons turn turns ih =>
      cases turn with
      | on a => rw [run_cons, run_cons, turn_on_free free, turn_on_free free']
      | off =>
          rw [run_cons, run_cons, turn_off_free free, turn_off_free free']
          exact ih opens

theorem run_off_on (current other : Option E) {turns : List (Turn A)} (opens : turns.any Turn.isOn = true) :
    l.run current (.off :: turns) = l.run other (.off :: turns) :=
  run_free (free_off current) (free_off other) opens

theorem run_off_offs (current : Option E) {turns : List (Turn A)} (offs : turns.any Turn.isOn = false) :
    l.run current (.off :: turns) = l.turn current .off := run_offs (free_off current) offs

theorem mem_takeWhile_on {turns : List (Turn A)} : ∀ turn ∈ turns.takeWhile Turn.isOn, turn.isOn = true :=
  fun _ member => List.mem_takeWhile_imp member

theorem run_firstOfOne {turns : List (Turn A)} {a : A} (once : firstOfOne turns = some a)
    (current : Option E) : l.run current turns = l.turn (l.turn current (.on a)) .off := by
  unfold firstOfOne at once
  split at once
  · rename_i first turns
    dsimp only at once
    split at once
    · cases once
    · rename_i shape
      cases once
      simp only [Bool.or_eq_true, not_or, Bool.not_eq_true] at shape
      obtain ⟨nonempty, offs⟩ := shape
      rw [run_cons, ← List.takeWhile_append_dropWhile (p := Turn.isOn) (l := turns), run_append,
        run_ons (held_on current _) mem_takeWhile_on]
      cases rest : turns.dropWhile Turn.isOn with
      | nil => simp [rest] at nonempty
      | cons turn rest' =>
          rw [rest, List.any_cons, Bool.or_eq_false_iff] at offs
          cases turn with
          | on a => cases offs.1
          | off => exact run_off_offs _ offs.2
  · cases once

theorem run_twice {turns : List (Turn A)} (often : firstOfOne turns = none) (current : Option E) :
    l.run (l.run current turns) turns = l.run current turns := by
  cases turns with
  | nil => rfl
  | cons turn turns =>
      cases turn with
      | off =>
          cases opens : turns.any Turn.isOn with
          | true => exact run_off_on _ _ opens
          | false =>
              rw [run_off_offs current opens, run_off_offs _ opens, turn_off_free (free_off current)]
      | on a =>
          have parts := List.takeWhile_append_dropWhile (p := Turn.isOn) (l := turns)
          simp only [run_cons]
          rw [← parts]
          simp only [run_append, run_ons (held_on _ a) mem_takeWhile_on]
          unfold firstOfOne at often
          dsimp only at often
          cases rest : turns.dropWhile Turn.isOn with
          | nil => exact turn_on_held (held_on current a) a
          | cons turn rest' =>
              have first : turn.isOn = false := by
                have stopped := List.head_dropWhile_not (p := Turn.isOn) (l := turns) (by simp [rest])
                simpa only [rest, List.head_cons] using stopped
              cases turn with
              | on b => cases first
              | off =>
                  cases opens : rest'.any Turn.isOn with
                  | true => exact run_off_on _ _ opens
                  | false => simp [rest, opens, Turn.isOn] at often

/-- Turns show the same a second time but where they are ons and then offs over a latch that was held, and
closing it shows something else than closing what they would have opened. -/
theorem run_twice_iff (view : E → V) (turns : List (Turn A)) (current : Option E) :
    (l.run (l.run current turns) turns).map view = (l.run current turns).map view ↔
      ∀ a, firstOfOne turns = some a → ∀ e, current = some e → l.held e = true →
        view (l.closed (l.opened a)) = view (l.closed e) := by
  cases once : firstOfOne turns with
  | none => exact iff_of_true (by rw [run_twice once]) nofun
  | some a =>
      have closing {x : Option E} (free : x.any l.held = false) :
          l.run x turns = some (l.closed (l.opened a)) := by
        rw [run_firstOfOne once, turn_on_free free]
        simp [turn, l.held_opened]
      have freed : (l.run current turns).any l.held = false := by
        rw [run_firstOfOne once]
        exact free_off _
      rw [closing freed]
      cases held : current.any l.held with
      | false =>
          rw [closing held]
          refine iff_of_true rfl ?_
          rintro - - e rfl holds
          rw [Option.any_some, holds] at held
          cases held
      | true =>
          cases current with
          | none => cases held
          | some e =>
              rw [Option.any_some] at held
              rw [run_firstOfOne once, turn_on_held (by simpa using held)]
              simp [turn, held]

end Latch
end Proxyshop.Structures
