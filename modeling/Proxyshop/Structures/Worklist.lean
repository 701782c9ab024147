import Mathlib.Data.List.Dedup
import Mathlib.Data.List.Perm.Subperm
import Mathlib.Logic.Relation

/-!
# Bounded searches

A graph is searched from an explicit stack. Nodes are told apart by a key alone, so of two nodes with one
key the first is expanded; and no more keys than a bound are collected. A tree is walked from a queue, level
by level.
-/

namespace Proxyshop.Structures

variable {V K : Type}

/-- The keys that are collected; the fuel counts the nodes that are taken from the stack. -/
def search [DecidableEq K] (next : V → List V) (key : V → K) (bound : Nat) : Nat → List V → List K → List K
  | 0, _, seen => seen
  | _, [], seen => seen
  | fuel+1, v :: stack, seen =>
      if bound ≤ seen.length then seen
      else if key v ∈ seen then search next key bound fuel stack seen
      else search next key bound fuel ((next v).reverse ++ stack) (seen ++ [key v])

def LeadsTo (next : V → List V) : V → V → Prop := Relation.ReflTransGen fun v w => w ∈ next v

variable {next : V → List V} {key : V → K} {bound : Nat}

/-- The invariant of the search: the keys collected are different ones of nodes reached, and what follows a
node whose key is collected waits on the stack, if its key is not collected too. -/
structure Collects (next : V → List V) (key : V → K) (start : V) (stack : List V) (seen : List K) : Prop where
  nodup : seen.Nodup
  sound : ∀ k ∈ seen, ∃ v, LeadsTo next start v ∧ key v = k
  waits : ∀ v ∈ stack, LeadsTo next start v
  starts : key start ∈ seen ∨ key start ∈ stack.map key
  follows : ∀ v, LeadsTo next start v → key v ∈ seen → ∀ w ∈ next v,
    key w ∈ seen ∨ key w ∈ stack.map key

theorem Collects.start (next : V → List V) (key : V → K) (start : V) : Collects next key start [start] [] where
  nodup := .nil
  sound := nofun
  waits := by
    simp only [List.mem_singleton, forall_eq]
    exact .refl
  starts := Or.inr (by simp)
  follows := nofun

theorem Collects.skip {start v : V} {stack : List V} {seen : List K}
    (collects : Collects next key start (v :: stack) seen) (known : key v ∈ seen) :
    Collects next key start stack seen where
  nodup := collects.nodup
  sound := collects.sound
  waits := (List.forall_mem_cons.mp collects.waits).2
  starts := by
    obtain here | waiting := collects.starts
    · exact Or.inl here
    · obtain same | later := List.mem_cons.mp waiting
      · exact Or.inl (same ▸ known)
      · exact Or.inr later
  follows u reached collected w child := by
    obtain here | waiting := collects.follows u reached collected w child
    · exact Or.inl here
    · obtain same | later := List.mem_cons.mp waiting
      · exact Or.inl (same ▸ known)
      · exact Or.inr later

/-- Nodes with one key are followed by nodes with the same keys. -/
def KeyBlind (next : V → List V) (key : V → K) (start : V) : Prop :=
  ∀ v v', LeadsTo next start v → LeadsTo next start v' → key v = key v' →
    ∀ w ∈ next v, key w ∈ (next v').map key

theorem Collects.expand {start v : V} {stack : List V} {seen : List K}
    (collects : Collects next key start (v :: stack) seen) (new : key v ∉ seen) (blind : KeyBlind next key start) :
    Collects next key start ((next v).reverse ++ stack) (seen ++ [key v]) where
  nodup := by
    rw [List.nodup_append]
    exact ⟨collects.nodup, List.nodup_singleton _, fun k inside k' same => by
      rw [List.mem_singleton] at same
      exact fun equal => new (same ▸ equal ▸ inside)⟩
  sound := by
    intro k collected
    obtain old | same := List.mem_append.mp collected
    · exact collects.sound k old
    · exact ⟨v, collects.waits v List.mem_cons_self, (List.mem_singleton.mp same).symm⟩
  waits := by
    intro w waiting
    obtain child | later := List.mem_append.mp waiting
    · exact (collects.waits v List.mem_cons_self).tail (List.mem_reverse.mp child)
    · exact collects.waits w (List.mem_cons_of_mem v later)
  starts := by
    obtain here | waiting := collects.starts
    · exact Or.inl (List.mem_append_left _ here)
    · obtain same | later := List.mem_cons.mp waiting
      · exact Or.inl (List.mem_append_right _ (List.mem_singleton.mpr same))
      · exact Or.inr (by simp only [List.map_append, List.mem_append, later, or_true])
  follows u reached collected w child := by
    obtain old | same := List.mem_append.mp collected
    · obtain here | waiting := collects.follows u reached old w child
      · exact Or.inl (List.mem_append_left _ here)
      · obtain same | later := List.mem_cons.mp waiting
        · exact Or.inl (List.mem_append_right _ (List.mem_singleton.mpr same))
        · exact Or.inr (by simp only [List.map_append, List.mem_append, later, or_true])
    · have through := blind u v reached (collects.waits v List.mem_cons_self) (List.mem_singleton.mp same) w child
      refine Or.inr ?_
      rw [List.map_append, List.map_reverse, List.mem_append, List.mem_reverse]
      exact Or.inl through

variable [DecidableEq K]

theorem search_collects {start : V} {degree : Nat} (few : ∀ v, (next v).length ≤ degree)
    (blind : KeyBlind next key start) {fuel : Nat} {stack : List V} {seen : List K}
    (collects : Collects next key start stack seen)
    (enough : stack.length + degree * (bound - seen.length) ≤ fuel) :
    ∃ stack', Collects next key start stack' (search next key bound fuel stack seen) ∧
      (stack' = [] ∨ bound ≤ (search next key bound fuel stack seen).length) := by
  induction fuel generalizing stack seen with
  | zero =>
      have empty : stack = [] := List.length_eq_zero_iff.mp (by omega)
      exact ⟨stack, collects, Or.inl empty⟩
  | succ fuel ih =>
      cases stack with
      | nil => exact ⟨[], collects, Or.inl rfl⟩
      | cons v stack =>
          rw [search]
          split
          · rename_i full
            exact ⟨v :: stack, collects, Or.inr full⟩
          · rename_i room
            split
            · rename_i known
              refine ih (collects.skip known) ?_
              rw [List.length_cons] at enough
              omega
            · rename_i new
              refine ih (collects.expand new blind) ?_
              have step : bound - seen.length = bound - (seen.length + 1) + 1 := by omega
              have degree := few v
              rw [List.length_cons, step, Nat.mul_succ] at enough
              rw [List.length_append, List.length_append, List.length_reverse, List.length_singleton]
              omega

theorem search_sound {start : V} {degree : Nat} (few : ∀ v, (next v).length ≤ degree)
    (blind : KeyBlind next key start) {fuel : Nat} (enough : 1 + degree * bound ≤ fuel) {k : K}
    (collected : k ∈ search next key bound fuel [start] []) : ∃ v, LeadsTo next start v ∧ key v = k := by
  have room : [start].length + degree * (bound - ([] : List K).length) ≤ fuel := by simpa using enough
  obtain ⟨stack, collects, -⟩ := search_collects few blind (Collects.start next key start) room
  exact collects.sound k collected

def FewKeys (next : V → List V) (key : V → K) (start : V) (bound : Nat) : Prop :=
  ∃ keys : List K, keys.length ≤ bound ∧ ∀ v, LeadsTo next start v → key v ∈ keys

theorem search_complete {start : V} {degree : Nat} (few : ∀ v, (next v).length ≤ degree)
    (blind : KeyBlind next key start) (room : FewKeys next key start bound) {fuel : Nat}
    (enough : 1 + degree * bound ≤ fuel) {v : V} (reached : LeadsTo next start v) :
    key v ∈ search next key bound fuel [start] [] := by
  have space : [start].length + degree * (bound - ([] : List K).length) ≤ fuel := by simpa using enough
  obtain ⟨stack, collects, ended⟩ := search_collects few blind (Collects.start next key start) space
  obtain rfl | full := ended
  · induction reached with
    | refl => exact collects.starts.elim id nofun
    | tail before child ih => exact (collects.follows _ before ih _ child).elim id nofun
  · obtain ⟨keys, short, all⟩ := room
    have inside : search next key bound fuel [start] [] ⊆ keys := by
      intro k collected
      obtain ⟨w, reached, rfl⟩ := collects.sound k collected
      exact all w reached
    have perm := (List.subperm_of_subset collects.nodup inside).perm_of_length_le (Nat.le_trans short full)
    exact perm.mem_iff.mpr (all v reached)

theorem search_descent {f : Nat → V} (down : ∀ i, next (f (i + 1)) = [f i]) {n : Nat} (deep : bound ≤ n)
    (fuel : Nat) : ∀ k ∈ search next key bound fuel [f n] [], ∃ i, n - bound < i ∧ i ≤ n ∧ key (f i) = k := by
  have walk : ∀ fuel i (seen : List K), i + seen.length = n → seen.length ≤ bound →
      (∀ k ∈ seen, ∃ j, i < j ∧ j ≤ n ∧ key (f j) = k) →
      ∀ k ∈ search next key bound fuel [f i] seen, ∃ j, n - bound < j ∧ j ≤ n ∧ key (f j) = k := by
    intro fuel
    induction fuel with
    | zero =>
        intro i seen place short above k inside
        obtain ⟨j, later, low, same⟩ := above k inside
        exact ⟨j, by omega, low, same⟩
    | succ fuel ih =>
        intro i seen place short above k inside
        have kept : ∀ k ∈ seen, ∃ j, n - bound < j ∧ j ≤ n ∧ key (f j) = k := by
          intro k old
          obtain ⟨j, later, low, same⟩ := above k old
          exact ⟨j, by omega, low, same⟩
        rw [search] at inside
        split at inside
        · exact kept k inside
        · rename_i room
          split at inside
          · cases fuel with
            | zero => exact kept k inside
            | succ fuel => exact kept k inside
          · cases i with
            | zero => omega
            | succ i =>
                rw [down] at inside
                refine ih i (seen ++ [key (f (i + 1))]) ?_ ?_ ?_ k inside
                · rw [List.length_append, List.length_singleton]
                  omega
                · rw [List.length_append, List.length_singleton]
                  omega
                · intro k collected
                  obtain old | same := List.mem_append.mp collected
                  · obtain ⟨j, later, low, same⟩ := above k old
                    exact ⟨j, by omega, low, same⟩
                  · exact ⟨i + 1, by omega, by omega, (List.mem_singleton.mp same).symm⟩
  exact walk fuel n [] rfl (Nat.zero_le _) nofun

/-! ## Level by level -/

section Levels

variable {V E : Type} (next : V → List V) (emit : V → List E)

/-- What the nodes emit that a queue hands out, where they are less deep than the bound; the fuel counts
the nodes that are taken from the queue. -/
def breadthFirst (bound : Nat) : Nat → List (V × Nat) → List E
  | 0, _ => []
  | _, [] => []
  | fuel+1, (v, depth) :: queue =>
      if bound ≤ depth then breadthFirst bound fuel queue
      else emit v ++ breadthFirst bound fuel (queue ++ (next v).map fun w => (w, depth + 1))

def levelOrder : Nat → List V → List E
  | 0, _ => []
  | k+1, l => l.flatMap emit ++ levelOrder k (l.flatMap next)

def levelNodes : Nat → List V → Nat
  | 0, _ => 0
  | k+1, l => l.length + levelNodes k (l.flatMap next)

theorem breadthFirst_deep (bound fuel : Nat) (l : List V) :
    breadthFirst next emit bound fuel (l.map fun v => (v, bound)) = [] := by
  induction l generalizing fuel with
  | nil => cases fuel <;> rfl
  | cons v l ih =>
      cases fuel with
      | zero => rfl
      | succ fuel =>
          rw [List.map_cons, breadthFirst, if_pos (Nat.le_refl _)]
          exact ih fuel

theorem breadthFirst_level {bound depth k : Nat} (above : depth < bound)
    (next_level : ∀ found fuel, levelNodes next k found ≤ fuel →
      breadthFirst next emit bound fuel (found.map fun v => (v, depth + 1)) = levelOrder next emit k found)
    (l found : List V) (fuel : Nat) (enough : l.length + levelNodes next k (found ++ l.flatMap next) ≤ fuel) :
    breadthFirst next emit bound fuel ((l.map fun v => (v, depth)) ++ found.map fun v => (v, depth + 1)) =
      l.flatMap emit ++ levelOrder next emit k (found ++ l.flatMap next) := by
  induction l generalizing found fuel with
  | nil =>
      simp only [List.flatMap_nil, List.append_nil, List.length_nil, Nat.zero_add] at enough
      simpa using next_level found fuel enough
  | cons v l ih =>
      cases fuel with
      | zero => simp at enough
      | succ fuel =>
          have joined : found ++ (v :: l).flatMap next = (found ++ next v) ++ l.flatMap next := by
            rw [List.flatMap_cons, List.append_assoc]
          rw [joined] at enough ⊢
          have rest := ih (found ++ next v) fuel (by rw [List.length_cons] at enough; omega)
          rw [List.map_cons, List.cons_append, breadthFirst, if_neg (by omega), List.append_assoc,
            ← List.map_append, rest, List.flatMap_cons, List.append_assoc (emit v)]

theorem breadthFirst_levels (k depth : Nat) (l : List V) (fuel : Nat) (enough : levelNodes next k l ≤ fuel) :
    breadthFirst next emit (depth + k) fuel (l.map fun v => (v, depth)) = levelOrder next emit k l := by
  induction k generalizing depth l fuel with
  | zero => exact breadthFirst_deep next emit depth fuel l
  | succ k ih =>
      have next_level : ∀ found fuel, levelNodes next k found ≤ fuel →
          breadthFirst next emit (depth + (k + 1)) fuel (found.map fun v => (v, depth + 1)) =
            levelOrder next emit k found := by
        intro found fuel enough
        rw [← ih (depth + 1) found fuel enough, Nat.add_right_comm, Nat.add_assoc]
      simpa [levelOrder] using breadthFirst_level next emit (by omega) next_level l [] fuel enough

end Levels

end Proxyshop.Structures
