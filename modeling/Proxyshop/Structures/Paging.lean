import Mathlib.Data.List.Basic

/-!
# Paging by a label

A reader asks for the rows whose label exceeds that of the last row it was given. The walk this makes
through a list of rows loses and repeats nothing exactly where the labels ascend.
-/

namespace Proxyshop.Structures

variable {ε α : Type} {label : α → Except ε Int} {page : Int → Except ε (List α × Bool)}

/-- The rows a reader collects until a page reports no more. -/
inductive Walk (label : α → Except ε Int) (page : Int → Except ε (List α × Bool)) : Int → List α → Prop
  | last {after : Int} {taken : List α} (read : page after = .ok (taken, false)) : Walk label page after taken
  | next {after seq : Int} {taken rest : List α} {a : α} (read : page after = .ok (taken ++ [a], true))
      (labelled : label a = .ok seq) (later : Walk label page seq rest) :
      Walk label page after (taken ++ [a] ++ rest)

/-- Labels that can be read and ascend from above `after`. -/
def Ascending (label : α → Except ε Int) : Int → List α → Prop
  | _, [] => True
  | after, a :: rows => ∃ seq, label a = .ok seq ∧ after < seq ∧ Ascending label seq rows

theorem Ascending.append {after : Int} {front rows : List α} {a : α} {seq : Int}
    (labelled : label a = .ok seq) (before : Ascending label after (front ++ [a]))
    (rest : Ascending label seq rows) : Ascending label after (front ++ [a] ++ rows) := by
  induction front generalizing after with
  | nil =>
      obtain ⟨seq', labelled', above, -⟩ := before
      cases labelled.symm.trans labelled'
      exact ⟨seq, labelled, above, rest⟩
  | cons b front ih =>
      obtain ⟨seq', labelled', above, later⟩ := before
      exact ⟨seq', labelled', above, ih later⟩

theorem Ascending.split {after : Int} {front rows : List α} {a : α} {seq : Int}
    (labelled : label a = .ok seq) (all : Ascending label after (front ++ [a] ++ rows)) :
    Ascending label seq rows := by
  induction front generalizing after with
  | nil =>
      obtain ⟨seq', labelled', -, rest⟩ := all
      cases labelled.symm.trans labelled'
      exact rest
  | cons b front ih =>
      obtain ⟨_, _, _, later⟩ := all
      exact ih later

theorem Ascending.label_of_mem {after : Int} {rows : List α} (ascending : Ascending label after rows)
    {a : α} (member : a ∈ rows) : ∃ seq, label a = .ok seq ∧ after < seq := by
  induction rows generalizing after with
  | nil => cases member
  | cons b rows ih =>
      obtain ⟨seq, labelled, above, later⟩ := ascending
      rcases List.mem_cons.mp member with rfl | inside
      · exact ⟨seq, labelled, above⟩
      · obtain ⟨seq', labelled', above'⟩ := ih later inside
        exact ⟨seq', labelled', Int.lt_trans above above'⟩

theorem Ascending.below {after : Int} {front rows : List α} {a : α} {seq : Int}
    (labelled : label a = .ok seq) (all : Ascending label after (front ++ [a] ++ rows)) :
    ∀ b ∈ front ++ [a], ∃ seq', label b = .ok seq' ∧ seq' ≤ seq := by
  induction front generalizing after with
  | nil =>
      intro b member
      rw [List.mem_singleton.mp member]
      exact ⟨seq, labelled, Int.le_refl seq⟩
  | cons c front ih =>
      obtain ⟨seq', labelled', -, later⟩ := all
      intro b member
      rcases List.mem_cons.mp member with rfl | inside
      · have present : a ∈ front ++ [a] ++ rows := by simp
        obtain ⟨last, same, above⟩ := later.label_of_mem present
        cases labelled.symm.trans same
        exact ⟨seq', labelled', Int.le_of_lt above⟩
      · exact ih later b inside

/-- A page is the start of the rows that are left: some of them if there are any, all of them if it
reports no more. -/
def Serves (label : α → Except ε Int) (page : Int → Except ε (List α × Bool)) (rows : List α) : Prop :=
  ∀ after back, Ascending label after back → (∃ front, rows = front ++ back ∧
      ∀ a ∈ front, ∃ seq, label a = .ok seq ∧ seq ≤ after) →
    ∃ taken rest more, page after = .ok (taken, more) ∧ back = taken ++ rest ∧
      (more = false → rest = []) ∧ (more = true → taken ≠ [])

theorem walk_of_ascending {rows : List α} (serves : Serves label page rows) {after : Int}
    {back : List α} (ascending : Ascending label after back) (behind : ∃ front, rows = front ++ back ∧
      ∀ a ∈ front, ∃ seq, label a = .ok seq ∧ seq ≤ after) : Walk label page after back := by
  induction size : back.length using Nat.strongRecOn generalizing after back with
  | _ n ih =>
  obtain ⟨taken, rest, more, read, split, done, some⟩ := serves after back ascending behind
  cases more with
  | false =>
      rw [done rfl, List.append_nil] at split
      rw [split]
      exact .last read
  | true =>
      obtain ⟨front, a, rfl⟩ := List.eq_nil_or_concat taken |>.resolve_left (some rfl)
      rw [List.concat_eq_append] at read split
      have inside : a ∈ back := by simp [split]
      obtain ⟨seq, labelled, above⟩ := ascending.label_of_mem inside
      subst split
      obtain ⟨before, rows_eq, passed⟩ := behind
      have shorter : rest.length < n := by
        rw [← size, List.length_append, List.length_append, List.length_singleton]
        omega
      refine .next read labelled (ih _ shorter (ascending.split labelled)
        ⟨before ++ (front ++ [a]), by rw [rows_eq, List.append_assoc before], fun b member => ?_⟩ rfl)
      rcases List.mem_append.mp member with old | new
      · obtain ⟨seq', labelled', below⟩ := passed b old
        exact ⟨seq', labelled', Int.le_trans below (Int.le_of_lt above)⟩
      · exact ascending.below labelled b new

theorem ascending_of_walk (narrow : ∀ after taken more, page after = .ok (taken, more) →
      Ascending label after taken) {after : Int} {rows : List α}
    (walk : Walk label page after rows) : Ascending label after rows := by
  induction walk with
  | last read => exact narrow _ _ _ read
  | next read labelled _ ih => exact (narrow _ _ _ read).append labelled ih

/-! ## Consecutive labels -/

def Consecutive (label : α → Except ε Int) : Int → List α → Prop
  | _, [] => True
  | after, a :: rows => label a = .ok (after + 1) ∧ Consecutive label (after + 1) rows

theorem Consecutive.ascending {after : Int} {rows : List α} (consecutive : Consecutive label after rows) :
    Ascending label after rows := by
  induction rows generalizing after with
  | nil => trivial
  | cons a rows ih => exact ⟨_, consecutive.1, Int.lt_succ after, ih consecutive.2⟩

theorem consecutive_append {after : Int} {front rows : List α} :
    Consecutive label after (front ++ rows) ↔
      Consecutive label after front ∧ Consecutive label (after + front.length) rows := by
  induction front generalizing after with
  | nil => simp [Consecutive]
  | cons a front ih =>
      have shifted : after + 1 + (front.length : Int) = after + ((a :: front).length : Int) := by
        rw [List.length_cons]
        omega
      rw [List.cons_append, Consecutive, Consecutive, ih, shifted, and_assoc]

theorem Ascending.room {after : Int} {front rows : List α} {b : α} {seq : Int} (labelled : label b = .ok seq)
    (all : Ascending label after (front ++ b :: rows)) : after + front.length < seq := by
  induction front generalizing after with
  | nil =>
      obtain ⟨seq', same, above, -⟩ := all
      cases labelled.symm.trans same
      simpa using above
  | cons a front ih =>
      obtain ⟨_, -, above, later⟩ := all
      have room := ih later
      rw [List.length_cons]
      omega

theorem ascending_append_iff {after : Int} {front rows : List α} (some : rows ≠ [])
    (consecutive : Consecutive label (after + front.length) rows) :
    Ascending label after (front ++ rows) ↔ Consecutive label after front := by
  constructor
  · obtain ⟨b, rest, rfl⟩ := List.exists_cons_of_ne_nil some
    intro all
    induction front generalizing after with
    | nil => trivial
    | cons a front ih =>
        obtain ⟨seq, labelled, above, later⟩ := all
        have shifted : after + ((a :: front).length : Int) = after + 1 + front.length := by
          rw [List.length_cons]
          omega
        rw [shifted] at consecutive
        have room := later.room consecutive.1
        obtain rfl : seq = after + 1 := by omega
        exact ⟨labelled, ih consecutive later⟩
  · intro numbered
    exact (consecutive_append.mpr ⟨numbered, consecutive⟩).ascending

end Proxyshop.Structures
