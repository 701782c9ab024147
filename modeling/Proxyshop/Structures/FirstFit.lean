import Mathlib.Data.List.Basic
import Mathlib.Data.List.Infix

/-!
# First fit

Of a list, the items that clash with nothing kept before them.
-/

namespace Proxyshop.Structures

variable {α : Type} (clash : α → α → Bool)

/-- The items kept, where those in `seen` have been kept already. -/
def firstFit (seen : List α) : List α → List α
  | [] => []
  | a :: l => if seen.any (clash · a) then firstFit seen l else a :: firstFit (a :: seen) l

variable {clash} {seen seen' l l' : List α} {a m : α}

theorem firstFit_cons_of_taken (taken : seen.any (clash · a) = true) :
    firstFit clash seen (a :: l) = firstFit clash seen l := if_pos taken

theorem firstFit_cons_of_free (free : seen.any (clash · a) = false) :
    firstFit clash seen (a :: l) = a :: firstFit clash (a :: seen) l := by
  rw [firstFit, free]
  rfl

theorem firstFit_congr (same : ∀ b, seen.any (clash · b) = seen'.any (clash · b)) :
    firstFit clash seen l = firstFit clash seen' l := by
  induction l generalizing seen seen' with
  | nil => rfl
  | cons a l ih =>
      rw [firstFit, firstFit, same a]
      split
      · exact ih same
      · rw [@ih (a :: seen) (a :: seen')]
        intro b
        rw [List.any_cons, List.any_cons, same b]

theorem firstFit_append : firstFit clash seen (l ++ l') = firstFit clash seen l ++
    firstFit clash ((firstFit clash seen l).reverse ++ seen) l' := by
  induction l generalizing seen with
  | nil => rfl
  | cons a l ih =>
      rw [List.cons_append, firstFit, firstFit]
      split
      · exact ih
      · rw [ih, List.cons_append, List.reverse_cons, List.append_assoc]
        rfl

theorem firstFit_append_cons_of_taken
    (taken : ((firstFit clash seen l).reverse ++ seen).any (clash · m) = true) :
    firstFit clash seen (l ++ m :: l') = firstFit clash seen (l ++ l') := by
  rw [firstFit_append, firstFit_cons_of_taken taken, ← firstFit_append]

theorem firstFit_seen_cons (free : ∀ a ∈ firstFit clash seen l, clash m a = false) :
    firstFit clash (m :: seen) l = firstFit clash seen l := by
  induction l generalizing seen with
  | nil => rfl
  | cons a l ih =>
      by_cases taken : seen.any (clash · a) = true
      · rw [firstFit_cons_of_taken taken] at free ⊢
        rw [firstFit_cons_of_taken (by rw [List.any_cons, taken, Bool.or_true]), ih free]
      · rw [Bool.not_eq_true] at taken
        rw [firstFit_cons_of_free taken, List.forall_mem_cons] at free
        rw [firstFit_cons_of_free taken,
          firstFit_cons_of_free (by rw [List.any_cons, free.1, taken, Bool.or_false]), ← ih free.2]
        congr 1
        apply firstFit_congr
        intro b
        simp only [List.any_cons]
        rw [Bool.or_left_comm]

theorem firstFit_sublist : (firstFit clash seen l).Sublist l := by
  induction l generalizing seen with
  | nil => exact List.Sublist.refl _
  | cons a l ih =>
      rw [firstFit]
      split
      · exact ih.cons a
      · exact ih.cons_cons a

theorem firstFit_pairwise : (firstFit clash seen l).Pairwise (fun a b => clash a b = false) ∧
    ∀ a ∈ firstFit clash seen l, ∀ b ∈ seen, clash b a = false := by
  induction l generalizing seen with
  | nil => exact ⟨.nil, nofun⟩
  | cons a l ih =>
      by_cases taken : seen.any (clash · a) = true
      · rw [firstFit_cons_of_taken taken]
        exact ih
      · rw [Bool.not_eq_true] at taken
        obtain ⟨apart, fresh⟩ := @ih (a :: seen)
        simp only [List.forall_mem_cons] at fresh
        rw [firstFit_cons_of_free taken, List.pairwise_cons, List.forall_mem_cons]
        refine ⟨⟨fun b kept => (fresh b kept).1, apart⟩, ?_, fun b kept => (fresh b kept).2⟩
        rw [List.any_eq_false] at taken
        intro b member
        exact Bool.eq_false_iff.mpr (taken b member)

theorem firstFit_split {kept later : List α} (split : firstFit clash seen l = kept ++ a :: later) :
    ∃ before after, l = before ++ a :: after ∧ firstFit clash seen before = kept := by
  induction l generalizing seen kept with
  | nil => exact absurd split (by simp [firstFit])
  | cons b l ih =>
      by_cases taken : seen.any (clash · b) = true
      · rw [firstFit_cons_of_taken taken] at split
        obtain ⟨before, after, rfl, kept_eq⟩ := ih split
        exact ⟨b :: before, after, rfl, by rw [firstFit_cons_of_taken taken, kept_eq]⟩
      · rw [Bool.not_eq_true] at taken
        rw [firstFit_cons_of_free taken] at split
        cases kept with
        | nil =>
            obtain ⟨rfl, -⟩ := List.cons.inj split
            exact ⟨[], l, rfl, rfl⟩
        | cons c kept =>
            obtain ⟨rfl, rest⟩ := List.cons.inj split
            obtain ⟨before, after, rfl, kept_eq⟩ := ih rest
            exact ⟨b :: before, after, rfl, by rw [firstFit_cons_of_free taken, kept_eq]⟩

end Proxyshop.Structures
