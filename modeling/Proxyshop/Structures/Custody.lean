import Mathlib.Data.List.Basic
import Mathlib.Logic.Function.Basic

/-!
# Custody of things

A thing is issued once, and from then on it lies in a pool or is held by one holder.
-/

namespace Proxyshop.Structures

variable {α κ : Type}

structure Custody (pool : List α) (held : κ → Option α) (issued : α → Prop) : Prop where
  distinct : pool.Nodup
  apart : ∀ k a, held k = some a → a ∉ pool
  single : ∀ j k a, held j = some a → held k = some a → j = k
  somewhere : ∀ a, issued a ↔ a ∈ pool ∨ ∃ k, held k = some a

namespace Custody

variable {pool pool' : List α} {held : κ → Option α} {issued issued' : α → Prop} {a : α} {k : κ}

theorem perm (custody : Custody pool held issued) (same : pool.Perm pool') : Custody pool' held issued where
  distinct := same.nodup_iff.mp custody.distinct
  apart := fun k a holds => same.mem_iff.not.mp (custody.apart k a holds)
  single := custody.single
  somewhere := fun a => (custody.somewhere a).trans (or_congr_left same.mem_iff)

theorem issue (custody : Custody pool held issued) (new : ¬ issued a)
    (issues : ∀ b, issued' b ↔ b = a ∨ issued b) : Custody (a :: pool) held issued' := by
  rw [custody.somewhere, not_or] at new
  obtain ⟨outside, free⟩ := new
  refine ⟨List.nodup_cons.mpr ⟨outside, custody.distinct⟩, ?_, custody.single, ?_⟩
  · intro k b holds member
    rcases List.mem_cons.mp member with rfl | member
    · exact free ⟨k, holds⟩
    · exact custody.apart k b holds member
  · intro b
    rw [issues, custody.somewhere, List.mem_cons, or_assoc]

variable [DecidableEq κ]

theorem take (custody : Custody (a :: pool) held issued) (idle : held k = none) :
    Custody pool (Function.update held k (some a)) issued := by
  obtain ⟨outside, distinct⟩ := List.nodup_cons.mp custody.distinct
  have free (j : κ) : held j ≠ some a := fun holds => custody.apart j a holds List.mem_cons_self
  have other {j : κ} {b : α} (holds : held j = some b) : j ≠ k := by
    rintro rfl
    rw [idle] at holds
    cases holds
  refine ⟨distinct, ?_, ?_, ?_⟩
  · intro j b holds
    by_cases mine : j = k
    · subst mine
      rw [Function.update_self] at holds
      cases holds
      exact outside
    · rw [Function.update_of_ne mine] at holds
      exact fun member => custody.apart j b holds (List.mem_cons_of_mem _ member)
  · intro i j b holds holds'
    simp only [Function.update_apply] at holds holds'
    split at holds <;> split at holds'
    · rename_i here here'
      rw [here, here']
    · cases holds
      exact absurd holds' (free j)
    · cases holds'
      exact absurd holds (free i)
    · exact custody.single i j b holds holds'
  · intro b
    rw [custody.somewhere, List.mem_cons]
    constructor
    · rintro ((rfl | member) | ⟨j, holds⟩)
      · exact Or.inr ⟨k, Function.update_self ..⟩
      · exact Or.inl member
      · exact Or.inr ⟨j, by rw [Function.update_of_ne (other holds), holds]⟩
    · rintro (member | ⟨j, holds⟩)
      · exact Or.inl (Or.inr member)
      · by_cases mine : j = k
        · subst mine
          rw [Function.update_self] at holds
          cases holds
          exact Or.inl (Or.inl rfl)
        · rw [Function.update_of_ne mine] at holds
          exact Or.inr ⟨j, holds⟩

theorem put (custody : Custody pool held issued) (holds : held k = some a) :
    Custody (a :: pool) (Function.update held k none) issued := by
  have others {j : κ} {b : α} (keeps : Function.update held k none j = some b) :
      j ≠ k ∧ held j = some b := by
    by_cases mine : j = k
    · subst mine
      rw [Function.update_self] at keeps
      cases keeps
    · exact ⟨mine, by rwa [Function.update_of_ne mine] at keeps⟩
  refine ⟨List.nodup_cons.mpr ⟨custody.apart k a holds, custody.distinct⟩, ?_, ?_, ?_⟩
  · intro j b keeps member
    obtain ⟨other, keeps⟩ := others keeps
    rcases List.mem_cons.mp member with rfl | member
    · exact other (custody.single j k b keeps holds)
    · exact custody.apart j b keeps member
  · intro i j b keeps keeps'
    exact custody.single i j b (others keeps).2 (others keeps').2
  · intro b
    rw [custody.somewhere, List.mem_cons]
    constructor
    · rintro (member | ⟨j, keeps⟩)
      · exact Or.inl (Or.inr member)
      · by_cases mine : j = k
        · subst mine
          rw [holds] at keeps
          cases keeps
          exact Or.inl (Or.inl rfl)
        · exact Or.inr ⟨j, by rw [Function.update_of_ne mine, keeps]⟩
    · rintro ((rfl | member) | ⟨j, keeps⟩)
      · exact Or.inr ⟨k, holds⟩
      · exact Or.inl member
      · exact Or.inr ⟨j, (others keeps).2⟩

end Custody
end Proxyshop.Structures
