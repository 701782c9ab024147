import Mathlib.Data.List.Forall2
import Mathlib.Data.List.Basic

/-!
# Texts that can be read back

A text is framed when, whatever follows it, where it ends and what it was written for can be told.
Texts framed one by one stay framed behind one another, between separators and up to a closing mark.
-/

namespace Proxyshop.Structures

variable {α β : Type}

/-- A text of `a` ends in one way only, if what follows it may follow a text. -/
def Framed (writes : α → List β → Prop) (Follows : List β → Prop) (E : α → α → Prop) (a : α) : Prop :=
  ∀ (b : α) (s t x y : List β), writes a s → writes b t → Follows x → Follows y →
    s ++ x = t ++ y → E a b ∧ x = y

section Terminated

variable {f : α → List β} {mark : β}

theorem flatMap_framed (words : ∀ {a b x y}, f a ++ x = f b ++ y → a = b ∧ x = y)
    (unmarked : ∀ a x y, f a ++ x ≠ mark :: y) {as bs : List α} {x y : List β}
    (same : as.flatMap f ++ mark :: x = bs.flatMap f ++ mark :: y) : as = bs ∧ x = y := by
  induction as generalizing bs with
  | nil =>
      cases bs with
      | nil => exact ⟨rfl, (List.cons.inj same).2⟩
      | cons b bs =>
          rw [List.flatMap_cons, List.append_assoc] at same
          exact absurd same.symm (unmarked b _ _)
  | cons a as ih =>
      cases bs with
      | nil =>
          rw [List.flatMap_cons, List.append_assoc] at same
          exact absurd same (unmarked a _ _)
      | cons b bs =>
          rw [List.flatMap_cons, List.flatMap_cons, List.append_assoc, List.append_assoc] at same
          obtain ⟨rfl, rest⟩ := words same
          obtain ⟨rfl, rfl⟩ := ih rest
          exact ⟨rfl, rfl⟩

end Terminated

section Separated

variable {writes : α → List β → Prop} {Follows : List β → Prop} {E : α → α → Prop} {mark close : β}

theorem intercalate_cons (s : List β) (ss : List (List β)) :
    [mark].intercalate (s :: ss) = s ++ ss.flatMap (mark :: ·) := by
  induction ss generalizing s with
  | nil => simp [List.intercalate]
  | cons t ss ih =>
      rw [List.flatMap_cons, List.cons_append, ← ih t]
      simp [List.intercalate, List.intersperse]

theorem separated_framed (distinct : mark ≠ close) (followsMark : ∀ x, Follows (mark :: x))
    (followsClose : ∀ x, Follows (close :: x)) {as bs : List α} {ss ts : List (List β)}
    (left : List.Forall₂ writes as ss) (right : List.Forall₂ writes bs ts)
    (each : ∀ a ∈ as, Framed writes Follows E a) {x y : List β}
    (same : ss.flatMap (mark :: ·) ++ close :: x = ts.flatMap (mark :: ·) ++ close :: y) :
    List.Forall₂ E as bs ∧ x = y := by
  have follows (ss : List (List β)) (x : List β) : Follows (ss.flatMap (mark :: ·) ++ close :: x) := by
    cases ss with
    | nil => exact followsClose x
    | cons s ss => exact followsMark _
  induction left generalizing bs ts with
  | nil =>
      cases right with
      | nil => exact ⟨.nil, (List.cons.inj same).2⟩
      | cons _ _ => exact absurd (List.cons.inj same).1.symm distinct
  | @cons a s as ss written _ ih =>
      cases right with
      | nil => exact absurd (List.cons.inj same).1 distinct
      | @cons b t bs ts written' rest' =>
          rw [List.flatMap_cons, List.flatMap_cons, List.cons_append, List.cons_append,
            List.cons_append, List.cons_append, List.append_assoc, List.append_assoc] at same
          obtain ⟨head, rest⟩ := each a List.mem_cons_self b s t _ _ written written'
            (follows ss x) (follows ts y) (List.cons.inj same).2
          obtain ⟨tail, rfl⟩ := ih rest' (fun a member => each a (List.mem_cons_of_mem _ member)) rest
          exact ⟨.cons head tail, rfl⟩

theorem intercalate_framed (distinct : mark ≠ close) (followsMark : ∀ x, Follows (mark :: x))
    (followsClose : ∀ x, Follows (close :: x))
    (opens : ∀ a s x y, writes a s → s ++ x ≠ close :: y) {as bs : List α} {ss ts : List (List β)}
    (left : List.Forall₂ writes as ss) (right : List.Forall₂ writes bs ts)
    (each : ∀ a ∈ as, Framed writes Follows E a) {x y : List β}
    (same : [mark].intercalate ss ++ close :: x = [mark].intercalate ts ++ close :: y) :
    List.Forall₂ E as bs ∧ x = y := by
  cases left with
  | nil =>
      cases right with
      | nil => exact ⟨.nil, (List.cons.inj same).2⟩
      | cons written _ =>
          rw [intercalate_cons, List.append_assoc] at same
          exact absurd same.symm (opens _ _ _ _ written)
  | @cons a s as ss written rest =>
      cases right with
      | nil =>
          rw [intercalate_cons, List.append_assoc] at same
          exact absurd same (opens _ _ _ _ written)
      | @cons b t bs ts written' rest' =>
          apply separated_framed distinct followsMark followsClose (.cons written rest)
            (.cons written' rest') each
          rw [intercalate_cons, intercalate_cons, List.append_assoc, List.append_assoc] at same
          rw [List.flatMap_cons, List.flatMap_cons, List.cons_append, List.cons_append,
            List.cons_append, List.cons_append, List.append_assoc, List.append_assoc, same]

end Separated

theorem span_framed {p : β → Bool} {s t x y : List β} (hs : s.all p = true) (ht : t.all p = true)
    (hx : ∀ c ∈ x.head?, p c = false) (hy : ∀ c ∈ y.head?, p c = false) (same : s ++ x = t ++ y) :
    s = t ∧ x = y := by
  have split {s x : List β} (hs : s.all p = true) (hx : ∀ c ∈ x.head?, p c = false) :
      (s ++ x).takeWhile p = s := by
    rw [List.takeWhile_append_of_pos (List.all_eq_true.mp hs)]
    cases x with
    | nil => exact List.append_nil s
    | cons c x => rw [List.takeWhile_cons_of_neg (by simpa using hx c rfl), List.append_nil]
  have equal : s = t := by rw [← split hs hx, same, split ht hy]
  subst equal
  exact ⟨rfl, List.append_cancel_left same⟩

end Proxyshop.Structures
