import Proxyshop.Python.Text
import Mathlib.Data.List.Basic

/-!
# Percent escapes

A separator is escaped out of a text, the percent sign first, so that the escaped text can be read
back and joined to others by the separator.
-/

namespace Proxyshop.Python

def percent : CodePoint := CodePoint.ofChar '%'

/-- A separator and the two digits that follow the percent sign in its place. -/
structure Escape where
  separator : CodePoint
  high : CodePoint
  low : CodePoint
  valid : percent ∉ [separator, high, low] ∧ separator ∉ high :: low :: str "25" ∧
    [high, low] ≠ str "25"

namespace Escape

variable (e : Escape)

def code : Str := [percent, e.high, e.low]

def encode (s : Str) : Str := (s.replace (str "%") (str "%25")).replace [e.separator] e.code

def decode (s : Str) : Str := (s.replace e.code [e.separator]).replace (str "%25") (str "%")

def spell (c : CodePoint) : Str :=
  if c = percent then str "%25" else if c = e.separator then e.code else [c]

theorem encode_eq (s : Str) : e.encode s = s.flatMap e.spell := by
  obtain ⟨apart, fresh, -⟩ := e.valid
  have two : ∀ c ∈ str "%25", c ≠ e.separator := by
    intro c member same
    subst same
    have digits : str "%25" = percent :: str "25" := rfl
    rw [digits, List.mem_cons] at member
    rcases member with same | member
    · simp [same] at apart
    · simp [member] at fresh
  rw [encode, show str "%" = [percent] from rfl, Str.replace_singleton, Str.replace_singleton,
    List.flatMap_assoc]
  congr 1
  funext c
  unfold spell
  split
  · have kept : ∀ t : Str, (∀ c ∈ t, c ≠ e.separator) →
        (t.flatMap fun c => if c = e.separator then e.code else [c]) = t := by
      intro t solid
      induction t with
      | nil => rfl
      | cons c t ih =>
          rw [List.flatMap_cons, if_neg (solid c List.mem_cons_self),
            ih fun d member => solid d (List.mem_cons_of_mem _ member), List.singleton_append]
    exact kept _ two
  · simp

theorem separator_notMem_encode (s : Str) : e.separator ∉ e.encode s := by
  obtain ⟨apart, fresh, -⟩ := e.valid
  simp only [List.mem_cons, not_or] at apart fresh
  rw [encode_eq, List.mem_flatMap]
  rintro ⟨c, -, member⟩
  unfold spell at member
  split at member
  · rw [show str "%25" = percent :: str "25" from rfl, List.mem_cons] at member
    rcases member with same | member
    · exact apart.1 same.symm
    · exact fresh.2.2 member
  · split at member
    · simp only [code, List.mem_cons, List.not_mem_nil, or_false] at member
      rcases member with same | same | same
      · exact apart.1 same.symm
      · exact fresh.1 same
      · exact fresh.2.1 same
    · rename_i other
      exact other (List.mem_singleton.mp member).symm

theorem replace_code (s : Str) : Str.replace (s.flatMap e.spell) e.code [e.separator] =
    s.flatMap fun c => if c = percent then str "%25" else [c] := by
  obtain ⟨-, -, other⟩ := e.valid
  induction s with
  | nil => rfl
  | cons c s ih =>
      rw [List.flatMap_cons, List.flatMap_cons, ← ih, spell]
      by_cases sign : c = percent
      · have digits : str "25" = [CodePoint.ofChar '2', CodePoint.ofChar '5'] := rfl
        have full : str "%25" = percent :: str "25" := rfl
        have far : percent ≠ CodePoint.ofChar '2' ∧ percent ≠ CodePoint.ofChar '5' := by decide
        rw [digits] at other
        rw [if_pos sign, if_pos sign, full, digits]
        simp only [List.cons_append, List.nil_append]
        rw [Str.replace_cons, Str.replace_cons, Str.replace_cons]
        · simp [code, List.isPrefixOf, far.2]
        · simp [code, List.isPrefixOf, far.1]
        · simp only [code, List.isPrefixOf, beq_self_eq_true, Bool.true_and, Bool.and_true]
          simpa using other
      · by_cases sep : c = e.separator
        · rw [if_neg sign, if_neg sign, if_pos sep, sep]
          exact Str.replace_append percent [e.high, e.low] [e.separator] _
        · rw [if_neg sign, if_neg sign, if_neg sep]
          apply Str.replace_cons
          have far : percent ≠ c := fun same => sign same.symm
          simp [code, List.isPrefixOf, far]

theorem decode_encode (s : Str) : e.decode (e.encode s) = s := by
  rw [decode, encode_eq, replace_code]
  induction s with
  | nil => rfl
  | cons c s ih =>
      rw [List.flatMap_cons]
      by_cases sign : c = percent
      · rw [if_pos sign, sign]
        exact (Str.replace_append percent (str "25") (str "%") _).trans (congrArg (percent :: ·) ih)
      · have far : percent ≠ c := fun same => sign same.symm
        rw [if_neg sign, List.singleton_append, Str.replace_cons, ih]
        simp [show str "%25" = percent :: str "25" from rfl, List.isPrefixOf, far]

theorem encode_injective : Function.Injective e.encode := by
  intro s t same
  rw [← e.decode_encode s, same, e.decode_encode]

theorem append_separator_inj {α : Type} {a : α} {x y z w : List α} (left : a ∉ x) (right : a ∉ y) :
    x ++ a :: z = y ++ a :: w ↔ x = y ∧ z = w := by
  induction x generalizing y with
  | nil =>
      cases y with
      | nil => simp
      | cons b y =>
          have other : a ≠ b := fun same => right (same ▸ List.mem_cons_self)
          simp [other]
  | cons b x ih =>
      cases y with
      | nil =>
          have other : b ≠ a := fun same => left (same ▸ List.mem_cons_self)
          simp [other]
      | cons c y =>
          have rest := ih (fun member => left (List.mem_cons_of_mem _ member))
            (fun member => right (List.mem_cons_of_mem _ member))
          simp only [List.cons_append, List.cons.injEq, rest, and_assoc]

theorem join_inj {s t rest rest' : Str} :
    e.encode s ++ e.separator :: rest = e.encode t ++ e.separator :: rest' ↔ s = t ∧ rest = rest' := by
  rw [append_separator_inj (e.separator_notMem_encode s) (e.separator_notMem_encode t),
    e.encode_injective.eq_iff]

end Escape
end Proxyshop.Python
