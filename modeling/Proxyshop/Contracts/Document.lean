import Mathlib.Data.List.Forall2
import Proxyshop.Contracts.Json

/-!
# Documents

A decoded document: a value whose objects name each of their members once.
-/

namespace Proxyshop.Contracts

open Python

namespace Json

variable {N : Type}

inductive Keyed : Json N → Prop
  | null : Keyed .null
  | bool (b : Bool) : Keyed (.bool b)
  | number (n : N) : Keyed (.number n)
  | string (s : Str) : Keyed (.string s)
  | array {items : List (Json N)} : (∀ v ∈ items, Keyed v) → Keyed (.array items)
  | object {members : Dict Str (Json N)} : (Dict.keys members).Nodup →
      (∀ entry ∈ members, Keyed entry.2) → Keyed (.object members)

/-- Equal up to the order of the members of each object, and to `R` on the numbers. -/
inductive Same (R : N → N → Prop) : Json N → Json N → Prop
  | null : Same R .null .null
  | bool (b : Bool) : Same R (.bool b) (.bool b)
  | number {m n : N} : R m n → Same R (.number m) (.number n)
  | string (s : Str) : Same R (.string s) (.string s)
  | array {xs ys : List (Json N)} : xs.length = ys.length →
      (∀ (i : Nat) v w, xs[i]? = some v → ys[i]? = some w → Same R v w) → Same R (.array xs) (.array ys)
  | object {xs ys : Dict Str (Json N)} :
      (∀ k, (Dict.get? xs k).isSome = (Dict.get? ys k).isSome) →
      (∀ k v w, Dict.get? xs k = some v → Dict.get? ys k = some w → Same R v w) →
      Same R (.object xs) (.object ys)

variable {R : N → N → Prop}

theorem Keyed.item {items : List (Json N)} (keyed : Keyed (.array items)) {v : Json N}
    (member : v ∈ items) : Keyed v := by
  cases keyed with
  | array keyed => exact keyed v member

theorem Keyed.distinct {members : Dict Str (Json N)} (keyed : Keyed (.object members)) :
    (Dict.keys members).Nodup := by
  cases keyed with
  | object distinct _ => exact distinct

theorem Keyed.member {members : Dict Str (Json N)} (keyed : Keyed (.object members))
    {entry : Str × Json N} (member : entry ∈ members) : Keyed entry.2 := by
  cases keyed with
  | object _ keyed => exact keyed entry member

theorem Keyed.get {v : Json N} (keyed : Keyed v) (key : Str) : Keyed (v.get key) := by
  cases v with
  | object members =>
      rw [get_object]
      cases found : Dict.get? members key with
      | none => exact .null
      | some w => exact keyed.member (Dict.mem_of_get? found)
  | _ => exact .null

theorem same_object_iff {xs ys : Dict Str (Json N)} : Same R (.object xs) (.object ys) ↔
    ∀ k, Option.Rel (Same R) (Dict.get? xs k) (Dict.get? ys k) := by
  constructor
  · intro same k
    cases same with
    | object present same =>
        have both := present k
        have values := same k
        generalize Dict.get? xs k = left at both values ⊢
        generalize Dict.get? ys k = right at both values ⊢
        cases left <;> cases right
        · exact .none
        · cases both
        · cases both
        · exact .some (values _ _ rfl rfl)
  · intro related
    refine .object ?_ ?_
    · intro k
      have both := related k
      generalize Dict.get? xs k = left at both ⊢
      generalize Dict.get? ys k = right at both ⊢
      cases both <;> rfl
    · intro k v w left right
      have both := related k
      rw [left, right] at both
      cases both
      assumption

theorem Same.get {v w : Json N} (same : Same R v w) (key : Str) :
    Same R (v.get key) (w.get key) := by
  cases v with
  | object xs =>
      cases w with
      | object ys =>
          have both := same_object_iff.mp same key
          rw [get_object, get_object]
          generalize Dict.get? xs key = left at both ⊢
          generalize Dict.get? ys key = right at both ⊢
          cases both with
          | some same => exact same
          | none => exact .null
      | _ => cases same
  | _ =>
      cases same
      exact .null

theorem Same.array_of_forall₂ {xs ys : List (Json N)} (matched : List.Forall₂ (Same R) xs ys) :
    Same R (.array xs) (.array ys) := by
  refine .array matched.length_eq ?_
  intro i v w left right
  obtain ⟨bound, rfl⟩ := List.getElem?_eq_some_iff.mp left
  obtain ⟨bound', rfl⟩ := List.getElem?_eq_some_iff.mp right
  exact (List.forall₂_iff_get.mp matched).2 i bound bound'

theorem Same.forall₂ {xs ys : List (Json N)} (same : Same R (.array xs) (.array ys)) :
    List.Forall₂ (Same R) xs ys := by
  cases same with
  | array length same =>
      refine List.forall₂_iff_get.mpr ⟨length, ?_⟩
      intro i left right
      exact same i _ _ (List.getElem?_eq_getElem left) (List.getElem?_eq_getElem right)

theorem sizeOf_item [SizeOf N] {items : List (Json N)} {v : Json N} (member : v ∈ items) :
    sizeOf v < sizeOf (Json.array items) := by
  have := List.sizeOf_lt_of_mem member
  rw [Json.array.sizeOf_spec]
  omega

theorem sizeOf_member [SizeOf N] {members : List (Str × Json N)} {entry : Str × Json N}
    (member : entry ∈ members) : sizeOf entry.2 < sizeOf (Json.object members) := by
  have inside := List.sizeOf_lt_of_mem member
  have pair : sizeOf entry = 1 + sizeOf entry.1 + sizeOf entry.2 := by
    obtain ⟨k, v⟩ := entry
    rfl
  rw [Json.object.sizeOf_spec]
  omega

end Json

structure Document (N : Type) where
  value : Json N
  keyed : value.Keyed

end Proxyshop.Contracts
