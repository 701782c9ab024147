import Mathlib.Algebra.BigOperators.Ring.List
import Mathlib.Algebra.Order.BigOperators.Group.List
import Mathlib.Algebra.Order.Field.Basic
import Mathlib.Data.List.Perm.Subperm
import Mathlib.Tactic.Linarith
import Mathlib.Tactic.FieldSimp
import Mathlib.Tactic.Ring

/-!
# Water filling

Some holders of a unit mass are entitled to a level. Those that fall short of it, by more than a
tolerance, are pinned at the level and the others are scaled to what is left, until none falls short.
-/

namespace Proxyshop.Structures.WaterFilling

variable {α K : Type} [DecidableEq α] [Field K] [LinearOrder K]

def free (order pinned : List α) : List α := order.filter fun a => a ∉ pinned

def remaining (level : K) (pinned : List α) : K := 1 - (pinned.map fun _ => level).sum

def mass (shares : α → K) (holders : List α) : K := (holders.map shares).sum

/-- What a free holder has while these are pinned: its part of what is left, or an even part. -/
def scaled (shares : α → K) (order : List α) (level : K) (pinned : List α) (a : α) : K :=
  if 0 < mass shares (free order pinned) then
    shares a * (remaining level pinned / mass shares (free order pinned))
  else remaining level pinned / (free order pinned).length

def short (shares : α → K) (order entitled : List α) (level tolerance : K) (pinned : List α) : List α :=
  (free order pinned).filter fun a => a ∈ entitled && scaled shares order level pinned a < level - tolerance

/-- The holders that are pinned in the end, where the fuel is enough. -/
def fill (shares : α → K) (order entitled : List α) (level tolerance : K) : Nat → List α → Option (List α)
  | 0, _ => none
  | fuel + 1, pinned =>
      if (free order pinned).isEmpty then some pinned
      else if (short shares order entitled level tolerance pinned).isEmpty then some pinned
      else fill shares order entitled level tolerance fuel
        (pinned ++ short shares order entitled level tolerance pinned)

def spread (shares : α → K) (order : List α) (level : K) (pinned : List α) (a : α) : K :=
  if a ∈ pinned then level else scaled shares order level pinned a

theorem spread_of_mem {shares : α → K} {order pinned : List α} {level : K} {a : α} (member : a ∈ pinned) :
    spread shares order level pinned a = level := if_pos member

theorem spread_of_free {shares : α → K} {order pinned : List α} {level : K} {a : α} (other : a ∉ pinned) :
    spread shares order level pinned a = scaled shares order level pinned a := if_neg other

section Lists

omit [DecidableEq α] [LinearOrder K] in
theorem mass_filter_add (shares : α → K) (p : α → Bool) (order : List α) :
    mass shares (order.filter p) + mass shares (order.filter fun a => !p a) = mass shares order := by
  unfold mass
  induction order with
  | nil => simp
  | cons a order ih =>
      cases held : p a with
      | true =>
          simp only [List.filter_cons, held, Bool.not_true, Bool.false_eq_true, if_true, if_false, List.map_cons,
            List.sum_cons, ← ih]
          ring
      | false =>
          simp only [List.filter_cons, held, Bool.not_false, Bool.false_eq_true, if_true, if_false, List.map_cons,
            List.sum_cons, ← ih]
          ring

omit [DecidableEq α] [LinearOrder K] in
theorem mass_congr {f g : α → K} {holders : List α} (same : ∀ a ∈ holders, f a = g a) :
    mass f holders = mass g holders := by
  rw [mass, mass, List.map_congr_left same]

omit [DecidableEq α] [LinearOrder K] in
theorem mass_const (level : K) (holders : List α) : mass (fun _ => level) holders = holders.length * level := by
  simp [mass, List.map_const', List.sum_replicate]

omit [DecidableEq α] [LinearOrder K] in
theorem mass_mul (shares : α → K) (scale : K) (holders : List α) :
    mass (fun a => shares a * scale) holders = mass shares holders * scale :=
  List.sum_map_mul_right _ _ _

omit [DecidableEq α] [LinearOrder K] in
theorem remaining_eq (level : K) (pinned : List α) : remaining level pinned = 1 - pinned.length * level := by
  rw [remaining, ← mass_const level pinned, mass]

omit [Field K] [LinearOrder K] in
theorem mem_free {order pinned : List α} {a : α} : a ∈ free order pinned ↔ a ∈ order ∧ a ∉ pinned := by
  simp [free]

omit [Field K] [LinearOrder K] in
theorem length_pinned {order pinned : List α} (nodup : order.Nodup) (distinct : pinned.Nodup)
    (inside : ∀ a ∈ pinned, a ∈ order) : (order.filter fun a => a ∈ pinned).length = pinned.length := by
  apply List.Perm.length_eq
  rw [List.perm_ext_iff_of_nodup (nodup.filter _) distinct]
  intro a
  simp only [List.mem_filter, decide_eq_true_eq]
  exact and_iff_right_of_imp (inside a)

end Lists

section Ordered

variable [IsStrictOrderedRing K]

omit [DecidableEq α] in
theorem mass_pos {shares : α → K} {holders : List α} (positive : ∀ a ∈ holders, 0 < shares a)
    (some_holder : holders ≠ []) : 0 < mass shares holders := by
  apply List.sum_pos
  · simpa using positive
  · simpa using some_holder

omit [DecidableEq α] in
theorem mass_nonneg {shares : α → K} {holders : List α} (nonneg : ∀ a ∈ holders, 0 ≤ shares a) :
    0 ≤ mass shares holders := by
  apply List.sum_nonneg
  simpa using nonneg

variable {shares : α → K} {order entitled pinned : List α} {level tolerance : K} {fuel : Nat}

/-- What the loop starts from: distinct holders of a positive share, and a level that can be paid. -/
structure Payable (shares : α → K) (order entitled : List α) (level tolerance : K) : Prop where
  nodup : order.Nodup
  positive : ∀ a ∈ order, 0 < shares a
  unit : mass shares order = 1
  distinct : entitled.Nodup
  inside : ∀ a ∈ entitled, a ∈ order
  nonneg : 0 ≤ level
  paid : entitled.length * level ≤ 1
  slack : 0 ≤ tolerance

/-- What the loop keeps: distinct entitled holders are pinned, and some holder is free. -/
structure Pinning (order entitled pinned : List α) : Prop where
  distinct : pinned.Nodup
  entitled : ∀ a ∈ pinned, a ∈ entitled
  open_ : free order pinned ≠ []

namespace Payable

variable (payable : Payable shares order entitled level tolerance)

include payable

omit [DecidableEq α] in
theorem some_holder : order ≠ [] := by
  rintro rfl
  have unit := payable.unit
  simp [mass] at unit

theorem pinning_nil : Pinning order entitled [] where
  distinct := List.nodup_nil
  entitled := by simp
  open_ := by simpa [free] using payable.some_holder

theorem free_mass (pinning : Pinning order entitled pinned) : 0 < mass shares (free order pinned) :=
  mass_pos (fun a member => payable.positive a (mem_free.mp member).1) pinning.open_

theorem scaled_eq (pinning : Pinning order entitled pinned) (a : α) :
    scaled shares order level pinned a =
      shares a * (remaining level pinned / mass shares (free order pinned)) :=
  if_pos (payable.free_mass pinning)

theorem mass_scaled (pinning : Pinning order entitled pinned) :
    mass (scaled shares order level pinned) (free order pinned) = remaining level pinned := by
  have positive := payable.free_mass pinning
  rw [mass_congr fun a _ => payable.scaled_eq pinning a, mass_mul]
  field_simp

omit payable [Field K] [LinearOrder K] [IsStrictOrderedRing K] in
theorem length_le (pinning : Pinning order entitled pinned) : pinned.length ≤ entitled.length :=
  (List.subperm_of_subset pinning.distinct pinning.entitled).length_le

theorem remaining_nonneg (pinning : Pinning order entitled pinned) : 0 ≤ remaining level pinned := by
  have few : (pinned.length : K) ≤ entitled.length := by exact_mod_cast length_le pinning
  have less := mul_le_mul_of_nonneg_right few payable.nonneg
  have paid := payable.paid
  rw [remaining_eq]
  linarith

omit payable [IsStrictOrderedRing K] in
theorem mem_short {a : α} : a ∈ short shares order entitled level tolerance pinned ↔
    (a ∈ order ∧ a ∉ pinned) ∧ a ∈ entitled ∧ scaled shares order level pinned a < level - tolerance := by
  simp [short, mem_free]

theorem pinning_step (pinning : Pinning order entitled pinned) :
    Pinning order entitled (pinned ++ short shares order entitled level tolerance pinned) := by
  set more := short shares order entitled level tolerance pinned with more_eq
  have fresh : ∀ a ∈ more, a ∉ pinned := fun a member => (mem_short.mp member).1.2
  have nodup : (pinned ++ more).Nodup := by
    rw [List.nodup_append]
    refine ⟨pinning.distinct, (payable.nodup.filter _).filter _, ?_⟩
    rintro a member b new rfl
    exact fresh a new member
  have entitled' : ∀ a ∈ pinned ++ more, a ∈ entitled := by
    intro a member
    rcases List.mem_append.mp member with old | new
    · exact pinning.entitled a old
    · exact (mem_short.mp new).2.1
  refine ⟨nodup, entitled', fun none => ?_⟩
  have all : ∀ a ∈ free order pinned, a ∈ more := by
    intro a member
    by_contra other
    have left : a ∈ free order (pinned ++ more) := by
      rw [mem_free, List.mem_append, not_or]
      exact ⟨(mem_free.mp member).1, (mem_free.mp member).2, other⟩
    rw [none] at left
    cases left
  have below : remaining level pinned < mass (fun _ => level - tolerance) (free order pinned) := by
    rw [← payable.mass_scaled pinning]
    exact List.sum_lt_sum_of_ne_nil pinning.open_ _ _ fun a member => (mem_short.mp (all a member)).2.2
  have many : (free order pinned).length ≤ more.length :=
    (List.subperm_of_subset (payable.nodup.filter _) all).length_le
  have few : (pinned ++ more).length ≤ entitled.length := (List.subperm_of_subset nodup entitled').length_le
  rw [List.length_append] at few
  have counts : (pinned.length : K) + (free order pinned).length ≤ entitled.length := by
    exact_mod_cast (Nat.add_le_add_left many _).trans few
  have paid := payable.paid
  have tolerance' : 0 ≤ ((free order pinned).length : K) * tolerance :=
    mul_nonneg (Nat.cast_nonneg _) payable.slack
  have level' := mul_le_mul_of_nonneg_right counts payable.nonneg
  rw [remaining_eq, mass_const] at below
  linarith [mul_sub ((free order pinned).length : K) level tolerance,
    add_mul (pinned.length : K) ((free order pinned).length : K) level]

theorem fill_settles (pinning : Pinning order entitled pinned) (enough : entitled.length < pinned.length + fuel) :
    ∃ settled, fill shares order entitled level tolerance fuel pinned = some settled ∧
      Pinning order entitled settled ∧ short shares order entitled level tolerance settled = [] := by
  induction fuel generalizing pinned with
  | zero =>
      have few := length_le pinning
      omega
  | succ fuel ih =>
      rw [fill, if_neg (by simpa using pinning.open_)]
      by_cases none : short shares order entitled level tolerance pinned = []
      · exact ⟨pinned, if_pos (List.isEmpty_iff.mpr none), pinning, none⟩
      · rw [if_neg (by simpa using none)]
        apply ih (payable.pinning_step pinning)
        have some_short := List.length_pos_iff.mpr none
        rw [List.length_append]
        omega

/-! ## What is spread -/

theorem mass_spread (pinning : Pinning order entitled pinned) :
    mass (spread shares order level pinned) order = 1 := by
  have held : mass (spread shares order level pinned) (order.filter fun a => a ∈ pinned) =
      pinned.length * level := by
    have level' : ∀ a ∈ order.filter fun a => a ∈ pinned, spread shares order level pinned a = level := fun a member =>
      spread_of_mem (by simpa using (List.mem_filter.mp member).2)
    rw [mass_congr level', mass_const, length_pinned payable.nodup pinning.distinct fun a member =>
      payable.inside a (pinning.entitled a member)]
  have left : mass (spread shares order level pinned) (free order pinned) = remaining level pinned := by
    rw [mass_congr fun a member => spread_of_free (mem_free.mp member).2, payable.mass_scaled pinning]
  have parts := mass_filter_add (spread shares order level pinned) (fun a => decide (a ∈ pinned)) order
  have others : (order.filter fun a => !decide (a ∈ pinned)) = free order pinned := by simp [free]
  rw [others, held, left, remaining_eq] at parts
  linarith

theorem spread_nonneg (pinning : Pinning order entitled pinned) {a : α} (member : a ∈ order) :
    0 ≤ spread shares order level pinned a := by
  unfold spread
  split
  · exact payable.nonneg
  · rw [payable.scaled_eq pinning]
    exact mul_nonneg (payable.positive a member).le
      (div_nonneg (payable.remaining_nonneg pinning) (payable.free_mass pinning).le)

theorem level_le_spread (settled : short shares order entitled level tolerance pinned = []) {a : α}
    (member : a ∈ entitled) : level - tolerance ≤ spread shares order level pinned a := by
  unfold spread
  split
  · linarith [payable.slack]
  · rename_i other
    by_contra below
    have listed : a ∈ short shares order entitled level tolerance pinned :=
      mem_short.mpr ⟨⟨payable.inside a member, other⟩, member, not_le.mp below⟩
    rw [settled] at listed
    cases listed

theorem spread_pos (pinning : Pinning order entitled pinned) (left : 0 < remaining level pinned) {a : α}
    (member : a ∈ order) (other : a ∉ pinned) : 0 < spread shares order level pinned a := by
  rw [spread_of_free other, payable.scaled_eq pinning]
  exact mul_pos (payable.positive a member) (div_pos left (payable.free_mass pinning))

theorem spread_ratio (pinning : Pinning order entitled pinned) {a b : α} (other : a ∉ pinned)
    (other' : b ∉ pinned) : spread shares order level pinned a * shares b =
      spread shares order level pinned b * shares a := by
  rw [spread_of_free other, spread_of_free other', payable.scaled_eq pinning, payable.scaled_eq pinning]
  ring

end Payable
end Ordered
end Proxyshop.Structures.WaterFilling
