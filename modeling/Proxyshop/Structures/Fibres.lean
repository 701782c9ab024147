import Mathlib.Data.List.Perm.Basic
import Proxyshop.Structures.Sorted

/-!
# Fibres

What is filed under one key: of a list sorted by key, and of a dictionary that items were filed in one
after the other.
-/

namespace Proxyshop.Structures

open Python

section Sorting

variable {α K : Type} [DecidableEq K] {le : K → K → Bool} {key : α → K}

/-- `sorted(l, key=key)`. -/
def sortBy (le : K → K → Bool) (key : α → K) (l : List α) : List α :=
  l.insertionSort fun a b => le (key a) (key b)

omit [DecidableEq K] in
theorem sortBy_perm (l : List α) : (sortBy le key l).Perm l := List.perm_insertionSort _ l

omit [DecidableEq K] in
theorem sortBy_sorted {S : Set K} (order : KeyOrder le S) (l : List α) :
    (sortBy le key l).Pairwise fun a b => le (key a) (key b) = true :=
  letI : Std.Total fun a b : α => le (key a) (key b) = true := ⟨fun a b => order.total (key a) (key b)⟩
  letI : IsTrans α fun a b => le (key a) (key b) = true := ⟨fun _ _ _ => order.trans⟩
  List.pairwise_insertionSort _ l

theorem filter_sortBy {S : Set K} (order : KeyOrder le S) (l : List α) (k : K) :
    (sortBy le key l).filter (fun a => key a = k) = l.filter fun a => key a = k := by
  have alike : (l.filter fun a => key a = k).Pairwise fun a b => le (key a) (key b) = true := by
    rw [List.pairwise_iff_forall_sublist]
    intro a b within
    have left : key a = k := by simpa using (List.mem_filter.mp (within.subset (by simp))).2
    have right : key b = k := by simpa using (List.mem_filter.mp (within.subset (by simp))).2
    rw [left, right]
    exact (order.total k k).elim id id
  have within := List.sublist_insertionSort alike List.filter_sublist
  have kept := within.filter fun a => key a = k
  rw [List.filter_filter] at kept
  simp only [Bool.and_self] at kept
  exact (kept.eq_of_length ((sortBy_perm l).filter _).length_eq.symm).symm

theorem eq_of_fibres (order : KeyOrder le Set.univ) {l m : List α}
    (left : l.Pairwise fun a b => le (key a) (key b) = true)
    (right : m.Pairwise fun a b => le (key a) (key b) = true)
    (fibres : ∀ k, l.filter (fun a => key a = k) = m.filter fun a => key a = k) : l = m := by
  induction l generalizing m with
  | nil =>
      cases m with
      | nil => rfl
      | cons b m => simpa using fibres (key b)
  | cons a l ih =>
      cases m with
      | nil => simpa using fibres (key a)
      | cons b m =>
          rw [List.pairwise_cons] at left right
          have reflexive (k : K) : le k k = true := (order.total k k).elim id id
          have below : le (key a) (key b) = true := by
            have member : b ∈ (a :: l).filter fun c => key c = key b := by
              rw [fibres]
              simp
            rcases List.mem_cons.mp (List.mem_filter.mp member).1 with rfl | inside
            · exact reflexive _
            · exact left.1 b inside
          have above : le (key b) (key a) = true := by
            have member : a ∈ (b :: m).filter fun c => key c = key a := by
              rw [← fibres]
              simp
            rcases List.mem_cons.mp (List.mem_filter.mp member).1 with rfl | inside
            · exact reflexive _
            · exact right.1 a inside
          have same := order.antisymm trivial trivial below above
          have heads := fibres (key a)
          simp only [List.filter_cons, same, decide_true, if_true] at heads
          obtain ⟨rfl, _⟩ := List.cons.inj heads
          congr 1
          apply ih left.2 right.2
          intro k
          have fibre := fibres k
          simp only [List.filter_cons] at fibre
          split at fibre
          · exact (List.cons.inj fibre).2
          · exact fibre

end Sorting

section Filing

variable {α K V : Type} [DecidableEq K]

theorem filter_key {d : Dict K V} (distinct : (Dict.keys d).Nodup) (k : K) :
    d.filter (fun e => e.1 = k) = (Dict.get? d k).toList.map fun v => (k, v) := by
  induction d with
  | nil => rfl
  | cons e d ih =>
      obtain ⟨k', v⟩ := e
      rw [Dict.keys, List.map_cons, List.nodup_cons] at distinct
      by_cases same : k' = k
      · subst same
        have absent : Dict.get? d k' = none := (Dict.get?_eq_none_iff d k').mpr distinct.1
        rw [List.filter_cons, ih distinct.2, absent]
        simp
      · rw [List.filter_cons, ih distinct.2, Dict.get?_cons_ne same]
        simp [same]

variable (key : α → K) (initial : K → V) (file : V → α → V)

def filed (d : Dict K V) (a : α) : Dict K V :=
  Dict.adjust d (key a) (initial (key a)) fun v => file v a

theorem nodup_filed {d : Dict K V} (distinct : (Dict.keys d).Nodup) (l : List α) :
    (Dict.keys (l.foldl (filed key initial file) d)).Nodup := by
  induction l generalizing d with
  | nil => exact distinct
  | cons a l ih => exact ih (Dict.nodup_keys_set distinct _ _)

theorem get?_filed (d : Dict K V) (l : List α) (k : K) :
    Dict.get? (l.foldl (filed key initial file) d) k =
      if (l.filter fun a => key a = k) = [] then Dict.get? d k
      else some ((l.filter fun a => key a = k).foldl file ((Dict.get? d k).getD (initial k))) := by
  induction l generalizing d with
  | nil => rfl
  | cons a l ih =>
      rw [List.foldl_cons, ih, filed, Dict.get?_adjust, List.filter_cons]
      by_cases same : key a = k
      · subst same
        by_cases last : (l.filter fun b => key b = key a) = [] <;> simp [last]
      · by_cases last : (l.filter fun b => key b = k) = [] <;> simp [last, same, Ne.symm same]

theorem sum_adjust (weight : V → Int) (d : Dict K V) (k : K) (initial : V) (f : V → V)
    (zero : weight initial = 0) (step : ∀ v, weight (f v) = weight v + 1) :
    ((Dict.adjust d k initial f).map fun e => weight e.2).sum = (d.map fun e => weight e.2).sum + 1 := by
  induction d with
  | nil =>
      show (List.map _ [(k, f initial)]).sum = 0 + 1
      simp [step, zero]
  | cons e d ih =>
      obtain ⟨k', v⟩ := e
      unfold Dict.adjust at ih ⊢
      by_cases here : k' = k
      · subst here
        simp only [Dict.set, Dict.get?_cons_self, if_true, Option.getD_some, List.map_cons, List.sum_cons, step]
        omega
      · simp only [Dict.set, Dict.get?_cons_ne here, if_neg here, List.map_cons, List.sum_cons, ih]
        omega

variable {initial file}

theorem sum_filed (weight : V → Int)
    (zero : ∀ k, weight (initial k) = 0) (step : ∀ v a, weight (file v a) = weight v + 1) (d : Dict K V)
    (l : List α) :
    ((l.foldl (filed key initial file) d).map fun e => weight e.2).sum
      = (d.map fun e => weight e.2).sum + l.length := by
  induction l generalizing d with
  | nil => simp
  | cons a l ih =>
      have first := sum_adjust weight d (key a) (initial (key a)) (file · a) (zero _) fun v => step v a
      rw [List.foldl_cons, ih]
      unfold filed
      rw [first, List.length_cons]
      omega

end Filing
end Proxyshop.Structures

/-!
## Tables of counts

How often each label was seen, and how often in a win. What a table says of a label does not depend on
the order of counting, and neither do its entries once they are sorted.
-/

namespace Proxyshop.Structures

open Python

section Folds

variable {σ α β : Type} {f : σ → α → σ} {g : σ → β → σ}

theorem foldl_comm_step (comm : ∀ s a b, g (f s a) b = f (g s b) a) (l : List α) (s : σ) (b : β) :
    g (l.foldl f s) b = l.foldl f (g s b) := by
  induction l generalizing s with
  | nil => rfl
  | cons a l ih => rw [List.foldl_cons, ih, comm, List.foldl_cons]

theorem foldl_comm_foldl (comm : ∀ s a b, g (f s a) b = f (g s b) a) (l : List α) (m : List β) (s : σ) :
    m.foldl g (l.foldl f s) = l.foldl f (m.foldl g s) := by
  induction m generalizing s with
  | nil => rfl
  | cons b m ih => rw [List.foldl_cons, foldl_comm_step comm, ih, List.foldl_cons]

end Folds

section Counts

variable {K : Type} [DecidableEq K]

abbrev Counts (K : Type) := Dict K (Int × Int)

def counted (won : Bool) (counts : Int × Int) : Int × Int :=
  (counts.1 + if won then 1 else 0, counts.2 + 1)

def bump (won : Bool) (table : Counts K) (label : K) : Counts K :=
  Dict.adjust table label (0, 0) (counted won)

/-- One more observation of a label, on what a table says of every label. -/
def bumped (won : Bool) (said : K → Option (Int × Int)) (label : K) : K → Option (Int × Int) :=
  Function.update said label (some (counted won ((said label).getD (0, 0))))

theorem get?_bump (won : Bool) (table : Counts K) (label : K) :
    Dict.get? (bump won table label) = bumped won (Dict.get? table) label := by
  funext k
  rw [bump, Dict.get?_adjust, bumped, Function.update_apply]

theorem get?_bumps (won : Bool) (labels : List K) (table : Counts K) :
    Dict.get? (labels.foldl (bump won) table) = labels.foldl (bumped won) (Dict.get? table) := by
  induction labels generalizing table with
  | nil => rfl
  | cons label labels ih => rw [List.foldl_cons, ih, get?_bump, List.foldl_cons]

theorem bumped_comm (won won' : Bool) (said : K → Option (Int × Int)) (label label' : K) :
    bumped won' (bumped won said label) label' = bumped won (bumped won' said label') label := by
  by_cases same : label = label'
  · subst same
    have counts (c : Int × Int) : counted won' (counted won c) = counted won (counted won' c) := by
      simp only [counted, Int.add_right_comm]
    simp [bumped, counts]
  · simp only [bumped, Function.update_of_ne same, Function.update_of_ne (Ne.symm same)]
    exact Function.update_comm same _ _ _

theorem nodup_bumps {won : Bool} {table : Counts K} (distinct : (Dict.keys table).Nodup) (labels : List K) :
    (Dict.keys (labels.foldl (bump won) table)).Nodup := by
  induction labels generalizing table with
  | nil => exact distinct
  | cons label labels ih => exact ih (Dict.nodup_keys_set distinct _ _)

theorem mem_keys_bumps {won : Bool} {table : Counts K} {labels : List K} {k : K} :
    k ∈ Dict.keys (labels.foldl (bump won) table) ↔ k ∈ Dict.keys table ∨ k ∈ labels := by
  induction labels generalizing table with
  | nil => simp
  | cons label labels ih =>
      rw [List.foldl_cons, ih, bump, Dict.adjust, ← Dict.contains_iff, Dict.contains, Dict.get?_set,
        ← Dict.contains_iff, Dict.contains, List.mem_cons]
      by_cases same : label = k
      · simp [same]
      · simp [Ne.symm same]

theorem forall_bumps (P : Int × Int → Prop) (zero : P (0, 0)) (step : ∀ won c, P c → P (counted won c))
    (won : Bool) {table : Counts K} (start : ∀ entry ∈ table, P entry.2) (labels : List K) :
    ∀ entry ∈ labels.foldl (bump won) table, P entry.2 := by
  induction labels generalizing table with
  | nil => exact start
  | cons label labels ih =>
      apply ih
      intro entry member
      rcases Dict.mem_set member with old | rfl
      · exact start entry old
      · apply step
        cases found : Dict.get? table label with
        | none => exact zero
        | some counts => exact start _ (Dict.mem_of_get? found)

def Within (table : Counts K) : Prop := ∀ entry ∈ table, entry.2.1 ≤ entry.2.2

theorem Within.bumps {won : Bool} {table : Counts K} (within : Within table) (labels : List K) :
    Within (labels.foldl (bump won) table) := by
  apply forall_bumps (fun counts => counts.1 ≤ counts.2) le_rfl _ _ within
  intro won counts le
  show counts.1 + (if won then 1 else 0) ≤ counts.2 + 1
  split <;> omega

end Counts
end Proxyshop.Structures
