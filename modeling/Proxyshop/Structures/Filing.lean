import Proxyshop.Python.Dict
import Mathlib.Data.List.Find
import Mathlib.Data.List.Induction
import Mathlib.Data.List.Nodup

/-!
# Filing a stream

A loop that files each element under a key with `setdefault` keeps the first of every key, in the
order of their arrival; one that collects into sets or lists keeps them all.
-/

namespace Proxyshop.Structures

open Python

variable {α β K V : Type} [DecidableEq K]

/-! ## The first of each key -/

def firsts (f : α → K) : List α → List α
  | [] => []
  | a :: l => a :: (firsts f l).filter fun b => f b ≠ f a

theorem mem_of_mem_firsts {f : α → K} {l : List α} {a : α} (h : a ∈ firsts f l) : a ∈ l := by
  induction l with
  | nil => exact h
  | cons b l ih =>
      rcases List.mem_cons.mp h with rfl | later
      · exact List.mem_cons_self
      · exact List.mem_cons_of_mem _ (ih (List.mem_of_mem_filter later))

theorem firsts_distinct (f : α → K) (l : List α) : (firsts f l).Pairwise fun a b => f a ≠ f b := by
  induction l with
  | nil => exact List.Pairwise.nil
  | cons a l ih =>
      refine List.pairwise_cons.mpr ⟨fun b member => ?_, ih.filter _⟩
      have other := (List.mem_filter.mp member).2
      rw [decide_eq_true_eq] at other
      exact other.symm

theorem exists_first (f : α → K) {l : List α} {a : α} (h : a ∈ l) : ∃ b ∈ firsts f l, f b = f a := by
  induction l with
  | nil => cases h
  | cons c l ih =>
      by_cases same : f c = f a
      · exact ⟨c, List.mem_cons_self, same⟩
      · rcases List.mem_cons.mp h with rfl | later
        · exact absurd rfl same
        · obtain ⟨b, member, equal⟩ := ih later
          refine ⟨b, List.mem_cons_of_mem _ (List.mem_filter.mpr ⟨member, ?_⟩), equal⟩
          rw [decide_eq_true_eq, equal]
          exact fun h => same h.symm

theorem find?_first {f : α → K} {l : List α} {a : α} (h : a ∈ firsts f l) :
    (l.find? fun b => f b = f a) = some a := by
  induction l with
  | nil => cases h
  | cons c l ih =>
      rcases List.mem_cons.mp h with rfl | later
      · simp
      · obtain ⟨member, other⟩ := List.mem_filter.mp later
        rw [decide_eq_true_eq] at other
        rw [List.find?_cons_of_neg (by simpa using Ne.symm other), ih member]

theorem firsts_congr {L : Type} [DecidableEq L] {f : α → K} {g : α → L} {l : List α}
    (same : ∀ a ∈ l, ∀ b ∈ l, f a = f b ↔ g a = g b) : firsts f l = firsts g l := by
  induction l with
  | nil => rfl
  | cons a l ih =>
      have rest := ih fun x hx y hy => same x (List.mem_cons_of_mem _ hx) y (List.mem_cons_of_mem _ hy)
      rw [firsts, firsts, rest]
      congr 1
      apply List.filter_congr
      intro b member
      have inside := List.mem_cons_of_mem a (mem_of_mem_firsts member)
      rw [decide_eq_decide, ne_eq, ne_eq, same b inside a List.mem_cons_self]

theorem firsts_filter {f : α → K} {p : α → Bool} {l : List α}
    (uniform : ∀ a ∈ l, ∀ b ∈ l, f a = f b → p a = p b) :
    firsts f (l.filter p) = (firsts f l).filter p := by
  induction l with
  | nil => rfl
  | cons a l ih =>
      have rest := ih fun x hx y hy => uniform x (List.mem_cons_of_mem _ hx) y (List.mem_cons_of_mem _ hy)
      by_cases kept : p a = true
      · rw [List.filter_cons_of_pos kept, firsts, firsts, List.filter_cons_of_pos kept, rest,
          List.filter_comm]
      · rw [List.filter_cons_of_neg kept, firsts, List.filter_cons_of_neg kept, rest,
          List.filter_filter]
        apply List.filter_congr
        intro b member
        have inside := List.mem_cons_of_mem a (mem_of_mem_firsts member)
        by_cases same : f b = f a
        · have dropped := uniform b inside a List.mem_cons_self same
          simp [same, dropped, kept]
        · simp [same]

theorem firsts_map (g : β → α) (f : α → K) (l : List β) :
    firsts f (l.map g) = (firsts (f ∘ g) l).map g := by
  induction l with
  | nil => rfl
  | cons b l ih => simp [firsts, ih, List.filter_map, Function.comp_def]

theorem firsts_of_distinct {f : α → K} {l : List α} (h : l.Pairwise fun a b => f a ≠ f b) :
    firsts f l = l := by
  induction l with
  | nil => rfl
  | cons a l ih =>
      obtain ⟨head, rest⟩ := List.pairwise_cons.mp h
      rw [firsts, ih rest, List.filter_eq_self.mpr]
      intro b member
      simpa using (head b member).symm

theorem find?_narrower {p q : α → Bool} {l : List α} {a : α} (h : l.find? p = some a)
    (met : q a = true) (narrower : ∀ x ∈ l, q x = true → p x = true) : l.find? q = some a := by
  obtain ⟨-, before, after, rfl, earlier⟩ := List.find?_eq_some_iff_append.mp h
  refine List.find?_eq_some_iff_append.mpr ⟨met, before, after, rfl, fun x member => ?_⟩
  cases found : q x with
  | false => rfl
  | true =>
      have missed := earlier x member
      simp [narrower x (List.mem_append_left _ member) found] at missed

/-! ## Buckets -/

/-- `d.setdefault(k, set()).add(v)`. -/
def addTo [DecidableEq V] (d : Dict K (List V)) (k : K) (v : V) : Dict K (List V) :=
  Dict.adjust d k [] (List.insert v)

def gather [DecidableEq V] (pairs : List (K × V)) : Dict K (List V) :=
  pairs.foldl (fun d pair => addTo d pair.1 pair.2) []

/-- The dictionary holds under each key the values paired with it, and only inhabited entries. -/
structure Gathered (pairs : List (K × V)) (d : Dict K (List V)) : Prop where
  distinct : (Dict.keys d).Nodup
  values : ∀ k v, v ∈ (Dict.get? d k).getD [] ↔ (k, v) ∈ pairs
  occupied : ∀ entry ∈ d, entry.2 ≠ [] ∧ entry.2.Nodup

theorem Gathered.nodup {pairs : List (K × V)} {d : Dict K (List V)} (h : Gathered pairs d) (k : K) :
    ((Dict.get? d k).getD []).Nodup := by
  cases found : Dict.get? d k with
  | none => exact List.nodup_nil
  | some vs => exact (h.occupied _ (Dict.mem_of_get? found)).2

theorem gathered_addTo [DecidableEq V] {pairs : List (K × V)} {d : Dict K (List V)}
    (h : Gathered pairs d) (k : K) (v : V) : Gathered (pairs ++ [(k, v)]) (addTo d k v) := by
  refine ⟨Dict.nodup_keys_set h.distinct k _, fun k' v' => ?_, fun entry member => ?_⟩
  · rw [addTo, Dict.get?_adjust, List.mem_append, List.mem_singleton, ← h.values]
    split
    · rename_i same
      simp [same, or_comm]
    · rename_i other
      simp [other]
  · rcases Dict.mem_set member with old | new
    · exact h.occupied entry old
    · rw [new]
      exact ⟨List.ne_nil_of_mem List.mem_insert_self, (h.nodup k).insert⟩

theorem gathered_gather [DecidableEq V] (pairs : List (K × V)) : Gathered pairs (gather pairs) := by
  induction pairs using List.reverseRecOn with
  | nil => exact ⟨List.nodup_nil, fun _ _ => by simp [gather], fun _ member => nomatch member⟩
  | append_singleton pairs pair ih =>
      rw [gather, List.foldl_append]
      exact gathered_addTo ih pair.1 pair.2

theorem mem_gather [DecidableEq V] {pairs : List (K × V)} {k : K} {v : V} :
    v ∈ (Dict.get? (gather pairs) k).getD [] ↔ (k, v) ∈ pairs := (gathered_gather pairs).values k v

theorem nodup_gather [DecidableEq V] (pairs : List (K × V)) (k : K) :
    ((Dict.get? (gather pairs) k).getD []).Nodup := (gathered_gather pairs).nodup k

theorem length_le_one_iff {l : List α} (distinct : l.Nodup) :
    l.length ≤ 1 ↔ ∀ a ∈ l, ∀ b ∈ l, a = b := by
  cases l with
  | nil => simp
  | cons a l =>
      cases l with
      | nil => simp
      | cons b l =>
          simp only [List.length_cons]
          refine ⟨fun short => by omega, fun same => ?_⟩
          have equal := same a List.mem_cons_self b (List.mem_cons_of_mem _ List.mem_cons_self)
          rw [equal] at distinct
          exact absurd List.mem_cons_self (List.nodup_cons.mp distinct).1

/-! ## Loops of `setdefault` -/

theorem get?_foldl_setDefault (p : α → Bool) (f : α → K) (v : α → V) (l : List α) (d : Dict K V) (k : K) :
    Dict.get? (l.foldl (fun d a => if p a then Dict.setDefault d (f a) (v a) else d) d) k =
      (Dict.get? d k).or ((l.find? fun a => p a && f a = k).map v) := by
  induction l generalizing d with
  | nil => simp
  | cons a l ih =>
      rw [List.foldl_cons, ih]
      by_cases chosen : p a = true
      · rw [if_pos chosen, Dict.get?_setDefault]
        by_cases same : k = f a
        · have here : (p a && decide (f a = k)) = true := by simp [chosen, same]
          rw [if_pos same, List.find?_cons, here, ← same]
          cases Dict.get? d k <;> rfl
        · have elsewhere : (p a && decide (f a = k)) = false := by simp [chosen, Ne.symm same]
          rw [if_neg same, List.find?_cons, elsewhere]
      · have elsewhere : (p a && decide (f a = k)) = false := by simp [chosen]
        rw [if_neg chosen, List.find?_cons, elsewhere]

theorem foldl_setDefault (f : α → K) (v : α → V) (l : List α) (d : Dict K V) :
    l.foldl (fun d a => Dict.setDefault d (f a) (v a)) d =
      d ++ ((firsts f l).filter fun a => !Dict.contains d (f a)).map fun a => (f a, v a) := by
  induction l generalizing d with
  | nil => simp [firsts]
  | cons a l ih =>
      rw [List.foldl_cons, ih, firsts]
      cases present : Dict.contains d (f a) with
      | true =>
          rw [Dict.setDefault_of_contains present, List.filter_cons_of_neg (by simp [present]),
            List.filter_filter]
          congr 2
          apply List.filter_congr
          intro b _
          by_cases same : f b = f a
          · simp [same, present]
          · simp [same]
      | false =>
          have grown : Dict.setDefault d (f a) (v a) = d ++ [(f a, v a)] := by
            rw [Dict.setDefault, present]
            rfl
          rw [grown, List.filter_cons_of_pos (by simp [present]), List.map_cons, List.append_assoc,
            List.singleton_append, List.filter_filter]
          congr 3
          apply List.filter_congr
          intro b _
          rw [Dict.contains, Dict.get?_append, Dict.get?_cons, Dict.contains]
          by_cases same : f a = f b
          · simp [same]
          · simp [same, Ne.symm same]

theorem get?_foldl_adjust {L : Type} [DecidableEq L] (f : α → K) (g : α → L) (v : α → V) (l : List α)
    (d : Dict K (Dict L V)) (k : K) (j : L) :
    Dict.get? ((Dict.get? (l.foldl
        (fun d a => Dict.adjust d (f a) [] fun inner => Dict.setDefault inner (g a) (v a)) d) k).getD []) j =
      (Dict.get? ((Dict.get? d k).getD []) j).or ((l.find? fun a => g a = j && f a = k).map v) := by
  induction l generalizing d with
  | nil => simp
  | cons a l ih =>
      rw [List.foldl_cons, ih, Dict.get?_adjust]
      by_cases same : k = f a
      · rw [if_pos same, Option.getD_some, Dict.get?_setDefault]
        by_cases chosen : j = g a
        · have here : (decide (g a = j) && decide (f a = k)) = true := by simp [chosen, same]
          rw [if_pos chosen, List.find?_cons, here, ← same, ← chosen]
          cases Dict.get? ((Dict.get? d k).getD []) j <;> rfl
        · have elsewhere : (decide (g a = j) && decide (f a = k)) = false := by simp [Ne.symm chosen]
          rw [if_neg chosen, List.find?_cons, elsewhere, same]
      · have elsewhere : (decide (g a = j) && decide (f a = k)) = false := by simp [Ne.symm same]
        rw [if_neg same, List.find?_cons, elsewhere]

theorem get?_foldl_append (p : α → Bool) (f : α → K) (v : α → V) (l : List α) (d : Dict K (List V))
    (k : K) : (Dict.get? (l.foldl
        (fun d a => if p a then Dict.adjust d (f a) [] fun vs => vs ++ [v a] else d) d) k).getD [] =
      (Dict.get? d k).getD [] ++ (l.filter fun a => p a && f a = k).map v := by
  induction l generalizing d with
  | nil => simp
  | cons a l ih =>
      rw [List.foldl_cons, ih]
      by_cases chosen : p a = true
      · rw [if_pos chosen, Dict.get?_adjust]
        by_cases same : k = f a
        · have here : (p a && decide (f a = k)) = true := by simp [chosen, same]
          rw [if_pos same, List.filter_cons, here, same]
          simp
        · have elsewhere : (p a && decide (f a = k)) = false := by simp [Ne.symm same]
          rw [if_neg same, List.filter_cons, elsewhere]
          rfl
      · have elsewhere : (p a && decide (f a = k)) = false := by simp [chosen]
        rw [if_neg chosen, List.filter_cons, elsewhere]
        rfl

end Proxyshop.Structures
