import Proxyshop.Python.Dict
import Mathlib.Data.List.Perm.Subperm
import Mathlib.Logic.Function.Iterate
import Mathlib.Logic.Relation

/-!
# Union-find over a dictionary of parents

A key that is absent or its own parent is a root. Finding compresses the path, uniting points the
other roots at the first key's; neither is visible except through `root`.
-/

namespace Proxyshop.Structures

open Python

theorem iterate_of_fixed {α : Type} {f : α → α} {k : α} {n m : Nat} (fixed : f (f^[n] k) = f^[n] k)
    (later : n ≤ m) : f^[m] k = f^[n] k := by
  obtain ⟨j, rfl⟩ := Nat.exists_eq_add_of_le later
  rw [Nat.add_comm, Function.iterate_add_apply, Function.iterate_fixed fixed]

variable {K : Type} [DecidableEq K]

/-! ## Parent pointers -/

namespace Parents

def up (d : Dict K K) (k : K) : K := (Dict.get? d k).getD k

def climb (d : Dict K K) : Nat → K → K
  | 0, k => k
  | n + 1, k => if up d k = k then k else climb d n (up d k)

def root (d : Dict K K) (k : K) : K := climb d d.length k

/-- The second loop of `find`: every key on the way is pointed at the root. -/
def compress (root : K) : Nat → Dict K K → K → Dict K K
  | 0, d, _ => d
  | n + 1, d, k => if up d k = root then d else compress root n (Dict.set d k root) (up d k)

def find (d : Dict K K) (k : K) : K × Dict K K :=
  let parent := Dict.setDefault d k k
  let top := root parent k
  (top, compress top parent.length parent k)

/-- One turn of the loop of `union`: the root of a key is pointed at the first key's. -/
def unite (top : K) (d : Dict K K) (k : K) : Dict K K :=
  let (other, d) := find d k
  if other = top then d else Dict.set d other top

def union (d : Dict K K) : List K → Option K × Dict K K
  | [] => (none, d)
  | k :: keys =>
      let (top, d) := find d k
      (some top, keys.foldl (unite top) d)

def Acyclic (d : Dict K K) : Prop := ∃ rank : K → Nat, ∀ k, up d k ≠ k → rank (up d k) < rank k

theorem mem_keys_of_up {d : Dict K K} {k : K} (moves : up d k ≠ k) : k ∈ Dict.keys d := by
  by_contra absent
  apply moves
  rw [up, (Dict.get?_eq_none_iff d k).mpr absent]
  rfl

theorem up_set (d : Dict K K) (k r x : K) : up (Dict.set d k r) x = if x = k then r else up d x := by
  unfold up
  rw [Dict.get?_set]
  split <;> rfl

theorem up_setDefault (d : Dict K K) (k : K) : up (Dict.setDefault d k k) = up d := by
  funext x
  unfold up
  rw [Dict.get?_setDefault]
  split
  · rename_i same
    rw [same]
    rfl
  · rfl

theorem rank_iterate {d : Dict K K} {rank : K → Nat}
    (falls : ∀ k, up d k ≠ k → rank (up d k) < rank k) {k : K} {n : Nat}
    (moving : ∀ i < n, up d ((up d)^[i] k) ≠ (up d)^[i] k) {i j : Nat} (before : i < j) (within : j ≤ n) :
    rank ((up d)^[j] k) < rank ((up d)^[i] k) := by
  induction j with
  | zero => omega
  | succ j ih =>
      rw [Function.iterate_succ_apply']
      have last := falls _ (moving j (by omega))
      by_cases same : i = j
      · rw [same]
        exact last
      · exact Nat.lt_trans last (ih (by omega) (by omega))

theorem exists_root {d : Dict K K} (acyclic : Acyclic d) (k : K) :
    ∃ n ≤ d.length, up d ((up d)^[n] k) = (up d)^[n] k := by
  obtain ⟨rank, falls⟩ := acyclic
  by_contra none
  push Not at none
  have moving : ∀ i < d.length + 1, up d ((up d)^[i] k) ≠ (up d)^[i] k := fun i below =>
    none i (Nat.le_of_lt_succ below)
  let path := (List.range (d.length + 1)).map fun i => (up d)^[i] k
  have distinct : path.Nodup := by
    apply List.Nodup.map_on _ List.nodup_range
    intro i hi j hj same
    by_contra other
    rcases Nat.lt_or_gt_of_ne other with before | after
    · have falling := rank_iterate falls moving before (by have := List.mem_range.mp hj; omega)
      rw [same] at falling
      exact Nat.lt_irrefl _ falling
    · have falling := rank_iterate falls moving after (by have := List.mem_range.mp hi; omega)
      rw [same] at falling
      exact Nat.lt_irrefl _ falling
  have inside : path ⊆ Dict.keys d := by
    intro x member
    obtain ⟨i, below, rfl⟩ := List.mem_map.mp member
    exact mem_keys_of_up (moving i (List.mem_range.mp below))
  have short := (distinct.subperm inside).length_le
  simp only [path, Dict.keys, List.length_map, List.length_range] at short
  exact Nat.not_succ_le_self _ short

theorem climb_eq {d : Dict K K} {k : K} {n m : Nat} (enough : n ≤ m)
    (fixed : up d ((up d)^[n] k) = (up d)^[n] k) : climb d m k = (up d)^[n] k := by
  induction m generalizing k n with
  | zero =>
      obtain rfl := Nat.le_zero.mp enough
      rfl
  | succ m ih =>
      unfold climb
      by_cases still : up d k = k
      · rw [if_pos still, Function.iterate_fixed still]
      · rw [if_neg still]
        cases n with
        | zero => exact absurd fixed still
        | succ n =>
            rw [Function.iterate_succ_apply] at fixed ⊢
            exact ih (Nat.le_of_succ_le_succ enough) fixed

theorem root_reached {d : Dict K K} (acyclic : Acyclic d) (k : K) :
    ∃ n, root d k = (up d)^[n] k ∧ up d (root d k) = root d k := by
  obtain ⟨n, enough, fixed⟩ := exists_root acyclic k
  have same : root d k = (up d)^[n] k := climb_eq enough fixed
  exact ⟨n, same, by rw [same]; exact fixed⟩

theorem up_root {d : Dict K K} (acyclic : Acyclic d) (k : K) : up d (root d k) = root d k :=
  (root_reached acyclic k).choose_spec.2

/-- `root` is the only function that fixes the roots and is constant along parents. -/
theorem root_unique {d : Dict K K} (acyclic : Acyclic d) {f : K → K}
    (fixed : ∀ k, up d k = k → f k = k) (along : ∀ k, f (up d k) = f k) : root d = f := by
  funext k
  obtain ⟨n, reached, top⟩ := root_reached acyclic k
  have constant : ∀ n, f ((up d)^[n] k) = f k := by
    intro n
    induction n with
    | zero => rfl
    | succ n ih => rw [Function.iterate_succ_apply', along, ih]
  rw [← fixed _ top, reached, constant]

theorem root_of_root {d : Dict K K} {k : K} (top : up d k = k) : root d k = k := by
  unfold root
  cases d.length with
  | zero => rfl
  | succ n => rw [climb, if_pos top]

theorem root_up {d : Dict K K} (acyclic : Acyclic d) (k : K) : root d (up d k) = root d k := by
  obtain ⟨n, reached, top⟩ := root_reached acyclic (up d k)
  obtain ⟨m, reached', top'⟩ := root_reached acyclic k
  rw [← Function.iterate_succ_apply] at reached
  rw [reached] at top
  rw [reached'] at top'
  rw [reached, reached']
  rcases Nat.le_total (n + 1) m with later | later
  · exact (iterate_of_fixed top later).symm
  · exact iterate_of_fixed top' later

theorem rank_root {d : Dict K K} {rank : K → Nat} (falls : ∀ k, up d k ≠ k → rank (up d k) < rank k)
    {k : K} (moves : up d k ≠ k) : rank (root d k) < rank k := by
  have acyclic : Acyclic d := ⟨rank, falls⟩
  have below : ∀ n, rank ((up d)^[n] (up d k)) ≤ rank (up d k) := by
    intro n
    induction n with
    | zero => exact Nat.le_refl _
    | succ n ih =>
        rw [Function.iterate_succ_apply']
        by_cases still : up d ((up d)^[n] (up d k)) = (up d)^[n] (up d k)
        · rw [still]
          exact ih
        · exact Nat.le_trans (Nat.le_of_lt (falls _ still)) ih
  obtain ⟨n, reached, -⟩ := root_reached acyclic (up d k)
  rw [← root_up acyclic, reached]
  exact Nat.lt_of_le_of_lt (below n) (falls k moves)

/-! ## What `find` and `union` do to the roots -/

theorem acyclic_nil : Acyclic ([] : Dict K K) := ⟨fun _ => 0, fun _ moves => absurd rfl moves⟩

theorem Acyclic.congr {d e : Dict K K} (acyclic : Acyclic d) (same : up e = up d) : Acyclic e := by
  obtain ⟨rank, falls⟩ := acyclic
  exact ⟨rank, by rw [same]; exact falls⟩

theorem root_congr {d e : Dict K K} (acyclic : Acyclic d) (same : up e = up d) : root e = root d :=
  root_unique (acyclic.congr same) (fun _ top => root_of_root (by rw [← same]; exact top))
    (fun k => by rw [same]; exact root_up acyclic k)

theorem Acyclic.relink {d : Dict K K} (acyclic : Acyclic d) {k : K} (moves : up d k ≠ k) :
    Acyclic (Dict.set d k (root d k)) := by
  obtain ⟨rank, falls⟩ := acyclic
  refine ⟨rank, fun x => ?_⟩
  rw [up_set]
  split
  · rename_i same
    rw [same]
    exact fun _ => rank_root falls moves
  · exact falls x

theorem root_relink {d : Dict K K} (acyclic : Acyclic d) {k : K} (moves : up d k ≠ k) :
    root (Dict.set d k (root d k)) = root d := by
  apply root_unique (acyclic.relink moves)
  · intro x top
    rw [up_set] at top
    split at top
    · rename_i same
      rw [same] at top ⊢
      exact top
    · exact root_of_root top
  · intro x
    rw [up_set]
    split
    · rename_i same
      rw [root_of_root (up_root acyclic k), same]
    · exact root_up acyclic x

theorem compress_spec (n : Nat) {d : Dict K K} (acyclic : Acyclic d) {r k : K} (found : root d k = r) :
    Acyclic (compress r n d k) ∧ root (compress r n d k) = root d := by
  induction n generalizing d k with
  | zero => exact ⟨acyclic, rfl⟩
  | succ n ih =>
      unfold compress
      split
      · exact ⟨acyclic, rfl⟩
      · rename_i far
        have moves : up d k ≠ k := by
          intro still
          rw [root_of_root still] at found
          exact far (still.trans found)
        have linked := acyclic.relink moves
        have same := root_relink acyclic moves
        rw [found] at linked same
        obtain ⟨kept, roots⟩ := ih linked (k := up d k) (by rw [same, root_up acyclic, found])
        exact ⟨kept, roots.trans same⟩

theorem link_spec {d : Dict K K} (acyclic : Acyclic d) {r other : K} (top : up d r = r)
    (top' : up d other = other) (apart : other ≠ r) :
    Acyclic (Dict.set d other r) ∧
      root (Dict.set d other r) = fun k => if root d k = other then r else root d k := by
  have linked : Acyclic (Dict.set d other r) := by
    obtain ⟨rank, falls⟩ := acyclic
    have acyclic : Acyclic d := ⟨rank, falls⟩
    refine ⟨fun k => if root d k = other then rank k + rank r + 1 else rank k, fun k => ?_⟩
    rw [up_set]
    split
    · rename_i same
      intro _
      simp only [same, root_of_root top, root_of_root top', if_neg apart.symm, if_true]
      omega
    · intro moves
      have fall := falls k moves
      simp only [root_up acyclic]
      split <;> omega
  refine ⟨linked, root_unique linked ?_ ?_⟩
  · intro k fixed
    rw [up_set] at fixed
    split at fixed
    · rename_i same
      exact absurd (same.symm.trans fixed.symm) apart
    · rename_i far
      rw [root_of_root fixed, if_neg far]
  · intro k
    rw [up_set]
    split
    · rename_i same
      rw [same, root_of_root top, root_of_root top', if_neg apart.symm, if_pos rfl]
    · rw [root_up acyclic]

theorem find_spec {d : Dict K K} (acyclic : Acyclic d) (k : K) :
    (find d k).1 = root d k ∧ Acyclic (find d k).2 ∧ root (find d k).2 = root d := by
  have present := acyclic.congr (up_setDefault d k)
  have same := root_congr acyclic (up_setDefault d k)
  obtain ⟨kept, roots⟩ := compress_spec (Dict.setDefault d k k).length present
    (r := root (Dict.setDefault d k k) k) rfl
  exact ⟨congrFun same k, kept, roots.trans same⟩

theorem unite_spec {d : Dict K K} (acyclic : Acyclic d) {top : K} (tops : root d top = top) (k : K) :
    Acyclic (unite top d k) ∧
      root (unite top d k) = fun x => if root d x = root d k then top else root d x := by
  obtain ⟨found, kept, roots⟩ := find_spec acyclic k
  unfold unite
  rw [show find d k = ((find d k).1, (find d k).2) from rfl, found]
  dsimp only
  split
  · rename_i same
    refine ⟨kept, ?_⟩
    rw [roots, same]
    funext x
    split <;> simp_all
  · rename_i apart
    have high : up (find d k).2 top = top := by
      have fixed := up_root kept top
      rwa [roots, tops] at fixed
    have high' : up (find d k).2 (root d k) = root d k := by
      have fixed := up_root kept k
      rwa [roots] at fixed
    obtain ⟨linked, merged⟩ := link_spec kept high high' apart
    rw [roots] at merged
    exact ⟨linked, merged⟩

theorem unites_spec (keys : List K) {d : Dict K K} (acyclic : Acyclic d) {top : K}
    (tops : root d top = top) : Acyclic (keys.foldl (unite top) d) ∧
      root (keys.foldl (unite top) d) =
        fun x => if ∃ k ∈ keys, root d x = root d k then top else root d x := by
  induction keys generalizing d with
  | nil => exact ⟨acyclic, by simp⟩
  | cons k keys ih =>
      obtain ⟨kept, roots⟩ := unite_spec acyclic tops k
      have still : root (unite top d k) top = top := by
        rw [roots]
        dsimp only
        rw [tops]
        exact ite_self _
      obtain ⟨done, merged⟩ := ih kept still
      refine ⟨done, ?_⟩
      rw [List.foldl_cons, merged, roots]
      funext x
      dsimp only
      simp only [List.mem_cons, exists_eq_or_imp]
      by_cases first : root d x = root d k
      · simp [first]
      · simp only [first, if_false, false_or]
        by_cases later : ∃ other ∈ keys, root d x = root d other
        · obtain ⟨other, member, same⟩ := later
          have apart : root d other ≠ root d k := fun joined => first (same.trans joined)
          rw [if_pos ⟨other, member, by rw [if_neg apart, same]⟩, if_pos ⟨other, member, same⟩]
        · rw [if_neg later]
          split
          · rename_i found
            obtain ⟨other, member, same⟩ := found
            split at same
            · exact same.symm
            · exact absurd ⟨other, member, same⟩ later
          · rfl

theorem union_spec {d : Dict K K} (acyclic : Acyclic d) (k : K) (keys : List K) :
    (union d (k :: keys)).1 = some (root d k) ∧ Acyclic (union d (k :: keys)).2 ∧
      root (union d (k :: keys)).2 =
        fun x => if ∃ other ∈ k :: keys, root d x = root d other then root d k else root d x := by
  obtain ⟨found, kept, roots⟩ := find_spec acyclic k
  have fixed : root (find d k).2 (root d k) = root d k := by
    rw [roots, root_of_root (up_root acyclic k)]
  obtain ⟨done, merged⟩ := unites_spec keys kept fixed
  have shape : union d (k :: keys) =
      (some (root d k), keys.foldl (unite (root d k)) (find d k).2) := by
    rw [← found]
    rfl
  rw [shape]
  refine ⟨rfl, done, ?_⟩
  rw [merged, roots]
  funext x
  simp only [List.mem_cons, exists_eq_or_imp]
  by_cases first : root d x = root d k <;> simp [first]

end Parents

/-! ## Groups -/

structure Groups (K : Type) [DecidableEq K] where
  parent : Dict K K
  acyclic : Parents.Acyclic parent

namespace Groups

def empty : Groups K := ⟨[], Parents.acyclic_nil⟩

def root (g : Groups K) : K → K := Parents.root g.parent

def find (g : Groups K) (k : K) : K × Groups K :=
  ((Parents.find g.parent k).1, ⟨(Parents.find g.parent k).2, (Parents.find_spec g.acyclic k).2.1⟩)

def union (g : Groups K) (keys : List K) : Groups K :=
  ⟨(Parents.union g.parent keys).2, by
    cases keys with
    | nil => exact g.acyclic
    | cons k keys => exact (Parents.union_spec g.acyclic k keys).2.1⟩

@[simp] theorem find_fst (g : Groups K) (k : K) : (g.find k).1 = g.root k :=
  (Parents.find_spec g.acyclic k).1

@[simp] theorem root_find (g : Groups K) (k : K) : (g.find k).2.root = g.root :=
  (Parents.find_spec g.acyclic k).2.2

@[simp] theorem root_empty (k : K) : (empty : Groups K).root k = k := rfl

@[simp] theorem root_root (g : Groups K) (k : K) : g.root (g.root k) = g.root k :=
  Parents.root_of_root (Parents.up_root g.acyclic k)

theorem root_union (g : Groups K) (k : K) (keys : List K) : (g.union (k :: keys)).root =
    fun x => if ∃ other ∈ k :: keys, g.root x = g.root other then g.root k else g.root x :=
  (Parents.union_spec g.acyclic k keys).2.2

theorem same_union (g : Groups K) (keys : List K) (a b : K) :
    (g.union keys).root a = (g.union keys).root b ↔ g.root a = g.root b ∨
      (∃ x ∈ keys, g.root a = g.root x) ∧ ∃ y ∈ keys, g.root b = g.root y := by
  cases keys with
  | nil =>
      have same : (g.union []).root = g.root := rfl
      simp [same]
  | cons k keys =>
      rw [root_union]
      dsimp only
      by_cases left : ∃ x ∈ k :: keys, g.root a = g.root x
      · by_cases right : ∃ y ∈ k :: keys, g.root b = g.root y
        · rw [if_pos left, if_pos right]
          exact ⟨fun _ => Or.inr ⟨left, right⟩, fun _ => rfl⟩
        · rw [if_pos left, if_neg right]
          constructor
          · intro same
            exact absurd ⟨k, List.mem_cons_self, same.symm⟩ right
          · rintro (same | ⟨-, joined⟩)
            · rw [same] at left
              exact absurd left right
            · exact absurd joined right
      · by_cases right : ∃ y ∈ k :: keys, g.root b = g.root y
        · rw [if_neg left, if_pos right]
          constructor
          · intro same
            exact absurd ⟨k, List.mem_cons_self, same⟩ left
          · rintro (same | ⟨joined, -⟩)
            · rw [← same] at right
              exact absurd right left
            · exact absurd joined left
        · rw [if_neg left, if_neg right]
          constructor
          · exact Or.inl
          · rintro (same | ⟨joined, -⟩)
            · exact same
            · exact absurd joined left

/-- Keys that share a root, or appear together in one of the unions. -/
def Touch (g : Groups K) (unions : List (List K)) (a b : K) : Prop :=
  g.root a = g.root b ∨ ∃ keys ∈ unions, a ∈ keys ∧ b ∈ keys

theorem same_unions (g : Groups K) (unions : List (List K)) (a b : K) :
    (unions.foldl union g).root a = (unions.foldl union g).root b ↔
      Relation.EqvGen (g.Touch unions) a b := by
  induction unions generalizing g with
  | nil =>
      have equivalence : Equivalence fun a b => g.root a = g.root b :=
        ⟨fun _ => rfl, Eq.symm, Eq.trans⟩
      have touches : g.Touch [] = fun a b => g.root a = g.root b := by
        funext x y
        simp [Touch]
      rw [List.foldl_nil, touches, equivalence.eqvGen_iff]
  | cons keys unions ih =>
      rw [List.foldl_cons, ih]
      constructor
      · refine Relation.EqvGen.eqvGen_le ?_ a b
        rintro x y (same | ⟨others, member, hx, hy⟩)
        · rcases (g.same_union keys x y).mp same with same | ⟨⟨i, hi, left⟩, ⟨j, hj, right⟩⟩
          · exact .rel _ _ (Or.inl same)
          · have first : Relation.EqvGen (g.Touch (keys :: unions)) x i := .rel _ _ (Or.inl left)
            have across : Relation.EqvGen (g.Touch (keys :: unions)) i j :=
              .rel _ _ (Or.inr ⟨keys, List.mem_cons_self, hi, hj⟩)
            have last : Relation.EqvGen (g.Touch (keys :: unions)) j y := .rel _ _ (Or.inl right.symm)
            exact (first.trans _ _ _ across).trans _ _ _ last
        · exact .rel _ _ (Or.inr ⟨others, List.mem_cons_of_mem _ member, hx, hy⟩)
      · refine Relation.EqvGen.eqvGen_le ?_ a b
        rintro x y (same | ⟨others, member, hx, hy⟩)
        · exact .rel _ _ (Or.inl ((g.same_union keys x y).mpr (Or.inl same)))
        · rcases List.mem_cons.mp member with rfl | later
          · exact .rel _ _ (Or.inl ((g.same_union others x y).mpr
              (Or.inr ⟨⟨x, hx, rfl⟩, ⟨y, hy, rfl⟩⟩)))
          · exact .rel _ _ (Or.inr ⟨others, later, hx, hy⟩)

theorem same_of_empty (unions : List (List K)) (a b : K) :
    (unions.foldl union empty).root a = (unions.foldl union empty).root b ↔
      Relation.EqvGen (fun a b => ∃ keys ∈ unions, a ∈ keys ∧ b ∈ keys) a b := by
  rw [same_unions]
  constructor
  · refine Relation.EqvGen.eqvGen_le ?_ a b
    rintro x y (same | together)
    · rw [show x = y from same]
      exact .refl y
    · exact .rel _ _ together
  · exact fun related => related.mono fun _ _ together => Or.inr together

/-! ## Unions around a hub -/

def unionHubs (g : Groups K) (links : Dict K (List K)) : Groups K :=
  links.foldl (fun g link => g.union (link.1 :: link.2)) g

def Around (g : Groups K) (links : Dict K (List K)) (a b : K) : Prop :=
  g.root a = g.root b ∨ ∃ link ∈ links,
    (∃ x ∈ link.2, g.root a = g.root x) ∧ ∃ y ∈ link.2, g.root b = g.root y

structure Hubs (g : Groups K) (links : Dict K (List K)) : Prop where
  distinct : (Dict.keys links).Nodup
  occupied : ∀ link ∈ links, link.2 ≠ []
  apart : ∀ link ∈ links, ∀ k ∈ link.2, k ∉ Dict.keys links
  alone : ∀ hub ∈ Dict.keys links, ∀ k, g.root k = g.root hub → k = hub

theorem unionHubs_eq (g : Groups K) (links : Dict K (List K)) :
    g.unionHubs links = (links.map fun link => link.1 :: link.2).foldl union g := by
  rw [List.foldl_map, unionHubs]

theorem root_hub (g : Groups K) {links : Dict K (List K)} {link : K × List K} (member : link ∈ links)
    {k : K} (inside : k ∈ link.2) : (g.unionHubs links).root link.1 = (g.unionHubs links).root k := by
  rw [unionHubs_eq, same_unions]
  apply Relation.EqvGen.rel
  exact Or.inr ⟨link.1 :: link.2, List.mem_map.mpr ⟨link, member, rfl⟩, List.mem_cons_self,
    List.mem_cons_of_mem _ inside⟩

/-- A hub stands for the first of its members, any other key for itself. -/
def stand (links : Dict K (List K)) (k : K) : K := ((Dict.get? links k).bind List.head?).getD k

theorem stand_of_outside {links : Dict K (List K)} {k : K} (outside : k ∉ Dict.keys links) :
    stand links k = k := by
  rw [stand, (Dict.get?_eq_none_iff links k).mpr outside]
  rfl

theorem Hubs.stand_mem {g : Groups K} {links : Dict K (List K)} (hubs : g.Hubs links)
    {link : K × List K} (member : link ∈ links) {k : K} (inside : k ∈ link.1 :: link.2) :
    stand links k ∈ link.2 := by
  rcases List.mem_cons.mp inside with rfl | inside
  · rw [stand, Dict.get?_of_mem hubs.distinct member, Option.bind_some]
    cases members : link.2 with
    | nil => exact absurd members (hubs.occupied link member)
    | cons first rest => exact List.mem_cons_self
  · rw [stand_of_outside (hubs.apart link member k inside)]
    exact inside

theorem same_hubs {g : Groups K} {links : Dict K (List K)} (hubs : g.Hubs links) {a b : K}
    (left : a ∉ Dict.keys links) (right : b ∉ Dict.keys links) :
    (g.unionHubs links).root a = (g.unionHubs links).root b ↔
      Relation.EqvGen (g.Around links) a b := by
  rw [unionHubs_eq, same_unions]
  constructor
  · intro related
    rw [← stand_of_outside left, ← stand_of_outside right]
    clear left right
    induction related with
    | rel x y touch =>
        apply Relation.EqvGen.rel
        rcases touch with same | ⟨keys, united, hx, hy⟩
        · left
          by_cases hub : x ∈ Dict.keys links
          · rw [hubs.alone x hub y same.symm]
          · by_cases hub' : y ∈ Dict.keys links
            · rw [hubs.alone y hub' x same]
            · rw [stand_of_outside hub, stand_of_outside hub', same]
        · obtain ⟨link, member, rfl⟩ := List.mem_map.mp united
          exact Or.inr ⟨link, member, ⟨_, hubs.stand_mem member hx, rfl⟩,
            ⟨_, hubs.stand_mem member hy, rfl⟩⟩
    | refl x => exact .refl _
    | symm x y _ ih => exact .symm _ _ ih
    | trans x y z _ _ first second => exact .trans _ _ _ first second
  · refine Relation.EqvGen.eqvGen_le ?_ a b
    rintro x y (same | ⟨link, member, ⟨i, hi, toI⟩, ⟨j, hj, toJ⟩⟩)
    · exact .rel _ _ (Or.inl same)
    · have first : Relation.EqvGen (g.Touch (links.map fun link => link.1 :: link.2)) x i :=
        .rel _ _ (Or.inl toI)
      have across : Relation.EqvGen (g.Touch (links.map fun link => link.1 :: link.2)) i j :=
        .rel _ _ (Or.inr ⟨link.1 :: link.2, List.mem_map.mpr ⟨link, member, rfl⟩,
          List.mem_cons_of_mem _ hi, List.mem_cons_of_mem _ hj⟩)
      have last : Relation.EqvGen (g.Touch (links.map fun link => link.1 :: link.2)) j y :=
        .rel _ _ (Or.inl toJ.symm)
      exact (first.trans _ _ _ across).trans _ _ _ last

end Groups
end Proxyshop.Structures
