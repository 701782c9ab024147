import Mathlib.Data.List.Perm.Basic
import Mathlib.Data.Set.Operations
import Proxyshop.Structures.UnionFind

/-!
# Groups that carry a label

A union-find whose roots know the label of their group. Two groups whose labels contradict are not
joined, so the label at a root is the one label of its members.
-/

/-!
## Greedy choices

The members of a list are kept or refused in turn, by what has been kept before them.
-/

namespace Proxyshop.Structures

variable {α β : Type}

/-- After `kept`, the members of the list are divided into those kept and those refused. -/
inductive Sieved (refuse : List α → α → Prop) : List α → List α → List α → List α → Prop
  | nil (kept : List α) : Sieved refuse kept [] [] []
  | keep {kept l yes no : List α} {a : α} (fits : ¬refuse kept a)
      (rest : Sieved refuse (kept ++ [a]) l yes no) : Sieved refuse kept (a :: l) (a :: yes) no
  | drop {kept l yes no : List α} {a : α} (refused : refuse kept a)
      (rest : Sieved refuse kept l yes no) : Sieved refuse kept (a :: l) yes (a :: no)

namespace Sieved

variable {refuse : List α → α → Prop} {kept l yes no : List α}

theorem unique {yes' no' : List α} (first : Sieved refuse kept l yes no)
    (second : Sieved refuse kept l yes' no') : yes = yes' ∧ no = no' := by
  induction first generalizing yes' no' with
  | nil =>
      cases second
      exact ⟨rfl, rfl⟩
  | keep fits _ ih =>
      cases second with
      | keep _ rest => exact (ih rest).imp_left (congrArg _)
      | drop refused _ => exact absurd refused fits
  | drop refused _ ih =>
      cases second with
      | keep fits _ => exact absurd refused fits
      | drop _ rest => exact (ih rest).imp_right (congrArg _)

theorem perm (sieved : Sieved refuse kept l yes no) : (yes ++ no).Perm l := by
  induction sieved with
  | nil => exact .nil
  | keep _ _ ih => exact ih.cons _
  | drop _ _ ih => exact List.perm_middle.trans (ih.cons _)

theorem irrefl_of_asymm {less : α → α → Bool} (asymm : ∀ {a b}, less a b = true → less b a = false)
    (a : α) : less a a = false := by
  rw [Bool.eq_false_iff]
  intro self
  exact Bool.false_ne_true ((asymm self).symm.trans self)

theorem subset (sieved : Sieved refuse kept l yes no) : yes ⊆ l := fun _ member =>
  sieved.perm.mem_iff.mp (List.mem_append_left _ member)

theorem refused_iff {less : α → α → Bool} (sieved : Sieved refuse kept l yes no)
    (asymm : ∀ {a b}, less a b = true → less b a = false)
    (sorted : l.Pairwise fun a b => less a b = true) {a : α} (member : a ∈ l) :
    a ∈ no ↔ refuse (kept ++ yes.filter fun b => less b a) a := by
  induction sieved with
  | nil => cases member
  | @keep kept l yes no b fits rest ih =>
      obtain ⟨below, tail⟩ := List.pairwise_cons.mp sorted
      have later (c : α) (inside : c ∈ l) : less c b = false := asymm (below c inside)
      rcases List.mem_cons.mp member with rfl | inside
      · have none : (a :: yes).filter (fun c => less c a) = [] := by
          rw [List.filter_eq_nil_iff, List.forall_mem_cons]
          refine ⟨by rw [irrefl_of_asymm asymm a]; exact Bool.false_ne_true, fun c kept => ?_⟩
          rw [later c (rest.subset kept)]
          exact Bool.false_ne_true
        rw [none, List.append_nil]
        refine iff_of_false (fun refused => ?_) fits
        have inside := rest.perm.mem_iff.mp (List.mem_append_right _ refused)
        exact absurd (below a inside) (by rw [irrefl_of_asymm asymm a]; exact Bool.false_ne_true)
      · rw [ih tail inside, List.filter_cons, if_pos (below a inside), List.append_assoc,
          List.singleton_append]
  | @drop kept l yes no b refused rest ih =>
      obtain ⟨below, tail⟩ := List.pairwise_cons.mp sorted
      rcases List.mem_cons.mp member with rfl | inside
      · have none : yes.filter (fun c => less c a) = [] := by
          rw [List.filter_eq_nil_iff]
          intro c kept
          rw [asymm (below c (rest.subset kept))]
          exact Bool.false_ne_true
        rw [none, List.append_nil]
        exact iff_of_true List.mem_cons_self refused
      · rw [List.mem_cons, or_iff_right, ih tail inside]
        rintro rfl
        exact absurd (below a inside) (by rw [irrefl_of_asymm asymm a]; exact Bool.false_ne_true)

theorem map {refuse' : List β → β → Prop} (f : α → β) {good : α → Prop}
    (alike : ∀ kept a, (∀ b ∈ kept, good b) → good a → (refuse kept a ↔ refuse' (kept.map f) (f a)))
    (sieved : Sieved refuse kept l yes no) (before : ∀ a ∈ kept, good a) (all : ∀ a ∈ l, good a) :
    Sieved refuse' (kept.map f) (l.map f) (yes.map f) (no.map f) := by
  induction sieved with
  | nil => exact .nil _
  | @keep kept l yes no a fits _ ih =>
      obtain ⟨head, tail⟩ := List.forall_mem_cons.mp all
      have next : ∀ b ∈ kept ++ [a], good b :=
        List.forall_mem_append.mpr ⟨before, fun b single => List.mem_singleton.mp single ▸ head⟩
      have rest := ih next tail
      rw [List.map_append] at rest
      exact .keep (fun refused => fits ((alike kept a before head).mpr refused)) rest
  | @drop kept l yes no a refused _ ih =>
      obtain ⟨head, tail⟩ := List.forall_mem_cons.mp all
      exact .drop ((alike kept a before head).mp refused) (ih before tail)

end Sieved
end Proxyshop.Structures

namespace Proxyshop.Structures

variable {K L : Type} [DecidableEq K] [DecidableEq L]

structure Labelled (K L : Type) [DecidableEq K] where
  groups : Groups K
  label : K → Option L

namespace Labelled

def start (own : K → Option L) : Labelled K L := ⟨Groups.empty, own⟩

def contradict : Option L → Option L → Bool
  | some a, some b => a ≠ b
  | _, _ => false

def join (s : Labelled K L) (left right : K) : Bool × Labelled K L :=
  let (leftRoot, groups) := s.groups.find left
  let (rightRoot, groups) := groups.find right
  if leftRoot = rightRoot then (true, ⟨groups, s.label⟩)
  else if contradict (s.label leftRoot) (s.label rightRoot) then (false, ⟨groups, s.label⟩)
  else (true, ⟨groups.union [leftRoot, rightRoot],
    Function.update s.label leftRoot ((s.label leftRoot).or (s.label rightRoot))⟩)

/-- The members whose ends are joined in turn, and those whose ends are kept apart. -/
def sift {α : Type} (ends : α → K × K) : Labelled K L → List α → List α × List α
  | _, [] => ([], [])
  | s, a :: l =>
      let (joined, s) := s.join (ends a).1 (ends a).2
      let (yes, no) := sift ends s l
      if joined then (a :: yes, no) else (yes, a :: no)

/-! ## What the groups know -/

omit [DecidableEq K] in
abbrev Linked (links : List (K × K)) : K → K → Prop := Relation.EqvGen fun a b => (a, b) ∈ links

omit [DecidableEq K] in
theorem Linked.refl (links : List (K × K)) (a : K) : Linked links a a := Relation.EqvGen.refl a

omit [DecidableEq K] in
theorem Linked.mono {links more : List (K × K)} (within : links ⊆ more) {a b : K}
    (linked : Linked links a b) : Linked more a b :=
  Relation.EqvGen.mono (fun _ _ member => within member) a b linked

omit [DecidableEq K] in
theorem linked_append {links : List (K × K)} {a b x y : K} :
    Linked (links ++ [(a, b)]) x y ↔ Linked links x y ∨ (Linked links x a ∧ Linked links b y) ∨
      (Linked links x b ∧ Linked links a y) := by
  have within : links ⊆ links ++ [(a, b)] := List.subset_append_left _ _
  have added : Linked (links ++ [(a, b)]) a b :=
    .rel _ _ (List.mem_append_right _ (List.mem_singleton.mpr rfl))
  constructor
  · intro linked
    induction linked with
    | rel x y member =>
        rcases List.mem_append.mp member with old | new
        · exact Or.inl (.rel _ _ old)
        · obtain ⟨rfl, rfl⟩ := Prod.mk.inj (List.mem_singleton.mp new)
          exact Or.inr (Or.inl ⟨Linked.refl _ _, Linked.refl _ _⟩)
    | refl x => exact Or.inl (Linked.refl _ _)
    | symm x y _ ih =>
        rcases ih with old | ⟨left, right⟩ | ⟨left, right⟩
        · exact Or.inl (old.symm)
        · exact Or.inr (Or.inr ⟨right.symm, left.symm⟩)
        · exact Or.inr (Or.inl ⟨right.symm, left.symm⟩)
    | trans x y z _ _ first second =>
        rcases first with old | ⟨left, right⟩ | ⟨left, right⟩
        · rcases second with old' | ⟨left', right'⟩ | ⟨left', right'⟩
          · exact Or.inl (old.trans _ _ _ old')
          · exact Or.inr (Or.inl ⟨old.trans _ _ _ left', right'⟩)
          · exact Or.inr (Or.inr ⟨old.trans _ _ _ left', right'⟩)
        · rcases second with old' | ⟨-, right'⟩ | ⟨-, right'⟩
          · exact Or.inr (Or.inl ⟨left, right.trans _ _ _ old'⟩)
          · exact Or.inr (Or.inl ⟨left, right'⟩)
          · exact Or.inl (left.trans _ _ _ right')
        · rcases second with old' | ⟨-, right'⟩ | ⟨-, right'⟩
          · exact Or.inr (Or.inr ⟨left, right.trans _ _ _ old'⟩)
          · exact Or.inl (left.trans _ _ _ right')
          · exact Or.inr (Or.inr ⟨left, right'⟩)
  · rintro (old | ⟨left, right⟩ | ⟨left, right⟩)
    · exact old.mono within
    · exact (left.mono within).trans _ _ _ (added.trans _ _ _ (right.mono within))
    · exact (left.mono within).trans _ _ _ (added.symm.trans _ _ _ (right.mono within))

omit [DecidableEq K] in
theorem linked_image {J : Type} {links : List (K × K)} {images : List (J × J)} {f : K → J} {S : Set K}
    (apart : Set.InjOn f S) (into : ∀ l ∈ links, Linked images (f l.1) (f l.2))
    (back : ∀ l ∈ images, ∃ a ∈ S, ∃ b ∈ S, l = (f a, f b) ∧ Linked links a b) {a b : K} (ha : a ∈ S)
    (hb : b ∈ S) : Linked images (f a) (f b) ↔ Linked links a b := by
  constructor
  · intro linked
    have walk : ∀ u v, Linked images u v →
        u = v ∨ ∃ a ∈ S, ∃ b ∈ S, u = f a ∧ v = f b ∧ Linked links a b := by
      intro u v linked
      induction linked with
      | rel u v member =>
          obtain ⟨a, ha, b, hb, same, inner⟩ := back _ member
          obtain ⟨rfl, rfl⟩ := Prod.mk.inj same
          exact Or.inr ⟨a, ha, b, hb, rfl, rfl, inner⟩
      | refl u => exact Or.inl rfl
      | symm u v _ ih =>
          rcases ih with same | ⟨a, ha, b, hb, left, right, inner⟩
          · exact Or.inl same.symm
          · exact Or.inr ⟨b, hb, a, ha, right, left, inner.symm⟩
      | trans u v w _ _ first second =>
          rcases first with rfl | ⟨a, ha, b, hb, rfl, rfl, inner⟩
          · exact second
          · rcases second with same | ⟨b', hb', c, hc, meets, rfl, inner'⟩
            · exact Or.inr ⟨a, ha, b, hb, rfl, same.symm, inner⟩
            · obtain rfl := apart hb hb' meets
              exact Or.inr ⟨a, ha, c, hc, rfl, rfl, inner.trans _ _ _ inner'⟩
    rcases walk _ _ linked with same | ⟨a', ha', b', hb', left, right, inner⟩
    · rw [apart ha hb same]
      exact Linked.refl _ _
    · rw [apart ha ha' left, apart hb hb' right]
      exact inner
  · intro linked
    clear ha hb
    induction linked with
    | rel a b member => exact into _ member
    | refl a => exact Linked.refl _ _
    | symm a b _ ih => exact ih.symm
    | trans a b c _ _ first second => exact first.trans _ _ _ second

def Clash (own : K → Option L) (links : List (K × K)) (a b : K) : Prop :=
  ∃ x y, Linked links a x ∧ Linked links b y ∧ contradict (own x) (own y) = true

/-- The groups are those of the links, and each root carries the label of its group. -/
structure Tracks (own : K → Option L) (links : List (K × K)) (s : Labelled K L) : Prop where
  same : ∀ a b, s.groups.root a = s.groups.root b ↔ Linked links a b
  carried : ∀ k l, own k = some l → s.label (s.groups.root k) = some l
  owned : ∀ k l, s.label (s.groups.root k) = some l → ∃ x, Linked links k x ∧ own x = some l

omit [DecidableEq L] in
theorem tracks_start (own : K → Option L) : Tracks own [] (start own) where
  same a b := by
    have nothing : Equivalence (Eq : K → K → Prop) := ⟨Eq.refl, Eq.symm, Eq.trans⟩
    constructor
    · intro same
      rw [show a = b from same]
      exact Linked.refl _ _
    · intro linked
      apply nothing.eqvGen_iff.mp
      exact Relation.EqvGen.mono (fun _ _ member => absurd member List.not_mem_nil) a b linked
  carried _ _ known := known
  owned k _ known := ⟨k, Linked.refl _ _, known⟩

namespace Tracks

variable {own : K → Option L} {links : List (K × K)} {s : Labelled K L}

omit [DecidableEq L] in
theorem label_of_linked (tracks : Tracks own links s) {a x : K} (linked : Linked links a x) {l : L}
    (known : own x = some l) : s.label (s.groups.root a) = some l := by
  rw [(tracks.same a x).mpr linked]
  exact tracks.carried x l known

theorem clash_iff (tracks : Tracks own links s) (a b : K) :
    Clash own links a b ↔ contradict (s.label (s.groups.root a)) (s.label (s.groups.root b)) = true := by
  constructor
  · rintro ⟨x, y, toX, toY, differ⟩
    cases left : own x with
    | none =>
        rw [left] at differ
        cases differ
    | some l =>
        cases right : own y with
        | none =>
            rw [left, right] at differ
            cases differ
        | some m =>
            rw [tracks.label_of_linked toX left, tracks.label_of_linked toY right, ← left, ← right]
            exact differ
  · intro differ
    cases left : s.label (s.groups.root a) with
    | none =>
        rw [left] at differ
        cases differ
    | some l =>
        cases right : s.label (s.groups.root b) with
        | none =>
            rw [left, right] at differ
            cases differ
        | some m =>
            obtain ⟨x, toX, ownX⟩ := tracks.owned a l left
            obtain ⟨y, toY, ownY⟩ := tracks.owned b m right
            refine ⟨x, y, toX, toY, ?_⟩
            rw [ownX, ownY, ← left, ← right]
            exact differ

omit [DecidableEq L] in
theorem congr (tracks : Tracks own links s) {groups : Groups K} (same : groups.root = s.groups.root) :
    Tracks own links ⟨groups, s.label⟩ where
  same a b := by
    show groups.root a = groups.root b ↔ _
    rw [same]
    exact tracks.same a b
  carried k l known := by
    show s.label (groups.root k) = _
    rw [same]
    exact tracks.carried k l known
  owned k l known := by
    apply tracks.owned k l
    rw [← same]
    exact known

omit [DecidableEq L] in
theorem same_union (tracks : Tracks own links s) (a b x y : K) :
    (s.groups.union [s.groups.root a, s.groups.root b]).root x =
      (s.groups.union [s.groups.root a, s.groups.root b]).root y ↔ Linked (links ++ [(a, b)]) x y := by
  have within : links ⊆ links ++ [(a, b)] := List.subset_append_left _ _
  have top (k : K) : Linked links (s.groups.root k) k := (tracks.same _ _).mp (Groups.root_root _ k)
  have added : Linked (links ++ [(a, b)]) a b :=
    .rel _ _ (List.mem_append_right _ (List.mem_singleton.mpr rfl))
  have roots : Linked (links ++ [(a, b)]) (s.groups.root a) (s.groups.root b) :=
    ((top a).mono within).trans _ _ _ (added.trans _ _ _ (.symm _ _ ((top b).mono within)))
  rw [show s.groups.union [s.groups.root a, s.groups.root b] =
    [[s.groups.root a, s.groups.root b]].foldl Groups.union s.groups from rfl, Groups.same_unions]
  constructor
  · refine Relation.EqvGen.eqvGen_le ?_ x y
    rintro x y (same | ⟨keys, single, first, second⟩)
    · exact ((tracks.same x y).mp same).mono within
    · rw [List.mem_singleton] at single
      rw [single] at first second
      simp only [List.mem_cons, List.not_mem_nil, or_false] at first second
      rcases first with rfl | rfl <;> rcases second with rfl | rfl
      · exact Linked.refl _ _
      · exact roots
      · exact .symm _ _ roots
      · exact Linked.refl _ _
  · refine Relation.EqvGen.eqvGen_le ?_ x y
    intro x y member
    rcases List.mem_append.mp member with old | new
    · exact .rel _ _ (Or.inl ((tracks.same x y).mpr (.rel _ _ old)))
    · obtain ⟨rfl, rfl⟩ := Prod.mk.inj (List.mem_singleton.mp new)
      have up (k : K) : s.groups.Touch [[s.groups.root x, s.groups.root y]] k (s.groups.root k) :=
        Or.inl (Groups.root_root _ k).symm
      have across : s.groups.Touch [[s.groups.root x, s.groups.root y]] (s.groups.root x) (s.groups.root y) :=
        Or.inr ⟨_, List.mem_singleton.mpr rfl, List.mem_cons_self, List.mem_cons_of_mem _ List.mem_cons_self⟩
      exact (Relation.EqvGen.rel _ _ (up x)).trans _ _ _
        ((Relation.EqvGen.rel _ _ across).trans _ _ _ (.symm _ _ (.rel _ _ (up y))))

theorem union (tracks : Tracks own links s) {a b : K}
    (agree : contradict (s.label (s.groups.root a)) (s.label (s.groups.root b)) = false) :
    Tracks own (links ++ [(a, b)]) ⟨s.groups.union [s.groups.root a, s.groups.root b],
      Function.update s.label (s.groups.root a)
        ((s.label (s.groups.root a)).or (s.label (s.groups.root b)))⟩ := by
  have root : (s.groups.union [s.groups.root a, s.groups.root b]).root = fun x =>
      if s.groups.root x = s.groups.root a ∨ s.groups.root x = s.groups.root b then s.groups.root a
      else s.groups.root x := by
    rw [Groups.root_union]
    simp
  have same := tracks.same_union a b
  refine ⟨same, ?_, ?_⟩
  · intro k l known
    have old := tracks.carried k l known
    dsimp only
    rw [root]
    dsimp only
    split
    · rename_i inside
      rw [Function.update_self]
      rcases inside with left | right
      · rw [← left, old]
        rfl
      · rw [← right, old] at agree ⊢
        cases first : s.label (s.groups.root a) with
        | none => rfl
        | some m =>
            rw [first] at agree
            simpa [contradict] using agree
    · rename_i outside
      rw [Function.update_of_ne fun top => outside (Or.inl top)]
      exact old
  · intro k l known
    dsimp only at known
    have linked (x : K) (top : (s.groups.union [s.groups.root a, s.groups.root b]).root k =
        (s.groups.union [s.groups.root a, s.groups.root b]).root x) := (same k x).mp top
    rw [root] at known linked
    dsimp only at known linked
    split at known
    · rename_i inside
      rw [Function.update_self, Option.or_eq_some_iff] at known
      rcases known with first | ⟨-, second⟩
      · obtain ⟨x, toX, ownX⟩ := tracks.owned a l first
        refine ⟨x, linked x ?_, ownX⟩
        rw [if_pos inside, if_pos (Or.inl ((tracks.same a x).mpr toX).symm)]
      · obtain ⟨x, toX, ownX⟩ := tracks.owned b l second
        refine ⟨x, linked x ?_, ownX⟩
        rw [if_pos inside, if_pos (Or.inr ((tracks.same b x).mpr toX).symm)]
    · rename_i outside
      rw [Function.update_of_ne fun top => outside (Or.inl top)] at known
      obtain ⟨x, toX, ownX⟩ := tracks.owned k l known
      exact ⟨x, toX.mono (List.subset_append_left _ _), ownX⟩

omit [DecidableEq L] in
theorem redundant (tracks : Tracks own links s) {a b : K} (together : s.groups.root a = s.groups.root b) :
    Tracks own (links ++ [(a, b)]) s where
  same x y := by
    rw [tracks.same]
    constructor
    · exact Linked.mono (List.subset_append_left _ _)
    · refine Relation.EqvGen.eqvGen_le ?_ x y
      intro x y member
      rcases List.mem_append.mp member with old | new
      · exact .rel _ _ old
      · obtain ⟨rfl, rfl⟩ := Prod.mk.inj (List.mem_singleton.mp new)
        exact (tracks.same x y).mp together
  carried := tracks.carried
  owned k l known := by
    obtain ⟨x, toX, ownX⟩ := tracks.owned k l known
    exact ⟨x, toX.mono (List.subset_append_left _ _), ownX⟩

theorem join (tracks : Tracks own links s) (a b : K) :
    ((s.join a b).1 = true ∧ ¬Clash own links a b ∧ Tracks own (links ++ [(a, b)]) (s.join a b).2) ∨
      ((s.join a b).1 = false ∧ Clash own links a b ∧ Tracks own links (s.join a b).2) := by
  have found : ((s.groups.find a).2.find b).2.root = s.groups.root := by
    rw [Groups.root_find, Groups.root_find]
  have kept := tracks.congr found
  unfold Labelled.join
  dsimp only
  rw [Groups.find_fst, Groups.find_fst, Groups.root_find]
  split
  · rename_i together
    left
    have agree : contradict (s.label (s.groups.root a)) (s.label (s.groups.root b)) = false := by
      rw [together]
      cases s.label (s.groups.root b) <;> simp [contradict]
    refine ⟨rfl, ?_, ?_⟩
    · rw [tracks.clash_iff, agree]
      exact Bool.false_ne_true
    · apply kept.redundant
      dsimp only
      rw [found]
      exact together
  · split
    · rename_i differ
      exact Or.inr ⟨rfl, (tracks.clash_iff a b).mpr differ, kept⟩
    · rename_i agree
      left
      refine ⟨rfl, ?_, ?_⟩
      · rw [tracks.clash_iff]
        exact agree
      · have joined := kept.union (a := a) (b := b) (by
          show contradict (s.label (Groups.root _ a)) (s.label (Groups.root _ b)) = false
          rw [found]
          exact Bool.eq_false_iff.mpr agree)
        dsimp only at joined
        rw [found] at joined
        exact joined

theorem sieved {α : Type} {ends : α → K × K} {kept : List α} (tracks : Tracks own (kept.map ends) s)
    (l : List α) : Sieved (fun kept a => Clash own (kept.map ends) (ends a).1 (ends a).2) kept l
      (sift ends s l).1 (sift ends s l).2 := by
  induction l generalizing s kept with
  | nil => exact .nil kept
  | cons a l ih =>
      unfold sift
      dsimp only
      rcases tracks.join (ends a).1 (ends a).2 with ⟨joined, fits, next⟩ | ⟨refused, clash, next⟩
      · rw [joined]
        exact .keep fits (ih (by rw [List.map_append]; exact next))
      · rw [refused]
        exact .drop clash (ih next)

end Tracks
end Labelled
end Proxyshop.Structures
