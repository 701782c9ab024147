import Proxyshop.Reconcile.Engine
import Proxyshop.Structures.Bridging

/-!
# The groups as a partition

Which events the engine puts in one group, without roots: identifiers in common, step by step, and the
links of a bridging in which codes name groups that hold an order or an offer.
-/

namespace Proxyshop.Reconcile

open Python Structures Relation

inductive Side
  | order
  | offer
  deriving DecidableEq

def Side.kind : Side → Kind
  | .order => .orderPaid
  | .offer => .accepted

def Plain (k : Str) : Prop := ∀ scope code, k ≠ scopedKey scope (codeKey code)

section Partition

variable [Unicode] (relevant : List Relevant)

def Shares (a b : Str) : Prop := ∃ e ∈ relevant, a ∈ e.keys ∧ b ∈ e.keys

def Linked : Str → Str → Prop := EqvGen (Shares relevant)

theorem linked_equivalence : Equivalence (Linked relevant) := EqvGen.is_equivalence _

def bridging : Bridging Str Str Side where
  linked := Linked relevant
  equivalence := linked_equivalence relevant
  marked side k := ∃ e ∈ relevant, e.kind = side.kind ∧ Linked relevant e.key k
  names code k := ∃ e ∈ relevant, code ∈ e.codeKeys ∧ Linked relevant e.key k
  marked_of_linked linked := fun ⟨e, member, kind, joined⟩ =>
    ⟨e, member, kind, (linked_equivalence relevant).trans joined linked⟩
  names_of_linked linked := fun ⟨e, member, code, joined⟩ =>
    ⟨e, member, code, (linked_equivalence relevant).trans joined linked⟩

def Merged (a b : Str) : Prop := (bridging relevant).Merged a b

variable {relevant}

theorem Relevant.key_mem (e : Relevant) : e.key ∈ e.keys := List.head_mem _

theorem linked_keys {e : Relevant} (member : e ∈ relevant) {a b : Str} (left : a ∈ e.keys)
    (right : b ∈ e.keys) : Linked relevant a b := .rel _ _ ⟨e, member, left, right⟩

theorem Relevant.plain {e : Relevant} {k : Str} (member : k ∈ e.keys) : Plain k := by
  rintro scope code same
  obtain ⟨key, inside, rfl⟩ := mem_scopedKeys.mp member
  exact identifier_ne_codeKey inside code (scopedKey_inj.mp same).2

theorem Linked.plain {a b : Str} (linked : Linked relevant a b) : Plain a ↔ Plain b :=
  (eqvGen_within (t := fun _ _ => True) (fun _ _ ⟨_, _, left, right⟩ =>
    ⟨fun _ => Relevant.plain right, fun _ => Relevant.plain left⟩) (fun _ _ _ _ => trivial) linked).1

theorem Linked.eq_of_not_plain {a b : Str} (linked : Linked relevant a b) (coded : ¬ Plain b) : a = b := by
  have alone : a = b ↔ b = b := (eqvGen_within (t := fun _ _ => True) (P := (· = b))
    (fun x y ⟨_, _, left, right⟩ =>
      ⟨fun same => absurd (same ▸ Relevant.plain left) coded,
        fun same => absurd (same ▸ Relevant.plain right) coded⟩) (fun _ _ _ _ => trivial) linked).1
  exact alone.mpr rfl

/-! ## Roots -/

theorem root_iff (a b : Str) :
    (identityGroups relevant).root a = (identityGroups relevant).root b ↔ Linked relevant a b := by
  have unions : identityGroups relevant = (relevant.map Relevant.keys).foldl Groups.union Groups.empty := by
    rw [List.foldl_map, identityGroups]
  have shares : (fun a b => ∃ keys ∈ relevant.map Relevant.keys, a ∈ keys ∧ b ∈ keys) =
      Shares relevant := by
    funext x y
    simp [Shares]
  rw [unions, Groups.same_of_empty, shares]
  rfl

variable (relevant) in
theorem linked_root (a : Str) : Linked relevant ((identityGroups relevant).root a) a := by
  rw [← root_iff, Groups.root_root]

theorem mem_holding {kind : Kind} {root : Str} :
    root ∈ holding relevant kind ↔ ∃ e ∈ relevant, e.kind = kind ∧ identityOf relevant e = root := by
  simp only [holding, List.mem_map, List.mem_filter, decide_eq_true_eq, and_assoc]

theorem marked_iff {side : Side} {k : Str} : (bridging relevant).marked side k ↔
    (identityGroups relevant).root k ∈ holding relevant side.kind := by
  rw [mem_holding]
  constructor
  · rintro ⟨e, member, kind, joined⟩
    exact ⟨e, member, kind, (root_iff _ _).mpr joined⟩
  · rintro ⟨e, member, kind, same⟩
    exact ⟨e, member, kind, (root_iff _ _).mp same⟩

theorem names_iff {code k : Str} : (bridging relevant).names code k ↔
    (identityGroups relevant).root k ∈ (Dict.get? (linkedRoots relevant) code).getD [] := by
  rw [linkedRoots, mem_gather, List.mem_flatMap]
  simp only [List.mem_map, Prod.mk.injEq]
  constructor
  · rintro ⟨e, member, coded, joined⟩
    exact ⟨e, member, code, coded, rfl, (root_iff _ _).mpr joined⟩
  · rintro ⟨e, member, code, coded, rfl, same⟩
    exact ⟨e, member, coded, (root_iff _ _).mp same⟩

theorem root_of_link {link : Str × List Str} (member : link ∈ linkedRoots relevant) {root : Str}
    (inside : root ∈ link.2) : ∃ e ∈ relevant, link.1 ∈ e.codeKeys ∧ identityOf relevant e = root := by
  have gathered : Gathered _ (linkedRoots relevant) := gathered_gather _
  have paired := (gathered.values link.1 root).mp (by
    rw [Dict.get?_of_mem gathered.distinct member]
    exact inside)
  obtain ⟨e, found, coded⟩ := List.mem_flatMap.mp paired
  obtain ⟨code, named, same⟩ := List.mem_map.mp coded
  obtain ⟨rfl, rfl⟩ := Prod.mk.inj same
  exact ⟨e, found, named, rfl⟩

theorem Relevant.not_plain {e : Relevant} {code : Str} (member : code ∈ e.codeKeys) : ¬ Plain code := by
  obtain ⟨key, inside, rfl⟩ := mem_scopedKeys.mp member
  obtain ⟨text, -, rfl⟩ := List.mem_map.mp inside
  exact fun plain => plain _ _ rfl

theorem linkedRoots_occupied {link : Str × List Str} (member : link ∈ linkedRoots relevant) :
    link.2 ≠ [] ∧ link.2.Nodup := (gathered_gather _).occupied link member

theorem not_plain_of_link {link : Str × List Str} (member : link ∈ linkedRoots relevant) :
    ¬ Plain link.1 := by
  obtain ⟨root, inside⟩ := List.exists_mem_of_ne_nil _ (linkedRoots_occupied member).1
  obtain ⟨e, -, coded, -⟩ := root_of_link member inside
  exact Relevant.not_plain coded

theorem get?_linkedRoots {link : Str × List Str} (member : link ∈ linkedRoots relevant) :
    Dict.get? (linkedRoots relevant) link.1 = some link.2 :=
  Dict.get?_of_mem (gathered_gather _).distinct member

/-! ## The codes that survive -/

theorem root_identityOf (e : Relevant) :
    (identityGroups relevant).root (identityOf relevant e) = identityOf relevant e :=
  Groups.root_root _ _

theorem plain_identityOf (e : Relevant) : Plain (identityOf relevant e) :=
  (Linked.plain (linked_root relevant e.key)).mpr (Relevant.plain e.key_mem)

theorem single_iff {P : Str → Prop} (lists : Side → List Str) (distinct : ∀ side, (lists side).Nodup)
    (fixed : ∀ side, ∀ root ∈ lists side, (identityGroups relevant).root root = root)
    (covers : ∀ side k, (identityGroups relevant).root k ∈ lists side ↔
      P k ∧ (bridging relevant).marked side k) :
    (bridging relevant).Single P ↔ (lists .order).length ≤ 1 ∧ (lists .offer).length ≤ 1 := by
  have sides : ((lists .order).length ≤ 1 ∧ (lists .offer).length ≤ 1) ↔
      ∀ side, (lists side).length ≤ 1 :=
    ⟨fun both side => by cases side with | order => exact both.1 | offer => exact both.2,
      fun all => ⟨all .order, all .offer⟩⟩
  rw [sides]
  constructor
  · intro single side
    rw [length_le_one_iff (distinct side)]
    intro a ha b hb
    have rootA := fixed side a ha
    have rootB := fixed side b hb
    have left := (covers side a).mp (rootA.symm ▸ ha)
    have right := (covers side b).mp (rootB.symm ▸ hb)
    have linked := single left.1 right.1 left.2 right.2
    rw [← rootA, ← rootB]
    exact (root_iff a b).mpr linked
  · intro short side a b left right marked marked'
    have all := (length_le_one_iff (distinct side)).mp (short side)
    exact (root_iff a b).mp
      (all _ ((covers side a).mpr ⟨left, marked⟩) _ ((covers side b).mpr ⟨right, marked'⟩))

theorem survives_iff {link : Str × List Str} (member : link ∈ linkedRoots relevant) :
    (bridging relevant).Survives link.1 ↔
      (link.2.filter fun root => root ∈ holding relevant .orderPaid).length ≤ 1 ∧
        (link.2.filter fun root => root ∈ holding relevant .accepted).length ≤ 1 := by
  apply single_iff fun side => link.2.filter fun root => root ∈ holding relevant side.kind
  · exact fun side => (linkedRoots_occupied member).2.filter _
  · intro side root inside
    obtain ⟨e, -, -, rfl⟩ := root_of_link member (List.mem_of_mem_filter inside)
    exact root_identityOf e
  · intro side k
    rw [List.mem_filter, decide_eq_true_eq, names_iff, marked_iff, get?_linkedRoots member,
      Option.getD_some]

theorem mem_surviving {link : Str × List Str} : link ∈ surviving relevant ↔
    link ∈ linkedRoots relevant ∧ (bridging relevant).Survives link.1 := by
  rw [surviving, List.mem_filter]
  refine and_congr_right fun member => ?_
  rw [decide_eq_true_eq, survives_iff member]

theorem nodup_keys_surviving : (Dict.keys (surviving relevant)).Nodup := by
  have gathered : Gathered _ (linkedRoots relevant) := gathered_gather _
  exact gathered.distinct.sublist (List.filter_sublist.map _)

theorem not_plain_of_surviving {code : Str} (member : code ∈ Dict.keys (surviving relevant)) :
    ¬ Plain code := by
  obtain ⟨link, found, rfl⟩ := List.mem_map.mp member
  exact not_plain_of_link (mem_surviving.mp found).1

theorem plain_of_link {link : Str × List Str} (member : link ∈ linkedRoots relevant) {root : Str}
    (inside : root ∈ link.2) : Plain root := by
  obtain ⟨e, -, -, rfl⟩ := root_of_link member inside
  exact plain_identityOf e

/-! ## The components they make -/

theorem component_hubs : (Groups.empty : Groups Str).Hubs (surviving relevant) where
  distinct := nodup_keys_surviving
  occupied _ member := (linkedRoots_occupied (mem_surviving.mp member).1).1
  apart _ member _ inside coded :=
    not_plain_of_surviving coded (plain_of_link (mem_surviving.mp member).1 inside)
  alone _ _ _ same := same

theorem names_of_link {link : Str × List Str} (member : link ∈ linkedRoots relevant) {k : Str} :
    (bridging relevant).names link.1 k ↔ (identityGroups relevant).root k ∈ link.2 := by
  rw [names_iff, get?_linkedRoots member, Option.getD_some]

theorem exists_link {code k : Str} (named : (bridging relevant).names code k) :
    ∃ link ∈ linkedRoots relevant, link.1 = code := by
  rw [names_iff] at named
  cases found : Dict.get? (linkedRoots relevant) code with
  | none => simp [found] at named
  | some roots => exact ⟨(code, roots), Dict.mem_of_get? found, rfl⟩

theorem joined_iff {a b : Str} (left : Plain a) (right : Plain b) :
    (bridging relevant).Joined a b ↔
      (components relevant).root ((identityGroups relevant).root a) =
        (components relevant).root ((identityGroups relevant).root b) := by
  have plainA := (Linked.plain (linked_root relevant a)).mpr left
  have plainB := (Linked.plain (linked_root relevant b)).mpr right
  rw [components, Groups.same_hubs component_hubs (fun coded => not_plain_of_surviving coded plainA)
    (fun coded => not_plain_of_surviving coded plainB)]
  constructor
  · intro joined
    clear left right plainA plainB
    induction joined with
    | rel a b step =>
        rcases step with linked | ⟨code, survives, hx, hy⟩
        · rw [(root_iff a b).mpr linked]
          exact .refl _
        · obtain ⟨link, member, rfl⟩ := exists_link hx
          exact .rel _ _ (Or.inr ⟨link, mem_surviving.mpr ⟨member, survives⟩,
            ⟨_, (names_of_link member).mp hx, rfl⟩, ⟨_, (names_of_link member).mp hy, rfl⟩⟩)
    | refl a => exact .refl _
    | symm a b _ ih => exact .symm _ _ ih
    | trans a b c _ _ first second => exact .trans _ _ _ first second
  · intro related
    have roots : ∀ x y, EqvGen (Groups.empty.Around (surviving relevant)) x y →
        (bridging relevant).Joined x y := by
      intro x y related
      refine (EqvGen.is_equivalence (bridging relevant).Step).eqvGen_iff.mp (related.mono ?_)
      rintro x y (same | ⟨link, member, ⟨i, hi, toI⟩, ⟨j, hj, toJ⟩⟩)
      · rw [show x = y from same]
        exact .refl _
      · rw [show x = i from toI, show y = j from toJ]
        obtain ⟨found, survives⟩ := mem_surviving.mp member
        have named : ∀ root ∈ link.2, (bridging relevant).names link.1 root := by
          intro root inside
          obtain ⟨e, -, -, rfl⟩ := root_of_link found inside
          rw [names_of_link found, root_identityOf]
          exact inside
        exact .rel _ _ (Or.inr ⟨link.1, survives, named i hi, named j hj⟩)
    have first : (bridging relevant).Joined a ((identityGroups relevant).root a) :=
      .of_linked ((linked_equivalence relevant).symm (linked_root relevant a))
    exact (first.trans (roots _ _ related)).trans (.of_linked (linked_root relevant b))

theorem plain_of_marked {side : Side} {k : Str} (marked : (bridging relevant).marked side k) :
    Plain k := by
  obtain ⟨e, -, -, joined⟩ := marked
  exact (Linked.plain joined).mp (Relevant.plain e.key_mem)

theorem plain_of_named {code k : Str} (named : (bridging relevant).names code k) : Plain k := by
  obtain ⟨e, -, -, joined⟩ := named
  exact (Linked.plain joined).mp (Relevant.plain e.key_mem)

theorem mem_perComponent {kind : Kind} {component root : Str} :
    root ∈ (Dict.get? (perComponent relevant kind) component).getD [] ↔
      root ∈ holding relevant kind ∧ (components relevant).root root = component := by
  rw [perComponent, mem_gather, List.mem_map]
  simp only [List.mem_filter, List.mem_map, decide_eq_true_eq, Prod.mk.injEq]
  constructor
  · rintro ⟨root, ⟨-, held⟩, rfl, rfl⟩
    exact ⟨held, rfl⟩
  · rintro ⟨held, rfl⟩
    obtain ⟨e, member, -, same⟩ := mem_holding.mp held
    exact ⟨root, ⟨⟨e, member, same⟩, held⟩, rfl, rfl⟩

theorem sound_iff {code k : Str} (survives : (bridging relevant).Survives code)
    (named : (bridging relevant).names code k) :
    (bridging relevant).Sound k ↔
      (oneOf relevant .orderPaid code && oneOf relevant .accepted code) = true := by
  obtain ⟨link, member, rfl⟩ := exists_link named
  have here : (components relevant).root link.1 =
      (components relevant).root ((identityGroups relevant).root k) :=
    Groups.root_hub _ (mem_surviving.mpr ⟨member, survives⟩) ((names_of_link member).mp named)
  have single := single_iff (P := (bridging relevant).Joined k)
    (fun side => (Dict.get? (perComponent relevant side.kind)
      ((components relevant).root link.1)).getD [])
    (fun side => nodup_gather _ _)
    (fun side root inside => by
      obtain ⟨e, -, -, rfl⟩ := mem_holding.mp (mem_perComponent.mp inside).1
      exact root_identityOf e)
    (fun side k' => by
      rw [mem_perComponent, ← marked_iff, here, and_comm]
      refine and_congr_left fun marked => ?_
      rw [joined_iff (plain_of_named named) (plain_of_marked marked)]
      exact eq_comm)
  rw [Bridging.Sound, single]
  simp only [oneOf, Bool.and_eq_true, decide_eq_true_eq, Side.kind]

/-! ## The groups once the links have been applied -/

def appliedLinks (relevant : List Relevant) : Dict Str (List Str) :=
  (surviving relevant).filter fun link =>
    oneOf relevant .orderPaid link.1 && oneOf relevant .accepted link.1

theorem mergedGroups_eq :
    mergedGroups relevant = (identityGroups relevant).unionHubs (appliedLinks relevant) := by
  rw [Groups.unionHubs, appliedLinks, List.foldl_filter, mergedGroups]

theorem mem_of_appliedLinks {link : Str × List Str} (member : link ∈ appliedLinks relevant) :
    link ∈ surviving relevant := List.mem_of_mem_filter member

theorem not_plain_of_applied {code : Str} (member : code ∈ Dict.keys (appliedLinks relevant)) :
    ¬ Plain code := by
  obtain ⟨link, found, rfl⟩ := List.mem_map.mp member
  exact not_plain_of_link (mem_surviving.mp (mem_of_appliedLinks found)).1

theorem applied_hubs : (identityGroups relevant).Hubs (appliedLinks relevant) where
  distinct := nodup_keys_surviving.sublist (List.filter_sublist.map _)
  occupied _ member := (linkedRoots_occupied (mem_surviving.mp (mem_of_appliedLinks member)).1).1
  apart _ member _ inside coded := not_plain_of_applied coded
    (plain_of_link (mem_surviving.mp (mem_of_appliedLinks member)).1 inside)
  alone _ coded _ same := Linked.eq_of_not_plain ((root_iff _ _).mp same) (not_plain_of_applied coded)

theorem around_iff (a b : Str) : (identityGroups relevant).Around (appliedLinks relevant) a b ↔
    Linked relevant a b ∨ ∃ code, (bridging relevant).Survives code ∧
      (∃ k, (bridging relevant).names code k ∧ (bridging relevant).Sound k) ∧
      (bridging relevant).names code a ∧ (bridging relevant).names code b := by
  rw [Groups.Around, root_iff]
  refine or_congr_right ⟨?_, ?_⟩
  · rintro ⟨link, member, ⟨x, hx, toX⟩, ⟨y, hy, toY⟩⟩
    obtain ⟨found, survives⟩ := mem_surviving.mp (mem_of_appliedLinks member)
    have named : ∀ {k root}, root ∈ link.2 → (identityGroups relevant).root k =
        (identityGroups relevant).root root → (bridging relevant).names link.1 k := by
      intro k root inside same
      obtain ⟨e, -, -, rfl⟩ := root_of_link found inside
      rw [names_of_link found, same, root_identityOf]
      exact inside
    have sound : (bridging relevant).Sound a :=
      (sound_iff survives (named hx toX)).mpr (List.mem_filter.mp member).2
    exact ⟨link.1, survives, ⟨a, named hx toX, sound⟩, named hx toX, named hy toY⟩
  · rintro ⟨code, survives, ⟨k, named, sound⟩, left, right⟩
    obtain ⟨link, member, rfl⟩ := exists_link named
    have applied : link ∈ appliedLinks relevant := List.mem_filter.mpr
      ⟨mem_surviving.mpr ⟨member, survives⟩, (sound_iff survives named).mp sound⟩
    exact ⟨link, applied, ⟨_, (names_of_link member).mp left, (Groups.root_root _ _).symm⟩,
      ⟨_, (names_of_link member).mp right, (Groups.root_root _ _).symm⟩⟩

theorem merged_root_iff {a b : Str} (left : Plain a) (right : Plain b) :
    (mergedGroups relevant).root a = (mergedGroups relevant).root b ↔ Merged relevant a b := by
  have around : (identityGroups relevant).Around (appliedLinks relevant) = fun a b => _ :=
    funext₂ fun a b => propext (around_iff a b)
  rw [mergedGroups_eq, Groups.same_hubs applied_hubs (fun coded => not_plain_of_applied coded left)
    (fun coded => not_plain_of_applied coded right), Merged, Bridging.merged_iff, around]
  rfl

end Partition

end Proxyshop.Reconcile
