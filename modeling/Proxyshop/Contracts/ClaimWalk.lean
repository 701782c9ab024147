import Proxyshop.Contracts.ClaimValue
import Proxyshop.Structures.DepthFirst

/-!
# What the walk over a claim's value finds

The loop is a depth-first search under a budget, and its three answers are read off the nodes that
the search visits.
-/

namespace Proxyshop.Contracts

open Python Structures

variable {N : Type}

namespace ClaimValue

/-- The second node is the first or lies inside it, at any depth. -/
inductive Within (top : Node N) : Node N → Prop
  | top : Within top top
  | member {members : Dict Str (Json N)} {path : Str} {depth : Nat} {key : Str} {child : Json N} :
      Within top ⟨.object members, path, depth⟩ → (key, child) ∈ members →
        Within top ⟨child, path ++ str "." ++ key, depth + 1⟩
  | item {items : List (Json N)} {path : Str} {depth i : Nat} {child : Json N} :
      Within top ⟨.array items, path, depth⟩ → items[i]? = some child →
        Within top ⟨child, path ++ str "[" ++ Str.ofNat i ++ str "]", depth + 1⟩

def entries : Json N → List (Str × Json N)
  | .object members => byKey Str.le members
  | .array items => items.mapIdx fun index child => (Str.ofNat index, child)
  | _ => []

def isMapping : Json N → Bool
  | .object _ => true
  | _ => false

theorem sizeOf_entry {v : Json N} {entry : Str × Json N} (member : entry ∈ entries v) :
    sizeOf entry.2 < sizeOf v := by
  cases v with
  | object members => exact Json.sizeOf_member ((byKey_perm members).mem_iff.mp member)
  | array items =>
      obtain ⟨i, inside, rfl⟩ := List.mem_mapIdx.mp member
      exact Json.sizeOf_item (List.getElem_mem inside)
  | _ => cases member

/-- The values inside a value, in the order of the walk. -/
noncomputable def forest : Forest (Node N) where
  children node := (entries node.value).map (node.child (isMapping node.value))
  size node := sizeOf node.value
  smaller node child member := by
    obtain ⟨entry, inside, rfl⟩ := List.mem_map.mp member
    exact sizeOf_entry inside

def Opens (node : Node N) (budget : Nat) : Prop :=
  node.depth ≤ claimValueMaxDepth ∧ (entries node.value).length ≤ budget

instance (node : Node N) (budget : Nat) : Decidable (Opens node budget) :=
  inferInstanceAs (Decidable (_ ∧ _))

noncomputable def occurrences (value : Json N) (label : Str) : List (Node N) := forest.preorder (root value label)

/-- The non-empty containers of a value. -/
noncomputable def containers (value : Json N) (label : Str) : List (Node N) :=
  (occurrences value label).filter fun node => !(entries node.value).isEmpty


/-! ## One visit -/

def reported (node : Node N) : Option (Str × Str) :=
  (declaredProvenanceSource node.value).map fun source => (node.path, source)

def mentions (node : Node N) : Bool :=
  isMapping node.value && (entries node.value).any fun e => isAuthorisationKey e.1

theorem Walk.report_eq (w : Walk N) (node : Node N) :
    w.report node = { w with found := w.found ++ (reported node).toList } := by
  unfold Walk.report reported
  cases declaredProvenanceSource node.value <;> simp

theorem containerLength_eq (v : Json N) :
    (containerLength v = none ∧ entries v = []) ∨ containerLength v = some (entries v).length := by
  cases v with
  | array items => exact Or.inr (by simp [containerLength, entries])
  | object members => exact Or.inr (by simp [containerLength, entries, (byKey_perm members).length_eq])
  | _ => exact Or.inl ⟨rfl, rfl⟩

theorem containerEntries_eq {v : Json N} (few : (entries v).length ≤ claimValueMaxEntries) :
    containerEntries v = (entries v, isMapping v) := by
  cases v with
  | array items =>
      have short : items.length ≤ claimValueMaxEntries + 1 := by
        rw [entries, List.length_mapIdx] at few
        omega
      simp only [containerEntries, List.take_of_length_le short]
      rfl
  | object members =>
      have short : members.length ≤ claimValueMaxEntries + 1 := by
        rw [entries, (byKey_perm members).length_eq] at few
        omega
      simp only [containerEntries, List.take_of_length_le short]
      rfl
  | _ => rfl

theorem Walk.visit_cases (w : Walk N) (node : Node N) (bounded : w.budget ≤ claimValueMaxEntries) :
    (entries node.value = [] ∧
      w.visit node = { w with found := w.found ++ (reported node).toList }) ∨
    (entries node.value ≠ [] ∧ Opens node w.budget ∧
      w.visit node = { w with
        found := w.found ++ (reported node).toList
        budget := w.budget - (entries node.value).length
        mentionsAuthorisation := w.mentionsAuthorisation || mentions node
        stack := forest.children node ++ w.stack }) ∨
    (entries node.value ≠ [] ∧ ¬ Opens node w.budget ∧
      w.visit node = { w with found := w.found ++ (reported node).toList, truncated := true }) := by
  unfold Walk.visit
  rw [Walk.report_eq]
  rcases containerLength_eq node.value with ⟨scalar, empty⟩ | length
  · rw [scalar]
    exact Or.inl ⟨empty, rfl⟩
  · rw [length]
    by_cases empty : entries node.value = []
    · have read : containerEntries node.value = ([], isMapping node.value) := by
        rw [containerEntries_eq, empty]
        rw [empty]
        exact Nat.zero_le _
      refine Or.inl ⟨empty, ?_⟩
      simp [empty, read]
    · have positive : (entries node.value).length ≠ 0 := fun none =>
        empty (List.length_eq_zero_iff.mp none)
      by_cases opens : Opens node w.budget
      · have read := containerEntries_eq (opens.2.trans bounded)
        have afford : ¬ (claimValueMaxDepth < node.depth ∨
            w.budget < (entries node.value).length) := by
          rintro (deep | wide)
          · exact absurd opens.1 (by omega)
          · exact absurd opens.2 (by omega)
        refine Or.inr (Or.inl ⟨empty, opens, ?_⟩)
        simp only [afford, read, List.isEmpty_iff, empty, and_false, if_false, forest, mentions]
      · have skip : claimValueMaxDepth < node.depth ∨
            w.budget < (entries node.value).length := by
          by_contra afford
          push Not at afford
          exact opens afford
        refine Or.inr (Or.inr ⟨empty, opens, ?_⟩)
        simp only [ne_eq, positive, not_false_eq_true, skip, and_self, if_true]

/-! ## The loop -/

theorem children_eq_nil_iff (node : Node N) :
    forest.children node = [] ↔ entries node.value = [] :=
  List.map_eq_nil_iff

theorem length_children (node : Node N) :
    (forest.children node).length = (entries node.value).length :=
  List.length_map _

theorem affordable (node : Node N) (budget : Nat) (opens : Opens node budget) :
    (forest.children node).length ≤ budget := by
  rw [length_children]
  exact opens.2

theorem mentions_of_leaf {node : Node N} (leaf : entries node.value = []) :
    mentions node = false := by
  rw [mentions, leaf, List.any_nil, Bool.and_false]

structure Walk.Reads (before after : Walk N) (visits : List (Node N × Bool)) : Prop where
  found : after.found = before.found ++ visits.filterMap fun e => reported e.1
  mentionsAuthorisation : after.mentionsAuthorisation =
    (before.mentionsAuthorisation || visits.any fun e => e.2 && mentions e.1)
  truncated : after.truncated = (before.truncated || visits.any fun e => !e.2)

theorem Walk.Reads.refl (w : Walk N) : w.Reads w [] :=
  ⟨(List.append_nil _).symm, (Bool.or_false _).symm, (Bool.or_false _).symm⟩

theorem Walk.Reads.cons {before next after : Walk N} {visits : List (Node N × Bool)}
    (reads : next.Reads after visits) {node : Node N} (through : Bool)
    (found : next.found = before.found ++ (reported node).toList)
    (mentioned : next.mentionsAuthorisation =
      (before.mentionsAuthorisation || (through && mentions node)))
    (cut : next.truncated = (before.truncated || !through)) :
    before.Reads after ((node, through) :: visits) where
  found := by
    rw [reads.found, found, List.append_assoc, List.filterMap_cons]
    cases reported node <;> rfl
  mentionsAuthorisation := by
    rw [reads.mentionsAuthorisation, mentioned, Bool.or_assoc, List.any_cons]
  truncated := by
    rw [reads.truncated, cut, Bool.or_assoc, List.any_cons]

theorem Walk.run_reads (n : Nat) (w : Walk N) (bounded : w.budget ≤ claimValueMaxEntries) :
    w.Reads (w.run n) (forest.visits Opens n w.stack w.budget) ∧
      w.opened n = forest.opened Opens n w.stack w.budget := by
  induction n generalizing w with
  | zero => exact ⟨.refl w, rfl⟩
  | succ n ih =>
      obtain ⟨stack, found, mentioned, truncated, budget⟩ := w
      cases stack with
      | nil => exact ⟨.refl _, rfl⟩
      | cons node stack =>
          have run : Walk.run (n + 1) ⟨node :: stack, found, mentioned, truncated, budget⟩ =
            Walk.run n (visit ⟨stack, found, mentioned, truncated, budget⟩ node) := rfl
          have enters : Walk.opened (n + 1) ⟨node :: stack, found, mentioned, truncated, budget⟩ =
            let next := visit ⟨stack, found, mentioned, truncated, budget⟩ node
            if next.budget < budget then node :: Walk.opened n next else Walk.opened n next := rfl
          rw [run, enters]
          rcases Walk.visit_cases ⟨stack, found, mentioned, truncated, budget⟩ node bounded with
            ⟨leaf, visit⟩ | ⟨inner, opens, visit⟩ | ⟨inner, shut, visit⟩
          · rw [visit, Forest.opened, Forest.visits_leaf ((children_eq_nil_iff node).mpr leaf)]
            obtain ⟨reads, entered⟩ := ih ⟨stack, _, mentioned, truncated, budget⟩ bounded
            refine ⟨reads.cons true rfl (by simp [mentions_of_leaf leaf]) (by simp), ?_⟩
            rw [if_neg (lt_irrefl _), entered, List.filter_cons_of_neg]
            · rfl
            · simp [(children_eq_nil_iff node).mpr leaf]
          · have parent := mt (children_eq_nil_iff node).mp inner
            rw [visit, Forest.opened, Forest.visits_open parent opens, length_children]
            obtain ⟨reads, entered⟩ := ih ⟨_, _, _, truncated, _⟩ ((Nat.sub_le _ _).trans bounded)
            refine ⟨reads.cons true rfl (by simp) (by simp), ?_⟩
            have paid : budget - (entries node.value).length < budget := by
              have some := List.length_pos_iff.mpr inner
              have enough : (entries node.value).length ≤ budget := opens.2
              omega
            rw [if_pos paid, entered, List.filter_cons_of_pos]
            · rfl
            · simpa using parent
          · have parent := mt (children_eq_nil_iff node).mp inner
            rw [visit, Forest.opened, Forest.visits_cut parent shut]
            obtain ⟨reads, entered⟩ := ih ⟨stack, _, mentioned, true, budget⟩ bounded
            refine ⟨reads.cons false rfl (by simp) (by simp), ?_⟩
            rw [if_neg (lt_irrefl _), entered, List.filter_cons_of_neg]
            · rfl
            · simp

theorem Walk.run_stack {n : Nat} {w : Walk N} (bounded : w.budget ≤ claimValueMaxEntries)
    (enough : w.stack.length + w.budget ≤ n) : (w.run n).stack = [] := by
  induction n generalizing w with
  | zero =>
      show w.stack = []
      exact List.length_eq_zero_iff.mp (by omega)
  | succ n ih =>
      obtain ⟨stack, found, mentioned, truncated, budget⟩ := w
      cases stack with
      | nil => rfl
      | cons node stack =>
          have room : stack.length + budget ≤ n := by
            simp only [List.length_cons] at enough
            omega
          have run : Walk.run (n + 1) ⟨node :: stack, found, mentioned, truncated, budget⟩ =
            Walk.run n (visit ⟨stack, found, mentioned, truncated, budget⟩ node) := rfl
          rw [run]
          rcases Walk.visit_cases ⟨stack, found, mentioned, truncated, budget⟩ node bounded with
            ⟨_, visit⟩ | ⟨_, opens, visit⟩ | ⟨_, _, visit⟩
          · rw [visit]
            exact ih bounded room
          · rw [visit]
            have paid : (entries node.value).length ≤ budget := opens.2
            apply ih ((Nat.sub_le _ _).trans bounded)
            simp only [List.length_append, length_children]
            omega
          · rw [visit]
            exact ih bounded room

theorem start_stack (value : Json N) (label : Str) : ((start value label).run fuel).stack = [] :=
  Walk.run_stack le_rfl (by simp [start, fuel, Nat.add_comm])

/-! ## The answers -/

theorem mem_occurrences_iff {value : Json N} {label : Str} {node : Node N} :
    node ∈ occurrences value label ↔ Within (root value label) node := by
  rw [occurrences, Forest.mem_preorder_iff]
  constructor
  · intro below
    induction below with
    | refl => exact .top
    | @tail parent child _ step ih =>
        obtain ⟨v, path, depth⟩ := parent
        obtain ⟨entry, inside, rfl⟩ := List.mem_map.mp step
        cases v with
        | object members => exact .member ih ((byKey_perm members).mem_iff.mp inside)
        | array items =>
            obtain ⟨i, bound, rfl⟩ := List.mem_mapIdx.mp inside
            exact .item ih (List.getElem?_eq_getElem bound)
        | _ => cases inside
  · intro within
    induction within with
    | top => exact .refl
    | @member members path depth key child _ inside ih =>
        refine .tail ih (List.mem_map.mpr ⟨(key, child), ?_, rfl⟩)
        exact (byKey_perm members).mem_iff.mpr inside
    | @item items path depth i child _ inside ih =>
        refine .tail ih (List.mem_map.mpr ⟨(Str.ofNat i, child), ?_, rfl⟩)
        obtain ⟨bound, rfl⟩ := List.getElem?_eq_some_iff.mp inside
        exact List.mem_mapIdx.mpr ⟨i, bound, rfl⟩

/-- The walk of a whole value, read off the search. -/
noncomputable def visited (value : Json N) (label : Str) : List (Node N × Bool) :=
  forest.visits Opens fuel [root value label] claimValueMaxEntries

theorem walk_eq (value : Json N) (label : Str) : walkClaimValue value label =
    ((visited value label).filterMap fun e => reported e.1,
      (visited value label).any fun e => e.2 && mentions e.1,
      (visited value label).any fun e => !e.2) := by
  have reads := (Walk.run_reads fuel (start value label) le_rfl).1
  rw [walkClaimValue, reads.found, reads.mentionsAuthorisation, reads.truncated]
  rfl

theorem whole_iff (value : Json N) (label : Str) : (walkClaimValue value label).2.2 = false ↔
    ∀ e ∈ visited value label, e.2 = true := by
  rw [walk_eq]
  simp

theorem inner_root (value : Json N) (label : Str) :
    forest.inner [root value label] = containers value label := by
  rw [containers, occurrences, Forest.inner, Forest.preorders, List.flatMap_singleton]
  apply List.filter_congr
  intro node _
  rw [forest, List.isEmpty_map]

theorem opened_eq_containers_iff (value : Json N) (label : Str) :
    (start value label).opened fuel = containers value label ↔
      ∀ e ∈ visited value label, e.2 = true := by
  rw [(Walk.run_reads fuel (start value label) le_rfl).2, ← inner_root]
  exact Forest.opened_eq_inner_iff affordable (by simp [start, fuel, Nat.add_comm])

theorem visited_whole {value : Json N} {label : Str}
    (whole : (walkClaimValue value label).2.2 = false) :
    visited value label = (occurrences value label).map fun node => (node, true) := by
  rw [whole_iff] at whole
  have enough : [root value label].length + claimValueMaxEntries ≤ fuel := by simp [fuel, Nat.add_comm]
  have all := Forest.visits_complete affordable enough whole
  rw [Forest.preorders, List.flatMap_singleton] at all
  rw [occurrences, ← all, List.map_map]
  nth_rewrite 1 [← List.map_id (visited value label)]
  apply List.map_congr_left
  intro e member
  exact Prod.ext rfl (whole e member)

theorem found_of_whole {value : Json N} {label : Str}
    (whole : (walkClaimValue value label).2.2 = false) :
    (walkClaimValue value label).1 = (occurrences value label).filterMap reported := by
  rw [walk_eq, visited_whole whole, List.filterMap_map]
  rfl

theorem mentions_of_whole {value : Json N} {label : Str}
    (whole : (walkClaimValue value label).2.2 = false) :
    (walkClaimValue value label).2.1 = (occurrences value label).any mentions := by
  rw [walk_eq, visited_whole whole, List.any_map]
  rfl

theorem mem_found_iff {value : Json N} {label : Str}
    (whole : (walkClaimValue value label).2.2 = false) {path source : Str} :
    (path, source) ∈ (walkClaimValue value label).1 ↔ ∃ node, Within (root value label) node ∧
      node.path = path ∧ declaredProvenanceSource node.value = some source := by
  rw [found_of_whole whole, List.mem_filterMap]
  constructor
  · rintro ⟨node, occurs, report⟩
    obtain ⟨_, declares, same⟩ := Option.map_eq_some_iff.mp report
    obtain ⟨rfl, rfl⟩ := Prod.mk.inj same
    exact ⟨node, mem_occurrences_iff.mp occurs, rfl, declares⟩
  · rintro ⟨node, within, rfl, declares⟩
    exact ⟨node, mem_occurrences_iff.mpr within, by rw [reported, declares]; rfl⟩

theorem mentions_iff {node : Node N} : mentions node = true ↔
    ∃ members, node.value = .object members ∧
      ∃ key ∈ Dict.keys members, trimmed key ∈ discountAuthorisationClaimKeys := by
  obtain ⟨value, path, depth⟩ := node
  cases value with
  | object members =>
      simp only [mentions, isMapping, Bool.true_and, List.any_eq_true, isAuthorisationKey,
        decide_eq_true_eq, Json.object.injEq, exists_eq_left', Dict.keys, List.mem_map]
      constructor
      · rintro ⟨entry, inside, states⟩
        exact ⟨entry.1, ⟨entry, (byKey_perm members).mem_iff.mp inside, rfl⟩, states⟩
      · rintro ⟨key, ⟨entry, inside, rfl⟩, states⟩
        exact ⟨entry, (byKey_perm members).mem_iff.mpr inside, states⟩
  | _ => simp [mentions, isMapping]

theorem mem_mentions_iff {value : Json N} {label : Str}
    (whole : (walkClaimValue value label).2.2 = false) :
    (walkClaimValue value label).2.1 = true ↔ ∃ node members, Within (root value label) node ∧
      node.value = .object members ∧
        ∃ key ∈ Dict.keys members, trimmed key ∈ discountAuthorisationClaimKeys := by
  rw [mentions_of_whole whole, List.any_eq_true]
  constructor
  · rintro ⟨node, occurs, states⟩
    obtain ⟨members, spelled, states⟩ := mentions_iff.mp states
    exact ⟨node, members, mem_occurrences_iff.mp occurs, spelled, states⟩
  · rintro ⟨node, members, within, spelled, states⟩
    exact ⟨node, mem_occurrences_iff.mpr within, mentions_iff.mpr ⟨members, spelled, states⟩⟩

/-! ## The order of the members -/

section Order

variable {R : N → N → Prop}

/-- Two stack entries that differ in the order of members only. -/
structure Alike (R : N → N → Prop) (a b : Node N) : Prop where
  path : a.path = b.path
  depth : a.depth = b.depth
  same : Json.Same R a.value b.value
  keyed : a.value.Keyed
  keyed' : b.value.Keyed

theorem isMapping_eq {v w : Json N} (same : Json.Same R v w) : isMapping v = isMapping w := by
  cases same <;> rfl

theorem declaredProvenanceSource_eq {v w : Json N} (same : Json.Same R v w) :
    declaredProvenanceSource v = declaredProvenanceSource w := by
  have source := same.get (str "source")
  cases same with
  | @object xs ys _ _ =>
      unfold declaredProvenanceSource
      generalize (Json.object xs).get (str "source") = left at source ⊢
      generalize (Json.object ys).get (str "source") = right at source ⊢
      cases source <;> rfl
  | _ => rfl

theorem entries_related {v w : Json N} (same : Json.Same R v w) (keyed : v.Keyed)
    (keyed' : w.Keyed) : List.Forall₂ (fun a b => a.1 = b.1 ∧
      Json.Same R a.2 b.2 ∧ a.2.Keyed ∧ b.2.Keyed) (entries v) (entries w) := by
  cases same with
  | @object xs ys present same =>
      apply byKey_related (R := fun v w => Json.Same R v w ∧ v.Keyed ∧ w.Keyed) str_order
        keyed.distinct keyed'.distinct (fun _ _ => trivial) present
      intro k v w left right
      exact ⟨same k v w left right, keyed.member (Dict.mem_of_get? left),
        keyed'.member (Dict.mem_of_get? right)⟩
  | @array xs ys length same =>
      rw [entries, entries, List.forall₂_iff_get]
      refine ⟨by rw [List.length_mapIdx, List.length_mapIdx, length], ?_⟩
      intro i left right
      rw [List.length_mapIdx] at left right
      simp only [List.get_eq_getElem, List.getElem_mapIdx]
      exact ⟨trivial, same i _ _ (List.getElem?_eq_getElem left) (List.getElem?_eq_getElem right),
        keyed.item (List.getElem_mem left), keyed'.item (List.getElem_mem right)⟩
  | _ => exact .nil

theorem children_related {a b : Node N} (alike : Alike R a b) :
    List.Forall₂ (Alike R) (forest.children a) (forest.children b) := by
  show List.Forall₂ _ (List.map _ _) (List.map _ _)
  rw [List.forall₂_map_left_iff, List.forall₂_map_right_iff, isMapping_eq alike.same]
  apply (entries_related alike.same alike.keyed alike.keyed').imp
  rintro x y ⟨key, same, keyed, keyed'⟩
  exact ⟨by rw [Node.child, Node.child, key, alike.path], by rw [Node.child, Node.child, alike.depth],
    same, keyed, keyed'⟩

theorem mentions_eq {a b : Node N} (alike : Alike R a b) : mentions a = mentions b := by
  have keys : (entries a.value).map Prod.fst = (entries b.value).map Prod.fst := by
    rw [← List.forall₂_eq_eq_eq, List.forall₂_map_left_iff, List.forall₂_map_right_iff]
    exact (entries_related alike.same alike.keyed alike.keyed').imp fun _ _ h => h.1
  have any (l : List (Str × Json N)) :
      l.any (fun e => isAuthorisationKey e.1) = (l.map Prod.fst).any isAuthorisationKey := by
    rw [List.any_map]
    rfl
  rw [mentions, mentions, isMapping_eq alike.same, any, any, keys]

theorem walk_related {v w : Json N} (same : Json.Same R v w) (keyed : v.Keyed) (keyed' : w.Keyed)
    (label : Str) : walkClaimValue v label = walkClaimValue w label := by
  have visits : List.Forall₂ (fun e e' => Alike R e.1 e'.1 ∧ e.2 = e'.2) (visited v label)
      (visited w label) := by
    apply Forest.visits_related (fun _ _ => children_related)
    · intro a b alike budget
      have lengths := (entries_related alike.same alike.keyed alike.keyed').length_eq
      rw [Opens, Opens, alike.depth, lengths]
    · exact .cons ⟨rfl, rfl, same, keyed, keyed'⟩ .nil
  rw [walk_eq, walk_eq]
  generalize visited v label = left at visits ⊢
  generalize visited w label = right at visits ⊢
  induction visits with
  | nil => rfl
  | @cons e e' rest rest' head _ ih =>
      obtain ⟨alike, through⟩ := head
      obtain ⟨found, tail⟩ := Prod.mk.inj ih
      obtain ⟨mentioned, truncated⟩ := Prod.mk.inj tail
      have report : reported e.1 = reported e'.1 := by
        rw [reported, reported, declaredProvenanceSource_eq alike.same, alike.path]
      rw [List.filterMap_cons, List.filterMap_cons, List.any_cons, List.any_cons, List.any_cons,
        List.any_cons, report, found, mentioned, truncated, through, mentions_eq alike]

end Order

end ClaimValue
end Proxyshop.Contracts
