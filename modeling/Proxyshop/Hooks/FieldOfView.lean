import Proxyshop.Hooks.Material

/-!
# The field of view of the boundary

Which parts of a structure, with shared nodes and cycles, the walk looks at, and when nothing of interest
lies outside of them.
-/

namespace Proxyshop.Hooks

open Python Structures
open Viewed

section Errands

variable {N ι : Type} [Viewed N ι] {v : Visit N}

/-! ## What a visit records -/

theorem structuralFields_eq_nil {node : N} :
    (structuralFields node).isEmpty = true ↔ ∀ name ∈ knownFields, isPresent node name = false := by
  simp [structuralFields, List.filter_eq_nil_iff]

theorem mapping_of_held {node child : N} {name : Str} (holds : held node name = some child) :
    ∃ members, view node = .mapping members ∧ Dict.get? members name = some child := by
  unfold held at holds
  split at holds
  · exact ⟨_, ‹_›, holds⟩
  · cases holds

theorem held_of_stated {node child : N} {name : Str} (states : stated node name = some child) :
    held node name = some child := (Option.filter_eq_some_iff.mp states).1

theorem not_null_of_held {node child : N} {name : Str} (holds : held node name = some child) :
    isNull node = false := by
  obtain ⟨members, mapping, -⟩ := mapping_of_held holds
  rw [isNull, mapping]

theorem present_of_held {node child : N} {name : Str} (holds : held node name = some child) :
    isPresent node name = true := by rw [isPresent, holds]; rfl

theorem container_of_held {node child : N} {name : Str} (known : name ∈ knownFields)
    (holds : held node name = some child) : (structuralFields node).isEmpty = false := by
  rw [← Bool.not_eq_true, structuralFields_eq_nil]
  intro none
  have absent := none name known
  rw [present_of_held holds] at absent
  cases absent

theorem errands_of_carries (some : isNull v.node = false) (carries : isLeaf v.node = false) :
    v.errands = v.nulls ++ ((if isClaimShaped v.node then [.found (.disguise v)] else []) ++
      if (structuralFields v.node).isEmpty then v.plain else v.container) := by
  rw [Visit.errands, some, carries]
  rfl

theorem errands_of_leaf (leaf : isLeaf v.node = true) : v.errands = v.nulls ++ [.found (.claim v)] := by
  have some : isNull v.node = false := by
    simp only [isLeaf, Bool.and_eq_true] at leaf
    obtain ⟨child, states⟩ := Option.isSome_iff_exists.mp (Bool.and_eq_true_iff.mp leaf.1.1).1
    exact not_null_of_held (held_of_stated states)
  rw [Visit.errands, some, leaf]
  rfl

def Record.site : Record N → Visit N
  | .claim site | .discount site _ | .price site _ | .total site _ | .disguise site | .unwalkable site _ _ => site

def Record.IsCycle : Record N → Prop
  | .unwalkable _ _ .cycle => True
  | _ => False

def OfItself (v : Visit N) : Errand (Record N) (Visit N) → Prop
  | .found record => record.site = v ∧ ¬ record.IsCycle
  | .call _ => True

theorem ofItself_errands : ∀ e ∈ v.errands, OfItself v e := by
  have claim : OfItself v (.found (.claim v)) := ⟨rfl, not_false⟩
  have disguise : OfItself v (.found (.disguise v)) := ⟨rfl, not_false⟩
  have discount : ∀ e ∈ v.ownDiscount, OfItself v e := by
    simp [Visit.ownDiscount, OfItself, Record.site, Record.IsCycle]
  have price : ∀ e ∈ v.ownPrice, OfItself v e := by
    simp [Visit.ownPrice, OfItself, Record.site, Record.IsCycle]
  have total : ∀ e ∈ v.ownTotal, OfItself v e := by
    simp [Visit.ownTotal, OfItself, Record.site, Record.IsCycle]
  have nested : ∀ e ∈ v.nested, OfItself v e := by
    intro e member
    obtain ⟨name, -, made⟩ := List.mem_filterMap.mp member
    obtain ⟨child, -, rfl⟩ := Option.map_eq_some_iff.mp made
    trivial
  have sweep : ∀ e ∈ v.sweep, OfItself v e := by
    unfold Visit.sweep
    split
    · intro e member
      obtain ⟨entry, -, rfl⟩ := List.mem_map.mp member
      trivial
    · exact List.forall_mem_nil _
  have nulls : ∀ e ∈ v.nulls, OfItself v e := by
    unfold Visit.nulls
    split
    · exact List.forall_mem_nil _
    · intro e member
      obtain ⟨name, -, rfl⟩ := List.mem_map.mp member
      exact ⟨rfl, not_false⟩
  have plain : ∀ e ∈ v.plain, OfItself v e := by
    unfold Visit.plain
    refine List.forall_mem_append.mpr ⟨?_, ?_⟩
    · split
      · exact List.forall_mem_append.mpr ⟨price, total⟩
      · exact List.forall_mem_nil _
    · split
      · intro e member
        obtain ⟨index, child, rfl⟩ := List.mem_mapIdx.mp member
        trivial
      · split
        · simpa using claim
        · exact sweep
  have container : ∀ e ∈ v.container, OfItself v e := by
    simp only [Visit.container, List.forall_mem_append]
    exact ⟨⟨⟨⟨nested, discount⟩, price⟩, total⟩, sweep⟩
  unfold Visit.errands
  split
  · exact List.forall_mem_nil _
  · refine List.forall_mem_append.mpr ⟨nulls, ?_⟩
    split
    · simpa using claim
    · refine List.forall_mem_append.mpr ⟨?_, ?_⟩
      · split
        · simpa using disguise
        · exact List.forall_mem_nil _
      · split
        · exact plain
        · exact container

/-! ## Where a visit goes -/

/-- The nodes that a visit goes on to, and whether it takes them for the places of claims. -/
inductive Turns (node : N) (strict : Bool) : N → Bool → Prop
  | item {items : List N} {child : N} (sequence : view node = .sequence items) (member : child ∈ items) :
      Turns node strict child strict
  | nested {name : Str} {child : N} (listed : name ∈ claimBearingFields ++ nestedObjectFields)
      (holds : held node name = some child) : Turns node strict child true
  | swept {members : Dict Str N} {name : Str} {child : N} (mapping : view node = .mapping members)
      (member : (name, child) ∈ members) (unknown : name ∉ knownFields) (carries : isLeaf node = false)
      (sweeps : strict = false ∨ (structuralFields node).isEmpty = false) : Turns node strict child false

variable {next : Visit N} {child : N} {strict : Bool}

theorem call_nested : .call next ∈ v.nested ↔ ∃ name ∈ claimBearingFields ++ nestedObjectFields,
    ∃ child, held v.node name = some child ∧ v.member name child true (shapeOf name) = next := by
  simp only [Visit.nested, List.mem_filterMap, Option.map_eq_some_iff, Errand.call.injEq]

theorem call_sweep : .call next ∈ v.sweep ↔ ∃ members, view v.node = .mapping members ∧
    ∃ entry ∈ members, entry.1 ∉ knownFields ∧ v.member entry.1 entry.2 false none = next := by
  unfold Visit.sweep
  cases view v.node <;> simp [and_assoc]

theorem not_call_nulls : .call next ∉ v.nulls := by
  unfold Visit.nulls
  cases v.shape <;> simp

theorem call_container : .call next ∈ v.container ↔ .call next ∈ v.nested ∨ .call next ∈ v.sweep := by
  simp [Visit.container, Visit.ownDiscount, Visit.ownPrice, Visit.ownTotal]

theorem call_plain : .call next ∈ v.plain ↔
    (∃ items, view v.node = .sequence items ∧
      ∃ (i : Nat) (inside : i < items.length), v.item i items[i] = next) ∨
    (v.strict = false ∧ .call next ∈ v.sweep) := by
  have money : .call next ∉ if isPriced v.node then v.ownPrice ++ v.ownTotal else [] := by
    split <;> simp [Visit.ownPrice, Visit.ownTotal]
  rw [Visit.plain, List.mem_append, or_iff_right money]
  cases shape : view v.node with
  | sequence items => simp [call_sweep, shape, List.mem_mapIdx]
  | _ => cases v.strict <;> simp

theorem call_errands : .call next ∈ v.errands ↔ isNull v.node = false ∧ isLeaf v.node = false ∧
    .call next ∈ if (structuralFields v.node).isEmpty then v.plain else v.container := by
  cases none : isNull v.node with
  | true => simp [Visit.errands, none]
  | false =>
      cases leaf : isLeaf v.node with
      | true => simp [errands_of_leaf leaf, not_call_nulls]
      | false =>
          rw [errands_of_carries none leaf]
          cases isClaimShaped v.node <;> simp [not_call_nulls]

theorem turns_of_call (call : .call next ∈ v.errands) : Turns v.node v.strict next.node next.strict := by
  obtain ⟨some, carries, call⟩ := call_errands.mp call
  cases bare : (structuralFields v.node).isEmpty with
  | true =>
      rw [bare, if_pos rfl, call_plain] at call
      rcases call with ⟨items, sequence, i, inside, rfl⟩ | ⟨lax, call⟩
      · exact .item sequence (List.getElem_mem inside)
      · obtain ⟨members, mapping, entry, member, unknown, rfl⟩ := call_sweep.mp call
        exact .swept mapping member unknown carries (.inl lax)
  | false =>
      rw [bare, if_neg Bool.false_ne_true, call_container] at call
      rcases call with call | call
      · obtain ⟨name, listed, child, holds, rfl⟩ := call_nested.mp call
        exact .nested listed holds
      · obtain ⟨members, mapping, entry, member, unknown, rfl⟩ := call_sweep.mp call
        exact .swept mapping member unknown carries (.inr bare)

theorem call_of_turns (turns : Turns v.node v.strict child strict) :
    ∃ next, .call next ∈ v.errands ∧ next.node = child ∧ next.strict = strict := by
  cases turns with
  | @item items child sequence member =>
      obtain ⟨i, inside, rfl⟩ := List.mem_iff_getElem.mp member
      refine ⟨v.item i items[i], call_errands.mpr ⟨?_, ?_, ?_⟩, rfl, rfl⟩
      · rw [isNull, sequence]
      · simp [isLeaf, isClaimShaped, stated, held, sequence]
      · have bare : (structuralFields v.node).isEmpty = true := by
          simp only [structuralFields_eq_nil, isPresent, held, sequence]
          exact fun _ _ => rfl
        rw [bare, if_pos rfl, call_plain]
        exact .inl ⟨items, sequence, i, inside, rfl⟩
  | @nested name child listed holds =>
      have full := container_of_held (List.mem_append_left _ listed) holds
      refine ⟨v.member name child true (shapeOf name), call_errands.mpr ⟨?_, ?_, ?_⟩, rfl, rfl⟩
      · exact not_null_of_held holds
      · rw [isLeaf, full]
        simp
      · rw [full, if_neg Bool.false_ne_true, call_container, call_nested]
        exact .inl ⟨name, listed, child, holds, rfl⟩
  | @swept members name child mapping member unknown carries sweeps =>
      have call : .call (v.member name child false none) ∈ v.sweep :=
        call_sweep.mpr ⟨members, mapping, _, member, unknown, rfl⟩
      refine ⟨v.member name child false none, call_errands.mpr ⟨?_, carries, ?_⟩, rfl, rfl⟩
      · rw [isNull, mapping]
      · cases bare : (structuralFields v.node).isEmpty with
        | true =>
            rw [if_pos rfl, call_plain]
            rcases sweeps with lax | full
            · exact .inr ⟨lax, call⟩
            · rw [bare] at full
              cases full
        | false =>
            rw [if_neg Bool.false_ne_true, call_container]
            exact .inr call

/-! ## What lies in sight -/

variable [DecidableEq ι]

/-- What the walk comes to on a way from what is presented, with the objects that it is then inside of. -/
inductive InSight (presented : N) : List ι → N → Bool → Prop
  | root : InSight presented [] presented true
  | turn {seen : List ι} {node child : N} {strict strict' : Bool} (before : InSight presented seen node strict)
      (fresh : ∀ i ∈ ident node, i ∉ seen) (turns : Turns node strict child strict') :
      InSight presented ((ident node).toList ++ seen) child strict'

variable {presented node : N} {seen : List ι}

def Fresh (seen : List ι) (node : N) : Prop := ∀ i ∈ ident node, i ∉ seen

omit [DecidableEq ι] in
theorem not_closes : ¬ Closes Visit.ident seen v ↔ Fresh seen v.node := by
  simp [Closes, Fresh, Visit.ident]

abbrev Visited (presented : N) : List ι → Visit N → Prop := Called Visit.errands Visit.ident (.root presented)

omit [DecidableEq ι] in
theorem inSight_of_visited (visited : Visited presented seen v) : InSight presented seen v.node v.strict := by
  induction visited with
  | root => exact .root
  | call before opens errand ih => exact ih.turn (not_closes.mp opens) (turns_of_call errand)

omit [DecidableEq ι] in
theorem visited_of_inSight (sees : InSight presented seen node strict) :
    ∃ v, Visited presented seen v ∧ v.node = node ∧ v.strict = strict := by
  induction sees with
  | root => exact ⟨.root presented, .root, rfl, rfl⟩
  | turn before fresh turns ih =>
      obtain ⟨v, visited, rfl, rfl⟩ := ih
      obtain ⟨next, call, rfl, rfl⟩ := call_of_turns turns
      exact ⟨next, visited.call (not_closes.mpr fresh) call, rfl, rfl⟩

/-! ## What is recorded -/

omit [DecidableEq ι] in
theorem not_leaf_of_priced (priced : isPriced v.node = true) : isLeaf v.node = false := by simp [isLeaf, priced]

omit [DecidableEq ι] in
theorem some_of_priced (priced : isPriced v.node = true) : isNull v.node = false := by
  obtain ⟨child, states⟩ := Option.isSome_iff_exists.mp (Bool.and_eq_true_iff.mp priced).1
  exact not_null_of_held (held_of_stated states)

omit [DecidableEq ι] in
theorem found_money (priced : isPriced v.node = true) {e : Errand (Record N) (Visit N)}
    (own : e ∈ v.ownPrice ++ v.ownTotal) : e ∈ v.errands := by
  rw [errands_of_carries (some_of_priced priced) (not_leaf_of_priced priced)]
  refine List.mem_append_right _ (List.mem_append_right _ ?_)
  split
  · rw [Visit.plain, if_pos priced]
    exact List.mem_append_left _ own
  · simp only [Visit.container, List.mem_append] at own ⊢
    tauto

omit [DecidableEq ι] in
theorem found_price {price : N} (priced : isPriced v.node = true) (states : stated v.node priceField = some price) :
    .found (.price v price) ∈ v.errands :=
  found_money priced (by simp [Visit.ownPrice, states])

omit [DecidableEq ι] in
theorem found_total {total : N} (priced : isPriced v.node = true)
    (states : stated v.node totalPriceField = some total) : .found (.total v total) ∈ v.errands :=
  found_money priced (by simp [Visit.ownTotal, states])

omit [DecidableEq ι] in
theorem found_discount {discount : N} (states : stated v.node discountField = some discount) :
    .found (.discount v discount) ∈ v.errands := by
  have holds := held_of_stated states
  have full := container_of_held (by simp [knownFields]) holds
  have carries : isLeaf v.node = false := by
    rw [isLeaf, full]
    simp
  rw [errands_of_carries (not_null_of_held holds) carries, full, if_neg Bool.false_ne_true]
  simp [Visit.container, Visit.ownDiscount, states]

omit [DecidableEq ι] in
theorem found_identity (shaped : isClaimShaped v.node = true) :
    .found (.claim v) ∈ v.errands ∨ .found (.disguise v) ∈ v.errands := by
  cases leaf : isLeaf v.node with
  | true => exact .inl (by simp [errands_of_leaf leaf])
  | false =>
      obtain ⟨child, states⟩ := Option.isSome_iff_exists.mp (Bool.and_eq_true_iff.mp shaped).1
      have some := not_null_of_held (held_of_stated states)
      exact .inr (by simp [errands_of_carries some leaf, shaped])

section Finished

variable {limit : Nat} (finished : (walk limit presented).finished = true)
include finished

theorem mem_material {r : Record N} : r ∈ collectClaimMaterial limit presented ↔
    ∃ seen v, Visited presented seen v ∧ Records Visit.errands Visit.ident Visit.closed seen v r := by
  simp only [collectClaimMaterial]
  rw [if_pos finished]
  exact mem_guardedWalk finished

theorem mem_material_of_fresh (sees : InSight presented seen node strict) (fresh : Fresh seen node) :
    ∃ v : Visit N, v.node = node ∧ ∀ r, .found r ∈ v.errands → r ∈ collectClaimMaterial limit presented := by
  obtain ⟨v, visited, rfl, -⟩ := visited_of_inSight sees
  exact ⟨v, rfl, fun r found => (mem_material finished).mpr ⟨seen, v, visited, .inr ⟨not_closes.mpr fresh, found⟩⟩⟩

theorem fresh_of_mem_material {r : Record N} (member : r ∈ collectClaimMaterial limit presented)
    (kind : ¬ r.IsCycle) : ∃ seen strict, InSight presented seen r.site.node strict ∧ Fresh seen r.site.node := by
  obtain ⟨seen, v, visited, ⟨-, rfl⟩ | ⟨opens, found⟩⟩ := (mem_material finished).mp member
  · exact absurd trivial kind
  · obtain ⟨itself, -⟩ := ofItself_errands _ found
    rw [itself]
    exact ⟨seen, v.strict, inSight_of_visited visited, not_closes.mp opens⟩

theorem cycle_material (member : ∃ path, (.unwalkable v path .cycle : Record N) ∈ collectClaimMaterial limit presented) :
    ∃ seen strict, InSight presented seen v.node strict ∧ ¬ Fresh seen v.node := by
  obtain ⟨path, member⟩ := member
  obtain ⟨seen, v', visited, ⟨closes, same⟩ | ⟨-, found⟩⟩ := (mem_material finished).mp member
  · cases same
    exact ⟨seen, v.strict, inSight_of_visited visited, fun fresh => not_closes.mpr fresh closes⟩
  · exact absurd trivial (ofItself_errands _ found).2

theorem material_cycle (sees : InSight presented seen node strict) (stale : ¬ Fresh seen node) :
    ∃ (v : Visit N) (path : Str), v.node = node ∧ (.unwalkable v path .cycle : Record N) ∈ collectClaimMaterial limit presented := by
  obtain ⟨v, visited, rfl, -⟩ := visited_of_inSight sees
  have closes := not_not.mp (mt not_closes.mp stale)
  exact ⟨v, _, rfl, (mem_material finished).mpr ⟨seen, v, visited, .inl ⟨closes, rfl⟩⟩⟩

end Finished
end Errands
end Proxyshop.Hooks
