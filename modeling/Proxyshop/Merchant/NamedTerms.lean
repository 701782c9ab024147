import Proxyshop.Merchant.Wording

/-!
# The terms a digest names

Two envelopes have one canonical text where they have the same terms: in any order of their lists, with
the members of a commitment in any order and a member without a value left out or null.
-/

namespace Proxyshop.Merchant

open Python Numbers Contracts Structures Hashing

/-- Equal up to the order of members, where an absent member reads as null, and to `R` on the numbers. -/
inductive Restates {F : Type} (R : Literal F → Literal F → Prop) : Wire F → Wire F → Prop
  | null : Restates R .null .null
  | bool (b : Bool) : Restates R (.bool b) (.bool b)
  | number {m n : Literal F} : R m n → Restates R (.number m) (.number n)
  | string (s : Str) : Restates R (.string s) (.string s)
  | array {xs ys : List (Wire F)} : xs.length = ys.length →
      (∀ (i : Nat) v w, xs[i]? = some v → ys[i]? = some w → Restates R v w) → Restates R (.array xs) (.array ys)
  | object {xs ys : Dict Str (Wire F)} :
      (∀ k, Restates R (Json.get (.object xs) k) (Json.get (.object ys) k)) → Restates R (.object xs) (.object ys)

/-- The second list can be put in an order in which it matches the first. -/
def Matched {α β : Type} (R : α → β → Prop) (l : List α) (m : List β) : Prop :=
  ∃ m', m.Perm m' ∧ List.Forall₂ R l m'

/-- The same store, version and caps, and the same multisets of floors, clusters and commitments. -/
structure SameTerms {F : Type} (R : Literal F → Literal F → Prop) (t u : Terms F) : Prop where
  storeId : t.storeId = u.storeId
  version : t.version = u.version
  floors : t.floors.Perm u.floors
  maxDiscountPct : t.maxDiscountPct = u.maxDiscountPct
  budgetCap : t.budgetCap = u.budgetCap
  pursueClusters : t.pursueClusters.Perm u.pursueClusters
  standingCommitments : Matched (Restates R) t.standingCommitments u.standingCommitments

section Alikeness

variable {F : Type} {R : Literal F → Literal F → Prop}

theorem Restates.get {v w : Wire F} (alike : Restates R v w) (key : Str) : Restates R (v.get key) (w.get key) := by
  cases alike with
  | object alike => exact alike key
  | _ => exact .null

theorem Restates.array_of_forall₂ {xs ys : List (Wire F)} (pairs : List.Forall₂ (Restates R) xs ys) :
    Restates R (.array xs) (.array ys) := by
  refine .array pairs.length_eq ?_
  intro i v w left right
  obtain ⟨bound, rfl⟩ := List.getElem?_eq_some_iff.mp left
  obtain ⟨bound', rfl⟩ := List.getElem?_eq_some_iff.mp right
  exact (List.forall₂_iff_get.mp pairs).2 i bound bound'

theorem Restates.forall₂ {xs ys : List (Wire F)} (alike : Restates R (.array xs) (.array ys)) :
    List.Forall₂ (Restates R) xs ys := by
  cases alike with
  | array length alike =>
      refine List.forall₂_iff_get.mpr ⟨length, ?_⟩
      intro i left right
      exact alike i _ _ (List.getElem?_eq_getElem left) (List.getElem?_eq_getElem right)

theorem alike_of_same {v w : Wire F} (same : Json.Same R v w) : Restates R v w := by
  induction same with
  | null => exact .null
  | bool b => exact .bool b
  | number same => exact .number same
  | string s => exact .string s
  | array length _ ih => exact .array length ih
  | @object xs ys present _ ih =>
      refine .object fun k => ?_
      have both := present k
      rw [Json.get_object, Json.get_object]
      cases left : Dict.get? xs k with
      | none =>
          cases right : Dict.get? ys k with
          | none => exact .null
          | some w => simp [left, right] at both
      | some v =>
          cases right : Dict.get? ys k with
          | none => simp [left, right] at both
          | some w => exact ih k v w left right

/-! ## The canonical form -/

theorem canonicalItems_eq_map (items : List (Wire F)) : canonicalItems items = items.map canonical := by
  induction items with
  | nil => rfl
  | cons v items ih => rw [canonicalItems, ih, List.map_cons]

theorem canonicalMembers_eq_map (members : Dict Str (Wire F)) : canonicalMembers members =
    (members.filter fun e => !e.2.isNull).map fun e => (e.1, canonical e.2) := by
  induction members with
  | nil => rfl
  | cons e members ih =>
      rw [canonicalMembers, ih, List.filter_cons]
      cases e.2.isNull <;> rfl

theorem canonical_array (items : List (Wire F)) : canonical (.array items) = .array (items.map canonical) := by
  rw [canonical, canonicalItems_eq_map]

theorem canonical_object (members : Dict Str (Wire F)) : canonical (.object members) =
    .object (byKey Str.le ((members.filter fun e => !e.2.isNull).map fun e => (e.1, canonical e.2))) := by
  rw [canonical, canonicalMembers_eq_map]

theorem isNull_canonical (v : Wire F) : (canonical v).isNull = v.isNull := by
  cases v with
  | array items => rw [canonical_array]; rfl
  | object members => rw [canonical_object]; rfl
  | _ => rw [canonical] <;> exact nofun

theorem nodup_stated {members : Dict Str (Wire F)} (distinct : (Dict.keys members).Nodup) :
    (Dict.keys ((members.filter fun e => !e.2.isNull).map fun e => (e.1, canonical e.2))).Nodup := by
  rw [Dict.keys, List.map_map]
  exact distinct.sublist ((List.filter_sublist).map Prod.fst)

theorem keyed_canonical {v : Wire F} (keyed : v.Keyed) : (canonical v).Keyed := by
  induction keyed with
  | array _ ih =>
      rw [canonical_array]
      refine .array ?_
      rw [List.forall_mem_map]
      exact ih
  | object distinct _ ih =>
      rw [canonical_object]
      refine .object (nodup_byKey (nodup_stated distinct)) ?_
      intro e member
      obtain ⟨e', kept, rfl⟩ := List.mem_map.mp ((byKey_perm _).mem_iff.mp member)
      exact ih e' (List.mem_of_mem_filter kept)
  | null => rw [canonical] <;> first | exact .null | exact nofun
  | bool b => rw [canonical] <;> first | exact .bool b | exact nofun
  | number n => rw [canonical] <;> first | exact .number n | exact nofun
  | string s => rw [canonical] <;> first | exact .string s | exact nofun

theorem get_canonical {members : Dict Str (Wire F)} (distinct : (Dict.keys members).Nodup) (key : Str) :
    (canonical (.object members)).get key = canonical (Json.get (.object members) key) := by
  have absent : canonical (.null : Wire F) = .null := by rw [canonical] <;> exact nofun
  rw [canonical_object, Json.get_object, get?_byKey (nodup_stated distinct), Json.get_object]
  cases found : Dict.get? members key with
  | none =>
      have gone : key ∉ Dict.keys
          ((members.filter fun e => !e.2.isNull).map fun e => (e.1, canonical e.2)) := by
        intro member
        rw [Dict.keys, List.map_map] at member
        exact (Dict.get?_eq_none_iff _ _).mp found ((List.filter_sublist.map Prod.fst).subset member)
      rw [(Dict.get?_eq_none_iff _ _).mpr gone]
      exact absent.symm
  | some v =>
      cases unstated : v.isNull with
      | false =>
          have member : (key, canonical v) ∈
              (members.filter fun e => !e.2.isNull).map fun e => (e.1, canonical e.2) := by
            refine List.mem_map.mpr ⟨(key, v), List.mem_filter.mpr ⟨Dict.mem_of_get? found, ?_⟩, rfl⟩
            exact congrArg not unstated
          rw [Dict.get?_of_mem (nodup_stated distinct) member]
          rfl
      | true =>
          have gone : key ∉ Dict.keys
              ((members.filter fun e => !e.2.isNull).map fun e => (e.1, canonical e.2)) := by
            intro member
            obtain ⟨e, kept, same⟩ := List.mem_map.mp member
            obtain ⟨e', kept', rfl⟩ := List.mem_map.mp kept
            obtain ⟨member', stated⟩ := List.mem_filter.mp kept'
            rw [← same, Dict.get?_of_mem distinct member'] at found
            rw [Option.some.inj found, unstated] at stated
            cases stated
          rw [(Dict.get?_eq_none_iff _ _).mpr gone, Json.isNull_iff.mp unstated]
          exact absent.symm

theorem same_of_get {xs ys : Dict Str (Wire F)} (stated : ∀ e ∈ xs, e.2.isNull = false)
    (stated' : ∀ e ∈ ys, e.2.isNull = false)
    (each : ∀ k, Json.Same R (Json.get (.object xs) k) (Json.get (.object ys) k)) :
    Json.Same R (.object xs) (.object ys) := by
  apply Json.same_object_iff.mpr
  intro k
  have both := each k
  rw [Json.get_object, Json.get_object] at both
  cases left : Dict.get? xs k with
  | none =>
      cases right : Dict.get? ys k with
      | none => exact .none
      | some w =>
          have given := stated' _ (Dict.mem_of_get? right)
          rw [left, right] at both
          dsimp only [Option.getD] at both given
          cases both
          cases given
  | some v =>
      have given := stated _ (Dict.mem_of_get? left)
      cases right : Dict.get? ys k with
      | none =>
          rw [left, right] at both
          dsimp only [Option.getD] at both given
          cases both
          cases given
      | some w =>
          rw [left, right] at both
          exact .some both

theorem stated_canonical {members : Dict Str (Wire F)} : ∀ e ∈ byKey Str.le
    ((members.filter fun e => !e.2.isNull).map fun e => (e.1, canonical e.2)), e.2.isNull = false := by
  intro e member
  obtain ⟨e', kept, rfl⟩ := List.mem_map.mp ((byKey_perm _).mem_iff.mp member)
  rw [isNull_canonical]
  simpa using (List.mem_filter.mp kept).2

theorem canonical_scalar {v : Wire F} (noArray : ∀ items, v ≠ .array items)
    (noObject : ∀ members, v ≠ .object members) : canonical v = v := by
  cases v with
  | array items => exact absurd rfl (noArray items)
  | object members => exact absurd rfl (noObject members)
  | _ => rw [canonical] <;> exact nofun

@[simp] theorem canonical_null : canonical (.null : Wire F) = .null := canonical_scalar nofun nofun

@[simp] theorem canonical_bool (b : Bool) : canonical (.bool b : Wire F) = .bool b :=
  canonical_scalar nofun nofun

@[simp] theorem canonical_number (n : Literal F) : canonical (.number n) = .number n :=
  canonical_scalar nofun nofun

@[simp] theorem canonical_string (s : Str) : canonical (.string s : Wire F) = .string s :=
  canonical_scalar nofun nofun

theorem same_of_alike {v w : Wire F} (alike : Restates R v w) (keyed : v.Keyed) (keyed' : w.Keyed) :
    Json.Same R (canonical v) (canonical w) := by
  induction alike with
  | null =>
      rw [canonical_null]
      exact .null
  | bool b =>
      rw [canonical_bool]
      exact .bool b
  | number same =>
      rw [canonical_number, canonical_number]
      exact .number same
  | string s =>
      rw [canonical_string]
      exact .string s
  | @array xs ys length _ ih =>
      rw [canonical_array, canonical_array]
      apply Json.Same.array_of_forall₂
      rw [List.forall₂_map_left_iff, List.forall₂_map_right_iff]
      refine List.forall₂_iff_get.mpr ⟨length, ?_⟩
      intro i left right
      exact ih i _ _ (List.getElem?_eq_getElem left) (List.getElem?_eq_getElem right)
        (keyed.item (List.getElem_mem left)) (keyed'.item (List.getElem_mem right))
  | @object xs ys _ ih =>
      have each (k : Str) := ih k (keyed.get k) (keyed'.get k)
      simp only [← get_canonical keyed.distinct, ← get_canonical keyed'.distinct] at each
      rw [canonical_object, canonical_object] at each ⊢
      exact same_of_get stated_canonical stated_canonical each

theorem initial_canonical (v : Wire F) : initial (canonical v) = initial v := by
  cases v with
  | array items =>
      rw [canonical_array]
      rfl
  | object members =>
      rw [canonical_object]
      rfl
  | _ => simp

theorem initial_of_same {v w : Wire F} (same : Json.Same R v w) : initial v = initial w := by
  cases same <;> rfl

theorem alike_of_canonical {v w : Wire F} (keyed : v.Keyed) (keyed' : w.Keyed)
    (same : Json.Same R (canonical v) (canonical w)) : Restates R v w := by
  have kinds : initial v = initial w := by
    rw [← initial_canonical v, ← initial_canonical w, initial_of_same same]
  induction keyed generalizing w with
  | null =>
      cases w <;> cases kinds
      exact .null
  | bool b =>
      cases w <;> cases kinds
      exact .bool b
  | number n =>
      cases w <;> cases kinds
      rw [canonical_number, canonical_number] at same
      cases same with
      | number same => exact .number same
  | string t =>
      cases w <;> cases kinds
      rw [canonical_string, canonical_string] at same
      cases same
      exact .string t
  | @array items _ ih =>
      cases w <;> cases kinds
      rename_i others
      rw [canonical_array, canonical_array] at same
      have pairs := same.forall₂
      rw [List.forall₂_map_left_iff, List.forall₂_map_right_iff] at pairs
      apply Restates.array_of_forall₂
      refine List.forall₂_iff_get.mpr ⟨pairs.length_eq, ?_⟩
      intro i left right
      have each := (List.forall₂_iff_get.mp pairs).2 i left right
      have kinds := initial_of_same each
      rw [initial_canonical, initial_canonical] at kinds
      exact ih _ (List.getElem_mem left) (keyed'.item (List.getElem_mem right)) each kinds
  | @object members distinct _ ih =>
      cases w <;> cases kinds
      rename_i others
      refine .object fun k => ?_
      have each := same.get k
      have kinds := initial_of_same each
      rw [get_canonical distinct, get_canonical keyed'.distinct] at each kinds
      rw [initial_canonical, initial_canonical] at kinds
      rw [Json.get_object] at each kinds ⊢
      cases found : Dict.get? members k with
      | none =>
          rw [found, Option.getD_none] at kinds
          generalize Json.get (.object others) k = other at kinds ⊢
          cases other <;> cases kinds
          exact .null
      | some v =>
          rw [found] at each kinds
          exact ih (k, v) (Dict.mem_of_get? found) (keyed'.get k) each kinds

end Alikeness

/-! ## Multisets that match -/

section Matching

variable {α β γ δ : Type}

theorem matched_map {R : γ → δ → Prop} {f : α → γ} {g : β → δ} {l : List α} {m : List β} :
    Matched R (l.map f) (m.map g) ↔ Matched (fun a b => R (f a) (g b)) l m := by
  constructor
  · rintro ⟨m', perm, pairs⟩
    have images : List.Forall₂ (fun b d => g b = d) m (m.map g) := by
      rw [List.forall₂_map_right_iff, List.forall₂_same]
      exact fun _ _ => rfl
    have both : Relation.Comp (List.Forall₂ fun b d => g b = d) List.Perm m m' := ⟨m.map g, images, perm⟩
    rw [List.forall₂_comp_perm_eq_perm_comp_forall₂] at both
    obtain ⟨m'', perm', images'⟩ := both
    obtain rfl : m''.map g = m' := by
      rw [← List.forall₂_eq_eq_eq, List.forall₂_map_left_iff]
      exact images'
    rw [List.forall₂_map_left_iff, List.forall₂_map_right_iff] at pairs
    exact ⟨m'', perm', pairs⟩
  · rintro ⟨m', perm, pairs⟩
    refine ⟨m'.map g, perm.map g, ?_⟩
    rw [List.forall₂_map_left_iff, List.forall₂_map_right_iff]
    exact pairs

theorem matched_eq {l m : List α} : Matched Eq l m ↔ l.Perm m := by
  constructor
  · rintro ⟨m', perm, pairs⟩
    rw [List.forall₂_eq_eq_eq] at pairs
    exact pairs ▸ perm.symm
  · intro perm
    refine ⟨l, perm.symm, ?_⟩
    rw [List.forall₂_eq_eq_eq]

theorem Matched.imp {R S : α → β → Prop} {l : List α} {m : List β} (matched : Matched R l m)
    (within : ∀ a ∈ l, ∀ b ∈ m, R a b → S a b) : Matched S l m := by
  obtain ⟨m', perm, pairs⟩ := matched
  refine ⟨m', perm, List.forall₂_iff_get.mpr ⟨pairs.length_eq, ?_⟩⟩
  intro i left right
  exact within _ (List.getElem_mem left) _ (perm.mem_iff.mpr (List.getElem_mem right))
    ((List.forall₂_iff_get.mp pairs).2 i left right)

end Matching

/-! ## The sorted lists -/

theorem map_dumps_stablySorted (l : List (Wire Binary64)) :
    (stablySorted l).map dumps = (l.map dumps).insertionSort fun s t => Str.le s t :=
  List.map_insertionSort _ _ _ _ fun _ _ _ _ => Iff.rfl

theorem forall₂_stablySorted {l m : List (Wire Binary64)} (keyed : ∀ v ∈ l, v.Keyed)
    (keyed' : ∀ v ∈ m, v.Keyed) : List.Forall₂ (Json.Same Eq) (stablySorted l) (stablySorted m) ↔
      Matched (Json.Same Eq) l m := by
  have sorted (l : List (Wire Binary64)) : (stablySorted l).Perm l := List.perm_insertionSort _ l
  constructor
  · intro pairs
    obtain ⟨m', pairs', perm⟩ := List.perm_comp_forall₂ (sorted l).symm pairs
    exact ⟨m', (sorted m).symm.trans perm.symm, pairs'⟩
  · rintro ⟨m', perm, pairs⟩
    have texts : l.map dumps = m'.map dumps := by
      rw [← List.forall₂_eq_eq_eq, List.forall₂_map_left_iff, List.forall₂_map_right_iff]
      refine List.forall₂_iff_get.mpr ⟨pairs.length_eq, ?_⟩
      intro i left right
      exact dumps_congr ((List.forall₂_iff_get.mp pairs).2 i left right)
        (keyed _ (List.getElem_mem left)) (keyed' _ (perm.mem_iff.mpr (List.getElem_mem right)))
    have equal : (stablySorted l).map dumps = (stablySorted m).map dumps := by
      rw [map_dumps_stablySorted, map_dumps_stablySorted, texts]
      exact sort_congr str_order (fun _ _ => trivial) (perm.map dumps).symm
    rw [← List.forall₂_eq_eq_eq, List.forall₂_map_left_iff, List.forall₂_map_right_iff] at equal
    refine List.forall₂_iff_get.mpr ⟨equal.length_eq, ?_⟩
    intro i left right
    apply (dumps_eq_iff _ _).mp ((List.forall₂_iff_get.mp equal).2 i left right)
    · exact keyed _ ((sorted l).mem_iff.mp (List.getElem_mem left))
    · exact keyed' _ ((sorted m).mem_iff.mp (List.getElem_mem right))

/-! ## The approved terms -/

theorem keyed_toDict (f : PriceFloor Binary64) : f.toDict.Keyed := by
  have distinct : [str "product_ref", str "min_price"].Nodup := by decide
  refine .object distinct ?_
  simp only [List.forall_mem_cons, List.not_mem_nil, false_imp_iff, implies_true, and_true]
  refine ⟨?_, .number _⟩
  cases f.productRef with
  | none => exact .null
  | some s => exact .string s

theorem same_toDict {f g : PriceFloor Binary64} : Json.Same Eq f.toDict g.toDict ↔ f = g := by
  constructor
  · intro same
    have reference := same.get (str "product_ref")
    have price := same.get (str "min_price")
    obtain ⟨productRef, minPrice⟩ := f
    obtain ⟨productRef', minPrice'⟩ := g
    have priced : Json.Same Eq (.number (Literal.double minPrice)) (.number (.double minPrice')) := price
    have named : Json.Same Eq (text? productRef) (text? productRef') := reference
    cases priced with
    | number equal =>
        cases equal
        cases productRef <;> cases productRef' <;> cases named <;> rfl
  · rintro rfl
    exact (dumps_eq_iff (keyed_toDict f) (keyed_toDict f)).mp rfl

theorem same_of_entries {xs ys : Dict Str (Wire Binary64)} (pairs : List.Forall₂ AlikeEntry xs ys) :
    Json.Same Eq (.object xs) (.object ys) := by
  apply Json.same_object_iff.mpr
  intro k
  induction pairs with
  | nil => exact .none
  | @cons a b xs ys pair _ ih =>
      obtain ⟨key, v⟩ := a
      obtain ⟨key', w⟩ := b
      obtain ⟨rfl, value⟩ := pair
      rw [Dict.get?, Dict.get?]
      split
      · exact .some value
      · exact ih

section Texts

variable {t u : Terms Binary64}

def Keyed (t : Terms Binary64) : Prop := ∀ v ∈ t.standingCommitments, v.Keyed

theorem keyed_stablySorted {l : List (Wire Binary64)} (keyed : ∀ v ∈ l, v.Keyed) :
    (Json.array (stablySorted l)).Keyed := by
  refine .array fun v member => keyed v ?_
  exact (List.perm_insertionSort _ l).mem_iff.mp member

theorem keyed_approvedTerms (keyed : Keyed t) : (approvedTerms t).Keyed := by
  have distinct : [str "store_id", str "version", str "floors", str "max_discount_pct", str "budget_cap",
      str "pursue_clusters", str "standing_commitments"].Nodup := by decide
  refine .object distinct ?_
  simp only [List.forall_mem_cons, List.not_mem_nil, false_imp_iff, implies_true, and_true]
  refine ⟨.string _, .number _, ?_, .number _, .number _, ?_, ?_⟩
  · exact keyed_stablySorted (List.forall_mem_map.mpr fun f _ => keyed_toDict f)
  · exact .array (List.forall_mem_map.mpr fun s _ => .string s)
  · exact keyed_stablySorted (List.forall_mem_map.mpr fun v member => keyed_canonical (keyed v member))

theorem matched_floors : List.Forall₂ (Json.Same Eq) (stablySorted (t.floors.map PriceFloor.toDict))
    (stablySorted (u.floors.map PriceFloor.toDict)) ↔ t.floors.Perm u.floors := by
  rw [forall₂_stablySorted (List.forall_mem_map.mpr fun f _ => keyed_toDict f)
    (List.forall_mem_map.mpr fun f _ => keyed_toDict f), matched_map]
  simp only [same_toDict]
  exact matched_eq

theorem matched_commitments (keyed : Keyed t) (keyed' : Keyed u) :
    List.Forall₂ (Json.Same Eq) (stablySorted (t.standingCommitments.map canonical))
      (stablySorted (u.standingCommitments.map canonical)) ↔
        Matched (Restates Eq) t.standingCommitments u.standingCommitments := by
  rw [forall₂_stablySorted (List.forall_mem_map.mpr fun v member => keyed_canonical (keyed v member))
    (List.forall_mem_map.mpr fun v member => keyed_canonical (keyed' v member)), matched_map]
  constructor
  · intro matched
    exact matched.imp fun v left w right => alike_of_canonical (keyed v left) (keyed' w right)
  · intro matched
    exact matched.imp fun v left w right alike => same_of_alike alike (keyed v left) (keyed' w right)

theorem matched_clusters {l m : List Str} :
    List.Forall₂ (Json.Same Eq) ((l.insertionSort fun a b => Str.le a b).map (Json.string : Str → Wire Binary64))
      ((m.insertionSort fun a b => Str.le a b).map Json.string) ↔ l.Perm m := by
  have strings {a b : Str} : Json.Same Eq (.string a : Wire Binary64) (.string b) ↔ a = b := by
    constructor
    · intro same
      cases same
      rfl
    · rintro rfl
      exact .string a
  rw [List.forall₂_map_left_iff, List.forall₂_map_right_iff]
  simp only [strings]
  rw [List.forall₂_eq_eq_eq]
  constructor
  · intro sorted
    have left : (l.insertionSort fun a b => Str.le a b).Perm l := List.perm_insertionSort _ l
    have right : (m.insertionSort fun a b => Str.le a b).Perm m := List.perm_insertionSort _ m
    exact left.symm.trans (sorted ▸ right)
  · intro perm
    exact sort_congr str_order (fun _ _ => trivial) perm

theorem sameTerms_iff (keyed : Keyed t) (keyed' : Keyed u) :
    SameTerms Eq t u ↔ Json.Same Eq (approvedTerms t) (approvedTerms u) := by
  constructor
  · intro same
    apply same_of_entries
    refine .cons ⟨rfl, ?_⟩ (.cons ⟨rfl, ?_⟩ (.cons ⟨rfl, ?_⟩ (.cons ⟨rfl, ?_⟩ (.cons ⟨rfl, ?_⟩
      (.cons ⟨rfl, ?_⟩ (.cons ⟨rfl, ?_⟩ .nil))))))
    · rw [same.storeId]
      exact .string _
    · rw [same.version]
      exact .number rfl
    · exact .array_of_forall₂ (matched_floors.mpr same.floors)
    · rw [same.maxDiscountPct]
      exact .number rfl
    · rw [same.budgetCap]
      exact .number rfl
    · exact .array_of_forall₂ (matched_clusters.mpr same.pursueClusters)
    · exact .array_of_forall₂ ((matched_commitments keyed keyed').mpr same.standingCommitments)
  · intro same
    have storeId : Json.Same Eq (.string t.storeId) (.string u.storeId) := same.get (str "store_id")
    have version : Json.Same Eq (.number (Literal.integer t.version) : Wire Binary64) (.number (.integer u.version)) :=
      same.get (str "version")
    have discount : Json.Same Eq (.number (Literal.double t.maxDiscountPct)) (.number (.double u.maxDiscountPct)) :=
      same.get (str "max_discount_pct")
    have budget : Json.Same Eq (.number (Literal.double t.budgetCap)) (.number (.double u.budgetCap)) :=
      same.get (str "budget_cap")
    have floors := Json.Same.forall₂ (same.get (str "floors"))
    have clusters := Json.Same.forall₂ (same.get (str "pursue_clusters"))
    have commitments := Json.Same.forall₂ (same.get (str "standing_commitments"))
    refine ⟨?_, ?_, matched_floors.mp floors, ?_, ?_, matched_clusters.mp clusters,
      (matched_commitments keyed keyed').mp commitments⟩
    · generalize t.storeId = a at storeId ⊢
      cases storeId
      rfl
    · cases version with
      | number equal => exact Literal.integer.inj equal
    · cases discount with
      | number equal => exact Literal.double.inj equal
    · cases budget with
      | number equal => exact Literal.double.inj equal

theorem dumps_approvedTerms_iff (keyed : Keyed t) (keyed' : Keyed u) :
    dumps (approvedTerms t) = dumps (approvedTerms u) ↔ SameTerms Eq t u := by
  rw [sameTerms_iff keyed keyed']
  exact dumps_eq_iff (keyed_approvedTerms keyed) (keyed_approvedTerms keyed')

/-! ## Whether there is a text -/

omit t u in
theorem allFinite_array {l : List (Wire Binary64)} :
    allFinite (.array l) = true ↔ ∀ v ∈ l, allFinite v = true := by
  rw [allFinite]
  induction l with
  | nil => exact iff_of_true rfl nofun
  | cons v l ih => rw [allFiniteItems, Bool.and_eq_true, ih, List.forall_mem_cons]

omit t u in
theorem allFinite_object {d : Dict Str (Wire Binary64)} :
    allFinite (.object d) = true ↔ ∀ e ∈ d, allFinite e.2 = true := by
  rw [allFinite]
  induction d with
  | nil => exact iff_of_true rfl nofun
  | cons e d ih => rw [allFiniteMembers, Bool.and_eq_true, ih, List.forall_mem_cons]

def Printable (v : Wire Binary64) : Prop := Wire.writable v = true ∧ allFinite v = true

omit t u in
theorem Printable.of_same {v w : Wire Binary64} (same : Json.Same Eq v w) (keyed : v.Keyed) (keyed' : w.Keyed)
    (printable : Printable v) : Printable w := by
  induction same with
  | null => exact printable
  | bool b => exact printable
  | number same => exact same ▸ printable
  | string s => exact printable
  | @array xs ys length _ ih =>
      rw [Printable, Wire.writable_array, allFinite_array, ← forall₂_and] at *
      intro w member
      obtain ⟨i, bound, rfl⟩ := List.getElem_of_mem member
      have bound' : i < xs.length := length ▸ bound
      exact ih i _ _ (List.getElem?_eq_getElem bound') (List.getElem?_eq_getElem bound)
        (keyed.item (List.getElem_mem bound')) (keyed'.item member) (printable _ (List.getElem_mem bound'))
  | @object xs ys present _ ih =>
      rw [Printable, Wire.writable_object, allFinite_object, ← forall₂_and] at *
      intro e member
      have found := Dict.get?_of_mem keyed'.distinct member
      have both := present e.1
      rw [found, Option.isSome_some, Option.isSome_iff_exists] at both
      obtain ⟨v, held⟩ := both
      exact ih e.1 v e.2 held found (keyed.member (Dict.mem_of_get? held)) (keyed'.member member)
        (printable _ (Dict.mem_of_get? held))

theorem canonicalText_eq_ok {s : Str} : canonicalText t = .ok s ↔
    Printable (approvedTerms t) ∧ dumps (approvedTerms t) = s := by
  unfold canonicalText Printable
  split
  · rename_i printable
    simp [printable]
  · rename_i refused
    simp [refused]

theorem canonicalText_of_sameTerms (keyed : Keyed t) (keyed' : Keyed u) (same : SameTerms Eq t u) {s : Str}
    (made : canonicalText t = .ok s) : canonicalText u = .ok s := by
  obtain ⟨printable, rfl⟩ := canonicalText_eq_ok.mp made
  apply canonicalText_eq_ok.mpr
  constructor
  · exact printable.of_same ((sameTerms_iff keyed keyed').mp same) (keyed_approvedTerms keyed)
      (keyed_approvedTerms keyed')
  · exact ((dumps_approvedTerms_iff keyed keyed').mpr same).symm

theorem approvalDigest_of_sameTerms (keyed : Keyed t) (keyed' : Keyed u) (same : SameTerms Eq t u) :
    approvalDigest t = approvalDigest u := by
  have back : SameTerms Eq u t := by
    apply (dumps_approvedTerms_iff keyed' keyed).mp
    exact ((dumps_approvedTerms_iff keyed keyed').mpr same).symm
  have texts : canonicalText t = canonicalText u := by
    cases made : canonicalText t with
    | ok s => exact (canonicalText_of_sameTerms keyed keyed' same made).symm
    | error e =>
        cases made' : canonicalText u with
        | ok s => exact nomatch made.symm.trans (canonicalText_of_sameTerms keyed' keyed back made')
        | error e' =>
            unfold canonicalText at made made'
            split at made <;> cases made
            split at made' <;> cases made'
            rfl
  rw [approvalDigest, approvalDigest, texts]

def CollisionFree (t u : Terms Binary64) : Prop :=
  ∀ s s' payload payload', canonicalText t = .ok s → canonicalText u = .ok s' →
    Str.encodeUtf8 s = some payload → Str.encodeUtf8 s' = some payload' →
      sha256Hex payload = sha256Hex payload' → payload = payload'

theorem approvalDigest_eq_ok {digest : Str} (made : approvalDigest t = .ok digest) :
    ∃ s payload, canonicalText t = .ok s ∧ Str.encodeUtf8 s = some payload ∧
      digest = str "sha256:" ++ sha256Hex payload := by
  obtain ⟨s, spelled, made⟩ := bind_eq_ok.mp made
  cases encoded : Str.encodeUtf8 s with
  | none =>
      rw [encoded] at made
      cases made
  | some payload =>
      rw [encoded] at made
      exact ⟨s, payload, spelled, encoded, (Except.ok.inj made).symm⟩

theorem approvalDigest_iff (keyed : Keyed t) (keyed' : Keyed u) (free : CollisionFree t u) {digest digest' : Str}
    (made : approvalDigest t = .ok digest) (made' : approvalDigest u = .ok digest') :
    digest = digest' ↔ SameTerms Eq t u := by
  constructor
  · rintro rfl
    obtain ⟨s, payload, text, encoded, spelled⟩ := approvalDigest_eq_ok made
    obtain ⟨s', payload', text', encoded', spelled'⟩ := approvalDigest_eq_ok made'
    have hashes := List.append_cancel_left (spelled.symm.trans spelled')
    have payloads := free s s' payload payload' text text' encoded encoded' hashes
    rw [payloads] at encoded
    obtain rfl := Str.encodeUtf8_inj encoded encoded'
    apply (dumps_approvedTerms_iff keyed keyed').mp
    exact (canonicalText_eq_ok.mp text).2.trans (canonicalText_eq_ok.mp text').2.symm
  · intro same
    rw [approvalDigest_of_sameTerms keyed keyed' same, made'] at made
    exact (Except.ok.inj made).symm

end Texts

/-! ## An envelope read back -/

section Rereading

theorem alike_number {n : Literal Binary64} {v : Wire Binary64} (alike : Restates Eq (.number n) v) :
    v = .number n := by
  cases alike with
  | number same => rw [same]

theorem alike_string {s : Str} {v : Wire Binary64} (alike : Restates Eq (.string s) v) : v = .string s := by
  cases alike
  rfl

theorem forall₂_of_mapM {α β : Type} {g : β → Option α} {l : List β} {m : List α} (read : l.mapM g = some m) :
    List.Forall₂ (fun b a => g b = some a) l m := by
  induction l generalizing m with
  | nil =>
      cases read
      exact .nil
  | cons b l ih =>
      simp only [List.mapM_cons, Option.bind_eq_bind, Option.bind_eq_some_iff, Option.pure_def,
        Option.some.injEq] at read
      obtain ⟨a, first, rest, others, rfl⟩ := read
      exact .cons first (ih others)

theorem eq_of_mapM {α : Type} {R : α → Wire Binary64 → Prop} {g : Wire Binary64 → Option α}
    (recovers : ∀ a v b, R a v → g v = some b → b = a) {l m : List α} {items : List (Wire Binary64)}
    (pairs : List.Forall₂ R l items) (read : items.mapM g = some m) : m = l := by
  replace read := forall₂_of_mapM read
  induction pairs generalizing m with
  | nil =>
      cases read
      rfl
  | cons pair _ ih =>
      cases read with
      | cons first others => rw [recovers _ _ _ pair first, ih others]

theorem alike_items {l m : List (Wire Binary64)} {v : Wire Binary64} (alike : Restates Eq (.array l) v)
    (listed : v = .array m) : List.Forall₂ (Restates Eq) l m := by
  rw [listed] at alike
  exact alike.forall₂

variable [Coercion Binary64]

theorem floorOf?_alike {f g : PriceFloor Binary64} {v : Wire Binary64} (alike : Restates Eq f.toDict v)
    (read : floorOf? v = some g) : g = f := by
  cases alike with
  | @object _ members alike =>
      have price := alike_number (alike (str "min_price"))
      have reference := alike (str "product_ref")
      simp only [floorOf?, Option.bind_eq_bind, Option.bind_eq_some_iff, Option.pure_def,
        Option.some.injEq] at read
      obtain ⟨-, -, productRef, named, v, found, x, read, minPrice, bounded, rfl⟩ := read
      rw [Json.get_object, found, Option.getD_some] at price
      rw [price, Coercion.asFloat_double, Option.some.injEq] at read
      have referenced : Restates Eq (text? f.productRef) (Json.get (.object members) (str "product_ref")) := reference
      have equal : productRef = f.productRef := by
        generalize Json.get (.object members) (str "product_ref") = w at named referenced
        cases stated : f.productRef with
        | none =>
            rw [stated] at referenced
            cases referenced
            exact (Option.some.inj named).symm
        | some s =>
            rw [stated] at referenced
            cases referenced
            exact (Option.some.inj named).symm
      rw [equal, ← (atLeastZero_eq_some.mp bounded).2, ← read]

theorem sameTerms_of_alike {e e' : Envelope Binary64} {raw : Wire Binary64} {carried : Carried Binary64}
    (alike : Restates Eq e.toDict raw) (read : Envelope.fromObj raw carried = .ok e') :
    SameTerms Eq e.toTerms e'.toTerms := by
  obtain ⟨-, -, validated⟩ := Envelope.fromObj_eq_ok.mp read
  have field (key : Str) : Restates Eq (e.toDict.get key) (raw.get key) := alike.get key
  obtain ⟨floorItems, listed, walled⟩ := validated.floors
  obtain ⟨clusterItems, clustered, spelled⟩ := validated.pursueClusters
  have floors := alike_items (field (str "floors")) listed
  have clusters := alike_items (field (str "pursue_clusters")) clustered
  have commitments := alike_items (field (str "standing_commitments")) validated.standingCommitments
  have version := validated.version
  have discount := validated.maxDiscountPct
  have budget := validated.budgetCap
  rw [alike_number (field (str "version")), Coercion.asInt_integer, Option.some.injEq] at version
  rw [alike_number (field (str "max_discount_pct")), Coercion.asFloat_double, Option.some.injEq] at discount
  rw [alike_number (field (str "budget_cap")), Coercion.asFloat_double, Option.some.injEq] at budget
  rw [List.forall₂_map_left_iff] at floors clusters
  refine ⟨?_, version, ?_, discount, budget, ?_, ⟨_, .refl _, commitments⟩⟩
  · have stated := validated.storeId
    rw [alike_string (field (str "store_id"))] at stated
    exact Json.string.inj stated
  · have recovered (f : PriceFloor Binary64) (v : Wire Binary64) (g : PriceFloor Binary64)
        (alike : Restates Eq f.toDict v) (read : floorOf? v = some g) : g = f := floorOf?_alike alike read
    rw [eq_of_mapM recovered floors walled]
  · have recovered (s : Str) (v : Wire Binary64) (s' : Str) (alike : Restates Eq (.string s) v)
        (read : textOf? v = some s') : s' = s := by
      rw [alike_string alike] at read
      exact (Option.some.inj read).symm
    rw [eq_of_mapM recovered clusters spelled]

omit [Coercion Binary64] in
theorem keyed_document {e : Envelope Binary64} (keyed : Keyed e.toTerms) : e.toDict.Keyed := by
  have distinct : [str "store_id", str "version", str "floors", str "max_discount_pct", str "budget_cap",
      str "pursue_clusters", str "standing_commitments", str "activation", str "approval"].Nodup := by
    decide
  refine .object distinct ?_
  simp only [Envelope.document, List.forall_mem_cons, List.not_mem_nil, false_imp_iff, implies_true,
    and_true]
  refine ⟨.string _, .number _, ?_, .number _, .number _, ?_, .array keyed, .string _, ?_⟩
  · exact .array (List.forall_mem_map.mpr fun f _ => keyed_toDict f)
  · exact .array (List.forall_mem_map.mpr fun s _ => .string s)
  · cases e.approval with
    | none => exact .null
    | some a =>
        obtain ⟨approver, approvedAt, envelopeHash, note, documentRef⟩ := a
        have all : ∀ entry ∈ [(str "approver", (.string approver : Wire Binary64)),
            (str "approved_at", .string approvedAt), (str "envelope_hash", .string envelopeHash)] ++
              optionalEntry (str "note") note ++ optionalEntry (str "document_ref") documentRef,
            Json.Keyed entry.2 := by
          intro entry member
          cases note <;> cases documentRef <;>
            simp only [optionalEntry, List.append_nil, List.cons_append, List.nil_append, List.mem_cons,
              List.not_mem_nil, or_false] at member
          · rcases member with rfl | rfl | rfl <;> exact .string _
          · rcases member with rfl | rfl | rfl | rfl <;> exact .string _
          · rcases member with rfl | rfl | rfl | rfl <;> exact .string _
          · rcases member with rfl | rfl | rfl | rfl | rfl <;> exact .string _
        refine .object ?_ all
        have names (note documentRef : Bool) : ([str "approver", str "approved_at", str "envelope_hash"] ++
            (if note then [str "note"] else []) ++
              if documentRef then [str "document_ref"] else []).Nodup := by
          cases note <;> cases documentRef <;> decide
        cases note <;> cases documentRef
        · exact names false false
        · exact names false true
        · exact names true false
        · exact names true true

theorem keyed_of_read {e : Envelope Binary64} {raw : Wire Binary64} {carried : Carried Binary64}
    (keyed : raw.Keyed) (read : Envelope.fromObj raw carried = .ok e) : Keyed e.toTerms := by
  obtain ⟨-, -, validated⟩ := Envelope.fromObj_eq_ok.mp read
  have field := keyed.get (str "standing_commitments")
  rw [validated.standingCommitments] at field
  exact fun v member => field.item member

omit [Coercion Binary64] in
theorem mapM_some {α β : Type} {f : α → β} {g : β → Option α} {l : List α}
    (each : ∀ a ∈ l, g (f a) = some a) : (l.map f).mapM g = some l := by
  induction l with
  | nil => rfl
  | cons a l ih =>
      rw [List.forall_mem_cons] at each
      rw [List.map_cons, List.mapM_cons, each.1, ih each.2]
      rfl

theorem atLeastZero_of_floorOf? {v : Wire Binary64} {f : PriceFloor Binary64} (read : floorOf? v = some f) :
    0.0 ≤ f.minPrice := by
  cases v with
  | object members =>
      simp only [floorOf?, Option.bind_eq_bind, Option.bind_eq_some_iff, Option.pure_def,
        Option.some.injEq] at read
      obtain ⟨-, -, _, -, _, -, x, -, minPrice, bounded, rfl⟩ := read
      obtain ⟨least, rfl⟩ := atLeastZero_eq_some.mp bounded
      exact least
  | _ => cases read

theorem floorOf?_of_least {f : PriceFloor Binary64} (least : 0.0 ≤ f.minPrice) :
    floorOf? f.toDict = some f := by
  obtain ⟨productRef, minPrice⟩ := f
  have bounded := atLeastZero_eq_some.mpr ⟨least, rfl⟩
  have named : optionalTextOf? (Json.get (PriceFloor.toDict ⟨productRef, minPrice⟩) (str "product_ref"))
      = some productRef := optionalTextOf?_text? productRef
  have read : Coercion.asFloat (.number (.double minPrice) : Wire Binary64) = some minPrice :=
    Coercion.asFloat_double minPrice
  have found : Dict.get? [(str "product_ref", text? productRef),
      (str "min_price", (.number (.double minPrice) : Wire Binary64))] (str "min_price") =
      some (.number (.double minPrice)) := rfl
  unfold floorOf? PriceFloor.toDict at *
  simp only [named, found, read, bounded, Option.bind_eq_bind, Option.bind_some, Option.pure_def]
  rfl

theorem fromObj_toDict_drop {e : Envelope Binary64} {raw : Wire Binary64} {carried : Carried Binary64}
    (read : Envelope.fromObj raw carried = .ok e) :
    Envelope.fromObj e.toDict .drop = .ok { e with approval := none } := by
  obtain ⟨-, -, validated⟩ := Envelope.fromObj_eq_ok.mp read
  obtain ⟨items, -, walled⟩ := validated.floors
  apply Envelope.fromObj_eq_ok.mpr
  refine ⟨rfl, rfl, ?_⟩
  exact {
    storeId := e.toDict_storeId
    named := validated.named
    version := by rw [e.toDict_version, Coercion.asInt_integer]
    numbered := validated.numbered
    floors := by
      refine ⟨_, e.toDict_floors, mapM_some fun f member => floorOf?_of_least ?_⟩
      obtain ⟨i, bound, rfl⟩ := List.getElem_of_mem member
      have pairs := forall₂_of_mapM walled
      have bound' : i < items.length := pairs.length_eq ▸ bound
      exact atLeastZero_of_floorOf? ((List.forall₂_iff_get.mp pairs).2 i bound' bound)
    maxDiscountPct := by rw [e.toDict_maxDiscountPct, Coercion.asFloat_double]
    discounted := validated.discounted
    budgetCap := by rw [e.toDict_budgetCap, Coercion.asFloat_double]
    capped := validated.capped
    pursueClusters := ⟨_, e.toDict_pursueClusters, mapM_some fun _ _ => rfl⟩
    standingCommitments := e.toDict_standingCommitments
    claims := validated.claims
    activation := ⟨_, e.toDict_activation, Activation.ofText?_text _⟩ }

end Rereading

/-! ## A promise of twenty -/

def twentyFloat : Binary64 := ⟨20, 20, 0, by norm_num, by norm_num, by norm_num, by
  rw [abs_of_pos (by norm_num)]
  exact lt_of_lt_of_le (show (20 : ℚ) < 2 ^ 5 by norm_num) (pow_le_pow_right₀ (by norm_num) (by norm_num))⟩

def promising (promise : Dict Str (Wire Binary64)) : Terms Binary64 where
  storeId := str "s"
  version := 1
  floors := []
  maxDiscountPct := .finite twentyFloat
  budgetCap := .finite twentyFloat
  pursueClusters := []
  standingCommitments := [.object promise]

def promiseOf (n : Literal Binary64) : Dict Str (Wire Binary64) :=
  [(str "key", .string (str "k")), (str "value", .number n)]

theorem get_promiseOf (n : Literal Binary64) (k : Str) : Json.get (.object (promiseOf n)) k =
    if str "key" = k then .string (str "k") else if str "value" = k then .number n else .null := by
  rw [Json.get_object, promiseOf, Dict.get?, Dict.get?, Dict.get?]
  split
  · rfl
  · split <;> rfl

/-- Doubles: an integer is read as the nearest one, and a whole double as an integer. -/
@[reducible] def Coercion.double : Coercion Binary64 where
  asInt
    | .number (.integer n) => some n
    | .number (.double (.finite x)) => if x.value.den = 1 then some x.value.num else none
    | .bool b => some (if b then 1 else 0)
    | _ => none
  asFloat
    | .number (.integer n) => some (Format.round n)
    | .number (.double x) => some x
    | .bool b => some (if b then 1.0 else 0.0)
    | _ => none
  isClaim v := v.record?.isSome
  asInt_integer _ := rfl
  asFloat_double _ := rfl

def sealedWith (promise : Dict Str (Wire Binary64)) : Envelope Binary64 :=
  { promising promise with
    activation := .shadow
    approval := none }

def respelledPromise : Dict Str (Wire Binary64) :=
  [(str "value", .number (.integer 20)), (str "unit", .null), (str "key", .string (str "k"))]

end Proxyshop.Merchant
