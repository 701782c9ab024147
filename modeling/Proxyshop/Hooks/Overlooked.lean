import Proxyshop.Hooks.FieldOfView
import Mathlib.Logic.Relation

/-!
# What the boundary overlooks

Structures with shared nodes and with cycles, what it takes for the walk to see all of one, and the
structures of which it does.
-/

namespace Proxyshop.Hooks

open Python Structures Relation
open Viewed

section Completeness

variable {N ι : Type} [Viewed N ι]

inductive Leads : N → N → Prop
  | item {node child : N} {items : List N} (sequence : view node = .sequence items) (member : child ∈ items) :
      Leads node child
  | member {node child : N} {members : Dict Str N} {name : Str} (mapping : view node = .mapping members)
      (member : (name, child) ∈ members) (uncovered : ¬ (isLeaf node = true ∧ name = str "value")) :
      Leads node child

def Inside (presented node : N) : Prop := ReflTransGen Leads presented node

def OnCycle (node : N) : Prop := TransGen Leads node node

def SameCycle (node node' : N) : Prop := TransGen Leads node node' ∧ TransGen Leads node' node

/-- Everything that the boundary has an opinion about is recorded. -/
structure Complete (presented : N) (found : List (Record N)) : Prop where
  prices : ∀ node, Inside presented node → isPriced node = true → ∀ price, stated node priceField = some price →
    ∃ site, (site, price) ∈ Material.prices found ∧ site.node = node
  totals : ∀ node, Inside presented node → isPriced node = true → ∀ total, stated node totalPriceField = some total →
    ∃ site, (site, total) ∈ Material.totals found ∧ site.node = node
  discounts : ∀ node, Inside presented node → ∀ discount, stated node discountField = some discount →
    ∃ site, (site, discount) ∈ Material.discounts found ∧ site.node = node
  claims : ∀ node, Inside presented node → isClaimShaped node = true →
    node ∈ Material.claims found ∨ ∃ site ∈ Material.disguises found, site.node = node
  cycles : ∀ node, Inside presented node → OnCycle node →
    ∃ site path, .unwalkable site path .cycle ∈ found ∧ SameCycle node site.node

def Notable (node : N) : Prop :=
  isPriced node = true ∨ isClaimShaped node = true ∨ (stated node discountField).isSome = true

/-- Whatever the boundary has an opinion about lies where the walk turns, and so does a way back into
every cycle. -/
structure InFullSight [DecidableEq ι] (presented : N) : Prop where
  notable : ∀ node, Inside presented node → Notable node →
    ∃ seen strict, InSight presented seen node strict ∧ Fresh seen node
  cycles : ∀ node, Inside presented node → OnCycle node →
    ∃ node' seen strict, InSight presented seen node' strict ∧ ¬ Fresh seen node' ∧ SameCycle node node'

/-! ## The lists of the material -/

variable {found : List (Record N)} {site : Visit N} {presented node value : N}

theorem mem_prices : (site, value) ∈ Material.prices found ↔ .price site value ∈ found := by
  simp only [Material.prices, List.mem_filterMap]
  constructor
  · rintro ⟨r, member, made⟩
    cases r <;> cases made
    exact member
  · exact fun member => ⟨_, member, rfl⟩

theorem mem_totals : (site, value) ∈ Material.totals found ↔ .total site value ∈ found := by
  simp only [Material.totals, List.mem_filterMap]
  constructor
  · rintro ⟨r, member, made⟩
    cases r <;> cases made
    exact member
  · exact fun member => ⟨_, member, rfl⟩

theorem mem_discounts : (site, value) ∈ Material.discounts found ↔ .discount site value ∈ found := by
  simp only [Material.discounts, List.mem_filterMap]
  constructor
  · rintro ⟨r, member, made⟩
    cases r <;> cases made
    exact member
  · exact fun member => ⟨_, member, rfl⟩

theorem mem_claims : node ∈ Material.claims found ↔ ∃ site, .claim site ∈ found ∧ site.node = node := by
  simp only [Material.claims, List.mem_filterMap]
  constructor
  · rintro ⟨r, member, made⟩
    cases r <;> cases made
    exact ⟨_, member, rfl⟩
  · rintro ⟨site, member, rfl⟩
    exact ⟨_, member, rfl⟩

theorem mem_disguises : site ∈ Material.disguises found ↔ .disguise site ∈ found := by
  simp only [Material.disguises, List.mem_filterMap]
  constructor
  · rintro ⟨r, member, made⟩
    cases r <;> cases made
    exact member
  · exact fun member => ⟨_, member, rfl⟩

/-! ## Finished walks -/

variable [DecidableEq ι] {limit : Nat}

theorem complete_of_inFullSight (finished : (walk limit presented).finished = true)
    (sight : InFullSight presented) : Complete presented (collectClaimMaterial limit presented) where
  prices node inside priced price states := by
    obtain ⟨seen, strict, sees, fresh⟩ := sight.notable node inside (.inl priced)
    obtain ⟨v, rfl, records⟩ := mem_material_of_fresh finished sees fresh
    exact ⟨v, mem_prices.mpr (records _ (found_price priced states)), rfl⟩
  totals node inside priced total states := by
    obtain ⟨seen, strict, sees, fresh⟩ := sight.notable node inside (.inl priced)
    obtain ⟨v, rfl, records⟩ := mem_material_of_fresh finished sees fresh
    exact ⟨v, mem_totals.mpr (records _ (found_total priced states)), rfl⟩
  discounts node inside discount states := by
    obtain ⟨seen, strict, sees, fresh⟩ := sight.notable node inside (.inr (.inr (states ▸ rfl)))
    obtain ⟨v, rfl, records⟩ := mem_material_of_fresh finished sees fresh
    exact ⟨v, mem_discounts.mpr (records _ (found_discount states)), rfl⟩
  claims node inside shaped := by
    obtain ⟨seen, strict, sees, fresh⟩ := sight.notable node inside (.inr (.inl shaped))
    obtain ⟨v, rfl, records⟩ := mem_material_of_fresh finished sees fresh
    rcases found_identity shaped with claim | disguise
    · exact .inl (mem_claims.mpr ⟨v, records _ claim, rfl⟩)
    · exact .inr ⟨v, mem_disguises.mpr (records _ disguise), rfl⟩
  cycles node inside cycle := by
    obtain ⟨node', seen, strict, sees, stale, same⟩ := sight.cycles node inside cycle
    obtain ⟨v, path, rfl, member⟩ := material_cycle finished sees stale
    exact ⟨v, path, member, same⟩

theorem inFullSight_of_complete (finished : (walk limit presented).finished = true)
    (complete : Complete presented (collectClaimMaterial limit presented)) : InFullSight presented where
  notable node inside notable := by
    suffices ∃ r ∈ collectClaimMaterial limit presented, r.site.node = node ∧ ¬ r.IsCycle by
      obtain ⟨r, member, rfl, kind⟩ := this
      exact fresh_of_mem_material finished member kind
    rcases notable with priced | shaped | discounted
    · rcases Bool.or_eq_true_iff.mp (Bool.and_eq_true_iff.mp priced).2 with some | some
      · obtain ⟨price, states⟩ := Option.isSome_iff_exists.mp some
        obtain ⟨site, member, same⟩ := complete.prices node inside priced price states
        exact ⟨_, mem_prices.mp member, same, not_false⟩
      · obtain ⟨total, states⟩ := Option.isSome_iff_exists.mp some
        obtain ⟨site, member, same⟩ := complete.totals node inside priced total states
        exact ⟨_, mem_totals.mp member, same, not_false⟩
    · rcases complete.claims node inside shaped with member | ⟨site, member, same⟩
      · obtain ⟨site, member, same⟩ := mem_claims.mp member
        exact ⟨_, member, same, not_false⟩
      · exact ⟨_, mem_disguises.mp member, same, not_false⟩
    · obtain ⟨discount, states⟩ := Option.isSome_iff_exists.mp discounted
      obtain ⟨site, member, same⟩ := complete.discounts node inside discount states
      exact ⟨_, mem_discounts.mp member, same, not_false⟩
  cycles node inside cycle := by
    obtain ⟨site, path, member, same⟩ := complete.cycles node inside cycle
    obtain ⟨seen, strict, sees, stale⟩ := cycle_material finished ⟨path, member⟩
    exact ⟨site.node, seen, strict, sees, stale, same⟩

/-- A walk that is not finished says so, and one that is has overlooked nothing. -/
def SeesAll (limit : Nat) (presented : N) : Prop :=
  if (walk limit presented).finished then Complete presented (collectClaimMaterial limit presented)
  else (str "<root>", .tooDeep) ∈ Material.unwalkable (collectClaimMaterial limit presented)

theorem seesAll_of_inFullSight (sight : InFullSight presented) : SeesAll limit presented := by
  unfold SeesAll
  split
  · exact complete_of_inFullSight ‹_› sight
  · simp only [collectClaimMaterial]
    rw [if_neg ‹_›]
    exact List.mem_filterMap.mpr ⟨_, List.mem_append_right _ (List.mem_singleton_self _), rfl⟩

end Completeness

/-! ## Structures with shared nodes and with cycles -/

/-- A reference to an object of a structure, or a value that holds nothing. -/
inductive Ref (n : Nat)
  | null
  | text (s : Str)
  | scalar
  | object (i : Fin n)

inductive Cell (n : Nat)
  | sequence (items : List (Ref n))
  | mapping (members : Dict Str (Ref n))

structure Heap (n : Nat) where
  cells : Fin n → Cell n
  keyed : ∀ i members, cells i = .mapping members → (Dict.keys members).Nodup

namespace Heap

variable {n : Nat}

def Object (_ : Heap n) : Type := Ref n

def object (h : Heap n) (i : Fin n) : h.Object := .object i

/-- Objects are told apart by where they are. -/
instance (h : Heap n) : Viewed h.Object (Fin n) where
  view
    | .null => .null
    | .text s => .text s
    | .scalar => .scalar
    | .object i =>
        match h.cells i with
        | .sequence items => .sequence items
        | .mapping members => .mapping members
  ident
    | .object i => some i
    | _ => none

theorem named_of_turns {h : Heap n} {node child : h.Object} {strict strict' : Bool}
    (turns : Turns node strict child strict') : Viewed.ident node ≠ none := by
  intro unnamed
  cases node with
  | object i => cases unnamed
  | _ =>
      cases turns with
      | item sequence => cases sequence
      | nested listed holds => cases holds
      | swept mapping => cases mapping

theorem walk_finished (h : Heap n) (presented : h.Object) {limit : Nat} (deep : n + 2 ≤ limit) :
    (walk limit presented).finished = true := by
  apply guardedWalk_finished
  · intro v unnamed next call
    exact named_of_turns (turns_of_call call) unnamed
  · exact List.nodup_nil
  · simpa using deep

end Heap

/-- The walk of a structure ends, and it sees all of the structure exactly if all is in full sight. -/
theorem sees_all_iff {n : Nat} (h : Heap n) (presented : h.Object) :
    (∃ bound, ∀ limit, bound ≤ limit → (walk limit presented).finished = true) ∧
      ((∀ limit, SeesAll limit presented) ↔ InFullSight presented) := by
  refine ⟨⟨n + 2, fun limit deep => h.walk_finished presented deep⟩, fun sees => ?_, fun sight limit => ?_⟩
  · have finished := h.walk_finished presented (Nat.le_refl (n + 2))
    have complete := sees (n + 2)
    rw [SeesAll, if_pos finished] at complete
    exact inFullSight_of_complete finished complete
  · exact seesAll_of_inFullSight sight

/-- A bid whose discount hides an offer of a product at a price. -/
def hidingPlace : Heap 3 where
  cells
    | 0 => .mapping [(discountField, .object 1)]
    | 1 => .mapping [(str "inner", .object 2)]
    | 2 => .mapping [(productField, .text (str "p")), (priceField, .scalar)]
  keyed i members cell := by
    match i with
    | 0 | 1 | 2 =>
        cases cell
        decide

theorem price_inside_discount_overlooked : ¬ ∀ limit, SeesAll limit (hidingPlace.object 0) := by
  intro sees
  have complete : Complete _ _ := sees 5
  obtain ⟨site, member, -⟩ := complete.prices (hidingPlace.object 2)
    (.tail (.single (.member rfl (.head _) (by decide)))
      (.member rfl (.head _) (by decide)))
    (by decide) .scalar rfl
  cases member

end Proxyshop.Hooks
