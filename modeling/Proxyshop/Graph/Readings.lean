import Proxyshop.Graph.Filters
import Proxyshop.Graph.Sourced

/-!
# What the attribute nodes hold

A node is coherent where its canonical properties are the forms of the raw ones beside them. The raw
ones are folded and the canonical ones overwritten, so a write keeps this where the raw reading that the
fold keeps has the canonical form of the one that is written.
-/

namespace Proxyshop.Graph

open Python Numbers Verification Structures

variable [Folding]

def collectedOf (r : Reading) : Collected where
  key := text (slug r.key)
  rawKey := text r.key
  valueString := r.valueString.map .text
  canonicalValueString := r.valueString.map fun value => .text (canonicalText value)
  valueNumber := r.valueNumber.map .number
  valueBool := r.valueBool.map .flag
  unit := r.unit.map .text
  canonicalUnit := r.unit.map fun unit => .text (canonicalText unit)

def Coherent (node : Properties) : Prop := ∃ r, collect node = collectedOf r

def CoherentGraph (g : Catalogue) : Prop :=
  ∀ id node, g (.node .attributeValue id) = some node → Coherent node

variable [Collation]

omit [Folding] in
/-- The text that the fold keeps has the canonical form of the text that is written. -/
def Keeps (canonical : Str → Str) (prior : Option Scalar) (new : Option Str) : Prop :=
  ∃ kept : Option Str, leastOf prior (new.map .text) = kept.map .text ∧
    kept.map canonical = new.map canonical

/-- A reading that is written over a node agrees with what the fold keeps of it. -/
def Congruent (op : Op) (w : World) : Prop :=
  match op with
  | .upsertAttribute _ reading (some _) =>
      let prior := (w.graph (.node .attributeValue reading.attrId)).getD fun _ => none
      Keeps slug (prior "key") (some reading.key) ∧
        Keeps canonicalText (prior "value_string") reading.valueString ∧
        Keeps canonicalText (prior "unit") reading.unit
  | _ => True

theorem coherent_folded {g : Catalogue} {reading : AttributeValue} {prior : Properties}
    (before : (g (.node .attributeValue reading.attrId)).getD (fun _ => none) = prior)
    (key : Keeps slug (prior "key") (some reading.key))
    (value : Keeps canonicalText (prior "value_string") reading.valueString)
    (unit : Keeps canonicalText (prior "unit") reading.unit) {node : Properties}
    (written : merge attributeDisplayProperties (.node .attributeValue reading.attrId) reading.asProperties g
      (.node .attributeValue reading.attrId) = some node) : Coherent node := by
  obtain ⟨_ | key', keyRead, keySame⟩ := key
  · cases keySame
  obtain ⟨value', valueRead, valueSame⟩ := value
  obtain ⟨unit', unitRead, unitSame⟩ := unit
  rw [merge, Function.update_self, Option.some.injEq, before] at written
  subst written
  refine ⟨⟨key', value', reading.valueNumber, reading.valueBool, unit'⟩, ?_⟩
  change Collected.mk (text (slug reading.key)) (leastOf (prior "key") ((some reading.key).map .text))
    (leastOf (prior "value_string") (reading.valueString.map .text))
    (reading.valueString.map fun value => .text (canonicalText value)) (reading.valueNumber.map .number)
    (reading.valueBool.map .flag) (leastOf (prior "unit") (reading.unit.map .text))
    (reading.unit.map fun unit => .text (canonicalText unit)) = _
  have form (text' : Option Str) :
      (text'.map fun value => Scalar.text (canonicalText value)) = (text'.map canonicalText).map .text := by
    cases text' <;> rfl
  have keyForm : slug key' = slug reading.key := Option.some.inj keySame
  rw [keyRead, valueRead, unitRead, form, form, ← valueSame, ← unitSame, ← keyForm, ← form, ← form]
  rfl

theorem coherent_overwritten {g : Catalogue} {reading : AttributeValue} {node : Properties}
    (written : merge [] (.node .attributeValue reading.attrId) reading.asProperties g
      (.node .attributeValue reading.attrId) = some node) : Coherent node := by
  rw [merge, Function.update_self, Option.some.injEq] at written
  subst written
  exact ⟨⟨reading.key, reading.valueString, reading.valueNumber, reading.valueBool, reading.unit⟩, rfl⟩

def Action.Mild : Action → Prop
  | .fact label _ _ _ _ => label ≠ .attributeValue
  | .term label _ _ => label ≠ .attributeValue
  | _ => True

omit [Folding] in
theorem Action.mild_node {action : Action} (mild : action.Mild) (w : World) (id : Str) :
    (action.after w).graph (.node .attributeValue id) = w.graph (.node .attributeValue id) := by
  have stated (source : Source) :
      (w.state source).graph (.node .attributeValue id) = w.graph (.node .attributeValue id) :=
    World.state_of_ne (by simp)
  cases action with
  | refuse _ | require _ => rfl
  | state source => exact stated source
  | fact label id' props source folded =>
      have other : Place.node .attributeValue id ≠ .node label id' := by
        rintro ⟨⟩
        exact mild rfl
      simp only [after]
      cases (w.state source).graph (.source source.sourceId) with
      | none => exact stated source
      | some src =>
          simp only [World.support]
          rw [merge_of_ne (by simp), merge_of_ne other, stated]
  | term label id' props =>
      have other : Place.node .attributeValue id ≠ .node label id' := by
        rintro ⟨⟩
        exact mild rfl
      exact merge_of_ne other
  | tie type start finish source props =>
      have other : Place.node .attributeValue id ≠ .edge type start finish := by simp
      simp only [after]
      split
      · dsimp only
        rw [merge_of_ne other, stated]
      · exact stated source

theorem takeActions_coherent {actions : List Action} (mild : ∀ action ∈ actions, action.Mild) {w : World}
    (coherent : CoherentGraph w.graph) : CoherentGraph (takeActions actions w).2.graph := by
  induction actions generalizing w with
  | nil => exact coherent
  | cons action actions ih =>
      obtain ⟨first, rest⟩ := List.forall_mem_cons.mp mild
      have here : CoherentGraph (action.after w).graph := by
        intro id node held
        rw [Action.mild_node first] at held
        exact coherent id node held
      simp only [takeActions]
      cases action.refusal w with
      | some refusal => exact here
      | none => exact ih rest here

theorem takeFact_coherent {id : Str} {props : Dict Str (Option Scalar)} {source : Source}
    {folded : List Str} {ties : List Action} (mild : ∀ action ∈ ties, action.Mild) {w : World}
    (written : ∀ g : Catalogue, g (.node .attributeValue id) = w.graph (.node .attributeValue id) →
      ∀ node, merge folded (.node .attributeValue id) props g (.node .attributeValue id) = some node →
        Coherent node)
    (coherent : CoherentGraph w.graph) :
    CoherentGraph (takeActions (.fact .attributeValue id props source folded :: ties) w).2.graph := by
  have stated (id' : Str) :
      (w.state source).graph (.node .attributeValue id') = w.graph (.node .attributeValue id') :=
    World.state_of_ne (by simp)
  have here : CoherentGraph ((Action.fact .attributeValue id props source folded).after w).graph := by
    intro id' node held
    simp only [Action.after] at held
    cases src : (w.state source).graph (.source source.sourceId) with
    | none =>
        rw [src] at held
        exact coherent id' node ((stated id').symm.trans held)
    | some src' =>
        rw [src] at held
        simp only [World.support] at held
        rw [merge_of_ne (by simp)] at held
        by_cases same : id' = id
        · subst same
          exact written _ (stated id') node held
        · rw [merge_of_ne (by simp [same]), stated] at held
          exact coherent id' node held
  simp only [takeActions]
  cases (Action.fact .attributeValue id props source folded).refusal w with
  | some refusal => exact here
  | none => exact takeActions_coherent mild here

theorem step_coherent (op : Op) (w : World) (congruent : Congruent op w) (coherent : CoherentGraph w.graph) :
    CoherentGraph (step op w).2.graph := by
  rw [step_eq]
  have tie (type : EdgeType) (start finish : Str) (source : Source) (props : Dict Str (Option Scalar)) :
      ∀ action ∈ [Action.tie type start finish source props], action.Mild := by
    simp [Action.Mild]
  have refused : ∀ action ∈ [Action.refuse .unsourced], action.Mild := by
    simp [Action.Mild]
  cases op with
  | upsertAttribute productId reading source =>
      cases source with
      | none => exact takeActions_coherent refused coherent
      | some source =>
          refine takeFact_coherent (tie .hasAttribute productId reading.attrId source []) ?_ coherent
          intro g same node
          obtain ⟨key, value, unit⟩ := congruent
          rw [← same] at key value unit
          exact coherent_folded rfl key value unit
  | linkStates pageId reading source =>
      cases source with
      | none => exact takeActions_coherent refused coherent
      | some source =>
          exact takeFact_coherent (tie .states pageId reading.attrId source [])
            (fun g _ node => coherent_overwritten) coherent
  | upsertSource _ | upsertCategory _ | upsertIngredient _ | upsertIntentCluster _ =>
      exact takeActions_coherent (by simp [actionsOf, Action.Mild]) coherent
  | linkSameAs _ _ _ source =>
      apply takeActions_coherent _ coherent
      simp only [actionsOf]
      split
      · cases source <;> simp [sourced, Action.Mild]
      · simp [Action.Mild]
  | upsertVariant _ productId source =>
      apply takeActions_coherent _ coherent
      cases source <;> cases productId <;> simp [actionsOf, sourced, Action.Mild]
  | upsertStore _ source | upsertProduct _ source | upsertOffer _ _ _ source | upsertPolicyPage _ source
  | linkSells _ _ source | linkCategory _ _ source | upsertMediaAsset _ _ source | linkIngredient _ _ source
  | linkCompatibleWith _ _ source =>
      apply takeActions_coherent _ coherent
      cases source <;> simp [actionsOf, sourced, Action.Mild]

theorem final_coherent {batch : List Op} {w : World} (coherent : CoherentGraph w.graph)
    (steps : ∀ part op, part ++ [op] <+: batch → Congruent op (final step part w)) :
    CoherentGraph (final step batch w).graph := by
  induction batch generalizing w with
  | nil => exact coherent
  | cons op batch ih =>
      apply ih (step_coherent op w (steps [] op (by simp)) coherent)
      intro part op' inside
      exact steps (op :: part) op' (by simpa using inside)

end Proxyshop.Graph
