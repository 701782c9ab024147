import Proxyshop.Graph.Memo
import Proxyshop.Structures.Shadow

/-!
# Every material fact is sourced

What the provenance audit finds after a batch, what a refused call leaves, and what a batch does that
is run again.
-/

namespace Proxyshop.Graph

open Python Numbers Verification Structures

/-! ## The audit -/

inductive ProvenanceViolation
  | unsourcedNode (label : Label) (id : Str)
  | supportedByNonSource (label : Label) (id target : Str)
  | unsourcedEdge (type : EdgeType) (start finish : Str)

/-- The `source_id` of an edge names a source of the graph. -/
def Resolves (g : Catalogue) : Option Scalar → Prop
  | some (.text id) => id ≠ [] ∧ (g (.source id)).isSome
  | _ => False

/-- `provenance_violations`. -/
def provenanceViolations (g : Catalogue) : Set ProvenanceViolation
  | .unsourcedNode label id => label.material = true ∧ g.has label id = true ∧
      ¬ ∃ source, (g (.support label id source)).isSome ∧ (g (.source source)).isSome
  | .supportedByNonSource label id target =>
      (g (.support label id target)).isSome ∧ ¬ (g (.source target)).isSome
  | .unsourcedEdge type start finish =>
      ∃ props, g (.edge type start finish) = some props ∧ ¬ Resolves g (props "source_id")

structure Sourced (g : Catalogue) : Prop where
  nodes : ∀ label id, label.material = true → g.has label id = true →
    ∃ source, (g (.support label id source)).isSome
  supports : ∀ label id source, (g (.support label id source)).isSome → (g (.source source)).isSome
  edges : ∀ type start finish props, g (.edge type start finish) = some props →
    Resolves g (props "source_id")

theorem Sourced.no_violations {g : Catalogue} (sourced : Sourced g) : provenanceViolations g = ∅ := by
  apply Set.eq_empty_of_forall_notMem
  intro violation
  cases violation with
  | unsourcedNode label id =>
      rintro ⟨material, held, none_found⟩
      obtain ⟨source, supported⟩ := sourced.nodes label id material held
      exact none_found ⟨source, supported, sourced.supports label id source supported⟩
  | supportedByNonSource label id target =>
      rintro ⟨supported, absent⟩
      exact absent (sourced.supports label id target supported)
  | unsourcedEdge type start finish =>
      rintro ⟨props, held, unresolved⟩
      exact unresolved (sourced.edges type start finish props held)

theorem sourced_empty : Sourced .empty where
  nodes _ _ _ held := by cases held
  supports _ _ _ held := by cases held
  edges _ _ _ _ held := by cases held

variable [Collation]

section Merges

variable {g : Catalogue} {folded : List Str} {props : Dict Str (Option Scalar)}

theorem Resolves.merge {place : Place} {value : Option Scalar} (resolves : Resolves g value) :
    Resolves (merge folded place props g) value := by
  unfold Resolves at *
  split at resolves
  · exact ⟨resolves.1, merge_keeps resolves.2⟩
  · exact resolves

theorem Sourced.source (sourced : Sourced g) (id : Str) :
    Sourced (merge folded (.source id) props g) := by
  refine ⟨fun label id' material held => ?_, fun label id' source held => ?_,
    fun type start finish props' held => ?_⟩
  · rw [Catalogue.has, merge_of_ne (by simp)] at held
    obtain ⟨source, supported⟩ := sourced.nodes label id' material held
    exact ⟨source, merge_keeps supported⟩
  · rw [merge_of_ne (by simp)] at held
    exact merge_keeps (sourced.supports label id' source held)
  · rw [merge_of_ne (by simp)] at held
    exact (sourced.edges type start finish props' held).merge

theorem Sourced.term (sourced : Sourced g) {label : Label} (immaterial : label.material = false)
    (id : Str) : Sourced (merge folded (.node label id) props g) := by
  refine ⟨fun label' id' material held => ?_, fun label' id' source held => ?_,
    fun type start finish props' held => ?_⟩
  · have other : Place.node label' id' ≠ .node label id := by
      rintro ⟨⟩
      simp_all
    rw [Catalogue.has, merge_of_ne other] at held
    obtain ⟨source, supported⟩ := sourced.nodes label' id' material held
    exact ⟨source, merge_keeps supported⟩
  · rw [merge_of_ne (by simp)] at held
    exact merge_keeps (sourced.supports label' id' source held)
  · rw [merge_of_ne (by simp)] at held
    exact (sourced.edges type start finish props' held).merge

theorem Sourced.fact (sourced : Sourced g) {source : Str} (held : (g (.source source)).isSome)
    (label : Label) (id : Str) (props' : Dict Str (Option Scalar)) :
    Sourced (merge [] (.support label id source) props' (merge folded (.node label id) props g)) := by
  refine ⟨fun label' id' material here => ?_, fun label' id' source' here => ?_,
    fun type start finish props'' here => ?_⟩
  · by_cases same : Place.node label' id' = .node label id
    · obtain ⟨rfl, rfl⟩ := Place.node.inj same
      exact ⟨source, isSome_merge⟩
    · rw [Catalogue.has, merge_of_ne (by simp), merge_of_ne same] at here
      obtain ⟨source', supported⟩ := sourced.nodes label' id' material here
      exact ⟨source', merge_keeps (merge_keeps supported)⟩
  · by_cases same : Place.support label' id' source' = .support label id source
    · obtain ⟨-, -, rfl⟩ := Place.support.inj same
      exact merge_keeps (merge_keeps held)
    · rw [merge_of_ne same, merge_of_ne (by simp)] at here
      exact merge_keeps (merge_keeps (sourced.supports label' id' source' here))
  · rw [merge_of_ne (by simp), merge_of_ne (by simp)] at here
    exact (sourced.edges type start finish props'' here).merge.merge

theorem Sourced.edge (sourced : Sourced g) {value : Option Scalar} (resolves : Resolves g value)
    (named : Dict.get? props "source_id" = some value) (type : EdgeType) (start finish : Str) :
    Sourced (merge [] (.edge type start finish) props g) := by
  refine ⟨fun label id material held => ?_, fun label id source held => ?_,
    fun type' start' finish' props' held => ?_⟩
  · rw [Catalogue.has, merge_of_ne (by simp)] at held
    obtain ⟨source, supported⟩ := sourced.nodes label id material held
    exact ⟨source, merge_keeps supported⟩
  · rw [merge_of_ne (by simp)] at held
    exact merge_keeps (sourced.supports label id source held)
  · by_cases same : Place.edge type' start' finish' = .edge type start finish
    · rw [same, merge, Function.update_self] at held
      obtain rfl := Option.some.inj held
      simpa [assign, named] using resolves.merge
    · rw [merge_of_ne same] at held
      exact (sourced.edges type' start' finish' props' held).merge

end Merges

/-- A term is no material fact, and an edge's own properties do not name its source. -/
def Action.Proper : Action → Prop
  | .term label _ _ => label.material = false
  | .tie _ _ _ _ props => Dict.get? props (str "source_id") = none
  | _ => True

omit [Collation] in
theorem get?_edgeProps (source : Source) {props : Dict Str (Option Scalar)}
    (unnamed : Dict.get? props (str "source_id") = none) :
    Dict.get? (edgeProps source props) (str "source_id") = some (text source.sourceId) := by
  rw [edgeProps, Dict.get?_update_of_not_mem _ _ ((Dict.get?_eq_none_iff _ _).mp unnamed)]
  exact Dict.get?_cons_self ..

omit [Collation] in
theorem Source.named (source : Source) : source.sourceId ≠ [] := by
  intro blank
  apply source.traceable source.sourceId List.mem_cons_self
  rw [blank]
  rfl

theorem World.state_sourced {w : World} (sourced : Sourced w.graph) (source : Source) :
    Sourced (w.state source).graph := by
  unfold World.state
  split
  · exact sourced
  · exact sourced.source _

theorem World.state_isSome {w : World} (sound : w.Sound) (source : Source) :
    ((w.state source).graph (.source source.sourceId)).isSome := by
  cases stated : w.stated source with
  | true => exact state_keeps (sound.sources source stated)
  | false => simp [World.state, stated, isSome_merge]

theorem Action.sourced_after (action : Action) {w : World} (proper : action.Proper) (sound : w.Sound)
    (sourced : Sourced w.graph) : Sourced (action.after w).graph := by
  cases action with
  | refuse _ | require _ => exact sourced
  | state source => exact w.state_sourced sourced source
  | fact label id props source folded =>
      have stated := w.state_sourced sourced source
      simp only [after]
      cases held : (w.state source).graph (.source source.sourceId) with
      | none => exact stated
      | some src => exact stated.fact (by simp [held]) label id _
  | term label id props => exact sourced.term proper id
  | tie type start finish source props =>
      have stated := w.state_sourced sourced source
      simp only [after]
      split
      · have resolves : Resolves (w.state source).graph (text source.sourceId) :=
          ⟨source.named, World.state_isSome sound source⟩
        exact stated.edge resolves (get?_edgeProps source proper) type start finish
      · exact stated

theorem takeActions_sourced {actions : List Action} (proper : ∀ action ∈ actions, action.Proper)
    {w : World} (sound : w.Sound) (sourced : Sourced w.graph) :
    (takeActions actions w).2.Sound ∧ Sourced (takeActions actions w).2.graph := by
  induction actions generalizing w with
  | nil => exact ⟨sound, sourced⟩
  | cons action actions ih =>
      have here := action.sourced_after (proper action List.mem_cons_self) sound sourced
      simp only [takeActions]
      cases action.refusal w with
      | some refusal => exact ⟨action.sound_after sound, here⟩
      | none =>
          exact ih (fun other member => proper other (List.mem_cons_of_mem _ member))
            (action.sound_after sound) here

variable [Folding]

omit [Collation] in
theorem proper_actionsOf (op : Op) : ∀ action ∈ actionsOf op, action.Proper := by
  have apart : str "source_id" ≠ str "position" ∧ str "source_id" ≠ str "confidence" := by decide
  cases op with
  | upsertSource _ | upsertCategory _ | upsertIngredient _ | upsertIntentCluster _ =>
      simp [actionsOf, Action.Proper, Label.material]
  | linkSameAs productId otherId confidence source =>
      simp only [actionsOf]
      split
      · cases source <;> simp [sourced, Action.Proper, Dict.get?, apart.2.symm]
      · simp [Action.Proper]
  | upsertVariant variant productId source =>
      cases source <;> cases productId <;> simp [actionsOf, sourced, Action.Proper]
  | upsertMediaAsset _ _ source =>
      cases source <;> simp [actionsOf, sourced, Action.Proper, Dict.get?, apart.1.symm]
  | upsertStore _ source | upsertProduct _ source | upsertOffer _ _ _ source
  | upsertPolicyPage _ source | linkSells _ _ source | linkCategory _ _ source
  | upsertAttribute _ _ source | linkIngredient _ _ source
  | linkCompatibleWith _ _ source | linkStates _ _ source =>
      cases source <;> simp [actionsOf, sourced, Action.Proper, Label.material]

theorem step_sourced (op : Op) (w : World) (held : w.Sound ∧ Sourced w.graph) :
    (step op w).2.Sound ∧ Sourced (step op w).2.graph := by
  rw [step_eq]
  exact takeActions_sourced (proper_actionsOf op) held.1 held.2

end Proxyshop.Graph
