import Proxyshop.Graph.Upserts

/-!
# What a call does, action by action

A call takes its actions in order, up to the first one that is refused.
-/

namespace Proxyshop.Graph

open Python Numbers Verification

inductive Action
  | refuse (refusal : Refusal)
  | require (endpoints : List (Label × Str))
  | state (source : Source)
  | fact (label : Label) (id : Str) (props : Dict Str (Option Scalar)) (source : Source)
      (folded : List Str)
  | term (label : Label) (id : Str) (props : Dict Str (Option Scalar))
  | tie (type : EdgeType) (start finish : Str) (source : Source) (props : Dict Str (Option Scalar))

namespace Action

def source : Action → Option Source
  | .state source | .fact _ _ _ source _ | .tie _ _ _ source _ => some source
  | .refuse _ | .require _ | .term _ _ _ => none

end Action

def World.missing (w : World) (endpoints : List (Label × Str)) : List (Label × Str) :=
  (endpoints.filter fun endpoint => !w.written endpoint).filter
    fun endpoint => !w.graph.has endpoint.1 endpoint.2

def World.joins (w : World) (type : EdgeType) (start finish : Str) : Bool :=
  w.graph.has type.ends.1 start && w.graph.has type.ends.2 finish

def edgeProps (source : Source) (props : Dict Str (Option Scalar)) : Dict Str (Option Scalar) :=
  Dict.update [(str "source_id", text source.sourceId), (str "observed_at", text source.observedAt)] props

section Taken

variable [Collation]

def World.state (w : World) (source : Source) : World :=
  if w.stated source then w
  else ⟨merge [] (.source source.sourceId) source.asProperties w.graph,
    w.memo.map (World.noteSource source)⟩

/-- The world after a node is written, and what supports it. -/
def World.support (w : World) (label : Label) (id : Str) (props : Dict Str (Option Scalar))
    (source : Source) (src : Properties) (folded : List Str) : World :=
  ⟨merge [] (.support label id source.sourceId)
      [(str "observed_at", src "observed_at"), (str "confidence", src "confidence")]
      (merge folded (.node label id) props w.graph),
    w.memo.map (World.noteNode (label, id))⟩

namespace Action

def refusal : Action → World → Option Refusal
  | .refuse refusal, _ => some refusal
  | .require endpoints, w =>
      if (w.missing endpoints).isEmpty then none else some (.missing (w.missing endpoints))
  | .state _, _ => none
  | .fact label id _ source _, w =>
      if ((w.state source).graph (.source source.sourceId)).isSome then none
      else some (.sourceMissing label id source.sourceId)
  | .term _ _ _, _ => none
  | .tie type start finish source _, w =>
      if (w.state source).joins type start finish then none else some (.dangling type start finish)

/-- The world after the action, also after one that is refused. -/
def after : Action → World → World
  | .refuse _, w => w
  | .require _, w => w
  | .state source, w => w.state source
  | .fact label id props source folded, w =>
      match (w.state source).graph (.source source.sourceId) with
      | none => w.state source
      | some src => (w.state source).support label id props source src folded
  | .term label id props, w =>
      ⟨merge [] (.node label id) props w.graph, w.memo.map (World.noteNode (label, id))⟩
  | .tie type start finish source props, w =>
      if (w.state source).joins type start finish then
        { w.state source with
          graph := merge [] (.edge type start finish) (edgeProps source props) (w.state source).graph }
      else w.state source

end Action

def takeActions : List Action → World → Option Refusal × World
  | [], w => (none, w)
  | action :: actions, w =>
      match action.refusal w with
      | some refusal => (some refusal, action.after w)
      | none => takeActions actions (action.after w)

theorem takeActions_append (actions actions' : List Action) (w : World) :
    takeActions (actions ++ actions') w =
      match takeActions actions w with
      | (some refusal, w') => (some refusal, w')
      | (none, w') => takeActions actions' w' := by
  induction actions generalizing w with
  | nil => rfl
  | cons action actions ih =>
      simp only [List.cons_append, takeActions]
      cases action.refusal w with
      | some refusal => rfl
      | none => exact ih _

def outcomeOf {A : Type} (value : A) : Option Refusal → Except Refusal A
  | none => .ok value
  | some refusal => .error refusal

def Takes {A : Type} (m : Write A) (actions : List Action) (value : A) : Prop :=
  ∀ w, m.run.run w = (outcomeOf value (takeActions actions w).1, (takeActions actions w).2)

namespace Takes

variable {A B : Type} {m : Write A} {k : A → Write B} {actions actions' : List Action} {a : A} {b : B}

theorem returns (a : A) : Takes (pure a) [] a := fun _ => rfl

omit [Collation] in
theorem run_bind (m : Write A) (k : A → Write B) (w : World) :
    (m >>= k).run.run w = match m.run.run w with
      | (.ok a, w') => (k a).run.run w'
      | (.error refusal, w') => (.error refusal, w') := by
  simp only [ExceptT.run_bind, StateT.run_bind]
  rcases m.run.run w with ⟨_ | _, w'⟩ <;> rfl

theorem bind (first : Takes m actions a) (rest : Takes (k a) actions' b) :
    Takes (m >>= k) (actions ++ actions') b := by
  intro w
  rw [run_bind, first w, takeActions_append]
  rcases takeActions actions w with ⟨_ | refusal, w'⟩
  · exact rest w'
  · rfl

theorem map (f : A → B) (taken : Takes m actions a) : Takes (f <$> m) actions (f a) := by
  rw [map_eq_pure_bind, ← List.append_nil actions]
  exact taken.bind (returns _)

end Takes

theorem takes_upsertSource (source : Source) :
    Takes (upsertSource source) [.state source] source.sourceId := by
  intro w
  change StateT.run (m := Id) (ExceptT.run (if w.stated source = true then _ else _)) w = (_, w.state source)
  rw [World.state]
  split <;> rfl

theorem takes_requireSource (source : Source) : Takes (requireSource (some source)) [] source :=
  fun _ => rfl

theorem takes_requireNodes (endpoints : List (Label × Str)) :
    Takes (requireNodes endpoints) [.require endpoints] () := by
  intro w
  change StateT.run (m := Id) (ExceptT.run (if (!(w.missing endpoints).isEmpty) = true then _ else _)) w = _
  simp only [takeActions, Action.refusal, Action.after]
  cases (w.missing endpoints).isEmpty <;> rfl

theorem takes_factNode (label : Label) (material : label.material = true) (id : Str)
    (props : Dict Str (Option Scalar)) (source : Source) (folded : List Str) :
    Takes (factNode label id props source folded) [.fact label id props source folded] id := by
  intro w
  simp only [factNode, material, Bool.not_true, Bool.false_eq_true, if_false]
  rw [Takes.run_bind, takes_upsertSource source w]
  simp only [takeActions, Action.refusal, Action.after, outcomeOf]
  change StateT.run (m := Id) (ExceptT.run (match (w.state source).graph _ with
    | none => _
    | some src => _)) (w.state source) = _
  cases (w.state source).graph (.source source.sourceId) <;> rfl

theorem takes_vocabularyNode (label : Label) (id : Str) (props : Dict Str (Option Scalar)) :
    Takes (vocabularyNode label id props) [.term label id props] id := fun _ => rfl

theorem takes_factEdge (type : EdgeType) {start finish : Label} (ends : type.ends = (start, finish))
    (startId finishId : Str) (source : Source) (props : Dict Str (Option Scalar)) :
    Takes (factEdge type start startId finish finishId source props)
      [.tie type startId finishId source props] () := by
  intro w
  simp only [factEdge, ends, ne_eq, not_true_eq_false, if_false]
  rw [Takes.run_bind, takes_upsertSource source w]
  simp only [takeActions, Action.refusal, Action.after, outcomeOf, World.joins, ends]
  change StateT.run (m := Id) (ExceptT.run (if ((w.state source).graph.has _ _ && _) = true then _ else _))
    (w.state source) = _
  split <;> rfl

/-! ## The calls -/

def sourced (named : Option Source) (actions : Source → List Action) : List Action :=
  match named with
  | none => [.refuse .unsourced]
  | some source => actions source

theorem Takes.sourced {A : Type} {named : Option Source} {k : Source → Write A}
    {actions : Source → List Action} {value : A} (taken : ∀ source, Takes (k source) (actions source) value) :
    Takes (requireSource named >>= k) (sourced named actions) value := by
  cases named with
  | none => exact fun _ => rfl
  | some source => exact (takes_requireSource source).bind (taken source)

variable [Folding]

def actionsOf : Op → List Action
  | .upsertSource source => [.state source]
  | .upsertStore store source =>
      sourced source fun source => [.fact .store store.storeId store.asProperties source []]
  | .upsertProduct product source =>
      sourced source fun source => [.fact .product product.productId product.asProperties source []]
  | .upsertVariant variant productId source =>
      sourced source fun source =>
        (productId.toList.map fun productId => Action.require [(.product, productId)]) ++
        [.fact .variant variant.variantId variant.asProperties source []] ++
        productId.toList.map fun productId =>
          Action.tie .hasVariant productId variant.variantId source []
  | .upsertOffer offer storeId variantId source =>
      sourced source fun source =>
        [.require [(.store, storeId), (.variant, variantId)],
          .fact .offer offer.offerId offer.asProperties source [],
          .tie .makesOffer storeId offer.offerId source [],
          .tie .forVariant offer.offerId variantId source []]
  | .upsertPolicyPage page source =>
      sourced source fun source => [.fact .policyPage page.pageId page.asProperties source []]
  | .upsertCategory category => [.term .category category.categoryId category.asProperties]
  | .upsertIngredient ingredient => [.term .ingredient ingredient.ingredientId ingredient.asProperties]
  | .upsertIntentCluster cluster => [.term .intentCluster cluster.clusterId cluster.asProperties]
  | .linkSells storeId productId source =>
      sourced source fun source => [.tie .sells storeId productId source []]
  | .linkCategory productId category source =>
      sourced source fun source =>
        [.term .category category.categoryId category.asProperties,
          .tie .inCategory productId category.categoryId source []]
  | .upsertAttribute productId reading source =>
      sourced source fun source =>
        [.fact .attributeValue reading.attrId reading.asProperties source attributeDisplayProperties,
          .tie .hasAttribute productId reading.attrId source []]
  | .upsertMediaAsset productId asset source =>
      sourced source fun source =>
        [.require [(.product, productId)],
          .fact .mediaAsset asset.assetId asset.asProperties source [],
          .tie .hasMedia productId asset.assetId source [(str "position", some (.whole asset.position))]]
  | .linkIngredient productId ingredient source =>
      sourced source fun source =>
        [.term .ingredient ingredient.ingredientId ingredient.asProperties,
          .tie .contains productId ingredient.ingredientId source []]
  | .linkCompatibleWith productId otherId source =>
      sourced source fun source => [.tie .compatibleWith productId otherId source []]
  | .linkSameAs productId otherId confidence source =>
      if 0.0 ≤ confidence && confidence ≤ 1.0 then
        sourced source fun source =>
          [.tie .sameAs productId otherId source [(str "confidence", some (.number confidence))]]
      else [.refuse .confidence]
  | .linkStates pageId reading source =>
      sourced source fun source =>
        [.fact .attributeValue reading.attrId reading.asProperties source [],
          .tie .states pageId reading.attrId source []]

def replyOf : Op → Option Str
  | .upsertSource source => some source.sourceId
  | .upsertStore store _ => some store.storeId
  | .upsertProduct product _ => some product.productId
  | .upsertVariant variant _ _ => some variant.variantId
  | .upsertOffer offer _ _ _ => some offer.offerId
  | .upsertPolicyPage page _ => some page.pageId
  | .upsertCategory category | .linkCategory _ category _ => some category.categoryId
  | .upsertIngredient ingredient | .linkIngredient _ ingredient _ => some ingredient.ingredientId
  | .upsertIntentCluster cluster => some cluster.clusterId
  | .upsertAttribute _ reading _ | .linkStates _ reading _ => some reading.attrId
  | .upsertMediaAsset _ asset _ => some asset.assetId
  | .linkSells _ _ _ | .linkCompatibleWith _ _ _ | .linkSameAs _ _ _ _ => none

theorem takes_call (op : Op) : Takes (call op) (actionsOf op) (replyOf op) := by
  cases op with
  | upsertSource source => exact (takes_upsertSource source).map some
  | upsertStore store source =>
      apply Takes.map (a := store.storeId)
      exact Takes.sourced fun source => takes_factNode _ rfl _ _ source []
  | upsertProduct product source =>
      apply Takes.map (a := product.productId)
      exact Takes.sourced fun source => takes_factNode _ rfl _ _ source []
  | upsertVariant variant productId source =>
      apply Takes.map (a := variant.variantId)
      apply Takes.sourced
      intro source
      have fact := takes_factNode .variant rfl variant.variantId variant.asProperties source []
      cases productId with
      | none => exact fact.bind (.returns _)
      | some productId =>
          have tie := takes_factEdge .hasVariant rfl productId variant.variantId source []
          exact (takes_requireNodes _).bind (fact.bind (tie.bind (.returns _)))
  | upsertOffer offer storeId variantId source =>
      apply Takes.map (a := offer.offerId)
      apply Takes.sourced
      intro source
      have fact := takes_factNode .offer rfl offer.offerId offer.asProperties source []
      have makes := takes_factEdge .makesOffer rfl storeId offer.offerId source []
      have lists := takes_factEdge .forVariant rfl offer.offerId variantId source []
      exact (takes_requireNodes _).bind (fact.bind (makes.bind (lists.bind (.returns _))))
  | upsertPolicyPage page source =>
      apply Takes.map (a := page.pageId)
      exact Takes.sourced fun source => takes_factNode _ rfl _ _ source []
  | upsertCategory category => exact (takes_vocabularyNode _ _ _).map some
  | upsertIngredient ingredient => exact (takes_vocabularyNode _ _ _).map some
  | upsertIntentCluster cluster => exact (takes_vocabularyNode _ _ _).map some
  | linkSells storeId productId source =>
      apply Takes.map (a := ())
      exact Takes.sourced fun source => takes_factEdge _ rfl _ _ source []
  | linkCategory productId category source =>
      apply Takes.map (a := category.categoryId)
      apply Takes.sourced
      intro source
      have tie := takes_factEdge .inCategory rfl productId category.categoryId source []
      exact (takes_vocabularyNode _ _ _).bind (tie.bind (.returns _))
  | upsertAttribute productId reading source =>
      apply Takes.map (a := reading.attrId)
      apply Takes.sourced
      intro source
      have tie := takes_factEdge .hasAttribute rfl productId reading.attrId source []
      exact (takes_factNode _ rfl _ _ source _).bind (tie.bind (.returns _))
  | upsertMediaAsset productId asset source =>
      apply Takes.map (a := asset.assetId)
      apply Takes.sourced
      intro source
      have fact := takes_factNode .mediaAsset rfl asset.assetId asset.asProperties source []
      have tie := takes_factEdge .hasMedia rfl productId asset.assetId source
        [(str "position", some (.whole asset.position))]
      exact (takes_requireNodes _).bind (fact.bind (tie.bind (.returns _)))
  | linkIngredient productId ingredient source =>
      apply Takes.map (a := ingredient.ingredientId)
      apply Takes.sourced
      intro source
      have tie := takes_factEdge .contains rfl productId ingredient.ingredientId source []
      exact (takes_vocabularyNode _ _ _).bind (tie.bind (.returns _))
  | linkCompatibleWith productId otherId source =>
      apply Takes.map (a := ())
      exact Takes.sourced fun source => takes_factEdge _ rfl _ _ source []
  | linkSameAs productId otherId confidence source =>
      apply Takes.map (a := ())
      simp only [linkSameAs, actionsOf]
      cases inside : 0.0 ≤ confidence && confidence ≤ 1.0 with
      | false => exact fun _ => rfl
      | true => exact Takes.sourced fun source => takes_factEdge _ rfl _ _ source _
  | linkStates pageId reading source =>
      apply Takes.map (a := reading.attrId)
      apply Takes.sourced
      intro source
      have tie := takes_factEdge .states rfl pageId reading.attrId source []
      exact (takes_factNode _ rfl _ _ source _).bind (tie.bind (.returns _))

theorem step_eq (op : Op) (w : World) :
    step op w = (outcomeOf (replyOf op) (takeActions (actionsOf op) w).1,
      (takeActions (actionsOf op) w).2) :=
  takes_call op w

end Taken
end Proxyshop.Graph
