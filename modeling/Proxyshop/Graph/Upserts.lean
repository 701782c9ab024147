import Mathlib.Logic.Function.Basic
import Proxyshop.Graph.Payloads
import Proxyshop.Structures.Sorted

/-!
# The writes of the catalogue graph

An upsert is a few statements that are committed one by one, so what an upsert wrote before it was
refused stays. Inside a memo, what the batch stated before is not stated again.
-/

namespace Proxyshop.Graph

open Python Numbers Verification Structures

inductive Label
  | store
  | product
  | variant
  | offer
  | category
  | attributeValue
  | ingredient
  | mediaAsset
  | policyPage
  | intentCluster
  deriving DecidableEq

/-- `MATERIAL_FACT_LABELS`. -/
def Label.material : Label → Bool
  | .category | .ingredient | .intentCluster => false
  | _ => true

inductive EdgeType
  | sells
  | makesOffer
  | forVariant
  | hasVariant
  | inCategory
  | hasAttribute
  | hasMedia
  | contains
  | compatibleWith
  | sameAs
  | states
  deriving DecidableEq

/-- `MATERIAL_FACT_EDGES`. -/
def EdgeType.ends : EdgeType → Label × Label
  | .sells => (.store, .product)
  | .makesOffer => (.store, .offer)
  | .forVariant => (.offer, .variant)
  | .hasVariant => (.product, .variant)
  | .inCategory => (.product, .category)
  | .hasAttribute => (.product, .attributeValue)
  | .hasMedia => (.product, .mediaAsset)
  | .contains => (.product, .ingredient)
  | .compatibleWith => (.product, .product)
  | .sameAs => (.product, .product)
  | .states => (.policyPage, .attributeValue)

/-- What the graph may hold: a node under its stable id, or an edge between two of them. -/
inductive Place
  | source (id : Str)
  | node (label : Label) (id : Str)
  | support (label : Label) (id source : Str)
  | edge (type : EdgeType) (start finish : Str)
  deriving DecidableEq

abbrev Catalogue := Place → Option Properties

def Catalogue.empty : Catalogue := fun _ => none

def Catalogue.has (g : Catalogue) (label : Label) (id : Str) : Bool := (g (.node label id)).isSome

/-- The order of the texts in the database. -/
class Collation where
  le : Str → Str → Bool
  order : KeyOrder le Set.univ

@[reducible] def Collation.codePoints : Collation := ⟨Str.le, str_order⟩

section Statements

variable [Collation]

/-- `_least_of`: the property after the fold, from what it was and what was written. -/
def leastOf : Option Scalar → Option Scalar → Option Scalar
  | none, new => new
  | prior, none => prior
  | some (.text prior), some (.text new) => text (if Collation.le new prior then new else prior)
  | some _, new => new

/-- A statement that merges a place and writes its properties, some of them folded. -/
def merge (folded : List Str) (place : Place) (props : Dict Str (Option Scalar)) (g : Catalogue) : Catalogue :=
  let prior := (g place).getD fun _ => none
  Function.update g place <| some fun name =>
    if name ∈ folded then leastOf (prior name) (assign props prior name) else assign props prior name

end Statements

/-- `WriteMemo`. -/
structure Memo where
  sources : List (Str × Dict Str (Option Scalar))
  nodes : List (Label × Str)

def Memo.empty : Memo := ⟨[], []⟩

structure World where
  graph : Catalogue
  memo : Option Memo

inductive Refusal
  /-- No source was named. -/
  | unsourced
  | sourceMissing (label : Label) (id source : Str)
  | missing (endpoints : List (Label × Str))
  | dangling (type : EdgeType) (start finish : Str)
  /-- A label or an edge that is no material fact. -/
  | immaterial
  | confidence
  deriving DecidableEq

/-- The refusals that are `ProvenanceRequired`. -/
def Refusal.provenance : Refusal → Bool
  | .immaterial | .confidence => false
  | _ => true

abbrev Write := ExceptT Refusal (StateM World)

def World.stated (w : World) (source : Source) : Bool :=
  w.memo.any fun memo => (source.sourceId, source.asProperties) ∈ memo.sources

def World.written (w : World) (endpoint : Label × Str) : Bool :=
  w.memo.any fun memo => endpoint ∈ memo.nodes

def World.noteSource (source : Source) (memo : Memo) : Memo :=
  { memo with sources := (source.sourceId, source.asProperties) :: memo.sources }

def World.noteNode (endpoint : Label × Str) (memo : Memo) : Memo :=
  { memo with nodes := endpoint :: memo.nodes }

section Writes

variable [Collation]

def upsertSource (source : Source) : Write Str := do
  let w ← get
  if w.stated source then return source.sourceId
  set (World.mk (merge [] (.source source.sourceId) source.asProperties w.graph)
    (w.memo.map (World.noteSource source)))
  return source.sourceId

omit [Collation] in
def requireSource : Option Source → Write Source
  | none => throw .unsourced
  | some source => return source

/-- `_fact_node`. -/
def factNode (label : Label) (id : Str) (props : Dict Str (Option Scalar)) (source : Source)
    (folded : List Str) : Write Str := do
  if !label.material then throw .immaterial
  let _ ← upsertSource source
  let w ← get
  match w.graph (.source source.sourceId) with
  | none => throw (.sourceMissing label id source.sourceId)
  | some src =>
      let supported := merge [] (.support label id source.sourceId)
        [("observed_at", src "observed_at"), ("confidence", src "confidence")]
        (merge folded (.node label id) props w.graph)
      set (World.mk supported (w.memo.map (World.noteNode (label, id))))
      return id

/-- `_vocabulary_node`. -/
def vocabularyNode (label : Label) (id : Str) (props : Dict Str (Option Scalar)) : Write Str := do
  let w ← get
  set (World.mk (merge [] (.node label id) props w.graph) (w.memo.map (World.noteNode (label, id))))
  return id

omit [Collation] in
/-- `_require_nodes`. -/
def requireNodes (endpoints : List (Label × Str)) : Write Unit := do
  let w ← get
  let unknown := endpoints.filter fun endpoint => !w.written endpoint
  let missing := unknown.filter fun endpoint => !w.graph.has endpoint.1 endpoint.2
  if !missing.isEmpty then throw (.missing missing)

/-- `_fact_edge`. -/
def factEdge (type : EdgeType) (fromLabel : Label) (fromId : Str) (toLabel : Label) (toId : Str)
    (source : Source) (edgeProps : Dict Str (Option Scalar)) : Write Unit := do
  if type.ends ≠ (fromLabel, toLabel) then throw .immaterial
  let _ ← upsertSource source
  let props := Dict.update
    [(str "source_id", text source.sourceId), (str "observed_at", text source.observedAt)] edgeProps
  let w ← get
  if w.graph.has fromLabel fromId && w.graph.has toLabel toId then
    set { w with graph := merge [] (.edge type fromId toId) props w.graph }
  else throw (.dangling type fromId toId)

/-! ## Nodes -/

def upsertStore (store : Store) (source : Option Source) : Write Str := do
  factNode .store store.storeId store.asProperties (← requireSource source) []

def upsertProduct (product : Product) (source : Option Source) : Write Str := do
  factNode .product product.productId product.asProperties (← requireSource source) []

def upsertVariant (variant : Variant) (productId : Option Str) (source : Option Source) : Write Str := do
  let resolved ← requireSource source
  if let some productId := productId then requireNodes [(.product, productId)]
  let _ ← factNode .variant variant.variantId variant.asProperties resolved []
  if let some productId := productId then
    factEdge .hasVariant .product productId .variant variant.variantId resolved []
  return variant.variantId

def upsertOffer (offer : Offer) (storeId variantId : Str) (source : Option Source) : Write Str := do
  let resolved ← requireSource source
  requireNodes [(.store, storeId), (.variant, variantId)]
  let _ ← factNode .offer offer.offerId offer.asProperties resolved []
  factEdge .makesOffer .store storeId .offer offer.offerId resolved []
  factEdge .forVariant .offer offer.offerId .variant variantId resolved []
  return offer.offerId

def upsertPolicyPage (page : PolicyPage) (source : Option Source) : Write Str := do
  factNode .policyPage page.pageId page.asProperties (← requireSource source) []

def upsertIntentCluster (cluster : IntentCluster) : Write Str :=
  vocabularyNode .intentCluster cluster.clusterId cluster.asProperties

section Terms

variable [Folding]

def upsertCategory (category : Category) : Write Str :=
  vocabularyNode .category category.categoryId category.asProperties

def upsertIngredient (ingredient : Ingredient) : Write Str :=
  vocabularyNode .ingredient ingredient.ingredientId ingredient.asProperties

end Terms

/-! ## Edges -/

def linkSells (storeId productId : Str) (source : Option Source) : Write Unit := do
  factEdge .sells .store storeId .product productId (← requireSource source) []

section Terms

variable [Folding]

def linkCategory (productId : Str) (category : Category) (source : Option Source) : Write Str := do
  let resolved ← requireSource source
  let _ ← upsertCategory category
  factEdge .inCategory .product productId .category category.categoryId resolved []
  return category.categoryId

def attributeDisplayProperties : List Str := ["key", "value_string", "unit"]

def upsertAttribute (productId : Str) (reading : AttributeValue) (source : Option Source) :
    Write Str := do
  let resolved ← requireSource source
  let _ ← factNode .attributeValue reading.attrId reading.asProperties resolved
    attributeDisplayProperties
  factEdge .hasAttribute .product productId .attributeValue reading.attrId resolved []
  return reading.attrId

def linkIngredient (productId : Str) (ingredient : Ingredient) (source : Option Source) :
    Write Str := do
  let resolved ← requireSource source
  let _ ← upsertIngredient ingredient
  factEdge .contains .product productId .ingredient ingredient.ingredientId resolved []
  return ingredient.ingredientId

def linkStates (pageId : Str) (reading : AttributeValue) (source : Option Source) : Write Str := do
  let resolved ← requireSource source
  let _ ← factNode .attributeValue reading.attrId reading.asProperties resolved []
  factEdge .states .policyPage pageId .attributeValue reading.attrId resolved []
  return reading.attrId

end Terms

def upsertMediaAsset (productId : Str) (asset : MediaAsset) (source : Option Source) : Write Str := do
  let resolved ← requireSource source
  requireNodes [(.product, productId)]
  let _ ← factNode .mediaAsset asset.assetId asset.asProperties resolved []
  factEdge .hasMedia .product productId .mediaAsset asset.assetId resolved
    [("position", some (.whole asset.position))]
  return asset.assetId

def linkCompatibleWith (productId otherId : Str) (source : Option Source) : Write Unit := do
  factEdge .compatibleWith .product productId .product otherId (← requireSource source) []

def linkSameAs (productId otherId : Str) (confidence : Extended Binary64) (source : Option Source) :
    Write Unit := do
  if !(0.0 ≤ confidence && confidence ≤ 1.0) then throw .confidence
  factEdge .sameAs .product productId .product otherId (← requireSource source)
    [("confidence", some (.number confidence))]

inductive Op
  | upsertSource (source : Source)
  | upsertStore (store : Store) (source : Option Source)
  | upsertProduct (product : Product) (source : Option Source)
  | upsertVariant (variant : Variant) (productId : Option Str) (source : Option Source)
  | upsertOffer (offer : Offer) (storeId variantId : Str) (source : Option Source)
  | upsertPolicyPage (page : PolicyPage) (source : Option Source)
  | upsertCategory (category : Category)
  | upsertIngredient (ingredient : Ingredient)
  | upsertIntentCluster (cluster : IntentCluster)
  | linkSells (storeId productId : Str) (source : Option Source)
  | linkCategory (productId : Str) (category : Category) (source : Option Source)
  | upsertAttribute (productId : Str) (reading : AttributeValue) (source : Option Source)
  | upsertMediaAsset (productId : Str) (asset : MediaAsset) (source : Option Source)
  | linkIngredient (productId : Str) (ingredient : Ingredient) (source : Option Source)
  | linkCompatibleWith (productId otherId : Str) (source : Option Source)
  | linkSameAs (productId otherId : Str) (confidence : Extended Binary64) (source : Option Source)
  | linkStates (pageId : Str) (reading : AttributeValue) (source : Option Source)

variable [Folding]

/-- The call; one that returns nothing returns `none`. -/
def call : Op → Write (Option Str)
  | .upsertSource source => some <$> upsertSource source
  | .upsertStore store source => some <$> upsertStore store source
  | .upsertProduct product source => some <$> upsertProduct product source
  | .upsertVariant variant productId source => some <$> upsertVariant variant productId source
  | .upsertOffer offer storeId variantId source => some <$> upsertOffer offer storeId variantId source
  | .upsertPolicyPage page source => some <$> upsertPolicyPage page source
  | .upsertCategory category => some <$> upsertCategory category
  | .upsertIngredient ingredient => some <$> upsertIngredient ingredient
  | .upsertIntentCluster cluster => some <$> upsertIntentCluster cluster
  | .linkSells storeId productId source => (fun _ => none) <$> linkSells storeId productId source
  | .linkCategory productId category source => some <$> linkCategory productId category source
  | .upsertAttribute productId reading source => some <$> upsertAttribute productId reading source
  | .upsertMediaAsset productId asset source => some <$> upsertMediaAsset productId asset source
  | .linkIngredient productId ingredient source => some <$> linkIngredient productId ingredient source
  | .linkCompatibleWith productId otherId source =>
      (fun _ => none) <$> linkCompatibleWith productId otherId source
  | .linkSameAs productId otherId confidence source =>
      (fun _ => none) <$> linkSameAs productId otherId confidence source
  | .linkStates pageId reading source => some <$> linkStates pageId reading source

def step (op : Op) (w : World) : Except Refusal (Option Str) × World := (call op).run.run w

end Writes
end Proxyshop.Graph
