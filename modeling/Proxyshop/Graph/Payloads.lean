import Proxyshop.Hashing.Sha256
import Proxyshop.Numbers.Binary64
import Proxyshop.Verification.Normalize

/-!
# What is written of a node

The payload of each label, and the properties it is written as. A property that is null is removed
by the write.
-/

/-!
## The form of a text that content hashes are taken over
-/

namespace Proxyshop.Graph

open Python Verification Hashing

variable [Folding]

def canonicalText (value : Str) : Str :=
  collapse false (Folding.casefold (Folding.nfkc value)).strip

def hyphen : CodePoint := CodePoint.ofChar '-'

/-- `a-z0-9`. -/
def isSlugChar (c : CodePoint) : Bool := (97 ≤ c.val && c.val ≤ 122) || (48 ≤ c.val && c.val ≤ 57)

/-- `_NON_SLUG.sub("-", s)`, after a replaced character or not. -/
def dashed : Bool → Str → Str
  | _, [] => []
  | replaced, c :: s =>
      if isSlugChar c then c :: dashed false s
      else if replaced then dashed true s
      else hyphen :: dashed true s

def slug (value : Str) : Str :=
  let stripped := ((dashed false (canonicalText value)).dropWhile fun c => c = hyphen).rdropWhile
    fun c => c = hyphen
  if stripped.isEmpty then str "_" else stripped

def unitSeparator : CodePoint := CodePoint.ofChar '\x1f'

omit [Folding] in
/-- `_digest`. -/
def digest (parts : List Str) : Except PyError Str :=
  match Str.encodeUtf8 (List.intercalate [unitSeparator] parts) with
  | some bytes => .ok ((sha256Hex bytes).take 32)
  | none => .error .valueError

end Proxyshop.Graph

namespace Proxyshop.Graph

open Python Numbers Verification

inductive Scalar
  | text (s : Str)
  | number (x : Extended Binary64)
  | whole (n : Int)
  | flag (b : Bool)
  deriving DecidableEq

abbrev Properties := Str → Option Scalar

/-- `SET n += $props`: a null removes, and a property that is not named stays. -/
def assign (values : Dict Str (Option Scalar)) (properties : Properties) : Properties := fun name =>
  match Dict.get? values name with
  | some value => value
  | none => properties name

def text (s : Str) : Option Scalar := some (.text s)

def sourceClasses : List Str :=
  ["scraped", "pixel_feed", "owner_statement", "envelope_rule", "learned_policy", "network",
    "seller_asserted"]

structure Source where
  sourceId : Str
  url : Str
  contentHash : Str
  observedAt : Str
  extractorVersion : Str
  confidence : Extended Binary64
  sourceClass : Str
  traceable : ∀ value ∈ [sourceId, url, contentHash, observedAt, extractorVersion], value.strip ≠ []
  classed : sourceClass ∈ sourceClasses
  bounded : 0.0 ≤ confidence ∧ confidence ≤ 1.0

def Source.asProperties (s : Source) : Dict Str (Option Scalar) :=
  [(str "source_id", text s.sourceId), (str "url", text s.url), (str "content_hash", text s.contentHash),
    (str "observed_at", text s.observedAt), (str "extractor_version", text s.extractorVersion),
    (str "confidence", some (.number s.confidence)), (str "source_class", text s.sourceClass)]

structure Store where
  storeId : Str
  domain : Str
  businessIdentity : Str
  tier : Option Int

def Store.asProperties (s : Store) : Dict Str (Option Scalar) :=
  [(str "store_id", text s.storeId), (str "domain", text s.domain),
    (str "business_identity", text s.businessIdentity)] ++
    s.tier.toList.map fun tier => (str "tier", some (.whole tier))

structure Product where
  productId : Str
  canonicalName : Str
  brand : Str
  status : Str

def Product.asProperties (p : Product) : Dict Str (Option Scalar) :=
  [(str "product_id", text p.productId), (str "canonical_name", text p.canonicalName),
    (str "brand", text p.brand), (str "status", text p.status)]

structure Variant where
  variantId : Str
  sellerSku : Str
  name : Str
  status : Str
  nativeVariantId : Str

def Variant.asProperties (v : Variant) : Dict Str (Option Scalar) :=
  [(str "variant_id", text v.variantId), (str "seller_sku", text v.sellerSku), (str "name", text v.name),
    (str "status", text v.status), (str "native_variant_id", text v.nativeVariantId)]

structure Offer where
  offerId : Str
  price : Extended Binary64
  currency : Str
  availability : Str
  observedAt : Str

def Offer.asProperties (o : Offer) : Dict Str (Option Scalar) :=
  [(str "offer_id", text o.offerId), (str "price", some (.number o.price)), (str "currency", text o.currency),
    (str "availability", text o.availability), (str "observed_at", text o.observedAt)]

structure PolicyPage where
  pageId : Str
  kind : Str
  hash : Str
  snapshotRef : Str

def PolicyPage.asProperties (p : PolicyPage) : Dict Str (Option Scalar) :=
  [(str "page_id", text p.pageId), (str "kind", text p.kind), (str "hash", text p.hash),
    (str "snapshot_ref", text p.snapshotRef)]

def mediaAltMaxChars : Nat := 512

structure MediaAsset where
  assetId : Str
  url : Str
  catalogueHash : Str
  host : Str
  onSellerDomain : Bool
  position : Int
  alt : Str
  width : Int
  height : Int
  displayable : ∀ value ∈ [assetId, url, catalogueHash], value.strip ≠ []

def MediaAsset.asProperties (a : MediaAsset) : Dict Str (Option Scalar) :=
  [(str "asset_id", text a.assetId), (str "url", text a.url), (str "host", text a.host),
    (str "on_seller_domain", some (.flag a.onSellerDomain)), (str "position", some (.whole a.position)),
    (str "alt", text (a.alt.take mediaAltMaxChars)), (str "width", some (.whole a.width)),
    (str "height", some (.whole a.height)), (str "catalogue_hash", text a.catalogueHash)]

structure IntentCluster where
  clusterId : Str
  label : Str

def IntentCluster.asProperties (c : IntentCluster) : Dict Str (Option Scalar) :=
  [(str "cluster_id", text c.clusterId), (str "label", text c.label)]

structure Category where
  name : Str
  parent : Option Str
  categoryId : Str

structure Ingredient where
  name : Str
  ingredientId : Str

/-- A reading, with the id that was pinned or derived for it. -/
structure AttributeValue where
  key : Str
  valueString : Option Str
  valueNumber : Option (Extended Binary64)
  valueBool : Option Bool
  unit : Option Str
  attrId : Str

section Folded

variable [Folding]

def Category.asProperties (c : Category) : Dict Str (Option Scalar) :=
  [(str "category_id", text c.categoryId), (str "name", text c.name), (str "slug", text (slug c.name)),
    (str "parent", text (c.parent.getD []))]

def Ingredient.asProperties (i : Ingredient) : Dict Str (Option Scalar) :=
  [(str "ingredient_id", text i.ingredientId), (str "name", text i.name),
    (str "canonical_name", text (canonicalText i.name))]

def AttributeValue.asProperties (a : AttributeValue) : Dict Str (Option Scalar) :=
  [(str "attr_id", text a.attrId), (str "key", text a.key), (str "canonical_key", text (slug a.key)),
    (str "value_string", a.valueString.map .text),
    (str "canonical_value_string", a.valueString.map fun value => .text (canonicalText value)),
    (str "value_number", a.valueNumber.map .number), (str "value_bool", a.valueBool.map .flag),
    (str "unit", a.unit.map .text), (str "canonical_unit", a.unit.map fun unit => .text (canonicalText unit))]

/-- `_number_token`. -/
def numberToken [Spelling Binary64] : Option (Extended Binary64) → Except PyError Str
  | none => .ok []
  | some (.finite x) =>
      if x.value.isInt then .ok (Str.ofInt x.value.num) else textOf (.number (.double (.finite x)))
  | some _ => .error .valueError

/-- `attribute_value_id`: the id that the content of a reading gives it. -/
def attributeValueId [Spelling Binary64] (key : Str) (valueString : Option Str)
    (valueNumber : Option (Extended Binary64)) (valueBool : Option Bool) (unit : Option Str) :
    Except PyError Str := do
  if key.strip.isEmpty then throw .valueError
  if valueString.isNone && valueNumber.isNone && valueBool.isNone then throw .valueError
  let boolToken := match valueBool with
    | none => []
    | some true => str "true"
    | some false => str "false"
  let content ← digest [str "attribute", slug key, canonicalText (valueString.getD []),
    ← numberToken valueNumber, boolToken, canonicalText (unit.getD [])]
  return str "av_" ++ slug key ++ str "_" ++ content

def AttributeValue.observed [Spelling Binary64] (key : Str) (valueString : Option Str)
    (valueNumber : Option (Extended Binary64)) (valueBool : Option Bool) (unit : Option Str) :
    Except PyError AttributeValue := do
  return ⟨key, valueString, valueNumber, valueBool, unit,
    ← attributeValueId key valueString valueNumber valueBool unit⟩

end Folded

end Proxyshop.Graph
