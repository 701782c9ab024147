import Proxyshop.Contracts.Wire
import Proxyshop.Structures.GuardedWalk

/-!
# What a bid carries

The walk over whatever is presented to the boundary, and what it records: the claims, the discounts and
the prices, the nodes that wear the identity of a claim over the fields of an offer, and the places where
it was stopped. Records keep the visit that made them, of which only what the source records is read.
-/

namespace Proxyshop.Hooks

open Python Contracts Structures

/-! ## Nodes -/

inductive View (N : Type)
  | null
  | text (s : Str)
  | scalar
  | sequence (items : List N)
  | mapping (members : Dict Str N)

/-- Objects as the walk reads them, and by what they are told apart. -/
class Viewed (N : Type) (ι : outParam Type) where
  view : N → View N
  ident : N → Option ι

open Viewed

def claimBearingFields : List Str := [str "claims", str "commitments"]

def nestedObjectFields : List Str := [str "offer"]

def discountField : Str := str "discount"

def priceField : Str := str "unit_price"

def productField : Str := str "product_ref"

def totalPriceField : Str := str "total_price"

def knownFields : List Str := claimBearingFields ++ nestedObjectFields ++ [discountField]

/-- The protocol models that a place of a bid is to conform to. -/
inductive Shape
  | bid
  | offer

/-- `_non_nullable_fields`, sorted. -/
def nonNullableFields : Shape → List Str
  | .bid => [str "agent_version", str "auction_id", str "claims", str "offer", str "schema_version",
      str "store_id"]
  | .offer => [str "commitments", str "product_ref", str "total_price", str "unit_price"]

/-- `SHAPES`. -/
def shapeOf (field : Str) : Option Shape := if field = str "offer" then some .offer else none

section Nodes

variable {N ι : Type} [Viewed N ι]

def isNull (node : N) : Bool :=
  match view node with
  | .null => true
  | _ => false

/-- The member of that name, if the node is a mapping that has one. -/
def held (node : N) (field : Str) : Option N :=
  match view node with
  | .mapping members => Dict.get? members field
  | _ => none

/-- `_is_present`. -/
def isPresent (node : N) (field : Str) : Bool := (held node field).isSome

/-- `_read`, where it is not `None`. -/
def stated (node : N) (field : Str) : Option N := (held node field).filter fun value => !isNull value

/-- `_structural_fields`. -/
def structuralFields (node : N) : List Str := knownFields.filter (isPresent node)

def isName (node : N) : Bool :=
  match view node with
  | .text s => !s.isEmpty
  | _ => false

/-- `_is_claim_shaped`. -/
def isClaimShaped (node : N) : Bool :=
  (stated node (str "provenance")).isSome && (stated node (str "key")).any isName

def isPriced (node : N) : Bool :=
  (stated node productField).isSome &&
    ((stated node priceField).isSome || (stated node totalPriceField).isSome)

def isLeaf (node : N) : Bool := isClaimShaped node && (structuralFields node).isEmpty && !isPriced node

end Nodes

/-! ## Visits and records -/

/-- A call of the walk. The position names the node, where the path may not. -/
structure Visit (N : Type) where
  node : N
  path : Str
  position : List Str
  strict : Bool
  shape : Option Shape

inductive Obstacle
  | cycle
  | null (field : Str)
  | tooDeep

inductive Record (N : Type)
  | claim (site : Visit N)
  | discount (site : Visit N) (discount : N)
  | price (site : Visit N) (price : N)
  | total (site : Visit N) (total : N)
  | disguise (site : Visit N)
  | unwalkable (site : Visit N) (path : Str) (why : Obstacle)

section Walking

variable {N ι : Type} [Viewed N ι]

abbrev Errands (N : Type) := List (Errand (Record N) (Visit N))

namespace Visit

def field (v : Visit N) (name : Str) : Str := v.path ++ str "." ++ name

def member (v : Visit N) (name : Str) (child : N) (strict : Bool) (shape : Option Shape) : Visit N :=
  ⟨child, v.field name, v.position ++ [name], strict, shape⟩

def item (v : Visit N) (index : Nat) (child : N) : Visit N :=
  ⟨child, v.path ++ str "[" ++ Str.ofNat index ++ str "]", v.position ++ [Str.ofNat index], v.strict, none⟩

/-- `_record_nulls`. -/
def nulls (v : Visit N) : Errands N :=
  match v.shape with
  | none => []
  | some shape => ((nonNullableFields shape).filter fun name => (held v.node name).any isNull).map fun name =>
      .found (.unwalkable v (v.field name) (.null name))

def nested (v : Visit N) : Errands N :=
  (claimBearingFields ++ nestedObjectFields).filterMap fun name =>
    (held v.node name).map fun child => .call (v.member name child true (shapeOf name))

def ownDiscount (v : Visit N) : Errands N :=
  (stated v.node discountField).toList.map fun discount => .found (.discount v discount)

def ownPrice (v : Visit N) : Errands N :=
  (stated v.node priceField).toList.map fun price => .found (.price v price)

/-- `_record_total`. -/
def ownTotal (v : Visit N) : Errands N :=
  (stated v.node totalPriceField).toList.map fun total => .found (.total v total)

/-- `_sweep`. -/
def sweep (v : Visit N) : Errands N :=
  match view v.node with
  | .mapping members => (members.filter fun entry => entry.1 ∉ knownFields).map fun entry =>
      .call (v.member entry.1 entry.2 false none)
  | _ => []

def container (v : Visit N) : Errands N := v.nested ++ v.ownDiscount ++ v.ownPrice ++ v.ownTotal ++ v.sweep

/-- A node that is no container is walked if it is a sequence; elsewhere it is a claim where the protocol
has claims, and what it holds is swept where it has none. -/
def plain (v : Visit N) : Errands N :=
  (if isPriced v.node then v.ownPrice ++ v.ownTotal else []) ++
    match view v.node with
    | .sequence items => items.mapIdx fun index child => .call (v.item index child)
    | _ => if v.strict then [.found (.claim v)] else v.sweep

/-- `_walk`, as one call of it sees its node. -/
def errands (v : Visit N) : Errands N :=
  if isNull v.node then []
  else v.nulls ++
    if isLeaf v.node then [.found (.claim v)]
    else (if isClaimShaped v.node then [.found (.disguise v)] else []) ++
      if (structuralFields v.node).isEmpty then v.plain else v.container

def ident (v : Visit N) : Option ι := Viewed.ident v.node

def closed (v : Visit N) : Record N :=
  .unwalkable v (if v.path.isEmpty then str "<root>" else v.path) .cycle

def root (presented : N) : Visit N := ⟨presented, [], [], true, some .bid⟩

end Visit

variable [DecidableEq ι]

/-- The walk, nested no deeper than the interpreter lets it. -/
def walk (limit : Nat) (presented : N) : Trail (Record N) :=
  guardedWalk Visit.errands Visit.ident Visit.closed limit [] (.root presented)

/-- `collect_claim_material`. -/
def collectClaimMaterial (limit : Nat) (presented : N) : List (Record N) :=
  let w := walk limit presented
  if w.finished then w.found else w.found ++ [.unwalkable (.root presented) (str "<root>") .tooDeep]

end Walking

/-! ## The fields of the material -/

namespace Material

variable {N ι : Type} [Viewed N ι] (found : List (Record N))

def claims : List N := found.filterMap fun
  | .claim site => some site.node
  | _ => none

/-- The discounts with their paths, and what is only recorded of them. -/
def discounts : List (Visit N × N) := found.filterMap fun
  | .discount site discount => some (site, discount)
  | _ => none

def prices : List (Visit N × N) := found.filterMap fun
  | .price site price => some (site, price)
  | _ => none

def totals : List (Visit N × N) := found.filterMap fun
  | .total site total => some (site, total)
  | _ => none

def disguises : List (Visit N) := found.filterMap fun
  | .disguise site => some site
  | _ => none

def unwalkable : List (Str × Obstacle) := found.filterMap fun
  | .unwalkable _ path why => some (path, why)
  | _ => none

end Material

/-! ## Decoded documents -/

/-- Nothing inside a decoded document is an object that it is inside of. -/
instance {F : Type} : Viewed (Wire F) Empty where
  view
    | .null => .null
    | .string s => .text s
    | .array items => .sequence items
    | .object members => .mapping members
    | _ => .scalar
  ident _ := none

end Proxyshop.Hooks
