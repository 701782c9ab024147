import Proxyshop.Graph.Upserts
import Proxyshop.Structures.Kleene

/-!
# The attribute filters of a candidate query

The predicate that the query evaluates over the attributes it collected, and the readings that it
projects for its caller.
-/

namespace Proxyshop.Graph

open Python Numbers Verification Structures

structure AttributeFilter where
  key : Str
  valueString : Option Str := none
  valueBool : Option Bool := none
  equalsNumber : Option (Extended Binary64) := none
  minNumber : Option (Extended Binary64) := none
  maxNumber : Option (Extended Binary64) := none
  unit : Option Str := none

structure Parameter where
  key : Option Scalar
  valueString : Option Scalar
  valueBool : Option Scalar
  equalsNumber : Option Scalar
  minNumber : Option Scalar
  maxNumber : Option Scalar
  unit : Option Scalar

def AttributeFilter.asParameter [Folding] (f : AttributeFilter) : Parameter where
  key := text (slug f.key)
  valueString := f.valueString.map fun value => .text (canonicalText value)
  valueBool := f.valueBool.map .flag
  equalsNumber := f.equalsNumber.map .number
  minNumber := f.minNumber.map .number
  maxNumber := f.maxNumber.map .number
  unit := f.unit.map fun unit => .text (canonicalText unit)

/-! ## The predicate -/

def isNull (value : Option Scalar) : Truth := some value.isNone

/-- `a = b`. -/
def equals : Option Scalar → Option Scalar → Truth
  | some (.text s), some (.text t) => some (s = t)
  | some (.flag b), some (.flag c) => some (b = c)
  | some (.whole m), some (.whole n) => some (m = n)
  | some (.number x), some (.number y) => some (x ≤ y && y ≤ x)
  | some _, some _ => some false
  | _, _ => none

/-- `a <= b`, which is null across types. -/
def atMost : Option Scalar → Option Scalar → Truth
  | some (.number x), some (.number y) => some (x ≤ y)
  | some (.whole m), some (.whole n) => some (m ≤ n)
  | _, _ => none

structure Collected where
  key : Option Scalar
  rawKey : Option Scalar
  valueString : Option Scalar
  canonicalValueString : Option Scalar
  valueNumber : Option Scalar
  valueBool : Option Scalar
  unit : Option Scalar
  canonicalUnit : Option Scalar
  deriving DecidableEq

def collect (node : Properties) : Collected where
  key := node "canonical_key"
  rawKey := node "key"
  valueString := node "value_string"
  canonicalValueString := node "canonical_value_string"
  valueNumber := node "value_number"
  valueBool := node "value_bool"
  unit := node "unit"
  canonicalUnit := node "canonical_unit"

/-- The attributes of a product; one that has none is collected as a single row of nulls. -/
def attrsOf (nodes : List Properties) : List Collected :=
  if nodes.isEmpty then [collect fun _ => none] else (nodes.map collect).dedup

def satisfies (f : Parameter) (a : Collected) : Truth :=
  (equals a.key f.key)
  |>.and ((isNull f.valueString).or (equals a.canonicalValueString f.valueString))
  |>.and ((isNull f.valueBool).or (equals a.valueBool f.valueBool))
  |>.and ((isNull f.equalsNumber).or (equals a.valueNumber f.equalsNumber))
  |>.and ((isNull f.minNumber).or (Truth.and (some a.valueNumber.isSome) (atMost f.minNumber a.valueNumber)))
  |>.and ((isNull f.maxNumber).or (Truth.and (some a.valueNumber.isSome) (atMost a.valueNumber f.maxNumber)))
  |>.and ((isNull f.unit).or (equals a.canonicalUnit f.unit))

/-- The product passes a filter: the predicate is true of it, not null. -/
def accepts [Folding] (attrs : List Collected) (f : AttributeFilter) : Bool :=
  Truth.any (satisfies f.asParameter) attrs = some true

/-! ## What is projected -/

structure Reading where
  key : Str
  valueString : Option Str
  valueNumber : Option (Extended Binary64)
  valueBool : Option Bool
  unit : Option Str

def textOf? : Option Scalar → Option Str
  | some (.text s) => some s
  | _ => none

def numberOf? : Option Scalar → Option (Extended Binary64)
  | some (.number x) => some x
  | _ => none

def flagOf? : Option Scalar → Option Bool
  | some (.flag b) => some b
  | _ => none

def readingOf (a : Collected) : Option Reading :=
  (textOf? a.rawKey).map fun key =>
    { key := key
      valueString := textOf? a.valueString
      valueNumber := numberOf? a.valueNumber
      valueBool := flagOf? a.valueBool
      unit := textOf? a.unit }

def project (attrs : List Collected) : List Reading := attrs.filterMap readingOf

end Proxyshop.Graph
