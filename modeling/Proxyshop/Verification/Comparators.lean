import Proxyshop.Verification.Normalize

/-!
# Comparators

One claimed value against one recorded attribute. The families are tried in a fixed order:
containment, boolean, enumeration, quantity, text.
-/

namespace Proxyshop.Verification

open Python Numbers Contracts Structures

inductive Status
  | verified
  | contradicted
  | unsupported
  | ambiguous
  deriving DecidableEq, Repr

def Status.name : Status → Str
  | verified => str "verified"
  | contradicted => str "contradicted"
  | unsupported => str "unsupported"
  | ambiguous => str "ambiguous"

structure Outcome (F : Type) where
  status : Status
  observed : Wire F
  reason : Str

def fieldTolerances : List (String × ℚ) :=
  [("default", 0.02), ("price", 0.005), ("unit_price", 0.005), ("total_price", 0.005),
    ("list_price", 0.005), ("weight", 0.02), ("net_weight", 0.02), ("gross_weight", 0.02),
    ("length", 0.02), ("width", 0.02), ("height", 0.02), ("water_tank_l", 0.05), ("capacity", 0.05),
    ("pump_pressure_bar", 0.05), ("power_w", 0.05), ("voltage", 0.1), ("warranty_months", 0.02),
    ("dispatch_window", 0.25), ("shipping_speed", 0.25)]

variable {F : Type} [Format F]

def defaultTolerance : Extended F := 0.02

def publishedTolerance (field : Str) : Extended F :=
  ((fieldTolerances.find? fun (name, _) => str name = field).map fun (_, tolerance) =>
    Format.round tolerance).getD defaultTolerance

variable [Spelling F] [Folding]

def toleranceFor (key : Wire F) : Except PyError (Extended F) := do
  return publishedTolerance (← normalizeText key)

omit [Format F] [Spelling F] [Folding] in
/-- `_members`. -/
def membersOf : Wire F → List (Wire F)
  | .array items => items
  | v => [v]

omit [Spelling F] [Folding] in
/-- `max(abs(a), abs(b), floor)`. -/
def scaleOf (a b floor : Extended F) : Extended F :=
  Extended.greatest (Extended.greatest a.magnitude b.magnitude) floor

def memberMatches (claimed member : Wire F) : Except PyError Bool := do
  let (value, unit) := attributeValue member
  let claimedQuantity ← parseQuantity claimed
  let memberQuantity ← parseQuantity value
  let texts : Except PyError Bool := do return (← normalizeText claimed) = (← normalizeText value)
  match claimedQuantity, memberQuantity with
  | some c, some m =>
      let (claimedBase, claimedFamily) ← toBaseUnit ⟨c.number, if c.unit.isNull then unit else c.unit⟩
      let (memberBase, memberFamily) ← toBaseUnit ⟨m.number, if m.unit.isNull then unit else m.unit⟩
      if claimedFamily = memberFamily then
        return (claimedBase - memberBase).magnitude ≤ 1e-9 * scaleOf claimedBase memberBase 1.0
      else texts
  | _, _ => texts

def containmentOperators : List Str := [str "contains", str "includes", str "has", str "member_of"]

def compareContains (claimed catalog : Wire F) : Except PyError (Outcome F) := do
  if catalog.isNull then return ⟨.unsupported, .null, str "the catalog attribute has no value"⟩
  let members := membersOf catalog
  if ← members.anyM (memberMatches claimed) then
    return ⟨.verified, catalog, (← reprOf claimed) ++ str " is a member of the attribute"⟩
  else if members.isEmpty then
    return ⟨.unsupported, catalog, str "the catalog attribute is an empty set"⟩
  else
    return ⟨.contradicted, catalog, (← reprOf claimed) ++ str " is absent from the enumerated attribute"⟩

def compareBoolean (claimed : Wire F) (catalog : Bool) : Except PyError (Outcome F) := do
  match ← normalizeBoolean claimed with
  | none =>
      return ⟨.ambiguous, .bool catalog, (← reprOf claimed) ++ str " does not read as a boolean either way"⟩
  | some parsed =>
      if parsed = catalog then return ⟨.verified, .bool catalog, str "the boolean values agree"⟩
      else return ⟨.contradicted, .bool catalog, str "the boolean values disagree"⟩

def inKnownUnit : Option (Quantity F) → Except PyError Bool
  | none => .ok false
  | some q => do return q.unit.isNull || (← unitFamily q.unit).isSome

/-- `_members_domain` answers `"quantity"`. -/
def quantityDomain (members : List (Wire F)) : Except PyError Bool :=
  if members.isEmpty then .ok false
  else members.allM fun member => do inKnownUnit (← parseQuantity (attributeValue member).1)

def enumerationClaimWordSlack : Nat := 1

def wordCount (v : Wire F) : Except PyError Nat := do return (words (← normalizeText v)).length

def claimReadsInDomain (claimed : Wire F) (members : List (Wire F)) (quantities : Bool) :
    Except PyError Bool := do
  if quantities then inKnownUnit (← parseQuantity claimed)
  else
    let claimWords ← wordCount claimed
    let counts ← members.mapM fun member => wordCount (attributeValue member).1
    return claimWords ≤ (counts.max?.getD 1) + enumerationClaimWordSlack

def compareMultivalued (claimed : Wire F) (members : List (Wire F)) : Except PyError (Outcome F) := do
  let catalog : Wire F := .array members
  if ← members.anyM (memberMatches claimed) then
    return ⟨.verified, catalog, str "the claim names one of the enumerated values"⟩
  else if members.isEmpty then
    return ⟨.unsupported, catalog, str "the catalog attribute is an empty set"⟩
  else if ← claimReadsInDomain claimed members (← quantityDomain members) then
    return ⟨.contradicted, catalog, str "the value is absent from the enumerated attribute"⟩
  else
    return ⟨.ambiguous, catalog, str "the claim names no value of the kind this attribute enumerates"⟩

omit [Spelling F] [Folding] in
/-- `abs(claimed - catalog)` within the allowance of a tolerance. -/
def withinTolerance (tolerance claimed catalog : Extended F) : Bool :=
  (claimed - catalog).magnitude ≤ tolerance * scaleOf claimed catalog 1e-9

def compareNumeric (claimed catalog : Quantity F) (key observed : Wire F) :
    Except PyError (Outcome F) := do
  let (claimedBase, claimedFamily) ← toBaseUnit claimed
  let (catalogBase, catalogFamily) ← toBaseUnit catalog
  match claimedFamily, catalogFamily with
  | some this, some that =>
      if this ≠ that then
        return ⟨.contradicted, observed,
          str "the claim is a " ++ this.name ++ str " and the catalog records a " ++ that.name⟩
      else judged claimedBase catalogBase
  | none, some _ => judged (← toBaseUnit ⟨claimed.number, catalog.unit⟩).1 catalogBase
  | some _, none => judged claimedBase (← toBaseUnit ⟨catalog.number, claimed.unit⟩).1
  | none, none => judged claimedBase catalogBase
where
  judged (claimedBase catalogBase : Extended F) : Except PyError (Outcome F) := do
    if !(claimedBase.isFinite && catalogBase.isFinite) then
      return ⟨.ambiguous, observed, str "the claimed or recorded value is not a finite quantity"⟩
    let tolerance ← toleranceFor key
    let published := str " the published " ++ Spelling.text (.number (.double tolerance)) ++
      str " relative tolerance"
    if withinTolerance tolerance claimedBase catalogBase then
      return ⟨.verified, observed, str "within" ++ published⟩
    else return ⟨.contradicted, observed, str "outside" ++ published⟩

def numericallyComparable (claimedUnit catalogUnit : Wire F) : Except PyError Bool := do
  let claimedKnown := (← unitFamily claimedUnit).isSome
  let catalogKnown := (← unitFamily catalogUnit).isSome
  let claimedUnknown := !claimedUnit.isNull && !claimedKnown
  let catalogUnknown := !catalogUnit.isNull && !catalogKnown
  if claimedUnknown && catalogUnknown then
    return (← normalizeText claimedUnit) = (← normalizeText catalogUnit)
  else return !(claimedUnknown && catalogKnown) && !(catalogUnknown && claimedKnown)

/-- A claim of nothing: `None` or a blank text. -/
def carriesNoValue : Wire F → Bool
  | .null => true
  | .string s => s.strip.isEmpty
  | _ => false

def isUndefinedNumber : Wire F → Bool
  | .number (.double x) => !x.isFinite
  | _ => false

def compareText (claimed catalog : Wire F) : Except PyError (Outcome F) := do
  if (← normalizeText claimed) = (← normalizeText catalog) then
    return ⟨.verified, catalog, str "the normalised values are equal"⟩
  else return ⟨.contradicted, catalog, str "the normalised values differ"⟩

/-- What `compare` does of a scalar: the numbers where the units let them be compared, else the
texts. -/
def compareScalar (claimed catalog unit key : Wire F) : Except PyError (Outcome F) := do
  let remaining : Except PyError (Outcome F) :=
    match catalog with
    | .object _ =>
        return ⟨.ambiguous, catalog, str "the catalog attribute is a structure this claim cannot address"⟩
    | _ => compareText claimed catalog
  match ← parseQuantity claimed, ← parseQuantity catalog with
  | some c, some k =>
      let catalogUnit := if k.unit.isNull then unit else k.unit
      if ← numericallyComparable c.unit catalogUnit then
        compareNumeric c ⟨k.number, catalogUnit⟩ key catalog
      else remaining
  | _, _ => remaining

/-- What `compare` does of a claim that names no operator of containment. -/
def compareEqual (claimed catalog unit key : Wire F) : Except PyError (Outcome F) :=
  if carriesNoValue claimed then
    .ok ⟨.ambiguous, catalog, str "the claim carries no value to check"⟩
  else if isUndefinedNumber claimed then
    .ok ⟨.ambiguous, catalog, str "the claimed value is not a finite number"⟩
  else
    match catalog with
    | .null => .ok ⟨.unsupported, .null, str "the catalog attribute is present but records no value"⟩
    | .bool recorded => compareBoolean claimed recorded
    | .array members => compareMultivalued claimed members
    | _ => compareScalar claimed catalog unit key

omit [Format F] in
def operatorOf (op : Wire F) : Except PyError Str :=
  if op.isNull then .ok [] else normalizeText op

def compare (claimed recorded key op : Wire F) : Except PyError (Outcome F) := do
  let (catalog, unit) := attributeValue recorded
  let operator ← operatorOf op
  if operator ∈ containmentOperators then compareContains claimed catalog
  else compareEqual claimed catalog unit key

end Proxyshop.Verification
