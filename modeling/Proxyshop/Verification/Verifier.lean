import Proxyshop.Hashing.Sha256
import Proxyshop.Verification.Comparators

/-!
# The claim verifier

The claims of a pitch, one at a time, against one catalogue snapshot.
-/

namespace Proxyshop.Verification

open Python Numbers Contracts Structures Hashing

def Status.confidence {F : Type} [Format F] : Status → Extended F
  | .verified | .contradicted => 0.95
  | .unsupported => 0.5
  | .ambiguous => 0.45

def keyClaimTypes : List (Str × Str) :=
  [(str "price", str "price"), (str "unit_price", str "unit_price"),
    (str "total_price", str "total_price"), (str "discount", str "discount"),
    (str "promo_eligibility", str "promo_eligibility"), (str "delivery", str "delivery"),
    (str "shipping_speed", str "shipping_speed"), (str "dispatch_window", str "dispatch_window"),
    (str "return_policy", str "return_policy"), (str "warranty", str "warranty"),
    (str "warranty_months", str "warranty"), (str "ingredients", str "ingredients"),
    (str "nutrition", str "nutrition"), (str "compatibility", str "compatibility"),
    (str "compatible_with", str "compatibility"), (str "in_stock", str "specifications")]

def stockKey : Str := str "in_stock"

def liveStateKeys : List Str := [stockKey, str "availability"]

def inStockByAvailability : List (Str × Bool) :=
  [(str "in_stock", true), (str "in stock", true), (str "instock", true), (str "limited", true),
    (str "limitedavailability", true), (str "available", true), (str "out_of_stock", false),
    (str "out of stock", false), (str "outofstock", false), (str "soldout", false),
    (str "sold out", false)]

inductive Location
  | attributes
  | offer
  | product
  deriving DecidableEq, Repr

section Fields

variable {F : Type}

/-- `v is True`. -/
def isTrue : Wire F → Bool
  | .bool true => true
  | _ => false

/-- `v.get(name)` of a mapping that holds the name. -/
def heldAt (v : Wire F) (name : Str) : Option (Wire F) :=
  match v with
  | .object members => Dict.get? members name
  | _ => none

def isMapping : Wire F → Bool
  | .object _ => true
  | _ => false

variable [Format F]

/-- `v or w`. -/
def orElse (v w : Wire F) : Wire F := if Wire.truthy v then v else w

/-- `_products`. -/
def productsOf (snapshot : Wire F) : List (Wire F) :=
  match snapshot.get (str "products") with
  | .array items => items
  | _ => []

/-- `_claims_of`. -/
def claimsOf (pitch : Wire F) : Except PyError (List (Wire F)) :=
  match pitch.get (str "claims") with
  | .array items => .ok items
  | _ => .error .valueError

end Fields

variable {F : Type} [Format F] [Spelling F]

omit [Spelling F] in
def wantedProduct (claim pitch : Wire F) : Wire F :=
  orElse (claim.get (str "product_ref")) (pitch.get (str "product_ref"))

omit [Format F] in
def refersTo (wanted product : Wire F) : Except PyError Bool := do
  return (← textOf (product.get (str "product_ref"))) = (← textOf wanted)

omit [Format F] [Spelling F] in
def soleProduct : List (Wire F) → Except Status (Wire F)
  | [only] => .ok only
  | _ => .error .ambiguous

/-- `_resolve_product`: the product, or how it could not be resolved. -/
def resolveProduct (claim pitch : Wire F) (products : List (Wire F)) :
    Except PyError (Except Status (Wire F)) :=
  if products.isEmpty then .ok (.error .unsupported)
  else if (wantedProduct claim pitch).isNull then .ok (soleProduct products)
  else do
    match ← products.findM? (refersTo (wantedProduct claim pitch)) with
    | some product => return .ok product
    | none => return .error .unsupported

variable [Folding]

omit [Format F] in
/-- The yes-or-no answer that an availability token states, if any. -/
def availabilityReading (raw : Wire F) : Except PyError (Option Bool) :=
  match raw with
  | .bool b => .ok (some b)
  | _ => do return inStockByAvailability.lookup (← normalizeText raw)

omit [Format F] in
def stockReading (product snapshot : Wire F) : Except PyError (Option (Wire F)) := do
  let row := (product.get (str "attributes")).get (str "availability")
  let stated : Option (Wire F × Wire F × Bool) :=
    match heldAt row (str "value") with
    | some raw => some (raw, row.get (str "observed_at"), isTrue (row.get (str "stale")))
    | none =>
        (heldAt (product.get (str "offer")) (str "availability")).map fun raw =>
          (raw, snapshot.get (str "captured_at"), false)
  match stated with
  | none => return none
  | some (raw, observedAt, stale) =>
      let stale := stale || isTrue (product.get (str "stale")) || isTrue (snapshot.get (str "stale"))
      return (← availabilityReading raw).map fun reading =>
        .object [(str "value", .bool reading), (str "observed_at", observedAt), (str "stale", .bool stale)]

omit [Format F] in
def lookupNamed (product snapshot : Wire F) (name : Str) : Except PyError (Option (Wire F × Location)) := do
  match heldAt (product.get (str "attributes")) name with
  | some recorded => return some (recorded, .attributes)
  | none =>
      match heldAt (product.get (str "offer")) name with
      | some raw =>
          if name ∈ liveStateKeys then
            return some (.object [(str "value", raw), (str "observed_at", snapshot.get (str "captured_at"))],
              .offer)
          else return some (raw, .offer)
      | none =>
          match heldAt product name with
          | some raw => return some (raw, .product)
          | none =>
              if name = stockKey then
                return (← stockReading product snapshot).map fun derived => (derived, .offer)
              else return none

omit [Format F] in
def lookupAttribute (product key snapshot : Wire F) : Except PyError (Option (Wire F × Location)) := do
  lookupNamed product snapshot (← textOf key)

/-! ## Freshness -/

omit [Format F] [Folding] in
/-- `_instant`. -/
def instantOf (v : Wire F) : Except PyError (Option DateTime) :=
  if v.isNull then .ok none
  else do
    let text := (← textOf v).strip
    let zulu := text.getLast? = some (CodePoint.ofChar 'Z') ∨ text.getLast? = some (CodePoint.ofChar 'z')
    if text.isEmpty then return none
    else
      return (DateTime.fromIsoFormat (if zulu then text.dropLast ++ str "+00:00" else text)).map
        DateTime.aware

omit [Spelling F] [Folding] in
/-- `n > 0` of a number. -/
def isPositive : Literal F → Bool
  | .integer n => 0 < n
  | .double x => (0.0 : Extended F) < x

omit [Spelling F] [Folding] in
def statedWindow (snapshot : Wire F) : Option (Literal F) :=
  match snapshot.get (str "freshness_window_days") with
  | .number n => if isPositive n then some n else none
  | _ => none

omit [Spelling F] [Folding] in
/-- `_window_days`. -/
def windowDays (snapshot : Wire F) (floor : Option (Extended F)) : Except PyError (Option (Extended F)) := do
  let stated ← (statedWindow snapshot).mapM Literal.toDouble
  match stated, floor with
  | some days, some floor => return some (Extended.least days floor)
  | some days, none => return some days
  | none, floor => return floor

omit [Spelling F] [Folding] in
def stockEvidenceWindowDays : Extended F := (3600.0 : Extended F) / 86400.0

omit [Folding] in
/-- `_live_state_window`. -/
def liveStateWindow (key : Wire F) : Except PyError (Option (Extended F)) := do
  return if (← textOf key) ∈ liveStateKeys then some stockEvidenceWindowDays else none

/-- `timedelta.total_seconds()`, of a number of microseconds. -/
def totalSeconds (micros : Int) : Extended F := Format.round ((micros : ℚ) / 1000000)

omit [Folding] in
/-- `_is_stale`. -/
def isStale (recorded snapshot claim : Wire F) (floor : Option (Extended F)) : Except PyError Bool := do
  if !isMapping recorded then return false
  if isTrue (recorded.get (str "stale")) then return true
  match ← windowDays snapshot floor with
  | none => return false
  | some window =>
      match ← instantOf (recorded.get (str "observed_at")) with
      | none => return false
      | some observed =>
          let stated := orElse (snapshot.get (str "read_at"))
            ((claim.get (str "provenance")).get (str "observed_at"))
          match ← instantOf (orElse stated (snapshot.get (str "captured_at"))) with
          | none => return false
          | some reference =>
              return window * 86400.0 < totalSeconds (reference.instant - observed.instant)

/-! ## The vocabulary -/

/-- `catalog_keys`. -/
def catalogKeys (snapshot productRef : Wire F) : Except PyError (List Str) := do
  let products := productsOf snapshot
  match ← resolveProduct (.object []) (.object [(str "product_ref", productRef)]) products with
  | .error _ => return []
  | .ok product =>
      let blocks := [product.get (str "attributes"), product.get (str "offer"), product]
      let stated := blocks.flatMap fun block => (block.record?.map Dict.keys).getD []
      let keys := if (← stockReading product snapshot).isSome then stated ++ [stockKey] else stated
      keys.filterM fun key => do
        if key ∈ liveStateKeys then
          match ← lookupNamed product snapshot key with
          | none => return false
          | some (recorded, _) =>
              if recorded.isNull then return false
              else return !(← isStale recorded snapshot (.object []) (some stockEvidenceWindowDays))
        else return true

/-! ## One claim -/

omit [Format F] [Folding] in
/-- The type that the author of a claim declares, empty where there is none. -/
def declaredClaimType (claim : Wire F) : Except PyError Str :=
  let declared := claim.get (str "claim_type")
  if declared.isNull then .ok [] else do return (← textOf declared).strip

omit [Format F] in
/-- `_claim_type`. -/
def claimTypeOf (claim key : Wire F) (location : Option Location) : Except PyError (Option Str) := do
  let stated ← declaredClaimType claim
  if stated.isEmpty then
    return (keyClaimTypes.lookup (← normalizeText key)).orElse fun _ =>
      if location = some Location.attributes then some (str "specifications") else none
  else return some stated

omit [Folding] in
def productEvidenceRef (snapshotId product : Wire F) : Except PyError Str :=
  let evidence := product.get (str "evidence_ref")
  let productRef := product.get (str "product_ref")
  if Wire.truthy evidence then textOf evidence
  else if productRef.isNull then textOf snapshotId
  else do return (← textOf snapshotId) ++ str "#" ++ (← textOf productRef)

omit [Format F] [Folding] in
def attributeEvidenceRef (snapshotId product key : Wire F) (found : Bool) : Except PyError (List Str) :=
  let productRef := product.get (str "product_ref")
  if found && !productRef.isNull then do
    return [(← textOf snapshotId) ++ str "#" ++ (← textOf productRef) ++ str "." ++ (← textOf key)]
  else .ok []

omit [Folding] in
/-- `_evidence_refs`. -/
def evidenceRefs (snapshot product key : Wire F) (found : Bool) : Except PyError (List Str) := do
  let snapshotId := orElse (snapshot.get (str "snapshot_id")) (.string (str "unknown-snapshot"))
  let first ← productEvidenceRef snapshotId product
  let second ← attributeEvidenceRef snapshotId product key found
  let stated ← (← Wire.itemsOrNone (snapshot.get (str "evidence_refs"))).mapM textOf
  return stated.foldl (fun refs ref => if ref ∈ refs then refs else refs ++ [ref]) (first :: second)

structure Finding (F : Type) where
  claimRef : Str
  key : Wire F
  claimType : Option Str
  op : Wire F
  claimedValue : Wire F
  observedValue : Wire F
  status : Status
  confidence : Extended F
  evidenceRefs : List Str
  reason : Str
  productRef : Wire F
  tolerance : Extended F

/-- What a claim on a key of a resolved product comes out as, and where the key was found. -/
def judgeKey (claim product key snapshot : Wire F) : Except PyError (Outcome F × Option Location) := do
  match ← lookupAttribute product key snapshot with
  | none =>
      return (⟨.unsupported, .null,
        str "the catalog snapshot records no " ++ (← reprOf key) ++ str " for this product"⟩, none)
  | some (recorded, location) =>
      if ← isStale recorded snapshot claim (← liveStateWindow key) then
        return (⟨.unsupported, .null, str "the only evidence for " ++ (← reprOf key) ++
          str " was observed outside the snapshot's freshness window, so it can neither support nor " ++
          str "contradict this claim"⟩, some location)
      else
        return (← compare (claim.get (str "value")) recorded key (claim.get (str "op")), some location)

def judge (claim key snapshot : Wire F) :
    Except Status (Wire F) → Except PyError (Outcome F × Option Location)
  | .error status =>
      .ok (⟨status, .null,
        str "the catalog snapshot holds no product this claim can be read against"⟩, none)
  | .ok product =>
      if key.isNull then
        .ok (⟨.ambiguous, .null, str "the claim names no catalog key to check"⟩, none)
      else judgeKey claim product key snapshot

omit [Spelling F] [Folding] in
def claimName (claim : Wire F) : Wire F := orElse (claim.get (str "claim_ref")) (claim.get (str "key"))

omit [Folding] in
def claimRefOf (claim : Wire F) (index : Nat) : Except PyError Str :=
  if Wire.truthy (claimName claim) then textOf (claimName claim)
  else .ok (str "claim-" ++ Str.ofNat index)

def publishedFor (key : Wire F) : Except PyError (Extended F) :=
  if key.isNull then .ok defaultTolerance else toleranceFor key

def verifyClaim (pitch snapshot claim : Wire F) (index : Nat) : Except PyError (Finding F) := do
  let key := claim.get (str "key")
  let resolved ← resolveProduct claim pitch (productsOf snapshot)
  let product := resolved.toOption.getD .null
  let (outcome, location) ← judge claim key snapshot resolved
  return {
    claimRef := ← claimRefOf claim index
    key
    claimType := ← claimTypeOf claim key location
    op := claim.get (str "op")
    claimedValue := claim.get (str "value")
    observedValue := outcome.observed
    status := outcome.status
    confidence := outcome.status.confidence
    evidenceRefs := ← evidenceRefs snapshot product key (!outcome.observed.isNull)
    reason := outcome.reason
    productRef := product.get (str "product_ref")
    tolerance := ← publishedFor key }

/-! ## A pitch -/

omit [Format F] [Folding] in
/-- `_canonical`. -/
def canonicalText (v : Wire F) : Except PyError Str :=
  if v.writable then .ok (Spelling.dumps v) else .error .valueError

omit [Format F] [Folding] in
def verificationKey (pitch snapshot version : Wire F) : Except PyError Str := do
  let body : Wire F := .object
    [(str "pitch_id", pitch.get (str "pitch_id")),
      (str "claims", .string (← canonicalText (pitch.get (str "claims")))),
      (str "snapshot", .string (← canonicalText snapshot)),
      (str "verifier_version", .string (← textOf version))]
  return sha256Hex ((← canonicalText body).map fun c => UInt8.ofNat c.val)

structure VerificationResult (F : Type) where
  pitchId : Wire F
  storeId : Wire F
  verifierVersion : Wire F
  catalogSnapshot : Wire F
  verificationKey : Str
  statuses : List Status
  claims : List (Finding F)

def verify (pitch snapshot version : Wire F) : Except PyError (VerificationResult F) := do
  let claims ← claimsOf pitch
  let findings ← claims.zipIdx.mapM fun entry => verifyClaim pitch snapshot entry.1 entry.2
  return {
    pitchId := pitch.get (str "pitch_id")
    storeId := pitch.get (str "store_id")
    verifierVersion := version
    catalogSnapshot := snapshot.get (str "snapshot_id")
    verificationKey := ← verificationKey pitch snapshot version
    statuses := [.verified, .contradicted, .unsupported, .ambiguous]
    claims := findings }

end Proxyshop.Verification
