import Proxyshop.Ranking.Attestation
import Proxyshop.Verification.Isolation

/-!
# Attesting the claims of a bid

The claims of a candidate, and those that its message is read to make, are verified against the
snapshot of the exchange, and each comes back with the verdict of the exchange on it.
-/

namespace Proxyshop.Ranking

open Python Numbers Contracts Structures Verification

def storeSuppliedFieldsDropped : List Str :=
  [str "status", attestationField, str "claim_ref", str "product_ref", str "provenance"]

def undecidableKeyReason : Str :=
  str "this exchange's catalogue records no such key for this product, so the claim could not be " ++
    str "checked either way; it is undecided rather than unsupported"

def uncheckedReason : Str :=
  str "the exchange holds no catalog snapshot for this store, so its claims could not be checked"

/-- `claim_ref_for`. -/
def claimRefFor (storeId : Str) (index : Nat) : Str := storeId ++ str "#" ++ Str.ofNat index

/-- A claim and its position, as the verifier is handed them. -/
def pitchClaim (storeId : Str) (entry : Value × Nat) : Value :=
  .object (Dict.set
    ((entry.1.record?.getD []).filter fun field => field.1 ∉ storeSuppliedFieldsDropped)
    (str "claim_ref") (.string (claimRefFor storeId entry.2)))

/-- `_pitch_claims`. -/
def pitchClaims (storeId : Str) (claims : List Value) : List Value :=
  claims.zipIdx.map (pitchClaim storeId)

structure Announcement where
  claimRef : Str
  status : Str
  dim : Str
  claimType : Option Str
  deriving DecidableEq

/-- `claim_verdict_payload`, by what routes a claim type to a dimension. -/
def claimVerdictPayload (dimension : Option Str → Option Str) (claimRef : Str) (status : Status)
    (claimType : Option Str) : Option Announcement :=
  match dimension claimType with
  | some dim => if dim.isEmpty then none else some ⟨claimRef, status.name, dim, claimType⟩
  | none => none

variable [Spelling Binary64]

def rowRef (product : Value) : Except PyError Str :=
  textOf ((heldAt product (str "product_ref")).getD (.string []))

def isRow (wanted : Str) (product : Value) : Except PyError Bool := do return (← rowRef product) = wanted

/-- `_narrowed_to`. -/
def narrowedTo (snapshot productRef : Value) : Except PyError Value :=
  if productRef.isNull then .ok snapshot
  else
    match snapshot, snapshot.get (str "products") with
    | .object fields, .array products => do
        match ← products.findM? (isRow (← textOf productRef)) with
        | some product => return .object (Dict.set fields (str "products") (.array [product]))
        | none => return snapshot
    | _, _ => .ok snapshot

omit [Spelling Binary64] in
/-- The units of the row, under the keys that have none yet. -/
def addUnits (units : Dict Str Value) (product : Value) : Dict Str Value :=
  (((product.get (str "attributes")).record?.getD []).map fun entry =>
    (entry.1, (attributeValue entry.2).2)).foldl (fun units entry => Dict.setDefault units entry.1 entry.2)
    units

/-- `catalog_units`. -/
def catalogUnits (snapshot productRef : Value) : Except PyError (Dict Str Value) :=
  if snapshot.isNull then .ok []
  else do
    let products ← Wire.itemsOrNone (snapshot.get (str "products"))
    if productRef.isNull then return products.foldl addUnits []
    else
      match ← products.findM? (isRow (← textOf productRef)) with
      | some product => return addUnits [] product
      | none => return []

variable [Folding] [Sealing]

/-- What the exchange holds for one candidate, the product being named by a text or by nothing. -/
structure Bench where
  storeId : Str
  productRef : Value
  snapshot : Value
  decidable : List Str
  version : Value

namespace Bench

omit [Spelling Binary64] [Folding] [Sealing] in
def pitch (b : Bench) : Dict Str Value :=
  [(str "pitch_id", .string (str "auction-pitch:" ++ b.storeId)), (str "store_id", .string b.storeId),
    (str "product_ref", b.productRef)]

omit [Sealing] in
/-- The findings of the verifier, one for each claim; none where it raises. -/
def findings (b : Bench) (presented : List Value) : List (Finding Binary64) :=
  if b.snapshot.isNull then []
  else
    match verify (pitchOf b.pitch (pitchClaims b.storeId presented)) b.snapshot b.version with
    | .ok result => result.claims
    | .error _ => []

/-- The verdict of the exchange on a claim, with its reason. -/
def verdictOn (b : Bench) (claim : Value) (finding : Option (Finding Binary64)) :
    Except PyError (Status × Option Str) := do
  let status := finding.elim Status.ambiguous Finding.status
  let reason := finding.elim (if b.snapshot.isNull then some uncheckedReason else none) fun f =>
    some f.reason
  if status = .unsupported then
    if (← textOf (claim.get (str "key"))) ∈ b.decidable then return (status, reason)
    else return (.ambiguous, some undecidableKeyReason)
  else return (status, reason)

def unitsFor (b : Bench) (finding : Option (Finding Binary64)) : Except PyError (Dict Str Value) := do
  catalogUnits b.snapshot
    (← spelledOrNone (orElse (finding.elim .null Finding.productRef) b.productRef))

/-- The unit that the catalogue records under the key of the claim. -/
def unitFor (b : Bench) (claim : Value) (finding : Option (Finding Binary64)) : Except PyError Value := do
  let units ← b.unitsFor finding
  return (Dict.get? units (← textOf (claim.get (str "key")))).getD .null

def attest (b : Bench) (dimension : Option Str → Option Str) (findings : List (Finding Binary64))
    (entry : Value × Nat) : Except PyError (Value × Option Announcement) := do
  let finding := findings[entry.2]?
  let (status, reason) ← b.verdictOn entry.1 finding
  let attested ← attestClaim entry.1 {
    status := status.name
    unit := ← b.unitFor entry.1 finding
    subject := .string b.storeId
    verifierVersion := b.version
    catalogSnapshot := b.snapshot.get (str "snapshot_id")
    evidenceRefs := finding.elim [] Finding.evidenceRefs
    confidence := finding.map Finding.confidence
    reason }
  return (attested, claimVerdictPayload dimension (claimRefFor b.storeId entry.2) status
    (finding.bind Finding.claimType))

end Bench

structure Attested where
  claims : List Value
  announced : List Announcement

omit [Sealing] in
def decidableKeys (snapshot productRef : Value) : Except PyError (List Str) :=
  if snapshot.isNull then .ok [] else catalogKeys snapshot productRef

omit [Spelling Binary64] [Folding] [Sealing] in
/-- The claims of the bid, and those that its message is read to make. -/
def presentedClaims (decidable : List Str) (message : Option (List Str → List Value))
    (claims : List Value) : List Value :=
  claims ++ message.elim [] fun read => read decidable

/-- `attest_candidate_claims`. The message, if there is one, is read with the keys that the snapshot
can decide as its vocabulary. -/
def attestCandidateClaims (dimension : Option Str → Option Str) (version snapshot productRef : Value)
    (storeId : Str) (message : Option (List Str → List Value)) (claims : List Value) :
    Except PyError Attested := do
  if claims.isEmpty && message.isNone then return ⟨[], []⟩
  let narrowed ← narrowedTo snapshot productRef
  let decidable ← decidableKeys narrowed productRef
  let presented := presentedClaims decidable message claims
  if presented.isEmpty then return ⟨[], []⟩
  let bench : Bench := ⟨storeId, ← spelledOrNone productRef, narrowed, decidable, version⟩
  let entries ← presented.zipIdx.mapM (bench.attest dimension (bench.findings presented))
  return ⟨entries.map Prod.fst, entries.filterMap Prod.snd⟩

end Proxyshop.Ranking
