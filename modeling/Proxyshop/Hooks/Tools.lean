import Proxyshop.Learning.Blindness

/-!
# The tool hooks

The six hooks by which facts and discounts enter a bid, the walls of the envelope that a discount is
asked against, and the ledger of what was emitted for the bid that is open.
-/

namespace Proxyshop.Hooks

open Python Numbers Contracts Structures Verification Learning

/-! ## Claims -/

inductive ProvenanceSource
  | scraped
  | pixelFeed
  | ownerStatement
  | envelopeRule
  | learnedPolicy
  | network
  deriving DecidableEq

/-- A claim as a hook mints it: without a rank it has that of its source. -/
structure MintedClaim where
  key : Str
  value : Wire Binary64
  unit : Wire Binary64
  claimType : Wire Binary64
  source : ProvenanceSource
  ref : Str
  observedAt : Str
  authorityRank : Option Int

/-- What the contract's model and the hash make of a claim. -/
class Minting where
  conforms : MintedClaim → Bool
  fingerprint : MintedClaim → Except PyError Str

def unknownObservedAt : Str := str "1970-01-01T00:00:00Z"

def claimTypeByKey : Dict Str Str :=
  [("authorized_discount_pct", "discount"), ("compatibility", "compatibility"), ("delivery", "delivery"),
    ("dispatch_window", "dispatch_window"), ("free_returns", "return_policy"), ("ingredients", "ingredients"),
    ("list_price", "unit_price"), ("material", "specifications"), ("nutrition", "nutrition"), ("price", "price"),
    ("promo_eligibility", "promo_eligibility"), ("return_policy", "return_policy"), ("returns", "return_policy"),
    ("ships_within", "dispatch_window"), ("shipping_speed", "shipping_speed"),
    ("specifications", "specifications"), ("total_price", "total_price"), ("unit_price", "unit_price"),
    ("warranty", "warranty")].map fun entry => (str entry.1, str entry.2)

def claimTypeOf (key : Str) : Wire Binary64 := (Dict.get? claimTypeByKey key).elim .null .string

/-- `scoped_ref`. -/
def scopedRef (ruleRef productRef : Str) : Except PyError Str :=
  if .ofChar '@' ∈ ruleRef then .error .valueError else .ok (ruleRef ++ str "@" ++ productRef)

/-! ## Refusals -/

inductive Reason
  | unknownProduct
  | negativeDiscount
  | overMaxDiscount
  | belowPriceFloor
  | nonFiniteDiscount
  | unpriceableProduct
  deriving DecidableEq

def Reason.text : Reason → Str
  | .unknownProduct => str "unknown_product"
  | .negativeDiscount => str "negative_discount"
  | .overMaxDiscount => str "over_max_discount_pct"
  | .belowPriceFloor => str "below_price_floor"
  | .nonFiniteDiscount => str "non_finite_discount"
  | .unpriceableProduct => str "unpriceable_product"

structure Denied where
  reason : Reason
  productRef : Str
  requestedPct : Extended Binary64
  limit : Extended Binary64
  ruleRef : Str

inductive HookError
  | hookInput
  | python (e : PyError)
  deriving DecidableEq

structure HookCall where
  hook : Str
  subject : Str
  outcome : Str
  claimKeys : List Str

/-! ## The ledger -/

/-- `_AdmissionLedger`: what was emitted for the bid that is open, and what of it was spent. -/
structure AdmissionLedger where
  emitted : Dict Str Nat
  spent : Dict Str Nat

namespace AdmissionLedger

def empty : AdmissionLedger := ⟨[], []⟩

def count (counter : Dict Str Nat) (fingerprint : Str) : Nat := (Dict.get? counter fingerprint).getD 0

def record (l : AdmissionLedger) (fingerprint : Str) : AdmissionLedger :=
  { l with emitted := Dict.adjust l.emitted fingerprint 0 (· + 1) }

def spend (l : AdmissionLedger) (fingerprint : Str) : Bool × AdmissionLedger :=
  if count l.emitted fingerprint ≤ count l.spent fingerprint then (false, l)
  else (true, { l with spent := Dict.adjust l.spent fingerprint 0 (· + 1) })

def remaining (l : AdmissionLedger) (fingerprint : Str) : Nat :=
  count l.emitted fingerprint - count l.spent fingerprint

def exhausted (l : AdmissionLedger) : List Str :=
  (Dict.keys l.emitted).filter fun fingerprint => count l.emitted fingerprint ≤ count l.spent fingerprint

end AdmissionLedger

/-! ## The facade -/

structure ToolHooks where
  storeId : Str
  envelope : Dict Str (Wire Binary64)
  catalog : Dict Str (Dict Str (Wire Binary64))
  liveState : Dict Str (Dict Str (Wire Binary64))
  learnedPolicy : Wire Binary64
  networkPriors : Dict Str (Wire Binary64)
  asOf : Option Str
  calls : List HookCall
  claims : List MintedClaim
  ledger : AdmissionLedger
  bidRef : Str

/-- `_as_mapping`. -/
def asMapping : Wire Binary64 → Except PyError (Dict Str (Wire Binary64))
  | .null => .ok []
  | .object members => .ok members
  | _ => .error .typeError

/-- `_sequence`. -/
def sequence : Wire Binary64 → List (Wire Binary64)
  | .null => []
  | .array items => items
  | value => [value]

section Hooks

variable [Folding] [Spelling Binary64]

/-- `float(v or 0.0)`. -/
def amountOrZero (v : Wire Binary64) : Except PyError (Extended Binary64) :=
  if v.truthy then v.toDouble else .ok 0.0

namespace ToolHooks

variable (h : ToolHooks)

def envelopeField (name : Str) : Wire Binary64 := Json.get (.object h.envelope) name

omit [Spelling Binary64] in
def envelopeVersion : Except PyError Int :=
  match h.envelopeField (str "version") with
  | .bool b => .ok (if b then 1 else 0)
  | .number n => Wire.toInt (.number n)
  | _ => .ok 0

def envelopeRef (path : Str) : Except PyError Str := do
  let version ← h.envelopeVersion
  let text ← textOf (.number (.integer version) : Wire Binary64)
  return str "envelope:" ++ h.storeId ++ str ":v" ++ text ++ str "#" ++ path

def catalogRef (productRef key : Str) : Str :=
  str "catalog:" ++ h.storeId ++ str ":" ++ productRef ++ str "#" ++ key

def pixelRef (productRef key : Str) : Str :=
  str "pixel:" ++ h.storeId ++ str ":" ++ productRef ++ str "#" ++ key

def policyVersion : Except PyError Str :=
  match h.learnedPolicy with
  | .null => .ok (str "cold-start")
  | policy =>
      if Wire.truthy (Json.get policy (str "version")) then textOf (Json.get policy (str "version"))
      else .ok (str "unversioned")

/-- `_observed_at`, over the evidence that there is. -/
def observedAt (evidence : Dict Str (Wire Binary64)) : Except PyError Str :=
  if Wire.truthy (Json.get (.object evidence) (str "observed_at")) then
    textOf (Json.get (.object evidence) (str "observed_at"))
  else .ok (h.asOf.getD unknownObservedAt)

/-! ## Emission -/

/-- `_log`. -/
def log (hook subject outcome : Str) (claims : List MintedClaim) : ToolHooks :=
  { h with calls := h.calls ++ [{ hook, subject, outcome, claimKeys := claims.map MintedClaim.key }] }

variable [Minting]

/-- One claim goes into the trail, and its fingerprint into the ledger. -/
def emitOne (claim : MintedClaim) : Except PyError Unit × ToolHooks :=
  let h := { h with claims := h.claims ++ [claim] }
  match Minting.fingerprint claim with
  | .error e => (.error e, h)
  | .ok fingerprint => (.ok (), { h with ledger := h.ledger.record fingerprint })

/-- `_emit`. -/
def emit : ToolHooks → List MintedClaim → Except PyError Unit × ToolHooks
  | h, [] => (.ok (), h)
  | h, claim :: claims =>
      match h.emitOne claim with
      | (.error e, h') => (.error e, h')
      | (.ok _, h') => emit h' claims

def publish (hook subject outcome : Str) (read : Except PyError (List MintedClaim)) :
    Except HookError (List MintedClaim) × ToolHooks :=
  match read with
  | .error e => (.error (.python e), h)
  | .ok claims =>
      if claims.all Minting.conforms then
        match h.emit claims with
        | (.error e, h') => (.error (.python e), h')
        | (.ok _, h') => (.ok claims, h'.log hook subject outcome claims)
      else (.error (.python .valueError), h)

/-- A question about something that the context does not hold. -/
def unknown (hook subject outcome : Str) : Except HookError (List MintedClaim) × ToolHooks :=
  (.error .hookInput, h.log hook subject outcome [])

/-! ## Facts -/

def factClaim (productRef key : Str) (listing : Dict Str (Wire Binary64)) (value : Wire Binary64) :
    Except PyError (List MintedClaim) := do
  let observedAt ← h.observedAt listing
  return [{ key, value, unit := .null, claimType := claimTypeOf key, source := .scraped,
            ref := h.catalogRef productRef key, observedAt, authorityRank := none }]

def getProductFact (productRef key : Str) : Except HookError (List MintedClaim) × ToolHooks :=
  match Dict.get? h.catalog productRef with
  | none => h.unknown (str "get_product_fact") productRef (str "unknown_product")
  | some listing =>
      match Dict.get? listing key with
      | none => h.unknown (str "get_product_fact") productRef (str "unknown_key")
      | some value =>
          h.publish (str "get_product_fact") productRef (str "claim") (h.factClaim productRef key listing value)

def liveClaims (productRef : Str) : Except PyError (List MintedClaim) := do
  let state := (Dict.get? h.liveState productRef).getD []
  let observedAt ← h.observedAt state
  return ((keyTexts state).filter (· ≠ str "observed_at")).map fun key =>
    { key, value := Json.get (.object state) key, unit := .null, claimType := claimTypeOf key,
      source := .pixelFeed, ref := h.pixelRef productRef key, observedAt, authorityRank := none }

def getLiveState (productRef : Str) : Except HookError (List MintedClaim) × ToolHooks :=
  if Dict.contains h.catalog productRef then
    let outcome := match h.liveClaims productRef with
      | .ok (_ :: _) => str "claims"
      | _ => str "no_feed_data"
    h.publish (str "get_live_state") productRef outcome (h.liveClaims productRef)
  else h.unknown (str "get_live_state") productRef (str "unknown_product")

/-! ## Commitments -/

/-- `int(rank) if isinstance(rank, (int, float)) else None`. -/
def rankOf : Wire Binary64 → Except PyError (Option Int)
  | .bool b => .ok (some (if b then 1 else 0))
  | .number n => some <$> Wire.toInt (.number n)
  | _ => .ok none

def citedRef (provenance : Dict Str (Wire Binary64)) (key : Str) : Except PyError Str :=
  if Wire.truthy (Json.get (.object provenance) (str "ref")) then textOf (Json.get (.object provenance) (str "ref"))
  else h.envelopeRef key

def commitmentClaim (raw : Wire Binary64) : Except PyError (Option MintedClaim) := do
  let entry ← asMapping raw
  let key ← textOrEmpty (Json.get (.object entry) (str "key"))
  if key.isEmpty then return none
  else
    let provenance ← asMapping (Json.get (.object entry) (str "provenance"))
    let stated := Json.get (.object entry) (str "claim_type")
    let ref ← h.citedRef provenance key
    let observedAt ← h.observedAt provenance
    let authorityRank ← rankOf (Json.get (.object provenance) (str "authority_rank"))
    return some
      { key, value := Json.get (.object entry) (str "value"), unit := Json.get (.object entry) (str "unit"),
        claimType := if Wire.truthy stated then stated else claimTypeOf key, source := .ownerStatement, ref,
        observedAt, authorityRank }

/-- The commitments in order, up to the first that has no key. -/
def commitmentClaims : List (Wire Binary64) → Except HookError (List MintedClaim)
  | [] => .ok []
  | raw :: rest =>
      match h.commitmentClaim raw with
      | .error e => .error (.python e)
      | .ok none => .error .hookInput
      | .ok (some claim) =>
          if Minting.conforms claim then (claim :: ·) <$> commitmentClaims rest
          else .error (.python .valueError)

def getOwnerCommitments (clusterId : Str) : Except HookError (List MintedClaim) × ToolHooks :=
  match h.commitmentClaims (sequence (h.envelopeField (str "standing_commitments"))) with
  | .error e => (.error e, h)
  | .ok claims => h.publish (str "get_owner_commitments") clusterId (str "claims") (.ok claims)

/-! ## The walls -/

omit [Spelling Binary64] [Minting] in
def tighten (productRef : Str) (floor : Extended Binary64) (raw : Wire Binary64) :
    Except PyError (Extended Binary64) := do
  let entry ← asMapping raw
  match Json.get (.object entry) (str "product_ref") with
  | .null => return floor.greatest (← amountOrZero (Json.get (.object entry) (str "min_price")))
  | .string scope =>
      if scope.isEmpty || scope = productRef then
        return floor.greatest (← amountOrZero (Json.get (.object entry) (str "min_price")))
      else return floor
  | _ => return floor

omit [Spelling Binary64] [Minting] in
def priceFloor (productRef : Str) : Except PyError (Extended Binary64) :=
  (sequence (h.envelopeField (str "floors"))).foldlM (tighten productRef) 0.0

omit [Spelling Binary64] [Minting] in
def listPrice (productRef : Str) : Except PyError (Option (Extended Binary64)) :=
  match Dict.get? h.catalog productRef with
  | none => .ok none
  | some listing =>
      match Wire.toDouble (Json.get (.object listing) (str "list_price")) with
      | .ok value => .ok (if value.isFinite then some value else none)
      | .error .typeError | .error .valueError => .ok none
      | .error raised => .error raised

omit [Spelling Binary64] [Minting] in
def maxDiscountPct : Except PyError (Extended Binary64) :=
  amountOrZero (h.envelopeField (str "max_discount_pct"))

def wallTolerance : Extended Binary64 := 1e-9

omit [Folding] [Spelling Binary64] [Minting] in
def resultingPrice (listPrice pct : Extended Binary64) : Extended Binary64 := listPrice * (100.0 - pct) / 100.0

omit [Minting] in
def refusal (productRef : Str) (pct : Extended Binary64) (reason : Reason) (limit : Extended Binary64)
    (path : Str) : Except PyError (Option Denied) := do
  return some { reason, productRef, requestedPct := pct, limit, ruleRef := ← h.envelopeRef path }

omit [Minting] in
/-- `_evaluate_discount`: the refusal of a depth, if there is one. -/
def evaluateDiscount (productRef : Str) (pct : Extended Binary64) : Except PyError (Option Denied) := do
  let cap ← h.maxDiscountPct
  if Dict.contains h.catalog productRef then
    if !pct.isFinite then h.refusal productRef pct .nonFiniteDiscount cap (str "max_discount_pct")
    else if pct < 0.0 then h.refusal productRef pct .negativeDiscount 0.0 (str "max_discount_pct")
    else if cap + wallTolerance < pct then h.refusal productRef pct .overMaxDiscount cap (str "max_discount_pct")
    else
      match ← h.listPrice productRef with
      | none => h.refusal productRef pct .unpriceableProduct 0.0 (str "catalog#" ++ productRef)
      | some listPrice =>
          let floor ← h.priceFloor productRef
          if resultingPrice listPrice pct + wallTolerance < floor then
            h.refusal productRef pct .belowPriceFloor floor (str "floors#" ++ productRef)
          else return none
  else h.refusal productRef pct .unknownProduct 0.0 (str "floors")

omit [Minting] in
def wouldAuthorize (productRef : Str) (requested : Wire Binary64) : Except PyError Bool :=
  match requested.toDouble with
  | .ok pct => Option.isNone <$> h.evaluateDiscount productRef pct
  | .error .typeError | .error .valueError => .ok false
  | .error raised => .error raised

def grantClaim (productRef : Str) (pct : Extended Binary64) : Except PyError (List MintedClaim) := do
  let ruleRef ← h.envelopeRef (str "max_discount_pct")
  let ref ← scopedRef ruleRef productRef
  return [{ key := str "authorized_discount_pct", value := .number (.double pct), unit := .string (str "percent"),
            claimType := .string (str "discount"), source := .envelopeRule, ref,
            observedAt := h.asOf.getD unknownObservedAt, authorityRank := none }]

/-- `authorize_discount`: the grant, or the refusal of it. -/
def authorizeDiscount (productRef : Str) (requested : Wire Binary64) :
    Except HookError (List MintedClaim ⊕ Denied) × ToolHooks :=
  match requested.toDouble with
  | .error .typeError | .error .valueError => (.error .hookInput, h)
  | .error raised => (.error (.python raised), h)
  | .ok pct =>
      match h.evaluateDiscount productRef pct with
      | .error e => (.error (.python e), h)
      | .ok (some denied) =>
          (.ok (.inr denied), h.log (str "authorize_discount") productRef denied.reason.text [])
      | .ok none =>
          match h.publish (str "authorize_discount") productRef (str "authorized") (h.grantClaim productRef pct) with
          | (.error e, h') => (.error e, h')
          | (.ok claims, h') => (.ok (.inl claims), h')

/-! ## The learned policy -/

/-- The depth that the policy's choice comes to, and whether the envelope refused it. -/
def walledDepth (productRef : Str) (proposed : Wire Binary64) : Except PyError (Extended Binary64 × Bool) :=
  match proposed.toDouble with
  | .ok depth =>
      if depth ≤ 0.0 ∧ 0.0 ≤ depth then .ok (0.0, false)
      else do
        if ← h.wouldAuthorize productRef (.number (.double depth)) then return (depth, false)
        else return (0.0, true)
  | .error .typeError | .error .valueError => .ok (0.0, true)
  | .error raised => .error raised

def chosenAction (clusterId : Str) : Except PyError (Dict Str (Wire Binary64)) :=
  match h.learnedPolicy with
  | .object policy => do
      let byCluster ← asMapping (Json.get (.object policy) (str "actions"))
      asMapping (Json.get (.object byCluster) clusterId)
  | _ => .ok []

def commitmentKey (raw : Wire Binary64) : Except PyError Str := do
  let entry ← asMapping raw
  textOrEmpty (Json.get (.object entry) (str "key"))

/-- The entries of the action that the policy may name otherwise. -/
def passedOn (chosen : Dict Str (Wire Binary64)) (action : Dict Str (Wire Binary64)) : Dict Str (Wire Binary64) :=
  ["commitment_keys", "value_prop", "pitch_variant"].foldl (fun action name =>
    match Dict.get? chosen (str name) with
    | some value => Dict.set action (str name) value
    | none => action) action

/-- The action of a cluster for a product, and whether its depth was refused. -/
def policyAction (clusterId productRef version : Str) : Except PyError (Dict Str (Wire Binary64) × Bool) := do
  let keys ← (sequence (h.envelopeField (str "standing_commitments"))).mapM commitmentKey
  let sorted := (keys.filter fun key => !key.isEmpty).insertionSort fun a b => Str.le a b
  let chosen ← h.chosenAction clusterId
  let action := passedOn chosen
    [(str "policy_version", .string version), (str "cluster_id", .string clusterId),
      (str "product_ref", .string productRef), (str "discount_pct", .number (.double 0.0)),
      (str "commitment_keys", .array (sorted.map .string)), (str "pitch_variant", .string (str "buyer_led"))]
  match Dict.get? chosen (str "discount_pct") with
  | none => return (action, false)
  | some proposed =>
      let (depth, walled) ← h.walledDepth productRef proposed
      return (Dict.set action (str "discount_pct") (.number (.double depth)), walled)

/-- What the policy is asked about, and under which version it answers. -/
def policyAsk (context : Wire Binary64) : Except PyError (Str × Str × Str) := do
  let ask ← asMapping context
  let clusterId ← textOrEmpty (Json.get (.object ask) (str "cluster_id"))
  let productRef ← textOrEmpty (Json.get (.object ask) (str "product_ref"))
  return (clusterId, productRef, ← h.policyVersion)

def actionClaim (clusterId version : Str) (action : Dict Str (Wire Binary64)) : MintedClaim where
  key := str "policy_action"
  value := .object action
  unit := .null
  claimType := .null
  source := .learnedPolicy
  ref := str "policy:" ++ h.storeId ++ str ":" ++ version ++ str "#" ++ clusterId
  observedAt := h.asOf.getD unknownObservedAt
  authorityRank := none

def choosePolicyAction (context : Wire Binary64) : Except HookError (List MintedClaim) × ToolHooks :=
  match h.policyAsk context with
  | .error e => (.error (.python e), h)
  | .ok (clusterId, productRef, version) =>
      match h.policyAction clusterId productRef version with
      | .error e => (.error (.python e), h)
      | .ok (action, walled) =>
          h.publish (str "choose_policy_action") clusterId (if walled then str "action_walled" else str "action")
            (.ok [h.actionClaim clusterId version action])

/-! ## The network prior -/

def priorClaim (clusterId : Str) : Except PyError MintedClaim :=
  match Dict.get? h.networkPriors clusterId with
  | some (.object prior) => do
      let kept := (scrubContextPrior (.object prior : Wire Binary64)).1
      let observedAt ← h.observedAt kept
      return { key := str "network_prior", value := .object kept, unit := .null, claimType := .null,
               source := .network, ref := str "network-prior:" ++ clusterId, observedAt, authorityRank := none }
  | none | some .null =>
      return { key := str "network_prior", value := .object [], unit := .null, claimType := .null,
               source := .network, ref := str "network-prior:" ++ clusterId ++ str "#absent",
               observedAt := h.asOf.getD unknownObservedAt, authorityRank := none }
  | some prior =>
      return { key := str "network_prior", value := prior, unit := .null, claimType := .null, source := .network,
               ref := str "network-prior:" ++ clusterId, observedAt := h.asOf.getD unknownObservedAt,
               authorityRank := none }

def isPriorPresent (clusterId : Str) : Bool :=
  match Dict.get? h.networkPriors clusterId with
  | none | some .null => false
  | _ => true

def getNetworkPrior (clusterId : Str) : Except HookError (List MintedClaim) × ToolHooks :=
  h.publish (str "get_network_prior") clusterId
    (if h.isPriorPresent clusterId then str "prior" else str "absent") ((fun claim => [claim]) <$> h.priorClaim clusterId)

/-! ## Construction -/

omit [Folding] [Minting] [Spelling Binary64] in
def mappings (v : Wire Binary64) : Except PyError (Dict Str (Dict Str (Wire Binary64))) := do
  let entries ← asMapping v
  entries.mapM fun entry => do return (entry.1, ← asMapping entry.2)

omit [Folding] [Minting] in
/-- `__init__`: a facade that has emitted nothing. -/
def init (context : Wire Binary64) : Except PyError ToolHooks := do
  let merged ← asMapping context
  let storeId ← textOrEmpty (Json.get (.object merged) (str "store_id"))
  let envelope ← asMapping (Json.get (.object merged) (str "envelope"))
  let catalog ← mappings (Json.get (.object merged) (str "catalog"))
  let liveState ← mappings (Json.get (.object merged) (str "live_state"))
  let networkPriors ← asMapping (Json.get (.object merged) (str "network_priors"))
  let asOf ← textOrEmpty (Json.get (.object merged) (str "as_of"))
  return { storeId, envelope, catalog, liveState, networkPriors,
           learnedPolicy := Json.get (.object merged) (str "learned_policy"),
           asOf := if asOf.isEmpty then none else some asOf,
           calls := [], claims := [], ledger := .empty, bidRef := [] }

/-! ## Bids -/

/-- `start_bid`: nothing that was emitted for another bid can be admitted. -/
def startBid (bidRef : Str) : ToolHooks := { h with bidRef, ledger := .empty }

def spendAuthorization (fingerprint : Str) : Bool × ToolHooks :=
  ((h.ledger.spend fingerprint).1, { h with ledger := (h.ledger.spend fingerprint).2 })

def remainingAuthorizations (fingerprint : Str) : Nat := h.ledger.remaining fingerprint

end ToolHooks
end Hooks
end Proxyshop.Hooks
