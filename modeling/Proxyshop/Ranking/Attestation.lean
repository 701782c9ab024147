import Proxyshop.Contracts.Signing
import Proxyshop.Verification.Verifier

/-!
# The exchange's own attestation

A verdict is sealed under the key of the process, together with what it is about, and is read back
only where the seal holds. The keyed hash is a parameter.
-/

namespace Proxyshop.Ranking

open Python Numbers Contracts Structures Verification

abbrev Value := Wire Binary64

/-- The hexadecimal digest of a text under the key of the process. -/
class Sealing where
  digest : Str → Str

@[reducible] def Sealing.plain : Sealing where
  digest text := text

def attestationField : Str := str "exchange_verification"

/-! ## The sealed payload -/

def numeral : Literal Binary64 → Numeral
  | .integer n => .int n
  | .double x => .float x

mutual

def document : Value → Json Numeral
  | .null => .null
  | .bool b => .bool b
  | .number n => .number (numeral n)
  | .string s => .string s
  | .array items => .array (documents items)
  | .object members => .object (memberDocuments members)

def documents : List Value → List (Json Numeral)
  | [] => []
  | v :: rest => document v :: documents rest

def memberDocuments : List (Str × Value) → List (Str × Json Numeral)
  | [] => []
  | (name, v) :: rest => (name, document v) :: memberDocuments rest

end

structure Payload where
  key : Value
  value : Value
  unit : Value
  subject : Value
  status : Value
  verifierVersion : Value
  catalogSnapshot : Value

def Payload.entries (p : Payload) : Dict Str Value :=
  [(str "key", p.key), (str "value", p.value), (str "unit", p.unit), (str "subject", p.subject),
    (str "status", p.status), (str "verifier_version", p.verifierVersion),
    (str "catalog_snapshot", p.catalogSnapshot)]

variable [Spelling Binary64]

/-- `None if v is None else str(v)`. -/
def spelledOrNone (v : Value) : Except PyError Value :=
  if v.isNull then .ok .null else do return .string (← textOf v)

/-- `_payload`. -/
def payloadOf (p : Payload) : Except PyError Payload := do
  return {
    key := ← spelledOrNone p.key
    value := p.value
    unit := ← spelledOrNone p.unit
    subject := ← spelledOrNone p.subject
    status := ← spelledOrNone p.status
    verifierVersion := ← spelledOrNone p.verifierVersion
    catalogSnapshot := ← spelledOrNone p.catalogSnapshot }

variable [Sealing]

omit [Spelling Binary64] in
/-- `_mac`. -/
def macOf (p : Payload) : Option Str :=
  (canonicalJson (document (.object p.entries))).toOption.map Sealing.digest

/-! ## Minting and reading -/

def droppedFromTheAuthorsClaim : List Str := [attestationField, str "status", str "unit"]

structure Verdict where
  status : Str
  unit : Value
  subject : Value
  verifierVersion : Value
  catalogSnapshot : Value
  evidenceRefs : List Str
  confidence : Option (Extended Binary64)
  reason : Option Str

omit [Spelling Binary64] [Sealing] in
/-- What is carried of the claim of the author, in the unit of the exchange. -/
def carried (claim unit : Value) : Dict Str Value :=
  let kept := (claim.record?.getD []).filter fun entry => entry.1 ∉ droppedFromTheAuthorsClaim
  if unit.isNull then kept else Dict.set kept (str "unit") unit

def attestClaim (claim : Value) (verdict : Verdict) : Except PyError Value := do
  let out := carried claim verdict.unit
  let payload ← payloadOf {
    key := (Json.object out).get (str "key")
    value := (Json.object out).get (str "value")
    unit := (Json.object out).get (str "unit")
    subject := verdict.subject
    status := .string verdict.status
    verifierVersion := verdict.verifierVersion
    catalogSnapshot := verdict.catalogSnapshot }
  return .object (Dict.set out attestationField (.object (payload.entries ++
    [(str "evidence_refs", .array (verdict.evidenceRefs.map .string)),
      (str "confidence", verdict.confidence.elim .null fun c => .number (.double c)),
      (str "reason", verdict.reason.elim .null .string),
      (str "mac", (macOf payload).elim .null .string)])))

def presentedMac (attestation : Value) : Option Str :=
  match attestation.get (str "mac") with
  | .string presented => if presented.isEmpty then none else some presented
  | _ => none

def ownSubject (declared subject : Value) : Except PyError Bool :=
  if declared.isNull then .ok true
  else do
    return (← textOf declared) = (← textOf (orElse subject (.string [])))

/-- `attested_status`. -/
def attestedStatus (attestation key value unit subject : Value) : Except PyError (Option Str) := do
  match presentedMac attestation with
  | none => return none
  | some presented =>
      let status := attestation.get (str "status")
      if status.isNull then return none
      let declared := attestation.get (str "subject")
      if !(← ownSubject declared subject) then return none
      let payload ← payloadOf {
        key, value, unit, subject := declared, status
        verifierVersion := attestation.get (str "verifier_version")
        catalogSnapshot := attestation.get (str "catalog_snapshot") }
      if macOf payload = some presented then return some (← textOf status)
      else return none

end Proxyshop.Ranking
