import Proxyshop.Contracts.Document
import Proxyshop.Contracts.SigningNumber
import Proxyshop.Hashing.Sha256
import Proxyshop.Structures.Sorted

/-!
# The signed bytes

The canonical form of a document, and the bytes that the signature of a submission covers.
-/

namespace Proxyshop.Contracts

open Python Numbers Structures Hashing

inductive Numeral
  | int (i : Int)
  | float (x : Extended Binary64)
  | minusZero

inductive CanonicalisationError
  | nonFinite
  | unrepresentable (value : Int)
  | loneSurrogate (what : Str) (char : CodePoint) (index : Nat)
  | incompleteEnvelope (missing : List Str)
  | unaddressed
  | notMapping
  | unicode
  deriving DecidableEq

def requiredSigningFields : List Str :=
  [str "signer_id", str "key_id", str "issued_at", str "nonce", str "schema_version"]

def signedFields : List Str :=
  [str "auction_id", str "signer_id", str "store_id", str "issued_at", str "nonce", str "key_id",
    str "schema_version"]

def nonBodyKeys : List Str :=
  [str "signer_id", str "key_id", str "issued_at", str "nonce", str "signature"]

def isBlankText (value : Str) : Bool := value.all CodePoint.isBlank

/-! ## Canonical JSON -/

/-- `_ecmascript_number`. -/
def ecmascriptNumber : Extended Binary64 → Except CanonicalisationError Str
  | .finite x => .ok (ecmascriptFinite x)
  | _ => .error .nonFinite

/-- `float`, where it does not overflow. -/
def floatOfInt (value : Int) : Option Binary64 :=
  match Binary64.round value with
  | .finite x => some x
  | _ => none

def representableAsDouble (value : Int) : Bool := (floatOfInt value).any fun x => x.value = (value : ℚ)

def writeNumber : Numeral → Except CanonicalisationError Str
  | .int value =>
      if representableAsDouble value then ecmascriptNumber (Binary64.round value)
      else .error (.unrepresentable value)
  | .float value => ecmascriptNumber value
  | .minusZero => .ok (str "0")

def rejectLoneSurrogates (text what : Str) : Except CanonicalisationError Unit :=
  match text.findIdx? CodePoint.isSurrogate with
  | some index => .error (.loneSurrogate what (text.getD index 0) index)
  | none => .ok ()

def shortEscapes : List (Nat × Str) :=
  [(34, str "\\\""), (92, str "\\\\"), (10, str "\\n"), (13, str "\\r"), (9, str "\\t"),
    (12, str "\\f"), (8, str "\\b")]

def dumpsChar (c : CodePoint) : Str :=
  match shortEscapes.lookup c.val with
  | some escape => escape
  | none => if c.val < 32 then str "\\u00" ++ hexByte (UInt8.ofNat c.val) else [c]

/-- `json.dumps(value, ensure_ascii=False)` of a string. -/
def dumps (value : Str) : Str := str "\"" ++ value.flatMap dumpsChar ++ str "\""

def utf16Bytes (c : CodePoint) : List Nat :=
  if c.val < 0x10000 then [c.val / 256, c.val % 256]
  else
    let high := 0xD800 + (c.val - 0x10000) / 0x400
    let low := 0xDC00 + (c.val - 0x10000) % 0x400
    [high / 256, high % 256, low / 256, low % 256]

def utf16Key (key : Str) : List Nat := key.flatMap utf16Bytes

def utf16Le (a b : Str) : Bool := lexLe (utf16Key a) (utf16Key b)

def writeString (value : Str) : Except CanonicalisationError Str := do
  rejectLoneSurrogates value (str "a string")
  return dumps value

def comma : CodePoint := CodePoint.ofChar ','

def closeArray : CodePoint := CodePoint.ofChar ']'

def closeObject : CodePoint := CodePoint.ofChar '\x7d'

def writeMember (member : Str × Except CanonicalisationError Str) : Except CanonicalisationError Str := do
  return dumps member.1 ++ str ":" ++ (← member.2)

mutual

/-- `_write_canonical`. -/
def canonicalJson : Json Numeral → Except CanonicalisationError Str
  | .null => .ok (str "null")
  | .bool true => .ok (str "true")
  | .bool false => .ok (str "false")
  | .string value => writeString value
  | .number value => writeNumber value
  | .object members => do
      members.forM fun member => rejectLoneSurrogates member.1 (str "an object key")
      let texts ← (byKey utf16Le (canonicalMembers members)).mapM writeMember
      return str "\x7b" ++ [comma].intercalate texts ++ [closeObject]
  | .array items => do
      let texts ← (canonicalItems items).mapM id
      return str "[" ++ [comma].intercalate texts ++ [closeArray]

def canonicalMembers : List (Str × Json Numeral) → List (Str × Except CanonicalisationError Str)
  | [] => []
  | (key, value) :: members => (key, canonicalJson value) :: canonicalMembers members

def canonicalItems : List (Json Numeral) → List (Except CanonicalisationError Str)
  | [] => []
  | value :: items => canonicalJson value :: canonicalItems items

end

/-- `.encode("utf-8")`. -/
def encode (text : Str) : Except CanonicalisationError (List UInt8) :=
  match text.encodeUtf8 with
  | some bytes => .ok bytes
  | none => .error .unicode

/-! ## The envelope -/

def body (payload : Dict Str (Json Numeral)) : Dict Str (Json Numeral) :=
  payload.filter fun entry => entry.1 ∉ nonBodyKeys

def bodyMessage (payload : Json Numeral) : Except CanonicalisationError (List UInt8) :=
  match payload with
  | .object members => do encode (← canonicalJson (.object (body members)))
  | _ => .error .notMapping

def payloadHash (payload : Json Numeral) : Except CanonicalisationError Str := do
  return str "sha256:" ++ sha256Hex (← bodyMessage payload)

def isMissing (payload : Json Numeral) (field : Str) : Bool :=
  match payload.get field with
  | .string value => isBlankText value
  | _ => true

def missingSigningFields (payload : Json Numeral) : List Str :=
  requiredSigningFields.filter (isMissing payload)

/-- `value in (None, "")`. -/
def isUnstated : Json Numeral → Bool
  | .null => true
  | .string value => value.isEmpty
  | _ => false

def covered (payload : Json Numeral) (hash : Str) : Dict Str (Json Numeral) :=
  signedFields.map (fun field => (field, payload.get field)) ++ [(str "payload_hash", .string hash)]

def canonicalSigningBytes (payload : Json Numeral) : Except CanonicalisationError (List UInt8) :=
  match payload with
  | .object _ =>
      let missing := missingSigningFields payload
      if missing ≠ [] then .error (.incompleteEnvelope missing)
      else if isUnstated (payload.get (str "auction_id")) ∨ isUnstated (payload.get (str "store_id")) then
        .error .unaddressed
      else do
        encode (← canonicalJson (.object (covered payload (← payloadHash payload))))
  | _ => .error .notMapping

end Proxyshop.Contracts
