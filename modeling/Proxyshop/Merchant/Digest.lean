import Proxyshop.Hashing.Sha256
import Proxyshop.Merchant.Envelope
import Proxyshop.Python.Value
import Proxyshop.Structures.Sorted

/-!
# The digest an approval is bound to

A hash over a canonical rendering of the terms. The shortest spelling of a double is a parameter.
-/

namespace Proxyshop.Merchant

open Python Numbers Contracts Structures Hashing

/-- The shortest text that reads back as the double, and the decimal number it spells. -/
class Shortest (F : Type) [Format F] where
  repr : F → Str
  decimal : F → ℚ
  round_decimal (x : F) : Format.round (decimal x) = Extended.finite x

/-- A whole number as it is spelled from its digits: with a point, or from 10^16 on with an exponent. -/
def spellWhole (n : Int) : Str :=
  let digits := Str.ofNat n.natAbs
  let mantissa := digits.rdropWhile (· = CodePoint.ofChar '0')
  let sign := if n < 0 then str "-" else []
  if n.natAbs < 10 ^ 16 then sign ++ digits ++ str ".0"
  else
    let fraction := if mantissa.length = 1 then [] else str "." ++ mantissa.drop 1
    sign ++ mantissa.take 1 ++ fraction ++ str "e+" ++ Str.ofNat (digits.length - 1)

/-- Exact numbers, of which the whole ones are spelled. -/
instance Shortest.exact : Shortest ℚ where
  repr x := spellWhole x.num
  decimal x := x
  round_decimal _ := rfl

section Canonical

variable {F : Type}

/-! ## `json.dumps` -/

def escapeChar (c : CodePoint) : Str :=
  if c = CodePoint.ofChar '"' then str "\\\""
  else if c = CodePoint.ofChar '\\' then str "\\\\"
  else if c.val = 10 then str "\\n"
  else if c.val = 13 then str "\\r"
  else if c.val = 9 then str "\\t"
  else if c.val = 12 then str "\\f"
  else if c.val = 8 then str "\\b"
  else if c.val < 32 then Python.Json.unitEscape c.val
  else [c]

def quoted (s : Str) : Str := str "\"" ++ s.flatMap escapeChar ++ str "\""

def dumpsNumber [Format F] [Shortest F] : Literal F → Str
  | .integer n => Str.ofInt n
  | .double (.finite x) => Shortest.repr x
  | .double (.infinity negative) => if negative then str "-Infinity" else str "Infinity"
  | .double .nan => str "NaN"

def spellMember (member : Str × Str) : Str := quoted member.1 ++ str ":" ++ member.2

mutual

/-- `json.dumps(v, sort_keys=True, separators=(",", ":"), ensure_ascii=False)`. -/
def dumps [Format F] [Shortest F] : Wire F → Str
  | .null => str "null"
  | .bool b => if b then str "true" else str "false"
  | .number n => dumpsNumber n
  | .string s => quoted s
  | .array items => str "[" ++ (str ",").intercalate (dumpsItems items) ++ str "]"
  | .object members =>
      str "\x7b" ++ (str ",").intercalate ((byKey Str.le (dumpsMembers members)).map spellMember) ++
        str "\x7d"

def dumpsItems [Format F] [Shortest F] : List (Wire F) → List Str
  | [] => []
  | v :: rest => dumps v :: dumpsItems rest

def dumpsMembers [Format F] [Shortest F] : List (Str × Wire F) → List (Str × Str)
  | [] => []
  | (name, v) :: rest => (name, dumps v) :: dumpsMembers rest

end

/-! ## The approved terms -/

mutual

/-- `_canonical`: mappings sorted by key, without their empty entries. -/
def canonical : Wire F → Wire F
  | .array items => .array (canonicalItems items)
  | .object members => .object (byKey Str.le (canonicalMembers members))
  | v => v

def canonicalItems : List (Wire F) → List (Wire F)
  | [] => []
  | v :: rest => canonical v :: canonicalItems rest

def canonicalMembers : List (Str × Wire F) → List (Str × Wire F)
  | [] => []
  | (name, v) :: rest =>
      if v.isNull then canonicalMembers rest else (name, canonical v) :: canonicalMembers rest

end

def isFiniteNumber : Literal F → Bool
  | .double x => x.isFinite
  | .integer _ => true

mutual

/-- `allow_nan=False` lets the value pass. -/
def allFinite : Wire F → Bool
  | .number n => isFiniteNumber n
  | .array items => allFiniteItems items
  | .object members => allFiniteMembers members
  | _ => true

def allFiniteItems : List (Wire F) → Bool
  | [] => true
  | v :: rest => allFinite v && allFiniteItems rest

def allFiniteMembers : List (Str × Wire F) → Bool
  | [] => true
  | (_, v) :: rest => allFinite v && allFiniteMembers rest

end

variable [Format F] [Shortest F]

def stablySorted (l : List (Wire F)) : List (Wire F) :=
  l.insertionSort fun v w => Str.le (dumps v) (dumps w)

def approvedTerms (t : Terms F) : Wire F :=
  .object [
    (str "store_id", .string t.storeId),
    (str "version", .number (.integer t.version)),
    (str "floors", .array (stablySorted (t.floors.map PriceFloor.toDict))),
    (str "max_discount_pct", .number (.double t.maxDiscountPct)),
    (str "budget_cap", .number (.double t.budgetCap)),
    (str "pursue_clusters",
      .array ((t.pursueClusters.insertionSort fun a b => Str.le a b).map .string)),
    (str "standing_commitments", .array (stablySorted (t.standingCommitments.map canonical)))]

/-! ## The digest -/

def canonicalText (t : Terms F) : Except PyError Str :=
  if Wire.writable (approvedTerms t) ∧ allFinite (approvedTerms t) then .ok (dumps (approvedTerms t))
  else .error .valueError

def approvalDigest (t : Terms F) : Except PyError Str := do
  match Str.encodeUtf8 (← canonicalText t) with
  | none => .error .valueError
  | some payload => return str "sha256:" ++ sha256Hex payload

/-- `hmac.compare_digest` takes texts of ASCII characters only. -/
def compareDigest (a b : Str) : Except PyError Bool :=
  if Str.isAscii a ∧ Str.isAscii b then .ok (a = b) else .error .typeError

def approvalCovers (t : Terms F) (envelopeHash : Str) : Except PyError Bool :=
  if envelopeHash.strip.isEmpty then .ok false
  else do compareDigest (← approvalDigest t) envelopeHash.strip

theorem compareDigest_eq_true {a b : Str} (same : compareDigest a b = .ok true) : a = b := by
  unfold compareDigest at same
  split at same
  · exact of_decide_eq_true (Except.ok.inj same)
  · cases same

theorem approvalCovers_eq_true {t : Terms F} {hash : Str} (covered : approvalCovers t hash = .ok true) :
    approvalDigest t = .ok hash.strip := by
  unfold approvalCovers at covered
  split at covered
  · cases covered
  · obtain ⟨digest, made, same⟩ := bind_eq_ok.mp covered
    rw [made, compareDigest_eq_true same]

end Canonical
end Proxyshop.Merchant
