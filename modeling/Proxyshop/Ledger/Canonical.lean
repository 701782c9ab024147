import Mathlib.Data.List.Sort
import Proxyshop.Hashing.Sha256
import Proxyshop.Python.Value

/-!
# Canonical JSON and the event hash
-/

namespace Proxyshop.Ledger

open Python Hashing

inductive Refusal
  | timestamp
  | surrogate
  | number
  | missing (names : List Str)
  deriving DecidableEq

inductive Error
  | canonicalisation (refusal : Refusal)
  | chainIntegrity
  | python (e : PyError)
  deriving DecidableEq

def Error.isValueError : Error → Bool
  | .canonicalisation _ => true
  | .chainIntegrity => false
  | .python e => e == .valueError

theorem bind_eq_ok {ε α β : Type} {x : Except ε α} {f : α → Except ε β} {b : β} :
    x >>= f = .ok b ↔ ∃ a, x = .ok a ∧ f a = .ok b := by
  cases x with
  | error e => exact ⟨nofun, nofun⟩
  | ok a => exact ⟨fun h => ⟨a, rfl, h⟩, fun ⟨_, same, h⟩ => by cases same; exact h⟩

def genesisHash : Str := List.replicate 64 (CodePoint.ofChar '0')

def chainFields : List Str := [str "prev_hash", str "event_hash", str "seq"]

/-! ## Timestamps -/

def spellMoment (t : DateTime) : Str :=
  t.stamp ++ str "." ++ Str.padded 3 (t.microsecond / 1000) ++ str "Z"

structure Stamp where
  year : Nat
  month : Nat
  day : Nat
  hour : Nat
  minute : Nat
  second : Nat
  milliseconds : Nat
  offset : Int

section Canonical

variable [Unicode]

def number (n : Nat) (s : Str) : Option (Nat × Str) := Str.number Str.decimal? n s

def fractionMs (s : Str) : Option (Nat × Str) :=
  match Str.expect '.' s with
  | none => some (0, s)
  | some rest =>
      let ds := (rest.takeWhile fun c => (Str.decimal? c).isSome).filterMap Str.decimal?
      if ds.isEmpty then none
      else some (Str.ofDigits ((ds ++ List.replicate 3 0).take 3), rest.drop ds.length)

def offsetMinutes (s : Str) : Option Int :=
  if s = [] ∨ s = str "Z" ∨ s = str "z" then some 0
  else do
    let (sign, rest) ← ((Str.expect '+' s).map fun rest => ((1 : Int), rest)) <|>
      ((Str.expect '-' s).map fun rest => ((-1 : Int), rest))
    let (hours, rest) ← number 2 rest
    let (minutes, rest) ← number 2 ((Str.expect ':' rest).getD rest)
    if rest = [] then return sign * (hours * 60 + minutes : Nat) else none

/-- The groups `_RFC3339_RE` matches. -/
def matchRfc3339 (s : Str) : Option Stamp := do
  let (year, s) ← number 4 s
  let (month, s) ← number 2 (← Str.expect '-' s)
  let (day, s) ← number 2 (← Str.expect '-' s)
  let s ← (Str.expect 'T' s <|> Str.expect 't' s <|> Str.expect ' ' s)
  let (hour, s) ← number 2 s
  let (minute, s) ← number 2 (← Str.expect ':' s)
  let (second, s) ← number 2 (← Str.expect ':' s)
  let (milliseconds, s) ← fractionMs s
  let offset ← offsetMinutes s
  return ⟨year, month, day, hour, minute, second, milliseconds, offset⟩

def rfc3339Ms (value : Value) : Except Error Str :=
  match value with
  | .datetime t => match t.aware.toUtc? with
      | some moment => .ok (spellMoment moment)
      | none => .error (.python .overflowError)
  | .str text => match matchRfc3339 text.strip with
      | none => .error (.canonicalisation .timestamp)
      | some s =>
          match DateTime.make? s.year s.month s.day s.hour s.minute s.second (s.milliseconds * 1000)
            (some 0) with
          | none => .error (.python .valueError)
          | some moment =>
              if s.offset = 0 then .ok (spellMoment moment)
              else match DateTime.ofWall? (moment.wall - s.offset * 60 * microsPerSecond) (some 0) with
                | some moment => .ok (spellMoment moment)
                | none => .error (.python .overflowError)
  | _ => .error (.canonicalisation .timestamp)

/-! ## JCS -/

def escape (c : CodePoint) : Option Str :=
  if c = CodePoint.ofChar '"' then some (str "\\\"")
  else if c = CodePoint.ofChar '\\' then some (str "\\\\")
  else if c.val = 8 then some (str "\\b")
  else if c.val = 12 then some (str "\\f")
  else if c.val = 10 then some (str "\\n")
  else if c.val = 13 then some (str "\\r")
  else if c.val = 9 then some (str "\\t")
  else none

def rejectLoneSurrogate (text : Str) : Except Error Unit :=
  if text.any CodePoint.isSurrogate then .error (.canonicalisation .surrogate) else .ok ()

def serialiseChar (c : CodePoint) : Str :=
  match escape c with
  | some text => text
  | none => if c.val < 32 then str "\\u" ++ Value.hexDigits 4 c.val else [c]

def serialiseString (value : Str) : Except Error Str := do
  rejectLoneSurrogate value
  return str "\"" ++ value.flatMap serialiseChar ++ str "\""

def es6Number (value : Float) : Str :=
  if value == 0 then str "0"
  else
    let sign : Str := if value < 0 then str "-" else []
    let (d, exponent) := Double.shortest value.abs
    let digits := Str.ofNat d
    let k : Int := digits.length
    let n := k + exponent
    sign ++
      if k ≤ n ∧ n ≤ 21 then digits ++ Double.zeros (n - k).toNat
      else if 0 < n ∧ n ≤ 21 then digits.take n.toNat ++ str "." ++ digits.drop n.toNat
      else if -6 < n ∧ n ≤ 0 then str "0." ++ Double.zeros (-n).toNat ++ digits
      else
        let power := n - 1
        Double.mantissa digits ++ str "e" ++ (if 0 ≤ power then str "+" else str "-") ++
          Str.ofNat power.natAbs

def isRepresentableAsDouble (value : Int) : Bool := Double.representsInt value

def serialiseInt (value : Int) : Except Error Str :=
  if isRepresentableAsDouble value then .ok (es6Number (Float.ofInt value))
  else .error (.canonicalisation .number)

def serialiseFloat (value : Float) : Except Error Str :=
  if value.isNaN ∨ value.isInf then .error (.canonicalisation .number) else .ok (es6Number value)

def sortKey (name : Str) : List Nat :=
  name.flatMap fun c =>
    if c.val < 0x10000 then [c.val]
    else [0xD800 + (c.val - 0x10000) / 0x400, 0xDC00 + (c.val - 0x10000) % 0x400]

def unitsLe : List Nat → List Nat → Bool
  | [], _ => true
  | _ :: _, [] => false
  | a :: as, b :: bs => a < b || (a == b && unitsLe as bs)

mutual

def canonicalJson : Value → Except Error Str
  | .none => .ok (str "null")
  | .bool true => .ok (str "true")
  | .bool false => .ok (str "false")
  | .str s => serialiseString s
  | .datetime t => do serialiseString (← rfc3339Ms (.datetime t))
  | .int i => serialiseInt i
  | .float x => serialiseFloat x
  | .dict entries => do
      entries.forM fun entry => rejectLoneSurrogate entry.1
      let ordered := (canonicalMembers entries).insertionSort fun a b => unitsLe (sortKey a.1) (sortKey b.1)
      let members ← ordered.mapM fun member => do
        return (← serialiseString member.1) ++ str ":" ++ (← member.2)
      return str "\x7b" ++ (str ",").intercalate members ++ str "\x7d"
  | .list items => do
      let texts ← (canonicalItems items).mapM id
      return str "[" ++ (str ",").intercalate texts ++ str "]"

/-- Each member's name with the serialisation of its value, still to be sorted. -/
def canonicalMembers : List (Str × Value) → List (Str × Except Error Str)
  | [] => []
  | (k, v) :: entries => (k, canonicalJson v) :: canonicalMembers entries

def canonicalItems : List Value → List (Except Error Str)
  | [] => []
  | v :: items => canonicalJson v :: canonicalItems items

end

def canonicalBytes (value : Value) : Except Error (List UInt8) := do
  match Str.encodeUtf8 (← canonicalJson value) with
  | some bytes => return bytes
  | none => .error (.python .valueError)

/-! ## The event body and its hash -/

def canonicalFields : Record → Except Error Record
  | [] => .ok []
  | (name, value) :: event =>
      if name ∈ chainFields ∨ value.isNone then canonicalFields event
      else if name = str "ts" then do
        let ts ← rfc3339Ms value
        return (name, .str ts) :: (← canonicalFields event)
      else do
        return (name, value) :: (← canonicalFields event)

def canonicalEvent (event : Record) : Except Error Record := do
  let body ← canonicalFields event
  let missing := [str "event_id", str "kind"].filter fun name => !Dict.contains body name
  if missing = [] then return Dict.setDefault body (str "payload") (.dict [])
  else .error (.canonicalisation (.missing missing))

def hashMessage (prevHash : Str) (event : Record) : Except Error (List UInt8) := do
  match prevHash.encodeAscii with
  | none => .error (.python .valueError)
  | some link => return link ++ (← canonicalBytes (.dict (← canonicalEvent event)))

def computeEventHash (prevHash : Str) (event : Record) : Except Error Str := do
  return sha256Hex (← hashMessage prevHash event)

def canonicalText (event : Record) : Except Error Str := do
  canonicalJson (.dict (← canonicalEvent event))

end Canonical
end Proxyshop.Ledger

/-!
## Sealing and verifying a stream
-/

namespace Proxyshop.Ledger

open Python Hashing

inductive Reason
  | unsealed
  | brokenLink
  | tampered
  | empty
  | truncated
  | headMismatch
  deriving DecidableEq

structure Report where
  ok : Bool
  brokenAt : Option Nat
  reason : Option Reason
  headHash : Str
  verified : Nat
  deriving DecidableEq

def broken (index : Nat) (reason : Reason) (head : Str) : Report :=
  ⟨false, some index, some reason, head, index⟩

@[simp] theorem broken_ok (index : Nat) (reason : Reason) (head : Str) :
    (broken index reason head).ok = false := rfl

/-- `hmac.compare_digest` on two texts, which only takes ASCII. -/
def compareDigest (a b : Str) : Except Error Bool :=
  if Str.isAscii a ∧ Str.isAscii b then .ok (a == b) else .error (.python .typeError)

section Chain

variable [Unicode]

def sealEvent (event : Record) (prevHash : Str) : Except Error Record := do
  let sealed := Dict.set event (str "prev_hash") (.str prevHash)
  return Dict.set sealed (str "event_hash") (.str (← computeEventHash prevHash event))

def chainEvents (prevHash : Str) : List Record → Except Error (List Record)
  | [] => .ok []
  | event :: events => do
      let row ← sealEvent event prevHash
      return row :: (← chainEvents ((row.get (str "event_hash")).toStr) events)

def chainHead (events : List Record) : Except Error Str :=
  match events.getLast? with
  | none => .ok genesisHash
  | some last =>
      let stored := last.get (str "event_hash")
      if stored.truthy then .ok stored.toStr else .error .chainIntegrity

def streamHash (events : List Record) : Except Error Str :=
  events.foldlM (fun prev event => computeEventHash prev event) genesisHash

def follows (prev : Str) (event : Record) : Except Error Bool :=
  let storedPrev := event.get (str "prev_hash")
  if storedPrev.isNone then .ok true else compareDigest storedPrev.toStr prev

def intact (prev : Str) (event : Record) (stored : Str) : Except Error Bool := do
  compareDigest (← computeEventHash prev event) stored

/-- One turn of the loop: what breaks at this event, or the link the next one follows. -/
def verifyEvent (prev : Str) (event : Record) : Except Error (Reason ⊕ Str) :=
  let storedHash := event.get (str "event_hash")
  if storedHash.truthy then do
    if ← follows prev event then
      if ← intact prev event storedHash.toStr then return .inr storedHash.toStr
      else return .inl .tampered
    else return .inl .brokenLink
  else return .inl .unsealed

def verifyLinks (prev : Str) (index : Nat) : List Record → Except Error (Report ⊕ Str)
  | [] => .ok (.inr prev)
  | event :: events => do
      match ← verifyEvent prev event with
      | .inl reason => return .inl (broken index reason prev)
      | .inr link => verifyLinks link (index + 1) events

def verifyAnchor (verified : Nat) (head : Str) (expectedLength : Option Int)
    (expectedHead : Option Str) (allowEmpty : Bool) : Except Error Report :=
  if verified = 0 ∧ ¬ (allowEmpty ∨ expectedLength = some 0) then
    return ⟨false, some 0, some .empty, genesisHash, 0⟩
  else if ∃ n ∈ expectedLength, (verified : Int) ≠ n then
    return ⟨false, some verified, some .truncated, head, verified⟩
  else do
    if ← expectedHead.elim (.ok true) (compareDigest head) then
      return ⟨true, none, none, head, verified⟩
    else return ⟨false, some verified, some .headMismatch, head, verified⟩

def verifyChain (events : List Record) (expectedLength : Option Int) (expectedHead : Option Str)
    (allowEmpty : Bool) : Except Error Report := do
  match ← verifyLinks genesisHash 0 events with
  | .inl report => return report
  | .inr head => verifyAnchor events.length head expectedLength expectedHead allowEmpty

end Chain
end Proxyshop.Ledger
