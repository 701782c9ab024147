import Proxyshop.Contracts.Json
import Proxyshop.Numbers.Literal

/-!
# Values off the wire

A decoded value with its numbers as they were spelled, and what Python's built-ins make of it or
raise on it.
-/

namespace Proxyshop.Contracts

open Python Numbers

abbrev Wire (F : Type) := Json (Literal F)

namespace Wire

variable {F : Type} [Format F]

/-! ## Numbers -/

def huge : Wire F → Bool
  | .number n => n.huge
  | _ => false

def amount : Wire F → Option (Extended F)
  | .number n => if n.nearest.isFinite then some n.nearest else none
  | _ => none

/-- `_finite_number`, which `float` raises out of. -/
def finiteNumber : Wire F → Except PyError (Option (Extended F))
  | .number n => do
      let number ← n.toDouble
      return if number.isFinite then some number else none
  | _ => .ok none

theorem finiteNumber_eq (v : Wire F) :
    finiteNumber v = if v.huge then .error .overflowError else .ok v.amount := by
  cases v with
  | number n =>
      rw [finiteNumber, Literal.toDouble_eq]
      show _ = if n.huge = true then _ else _
      by_cases large : n.huge = true
      · rw [if_pos large, if_pos large]
        rfl
      · rw [if_neg large, if_neg large]
        rfl
  | _ => rfl

theorem finiteNumber_returns {v : Wire F} : (∃ x, finiteNumber v = .ok x) ↔ v.huge = false := by
  rw [finiteNumber_eq]
  cases v.huge <;> simp

theorem finiteNumber_eq_ok {v : Wire F} {x : Option (Extended F)} :
    finiteNumber v = .ok x ↔ v.huge = false ∧ v.amount = x := by
  rw [finiteNumber_eq]
  cases v.huge <;> simp

theorem amount_finite {v : Wire F} {x : Extended F} (read : v.amount = some x) :
    x.isFinite = true := by
  cases v with
  | number n =>
      simp only [amount, Option.ite_none_right_eq_some, Option.some.injEq] at read
      obtain ⟨finite, rfl⟩ := read
      exact finite
  | _ => cases read

theorem huge_of_amount {v : Wire F} {x : Extended F} (read : v.amount = some x) :
    v.huge = false := by
  cases v with
  | number n =>
      simp only [amount, Option.ite_none_right_eq_some] at read
      cases n with
      | integer n =>
          exact (Bool.not_eq_false' _).mpr read.1
      | double y => rfl
  | _ => cases read

/-- `float(v)`. -/
def toDouble [Unicode] : Wire F → Except PyError (Extended F)
  | .bool b => .ok (if b then 1.0 else 0.0)
  | .number n => n.toDouble
  | .string text => (NumberText.readFloat? text).elim (.error .valueError) .ok
  | _ => .error .typeError

/-- `int(v)`. -/
def toInt [Unicode] : Wire F → Except PyError Int
  | .bool b => .ok (if b then 1 else 0)
  | .number (.integer n) => .ok n
  | .number (.double (.finite x)) => .ok (truncate (Format.value x))
  | .number (.double .nan) => .error .valueError
  | .number (.double (.infinity _)) => .error .overflowError
  | .string text => (NumberText.readInt? text).elim (.error .valueError) .ok
  | _ => .error .typeError

/-! ## Truth and iteration -/

def truthy : Wire F → Bool
  | .null => false
  | .bool b => b
  | .number n => !n.isZero
  | .string s => !s.isEmpty
  | .array items => !items.isEmpty
  | .object members => !members.isEmpty

/-- `list(v)`. -/
def items : Wire F → Except PyError (List (Wire F))
  | .array items => .ok items
  | .object members => .ok ((Dict.keys members).map .string)
  | .string s => .ok (s.map fun c => .string [c])
  | _ => .error .typeError

/-- `list(v or [])`. -/
def itemsOrNone (v : Wire F) : Except PyError (List (Wire F)) :=
  if v.truthy then items v else .ok []

/-! ## Keys -/

def keyNumber : Wire F → Option (Literal F)
  | .number n => some n
  | .bool b => some (.integer (if b then 1 else 0))
  | _ => none

/-- The two values are one key of a dictionary; a list or a dictionary is none. -/
def sameKey : Wire F → Wire F → Bool
  | .null, .null => true
  | .string s, .string t => s = t
  | v, w =>
      match keyNumber v, keyNumber w with
      | some m, some n => m.same n
      | _, _ => false

def hashable : Wire F → Bool
  | .array _ | .object _ => false
  | _ => true

/-! ## Texts -/

omit [Format F] in
/-- The decimal digits of an integer are few enough for `str`. -/
def writableNumber : Literal F → Bool
  | .integer n => (Str.ofNat n.natAbs).length ≤ NumberText.maxStrDigits
  | .double _ => true

mutual

def writable : Wire F → Bool
  | .number n => writableNumber n
  | .array items => writableItems items
  | .object members => writableMembers members
  | _ => true

def writableItems : List (Wire F) → Bool
  | [] => true
  | v :: rest => writable v && writableItems rest

def writableMembers : List (Str × Wire F) → Bool
  | [] => true
  | (_, v) :: rest => writable v && writableMembers rest

end

omit [Format F] in
theorem writableItems_iff {l : List (Wire F)} :
    writableItems l = true ↔ ∀ v ∈ l, writable v = true := by
  induction l with
  | nil => exact iff_of_true rfl nofun
  | cons v l ih => rw [writableItems, Bool.and_eq_true, ih, List.forall_mem_cons]

omit [Format F] in
theorem writableMembers_iff {d : Dict Str (Wire F)} :
    writableMembers d = true ↔ ∀ entry ∈ d, writable entry.2 = true := by
  induction d with
  | nil => exact iff_of_true rfl nofun
  | cons entry d ih => rw [writableMembers, Bool.and_eq_true, ih, List.forall_mem_cons]

omit [Format F] in
theorem writable_array {l : List (Wire F)} :
    writable (.array l) = true ↔ ∀ v ∈ l, writable v = true := by
  rw [writable, writableItems_iff]

omit [Format F] in
theorem writable_object {d : Dict Str (Wire F)} :
    writable (.object d) = true ↔ ∀ entry ∈ d, writable entry.2 = true := by
  rw [writable, writableMembers_iff]

omit [Format F] in
theorem writable_of_get? {d : Dict Str (Wire F)} (held : writable (.object d) = true) {name : Str}
    {v : Wire F} (found : Dict.get? d name = some v) : writable v = true :=
  writable_object.mp held (name, v) (Dict.mem_of_get? found)

omit [Format F] in
theorem writable_get {v : Wire F} (held : v.writable = true) (name : Str) :
    writable (v.get name) = true := by
  cases v with
  | object members =>
      rw [Json.get_object]
      cases found : Dict.get? members name with
      | none => rfl
      | some w => exact writable_of_get? held found
  | _ => rfl

omit [Format F] in
@[simp] theorem writable_string (s : Str) : writable (.string s : Wire F) = true := by
  rw [writable]
  all_goals nofun

/-- `str(v)`, by the spelling `text` of the values that are not strings. -/
def write (text : Wire F → Str) : Wire F → Except PyError Str
  | .string s => .ok s
  | v => if writable v then .ok (text v) else .error .valueError

omit [Format F] in
theorem write_returns {text : Wire F → Str} {v : Wire F} :
    (∃ s, write text v = .ok s) ↔ v.writable = true := by
  cases v with
  | string s => exact iff_of_true ⟨s, rfl⟩ (by simp [writable])
  | _ =>
      simp only [write]
      split <;> simp [*]

end Wire
end Proxyshop.Contracts
