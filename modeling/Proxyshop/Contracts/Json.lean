import Proxyshop.Python.Dict
import Proxyshop.Python.Text
import Proxyshop.Numbers.Extended

/-!
# Submitted documents

The JSON values a boundary is handed, over the numbers of the arithmetic they are read with.
-/

namespace Proxyshop.Contracts

open Python Numbers

inductive Json (N : Type)
  | null
  | bool (b : Bool)
  | number (n : N)
  | string (s : Str)
  | array (items : List (Json N))
  | object (members : List (Str × Json N))

namespace Json

variable {N F : Type}

def isNull : Json N → Bool
  | .null => true
  | _ => false

/-- `_get`: a value without members has no field of any name read here. -/
def get (v : Json N) (key : Str) : Json N :=
  match v with
  | .object members => (Dict.get? members key).getD .null
  | _ => .null

/-- `_record`. -/
def record? : Json N → Option (Dict Str (Json N))
  | .object members => some members
  | _ => none

def record (v : Json N) : Json N := v.record?.elim .null .object

/-- `_finite_number`. -/
def finiteNumber : Json (Extended F) → Option (Extended F)
  | .number n => if n.isFinite then some n else none
  | _ => none

@[simp] theorem get_object (members : Dict Str (Json N)) (key : Str) :
    get (.object members) key = (Dict.get? members key).getD .null := rfl

@[simp] theorem record_get (v : Json N) (key : Str) : v.record.get key = v.get key := by
  cases v <;> rfl

@[simp] theorem isNull_null : isNull (.null : Json N) = true := rfl

theorem isNull_iff {v : Json N} : v.isNull = true ↔ v = .null := by
  cases v <;> simp [isNull]

theorem finiteNumber_eq_some {v : Json (Extended F)} {n : Extended F} :
    v.finiteNumber = some n ↔ ∃ x, n = .finite x ∧ v = .number n := by
  constructor
  · intro read
    cases v with
    | number m =>
        simp only [finiteNumber, Option.ite_none_right_eq_some, Option.some.injEq] at read
        obtain ⟨finite, rfl⟩ := read
        obtain ⟨x, rfl⟩ := Extended.isFinite_iff.mp finite
        exact ⟨x, rfl, rfl⟩
    | _ => cases read
  · rintro ⟨x, rfl, rfl⟩
    rfl

end Json
end Proxyshop.Contracts
