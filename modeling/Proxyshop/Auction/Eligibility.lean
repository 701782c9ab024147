import Proxyshop.Contracts.Wire
import Proxyshop.Structures.Fallible

/-!
# The eligibility of a store

A source answers for one store at a time. Whatever it answers, raises or leaves out is read as one of
three statuses, and anything that is not recognised denies.
-/

namespace Proxyshop.Auction

open Python Numbers Contracts Structures

variable {F : Type} [Format F]

/-- What a source makes of one question; the failure is described by its class and its message. -/
inductive EligibilityAnswer (F : Type)
  | raises (failure : Str)
  | nothing
  | decides (status reason : Wire F)

/-- A source and the version it declares. The questions are numbered as they are asked, so that a
source may answer differently for one store. -/
structure SellerEligibility (F : Type) where
  interfaceVersion : Wire F
  check : Nat → Str → EligibilityAnswer F

structure EligibilityDecision where
  storeId : Str
  status : Str
  reason : Str

def sellerEligibilityInterfaceVersion : Str := str "seller-eligibility/1.0.0"

def eligible : Str := str "eligible"

def blacklisted : Str := str "blacklisted"

def unavailable : Str := str "unavailable"

def eligibilityStatuses : List Str := [eligible, blacklisted, unavailable]

omit [Format F] in
/-- `speaks_supported_interface`. -/
def speaksSupportedInterface (source : SellerEligibility F) : Bool :=
  match source.interfaceVersion with
  | .string declared => declared = sellerEligibilityInterfaceVersion
  | _ => false

omit [Format F] in
def recognised : Wire F → Option Str
  | .string status => if status ∈ eligibilityStatuses then some status else none
  | _ => none

omit [Format F] in
/-- A scalar is rendered and a container is named by its type, so that only an integer can fail. -/
def describable : Wire F → Bool
  | .number n => Wire.writableNumber n
  | _ => true

/- The parameter `text` is `str`, of the values that are not strings, and `described` the rendering of
a value that is safe to publish. -/
variable (text described : Wire F → Str)

/-- `describe`. -/
def describe (v : Wire F) : Except PyError Str :=
  if describable v then .ok (described v) else .error .valueError

/-- `read_eligibility`. -/
def readEligibility (answer : EligibilityAnswer F) (storeId : Str) :
    Except PyError EligibilityDecision :=
  match answer with
  | .raises failure =>
      .ok ⟨storeId, unavailable, str "unavailable: eligibility read for " ++ storeId ++
        str " failed (" ++ failure ++ str "); failing closed"⟩
  | .nothing =>
      .ok ⟨storeId, unavailable,
        str "unavailable: eligibility source returned no decision for " ++ storeId⟩
  | .decides stated reason =>
      match recognised stated with
      | none => do
          let shown ← describe described stated
          return ⟨storeId, unavailable, str "unavailable: eligibility source answered unrecognised " ++
            str "status " ++ shown ++ str " for " ++ storeId ++ str "; failing closed"⟩
      | some status =>
          if reason.truthy then do
            let written ← Wire.write text reason
            return ⟨storeId, status, written⟩
          else .ok ⟨storeId, status, status ++ str ": eligibility source reports " ++ storeId ++
            str " is " ++ status⟩

namespace EligibilityAnswer

def admits : EligibilityAnswer F → Bool
  | .decides status _ => recognised status = some eligible
  | _ => false

def legible : EligibilityAnswer F → Bool
  | .decides status reason =>
      if (recognised status).isSome then !reason.truthy || reason.writable else describable status
  | _ => true

end EligibilityAnswer

variable {text described}

theorem readEligibility_returns {answer : EligibilityAnswer F} {storeId : Str} :
    (∃ decision, readEligibility text described answer storeId = .ok decision) ↔
      answer.legible = true := by
  cases answer with
  | raises failure => exact iff_of_true ⟨_, rfl⟩ rfl
  | nothing => exact iff_of_true ⟨_, rfl⟩ rfl
  | decides stated reason =>
      simp only [readEligibility, EligibilityAnswer.legible]
      cases recognised stated with
      | none =>
          simp only [bind_returns, describe]
          cases describable stated
          · exact iff_of_false (by simp) nofun
          · exact iff_of_true ⟨_, rfl, _, rfl⟩ rfl
      | some status =>
          cases reason.truthy
          · exact iff_of_true ⟨_, rfl⟩ rfl
          · simp only [if_true, bind_returns, Option.isSome_some, Bool.not_true, Bool.false_or,
              ← @Wire.write_returns F text]
            exact ⟨fun ⟨written, write_eq, _⟩ => ⟨written, write_eq⟩,
              fun ⟨written, write_eq⟩ => ⟨written, write_eq, _, rfl⟩⟩

theorem readEligibility_status {answer : EligibilityAnswer F} {storeId : Str}
    {decision : EligibilityDecision}
    (read : readEligibility text described answer storeId = .ok decision) :
    decision.storeId = storeId ∧ (decision.status = eligible ↔ answer.admits = true) := by
  have denies : unavailable ≠ eligible := by decide
  cases answer with
  | raises failure =>
      obtain rfl := Except.ok.inj read
      exact ⟨rfl, iff_of_false denies nofun⟩
  | nothing =>
      obtain rfl := Except.ok.inj read
      exact ⟨rfl, iff_of_false denies nofun⟩
  | decides stated reason =>
      unfold readEligibility at read
      cases status_eq : recognised stated with
      | none =>
          simp only [status_eq] at read
          obtain ⟨shown, -, read⟩ := bind_eq_ok.mp read
          obtain rfl := Except.ok.inj read
          exact ⟨rfl, iff_of_false denies (by simp [EligibilityAnswer.admits, status_eq])⟩
      | some status =>
          have same : EligibilityAnswer.admits (.decides stated reason) = true ↔ status = eligible := by
            simp [EligibilityAnswer.admits, status_eq]
          simp only [status_eq] at read
          split at read
          · obtain ⟨written, -, read⟩ := bind_eq_ok.mp read
            obtain rfl := Except.ok.inj read
            exact ⟨rfl, same.symm⟩
          · obtain rfl := Except.ok.inj read
            exact ⟨rfl, same.symm⟩

end Proxyshop.Auction
