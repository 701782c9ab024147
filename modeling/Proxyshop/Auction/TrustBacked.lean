import Proxyshop.Auction.Eligibility
import Proxyshop.Verification.Normalize

/-!
# Eligibility out of the trust snapshot

The source that answers from the rows trust publishes, and the one that answers from the platform's own
rows first.
-/

namespace Proxyshop.Auction

open Python Numbers Contracts Structures Verification

variable {F : Type} [Spelling F]

def trustEligibilitySource : Str := str "trust-eligibility"

omit [Spelling F] in
/-- `snapshot_rows`. -/
def snapshotRows : Wire F → Option (Dict Str (Wire F))
  | .object document =>
      match Dict.get? document (str "stores") with
      | some (.object stores) => some stores
      | _ => some document
  | _ => none

omit [Spelling F] in
def storeRow (document : Wire F) (storeId : Str) : Wire F :=
  ((snapshotRows document).bind (Dict.get? · storeId)).getD .null

/-- A snapshot, or how the read of it failed, and the phrase that its denials name. -/
structure TrustBackedSellerEligibility (F : Type) where
  snapshot : Except Str (Wire F)
  source : Str

/- The parameter `described` is the rendering of a value that is safe to publish. -/
variable (described : Wire F → Str)

omit [Spelling F] in
def EligibilityAnswer.states (status detail : Str) : EligibilityAnswer F :=
  .decides (.string status) (.string (status ++ str ": " ++ trustEligibilitySource ++ str ": " ++ detail))

omit [Spelling F] in
/-- `_rows`. -/
def TrustBackedSellerEligibility.rows (self : TrustBackedSellerEligibility F) :
    Except Str (Dict Str (Wire F)) := do
  let document ← self.snapshot
  match snapshotRows document with
  | some rows => return rows
  | none => throw (str "TrustSnapshotUnavailable: answered " ++ described document ++
      str ", which is not a trust snapshot")

/-- `TrustBackedSellerEligibility.check`. -/
def TrustBackedSellerEligibility.check (self : TrustBackedSellerEligibility F) (storeId : Str) :
    EligibilityAnswer F :=
  let named := Spelling.repr (.string storeId : Wire F)
  match self.rows described with
  | .error failure => .states unavailable (self.source ++ str " could not be read (" ++ failure ++
      str "); failing closed (R12)")
  | .ok rows =>
      match (Dict.get? rows storeId).getD .null with
      | .null => .states unavailable (self.source ++ str " holds no row for " ++ named ++
          str ", so its eligibility could not be established; failing closed (R12)")
      | row =>
          match row.get (str "blacklisted") with
          | .bool true => .states blacklisted (named ++ str " is blacklisted in " ++ self.source ++
              str " and may not participate (R12)")
          | .bool false => .states eligible (named ++ str " is not blacklisted in " ++ self.source)
          | flag => .states unavailable (self.source ++ str " states blacklisted=" ++ described flag ++
              str " for " ++ named ++ str ", which is not a readable yes/no; failing closed (R12)")

def TrustBackedSellerEligibility.port (self : TrustBackedSellerEligibility F) : SellerEligibility F where
  interfaceVersion := .string sellerEligibilityInterfaceVersion
  check _ storeId := self.check described storeId

/-! ## The platform's own rows first -/

structure LayeredSellerEligibility (F : Type) where
  declared : Dict Str Str
  deferred : SellerEligibility F
  source : Str

omit [Spelling F] in
/-- `StaticSellerEligibility.check`. -/
def staticCheck (statuses : Dict Str Str) (storeId : Str) : EligibilityDecision :=
  let status := (Dict.get? statuses storeId).getD unavailable
  ⟨storeId, status, str "static-eligibility: " ++ storeId ++ str " is " ++ status⟩

namespace LayeredSellerEligibility

omit [Spelling F] in
def defers (self : LayeredSellerEligibility F) (storeId : Str) : Bool :=
  !Dict.contains self.declared storeId

variable [Format F] in
/-- `LayeredSellerEligibility.check`, at the question `asked` of the deferred source. -/
def check (self : LayeredSellerEligibility F) (asked : Nat) (storeId : Str) :
    Except PyError EligibilityDecision :=
  if self.defers storeId then
    if speaksSupportedInterface self.deferred then
      readEligibility Spelling.text described (self.deferred.check asked storeId) storeId
    else .ok ⟨storeId, unavailable, unavailable ++ str ": " ++ self.source ++ str " leaves " ++
      Spelling.repr (.string storeId : Wire F) ++
      str " to an eligibility source declaring interface version " ++
      Spelling.repr self.deferred.interfaceVersion ++
      str ", which this exchange does not speak; failing closed (R12)"⟩
  else .ok (staticCheck self.declared storeId)

end LayeredSellerEligibility

/-! ## What the sources admit -/

omit [Spelling F] in
@[simp] theorem admits_states {status detail : Str} :
    (EligibilityAnswer.states status detail : EligibilityAnswer F).admits = true ↔ status = eligible := by
  simp only [EligibilityAnswer.states, EligibilityAnswer.admits, recognised, decide_eq_true_iff,
    Option.ite_none_right_eq_some, Option.some.injEq]
  exact ⟨fun h => h.2, fun h => ⟨by rw [h]; decide, h⟩⟩

variable {described}

theorem admits_check {document : Wire F} {source storeId : Str} :
    (TrustBackedSellerEligibility.check described ⟨.ok document, source⟩ storeId).admits = true ↔
      (storeRow document storeId).get (str "blacklisted") = .bool false := by
  have denied : unavailable ≠ eligible ∧ blacklisted ≠ eligible := by decide
  have reads : (⟨.ok document, source⟩ : TrustBackedSellerEligibility F).rows described
      = match snapshotRows document with
        | some rows => .ok rows
        | none => .error (str "TrustSnapshotUnavailable: answered " ++ described document ++
            str ", which is not a trust snapshot") := rfl
  unfold TrustBackedSellerEligibility.check storeRow
  rw [reads]
  cases snapshotRows document with
  | none => exact iff_of_false (fun h => denied.1 (admits_states.mp h)) nofun
  | some rows =>
      dsimp only [Option.bind_some]
      cases (Dict.get? rows storeId).getD .null with
      | null => exact iff_of_false (fun h => denied.1 (admits_states.mp h)) nofun
      | _ =>
          dsimp only
          split <;> simp_all

variable [Format F]

omit [Spelling F] in
theorem legible_states {status detail : Str} (known : status ∈ eligibilityStatuses) :
    (EligibilityAnswer.states status detail : EligibilityAnswer F).legible = true := by
  simp [EligibilityAnswer.states, EligibilityAnswer.legible, recognised, known]

theorem legible_check {self : TrustBackedSellerEligibility F} {storeId : Str} :
    (self.check described storeId).legible = true := by
  unfold TrustBackedSellerEligibility.check
  dsimp only
  repeat' split
  all_goals exact legible_states (by decide)

theorem check_of_defers {declared : Dict Str Str} {storeId : Str}
    (trust : TrustBackedSellerEligibility F) (source : Str) (left : storeId ∉ Dict.keys declared)
    (asked : Nat) :
    ∃ decision, LayeredSellerEligibility.check described
        ⟨declared, trust.port described, source⟩ asked storeId = .ok decision ∧
      decision.storeId = storeId ∧
      (decision.status = eligible ↔ (trust.check described storeId).admits = true) := by
  have defers : LayeredSellerEligibility.defers
      ⟨declared, trust.port described, source⟩ storeId = true := by
    rw [LayeredSellerEligibility.defers, Bool.not_eq_true', ← Bool.not_eq_true, Dict.contains_iff]
    exact left
  have speaks : speaksSupportedInterface (trust.port described) = true := by
    simp [speaksSupportedInterface, TrustBackedSellerEligibility.port]
  have legible : (trust.check described storeId).legible = true := legible_check
  obtain ⟨decision, read⟩ :=
    (@readEligibility_returns _ _ Spelling.text described _ storeId).mpr legible
  refine ⟨decision, ?_, readEligibility_status read⟩
  rw [LayeredSellerEligibility.check, if_pos defers, if_pos speaks]
  exact read

end Proxyshop.Auction
