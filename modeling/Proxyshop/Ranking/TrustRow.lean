import Proxyshop.Structures.Fibres
import Proxyshop.Verification.Normalize

/-!
# The row of a store

What the ranker reads off the platform's trust snapshot about one store.
-/

namespace Proxyshop.Ranking

open Python Numbers Contracts Structures Verification

variable {F : Type} [Spelling F]

/-- `str(v)`. -/
def written : Wire F → Str
  | .string s => s
  | v => Spelling.text v

def rowStore : Wire F → Str
  | .object members => ((Dict.get? members (str "store_id")).map written).getD []
  | _ => []

/-- `trust_row`, null when there is none. -/
def trustRow (storeId : Str) : Wire F → Wire F
  | .object rows => (Dict.get? rows storeId).getD .null
  | .array rows => (rows.find? fun row => rowStore row = storeId).getD .null
  | _ => .null

def reasonBlacklisted : Str := str "blacklisted_store"

def reasonBlacklistUnreadable : Str := str "blacklist_unreadable"

def shownFlag : Wire F → Str
  | .object members => (Dict.get? members (str "blacklisted")).elim (str "<absent>") Spelling.repr
  | _ => str "<absent>"

/-- `blacklist_reason`. -/
def blacklistReason (storeId : Str) (trustSnapshot : Wire F) : Option Str :=
  let named := Spelling.repr (.string storeId : Wire F)
  match trustRow storeId trustSnapshot with
  | .null => some (reasonBlacklistUnreadable ++ str ": no trust snapshot row for " ++ named ++
      str ", so its blacklist status could not be established; failing closed (R12)")
  | row =>
      match row.get (str "blacklisted") with
      | .bool true => some (reasonBlacklisted ++ str ": " ++ named ++
          str " is blacklisted and may not participate (R12)")
      | .bool false => none
      | _ => some (reasonBlacklistUnreadable ++ str ": " ++ named ++ str " has a blacklist flag of " ++
          shownFlag row ++ str ", which is not a readable yes/no; failing closed (R12)")

theorem blacklistReason_eq_none_iff {storeId : Str} {trustSnapshot : Wire F} :
    blacklistReason storeId trustSnapshot = none ↔
      (trustRow storeId trustSnapshot).get (str "blacklisted") = .bool false := by
  unfold blacklistReason
  cases trustRow storeId trustSnapshot with
  | null => exact iff_of_false nofun nofun
  | _ =>
      dsimp only
      split <;> simp_all

/-! ## Summaries -/

structure TrustSummary (F : Type) where
  storeId : Str
  available : Bool
  score : Option (Extended F)
  confidence : Option (Extended F)
  lowData : Option Bool
  dimensions : Option (List Str)

variable [Format F] [Unicode]

omit [Spelling F] in
/-- `float(v)`, of a value that is not null. -/
def stated : Wire F → Except PyError (Option (Extended F))
  | .null => .ok none
  | v => do return some (← Wire.toDouble v)

/-- `sorted(str(key) for key in dims)`. -/
def dimensionsOf : Wire F → Except PyError (Option (List Str))
  | .null => .ok none
  | dims => do return some (sortBy Str.le id ((← Wire.items dims).map written))

/-- `trust_summary`. -/
def trustSummary (storeId : Str) (row : Wire F) : Except PyError (TrustSummary F) :=
  match row with
  | .null =>
      .ok
        { storeId
          available := false
          score := none
          confidence := none
          lowData := none
          dimensions := none }
  | row => do
      let score ← stated (row.get (str "score"))
      let confidence ← stated (row.get (str "confidence"))
      let lowData := row.get (str "low_data")
      let dimensions ← dimensionsOf (row.get (str "dims"))
      return {
        storeId
        available := true
        score
        confidence
        lowData := if lowData.isNull then none else some (Wire.truthy lowData)
        dimensions }

/-- `is_low_data`. -/
def isLowData (summary : TrustSummary F) : Bool := summary.lowData = some true

def legibleRow (row : Wire F) : Bool :=
  (stated (row.get (str "score"))).isOk && (stated (row.get (str "confidence"))).isOk

theorem isLowData_trustSummary {storeId : Str} {row : Wire F} {summary : TrustSummary F}
    (read : trustSummary storeId row = .ok summary) :
    legibleRow row = true ∧ (isLowData summary = true ↔ Wire.truthy (row.get (str "low_data")) = true) := by
  cases row with
  | null =>
      obtain rfl := Except.ok.inj read
      exact ⟨rfl, iff_of_false nofun nofun⟩
  | _ =>
      obtain ⟨score, score_eq, read⟩ := bind_eq_ok.mp read
      obtain ⟨confidence, confidence_eq, read⟩ := bind_eq_ok.mp read
      obtain ⟨dimensions, -, read⟩ := bind_eq_ok.mp read
      obtain rfl := Except.ok.inj read
      constructor
      · rw [legibleRow, score_eq, confidence_eq]
        rfl
      · rw [isLowData, decide_eq_true_iff]
        split
        · rename_i absent
          rw [Json.isNull_iff.mp absent]
          exact iff_of_false nofun nofun
        · exact Option.some_inj

end Proxyshop.Ranking
