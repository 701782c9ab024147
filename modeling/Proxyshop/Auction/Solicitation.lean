import Proxyshop.Auction.Eligibility
import Proxyshop.Auction.FanOut
import Proxyshop.Numbers.Monotone

/-!
# The solicitation of an auction

Every store of the roster is judged before any of them is asked. The solicitor is asked twice whether
it can reach a store: once to raise the tier of a store it holds an address for, and once to leave out
a store it holds none for.
-/

namespace Proxyshop.Auction

open Python Numbers Contracts Structures

variable {F : Type}

structure Denial where
  storeId : Str
  status : Str
  reason : Str

/-- What the gate did. The stores handed to the fan-out are recorded beside the fields of the
source's result. -/
structure SolicitationResult (F : Type) where
  solicited : List Str
  entries : List (BidEntry F)
  denied : List Denial
  asked : List (Rostered F)

/-- `can_solicit`, where the solicitor has one: the questions are numbered, and one may raise. -/
abbrev CanSolicit := Option (Nat → Str → Option Bool)

namespace Solicitation

/-- `_denial`. -/
def denial [Unicode] (decision : EligibilityDecision) : Denial :=
  let stated := decision.reason.strip
  let reason :=
    if stated.isEmpty then decision.status
    else if (Unicode.lower decision.status).isPrefixOf (Unicode.lower stated) then stated
    else decision.status ++ str ": " ++ stated
  ⟨decision.storeId, decision.status, reason⟩

/-- The stores for which the solicitor gives this answer; the first of them is asked about at `start`. -/
def storesAnswered (answer : Bool) (canSolicit : CanSolicit) (start : Nat)
    (stores : List (Rostered F)) : List Str :=
  match canSolicit with
  | none => []
  | some knows =>
      ((stores.zipIdx start).filter fun (store, n) =>
        !store.storeId.isEmpty && knows n store.storeId = some answer).map fun (store, _) => store.storeId

/-- `stores_with_no_agent`. -/
def storesWithNoAgent (canSolicit : CanSolicit) (start : Nat) (stores : List (Rostered F)) : List Str :=
  storesAnswered false canSolicit start stores

/-- `stores_with_an_agent`. -/
def storesWithAnAgent (canSolicit : CanSolicit) (start : Nat) (stores : List (Rostered F)) : List Str :=
  storesAnswered true canSolicit start stores

def onFirstTier (store : Rostered F) : Rostered F :=
  { store with fields := Dict.set store.fields (str "tier") (.number (.integer 1)) }

section Gate

variable [Format F] [Unicode]

/-- The row of a store as the fan-out and the collection see it. -/
def overlaid (withAgent : List Str) (store : Rostered F) : Except PyError (Rostered F) := do
  let tier ← Wire.toInt (Collect.tierOf store)
  return if tier ≤ 0 ∧ store.storeId ∈ withAgent then onFirstTier store else store

def graded (store : Rostered F) : Except PyError (Rostered F × Int) := do
  return (store, ← Wire.toInt (Collect.tierOf store))

/- The parameters `text`, `repr` and `described` are `str` of the values that are not strings, `repr`
and the rendering of a value that is safe to publish. -/
variable (text repr described : Wire F → Str) (model : Wire F → Option (List Str))
  (truth : Wire F → Str)

def refusal (source : SellerEligibility F) (rostered : Rostered F) : Denial :=
  ⟨rostered.storeId, unavailable,
    str "unavailable: the eligibility source speaks interface version " ++
      repr source.interfaceVersion ++ str ", which this exchange does not support; refusing to " ++
      str "solicit " ++ rostered.storeId ++ str " against an interface it cannot read"⟩

def unsupported (source : SellerEligibility F) (rostered : Rostered F) : Except PyError Denial :=
  if source.interfaceVersion.writable then .ok (refusal repr source rostered) else .error .valueError

def judged (source : SellerEligibility F) (question : Rostered F × Nat) :
    Except PyError (Rostered F × EligibilityDecision) := do
  let storeId := question.1.storeId
  return (question.1, ← readEligibility text described (source.check question.2 storeId) storeId)

/-- `solicit_bids`. -/
def solicitBids [DecidableEq F] (clock : DateTime) (roster : List (Rostered F))
    (canSolicit : CanSolicit) (fanOut : FanOut F) (source : SellerEligibility F) (now : Extended F) :
    Except PyError (SolicitationResult F) :=
  if !speaksSupportedInterface source then do
    let denied ← roster.mapM (unsupported repr source)
    return { solicited := [], entries := [], denied, asked := [] }
  else do
    let decisions ← roster.zipIdx.mapM (judged text described source)
    let denied := (decisions.filter fun (_, decision) => decision.status ≠ eligible).map
      fun (_, decision) => denial decision
    let admitted := (decisions.filter fun (_, decision) => decision.status = eligible).map
      fun (rostered, _) => rostered
    let withAgent := storesWithAnAgent canSolicit 0 admitted
    let rows ← admitted.mapM (overlaid withAgent)
    let grades ← rows.mapM graded
    let tiered := (grades.filter fun (_, tier) => 0 < tier).map fun (store, _) => store
    let noAgent := storesWithNoAgent canSolicit admitted.length tiered
    let askable := tiered.filter fun store => store.storeId ∉ noAgent
    let responses := fanOut.ask askable ++
      (tiered.filter fun store => store.storeId ∈ noAgent).map (minted .noAgent)
    let entries ← Collect.collectBids text model truth clock rows responses now
    return { solicited := askable.map Rostered.storeId, entries, denied, asked := askable }

end Gate

/-! ## What the gate goes by -/

section Rows

variable [Format F] (source : SellerEligibility F) (roster : List (Rostered F))

omit [Format F] in
def admits (question : Rostered F × Nat) : Bool :=
  speaksSupportedInterface source && (source.check question.2 question.1.storeId).admits

omit [Format F] in
def admittedRows : List (Rostered F) :=
  (roster.zipIdx.filter fun question => admits source question).map Prod.fst

omit [Format F] in
def deniedRows : List (Rostered F) :=
  (roster.zipIdx.filter fun question => !admits source question).map Prod.fst

variable [Unicode] (canSolicit : CanSolicit)

/-- The integer `int` makes of a row's tier. -/
def integral (store : Rostered F) : Option Int := (Wire.toInt (Collect.tierOf store)).toOption

def overlay (withAgent : List Str) (store : Rostered F) : Rostered F :=
  if (integral store).any (· ≤ 0) ∧ store.storeId ∈ withAgent then onFirstTier store else store

def overlaidRows : List (Rostered F) :=
  let admitted := admittedRows source roster
  admitted.map (overlay (storesWithAnAgent canSolicit 0 admitted))

def tieredRows : List (Rostered F) :=
  (overlaidRows source roster canSolicit).filter fun store => (integral store).any (0 < ·)

def unreachable : List Str :=
  storesWithNoAgent canSolicit (admittedRows source roster).length (tieredRows source roster canSolicit)

def askedRows : List (Rostered F) :=
  (tieredRows source roster canSolicit).filter fun store =>
    store.storeId ∉ unreachable source roster canSolicit

def responses (fanOut : FanOut F) : List (Response F) :=
  fanOut.ask (askedRows source roster canSolicit) ++
    ((tieredRows source roster canSolicit).filter fun store =>
      store.storeId ∈ unreachable source roster canSolicit).map (minted .noAgent)

/-- What the gate promises of a result. The refused rows are denied and the others have one entry each,
in the order of the roster; the stores handed to the fan-out are the ones said to be solicited, are all
eligible, and are read by the collection. -/
structure Gated (result : SolicitationResult F) : Prop where
  denied : result.denied.map Denial.storeId = (deniedRows source roster).map Rostered.storeId
  collected : result.entries.map BidEntry.storeId = (admittedRows source roster).map Rostered.storeId
  solicited : result.solicited = result.asked.map Rostered.storeId
  admitted : (result.asked.map Rostered.storeId).Sublist
    ((admittedRows source roster).map Rostered.storeId)
  read : ∀ store ∈ result.asked, ∃ t, Collect.tier store = .ok t ∧ 0 < t

end Rows

/-! ## The rows of a run -/

section Run

variable [Format F] [Unicode] {text repr described : Wire F → Str}
  {model : Wire F → Option (List Str)} {truth : Wire F → Str} {source : SellerEligibility F}
  {roster : List (Rostered F)} {canSolicit : CanSolicit}

omit [Format F] [Unicode] in
theorem get_onFirstTier {store : Rostered F} {key : Str} (other : key ≠ str "tier") :
    (onFirstTier store).get key = store.get key := by
  rw [Rostered.get, Rostered.get, onFirstTier, Dict.get?_set_ne _ _ other]

theorem overlay_catalogued {withAgent : List Str} {store : Rostered F}
    (formed : Collect.Catalogued store) : Collect.Catalogued (overlay withAgent store) := by
  unfold overlay
  split
  · have kept {key : Str} (other : key ≠ str "tier") : (onFirstTier store).get key = store.get key :=
      get_onFirstTier other
    constructor
    · rw [kept (by decide)]
      exact formed.productRef
    · rw [kept (by decide)]
      exact formed.listPrice
    · rw [kept (by decide)]
      exact formed.maxDiscountPct
  · exact formed

theorem integral_onFirstTier (store : Rostered F) : integral (onFirstTier store) = some 1 := by
  have stated : Collect.tierOf (onFirstTier store) = .number (.integer 1) := by
    rw [Collect.tierOf, onFirstTier, Dict.get?_set_self]
    rfl
  rw [integral, stated]
  rfl

theorem toInt_eq_ok {store : Rostered F} {t : Int} :
    Wire.toInt (Collect.tierOf store) = .ok t ↔ integral store = some t := by
  unfold integral
  cases Wire.toInt (Collect.tierOf store) with
  | error e => exact iff_of_false nofun nofun
  | ok t' => exact ⟨fun same => congrArg some (Except.ok.inj same),
      fun same => congrArg Except.ok (Option.some.inj same)⟩

theorem overlaid_eq_ok {withAgent : List Str} (store row : Rostered F) :
    overlaid withAgent store = .ok row ↔
      (integral store).isSome ∧ overlay withAgent store = row := by
  unfold overlaid
  rw [bind_eq_ok]
  simp only [toInt_eq_ok]
  constructor
  · rintro ⟨t, readable, made⟩
    rw [overlay, readable]
    exact ⟨rfl, by simpa using Except.ok.inj made⟩
  · rintro ⟨some, rfl⟩
    obtain ⟨t, readable⟩ := Option.isSome_iff_exists.mp some
    rw [overlay, readable]
    exact ⟨t, rfl, by simp; rfl⟩

theorem graded_eq_ok (store : Rostered F) (grade : Rostered F × Int) :
    graded store = .ok grade ↔
      (integral store).isSome ∧ (store, (integral store).getD 0) = grade := by
  unfold graded
  rw [bind_eq_ok]
  simp only [toInt_eq_ok]
  constructor
  · rintro ⟨t, readable, made⟩
    obtain rfl := Except.ok.inj made
    rw [readable]
    exact ⟨rfl, rfl⟩
  · rintro ⟨some, rfl⟩
    obtain ⟨t, readable⟩ := Option.isSome_iff_exists.mp some
    rw [readable]
    exact ⟨t, rfl, rfl⟩

theorem integral_overlay {withAgent : List Str} {store : Rostered F}
    (readable : (integral store).isSome) : (integral (overlay withAgent store)).isSome := by
  unfold overlay
  split
  · rw [integral_onFirstTier]
    rfl
  · exact readable

theorem overlay_storeIds (withAgent : List Str) (stores : List (Rostered F)) :
    (stores.map (overlay withAgent)).map Rostered.storeId = stores.map Rostered.storeId := by
  rw [List.map_map]
  apply List.map_congr_left
  intro store _
  unfold Function.comp overlay
  split <;> rfl

omit [Unicode] in
theorem decisions_paired (supported : speaksSupportedInterface source = true)
    {questions : List (Rostered F × Nat)} {decisions : List (Rostered F × EligibilityDecision)}
    (read : questions.mapM (judged text described source) = .ok decisions) :
    List.Forall₂ (fun question decision => decision.1 = question.1 ∧
      decision.2.storeId = question.1.storeId ∧
      (decision.2.status = eligible ↔ admits source question = true)) questions decisions := by
  refine (mapM_eq_ok.mp read).imp ?_
  intro question decision judged_eq
  obtain ⟨answered, answered_eq, made⟩ := bind_eq_ok.mp judged_eq
  obtain rfl := Except.ok.inj made
  obtain ⟨own, status⟩ := readEligibility_status answered_eq
  refine ⟨rfl, own, ?_⟩
  rw [admits, supported, Bool.true_and]
  exact status

theorem decisions_divide (supported : speaksSupportedInterface source = true)
    {decisions : List (Rostered F × EligibilityDecision)}
    (read : roster.zipIdx.mapM (judged text described source) = .ok decisions) :
    (decisions.filter fun decision => decision.2.status = eligible).map Prod.fst =
        admittedRows source roster ∧
      ((decisions.filter fun decision => decision.2.status ≠ eligible).map fun decision =>
        denial decision.2).map Denial.storeId = (deniedRows source roster).map Rostered.storeId := by
  have paired := decisions_paired supported read
  constructor
  · refine (filter_map_eq (paired.imp ?_)).symm
    rintro question decision ⟨row, -, status⟩
    exact ⟨by rw [Bool.eq_iff_iff, decide_eq_true_eq, status], row.symm⟩
  · rw [List.map_map, deniedRows, List.map_map]
    refine (filter_map_eq (paired.imp ?_)).symm
    rintro question decision ⟨-, own, status⟩
    refine ⟨?_, own.symm⟩
    rw [Bool.eq_iff_iff, decide_eq_true_eq, ne_eq, status, Bool.not_eq_true', Bool.not_eq_true]

variable [DecidableEq F] {clock : DateTime} {fanOut : FanOut F} {now : Extended F}
  {result : SolicitationResult F}

theorem solicitBids_eq_ok (supported : speaksSupportedInterface source = true) :
    solicitBids text repr described model truth clock roster canSolicit fanOut source now = .ok result ↔
      ∃ decisions, roster.zipIdx.mapM (judged text described source) = .ok decisions ∧
        (∀ store ∈ admittedRows source roster, (integral store).isSome) ∧
        ∃ entries, Collect.collectBids text model truth clock (overlaidRows source roster canSolicit)
            (responses source roster canSolicit fanOut) now = .ok entries ∧
          { solicited := (askedRows source roster canSolicit).map Rostered.storeId, entries,
            denied := (decisions.filter fun decision => decision.2.status ≠ eligible).map
              fun decision => denial decision.2,
            asked := askedRows source roster canSolicit } = result := by
  unfold solicitBids
  rw [supported]
  simp only [Bool.not_true, Bool.false_eq_true, if_false, bind_eq_ok]
  apply exists_congr
  intro decisions
  apply and_congr_right
  intro read
  obtain ⟨admitted_eq, -⟩ := decisions_divide supported read
  have rows_eq : (admittedRows source roster).map
      (overlay (storesWithAnAgent canSolicit 0 (admittedRows source roster))) =
      overlaidRows source roster canSolicit := rfl
  have tiered_eq : (((overlaidRows source roster canSolicit).map fun store =>
      (store, (integral store).getD 0)).filter fun grade => 0 < grade.2).map (fun grade => grade.1) =
      tieredRows source roster canSolicit := by
    rw [List.filter_map, List.map_map]
    refine (List.map_id'' (fun _ => rfl) _).trans (List.filter_congr ?_)
    intro store _
    show decide (0 < (integral store).getD 0) = _
    cases integral store <;> simp
  simp only [admitted_eq, mapM_eq_map overlaid_eq_ok, mapM_eq_map graded_eq_ok]
  constructor
  · rintro ⟨rows, ⟨readable, rfl⟩, grades, ⟨-, rfl⟩, entries, made, same⟩
    rw [rows_eq, tiered_eq] at made same
    exact ⟨readable, entries, made, Except.ok.inj same⟩
  · rintro ⟨readable, entries, made, rfl⟩
    refine ⟨_, ⟨readable, rfl⟩, _, ⟨?_, rfl⟩, entries, ?_⟩
    · intro row member
      obtain ⟨store, inside, rfl⟩ := List.mem_map.mp member
      exact integral_overlay (readable store inside)
    · rw [rows_eq, tiered_eq]
      exact ⟨made, rfl⟩

omit [DecidableEq F] in
theorem asked_sublist :
    (askedRows source roster canSolicit).Sublist (overlaidRows source roster canSolicit) :=
  List.filter_sublist.trans List.filter_sublist

omit [DecidableEq F] in
theorem asked_tier {store : Rostered F} (asked : store ∈ askedRows source roster canSolicit) :
    ∃ t, integral store = some t ∧ 0 < t := by
  obtain ⟨tiered, -⟩ := List.mem_filter.mp asked
  obtain ⟨-, positive⟩ := List.mem_filter.mp tiered
  cases stated : integral store with
  | none =>
      rw [stated] at positive
      cases positive
  | some t =>
      rw [stated] at positive
      exact ⟨t, rfl, of_decide_eq_true positive⟩

end Run

/-! ## The two readings of a tier -/

section Tiers

variable [Unicode]

/-- The two readings of a tier agree on its being positive: it is no Boolean, and a text that spells an
integer spells one within the range of a double. -/
def steady : Wire Binary64 → Bool
  | .bool _ => false
  | .string text => (NumberText.readInt? text).all fun n => (Format.round (F := Binary64) n).isFinite
  | _ => true

def one : Binary64 := ⟨1, 1, 0, by norm_num, by norm_num, by norm_num, by decide +kernel⟩

omit [Unicode] in
theorem one_le_of_round {n : Int} {x : Binary64} (positive : 0 < n)
    (rounded : Format.round (F := Binary64) (n : ℚ) = .finite x) : 1 ≤ x.value := by
  have large : one.value ≤ (n : ℚ) := Int.cast_one.symm.trans_le (Int.cast_le.mpr positive)
  have above : Binary64.round one.value ≤ Binary64.round n := Binary64.round_mono large
  rw [Binary64.round_value] at above
  exact Extended.finite_le_finite.mp (above.trans_eq rounded)

omit [Unicode] in
theorem truncate_pos {q : ℚ} (large : 1 ≤ q) : 0 < truncate q := by
  rw [truncate, if_pos (zero_le_one.trans large), ← Rat.floor_def']
  exact Int.floor_pos.mpr large

omit [Unicode] in
theorem wholeOf_double (x : Binary64) :
    Collect.wholeOf (.number (.double (.finite x))) = .ok (truncate x.value) := rfl

omit [Unicode] in
theorem wholeOf_integer {n : Int} {x : Binary64}
    (rounded : Format.round (F := Binary64) (n : ℚ) = .finite x) :
    Collect.wholeOf (.number (.integer n) : Wire Binary64) = .ok (truncate x.value) := by
  have converted : Literal.toDouble (.integer n : Literal Binary64) = .ok (.finite x) := by
    rw [Literal.toDouble, rounded]
  rw [Collect.wholeOf, Wire.finiteNumber, converted]
  rfl

omit [Unicode] in
theorem integer_positive_iff {n : Int} (positive : 0 < n) :
    (∃ t, Collect.wholeOf (.number (.integer n) : Wire Binary64) = .ok t ∧ 0 < t) ↔
      Wire.huge (.number (.integer n) : Wire Binary64) = false := by
  constructor
  · rintro ⟨t, read, -⟩
    exact Collect.wholeOf_returns.mp ⟨t, read⟩
  · intro small
    obtain ⟨x, rounded⟩ := Extended.isFinite_iff.mp ((Bool.not_eq_false' _).mp small)
    exact ⟨_, wholeOf_integer rounded, truncate_pos (one_le_of_round positive rounded)⟩

theorem spelled_positive_iff {spelling : Str} {n : Int} (positive : 0 < n)
    (read : NumberText.readInt? spelling = some n) :
    (∃ t, Collect.tierFrom (.string spelling : Wire Binary64) = .ok t ∧ 0 < t) ↔
      (Format.round (F := Binary64) n).isFinite = true := by
  rw [Collect.tierFrom, NumberText.readFloat?_of_readInt? read]
  cases rounded : Format.round (F := Binary64) (n : ℚ) with
  | finite x =>
      refine iff_of_true ⟨_, wholeOf_double x, ?_⟩ rfl
      exact truncate_pos (one_le_of_round positive rounded)
  | _ => exact iff_of_false (by rintro ⟨t, same, positive⟩; cases same; cases positive) (by rintro ⟨⟩)

/-- A store whose tier is positive by `int` is read by the collection exactly when its tier converts and
is steady. -/
theorem tier_positive_iff {store : Rostered Binary64} {t : Int} (stated : integral store = some t)
    (positive : 0 < t) :
    (∃ t', Collect.tier store = .ok t' ∧ 0 < t') ↔
      Wire.huge (Collect.tierOf store) = false ∧ steady (Collect.tierOf store) = true := by
  rw [← toInt_eq_ok] at stated
  rw [Collect.tier_eq]
  cases tier_eq : Collect.tierOf store with
  | bool b =>
      refine iff_of_false ?_ (by simp [steady])
      rintro ⟨t', read, positive'⟩
      cases read
      cases positive'
  | number n =>
      rw [tier_eq] at stated
      cases n with
      | integer n =>
          obtain rfl := Except.ok.inj stated
          exact (integer_positive_iff positive).trans (and_iff_left rfl).symm
      | double x =>
          cases x with
          | finite x =>
              obtain rfl := Except.ok.inj stated
              exact iff_of_true ⟨_, wholeOf_double x, positive⟩ ⟨rfl, rfl⟩
          | _ => cases stated
  | string spelling =>
      rw [tier_eq, Wire.toInt] at stated
      cases read : NumberText.readInt? spelling with
      | none =>
          rw [read] at stated
          cases stated
      | some n =>
          rw [read] at stated
          obtain rfl := Except.ok.inj stated
          rw [spelled_positive_iff positive read, steady, read]
          exact (and_iff_right rfl).symm
  | _ =>
      rw [tier_eq] at stated
      cases stated

omit [Unicode] in
theorem huge_tierOf (store : Rostered Binary64) :
    Wire.huge (Collect.tierOf store) = Wire.huge (store.get (str "tier")) := by
  unfold Collect.tierOf Rostered.get
  cases Dict.get? store.fields (str "tier") with
  | none =>
      have small : Format.round (F := Binary64) ((1 : Int) : ℚ) = .finite one := by
        rw [Int.cast_one]
        exact Binary64.round_value one
      show Literal.huge (.integer 1) = _
      rw [Literal.huge, small]
      rfl
  | some v => rfl

end Tiers

/-! ## The gate -/

section Law

variable [Unicode] {source : SellerEligibility Binary64} {roster : List (Rostered Binary64)}
  {result : SolicitationResult Binary64}

/-- The gate can make something of the answers of the source, of the tiers, and of what comes back. -/
structure Solicitable (text : Wire Binary64 → Str) (model : Wire Binary64 → Option (List Str))
    (truth : Wire Binary64 → Str) (clock : DateTime) (roster : List (Rostered Binary64))
    (canSolicit : CanSolicit) (fanOut : FanOut Binary64) (source : SellerEligibility Binary64)
    (now : Extended Binary64) : Prop where
  legible : ∀ question ∈ roster.zipIdx,
    (source.check question.2 question.1.storeId).legible = true
  numeric : ∀ store ∈ admittedRows source roster, (integral store).isSome
  steady : ∀ store ∈ askedRows source roster canSolicit, steady (Collect.tierOf store) = true
  collectable : Collect.Collectable text model truth clock (overlaidRows source roster canSolicit)
    (responses source roster canSolicit fanOut) now

omit [Unicode] in
variable (roster) in
theorem rows_of_unsupported (unsupported : speaksSupportedInterface source = false) :
    admittedRows source roster = [] ∧ deniedRows source roster = roster := by
  have refused (question : Rostered Binary64 × Nat) : admits source question = false := by
    rw [admits, unsupported, Bool.false_and]
  constructor
  · rw [admittedRows, List.filter_eq_nil_iff.mpr fun question _ => by simp [refused question]]
    rfl
  · rw [deniedRows, List.filter_eq_self.mpr fun question _ => by simp [refused question]]
    exact List.zipIdx_map_fst 0 roster

variable {text repr described : Wire Binary64 → Str} {model : Wire Binary64 → Option (List Str)}
  {truth : Wire Binary64 → Str} {clock : DateTime} {canSolicit : CanSolicit}
  {fanOut : FanOut Binary64} {now : Extended Binary64}

theorem unsupported_gated_iff (unspoken : speaksSupportedInterface source = false) :
    (∃ result, solicitBids text repr described model truth clock roster canSolicit fanOut source now =
        .ok result ∧ Gated source roster result) ↔
      (roster ≠ [] → source.interfaceVersion.writable = true) := by
  obtain ⟨admitted, denied⟩ := rows_of_unsupported roster unspoken
  have one (rostered : Rostered Binary64) (denial : Denial) :
      unsupported repr source rostered = .ok denial ↔ source.interfaceVersion.writable = true ∧
        refusal repr source rostered = denial := by
    unfold unsupported
    split <;> simp [*]
  unfold solicitBids
  simp only [unspoken, Bool.not_false, if_true, bind_eq_ok, mapM_eq_map one]
  constructor
  · rintro ⟨result, ⟨_, ⟨writable, -⟩, -⟩, -⟩ filled
    obtain ⟨rostered, member⟩ := List.exists_mem_of_ne_nil roster filled
    exact writable rostered member
  · intro writable
    refine ⟨_, ⟨_, ⟨fun rostered member => writable (List.ne_nil_of_mem member), rfl⟩, rfl⟩, ?_⟩
    constructor
    · rw [denied, List.map_map]
      rfl
    · rw [admitted]
      rfl
    · rfl
    · exact List.nil_sublist _
    · exact nofun

theorem supported_gated_iff (supported : speaksSupportedInterface source = true)
    (formed : ∀ rostered ∈ roster, Collect.Catalogued rostered) :
    (∃ result, solicitBids text repr described model truth clock roster canSolicit fanOut source now =
        .ok result ∧ Gated source roster result) ↔
      Solicitable text model truth clock roster canSolicit fanOut source now := by
  have rows : ∀ store ∈ overlaidRows source roster canSolicit, Collect.Catalogued store := by
    intro store member
    obtain ⟨row, inside, rfl⟩ := List.mem_map.mp member
    obtain ⟨question, kept, rfl⟩ := List.mem_map.mp inside
    exact overlay_catalogued (formed _ (List.fst_mem_of_mem_zipIdx (List.mem_of_mem_filter kept)))
  have stamped : ∀ response ∈ responses source roster canSolicit fanOut, Collect.Stamped response :=
    List.forall_mem_append.mpr ⟨fanOut.stamped _, minted_stamped .noAgent _⟩
  have returns := @Collect.collectBids_returns Binary64 _ _ _ text model truth clock _ _ now rows stamped
  have tiers (store : Rostered Binary64) : (∃ t, Collect.tier store = .ok t) ↔
      Wire.huge (store.get (str "tier")) = false := by
    rw [Collect.tier_returns, huge_tierOf]
  have legible : (∃ decisions, roster.zipIdx.mapM (judged text described source) = .ok decisions) ↔
      ∀ question ∈ roster.zipIdx, (source.check question.2 question.1.storeId).legible = true := by
    rw [mapM_returns]
    apply forall₂_congr
    intro question _
    rw [← @readEligibility_returns _ _ text described, judged, bind_returns]
    exact ⟨fun ⟨decision, read, _⟩ => ⟨decision, read⟩,
      fun ⟨decision, read⟩ => ⟨decision, read, _, rfl⟩⟩
  simp only [solicitBids_eq_ok supported]
  constructor
  · rintro ⟨result, ⟨decisions, read, numeric, entries, made, rfl⟩, gated⟩
    obtain ⟨tiered, named, digested⟩ := returns.mp ⟨entries, made⟩
    refine ⟨legible.mp ⟨decisions, read⟩, numeric, ?_, fun store member =>
      (tiers store).mp (tiered store member), named, digested⟩
    intro store member
    obtain ⟨t, stated, positive⟩ := asked_tier member
    exact ((tier_positive_iff stated positive).mp (gated.read store member)).2
  · rintro ⟨answers, numeric, steady, collectable⟩
    obtain ⟨decisions, read⟩ := legible.mpr answers
    obtain ⟨entries, made⟩ := returns.mpr ⟨fun store member =>
      (tiers store).mpr (collectable.tiers store member), collectable.named, collectable.digested⟩
    refine ⟨_, ⟨decisions, read, numeric, entries, made, rfl⟩, ?_⟩
    constructor
    · exact (decisions_divide supported read).2
    · rw [Collect.collectBids_storeIds made]
      exact overlay_storeIds _ _
    · rfl
    · have kept : (askedRows source roster canSolicit).Sublist
          (overlaidRows source roster canSolicit) := asked_sublist
      have ids : (overlaidRows source roster canSolicit).map Rostered.storeId =
          (admittedRows source roster).map Rostered.storeId := overlay_storeIds _ _
      exact ids ▸ kept.map Rostered.storeId
    · intro store member
      obtain ⟨t, stated, positive⟩ := asked_tier member
      refine (tier_positive_iff stated positive).mpr ⟨?_, steady store member⟩
      rw [huge_tierOf]
      exact collectable.tiers store (asked_sublist.subset member)

/-- The gate keeps its promises exactly when its inputs are solicitable; against an interface it does
not support, when the version can be written. -/
theorem solicitBids_gated_iff (text repr described : Wire Binary64 → Str)
    (model : Wire Binary64 → Option (List Str)) (truth : Wire Binary64 → Str) (clock : DateTime)
    (roster : List (Rostered Binary64)) (canSolicit : CanSolicit) (fanOut : FanOut Binary64)
    (source : SellerEligibility Binary64) (now : Extended Binary64)
    (formed : ∀ rostered ∈ roster, Collect.Catalogued rostered) :
    (∃ result, solicitBids text repr described model truth clock roster canSolicit fanOut source now =
        .ok result ∧ Gated source roster result) ↔
      (speaksSupportedInterface source = true →
          Solicitable text model truth clock roster canSolicit fanOut source now) ∧
        (speaksSupportedInterface source = false → roster ≠ [] →
          source.interfaceVersion.writable = true) := by
  constructor
  · intro gated
    exact ⟨fun supported => (supported_gated_iff supported formed).mp gated,
      fun unspoken => (unsupported_gated_iff unspoken).mp gated⟩
  · rintro ⟨solicitable, written⟩
    cases spoken : speaksSupportedInterface source with
    | true => exact (supported_gated_iff spoken formed).mpr (solicitable spoken)
    | false => exact (unsupported_gated_iff spoken).mpr (written spoken)

end Law

/-! ## A tier that ends the solicitation -/

def trusting : SellerEligibility Binary64 where
  interfaceVersion := .string sellerEligibilityInterfaceVersion
  check _ _ := .decides (.string eligible) (.string [])

/-- Every store answers within the window, with an offer at a hundred. -/
def prompt : FanOut Binary64 :=
  .sequential true fun _ _ =>
    .answered (some ⟨none, Collect.pricedBid (.number (.integer 100))⟩) (.finite Collect.hundred)

def spelledRow : Rostered Binary64 :=
  { Collect.listedRow with
    fields := Dict.set Collect.listedRow.fields (str "tier") (.string (str "one")) }

theorem spelledRow_catalogued : Collect.Catalogued spelledRow where
  productRef := Or.inr ⟨_, rfl⟩
  listPrice := ⟨Collect.hundred, rfl, by decide⟩
  maxDiscountPct := Or.inl rfl

/-- A tier spelled in letters ends the solicitation of every store. -/
theorem spelledTier_ends_solicitation : letI := Unicode.ascii
    (∀ rostered ∈ [spelledRow], Collect.Catalogued rostered) ∧
      ¬ ∃ result, solicitBids (fun _ => []) (fun _ => []) (fun _ => []) (fun _ => some []) (fun _ => [])
        Collect.epoch [spelledRow] none prompt trusting (.finite Collect.hundred) = .ok result ∧
          Gated trusting [spelledRow] result := by
  let _ := Unicode.ascii
  refine ⟨List.forall_mem_singleton.mpr spelledRow_catalogued, ?_⟩
  have raised : (solicitBids (fun _ => []) (fun _ => []) (fun _ => []) (fun _ => some []) (fun _ => [])
      Collect.epoch [spelledRow] none prompt trusting (.finite Collect.hundred)).isOk = false := by
    decide
  rintro ⟨result, made, -⟩
  rw [made] at raised
  cases raised

theorem listedRow_solicited : letI := Unicode.ascii
    (∀ rostered ∈ [Collect.listedRow], Collect.Catalogued rostered) ∧
      ((∃ result, solicitBids (fun _ => []) (fun _ => []) (fun _ => []) (fun _ => some []) (fun _ => [])
          Collect.epoch [Collect.listedRow] none prompt trusting (.finite Collect.hundred) = .ok result ∧
            Gated trusting [Collect.listedRow] result) ↔
        (speaksSupportedInterface trusting = true →
            Solicitable (fun _ => []) (fun _ => some []) (fun _ => []) Collect.epoch
              [Collect.listedRow] none prompt trusting (.finite Collect.hundred)) ∧
          (speaksSupportedInterface trusting = false → [Collect.listedRow] ≠ [] →
            trusting.interfaceVersion.writable = true)) := by
  let _ := Unicode.ascii
  have formed : ∀ rostered ∈ [Collect.listedRow], Collect.Catalogued rostered :=
    List.forall_mem_singleton.mpr Collect.listedRow_wellFormed.catalogued
  exact ⟨formed, solicitBids_gated_iff _ _ _ _ _ _ _ _ _ _ _ formed⟩
end Solicitation
end Proxyshop.Auction
