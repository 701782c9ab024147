import Proxyshop.Python.Text
import Proxyshop.Structures.WaterFilling
import Mathlib.Data.List.Nodup

/-!
# The exposure overrides

The sampled shares of a cluster are lifted to the exploration floor and then the blacklist is taken out.
The arithmetic is exact.
-/

namespace Proxyshop.Policy

open Python Structures WaterFilling

def explorationBudget : ℚ := 9 / 10

/-- `_EPS`. -/
def exposureTolerance : ℚ := 1 / 10 ^ 12

/-- The stores of a cluster in their order, what the trust snapshot says of them, and the floor. -/
structure Exposed where
  order : List Str
  lowData : List Str
  blacklisted : List Str
  floor : ℚ

namespace Exposed

variable (e : Exposed)

/-- `lows`. -/
def lows : List Str := e.order.filter fun storeId => storeId ∈ e.lowData && storeId ∉ e.blacklisted

def exploiting : List Str := e.order.filter fun storeId => storeId ∉ e.blacklisted && storeId ∉ e.lowData

def survivors : List Str := e.order.filter fun storeId => storeId ∉ e.blacklisted

def budget : ℚ := if e.exploiting.isEmpty then 1 else explorationBudget

def effective : ℚ := min e.floor (e.budget / e.lows.length)

/-- The stores that the loop pins, where the fuel is enough. -/
def pinned (shares : Str → ℚ) : Option (List Str) :=
  if e.floor ≤ 0 ∨ e.lows = [] then some []
  else fill shares e.order e.lows e.effective exposureTolerance (e.lows.length + 1) []

/-- `_apply_exploration_floor`. -/
def applyExplorationFloor (shares : Str → ℚ) : Option (Str → ℚ) :=
  if e.floor ≤ 0 ∨ e.lows = [] then some shares
  else (e.pinned shares).map fun pinned => spread shares e.order e.effective pinned

/-- `_apply_blacklist`. -/
def applyBlacklist (shares : Str → ℚ) (storeId : Str) : ℚ :=
  let out := fun storeId => if storeId ∈ e.blacklisted then 0 else shares storeId
  if storeId ∈ e.blacklisted then 0
  else if 0 < mass out e.survivors then out storeId / mass out e.survivors
  else out storeId

/-- `exposure`, of the shares that were sampled. -/
def exposure (shares : Str → ℚ) : Option (Str → ℚ) := (e.applyExplorationFloor shares).map e.applyBlacklist

/-! ## The sampler -/

/-- The best store of a draw: the first of those with the greatest rate above the one before. -/
def bestOf (rate : Str → ℚ) : List Str → Option Str → ℚ → Option Str
  | [], best, _ => best
  | storeId :: rest, best, value =>
      if value < rate storeId then bestOf rate rest (some storeId) (rate storeId) else bestOf rate rest best value

/-- `_probability_of_best`, of the rates that are drawn. -/
def probabilityOfBest (draws : List (Str → ℚ)) (storeId : Str) : ℚ :=
  let wins := (draws.filter fun rate => bestOf rate e.order none (-1) = some storeId).length
  (wins + 1) / (draws.length + e.order.length)

end Exposed

/-! ## The promises -/

structure Sampled (order : List Str) (shares : Str → ℚ) : Prop where
  distinct : order.Nodup
  positive : ∀ storeId ∈ order, 0 < shares storeId
  unit : mass shares order = 1

namespace Exposed

variable {e : Exposed} {shares : Str → ℚ}

theorem mem_lows {storeId : Str} : storeId ∈ e.lows ↔
    storeId ∈ e.order ∧ storeId ∈ e.lowData ∧ storeId ∉ e.blacklisted := by
  simp [lows]

theorem mem_exploiting {storeId : Str} : storeId ∈ e.exploiting ↔
    storeId ∈ e.order ∧ storeId ∉ e.blacklisted ∧ storeId ∉ e.lowData := by
  simp [exploiting]

theorem mem_survivors {storeId : Str} : storeId ∈ e.survivors ↔
    storeId ∈ e.order ∧ storeId ∉ e.blacklisted := by
  simp [survivors]

theorem budget_pos : 0 < e.budget := by
  unfold budget explorationBudget
  split <;> norm_num

theorem budget_le_one : e.budget ≤ 1 := by
  unfold budget explorationBudget
  split <;> norm_num

theorem lows_paid : e.lows.length * e.effective ≤ e.budget := by
  by_cases none : e.lows = []
  · simp [none, budget_pos.le]
  · have many : (0 : ℚ) < e.lows.length := by exact_mod_cast List.length_pos_iff.mpr none
    calc (e.lows.length : ℚ) * e.effective
        ≤ e.lows.length * (e.budget / e.lows.length) := mul_le_mul_of_nonneg_left (min_le_right _ _) many.le
      _ = e.budget := by field_simp

theorem effective_pos (floor : 0 < e.floor) (some_low : e.lows ≠ []) : 0 < e.effective := by
  have many : (0 : ℚ) < e.lows.length := by exact_mod_cast List.length_pos_iff.mpr some_low
  exact lt_min floor (div_pos budget_pos many)

theorem payable (sampled : Sampled e.order shares) (floor : 0 < e.floor) (some_low : e.lows ≠ []) :
    Payable shares e.order e.lows e.effective exposureTolerance where
  nodup := sampled.distinct
  positive := sampled.positive
  unit := sampled.unit
  distinct := sampled.distinct.filter _
  inside a member := (mem_lows.mp member).1
  nonneg := (effective_pos floor some_low).le
  paid := lows_paid.trans budget_le_one
  slack := by unfold exposureTolerance; norm_num

/-- What the floor makes of the shares: a distribution that holds what it promises. -/
structure Lifted (e : Exposed) (shares : Str → ℚ) (pinned : List Str) (lifted : Str → ℚ) : Prop where
  nonneg : ∀ storeId ∈ e.order, 0 ≤ lifted storeId
  unit : mass lifted e.order = 1
  eligible : ∀ storeId ∈ e.survivors, 0 < lifted storeId
  guaranteed : ∀ storeId ∈ e.lows, e.effective - exposureTolerance ≤ lifted storeId
  ratio : ∀ storeId ∈ e.order, ∀ other ∈ e.order, storeId ∉ pinned → other ∉ pinned →
    lifted storeId * shares other = lifted other * shares storeId

theorem lifted_unchanged (sampled : Sampled e.order shares)
    (idle : e.floor ≤ 0 ∨ e.lows = []) : Lifted e shares [] shares where
  nonneg storeId member := (sampled.positive storeId member).le
  unit := sampled.unit
  eligible storeId member := sampled.positive storeId (mem_survivors.mp member).1
  guaranteed storeId member := by
    rcases idle with nought | none
    · have positive := sampled.positive storeId (mem_lows.mp member).1
      have low : e.effective ≤ 0 := (min_le_left _ _).trans nought
      have slack : (0 : ℚ) ≤ exposureTolerance := by unfold exposureTolerance; norm_num
      linarith
    · rw [none] at member
      cases member
  ratio _ _ _ _ _ _ := mul_comm _ _

theorem remaining_pos {pinned : List Str} (floor : 0 < e.floor) (some_low : e.lows ≠ [])
    (pinning : Pinning e.order e.lows pinned) {storeId : Str} (member : storeId ∈ e.survivors)
    (other : storeId ∉ pinned) : 0 < remaining e.effective pinned := by
  have positive := effective_pos floor some_low
  have few := List.subperm_of_subset pinning.distinct pinning.entitled
  rw [remaining_eq]
  by_cases low : storeId ∈ e.lows
  · have fewer : pinned.length < e.lows.length := by
      refine lt_of_le_of_ne few.length_le fun same => other ?_
      exact (few.perm_of_length_le same.ge).symm.subset low
    have less : (pinned.length : ℚ) * e.effective < e.lows.length * e.effective :=
      mul_lt_mul_of_pos_right (by exact_mod_cast fewer) positive
    have paid := lows_paid.trans (budget_le_one (e := e))
    linarith
  · have exploits : storeId ∈ e.exploiting := by
      obtain ⟨inside, allowed⟩ := mem_survivors.mp member
      exact mem_exploiting.mpr ⟨inside, allowed, fun listed => low (mem_lows.mpr ⟨inside, listed, allowed⟩)⟩
    have budget_eq : e.budget = explorationBudget := if_neg (by
      rw [List.isEmpty_iff]
      exact List.ne_nil_of_mem exploits)
    have paid := lows_paid (e := e)
    have less : (pinned.length : ℚ) * e.effective ≤ e.lows.length * e.effective :=
      mul_le_mul_of_nonneg_right (by exact_mod_cast few.length_le) positive.le
    rw [budget_eq, explorationBudget] at paid
    linarith

theorem applyExplorationFloor_lifts (sampled : Sampled e.order shares) :
    ∃ pinned lifted, e.pinned shares = some pinned ∧ e.applyExplorationFloor shares = some lifted ∧
      (∀ storeId ∈ pinned, storeId ∈ e.lows ∧ lifted storeId = e.effective) ∧ Lifted e shares pinned lifted := by
  by_cases idle : e.floor ≤ 0 ∨ e.lows = []
  · exact ⟨[], shares, if_pos idle, if_pos idle, by simp, lifted_unchanged sampled idle⟩
  · obtain ⟨floor, some_low⟩ := not_or.mp idle
    rw [not_le] at floor
    have payable := payable sampled floor some_low
    obtain ⟨pinned, filled, pinning, settled⟩ := payable.fill_settles payable.pinning_nil
      (show e.lows.length < ([] : List Str).length + (e.lows.length + 1) by simp)
    have pinned_eq : e.pinned shares = some pinned := by
      rw [Exposed.pinned, if_neg idle, filled]
    refine ⟨pinned, spread shares e.order e.effective pinned, pinned_eq, ?_, ?_, ?_⟩
    · rw [applyExplorationFloor, if_neg idle, pinned_eq, Option.map_some]
    · exact fun storeId member => ⟨pinning.entitled storeId member, spread_of_mem member⟩
    · refine ⟨fun storeId member => payable.spread_nonneg pinning member, payable.mass_spread pinning, ?_,
        fun storeId member => payable.level_le_spread settled member, ?_⟩
      · intro storeId member
        by_cases held : storeId ∈ pinned
        · rw [spread_of_mem held]
          exact effective_pos floor some_low
        · exact payable.spread_pos pinning (remaining_pos floor some_low pinning member held)
            (mem_survivors.mp member).1 held
      · exact fun storeId _ other _ unpinned unpinned' => payable.spread_ratio pinning unpinned unpinned'

/-! ## The blacklist -/

variable {pinned : List Str} {lifted : Str → ℚ}

theorem mass_survivors (lifted : Str → ℚ) :
    mass (fun storeId => if storeId ∈ e.blacklisted then 0 else lifted storeId) e.survivors =
      mass lifted e.survivors :=
  mass_congr fun _ member => if_neg (mem_survivors.mp member).2

theorem Lifted.survivors_mass (holds : Lifted e shares pinned lifted) (some_survivor : e.survivors ≠ []) :
    0 < mass lifted e.survivors ∧ mass lifted e.survivors ≤ 1 := by
  refine ⟨mass_pos holds.eligible some_survivor, ?_⟩
  have parts := mass_filter_add lifted (fun storeId => decide (storeId ∉ e.blacklisted)) e.order
  have others : 0 ≤ mass lifted (e.order.filter fun storeId => !decide (storeId ∉ e.blacklisted)) :=
    mass_nonneg fun storeId member => holds.nonneg storeId (List.mem_filter.mp member).1
  rw [holds.unit] at parts
  unfold survivors
  linarith

theorem Lifted.applyBlacklist_eq (holds : Lifted e shares pinned lifted) {storeId : Str}
    (member : storeId ∈ e.survivors) :
    e.applyBlacklist lifted storeId = lifted storeId / mass lifted e.survivors := by
  have positive := (holds.survivors_mass (List.ne_nil_of_mem member)).1
  unfold applyBlacklist
  rw [if_neg (mem_survivors.mp member).2]
  simp only [mass_survivors, if_pos positive, if_neg (mem_survivors.mp member).2]

theorem applyBlacklist_of_blacklisted (lifted : Str → ℚ) {storeId : Str} (banned : storeId ∈ e.blacklisted) :
    e.applyBlacklist lifted storeId = 0 := if_pos banned

theorem Lifted.le_applyBlacklist (holds : Lifted e shares pinned lifted) {storeId : Str}
    (member : storeId ∈ e.survivors) : lifted storeId ≤ e.applyBlacklist lifted storeId := by
  obtain ⟨positive, small⟩ := holds.survivors_mass (List.ne_nil_of_mem member)
  rw [holds.applyBlacklist_eq member]
  exact le_div_self (holds.eligible storeId member).le positive small

theorem Lifted.unit_survivors (holds : Lifted e shares pinned lifted) (some_survivor : e.survivors ≠ []) :
    mass (e.applyBlacklist lifted) e.survivors = 1 := by
  have positive := (holds.survivors_mass some_survivor).1
  have divided : ∀ storeId ∈ e.survivors, e.applyBlacklist lifted storeId =
      lifted storeId * (mass lifted e.survivors)⁻¹ := fun storeId member => by
    rw [holds.applyBlacklist_eq member, div_eq_mul_inv]
  rw [mass_congr divided, mass_mul, mul_inv_cancel₀ positive.ne']

theorem Lifted.exposed_pos (holds : Lifted e shares pinned lifted) {storeId : Str} (member : storeId ∈ e.survivors) :
    0 < e.applyBlacklist lifted storeId :=
  (holds.eligible storeId member).trans_le (holds.le_applyBlacklist member)

theorem Lifted.exposed_iff (holds : Lifted e shares pinned lifted) {storeId : Str} (member : storeId ∈ e.order) :
    0 ≤ e.applyBlacklist lifted storeId ∧ (e.applyBlacklist lifted storeId = 0 ↔ storeId ∈ e.blacklisted) := by
  by_cases banned : storeId ∈ e.blacklisted
  · rw [applyBlacklist_of_blacklisted lifted banned]
    exact ⟨le_rfl, iff_of_true rfl banned⟩
  · have positive := holds.exposed_pos (mem_survivors.mpr ⟨member, banned⟩)
    exact ⟨positive.le, iff_of_false positive.ne' banned⟩

/-- The shares of a cluster keep every promise at once: they are a distribution over the stores that are
not blacklisted, those and only those are exposed, a store low on data has its floor up to the
tolerance, and the sampler's ratios hold among the stores that are not pinned. -/
theorem exposure_keeps_promises (sampled : Sampled e.order shares) :
    ∃ pinned lifted out, e.pinned shares = some pinned ∧ e.applyExplorationFloor shares = some lifted ∧
      e.exposure shares = some out ∧
      (∀ storeId ∈ pinned, storeId ∈ e.lows) ∧
      (∀ storeId ∈ e.order, 0 ≤ lifted storeId) ∧ mass lifted e.order = 1 ∧
      (e.survivors ≠ [] → mass out e.survivors = 1) ∧
      (∀ storeId ∈ e.order, 0 ≤ out storeId ∧ (out storeId = 0 ↔ storeId ∈ e.blacklisted)) ∧
      (∀ storeId ∈ e.lows, min e.floor (e.budget / e.lows.length) - exposureTolerance ≤ out storeId) ∧
      (∀ storeId ∈ e.exploiting, 0 < out storeId) ∧
      ∀ storeId ∈ e.survivors, ∀ other ∈ e.survivors, storeId ∉ pinned → other ∉ pinned →
        out storeId * shares other = out other * shares storeId := by
  obtain ⟨pinned, lifted, pinned_eq, lifted_eq, held, holds⟩ := applyExplorationFloor_lifts sampled
  refine ⟨pinned, lifted, e.applyBlacklist lifted, pinned_eq, lifted_eq, by rw [exposure, lifted_eq]; rfl,
    fun storeId member => (held storeId member).1, holds.nonneg, holds.unit, holds.unit_survivors,
    fun storeId member => holds.exposed_iff member, ?_, ?_, ?_⟩
  · intro storeId member
    obtain ⟨inside, -, allowed⟩ := mem_lows.mp member
    exact (holds.guaranteed storeId member).trans (holds.le_applyBlacklist (mem_survivors.mpr ⟨inside, allowed⟩))
  · intro storeId member
    obtain ⟨inside, allowed, -⟩ := mem_exploiting.mp member
    exact holds.exposed_pos (mem_survivors.mpr ⟨inside, allowed⟩)
  · intro storeId member other member' unpinned unpinned'
    have ratio := holds.ratio storeId (mem_survivors.mp member).1 other (mem_survivors.mp member').1 unpinned unpinned'
    rw [holds.applyBlacklist_eq member, holds.applyBlacklist_eq member', div_mul_eq_mul_div, div_mul_eq_mul_div,
      ratio]

/-! ## What the sampler hands over -/

section Sampler

variable {rate : Str → ℚ} {draws : List (Str → ℚ)}

theorem bestOf_some (rest : List Str) (storeId : Str) (value : ℚ) :
    ∃ best ∈ storeId :: rest, bestOf rate rest (some storeId) value = some best := by
  induction rest generalizing storeId value with
  | nil => exact ⟨storeId, List.mem_cons_self, rfl⟩
  | cons next rest ih =>
      rw [bestOf]
      split
      · obtain ⟨best, member, found⟩ := ih next (rate next)
        exact ⟨best, List.mem_cons_of_mem _ member, found⟩
      · obtain ⟨best, member, found⟩ := ih storeId value
        refine ⟨best, ?_, found⟩
        rcases List.mem_cons.mp member with rfl | later
        · exact List.mem_cons_self
        · exact List.mem_cons_of_mem _ (List.mem_cons_of_mem _ later)

theorem bestOf_order {order : List Str} (some_store : order ≠ []) (rates : ∀ storeId ∈ order, -1 < rate storeId) :
    ∃ best ∈ order, bestOf rate order none (-1) = some best := by
  cases order with
  | nil => exact absurd rfl some_store
  | cons storeId rest =>
      rw [bestOf, if_pos (rates storeId List.mem_cons_self)]
      exact bestOf_some rest storeId (rate storeId)

theorem mass_indicator {order : List Str} (distinct : order.Nodup) {best : Str} (member : best ∈ order) :
    mass (fun storeId => if some best = some storeId then (1 : ℚ) else 0) order = 1 := by
  have counted (order : List Str) :
      mass (fun storeId => if some best = some storeId then (1 : ℚ) else 0) order = order.count best := by
    induction order with
    | nil => rfl
    | cons storeId order ih =>
        unfold mass at ih ⊢
        rw [List.map_cons, List.sum_cons, ih, List.count_cons]
        by_cases same : best = storeId
        · simp [same, add_comm]
        · simp [same, Ne.symm same]
  rw [counted, List.count_eq_one_of_mem distinct member, Nat.cast_one]

theorem wins_total {order : List Str} (distinct : order.Nodup) (some_store : order ≠ [])
    (rates : ∀ rate ∈ draws, ∀ storeId ∈ order, -1 < rate storeId) :
    mass (fun storeId => ((draws.filter fun rate => bestOf rate order none (-1) = some storeId).length : ℚ)) order =
      draws.length := by
  induction draws with
  | nil => simp [mass]
  | cons rate draws ih =>
      obtain ⟨best, member, won⟩ := bestOf_order some_store (rates rate List.mem_cons_self)
      have later := ih fun rate member => rates rate (List.mem_cons_of_mem _ member)
      have split : ∀ storeId ∈ order,
          (((rate :: draws).filter fun rate => bestOf rate order none (-1) = some storeId).length : ℚ) =
            (if some best = some storeId then 1 else 0) +
              ((draws.filter fun rate => bestOf rate order none (-1) = some storeId).length : ℚ) := by
        intro storeId _
        rw [List.filter_cons, won]
        by_cases same : some best = some storeId
        · simp only [same, decide_true, if_true, List.length_cons, Nat.cast_add, Nat.cast_one, add_comm]
        · simp only [same, decide_false, Bool.false_eq_true, if_false, zero_add]
      rw [mass_congr split]
      unfold mass at later ⊢
      rw [List.sum_map_add, later]
      have once := mass_indicator distinct member
      unfold mass at once
      rw [once, List.length_cons, Nat.cast_add, Nat.cast_one, add_comm]

theorem probabilityOfBest_sampled (distinct : e.order.Nodup) (some_store : e.order ≠ [])
    (rates : ∀ rate ∈ draws, ∀ storeId ∈ e.order, -1 < rate storeId) :
    Sampled e.order (e.probabilityOfBest draws) := by
  have many : (0 : ℚ) < e.order.length := by exact_mod_cast List.length_pos_iff.mpr some_store
  have total : (0 : ℚ) < draws.length + e.order.length := add_pos_of_nonneg_of_pos (Nat.cast_nonneg _) many
  refine ⟨distinct, fun storeId _ => div_pos (add_pos_of_nonneg_of_pos (Nat.cast_nonneg _) one_pos) total, ?_⟩
  have scaled : ∀ storeId ∈ e.order, e.probabilityOfBest draws storeId =
      (((draws.filter fun rate => bestOf rate e.order none (-1) = some storeId).length : ℚ) + 1) *
        (draws.length + e.order.length : ℚ)⁻¹ := fun storeId _ => div_eq_mul_inv _ _
  have wins := wins_total distinct some_store rates
  rw [mass_congr scaled, mass_mul]
  unfold mass at wins ⊢
  rw [List.sum_map_add, wins]
  have ones := mass_const (1 : ℚ) e.order
  unfold mass at ones
  rw [ones, mul_one, mul_inv_cancel₀ total.ne']

end Sampler

end Exposed

/-! ## A floor that is met within the tolerance -/

def pair (a b : ℚ) : Str → ℚ := fun storeId => if storeId = str "a" then a else b

/-- Two stores that are low on data, each with a floor of one half. -/
def halves : Exposed where
  order := [str "a", str "b"]
  lowData := [str "a", str "b"]
  blacklisted := []
  floor := 1 / 2

theorem halves_keep_promises :
    ∃ out, halves.exposure (pair (1 / 4) (3 / 4)) = some out ∧ mass out halves.survivors = 1 ∧
      1 / 2 - exposureTolerance ≤ out (str "a") := by
  have sampled : Sampled halves.order (pair (1 / 4) (3 / 4)) := ⟨by decide, by decide +kernel, by decide +kernel⟩
  have keeps := Exposed.exposure_keeps_promises (e := halves) sampled
  obtain ⟨pinned, lifted, out, -, -, exposed, -, -, -, unit, -, guaranteed, -, -⟩ := keeps
  have half : min halves.floor (halves.budget / halves.lows.length) = 1 / 2 := by decide +kernel
  have low := guaranteed (str "a") (by decide)
  rw [half] at low
  exact ⟨out, exposed, unit (by decide), low⟩

/-- A store that falls short by less than the tolerance is left short. -/
theorem floor_missed : Sampled halves.order (pair (1 / 2 - 1 / 10 ^ 13) (1 / 2 + 1 / 10 ^ 13)) ∧
    ∃ out, halves.exposure (pair (1 / 2 - 1 / 10 ^ 13) (1 / 2 + 1 / 10 ^ 13)) = some out ∧
      str "a" ∈ halves.lows ∧ out (str "a") < min halves.floor (halves.budget / halves.lows.length) := by
  refine ⟨⟨by decide, by decide +kernel, by decide +kernel⟩, ?_⟩
  have short : ((halves.exposure (pair (1 / 2 - 1 / 10 ^ 13) (1 / 2 + 1 / 10 ^ 13))).any fun out =>
      out (str "a") < min halves.floor (halves.budget / halves.lows.length)) = true := by
    decide +kernel
  cases exposed : halves.exposure (pair (1 / 2 - 1 / 10 ^ 13) (1 / 2 + 1 / 10 ^ 13)) with
  | none =>
      rw [exposed] at short
      cases short
  | some out =>
      rw [exposed] at short
      exact ⟨out, rfl, by decide, of_decide_eq_true short⟩

end Proxyshop.Policy
