import Proxyshop.Agent.Runner
import Proxyshop.Learning.OwnRows
import Proxyshop.Numbers.Monotone
import Proxyshop.Numbers.Whole

/-!
# The rung that is credited

An impression is admitted under a cap, and the outcome that it reports is tallied at the rung that is
nearest to the depth it was played at. A cap that lies between two rungs does not hold the second back.
-/

namespace Proxyshop.Agent

open Python Numbers Contracts Learning Verification Structures

section Grid

variable {F : Type} [Format F]

/-! ## The nearest rung -/

def gap (depth rung : Extended F) : Extended F := (rung - depth).magnitude

/-- The first of the nearest rungs, against which an undefined rung counts only where it is the first. -/
structure Leads (depth : Extended F) (rungs : List (Extended F)) (best : Nat × Extended F) : Prop where
  stands : ∃ rung, rungs[best.1]? = some rung ∧ best.2 = gap depth rung
  first : rungs[0]? = some .nan → best.1 = 0
  defined : best.1 = 0 ∨ best.2 ≠ .nan
  later : ∀ j rung, best.1 < j → rungs[j]? = some rung → ¬ gap depth rung < best.2
  earlier : ∀ j rung, j < best.1 → rungs[j]? = some rung → gap depth rung ≠ .nan → best.2 < gap depth rung

/-- Some rung that the cap does not exclude is as near to the depth as every rung that it excludes, and
nearer than those of them that come first. -/
def Sheltered (depth cap : Extended F) (rungs : List (Extended F)) : Prop :=
  ∃ i rung, rungs[i]? = some rung ∧ ¬ cap < rung ∧ (i = 0 ∨ rung ≠ .nan) ∧
    ∀ j other, rungs[j]? = some other → cap < other →
      if j < i then gap depth rung < gap depth other else ¬ gap depth other < gap depth rung

variable {depth : Extended F}

theorem Leads.next {rungs : List (Extended F)} {best : Nat × Extended F} (leads : Leads depth rungs best)
    (rung : Extended F) : Leads depth (rungs ++ [rung]) (nearer depth best (rung, rungs.length)) := by
  obtain ⟨leader, stands, gapped⟩ := leads.stands
  have inside : best.1 < rungs.length := (List.getElem?_eq_some_iff.mp stands).1
  have kept (j : Nat) (below : j < rungs.length) : (rungs ++ [rung])[j]? = rungs[j]? :=
    List.getElem?_append_left below
  have last {j : Nat} {other : Extended F} (beyond : rungs.length ≤ j)
      (found : (rungs ++ [rung])[j]? = some other) : other = rung := by
    rw [List.getElem?_append_right beyond, List.getElem?_singleton] at found
    split at found
    · exact (Option.some.inj found).symm
    · cases found
  unfold nearer
  split
  · rename_i nearest
    change gap depth rung < best.2 at nearest
    constructor
    · exact ⟨rung, by rw [List.getElem?_append_right le_rfl, Nat.sub_self]; rfl, rfl⟩
    · intro undefined
      rw [kept 0 (Nat.zero_lt_of_lt inside)] at undefined
      rw [leads.first undefined, undefined] at stands
      obtain rfl := Option.some.inj stands
      exact absurd (gapped ▸ nearest) Extended.not_less_nan
    · exact .inr (Extended.ne_nan_of_less nearest).1
    · intro j other above found
      have inside := (List.getElem?_eq_some_iff.mp found).1
      rw [List.length_append, List.length_singleton] at inside
      exact absurd above (by simp only; omega)
    · intro j other below found defined
      rw [kept j below] at found
      rcases lt_trichotomy j best.1 with earlier | rfl | later
      · exact Extended.less_of_less_of_not_less nearest (fun above => Extended.not_le_of_less above
          (Extended.le_of_less (leads.earlier j other earlier found defined))) defined
      · obtain rfl := Option.some.inj (stands.symm.trans found)
        exact gapped ▸ nearest
      · exact Extended.less_of_less_of_not_less nearest (leads.later j other later found) defined
  · rename_i farther
    change ¬ gap depth rung < best.2 at farther
    constructor
    · exact ⟨leader, by rw [kept _ inside, stands], gapped⟩
    · intro undefined
      rw [kept 0 (Nat.zero_lt_of_lt inside)] at undefined
      exact leads.first undefined
    · exact leads.defined
    · intro j other above found
      by_cases below : j < rungs.length
      · rw [kept j below] at found
        exact leads.later j other above found
      · rw [last (not_lt.mp below) found]
        exact farther
    · intro j other below found defined
      rw [kept j (below.trans inside)] at found
      exact leads.earlier j other below found defined

theorem Leads.foldl {before : List (Extended F)} {best : Nat × Extended F} (leads : Leads depth before best)
    (after : List (Extended F)) :
    Leads depth (before ++ after) ((after.zipIdx before.length).foldl (nearer depth) best) := by
  induction after generalizing before best with
  | nil => rwa [List.append_nil]
  | cons rung after ih =>
      have next := ih (leads.next rung)
      rw [List.append_assoc, List.length_append] at next
      exact next

theorem bucketIndex_leads {rungs : List (Extended F)} {i : Nat} (placed : bucketIndex rungs depth = .ok i) :
    ∃ nearest, Leads depth rungs (i, nearest) := by
  cases rungs with
  | nil => cases placed
  | cons rung rungs =>
      have single : Leads depth [rung] (0, gap depth rung) := by
        constructor
        · exact ⟨rung, rfl, rfl⟩
        · exact fun _ => rfl
        · exact .inl rfl
        · intro j other above found
          rw [List.getElem?_eq_none (by rw [List.length_singleton]; exact above)] at found
          cases found
        · exact fun j _ below => absurd below (Nat.not_lt_zero j)
      cases placed
      exact ⟨_, single.foldl rungs⟩

variable {cap : Extended F} {rungs : List (Extended F)}

/-- The rung that a depth is tallied at is not above the cap where the depth is sheltered from those that
are, and only there. -/
theorem sheltered_iff {i : Nat} {rung : Extended F} (undefined : gap depth (.nan : Extended F) = .nan)
    (defined : ∀ {other : Extended F}, other ≠ .nan → gap depth other ≠ .nan)
    (placed : bucketIndex rungs depth = .ok i) (found : rungs[i]? = some rung) :
    Sheltered depth cap rungs ↔ ¬ cap < rung := by
  obtain ⟨nearest, leads⟩ := bucketIndex_leads placed
  obtain ⟨leader, stands, rfl⟩ := leads.stands
  obtain rfl := Option.some.inj (found.symm.trans stands)
  constructor
  · rintro ⟨j, shelter, named, legal, first, nearer⟩ above
    have beaten := nearer i rung found above
    rcases lt_trichotomy i j with before | rfl | after
    · rw [if_pos before] at beaten
      exact leads.later j shelter before named beaten
    · exact legal (Option.some.inj (found.symm.trans named) ▸ above)
    · rw [if_neg after.not_gt] at beaten
      by_cases nan : shelter = .nan
      · obtain rfl := first.resolve_right (not_not_intro nan)
        exact after.ne' (leads.first (nan ▸ named))
      · exact beaten (leads.earlier j shelter after named (defined nan))
  · intro legal
    refine ⟨i, rung, found, legal, ?_, ?_⟩
    · refine leads.defined.imp_right fun distant => ?_
      rintro rfl
      exact distant undefined
    · intro j other named above
      split
      · rename_i before
        exact leads.earlier j other before named (defined (Extended.ne_nan_of_less above).2)
      · rename_i after
        rcases (not_lt.mp after).eq_or_lt with rfl | later
        · exact absurd (Option.some.inj (found.symm.trans named) ▸ above) legal
        · exact leads.later j other later named

end Grid

/-! ## Depths -/

section Doubles

variable {a b : Extended Binary64}

theorem gap_nan (depth : Extended Binary64) : gap depth .nan = .nan := by
  cases depth <;> rfl

theorem nought_sub_ne_nan {a : Extended Binary64} (defined : a ≠ .nan) : 0.0 - a ≠ .nan := by
  obtain ⟨x, -, nought⟩ := Binary64.zero_literal
  rw [nought]
  cases a with
  | nan => exact absurd rfl defined
  | finite y => exact Binary64.round_ne_nan _
  | infinity t => exact nofun

theorem gap_ne_nan {x : Binary64} {rung : Extended Binary64} (defined : rung ≠ .nan) :
    gap (.finite x) rung ≠ .nan := by
  have distance : rung - .finite x ≠ .nan := by
    cases rung with
    | nan => exact absurd rfl defined
    | finite y => exact Binary64.round_ne_nan _
    | infinity s => exact nofun
  unfold gap Extended.magnitude
  split
  · exact nought_sub_ne_nan distance
  · exact distance

end Doubles

/-! ## What a reader promises -/

structure Pushed where
  payload : Wire Binary64
  auctionId : Str
  maxDepth : Option (Extended Binary64)
  depthBuckets : List (Extended Binary64)

def Moved (s t : StoreLearningState Binary64) (clusterId : Str) (rung : Nat) : Prop :=
  (t.rehydrated clusterId).wins[rung]? ≠ (s.rehydrated clusterId).wins[rung]? ∨
    (t.rehydrated clusterId).losses[rung]? ≠ (s.rehydrated clusterId).losses[rung]?

namespace Pushed

def Versioned (p : Pushed) (record : Dict Str (Wire Binary64)) : Prop :=
  p.payload.get attributionKey = .object record ∧
    Json.get (.object record) (str "schema_version") = .number (.integer 1)

def Shown (record : Dict Str (Wire Binary64)) : Prop :=
  Json.get (.object record) (str "converted") = .bool true ∨ Json.get (.object record) (str "shown") = .bool true

/-- The depth is no deeper than the cap and than some rung, up to the tolerance. -/
structure Within (p : Pushed) (depth : Extended Binary64) : Prop where
  cap : ∀ cap, p.maxDepth = some cap → ¬ cap + depthWallTolerance < depth
  rung : ∃ top, (top ∈ p.depthBuckets ∨ p.depthBuckets = [] ∧ top = 0.0) ∧ ¬ top + depthWallTolerance < depth

variable [Unicode] [Spelling Binary64] (p : Pushed)

def reading : Except PyError (ImpressionReading Binary64) :=
  readImpression p.payload p.auctionId p.maxDepth p.depthBuckets

/-- The record is about the auction of the event, and names an arm. -/
def Played (record arm : Dict Str (Wire Binary64)) : Prop :=
  p.Versioned record ∧ textOrEmpty (Json.get (.object record) (str "auction_id")) = .ok p.auctionId ∧
    Json.get (.object record) (str "arm") = .object arm

/-- The reader answers, admits no depth beyond the walls, and lets no rung above the cap be credited. -/
structure Credits : Prop where
  answers : ∃ reading, p.reading = .ok reading
  admitted : ∀ outcome, p.reading = .ok (.usable outcome) →
    ∃ record arm, p.Played record arm ∧ depthOf (.object arm) = .ok (some outcome.depth) ∧ p.Within outcome.depth
  credited : ∀ outcome, p.reading = .ok (.usable outcome) → ∀ (s t : StoreLearningState Binary64) (arm : Arm Binary64)
    storeId clusterId rung bucket cap, s.depthBuckets = p.depthBuckets →
      s.update [outcomeRow (arm.atDepth outcome.depth) storeId outcome.won .attribution] = .ok t →
      Moved s t clusterId rung → p.depthBuckets[rung]? = some bucket → p.maxDepth = some cap → ¬ cap < bucket

structure Legible : Prop where
  named : ∀ record, p.Versioned record → Wire.truthy (Json.get (.object record) (str "auction_id")) = true →
    Wire.writable (Json.get (.object record) (str "auction_id")) = true
  typed : ∀ record arm discount, p.Played record arm → Json.get (.object arm) (str "discount") = .object discount →
    Wire.writable (Json.get (.object discount) (str "type")) = true
  valued : ∀ record arm discount, p.Played record arm → Json.get (.object arm) (str "discount") = .object discount →
    (∃ spelling ∈ percentageDiscountTypes,
      discountSpelling (Json.get (.object discount) (str "type")) = .ok spelling) →
    Wire.huge (Json.get (.object discount) (str "value")) = false

/-- The depth that a shown record states is sheltered from the rungs above the cap. -/
structure Fits : Prop where
  legible : p.Legible
  walled : ∀ record arm depth, p.Played record arm → depthOf (.object arm) = .ok (some depth) → Shown record →
    ¬ ceiling p.depthBuckets p.maxDepth + depthWallTolerance < depth → ∀ cap, p.maxDepth = some cap →
      (p.depthBuckets[0]? = some .nan → ¬ cap + depthWallTolerance < depth) ∧
        (p.depthBuckets ≠ [] → Sheltered depth cap p.depthBuckets)

/-! ## Readings -/

variable {p}

omit [Unicode] [Spelling Binary64] in
theorem shownOutcome_usable {record : Dict Str (Wire Binary64)} {auctionId : Str} {depth : Extended Binary64}
    {outcome : ImpressionOutcome Binary64}
    (shown : shownOutcome (.object record) auctionId depth = .usable outcome) :
    Shown record ∧ outcome.depth = depth := by
  unfold shownOutcome at shown
  split at shown
  · rename_i converted
    cases shown
    exact ⟨.inl converted, rfl⟩
  · split at shown
    · rename_i exposed
      cases shown
      exact ⟨.inr exposed, rfl⟩
    · cases shown

omit [Unicode] [Spelling Binary64] in
theorem usable_of_shown {record : Dict Str (Wire Binary64)} (shown : Shown record) (auctionId : Str)
    (depth : Extended Binary64) : ∃ outcome : ImpressionOutcome Binary64,
      shownOutcome (.object record) auctionId depth = .usable outcome ∧ outcome.depth = depth := by
  unfold shownOutcome
  split
  · exact ⟨_, rfl, rfl⟩
  · rename_i unconverted
    rcases shown with converted | exposed
    · exact absurd converted unconverted
    · rw [exposed]
      exact ⟨_, rfl, rfl⟩

theorem reading_usable_iff {outcome : ImpressionOutcome Binary64} :
    p.reading = .ok (.usable outcome) ↔ ∃ record arm depth, p.Played record arm ∧
      depthOf (.object arm) = .ok (some depth) ∧
      ¬ ceiling p.depthBuckets p.maxDepth + depthWallTolerance < depth ∧
      shownOutcome (.object record) p.auctionId depth = .usable outcome := by
  constructor
  · intro read
    unfold reading readImpression at read
    split at read
    · rename_i record held
      unfold readRecord at read
      split at read
      · rename_i version
        obtain ⟨named, spelled, read⟩ := bind_eq_ok.mp read
        split at read
        · rename_i same
          unfold readArm at read
          split at read
          · rename_i arm worn
            obtain ⟨stated, measured, read⟩ := bind_eq_ok.mp read
            cases stated with
            | none => cases read
            | some depth =>
                simp only at read
                split at read
                · cases read
                · rename_i within
                  exact ⟨record, arm, depth, ⟨⟨held, version⟩, same ▸ spelled, worn⟩, measured, within,
                    Except.ok.inj read⟩
          · cases read
        · cases read
      · cases read
    · cases read
  · rintro ⟨record, arm, depth, ⟨⟨held, version⟩, spelled, worn⟩, measured, within, shown⟩
    unfold reading readImpression
    rw [held]
    simp only [readRecord, version, spelled]
    show (if p.auctionId = p.auctionId then readArm _ _ _ _ else _) = _
    rw [if_pos rfl]
    simp only [readArm, worn, measured]
    show (if _ then _ else _) = _
    rw [if_neg within, shown]
    rfl

theorem discountSpelling_returns {rawType : Wire Binary64} :
    (∃ spelling, discountSpelling rawType = .ok spelling) ↔ rawType.writable = true := by
  rw [← textOf_returns]
  cases rawType with
  | null => exact ⟨fun _ => ⟨_, rfl⟩, fun _ => ⟨_, rfl⟩⟩
  | _ =>
      constructor
      · rintro ⟨spelling, spelled⟩
        obtain ⟨text, written, -⟩ := bind_eq_ok.mp spelled
        exact ⟨text, written⟩
      · rintro ⟨text, written⟩
        exact ⟨_, bind_eq_ok.mpr ⟨text, written, rfl⟩⟩

omit [Spelling Binary64] in
theorem percentAsFraction_returns {v : Wire Binary64} :
    (∃ depth, percentAsFraction v = .ok depth) ↔ v.huge = false := by
  have measured : (∃ depth, percentAsFraction v = .ok depth) ↔ ∃ n, number v = .ok n := by
    constructor
    · rintro ⟨depth, read⟩
      obtain ⟨n, found, -⟩ := bind_eq_ok.mp read
      exact ⟨n, found⟩
    · rintro ⟨n, found⟩
      exact ⟨_, bind_eq_ok.mpr ⟨n, found, rfl⟩⟩
  rw [measured]
  cases v with
  | number n =>
      simp only [number, Wire.toDouble, Literal.toDouble_eq]
      rw [show Wire.huge (.number n : Wire Binary64) = n.huge from rfl]
      cases n.huge <;> simp
  | string text =>
      simp only [number, Wire.toDouble]
      cases NumberText.readFloat? (F := Binary64) text <;> exact iff_of_true ⟨_, rfl⟩ rfl
  | _ => exact iff_of_true ⟨_, rfl⟩ rfl

theorem depthOf_returns {arm : Dict Str (Wire Binary64)} : (∃ depth, depthOf (.object arm) = .ok depth) ↔
    ∀ discount, Json.get (.object arm) (str "discount") = .object discount →
      Wire.writable (Json.get (.object discount) (str "type")) = true ∧
        ((∃ spelling ∈ percentageDiscountTypes,
          discountSpelling (Json.get (.object discount) (str "type")) = .ok spelling) →
          Wire.huge (Json.get (.object discount) (str "value")) = false) := by
  unfold depthOf
  split
  · rename_i undiscounted
    refine iff_of_true ⟨_, rfl⟩ ?_
    intro discount held
    rw [undiscounted] at held
    cases held
  · rename_i discount held
    rw [held]
    constructor
    · rintro ⟨depth, read⟩ other same
      cases same
      obtain ⟨spelling, spelled, read⟩ := bind_eq_ok.mp read
      refine ⟨discountSpelling_returns.mp ⟨spelling, spelled⟩, ?_⟩
      rintro ⟨other, percentage, again⟩
      cases spelled.symm.trans again
      rw [if_pos percentage] at read
      exact percentAsFraction_returns.mp ⟨depth, read⟩
    · intro legible
      obtain ⟨written, measurable⟩ := legible discount rfl
      obtain ⟨spelling, spelled⟩ := discountSpelling_returns.mpr written
      by_cases percentage : spelling ∈ percentageDiscountTypes
      · obtain ⟨depth, read⟩ := percentAsFraction_returns.mpr (measurable ⟨spelling, percentage, spelled⟩)
        exact ⟨depth, bind_eq_ok.mpr ⟨spelling, spelled, (if_pos percentage).trans read⟩⟩
      · exact ⟨none, bind_eq_ok.mpr ⟨spelling, spelled, if_neg percentage⟩⟩
  · rename_i undiscounted unmapped
    refine iff_of_true ⟨_, rfl⟩ ?_
    intro discount held
    exact absurd held (unmapped discount)

omit [Unicode] in
theorem textOrEmpty_returns {v : Wire Binary64} :
    (∃ text, textOrEmpty v = .ok text) ↔ (v.truthy = true → v.writable = true) := by
  unfold textOrEmpty
  split
  · rename_i truthy
    rw [textOf_returns]
    exact ⟨fun written _ => written, fun written => written truthy⟩
  · rename_i falsy
    exact iff_of_true ⟨_, rfl⟩ fun truthy => absurd truthy falsy

theorem reading_returns : (∃ reading, p.reading = .ok reading) ↔ p.Legible := by
  constructor
  · rintro ⟨reading, read⟩
    unfold Pushed.reading readImpression at read
    constructor
    · rintro record ⟨held, version⟩
      rw [held] at read
      simp only [readRecord, version] at read
      obtain ⟨text, spelled, -⟩ := bind_eq_ok.mp read
      exact textOrEmpty_returns.mp ⟨text, spelled⟩
    all_goals
      rintro record arm discount ⟨⟨held, version⟩, spelled, worn⟩ discounted
      rw [held] at read
      simp only [readRecord, version, spelled] at read
      change (if p.auctionId = p.auctionId then readArm _ _ _ _ else _) = _ at read
      rw [if_pos rfl] at read
      simp only [readArm, worn] at read
      obtain ⟨depth, measured, -⟩ := bind_eq_ok.mp read
      obtain ⟨written, measurable⟩ := depthOf_returns.mp ⟨depth, measured⟩ discount discounted
    · exact written
    · exact measurable
  · intro legible
    unfold reading readImpression
    split
    · rename_i record held
      unfold readRecord
      split
      · rename_i version
        obtain ⟨text, spelled⟩ := textOrEmpty_returns.mpr (legible.named record ⟨held, version⟩)
        rw [spelled]
        show ∃ reading, (if text = p.auctionId then _ else _) = _
        split
        · rename_i same
          unfold readArm
          split
          · rename_i arm worn
            have played : p.Played record arm := ⟨⟨held, version⟩, same ▸ spelled, worn⟩
            obtain ⟨depth, measured⟩ := depthOf_returns.mpr fun discount discounted =>
              ⟨legible.typed record arm discount played discounted,
                legible.valued record arm discount played discounted⟩
            rw [measured]
            cases depth with
            | none => exact ⟨_, rfl⟩
            | some depth =>
                show ∃ reading, (if ceiling p.depthBuckets p.maxDepth + depthWallTolerance < depth
                  then .ok (.refused .unauthorizedDepth)
                  else .ok (shownOutcome (.object record) p.auctionId depth)) = Except.ok reading
                split <;> exact ⟨_, rfl⟩
          · exact ⟨_, rfl⟩
        · exact ⟨_, rfl⟩
      · exact ⟨_, rfl⟩
    · exact ⟨_, rfl⟩

/-! ## The walls -/

omit [Unicode] [Spelling Binary64] in
theorem foldl_greatest_mem (first : Extended Binary64) (rest : List (Extended Binary64)) :
    rest.foldl Extended.greatest first ∈ first :: rest := by
  induction rest generalizing first with
  | nil => exact List.mem_singleton_self _
  | cons rung rest ih =>
      have kept := ih (Extended.greatest first rung)
      rw [List.foldl_cons]
      rcases List.mem_cons.mp kept with same | later
      · rw [same]
        unfold Extended.greatest
        split
        · exact List.mem_cons_of_mem _ List.mem_cons_self
        · exact List.mem_cons_self
      · exact List.mem_cons_of_mem _ (List.mem_cons_of_mem _ later)

omit [Unicode] [Spelling Binary64] in
theorem foldl_greatest_ne_nan {first : Extended Binary64} (defined : first ≠ .nan)
    (rest : List (Extended Binary64)) : rest.foldl Extended.greatest first ≠ .nan := by
  induction rest generalizing first with
  | nil => exact defined
  | cons rung rest ih =>
      apply ih
      unfold Extended.greatest
      split
      · rename_i above
        exact (Extended.ne_nan_of_less above).2
      · exact defined

omit [Unicode] [Spelling Binary64] in
theorem ceiling_none (depthBuckets : List (Extended Binary64)) :
    ceiling depthBuckets none ∈ depthBuckets ∨ depthBuckets = [] ∧ ceiling depthBuckets none = 0.0 := by
  cases depthBuckets with
  | nil => exact .inr ⟨rfl, rfl⟩
  | cons first rest => exact .inl (foldl_greatest_mem first rest)

omit [Unicode] [Spelling Binary64] in
theorem ceiling_none_ne_nan {depthBuckets : List (Extended Binary64)} (defined : depthBuckets[0]? ≠ some .nan) :
    ceiling depthBuckets none ≠ .nan := by
  cases depthBuckets with
  | nil =>
      obtain ⟨x, -, nought⟩ := Binary64.zero_literal
      intro undefined
      cases nought.symm.trans undefined
  | cons first rest => exact foldl_greatest_ne_nan (fun same => defined (congrArg some same)) rest

omit [Unicode] [Spelling Binary64] in
theorem tolerance_finite : ∃ y : Binary64, depthWallTolerance = .finite y := by
  obtain ⟨y, rounded, -⟩ := Binary64.round_between (q := 1e-9)
    (x := ⟨2, Binary64.representable_of_small (n := 2) (by decide)⟩) (by norm_num) (by norm_num)
  exact ⟨y, rounded⟩

omit [Unicode] [Spelling Binary64] in
theorem not_lt_of_le {a b : Extended Binary64} {depth : Extended Binary64} (le : a ≤ b)
    (outside : ¬ a + depthWallTolerance < depth) : ¬ b + depthWallTolerance < depth := by
  obtain ⟨y, tolerance⟩ := tolerance_finite
  rw [tolerance] at outside ⊢
  intro beyond
  have wider : a + Extended.finite y ≤ b + .finite y := Binary64.add_mono le
  exact outside (Extended.less_of_le_of_less wider beyond)

omit [Unicode] [Spelling Binary64] in
theorem within_of_ceiling {depth : Extended Binary64}
    (outside : ¬ ceiling p.depthBuckets p.maxDepth + depthWallTolerance < depth)
    (defined : ∀ cap, p.maxDepth = some cap → p.depthBuckets[0]? = some .nan →
      ¬ cap + depthWallTolerance < depth) : p.Within depth := by
  have top := ceiling_none p.depthBuckets
  cases capped : p.maxDepth with
  | none =>
      rw [capped] at outside
      constructor
      · intro cap same
        cases capped.symm.trans same
      · exact ⟨_, top, outside⟩
  | some cap =>
      have least : ceiling p.depthBuckets (some cap) = Extended.least (ceiling p.depthBuckets none) cap := rfl
      rw [capped, least] at outside
      constructor
      · intro other same
        cases capped.symm.trans same
        by_cases undefined : p.depthBuckets[0]? = some .nan
        · exact defined cap capped undefined
        · unfold Extended.least at outside
          split at outside
          · exact outside
          · rename_i under
            by_cases nan : cap = .nan
            · intro beyond
              rw [nan] at beyond
              obtain ⟨y, tolerance⟩ := tolerance_finite
              rw [tolerance] at beyond
              cases depth <;> cases beyond
            · exact not_lt_of_le (Extended.le_of_not_less nan (ceiling_none_ne_nan undefined) under) outside
      · refine ⟨_, top, ?_⟩
        unfold Extended.least at outside
        split at outside
        · rename_i under
          exact not_lt_of_le (Extended.le_of_less under) outside
        · exact outside

/-! ## The row that is tallied -/

omit [Unicode] [Spelling Binary64] in
theorem one_finite : ∃ x : Binary64, x.value = 1 ∧ (fractionCeiling : Extended Binary64) = .finite x :=
  ⟨⟨1, by simpa using Binary64.representable_of_small (n := 1) (by decide)⟩, rfl,
    Binary64.literal_eq _ (by norm_num)⟩

omit [Unicode] [Spelling Binary64] in
theorem hundred_finite : ∃ x : Binary64, x.value = 100 ∧ (percentPerUnit : Extended Binary64) = .finite x :=
  ⟨⟨100, Binary64.representable_of_small (n := 100) (by decide)⟩, rfl, Binary64.literal_eq _ (by norm_num)⟩

/-- A depth that is stated is a number between none of the price and all of it. -/
structure Stated (depth : Extended Binary64) (x : Binary64) : Prop where
  finite : depth = .finite x
  nonneg : 0 ≤ x.value
  inside : ¬ fractionCeiling < depth

omit [Unicode] [Spelling Binary64] in
theorem stated_nought : ∃ x, Stated 0.0 x := by
  obtain ⟨x, zero, nought⟩ := Binary64.zero_literal
  obtain ⟨y, one, unit⟩ := one_finite
  refine ⟨x, nought, zero.ge, ?_⟩
  rw [unit, nought, Extended.finite_lt_finite]
  show ¬ y.value < x.value
  rw [one, zero]
  norm_num

omit [Spelling Binary64] in
theorem stated_percent {v : Wire Binary64} {depth : Extended Binary64}
    (read : percentAsFraction v = .ok (some depth)) : ∃ x, Stated depth x := by
  obtain ⟨n, measured, read⟩ := bind_eq_ok.mp read
  obtain ⟨y, one, unit⟩ := one_finite
  obtain ⟨z, hundred, percent⟩ := hundred_finite
  cases n with
  | none => cases read
  | some n =>
      have least : n.isFinite ∧ 0.0 ≤ n := by
        unfold number at measured
        split at measured
        · cases measured
        · cases measured
        · split at measured
          · have chosen := Except.ok.inj measured
            rw [Option.ite_none_right_eq_some] at chosen
            obtain ⟨holds, same⟩ := chosen
            cases same
            exact holds
          · cases measured
          · cases measured
          · cases measured
      obtain ⟨w, rfl⟩ := Extended.isFinite_iff.mp least.1
      have positive : 0 ≤ w.value := by
        obtain ⟨x, zero, nought⟩ := Binary64.zero_literal
        have le := least.2
        rw [nought, Extended.finite_le_finite] at le
        exact zero.ge.trans le
      have chosen := Except.ok.inj read
      simp only [Option.bind_some, Option.ite_none_right_eq_some, Option.some.injEq] at chosen
      obtain ⟨below, rfl⟩ := chosen
      have quotient : Extended.finite w / percentPerUnit = Binary64.round (w.value / z.value) := by
        rw [percent]
        exact if_pos (by show z.value ≠ 0; rw [hundred]; norm_num)
      have fraction : 0 ≤ w.value / z.value := div_nonneg positive (by rw [hundred]; norm_num)
      rw [quotient] at below ⊢
      have inside : ¬ fractionCeiling < Binary64.round (w.value / z.value) :=
        fun above => Extended.not_le_of_less above below
      unfold Binary64.round at below inside ⊢
      split_ifs at below inside ⊢ with small
      · exact ⟨_, rfl, Binary64.rounded_nonneg fraction, inside⟩
      · rw [decide_eq_false (not_lt.mpr fraction), unit] at below
        cases below

theorem stated_of_depthOf {arm : Dict Str (Wire Binary64)} {depth : Extended Binary64}
    (measured : depthOf (.object arm) = .ok (some depth)) : ∃ x, Stated depth x := by
  unfold depthOf at measured
  split at measured
  · cases measured
    exact stated_nought
  · obtain ⟨spelling, spelled, read⟩ := bind_eq_ok.mp measured
    split at read
    · exact stated_percent read
    · cases read
  · cases measured

omit [Spelling Binary64] in
theorem asFraction_stated {depth : Extended Binary64} {x : Binary64} (stated : Stated depth x) :
    asFraction (.number (.double depth)) = .ok (some depth) := by
  have finite : depth.isFinite ∧ 0.0 ≤ depth := by
    obtain ⟨y, zero, nought⟩ := Binary64.zero_literal
    rw [stated.finite, nought]
    exact ⟨rfl, Extended.finite_le_finite.mpr (show y.value ≤ x.value from zero.le.trans stated.nonneg)⟩
  have measured : number (.number (.double depth)) = .ok (some depth) := congrArg Except.ok (if_pos finite)
  unfold asFraction
  rw [measured]
  exact congrArg Except.ok (if_neg stated.inside)

omit [Unicode] [Spelling Binary64] in
theorem atDepth_eq (arm : Arm Binary64) (depth : Extended Binary64) : (arm.atDepth depth).depth = depth ∧
    (arm.atDepth depth).clusterId = arm.clusterId := by
  unfold Arm.atDepth
  split
  · rename_i same
    exact ⟨same.symm, rfl⟩
  · exact ⟨rfl, rfl⟩

section Rows

variable {s t : StoreLearningState Binary64} {arm : Arm Binary64} {depth : Extended Binary64} {x : Binary64}
  {storeId : Str} {won : Bool} {source : Source}

theorem placed_of_readRow (stated : Stated arm.depth x) {row : OutcomeRow}
    (read : s.readRow (outcomeRow arm storeId won source) = .ok (some row)) :
    bucketIndex s.depthBuckets arm.depth = .ok row.rung := by
  unfold StoreLearningState.readRow at read
  obtain ⟨own, _, read⟩ := bind_eq_ok.mp read
  split at read
  · obtain ⟨clusterId, _, read⟩ := bind_eq_ok.mp read
    split at read
    · cases read
    · unfold StoreLearningState.readOutcome at read
      have measured : StoreLearningState.rowDepth (outcomeRow arm storeId won source) = .ok (some arm.depth) :=
        congrArg (fun read => read >>= _) (asFraction_stated stated)
      obtain ⟨_, found, read⟩ := bind_eq_ok.mp read
      cases measured.symm.trans found
      obtain ⟨rung, placed, read⟩ := bind_eq_ok.mp read
      obtain ⟨commitments, _, read⟩ := bind_eq_ok.mp read
      cases read
      exact placed
  · cases read

omit [Unicode] [Spelling Binary64] in
theorem moved_evolve_iff {rows : List OutcomeRow} {clusterId : Str} {rung : Nat} :
    Moved s (s.evolve rows) clusterId rung ↔
      (s.slot rows clusterId).wins[rung]? ≠ (s.rehydrated clusterId).wins[rung]? ∨
        (s.slot rows clusterId).losses[rung]? ≠ (s.rehydrated clusterId).losses[rung]? := by
  have standing := s.standing_rehydrated rows clusterId
  have wins : ((s.evolve rows).rehydrated clusterId).wins = (s.slot rows clusterId).wins :=
    congrArg Standing.wins standing
  have losses : ((s.evolve rows).rehydrated clusterId).losses = (s.slot rows clusterId).losses :=
    congrArg Standing.losses standing
  rw [Moved, wins, losses]

omit [Unicode] [Spelling Binary64] in
theorem slot_singleton (row : OutcomeRow) (clusterId : Str) : s.slot [row] clusterId
    = if row.clusterId = clusterId then (s.rehydrated clusterId).count row else s.rehydrated clusterId := by
  unfold StoreLearningState.slot outcomesOf
  rw [List.filter_cons]
  by_cases same : row.clusterId = clusterId <;> simp [same]

omit [Unicode] [Spelling Binary64] in
theorem rung_of_moved {row : OutcomeRow} {clusterId : Str} {rung : Nat}
    (moved : Moved s (s.evolve [row]) clusterId rung) : rung = row.rung := by
  rw [moved_evolve_iff, slot_singleton] at moved
  by_contra other
  have apart : row.rung ≠ rung := fun same => other same.symm
  have kept (counts : List Int) : (counts.modify row.rung (· + 1))[rung]? = counts[rung]? := by
    simp [apart]
  split at moved
  · rcases moved with moved | moved
    · apply moved
      show (if row.won then _ else _ : List Int)[rung]? = _
      split
      · exact kept _
      · rfl
    · apply moved
      show (if row.won then _ else _ : List Int)[rung]? = _
      split
      · rfl
      · exact kept _
  · rcases moved with moved | moved <;> exact moved rfl

theorem placed_of_moved (stated : Stated arm.depth x)
    (updated : s.update [outcomeRow arm storeId won source] = .ok t) {clusterId : Str} {rung : Nat}
    (moved : Moved s t clusterId rung) : bucketIndex s.depthBuckets arm.depth = .ok rung := by
  unfold StoreLearningState.update at updated
  obtain ⟨read, walked, evolved⟩ := bind_eq_ok.mp updated
  cases evolved
  rw [List.mapM_cons] at walked
  obtain ⟨row, counted, walked⟩ := bind_eq_ok.mp walked
  cases walked
  cases row with
  | none =>
      rcases moved_evolve_iff.mp moved with moved | moved <;> exact absurd rfl moved
  | some row =>
      rw [rung_of_moved moved]
      exact placed_of_readRow stated counted

theorem update_initial {depthBuckets : List (Extended Binary64)} {i : Nat} (stated : Stated depth x)
    (placed : bucketIndex depthBuckets depth = .ok i) (won : Bool) :
    let s := initialState { clusters := [], observations := 0 } none depthBuckets
    let arm : Arm Binary64 := { coldArm (F := Binary64) (str "c") with depth := depth }
    ∃ t, s.update [outcomeRow arm [] won .attribution] = .ok t ∧ Moved s t (str "c") i := by
  intro s arm
  let row : OutcomeRow :=
    { clusterId := str "c", won, rung := i, commitments := [],
      variant := StoreLearningState.rowVariant (outcomeRow arm [] won .attribution) }
  have read : s.readRow (outcomeRow arm [] won .attribution) = .ok (some row) := by
    have measured : StoreLearningState.rowDepth (outcomeRow arm [] won .attribution) = .ok (some depth) :=
      congrArg (fun read => read >>= _) (asFraction_stated stated)
    show s.readOutcome (outcomeRow arm [] won .attribution) (str "c") = _
    unfold StoreLearningState.readOutcome
    rw [measured]
    show (bucketIndex depthBuckets depth >>= _) = _
    rw [placed]
    rfl
  refine ⟨s.evolve [row], ?_, ?_⟩
  · unfold StoreLearningState.update
    rw [List.mapM_cons, read]
    rfl
  · have inside := bucketIndex_lt placed
    rw [moved_evolve_iff, slot_singleton, if_pos rfl]
    have fresh : s.rehydrated (str "c") = .ofLearned none (str "c") depthBuckets.length := rfl
    rw [fresh]
    cases won with
    | true =>
        left
        show ((ClusterScratch.padded depthBuckets.length []).modify i (· + 1))[i]? ≠ _
        simp [ClusterScratch.ofLearned, ClusterScratch.padded, inside]
    | false =>
        right
        show ((ClusterScratch.padded depthBuckets.length []).modify i (· + 1))[i]? ≠ _
        simp [ClusterScratch.ofLearned, ClusterScratch.padded, inside]

end Rows

omit [Unicode] in
theorem Played.unique {record record' arm arm' : Dict Str (Wire Binary64)} (played : p.Played record arm)
    (played' : p.Played record' arm') : record = record' ∧ arm = arm' := by
  obtain ⟨⟨held, -⟩, -, worn⟩ := played
  obtain ⟨⟨held', -⟩, -, worn'⟩ := played'
  cases held.symm.trans held'
  cases worn.symm.trans worn'
  exact ⟨rfl, rfl⟩

end Pushed

/-- A reader keeps its promise of the impressions that it can read, and whose depth is as near to a rung
that the cap allows as to those that it does not, and of no others. -/
theorem credits_iff [Unicode] [Spelling Binary64] (p : Pushed) : p.Credits ↔ p.Fits := by
  constructor
  · intro credits
    refine ⟨Pushed.reading_returns.mp credits.answers, ?_⟩
    intro record arm depth played measured shown outside cap capped
    obtain ⟨outcome, usable, same⟩ := Pushed.usable_of_shown shown p.auctionId depth
    have read := Pushed.reading_usable_iff.mpr ⟨record, arm, depth, played, measured, outside, usable⟩
    obtain ⟨record', arm', played', measured', within⟩ := credits.admitted outcome read
    obtain ⟨rfl, rfl⟩ := played.unique played'
    constructor
    · intro _
      exact same ▸ within.cap cap capped
    · intro rungs
      obtain ⟨x, stated⟩ := Pushed.stated_of_depthOf measured
      obtain ⟨i, placed⟩ : ∃ i, bucketIndex p.depthBuckets depth = .ok i := by
        cases grid : p.depthBuckets with
        | nil => exact absurd grid rungs
        | cons first rest => exact ⟨_, rfl⟩
      have inside := bucketIndex_lt placed
      have found := List.getElem?_eq_getElem inside
      obtain ⟨t, updated, moved⟩ := Pushed.update_initial stated placed outcome.won
      have legal := credits.credited outcome read _ t
        { coldArm (F := Binary64) (str "c") with depth := depth } [] (str "c") i _ cap rfl
        (by rw [same, Arm.atDepth, if_pos rfl]; exact updated) moved found capped
      obtain rfl := stated.finite
      exact (sheltered_iff (gap_nan _) gap_ne_nan placed found).mpr legal
  · intro fits
    refine ⟨Pushed.reading_returns.mpr fits.legible, ?_, ?_⟩
    · intro outcome read
      obtain ⟨record, arm, depth, played, measured, outside, usable⟩ := Pushed.reading_usable_iff.mp read
      obtain ⟨shown, rfl⟩ := Pushed.shownOutcome_usable usable
      exact ⟨record, arm, played, measured, Pushed.within_of_ceiling outside fun cap capped =>
        (fits.walled record arm _ played measured shown outside cap capped).1⟩
    · intro outcome read s t arm storeId clusterId rung bucket cap grid updated moved found capped
      obtain ⟨record, worn, depth, played, measured, outside, usable⟩ := Pushed.reading_usable_iff.mp read
      obtain ⟨shown, rfl⟩ := Pushed.shownOutcome_usable usable
      obtain ⟨x, stated⟩ := Pushed.stated_of_depthOf measured
      obtain ⟨deep, -⟩ := Pushed.atDepth_eq arm outcome.depth
      have placed := Pushed.placed_of_moved (deep.symm ▸ stated) updated moved
      rw [deep, grid] at placed
      have sheltered := (fits.walled record worn _ played measured shown outside cap capped).2
        (List.ne_nil_of_length_pos (Nat.zero_lt_of_lt (bucketIndex_lt placed)))
      rw [stated.finite] at sheltered placed
      exact (sheltered_iff (gap_nan _) gap_ne_nan placed found).mp sheltered

/-! ## A cap between two rungs -/

def soldUnder (value : Wire Binary64) (cap : Extended Binary64) : Pushed where
  payload := .object
    [(attributionKey, .object
      [(str "schema_version", .number (.integer 1)), (str "auction_id", .string (str "a")),
        (str "arm", .object [(str "discount", .object
          [(str "type", .string (str "percent")), (str "value", value)])]),
        (str "converted", .bool true)])]
  auctionId := str "a"
  maxDepth := some cap
  depthBuckets := defaultDepthBuckets

/-- Thirteen percent are legal under a cap of fourteen, and credited to fifteen. -/
theorem thirteen_percent_overcredited :
    letI : Unicode := Unicode.ascii
    letI : Spelling Binary64 := .strings Binary64
    ¬ (soldUnder (.number (.integer 13)) 0.14).Credits := by
  let _ : Unicode := Unicode.ascii
  let _ : Spelling Binary64 := .strings Binary64
  intro credits
  have measured : depthOf (F := Binary64) (.object [(str "discount", .object
      [(str "type", .string (str "percent")), (str "value", .number (.integer 13))])]) = .ok (some 0.13) := by
    decide +kernel
  have read : (soldUnder (.number (.integer 13)) 0.14).reading
      = .ok (.usable { auctionId := str "a", won := true, depth := 0.13 }) := by
    refine Pushed.reading_usable_iff.mpr ⟨_, _, _, ⟨⟨rfl, rfl⟩, rfl, rfl⟩, measured, ?_, rfl⟩
    decide +kernel
  obtain ⟨x, stated⟩ := Pushed.stated_of_depthOf measured
  have placed : bucketIndex (F := Binary64) defaultDepthBuckets 0.13 = .ok 3 := by decide +kernel
  obtain ⟨t, updated, moved⟩ := Pushed.update_initial stated placed true
  have legal := credits.credited _ read _ t { coldArm (F := Binary64) (str "c") with depth := 0.13 } [] (str "c")
    3 0.15 0.14 rfl (by rw [Arm.atDepth, if_pos rfl]; exact updated) moved rfl rfl
  exact legal (by decide +kernel)

end Proxyshop.Agent
