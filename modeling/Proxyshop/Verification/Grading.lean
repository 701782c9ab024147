import Mathlib.Data.List.ReduceOption
import Proxyshop.Verification.Pitch

/-!
# What is appended to a pitch

A further sentence takes away no reading of the sentences before it, but for a flag or a term that it
contradicts, unless a number in it is too large for a double: then the pitch is not read at all.
-/

namespace Proxyshop.Verification

open Python Numbers Structures Pattern

variable [Prose]

/-! ## Which rules raise -/

namespace PitchRule

/-- The number that the rule turns into an integer, in the unit that its reading names. -/
def counted (rule : PitchRule) (found : Regex.Match CodePoint) : Option (Extended Binary64) :=
  match rule.reader with
  | .duration _ => (amount (capturedText found 1 [])).map (durationIn (unitOf found "month"))
  | .days _ => (amount (capturedText found 1 [])).map (daysIn (unitOf found "day"))
  | .quantity _ true => amount (capturedText found 1 [])
  | _ => none

/-- The guard admits the match, and the number it counts is not finite. -/
def overflows (rule : PitchRule) (found : Regex.Match CodePoint) : Bool :=
  assertsThisOffer found rule.kind rule.predicative && (rule.counted found).any fun x => !x.isFinite

def key (rule : PitchRule) : Str :=
  match rule.reader with
  | .duration key | .days key | .quantity key _ | .flag key _ | .vocabulary key _ => key

end PitchRule

omit [Prose] in
theorem toInt_returns {x : Extended Binary64} : (∃ n, toInt x = .ok n) ↔ x.isFinite = true := by
  cases x <;> simp [toInt, Extended.isFinite]

theorem value_returns {rule : PitchRule} {found : Regex.Match CodePoint} :
    (∃ answer, rule.value found = .ok answer) ↔ (rule.counted found).all Extended.isFinite = true := by
  unfold PitchRule.value PitchRule.counted
  cases rule.reader with
  | duration key =>
      cases amount (capturedText found 1 []) with
      | none => simp
      | some a => simp [bind_returns, toInt_returns, pure, Except.pure]
  | days key =>
      cases amount (capturedText found 1 []) with
      | none => simp
      | some a => simp [bind_returns, toInt_returns, pure, Except.pure]
  | quantity key integral =>
      cases amount (capturedText found 1 []) with
      | none => cases integral <;> simp
      | some a =>
          cases integral
          · simp [bind_returns, quantityOf, pure, Except.pure]
          · cases a <;> simp [bind_returns, quantityOf, toInt, Except.map, Extended.isFinite, pure, Except.pure]
  | flag key flag => simp
  | vocabulary key canonical => simp

theorem read_returns {rule : PitchRule} {found : Regex.Match CodePoint} :
    (∃ answer, rule.read found = .ok answer) ↔ rule.overflows found = false := by
  unfold PitchRule.read PitchRule.overflows
  split
  · rename_i admitted
    rw [value_returns, admitted, Bool.true_and]
    cases rule.counted found <;> simp
  · rename_i declined
    simp [declined]

theorem value_key {rule : PitchRule} {found : Regex.Match CodePoint} {key : Str} {value : Stated}
    {unit : Option Str} (read : rule.value found = .ok (some (key, value, unit))) : key = rule.key := by
  unfold PitchRule.value at read
  unfold PitchRule.key
  cases reader : rule.reader with
  | duration own | days own | quantity own integral =>
      simp only [reader] at read
      split at read
      · cases read
      · obtain ⟨_, -, made⟩ := bind_eq_ok.mp read
        cases made
        rfl
  | flag own flag | vocabulary own canonical =>
      simp only [reader] at read
      cases read
      rfl

/-- A number of the text, admitted by the guard, is too large for a double. -/
def Overflows (text : Str) : Prop :=
  ∃ sentence ∈ sentences text, ∃ rule ∈ pitchRules,
    ∃ found ∈ rule.pattern.finditer (Unicode.lower sentence.text), rule.overflows found = true

theorem mem_sightings {text : Str} {s : Sighting} :
    s ∈ sightings (pitchRules.map PitchRule.toRule) text ↔ ∃ sentence ∈ sentences text,
      ∃ rule ∈ pitchRules, ∃ found ∈ rule.pattern.finditer (Unicode.lower sentence.text),
        s = ⟨sentence, rule.toRule, found⟩ := by
  simp only [sightings, sightingsOf, List.mem_flatMap, List.mem_map]
  constructor
  · rintro ⟨sentence, inText, _, ⟨rule, listed, rfl⟩, found, seen, rfl⟩
    exact ⟨sentence, inText, rule, listed, found, seen, rfl⟩
  · rintro ⟨sentence, inText, rule, listed, found, seen, rfl⟩
    exact ⟨sentence, inText, _, ⟨rule, listed, rfl⟩, found, seen, rfl⟩

theorem sighting_returns {sentence : Sentence} {rule : PitchRule} {found : Regex.Match CodePoint} :
    (∃ answer, (⟨sentence, rule.toRule, found⟩ : Sighting).read = .ok answer) ↔
      rule.overflows found = false := by
  rw [← read_returns, Sighting.read, bind_returns]
  constructor
  · rintro ⟨answer, read, -⟩
    exact ⟨answer, read⟩
  · rintro ⟨answer, read⟩
    refine ⟨answer, read, ?_⟩
    cases answer <;> exact ⟨_, rfl⟩

theorem commitments_returns {text : Str} :
    (∃ readings, commitments text = .ok readings) ↔ ¬ Overflows text := by
  rw [commitments, bind_returns]
  have scans : (∃ out, scan text (pitchRules.map PitchRule.toRule) = .ok out) ↔ ¬ Overflows text := by
    rw [scan_returns]
    constructor
    · rintro reads ⟨sentence, inText, rule, listed, found, seen, large⟩
      have small := sighting_returns.mp
        (reads _ (mem_sightings.mpr ⟨sentence, inText, rule, listed, found, seen, rfl⟩))
      rw [large] at small
      cases small
    · intro small s seen
      obtain ⟨sentence, inText, rule, listed, found, matched, rfl⟩ := mem_sightings.mp seen
      rw [sighting_returns]
      by_contra large
      exact small ⟨sentence, inText, rule, listed, found, matched, Bool.not_eq_false _ ▸ large⟩
  rw [← scans]
  exact ⟨fun ⟨out, scanned, _⟩ => ⟨out, scanned⟩, fun ⟨out, scanned⟩ => ⟨out, scanned, _, rfl⟩⟩

/-! ## How sure a reading is -/

omit [Prose] in
def ratings : List (Str × ℚ) :=
  [(str "warranty_months", 0.9), (str "warranty_months", 0.9), (str "boiler_type", 0.88),
    (str "pump_pressure_bar", 0.88), (str "water_tank_l", 0.85), (str "voltage", 0.8),
    (str "units_left", 0.8), (str "in_stock", 0.82), (str "in_stock", 0.82), (str "dispatch_window", 0.9),
    (str "return_window_days", 0.9)]

theorem pitchRules_ratings : pitchRules.map (fun rule => (rule.key, rule.baseConfidence)) = ratings := rfl

omit [Prose] in
theorem ratings_agree : ∀ a ∈ ratings, a.2 * hedgeDiscountFactor < confidenceFloor ∧ 0 ≤ a.2 ∧
    ∀ b ∈ ratings, a.1 = b.1 → a.2 = b.2 := by decide +kernel

def Rated (r : TextReading) : Prop :=
  ∃ rating ∈ ratings, r.key = rating.1 ∧
    (r.confidence = rating.2 ∨ r.confidence = rating.2 * hedgeDiscountFactor)

omit [Prose] in
theorem Rated.surest {r r' : TextReading} (rated : Rated r) (rated' : Rated r') (same : r'.key = r.key)
    (clears : confidenceFloor ≤ r.confidence) : r'.confidence ≤ r.confidence := by
  obtain ⟨a, listed, key, confidence⟩ := rated
  obtain ⟨b, listed', key', confidence'⟩ := rated'
  obtain ⟨below, -, agree⟩ := ratings_agree a listed
  have ratio : hedgeDiscountFactor ≤ 1 := by decide +kernel
  have full : r.confidence = a.2 := by
    rcases confidence with full | hedged
    · exact full
    · rw [hedged] at clears
      exact absurd below (not_lt.mpr clears)
  have equal : a.2 = b.2 := agree b listed' (key.symm.trans (same.symm.trans key'))
  rw [full, equal]
  rcases confidence' with full' | hedged
  · exact full'.le
  · rw [hedged]
    exact mul_le_of_le_one_right (ratings_agree b listed').2.1 ratio

theorem sighting_rated {text : Str} {s : Sighting} {r : TextReading}
    (seen : s ∈ sightings (pitchRules.map PitchRule.toRule) text) (read : s.read = .ok (some r)) :
    Rated r := by
  obtain ⟨sentence, -, rule, listed, found, -, rfl⟩ := mem_sightings.mp seen
  rw [Sighting.read] at read
  obtain ⟨answer, taken, made⟩ := bind_eq_ok.mp read
  cases answer with
  | none => cases made
  | some fact =>
      obtain ⟨key, value, unit⟩ := fact
      have named : key = rule.key := by
        have valued : rule.read found = .ok (some (key, value, unit)) := taken
        rw [PitchRule.read] at valued
        split at valued
        · exact value_key valued
        · cases valued
      obtain rfl := Option.some.inj (Except.ok.inj made)
      refine ⟨(rule.key, rule.baseConfidence), ?_, named, ?_⟩
      · rw [← pitchRules_ratings]
        exact List.mem_map.mpr ⟨rule, listed, rfl⟩
      · have discount : hedgeDiscount (Unicode.lower sentence.text) = 1 ∨
            hedgeDiscount (Unicode.lower sentence.text) = hedgeDiscountFactor := by
          unfold hedgeDiscount
          split
          · exact Or.inr rfl
          · exact Or.inl rfl
        rcases discount with plain | hedged
        · left
          exact (congrArg (rule.baseConfidence * ·) plain).trans (mul_one _)
        · right
          exact congrArg (rule.baseConfidence * ·) hedged

/-! ## What is kept -/

theorem commitments_eq_ok {text : Str} {readings : List TextReading} :
    commitments text = .ok readings ↔ ∃ read,
      (sightings (pitchRules.map PitchRule.toRule) text).mapM Sighting.read = .ok read ∧
      ((read.reduceOption.foldl keepSurest []).filter fun r => confidenceFloor ≤ r.confidence) = readings := by
  constructor
  · intro committed
    obtain ⟨out, scanned, made⟩ := bind_eq_ok.mp committed
    obtain ⟨read, reads, rfl⟩ := scan_eq_ok.mp scanned
    exact ⟨read, reads, Except.ok.inj made⟩
  · rintro ⟨read, reads, rfl⟩
    exact bind_eq_ok.mpr ⟨_, scan_eq_ok.mpr ⟨read, reads, rfl⟩, rfl⟩

theorem rated_of_reads {text : Str} {read : List (Option TextReading)}
    (reads : (sightings (pitchRules.map PitchRule.toRule) text).mapM Sighting.read = .ok read)
    {r : TextReading} (member : r ∈ read.reduceOption) : Rated r := by
  rw [List.reduceOption_mem_iff] at member
  obtain ⟨s, seen, taken⟩ := (mapM_members reads).1 _ member
  exact sighting_rated seen taken

theorem mapM_shift (k : Nat) {seen : List Sighting} {later : List (Option TextReading)}
    (reads : (seen.map (Sighting.shift k)).mapM Sighting.read = .ok later) :
    ∃ back, seen.mapM Sighting.read = .ok back ∧ later = back.map (Option.map (TextReading.shift k)) := by
  induction seen generalizing later with
  | nil =>
      cases reads
      exact ⟨[], rfl, rfl⟩
  | cons s seen ih =>
      rw [List.map_cons, List.mapM_cons] at reads
      obtain ⟨answer, first, reads⟩ := bind_eq_ok.mp reads
      obtain ⟨rest, second, reads⟩ := bind_eq_ok.mp reads
      obtain ⟨back, below, rfl⟩ := ih second
      rw [read_shift] at first
      cases taken : s.read with
      | error e =>
          rw [taken] at first
          cases first
      | ok own =>
          rw [taken] at first
          refine ⟨own :: back, ?_, ?_⟩
          · rw [List.mapM_cons, taken, below]
            rfl
          · obtain rfl := Except.ok.inj first
            exact (Except.ok.inj reads).symm

section Appended

variable {text gap extra : Str}

theorem sightings_behind (closed : Closed (text ++ gap)) (blank : ∀ c ∈ gap, c.isSpace = true)
    (rules : List Rule) : sightings rules (text ++ gap ++ extra) = sightings rules text ++
      (sightings rules extra).map (Sighting.shift (text ++ gap).length) := by
  rw [sightings_append closed, sightings, sentences_append_blank text blank]
  rfl

structure Behind (readings more later : List TextReading) : Prop where
  stays : ∀ r ∈ readings, r ∈ later
  comes : ∀ r ∈ later, (∃ r' ∈ readings, SameFact r r') ∨ ∃ r' ∈ more, SameFact r r'

theorem commitments_behind (closed : Closed (text ++ gap)) (blank : ∀ c ∈ gap, c.isSpace = true)
    {later : List TextReading} (committed : commitments (text ++ gap ++ extra) = .ok later) :
    ∃ readings more, commitments text = .ok readings ∧ commitments extra = .ok more ∧
      Behind readings more later := by
  obtain ⟨read, reads, rfl⟩ := commitments_eq_ok.mp committed
  have whole := reads
  rw [sightings_behind closed blank, List.mapM_append] at reads
  obtain ⟨front, first, reads⟩ := bind_eq_ok.mp reads
  obtain ⟨moved, second, reads⟩ := bind_eq_ok.mp reads
  obtain ⟨back, below, rfl⟩ := mapM_shift _ second
  obtain rfl := Except.ok.inj reads
  refine ⟨_, _, commitments_eq_ok.mpr ⟨front, first, rfl⟩, commitments_eq_ok.mpr ⟨back, below, rfl⟩, ?_, ?_⟩
  · intro r member
    obtain ⟨kept, clears⟩ := List.mem_filter.mp member
    rw [decide_eq_true_eq] at clears
    have rated : Rated r := by
      rcases mem_of_foldl_keepSurest kept with none | given
      · cases none
      · exact rated_of_reads first given
    rw [List.reduceOption_append, List.foldl_append]
    refine List.mem_filter.mpr ⟨mem_foldl_keepSurest kept ?_, decide_eq_true clears⟩
    intro r' given fact
    have rated' : Rated r' := by
      apply rated_of_reads whole
      rw [List.reduceOption_append]
      exact List.mem_append_right _ given
    exact rated.surest rated' fact.1 clears
  · intro r member
    obtain ⟨kept, clears⟩ := List.mem_filter.mp member
    rw [decide_eq_true_eq] at clears
    have covered : ∀ {given : List TextReading} {r₀ : TextReading}, r₀ ∈ given → SameFact r r₀ →
        r.confidence ≤ r₀.confidence → ∃ r' ∈ (given.foldl keepSurest []).filter fun r =>
          confidenceFloor ≤ r.confidence, SameFact r r' := by
      intro given r₀ inside fact below
      obtain ⟨r', there, fact', surer⟩ := foldl_keepSurest_covers [] (Or.inr inside)
      refine ⟨r', List.mem_filter.mpr ⟨there, ?_⟩, fact.1.trans fact'.1, fact.2.trans fact'.2⟩
      exact decide_eq_true (clears.trans (below.trans surer))
    rcases mem_of_foldl_keepSurest kept with none | given
    · cases none
    · rw [List.reduceOption_append] at given
      rcases List.mem_append.mp given with here | there
      · exact Or.inl (covered here ⟨rfl, rfl⟩ le_rfl)
      · right
        rw [List.reduceOption_mem_iff] at there
        obtain ⟨answer, inBack, shifted⟩ := List.mem_map.mp there
        cases answer with
        | none => cases shifted
        | some r₀ =>
            obtain rfl := Option.some.inj shifted
            exact covered (List.reduceOption_mem_iff.mpr inBack) ⟨rfl, rfl⟩ le_rfl

omit [Prose] in
theorem mem_dropSelfContradicting {readings : List TextReading} {r : TextReading} :
    r ∈ dropSelfContradicting readings ↔ r ∈ readings ∧ (r.value.exclusive = true → ∀ other ∈ readings,
      other.value.exclusive = true → other.key = r.key → other.value = r.value) := by
  rw [dropSelfContradicting, List.mem_filter]
  cases r.value.exclusive
  · simp
  · simp only [Bool.true_and, Bool.not_eq_true', List.any_eq_false, Bool.and_eq_true, decide_eq_true_eq,
      ne_eq, not_and, not_not, forall_const, and_imp]

end Appended

/-! ## What is appended -/

def Gainsaid (call : PitchCall) (extra : Str) (claim : PitchClaim) : Prop :=
  ∃ readings, commitments extra = .ok readings ∧
    ∃ r ∈ readings, resolveKey call.vocabulary r.key = claim.key ∧ r.value ≠ claim.value

/-- The pitch is decomposed with and without what is appended, and short of the cap each of its claims
stands: a number in any case, a flag or a term unless it is gainsaid. -/
structure Survives (call : PitchCall) (text gap extra : Str) : Prop where
  graded : ∃ claims, decomposePitch call text = .ok claims
  regraded : ∃ claims, decomposePitch call (text ++ gap ++ extra) = .ok claims
  stands : ∀ claims later, decomposePitch call text = .ok claims →
    decomposePitch call (text ++ gap ++ extra) = .ok later → later.length < maxPitchClaims →
    ∀ claim ∈ claims, (claim.value.exclusive = true → ¬ Gainsaid call extra claim) → claim ∈ later

omit [Prose] in
theorem blank_of_strip {text : Str} (empty : text.strip.isEmpty = true) : ∀ c ∈ text, c.isSpace = true := by
  rw [List.isEmpty_iff, Str.strip, List.rdropWhile_eq_nil_iff] at empty
  intro c member
  rw [← List.takeWhile_append_dropWhile (p := CodePoint.isSpace) (l := text)] at member
  rcases List.mem_append.mp member with front | back
  · exact List.mem_takeWhile_imp front
  · exact empty c back

omit [Prose] in
theorem sentences_blank {text : Str} (empty : text.strip.isEmpty = true) : sentences text = [] :=
  sentences_append_blank [] (blank_of_strip empty)

omit [Prose] in
theorem strip_blank {text : Str} (blank : ∀ c ∈ text, c.isSpace = true) : text.strip.isEmpty = true := by
  rw [Str.strip, List.dropWhile_eq_nil_iff.mpr blank]
  rfl

theorem decomposePitch_blank {call : PitchCall} {text : Str} (empty : text.strip.isEmpty = true) :
    decomposePitch call text = .ok [] := if_pos (Or.inl empty)

theorem decomposePitch_eq_ok {call : PitchCall} {text : Str} {claims : List PitchClaim}
    (prose : ¬ text.strip.isEmpty = true) (short : text.length ≤ maxPitchChars) :
    decomposePitch call text = .ok claims ↔ ∃ readings, commitments text = .ok readings ∧
      (((dropSelfContradicting readings).mergeSort readsBefore).take maxPitchClaims).map (claimOf call) =
        claims := by
  rw [decomposePitch, if_neg (not_or.mpr ⟨prose, not_lt.mpr short⟩), bind_eq_ok]
  simp only [pure, Except.pure, Except.ok.injEq]

theorem decomposePitch_returns {call : PitchCall} {text : Str} (short : text.length ≤ maxPitchChars) :
    (∃ claims, decomposePitch call text = .ok claims) ↔ ¬ Overflows text := by
  by_cases empty : text.strip.isEmpty = true
  · apply iff_of_true ⟨[], decomposePitch_blank empty⟩
    rintro ⟨sentence, inText, -⟩
    rw [sentences_blank empty] at inText
    cases inText
  · rw [← commitments_returns]
    constructor
    · rintro ⟨claims, decomposed⟩
      obtain ⟨readings, committed, -⟩ := (decomposePitch_eq_ok empty short).mp decomposed
      exact ⟨readings, committed⟩
    · rintro ⟨readings, committed⟩
      exact ⟨_, (decomposePitch_eq_ok empty short).mpr ⟨readings, committed, rfl⟩⟩

section

variable {call : PitchCall} {text gap extra : Str}

theorem overflows_behind (closed : Closed (text ++ gap)) (blank : ∀ c ∈ gap, c.isSpace = true)
    (large : Overflows text) : Overflows (text ++ gap ++ extra) := by
  obtain ⟨sentence, inText, rest⟩ := large
  refine ⟨sentence, ?_, rest⟩
  rw [sentences_append closed, sentences_append_blank text blank]
  exact List.mem_append_left _ inText

omit [Prose] in
theorem mem_claims {readings : List TextReading} {later : List PitchClaim}
    (made : (((dropSelfContradicting readings).mergeSort readsBefore).take maxPitchClaims).map
      (claimOf call) = later) (few : later.length < maxPitchClaims) {r : TextReading}
    (member : r ∈ dropSelfContradicting readings) : claimOf call r ∈ later := by
  have whole : ((dropSelfContradicting readings).mergeSort readsBefore).take maxPitchClaims =
      (dropSelfContradicting readings).mergeSort readsBefore := by
    apply List.take_of_length_le
    rw [← made, List.length_map, List.length_take] at few
    omega
  rw [← made, whole]
  exact List.mem_map_of_mem (List.mem_mergeSort.mpr member)

theorem stands_behind (closed : Closed (text ++ gap)) (blank : ∀ c ∈ gap, c.isSpace = true)
    {readings later : List TextReading} (committed : commitments text = .ok readings)
    (recommitted : commitments (text ++ gap ++ extra) = .ok later) {r : TextReading}
    (member : r ∈ dropSelfContradicting readings)
    (unsaid : r.value.exclusive = true → ¬ Gainsaid call extra (claimOf call r)) :
    r ∈ dropSelfContradicting later := by
  obtain ⟨readings', more, first, second, behind⟩ := commitments_behind closed blank recommitted
  obtain rfl := Except.ok.inj (committed.symm.trans first)
  obtain ⟨inside, agreed⟩ := mem_dropSelfContradicting.mp member
  refine mem_dropSelfContradicting.mpr ⟨behind.stays r inside, ?_⟩
  intro exclusive other among exclusive' key
  rcases behind.comes other among with ⟨r', earlier, fact⟩ | ⟨r', later', fact⟩
  · rw [fact.2]
    exact agreed exclusive r' earlier (fact.2 ▸ exclusive') (fact.1.symm.trans key)
  · by_contra different
    refine unsaid exclusive ⟨more, second, r', later', ?_, ?_⟩
    · rw [← fact.1, key]
      rfl
    · rw [← fact.2]
      exact different

/-- A pitch of any text within the bound keeps what it was graded on, whatever sentence is appended to
it, just when no number in it is too large. -/
theorem grading_survives_iff (call : PitchCall) (text gap extra : Str) (closed : Closed (text ++ gap))
    (blank : ∀ c ∈ gap, c.isSpace = true) (short : (text ++ gap ++ extra).length ≤ maxPitchChars) :
    Survives call text gap extra ↔ ¬ Overflows (text ++ gap ++ extra) := by
  have shorter : text.length ≤ maxPitchChars := by
    rw [List.append_assoc, List.length_append] at short
    omega
  constructor
  · intro survives
    exact (decomposePitch_returns short).mp survives.regraded
  · intro small
    refine ⟨?_, (decomposePitch_returns short).mpr small, ?_⟩
    · exact (decomposePitch_returns shorter).mpr fun large => small (overflows_behind closed blank large)
    · intro claims later decomposed redecomposed few claim made unsaid
      by_cases empty : text.strip.isEmpty = true
      · rw [decomposePitch_blank empty] at decomposed
        cases decomposed
        cases made
      · have prose : ¬ (text ++ gap ++ extra).strip.isEmpty = true := by
          intro none
          apply empty
          apply strip_blank
          intro c inside
          exact blank_of_strip none c (List.mem_append_left _ (List.mem_append_left _ inside))
        obtain ⟨readings, committed, rfl⟩ := (decomposePitch_eq_ok empty shorter).mp decomposed
        obtain ⟨readings', recommitted, made'⟩ := (decomposePitch_eq_ok prose short).mp redecomposed
        obtain ⟨r, kept, rfl⟩ := List.mem_map.mp made
        have member : r ∈ dropSelfContradicting readings :=
          List.mem_mergeSort.mp (List.mem_of_mem_take kept)
        exact mem_claims made' few (stands_behind closed blank committed recommitted member unsaid)

omit [Prose] in
theorem stock_survives : letI := Prose.ascii
    Survives {} (str "In stock.") (str " ") (str "Only 3 left.") := by
  let _ := Prose.ascii
  have closed : Closed (str "In stock." ++ str " ") := Or.inr ⟨by decide, by decide⟩
  have blank : (str " ").all CodePoint.isSpace = true := by decide
  have counted : ((sentences (str "In stock." ++ str " " ++ str "Only 3 left.")).all fun sentence =>
      pitchRules.all fun rule => (rule.pattern.finditer (Unicode.lower sentence.text)).all fun found =>
        !(rule.counted found).any fun x => !x.isFinite) = true := by
    decide +kernel
  apply (grading_survives_iff {} _ _ _ closed (List.all_eq_true.mp blank) (by decide)).mpr
  rintro ⟨sentence, inText, rule, listed, found, matched, large⟩
  have finite := List.all_eq_true.mp (List.all_eq_true.mp (List.all_eq_true.mp counted sentence inText) rule
    listed) found matched
  rw [(Bool.and_eq_true_iff.mp large).2] at finite
  cases finite

omit [Prose] in
def longTerm (digits : Nat) : Str :=
  List.replicate digits (CodePoint.ofChar '9') ++ str " month warranty."

omit [Prose] in
def termLetters : Str := str "9 month warranty."

omit [Prose] in
theorem longTerm_letters (digits : Nat) : ∀ c ∈ longTerm digits, c ∈ termLetters := by
  intro c member
  rcases List.mem_append.mp member with nine | tail
  · rw [List.eq_of_mem_replicate nine]
    decide
  · exact List.mem_cons_of_mem _ tail

omit [Prose] in
theorem longTerm_ungoverned : letI := Prose.ascii
    ∀ cue ∈ [clauseBoundary, negated, irrealis, timeShifted, otherReferent],
      cue.finditer (longTerm 309) = [] := by
  let _ := Prose.ascii
  have missed {rs : List (Regex CodePoint)}
      (none : rs.all (fun r => Regex.needs termLetters r || (r.finditer (longTerm 309)).isEmpty) = true) :
      (Regex.anyOf rs).finditer (longTerm 309) = [] := Regex.finditer_anyOf_eq_nil (longTerm_letters 309) none
  intro cue listed
  simp only [List.mem_cons, List.not_mem_nil, or_false] at listed
  rcases listed with rfl | rfl | rfl | rfl | rfl <;> apply missed <;>
    simp only [terms, term, whole, phrases, phrase, lit, List.map, str_literal rfl] <;> decide +kernel

omit [Prose] in
theorem longTerm_overflows : letI := Prose.ascii
    ∃ found ∈ warrantyTerm.pattern.finditer (longTerm 309), warrantyTerm.overflows found = true := by
  let _ := Prose.ascii
  have infinite : ((warrantyTerm.pattern.finditer (longTerm 309)).any fun found =>
      found.start = 0 && (warrantyTerm.counted found).any fun x => !x.isFinite) = true := by
    decide +kernel
  obtain ⟨found, matched, infinite⟩ := List.any_eq_true.mp infinite
  obtain ⟨leading, infinite⟩ := Bool.and_eq_true_iff.mp infinite
  refine ⟨found, matched, Bool.and_eq_true_iff.mpr ⟨?_, infinite⟩⟩
  have subject := (Regex.finditer_matches matched).subject
  have letters : ∀ c ∈ found.text, c ∈ termLetters := by
    intro c member
    apply longTerm_letters 309
    rw [← subject]
    exact List.mem_append_right _ (List.mem_of_mem_take member)
  apply assertsThisOffer_of_ungoverned
  · rw [subject]
    exact longTerm_ungoverned
  · exact of_decide_eq_true leading
  · rfl
  · have missed := (Regex.silent_of_needs letters (r := boundedNumber) (by decide +kernel)).finditer_eq_nil
    rw [Regex.search, missed]
    rfl
  · decide

omit [Prose] in
/-- A term of 309 digits takes the sentence before it out of the pitch. -/
theorem long_term_silences : letI := Prose.ascii
    ¬ Survives {} (str "Sold out.") (str " ") (longTerm 309) := by
  let _ := Prose.ascii
  have stands : ((sentences (str "Sold out." ++ str " " ++ longTerm 309)).any fun sentence =>
      Unicode.lower sentence.text = longTerm 309) = true := by
    decide +kernel
  intro survives
  obtain ⟨sentence, inText, lowered⟩ := List.any_eq_true.mp stands
  obtain ⟨found, matched, overflows⟩ := longTerm_overflows
  rw [← of_decide_eq_true lowered] at matched
  have short : (str "Sold out." ++ str " " ++ longTerm 309).length ≤ maxPitchChars := by decide +kernel
  exact (decomposePitch_returns short).mp survives.regraded
    ⟨sentence, inText, warrantyTerm, List.mem_cons_self, found, matched, overflows⟩

end

end Proxyshop.Verification
