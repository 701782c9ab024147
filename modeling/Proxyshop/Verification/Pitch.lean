import Proxyshop.Verification.Decomposition

/-!
# A seller's pitch

The prose a seller writes for a shopper is read by a table of rules. A match becomes a reading only
where the clause it stands in asserts it of this offer, and a pitch that reads a flag or a term of a
vocabulary in two ways asserts neither.
-/

namespace Proxyshop.Verification

open Python Numbers Structures Pattern

/-! ## Numbers -/

def spelledNumbers : List (Str × Nat) :=
  [(str "one", 1), (str "two", 2), (str "three", 3), (str "four", 4), (str "five", 5), (str "six", 6),
    (str "seven", 7), (str "eight", 8), (str "nine", 9), (str "ten", 10), (str "eleven", 11),
    (str "twelve", 12), (str "eighteen", 18), (str "twenty-four", 24), (str "thirty-six", 36)]

section Prose

variable [Prose]

/-- `_amount`. -/
def amount (raw : Str) : Option (Extended Binary64) :=
  let text := (Unicode.lower raw.strip).replace (str ",") []
  match spelledNumbers.lookup text with
  | some n => some (Format.round n)
  | none => NumberText.readFloat? text

def groupNumbers : List Nat := [1, 2]

/-- `_captured`. -/
def capturedText (found : Regex.Match CodePoint) (index : Nat) (default : Str) : Str :=
  ((found.group index).or (groupNumbers.findSome? found.group)).getD default

/-- `int(x)`. -/
def toInt : Extended Binary64 → Except PyError Int
  | .finite x => .ok (truncate x.value)
  | .infinity _ => .error .overflowError
  | .nan => .error .valueError

/-! ## Whether a match is this offer's own assertion -/

inductive Governor
  | punct | coord | conditional | temporal | relative | contrastive
  deriving DecidableEq

def clauseBoundary : Regex CodePoint :=
  Regex.anyOf
    [.group 1 (oneOf ",;:()[]–—"),
      whole (.group 2 (phrases ["and", "but", "or", "yet", "plus"])),
      whole (.group 3 (phrases ["if", "unless", "in case", "in the event", "whether", "provided"])),
      whole (.group 4 (phrases ["when", "whenever", "as soon as"])),
      whole (.group 5 (phrases ["which", "who"])),
      whole (.group 6 (Regex.anyOf
        [phrases ["unlike", "versus", "vs", "compared to", "compared with", "instead of", "rather than",
            "other than", "apart from", "as opposed to"],
          phrase "except" * Regex.optional (Regex.several white * lit "for"),
          phrases ["although", "though", "whereas", "while", "however"]]))]

/-- `match.lastgroup`. -/
def governorOf (boundary : Regex.Match CodePoint) : Governor :=
  if (boundary.group 1).isSome then .punct
  else if (boundary.group 2).isSome then .coord
  else if (boundary.group 3).isSome then .conditional
  else if (boundary.group 4).isSome then .temporal
  else if (boundary.group 5).isSome then .relative
  else .contrastive

def negated : Regex CodePoint :=
  Regex.anyOf
    (terms ["never", "not"] ++ [lit "n't" * wordEdge] ++
      [whole (lit "no" * Regex.several white * phrases ["longer", "more"])] ++
      terms ["without", "nor", "none", "nothing", "rarely", "seldom", "hardly", "instead of",
        "rather than", "avoids?", "avoided"])

def irrealis : Regex CodePoint := Regex.anyOf (terms ["would", "could", "were to", "otherwise", "ever"])

def comparative : Regex CodePoint :=
  Regex.anyOf (terms
    ["more than", "less than", "fewer than", "at least", "at most", "over", "under", "below", "above",
      "minimum", "maximum", "up to", "from", "between", "starting at", "as much as", "as little as"])

def future : Regex CodePoint := Regex.anyOf (terms ["will", "going to", "shall"])

def timeShifted : Regex CodePoint :=
  Regex.anyOf
    (terms ["was", "were", "been", "had", "used to", "previously", "formerly", "earlier", "briefly",
        "yesterday", "twice", "thrice"] ++
      [whole (Regex.several digit * Regex.several white * lit "times")] ++ terms ["ago"] ++
      [whole (lit "last" * Regex.several white * Regex.several letter)] ++
      terms ["back in", "at one point"] ++
      [whole (lit "in" * Regex.several white * phrases ["19", "20"] * digit * digit)])

def otherReferent : Regex CodePoint :=
  Regex.anyOf
    [wordEdge * (Regex.several digit * Regex.optional (lit "." * Regex.several digit)) *
        Regex.many white * phrases ["kgs?", "g", "mg", "ml", "cl", "oz", "lbs?", "packs?", "counts?", "ct",
          "tins?", "bags?", "bottles?"] * wordEdge,
      whole (phrases ["competitors?", "competition", "rivals?", "elsewhere", "theirs", "nobody", "anybody",
        "everybody", "somebody", "someone", "everyone", "anyone"]),
      wordEdge * lit "other" * Regex.several white * phrases ["stores?", "sellers?", "shops?", "retailers?",
        "brands?", "sites?", "listings?", "people"] * wordEdge,
      whole (phrases ["another", "other", "previous", "older", "earlier", "former", "discontinued",
        "refurbished", "display", "demo", "clearance", "closeout", "bundle", "kit", "sampler"]),
      whole (phrases ["sizes?", "colou?rs?", "variants?", "options?", "flavou?rs?", "listings?"]),
      whole (phrases ["ranges?", "collections?", "lineups?", "assortments?", "catalogues?", "catalogs?",
        "waitlists?"]),
      wordEdge * phrases ["red", "blue", "green", "black", "white", "grey", "gray", "silver", "brown",
        "pink", "purple", "orange", "yellow", "navy", "cream", "beige", "gold", "copper", "chrome",
        "stainless", "matte", "matt"] * Regex.several white * Regex.several letter]

def boundedNumber : Regex CodePoint :=
  wordEdge * phrases ["over", "under", "above", "below", "more than", "less than", "fewer than", "at least",
    "at most", "up to", "minimum of", "maximum of", "as much as", "as little as"] *
    Regex.several white * digit

/-- `(?=$|[^\w\s])` -/
def clauseEnd : Regex CodePoint :=
  .edge fun _ after => after.isEmpty || after = [CodePoint.ofChar '\n'] ||
    after.head?.any fun c => !isWord c && !c.isSpace

def predicativeTail : Regex CodePoint :=
  Regex.many (.one fun c => c.isSpace || c ∈ str "-–—") * Regex.anyOf
    [textEnd,
      .one fun c => !isWord c && !c.isSpace,
      phrases ["and", "but", "or", "yet", "so", "plus", "for", "at", "in", "on", "from", "to", "with", "of",
        "by", "as", "than", "until", "till", "while", "because", "since", "per", "via", "across",
        "throughout", "now", "today", "tonight", "tomorrow", "again", "still", "already", "soon", "yet",
        "here", "there", "worldwide", "everywhere", "anywhere", "nationwide", "online", "always", "right",
        "ready", "sorry", "too", "either", "immediately", "currently", "presently", "instantly",
        "directly", "locally", "globally", "internationally", "domestically", "nationally", "separately",
        "permanently", "temporarily"] * wordEdge,
      Regex.several letter * Regex.many white * clauseEnd]

def thisOfferDeixis : Regex CodePoint :=
  whole (phrases ["this", "these", "it", "its", "they", "their", "ours?", "we"])

inductive Kind
  | state | commitment
  deriving DecidableEq

def slice (s : Str) (low high : Nat) : Str := (s.take high).drop low

/-- The number of leading places below a bound, which for ascending places is `bisect_left`. -/
def bisectLeft (places : List Nat) (bound : Nat) : Nat := (places.takeWhile (· < bound)).length

def bisectRight (places : List Nat) (bound : Nat) : Nat := (places.takeWhile (· ≤ bound)).length

structure Boundary where
  start : Nat
  stop : Nat
  governor : Governor

def clauseBoundaries (sentence : Str) : List Boundary :=
  (clauseBoundary.finditer sentence).map fun found => ⟨found.start, found.stop, governorOf found⟩

def cuePositions (cue : Regex CodePoint) (sentence : Str) : List Nat :=
  (cue.finditer sentence).map (·.start)

def cueIn (positions : List Nat) (low high : Nat) : Bool :=
  (positions[bisectLeft positions low]?).any (· < high)

/-- A clause: where it begins and ends, what opens it, and how many boundaries lie before it. -/
structure Clause where
  left : Nat
  right : Nat
  governor : Option Governor
  openers : Nat

def clauseBounds (sentence : Str) (start stop : Nat) : Clause :=
  let boundaries := clauseBoundaries sentence
  let before := bisectRight (boundaries.map (·.stop)) start
  let opener := if before = 0 then none else boundaries[before - 1]?
  { left := (opener.map (·.stop)).getD 0
    right := ((boundaries[bisectLeft (boundaries.map (·.start)) stop]?).map (·.start)).getD sentence.length
    governor := opener.map (·.governor)
    openers := before }

def mark (sentence : Str) (boundary : Boundary) : Option CodePoint := sentence[boundary.start]?

/-- `_antecedent_names_this_offer`, of the boundaries before the clause, the nearest first. -/
def antecedentNamesThisOffer (sentence : Str) : List Boundary → Bool
  | [] => false
  | opener :: earlier =>
      let antecedent := slice sentence ((earlier.head?.map (·.stop)).getD 0) opener.start
      let bracketed := (earlier.head?.bind (mark sentence)).any fun c => c ∈ str "(["
      if !antecedent.strip.isEmpty && !bracketed then
        thisOfferDeixis.search antecedent && !otherReferent.search antecedent
      else antecedentNamesThisOffer sentence earlier

def isComma (sentence : Str) (boundary : Boundary) : Bool :=
  boundary.governor = .punct && mark sentence boundary = some (CodePoint.ofChar ',')

/-- `_mood_bounds`, of the same boundaries. -/
def moodBounds (sentence : Str) : List Boundary → Nat
  | [] => 0
  | [opener] => opener.stop
  | opener :: before :: earlier =>
      if isComma sentence opener && isComma sentence before then moodBounds sentence earlier
      else opener.stop

def assertsThisOffer (found : Regex.Match CodePoint) (kind : Kind) (predicative : Bool) : Bool :=
  let sentence := found.subject
  let clause := clauseBounds sentence found.start found.stop
  let openers := ((clauseBoundaries sentence).take clause.openers).reverse
  let moodLeft := moodBounds sentence openers
  let governed (cue : Regex CodePoint) : Bool :=
    cueIn (cuePositions cue sentence) moodLeft found.start ||
      cueIn (cuePositions cue sentence) clause.left clause.right
  if clause.governor = some .contrastive then false
  else if clause.governor = some .relative ∧ antecedentNamesThisOffer sentence openers = false then false
  else if (clause.governor = some .conditional ∨ clause.governor = some .temporal) ∧ kind = .state then
    false
  else if governed negated || governed irrealis || governed timeShifted then false
  else if kind = .state ∧ governed future then false
  else if cueIn (cuePositions otherReferent sentence) clause.left found.start then false
  else if comparative.search (slice sentence (max clause.left (found.start - 20)) found.start) then false
  else !boundedNumber.search found.text &&
    (!predicative || (predicativeTail.first (.start (sentence.drop found.stop))).isSome)

theorem assertsThisOffer_of_ungoverned {found : Regex.Match CodePoint} {kind : Kind}
    (ungoverned : ∀ cue ∈ [clauseBoundary, negated, irrealis, timeShifted, otherReferent],
      cue.finditer found.subject = []) (leading : found.start = 0) (committed : kind = .commitment)
    (exact' : boundedNumber.search found.text = false) (compared : comparative.search [] = false) :
    assertsThisOffer found kind false = true := by
  subst committed
  have silent {cue : Regex CodePoint} (listed : cue ∈ [clauseBoundary, negated, irrealis, timeShifted,
      otherReferent]) : cuePositions cue found.subject = [] := by
    rw [cuePositions, ungoverned cue listed, List.map_nil]
  have undivided : clauseBoundaries found.subject = [] := by
    rw [clauseBoundaries, ungoverned _ List.mem_cons_self, List.map_nil]
  have open_ : clauseBounds found.subject 0 found.stop = ⟨0, found.subject.length, none, 0⟩ := by
    simp [clauseBounds, undivided, bisectRight, bisectLeft]
  simp [assertsThisOffer, open_, undivided, silent, leading, exact', compared, slice, cueIn, moodBounds]

/-! ## The rules -/

inductive Reader
  | duration (key : Str)
  | days (key : Str)
  | quantity (key : Str) (integral : Bool)
  | flag (key : Str) (flag : Bool)
  | vocabulary (key : Str) (canonical : List (Str × Str))

structure PitchRule where
  name : Str
  pattern : Regex CodePoint
  claimType : Str
  baseConfidence : ℚ
  unit : Option Str := none
  kind : Kind := .state
  predicative : Bool := false
  reader : Reader

/-- `word.strip().rstrip("s")`. -/
def unitWord (word : Str) : Str := word.strip.rdropWhile (· = CodePoint.ofChar 's')

/-- `(_captured(match, 2, default) or default).strip().rstrip("s")`. -/
def unitOf (found : Regex.Match CodePoint) (default : String) : Str :=
  unitWord ((capturedText found 2 (str default)).or (str default))

/-- `re.sub(r"[\s-]+", " ", s)`. -/
def collapseDashes : Bool → Str → Str
  | _, [] => []
  | inside, c :: s =>
      if c.isSpace || c = CodePoint.ofChar '-' then
        (if inside then collapseDashes true s else CodePoint.ofChar ' ' :: collapseDashes true s)
      else c :: collapseDashes false s

/-- A term in months, or a window in days, as the double it is computed as. -/
def durationIn (word : Str) (a : Extended Binary64) : Extended Binary64 :=
  if (str "year").isPrefixOf word then a * 12.0 else a

def daysIn (word : Str) (a : Extended Binary64) : Extended Binary64 :=
  if (str "week").isPrefixOf word then a * 7.0 else a

/-- `int(amount) if integral else amount`. -/
def quantityOf (integral : Bool) (a : Extended Binary64) : Except PyError Stated :=
  if integral then (toInt a).map .whole else .ok (.number a)

def PitchRule.value (rule : PitchRule) (found : Regex.Match CodePoint) :
    Except PyError (Option (Str × Stated × Option Str)) :=
  match rule.reader with
  | .duration key =>
      match amount (capturedText found 1 []) with
      | none => .ok none
      | some a => do
          let months ← toInt (durationIn (unitOf found "month") a)
          return some (key, .whole months, some (str "months"))
  | .days key =>
      match amount (capturedText found 1 []) with
      | none => .ok none
      | some a => do
          let word := unitOf found "day"
          let business := (str "business").isPrefixOf word
          let days ← toInt (daysIn word a)
          return some (key, .whole days, some (if business then str "business_days" else str "days"))
  | .quantity key integral =>
      match amount (capturedText found 1 []) with
      | none => .ok none
      | some a => do
          let stated ← quantityOf integral a
          return some (key, stated, rule.unit)
  | .flag key flag => .ok (some (key, .flag flag, none))
  | .vocabulary key canonical =>
      let raw := collapseDashes false (Unicode.lower (Str.strip found.text))
      .ok (some (key, .term ((canonical.lookup raw).getD raw), none))

/-- `_PitchRule.read`. -/
def PitchRule.read (rule : PitchRule) (found : Regex.Match CodePoint) :
    Except PyError (Option (Str × Stated × Option Str)) :=
  if assertsThisOffer found rule.kind rule.predicative then rule.value found else .ok none

def PitchRule.toRule (rule : PitchRule) : Rule where
  name := rule.name
  pattern := rule.pattern
  claimType := rule.claimType
  baseConfidence := rule.baseConfidence
  unit := rule.unit
  read := rule.read

def numberOrWord : Regex CodePoint :=
  Regex.several digit + Regex.anyOf (spelledNumbers.map fun entry => Regex.word entry.1)

def whiteOrDash : Regex CodePoint := .one fun c => c.isSpace || c = CodePoint.ofChar '-'

/-- `[^.;!?]{0,n}?` -/
def within (n : Nat) : Regex CodePoint := Regex.lazyUpTo (noneOf ".;!?") n

def yearOrMonth : Regex CodePoint := .group 2 (lit "year" + lit "month")

/-- `\d+(?:\.\d+)?` -/
def decimalNumber : Regex CodePoint := Regex.several digit * Regex.optional (lit "." * Regex.several digit)

def warrantyTerm : PitchRule where
  name := str "warranty_term"
  pattern := wordEdge * .group 1 numberOrWord * Regex.many whiteOrDash * yearOrMonth *
    Regex.optional (lit "s") * wordEdge * within 40 *
    whole (phrases ["warranty", "guarantee", "guaranteed", "cover", "coverage"])
  claimType := str "warranty"
  baseConfidence := 0.9
  kind := .commitment
  reader := .duration (str "warranty_months")

def warrantyTermTrailing : PitchRule where
  name := str "warranty_term_trailing"
  pattern := whole (phrases ["warranty", "guarantee", "coverage"]) * within 20 * wordEdge *
    .group 1 numberOrWord * Regex.many whiteOrDash * yearOrMonth * Regex.optional (lit "s") * wordEdge
  claimType := str "warranty"
  baseConfidence := 0.9
  kind := .commitment
  reader := .duration (str "warranty_months")

def boilerType : PitchRule where
  name := str "boiler_type"
  pattern := whole (Regex.anyOf
    [lit "heat" * Regex.optional whiteOrDash * phrase "exchanger?",
      lit "dual" * Regex.optional whiteOrDash * lit "boiler",
      lit "single" * Regex.optional whiteOrDash * lit "boiler",
      lit "thermo" * Regex.optional whiteOrDash * lit "block"])
  claimType := str "specifications"
  baseConfidence := 0.88
  reader := .vocabulary (str "boiler_type")
    [(str "heat exchange", str "heat exchange"), (str "heat exchanger", str "heat exchange"),
      (str "heatexchange", str "heat exchange"), (str "heatexchanger", str "heat exchange"),
      (str "dual boiler", str "dual boiler"), (str "dualboiler", str "dual boiler"),
      (str "single boiler", str "single boiler"), (str "singleboiler", str "single boiler"),
      (str "thermo block", str "thermoblock"), (str "thermoblock", str "thermoblock")]

def pumpPressure : PitchRule where
  name := str "pump_pressure"
  pattern := wordEdge * .group 1 decimalNumber * Regex.many white * Regex.optional (oneOf "- ") *
    phrase "bars?" * wordEdge
  claimType := str "specifications"
  baseConfidence := 0.88
  unit := some (str "bar")
  reader := .quantity (str "pump_pressure_bar") false

def waterTank : PitchRule where
  name := str "water_tank"
  pattern := wordEdge * .group 1 decimalNumber * Regex.many white * phrases ["l", "litres?", "liters?"] *
    wordEdge * within 20 * whole (phrases ["tank", "reservoir"])
  claimType := str "specifications"
  baseConfidence := 0.85
  unit := some (str "L")
  reader := .quantity (str "water_tank_l") false

def mainsVoltage : PitchRule where
  name := str "mains_voltage"
  pattern := wordEdge * .group 1 (digit * digit * Regex.optional digit) * Regex.many white *
    phrases ["v", "volts?"] * wordEdge
  claimType := str "specifications"
  baseConfidence := 0.8
  unit := some (str "V")
  reader := .quantity (str "voltage") false

def unitsLeft : PitchRule where
  name := str "units_left"
  pattern := wordEdge * lit "only" * Regex.several white * .group 1 (Regex.several digit) *
      Regex.several white * Regex.anyOf [phrases ["left", "remaining"],
        phrase "units?" * Regex.several white * phrases ["left", "remaining"]] * wordEdge +
    wordEdge * phrases ["just", "still"] * Regex.several white * .group 2 (Regex.several digit) *
      Regex.several white * phrases ["left", "remaining"] * wordEdge
  claimType := str "specifications"
  baseConfidence := 0.8
  reader := .quantity (str "units_left") true

def inStock : PitchRule where
  name := str "in_stock"
  pattern := Regex.anyOf (terms ["in stock", "available now", "ready to ship"])
  claimType := str "specifications"
  baseConfidence := 0.82
  predicative := true
  reader := .flag (str "in_stock") true

def outOfStock : PitchRule where
  name := str "out_of_stock"
  pattern := Regex.anyOf (terms ["out of stock", "sold out"] ++
    [whole (lit "back" * Regex.optional whiteOrDash * lit "ordered")])
  claimType := str "specifications"
  baseConfidence := 0.82
  predicative := true
  reader := .flag (str "in_stock") false

def businessDay : Regex CodePoint := lit "business" * Regex.several white * lit "day"

def dispatchWindow : PitchRule where
  name := str "dispatch_window"
  pattern := whole (phrases ["ship", "ships", "shipped", "shipping", "dispatch", "dispatches", "dispatched"]) *
    within 40 * wordEdge * lit "within" * Regex.several white * .group 1 (Regex.several digit) *
    Regex.several white * .group 2 (Regex.anyOf [businessDay, lit "day", lit "week"]) *
    Regex.optional (lit "s") * wordEdge
  claimType := str "dispatch_window"
  baseConfidence := 0.9
  kind := .commitment
  reader := .days (str "dispatch_window")

def returnWindow : PitchRule where
  name := str "return_window"
  pattern := term "returns?" * within 40 * whole (phrases ["within", "for", "up to"]) *
    Regex.several white * .group 1 (Regex.several digit) * Regex.several white *
    .group 2 (Regex.anyOf [businessDay, lit "day", lit "week", lit "month"]) *
    Regex.optional (lit "s") * wordEdge
  claimType := str "return_policy"
  baseConfidence := 0.9
  kind := .commitment
  reader := .days (str "return_window_days")

def pitchRules : List PitchRule :=
  [warrantyTerm, warrantyTermTrailing, boilerType, pumpPressure, waterTank, mainsVoltage, unitsLeft, inStock,
    outOfStock, dispatchWindow, returnWindow]

/-! ## Claims -/

def keyAliases : List (Str × List Str) :=
  [(str "warranty_months", ["warranty_months", "warranty", "warranty_duration_months"].map str),
    (str "boiler_type", ["boiler_type", "boiler"].map str),
    (str "pump_pressure_bar", ["pump_pressure_bar", "pump_pressure"].map str),
    (str "water_tank_l", ["water_tank_l", "water_tank_litres", "tank_capacity_l"].map str),
    (str "voltage", ["voltage", "mains_voltage"].map str),
    (str "units_left", ["units_left", "inventory_units"].map str),
    (str "in_stock", ["in_stock"].map str),
    (str "dispatch_window", ["dispatch_window", "dispatch_window_days", "shipping_speed"].map str),
    (str "return_window_days", ["return_window_days", "return_policy", "returns_window_days"].map str)]

/-- The spelling that the vocabulary has for the fact, else its own. -/
def resolveKey (vocabulary : List Str) (key : Str) : Str :=
  (((keyAliases.lookup key).getD [key]).find? fun candidate => candidate ∈ vocabulary).getD key

def pitchRefFor (storeId : Str) (auctionId : Option Str) : Str :=
  str "pitch:" ++ ((auctionId.getD []).strip.or (str "auction")) ++ str ":" ++ storeId

def sellerAsserted : Str := str "seller_asserted"

def sellerAssertedAuthorityRank : Int := 5

def pitchExtractorVersion : Str := str "pitch_decomposition@1.2.0"

def maxPitchChars : Nat := 20000

def maxPitchClaims : Nat := 64

structure PitchCall where
  storeId : Str := []
  auctionId : Option Str := none
  pitchRef : Option Str := none
  vocabulary : List Str := []
  observedAt : Option Str := none
  authorityRank : Int := sellerAssertedAuthorityRank

structure PitchProvenance where
  source : Str
  ref : Str
  authorityRank : Int
  extractorVersion : Str
  observedAt : Option Str
  deriving DecidableEq

structure PitchClaim where
  key : Str
  claimType : Str
  value : Stated
  unit : Option Str
  confidence : ℚ
  evidence : Str
  pitchRef : Str
  start : Nat
  stop : Nat
  provenance : PitchProvenance
  deriving DecidableEq

def PitchCall.ref (call : PitchCall) : Str :=
  (call.pitchRef.getD []).or (pitchRefFor call.storeId call.auctionId)

def claimOf (call : PitchCall) (reading : TextReading) : PitchClaim :=
  let key := resolveKey call.vocabulary reading.key
  { key
    claimType := reading.claimType
    value := reading.value
    unit := reading.unit
    confidence := reading.confidence
    evidence := reading.evidence
    pitchRef := call.ref
    start := reading.span.1
    stop := reading.span.2
    provenance :=
      { source := sellerAsserted
        ref := call.ref ++ str "#" ++ key
        authorityRank := call.authorityRank
        extractorVersion := pitchExtractorVersion
        observedAt := call.observedAt } }

/-- A flag, or a term of a vocabulary: two of them on one key exclude each other. -/
def Stated.exclusive : Stated → Bool
  | .flag _ | .term _ => true
  | .whole _ | .number _ => false

/-- `_drop_self_contradicting_readings`. -/
def dropSelfContradicting (readings : List TextReading) : List TextReading :=
  readings.filter fun reading =>
    !(reading.value.exclusive &&
      readings.any fun other => other.value.exclusive && other.key = reading.key && other.value ≠ reading.value)

def commitments (text : Str) : Except PyError (List TextReading) := do
  return (← scan text (pitchRules.map PitchRule.toRule)).filter fun reading =>
    confidenceFloor ≤ reading.confidence

def readsBefore (a b : TextReading) : Bool :=
  a.span.1 < b.span.1 || (a.span.1 = b.span.1 && Str.le a.key b.key)

/-- `decompose_pitch`, of a text. -/
def decomposePitch (call : PitchCall) (text : Str) : Except PyError (List PitchClaim) :=
  if text.strip.isEmpty ∨ maxPitchChars < text.length then .ok []
  else do
    let readings := dropSelfContradicting (← commitments text)
    return ((readings.mergeSort readsBefore).take maxPitchClaims).map (claimOf call)

end Prose
end Proxyshop.Verification
