import Proxyshop.Verification.Confirmation
import Proxyshop.Verification.Reuse

/-!
# Units as notation

A quantity can be claimed bare, with its unit, or converted; and a catalogue can state the unit of its
numbers in a field, or in the text of each. The verdicts are compared, in exact arithmetic.
-/

namespace Proxyshop.Verification

open Python Numbers Contracts Structures

/-! ## A number followed by a blank -/

section Leading

variable [Folding]

theorem isDecimal_blank : NumberText.isDecimal blank = false := by
  unfold NumberText.isDecimal Str.decimal?
  rw [if_pos (by decide)]
  rfl

theorem leadingDigits_append (s rest : Str) :
    leadingDigits (s ++ blank :: rest) = ((leadingDigits s).1, (leadingDigits s).2 ++ blank :: rest) := by
  induction s with
  | nil => simp [leadingDigits, isDecimal_blank]
  | cons c s ih =>
      simp only [leadingDigits, Prod.mk.injEq] at ih
      unfold leadingDigits
      cases decimal : NumberText.isDecimal c with
      | true => simp [decimal, ih.1, ih.2]
      | false => simp [decimal]

omit [Folding] in
theorem leadingSign_append (s rest : Str) :
    leadingSign (s ++ blank :: rest) = ((leadingSign s).1, (leadingSign s).2 ++ blank :: rest) := by
  cases s with
  | nil => rfl
  | cons c s =>
      simp only [List.cons_append, leadingSign]
      split
      · rfl
      · rfl

theorem leadingExponent_append (s rest : Str) :
    leadingExponent (s ++ blank :: rest) =
      ((leadingExponent s).1, (leadingExponent s).2 ++ blank :: rest) := by
  cases s with
  | nil =>
      simp only [List.nil_append, leadingExponent]
      rw [if_neg]
      rintro ⟨mark, -⟩
      revert mark
      decide
  | cons mark s =>
      simp only [List.cons_append, leadingExponent, leadingSign_append, leadingDigits_append]
      split
      · rfl
      · rfl

theorem leadingNumber_append {s number after : Str} (rest : Str)
    (read : leadingNumber s = some (number, after)) :
    leadingNumber (s ++ blank :: rest) = some (number, after ++ blank :: rest) := by
  have point_next (s : Str) : (s ++ blank :: rest).head? = some point ↔ s.head? = some point := by
    cases s with
    | nil =>
        refine iff_of_false (fun same => ?_) nofun
        exact absurd (Option.some.inj same) (by decide)
    | cons c s => rfl
  unfold leadingNumber at read ⊢
  simp only [leadingSign_append, leadingDigits_append, point_next] at read ⊢
  by_cases stop : (leadingDigits (leadingSign s).2).2.head? = some point
  · have drop : ((leadingDigits (leadingSign s).2).2 ++ blank :: rest).drop 1 =
        (leadingDigits (leadingSign s).2).2.drop 1 ++ blank :: rest := by
      cases body : (leadingDigits (leadingSign s).2).2 with
      | nil => simp [body] at stop
      | cons c tail => rfl
    simp only [if_pos stop, drop, leadingDigits_append, leadingExponent_append] at read ⊢
    split at read
    · cases read
    · rename_i filled
      rw [if_neg filled]
      cases read
      rfl
  · simp only [if_neg stop, leadingExponent_append] at read ⊢
    split at read
    · cases read
    · rename_i filled
      rw [if_neg filled]
      cases read
      rfl

end Leading

/-! ## Blanks -/

/-- Folding the case of a text neither makes blanks nor loses them. -/
class BlankKept [Folding] : Prop where
  casefold_blank : ∀ s, blank ∈ Folding.casefold s ↔ blank ∈ s

theorem isSpace_blank : blank.isSpace = true := rfl

theorem dropWhile_append_solid {p : CodePoint → Bool} {c : CodePoint} (solid : p c = false) (s rest : Str) :
    (s ++ c :: rest).dropWhile p = s.dropWhile p ++ c :: rest := by
  induction s with
  | nil => simp [solid]
  | cons d s ih =>
      rw [List.cons_append, List.dropWhile_cons, List.dropWhile_cons, ih]
      cases p d <;> rfl

theorem rdropWhile_append_solid {p : CodePoint → Bool} {c : CodePoint} (solid : p c = false) (s rest : Str) :
    (s ++ c :: rest).rdropWhile p = s ++ c :: rest.rdropWhile p := by
  simp [List.rdropWhile, dropWhile_append_solid solid]

theorem collapse_solid {s : Str} (solid : ∀ c ∈ s, c.isSpace = false) (after : Bool) :
    collapse after s = s := by
  induction s generalizing after with
  | nil => cases after <;> rfl
  | cons c s ih =>
      obtain ⟨head, tail⟩ := List.forall_mem_cons.mp solid
      rw [collapse, head, ih tail false]
      rfl

theorem blank_mem_collapse {s : Str} (solid : ∀ c ∈ s, c.isSpace = false) (rest : Str) :
    blank ∈ collapse false (s ++ blank :: rest) := by
  induction s with
  | nil => exact List.mem_cons_self
  | cons c s ih =>
      obtain ⟨head, tail⟩ := List.forall_mem_cons.mp solid
      rw [List.cons_append, collapse, head]
      exact List.mem_cons_of_mem c (ih tail)

theorem blank_mem_normal {s rest : Str} (solid : ∀ c ∈ s, c.isSpace = false) (nonempty : s ≠ [])
    (stated : rest.strip ≠ []) : blank ∈ collapse false (s ++ blank :: rest).strip := by
  obtain ⟨c, inside, visible⟩ : ∃ c ∈ rest, c.isSpace = false := by
    by_contra none
    push Not at none
    refine stated ?_
    rw [Str.strip, List.dropWhile_eq_nil_iff.mpr fun c inside => Bool.not_eq_false _ ▸ none c inside]
    rfl
  obtain ⟨before, after, rfl⟩ := List.append_of_mem inside
  have front : (s ++ blank :: (before ++ c :: after)).dropWhile CodePoint.isSpace =
      s ++ blank :: (before ++ c :: after) := by
    cases s with
    | nil => exact absurd rfl nonempty
    | cons d s => exact List.dropWhile_cons_of_neg (by simp [solid d List.mem_cons_self])
  have kept : (s ++ blank :: (before ++ c :: after)).strip =
      s ++ blank :: (before ++ c :: after.rdropWhile CodePoint.isSpace) := by
    have split : s ++ blank :: (before ++ c :: after) = (s ++ blank :: before) ++ c :: after := by simp
    rw [Str.strip, front, split, rdropWhile_append_solid visible]
    simp
  rw [kept]
  exact blank_mem_collapse solid _

theorem newline_not_mem_strip {s : Str} (line : newline ∉ s) : newline ∉ s.strip := fun inside =>
  line ((List.dropWhile_sublist _).subset ((List.rdropWhile_prefix _ _).subset inside))

theorem strip_blank_cons (s : Str) : Str.strip (blank :: s) = s.strip := by
  rw [Str.strip, List.dropWhile_cons_of_pos isSpace_blank]
  rfl

/-! ## What a claim and a catalogue write -/

section Written

variable [Spelling ℚ] [Folding]

structure Numeral where
  value : ℚ
  literal : Literal ℚ
  text : Str
  measured : literal.toDouble = .ok (.finite value)
  printable : Wire.writable (.number literal) = true
  printed : ∀ c ∈ Spelling.text (Json.number literal : Wire ℚ), c.isSpace = false
  whole : leadingNumber text = some (text, [])
  reads : NumberText.readFloat? text = some (.finite value : Extended ℚ)
  solid : ∀ c ∈ text, c.isSpace = false

structure UnitName where
  text : Str
  family : Family
  factor : ℚ
  known : unitFamily (.string text : Wire ℚ) = .ok (some (family, .finite factor))
  line : newline ∉ text
  stated : text.strip ≠ []

def withUnit (x : Numeral) (u : UnitName) : Wire ℚ := .string (x.text ++ blank :: u.text)

/-- What the comparators read of a value that writes a quantity, with its unit or bare. -/
structure Reads (value : ℚ) (u : UnitName) (stated : Bool) (v : Wire ℚ) : Prop where
  written : v.writable = true
  valued : carriesNoValue v = false ∧ isUndefinedNumber v = false
  plain : attributeValue v = (v, .null)
  present : v.isNull = false
  quantity : ∃ n unit, parseQuantity v = .ok (some ⟨.finite n, unit⟩) ∧
    if stated then unit.isNull = false ∧ ∃ f, unitFamily unit = .ok (some (u.family, .finite f)) ∧
      n * f = value * u.factor
    else unit = .null ∧ n = value
  normal : ∃ s, normalizeText v = .ok s ∧ (blank ∈ s ↔ stated = true)

theorem Numeral.nonempty (x : Numeral) : x.text ≠ [] := by
  intro empty
  have whole := x.whole
  rw [empty] at whole
  cases whole

variable [BlankKept]

omit [BlankKept] in
theorem Numeral.parse_text (x : Numeral) :
    parseQuantity (.string x.text : Wire ℚ) = .ok (some ⟨.finite x.value, .null⟩) := by
  have read : (quantityOfText x.text : Option (Quantity ℚ)) = some ⟨.finite x.value, .null⟩ := by
    have front : x.text.dropWhile CodePoint.isSpace = x.text := by
      rw [List.dropWhile_eq_self_iff]
      intro nonempty
      simp [x.solid _ (List.getElem_mem nonempty)]
    rw [quantityOfText, front, x.whole]
    change ((NumberText.readFloat? x.text : Option (Extended ℚ)).bind fun number => _) = _
    rw [x.reads]
    rfl
  exact congrArg Except.ok read

omit [BlankKept] in
theorem parse_withUnit (x : Numeral) (u : UnitName) :
    parseQuantity (withUnit x u) = .ok (some ⟨.finite x.value, .string u.text.strip⟩) := by
  have read : (quantityOfText (x.text ++ blank :: u.text) : Option (Quantity ℚ)) =
      some ⟨.finite x.value, .string u.text.strip⟩ := by
    have front : (x.text ++ blank :: u.text).dropWhile CodePoint.isSpace = x.text ++ blank :: u.text := by
      cases body : x.text with
      | nil => exact absurd body x.nonempty
      | cons c s =>
          exact List.dropWhile_cons_of_neg (by simp [x.solid c (body ▸ List.mem_cons_self)])
    rw [quantityOfText, front, leadingNumber_append u.text x.whole]
    change ((NumberText.readFloat? x.text : Option (Extended ℚ)).bind fun number =>
      if newline ∈ Str.strip (blank :: u.text) ∨ ¬ number.isFinite then none
      else some (⟨number, if (Str.strip (blank :: u.text)).isEmpty then .null
        else .string (Str.strip (blank :: u.text))⟩ : Quantity ℚ)) = _
    rw [x.reads, strip_blank_cons]
    change (if newline ∈ u.text.strip ∨ ¬ true = true then none
      else some (⟨.finite x.value, if u.text.strip.isEmpty then .null else .string u.text.strip⟩ :
        Quantity ℚ)) = _
    rw [if_neg (by simp [newline_not_mem_strip u.line]), if_neg (by simp [u.stated])]
  exact congrArg Except.ok read

omit [BlankKept] in
theorem unitFamily_strip (text : Str) :
    unitFamily (.string text.strip : Wire ℚ) = unitFamily (.string text) := by
  change (do
    let text ← (do return Folding.casefold (collapse false text.strip.strip) : Except PyError Str)
    let text := text.filter (· ≠ point)
    return if text.isEmpty then none else unitNamed text) = _
  rw [Str.strip_strip]
  rfl

theorem solid_normal {v : Wire ℚ} {s : Str} (written : textOf v = .ok s)
    (solid : ∀ c ∈ s, c.isSpace = false) : ∃ t, normalizeText v = .ok t ∧ (blank ∈ t ↔ false = true) := by
  refine ⟨Folding.casefold s, ?_, ?_⟩
  · rw [normalizeText, written]
    change Except.ok (Folding.casefold (collapse false s.strip)) = _
    rw [Str.strip_eq_self solid, collapse_solid solid]
  · rw [BlankKept.casefold_blank]
    exact iff_of_false (fun inside => absurd (solid blank inside) (by decide)) nofun

theorem reads_number (x : Numeral) (u : UnitName) : Reads x.value u false (.number x.literal) where
  written := x.printable
  valued := by
    refine ⟨rfl, ?_⟩
    have measured := x.measured
    cases literal : x.literal with
    | integer n => rfl
    | double d =>
        rw [literal] at measured
        rw [Except.ok.inj measured]
        rfl
  plain := rfl
  present := rfl
  quantity := by
    refine ⟨x.value, .null, ?_, rfl, rfl⟩
    rw [parseQuantity, x.measured]
    rfl
  normal := by
    refine solid_normal ?_ x.printed
    exact if_pos x.printable

omit [BlankKept] in
theorem Numeral.strip_append (x : Numeral) (rest : Str) : Str.strip (x.text ++ rest) ≠ [] := by
  cases body : x.text with
  | nil => exact absurd body x.nonempty
  | cons c s =>
      have visible := x.solid c (body ▸ List.mem_cons_self)
      rw [List.cons_append, Str.strip, List.dropWhile_cons_of_neg (by simp [visible])]
      exact rdropWhile_append_solid visible [] (s ++ rest) ▸ List.cons_ne_nil _ _

theorem reads_text (x : Numeral) (u : UnitName) : Reads x.value u false (.string x.text) where
  written := Wire.writable_string _
  valued := by
    have visible := x.strip_append []
    rw [List.append_nil] at visible
    exact ⟨by simpa [carriesNoValue] using visible, rfl⟩
  plain := rfl
  present := rfl
  quantity := ⟨x.value, .null, x.parse_text, rfl, rfl⟩
  normal := solid_normal rfl x.solid

theorem reads_withUnit {x x' : Numeral} {u u' : UnitName} (family : u'.family = u.family)
    (same : x'.value * u'.factor = x.value * u.factor) : Reads x.value u true (withUnit x' u') where
  written := Wire.writable_string _
  valued := by
    have visible := x'.strip_append (blank :: u'.text)
    exact ⟨by simpa [carriesNoValue, withUnit] using visible, rfl⟩
  plain := rfl
  present := rfl
  quantity := by
    refine ⟨x'.value, .string u'.text.strip, parse_withUnit x' u', rfl, u'.factor, ?_, same⟩
    rw [unitFamily_strip, u'.known, family]
  normal := by
    refine ⟨Folding.casefold (collapse false (x'.text ++ blank :: u'.text).strip), rfl, ?_⟩
    rw [BlankKept.casefold_blank]
    exact iff_of_true (blank_mem_normal x'.solid x'.nonempty u'.stated) rfl

/-! ## The comparisons -/

/-- The number of a quantity that is compared where both sides state their unit, or neither. -/
def scaled (u : UnitName) (stated : Bool) (value : ℚ) : Extended ℚ :=
  .finite (if stated then value * u.factor else value)

/-- Members are equal where they are written alike, and nearly equal so. -/
def matchesAs (u : UnitName) (stated stated' : Bool) (q x : ℚ) : Bool :=
  stated == stated' && nearlyEqual (scaled u stated q) (scaled u stated x)

omit [BlankKept] in
theorem Reads.based {value : ℚ} {u : UnitName} {stated : Bool} {v : Wire ℚ} (reads : Reads value u stated v) :
    ∃ n unit, parseQuantity v = .ok (some ⟨.finite n, unit⟩) ∧ unit.isNull = !stated ∧
      toBaseUnit ⟨.finite n, unit⟩ =
        .ok (scaled u stated value, if stated then some u.family else none) := by
  obtain ⟨n, unit, parsed, quantity⟩ := reads.quantity
  refine ⟨n, unit, parsed, ?_⟩
  cases stated with
  | true =>
      obtain ⟨present, f, known, same⟩ := quantity
      refine ⟨present, ?_⟩
      rw [toBaseUnit_eq known]
      simp [scaled, same]
  | false =>
      obtain ⟨rfl, rfl⟩ := quantity
      exact ⟨rfl, rfl⟩

omit [BlankKept] in
theorem memberMatches_reads {q x : ℚ} {u : UnitName} {stated stated' : Bool} {v w : Wire ℚ}
    (claim : Reads q u stated v) (member : Reads x u stated' w) :
    memberMatches v w = .ok (matchesAs u stated stated' q x) := by
  obtain ⟨n, unit, parsed, null, based⟩ := claim.based
  obtain ⟨n', unit', parsed', null', based'⟩ := member.based
  obtain ⟨s, read, blanks⟩ := claim.normal
  obtain ⟨s', read', blanks'⟩ := member.normal
  have own (unit : Wire ℚ) : (if unit.isNull then .null else unit) = unit := by
    cases unit <;> rfl
  unfold memberMatches
  rw [member.plain]
  dsimp only
  rw [parsed, parsed']
  change (do
    let (claimedBase, claimedFamily) ← toBaseUnit ⟨.finite n, if unit.isNull then .null else unit⟩
    let (memberBase, memberFamily) ← toBaseUnit ⟨.finite n', if unit'.isNull then .null else unit'⟩
    if claimedFamily = memberFamily then
      return decide ((claimedBase - memberBase).magnitude ≤ 1e-9 * scaleOf claimedBase memberBase 1.0)
    else do return decide ((← normalizeText v) = (← normalizeText w))) = _
  rw [own, own, based, based', read, read']
  change (if _ = _ then _ else Except.ok (decide (s = s'))) = _
  cases stated with
  | true =>
      cases stated' with
      | true =>
          rw [if_pos rfl]
          rfl
      | false =>
          have other : s ≠ s' := fun same => nomatch blanks'.mp (same ▸ blanks.mpr rfl)
          simp [matchesAs, other]
  | false =>
      cases stated' with
      | true =>
          have other : s ≠ s' := fun same => nomatch blanks.mp (same ▸ blanks'.mpr rfl)
          simp [matchesAs, other]
      | false => rfl

/-- What a catalogue records: one number, or a list of them. -/
inductive Content
  | one (x : Numeral)
  | many (xs : List Numeral)

def Content.numerals : Content → List Numeral
  | one x => [x]
  | many xs => xs

/-- A number in a catalogue that states the unit in its text, or in a field. -/
def Numeral.entry (u : UnitName) (stated : Bool) (x : Numeral) : Wire ℚ :=
  if stated then withUnit x u else .number x.literal

def Content.value (u : UnitName) (stated : Bool) : Content → Wire ℚ
  | one x => x.entry u stated
  | many xs => .array (xs.map (Numeral.entry u stated))

/-- The attribute that states the unit in its texts, or in its field. -/
def attributeOf (u : UnitName) (content : Content) (stated : Bool) : Wire ℚ :=
  if stated then .object [(str "value", content.value u true)]
  else .object [(str "value", content.value u false), (str "unit", .string u.text)]

def verdictOf (claimed recorded key op : Wire ℚ) : Except PyError Status :=
  (compare claimed recorded key op).map Outcome.status

theorem entry_reads (x : Numeral) (u : UnitName) (stated : Bool) :
    Reads x.value u stated (x.entry u stated) := by
  cases stated with
  | true => exact reads_withUnit rfl rfl
  | false => exact reads_number x u

def foundStatus (found empty : Bool) : Status :=
  if found then .verified else if empty then .unsupported else .contradicted

theorem anyM_reads {q : ℚ} {u : UnitName} {stated : Bool} {v : Wire ℚ} (claim : Reads q u stated v)
    (xs : List Numeral) (stated' : Bool) :
    (xs.map (Numeral.entry u stated')).anyM (memberMatches v) =
      .ok (xs.any fun x => matchesAs u stated stated' q x.value) := by
  induction xs with
  | nil => rfl
  | cons x xs ih =>
      rw [List.map_cons, List.anyM, memberMatches_reads claim (entry_reads x u stated'), List.any_cons]
      cases answer : matchesAs u stated stated' q x.value with
      | true => rfl
      | false => exact ih

omit [BlankKept] in
theorem Content.members_value (u : UnitName) (stated : Bool) (content : Content) :
    membersOf (content.value u stated) = content.numerals.map (Numeral.entry u stated) ∧
      (content.value u stated).isNull = false := by
  cases content with
  | one x => cases stated <;> exact ⟨rfl, rfl⟩
  | many xs => exact ⟨rfl, rfl⟩

theorem compareContains_reads {q : ℚ} {u : UnitName} {stated : Bool} {v : Wire ℚ} (claim : Reads q u stated v)
    (content : Content) (stated' : Bool) :
    (compareContains v (content.value u stated')).map Outcome.status =
      .ok (foundStatus (content.numerals.any fun x => matchesAs u stated stated' q x.value)
        content.numerals.isEmpty) := by
  obtain ⟨members, present⟩ := content.members_value u stated'
  have shown : reprOf v = .ok (Spelling.repr v) := if_pos claim.written
  unfold compareContains
  rw [present, members, if_neg Bool.false_ne_true]
  dsimp only
  rw [anyM_reads claim, shown, List.isEmpty_map]
  cases (content.numerals.any fun x => matchesAs u stated stated' q x.value) with
  | true => rfl
  | false =>
      cases content.numerals.isEmpty with
      | true => rfl
      | false => rfl

omit [BlankKept] in
theorem Reads.inKnownUnit {q : ℚ} {u : UnitName} {stated : Bool} {v : Wire ℚ} (reads : Reads q u stated v) :
    ∃ parsed, parseQuantity v = .ok parsed ∧ Verification.inKnownUnit parsed = .ok true := by
  obtain ⟨n, unit, parsed, quantity⟩ := reads.quantity
  refine ⟨_, parsed, ?_⟩
  cases stated with
  | true =>
      obtain ⟨present, f, known, -⟩ := quantity
      change (do return unit.isNull || (← unitFamily unit).isSome : Except PyError Bool) = _
      rw [known, present]
      rfl
  | false =>
      obtain ⟨rfl, -⟩ := quantity
      rfl

theorem compareMultivalued_reads {q : ℚ} {u : UnitName} {stated : Bool} {v : Wire ℚ}
    (claim : Reads q u stated v) (xs : List Numeral) (stated' : Bool) :
    (compareMultivalued v (xs.map (Numeral.entry u stated'))).map Outcome.status =
      .ok (foundStatus (xs.any fun x => matchesAs u stated stated' q x.value) xs.isEmpty) := by
  have domain : xs.isEmpty = false → quantityDomain (xs.map (Numeral.entry u stated')) = .ok true := by
    intro filled
    unfold quantityDomain
    rw [List.isEmpty_map, filled]
    refine allM_true fun w member => ?_
    obtain ⟨x, -, rfl⟩ := List.mem_map.mp member
    have entry := entry_reads x u stated'
    obtain ⟨parsed, read, known⟩ := entry.inKnownUnit
    rw [entry.plain, read]
    exact known
  have reads : claimReadsInDomain v (xs.map (Numeral.entry u stated')) true = .ok true := by
    obtain ⟨parsed, read, known⟩ := claim.inKnownUnit
    rw [claimReadsInDomain, if_pos rfl, read]
    exact known
  unfold compareMultivalued
  rw [anyM_reads claim, List.isEmpty_map]
  cases (xs.any fun x => matchesAs u stated stated' q x.value) with
  | true => rfl
  | false =>
      cases filled : xs.isEmpty with
      | true => rfl
      | false =>
          rw [domain filled]
          change (do
            if ← claimReadsInDomain v (xs.map (Numeral.entry u stated')) true then _ else _ :
              Except PyError (Outcome ℚ)).map Outcome.status = _
          rw [reads]
          rfl

def fieldUnit (u : UnitName) (stated : Bool) : Wire ℚ := if stated then .null else .string u.text

omit [BlankKept] in
theorem entry_recorded (x : Numeral) (u : UnitName) (stated : Bool) :
    ∃ unit, parseQuantity (x.entry u stated) = .ok (some ⟨.finite x.value, unit⟩) ∧
      unitFamily (if unit.isNull then fieldUnit u stated else unit) =
        .ok (some (u.family, .finite u.factor)) := by
  cases stated with
  | true => exact ⟨_, parse_withUnit x u, (unitFamily_strip u.text).trans u.known⟩
  | false =>
      refine ⟨.null, ?_, u.known⟩
      change parseQuantity (.number x.literal) = _
      rw [parseQuantity, x.measured]
      rfl

def judgedStatus (key : Wire ℚ) (a b : Extended ℚ) : Except PyError Status :=
  (compareNumeric.judged key .null a b).map Outcome.status

omit [BlankKept] in
theorem judged_status (key observed : Wire ℚ) (a b : Extended ℚ) :
    (compareNumeric.judged key observed a b).map Outcome.status = judgedStatus key a b := by
  unfold judgedStatus compareNumeric.judged
  split
  · rfl
  · cases toleranceFor key with
    | error e => rfl
    | ok tolerance =>
        change Except.map _ (if _ then _ else _) = Except.map _ (if _ then _ else _)
        split
        · rfl
        · rfl

omit [BlankKept] in
theorem compareScalar_reads {q : ℚ} {u : UnitName} {stated : Bool} {v : Wire ℚ} (claim : Reads q u stated v)
    (x : Numeral) (stated' : Bool) (key : Wire ℚ) :
    (compareScalar v (x.entry u stated') (fieldUnit u stated') key).map Outcome.status =
      judgedStatus key (scaled u true q) (scaled u true x.value) := by
  obtain ⟨n, unit, parsed, quantity⟩ := claim.quantity
  obtain ⟨unit', parsed', known'⟩ := entry_recorded x u stated'
  have scales : (Extended.finite x.value : Extended ℚ) * .finite u.factor = scaled u true x.value := rfl
  unfold compareScalar
  rw [parsed, parsed']
  change (do
    if ← numericallyComparable unit (if unit'.isNull then fieldUnit u stated' else unit') then
      compareNumeric ⟨.finite n, unit⟩ ⟨.finite x.value, if unit'.isNull then fieldUnit u stated' else unit'⟩
        key (x.entry u stated')
    else _ : Except PyError (Outcome ℚ)).map Outcome.status = _
  generalize (if unit'.isNull then fieldUnit u stated' else unit') = ku at known'
  have comparable : numericallyComparable unit ku = .ok true := by
    unfold numericallyComparable
    rw [known']
    cases stated with
    | true =>
        obtain ⟨present, f, known, -⟩ := quantity
        rw [known, present]
        cases ku.isNull with
        | true => rfl
        | false => rfl
    | false =>
        obtain ⟨rfl, -⟩ := quantity
        cases ku.isNull with
        | true => rfl
        | false => rfl
  rw [comparable]
  change (compareNumeric ⟨.finite n, unit⟩ ⟨.finite x.value, ku⟩ key (x.entry u stated')).map Outcome.status = _
  rw [← judged_status key (x.entry u stated')]
  unfold compareNumeric
  rw [toBaseUnit_eq known']
  cases stated with
  | true =>
      obtain ⟨present, f, known, same⟩ := quantity
      rw [toBaseUnit_eq known]
      change (if u.family ≠ u.family then _ else _ : Except PyError (Outcome ℚ)).map _ = _
      rw [if_neg (not_not.mpr rfl)]
      have scales' : (Extended.finite n : Extended ℚ) * .finite f = scaled u true q := by
        rw [Extended.exact_mul, same]
        rfl
      change Except.map _ (compareNumeric.judged _ _ (Extended.finite n * .finite f) _) = _
      rw [scales']
      rfl
  | false =>
      obtain ⟨rfl, rfl⟩ := quantity
      change Except.map _ ((do
        compareNumeric.judged key (x.entry u stated') (← toBaseUnit ⟨.finite n, ku⟩).1
          (.finite x.value * .finite u.factor) : Except PyError (Outcome ℚ))) = _
      rw [toBaseUnit_eq known']
      rfl

/-! ## The law -/

/-- The values that claim the quantity: bare, or in a unit of its family. -/
inductive ClaimWritten (q : Numeral) (u : UnitName) : Bool → Wire ℚ → Prop
  | number : ClaimWritten q u false (.number q.literal)
  | text : ClaimWritten q u false (.string q.text)
  | converted (q' : Numeral) (u' : UnitName) : u'.family = u.family →
      q'.value * u'.factor = q.value * u.factor → ClaimWritten q u true (withUnit q' u')

/-- However the claim and the catalogue write the quantities, the verdict is the same. -/
def UnitsAreNotation (q : Numeral) (u : UnitName) (content : Content) (key op : Wire ℚ) : Prop :=
  ∀ inClaim inClaim' inText inText' v v', ClaimWritten q u inClaim v → ClaimWritten q u inClaim' v' →
    verdictOf v (attributeOf u content inText) key op = verdictOf v' (attributeOf u content inText') key op

def Searched (op : Wire ℚ) (content : Content) : Prop :=
  ∃ operator, operatorOf op = .ok operator ∧ (operator ∈ containmentOperators ∨ ∃ xs, content = .many xs)

/-- No recorded number nearly equals the claimed one, neither as it is written nor in base units. -/
def NoneNear (q : Numeral) (u : UnitName) (content : Content) : Prop :=
  ∀ x ∈ content.numerals, nearlyEqual (scaled u false q.value) (scaled u false x.value) = false ∧
    nearlyEqual (scaled u true q.value) (scaled u true x.value) = false

theorem ClaimWritten.reads {q : Numeral} {u : UnitName} {stated : Bool} {v : Wire ℚ}
    (written : ClaimWritten q u stated v) : Reads q.value u stated v := by
  cases written with
  | number => exact reads_number q u
  | text => exact reads_text q u
  | converted q' u' family same => exact reads_withUnit family same

omit [BlankKept] in
theorem attributeValue_attributeOf (u : UnitName) (content : Content) (stated : Bool) :
    attributeValue (attributeOf u content stated) = (content.value u stated, fieldUnit u stated) := by
  cases stated <;> rfl

omit [BlankKept] in
theorem verdictOf_eq {op : Wire ℚ} {operator : Str} (operates : operatorOf op = .ok operator) (v key : Wire ℚ)
    (u : UnitName) (content : Content) (stated : Bool) :
    verdictOf v (attributeOf u content stated) key op =
      (if operator ∈ containmentOperators then compareContains v (content.value u stated)
        else compareEqual v (content.value u stated) (fieldUnit u stated) key).map Outcome.status := by
  rw [verdictOf, compare, attributeValue_attributeOf, operates]
  rfl

theorem compareEqual_many {q : ℚ} {u : UnitName} {stated : Bool} {v : Wire ℚ} (claim : Reads q u stated v)
    (xs : List Numeral) (stated' : Bool) (unit key : Wire ℚ) :
    (compareEqual v ((Content.many xs).value u stated') unit key).map Outcome.status =
      .ok (foundStatus (xs.any fun x => matchesAs u stated stated' q x.value) xs.isEmpty) := by
  unfold compareEqual
  rw [claim.valued.1, claim.valued.2]
  exact compareMultivalued_reads claim xs stated'

omit [BlankKept] in
theorem compareEqual_one {q : ℚ} {u : UnitName} {stated : Bool} {v : Wire ℚ} (claim : Reads q u stated v)
    (x : Numeral) (stated' : Bool) (key : Wire ℚ) :
    (compareEqual v ((Content.one x).value u stated') (fieldUnit u stated') key).map Outcome.status =
      judgedStatus key (scaled u true q) (scaled u true x.value) := by
  rw [← compareScalar_reads claim x stated' key]
  unfold compareEqual
  rw [claim.valued.1, claim.valued.2]
  cases stated' with
  | true => rfl
  | false => rfl

theorem verdictOf_searched {q : Numeral} {u : UnitName} {content : Content} {key op v : Wire ℚ} {stated : Bool}
    (searched : Searched op content) (written : ClaimWritten q u stated v) (stated' : Bool) :
    verdictOf v (attributeOf u content stated') key op =
      .ok (foundStatus (content.numerals.any fun x => matchesAs u stated stated' q.value x.value)
        content.numerals.isEmpty) := by
  obtain ⟨operator, operates, search⟩ := searched
  rw [verdictOf_eq operates]
  split
  · exact compareContains_reads written.reads content stated'
  · rename_i equality
    obtain contained | ⟨xs, rfl⟩ := search
    · exact absurd contained equality
    · exact compareEqual_many written.reads xs stated' _ key

/-- Units are notation if and only if nothing is searched for, or nothing is near. -/
theorem units_are_notation_iff (q : Numeral) (u : UnitName) (content : Content) (key op : Wire ℚ) :
    UnitsAreNotation q u content key op ↔ (Searched op content → NoneNear q u content) := by
  constructor
  · intro law searched x inside
    have apart {stated : Bool} {v v' : Wire ℚ} (written : ClaimWritten q u stated v)
        (written' : ClaimWritten q u (!stated) v') :
        nearlyEqual (scaled u stated q.value) (scaled u stated x.value) = false := by
      by_contra near
      have same := law stated (!stated) stated stated v v' written written'
      rw [verdictOf_searched searched written, verdictOf_searched searched written'] at same
      have found : (content.numerals.any fun x => matchesAs u stated stated q.value x.value) = true :=
        List.any_eq_true.mpr ⟨x, inside, by simp [matchesAs, Bool.eq_true_of_not_eq_false near]⟩
      have missed : (content.numerals.any fun x => matchesAs u (!stated) stated q.value x.value) = false := by
        cases stated <;> simp [matchesAs]
      rw [found, missed] at same
      cases empty : content.numerals.isEmpty <;> rw [empty] at same <;> cases same
    exact ⟨apart .number (.converted q u rfl rfl), apart (.converted q u rfl rfl) .number⟩
  · intro near inClaim inClaim' inText inText' v v' written written'
    cases operates : operatorOf op with
    | error e =>
        rw [verdictOf, verdictOf, compare, compare, operates]
        rfl
    | ok operator =>
        by_cases searched : Searched op content
        · have none (stated stated' : Bool) :
              (content.numerals.any fun x => matchesAs u stated stated' q.value x.value) = false := by
            rw [List.any_eq_false]
            intro x inside
            obtain ⟨bare, based⟩ := near searched x inside
            cases stated <;> cases stated' <;> simp [matchesAs, bare, based]
          rw [verdictOf_searched searched written, verdictOf_searched searched written', none, none]
        · have equality : operator ∉ containmentOperators := fun contained =>
            searched ⟨operator, operates, Or.inl contained⟩
          cases content with
          | many xs => exact absurd ⟨operator, operates, Or.inr ⟨xs, rfl⟩⟩ searched
          | one x =>
              rw [verdictOf_eq operates, verdictOf_eq operates, if_neg equality, if_neg equality,
                compareEqual_one written.reads, compareEqual_one written'.reads]

end Written

/-! ### Half a kilo -/

theorem blankKept_ascii : @BlankKept Folding.ascii := by
  let _ := Folding.ascii
  refine ⟨fun s => ?_⟩
  change blank ∈ s.map (fun c => if 65 ≤ c.val ∧ c.val ≤ 90 then c + 32 else c) ↔ _
  rw [List.mem_map]
  constructor
  · rintro ⟨c, inside, lowered⟩
    split at lowered
    · rename_i upper
      exfalso
      have sum : (c + 32).val = c.val + 32 := by
        rw [Fin.val_add_eq_of_add_lt]
        · rfl
        · change c.val + 32 < 1114112
          omega
      rw [lowered] at sum
      change 32 = c.val + 32 at sum
      omega
    · exact lowered ▸ inside
  · exact fun inside => ⟨blank, inside, rfl⟩

section HalfKilo

theorem solid_of_all {s : Str} (visible : s.all (fun c => !c.isSpace) = true) :
    ∀ c ∈ s, c.isSpace = false := fun c inside => by
  simpa using List.all_eq_true.mp visible c inside

def fiveHundred : @Numeral Spelling.json Folding.ascii :=
  letI := Spelling.json
  letI := Folding.ascii
  { value := 500
    literal := .integer 500
    text := str "500"
    measured := rfl
    printable := by decide
    printed := solid_of_all (by decide)
    whole := by decide
    reads := by decide +kernel
    solid := solid_of_all (by decide) }

def gram : @UnitName Spelling.json Folding.ascii :=
  letI := Spelling.json
  letI := Folding.ascii
  { text := str "g"
    family := .mass
    factor := 1
    known := by decide +kernel
    line := by decide
    stated := by decide }

theorem one_weight_any_notation :
    letI := Spelling.json
    letI := Folding.ascii
    UnitsAreNotation fiveHundred gram (.one fiveHundred) (.string (str "weight")) .null := by
  let _ := Spelling.json
  let _ := Folding.ascii
  have _ := blankKept_ascii
  refine (units_are_notation_iff fiveHundred gram (.one fiveHundred) (.string (str "weight")) .null).mpr ?_
  rintro ⟨operator, operates, contained | ⟨xs, listed⟩⟩
  · obtain rfl := Except.ok.inj operates
    exact absurd contained (by decide)
  · cases listed

/-- In a list with a unit field the bare number is found, and the one with its unit is not. -/
theorem listed_weight_loses_unit :
    letI := Spelling.json
    letI := Folding.ascii
    verdictOf (.number (.integer 500)) (attributeOf gram (.many [fiveHundred]) false) (.string (str "weight"))
        .null = .ok .verified ∧
      verdictOf (.string (str "500 g")) (attributeOf gram (.many [fiveHundred]) false)
        (.string (str "weight")) .null = .ok .contradicted := by
  let _ := Spelling.json
  let _ := Folding.ascii
  have _ := blankKept_ascii
  have searched : Searched .null (.many [fiveHundred]) := ⟨[], rfl, Or.inr ⟨_, rfl⟩⟩
  constructor
  · refine (verdictOf_searched searched (.number : ClaimWritten fiveHundred gram false _) false).trans ?_
    decide +kernel
  · refine (verdictOf_searched searched
      (.converted fiveHundred gram rfl rfl : ClaimWritten fiveHundred gram true _) false).trans ?_
    decide

end HalfKilo

end Proxyshop.Verification
