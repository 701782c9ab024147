import Proxyshop.Verification.Legible

/-!
# What a verified verdict confirms

Where the verdict is verified, the claimed value and one of the recorded are the same text, or the same
boolean, or quantities that agree; and what the claim says of a unit is compared too.
-/

namespace Proxyshop.Verification

open Python Numbers Contracts Structures

variable {F : Type} [Format F] [Spelling F] [Folding]

/-! ## Agreement -/

omit [Format F] in
def SameText (a b : Wire F) : Prop := ∃ s, normalizeText a = .ok s ∧ normalizeText b = .ok s

def Convertible (a b : Wire F) : Prop :=
  ∃ family f g, unitFamily a = .ok (some (family, f)) ∧ unitFamily b = .ok (some (family, g))

/-- The unit that a claim states, if any, is the recorded one or can be converted to it. -/
def UnitRecorded (claimed recorded : Wire F) : Prop :=
  claimed = .null ∨ SameText claimed recorded ∨ Convertible claimed recorded

/-- The unit that a number is stated in, or another one where it states none. -/
def Quantity.unitOr (q : Quantity F) (unit : Wire F) : Wire F := if q.unit.isNull then unit else q.unit

/-- The equality of members: within 1e-9 of the larger one, or of 1. -/
def nearlyEqual (a b : Extended F) : Bool := (a - b).magnitude ≤ 1e-9 * scaleOf a b 1.0

def WithinPublished (key : Wire F) (a b : Extended F) : Prop :=
  ∃ tolerance, toleranceFor key = .ok tolerance ∧ withinTolerance tolerance a b = true

/-- The claimed number and the recorded one are finite and close in base units: each is read in its own
unit, or where it states none in one of the other side. -/
def Agree (close : Extended F → Extended F → Prop) (c k : Quantity F) (unit : Wire F) : Prop :=
  ∃ reading a b family,
    (if c.unit.isNull then reading = k.unit ∨ reading = unit else reading = c.unit) ∧
    toBaseUnit ⟨c.number, reading⟩ = .ok (a, family) ∧
    toBaseUnit ⟨k.number, k.unitOr c.unit⟩ = .ok (b, family) ∧
    a.isFinite = true ∧ b.isFinite = true ∧ close a b

def Confirms (stated : Wire F → Wire F → Prop) (close : Extended F → Extended F → Prop)
    (claimed value unit : Wire F) : Prop :=
  SameText claimed value ∨ (∃ b, normalizeBoolean claimed = .ok (some b) ∧ value = .bool b) ∨
    ∃ c m, parseQuantity claimed = .ok (some c) ∧ parseQuantity value = .ok (some m) ∧
      stated c.unit (m.unitOr unit) ∧ Agree close c ⟨m.number, m.unitOr unit⟩ unit

/-! ## Texts, booleans and members -/

omit [Format F] in
theorem compareText_verified {claimed catalog : Wire F} {outcome : Outcome F}
    (compared : compareText claimed catalog = .ok outcome) (verified : outcome.status = .verified) :
    SameText claimed catalog := by
  obtain ⟨s, read, compared⟩ := bind_eq_ok.mp compared
  obtain ⟨s', read', compared⟩ := bind_eq_ok.mp compared
  split at compared
  · rename_i same
    exact ⟨s, read, same ▸ read'⟩
  · cases compared
    cases verified

theorem compareBoolean_verified {claimed : Wire F} {catalog : Bool} {outcome : Outcome F}
    (compared : compareBoolean claimed catalog = .ok outcome) (verified : outcome.status = .verified) :
    normalizeBoolean claimed = .ok (some catalog) := by
  obtain ⟨parsed, read, compared⟩ := bind_eq_ok.mp compared
  cases parsed with
  | none =>
      obtain ⟨shown, -, made⟩ := bind_eq_ok.mp compared
      cases made
      cases verified
  | some b =>
      dsimp only at compared
      split at compared
      · rename_i same
        rw [read, same]
      · cases compared
        cases verified

theorem memberMatches_true {claimed member : Wire F} (matched : memberMatches claimed member = .ok true) :
    SameText claimed (attributeValue member).1 ∨
      ∃ c m a b family, parseQuantity claimed = .ok (some c) ∧
        parseQuantity (attributeValue member).1 = .ok (some m) ∧
        toBaseUnit ⟨c.number, c.unitOr (attributeValue member).2⟩ = .ok (a, family) ∧
        toBaseUnit ⟨m.number, m.unitOr (attributeValue member).2⟩ = .ok (b, family) ∧
        nearlyEqual a b = true := by
  have texts : (do return (← normalizeText claimed) = (← normalizeText (attributeValue member).1) :
      Except PyError Bool) = .ok true → SameText claimed (attributeValue member).1 := by
    intro same
    obtain ⟨s, read, same⟩ := bind_eq_ok.mp same
    obtain ⟨s', read', same⟩ := bind_eq_ok.mp same
    obtain rfl : s = s' := by simpa using Except.ok.inj same
    exact ⟨s, read, read'⟩
  obtain ⟨c, parsed, matched⟩ := bind_eq_ok.mp matched
  obtain ⟨m, parsed', matched⟩ := bind_eq_ok.mp matched
  cases c with
  | none => exact Or.inl (texts matched)
  | some c =>
      cases m with
      | none => exact Or.inl (texts matched)
      | some m =>
          obtain ⟨⟨a, family⟩, based, matched⟩ := bind_eq_ok.mp matched
          obtain ⟨⟨b, family'⟩, based', matched⟩ := bind_eq_ok.mp matched
          dsimp only at matched
          split at matched
          · rename_i same
            subst same
            exact Or.inr ⟨c, m, a, b, family, parsed, parsed', based, based', Except.ok.inj matched⟩
          · exact Or.inl (texts matched)

theorem compareContains_verified {claimed catalog : Wire F} {outcome : Outcome F}
    (compared : compareContains claimed catalog = .ok outcome) (verified : outcome.status = .verified) :
    catalog ≠ .null ∧ ∃ member ∈ membersOf catalog, memberMatches claimed member = .ok true := by
  unfold compareContains at compared
  split at compared
  · cases compared
    cases verified
  · rename_i present
    obtain ⟨found, walked, compared⟩ := bind_eq_ok.mp compared
    cases found with
    | true =>
        refine ⟨fun null => present (null ▸ rfl), anyM_eq_true walked⟩
    | false =>
        simp only [Bool.false_eq_true, if_false] at compared
        split at compared
        · cases compared
          cases verified
        · obtain ⟨shown, -, made⟩ := bind_eq_ok.mp compared
          cases made
          cases verified

theorem compareMultivalued_verified {claimed : Wire F} {members : List (Wire F)} {outcome : Outcome F}
    (compared : compareMultivalued claimed members = .ok outcome) (verified : outcome.status = .verified) :
    ∃ member ∈ members, memberMatches claimed member = .ok true := by
  obtain ⟨found, walked, compared⟩ := bind_eq_ok.mp compared
  cases found with
  | true => exact anyM_eq_true walked
  | false =>
      simp only [Bool.false_eq_true, if_false] at compared
      split at compared
      · cases compared
        cases verified
      · obtain ⟨domain, -, compared⟩ := bind_eq_ok.mp compared
        obtain ⟨reads, -, compared⟩ := bind_eq_ok.mp compared
        split at compared
        · cases compared
          cases verified
        · cases compared
          cases verified

/-! ## Quantities -/

theorem toBaseUnit_eq {unit : Wire F} {family : Option (Family × Extended F)}
    (known : unitFamily unit = .ok family) (number : Extended F) :
    toBaseUnit ⟨number, unit⟩ =
      .ok ((family.map fun found => number * found.2).getD number, family.map Prod.fst) := by
  rw [toBaseUnit, known]
  cases family with
  | none => rfl
  | some found => rfl

theorem numericallyComparable_true {c k : Wire F} (comparable : numericallyComparable c k = .ok true) :
    ∃ fc fk, unitFamily c = .ok fc ∧ unitFamily k = .ok fk ∧
      (c = .null ∨ k = .null ∨ fc.isSome = true ∧ fk.isSome = true ∨
        fc = none ∧ fk = none ∧ SameText c k) := by
  obtain ⟨fc, found, comparable⟩ := bind_eq_ok.mp comparable
  obtain ⟨fk, found', comparable⟩ := bind_eq_ok.mp comparable
  refine ⟨fc, fk, found, found', ?_⟩
  by_cases bare : c = .null
  · exact Or.inl bare
  by_cases bare' : k = .null
  · exact Or.inr (Or.inl bare')
  have stated : c.isNull = false ∧ k.isNull = false := by
    refine ⟨?_, ?_⟩
    · cases c with
      | null => exact absurd rfl bare
      | _ => rfl
    · cases k with
      | null => exact absurd rfl bare'
      | _ => rfl
  cases fc with
  | some this =>
      cases fk with
      | some that => exact Or.inr (Or.inr (Or.inl ⟨rfl, rfl⟩))
      | none => simp [stated, pure, Except.pure] at comparable
  | none =>
      cases fk with
      | some that => simp [stated, pure, Except.pure] at comparable
      | none =>
          simp only [stated, Option.isSome_none, Bool.not_false, Bool.and_self, if_true] at comparable
          obtain ⟨s, read, comparable⟩ := bind_eq_ok.mp comparable
          obtain ⟨s', read', comparable⟩ := bind_eq_ok.mp comparable
          obtain rfl : s = s' := by simpa using Except.ok.inj comparable
          exact Or.inr (Or.inr (Or.inr ⟨rfl, rfl, s, read, read'⟩))

theorem judged_verified {key observed : Wire F} {a b : Extended F} {outcome : Outcome F}
    (compared : compareNumeric.judged key observed a b = .ok outcome) (verified : outcome.status = .verified) :
    a.isFinite = true ∧ b.isFinite = true ∧ WithinPublished key a b := by
  unfold compareNumeric.judged at compared
  split at compared
  · cases compared
    cases verified
  · rename_i finite
    obtain ⟨tolerance, published, compared⟩ := bind_eq_ok.mp compared
    dsimp only at compared
    split at compared
    · rename_i close
      simp only [Bool.not_eq_true', Bool.not_eq_false, Bool.and_eq_true] at finite
      exact ⟨finite.1, finite.2, tolerance, published, close⟩
    · cases compared
      cases verified

omit [Format F] [Spelling F] [Folding] in
theorem Quantity.unitOr_null {number : Extended F} {other : Wire F} :
    (⟨number, .null⟩ : Quantity F).unitOr other = other := rfl

omit [Format F] [Spelling F] [Folding] in
theorem Quantity.unitOr_stated {q : Quantity F} (stated : q.unit ≠ .null) (other : Wire F) :
    q.unitOr other = q.unit := by
  unfold Quantity.unitOr
  cases same : q.unit with
  | null => exact absurd same stated
  | _ => rfl

theorem compareNumeric_verified {c k : Quantity F} {key observed : Wire F} {outcome : Outcome F}
    (comparable : numericallyComparable c.unit k.unit = .ok true)
    (compared : compareNumeric c k key observed = .ok outcome) (verified : outcome.status = .verified)
    (unit : Wire F) :
    (UnitRecorded c.unit k.unit ∨ k.unit = .null) ∧ Agree (WithinPublished key) c k unit := by
  obtain ⟨fc, fk, found, found', units⟩ := numericallyComparable_true comparable
  obtain ⟨n, cu⟩ := c
  obtain ⟨m, ku⟩ := k
  dsimp only at *
  obtain ⟨⟨a, family⟩, based, compared⟩ := bind_eq_ok.mp compared
  obtain ⟨⟨b, family'⟩, based', compared⟩ := bind_eq_ok.mp compared
  rw [toBaseUnit_eq found] at based
  rw [toBaseUnit_eq found'] at based'
  cases based
  cases based'
  have agree {reading : Wire F} {a b : Extended F} {family : Option Family}
      (own : if cu.isNull then reading = ku ∨ reading = unit else reading = cu)
      (one : toBaseUnit ⟨n, reading⟩ = .ok (a, family))
      (other : toBaseUnit ⟨m, Quantity.unitOr ⟨m, ku⟩ cu⟩ = .ok (b, family))
      (judged : compareNumeric.judged key observed a b = .ok outcome) :
      Agree (WithinPublished key) ⟨n, cu⟩ ⟨m, ku⟩ unit := by
    obtain ⟨finite, finite', close⟩ := judged_verified judged verified
    exact ⟨reading, a, b, family, own, one, other, finite, finite', close⟩
  have states {u : Wire F} {family : Family × Extended F} (known : unitFamily u = .ok (some family)) :
      u ≠ .null := by
    rintro rfl
    cases known
  have reads {u reading : Wire F} (stated : u ≠ .null) (same : reading = u) :
      if u.isNull then reading = ku ∨ reading = unit else reading = u := by
    cases u with
    | null => exact absurd rfl stated
    | _ => exact same
  cases fc with
  | some this =>
      have stated := states found
      cases fk with
      | some that =>
          simp only [Option.map_some, Option.getD_some] at compared
          split at compared
          · cases compared
            cases verified
          · rename_i same
            have family : this.1 = that.1 := not_not.mp same
            refine ⟨Or.inl (Or.inr (Or.inr ⟨this.1, this.2, that.2, found, ?_⟩)),
              agree (reads stated rfl) (toBaseUnit_eq found n) ?_ compared⟩
            · rw [found', family]
            · rw [Quantity.unitOr_stated (states found'), toBaseUnit_eq found']
              exact congrArg Except.ok (Prod.ext rfl (congrArg some family.symm))
      | none =>
          obtain rfl : ku = .null := by
            obtain rfl | null | ⟨-, both⟩ | ⟨only, -⟩ := units
            · exact absurd rfl stated
            · exact null
            · cases both
            · cases only
          obtain ⟨⟨base, family⟩, read, judged⟩ := bind_eq_ok.mp compared
          rw [toBaseUnit_eq found] at read
          cases read
          exact ⟨Or.inr rfl, agree (reads stated rfl) (toBaseUnit_eq found n) (toBaseUnit_eq found m) judged⟩
  | none =>
      cases fk with
      | some that =>
          have stated := states found'
          obtain rfl : cu = .null := by
            obtain null | rfl | ⟨both, -⟩ | ⟨-, only, -⟩ := units
            · exact null
            · exact absurd rfl stated
            · cases both
            · cases only
          obtain ⟨⟨base, family⟩, read, judged⟩ := bind_eq_ok.mp compared
          rw [toBaseUnit_eq found'] at read
          cases read
          refine ⟨Or.inl (Or.inl rfl), agree (Or.inl rfl) (toBaseUnit_eq found' n) ?_ judged⟩
          rw [Quantity.unitOr_stated stated]
          exact toBaseUnit_eq found' m
      | none =>
          have plain : toBaseUnit ⟨m, Quantity.unitOr ⟨m, ku⟩ cu⟩ = .ok (m, none) := by
            unfold Quantity.unitOr
            dsimp only
            split
            · exact toBaseUnit_eq found m
            · exact toBaseUnit_eq found' m
          have recorded : UnitRecorded cu ku ∨ ku = .null := by
            obtain null | null | ⟨both, -⟩ | ⟨-, -, same⟩ := units
            · exact Or.inl (Or.inl null)
            · exact Or.inr null
            · cases both
            · exact Or.inl (Or.inr (Or.inl same))
          by_cases null : cu = .null
          · subst null
            exact ⟨recorded, agree (Or.inl rfl) (toBaseUnit_eq found' n) plain compared⟩
          · exact ⟨recorded, agree (reads null rfl) (toBaseUnit_eq found n) plain compared⟩

/-! ## The whole comparison -/

/-- The unit of the claim is the recorded one, or converts to it, or none is recorded. -/
def UnitTaken (claimed recorded : Wire F) : Prop := UnitRecorded claimed recorded ∨ recorded = .null

omit [Format F] in
theorem remaining_verified {claimed catalog : Wire F} {outcome : Outcome F}
    (remaining : (match catalog with
      | .object _ => Except.ok ⟨.ambiguous, catalog,
          str "the catalog attribute is a structure this claim cannot address"⟩
      | _ => compareText claimed catalog : Except PyError (Outcome F)) = .ok outcome)
    (verified : outcome.status = .verified) : SameText claimed catalog := by
  split at remaining
  · cases remaining
    cases verified
  · exact compareText_verified remaining verified

theorem compareScalar_verified {claimed catalog unit key : Wire F} {outcome : Outcome F}
    (compared : compareScalar claimed catalog unit key = .ok outcome) (verified : outcome.status = .verified) :
    Confirms UnitTaken (WithinPublished key) claimed catalog unit := by
  obtain ⟨c, parsed, compared⟩ := bind_eq_ok.mp compared
  obtain ⟨k, parsed', compared⟩ := bind_eq_ok.mp compared
  cases c with
  | none => exact Or.inl (remaining_verified compared verified)
  | some c =>
      cases k with
      | none => exact Or.inl (remaining_verified compared verified)
      | some k =>
          obtain ⟨comparable, answered, compared⟩ := bind_eq_ok.mp compared
          cases comparable with
          | false => exact Or.inl (remaining_verified compared verified)
          | true =>
              obtain ⟨stated, agree⟩ := compareNumeric_verified answered compared verified unit
              exact Or.inr (Or.inr ⟨c, k, parsed, parsed', stated, agree⟩)

/-- What the search of a list passes over: a unit that is not known and differs from the recorded one, and
a number that no longer is finite in its base unit. -/
structure Considered (claimed catalog : Wire F) : Prop where
  units : ∀ member ∈ membersOf catalog, ∀ c m, parseQuantity claimed = .ok (some c) →
    parseQuantity (attributeValue member).1 = .ok (some m) → unitFamily c.unit = .ok none →
    unitFamily (m.unitOr (attributeValue member).2) = .ok none →
    UnitTaken c.unit (m.unitOr (attributeValue member).2)
  finite : ∀ member ∈ membersOf catalog, ∀ c m, parseQuantity claimed = .ok (some c) →
    parseQuantity (attributeValue member).1 = .ok (some m) → ∀ q ∈ [c, m], ∀ base family,
    toBaseUnit ⟨q.number, q.unitOr (attributeValue member).2⟩ = .ok (base, family) → base.isFinite = true

theorem memberMatches_confirms {claimed catalog member : Wire F} (considered : Considered claimed catalog)
    (inside : member ∈ membersOf catalog) (matched : memberMatches claimed member = .ok true) :
    Confirms UnitTaken (fun a b => nearlyEqual a b = true) claimed (attributeValue member).1
      (attributeValue member).2 := by
  obtain same | ⟨c, m, a, b, family, parsed, parsed', based, based', near⟩ := memberMatches_true matched
  · exact Or.inl same
  generalize recorded : m.unitOr (attributeValue member).2 = ku at based'
  have finite := considered.finite member inside c m parsed parsed'
  have fa := finite c (by simp) a family based
  have fb := finite m (by simp) b family (recorded ▸ based')
  refine Or.inr (Or.inr ⟨c, m, parsed, parsed', ?_⟩)
  rw [recorded]
  obtain ⟨fk, known', -⟩ := bind_eq_ok.mp based'
  rw [toBaseUnit_eq known'] at based'
  by_cases null : c.unit = .null
  · refine ⟨Or.inl (Or.inl null), (attributeValue member).2, a, b, family, ?_, ?_, ?_, fa, fb, near⟩
    · rw [null]
      exact Or.inr rfl
    · rw [Quantity.unitOr, null] at based
      exact based
    · have kept : (⟨m.number, ku⟩ : Quantity F).unitOr c.unit = ku := by
        rw [Quantity.unitOr, null]
        cases ku <;> rfl
      rw [kept, toBaseUnit_eq known', based']
  · rw [Quantity.unitOr_stated null] at based
    obtain ⟨fc, known, -⟩ := bind_eq_ok.mp based
    rw [toBaseUnit_eq known] at based
    have own : if c.unit.isNull then c.unit = ku ∨ c.unit = (attributeValue member).2 else c.unit = c.unit := by
      cases held : c.unit with
      | null => exact absurd held null
      | _ => rfl
    cases based
    have families : fk.map Prod.fst = fc.map Prod.fst := congrArg Prod.snd (Except.ok.inj based')
    have other : toBaseUnit ⟨m.number, Quantity.unitOr ⟨m.number, ku⟩ c.unit⟩ = .ok (b, fc.map Prod.fst) := by
      by_cases bare : ku = .null
      · subst bare
        cases known'
        cases fc with
        | some _ => cases families
        | none =>
            rw [Quantity.unitOr_null, toBaseUnit_eq known]
            exact based'
      · rw [Quantity.unitOr_stated bare, toBaseUnit_eq known']
        exact based'
    refine ⟨?_, c.unit, _, b, _, own, toBaseUnit_eq known c.number, other, fa, fb, near⟩
    cases fc with
    | none =>
        cases fk with
        | none => exact recorded ▸ considered.units member inside c m parsed parsed' known (recorded ▸ known')
        | some _ => cases families
    | some this =>
        cases fk with
        | none => cases families
        | some that =>
            refine Or.inl (Or.inr (Or.inr ⟨this.1, this.2, that.2, known, ?_⟩))
            rw [known', ← Option.some.inj families]

/-- The claimed value is no `None`, blank text or undefined number. -/
def Valued (claimed : Wire F) : Prop := carriesNoValue claimed = false ∧ isUndefinedNumber claimed = false

omit [Format F] in
def Contained (op : Wire F) : Prop := ∃ operator ∈ containmentOperators, operatorOf op = .ok operator

omit [Format F] in
def Listed (op catalog : Wire F) : Prop := Contained op ∨ ∃ members, catalog = .array members

omit [Format F] in
/-- The value and unit that a claim is held against: the recorded ones, or those of a member. -/
def RecordedAs (op recorded value unit : Wire F) : Prop :=
  (Listed op (attributeValue recorded).1 ∧
    ∃ member ∈ membersOf (attributeValue recorded).1, attributeValue member = (value, unit)) ∨
  (¬ Listed op (attributeValue recorded).1 ∧ attributeValue recorded = (value, unit))

/-- Within the published tolerance; nearly equal, in a list. -/
def Close (op recorded key : Wire F) (a b : Extended F) : Prop :=
  WithinPublished key a b ∨ Listed op (attributeValue recorded).1 ∧ nearlyEqual a b = true

theorem Confirms.mono {stated : Wire F → Wire F → Prop} {close close' : Extended F → Extended F → Prop}
    (weaker : ∀ a b, close a b → close' a b) {claimed value unit : Wire F}
    (confirms : Confirms stated close claimed value unit) : Confirms stated close' claimed value unit := by
  refine confirms.imp_right (Or.imp_right ?_)
  rintro ⟨c, m, parsed, parsed', units, reading, a, b, family, own, one, other, fa, fb, near⟩
  exact ⟨c, m, parsed, parsed', units, reading, a, b, family, own, one, other, fa, fb, weaker a b near⟩

/-- A verified verdict confirms the whole claimed value, as far as lists look at it. -/
theorem verified_confirmed (claimed recorded key op : Wire F) (outcome : Outcome F)
    (compared : compare claimed recorded key op = .ok outcome) (verified : outcome.status = .verified)
    (valued : Contained op → Valued claimed)
    (considered : Listed op (attributeValue recorded).1 → Considered claimed (attributeValue recorded).1) :
    Valued claimed ∧ (attributeValue recorded).1 ≠ .null ∧ ∃ value unit, RecordedAs op recorded value unit ∧
      Confirms UnitTaken (Close op recorded key) claimed value unit := by
  have member_confirms {member : Wire F} (listed : Listed op (attributeValue recorded).1)
      (inside : member ∈ membersOf (attributeValue recorded).1)
      (matched : memberMatches claimed member = .ok true) :
      ∃ value unit, RecordedAs op recorded value unit ∧
        Confirms UnitTaken (Close op recorded key) claimed value unit :=
    ⟨(attributeValue member).1, (attributeValue member).2, Or.inl ⟨listed, member, inside, rfl⟩,
      (memberMatches_confirms (considered listed) inside matched).mono fun a b near => Or.inr ⟨listed, near⟩⟩
  obtain ⟨operator, operates, compared⟩ := bind_eq_ok.mp compared
  split at compared
  · rename_i contained
    have asks : Contained op := ⟨operator, contained, operates⟩
    obtain ⟨present, member, inside, matched⟩ := compareContains_verified compared verified
    exact ⟨valued asks, present, member_confirms (Or.inl asks) inside matched⟩
  · rename_i equality
    have asks : ¬ Contained op := by
      rintro ⟨operator', contained, operates'⟩
      obtain rfl := Except.ok.inj (operates.symm.trans operates')
      exact equality contained
    have scalar {catalog unit : Wire F} (held : attributeValue recorded = (catalog, unit))
        (single : ∀ members, catalog ≠ .array members)
        (confirms : Confirms UnitTaken (WithinPublished key) claimed catalog unit) :
        ∃ value unit, RecordedAs op recorded value unit ∧
          Confirms UnitTaken (Close op recorded key) claimed value unit := by
      refine ⟨catalog, unit, Or.inr ⟨?_, held⟩, confirms.mono fun a b near => Or.inl near⟩
      rw [held]
      rintro (contained | ⟨members, same⟩)
      · exact asks contained
      · exact single members same
    change compareEqual claimed (attributeValue recorded).1 (attributeValue recorded).2 key = _ at compared
    cases held : attributeValue recorded with | mk catalog unit => ?_
    rw [held] at compared member_confirms
    dsimp only at compared member_confirms ⊢
    unfold compareEqual at compared
    split at compared
    · cases compared
      cases verified
    split at compared
    · cases compared
      cases verified
    rename_i value finite
    refine ⟨⟨Bool.eq_false_iff.mpr value, Bool.eq_false_iff.mpr finite⟩, ?_⟩
    split at compared
    · cases compared
      cases verified
    · exact ⟨by rintro ⟨⟩, scalar held (by rintro _ ⟨⟩) (Or.inr (Or.inl ⟨_, compareBoolean_verified compared verified, rfl⟩))⟩
    · rename_i members
      obtain ⟨member, inside, matched⟩ := compareMultivalued_verified compared verified
      exact ⟨by rintro ⟨⟩, member_confirms (Or.inr ⟨members, rfl⟩) inside matched⟩
    · rename_i present _ unlisted
      exact ⟨present, scalar held unlisted (compareScalar_verified compared verified)⟩

/-! ### A label on one side -/

/-- A string is its own text, and `None` that of nothing. -/
@[reducible] def Spelling.nothing (F : Type) : Spelling F where
  text
    | .null => str "None"
    | _ => []
  repr _ := []
  dumps _ := []

def halfKilo : Wire Binary64 :=
  .object [(str "value", .number (.integer 500)), (str "unit", .string (str "g"))]

omit [Spelling F] [Folding] [Format F] in
theorem half_kilo_confirmed :
    letI := Spelling.nothing Binary64
    letI := Folding.ascii
    ∃ outcome, compare (.string (str "0.5 kg")) halfKilo (.string (str "weight")) .null = .ok outcome ∧
      outcome.status = .verified ∧ ∃ value unit, RecordedAs .null halfKilo value unit ∧
        Confirms UnitTaken (Close .null halfKilo (.string (str "weight"))) (.string (str "0.5 kg")) value unit := by
  let _ := Spelling.nothing Binary64
  let _ := Folding.ascii
  obtain ⟨outcome, compared, verified⟩ : ∃ outcome, compare (.string (str "0.5 kg")) halfKilo
      (.string (str "weight")) .null = .ok outcome ∧ outcome.status = .verified := by
    obtain ⟨outcome, made, same⟩ := Option.map_eq_some_iff.mp
      (show (compare (.string (str "0.5 kg")) halfKilo (.string (str "weight")) .null).toOption.map
        Outcome.status = some .verified by decide +kernel)
    exact ⟨outcome, toOption_eq_some.mp made, same⟩
  have plain : ¬ Contained (.null : Wire Binary64) := by
    rintro ⟨operator, contained, operates⟩
    obtain rfl := Except.ok.inj operates
    exact absurd contained (by decide)
  obtain ⟨-, -, confirmed⟩ := verified_confirmed (.string (str "0.5 kg")) halfKilo (.string (str "weight")) .null
    outcome compared verified (fun contained => absurd contained plain) (by
      rintro (contained | ⟨members, listed⟩)
      · exact absurd contained plain
      · cases listed)
  exact ⟨outcome, compared, verified, confirmed⟩

def isText (text : Str) : Wire F → Bool
  | .string s => s = text
  | _ => false

omit [Spelling F] [Folding] [Format F] in
theorem of_isText {text : Str} {v : Wire F} (same : isText text v = true) : v = .string text := by
  cases v with
  | string s => rw [of_decide_eq_true same]
  | _ => cases same

omit [Spelling F] [Folding] [Format F] in
theorem label_rides_on_verified :
    letI := Spelling.nothing Binary64
    letI := Folding.ascii
    ∃ outcome, compare (.string (str "5 certified") : Wire Binary64) (.string (str "5"))
        (.string (str "stars")) .null = .ok outcome ∧ outcome.status = .verified ∧
      ∀ value unit : Wire Binary64, RecordedAs .null (.string (str "5")) value unit →
        ¬ Confirms UnitRecorded (WithinPublished (.string (str "stars"))) (.string (str "5 certified"))
          value unit := by
  let _ := Spelling.nothing Binary64
  let _ := Folding.ascii
  obtain ⟨outcome, compared, verified⟩ : ∃ outcome, compare (.string (str "5 certified") : Wire Binary64)
      (.string (str "5")) (.string (str "stars")) .null = .ok outcome ∧ outcome.status = .verified := by
    obtain ⟨outcome, made, same⟩ := Option.map_eq_some_iff.mp
      (show (compare (.string (str "5 certified") : Wire Binary64) (.string (str "5")) (.string (str "stars"))
        .null).toOption.map Outcome.status = some .verified by decide +kernel)
    exact ⟨outcome, toOption_eq_some.mp made, same⟩
  refine ⟨outcome, compared, verified, fun value unit held => ?_⟩
  obtain ⟨rfl, rfl⟩ : Json.string (str "5") = value ∧ (.null : Wire Binary64) = unit := by
    obtain ⟨contained | ⟨members, listed⟩, -⟩ | ⟨-, same⟩ := held
    · obtain ⟨operator, contained, operates⟩ := contained
      obtain rfl := Except.ok.inj operates
      exact absurd contained (by decide)
    · cases listed
    · exact Prod.mk.inj same
  rintro (⟨s, one, other⟩ | ⟨b, -, other⟩ | ⟨c, m, parsed, parsed', stated, -⟩)
  · exact absurd (one.trans other.symm) (by decide)
  · cases other
  · have labelled : c.unit = .string (str "certified") := by
      have read : ((quantityOfText (str "5 certified") : Option (Quantity Binary64)).all fun q =>
          isText (str "certified") q.unit) = true := by decide +kernel
      rw [Except.ok.inj parsed] at read
      exact of_isText read
    have bare : m.unitOr .null = .null := by
      have read : ((quantityOfText (str "5") : Option (Quantity Binary64)).all fun q =>
          q.unit.isNull) = true := by decide +kernel
      rw [Except.ok.inj parsed'] at read
      exact if_pos read
    rw [labelled, bare] at stated
    obtain stated | ⟨s, one, other⟩ | ⟨family, f, g, one, -⟩ := stated
    · cases stated
    · exact absurd (one.trans other.symm) (by decide)
    · have unknown : unitFamily (.string (str "certified") : Wire Binary64) = .ok none := rfl
      rw [unknown] at one
      cases one

end Proxyshop.Verification
