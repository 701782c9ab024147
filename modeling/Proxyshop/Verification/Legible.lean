import Proxyshop.Verification.Verifier

/-!
# What the verifier can read

When each step of a verification returns. Every text can be written, so only a number too large for
a double, an evidence list that is none and a freshness window too large to be one can raise.
-/

namespace Proxyshop.Verification

open Python Numbers Contracts Structures

variable {F : Type} [Format F] [Spelling F] [Folding]

/-! ## Canonical forms -/

section Normal

variable {v : Wire F} (writable : v.writable = true)

include writable

omit [Format F] in
theorem normalizeText_returns : ∃ s, normalizeText v = .ok s := by
  obtain ⟨s, written⟩ := textOf_returns.mpr writable
  exact bind_returns.mpr ⟨s, written, _, rfl⟩

theorem normalizeBoolean_returns : ∃ b, normalizeBoolean v = .ok b := by
  unfold normalizeBoolean
  split
  · exact ⟨_, rfl⟩
  · obtain ⟨s, written⟩ := normalizeText_returns writable
    exact bind_returns.mpr ⟨s, written, _, rfl⟩

theorem unitFamily_returns : ∃ family, unitFamily v = .ok family := by
  unfold unitFamily
  split
  · exact ⟨_, rfl⟩
  · obtain ⟨s, written⟩ := normalizeText_returns writable
    refine bind_returns.mpr ⟨s, written, ?_⟩
    dsimp only
    split <;> exact ⟨_, rfl⟩

theorem toBaseUnit_returns (number : Extended F) : ∃ base, toBaseUnit ⟨number, v⟩ = .ok base := by
  obtain ⟨family, read⟩ := unitFamily_returns writable
  refine bind_returns.mpr ⟨family, read, ?_⟩
  cases family <;> exact ⟨_, rfl⟩

theorem parseQuantity_returns : (∃ q, parseQuantity v = .ok q) ↔ v.huge = false := by
  cases v with
  | number n =>
      simp only [parseQuantity, Literal.toDouble_eq, Wire.huge]
      cases n.huge <;> simp [bind, Except.bind, pure, Except.pure]
  | bool b => exact iff_of_true ⟨_, rfl⟩ rfl
  | _ =>
      obtain ⟨s, written⟩ := textOf_returns.mpr writable
      exact iff_of_true (bind_returns.mpr ⟨s, written, _, rfl⟩) rfl

theorem toleranceFor_returns : ∃ tolerance, toleranceFor v = .ok tolerance := by
  obtain ⟨s, written⟩ := normalizeText_returns writable
  exact bind_returns.mpr ⟨s, written, _, rfl⟩

end Normal

omit [Spelling F] in
theorem quantityOfText_unit {text : Str} {q : Quantity F} (read : quantityOfText text = some q) :
    q.unit.writable = true := by
  simp only [quantityOfText, Option.bind_eq_bind, Option.bind_eq_some_iff] at read
  obtain ⟨⟨spelled, rest⟩, -, number, -, read⟩ := read
  simp only [Option.ite_none_left_eq_some, Option.some.injEq] at read
  obtain ⟨-, rfl⟩ := read
  dsimp only
  split
  · rfl
  · exact Wire.writable_string _

theorem parseQuantity_unit {v : Wire F} {q : Quantity F} (read : parseQuantity v = .ok (some q)) :
    q.unit.writable = true := by
  cases v with
  | number n =>
      obtain ⟨number, -, read⟩ := bind_eq_ok.mp read
      split at read
      · cases read
        rfl
      · cases read
  | bool b => cases read
  | _ =>
      obtain ⟨text, -, read⟩ := bind_eq_ok.mp read
      exact quantityOfText_unit (Except.ok.inj read)

omit [Format F] [Spelling F] [Folding] in
theorem attributeValue_writable {recorded : Wire F} (writable : recorded.writable = true) :
    (attributeValue recorded).1.writable = true ∧ (attributeValue recorded).2.writable = true := by
  unfold attributeValue
  split
  · split
    · exact ⟨Wire.writable_get writable _, Wire.writable_get writable _⟩
    · exact ⟨writable, rfl⟩
  · exact ⟨writable, rfl⟩

/-! ## Comparators -/

def Readable (claimed member : Wire F) : Prop :=
  claimed.huge = false ∧ (attributeValue member).1.huge = false

theorem memberMatches_returns {claimed member : Wire F} (writable : claimed.writable = true)
    (writable' : member.writable = true) :
    (∃ b, memberMatches claimed member = .ok b) ↔ Readable claimed member := by
  obtain ⟨value_writable, unit_writable⟩ := attributeValue_writable writable'
  rw [Readable, ← parseQuantity_returns writable, ← parseQuantity_returns value_writable]
  constructor
  · rintro ⟨b, walked⟩
    obtain ⟨c, claimed_eq, walked⟩ := bind_eq_ok.mp walked
    obtain ⟨m, member_eq, -⟩ := bind_eq_ok.mp walked
    exact ⟨⟨c, claimed_eq⟩, m, member_eq⟩
  · rintro ⟨⟨c, claimed_eq⟩, m, member_eq⟩
    refine bind_returns.mpr ⟨c, claimed_eq, bind_returns.mpr ⟨m, member_eq, ?_⟩⟩
    obtain ⟨s, claimed_text⟩ := normalizeText_returns writable
    obtain ⟨t, member_text⟩ := normalizeText_returns value_writable
    have texts : ∃ b, (do
        return decide ((← normalizeText claimed) = (← normalizeText (attributeValue member).1)) :
          Except PyError Bool) = .ok b :=
      bind_returns.mpr ⟨s, claimed_text, bind_returns.mpr ⟨t, member_text, _, rfl⟩⟩
    match c, m, claimed_eq, member_eq with
    | none, _, _, _ => exact texts
    | some _, none, _, _ => exact texts
    | some c, some m, claimed_eq, member_eq =>
        have unit (q : Quantity F) (held : q.unit.writable = true) :
            (if q.unit.isNull then (attributeValue member).2 else q.unit).writable = true := by
          split
          · exact unit_writable
          · exact held
        obtain ⟨base, base_eq⟩ :=
          toBaseUnit_returns (unit c (parseQuantity_unit claimed_eq)) c.number
        obtain ⟨base', base_eq'⟩ :=
          toBaseUnit_returns (unit m (parseQuantity_unit member_eq)) m.number
        refine bind_returns.mpr ⟨base, base_eq, bind_returns.mpr ⟨base', base_eq', ?_⟩⟩
        dsimp only
        split
        · exact ⟨_, rfl⟩
        · exact texts

/-- The members can be compared as far as the search for the claimed value walks. -/
def Searchable (claimed : Wire F) (members : List (Wire F)) : Prop :=
  Reached (memberMatches claimed) (Readable claimed) members

section Searches

variable {claimed : Wire F} {members : List (Wire F)} (writable : claimed.writable = true)
  (writable' : ∀ member ∈ members, member.writable = true)

include writable writable'

theorem search_returns :
    (∃ found, members.anyM (memberMatches claimed) = .ok found) ↔ Searchable claimed members :=
  anyM_returns fun member inside => memberMatches_returns writable (writable' member inside)

theorem claimReadsInDomain_returns (missed : members.anyM (memberMatches claimed) = .ok false)
    (filled : members ≠ []) :
    ∃ quantities, quantityDomain members = .ok quantities ∧
      ∃ reads, claimReadsInDomain claimed members quantities = .ok reads := by
  have readable (member) (inside : member ∈ members) : Readable claimed member :=
    (memberMatches_returns writable (writable' member inside)).mp
      ⟨false, anyM_eq_false.mp missed member inside⟩
  have known {v : Wire F} (held : v.writable = true) (small : v.huge = false) :
      ∃ b, (parseQuantity v >>= inKnownUnit) = .ok b := by
    obtain ⟨q, read⟩ := (parseQuantity_returns held).mpr small
    refine bind_returns.mpr ⟨q, read, ?_⟩
    cases q with
    | none => exact ⟨_, rfl⟩
    | some q =>
        obtain ⟨family, named⟩ := unitFamily_returns (parseQuantity_unit read)
        exact bind_returns.mpr ⟨family, named, _, rfl⟩
  have counted {v : Wire F} (held : v.writable = true) : ∃ n, wordCount v = .ok n := by
    obtain ⟨s, text⟩ := normalizeText_returns held
    exact bind_returns.mpr ⟨s, text, _, rfl⟩
  have domain : ∃ quantities, quantityDomain members = .ok quantities := by
    unfold quantityDomain
    rw [if_neg (by simpa using filled)]
    exact allM_returns fun member inside =>
      known (attributeValue_writable (writable' member inside)).1 (readable member inside).2
  obtain ⟨quantities, domain⟩ := domain
  refine ⟨quantities, domain, ?_⟩
  cases quantities with
  | true =>
      obtain ⟨member, inside⟩ := List.exists_mem_of_ne_nil members filled
      exact known writable (readable member inside).1
  | false =>
      obtain ⟨n, words⟩ := counted writable
      obtain ⟨counts, counting⟩ := mapM_returns.mpr fun member inside =>
        counted (attributeValue_writable (writable' member inside)).1
      exact bind_returns.mpr ⟨n, words, bind_returns.mpr ⟨counts, counting, _, rfl⟩⟩

theorem compareMultivalued_returns :
    (∃ outcome, compareMultivalued claimed members = .ok outcome) ↔ Searchable claimed members := by
  rw [← search_returns writable writable']
  constructor
  · rintro ⟨outcome, walked⟩
    obtain ⟨found, searched, -⟩ := bind_eq_ok.mp walked
    exact ⟨found, searched⟩
  · rintro ⟨found, searched⟩
    refine bind_returns.mpr ⟨found, searched, ?_⟩
    cases found with
    | true => exact ⟨_, rfl⟩
    | false =>
        by_cases filled : members = []
        · subst filled
          exact ⟨_, rfl⟩
        · obtain ⟨quantities, domain, reads, placed⟩ :=
            claimReadsInDomain_returns writable writable' searched filled
          simp only [Bool.false_eq_true, if_false, List.isEmpty_iff, filled]
          refine bind_returns.mpr ⟨quantities, domain, bind_returns.mpr ⟨reads, placed, ?_⟩⟩
          cases reads <;> exact ⟨_, rfl⟩

end Searches

theorem compareContains_returns {claimed catalog : Wire F} (writable : claimed.writable = true)
    (writable' : catalog.writable = true) :
    (∃ outcome, compareContains claimed catalog = .ok outcome) ↔
      (catalog.isNull = false → Searchable claimed (membersOf catalog)) := by
  have members (member) (inside : member ∈ membersOf catalog) : member.writable = true := by
    cases catalog with
    | array items => exact Wire.writable_array.mp writable' member inside
    | _ =>
        rw [List.mem_singleton.mp inside]
        exact writable'
  obtain ⟨spelled, written⟩ := reprOf_returns.mpr writable
  rw [← search_returns writable members]
  unfold compareContains
  cases absent : catalog.isNull with
  | true => exact iff_of_true ⟨_, rfl⟩ nofun
  | false =>
      simp only [Bool.false_eq_true, if_false, forall_const]
      constructor
      · rintro ⟨outcome, walked⟩
        obtain ⟨found, searched, -⟩ := bind_eq_ok.mp walked
        exact ⟨found, searched⟩
      · rintro ⟨found, searched⟩
        refine bind_returns.mpr ⟨found, searched, ?_⟩
        cases found with
        | true => exact bind_returns.mpr ⟨spelled, written, _, rfl⟩
        | false =>
            simp only [Bool.false_eq_true, if_false]
            split
            · exact ⟨_, rfl⟩
            · exact bind_returns.mpr ⟨spelled, written, _, rfl⟩

theorem compareBoolean_returns {claimed : Wire F} (writable : claimed.writable = true)
    (catalog : Bool) : ∃ outcome, compareBoolean claimed catalog = .ok outcome := by
  obtain ⟨parsed, read⟩ := normalizeBoolean_returns writable
  refine bind_returns.mpr ⟨parsed, read, ?_⟩
  cases parsed with
  | none =>
      obtain ⟨spelled, written⟩ := reprOf_returns.mpr writable
      exact bind_returns.mpr ⟨spelled, written, _, rfl⟩
  | some parsed =>
      dsimp only
      split <;> exact ⟨_, rfl⟩

theorem judged_returns {key : Wire F} (writable : key.writable = true) (observed : Wire F)
    (claimedBase catalogBase : Extended F) :
    ∃ outcome, compareNumeric.judged key observed claimedBase catalogBase = .ok outcome := by
  unfold compareNumeric.judged
  split
  · exact ⟨_, rfl⟩
  · obtain ⟨tolerance, published⟩ := toleranceFor_returns writable
    refine bind_returns.mpr ⟨tolerance, published, ?_⟩
    dsimp only
    split <;> exact ⟨_, rfl⟩

theorem compareNumeric_returns {claimed catalog : Quantity F} {key : Wire F}
    (writable : claimed.unit.writable = true) (writable' : catalog.unit.writable = true)
    (named : key.writable = true) (observed : Wire F) :
    ∃ outcome, compareNumeric claimed catalog key observed = .ok outcome := by
  obtain ⟨⟨base, family⟩, read⟩ := toBaseUnit_returns writable claimed.number
  obtain ⟨⟨base', family'⟩, read'⟩ := toBaseUnit_returns writable' catalog.number
  refine bind_returns.mpr ⟨_, read, bind_returns.mpr ⟨_, read', ?_⟩⟩
  cases family <;> cases family'
  case some.some =>
    dsimp only
    split
    · exact ⟨_, rfl⟩
    · exact judged_returns named _ _ _
  case none.some =>
    obtain ⟨scaled, scaling⟩ := toBaseUnit_returns writable' claimed.number
    exact bind_returns.mpr ⟨scaled, scaling, judged_returns named _ _ _⟩
  case some.none =>
    obtain ⟨scaled, scaling⟩ := toBaseUnit_returns writable catalog.number
    exact bind_returns.mpr ⟨scaled, scaling, judged_returns named _ _ _⟩
  case none.none => exact judged_returns named _ _ _

theorem numericallyComparable_returns {claimedUnit catalogUnit : Wire F}
    (writable : claimedUnit.writable = true) (writable' : catalogUnit.writable = true) :
    ∃ b, numericallyComparable claimedUnit catalogUnit = .ok b := by
  obtain ⟨family, read⟩ := unitFamily_returns writable
  obtain ⟨family', read'⟩ := unitFamily_returns writable'
  refine bind_returns.mpr ⟨family, read, bind_returns.mpr ⟨family', read', ?_⟩⟩
  dsimp only
  split
  · obtain ⟨s, text⟩ := normalizeText_returns writable
    obtain ⟨t, text'⟩ := normalizeText_returns writable'
    exact bind_returns.mpr ⟨s, text, bind_returns.mpr ⟨t, text', _, rfl⟩⟩
  · exact ⟨_, rfl⟩

omit [Format F] in
theorem compareText_returns {claimed catalog : Wire F} (writable : claimed.writable = true)
    (writable' : catalog.writable = true) :
    ∃ outcome, compareText claimed catalog = .ok outcome := by
  obtain ⟨s, text⟩ := normalizeText_returns writable
  obtain ⟨t, text'⟩ := normalizeText_returns writable'
  refine bind_returns.mpr ⟨s, text, bind_returns.mpr ⟨t, text', ?_⟩⟩
  split <;> exact ⟨_, rfl⟩

theorem compareScalar_returns {claimed catalog unit key : Wire F} (writable : claimed.writable = true)
    (writable' : catalog.writable = true) (stated : unit.writable = true)
    (named : key.writable = true) :
    (∃ outcome, compareScalar claimed catalog unit key = .ok outcome) ↔
      claimed.huge = false ∧ catalog.huge = false := by
  rw [← parseQuantity_returns writable, ← parseQuantity_returns writable']
  have remaining := compareText_returns writable writable'
  constructor
  · rintro ⟨outcome, walked⟩
    obtain ⟨c, claimed_eq, walked⟩ := bind_eq_ok.mp walked
    obtain ⟨k, catalog_eq, -⟩ := bind_eq_ok.mp walked
    exact ⟨⟨c, claimed_eq⟩, k, catalog_eq⟩
  · rintro ⟨⟨c, claimed_eq⟩, k, catalog_eq⟩
    refine bind_returns.mpr ⟨c, claimed_eq, bind_returns.mpr ⟨k, catalog_eq, ?_⟩⟩
    cases c with
    | none =>
        dsimp only
        split <;> first | exact ⟨_, rfl⟩ | exact remaining
    | some c =>
        cases k with
        | none =>
            dsimp only
            split <;> first | exact ⟨_, rfl⟩ | exact remaining
        | some k =>
            have held := parseQuantity_unit claimed_eq
            have held' : (if k.unit.isNull then unit else k.unit).writable = true := by
              split
              · exact stated
              · exact parseQuantity_unit catalog_eq
            obtain ⟨b, comparable⟩ := numericallyComparable_returns held held'
            refine bind_returns.mpr ⟨b, comparable, ?_⟩
            cases b with
            | true => exact compareNumeric_returns held held' named catalog
            | false =>
                rw [if_neg Bool.false_ne_true]
                split <;> first | exact ⟨_, rfl⟩ | exact remaining

/-- What `compare` reads of the two values, it can read. -/
def Equatable (claimed : Wire F) : Wire F → Prop
  | .null | .bool _ => True
  | .array members => Searchable claimed members
  | catalog => claimed.huge = false ∧ catalog.huge = false

def namesContainment (op : Wire F) : Prop := ∃ operator ∈ containmentOperators, operatorOf op = .ok operator

/-- What `compare` reads of a claim and an attribute, it can read. -/
def Commensurable (claimed recorded op : Wire F) : Prop :=
  let catalog := (attributeValue recorded).1
  (namesContainment op → catalog.isNull = false → Searchable claimed (membersOf catalog)) ∧
  (¬ namesContainment op → carriesNoValue claimed = false → isUndefinedNumber claimed = false →
    Equatable claimed catalog)

theorem compareEqual_returns {claimed catalog unit key : Wire F} (writable : claimed.writable = true)
    (writable' : catalog.writable = true) (stated : unit.writable = true)
    (named : key.writable = true) :
    (∃ outcome, compareEqual claimed catalog unit key = .ok outcome) ↔
      (carriesNoValue claimed = false → isUndefinedNumber claimed = false → Equatable claimed catalog) := by
  unfold compareEqual
  cases carriesNoValue claimed with
  | true => exact iff_of_true ⟨_, rfl⟩ nofun
  | false =>
      cases isUndefinedNumber claimed with
      | true => exact iff_of_true ⟨_, rfl⟩ nofun
      | false =>
          simp only [Bool.false_eq_true, if_false, forall_const]
          cases catalog with
          | null => exact iff_of_true ⟨_, rfl⟩ trivial
          | bool recorded => exact iff_of_true (compareBoolean_returns writable recorded) trivial
          | array members =>
              exact compareMultivalued_returns writable (Wire.writable_array.mp writable')
          | _ => exact compareScalar_returns writable writable' stated named

theorem compare_returns {claimed recorded key op : Wire F} (writable : claimed.writable = true)
    (writable' : recorded.writable = true) (named : key.writable = true)
    (spelled : op.writable = true) :
    (∃ outcome, compare claimed recorded key op = .ok outcome) ↔ Commensurable claimed recorded op := by
  obtain ⟨value_writable, unit_writable⟩ := attributeValue_writable writable'
  have operator : ∃ operator, operatorOf op = .ok operator := by
    unfold operatorOf
    split
    · exact ⟨_, rfl⟩
    · exact normalizeText_returns spelled
  obtain ⟨operator, read⟩ := operator
  have contains : namesContainment op ↔ operator ∈ containmentOperators := by
    unfold namesContainment
    rw [read]
    simp
  unfold compare Commensurable
  rw [contains]
  constructor
  · rintro ⟨outcome, walked⟩
    obtain ⟨_, read', walked⟩ := bind_eq_ok.mp walked
    obtain rfl := Except.ok.inj (read.symm.trans read')
    split at walked
    · rename_i inside
      exact ⟨fun _ => (compareContains_returns writable value_writable).mp ⟨outcome, walked⟩,
        fun outside => absurd inside outside⟩
    · rename_i outside
      exact ⟨fun inside => absurd inside outside,
        fun _ => (compareEqual_returns writable value_writable unit_writable named).mp ⟨outcome, walked⟩⟩
  · rintro ⟨containing, equating⟩
    refine bind_returns.mpr ⟨operator, read, ?_⟩
    split
    · rename_i inside
      exact (compareContains_returns writable value_writable).mpr (containing inside)
    · rename_i outside
      exact (compareEqual_returns writable value_writable unit_writable named).mpr (equating outside)

end Proxyshop.Verification
