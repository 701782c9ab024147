import Proxyshop.Ledger.Canonical

/-!
# Laws of the canonical form

The hashed body ignores the chain fields, and canonicalising it again changes nothing.
-/

/-!
## What the timestamp pattern matches

The groups of the pattern with the whole fraction, of which the normal form keeps three digits.
-/

namespace Proxyshop.Ledger

open Python

def truncated (ds : List Nat) : Nat := Str.ofDigits ((ds ++ List.replicate 3 0).take 3)

/-- A timestamp as its text spells it, with its whole fraction. -/
structure Spelled where
  year : Nat
  month : Nat
  day : Nat
  hour : Nat
  minute : Nat
  second : Nat
  fraction : List Nat
  offset : Int

def Spelled.stamp (s : Spelled) : Stamp :=
  ⟨s.year, s.month, s.day, s.hour, s.minute, s.second, truncated s.fraction, s.offset⟩

section Reading

variable [Unicode]

def fractionDigits (s : Str) : Option (List Nat × Str) :=
  match Str.expect '.' s with
  | none => some ([], s)
  | some rest =>
      let ds := (rest.takeWhile fun c => (Str.decimal? c).isSome).filterMap Str.decimal?
      if ds.isEmpty then none else some (ds, rest.drop ds.length)

def readSpelled (s : Str) : Option Spelled := do
  let (year, s) ← number 4 s
  let (month, s) ← number 2 (← Str.expect '-' s)
  let (day, s) ← number 2 (← Str.expect '-' s)
  let s ← (Str.expect 'T' s <|> Str.expect 't' s <|> Str.expect ' ' s)
  let (hour, s) ← number 2 s
  let (minute, s) ← number 2 (← Str.expect ':' s)
  let (second, s) ← number 2 (← Str.expect ':' s)
  let (fraction, s) ← fractionDigits s
  let offset ← offsetMinutes s
  return ⟨year, month, day, hour, minute, second, fraction, offset⟩

theorem fractionMs_eq (s : Str) :
    fractionMs s = (fractionDigits s).map fun (ds, rest) => (truncated ds, rest) := by
  unfold fractionMs fractionDigits
  cases Str.expect '.' s with
  | none => rfl
  | some rest =>
      dsimp only
      split <;> rfl

omit [Unicode] in
theorem bind_eq_map {A B C : Type} {x : Option A} {f : A → Option B} {g : A → Option C} {h : B → C}
    (same : ∀ a, g a = (f a).map h) : x >>= g = (x >>= f).map h := by
  cases x with
  | none => rfl
  | some a => exact same a

theorem matchRfc3339_eq (s : Str) : matchRfc3339 s = (readSpelled s).map Spelled.stamp := by
  unfold matchRfc3339 readSpelled
  refine bind_eq_map fun year => bind_eq_map fun _ => bind_eq_map fun month => bind_eq_map fun _ =>
    bind_eq_map fun day => bind_eq_map fun _ => bind_eq_map fun hour => bind_eq_map fun _ =>
    bind_eq_map fun minute => bind_eq_map fun _ => bind_eq_map fun second => ?_
  dsimp only
  rw [fractionMs_eq]
  cases fractionDigits second.2 with
  | none => rfl
  | some fraction => exact bind_eq_map (x := offsetMinutes fraction.2) fun offset => rfl

theorem fractionDigits_of_read {s : Str} {r : Spelled} (read : readSpelled s = some r) :
    ∃ before after, fractionDigits before = some (r.fraction, after) := by
  unfold readSpelled at read
  simp only [Option.bind_eq_bind, Option.bind_eq_some_iff, Option.pure_def, Option.some.injEq] at read
  obtain ⟨_, -, _, -, _, -, _, -, _, -, _, -, _, -, _, -, _, -, _, -, _, -, fraction, found, _, -, rfl⟩ := read
  exact ⟨_, fraction.2, found⟩

theorem fraction_decimal (decimals : ∀ c d, Unicode.decimal c = some d → d < 10) {s : Str} {r : Spelled}
    (read : readSpelled s = some r) : ∀ d ∈ r.fraction, d < 10 := by
  have decimal {c : CodePoint} {d : Nat} (value : Str.decimal? c = some d) : d < 10 := by
    unfold Str.decimal? at value
    split at value
    · unfold Str.digit? at value
      split at value
      · rw [← Option.some.inj value]
        omega
      · cases value
    · exact decimals c d value
  obtain ⟨before, after, found⟩ := fractionDigits_of_read read
  unfold fractionDigits at found
  split at found
  · rw [Option.some.injEq, Prod.mk.injEq] at found
    rw [← found.1]
    exact nofun
  · dsimp only at found
    split at found
    · cases found
    · rw [Option.some.injEq, Prod.mk.injEq] at found
      intro d member
      rw [← found.1] at member
      obtain ⟨c, -, value⟩ := List.mem_filterMap.mp member
      exact decimal value

end Reading
end Proxyshop.Ledger

namespace Proxyshop.Ledger

open Python Hashing

theorem solid_spellMoment (t : DateTime) : ∀ c ∈ spellMoment t, c.isSpace = false := by
  have padded {width n : Nat} {c : CodePoint} (h : c ∈ Str.padded width n) : c.isSpace = false := by
    obtain ⟨d, digit⟩ := Str.isDigit_of_mem_padded h
    exact Str.isSpace_of_digit digit
  have mark {s : Str} (solid : (s.all fun c => !c.isSpace) = true) {c : CodePoint} (h : c ∈ s) :
      c.isSpace = false := by
    simpa using List.all_eq_true.mp solid c h
  intro c member
  simp only [spellMoment, DateTime.stamp, ← Str.padded_eq_ofNat (Nat.zero_le _), List.mem_append,
    or_assoc] at member
  rcases member with h | h | h | h | h | h | h | h | h | h | h | h | h | h
  all_goals first
    | exact padded h
    | exact mark (by decide) h

section CanonicalLaws

variable [Unicode]

/-! ## The chain fields -/

theorem canonicalFields_set {k : Str} (chain : k ∈ chainFields) (event : Record) (v : Value) :
    canonicalFields (Dict.set event k v) = canonicalFields event := by
  induction event with
  | nil => simp [Dict.set, canonicalFields, chain]
  | cons entry event ih =>
      obtain ⟨k', v'⟩ := entry
      unfold Dict.set
      split
      · rename_i same
        subst same
        rw [canonicalFields, canonicalFields, if_pos (Or.inl chain), if_pos (Or.inl chain)]
      · rw [canonicalFields, canonicalFields, ih]

theorem canonicalEvent_set {k : Str} (chain : k ∈ chainFields) (event : Record) (v : Value) :
    canonicalEvent (Dict.set event k v) = canonicalEvent event := by
  rw [canonicalEvent, canonicalEvent, canonicalFields_set chain]

theorem hashMessage_set {k : Str} (chain : k ∈ chainFields) (prev : Str) (event : Record)
    (v : Value) : hashMessage prev (Dict.set event k v) = hashMessage prev event := by
  rw [hashMessage, hashMessage, canonicalEvent_set chain]

theorem computeEventHash_set {k : Str} (chain : k ∈ chainFields) (prev : Str) (event : Record)
    (v : Value) : computeEventHash prev (Dict.set event k v) = computeEventHash prev event := by
  rw [computeEventHash, computeEventHash, hashMessage_set chain]

/-! ## Timestamps -/

theorem number_padded {width n : Nat} (positive : 0 < width) (fits : n < 10 ^ width) (rest : Str) :
    number width (Str.padded width n ++ rest) = some (n, rest) :=
  Str.number_padded Str.decimal?_of_digit? positive fits rest

theorem fractionDigits_spelled {milliseconds : Nat} (fits : milliseconds < 1000) :
    ∃ ds, fractionDigits (str "." ++ (Str.padded 3 milliseconds ++ str "Z")) = some (ds, str "Z") ∧
      ds.length = 3 ∧ Str.ofDigits ds = milliseconds := by
  have spelled := number_padded (show 0 < 3 by omega) fits (str "Z")
  obtain ⟨⟨ds, rest⟩, read, equal⟩ := Option.map_eq_some_iff.mp spelled
  obtain ⟨value, rfl⟩ := Prod.mk.inj equal
  obtain ⟨front, split, length, values⟩ := Str.digits_eq_some read
  have numeric : ∀ c ∈ front, (Str.decimal? c).isSome = true := by
    intro c member
    have value : Str.decimal? c ∈ ds.map some := values ▸ List.mem_map_of_mem member
    obtain ⟨d, -, equal⟩ := List.mem_map.mp value
    rw [← equal]
    rfl
  have taken : (front ++ str "Z").takeWhile (fun c => (Str.decimal? c).isSome) = front := by
    rw [List.takeWhile_append_of_pos numeric]
    exact List.append_nil front
  have collected : front.filterMap Str.decimal? = ds := by
    have through : front.filterMap Str.decimal? = (front.map Str.decimal?).filterMap id := by
      rw [List.filterMap_map]
      rfl
    rw [through, values, List.filterMap_map]
    exact List.filterMap_some
  have count : ds.length = 3 := by
    rw [← List.length_map (f := some), ← values, List.length_map, length]
  refine ⟨ds, ?_, count, value⟩
  have point : Str.expect '.' (str "." ++ (front ++ str "Z")) = some (front ++ str "Z") := rfl
  rw [split, fractionDigits, point]
  simp only [taken, collected]
  have nonempty : ds.isEmpty = false := by
    rw [List.isEmpty_eq_false_iff, ← List.length_pos_iff]
    omega
  rw [nonempty, count, ← length, List.drop_left]
  rfl

theorem readSpelled_spellMoment {t : DateTime} (late : 1000 ≤ t.year) :
    ∃ ds, ds.length = 3 ∧ Str.ofDigits ds = t.microsecond / 1000 ∧ readSpelled (spellMoment t) =
      some ⟨t.year, t.month, t.day, t.hour, t.minute, t.second, ds, 0⟩ := by
  obtain ⟨⟨_, year⟩, ⟨_, month⟩, ⟨_, day⟩, hour, minute, second, microsecond, _⟩ := t.valid
  have days : Calendar.daysInMonth t.year t.month ≤ 31 := by
    unfold Calendar.daysInMonth
    split
    · split <;> decide
    all_goals decide
  have two {n : Nat} (fits : n < 100) (rest : Str) :
      number 2 (Str.padded 2 n ++ rest) = some (n, rest) := number_padded (by decide) fits rest
  have four (rest : Str) : number 4 (Str.ofNat t.year ++ rest) = some (t.year, rest) := by
    have long : 4 ≤ (Str.ofNat t.year).length := by
      by_contra short
      have early : t.year < 10 ^ 3 := (Str.length_ofNat_lt (by decide)).mp (by omega)
      omega
    rw [← Str.padded_eq_ofNat long]
    exact number_padded (by decide) (by omega) rest
  have mark (c : String) (d : Char) (rest : Str) (h : c.toList = [d]) :
      Str.expect d (str c ++ rest) = some rest := by
    rw [str, h]
    exact Str.expect_cons d rest
  obtain ⟨ds, fraction, count, value⟩ := fractionDigits_spelled (show t.microsecond / 1000 < 1000 by omega)
  refine ⟨ds, count, value, ?_⟩
  simp only [readSpelled, spellMoment, DateTime.stamp, List.append_assoc, four,
    two (show t.month < 100 by omega), two (show t.day < 100 by omega),
    two (show t.hour < 100 by omega), two (show t.minute < 100 by omega),
    two (show t.second < 100 by omega), mark "-" '-' _ rfl, mark "T" 'T' _ rfl, mark ":" ':' _ rfl,
    fraction, Option.bind_eq_bind, Option.bind_some, Option.orElse_eq_orElse, Option.orElse_eq_or,
    Option.some_or]
  simp [offsetMinutes]

theorem matchRfc3339_spellMoment {t : DateTime} (late : 1000 ≤ t.year) : matchRfc3339 (spellMoment t) =
    some ⟨t.year, t.month, t.day, t.hour, t.minute, t.second, t.microsecond / 1000, 0⟩ := by
  obtain ⟨ds, count, value, read⟩ := readSpelled_spellMoment late
  have whole : truncated ds = t.microsecond / 1000 := by
    rw [truncated, List.take_append_of_le_length (by omega), List.take_of_length_le (by omega), value]
  rw [matchRfc3339_eq, read, Option.map_some, Spelled.stamp, whole]

theorem matchRfc3339_early {t : DateTime} (early : t.year < 1000) : matchRfc3339 (spellMoment t) = none := by
  have short : (Str.ofNat t.year).length ≤ 3 := (Str.length_ofNat_lt (by decide)).mpr (by omega)
  have none : ∀ rest, number 4 (Str.ofNat t.year ++ (str "-" ++ rest)) = none := by
    intro rest
    rw [number, Str.number, Option.map_eq_none_iff]
    cases read : Str.digits Str.decimal? 4 (Str.ofNat t.year ++ (str "-" ++ rest)) with
    | none => rfl
    | some result =>
        obtain ⟨front, split, length, values⟩ := Str.digits_eq_some read
        have mark : (Str.ofNat t.year ++ (str "-" ++ rest))[(Str.ofNat t.year).length]? =
            some (CodePoint.ofChar '-') := by
          rw [List.getElem?_append_right le_rfl, Nat.sub_self]
          rfl
        rw [split, List.getElem?_append_left (by omega)] at mark
        have digit := List.mem_map_of_mem (f := Str.decimal?) (List.mem_of_getElem? mark)
        rw [values] at digit
        obtain ⟨d, -, equal⟩ := List.mem_map.mp digit
        cases equal
  simp only [matchRfc3339, spellMoment, DateTime.stamp, List.append_assoc, none, Option.bind_eq_bind,
    Option.bind_none]

theorem rfc3339Ms_spellMoment {t : DateTime} (late : 1000 ≤ t.year) :
    rfc3339Ms (.str (spellMoment t)) = .ok (spellMoment t) := by
  obtain ⟨year, month, day, hour, minute, second, microsecond, _⟩ := t.valid
  have whole : DateTime.make? t.year t.month t.day t.hour t.minute t.second
      (t.microsecond / 1000 * 1000) (some 0) =
        some ⟨t.year, t.month, t.day, t.hour, t.minute, t.second, t.microsecond / 1000 * 1000, some 0,
          year, month, day, hour, minute, second, by omega, by simp [microsPerDay, microsPerSecond]⟩ := by
    rw [DateTime.make?, dif_pos]
  simp only [rfc3339Ms, Str.strip_eq_self (solid_spellMoment t), matchRfc3339_spellMoment late, whole]
  simp [spellMoment, DateTime.stamp]

theorem rfc3339Ms_early {t : DateTime} (early : t.year < 1000) :
    rfc3339Ms (.str (spellMoment t)) = .error (.canonicalisation .timestamp) := by
  simp only [rfc3339Ms, Str.strip_eq_self (solid_spellMoment t), matchRfc3339_early early]

theorem rfc3339Ms_again {t : DateTime} {s : Str} (read : rfc3339Ms (.str (spellMoment t)) = .ok s) :
    s = spellMoment t := by
  by_cases early : t.year < 1000
  · rw [rfc3339Ms_early early] at read
    cases read
  · rw [rfc3339Ms_spellMoment (by omega)] at read
    exact (Except.ok.inj read).symm

theorem rfc3339Ms_range {v : Value} {s : Str} (h : rfc3339Ms v = .ok s) : ∃ t, s = spellMoment t := by
  unfold rfc3339Ms at h
  split at h
  · split at h
    · exact ⟨_, (Except.ok.inj h).symm⟩
    · cases h
  · split at h
    · cases h
    · split at h
      · cases h
      · split at h
        · exact ⟨_, (Except.ok.inj h).symm⟩
        · split at h
          · exact ⟨_, (Except.ok.inj h).symm⟩
          · cases h
  · cases h

/-! ## Canonicalising twice -/

def Settled (entry : Str × Value) : Prop :=
  entry.1 ∉ chainFields ∧ entry.2.isNone = false ∧
    (entry.1 = str "ts" → ∃ t, entry.2 = .str (spellMoment t))

theorem canonicalFields_settled {event body : Record} (h : canonicalFields event = .ok body) :
    ∀ entry ∈ body, Settled entry := by
  induction event generalizing body with
  | nil =>
      cases h
      exact nofun
  | cons entry event ih =>
      obtain ⟨name, value⟩ := entry
      unfold canonicalFields at h
      split at h
      · exact ih h
      · rename_i kept
        simp only [not_or, Bool.not_eq_true] at kept
        split at h
        · obtain ⟨ts, normal, h⟩ := bind_eq_ok.mp h
          obtain ⟨rest, tail, h⟩ := bind_eq_ok.mp h
          cases h
          obtain ⟨t, spelled⟩ := rfc3339Ms_range normal
          intro entry member
          rcases List.mem_cons.mp member with rfl | later
          · exact ⟨kept.1, rfl, fun _ => ⟨t, congrArg Value.str spelled⟩⟩
          · exact ih tail entry later
        · rename_i other
          obtain ⟨rest, tail, h⟩ := bind_eq_ok.mp h
          cases h
          intro entry member
          rcases List.mem_cons.mp member with rfl | later
          · exact ⟨kept.1, kept.2, fun same => absurd same other⟩
          · exact ih tail entry later

theorem canonicalFields_of_settled {body again : Record} (settled : ∀ entry ∈ body, Settled entry)
    (read : canonicalFields body = .ok again) : again = body := by
  induction body generalizing again with
  | nil =>
      cases read
      rfl
  | cons entry body ih =>
      obtain ⟨name, value⟩ := entry
      obtain ⟨free, given, ts⟩ := settled _ List.mem_cons_self
      have rest {again' : Record} (read : canonicalFields body = .ok again') : again' = body :=
        ih (fun entry member => settled entry (List.mem_cons_of_mem _ member)) read
      have kept : ¬ (name ∈ chainFields ∨ value.isNone = true) := by
        rw [not_or, Bool.not_eq_true]
        exact ⟨free, given⟩
      rw [canonicalFields, if_neg kept] at read
      split at read
      · rename_i same
        obtain ⟨t, spelled⟩ := ts same
        simp only at spelled
        rw [spelled] at read
        obtain ⟨ts', normal, read⟩ := bind_eq_ok.mp read
        obtain ⟨tail, later, read⟩ := bind_eq_ok.mp read
        cases read
        rw [rest later, rfc3339Ms_again normal, spelled]
      · obtain ⟨tail, later, read⟩ := bind_eq_ok.mp read
        cases read
        rw [rest later]

theorem canonicalEvent_eq_ok {event body : Record} (h : canonicalEvent event = .ok body) :
    ∃ fields, canonicalFields event = .ok fields ∧ Dict.contains fields (str "event_id") = true ∧
      Dict.contains fields (str "kind") = true ∧
        body = Dict.setDefault fields (str "payload") (.dict []) := by
  obtain ⟨fields, loop, h⟩ := bind_eq_ok.mp h
  simp only at h
  split at h
  · rename_i complete
    cases h
    have both := List.filter_eq_nil_iff.mp complete
    refine ⟨fields, loop, ?_, ?_, rfl⟩
    · simpa using both _ List.mem_cons_self
    · simpa using both (str "kind") (by simp)
  · cases h

theorem canonicalEvent_idem {event body again : Record} (h : canonicalEvent event = .ok body)
    (read : canonicalEvent body = .ok again) : again = body := by
  obtain ⟨fields, loop, eventId, kind, rfl⟩ := canonicalEvent_eq_ok h
  have settled : ∀ entry ∈ Dict.setDefault fields (str "payload") (Value.dict []), Settled entry := by
    intro entry member
    rcases Dict.mem_setDefault member with old | rfl
    · exact canonicalFields_settled loop entry old
    · exact ⟨by decide, rfl, fun same => absurd same (by decide)⟩
  obtain ⟨fields', loop', -, -, rfl⟩ := canonicalEvent_eq_ok read
  rw [canonicalFields_of_settled settled loop']
  exact Dict.setDefault_of_contains (Dict.contains_setDefault_self fields (str "payload") (Value.dict [])) _

end CanonicalLaws
end Proxyshop.Ledger
