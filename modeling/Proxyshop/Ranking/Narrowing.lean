import Proxyshop.Ranking.Verification
import Proxyshop.Verification.Confirmation

/-!
# The vocabulary and the narrowed snapshot

The keys that a snapshot is said to decide, beside what the verifier resolves; and the snapshot cut down
to one row, beside the whole.
-/

namespace Proxyshop.Ranking

open Python Numbers Contracts Structures Verification

/-! ## The vocabulary -/

section Vocabulary

variable {F : Type} [Format F] [Spelling F] [Folding]

/-- A claim of a value under a key, with no product and no provenance of its own. -/
def claimOn (key : Str) (value : Wire F) : Wire F := .object [(str "key", .string key), (str "value", value)]

def pitchOn (productRef : Wire F) : Wire F := .object [(str "product_ref", productRef)]

/-- Verifying the claim resolves a product and a reading, which is not stale where it is live state. -/
def Decides (snapshot productRef : Wire F) (key : Str) (value : Wire F) : Prop :=
  ∃ product recorded location,
    resolveProduct (claimOn key value) (pitchOn productRef) (productsOf snapshot) = .ok (.ok product) ∧
    lookupAttribute product (.string key) snapshot = .ok (some (recorded, location)) ∧
    (key ∈ liveStateKeys → ∃ window, liveStateWindow (.string key : Wire F) = .ok window ∧
      isStale recorded snapshot (claimOn key value) window = .ok false)

def VocabularyLaw (snapshot productRef : Wire F) : Prop :=
  ∃ keys, catalogKeys snapshot productRef = .ok keys ∧
    ∀ key value, key ∈ keys ↔ Decides snapshot productRef key value

/-- No reading of live state is recorded as null, and the age of each can be measured. -/
def LiveStateReadable (snapshot productRef : Wire F) : Prop :=
  ∀ product, resolveProduct (.object []) (pitchOn productRef) (productsOf snapshot) = .ok (.ok product) →
    ∀ key ∈ liveStateKeys, ∀ recorded location,
      lookupNamed product snapshot key = .ok (some (recorded, location)) →
      recorded ≠ .null ∧ Datable recorded snapshot

omit [Spelling F] [Folding] [Format F] in
theorem mem_keys_iff {v : Wire F} {name : Str} :
    name ∈ (v.record?.map Dict.keys).getD [] ↔ ∃ w, heldAt v name = some w := by
  cases v with
  | object members =>
      change name ∈ Dict.keys members ↔ ∃ w, Dict.get? members name = some w
      rw [← Dict.contains_iff, Dict.contains, Option.isSome_iff_exists]
  | _ => exact iff_of_false List.not_mem_nil (by rintro ⟨_, held⟩; cases held)

omit [Format F] in
theorem lookupNamed_found {product snapshot : Wire F} {reading : Option (Wire F)}
    (read : stockReading product snapshot = .ok reading) (name : Str) :
    (∃ recorded location, lookupNamed product snapshot name = .ok (some (recorded, location))) ↔
      name ∈ ([product.get (str "attributes"), product.get (str "offer"), product].flatMap fun block =>
          (block.record?.map Dict.keys).getD []) ∨ (reading.isSome = true ∧ name = stockKey) := by
  simp only [List.flatMap_cons, List.flatMap_nil, List.append_nil, List.mem_append, mem_keys_iff]
  unfold lookupNamed
  cases listed : heldAt (product.get (str "attributes")) name with
  | some recorded => exact iff_of_true ⟨_, _, rfl⟩ (Or.inl (Or.inl ⟨_, rfl⟩))
  | none =>
      cases offered : heldAt (product.get (str "offer")) name with
      | some raw =>
          refine iff_of_true ?_ (Or.inl (Or.inr (Or.inl ⟨_, rfl⟩)))
          dsimp only
          split
          · exact ⟨_, _, rfl⟩
          · exact ⟨_, _, rfl⟩
      | none =>
          cases held : heldAt product name with
          | some raw => exact iff_of_true ⟨_, _, rfl⟩ (Or.inl (Or.inr (Or.inr ⟨_, rfl⟩)))
          | none =>
              dsimp only
              by_cases stock : name = stockKey
              · rw [if_pos stock, read]
                cases reading with
                | none => exact iff_of_false (by rintro ⟨_, _, ⟨⟩⟩) (by simp)
                | some derived => exact iff_of_true ⟨_, _, rfl⟩ (Or.inr ⟨rfl, stock⟩)
              · rw [if_neg stock]
                simp [stock, pure, Except.pure]

omit [Folding] in
theorem resolveProduct_claimOn (snapshot productRef : Wire F) (key : Str) (value : Wire F) :
    resolveProduct (claimOn key value) (pitchOn productRef) (productsOf snapshot) =
      resolveProduct (.object []) (pitchOn productRef) (productsOf snapshot) := rfl

omit [Folding] in
theorem isStale_claimOn (recorded snapshot : Wire F) (key : Str) (value : Wire F) (floor : Option (Extended F)) :
    isStale recorded snapshot (claimOn key value) floor = isStale recorded snapshot (.object []) floor := rfl

/-- The names that the blocks of a product state, and that of the derived reading if there is one. -/
def statedKeys (product : Wire F) (reading : Option (Wire F)) : List Str :=
  let stated := [product.get (str "attributes"), product.get (str "offer"), product].flatMap fun block =>
    (block.record?.map Dict.keys).getD []
  if reading.isSome then stated ++ [stockKey] else stated

omit [Spelling F] [Folding] [Format F] in
theorem mem_statedKeys {product : Wire F} {reading : Option (Wire F)} (name : Str) :
    name ∈ statedKeys product reading ↔
      name ∈ ([product.get (str "attributes"), product.get (str "offer"), product].flatMap fun block =>
          (block.record?.map Dict.keys).getD []) ∨ (reading.isSome = true ∧ name = stockKey) := by
  unfold statedKeys
  dsimp only
  cases reading.isSome with
  | false => simp only [Bool.false_eq_true, if_false, false_and, or_false]
  | true => simp only [if_true, true_and, List.mem_append, List.mem_singleton]

omit [Folding] in
theorem isStale_bare_returns {recorded snapshot : Wire F} (held : recorded.writable = true)
    (held' : snapshot.writable = true) (floor : Option (Extended F)) :
    (∃ stale, isStale recorded snapshot (.object []) floor = .ok stale) ↔ Datable recorded snapshot :=
  isStale_returns held held' rfl floor

def keepsKey (product snapshot : Wire F) (key : Str) : Except PyError Bool := do
  if key ∈ liveStateKeys then
    match ← lookupNamed product snapshot key with
    | none => return false
    | some (recorded, _) =>
        if recorded.isNull then return false
        else return !(← isStale recorded snapshot (.object []) (some stockEvidenceWindowDays))
  else return true

theorem catalogKeys_eq_ok {snapshot productRef : Wire F} {keys : List Str} :
    catalogKeys snapshot productRef = .ok keys ↔
      (∃ failure, resolveProduct (.object []) (pitchOn productRef) (productsOf snapshot) = .ok (.error failure) ∧
        keys = []) ∨
      ∃ product reading, resolveProduct (.object []) (pitchOn productRef) (productsOf snapshot) =
          .ok (.ok product) ∧ stockReading product snapshot = .ok reading ∧
        (statedKeys product reading).filterM (keepsKey product snapshot) = .ok keys := by
  unfold catalogKeys
  rw [bind_eq_ok]
  constructor
  · rintro ⟨resolved, resolves, made⟩
    cases resolved with
    | error failure => exact Or.inl ⟨failure, resolves, (Except.ok.inj made).symm⟩
    | ok product =>
        obtain ⟨reading, read, made⟩ := bind_eq_ok.mp made
        exact Or.inr ⟨product, reading, resolves, read, made⟩
  · rintro (⟨failure, resolves, rfl⟩ | ⟨product, reading, resolves, read, made⟩)
    · exact ⟨_, resolves, rfl⟩
    · exact ⟨_, resolves, bind_eq_ok.mpr ⟨reading, read, made⟩⟩

theorem keepsKey_returns {product snapshot : Wire F} (held : product.writable = true)
    (held' : snapshot.writable = true) (key : Str) (readable : key ∈ liveStateKeys → ∀ recorded location,
      lookupNamed product snapshot key = .ok (some (recorded, location)) →
      recorded ≠ .null ∧ Datable recorded snapshot) :
    ∃ kept, keepsKey product snapshot key = .ok kept := by
  rw [keepsKey]
  by_cases live : key ∈ liveStateKeys
  · rw [if_pos live]
    obtain ⟨found, looked, writable⟩ := lookupNamed_returns held held' key
    rw [looked]
    match found with
    | none => exact ⟨false, rfl⟩
    | some (recorded, location) =>
        obtain ⟨-, datable⟩ := readable live recorded location looked
        obtain ⟨stale, aged⟩ := (isStale_bare_returns (writable recorded location rfl) held'
          (some stockEvidenceWindowDays)).mpr datable
        change ∃ kept, (if recorded.isNull = true then _ else _) = _
        rw [aged]
        cases recorded.isNull with
        | true => exact ⟨false, rfl⟩
        | false => exact ⟨!stale, rfl⟩
  · rw [if_neg live]
    exact ⟨true, rfl⟩

theorem keepsKey_iff {product snapshot productRef : Wire F} (held : product.writable = true)
    (held' : snapshot.writable = true)
    (resolves : resolveProduct (.object []) (pitchOn productRef) (productsOf snapshot) = .ok (.ok product))
    {key : Str} (found : ∃ recorded location, lookupNamed product snapshot key = .ok (some (recorded, location)))
    (readable : key ∈ liveStateKeys → ∀ recorded location,
      lookupNamed product snapshot key = .ok (some (recorded, location)) →
      recorded ≠ .null ∧ Datable recorded snapshot) (value : Wire F) :
    keepsKey product snapshot key = .ok true ↔ Decides snapshot productRef key value := by
  obtain ⟨recorded, location, looked⟩ := found
  have decided : Decides snapshot productRef key value ↔ (key ∈ liveStateKeys →
      isStale recorded snapshot (.object []) (some stockEvidenceWindowDays) = .ok false) := by
    constructor
    · rintro ⟨product', recorded', location', resolves', looked', fresh⟩ live
      obtain rfl := Except.ok.inj (Except.ok.inj (resolves.symm.trans resolves'))
      obtain ⟨rfl, rfl⟩ := Prod.mk.inj (Option.some.inj (Except.ok.inj (looked.symm.trans looked')))
      obtain ⟨window, stated, fresh⟩ := fresh live
      have floor : window = some stockEvidenceWindowDays := by
        rw [liveStateWindow] at stated
        exact (Except.ok.inj stated).symm.trans (if_pos live)
      rw [floor] at fresh
      exact fresh
    · intro fresh
      exact ⟨product, recorded, location, resolves, looked, fun live =>
        ⟨some stockEvidenceWindowDays, congrArg Except.ok (if_pos live), fresh live⟩⟩
  rw [decided, keepsKey]
  by_cases live : key ∈ liveStateKeys
  · obtain ⟨present, datable⟩ := readable live recorded location looked
    obtain ⟨recorded_writable⟩ : Nonempty (recorded.writable = true) := by
      obtain ⟨found, walked, writable⟩ := lookupNamed_returns held held' key
      obtain rfl := Except.ok.inj (looked.symm.trans walked)
      exact ⟨writable recorded location rfl⟩
    obtain ⟨stale, aged⟩ := (isStale_bare_returns recorded_writable held' (some stockEvidenceWindowDays)).mpr datable
    have absent : recorded.isNull = false := by
      cases recorded with
      | null => exact absurd rfl present
      | _ => rfl
    rw [if_pos live, looked]
    change (if recorded.isNull = true then _ else _) = _ ↔ _
    rw [absent, aged]
    cases stale <;> simp [live]
  · rw [if_neg live]
    exact iff_of_true rfl fun live' => absurd live' live

theorem vocabularyLaw_iff {snapshot productRef : Wire F} (held : snapshot.writable = true)
    (named : productRef.writable = true) :
    VocabularyLaw snapshot productRef ↔ LiveStateReadable snapshot productRef := by
  obtain ⟨resolved, resolves⟩ : ∃ resolved, resolveProduct (.object []) (pitchOn productRef)
      (productsOf snapshot) = .ok resolved :=
    (resolveProduct_returns (productsOf_writable held)).mpr fun _ => named
  cases resolved with
  | error failure =>
      refine iff_of_true ⟨[], catalogKeys_eq_ok.mpr (Or.inl ⟨failure, resolves, rfl⟩), fun key value => ?_⟩ ?_
      · refine iff_of_false nofun ?_
        rintro ⟨product, _, _, resolves', -⟩
        exact nomatch Except.ok.inj (resolves.symm.trans resolves')
      · intro product resolves'
        exact nomatch Except.ok.inj (resolves.symm.trans resolves')
  | ok product =>
      have writable := productsOf_writable held product (resolveProduct_mem resolves)
      obtain ⟨reading, read, -⟩ := stockReading_returns writable held
      have stated : ∀ key, (∃ recorded location, lookupNamed product snapshot key =
          .ok (some (recorded, location))) ↔ key ∈ statedKeys product reading := fun key =>
        (lookupNamed_found read key).trans (mem_statedKeys key).symm
      constructor
      · rintro ⟨keys, made, law⟩ product' resolves' key live recorded location looked
        obtain rfl := Except.ok.inj (Except.ok.inj (resolves.symm.trans resolves'))
        obtain ⟨_, resolves', -⟩ | ⟨product', reading', resolves', read', walked⟩ := catalogKeys_eq_ok.mp made
        · exact nomatch Except.ok.inj (resolves.symm.trans resolves')
        obtain rfl := Except.ok.inj (Except.ok.inj (resolves.symm.trans resolves'))
        obtain rfl := Except.ok.inj (read.symm.trans read')
        obtain ⟨answers, kept⟩ := mem_filterM walked
        have mem := (stated key).mp ⟨recorded, location, looked⟩
        obtain ⟨b, answer⟩ := answers key mem
        rw [keepsKey, if_pos live, looked] at answer
        by_cases null : recorded = .null
        · subst null
          refine absurd ((law key .null).mpr ⟨product, .null, location, resolves, looked, fun _ =>
            ⟨some stockEvidenceWindowDays, congrArg Except.ok (if_pos live), rfl⟩⟩) fun member => ?_
          obtain ⟨-, answer'⟩ := (kept key).mp member
          rw [keepsKey, if_pos live, looked] at answer'
          exact nomatch answer'
        · refine ⟨null, ?_⟩
          obtain ⟨found, walked', recorded_writable⟩ := lookupNamed_returns writable held key
          obtain rfl := Except.ok.inj (looked.symm.trans walked')
          rw [← isStale_bare_returns (recorded_writable recorded location rfl) held (some stockEvidenceWindowDays)]
          have absent : recorded.isNull = false := by
            cases recorded with
            | null => exact absurd rfl null
            | _ => rfl
          change (if recorded.isNull = true then _ else _) = _ at answer
          rw [absent] at answer
          obtain ⟨stale, aged, -⟩ := bind_eq_ok.mp answer
          exact ⟨stale, aged⟩
      · intro readable
        have decides : ∀ key ∈ statedKeys product reading, ∀ value,
            keepsKey product snapshot key = .ok true ↔ Decides snapshot productRef key value := by
          intro key mem value
          exact keepsKey_iff writable held resolves ((stated key).mpr mem)
            (fun live => readable product resolves key live) value
        obtain ⟨keys, walked⟩ : ∃ keys, (statedKeys product reading).filterM (keepsKey product snapshot) =
            .ok keys :=
          filterM_returns fun key mem => keepsKey_returns writable held key fun live =>
            readable product resolves key live
        refine ⟨keys, catalogKeys_eq_ok.mpr (Or.inr ⟨product, reading, resolves, read, walked⟩), fun key value => ?_⟩
        rw [(mem_filterM walked).2]
        constructor
        · rintro ⟨mem, kept⟩
          exact (decides key mem value).mp kept
        · intro decided
          have mem : key ∈ statedKeys product reading := by
            obtain ⟨product', recorded, location, resolves', looked, -⟩ := decided
            obtain rfl := Except.ok.inj (Except.ok.inj (resolves.symm.trans resolves'))
            exact (stated key).mp ⟨recorded, location, looked⟩
          exact ⟨mem, (decides key mem value).mpr decided⟩

end Vocabulary

/-! ## Snapshots that differ in their products alone -/

section Beside

variable {F : Type}

def AlikeBeside (snapshot snapshot' : Wire F) : Prop :=
  ∀ name, name ≠ str "products" → snapshot.get name = snapshot'.get name

variable [Format F] [Spelling F] {snapshot snapshot' : Wire F} (alike : AlikeBeside snapshot snapshot')

include alike

omit [Spelling F] in
theorem windowDays_beside (floor : Option (Extended F)) :
    windowDays snapshot floor = windowDays snapshot' floor := by
  unfold windowDays statedWindow
  rw [alike (str "freshness_window_days") (by decide)]

theorem isStale_beside (recorded claim : Wire F) (floor : Option (Extended F)) :
    isStale recorded snapshot claim floor = isStale recorded snapshot' claim floor := by
  unfold isStale
  rw [windowDays_beside alike, alike (str "read_at") (by decide), alike (str "captured_at") (by decide)]

theorem evidenceRefs_beside (product key : Wire F) (found : Bool) :
    evidenceRefs snapshot product key found = evidenceRefs snapshot' product key found := by
  unfold evidenceRefs
  rw [alike (str "snapshot_id") (by decide), alike (str "evidence_refs") (by decide)]

variable [Folding]

omit [Format F] in
theorem stockReading_beside (product : Wire F) : stockReading product snapshot = stockReading product snapshot' := by
  unfold stockReading
  rw [alike (str "captured_at") (by decide), alike (str "stale") (by decide)]

omit [Format F] in
theorem lookupNamed_beside (product : Wire F) (name : Str) :
    lookupNamed product snapshot name = lookupNamed product snapshot' name := by
  unfold lookupNamed
  rw [stockReading_beside alike, alike (str "captured_at") (by decide)]

theorem judge_beside (claim key : Wire F) (resolved : Except Status (Wire F)) :
    judge claim key snapshot resolved = judge claim key snapshot' resolved := by
  cases resolved with
  | error status => rfl
  | ok product =>
      have looked : lookupAttribute product key snapshot = lookupAttribute product key snapshot' := by
        unfold lookupAttribute
        simp only [lookupNamed_beside alike]
      simp only [judge, judgeKey, looked, isStale_beside alike]

theorem verifyClaim_beside {pitch claim : Wire F} (index : Nat)
    (resolve : resolveProduct claim pitch (productsOf snapshot) =
      resolveProduct claim pitch (productsOf snapshot')) :
    verifyClaim pitch snapshot claim index = verifyClaim pitch snapshot' claim index := by
  simp only [verifyClaim, resolve, judge_beside alike, evidenceRefs_beside alike]

end Beside

/-! ## The narrowed snapshot -/

section Narrowed

variable [Spelling Binary64]

/-- The row that the snapshot is narrowed to resolves as the whole list does. -/
def SameRow (snapshot productRef : Value) : Prop :=
  ∀ products text row, snapshot.get (str "products") = .array products → textOf productRef = .ok text →
    products.findM? (isRow text) = .ok (some row) →
    products.findM? (refersTo productRef) = [row].findM? (refersTo productRef)

/-- What the narrowed snapshot decides, the whole one decides alike. -/
def NarrowingLaw [Folding] (snapshot productRef : Value) : Prop :=
  ∀ narrowed, narrowedTo snapshot productRef = .ok narrowed →
    (∀ pitch, pitch.get (str "product_ref") = productRef → ∀ storeId entry,
      verifyClaim pitch narrowed (pitchClaim storeId entry) entry.2 =
        verifyClaim pitch snapshot (pitchClaim storeId entry) entry.2) ∧
    catalogUnits narrowed productRef = catalogUnits snapshot productRef

theorem narrowedTo_eq_ok {snapshot productRef narrowed : Value}
    (cut : narrowedTo snapshot productRef = .ok narrowed) :
    narrowed = snapshot ∨ productRef.isNull = false ∧ ∃ fields products text row,
      snapshot = .object fields ∧ snapshot.get (str "products") = .array products ∧
      textOf productRef = .ok text ∧ products.findM? (isRow text) = .ok (some row) ∧
      narrowed = .object (Dict.set fields (str "products") (.array [row])) := by
  unfold narrowedTo at cut
  cases absent : productRef.isNull with
  | true =>
      rw [absent] at cut
      exact Or.inl (Except.ok.inj cut).symm
  | false =>
      rw [absent] at cut
      simp only [Bool.false_eq_true, if_false] at cut
      split at cut
      · rename_i fields products listed
        obtain ⟨text, read, cut⟩ := bind_eq_ok.mp cut
        obtain ⟨found, walked, cut⟩ := bind_eq_ok.mp cut
        cases found with
        | none => exact Or.inl (Except.ok.inj cut).symm
        | some row => exact Or.inr ⟨rfl, fields, products, text, row, rfl, listed, read, walked,
            (Except.ok.inj cut).symm⟩
      · exact Or.inl (Except.ok.inj cut).symm

omit [Spelling Binary64] in
theorem alikeBeside_set (fields : Dict Str Value) (products : Value) :
    AlikeBeside (.object (Dict.set fields (str "products") products)) (.object fields) := by
  intro name other
  change (Dict.get? _ name).getD _ = (Dict.get? fields name).getD _
  rw [Dict.get?_set_ne fields products other]

omit [Spelling Binary64] in
theorem pitchClaim_product (storeId : Str) (entry : Value × Nat) :
    (pitchClaim storeId entry).get (str "product_ref") = .null := by
  change (Dict.get? (Dict.set _ _ _) _).getD _ = _
  rw [Dict.get?_set_ne _ _ (by decide), (Dict.get?_eq_none_iff _ _).mpr]
  · rfl
  · intro member
    obtain ⟨field, kept, name⟩ := List.mem_map.mp member
    have allowed := (List.mem_filter.mp kept).2
    rw [name] at allowed
    simp [storeSuppliedFieldsDropped] at allowed

theorem catalogUnits_of_row {fields : Dict Str Value} {productRef row : Value} {products : List Value} {text : Str}
    (absent : productRef.isNull = false)
    (listed : (Json.object fields : Value).get (str "products") = .array products)
    (read : textOf productRef = .ok text) (walked : products.findM? (isRow text) = .ok (some row)) :
    catalogUnits (.object fields) productRef = .ok (addUnits [] row) := by
  have some_products : Wire.itemsOrNone (.array products : Value) = .ok products := by
    cases products with
    | nil => exact absurd (findM?_eq_some walked).1 List.not_mem_nil
    | cons _ _ => rfl
  unfold catalogUnits
  rw [listed, some_products, absent, read]
  simp only [bind, Except.bind, Bool.false_eq_true, if_false, walked]
  rfl

theorem narrowingLaw_of_sameRow [Folding] {snapshot productRef : Value} (same : SameRow snapshot productRef) :
    NarrowingLaw snapshot productRef := by
  intro narrowed cut
  obtain rfl | ⟨absent, fields, products, text, row, rfl, listed, read, walked, rfl⟩ := narrowedTo_eq_ok cut
  · exact ⟨fun pitch named storeId entry => rfl, rfl⟩
  · have products_eq : productsOf (.object fields : Value) = products := by rw [productsOf, listed]
    have held : (Json.object (Dict.set fields (str "products") (.array [row])) : Value).get (str "products") =
        .array [row] := by
      change (Dict.get? _ _).getD _ = _
      rw [Dict.get?_set_self]
      rfl
    have narrowed_eq : productsOf (.object (Dict.set fields (str "products") (.array [row])) : Value) = [row] := by
      rw [productsOf, held]
    obtain ⟨member, chosen⟩ := findM?_eq_some walked
    constructor
    · intro pitch named storeId entry
      apply verifyClaim_beside (alikeBeside_set fields _)
      have wanted : wantedProduct (pitchClaim storeId entry) pitch = productRef := by
        rw [wantedProduct, pitchClaim_product, named]
        rfl
      have some_products : products.isEmpty = false := by
        cases products with
        | nil => exact absurd member List.not_mem_nil
        | cons _ _ => rfl
      rw [resolveProduct, resolveProduct, products_eq, narrowed_eq, wanted, absent, some_products,
        same products text row listed read walked]
      rfl
    · have alone : [row].findM? (isRow text) = .ok (some row) := by
        rw [List.findM?, chosen]
        rfl
      rw [catalogUnits_of_row absent held read alone, catalogUnits_of_row absent listed read walked]

theorem sameRow_of_named {snapshot productRef : Value}
    (named : ∀ products, snapshot.get (str "products") = .array products → ∀ row ∈ products,
      (heldAt row (str "product_ref")).isSome = true ∨
        textOf productRef ≠ textOf (.null : Value) ∧ textOf productRef ≠ .ok []) :
    SameRow snapshot productRef := by
  intro products text row listed read walked
  -- the two tests agree on every row
  have agree : ∀ product ∈ products, refersTo productRef product = isRow text product := by
    intro product member
    have got : product.get (str "product_ref") = (heldAt product (str "product_ref")).getD .null := by
      cases product with
      | object fields => rfl
      | _ => rfl
    rw [refersTo, isRow, rowRef, got, read]
    cases held : heldAt product (str "product_ref") with
    | some ref => rfl
    | none =>
        obtain present | ⟨notNull, notEmpty⟩ := named products listed product member
        · rw [held] at present
          exact nomatch present
        · rw [read] at notNull notEmpty
          obtain ⟨nothing, spelled⟩ : ∃ s, textOf (.null : Value) = .ok s := textOf_returns.mpr rfl
          rw [spelled] at notNull
          have other : nothing ≠ text := fun same => notNull (same ▸ rfl)
          have other' : ([] : Str) ≠ text := fun same => notEmpty (same ▸ rfl)
          change (textOf (.null : Value) >>= fun s => Except.ok (decide (s = text))) =
            .ok (decide (([] : Str) = text))
          rw [spelled, decide_eq_false other']
          exact congrArg Except.ok (decide_eq_false other)
  obtain ⟨member, chosen⟩ := findM?_eq_some walked
  rw [findM?_congr agree, walked, List.findM?, agree row member, chosen]
  rfl

/-- The vocabulary is what the verifier resolves if and only if the live state can be read; and the
narrowed snapshot decides as the whole does, where its row is the one resolved. -/
theorem vocabulary_and_narrowing [Folding] (snapshot productRef : Value) (held : snapshot.writable = true)
    (named : productRef.writable = true) :
    (VocabularyLaw snapshot productRef ↔ LiveStateReadable snapshot productRef) ∧
      (SameRow snapshot productRef → NarrowingLaw snapshot productRef) :=
  ⟨vocabularyLaw_iff held named, narrowingLaw_of_sameRow⟩

end Narrowed

/-! ### Frames on a shelf -/

section Shelf

def madeOf (material : String) : Str × Value :=
  (str "attributes", .object [(str "material", .string (str material))])

def namedAs (ref : String) : Str × Value := (str "product_ref", .string (str ref))

def twoRows (first second : Dict Str Value) : Value :=
  .object [(str "products", .array [.object first, .object second])]

/-- A catalogue whose product states an availability of null. -/
def nullShelf : Value :=
  .object [(str "products",
    .array [.object [(str "attributes", .object [(str "availability", .null)])]])]

theorem named_frames_narrow :
    letI := Spelling.nothing Binary64
    letI := Folding.ascii
    VocabularyLaw (twoRows [namedAs "A", madeOf "steel"] [namedAs "A", madeOf "oak"]) (.string (str "A")) ∧
      NarrowingLaw (twoRows [namedAs "A", madeOf "steel"] [namedAs "A", madeOf "oak"]) (.string (str "A")) := by
  let _ := Spelling.nothing Binary64
  let _ := Folding.ascii
  obtain ⟨vocabulary, narrowing⟩ := vocabulary_and_narrowing
    (twoRows [namedAs "A", madeOf "steel"] [namedAs "A", madeOf "oak"]) (.string (str "A")) (by decide)
    (by decide)
  refine ⟨vocabulary.mpr ?_, narrowing (sameRow_of_named ?_)⟩
  · intro product resolves key live recorded location looked
    obtain rfl : Json.object [namedAs "A", madeOf "steel"] = product :=
      Except.ok.inj (Except.ok.inj resolves)
    obtain rfl | rfl : key = str "in_stock" ∨ key = str "availability" := by
      simpa [liveStateKeys, stockKey] using live
    · exact nomatch Except.ok.inj looked
    · exact nomatch Except.ok.inj looked
  · intro products listed row member
    obtain rfl : [Json.object [namedAs "A", madeOf "steel"], .object [namedAs "A", madeOf "oak"]] = products :=
      Json.array.inj listed
    obtain rfl | rfl : row = .object [namedAs "A", madeOf "steel"] ∨ row = .object [namedAs "A", madeOf "oak"] := by
      simpa using member
    · exact Or.inl (by decide)
    · exact Or.inl (by decide)

/-- A null availability is looked up but left out; and a row without a reference passes for `None`. -/
theorem null_left_out_and_row_passed_over :
    letI := Spelling.nothing Binary64
    letI := Folding.ascii
    ¬ VocabularyLaw nullShelf .null ∧
      ¬ NarrowingLaw (twoRows [madeOf "steel"] [namedAs "None", madeOf "oak"]) (.string (str "None")) := by
  let _ := Spelling.nothing Binary64
  let _ := Folding.ascii
  constructor
  · intro law
    have readable := (vocabularyLaw_iff (by decide) (by decide)).mp law
    exact (readable (.object [(str "attributes", .object [(str "availability", .null)])]) rfl
      (str "availability") (by decide) .null .attributes rfl).1 rfl
  · intro law
    obtain ⟨same, -⟩ := law (.object [(str "products", .array [.object [namedAs "None", madeOf "oak"]])]) rfl
    have equal := same (pitchOn (.string (str "None"))) rfl []
      (claimOn (str "material") (.string (str "steel")), 0)
    have statuses := congrArg (fun verdict => verdict.toOption.map Finding.status) equal
    revert statuses
    decide

end Shelf

end Proxyshop.Ranking
