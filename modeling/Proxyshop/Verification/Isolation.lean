import Proxyshop.Verification.Legible

/-!
# One claim at a time

A verification returns if each of its claims can be read against the snapshot, and then the finding
on a claim is the one that it gets alone.
-/

namespace Proxyshop.Verification

open Python Numbers Contracts Structures

variable {F : Type} [Format F] [Spelling F]

/-! ## The product and the attribute -/

omit [Spelling F] in
theorem orElse_writable {v w : Wire F} (first : v.writable = true) (second : w.writable = true) :
    (orElse v w).writable = true := by
  unfold orElse
  split
  · exact first
  · exact second

omit [Format F] [Spelling F] in
theorem heldAt_writable {v w : Wire F} (held : v.writable = true) {name : Str}
    (found : heldAt v name = some w) : w.writable = true := by
  cases v with
  | object members => exact Wire.writable_of_get? held found
  | _ => cases found

omit [Format F] [Spelling F] in
theorem productsOf_writable {snapshot : Wire F} (held : snapshot.writable = true) :
    ∀ product ∈ productsOf snapshot, product.writable = true := by
  unfold productsOf
  split
  · rename_i items listed
    exact Wire.writable_array.mp (listed ▸ Wire.writable_get held (str "products"))
  · nofun

omit [Format F] in
theorem refersTo_returns {wanted product : Wire F} (held : product.writable = true) :
    (∃ b, refersTo wanted product = .ok b) ↔ wanted.writable = true := by
  obtain ⟨s, text⟩ := textOf_returns.mpr (Wire.writable_get held (str "product_ref"))
  rw [← textOf_returns]
  constructor
  · rintro ⟨b, compared⟩
    obtain ⟨_, -, compared⟩ := bind_eq_ok.mp compared
    obtain ⟨t, named, -⟩ := bind_eq_ok.mp compared
    exact ⟨t, named⟩
  · rintro ⟨t, named⟩
    exact bind_returns.mpr ⟨s, text, bind_returns.mpr ⟨t, named, _, rfl⟩⟩

theorem resolveProduct_returns {claim pitch : Wire F} {products : List (Wire F)}
    (held : ∀ product ∈ products, product.writable = true) :
    (∃ resolved, resolveProduct claim pitch products = .ok resolved) ↔
      (products ≠ [] → (wantedProduct claim pitch).writable = true) := by
  unfold resolveProduct
  cases products with
  | nil => exact iff_of_true ⟨_, rfl⟩ nofun
  | cons product rest =>
      simp only [List.isEmpty_cons, Bool.false_eq_true, if_false, ne_eq, reduceCtorEq,
        not_false_eq_true, forall_const]
      cases absent : (wantedProduct claim pitch).isNull with
      | true =>
          rw [Json.isNull_iff.mp absent]
          exact iff_of_true ⟨_, rfl⟩ rfl
      | false =>
          simp only [Bool.false_eq_true, if_false]
          constructor
          · rintro ⟨resolved, walked⟩
            obtain ⟨found, searched, -⟩ := bind_eq_ok.mp walked
            obtain ⟨b, compared, -⟩ := bind_eq_ok.mp searched
            exact (refersTo_returns (held product List.mem_cons_self)).mp ⟨b, compared⟩
          · intro wanted
            obtain ⟨found, searched⟩ := findM?_returns fun product inside =>
              (refersTo_returns (held product inside)).mpr wanted
            refine bind_returns.mpr ⟨found, searched, ?_⟩
            cases found <;> exact ⟨_, rfl⟩

theorem resolveProduct_mem {claim pitch product : Wire F} {products : List (Wire F)}
    (resolved : resolveProduct claim pitch products = .ok (.ok product)) : product ∈ products := by
  unfold resolveProduct at resolved
  split at resolved
  · cases resolved
  · split at resolved
    · match products, Except.ok.inj resolved with
      | [only], same =>
          cases same
          exact List.mem_singleton_self _
    · obtain ⟨found, searched, resolved⟩ := bind_eq_ok.mp resolved
      cases found with
      | none => cases resolved
      | some product =>
          cases resolved
          exact (findM?_eq_some searched).1

section Attributes

variable [Folding]

omit [Format F] in
theorem stockReading_returns {product snapshot : Wire F} (held : product.writable = true)
    (held' : snapshot.writable = true) :
    ∃ reading, stockReading product snapshot = .ok reading ∧
      ∀ derived, reading = some derived → derived.writable = true := by
  have read {raw observedAt : Wire F} (stale : Bool) (held : raw.writable = true)
      (dated : observedAt.writable = true) :
      ∃ reading, (do
        let stale := stale || isTrue (product.get (str "stale")) || isTrue (snapshot.get (str "stale"))
        return (← availabilityReading raw).map fun reading =>
          .object [(str "value", .bool reading), (str "observed_at", observedAt),
            (str "stale", .bool stale)] : Except PyError (Option (Wire F))) = .ok reading ∧
        ∀ derived, reading = some derived → derived.writable = true := by
    obtain ⟨answer, reads⟩ : ∃ answer, availabilityReading raw = .ok answer := by
      unfold availabilityReading
      split
      · exact ⟨_, rfl⟩
      · obtain ⟨s, text⟩ := normalizeText_returns held
        exact bind_returns.mpr ⟨s, text, _, rfl⟩
    refine ⟨_, bind_eq_ok.mpr ⟨answer, reads, rfl⟩, ?_⟩
    rintro derived found
    obtain ⟨reading, -, rfl⟩ := Option.map_eq_some_iff.mp found
    rw [Wire.writable_object]
    simp only [List.forall_mem_cons]
    exact ⟨rfl, dated, rfl, List.forall_mem_nil _⟩
  unfold stockReading
  dsimp only
  cases row : heldAt ((product.get (str "attributes")).get (str "availability")) (str "value") with
  | some raw =>
      exact read _ (heldAt_writable (Wire.writable_get (Wire.writable_get held _) _) row)
        (Wire.writable_get (Wire.writable_get (Wire.writable_get held _) _) _)
  | none =>
      cases offered : heldAt (product.get (str "offer")) (str "availability") with
      | some raw =>
          exact read _ (heldAt_writable (Wire.writable_get held _) offered) (Wire.writable_get held' _)
      | none => exact ⟨none, rfl, by rintro _ ⟨⟩⟩

omit [Format F] in
theorem lookupNamed_returns {product snapshot : Wire F} (held : product.writable = true)
    (held' : snapshot.writable = true) (name : Str) :
    ∃ found, lookupNamed product snapshot name = .ok found ∧
      ∀ recorded location, found = some (recorded, location) → recorded.writable = true := by
  unfold lookupNamed
  cases listed : heldAt (product.get (str "attributes")) name with
  | some recorded =>
      refine ⟨_, rfl, ?_⟩
      rintro _ _ ⟨⟩
      exact heldAt_writable (Wire.writable_get held _) listed
  | none =>
      dsimp only
      cases offered : heldAt (product.get (str "offer")) name with
      | some raw =>
          have fresh := heldAt_writable (Wire.writable_get held _) offered
          dsimp only
          split
          · refine ⟨_, rfl, ?_⟩
            rintro _ _ ⟨⟩
            rw [Wire.writable_object]
            simp only [List.forall_mem_cons]
            exact ⟨fresh, Wire.writable_get held' _, List.forall_mem_nil _⟩
          · refine ⟨_, rfl, ?_⟩
            rintro _ _ ⟨⟩
            exact fresh
      | none =>
          dsimp only
          cases stated : heldAt product name with
          | some raw =>
              refine ⟨_, rfl, ?_⟩
              rintro _ _ ⟨⟩
              exact heldAt_writable held stated
          | none =>
              dsimp only
              split
              · obtain ⟨reading, read, derived_writable⟩ := stockReading_returns held held'
                refine ⟨_, bind_eq_ok.mpr ⟨reading, read, rfl⟩, ?_⟩
                intro recorded location found
                obtain ⟨derived, read, same⟩ := Option.map_eq_some_iff.mp found
                cases same
                exact derived_writable _ read
              · exact ⟨none, rfl, by rintro _ _ ⟨⟩⟩

omit [Format F] in
theorem lookupAttribute_returns {product key snapshot : Wire F} (held : product.writable = true)
    (named : key.writable = true) (held' : snapshot.writable = true) :
    ∃ found, lookupAttribute product key snapshot = .ok found ∧
      ∀ recorded location, found = some (recorded, location) → recorded.writable = true := by
  obtain ⟨name, text⟩ := textOf_returns.mpr named
  obtain ⟨found, looked, writable⟩ := lookupNamed_returns held held' name
  exact ⟨found, bind_eq_ok.mpr ⟨name, text, looked⟩, writable⟩

/-! ## Freshness -/

omit [Format F] [Folding] in
theorem instantOf_returns {v : Wire F} (held : v.writable = true) : ∃ t, instantOf v = .ok t := by
  unfold instantOf
  split
  · exact ⟨_, rfl⟩
  · obtain ⟨s, text⟩ := textOf_returns.mpr held
    refine bind_returns.mpr ⟨s, text, ?_⟩
    dsimp only
    split <;> exact ⟨_, rfl⟩

omit [Spelling F] [Folding] in
theorem windowDays_returns {snapshot : Wire F} (floor : Option (Extended F)) :
    (∃ window, windowDays snapshot floor = .ok window) ↔
      ∀ days ∈ statedWindow snapshot, days.huge = false := by
  unfold windowDays
  cases statedWindow snapshot with
  | none => cases floor <;> exact iff_of_true ⟨_, rfl⟩ nofun
  | some days =>
      simp only [Option.mem_def, Option.some.injEq, forall_eq']
      rw [Option.mapM_some, Literal.toDouble_eq]
      cases days.huge with
      | true => exact iff_of_false (by rintro ⟨_, ⟨⟩⟩) nofun
      | false => cases floor <;> exact iff_of_true ⟨_, rfl⟩ rfl

def Datable (recorded snapshot : Wire F) : Prop :=
  isMapping recorded = true → isTrue (recorded.get (str "stale")) = false →
    ∀ days ∈ statedWindow snapshot, days.huge = false

omit [Folding] in
theorem isStale_returns {recorded snapshot claim : Wire F} (held : recorded.writable = true)
    (held' : snapshot.writable = true) (dated : claim.writable = true) (floor : Option (Extended F)) :
    (∃ stale, isStale recorded snapshot claim floor = .ok stale) ↔ Datable recorded snapshot := by
  unfold isStale Datable
  cases isMapping recorded with
  | false => exact iff_of_true ⟨_, rfl⟩ nofun
  | true =>
      cases isTrue (recorded.get (str "stale")) with
      | true => exact iff_of_true ⟨_, rfl⟩ nofun
      | false =>
          simp only [Bool.not_true, Bool.false_eq_true, if_false, forall_const]
          rw [← windowDays_returns floor]
          constructor
          · rintro ⟨stale, walked⟩
            obtain ⟨window, stated, -⟩ := bind_eq_ok.mp walked
            exact ⟨window, stated⟩
          · rintro ⟨window, stated⟩
            refine bind_returns.mpr ⟨window, stated, ?_⟩
            cases window with
            | none => exact ⟨_, rfl⟩
            | some window =>
                obtain ⟨observed, read⟩ := instantOf_returns (Wire.writable_get held (str "observed_at"))
                refine bind_returns.mpr ⟨observed, read, ?_⟩
                cases observed with
                | none => exact ⟨_, rfl⟩
                | some observed =>
                    obtain ⟨reference, read⟩ := instantOf_returns
                      (orElse_writable (orElse_writable (Wire.writable_get held' (str "read_at"))
                        (Wire.writable_get (Wire.writable_get dated (str "provenance"))
                          (str "observed_at")))
                        (Wire.writable_get held' (str "captured_at")))
                    refine bind_returns.mpr ⟨reference, read, ?_⟩
                    cases reference <;> exact ⟨_, rfl⟩

/-! ## One claim -/

omit [Format F] in
theorem claimTypeOf_returns {claim key : Wire F} (held : claim.writable = true)
    (named : key.writable = true) (location : Option Location) :
    ∃ claimType, claimTypeOf claim key location = .ok claimType := by
  have declared : ∃ stated, declaredClaimType claim = .ok stated := by
    unfold declaredClaimType
    dsimp only
    split
    · exact ⟨_, rfl⟩
    · obtain ⟨s, text⟩ := textOf_returns.mpr (Wire.writable_get held (str "claim_type"))
      exact bind_returns.mpr ⟨s, text, _, rfl⟩
  obtain ⟨stated, read⟩ := declared
  refine bind_returns.mpr ⟨stated, read, ?_⟩
  split
  · obtain ⟨s, text⟩ := normalizeText_returns named
    exact bind_returns.mpr ⟨s, text, _, rfl⟩
  · exact ⟨_, rfl⟩

/-- The evidence of the snapshot is a list, or there is none. -/
def Listable (evidence : Wire F) : Prop := ∃ items, Wire.itemsOrNone evidence = .ok items

omit [Spelling F] [Folding] in
theorem itemsOrNone_writable {v : Wire F} {items : List (Wire F)} (held : v.writable = true)
    (listed : Wire.itemsOrNone v = .ok items) : ∀ item ∈ items, item.writable = true := by
  unfold Wire.itemsOrNone at listed
  split at listed
  · cases v with
    | array members =>
        cases listed
        exact Wire.writable_array.mp held
    | object members =>
        cases listed
        intro item member
        obtain ⟨key, -, rfl⟩ := List.mem_map.mp member
        exact Wire.writable_string key
    | string s =>
        cases listed
        intro item member
        obtain ⟨c, -, rfl⟩ := List.mem_map.mp member
        exact Wire.writable_string [c]
    | _ => cases listed
  · cases listed
    nofun

omit [Folding] in
theorem evidenceRefs_returns {snapshot product key : Wire F} (held : snapshot.writable = true)
    (held' : product.writable = true) (named : key.writable = true) (found : Bool) :
    (∃ refs, evidenceRefs snapshot product key found = .ok refs) ↔
      Listable (snapshot.get (str "evidence_refs")) := by
  obtain ⟨id, id_text⟩ := textOf_returns.mpr (orElse_writable
    (Wire.writable_get held (str "snapshot_id")) (Wire.writable_string (str "unknown-snapshot")))
  obtain ⟨ref, ref_text⟩ := textOf_returns.mpr (Wire.writable_get held' (str "product_ref"))
  obtain ⟨evidence, evidence_text⟩ := textOf_returns.mpr (Wire.writable_get held' (str "evidence_ref"))
  obtain ⟨name, name_text⟩ := textOf_returns.mpr named
  have first : ∃ text, productEvidenceRef (orElse (snapshot.get (str "snapshot_id"))
      (.string (str "unknown-snapshot"))) product = .ok text := by
    unfold productEvidenceRef
    dsimp only
    split
    · exact ⟨evidence, evidence_text⟩
    · split
      · exact ⟨id, id_text⟩
      · exact bind_returns.mpr ⟨id, id_text, bind_returns.mpr ⟨ref, ref_text, _, rfl⟩⟩
  have second : ∃ texts, attributeEvidenceRef (orElse (snapshot.get (str "snapshot_id"))
      (.string (str "unknown-snapshot"))) product key found = .ok texts := by
    unfold attributeEvidenceRef
    dsimp only
    split
    · exact bind_returns.mpr ⟨id, id_text, bind_returns.mpr ⟨ref, ref_text,
        bind_returns.mpr ⟨name, name_text, _, rfl⟩⟩⟩
    · exact ⟨_, rfl⟩
  constructor
  · rintro ⟨refs, walked⟩
    obtain ⟨_, -, walked⟩ := bind_eq_ok.mp walked
    obtain ⟨_, -, walked⟩ := bind_eq_ok.mp walked
    obtain ⟨items, listed, -⟩ := bind_eq_ok.mp walked
    exact ⟨items, listed⟩
  · rintro ⟨items, listed⟩
    obtain ⟨text, read⟩ := first
    obtain ⟨texts, reads⟩ := second
    obtain ⟨spelled, spelling⟩ := mapM_returns.mpr fun item member =>
      textOf_returns.mpr (itemsOrNone_writable (Wire.writable_get held _) listed item member)
    exact bind_returns.mpr ⟨text, read, bind_returns.mpr ⟨texts, reads,
      bind_returns.mpr ⟨items, listed, bind_returns.mpr ⟨spelled, spelling, _, rfl⟩⟩⟩⟩

omit [Folding] in
theorem claimRefOf_returns {claim : Wire F} (held : claim.writable = true) (index : Nat) :
    ∃ ref, claimRefOf claim index = .ok ref := by
  unfold claimRefOf
  split
  · exact textOf_returns.mpr
      (orElse_writable (Wire.writable_get held (str "claim_ref")) (Wire.writable_get held (str "key")))
  · exact ⟨_, rfl⟩

theorem publishedFor_returns {key : Wire F} (named : key.writable = true) :
    ∃ tolerance, publishedFor key = .ok tolerance := by
  unfold publishedFor
  split
  · exact ⟨_, rfl⟩
  · exact toleranceFor_returns named

/-- What the verifier reads of a claim against a snapshot, it can read: the product that is named,
the age of the attribute, and the two values. -/
def Legible (pitch snapshot claim : Wire F) : Prop :=
  (productsOf snapshot ≠ [] → (wantedProduct claim pitch).writable = true) ∧
  ∀ product recorded location floor,
    resolveProduct claim pitch (productsOf snapshot) = .ok (.ok product) →
    (claim.get (str "key")).isNull = false →
    lookupAttribute product (claim.get (str "key")) snapshot = .ok (some (recorded, location)) →
    liveStateWindow (claim.get (str "key")) = .ok floor →
    Datable recorded snapshot ∧
      (isStale recorded snapshot claim floor = .ok false →
        Commensurable (claim.get (str "value")) recorded (claim.get (str "op")))

theorem judgeKey_returns {claim product key snapshot : Wire F} (held : claim.writable = true)
    (held' : product.writable = true) (named : key.writable = true)
    (recorded : snapshot.writable = true) :
    (∃ judged, judgeKey claim product key snapshot = .ok judged) ↔
      ∀ recorded location floor,
        lookupAttribute product key snapshot = .ok (some (recorded, location)) →
        liveStateWindow key = .ok floor →
        Datable recorded snapshot ∧
          (isStale recorded snapshot claim floor = .ok false →
            Commensurable (claim.get (str "value")) recorded (claim.get (str "op"))) := by
  obtain ⟨found, looked, writable⟩ := lookupAttribute_returns held' named recorded
  obtain ⟨spelled, written⟩ := reprOf_returns.mpr named
  obtain ⟨floor, live⟩ : ∃ floor, liveStateWindow key = .ok floor := by
    obtain ⟨s, text⟩ := textOf_returns.mpr named
    exact bind_returns.mpr ⟨s, text, _, rfl⟩
  unfold judgeKey
  rw [bind_returns]
  simp only [looked, live, Except.ok.injEq, exists_eq_left']
  cases found with
  | none => exact iff_of_true (bind_returns.mpr ⟨spelled, written, _, rfl⟩) nofun
  | some found =>
      obtain ⟨attr, location⟩ := found
      have attr_writable := writable attr location rfl
      simp only [Option.some.injEq, Prod.mk.injEq]
      constructor
      · rintro ⟨judged, walked⟩ _ _ _ ⟨rfl, rfl⟩ rfl
        obtain ⟨_, live', walked⟩ := bind_eq_ok.mp walked
        obtain rfl := Except.ok.inj live'
        obtain ⟨stale, aged, walked⟩ := bind_eq_ok.mp walked
        refine ⟨(isStale_returns attr_writable recorded held floor).mp ⟨stale, aged⟩, fun fresh => ?_⟩
        obtain rfl := Except.ok.inj (fresh.symm.trans aged)
        obtain ⟨outcome, compared, -⟩ := bind_eq_ok.mp walked
        exact (compare_returns (Wire.writable_get held _) attr_writable named
          (Wire.writable_get held _)).mp ⟨outcome, compared⟩
      · intro readable
        obtain ⟨datable, commensurable⟩ := readable attr location floor ⟨rfl, rfl⟩ rfl
        obtain ⟨stale, aged⟩ := (isStale_returns attr_writable recorded held floor).mpr datable
        refine bind_returns.mpr ⟨floor, rfl, bind_returns.mpr ⟨stale, aged, ?_⟩⟩
        cases stale with
        | true => exact bind_returns.mpr ⟨spelled, written, _, rfl⟩
        | false =>
            obtain ⟨outcome, compared⟩ := (compare_returns (Wire.writable_get held _) attr_writable
              named (Wire.writable_get held _)).mpr (commensurable aged)
            exact bind_returns.mpr ⟨outcome, compared, _, rfl⟩

theorem verifyClaim_returns {pitch snapshot claim : Wire F} (held : claim.writable = true)
    (recorded : snapshot.writable = true) (index : Nat) :
    (∃ finding, verifyClaim pitch snapshot claim index = .ok finding) ↔
      Listable (snapshot.get (str "evidence_refs")) ∧ Legible pitch snapshot claim := by
  have named := Wire.writable_get held (str "key")
  have products := productsOf_writable recorded
  unfold Legible
  rw [← resolveProduct_returns products]
  constructor
  · rintro ⟨finding, walked⟩
    obtain ⟨resolved, resolves, walked⟩ := bind_eq_ok.mp walked
    obtain ⟨⟨outcome, location⟩, judges, walked⟩ := bind_eq_ok.mp walked
    obtain ⟨_, -, walked⟩ := bind_eq_ok.mp walked
    obtain ⟨_, -, walked⟩ := bind_eq_ok.mp walked
    obtain ⟨refs, evidence, -⟩ := bind_eq_ok.mp walked
    have held' : (resolved.toOption.getD (.null : Wire F)).writable = true := by
      cases resolved with
      | error status => rfl
      | ok product => exact products product (resolveProduct_mem resolves)
    refine ⟨(evidenceRefs_returns recorded held' named _).mp ⟨refs, evidence⟩, ⟨resolved, resolves⟩, ?_⟩
    intro product attr location' floor resolves' keyed looked live
    obtain rfl := Except.ok.inj (resolves.symm.trans resolves')
    rw [judge, if_neg (by simp [keyed])] at judges
    exact (judgeKey_returns held held' named recorded).mp ⟨_, judges⟩ attr location' floor looked live
  · rintro ⟨listable, ⟨resolved, resolves⟩, readable⟩
    have held' : (resolved.toOption.getD (.null : Wire F)).writable = true := by
      cases resolved with
      | error status => rfl
      | ok product => exact products product (resolveProduct_mem resolves)
    have judges : ∃ judged, judge claim (claim.get (str "key")) snapshot resolved = .ok judged := by
      cases resolved with
      | error status => exact ⟨_, rfl⟩
      | ok product =>
          rw [judge]
          cases keyed : (claim.get (str "key")).isNull with
          | true => exact ⟨_, rfl⟩
          | false =>
              exact (judgeKey_returns held held' named recorded).mpr fun attr location floor =>
                readable product attr location floor resolves keyed
    obtain ⟨⟨outcome, location⟩, judges⟩ := judges
    obtain ⟨ref, claim_ref⟩ := claimRefOf_returns held index
    obtain ⟨claimType, typed⟩ := claimTypeOf_returns held named location
    obtain ⟨refs, evidence⟩ :=
      (evidenceRefs_returns recorded held' named (!outcome.observed.isNull)).mpr listable
    obtain ⟨tolerance, published⟩ := publishedFor_returns named
    exact bind_returns.mpr ⟨resolved, resolves, bind_returns.mpr ⟨(outcome, location), judges,
      bind_returns.mpr ⟨ref, claim_ref, bind_returns.mpr ⟨claimType, typed,
        bind_returns.mpr ⟨refs, evidence, bind_returns.mpr ⟨tolerance, published, _, rfl⟩⟩⟩⟩⟩⟩

/-! ## A pitch -/

def pitchOf (fields : Dict Str (Wire F)) (claims : List (Wire F)) : Wire F :=
  .object (Dict.set fields (str "claims") (.array claims))

omit [Format F] [Spelling F] [Folding] in
theorem pitchOf_get (fields : Dict Str (Wire F)) (claims : List (Wire F)) {name : Str}
    (other : name ≠ str "claims") : (pitchOf fields claims).get name = (Json.object fields).get name := by
  rw [pitchOf, Json.get_object, Json.get_object, Dict.get?_set_ne _ _ other]

omit [Format F] [Spelling F] [Folding] in
theorem claimsOf_pitchOf (fields : Dict Str (Wire F)) (claims : List (Wire F)) :
    claimsOf (pitchOf fields claims) = .ok claims := by
  rw [claimsOf, pitchOf, Json.get_object, Dict.get?_set_self]
  rfl

omit [Spelling F] [Folding] in
theorem wantedProduct_pitchOf (claim : Wire F) (fields : Dict Str (Wire F)) (claims : List (Wire F)) :
    wantedProduct claim (pitchOf fields claims) = wantedProduct claim (.object fields) := by
  rw [wantedProduct, wantedProduct, pitchOf_get fields claims (by decide)]

theorem verifyClaim_pitchOf (fields : Dict Str (Wire F)) (claims : List (Wire F))
    (snapshot claim : Wire F) (index : Nat) :
    verifyClaim (pitchOf fields claims) snapshot claim index =
      verifyClaim (.object fields) snapshot claim index := by
  simp only [verifyClaim, resolveProduct, wantedProduct_pitchOf]

omit [Format F] [Folding] in
theorem verificationKey_returns {pitch snapshot version : Wire F} :
    (∃ key, verificationKey pitch snapshot version = .ok key) ↔
      Wire.writable (pitch.get (str "pitch_id")) = true ∧
        Wire.writable (pitch.get (str "claims")) = true ∧ snapshot.writable = true ∧
        version.writable = true := by
  have canonical {v : Wire F} : (∃ s, canonicalText v = .ok s) ↔ v.writable = true := by
    unfold canonicalText
    split <;> simp [*]
  have body (claims snapshot version : Str) : Wire.writable (.object
      [(str "pitch_id", pitch.get (str "pitch_id")), (str "claims", .string claims),
        (str "snapshot", .string snapshot), (str "verifier_version", .string version)]) =
      Wire.writable (pitch.get (str "pitch_id")) := by
    simp [Wire.writable, Wire.writableMembers]
  simp only [verificationKey, bind_returns]
  constructor
  · rintro ⟨claims, claims_eq, recorded, snapshot_eq, version, version_eq, text, text_eq, -⟩
    exact ⟨(body claims recorded version) ▸ canonical.mp ⟨text, text_eq⟩, canonical.mp ⟨claims, claims_eq⟩,
      canonical.mp ⟨recorded, snapshot_eq⟩, textOf_returns.mp ⟨version, version_eq⟩⟩
  · rintro ⟨id, claims, recorded, versioned⟩
    obtain ⟨claims, claims_eq⟩ := canonical.mpr claims
    obtain ⟨recorded, snapshot_eq⟩ := canonical.mpr recorded
    obtain ⟨version, version_eq⟩ := textOf_returns.mpr versioned
    obtain ⟨text, text_eq⟩ := canonical.mpr ((body claims recorded version).trans id)
    exact ⟨claims, claims_eq, recorded, snapshot_eq, version, version_eq, text, text_eq, _, rfl⟩

/-- What is written can be written, and what is read of each claim can be read. -/
structure Digestible (fields : Dict Str (Wire F)) (snapshot version : Wire F)
    (claims : List (Wire F)) : Prop where
  pitch_writable : Wire.writable ((Json.object fields).get (str "pitch_id")) = true
  snapshot_writable : snapshot.writable = true
  version_writable : version.writable = true
  writable : ∀ claim ∈ claims, claim.writable = true
  evidence : claims ≠ [] → Listable (snapshot.get (str "evidence_refs"))
  legible : ∀ claim ∈ claims, Legible (.object fields) snapshot claim

theorem Digestible.single {fields : Dict Str (Wire F)} {snapshot version : Wire F}
    {claims : List (Wire F)} (digestible : Digestible fields snapshot version claims) {claim : Wire F}
    (member : claim ∈ claims) : Digestible fields snapshot version [claim] where
  pitch_writable := digestible.pitch_writable
  snapshot_writable := digestible.snapshot_writable
  version_writable := digestible.version_writable
  writable := List.forall_mem_singleton.mpr (digestible.writable claim member)
  evidence _ := digestible.evidence (List.ne_nil_of_mem member)
  legible := List.forall_mem_singleton.mpr (digestible.legible claim member)

section Pitches

variable {fields : Dict Str (Wire F)} {snapshot version : Wire F} {claims : List (Wire F)}

theorem verify_eq_ok {result : VerificationResult F}
    (verified : verify (pitchOf fields claims) snapshot version = .ok result) :
    claims.zipIdx.mapM (fun entry => verifyClaim (.object fields) snapshot entry.1 entry.2) =
        .ok result.claims ∧
      ∃ key, verificationKey (pitchOf fields claims) snapshot version = .ok key := by
  obtain ⟨list, listed, walked⟩ := bind_eq_ok.mp verified
  obtain rfl := Except.ok.inj ((claimsOf_pitchOf fields claims).symm.trans listed)
  obtain ⟨findings, found, walked⟩ := bind_eq_ok.mp walked
  obtain ⟨key, keyed, made⟩ := bind_eq_ok.mp walked
  obtain rfl := Except.ok.inj made
  simp only [verifyClaim_pitchOf] at found
  exact ⟨found, key, keyed⟩

theorem verify_returns :
    (∃ result, verify (pitchOf fields claims) snapshot version = .ok result) ↔
      Digestible fields snapshot version claims := by
  have key : (∃ key, verificationKey (pitchOf fields claims) snapshot version = .ok key) ↔
      Wire.writable ((Json.object fields).get (str "pitch_id")) = true ∧
        (∀ claim ∈ claims, claim.writable = true) ∧ snapshot.writable = true ∧
        version.writable = true := by
    have listed : (pitchOf fields claims).get (str "claims") = .array claims := by
      rw [pitchOf, Json.get_object, Dict.get?_set_self]
      rfl
    rw [verificationKey_returns, listed, pitchOf_get fields claims (by decide), Wire.writable_array]
  constructor
  · rintro ⟨result, verified⟩
    obtain ⟨found, keyed⟩ := verify_eq_ok verified
    obtain ⟨pitch, writable, recorded, versioned⟩ := key.mp keyed
    have read (claim) (member : claim ∈ claims) :
        Listable (snapshot.get (str "evidence_refs")) ∧ Legible (.object fields) snapshot claim := by
      obtain ⟨i, here⟩ := List.mem_iff_getElem?.mp member
      exact (verifyClaim_returns (writable claim member) recorded i).mp
        (mapM_zipIdx_returns.mp ⟨_, found⟩ i claim here)
    exact ⟨pitch, recorded, versioned, writable,
      fun filled => (read _ (List.head_mem filled)).1, fun claim member => (read claim member).2⟩
  · intro digestible
    obtain ⟨findings, found⟩ := mapM_zipIdx_returns (l := claims)
      (f := fun entry => verifyClaim (.object fields) snapshot entry.1 entry.2) |>.mpr
        fun i claim here => (verifyClaim_returns
          (digestible.writable claim (List.mem_of_getElem? here)) digestible.snapshot_writable i).mpr
          ⟨digestible.evidence (List.ne_nil_of_mem (List.mem_of_getElem? here)),
            digestible.legible claim (List.mem_of_getElem? here)⟩
    obtain ⟨text, keyed⟩ := key.mpr ⟨digestible.pitch_writable, digestible.writable,
      digestible.snapshot_writable, digestible.version_writable⟩
    simp only [← verifyClaim_pitchOf fields claims] at found
    exact ⟨_, bind_eq_ok.mpr ⟨claims, claimsOf_pitchOf fields claims, bind_eq_ok.mpr
      ⟨findings, found, bind_eq_ok.mpr ⟨text, keyed, rfl⟩⟩⟩⟩

theorem verify_finding {result : VerificationResult F}
    (verified : verify (pitchOf fields claims) snapshot version = .ok result) {i : Nat}
    {claim : Wire F} (here : claims[i]? = some claim) :
    ∃ finding, result.claims[i]? = some finding ∧
      verifyClaim (.object fields) snapshot claim i = .ok finding :=
  mapM_zipIdx_eq_ok (verify_eq_ok verified).1 here

end Pitches

/-! ## Positions -/

theorem verifyClaim_position {pitch snapshot claim : Wire F} (named : Wire.truthy (claimName claim) = true)
    (i j : Nat) : verifyClaim pitch snapshot claim i = verifyClaim pitch snapshot claim j := by
  simp only [verifyClaim, claimRefOf, named, if_true]

theorem verifyClaim_productRef {pitch snapshot claim : Wire F} {i : Nat} {finding : Finding F}
    (found : verifyClaim pitch snapshot claim i = .ok finding) :
    ∃ resolved, resolveProduct claim pitch (productsOf snapshot) = .ok resolved ∧
      finding.productRef = (resolved.toOption.getD .null).get (str "product_ref") := by
  obtain ⟨resolved, resolves, walked⟩ := bind_eq_ok.mp found
  obtain ⟨⟨outcome, location⟩, -, walked⟩ := bind_eq_ok.mp walked
  obtain ⟨ref, -, walked⟩ := bind_eq_ok.mp walked
  obtain ⟨claimType, -, walked⟩ := bind_eq_ok.mp walked
  obtain ⟨refs, -, walked⟩ := bind_eq_ok.mp walked
  obtain ⟨tolerance, -, made⟩ := bind_eq_ok.mp walked
  obtain rfl := Except.ok.inj made
  exact ⟨resolved, resolves, rfl⟩

theorem verifyClaim_unnamed {pitch snapshot claim : Wire F} {i : Nat} {finding : Finding F}
    (unnamed : Wire.truthy (claimName claim) = false)
    (found : verifyClaim pitch snapshot claim i = .ok finding) :
    finding.claimRef = str "claim-" ++ Str.ofNat i := by
  obtain ⟨resolved, -, walked⟩ := bind_eq_ok.mp found
  obtain ⟨⟨outcome, location⟩, -, walked⟩ := bind_eq_ok.mp walked
  obtain ⟨ref, named, walked⟩ := bind_eq_ok.mp walked
  obtain ⟨claimType, -, walked⟩ := bind_eq_ok.mp walked
  obtain ⟨refs, -, walked⟩ := bind_eq_ok.mp walked
  obtain ⟨tolerance, -, made⟩ := bind_eq_ok.mp walked
  obtain rfl := Except.ok.inj made
  rw [claimRefOf, if_neg (by simp [unnamed])] at named
  exact (Except.ok.inj named).symm

def Isolated (fields : Dict Str (Wire F)) (snapshot version : Wire F) (claims : List (Wire F)) : Prop :=
  ∃ result, verify (pitchOf fields claims) snapshot version = .ok result ∧
    ∀ (i : Nat) claim, claims[i]? = some claim →
      ∃ alone, verify (pitchOf fields [claim]) snapshot version = .ok alone ∧
        alone.claims = result.claims[i]?.toList

theorem isolated_of_digestible {fields : Dict Str (Wire F)} {snapshot version : Wire F}
    {claims : List (Wire F)} (digestible : Digestible fields snapshot version claims)
    (named : ∀ (i : Nat) claim, claims[i]? = some claim → i = 0 ∨ Wire.truthy (claimName claim) = true) :
    Isolated fields snapshot version claims := by
  obtain ⟨result, verified⟩ := verify_returns.mpr digestible
  refine ⟨result, verified, fun i claim here => ?_⟩
  obtain ⟨finding, there, found⟩ := verify_finding verified here
  obtain ⟨alone, verified'⟩ := verify_returns.mpr (digestible.single (List.mem_of_getElem? here))
  refine ⟨alone, verified', ?_⟩
  have same : verifyClaim (.object fields) snapshot claim 0 = .ok finding := by
    rcases named i claim here with rfl | named
    · exact found
    · rw [verifyClaim_position named 0 i, found]
  have walked : List.mapM (fun entry : Wire F × Nat => verifyClaim (.object fields) snapshot entry.1 entry.2)
      [(claim, 0)] = .ok alone.claims := (verify_eq_ok verified').1
  rw [List.mapM_cons, same] at walked
  rw [there, Option.toList_some]
  exact (Except.ok.inj walked).symm

theorem findings_isolated_iff {fields : Dict Str (Wire F)} {snapshot version : Wire F} {claims : List (Wire F)} :
    Isolated fields snapshot version claims ↔ Digestible fields snapshot version claims ∧
      ∀ (i : Nat) claim, claims[i]? = some claim → i = 0 ∨ Wire.truthy (claimName claim) = true := by
  constructor
  · rintro ⟨result, verified, apart⟩
    refine ⟨verify_returns.mp ⟨result, verified⟩, fun i claim here => ?_⟩
    by_contra clash
    rw [not_or, Bool.not_eq_true] at clash
    obtain ⟨moved, unnamed⟩ := clash
    obtain ⟨finding, there, found⟩ := verify_finding verified here
    obtain ⟨alone, verified', same⟩ := apart i claim here
    obtain ⟨only, first, found'⟩ := verify_finding (i := 0) verified' rfl
    rw [there, Option.toList_some] at same
    rw [same, List.getElem?_cons_zero, Option.some.injEq] at first
    subst first
    have refs := (verifyClaim_unnamed unnamed found').symm.trans (verifyClaim_unnamed unnamed found)
    exact moved (Str.ofNat_inj.mp (List.append_cancel_left refs)).symm
  · rintro ⟨digestible, named⟩
    exact isolated_of_digestible digestible named

end Attributes

end Proxyshop.Verification
