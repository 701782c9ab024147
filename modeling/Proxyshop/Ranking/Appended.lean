import Proxyshop.Ranking.Verification

/-!
# Adding a claim to a bid

Where every claim can be read, a claim is attested as it would be without those that follow it.
-/

namespace Proxyshop.Ranking

open Python Numbers Contracts Structures Verification

variable [Spelling Binary64]

theorem spelledOrNone_returns {v : Value} : (∃ w, spelledOrNone v = .ok w) ↔ v.writable = true := by
  unfold spelledOrNone
  cases v with
  | null => exact iff_of_true ⟨_, rfl⟩ rfl
  | _ =>
      rw [if_neg (by simp [Json.isNull]), bind_returns, ← textOf_returns]
      constructor
      · rintro ⟨s, text, _⟩
        exact ⟨s, text⟩
      · rintro ⟨s, text⟩
        exact ⟨s, text, _, rfl⟩

omit [Spelling Binary64] in
theorem get_dropped {members : Dict Str Value} {dropped : List Str} {name : Str} (kept : name ∉ dropped) :
    (Json.object (members.filter fun entry => entry.1 ∉ dropped)).get name =
      (Json.object members).get name := by
  rw [Json.get_object, Json.get_object, Dict.get?_filter (fun name => decide (name ∉ dropped)),
    if_pos (by simpa using kept)]

omit [Spelling Binary64] in
theorem get_record (claim : Value) (name : Str) :
    (Json.object (claim.record?.getD [])).get name = claim.get name := by
  cases claim <;> rfl

omit [Spelling Binary64] in
theorem carried_get (claim unit : Value) {name : Str} (kept : name ∉ droppedFromTheAuthorsClaim) :
    (Json.object (carried claim unit)).get name = claim.get name := by
  have other : name ≠ str "unit" := by
    rintro rfl
    exact kept (by decide)
  have same := (@get_dropped (claim.record?.getD []) _ _ kept).trans (get_record claim name)
  unfold carried
  dsimp only
  split
  · exact same
  · rw [← same, Json.get_object, Json.get_object, Dict.get?_set_ne _ _ other]

omit [Spelling Binary64] in
theorem carried_unit (claim unit : Value) : (Json.object (carried claim unit)).get (str "unit") = unit := by
  unfold carried
  dsimp only
  split
  · rename_i absent
    rw [Json.get_object, Dict.get?_filter (fun name => decide (name ∉ droppedFromTheAuthorsClaim)),
      if_neg (by decide), Json.isNull_iff.mp absent]
    rfl
  · rw [Json.get_object, Dict.get?_set_self]
    rfl

theorem payloadOf_returns {p : Payload} : (∃ q, payloadOf p = .ok q) ↔ p.key.writable = true ∧
    p.unit.writable = true ∧ p.subject.writable = true ∧ p.status.writable = true ∧
    p.verifierVersion.writable = true ∧ p.catalogSnapshot.writable = true := by
  simp only [payloadOf, bind_returns, ← spelledOrNone_returns]
  constructor
  · rintro ⟨a, ha, b, hb, c, hc, d, hd, e, he, f, hf, -⟩
    exact ⟨⟨a, ha⟩, ⟨b, hb⟩, ⟨c, hc⟩, ⟨d, hd⟩, ⟨e, he⟩, ⟨f, hf⟩⟩
  · rintro ⟨⟨a, ha⟩, ⟨b, hb⟩, ⟨c, hc⟩, ⟨d, hd⟩, ⟨e, he⟩, ⟨f, hf⟩⟩
    exact ⟨a, ha, b, hb, c, hc, d, hd, e, he, f, hf, _, rfl⟩

theorem attestClaim_returns [Sealing] {claim : Value} {verdict : Verdict} :
    (∃ attested, attestClaim claim verdict = .ok attested) ↔
      Wire.writable (claim.get (str "key")) = true ∧ verdict.unit.writable = true ∧
        verdict.subject.writable = true ∧ verdict.verifierVersion.writable = true ∧
        verdict.catalogSnapshot.writable = true := by
  unfold attestClaim
  dsimp only
  rw [bind_returns, carried_get claim verdict.unit (by decide), carried_unit]
  constructor
  · rintro ⟨q, payload, -⟩
    obtain ⟨keyed, united, subject, -, version, snapshot⟩ := payloadOf_returns.mp ⟨q, payload⟩
    exact ⟨keyed, united, subject, version, snapshot⟩
  · rintro ⟨keyed, united, subject, version, snapshot⟩
    let p : Payload := ⟨claim.get (str "key"), (Json.object (carried claim verdict.unit)).get (str "value"),
      verdict.unit, verdict.subject, .string verdict.status, verdict.verifierVersion,
      verdict.catalogSnapshot⟩
    obtain ⟨q, payload⟩ := (payloadOf_returns (p := p)).mpr
      ⟨keyed, united, subject, Wire.writable_string verdict.status, version, snapshot⟩
    exact ⟨q, payload, _, rfl⟩

/-! ## The bench -/

variable [Folding] [Sealing]

omit [Spelling Binary64] [Folding] [Sealing] in
theorem addUnits_writable {units : Dict Str Value} {product : Value}
    (held : ∀ entry ∈ units, Wire.writable entry.2 = true) (recorded : product.writable = true) :
    ∀ entry ∈ addUnits units product, Wire.writable entry.2 = true := by
  have stated : ∀ entry ∈ ((product.get (str "attributes")).record?.getD []).map fun entry =>
      (entry.1, (attributeValue entry.2).2), Wire.writable entry.2 = true := by
    intro entry member
    obtain ⟨held, inside, rfl⟩ := List.mem_map.mp member
    refine (attributeValue_writable ?_).2
    cases attributes : product.get (str "attributes") with
    | object members =>
        rw [attributes] at inside
        exact Wire.writable_object.mp (attributes ▸ Wire.writable_get recorded _) held inside
    | _ =>
        rw [attributes] at inside
        cases inside
  unfold addUnits
  generalize ((product.get (str "attributes")).record?.getD []).map (fun entry =>
    (entry.1, (attributeValue entry.2).2)) = fresh at stated
  induction fresh generalizing units with
  | nil => exact held
  | cons entry fresh ih =>
      refine ih ?_ fun other member => stated other (List.mem_cons_of_mem _ member)
      intro other member
      rcases Dict.mem_setDefault member with old | rfl
      · exact held other old
      · exact stated entry List.mem_cons_self

omit [Spelling Binary64] [Folding] [Sealing] in
theorem foldl_addUnits_writable {products : List Value} {units : Dict Str Value}
    (rows : ∀ product ∈ products, product.writable = true)
    (held : ∀ entry ∈ units, Wire.writable entry.2 = true) :
    ∀ entry ∈ products.foldl addUnits units, Wire.writable entry.2 = true := by
  induction products generalizing units with
  | nil => exact held
  | cons product products ih =>
      exact ih (fun row member => rows row (List.mem_cons_of_mem _ member))
        (addUnits_writable held (rows product List.mem_cons_self))

omit [Folding] [Sealing] in
theorem catalogUnits_writable {snapshot productRef : Value} {units : Dict Str Value}
    (recorded : snapshot.isNull = false → snapshot.writable = true)
    (read : catalogUnits snapshot productRef = .ok units) :
    ∀ entry ∈ units, Wire.writable entry.2 = true := by
  unfold catalogUnits at read
  split at read
  · cases read
    nofun
  · rename_i present
    obtain ⟨products, listed, read⟩ := bind_eq_ok.mp read
    have rows := itemsOrNone_writable
      (Wire.writable_get (recorded (by simpa using present)) (str "products")) listed
    split at read
    · obtain rfl := Except.ok.inj read
      exact foldl_addUnits_writable rows nofun
    · obtain ⟨wanted, -, read⟩ := bind_eq_ok.mp read
      obtain ⟨found, searched, read⟩ := bind_eq_ok.mp read
      cases found with
      | none =>
          cases read
          nofun
      | some product =>
          cases read
          exact addUnits_writable nofun (rows product (findM?_eq_some searched).1)

namespace Bench

variable {b : Bench}

omit [Folding] in
theorem attest_eq_ok {dimension : Option Str → Option Str} {findings : List (Finding Binary64)}
    {entry : Value × Nat} {attested : Value × Option Announcement}
    (made : b.attest dimension findings entry = .ok attested) :
    (∃ units, b.unitsFor findings[entry.2]? = .ok units) ∧ b.version.writable = true ∧
      Wire.writable (b.snapshot.get (str "snapshot_id")) = true := by
  obtain ⟨⟨status, reason⟩, -, made⟩ := bind_eq_ok.mp made
  obtain ⟨unit, read, made⟩ := bind_eq_ok.mp made
  obtain ⟨claim, sealed, -⟩ := bind_eq_ok.mp made
  obtain ⟨units, united, -⟩ := bind_eq_ok.mp read
  obtain ⟨-, -, -, version, snapshot⟩ := attestClaim_returns.mp ⟨claim, sealed⟩
  exact ⟨⟨units, united⟩, version, snapshot⟩

omit [Folding] in
theorem attest_returns {findings : List (Finding Binary64)} {entry : Value × Nat}
    (named : Wire.writable (entry.1.get (str "key")) = true) {units : Dict Str Value}
    (united : b.unitsFor findings[entry.2]? = .ok units)
    (recorded : b.snapshot.isNull = false → b.snapshot.writable = true)
    (version : b.version.writable = true)
    (identified : Wire.writable (b.snapshot.get (str "snapshot_id")) = true)
    (dimension : Option Str → Option Str) :
    ∃ attested, b.attest dimension findings entry = .ok attested := by
  obtain ⟨key, text⟩ := textOf_returns.mpr named
  obtain ⟨⟨status, reason⟩, judged⟩ : ∃ verdict, b.verdictOn entry.1 findings[entry.2]? = .ok verdict := by
    unfold verdictOn
    dsimp only
    split
    · refine bind_returns.mpr ⟨key, text, ?_⟩
      split <;> exact ⟨_, rfl⟩
    · exact ⟨_, rfl⟩
  obtain ⟨ref, -, read⟩ := bind_eq_ok.mp united
  have unit : Wire.writable ((Dict.get? units key).getD .null) = true := by
    cases found : Dict.get? units key with
    | none => rfl
    | some unit => exact catalogUnits_writable recorded read _ (Dict.mem_of_get? found)
  have unitFor_eq : b.unitFor entry.1 findings[entry.2]? = .ok ((Dict.get? units key).getD .null) :=
    bind_eq_ok.mpr ⟨units, united, bind_eq_ok.mpr ⟨key, text, rfl⟩⟩
  let verdict : Verdict := ⟨status.name, (Dict.get? units key).getD .null, .string b.storeId, b.version,
    b.snapshot.get (str "snapshot_id"), findings[entry.2]?.elim [] Finding.evidenceRefs,
    findings[entry.2]?.map Finding.confidence, reason⟩
  obtain ⟨claim, sealed⟩ : ∃ attested, attestClaim entry.1 verdict = .ok attested :=
    attestClaim_returns.mpr ⟨named, unit, Wire.writable_string _, version, identified⟩
  exact bind_returns.mpr ⟨_, judged, bind_returns.mpr ⟨_, unitFor_eq, bind_returns.mpr ⟨claim, sealed, _, rfl⟩⟩⟩

omit [Spelling Binary64] [Folding] [Sealing] in
theorem wantedProduct_pitchClaim (entry : Value × Nat) :
    wantedProduct (pitchClaim b.storeId entry) (.object b.pitch) = b.productRef := by
  have dropped : (pitchClaim b.storeId entry).get (str "product_ref") = .null := by
    rw [pitchClaim, Json.get_object, Dict.get?_set_ne _ _ (by decide),
      Dict.get?_filter (fun name => decide (name ∉ storeSuppliedFieldsDropped)), if_neg (by decide)]
    rfl
  rw [wantedProduct, dropped, orElse, if_neg (by decide)]
  rfl

omit [Sealing] in
theorem findings_agree {claims claims' : List Value}
    (digestible : b.snapshot.isNull = false →
      Digestible b.pitch b.snapshot b.version (pitchClaims b.storeId claims))
    (digestible' : b.snapshot.isNull = false →
      Digestible b.pitch b.snapshot b.version (pitchClaims b.storeId claims')) {i j : Nat}
    {claim claim' : Value} (here : claims[i]? = some claim) (there : claims'[j]? = some claim') :
    (b.findings claims)[i]?.map Finding.productRef = (b.findings claims')[j]?.map Finding.productRef ∧
      (i = j → claim = claim' → (b.findings claims)[i]? = (b.findings claims')[j]?) := by
  unfold findings
  cases absent : b.snapshot.isNull with
  | true => exact ⟨rfl, fun _ _ => rfl⟩
  | false =>
      obtain ⟨result, verified⟩ := verify_returns.mpr (digestible absent)
      obtain ⟨result', verified'⟩ := verify_returns.mpr (digestible' absent)
      rw [verified, verified']
      have placed {claims : List Value} {i : Nat} {claim : Value} (here : claims[i]? = some claim) :
          (pitchClaims b.storeId claims)[i]? = some (pitchClaim b.storeId (claim, i)) := by
        rw [pitchClaims, List.getElem?_map, List.getElem?_zipIdx, here]
        simp
      obtain ⟨finding, found, made⟩ := verify_finding verified (placed here)
      obtain ⟨finding', found', made'⟩ := verify_finding verified' (placed there)
      simp only [Bool.false_eq_true, if_false, found, found', Option.map_some, Option.some.injEq]
      constructor
      · obtain ⟨resolved, resolves, ref⟩ := verifyClaim_productRef made
        obtain ⟨resolved', resolves', ref'⟩ := verifyClaim_productRef made'
        simp only [resolveProduct, wantedProduct_pitchClaim] at resolves resolves'
        obtain rfl := Except.ok.inj (resolves.symm.trans resolves')
        rw [ref, ref']
      · rintro rfl rfl
        exact Except.ok.inj (made.symm.trans made')

/-- What a list of claims needs to be verified and attested. -/
structure Presentable (b : Bench) (presented : List Value) : Prop where
  named : ∀ claim ∈ presented, Wire.writable (claim.get (str "key")) = true
  digestible : b.snapshot.isNull = false →
    Digestible b.pitch b.snapshot b.version (pitchClaims b.storeId presented)

theorem attest_appended {dimension : Option Str → Option Str} {claims more more' : List Value}
    (filled : claims ≠ []) (presentable : b.Presentable (claims ++ more))
    (presentable' : b.Presentable (claims ++ more')) {entries : List (Value × Option Announcement)}
    (made : (claims ++ more).zipIdx.mapM (b.attest dimension (b.findings (claims ++ more))) =
      .ok entries) :
    ∃ entries', (claims ++ more').zipIdx.mapM (b.attest dimension (b.findings (claims ++ more'))) =
        .ok entries' ∧ entries'.take claims.length = entries.take claims.length := by
  obtain ⟨first, rest, rfl⟩ := List.exists_cons_of_ne_nil filled
  obtain ⟨entry, -, attested⟩ := mapM_zipIdx_eq_ok (i := 0) made rfl
  obtain ⟨⟨units, united⟩, version, identified⟩ := attest_eq_ok attested
  have recorded (present : b.snapshot.isNull = false) : b.snapshot.writable = true :=
    (presentable.digestible present).snapshot_writable
  obtain ⟨entries', made'⟩ := mapM_zipIdx_returns (l := first :: rest ++ more')
    (f := b.attest dimension (b.findings (first :: rest ++ more'))) |>.mpr fun j claim here => by
      have start : (first :: rest ++ more)[0]? = some first := rfl
      have agree := (findings_agree presentable.digestible presentable'.digestible start here).1
      have united' : b.unitsFor (b.findings (first :: rest ++ more'))[j]? = .ok units := by
        have ref (finding : Option (Finding Binary64)) :
            finding.elim .null Finding.productRef = (finding.map Finding.productRef).getD .null := by
          cases finding <;> rfl
        rw [← united, unitsFor, unitsFor, ref, ref, agree]
      exact attest_returns (presentable'.named claim (List.mem_of_getElem? here)) united' recorded
        version identified dimension
  refine ⟨entries', made', List.ext_getElem? fun i => ?_⟩
  rw [List.getElem?_take, List.getElem?_take]
  split
  · rename_i early
    have here : (first :: rest ++ more)[i]? = some (first :: rest)[i] := by
      rw [List.getElem?_append_left early, List.getElem?_eq_getElem early]
    have there : (first :: rest ++ more')[i]? = some (first :: rest)[i] := by
      rw [List.getElem?_append_left early, List.getElem?_eq_getElem early]
    obtain ⟨entry, found, attested⟩ := mapM_zipIdx_eq_ok made here
    obtain ⟨entry', found', attested'⟩ := mapM_zipIdx_eq_ok made' there
    have same := (findings_agree presentable.digestible presentable'.digestible here there).2 rfl rfl
    simp only [attest, same] at attested attested'
    rw [found, found', ← Except.ok.inj (attested.symm.trans attested')]
  · rfl

end Bench

/-! ## The bid -/

/-- The claims that a bid presents can be read against what the exchange holds. -/
def ReadableBid (version snapshot productRef : Value) (storeId : Str)
    (message : Option (List Str → List Value)) (claims : List Value) : Prop :=
  ∀ narrowed decidable named, narrowedTo snapshot productRef = .ok narrowed →
    decidableKeys narrowed productRef = .ok decidable → spelledOrNone productRef = .ok named →
    Bench.Presentable ⟨storeId, named, narrowed, decidable, version⟩
      (presentedClaims decidable message claims)

theorem attestCandidateClaims_eq_ok {dimension : Option Str → Option Str}
    {version snapshot productRef : Value} {storeId : Str} {message : Option (List Str → List Value)}
    {claims : List Value} (filled : claims ≠ []) {out : Attested} :
    attestCandidateClaims dimension version snapshot productRef storeId message claims = .ok out ↔
      ∃ narrowed, narrowedTo snapshot productRef = .ok narrowed ∧
        ∃ decidable, decidableKeys narrowed productRef = .ok decidable ∧
        ∃ named, spelledOrNone productRef = .ok named ∧
        ∃ entries, (presentedClaims decidable message claims).zipIdx.mapM
            (Bench.attest ⟨storeId, named, narrowed, decidable, version⟩ dimension
              (Bench.findings ⟨storeId, named, narrowed, decidable, version⟩
                (presentedClaims decidable message claims))) = .ok entries ∧
          ⟨entries.map Prod.fst, entries.filterMap Prod.snd⟩ = out := by
  have some (decidable : List Str) : (presentedClaims decidable message claims).isEmpty = false := by
    simp [presentedClaims, filled]
  have any : (claims.isEmpty && message.isNone) = false := by simp [filled]
  simp only [attestCandidateClaims, any, some, Bool.false_eq_true, if_false, bind_eq_ok]
  simp only [pure, Except.pure, Except.ok.injEq]

/-- A pitch is verified claim by claim, each as it is alone, if its claims can be read, and are named
where their position is not the first; and a claim of a bid keeps its attestation whatever is appended
to the bid that can be read. -/
theorem claims_stand_apart (fields : Dict Str Value) (recorded generation : Value)
    (asserted : List Value) (dimension : Option Str → Option Str) (version snapshot productRef : Value)
    (storeId : Str) (message message' : Option (List Str → List Value)) (claims more : List Value) :
    (Isolated fields recorded generation asserted ↔ Digestible fields recorded generation asserted ∧
      ∀ (i : Nat) claim, asserted[i]? = some claim → i = 0 ∨ Wire.truthy (claimName claim) = true) ∧
    (claims ≠ [] → ReadableBid version snapshot productRef storeId message claims →
      ReadableBid version snapshot productRef storeId message' (claims ++ more) →
      ∀ out, attestCandidateClaims dimension version snapshot productRef storeId message claims = .ok out →
        ∃ out', attestCandidateClaims dimension version snapshot productRef storeId message'
            (claims ++ more) = .ok out' ∧
          out'.claims.take claims.length = out.claims.take claims.length) := by
  refine ⟨findings_isolated_iff, fun filled readable readable' out made => ?_⟩
  obtain ⟨narrowed, narrows, decidable, decides, named, names, entries, walked, rfl⟩ :=
    (attestCandidateClaims_eq_ok filled).mp made
  have presentable := readable narrowed decidable named narrows decides names
  have presentable' := readable' narrowed decidable named narrows decides names
  rw [presentedClaims, List.append_assoc] at presentable'
  rw [presentedClaims] at walked presentable
  obtain ⟨entries', walked', same⟩ := Bench.attest_appended filled presentable presentable' walked
  rw [← List.append_assoc] at walked'
  refine ⟨_, (attestCandidateClaims_eq_ok (by simp [filled])).mpr
    ⟨narrowed, narrows, decidable, decides, named, names, entries', walked', rfl⟩, ?_⟩
  rw [← List.map_take, ← List.map_take, same]

/-! ## A claim that washes out another -/

def weighed (grams : Int) : Value :=
  .object [(str "key", .string (str "weight")), (str "value", .number (.integer grams))]

def catalogued (grams : Int) : Value :=
  .object [(str "products", .array [.object [(str "attributes", .object [(str "weight",
    .object [(str "value", .number (.integer grams)), (str "unit", .string (str "g"))])])]])]

def statusOf (claim : Value) : Option Str :=
  match (claim.get attestationField).get (str "status") with
  | .string status => some status
  | _ => none

def statuses (snapshot : Value) (claims : List Value) :
    Option (List (Option Str)) :=
  (attestCandidateClaims (fun _ => none) (.string []) snapshot .null [] none claims).toOption.map
    fun out => out.claims.map statusOf

omit [Spelling Binary64] [Folding] [Sealing] in
/-- A contradicted weight is no longer contradicted once a number follows it that is no double. -/
theorem huge_claim_washes_out :
    letI := Folding.ascii
    letI := Spelling.strings Binary64
    letI := Sealing.plain
    statuses (catalogued 500) [weighed 900] = some [some (str "contradicted")] ∧
      statuses (catalogued 500) [weighed 900, weighed (10 ^ 400)] =
        some [some (str "ambiguous"), some (str "ambiguous")] ∧
      (verify (pitchOf [] [weighed 900, weighed (10 ^ 400)]) (catalogued 500) .null).isOk = false := by
  let _ := Folding.ascii
  let _ := Spelling.strings Binary64
  let _ := Sealing.plain
  decide +kernel

omit [Spelling Binary64] [Folding] [Sealing] in
theorem weights_stand_apart :
    letI := Folding.ascii
    letI := Spelling.strings Binary64
    letI := Sealing.plain
    ∃ out out', attestCandidateClaims (fun _ => none) .null (catalogued 500) .null [] none [weighed 900] =
        .ok out ∧
      attestCandidateClaims (fun _ => none) .null (catalogued 500) .null [] none [weighed 900, weighed 500] =
        .ok out' ∧
      out'.claims.take 1 = out.claims.take 1 := by
  let _ := Folding.ascii
  let _ := Spelling.strings Binary64
  let _ := Sealing.plain
  have readable (claims : List Value)
      (keyed : ∀ claim ∈ claims, Wire.writable (claim.get (str "key")) = true)
      (verified : (verify (pitchOf [(str "pitch_id", .string (str "auction-pitch:")),
        (str "store_id", .string []), (str "product_ref", .null)] (pitchClaims [] claims))
          (catalogued 500) .null).isOk = true) :
      ReadableBid .null (catalogued 500) .null [] none claims := by
    rintro narrowed decidable named narrows - names
    cases narrows
    cases names
    rw [presentedClaims, Option.elim_none, List.append_nil]
    exact ⟨keyed, fun _ => verify_returns.mp (returns_of_isOk verified)⟩
  obtain ⟨out, made⟩ : ∃ out, attestCandidateClaims (fun _ => none) .null (catalogued 500) .null [] none
      [weighed 900] = .ok out := returns_of_isOk (by decide +kernel)
  obtain ⟨out', made', same⟩ := (claims_stand_apart [] .null .null [] (fun _ => none) .null (catalogued 500)
    .null [] none none [weighed 900] [weighed 500]).2 (by simp)
    (readable _ (by decide +kernel) (by decide +kernel))
    (readable _ (by decide +kernel) (by decide +kernel)) out made
  exact ⟨out, out', made, made', same⟩

end Proxyshop.Ranking
