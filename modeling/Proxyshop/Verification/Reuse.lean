import Proxyshop.Merchant.Digest
import Proxyshop.Verification.Isolation

/-!
# Reusing a verdict

What two verifications under one key have in common, and what the key leaves out.
-/

namespace Proxyshop.Verification

open Python Numbers Contracts Structures Hashing

variable {F : Type} [Format F] [Spelling F]

/-! ## The text under the digest -/

omit [Format F] in
def keyBody (pitch snapshot version : Wire F) : Except PyError (Wire F) := do
  return .object
    [(str "pitch_id", pitch.get (str "pitch_id")),
      (str "claims", .string (← canonicalText (pitch.get (str "claims")))),
      (str "snapshot", .string (← canonicalText snapshot)),
      (str "verifier_version", .string (← textOf version))]

omit [Format F] in
def digestOf (body : Wire F) : Str := sha256Hex ((Spelling.dumps body).map fun c => UInt8.ofNat c.val)

omit [Format F] in
theorem verificationKey_eq_ok {pitch snapshot version : Wire F} {key : Str}
    (keyed : verificationKey pitch snapshot version = .ok key) :
    ∃ body, keyBody pitch snapshot version = .ok body ∧ digestOf body = key ∧
      body.get (str "claims") = .string (Spelling.dumps (pitch.get (str "claims"))) ∧
      body.get (str "snapshot") = .string (Spelling.dumps snapshot) := by
  have canonical {v : Wire F} {s : Str} (read : canonicalText v = .ok s) : s = Spelling.dumps v := by
    unfold canonicalText at read
    split at read
    · exact (Except.ok.inj read).symm
    · cases read
  simp only [verificationKey, bind_eq_ok] at keyed
  obtain ⟨claims, first, snapshotText, second, versionText, third, text, fourth, made⟩ := keyed
  obtain rfl := canonical first
  obtain rfl := canonical second
  obtain rfl := canonical fourth
  refine ⟨_, ?_, Except.ok.inj made, rfl, rfl⟩
  rw [keyBody, first, second, third]
  rfl

/-! ## A claim that was not resolved -/

section Reasons

def unresolvedText : String := "the catalog snapshot holds no product this claim can be read against"

def unresolvedReason : Str := str unresolvedText

def ending (s : Str) : Str := s.reverse.take 2

theorem ending_unresolved : ending unresolvedReason = [CodePoint.ofChar 's', CodePoint.ofChar 't'].reverse := by
  decide

theorem ending_append (s : Str) {t : Str} (long : 2 ≤ t.length) : ending (s ++ t) = ending t := by
  rw [ending, ending, List.reverse_append, List.take_append_of_le_length (by rwa [List.length_reverse])]

/-- What a step returns is not the reason of a claim without a product. -/
def Reasoned {α : Type} (reason : α → Str) (x : Except PyError α) : Prop :=
  ∀ a, x = .ok a → reason a ≠ unresolvedReason

variable {α β : Type} {reason : α → Str}

omit [Format F] [Spelling F] in
theorem Reasoned.told {status : Status} {observed : Wire F} {text : String} (other : text ≠ unresolvedText) :
    Reasoned Outcome.reason (.ok ⟨status, observed, str text⟩) := by
  rintro _ ⟨⟩ same
  exact other (str_inj.mp same)

omit [Format F] [Spelling F] in
theorem Reasoned.quoted {status : Status} {observed : Wire F} {quoted text : Str} (long : 2 ≤ text.length)
    (other : ending text ≠ [CodePoint.ofChar 's', CodePoint.ofChar 't'].reverse) :
    Reasoned Outcome.reason (.ok ⟨status, observed, quoted ++ text⟩) := by
  rintro _ ⟨⟩ same
  rw [← ending_append quoted long, ← ending_unresolved] at other
  exact other (congrArg ending same)

theorem Reasoned.bind {x : Except PyError β} {f : β → Except PyError α}
    (steps : ∀ b, Reasoned reason (f b)) : Reasoned reason (x >>= f) := by
  intro a made
  obtain ⟨b, -, made⟩ := bind_eq_ok.mp made
  exact steps b a made

omit [Format F] [Spelling F] in
theorem Reasoned.located {outcome : Outcome F} {location : Option Location}
    (told : Reasoned Outcome.reason (.ok outcome)) :
    Reasoned (fun judged : Outcome F × Option Location => judged.1.reason) (.ok (outcome, location)) := by
  rintro _ ⟨⟩
  exact told outcome rfl

variable [Folding]

theorem compareBoolean_reasoned (claimed : Wire F) (catalog : Bool) :
    Reasoned Outcome.reason (compareBoolean claimed catalog) := by
  apply Reasoned.bind
  rintro (_ | parsed)
  · apply Reasoned.bind
    intro shown
    exact Reasoned.quoted (by decide) (by decide)
  · dsimp only
    split
    · exact Reasoned.told (by decide)
    · exact Reasoned.told (by decide)

theorem compareContains_reasoned (claimed catalog : Wire F) :
    Reasoned Outcome.reason (compareContains claimed catalog) := by
  unfold compareContains
  split
  · exact Reasoned.told (by decide)
  · apply Reasoned.bind
    intro found
    split
    · apply Reasoned.bind
      intro shown
      exact Reasoned.quoted (by decide) (by decide)
    · split
      · exact Reasoned.told (by decide)
      · apply Reasoned.bind
        intro shown
        exact Reasoned.quoted (by decide) (by decide)

theorem compareMultivalued_reasoned (claimed : Wire F) (members : List (Wire F)) :
    Reasoned Outcome.reason (compareMultivalued claimed members) := by
  apply Reasoned.bind
  intro found
  split
  · exact Reasoned.told (by decide)
  · split
    · exact Reasoned.told (by decide)
    · apply Reasoned.bind
      intro domain
      apply Reasoned.bind
      intro reads
      split
      · exact Reasoned.told (by decide)
      · exact Reasoned.told (by decide)

theorem compareNumeric_judged_reasoned (key observed : Wire F) (claimedBase catalogBase : Extended F) :
    Reasoned Outcome.reason (compareNumeric.judged key observed claimedBase catalogBase) := by
  unfold compareNumeric.judged
  split
  · exact Reasoned.told (by decide)
  · apply Reasoned.bind
    intro tolerance
    dsimp only
    split
    · rw [← List.append_assoc, ← List.append_assoc]
      exact Reasoned.quoted (by decide) (by decide)
    · rw [← List.append_assoc, ← List.append_assoc]
      exact Reasoned.quoted (by decide) (by decide)

theorem compareNumeric_reasoned (claimed catalog : Quantity F) (key observed : Wire F) :
    Reasoned Outcome.reason (compareNumeric claimed catalog key observed) := by
  apply Reasoned.bind
  rintro ⟨claimedBase, claimedFamily⟩
  apply Reasoned.bind
  rintro ⟨catalogBase, catalogFamily⟩
  cases claimedFamily with
  | some this =>
      cases catalogFamily with
      | some that =>
          dsimp only
          split
          · exact Reasoned.quoted (by cases that <;> decide) (by cases that <;> decide)
          · exact compareNumeric_judged_reasoned key observed claimedBase catalogBase
      | none =>
          apply Reasoned.bind
          exact fun base => compareNumeric_judged_reasoned key observed claimedBase base.1
  | none =>
      cases catalogFamily with
      | some that =>
          apply Reasoned.bind
          exact fun base => compareNumeric_judged_reasoned key observed base.1 catalogBase
      | none => exact compareNumeric_judged_reasoned key observed claimedBase catalogBase

omit [Format F] in
theorem compareText_reasoned (claimed catalog : Wire F) :
    Reasoned Outcome.reason (compareText claimed catalog) := by
  apply Reasoned.bind
  intro first
  apply Reasoned.bind
  intro second
  split
  · exact Reasoned.told (by decide)
  · exact Reasoned.told (by decide)

theorem compareScalar_reasoned (claimed catalog unit key : Wire F) :
    Reasoned Outcome.reason (compareScalar claimed catalog unit key) := by
  apply Reasoned.bind
  intro c
  apply Reasoned.bind
  intro k
  dsimp only
  split
  · apply Reasoned.bind
    intro comparable
    split
    · exact compareNumeric_reasoned _ _ key catalog
    · split
      · exact Reasoned.told (by decide)
      · exact compareText_reasoned claimed _
  · split
    · exact Reasoned.told (by decide)
    · exact compareText_reasoned claimed _

theorem compare_reasoned (claimed recorded key op : Wire F) :
    Reasoned Outcome.reason (compare claimed recorded key op) := by
  unfold compare
  dsimp only
  apply Reasoned.bind
  intro operator
  split
  · exact compareContains_reasoned claimed _
  · unfold compareEqual
    split
    · exact Reasoned.told (by decide)
    · split
      · exact Reasoned.told (by decide)
      · split
        · exact Reasoned.told (by decide)
        · exact compareBoolean_reasoned claimed _
        · exact compareMultivalued_reasoned claimed _
        · exact compareScalar_reasoned claimed _ _ key

theorem judge_reasoned (claim key snapshot product : Wire F) :
    Reasoned (fun judged : Outcome F × Option Location => judged.1.reason)
      (judge claim key snapshot (.ok product)) := by
  unfold judge
  dsimp only
  split
  · exact Reasoned.located (Reasoned.told (by decide))
  · apply Reasoned.bind
    rintro (_ | ⟨recorded, location⟩)
    · apply Reasoned.bind
      intro shown
      exact Reasoned.located (Reasoned.quoted (by decide) (by decide))
    · apply Reasoned.bind
      intro window
      apply Reasoned.bind
      intro stale
      split
      · apply Reasoned.bind
        intro shown
        exact Reasoned.located (Reasoned.quoted (by decide) (by decide))
      · intro judged made
        obtain ⟨outcome, compared, made⟩ := bind_eq_ok.mp made
        obtain rfl := Except.ok.inj made
        exact compare_reasoned _ _ _ _ outcome compared

end Reasons

/-! ## The product that a finding is on -/

omit [Format F] in
theorem findM?_refersTo_inj {wanted wanted' product product' : Wire F} {products : List (Wire F)}
    (found : products.findM? (refersTo wanted) = .ok (some product))
    (found' : products.findM? (refersTo wanted') = .ok (some product'))
    (same : product.get (str "product_ref") = product'.get (str "product_ref")) : product = product' := by
  have named {wanted product : Wire F} (answer : refersTo wanted product = .ok true) :
      ∃ text, textOf (product.get (str "product_ref")) = .ok text ∧ textOf wanted = .ok text := by
    obtain ⟨text, read, answer⟩ := bind_eq_ok.mp answer
    obtain ⟨text', asked, answer⟩ := bind_eq_ok.mp answer
    have equal : text = text' := by simpa using Except.ok.inj answer
    exact ⟨text, read, equal ▸ asked⟩
  obtain ⟨text, read, asked⟩ := named (findM?_eq_some found).2
  obtain ⟨text', read', asked'⟩ := named (findM?_eq_some found').2
  rw [same, read', Except.ok.injEq] at read
  subst read
  have alike : (refersTo wanted : Wire F → Except PyError Bool) = refersTo wanted' := by
    funext row
    rw [refersTo, refersTo, asked, asked']
  rw [alike] at found
  exact Option.some.inj (Except.ok.inj (found.symm.trans found'))

theorem resolveProduct_eq_ok {claim pitch product : Wire F} {products : List (Wire F)}
    (resolved : resolveProduct claim pitch products = .ok (.ok product)) :
    products = [product] ∨ products.findM? (refersTo (wantedProduct claim pitch)) = .ok (some product) := by
  unfold resolveProduct at resolved
  split at resolved
  · cases resolved
  · split at resolved
    · left
      match products, Except.ok.inj resolved with
      | [only], same =>
          cases same
          rfl
    · right
      obtain ⟨found, searched, resolved⟩ := bind_eq_ok.mp resolved
      cases found with
      | none => cases resolved
      | some product =>
          cases resolved
          exact searched

theorem resolved_eq {claim pitch pitch' product product' : Wire F} {products : List (Wire F)}
    (resolved : resolveProduct claim pitch products = .ok (.ok product))
    (resolved' : resolveProduct claim pitch' products = .ok (.ok product'))
    (same : product.get (str "product_ref") = product'.get (str "product_ref")) : product = product' := by
  rcases resolveProduct_eq_ok resolved with only | found
  · rw [only] at resolved'
    exact (List.mem_singleton.mp (resolveProduct_mem resolved')).symm
  · rcases resolveProduct_eq_ok resolved' with only | found'
    · rw [only] at resolved
      exact List.mem_singleton.mp (resolveProduct_mem resolved)
    · exact findM?_refersTo_inj found found' same

variable [Folding]

theorem verifyClaim_judged {pitch snapshot claim : Wire F} {i : Nat} {finding : Finding F}
    (found : verifyClaim pitch snapshot claim i = .ok finding) :
    ∃ resolved judged, resolveProduct claim pitch (productsOf snapshot) = .ok resolved ∧
      judge claim (claim.get (str "key")) snapshot resolved = .ok judged ∧
      finding.status = judged.1.status ∧ finding.reason = judged.1.reason ∧
      finding.productRef = (resolved.toOption.getD .null).get (str "product_ref") := by
  obtain ⟨resolved, resolves, walked⟩ := bind_eq_ok.mp found
  obtain ⟨⟨outcome, location⟩, judges, walked⟩ := bind_eq_ok.mp walked
  obtain ⟨ref, -, walked⟩ := bind_eq_ok.mp walked
  obtain ⟨claimType, -, walked⟩ := bind_eq_ok.mp walked
  obtain ⟨refs, -, walked⟩ := bind_eq_ok.mp walked
  obtain ⟨tolerance, -, made⟩ := bind_eq_ok.mp walked
  obtain rfl := Except.ok.inj made
  exact ⟨resolved, _, resolves, judges, rfl, rfl, rfl⟩

theorem resolution_of_finding {pitch pitch' snapshot claim : Wire F} {i j : Nat} {finding : Finding F}
    (found : verifyClaim pitch snapshot claim i = .ok finding)
    (found' : verifyClaim pitch' snapshot claim j = .ok finding) :
    resolveProduct claim pitch (productsOf snapshot) = resolveProduct claim pitch' (productsOf snapshot) := by
  obtain ⟨resolved, judged, resolves, judges, status, reason, ref⟩ := verifyClaim_judged found
  obtain ⟨resolved', judged', resolves', judges', status', reason', ref'⟩ := verifyClaim_judged found'
  rw [resolves, resolves']
  cases resolved with
  | error failure =>
      cases judges
      cases resolved' with
      | error failure' =>
          cases judges'
          exact congrArg (fun failure => Except.ok (Except.error failure)) (status.symm.trans status')
      | ok product' => exact absurd (reason'.symm.trans reason) (judge_reasoned _ _ _ _ _ judges')
  | ok product =>
      cases resolved' with
      | error failure' =>
          cases judges'
          exact absurd (reason.symm.trans reason') (judge_reasoned _ _ _ _ _ judges)
      | ok product' =>
          have same := resolved_eq resolves resolves' (ref.symm.trans ref')
          rw [same]

/-! ## Two calls under one key -/

/-- The arguments of `verify`. -/
structure Call (F : Type) where
  pitch : Wire F
  snapshot : Wire F
  version : Wire F

def Call.claims (c : Call F) : Wire F := c.pitch.get (str "claims")

def Call.body (c : Call F) : Except PyError (Wire F) := keyBody c.pitch c.snapshot c.version

/-- No two of the texts that the calls are keyed by collide. -/
def Uncollided (c c' : Call F) : Prop :=
  ∀ body body', c.body = .ok body → c'.body = .ok body' → digestOf body = digestOf body' →
    Spelling.dumps body = Spelling.dumps body'

/-- The canonical texts of the two calls tell their parts apart, the order of the keys included. -/
structure ToldApart (c c' : Call F) : Prop where
  body : ∀ body body', c.body = .ok body → c'.body = .ok body' → Spelling.dumps body = Spelling.dumps body' →
    body.get (str "claims") = body'.get (str "claims") ∧ body.get (str "snapshot") = body'.get (str "snapshot")
  claims : Spelling.dumps c.claims = Spelling.dumps c'.claims → c.claims = c'.claims
  snapshot : Spelling.dumps c.snapshot = Spelling.dumps c'.snapshot → c.snapshot = c'.snapshot

/-- Each claim resolves in both calls to one row of the catalogue, or fails to in one way. -/
def ResolveAlike (c c' : Call F) : Prop :=
  ∀ claims, claimsOf c.pitch = .ok claims → ∀ claim ∈ claims,
    resolveProduct claim c.pitch (productsOf c.snapshot) = resolveProduct claim c'.pitch (productsOf c'.snapshot)

theorem verify_parts {c : Call F} {r : VerificationResult F} (made : verify c.pitch c.snapshot c.version = .ok r) :
    ∃ claims, claimsOf c.pitch = .ok claims ∧
      claims.zipIdx.mapM (fun entry => verifyClaim c.pitch c.snapshot entry.1 entry.2) = .ok r.claims ∧
      verificationKey c.pitch c.snapshot c.version = .ok r.verificationKey := by
  obtain ⟨claims, listed, made⟩ := bind_eq_ok.mp made
  obtain ⟨findings, found, made⟩ := bind_eq_ok.mp made
  obtain ⟨key, keyed, made⟩ := bind_eq_ok.mp made
  obtain rfl := Except.ok.inj made
  exact ⟨claims, listed, found, keyed⟩

omit [Format F] [Folding] in
theorem parts_eq_of_key {c c' : Call F} {key : Str}
    (keyed : verificationKey c.pitch c.snapshot c.version = .ok key)
    (keyed' : verificationKey c'.pitch c'.snapshot c'.version = .ok key)
    (uncollided : Uncollided c c') (apart : ToldApart c c') :
    claimsOf c.pitch = claimsOf c'.pitch ∧ c.snapshot = c'.snapshot := by
  obtain ⟨body, made, digest, claims, snapshot⟩ := verificationKey_eq_ok keyed
  obtain ⟨body', made', digest', claims', snapshot'⟩ := verificationKey_eq_ok keyed'
  obtain ⟨sameClaims, sameSnapshot⟩ := apart.body body body' made made'
    (uncollided body body' made made' (digest.trans digest'.symm))
  rw [claims, claims', Json.string.injEq] at sameClaims
  rw [snapshot, snapshot', Json.string.injEq] at sameSnapshot
  refine ⟨?_, apart.snapshot sameSnapshot⟩
  have listed := apart.claims sameClaims
  unfold Call.claims at listed
  rw [claimsOf, claimsOf, listed]

@[reducible] def Spelling.json : Spelling ℚ where
  text := Merchant.dumps
  repr := Merchant.dumps
  dumps := Merchant.dumps

def steelClaim : Wire ℚ :=
  .object [(str "key", .string (str "material")), (str "value", .string (str "steel"))]

def framed (ref material : String) : Wire ℚ :=
  .object [(str "product_ref", .string (str ref)),
    (str "attributes", .object [(str "material", .object [(str "value", .string (str material))])])]

def frames : Wire ℚ :=
  .object [(str "products", .array [framed "A" "steel", framed "B" "oak"])]

def frameCall (ref : String) : Call ℚ where
  pitch := .object [(str "pitch_id", .string (str "p1")), (str "product_ref", .string (str ref)),
    (str "claims", .array [steelClaim])]
  snapshot := frames
  version := .string (str "v1")

def namedFrameCall : Call ℚ where
  pitch := .object [(str "pitch_id", .string (str "p1")), (str "store_id", .string (str "s1")),
    (str "product_ref", .string (str "A")), (str "claims", .array [steelClaim])]
  snapshot := frames
  version := .string (str "v1")

end Proxyshop.Verification
