import Proxyshop.Er.Identity
import Proxyshop.Structures.Sorted

/-!
# The decision about a pair of records

One confidence and one comparison. The answer is a value that does not tell which record came first.
-/

namespace Proxyshop.Er

open Python Numbers Contracts Verification Structures

abbrev Record := Dict Str Value

def nameWeight : Num := 0.6

def corroborationWeight : Num := 1.0 - nameWeight

def brandConflictCeiling : Num := 0.5

def maxSimilarityConfidence : Num := 0.99

def confidencePlaces : Nat := 12

inductive Method
  | sameNode
  | gtin
  | gtinConflict
  | brandConflict
  | noEvidence
  | similarity
  deriving DecidableEq, Repr

structure MatchDecision where
  linked : Bool
  confidence : Num
  method : Method
  threshold : Num
  pair : Str × Str
  evidence : Dict Str Num

def nameFields : List Str := [str "canonical_name", str "name", str "title"]

def readField (record : Record) (name : Str) (default : Value) : Value :=
  match Dict.get? record name with
  | none | some .null => default
  | some value => value

def isName : Value → Bool
  | .string s => !s.strip.isEmpty
  | _ => false

def recordName (record : Record) : Value :=
  ((nameFields.map fun field => readField record field (.string [])).find? isName).getD (.string [])

/-- `round(x, places)`. -/
def roundPlaces (places : Nat) : Num → Num
  | .finite x => Binary64.round (nearest (x.value * 10 ^ places) / 10 ^ places)
  | x => x

def bounded (confidence : Num) : Num := Extended.least 1.0 (Extended.greatest 0.0 confidence)

/-- `_decide`. -/
def decided (confidence : Num) (method : Method) (threshold : Num) (pair : Str × Str)
    (evidence : Dict Str Num) : MatchDecision where
  linked := threshold ≤ bounded confidence
  confidence := bounded confidence
  method := method
  threshold := threshold
  pair := pair
  evidence := byKey Str.le evidence

def sortedPair (left right : Str) : Str × Str := if Str.le left right then (left, right) else (right, left)

theorem sortedPair_le (left right : Str) :
    Str.le (sortedPair left right).1 (sortedPair left right).2 = true := by
  unfold sortedPair
  split
  · assumption
  · rename_i above
    exact (str_order.total left right).resolve_left above

section Signals

variable [Spelling Binary64] [Lettering] [Summation]

omit [Spelling Binary64] in
def brandAgreement (left right : Record) : Option Num :=
  let leftBrand := readField left (str "brand") (.string [])
  let rightBrand := readField right (str "brand") (.string [])
  let leftTokens := (tokens leftBrand).toFinset
  let rightTokens := (tokens rightBrand).toFinset
  if leftTokens = ∅ ∨ rightTokens = ∅ then none
  else if leftTokens ⊆ rightTokens ∨ rightTokens ⊆ leftTokens then some 1.0
  else some (textSimilarity leftBrand rightBrand)

omit [Spelling Binary64] [Summation] in
def finiteVector : Value → Except PyError (Option (List Num))
  | .array items =>
      match items.mapM Wire.toDouble with
      | .error .overflowError => .error .overflowError
      | .error _ => .ok none
      | .ok components =>
          .ok (if components.isEmpty || !components.all Extended.isFinite then none else some components)
  | _ => .ok none

omit [Spelling Binary64] [Lettering] in
/-- `cosine` of two vectors of one length. -/
def cosine (a b : List Num) : Num :=
  let dot := Summation.sum (List.zipWith (· * ·) a b)
  let na := Summation.sqrt (Summation.sum (a.map fun x => x * x))
  let nb := Summation.sqrt (Summation.sum (b.map fun y => y * y))
  -- the least root is that of the least positive number, so the product of two is never zero
  if na = 0.0 ∨ nb = 0.0 then 0.0 else dot / (na * nb)

omit [Spelling Binary64] in
def embeddingSignal (left right : Record) : Except PyError (Option Num) := do
  let leftVector ← finiteVector (readField left (str "embedding") .null)
  let rightVector ← finiteVector (readField right (str "embedding") .null)
  match leftVector, rightVector with
  | some a, some b =>
      return if a.length ≠ b.length then none else some (Extended.greatest 0.0 (cosine a b))
  | _, _ => return none

omit [Spelling Binary64] [Summation] in
/-- The attributes by their folded keys, a later one over an earlier. -/
def foldedAttributes (attributes : Dict Str Value) : Dict Str Value :=
  attributes.foldl (fun folded entry =>
    let key := fold (.string entry.1)
    if key.isEmpty then folded else Dict.set folded key entry.2) []

omit [Summation] in
def agrees (left right : Dict Str Value) (key : Str) : Except PyError Bool := do
  let leftText ← textOf ((Dict.get? left key).getD .null)
  let rightText ← textOf ((Dict.get? right key).getD .null)
  return fold (.string leftText) = fold (.string rightText)

omit [Spelling Binary64] [Lettering] [Summation] in
/-- `sorted(set(left) & set(right))`. -/
def sharedKeys (left right : Dict Str Value) : List Str :=
  ((Dict.keys left).dedup.filter fun key => key ∈ Dict.keys right).insertionSort fun a b => Str.le a b

omit [Summation] in
def attributeSignal (left right : Record) : Except PyError (Option Num) :=
  match readField left (str "attributes") .null, readField right (str "attributes") .null with
  | .object leftAttributes, .object rightAttributes => do
      let leftFolded := foldedAttributes leftAttributes
      let rightFolded := foldedAttributes rightAttributes
      let shared := sharedKeys leftFolded rightFolded
      if shared.isEmpty then return none
      else
        let answers ← shared.mapM (agrees leftFolded rightFolded)
        return some (ratio (answers.count true) shared.length)
  | _, _ => .ok none

end Signals

variable [Spelling Binary64] [Lettering] [Summation]

omit [Spelling Binary64] [Summation] in
/-- `_validated_threshold`. -/
def validatedThreshold (threshold : Value) : Except PyError Num :=
  match threshold with
  | .bool _ => .error .valueError
  | _ =>
      match Wire.toDouble threshold with
      | .error .overflowError => .error .overflowError
      | .error _ => .error .valueError
      | .ok value => if (0.0 : Num) < value ∧ value ≤ 1.0 then .ok value else .error .valueError

/-- The signals that corroborate a name, each under its own. -/
def corroboration (left right : Record) : Except PyError (Dict Str Num) := do
  let embedding ← embeddingSignal left right
  let attributes ← attributeSignal left right
  return (embedding.toList.map fun x => (str "embedding", x)) ++
    attributes.toList.map fun x => (str "attributes", x)

def nameDecision (left right : Record) (floor : Num) (pair : Str × Str) :
    Except PyError MatchDecision := do
  let nameSimilarity := textSimilarity (recordName left) (recordName right)
  let brand := brandAgreement left right
  let evidence := (str "name", nameSimilarity) :: brand.toList.map fun x => (str "brand", x)
  if brand.any fun x => x < brandConflictCeiling then
    return decided 0.0 .brandConflict floor pair evidence
  else
    let others ← corroboration left right
    let best := match brand.toList ++ Dict.values others with
      | [] => 0.0
      | first :: rest => maximum first rest
    let score := nameWeight * nameSimilarity + corroborationWeight * best
    return decided (roundPlaces confidencePlaces (Extended.least score maxSimilarityConfidence))
      .similarity floor pair (evidence ++ others)

omit [Lettering] [Summation] in
def productId (record : Record) : Except PyError Str :=
  textOf (readField record (str "product_id") (.string []))

omit [Summation] in
def gtinOf (record : Record) : Except PyError (Option Str) :=
  normalizeGtin (readField record (str "gtin") (.string []))

def matching (left right : Record) (threshold : Value) : Except PyError MatchDecision := do
  let floor ← validatedThreshold threshold
  let leftId ← productId left
  let rightId ← productId right
  let pair := sortedPair leftId rightId
  if leftId ≠ [] ∧ leftId = rightId then
    return decided 1.0 .sameNode floor pair [(str "identity", 1.0)]
  else
    let leftGtin ← gtinOf left
    let rightGtin ← gtinOf right
    match leftGtin, rightGtin with
    | some a, some b =>
        if a = b then return decided 1.0 .gtin floor pair [(str "gtin", 1.0)]
        else return decided 0.0 .gtinConflict floor pair [(str "gtin", 0.0)]
    | _, _ =>
        if (fold (recordName left)).isEmpty || (fold (recordName right)).isEmpty then
          return decided 0.0 .noEvidence floor pair [(str "name", 0.0)]
        else nameDecision left right floor pair

/-! ## What a decision says of the pair -/

theorem nameDecision_eq_ok {left right : Record} {floor : Num} {pair : Str × Str} {d : MatchDecision}
    (made : nameDecision left right floor pair = .ok d) :
    ∃ confidence method evidence, d = decided confidence method floor pair evidence := by
  unfold nameDecision at made
  dsimp only at made
  split at made
  · cases made
    exact ⟨_, _, _, rfl⟩
  · obtain ⟨others, -, made⟩ := bind_eq_ok.mp made
    cases made
    exact ⟨_, _, _, rfl⟩

theorem matching_eq_ok {left right : Record} {threshold : Value} {d : MatchDecision}
    (made : matching left right threshold = .ok d) :
    ∃ floor a b confidence method evidence, validatedThreshold threshold = .ok floor ∧
      productId left = .ok a ∧ productId right = .ok b ∧
        d = decided confidence method floor (sortedPair a b) evidence := by
  unfold matching at made
  obtain ⟨floor, valid, made⟩ := bind_eq_ok.mp made
  obtain ⟨a, idA, made⟩ := bind_eq_ok.mp made
  obtain ⟨b, idB, made⟩ := bind_eq_ok.mp made
  have found {confidence : Num} {method : Method} {evidence : Dict Str Num}
      (same : d = decided confidence method floor (sortedPair a b) evidence) :
      ∃ floor a b confidence method evidence, validatedThreshold threshold = .ok floor ∧
        productId left = .ok a ∧ productId right = .ok b ∧
          d = decided confidence method floor (sortedPair a b) evidence :=
    ⟨floor, a, b, confidence, method, evidence, valid, idA, idB, same⟩
  dsimp only at made
  split at made
  · cases made
    exact found rfl
  · obtain ⟨x, -, made⟩ := bind_eq_ok.mp made
    obtain ⟨y, -, made⟩ := bind_eq_ok.mp made
    split at made
    · split at made
      · cases made
        exact found rfl
      · cases made
        exact found rfl
    · split at made
      · cases made
        exact found rfl
      · obtain ⟨confidence, method, evidence, same⟩ := nameDecision_eq_ok made
        exact found same

/-! ## Symmetry -/

omit [Spelling Binary64] [Lettering] [Summation] in
theorem sortedPair_comm (left right : Str) : sortedPair left right = sortedPair right left := by
  unfold sortedPair
  split <;> split
  · rename_i below above
    rw [str_order.antisymm trivial trivial below above]
  · rfl
  · rfl
  · rename_i above below
    rcases str_order.total left right with le | le
    · exact absurd le above
    · exact absurd le below

omit [Spelling Binary64] in
theorem brandAgreement_comm (left right : Record) :
    brandAgreement left right = brandAgreement right left := by
  unfold brandAgreement
  dsimp only
  rw [textSimilarity_comm]
  split_ifs <;> first | rfl | simp_all

omit [Spelling Binary64] [Lettering] in
theorem cosine_comm (a b : List Num) : cosine a b = cosine b a := by
  unfold cosine
  dsimp only
  rw [List.zipWith_comm_of_comm times_comm, times_comm (Summation.sqrt _)]
  split <;> split <;> first | rfl | tauto

omit [Spelling Binary64] [Summation] in
theorem finiteVector_error {value : Value} {e : PyError} (raised : finiteVector value = .error e) :
    e = .overflowError := by
  unfold finiteVector at raised
  split at raised
  · split at raised <;> cases raised
    rfl
  · cases raised

omit [Spelling Binary64] in
theorem embeddingSignal_comm (left right : Record) :
    embeddingSignal left right = embeddingSignal right left := by
  unfold embeddingSignal
  rw [bind_comm fun e e' h h' => (finiteVector_error h).trans (finiteVector_error h').symm]
  congr
  funext b
  congr
  funext a
  cases a <;> cases b <;> first | rfl | simp only [cosine_comm, ne_comm]

omit [Spelling Binary64] [Lettering] [Summation] in
theorem sharedKeys_comm (left right : Dict Str Value) : sharedKeys left right = sharedKeys right left := by
  apply sort_congr str_order fun _ _ => trivial
  apply (List.perm_ext_iff_of_nodup ((List.nodup_dedup _).filter _) ((List.nodup_dedup _).filter _)).mpr
  intro key
  simp only [List.mem_filter, List.mem_dedup, decide_eq_true_eq]
  exact And.comm

omit [Lettering] [Summation] in
theorem textOf_alike {a b : Value} (e e' : PyError) (left : textOf a = .error e)
    (right : textOf b = .error e') : e = e' := (textOf_error left).trans (textOf_error right).symm

omit [Summation] in
theorem normalizeGtin_alike {a b : Value} (e e' : PyError) (left : normalizeGtin a = .error e)
    (right : normalizeGtin b = .error e') : e = e' :=
  (normalizeGtin_error left).trans (normalizeGtin_error right).symm

omit [Summation] in
theorem agrees_comm (left right : Dict Str Value) : agrees left right = agrees right left := by
  funext key
  unfold agrees
  rw [bind_comm textOf_alike]
  simp only [eq_comm]

omit [Summation] in
theorem attributeSignal_comm (left right : Record) :
    attributeSignal left right = attributeSignal right left := by
  unfold attributeSignal
  cases readField left (str "attributes") .null <;>
    cases readField right (str "attributes") .null <;>
      simp only [sharedKeys_comm, agrees_comm]

theorem corroboration_comm (left right : Record) : corroboration left right = corroboration right left := by
  rw [corroboration, embeddingSignal_comm, attributeSignal_comm, corroboration]

theorem nameDecision_comm (left right : Record) (floor : Num) (pair : Str × Str) :
    nameDecision left right floor pair = nameDecision right left floor pair := by
  simp only [nameDecision, textSimilarity_comm (recordName left), brandAgreement_comm left,
    corroboration_comm left]

theorem matching_comm (left right : Record) (threshold : Value) :
    matching left right threshold = matching right left threshold := by
  unfold matching productId gtinOf
  congr 1
  funext floor
  rw [bind_comm textOf_alike]
  congr 1
  funext rightId
  congr 1
  funext leftId
  rw [sortedPair_comm]
  dsimp only
  by_cases same : leftId ≠ [] ∧ leftId = rightId
  · obtain ⟨named, rfl⟩ := same
    rw [if_pos ⟨named, rfl⟩, if_pos ⟨named, rfl⟩]
  · have other : ¬(rightId ≠ [] ∧ rightId = leftId) := fun h => same ⟨h.2 ▸ h.1, h.2.symm⟩
    rw [if_neg same, if_neg other, bind_comm normalizeGtin_alike]
    congr 1
    funext b
    congr 1
    funext a
    cases a <;> cases b
    · simp only [Bool.or_comm, nameDecision_comm left]
    · simp only [Bool.or_comm, nameDecision_comm left]
    · simp only [Bool.or_comm, nameDecision_comm left]
    · simp only [eq_comm]

end Proxyshop.Er
