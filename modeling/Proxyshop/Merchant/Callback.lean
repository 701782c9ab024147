import Mathlib.Tactic.SplitIfs
import Proxyshop.Merchant.Offers
import Proxyshop.Merchant.Webhooks
import Proxyshop.Structures.Framing
import Proxyshop.Structures.Sorted

/-!
# The callback of an install

What the signature of a callback is taken over, and what is read of a callback that verifies.
-/

namespace Proxyshop.Merchant

open Python Hashing Structures

/-! ## Bytes -/

theorem encodePoint_framed {a b : CodePoint} {x y : List UInt8} (same : encodePoint a ++ x = encodePoint b ++ y) :
    a = b ∧ x = y := by
  have byte (m n : Nat) : UInt8.ofNat m = UInt8.ofNat n ↔ m % 256 = n % 256 := by
    rw [← UInt8.toNat_inj, UInt8.toNat_ofNat', UInt8.toNat_ofNat']
  have bound := a.isLt
  have bound' := b.isLt
  unfold encodePoint at same
  dsimp only at same
  split_ifs at same
  all_goals
    simp only [List.cons_append, List.nil_append, List.cons.injEq, byte] at same
    first
      | exact absurd same.1 (by omega)
      | exact ⟨Fin.ext (by omega), same.2⟩
      | exact ⟨Fin.ext (by omega), same.2.2⟩
      | exact ⟨Fin.ext (by omega), same.2.2.2⟩
      | exact ⟨Fin.ext (by omega), same.2.2.2.2⟩

theorem encodePoint_open (a : CodePoint) (x y : List UInt8) : encodePoint a ++ x ≠ 255 :: y := by
  have bound := a.isLt
  have first (n : Nat) (low : n < 255) : UInt8.ofNat n ≠ 255 := by
    intro same
    have := congrArg UInt8.toNat same
    rw [UInt8.toNat_ofNat'] at this
    change n % 256 = 255 at this
    omega
  unfold encodePoint
  dsimp only
  split_ifs
  all_goals
    intro same
    exact first _ (by omega) (List.cons.inj same).1

theorem signatureBytes_injective {s t : Str} (same : signatureBytes s = signatureBytes t) : s = t :=
  (flatMap_framed encodePoint_framed encodePoint_open
    (congrArg (· ++ [255]) same : signatureBytes s ++ 255 :: [] = signatureBytes t ++ 255 :: [])).1

theorem secureEquals_iff {expected supplied : Str} : secureEquals expected supplied = true ↔ expected = supplied := by
  rw [secureEquals, decide_eq_true_iff]
  exact ⟨signatureBytes_injective, congrArg signatureBytes⟩

/-! ## Callbacks -/

structure CallbackParams where
  entries : Dict Str Str
  distinct : (Dict.keys entries).Nodup

def hmacExcluded : List Str := [str "hmac", str "signature"]

def equalsSign : CodePoint := CodePoint.ofChar '='

def ampersand : CodePoint := CodePoint.ofChar '&'

namespace CallbackParams

variable (p : CallbackParams)

def get (name : Str) : Option Str := Dict.get? p.entries name

def signed : Dict Str Str := p.entries.filter fun entry => entry.1 ∉ hmacExcluded

/-- `key=value`. -/
def joined (entry : Str × Str) : Str := entry.1 ++ equalsSign :: entry.2

def signingText : Str :=
  [ampersand].intercalate ((p.signed.insertionSort fun a b => pairedLe Str.le Str.le a b).map joined)

def callbackSigningBytes : List UInt8 := signatureBytes p.signingText

end CallbackParams

inductive CallbackRejected
  | unverified
  | otherState
  | noCode
  | unusableShop
  deriving DecidableEq

structure OAuthCallback where
  shopDomain : Str
  code : Str
  state : Str
  deriving DecidableEq

namespace CallbackParams

variable (p : CallbackParams)

def signCallback (secret : Str) : Str := hex (hmacSha256 (signatureBytes secret) p.callbackSigningBytes)

def verifyCallbackHmac (secret : Str) : Bool :=
  match p.get (str "hmac") with
  | none => false
  | some supplied => if supplied.isEmpty || secret.isEmpty then false else secureEquals (p.signCallback secret) supplied

def readCallback [Unicode] (secret : Str) (expectedState : Option Str) : Except CallbackRejected OAuthCallback :=
  if !p.verifyCallbackHmac secret then .error .unverified
  else if expectedState.any fun expected => (p.get (str "state")).getD [] ≠ expected then .error .otherState
  else
    let code := (p.get (str "code")).getD []
    if code.isEmpty then .error .noCode
    else
      match normalizeShopDomain ((p.get (str "shop")).getD []) with
      | none => .error .unusableShop
      | some shopDomain => .ok { shopDomain, code, state := (p.get (str "state")).getD [] }

end CallbackParams

/-! ## What a signature binds -/

namespace CallbackParams

variable {p q : CallbackParams}

def pairs (p : CallbackParams) : Dict Str Str := p.signed.insertionSort fun a b => pairedLe Str.le Str.le a b

theorem pairs_perm (p : CallbackParams) : p.pairs.Perm p.signed := List.perm_insertionSort _ _

theorem mem_signed {name value : Str} :
    (name, value) ∈ p.signed ↔ name ∉ hmacExcluded ∧ p.get name = some value := by
  rw [signed, List.mem_filter, decide_eq_true_iff, and_comm]
  exact and_congr_right fun _ => ⟨Dict.get?_of_mem p.distinct, Dict.mem_of_get?⟩

theorem get_eq (same : ∀ entry, entry ∈ q.signed ↔ entry ∈ p.signed) {name : Str} (kept : name ∉ hmacExcluded) :
    q.get name = p.get name := by
  apply Option.ext
  intro value
  have entry := same (name, value)
  rwa [mem_signed, mem_signed, and_iff_right kept, and_iff_right kept] at entry

theorem signingText_cons {entry : Str × Str} {rest : Dict Str Str} (pairs_eq : p.pairs = entry :: rest) :
    p.signingText = entry.1 ++ equalsSign :: (entry.2 ++ rest.flatMap fun e => ampersand :: joined e) := by
  have text : p.signingText = [ampersand].intercalate (p.pairs.map joined) := rfl
  rw [text, pairs_eq, List.map_cons, intercalate_cons, List.flatMap_map, joined, List.append_assoc, List.cons_append]

theorem signingText_nil (none : p.pairs = []) : p.signingText = [] := by
  have text : p.signingText = [ampersand].intercalate (p.pairs.map joined) := rfl
  rw [text, none]
  rfl

def only (name value : Str) : CallbackParams := ⟨[(name, value)], List.nodup_singleton _⟩

theorem signed_only {name : Str} (value : Str) (kept : name ∉ hmacExcluded) :
    (only name value).signed = [(name, value)] := by
  simp [signed, only, kept]

theorem signingText_only {name : Str} (value : Str) (kept : name ∉ hmacExcluded) :
    (only name value).signingText = joined (name, value) := by
  have pairs_eq : (only name value).pairs = [(name, value)] := by
    rw [pairs, signed_only value kept]
    rfl
  rw [signingText_cons pairs_eq, List.flatMap_nil, List.append_nil, joined]

/-- Whatever has the same bytes states the same of every parameter that is signed. -/
def Binding (p : CallbackParams) : Prop :=
  ∀ q : CallbackParams, q.callbackSigningBytes = p.callbackSigningBytes →
    ∀ name ∉ hmacExcluded, q.get name = p.get name

def ToldApart (secret : Str) (q p : CallbackParams) : Prop :=
  q.signCallback secret = p.signCallback secret → q.callbackSigningBytes = p.callbackSigningBytes

/-- Whatever is accepted under the signature states the shop, the code and the state that were signed. -/
def ReadBinding (p : CallbackParams) : Prop :=
  ∀ [Unicode] (secret : Str) (expectedState : Option Str) (q : CallbackParams) (read : OAuthCallback),
    ToldApart secret q p → q.get (str "hmac") = some (p.signCallback secret) →
      q.readCallback secret expectedState = .ok read →
        normalizeShopDomain ((p.get (str "shop")).getD []) = some read.shopDomain ∧
          (p.get (str "code")).getD [] = read.code ∧ (p.get (str "state")).getD [] = read.state

/-- At most one parameter is signed, and what is signed of it can be cut in no other place so that a
parameter is named that is signed. -/
def Single (p : CallbackParams) : Prop :=
  ∀ entry ∈ p.signed, p.signed = [entry] ∧ equalsSign ∉ entry.2 ∧
    (equalsSign ∈ entry.1 → ∃ name ∈ hmacExcluded, ∃ rest, entry.1 = joined (name, rest) ∧ equalsSign ∉ rest)

theorem Binding.reads (binding : p.Binding) {name value : Str} (text : p.signingText = joined (name, value))
    (kept : name ∉ hmacExcluded) (entry : Str × Str) : entry ∈ p.signed ↔ entry = (name, value) := by
  have same : (only name value).callbackSigningBytes = p.callbackSigningBytes := by
    rw [callbackSigningBytes, signingText_only value kept, ← text, callbackSigningBytes]
  obtain ⟨n, v⟩ := entry
  rw [← List.mem_singleton, ← signed_only value kept, mem_signed, mem_signed]
  exact and_congr_right fun signed => by rw [binding _ same n signed]

theorem bare_of_excluded {name : Str} (signs : name ∈ hmacExcluded) : equalsSign ∉ name := by
  revert name
  decide

theorem Binding.single (binding : p.Binding) : p.Single := by
  intro entry member
  cases pairs_eq : p.pairs with
  | nil =>
      have empty := p.pairs_perm
      rw [pairs_eq] at empty
      rw [List.nil_perm.mp empty] at member
      exact absurd member List.not_mem_nil
  | cons first rest =>
      have perm := p.pairs_perm
      rw [pairs_eq] at perm
      have text : p.signingText = joined (first.1, first.2 ++ rest.flatMap fun e => ampersand :: joined e) :=
        signingText_cons pairs_eq
      have kept : first.1 ∉ hmacExcluded := (mem_signed.mp (perm.mem_iff.mp List.mem_cons_self)).1
      have value := congrArg Prod.snd ((binding.reads text kept first).mp (perm.mem_iff.mp List.mem_cons_self))
      have nothing := List.self_eq_append_right.mp value
      obtain rfl : rest = [] := by
        cases rest with
        | nil => rfl
        | cons e rest => cases nothing
      have alone : p.signed = [first] := List.perm_singleton.mp perm.symm
      rw [alone, List.mem_singleton] at member
      subst member
      rw [List.flatMap_nil, List.append_nil] at text
      -- a further sign would cut the text at a name that holds the first, which no excluded name does
      have uncut {name v : Str} (cut : entry.1 ++ equalsSign :: entry.2 = name ++ equalsSign :: v)
          (other : name ≠ entry.1) : name ∈ hmacExcluded := by
        by_contra kept'
        have same := (binding.reads (text.trans cut) kept' entry).mp (alone ▸ List.mem_singleton_self _)
        exact other (congrArg Prod.fst same).symm
      refine ⟨alone, ?_, ?_⟩
      · intro inside
        obtain ⟨a, b, parts⟩ := List.append_of_mem inside
        have excluded : entry.1 ++ equalsSign :: a ∈ hmacExcluded := uncut (v := b) (by rw [parts]; simp)
          (by simp)
        exact bare_of_excluded excluded (by simp)
      · intro inside
        obtain ⟨name, rest, parts, first⟩ := List.eq_append_cons_of_mem inside
        refine ⟨name, uncut (v := rest ++ equalsSign :: entry.2) (by rw [parts]; simp) ?_, rest, parts, ?_⟩
        · rw [parts]
          simp
        · intro again
          obtain ⟨a, b, parts'⟩ := List.append_of_mem again
          have excluded : name ++ equalsSign :: a ∈ hmacExcluded :=
            uncut (v := b ++ equalsSign :: entry.2) (by rw [parts, parts']; simp) (by rw [parts, parts']; simp)
          exact bare_of_excluded excluded (by simp)

theorem cut_twice {c : CodePoint} {s t x y : Str} (same : s ++ c :: x = t ++ c :: y) :
    (s = t ∧ x = y) ∨ (∃ m, s = t ++ c :: m ∧ y = m ++ c :: x) ∨ ∃ m, t = s ++ c :: m ∧ x = m ++ c :: y := by
  rcases List.append_eq_append_iff.mp same with ⟨m, left, right⟩ | ⟨m, left, right⟩
  · cases m with
    | nil => exact .inl ⟨by simpa using left.symm, (List.cons.inj right).2⟩
    | cons d m =>
        obtain ⟨rfl, tail⟩ := List.cons.inj right
        exact .inr (.inr ⟨m, left, tail⟩)
  · cases m with
    | nil => exact .inl ⟨by simpa using left, (List.cons.inj right).2.symm⟩
    | cons d m =>
        obtain ⟨rfl, tail⟩ := List.cons.inj right
        exact .inr (.inl ⟨m, left, tail⟩)

theorem Single.binding (single : p.Single) : p.Binding := by
  intro q bytes name kept
  have text := signatureBytes_injective bytes
  refine get_eq (fun entry => ?_) kept
  cases own : p.pairs with
  | nil =>
      cases other : q.pairs with
      | nil => rw [← q.pairs_perm.mem_iff, ← p.pairs_perm.mem_iff, own, other]
      | cons e rest =>
          rw [signingText_nil own, signingText_cons other] at text
          exact absurd text (by simp)
  | cons first rest =>
      have member : first ∈ p.signed := p.pairs_perm.mem_iff.mp (own ▸ List.mem_cons_self)
      obtain ⟨alone, value, named⟩ := single first member
      have pairs_eq : p.pairs = [first] := by rw [pairs, alone]; rfl
      cases other : q.pairs with
      | nil =>
          rw [signingText_nil other, signingText_cons own] at text
          exact absurd text.symm (by simp)
      | cons e rest' =>
          rw [signingText_cons other, signingText_cons pairs_eq, List.flatMap_nil, List.append_nil] at text
          have unsigned : e.1 ∉ hmacExcluded :=
            (mem_signed.mp (q.pairs_perm.mem_iff.mp (other ▸ List.mem_cons_self))).1
          obtain ⟨name_eq, value_eq⟩ : e.1 = first.1 ∧ (e.2 ++ rest'.flatMap fun e => ampersand :: joined e) = first.2 := by
            rcases cut_twice text with same | ⟨m, -, inside⟩ | ⟨m, longer, -⟩
            · exact same
            · exact absurd (inside ▸ List.mem_append_right m List.mem_cons_self) value
            · obtain ⟨excluded, signs, rest, parts, bare⟩ := named (longer ▸ List.mem_append_right _ List.mem_cons_self)
              rw [longer] at parts
              change _ = excluded ++ equalsSign :: rest at parts
              rcases cut_twice parts with ⟨same, -⟩ | ⟨m', -, inside⟩ | ⟨m', same, -⟩
              · exact absurd (same ▸ signs) unsigned
              · exact absurd (inside ▸ List.mem_append_right m' List.mem_cons_self) bare
              · rw [same] at signs
                exact absurd (List.mem_append_right e.1 (List.mem_cons_self (l := m'))) (bare_of_excluded signs)
          obtain rfl : rest' = [] := by
            cases rest' with
            | nil => rfl
            | cons e' rest' =>
                rw [← value_eq] at value
                exact absurd (by simp [joined]) value
          rw [List.flatMap_nil, List.append_nil] at value_eq
          rw [← q.pairs_perm.mem_iff, other, alone, Prod.ext name_eq value_eq]

section Reading

variable [Unicode] {secret : Str} {expectedState : Option Str} {read : OAuthCallback}

theorem bytes_of_accepted (apart : ToldApart secret q p)
    (captured : q.get (str "hmac") = some (p.signCallback secret))
    (accepted : q.readCallback secret expectedState = .ok read) : q.callbackSigningBytes = p.callbackSigningBytes := by
  have verified : q.verifyCallbackHmac secret = true := by
    by_contra refused
    rw [readCallback, if_pos (by simpa using refused)] at accepted
    cases accepted
  rw [verifyCallbackHmac, captured] at verified
  dsimp only at verified
  split at verified
  · cases verified
  · exact apart (secureEquals_iff.mp verified)

theorem readCallback_eq_ok (accepted : q.readCallback secret expectedState = .ok read) :
    normalizeShopDomain ((q.get (str "shop")).getD []) = some read.shopDomain ∧
      (q.get (str "code")).getD [] = read.code ∧ (q.get (str "state")).getD [] = read.state := by
  unfold readCallback at accepted
  split at accepted
  · cases accepted
  · split at accepted
    · cases accepted
    · dsimp only at accepted
      split at accepted
      · cases accepted
      · split at accepted
        · cases accepted
        · rename_i usable
          cases accepted
          exact ⟨usable, rfl, rfl⟩

theorem accepted_agrees (agrees : ∀ name ∉ hmacExcluded, q.get name = p.get name)
    (accepted : q.readCallback secret expectedState = .ok read) :
    normalizeShopDomain ((p.get (str "shop")).getD []) = some read.shopDomain ∧
      (p.get (str "code")).getD [] = read.code ∧ (p.get (str "state")).getD [] = read.state := by
  rw [← agrees _ (by decide), ← agrees _ (by decide), ← agrees _ (by decide)]
  exact readCallback_eq_ok accepted

end Reading

theorem signature_binds_iff (p : CallbackParams) : (p.Binding ∧ p.ReadBinding) ↔ p.Single := by
  refine ⟨fun both => both.1.single, fun single => ⟨single.binding, ?_⟩⟩
  intro unicode secret expectedState q read apart captured accepted
  exact accepted_agrees (single.binding q (bytes_of_accepted apart captured accepted)) accepted

theorem code_swallows_host :
    ∃ captured forged : CallbackParams, captured.callbackSigningBytes = forged.callbackSigningBytes ∧
      captured.get (str "code") = some (str "c") ∧ captured.get (str "host") = some (str "h") ∧
        forged.get (str "code") = some (str "c&host=h") ∧ forged.get (str "host") = none :=
  ⟨⟨[(str "code", str "c"), (str "host", str "h"), (str "shop", str "a.myshopify.com"), (str "state", str "x")],
      by decide⟩,
    ⟨[(str "code", str "c&host=h"), (str "shop", str "a.myshopify.com"), (str "state", str "x")], by decide⟩,
    rfl, rfl, rfl, rfl, rfl⟩

/-! ### Callbacks without separators -/

/-- No name that is signed holds the sign, and no value the ampersand. -/
def Plain (p : CallbackParams) : Prop := ∀ entry ∈ p.signed, equalsSign ∉ entry.1 ∧ ampersand ∉ entry.2

theorem written_once {l m : Dict Str Str} (plain : ∀ entry ∈ l, equalsSign ∉ entry.1 ∧ ampersand ∉ entry.2)
    (plain' : ∀ entry ∈ m, equalsSign ∉ entry.1 ∧ ampersand ∉ entry.2)
    (same : (l.flatMap fun e => ampersand :: joined e) = m.flatMap fun e => ampersand :: joined e) : l = m := by
  have headed (l : Dict Str Str) : ∀ c ∈ (l.flatMap fun e => ampersand :: joined e).head?, decide (c ≠ ampersand) = false := by
    cases l with
    | nil => rintro _ ⟨⟩
    | cons e l =>
        rintro c ⟨⟩
        exact decide_eq_false (not_not.mpr rfl)
  have free {c : CodePoint} {s : Str} (absent : c ∉ s) : s.all (fun d => decide (d ≠ c)) = true :=
    List.all_eq_true.mpr fun d member => decide_eq_true (ne_of_mem_of_not_mem member absent)
  induction l generalizing m with
  | nil =>
      cases m with
      | nil => rfl
      | cons e m => cases same
  | cons e l ih =>
      cases m with
      | nil => cases same
      | cons e' m =>
          obtain ⟨own, rest⟩ := List.forall_mem_cons.mp plain
          obtain ⟨own', rest'⟩ := List.forall_mem_cons.mp plain'
          rw [List.flatMap_cons, List.flatMap_cons, joined, joined, List.cons_append, List.cons_append, List.append_assoc,
            List.append_assoc, List.cons_append, List.cons_append] at same
          obtain ⟨name, values⟩ := span_framed (free own.1) (free own'.1) (by simp) (by simp) (List.cons.inj same).2
          obtain ⟨value, tails⟩ := span_framed (free own.2) (free own'.2) (headed l) (headed m) (List.cons.inj values).2
          rw [Prod.ext name value, ih rest rest' tails]

theorem plain_callbacks_bound [Unicode] {p q : CallbackParams} {secret : Str} {expectedState : Option Str}
    {read : OAuthCallback} (plain : p.Plain) (plain' : q.Plain)
    (apart : ToldApart secret q p) (captured : q.get (str "hmac") = some (p.signCallback secret))
    (accepted : q.readCallback secret expectedState = .ok read) :
    (∀ name ∉ hmacExcluded, q.get name = p.get name) ∧
      normalizeShopDomain ((p.get (str "shop")).getD []) = some read.shopDomain ∧
        (p.get (str "code")).getD [] = read.code ∧ (p.get (str "state")).getD [] = read.state := by
  have text := signatureBytes_injective (bytes_of_accepted apart captured accepted)
  have spelled (p : CallbackParams) : (ampersand :: p.signingText = p.pairs.flatMap fun e => ampersand :: joined e) ∨
      p.pairs = [] ∧ p.signingText = [] := by
    cases pairs_eq : p.pairs with
    | nil => exact .inr ⟨rfl, signingText_nil pairs_eq⟩
    | cons e rest => exact .inl (by rw [signingText_cons pairs_eq, List.flatMap_cons, joined]; simp)
  have same : q.pairs = p.pairs := by
    rcases spelled q with left | ⟨none, left⟩ <;> rcases spelled p with right | ⟨none', right⟩
    · rw [text, right] at left
      exact (written_once (fun e member => plain e (p.pairs_perm.mem_iff.mp member))
        (fun e member => plain' e (q.pairs_perm.mem_iff.mp member)) left).symm
    · rw [text, right] at left
      cases pairs_eq : q.pairs with
      | nil => exact none'.symm
      | cons e rest => rw [signingText_cons pairs_eq, right] at text; exact absurd text (by simp)
    · rw [← text, left] at right
      cases pairs_eq : p.pairs with
      | nil => exact none
      | cons e rest => rw [signingText_cons pairs_eq, left] at text; exact absurd text.symm (by simp)
    · rw [none, none']
  have agrees : ∀ name ∉ hmacExcluded, q.get name = p.get name := fun name kept =>
    get_eq (fun e => by rw [← q.pairs_perm.mem_iff, same, p.pairs_perm.mem_iff]) kept
  exact ⟨agrees, accepted_agrees agrees accepted⟩

def installation : CallbackParams where
  entries := [(str "code", str "c"), (str "shop", str "a.myshopify.com"), (str "state", str "x")]
  distinct := by decide

def signedInstallation : CallbackParams where
  entries := (str "hmac", installation.signCallback (str "k")) :: installation.entries
  distinct := by decide

theorem installation_bound :
    letI := Unicode.ascii
    ∃ read, signedInstallation.readCallback (str "k") (some (str "x")) = .ok read ∧
      (installation.get (str "code")).getD [] = read.code := by
  let _ := Unicode.ascii
  have own : signedInstallation.signed = installation.signed := rfl
  have bytes : signedInstallation.callbackSigningBytes = installation.callbackSigningBytes := by
    rw [callbackSigningBytes, callbackSigningBytes, signingText, signingText, own]
  have captured : signedInstallation.get (str "hmac") = some (installation.signCallback (str "k")) := rfl
  have filled : (installation.signCallback (str "k")).isEmpty = false := by
    have length : (installation.signCallback (str "k")).length = 64 := by
      rw [signCallback, hex_length, hmacSha256, sha256_length]
    rw [List.isEmpty_eq_false_iff, ← List.length_pos_iff, length]
    decide
  have verified : signedInstallation.verifyCallbackHmac (str "k") = true := by
    rw [verifyCallbackHmac, captured]
    dsimp only
    rw [filled, if_neg (by decide), secureEquals_iff, signCallback, bytes, signCallback]
  have accepted : signedInstallation.readCallback (str "k") (some (str "x")) =
      .ok ⟨str "a.myshopify.com", str "c", str "x"⟩ := by
    rw [readCallback, verified]
    rfl
  have plain : ∀ entry ∈ installation.signed, equalsSign ∉ entry.1 ∧ ampersand ∉ entry.2 := by decide
  exact ⟨_, accepted, (plain_callbacks_bound (q := signedInstallation) plain plain (fun _ => bytes) captured accepted).2.2.1⟩

end CallbackParams
end Proxyshop.Merchant
