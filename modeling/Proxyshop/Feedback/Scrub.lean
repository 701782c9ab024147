import Proxyshop.Python.Value

/-!
# The scrub

What a trust push keeps of an event: no key that carries the buyer's identity, at any depth. What an event
says under such a key is hidden by blanking it, and the scrub does not tell an event from its blank.
-/

namespace Proxyshop.Feedback

open Python

def identityKeys : List Str :=
  ["name", "buyer", "buyer_name", "buyer_id", "buyer_ref", "customer", "customer_id", "customer_name",
    "first_name", "last_name", "full_name", "recipient", "recipient_name", "shopper", "shopper_name",
    "user_id", "ssn", "dob", "date_of_birth", "ip", "user_agent"].map str

def identityKeySubstrings : List Str :=
  ["email", "address", "account_id", "phone", "telephone", "postcode", "postal_code", "zip_code",
    "credit_card", "card_number", "ip_address"].map str

def lowerAscii (c : CodePoint) : CodePoint := if 65 ≤ c.val ∧ c.val ≤ 90 then c + 32 else c

/-- `_redact_text`, of a text that is kept; `str.lower` lowers what is ASCII as ASCII. -/
class Redaction extends Unicode where
  redactText : Str → Str
  lower_ascii (s : Str) : s.isAscii = true → lower s = s.map lowerAscii
  lower_head (c : CodePoint) (s : Str) : c.isAscii = true → (lower (c :: s)).head? = some (lowerAscii c)

section Identity

variable [Unicode]

/-- `_is_identity_key`. -/
def isIdentityKey (key : Str) : Bool :=
  let name := Unicode.lower key.strip
  name ∈ identityKeys || identityKeySubstrings.any fun fragment => fragment <:+: name

mutual

/-- No mapping inside the value has a key that carries identity. -/
def identityFree : Value → Bool
  | .list items => identityFreeItems items
  | .dict entries => identityFreeEntries entries
  | _ => true

def identityFreeItems : List Value → Bool
  | [] => true
  | v :: items => identityFree v && identityFreeItems items

def identityFreeEntries : List (Str × Value) → Bool
  | [] => true
  | (k, v) :: entries => !isIdentityKey k && identityFree v && identityFreeEntries entries

end

mutual

/-- The value with `None` under every key that carries identity. -/
def blank : Value → Value
  | .list items => .list (blankItems items)
  | .dict entries => .dict (blankEntries entries)
  | v => v

def blankItems : List Value → List Value
  | [] => []
  | v :: items => blank v :: blankItems items

def blankEntries : List (Str × Value) → List (Str × Value)
  | [] => []
  | (k, v) :: entries => (k, if isIdentityKey k then .none else blank v) :: blankEntries entries

end

mutual

/-- How many keys `scrub` removes. -/
def removed : Value → Nat
  | .list items => removedItems items
  | .dict entries => removedEntries entries
  | _ => 0

def removedItems : List Value → Nat
  | [] => 0
  | v :: items => removed v + removedItems items

def removedEntries : List (Str × Value) → Nat
  | [] => 0
  | (k, v) :: entries => (if isIdentityKey k then 1 else removed v) + removedEntries entries

end

mutual

theorem removed_blank : ∀ v, removed (blank v) = removed v
  | .list items => by rw [blank, removed, removed, removedItems_blank items]
  | .dict entries => by rw [blank, removed, removed, removedEntries_blank entries]
  | .none | .bool _ | .int _ | .float _ | .str _ | .datetime _ => by simp [blank]

theorem removedItems_blank : ∀ items, removedItems (blankItems items) = removedItems items
  | [] => rfl
  | v :: items => by rw [blankItems, removedItems, removedItems, removed_blank v, removedItems_blank items]

theorem removedEntries_blank : ∀ entries, removedEntries (blankEntries entries) = removedEntries entries
  | [] => rfl
  | (k, v) :: entries => by
      rw [blankEntries, removedEntries, removedEntries, removedEntries_blank entries]
      by_cases identity : isIdentityKey k = true
      · rw [if_pos identity, if_pos identity]
      · rw [if_neg identity, if_neg identity, if_neg identity, removed_blank v]

end

/-! ## What is alike but for identity -/

def Alike (v v' : Value) : Prop := blank v = blank v'

def isContainer : Value → Bool
  | .list _ | .dict _ => true
  | _ => false

/-- The two values are one, or two containers that say nothing of themselves but whether they are empty. -/
inductive Twin : Value → Value → Prop
  | same (v : Value) : Twin v v
  | containers {v v' : Value} : isContainer v = true → isContainer v' = true → v.truthy = true →
      v'.truthy = true → Twin v v'

@[simp] theorem truthy_blank (v : Value) : (blank v).truthy = v.truthy := by
  cases v with
  | list items => cases items <;> simp [blank, blankItems, Value.truthy]
  | dict entries =>
      cases entries with
      | nil => simp [blank, blankEntries]
      | cons entry entries => simp [blank, blankEntries, Value.truthy]
  | _ => simp [blank]

@[simp] theorem isContainer_blank (v : Value) : isContainer (blank v) = isContainer v := by
  cases v <;> simp [blank, isContainer]

theorem blank_of_atom {v : Value} (atom : isContainer v = false) : blank v = v := by
  cases v with
  | list items => cases atom
  | dict entries => cases atom
  | _ => simp [blank]

theorem blank_of_falsy {v : Value} (falsy : v.truthy = false) : blank v = v := by
  cases v with
  | list items =>
      cases items with
      | nil => simp [blank, blankItems]
      | cons v items => cases falsy
  | dict entries =>
      cases entries with
      | nil => simp [blank, blankEntries]
      | cons entry entries => cases falsy
  | _ => simp [blank]

theorem Alike.of_blank {v v' : Value} (alike : Alike v v') (kept : blank v = v) (kept' : blank v' = v') :
    v = v' := kept.symm.trans (alike.trans kept')

theorem Alike.truthy {v v' : Value} (alike : Alike v v') : v.truthy = v'.truthy := by
  rw [← truthy_blank, alike, truthy_blank]

theorem Alike.of_falsy {v v' : Value} (alike : Alike v v') (falsy : v.truthy = false) : v = v' :=
  alike.of_blank (blank_of_falsy falsy) (blank_of_falsy (alike.truthy.symm.trans falsy))

theorem Alike.twin {v v' : Value} (alike : Alike v v') : Twin v v' := by
  have shape : isContainer v = isContainer v' := by
    rw [← isContainer_blank, alike, isContainer_blank]
  cases held : isContainer v with
  | false =>
      rw [alike.of_blank (blank_of_atom held) (blank_of_atom (shape.symm.trans held))]
      exact .same v'
  | true =>
      cases full : v.truthy with
      | false =>
          rw [alike.of_falsy full]
          exact .same v'
      | true => exact .containers held (shape.symm.trans held) full (alike.truthy.symm.trans full)

theorem Alike.or {a a' b b' : Value} (left : Alike a a') (right : Alike b b') :
    Alike (a.or b) (a'.or b') := by
  unfold Value.or
  rw [left.truthy]
  split
  · exact left
  · exact right

omit [Unicode] in
theorem Twin.isNone {v v' : Value} (twin : Twin v v') : v.isNone = v'.isNone := by
  cases twin with
  | same => rfl
  | containers held held' => cases v <;> cases held <;> cases v' <;> cases held' <;> rfl

theorem get?_blankEntries (entries : Record) {k : Str} (plain : isIdentityKey k = false) :
    Dict.get? (blankEntries entries) k = (Dict.get? entries k).map blank := by
  induction entries with
  | nil => rfl
  | cons entry entries ih =>
      obtain ⟨k', v⟩ := entry
      by_cases same : k' = k
      · subst same
        rw [blankEntries, Dict.get?_cons_self, Dict.get?_cons_self, if_neg (by simp [plain])]
        rfl
      · rw [blankEntries, Dict.get?_cons_ne same, Dict.get?_cons_ne same, ih]

def AlikeRecords (entries entries' : Record) : Prop := blankEntries entries = blankEntries entries'

theorem AlikeRecords.get? {entries entries' : Record} (alike : AlikeRecords entries entries') {k : Str}
    (plain : isIdentityKey k = false) :
    Option.Rel Alike (Dict.get? entries k) (Dict.get? entries' k) := by
  have same : (Dict.get? entries k).map blank = (Dict.get? entries' k).map blank := by
    rw [← get?_blankEntries entries plain, alike, get?_blankEntries entries' plain]
  cases left : Dict.get? entries k <;> cases right : Dict.get? entries' k
  · exact .none
  · simp [left, right] at same
  · simp [left, right] at same
  · rw [left, right] at same
    exact .some (Option.some.inj same)

theorem AlikeRecords.get {entries entries' : Record} (alike : AlikeRecords entries entries') {k : Str}
    (plain : isIdentityKey k = false) : Alike (entries.get k) (entries'.get k) := by
  have related := alike.get? plain
  unfold Record.get
  generalize Dict.get? entries k = stored, Dict.get? entries' k = stored' at related ⊢
  cases related with
  | none => exact rfl
  | some same => exact same

theorem Alike.asDict? {v v' : Value} (alike : Alike v v') :
    Option.Rel AlikeRecords v.asDict? v'.asDict? := by
  cases v with
  | dict entries =>
      cases v' with
      | dict entries' =>
          unfold Alike at alike
          rw [blank, blank] at alike
          exact .some (Value.dict.inj alike)
      | _ => simp [Alike, blank] at alike
  | _ =>
      cases v' <;> simp [Alike, blank] at alike
      all_goals exact .none

theorem Alike.mapping {v v' : Value} (alike : Alike v v') : AlikeRecords v.mapping v'.mapping := by
  have related := alike.asDict?
  unfold Value.mapping
  generalize v.asDict? = read, v'.asDict? = read' at related ⊢
  cases related with
  | none => exact rfl
  | some same => exact same

mutual

theorem blank_of_identityFree : ∀ {v}, identityFree v = true → blank v = v
  | .list items, free => by rw [blank, blankItems_of_identityFree (by simpa [identityFree] using free)]
  | .dict entries, free => by rw [blank, blankEntries_of_identityFree (by simpa [identityFree] using free)]
  | .none, _ | .bool _, _ | .int _, _ | .float _, _ | .str _, _ | .datetime _, _ => by simp [blank]

theorem blankItems_of_identityFree : ∀ {items}, identityFreeItems items = true → blankItems items = items
  | [], _ => rfl
  | v :: items, free => by
      rw [identityFreeItems, Bool.and_eq_true] at free
      rw [blankItems, blank_of_identityFree free.1, blankItems_of_identityFree free.2]

theorem blankEntries_of_identityFree :
    ∀ {entries}, identityFreeEntries entries = true → blankEntries entries = entries
  | [], _ => rfl
  | (k, v) :: entries, free => by
      rw [identityFreeEntries, Bool.and_eq_true, Bool.and_eq_true, Bool.not_eq_true'] at free
      rw [blankEntries, blank_of_identityFree free.1.2, blankEntries_of_identityFree free.2,
        if_neg (by simp [free.1.1])]

end

theorem Alike.of_identityFree {v v' : Value} (alike : Alike v v') (free : identityFree v = true)
    (free' : identityFree v' = true) : v = v' :=
  alike.of_blank (blank_of_identityFree free) (blank_of_identityFree free')

theorem identityFreeEntries_set {entries : Record} {k : Str} (free : identityFreeEntries entries = true)
    (plain : isIdentityKey k = false) (v : Value) :
    identityFreeEntries (Dict.set entries k v) = identityFree v := by
  induction entries with
  | nil => simp [Dict.set, identityFreeEntries, plain]
  | cons entry entries ih =>
      obtain ⟨k', v'⟩ := entry
      rw [identityFreeEntries, Bool.and_eq_true, Bool.and_eq_true] at free
      rw [Dict.set]
      split
      · simp [identityFreeEntries, plain, free.2]
      · rw [identityFreeEntries, ih free.2, free.1.1, free.1.2]
        rfl

end Identity

section Scrubbing

variable [Redaction]

open Redaction

mutual

/-- `scrub`. -/
def scrub : Value → Value
  | .str s => .str (redactText s)
  | .datetime t => .str (redactText t.repr)
  | .list items => .list (scrubItems items)
  | .dict entries => .dict (scrubEntries entries)
  | v => v

def scrubItems : List Value → List Value
  | [] => []
  | v :: items => scrub v :: scrubItems items

def scrubEntries : List (Str × Value) → List (Str × Value)
  | [] => []
  | (k, v) :: entries => if isIdentityKey k then scrubEntries entries else (k, scrub v) :: scrubEntries entries

end

mutual

theorem scrub_blank : ∀ v, scrub (blank v) = scrub v
  | .list items => by rw [blank, scrub, scrub, scrubItems_blank items]
  | .dict entries => by rw [blank, scrub, scrub, scrubEntries_blank entries]
  | .none | .bool _ | .int _ | .float _ | .str _ | .datetime _ => by simp [blank]

theorem scrubItems_blank : ∀ items, scrubItems (blankItems items) = scrubItems items
  | [] => rfl
  | v :: items => by rw [blankItems, scrubItems, scrubItems, scrub_blank v, scrubItems_blank items]

theorem scrubEntries_blank : ∀ entries, scrubEntries (blankEntries entries) = scrubEntries entries
  | [] => rfl
  | (k, v) :: entries => by
      rw [blankEntries, scrubEntries, scrubEntries, scrubEntries_blank entries]
      by_cases identity : isIdentityKey k = true
      · rw [if_pos identity, if_pos identity]
      · rw [if_neg identity, if_neg identity, if_neg identity, scrub_blank v]

end

mutual

theorem identityFree_scrub : ∀ v, identityFree (scrub v) = true
  | .list items => by rw [scrub, identityFree, identityFreeItems_scrub items]
  | .dict entries => by rw [scrub, identityFree, identityFreeEntries_scrub entries]
  | .none | .bool _ | .int _ | .float _ | .str _ | .datetime _ => by simp [scrub, identityFree]

theorem identityFreeItems_scrub : ∀ items, identityFreeItems (scrubItems items) = true
  | [] => rfl
  | v :: items => by rw [scrubItems, identityFreeItems, identityFree_scrub v, identityFreeItems_scrub items]; rfl

theorem identityFreeEntries_scrub : ∀ entries, identityFreeEntries (scrubEntries entries) = true
  | [] => rfl
  | (k, v) :: entries => by
      rw [scrubEntries]
      by_cases identity : isIdentityKey k = true
      · rw [if_pos identity, identityFreeEntries_scrub entries]
      · rw [if_neg identity, identityFreeEntries, identityFree_scrub v, identityFreeEntries_scrub entries]
        simp [identity]

end

end Scrubbing

end Proxyshop.Feedback
