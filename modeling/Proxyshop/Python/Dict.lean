import Mathlib.Data.List.Basic
import Mathlib.Data.List.Nodup

/-!
# Dictionaries

A `dict` is the list of its entries in insertion order. Every dictionary built from the empty one by
these operations has distinct keys.
-/

namespace Proxyshop.Python

abbrev Dict (K V : Type) := List (K × V)

namespace Dict

variable {K V W : Type} [DecidableEq K]

def get? : Dict K V → K → Option V
  | [], _ => none
  | (k', v) :: d, k => if k' = k then some v else get? d k

def contains (d : Dict K V) (k : K) : Bool := (get? d k).isSome

def set : Dict K V → K → V → Dict K V
  | [], k, v => [(k, v)]
  | (k', v') :: d, k, v => if k' = k then (k, v) :: d else (k', v') :: set d k v

def setDefault (d : Dict K V) (k : K) (v : V) : Dict K V :=
  if contains d k then d else d ++ [(k, v)]

/-- The entry of `k`, put there by `setdefault`, replaced by its image. -/
def adjust (d : Dict K V) (k : K) (initial : V) (f : V → V) : Dict K V :=
  set d k (f ((get? d k).getD initial))

/-- `d.update(e)`. -/
def update (d e : Dict K V) : Dict K V := e.foldl (fun d entry => set d entry.1 entry.2) d

def erase (d : Dict K V) (k : K) : Dict K V := d.filter fun entry => entry.1 ≠ k

def keys (d : Dict K V) : List K := d.map Prod.fst

def values (d : Dict K V) : List V := d.map Prod.snd

def mapValues (f : V → W) (d : Dict K V) : Dict K W := d.map fun (k, v) => (k, f v)

@[simp] theorem get?_nil (k : K) : get? ([] : Dict K V) k = none := rfl

theorem get?_cons (k' : K) (v : V) (d : Dict K V) (k : K) :
    get? ((k', v) :: d) k = if k' = k then some v else get? d k := rfl

@[simp] theorem get?_cons_self (k : K) (v : V) (d : Dict K V) : get? ((k, v) :: d) k = some v := by
  rw [get?_cons, if_pos rfl]

theorem get?_cons_ne {k' k : K} (h : k' ≠ k) (v : V) (d : Dict K V) :
    get? ((k', v) :: d) k = get? d k := by
  rw [get?_cons, if_neg h]

theorem get?_append (d e : Dict K V) (k : K) : get? (d ++ e) k = (get? d k).or (get? e k) := by
  induction d with
  | nil => simp
  | cons entry d ih =>
      obtain ⟨k', v⟩ := entry
      rw [List.cons_append, get?_cons, get?_cons, ih]
      split <;> rfl

@[simp] theorem get?_set_self (d : Dict K V) (k : K) (v : V) : get? (set d k v) k = some v := by
  induction d with
  | nil => simp [set]
  | cons entry d ih =>
      obtain ⟨k', v'⟩ := entry
      unfold set
      split
      · simp
      · rename_i other
        rw [get?_cons_ne other, ih]

theorem get?_set_ne (d : Dict K V) {k k' : K} (v : V) (h : k' ≠ k) :
    get? (set d k v) k' = get? d k' := by
  induction d with
  | nil => simp [set, get?_cons, h.symm]
  | cons entry d ih =>
      obtain ⟨k₀, v₀⟩ := entry
      unfold set
      split
      · rename_i same
        subst same
        rw [get?_cons_ne h.symm, get?_cons_ne h.symm]
      · rw [get?_cons, get?_cons, ih]

theorem get?_set (d : Dict K V) (k k' : K) (v : V) :
    get? (set d k v) k' = if k' = k then some v else get? d k' := by
  split
  · rename_i same
    rw [same, get?_set_self]
  · rename_i other
    rw [get?_set_ne d v other]

theorem get?_update_of_not_mem (d e : Dict K V) {k : K} (other : k ∉ keys e) :
    get? (update d e) k = get? d k := by
  unfold update
  induction e generalizing d with
  | nil => rfl
  | cons entry e ih =>
      rw [keys, List.map_cons, List.mem_cons, not_or] at other
      rw [List.foldl_cons, ih _ other.2, get?_set_ne d entry.2 other.1]

theorem get?_setDefault (d : Dict K V) (k k' : K) (v : V) :
    get? (setDefault d k v) k' = if k' = k then some ((get? d k).getD v) else get? d k' := by
  unfold setDefault contains
  split
  · rename_i present
    obtain ⟨w, found⟩ := Option.isSome_iff_exists.mp present
    split
    · rename_i same
      rw [same, found]
      rfl
    · rfl
  · rename_i absent
    have missing : get? d k = none := by simpa using absent
    rw [get?_append, get?_cons]
    split
    · rename_i same
      subst same
      rw [missing]
      simp
    · rename_i other
      rw [if_neg (Ne.symm other)]
      cases get? d k' <;> rfl

theorem get?_filter (p : K → Bool) (d : Dict K V) (k : K) :
    get? (d.filter fun entry => p entry.1) k = if p k then get? d k else none := by
  induction d with
  | nil => simp
  | cons entry d ih =>
      obtain ⟨k', v⟩ := entry
      rw [List.filter_cons]
      split
      · rename_i kept
        rw [get?_cons, get?_cons, ih]
        split
        · rename_i same
          rw [← same, if_pos kept]
        · rfl
      · rename_i dropped
        rw [get?_cons, ih]
        split
        · rename_i chosen
          have other : k' ≠ k := fun same => dropped (same ▸ chosen)
          rw [if_neg other]
        · rfl

theorem get?_tabulate (f : K → V) (l : List K) (k : K) :
    get? (l.map fun k => (k, f k)) k = if k ∈ l then some (f k) else none := by
  induction l with
  | nil => rfl
  | cons k' l ih =>
      rw [List.map_cons, get?_cons, ih]
      by_cases same : k' = k
      · subst same
        simp
      · simp [same, Ne.symm same]

theorem get?_eq_none_iff (d : Dict K V) (k : K) : get? d k = none ↔ k ∉ keys d := by
  induction d with
  | nil => simp [keys]
  | cons entry d ih =>
      obtain ⟨k', v⟩ := entry
      rw [get?_cons]
      split
      · rename_i same
        simp [keys, same]
      · rename_i other
        simp only [keys, List.map_cons, List.mem_cons, not_or]
        rw [ih]
        exact ⟨fun h => ⟨fun e => other e.symm, h⟩, fun h => h.2⟩

theorem contains_iff (d : Dict K V) (k : K) : contains d k = true ↔ k ∈ keys d := by
  rw [contains, Option.isSome_iff_ne_none, ne_eq, get?_eq_none_iff, not_not]

theorem setDefault_eq (d : Dict K V) (k : K) (v : V) :
    setDefault d k v = if contains d k then d else set d k v := by
  unfold setDefault
  split
  · rfl
  · rename_i absent
    induction d with
    | nil => rfl
    | cons entry d ih =>
        obtain ⟨k', v'⟩ := entry
        rw [contains, get?_cons] at absent
        split at absent
        · cases absent rfl
        · rename_i other
          rw [set, if_neg other, ← ih absent]
          rfl

theorem contains_setDefault_self (d : Dict K V) (k : K) (v : V) :
    contains (setDefault d k v) k = true := by
  rw [contains, get?_setDefault, if_pos rfl]
  rfl

theorem contains_setDefault {d : Dict K V} {k : K} (h : contains d k = true) (k' : K) (v : V) :
    contains (setDefault d k' v) k = true := by
  rw [contains, get?_setDefault]
  split
  · rfl
  · exact h

theorem setDefault_of_contains {d : Dict K V} {k : K} (h : contains d k = true) (v : V) :
    setDefault d k v = d := by
  rw [setDefault, if_pos h]

theorem mem_setDefault {d : Dict K V} {k : K} {v : V} {entry : K × V}
    (h : entry ∈ setDefault d k v) : entry ∈ d ∨ entry = (k, v) := by
  unfold setDefault at h
  split at h
  · exact Or.inl h
  · rcases List.mem_append.mp h with old | new
    · exact Or.inl old
    · exact Or.inr (List.mem_singleton.mp new)

theorem get?_of_mem {d : Dict K V} (distinct : (keys d).Nodup) {k : K} {v : V} (h : (k, v) ∈ d) :
    get? d k = some v := by
  induction d with
  | nil => cases h
  | cons entry d ih =>
      obtain ⟨k', v'⟩ := entry
      obtain ⟨fresh, rest⟩ := List.nodup_cons.mp distinct
      rcases List.mem_cons.mp h with same | later
      · obtain ⟨rfl, rfl⟩ := Prod.mk.inj same
        rw [get?_cons_self]
      · have other : k' ≠ k := by
          rintro rfl
          exact fresh (List.mem_map.mpr ⟨_, later, rfl⟩)
        rw [get?_cons_ne other, ih rest later]

theorem mem_of_get? {d : Dict K V} {k : K} {v : V} (h : get? d k = some v) : (k, v) ∈ d := by
  induction d with
  | nil => cases h
  | cons entry d ih =>
      obtain ⟨k', v'⟩ := entry
      rw [get?_cons] at h
      split at h
      · rename_i same
        rw [← same, ← Option.some.inj h]
        exact List.mem_cons_self
      · exact List.mem_cons_of_mem _ (ih h)

theorem keys_set (d : Dict K V) (k : K) (v : V) :
    keys (set d k v) = if contains d k then keys d else keys d ++ [k] := by
  induction d with
  | nil => rfl
  | cons entry d ih =>
      obtain ⟨k', v'⟩ := entry
      unfold set contains
      rw [get?_cons]
      split
      · rename_i same
        simp [keys, same]
      · have rest : (keys ((k', v') :: set d k v)) = k' :: keys (set d k v) := rfl
        rw [rest, ih]
        unfold contains
        split <;> rfl

theorem set_of_not_mem {d : Dict K V} {k : K} (absent : k ∉ keys d) (v : V) :
    set d k v = d ++ [(k, v)] := by
  induction d with
  | nil => rfl
  | cons entry d ih =>
      obtain ⟨k', v'⟩ := entry
      have other : k' ≠ k := fun same => absent (same ▸ List.mem_cons_self)
      have later : k ∉ keys d := fun member => absent (List.mem_cons_of_mem _ member)
      rw [set, if_neg other, ih later, List.cons_append]

theorem update_of_disjoint {d e : Dict K V} (distinct : (keys e).Nodup)
    (apart : ∀ k ∈ keys e, k ∉ keys d) : update d e = d ++ e := by
  induction e generalizing d with
  | nil => exact (List.append_nil d).symm
  | cons entry e ih =>
      rw [keys, List.map_cons, List.nodup_cons] at distinct
      have fresh : entry.1 ∉ keys d := apart entry.1 (List.mem_cons_self ..)
      have step : set d entry.1 entry.2 = d ++ [entry] := set_of_not_mem fresh entry.2
      rw [update, List.foldl_cons, step]
      show update (d ++ [entry]) e = _
      rw [ih distinct.2, List.append_assoc, List.singleton_append]
      intro k member
      rw [keys, List.map_append, List.mem_append, not_or]
      refine ⟨apart k (List.mem_cons_of_mem _ member), ?_⟩
      rw [List.map_singleton, List.mem_singleton]
      rintro rfl
      exact distinct.1 member

theorem erase_append_singleton {d : Dict K V} {k : K} (absent : k ∉ keys d) (v : V) :
    erase (d ++ [(k, v)]) k = d := by
  have kept : ∀ entry ∈ d, decide (entry.1 ≠ k) = true := by
    intro entry member
    have other : entry.1 ≠ k := fun same => absent (same ▸ List.mem_map_of_mem member)
    exact decide_eq_true other
  rw [erase, List.filter_append, List.filter_eq_self.mpr kept]
  simp

theorem nodup_keys_set {d : Dict K V} (h : (keys d).Nodup) (k : K) (v : V) :
    (keys (set d k v)).Nodup := by
  rw [keys_set]
  split
  · exact h
  · rename_i absent
    rw [contains_iff] at absent
    exact List.nodup_append.mpr ⟨h, List.nodup_singleton k, by
      intro a ha b hb
      obtain rfl := List.mem_singleton.mp hb
      rintro rfl
      exact absent ha⟩

theorem get?_adjust (d : Dict K V) (k k' : K) (initial : V) (f : V → V) :
    get? (adjust d k initial f) k' = if k' = k then some (f ((get? d k).getD initial)) else get? d k' :=
  get?_set d k k' _

theorem mem_set {d : Dict K V} {k : K} {v : V} {entry : K × V} (h : entry ∈ set d k v) :
    entry ∈ d ∨ entry = (k, v) := by
  induction d with
  | nil => exact Or.inr (List.mem_singleton.mp h)
  | cons old d ih =>
      obtain ⟨k', v'⟩ := old
      unfold set at h
      split at h
      · rcases List.mem_cons.mp h with new | rest
        · exact Or.inr new
        · exact Or.inl (List.mem_cons_of_mem _ rest)
      · rcases List.mem_cons.mp h with same | rest
        · exact Or.inl (same ▸ List.mem_cons_self)
        · exact (ih rest).imp (List.mem_cons_of_mem _) id

theorem get?_mapValues (f : V → W) (d : Dict K V) (k : K) :
    get? (mapValues f d) k = (get? d k).map f := by
  induction d with
  | nil => rfl
  | cons entry d ih =>
      obtain ⟨k', v⟩ := entry
      rw [mapValues, List.map_cons, get?_cons, get?_cons, ← mapValues, ih]
      split <;> rfl

theorem mapValues_set (f : V → W) (d : Dict K V) (k : K) (v : V) :
    mapValues f (set d k v) = set (mapValues f d) k (f v) := by
  induction d with
  | nil => rfl
  | cons entry d ih =>
      obtain ⟨k', v'⟩ := entry
      unfold mapValues at ih ⊢
      simp only [List.map_cons, set]
      split
      · rfl
      · rw [List.map_cons, ih]

end Dict
end Proxyshop.Python
