import Mathlib.Data.List.Sort
import Proxyshop.Python.Dict
import Proxyshop.Python.Text

/-!
# Entries sorted by key

Two dictionaries with the same keys come out of the sort side by side.
-/

namespace Proxyshop.Structures

open Python

/-- A total order of the keys in `S`. -/
structure KeyOrder {K : Type} (le : K → K → Bool) (S : Set K) : Prop where
  total : ∀ a b, le a b = true ∨ le b a = true
  trans : ∀ {a b c}, le a b = true → le b c = true → le a c = true
  antisymm : ∀ {a b}, a ∈ S → b ∈ S → le a b = true → le b a = true → a = b

theorem KeyOrder.comap {K L : Type} {le : L → L → Bool} {T : Set L} (order : KeyOrder le T)
    {f : K → L} {S : Set K} (into : Set.MapsTo f S T) (injective : Set.InjOn f S) :
    KeyOrder (fun a b => le (f a) (f b)) S where
  total a b := order.total (f a) (f b)
  trans := order.trans
  antisymm ha hb ab ba := injective ha hb (order.antisymm (into ha) (into hb) ab ba)

/-- By the first component, and by the second where the first is the same. -/
def pairedLe {K L : Type} (le : K → K → Bool) (le' : L → L → Bool) (a b : K × L) : Bool :=
  le a.1 b.1 && (!le b.1 a.1 || le' a.2 b.2)

theorem KeyOrder.paired {K L : Type} {le : K → K → Bool} {le' : L → L → Bool}
    (first : KeyOrder le Set.univ) (second : KeyOrder le' Set.univ) :
    KeyOrder (pairedLe le le') Set.univ where
  total a b := by
    unfold pairedLe
    have := first.total a.1 b.1
    have := second.total a.2 b.2
    cases forth : le a.1 b.1 <;> cases back : le b.1 a.1 <;> simp_all
  trans {a b c} ab bc := by
    unfold pairedLe at *
    simp only [Bool.and_eq_true, Bool.or_eq_true, Bool.not_eq_true'] at *
    refine ⟨first.trans ab.1 bc.1, ?_⟩
    cases back : le c.1 a.1 with
    | false => exact Or.inl rfl
    | true =>
        right
        have left := ab.2.resolve_left fun h => Bool.false_ne_true (h.symm.trans (first.trans bc.1 back))
        have right := bc.2.resolve_left fun h => Bool.false_ne_true (h.symm.trans (first.trans back ab.1))
        exact second.trans left right
  antisymm {a b} _ _ ab ba := by
    unfold pairedLe at *
    simp only [Bool.and_eq_true, Bool.or_eq_true, Bool.not_eq_true'] at *
    have same := first.antisymm trivial trivial ab.1 ba.1
    refine Prod.ext same (second.antisymm trivial trivial ?_ ?_)
    · exact ab.2.resolve_left fun h => Bool.false_ne_true (h.symm.trans ba.1)
    · exact ba.2.resolve_left fun h => Bool.false_ne_true (h.symm.trans ab.1)

def lexLe : List Nat → List Nat → Bool
  | [], _ => true
  | _ :: _, [] => false
  | a :: as, b :: bs => a < b || (a == b && lexLe as bs)

theorem lexLe_cons {a b : Nat} {as bs : List Nat} :
    lexLe (a :: as) (b :: bs) = true ↔ a < b ∨ (a = b ∧ lexLe as bs = true) := by
  simp [lexLe]

theorem lexLe_order : KeyOrder lexLe Set.univ where
  total as := by
    induction as with
    | nil => exact fun _ => Or.inl rfl
    | cons a as ih =>
        intro bs
        cases bs with
        | nil => exact Or.inr rfl
        | cons b bs =>
            rw [lexLe_cons, lexLe_cons]
            have := ih bs
            rcases lt_trichotomy a b with less | same | more
            · exact Or.inl (Or.inl less)
            · exact this.imp (fun h => Or.inr ⟨same, h⟩) fun h => Or.inr ⟨same.symm, h⟩
            · exact Or.inr (Or.inl more)
  trans {as} := by
    induction as with
    | nil => exact fun _ _ => rfl
    | cons a as ih =>
        intro bs cs ab bc
        cases bs with
        | nil => cases ab
        | cons b bs =>
            cases cs with
            | nil => cases bc
            | cons c cs =>
                rw [lexLe_cons] at ab bc ⊢
                rcases ab with less | ⟨rfl, first⟩
                · rcases bc with less' | ⟨rfl, _⟩
                  · exact Or.inl (less.trans less')
                  · exact Or.inl less
                · exact bc.imp_right fun ⟨same, second⟩ => ⟨same, ih first second⟩
  antisymm {as} := by
    induction as with
    | nil =>
        intro bs _ _ _ ba
        cases bs with
        | nil => rfl
        | cons => cases ba
    | cons a as ih =>
        intro bs _ _ ab ba
        cases bs with
        | nil => cases ab
        | cons b bs =>
            rw [lexLe_cons] at ab ba
            rcases ab with less | ⟨rfl, first⟩
            · omega
            · rcases ba with less | ⟨_, second⟩
              · omega
              · rw [ih trivial trivial first second]

theorem str_order : KeyOrder Str.le Set.univ := by
  have spelled : Str.le = fun s t => lexLe (s.map Fin.val) (t.map Fin.val) := by
    funext s t
    induction s generalizing t with
    | nil => rfl
    | cons a s ih =>
        cases t with
        | nil => rfl
        | cons b t =>
            rw [Str.le, List.map_cons, List.map_cons, lexLe, ih]
            congr 2
            rw [Bool.eq_iff_iff, beq_iff_eq, beq_iff_eq, Fin.ext_iff]
  rw [spelled]
  exact lexLe_order.comap (Set.mapsTo_univ _ _)
    (List.map_injective_iff.mpr Fin.val_injective).injOn

theorem eq_of_sorted {K : Type} {le : K → K → Bool} (order : KeyOrder le Set.univ) {l m : List K}
    (left : l.Pairwise fun a b => le a b = true) (right : m.Pairwise fun a b => le a b = true)
    (distinct : l.Nodup) (distinct' : m.Nodup) (same : ∀ a, a ∈ l ↔ a ∈ m) : l = m :=
  List.Perm.eq_of_pairwise (fun _ _ _ _ => order.antisymm trivial trivial) left right
    ((List.perm_ext_iff_of_nodup distinct distinct').mpr same)

theorem sort_congr {K : Type} {le : K → K → Bool} {S : Set K} (order : KeyOrder le S) {l m : List K}
    (inside : ∀ a ∈ l, a ∈ S) (same : l.Perm m) :
    l.insertionSort (fun a b => le a b) = m.insertionSort fun a b => le a b := by
  have : Std.Total fun a b : K => le a b = true := ⟨order.total⟩
  have : IsTrans K fun a b => le a b = true := ⟨fun _ _ _ => order.trans⟩
  have perm (u : List K) : (u.insertionSort fun a b => le a b).Perm u := List.perm_insertionSort _ u
  refine List.Perm.eq_of_pairwise ?_ (List.pairwise_insertionSort _ l) (List.pairwise_insertionSort _ m) ?_
  · intro a b left right
    exact order.antisymm (inside a ((perm l).mem_iff.mp left))
      (inside b (same.mem_iff.mpr ((perm m).mem_iff.mp right)))
  · exact (perm l).trans (same.trans (perm m).symm)

theorem sort_strict {K : Type} {le : K → K → Bool} {S : Set K} (order : KeyOrder le S) {l : List K}
    (inside : ∀ a ∈ l, a ∈ S) (distinct : l.Nodup) :
    (l.insertionSort fun a b => le a b).Pairwise fun a b => le b a = false := by
  have : Std.Total fun a b : K => le a b = true := ⟨order.total⟩
  have : IsTrans K fun a b => le a b = true := ⟨fun _ _ _ => order.trans⟩
  have perm : (l.insertionSort fun a b => le a b).Perm l := List.perm_insertionSort _ l
  have sorted := (List.pairwise_insertionSort (fun a b => le a b = true) l).and (perm.nodup_iff.mpr distinct)
  refine sorted.imp_of_mem ?_
  rintro a b inA inB ⟨below, differ⟩
  rw [Bool.eq_false_iff]
  intro above
  exact differ (order.antisymm (inside a (perm.mem_iff.mp inA)) (inside b (perm.mem_iff.mp inB)) below above)

section ByKey

variable {K V W : Type} (le : K → K → Bool)

def byKey (d : Dict K V) : Dict K V := d.insertionSort fun a b => le a.1 b.1

variable {le}

theorem byKey_perm (d : Dict K V) : (byKey le d).Perm d := List.perm_insertionSort _ d

theorem byKey_map (f : V → W) (d : Dict K V) :
    byKey le (d.map fun e => (e.1, f e.2)) = (byKey le d).map fun e => (e.1, f e.2) :=
  (List.map_insertionSort (fun a b : K × V => le a.1 b.1 = true)
    (fun a b : K × W => le a.1 b.1 = true) _ d fun _ _ _ _ => Iff.rfl).symm

theorem byKey_sorted {S : Set K} (order : KeyOrder le S) (d : Dict K V) :
    (byKey le d).Pairwise fun a b => le a.1 b.1 = true :=
  letI : Std.Total fun a b : K × V => le a.1 b.1 = true := ⟨fun a b => order.total a.1 b.1⟩
  letI : IsTrans (K × V) fun a b => le a.1 b.1 = true := ⟨fun _ _ _ => order.trans⟩
  List.pairwise_insertionSort _ d

theorem keys_byKey {S : Set K} (order : KeyOrder le S) {d : Dict K V} {e : Dict K W}
    (distinct : (Dict.keys d).Nodup) (distinct' : (Dict.keys e).Nodup)
    (inside : ∀ k ∈ Dict.keys d, k ∈ S) (same : ∀ k, k ∈ Dict.keys d ↔ k ∈ Dict.keys e) :
    Dict.keys (byKey le d) = Dict.keys (byKey le e) := by
  have sorted {U : Type} (u : Dict K U) : (Dict.keys (byKey le u)).Pairwise fun a b => le a b = true :=
    List.pairwise_map.mpr (byKey_sorted order u)
  have perm {U : Type} (u : Dict K U) : (Dict.keys (byKey le u)).Perm (Dict.keys u) :=
    (byKey_perm u).map Prod.fst
  refine List.Perm.eq_of_pairwise ?_ (sorted d) (sorted e) ?_
  · intro a b left right
    exact order.antisymm (inside a ((perm d).mem_iff.mp left))
      (inside b ((same b).mpr ((perm e).mem_iff.mp right)))
  · refine (perm d).trans (.trans ?_ (perm e).symm)
    exact (List.perm_ext_iff_of_nodup distinct distinct').mpr same

variable [DecidableEq K]

theorem byKey_related {S : Set K} (order : KeyOrder le S) {d : Dict K V} {e : Dict K W}
    {R : V → W → Prop} (distinct : (Dict.keys d).Nodup) (distinct' : (Dict.keys e).Nodup)
    (inside : ∀ k ∈ Dict.keys d, k ∈ S) (same : ∀ k, (Dict.get? d k).isSome = (Dict.get? e k).isSome)
    (related : ∀ k v w, Dict.get? d k = some v → Dict.get? e k = some w → R v w) :
    List.Forall₂ (fun a b => a.1 = b.1 ∧ R a.2 b.2) (byKey le d) (byKey le e) := by
  have keys := keys_byKey order distinct distinct' inside fun k => by
    rw [← Dict.contains_iff, ← Dict.contains_iff, Dict.contains, Dict.contains, same k]
  rw [List.forall₂_iff_get]
  refine ⟨by simpa [Dict.keys] using congrArg List.length keys, ?_⟩
  intro i left right
  have key : (byKey le d)[i].1 = (byKey le e)[i].1 := by
    have := List.getElem_of_eq keys (i := i) (by simpa [Dict.keys] using left)
    simpa [Dict.keys] using this
  refine ⟨key, related (byKey le d)[i].1 _ _ ?_ ?_⟩
  · exact Dict.get?_of_mem distinct ((byKey_perm d).mem_iff.mp (List.getElem_mem left))
  · rw [key]
    exact Dict.get?_of_mem distinct' ((byKey_perm e).mem_iff.mp (List.getElem_mem right))

omit [DecidableEq K] in
theorem nodup_byKey {d : Dict K V} (distinct : (Dict.keys d).Nodup) : (Dict.keys (byKey le d)).Nodup :=
  ((byKey_perm d).map Prod.fst).nodup_iff.mpr distinct

theorem get?_byKey {d : Dict K V} (distinct : (Dict.keys d).Nodup) :
    Dict.get? (byKey le d) = Dict.get? d := by
  funext k
  cases found : Dict.get? d k with
  | none =>
      rw [Dict.get?_eq_none_iff] at found ⊢
      intro member
      exact found (((byKey_perm d).map Prod.fst).mem_iff.mp member)
  | some v =>
      exact Dict.get?_of_mem (nodup_byKey distinct) ((byKey_perm d).mem_iff.mpr (Dict.mem_of_get? found))

theorem byKey_congr (order : KeyOrder le Set.univ) {d e : Dict K V} (distinct : (Dict.keys d).Nodup)
    (distinct' : (Dict.keys e).Nodup) (same : Dict.get? d = Dict.get? e) : byKey le d = byKey le e := by
  rw [← List.forall₂_eq_eq_eq]
  refine (byKey_related (R := Eq) order distinct distinct' (fun _ _ => trivial) ?_ ?_).imp ?_
  · intro k
    rw [same]
  · intro k v w left right
    rw [same] at left
    exact Option.some.inj (left.symm.trans right)
  · intro a b both
    exact Prod.ext both.1 both.2

theorem related_of_byKey {d : Dict K V} {e : Dict K W} {R : V → W → Prop}
    (distinct : (Dict.keys e).Nodup)
    (matched : List.Forall₂ (fun a b => a.1 = b.1 ∧ R a.2 b.2) (byKey le d) (byKey le e)) :
    (∀ k, (Dict.get? d k).isSome = (Dict.get? e k).isSome) ∧
      ∀ k v w, Dict.get? d k = some v → Dict.get? e k = some w → R v w := by
  have keys : Dict.keys (byKey le d) = Dict.keys (byKey le e) := by
    rw [Dict.keys, Dict.keys, ← List.forall₂_eq_eq_eq, List.forall₂_map_left_iff,
      List.forall₂_map_right_iff]
    exact matched.imp fun _ _ both => both.1
  constructor
  · intro k
    have left : k ∈ Dict.keys (byKey le d) ↔ k ∈ Dict.keys d := ((byKey_perm d).map Prod.fst).mem_iff
    have right : k ∈ Dict.keys (byKey le e) ↔ k ∈ Dict.keys e := ((byKey_perm e).map Prod.fst).mem_iff
    rw [Bool.eq_iff_iff]
    show Dict.contains d k = true ↔ Dict.contains e k = true
    rw [Dict.contains_iff, Dict.contains_iff]
    exact left.symm.trans ((iff_of_eq (congrArg (k ∈ ·) keys)).trans right)
  · intro k v w left right
    have member : (k, v) ∈ byKey le d := (byKey_perm d).mem_iff.mpr (Dict.mem_of_get? left)
    obtain ⟨i, bound, here⟩ := List.getElem_of_mem member
    have bound' : i < (byKey le e).length := matched.length_eq ▸ bound
    obtain ⟨key, related⟩ := List.forall₂_iff_get.mp matched |>.2 i bound bound'
    rw [List.get_eq_getElem, List.get_eq_getElem, here] at key related
    have found : Dict.get? e (byKey le e)[i].1 = some (byKey le e)[i].2 :=
      Dict.get?_of_mem distinct ((byKey_perm e).mem_iff.mp (List.getElem_mem bound'))
    rw [← key, right] at found
    rw [Option.some.inj found]
    exact related

end ByKey
end Proxyshop.Structures
