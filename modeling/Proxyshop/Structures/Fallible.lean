import Mathlib.Data.List.Basic
import Mathlib.Data.List.Forall2

/-!
# Walks that may fail

When a walk over a list returns, whatever it returns.
-/

namespace Proxyshop.Structures

variable {ε α β σ : Type}

theorem bind_eq_ok {x : Except ε α} {f : α → Except ε β} {b : β} :
    x >>= f = .ok b ↔ ∃ a, x = .ok a ∧ f a = .ok b := by
  cases x with
  | error e => exact ⟨nofun, nofun⟩
  | ok a => exact ⟨fun h => ⟨a, rfl, h⟩, fun ⟨_, same, h⟩ => by cases same; exact h⟩

theorem not_returns_error {e : ε} : ¬ ∃ a : α, (Except.error e : Except ε α) = .ok a := by
  rintro ⟨a, returned⟩
  cases returned

theorem bind_eq_error {x : Except ε α} {f : α → Except ε β} {e : ε} :
    x >>= f = .error e ↔ x = .error e ∨ ∃ a, x = .ok a ∧ f a = .error e := by
  cases x with
  | error e' =>
      constructor
      · intro raised
        left
        cases raised
        rfl
      · rintro (raised | ⟨_, returned, _⟩)
        · cases raised
          rfl
        · cases returned
  | ok a =>
      constructor
      · exact fun h => Or.inr ⟨a, rfl, h⟩
      · rintro (h | ⟨_, same, h⟩)
        · cases h
        · cases same
          exact h

theorem bind_returns {x : Except ε α} {f : α → Except ε β} :
    (∃ b, x >>= f = .ok b) ↔ ∃ a, x = .ok a ∧ ∃ b, f a = .ok b := by
  cases x with
  | error e => exact ⟨nofun, nofun⟩
  | ok a => exact ⟨fun h => ⟨a, rfl, h⟩, fun ⟨_, same, h⟩ => by cases same; exact h⟩

theorem bind_comm {x : Except ε α} {y : Except ε β} (alike : ∀ e e', x = .error e → y = .error e' → e = e')
    (f : α → β → Except ε σ) : (x >>= fun a => y >>= f a) = y >>= fun b => x >>= fun a => f a b := by
  cases x with
  | error e =>
      cases y with
      | error e' => exact congrArg Except.error (alike e e' rfl rfl)
      | ok b => rfl
  | ok a => cases y <;> rfl

theorem toOption_eq_some {x : Except ε α} {a : α} : x.toOption = some a ↔ x = .ok a := by
  cases x <;> simp [Except.toOption]

theorem returns_of_isOk {x : Except ε α} (returned : x.isOk = true) : ∃ a, x = .ok a := by
  cases x with
  | error e => cases returned
  | ok a => exact ⟨a, rfl⟩

theorem mapM_returns {f : α → Except ε β} {l : List α} :
    (∃ out, l.mapM f = .ok out) ↔ ∀ a ∈ l, ∃ b, f a = .ok b := by
  induction l with
  | nil => exact iff_of_true ⟨[], rfl⟩ nofun
  | cons a l ih =>
      rw [List.mapM_cons, List.forall_mem_cons, bind_returns]
      constructor
      · rintro ⟨b, head, rest⟩
        obtain ⟨out, tail, -⟩ := bind_returns.mp rest
        exact ⟨⟨b, head⟩, ih.mp ⟨out, tail⟩⟩
      · rintro ⟨⟨b, head⟩, tail⟩
        obtain ⟨out, walked⟩ := ih.mpr tail
        exact ⟨b, head, bind_returns.mpr ⟨out, walked, b :: out, rfl⟩⟩

theorem mapM_eq_ok {f : α → Except ε β} {l : List α} {out : List β} :
    l.mapM f = .ok out ↔ List.Forall₂ (fun a b => f a = .ok b) l out := by
  induction l generalizing out with
  | nil =>
      rw [List.mapM_nil, List.forall₂_nil_left_iff]
      exact ⟨fun h => (Except.ok.inj h).symm, fun h => h ▸ rfl⟩
  | cons a l ih =>
      rw [List.mapM_cons, List.forall₂_cons_left_iff]
      constructor
      · intro walked
        obtain ⟨b, head, walked⟩ := bind_eq_ok.mp walked
        obtain ⟨rest, tail, walked⟩ := bind_eq_ok.mp walked
        exact ⟨b, rest, head, ih.mp tail, (Except.ok.inj walked).symm⟩
      · rintro ⟨b, rest, head, tail, rfl⟩
        rw [head, ih.mpr tail]
        rfl

theorem mapM_zipIdx_returns {f : α × Nat → Except ε β} {l : List α} :
    (∃ out, l.zipIdx.mapM f = .ok out) ↔ ∀ i a, l[i]? = some a → ∃ b, f (a, i) = .ok b := by
  rw [mapM_returns]
  constructor
  · exact fun steps i a found => steps (a, i) (List.mem_zipIdx_iff_getElem?.mpr found)
  · rintro steps ⟨a, i⟩ member
    exact steps i a (List.mem_zipIdx_iff_getElem?.mp member)

theorem mapM_zipIdx_eq_ok {f : α × Nat → Except ε β} {l : List α} {out : List β}
    (made : l.zipIdx.mapM f = .ok out) {i : Nat} {a : α} (found : l[i]? = some a) :
    ∃ b, out[i]? = some b ∧ f (a, i) = .ok b := by
  obtain ⟨length, steps⟩ := List.forall₂_iff_get.mp (mapM_eq_ok.mp made)
  obtain ⟨bound, rfl⟩ := List.getElem?_eq_some_iff.mp found
  have inside : i < out.length := by
    rw [← length, List.length_zipIdx]
    exact bound
  refine ⟨out[i], List.getElem?_eq_getElem inside, ?_⟩
  have step := steps i (by simpa using bound) inside
  simpa using step

theorem mapM_members {f : α → Except ε β} {l : List α} {out : List β} (made : l.mapM f = .ok out) :
    (∀ b ∈ out, ∃ a ∈ l, f a = .ok b) ∧ ∀ a ∈ l, ∃ b ∈ out, f a = .ok b := by
  have paired := mapM_eq_ok.mp made
  clear made
  induction paired with
  | nil => exact ⟨nofun, nofun⟩
  | cons head _ ih =>
      constructor
      · rintro b (_ | ⟨_, inside⟩)
        · exact ⟨_, List.mem_cons_self, head⟩
        · obtain ⟨a, member, same⟩ := ih.1 b inside
          exact ⟨a, List.mem_cons_of_mem _ member, same⟩
      · rintro a (_ | ⟨_, inside⟩)
        · exact ⟨_, List.mem_cons_self, head⟩
        · obtain ⟨b, member, same⟩ := ih.2 a inside
          exact ⟨b, List.mem_cons_of_mem _ member, same⟩

theorem mapM_related {f g : α → Except ε β} {R : β → β → Prop} {l : List α} {out : List β}
    (step : ∀ a ∈ l, ∀ b, f a = .ok b → ∃ b', g a = .ok b' ∧ R b b') (made : l.mapM f = .ok out) :
    ∃ out', l.mapM g = .ok out' ∧ List.Forall₂ R out out' := by
  simp only [mapM_eq_ok] at made ⊢
  induction made with
  | nil => exact ⟨[], .nil, .nil⟩
  | cons head _ ih =>
      obtain ⟨b', head', related⟩ := step _ List.mem_cons_self _ head
      obtain ⟨out', tail', rest⟩ := ih fun a member => step a (List.mem_cons_of_mem _ member)
      exact ⟨b' :: out', .cons head' tail', .cons related rest⟩

theorem mapM_eq_map {f : α → Except ε β} {g : α → β} {good : α → Prop} {l : List α} {out : List β}
    (step : ∀ a b, f a = .ok b ↔ good a ∧ g a = b) :
    l.mapM f = .ok out ↔ (∀ a ∈ l, good a) ∧ l.map g = out := by
  rw [mapM_eq_ok]
  constructor
  · intro paired
    induction paired with
    | nil => exact ⟨nofun, rfl⟩
    | cons head _ ih =>
        obtain ⟨fits, rfl⟩ := (step _ _).mp head
        exact ⟨List.forall_mem_cons.mpr ⟨fits, ih.1⟩, congrArg _ ih.2⟩
  · rintro ⟨fits, rfl⟩
    rw [List.forall₂_map_right_iff, List.forall₂_same]
    exact fun a member => (step a _).mpr ⟨fits a member, rfl⟩

theorem filter_map_eq {l : List α} {m : List β} {p : α → Bool} {q : β → Bool} {f : α → σ} {g : β → σ}
    (paired : List.Forall₂ (fun a b => p a = q b ∧ f a = g b) l m) :
    (l.filter p).map f = (m.filter q).map g := by
  induction paired with
  | nil => rfl
  | @cons a b _ _ head _ ih =>
      rw [List.filter_cons, List.filter_cons, head.1]
      cases q b
      · exact ih
      · exact congrArg₂ List.cons head.2 ih

/-- Good as far as a search walks, which is to the first member that answers. -/
def Reached (p : α → Except ε Bool) (good : α → Prop) : List α → Prop
  | [] => True
  | a :: l => good a ∧ (p a = .ok false → Reached p good l)

theorem anyM_returns {p : α → Except ε Bool} {good : α → Prop} {l : List α}
    (step : ∀ a ∈ l, (∃ b, p a = .ok b) ↔ good a) :
    (∃ b, l.anyM p = .ok b) ↔ Reached p good l := by
  induction l with
  | nil => exact iff_of_true ⟨false, rfl⟩ trivial
  | cons a l ih =>
      have rest := ih fun a member => step a (List.mem_cons_of_mem _ member)
      rw [List.anyM, bind_returns, Reached, ← step a List.mem_cons_self, ← rest]
      constructor
      · rintro ⟨b, head, walked⟩
        refine ⟨⟨b, head⟩, fun unanswered => ?_⟩
        rw [head, Except.ok.injEq] at unanswered
        subst unanswered
        exact walked
      · rintro ⟨⟨b, head⟩, walked⟩
        refine ⟨b, head, ?_⟩
        cases b with
        | true => exact ⟨true, rfl⟩
        | false => exact walked head

theorem anyM_eq_false {p : α → Except ε Bool} {l : List α} :
    l.anyM p = .ok false ↔ ∀ a ∈ l, p a = .ok false := by
  induction l with
  | nil => exact iff_of_true rfl nofun
  | cons a l ih =>
      rw [List.anyM, bind_eq_ok, List.forall_mem_cons, ← ih]
      constructor
      · rintro ⟨b, head, walked⟩
        cases b with
        | true => cases walked
        | false => exact ⟨head, walked⟩
      · rintro ⟨head, walked⟩
        exact ⟨false, head, walked⟩

theorem anyM_eq_true {p : α → Except ε Bool} {l : List α} (answered : l.anyM p = .ok true) :
    ∃ a ∈ l, p a = .ok true := by
  induction l with
  | nil => cases answered
  | cons a l ih =>
      rw [List.anyM, bind_eq_ok] at answered
      obtain ⟨b, head, walked⟩ := answered
      cases b with
      | true => exact ⟨a, List.mem_cons_self, head⟩
      | false =>
          obtain ⟨found, member, answer⟩ := ih walked
          exact ⟨found, List.mem_cons_of_mem _ member, answer⟩

theorem anyM_decided {p : α → Except ε Bool} {l : List α} (decided : ∀ a ∈ l, ∃ b, p a = .ok b) :
    ∃ b, l.anyM p = .ok b := by
  induction l with
  | nil => exact ⟨false, rfl⟩
  | cons a l ih =>
      obtain ⟨⟨b, head⟩, tail⟩ := List.forall_mem_cons.mp decided
      rw [List.anyM, head]
      cases b with
      | true => exact ⟨true, rfl⟩
      | false => exact ih tail

theorem allM_returns {p : α → Except ε Bool} {l : List α} (step : ∀ a ∈ l, ∃ b, p a = .ok b) :
    ∃ b, l.allM p = .ok b := by
  induction l with
  | nil => exact ⟨true, rfl⟩
  | cons a l ih =>
      obtain ⟨b, head⟩ := step a List.mem_cons_self
      rw [List.allM, bind_returns]
      refine ⟨b, head, ?_⟩
      cases b with
      | false => exact ⟨false, rfl⟩
      | true => exact ih fun a member => step a (List.mem_cons_of_mem _ member)

theorem filterM_returns {p : α → Except ε Bool} {l : List α} (step : ∀ a ∈ l, ∃ b, p a = .ok b) :
    ∃ kept, l.filterM p = .ok kept := by
  have walk : ∀ acc, ∃ kept, l.filterAuxM p acc = .ok kept := by
    induction l with
    | nil => exact fun acc => ⟨acc, rfl⟩
    | cons a l ih =>
        intro acc
        obtain ⟨b, head⟩ := step a List.mem_cons_self
        rw [List.filterAuxM, bind_returns]
        exact ⟨b, head, ih (fun a member => step a (List.mem_cons_of_mem _ member)) _⟩
  obtain ⟨kept, walked⟩ := walk []
  rw [List.filterM, bind_returns]
  exact ⟨kept, walked, _, rfl⟩

theorem mapM_eq {f : α → Except ε β} {g : α → β} {l : List α} (step : ∀ a ∈ l, f a = .ok (g a)) :
    l.mapM f = .ok (l.map g) := by
  rw [mapM_eq_ok]
  induction l with
  | nil => exact .nil
  | cons a l ih =>
      obtain ⟨head, tail⟩ := List.forall_mem_cons.mp step
      exact .cons head (ih tail)

theorem allM_true {p : α → Except ε Bool} {l : List α} (step : ∀ a ∈ l, p a = .ok true) :
    l.allM p = .ok true := by
  induction l with
  | nil => rfl
  | cons a l ih =>
      obtain ⟨head, tail⟩ := List.forall_mem_cons.mp step
      rw [List.allM, head]
      exact ih tail

theorem filterM_eq {p : α → Except ε Bool} {q : α → Bool} {l : List α} (step : ∀ a ∈ l, p a = .ok (q a)) :
    l.filterM p = .ok (l.filter q) := by
  have walk : ∀ acc, l.filterAuxM p acc = .ok ((l.filter q).reverse ++ acc) := by
    induction l with
    | nil => exact fun acc => rfl
    | cons a l ih =>
        intro acc
        obtain ⟨head, tail⟩ := List.forall_mem_cons.mp step
        rw [List.filterAuxM, head]
        change l.filterAuxM p (cond (q a) (a :: acc) acc) = _
        rw [ih tail]
        cases answer : q a <;> simp [answer]
  rw [List.filterM, walk]
  change Except.ok _ = _
  simp

theorem mem_filterM {p : α → Except ε Bool} {l out : List α} (walked : l.filterM p = .ok out) :
    (∀ a ∈ l, ∃ b, p a = .ok b) ∧ ∀ a, a ∈ out ↔ a ∈ l ∧ p a = .ok true := by
  have walk : ∀ acc out, l.filterAuxM p acc = .ok out →
      (∀ a ∈ l, ∃ b, p a = .ok b) ∧ ∀ a, a ∈ out ↔ a ∈ acc ∨ (a ∈ l ∧ p a = .ok true) := by
    clear walked
    induction l with
    | nil =>
        rintro acc out walked
        cases walked
        exact ⟨nofun, fun a => ⟨Or.inl, fun h => h.elim id fun found => nomatch found.1⟩⟩
    | cons c l ih =>
        intro acc out walked
        obtain ⟨b, head, tail⟩ := bind_eq_ok.mp walked
        obtain ⟨steps, kept⟩ := ih _ _ tail
        refine ⟨List.forall_mem_cons.mpr ⟨⟨b, head⟩, steps⟩, fun a => ?_⟩
        rw [kept, List.mem_cons]
        cases b with
        | true =>
            rw [cond_true, List.mem_cons]
            constructor
            · rintro ((rfl | old) | ⟨later, answer⟩)
              · exact Or.inr ⟨Or.inl rfl, head⟩
              · exact Or.inl old
              · exact Or.inr ⟨Or.inr later, answer⟩
            · rintro (old | ⟨rfl | later, answer⟩)
              · exact Or.inl (Or.inr old)
              · exact Or.inl (Or.inl rfl)
              · exact Or.inr ⟨later, answer⟩
        | false =>
            rw [cond_false]
            constructor
            · exact Or.imp_right fun found => ⟨Or.inr found.1, found.2⟩
            · rintro (old | ⟨rfl | later, answer⟩)
              · exact Or.inl old
              · rw [head] at answer
                cases answer
              · exact Or.inr ⟨later, answer⟩
  obtain ⟨kept, ran, made⟩ := bind_eq_ok.mp walked
  cases made
  obtain ⟨steps, members⟩ := walk [] kept ran
  refine ⟨steps, fun a => ?_⟩
  rw [List.mem_reverse, members]
  simp

theorem findM?_returns {p : α → Except ε Bool} {l : List α} (step : ∀ a ∈ l, ∃ b, p a = .ok b) :
    ∃ found, l.findM? p = .ok found := by
  induction l with
  | nil => exact ⟨none, rfl⟩
  | cons a l ih =>
      obtain ⟨b, head⟩ := step a List.mem_cons_self
      rw [List.findM?, bind_returns]
      refine ⟨b, head, ?_⟩
      cases b with
      | true => exact ⟨some a, rfl⟩
      | false => exact ih fun a member => step a (List.mem_cons_of_mem _ member)

theorem findM?_congr {p q : α → Except ε Bool} {l : List α} (agree : ∀ a ∈ l, p a = q a) :
    l.findM? p = l.findM? q := by
  induction l with
  | nil => rfl
  | cons a l ih =>
      rw [List.findM?, List.findM?, agree a List.mem_cons_self, ih fun b member =>
        agree b (List.mem_cons_of_mem a member)]

theorem findM?_eq_some {p : α → Except ε Bool} {l : List α} {a : α}
    (found : l.findM? p = .ok (some a)) : a ∈ l ∧ p a = .ok true := by
  induction l with
  | nil => cases found
  | cons c l ih =>
      rw [List.findM?, bind_eq_ok] at found
      obtain ⟨b, head, walked⟩ := found
      cases b with
      | true =>
          cases walked
          exact ⟨List.mem_cons_self, head⟩
      | false => exact (ih walked).imp_left (List.mem_cons_of_mem _)

theorem forM_eq_ok {f : α → Except ε PUnit} {l : List α} :
    l.forM f = .ok () ↔ ∀ a ∈ l, f a = .ok () := by
  induction l with
  | nil => exact iff_of_true rfl nofun
  | cons a l ih =>
      have step : (a :: l).forM f = f a >>= fun _ => l.forM f := rfl
      rw [step, List.forall_mem_cons, ← ih]
      cases f a with
      | error e => exact ⟨nofun, fun h => by cases h.1⟩
      | ok _ => exact ⟨fun h => ⟨rfl, h⟩, fun h => h.2⟩

theorem foldlM_returns {f : σ → α → Except ε σ} {good : α → Prop}
    (step : ∀ s a, (∃ s', f s a = .ok s') ↔ good a) {l : List α} (s : σ) :
    (∃ s', l.foldlM f s = .ok s') ↔ ∀ a ∈ l, good a := by
  induction l generalizing s with
  | nil => exact iff_of_true ⟨s, rfl⟩ nofun
  | cons a l ih =>
      rw [List.foldlM_cons, List.forall_mem_cons, bind_returns]
      constructor
      · rintro ⟨s', head, rest⟩
        exact ⟨(step s a).mp ⟨s', head⟩, (ih s').mp rest⟩
      · rintro ⟨head, tail⟩
        obtain ⟨s', walked⟩ := (step s a).mpr head
        exact ⟨s', walked, (ih s').mpr tail⟩

theorem foldlM_keeps (inv : σ → Prop) {f : σ → α → Except ε σ} {l : List α} {s s' : σ} (start : inv s)
    (step : ∀ s, ∀ a ∈ l, ∀ s', inv s → f s a = .ok s' → inv s') (made : l.foldlM f s = .ok s') :
    inv s' := by
  induction l generalizing s with
  | nil =>
      cases made
      exact start
  | cons a l ih =>
      rw [List.foldlM_cons] at made
      obtain ⟨next, first, rest⟩ := bind_eq_ok.mp made
      exact ih (step s a List.mem_cons_self next start first)
        (fun s b member => step s b (List.mem_cons_of_mem _ member)) rest

end Proxyshop.Structures
