import Mathlib.Computability.Language
import Mathlib.Order.CompletePartialOrder

/-!
# Patterns

Regular expressions with captures and with tests of the characters around a place, matched by
backtracking. The ways to match at a place are listed in the order in which they are tried, so the
first of them is the match.
-/

namespace Proxyshop.Structures

variable {α : Type}

inductive Regex (α : Type)
  | empty
  | one (accepts : α → Bool)
  | seq (r s : Regex α)
  | alt (r s : Regex α)
  | star (lazy : Bool) (r : Regex α)
  | group (n : Nat) (r : Regex α)
  | edge (holds : List α → List α → Bool)

/-- A place in a text: what lies before it, the nearest first, and what lies after it. -/
structure Cursor (α : Type) where
  before : List α
  after : List α
  groups : List (Nat × List α)

namespace Cursor

def start (s : List α) : Cursor α := ⟨[], s, []⟩

def taken (c d : Cursor α) : List α := c.after.take (c.after.length - d.after.length)

/-- The second place is reached from the first by consuming the text. -/
structure Eats (c : Cursor α) (text : List α) (d : Cursor α) : Prop where
  after : c.after = text ++ d.after
  before : d.before = text.reverse ++ c.before

theorem Eats.refl (c : Cursor α) : c.Eats [] c := ⟨rfl, rfl⟩

theorem Eats.trans {c d e : Cursor α} {s t : List α} (first : c.Eats s d) (second : d.Eats t e) :
    c.Eats (s ++ t) e := by
  constructor
  · rw [first.after, second.after, List.append_assoc]
  · rw [second.before, first.before, List.reverse_append, List.append_assoc]

theorem Eats.taken_eq {c d : Cursor α} {text : List α} (eats : c.Eats text d) : c.taken d = text := by
  rw [taken, eats.after, List.length_append, Nat.add_sub_cancel, List.take_left]

theorem Eats.text_eq {c d : Cursor α} {text : List α} (eats : c.Eats text d) :
    d.before.reverse ++ d.after = c.before.reverse ++ c.after := by
  rw [eats.before, eats.after, List.reverse_append, List.reverse_reverse, List.append_assoc]

end Cursor

namespace Regex

/-! ## Matching -/

/-- The turns of a star and then the rest: as many turns as the fuel allows, which for turns that
consume something is one for each character that is left. -/
def turns (lazy : Bool) (step : Cursor α → List (Cursor α)) : Nat → Cursor α → List (Cursor α) →
    List (Cursor α)
  | 0, c, rest => c :: rest
  | fuel+1, c, rest =>
      if lazy then c :: (step c).foldr (turns lazy step fuel) rest
      else (step c).foldr (turns lazy step fuel) (c :: rest)

def run : Regex α → Cursor α → List (Cursor α)
  | .empty, c => [c]
  | .one accepts, c =>
      match c.after with
      | [] => []
      | a :: rest => if accepts a then [{ c with before := a :: c.before, after := rest }] else []
  | .seq r s, c => (run r c).flatMap (run s)
  | .alt r s, c => run r c ++ run s c
  | .star lazy r, c => turns lazy (run r) c.after.length c []
  | .group n r, c => (run r c).map fun d => { d with groups := (n, c.taken d) :: d.groups }
  | .edge holds, c => if holds c.before c.after then [c] else []

instance : One (Regex α) := ⟨.empty⟩
instance : Mul (Regex α) := ⟨.seq⟩
instance : Add (Regex α) := ⟨.alt⟩

def word [DecidableEq α] (s : List α) : Regex α := s.foldr (fun a r => .one (· = a) * r) 1

/-- `(?:r|…)` -/
def anyOf : List (Regex α) → Regex α
  | [] => .one fun _ => false
  | [r] => r
  | r :: rs => r + anyOf rs

/-- `r?` -/
def optional (r : Regex α) : Regex α := r + 1

/-- `r*` -/
def many (r : Regex α) : Regex α := .star false r

/-- `r+` -/
def several (r : Regex α) : Regex α := r * many r

/-- `r{0,n}?` -/
def lazyUpTo (r : Regex α) : Nat → Regex α
  | 0 => 1
  | n+1 => 1 + r * lazyUpTo r n

/-! ## The texts a pattern consumes -/

def language : Regex α → Language α
  | .empty | .edge _ => 1
  | .one accepts => { text | ∃ a, accepts a = true ∧ text = [a] }
  | .seq r s => r.language * s.language
  | .alt r s => r.language + s.language
  | .star _ r => KStar.kstar r.language
  | .group _ r => r.language

section Language

variable [DecidableEq α]

theorem mem_word {s text : List α} : text ∈ (word s).language ↔ text = s := by
  induction s generalizing text with
  | nil => exact Language.mem_one text
  | cons a s ih =>
      have spelled : (word (a :: s)).language = (Regex.one fun b => decide (b = a)).language *
        (word s).language := rfl
      rw [spelled, Language.mem_mul]
      constructor
      · rintro ⟨_, ⟨b, same, rfl⟩, rest, inside, rfl⟩
        rw [ih.mp inside, decide_eq_true_eq.mp same]
        rfl
      · rintro rfl
        exact ⟨[a], ⟨a, decide_eq_true rfl, rfl⟩, s, ih.mpr rfl, rfl⟩

end Language

theorem mem_anyOf {rs : List (Regex α)} {text : List α} :
    text ∈ (anyOf rs).language ↔ ∃ r ∈ rs, text ∈ r.language := by
  induction rs with
  | nil =>
      constructor
      · rintro ⟨_, none, -⟩
        cases none
      · rintro ⟨_, none, -⟩
        cases none
  | cons r rs ih =>
      cases rs with
      | nil => simp [anyOf]
      | cons s rs =>
          have split : (anyOf (r :: s :: rs)).language = r.language + (anyOf (s :: rs)).language := rfl
          simp only [split, Language.mem_add, ih, List.mem_cons, exists_eq_or_imp]

theorem mem_several {accepts : α → Bool} {text : List α} :
    text ∈ (several (.one accepts)).language ↔ text ≠ [] ∧ ∀ a ∈ text, accepts a = true := by
  have starred : ∀ {t : List α}, t ∈ KStar.kstar (Regex.one accepts).language ↔ ∀ a ∈ t, accepts a = true := by
    intro t
    constructor
    · rintro ⟨parts, rfl, single⟩ a member
      obtain ⟨part, inside, here⟩ := List.mem_flatten.mp member
      obtain ⟨b, accepted, rfl⟩ := single part inside
      rw [List.mem_singleton.mp here]
      exact accepted
    · intro all
      refine ⟨t.map ([·]), ?_, ?_⟩
      · rw [← List.flatMap_def, List.flatMap_singleton']
      · intro part inside
        obtain ⟨a, member, rfl⟩ := List.mem_map.mp inside
        exact ⟨a, all a member, rfl⟩
  have split : (several (.one accepts)).language = (Regex.one accepts).language *
    KStar.kstar (Regex.one accepts).language := rfl
  rw [split, Language.mem_mul]
  constructor
  · rintro ⟨_, ⟨a, accepted, rfl⟩, rest, inside, rfl⟩
    refine ⟨List.cons_ne_nil a rest, ?_⟩
    rw [List.singleton_append, List.forall_mem_cons]
    exact ⟨accepted, starred.mp inside⟩
  · rintro ⟨nonempty, all⟩
    obtain ⟨a, rest, rfl⟩ := List.exists_cons_of_ne_nil nonempty
    rw [List.forall_mem_cons] at all
    exact ⟨[a], ⟨a, all.1, rfl⟩, rest, starred.mpr all.2, rfl⟩

theorem foldr_turns {turn : Cursor α → List (Cursor α) → List (Cursor α)}
    (plain : ∀ c rest, turn c rest = turn c [] ++ rest) (l rest : List (Cursor α)) :
    l.foldr turn rest = l.flatMap (turn · []) ++ rest := by
  induction l with
  | nil => rfl
  | cons c l ih => rw [List.foldr_cons, plain, ih, List.flatMap_cons, List.append_assoc]

theorem turns_eq (lazy : Bool) (step : Cursor α → List (Cursor α)) (fuel : Nat) (c : Cursor α)
    (rest : List (Cursor α)) : turns lazy step fuel c rest = turns lazy step fuel c [] ++ rest := by
  induction fuel generalizing c rest with
  | zero => rfl
  | succ fuel ih =>
      rw [turns, turns]
      split
      · rw [foldr_turns ih, foldr_turns ih, List.append_nil, List.cons_append]
      · rw [foldr_turns ih, foldr_turns ih, List.append_assoc, List.singleton_append]

theorem mem_turns_succ {lazy : Bool} {step : Cursor α → List (Cursor α)} {fuel : Nat} {c d : Cursor α} :
    d ∈ turns lazy step (fuel + 1) c [] ↔ d = c ∨ ∃ m ∈ step c, d ∈ turns lazy step fuel m [] := by
  rw [turns]
  split
  · rw [foldr_turns (turns_eq lazy step fuel), List.append_nil, List.mem_cons, List.mem_flatMap]
  · rw [foldr_turns (turns_eq lazy step fuel), List.mem_append, List.mem_flatMap, List.mem_singleton]
    exact or_comm

theorem turns_language {lazy : Bool} {step : Cursor α → List (Cursor α)} {l : Language α}
    (sound : ∀ c, ∀ d ∈ step c, ∃ text ∈ l, c.Eats text d) {fuel : Nat} {c d : Cursor α}
    (reached : d ∈ turns lazy step fuel c []) : ∃ text ∈ KStar.kstar l, c.Eats text d := by
  induction fuel generalizing c with
  | zero =>
      rw [turns, List.mem_singleton] at reached
      subst reached
      exact ⟨[], Language.nil_mem_kstar l, .refl d⟩
  | succ fuel ih =>
      rcases mem_turns_succ.mp reached with rfl | ⟨m, stepped, later⟩
      · exact ⟨[], Language.nil_mem_kstar l, .refl d⟩
      · obtain ⟨front, inside, eats⟩ := sound c m stepped
        obtain ⟨rest, more, eats'⟩ := ih later
        refine ⟨front ++ rest, ?_, eats.trans eats'⟩
        rw [← Language.one_add_self_mul_kstar_eq_kstar]
        exact Or.inr (Language.append_mem_mul inside more)

theorem run_language (r : Regex α) {c d : Cursor α} (matched : d ∈ r.run c) :
    ∃ text ∈ r.language, c.Eats text d := by
  induction r generalizing c d with
  | empty =>
      rw [run, List.mem_singleton] at matched
      subst matched
      exact ⟨[], rfl, .refl d⟩
  | one accepts =>
      unfold run at matched
      split at matched
      · cases matched
      · rename_i a rest after
        split at matched
        · rename_i accepted
          rw [List.mem_singleton] at matched
          subst matched
          exact ⟨[a], ⟨a, accepted, rfl⟩, after, rfl⟩
        · cases matched
  | seq r s ihr ihs =>
      obtain ⟨m, first, second⟩ := List.mem_flatMap.mp matched
      obtain ⟨front, inFront, eats⟩ := ihr first
      obtain ⟨rest, inRest, eats'⟩ := ihs second
      exact ⟨front ++ rest, Language.append_mem_mul inFront inRest, eats.trans eats'⟩
  | alt r s ihr ihs =>
      rcases List.mem_append.mp matched with left | right
      · obtain ⟨text, inside, eats⟩ := ihr left
        exact ⟨text, Or.inl inside, eats⟩
      · obtain ⟨text, inside, eats⟩ := ihs right
        exact ⟨text, Or.inr inside, eats⟩
  | star lazy r ih => exact turns_language (fun _ _ stepped => ih stepped) matched
  | group n r ih =>
      obtain ⟨m, inner, rfl⟩ := List.mem_map.mp matched
      obtain ⟨text, inside, eats⟩ := ih inner
      exact ⟨text, inside, eats.after, eats.before⟩
  | edge holds =>
      unfold run at matched
      split at matched
      · rw [List.mem_singleton] at matched
        subst matched
        exact ⟨[], rfl, .refl d⟩
      · cases matched

/-! ## Captures -/

def bodies (n : Nat) : Regex α → List (Regex α)
  | .empty | .edge _ | .one _ => []
  | .seq r s | .alt r s => bodies n r ++ bodies n s
  | .star _ r => bodies n r
  | .group m r => (if m = n then [r] else []) ++ bodies n r

section Bodies

variable (n : Nat)

@[simp] theorem bodies_one : bodies n (1 : Regex α) = [] := rfl

@[simp] theorem bodies_mul (r s : Regex α) : bodies n (r * s) = bodies n r ++ bodies n s := rfl

@[simp] theorem bodies_add (r s : Regex α) : bodies n (r + s) = bodies n r ++ bodies n s := rfl

@[simp] theorem bodies_accepts (accepts : α → Bool) : bodies n (.one accepts) = [] := rfl

@[simp] theorem bodies_edge (holds : List α → List α → Bool) : bodies n (.edge holds) = [] := rfl

@[simp] theorem bodies_group (m : Nat) (r : Regex α) :
    bodies n (.group m r) = (if m = n then [r] else []) ++ bodies n r := rfl

@[simp] theorem bodies_many (r : Regex α) : bodies n (many r) = bodies n r := rfl

@[simp] theorem bodies_several (r : Regex α) : bodies n (several r) = bodies n r ++ bodies n r := rfl

@[simp] theorem bodies_optional (r : Regex α) : bodies n (optional r) = bodies n r := List.append_nil _

@[simp] theorem bodies_word [DecidableEq α] (s : List α) : bodies n (word s) = [] := by
  induction s with
  | nil => rfl
  | cons a s ih => exact ih

@[simp] theorem bodies_anyOf (rs : List (Regex α)) : bodies n (anyOf rs) = rs.flatMap (bodies n) := by
  induction rs with
  | nil => rfl
  | cons r rs ih =>
      cases rs with
      | nil => simp [anyOf]
      | cons s rs => exact (bodies_add n r (anyOf (s :: rs))).trans (congrArg _ ih)

theorem bodies_lazyUpTo {r : Regex α} (free : bodies n r = []) (k : Nat) : bodies n (lazyUpTo r k) = [] := by
  induction k with
  | zero => rfl
  | succ k ih => rw [lazyUpTo, bodies_add, bodies_mul, free, ih]; rfl

end Bodies

def captured (n : Nat) (r : Regex α) : Language α := { text | ∃ body ∈ bodies n r, text ∈ body.language }

theorem captured_mono {n : Nat} {r s : Regex α} (listed : bodies n r ⊆ bodies n s) :
    captured n r ≤ captured n s := fun _ ⟨body, member, inside⟩ => ⟨body, listed member, inside⟩

def always (n : Nat) : Regex α → Bool
  | .empty | .edge _ | .one _ | .star _ _ => false
  | .seq r s => always n r || always n s
  | .alt r s => always n r && always n s
  | .group m r => m == n || always n r

@[simp] theorem always_mul (n : Nat) (r s : Regex α) : always n (r * s) = (always n r || always n s) := rfl

@[simp] theorem always_group (n : Nat) (r : Regex α) : always n (.group n r) = true := by
  rw [always, BEq.rfl, Bool.true_or]

/-- A group that is set at a place was set there by a text of the language, or stood so before. -/
def Sets (n : Nat) (l : Language α) (c d : Cursor α) : Prop :=
  ∀ text, d.groups.lookup n = some text → text ∈ l ∨ c.groups.lookup n = some text

theorem Sets.refl (n : Nat) (l : Language α) (c : Cursor α) : Sets n l c c := fun _ found => Or.inr found

theorem Sets.trans {n : Nat} {l : Language α} {c d e : Cursor α} (first : Sets n l c d)
    (second : Sets n l d e) : Sets n l c e := by
  intro text found
  rcases second text found with inside | earlier
  · exact Or.inl inside
  · exact first text earlier

theorem Sets.mono {n : Nat} {l m : Language α} {c d : Cursor α} (sets : Sets n l c d) (le : l ≤ m) :
    Sets n m c d := by
  intro text found
  exact (sets text found).imp (fun inside => le inside) id

theorem turns_rel {lazy : Bool} {step : Cursor α → List (Cursor α)} {R : Cursor α → Cursor α → Prop}
    (refl : ∀ c, R c c) (trans : ∀ {c d e}, R c d → R d e → R c e) (stepped : ∀ c, ∀ d ∈ step c, R c d)
    {fuel : Nat} {c d : Cursor α} (reached : d ∈ turns lazy step fuel c []) : R c d := by
  induction fuel generalizing c with
  | zero =>
      rw [turns, List.mem_singleton] at reached
      exact reached ▸ refl c
  | succ fuel ih =>
      rcases mem_turns_succ.mp reached with rfl | ⟨m, first, later⟩
      · exact refl d
      · exact trans (stepped c m first) (ih later)

theorem run_sets (n : Nat) (r : Regex α) {c d : Cursor α} (matched : d ∈ r.run c) :
    Sets n (captured n r) c d := by
  induction r generalizing c d with
  | empty =>
      rw [run, List.mem_singleton] at matched
      subst matched
      exact .refl n _ d
  | one accepts =>
      unfold run at matched
      split at matched
      · cases matched
      · split at matched
        · rw [List.mem_singleton] at matched
          subst matched
          exact fun _ found => Or.inr found
        · cases matched
  | seq r s ihr ihs =>
      obtain ⟨m, first, second⟩ := List.mem_flatMap.mp matched
      have left := (ihr first).mono (captured_mono (s := .seq r s) (List.subset_append_left _ _))
      have right := (ihs second).mono (captured_mono (s := .seq r s) (List.subset_append_right _ _))
      exact left.trans right
  | alt r s ihr ihs =>
      rcases List.mem_append.mp matched with left | right
      · exact (ihr left).mono (captured_mono (List.subset_append_left _ _))
      · exact (ihs right).mono (captured_mono (List.subset_append_right _ _))
  | star lazy r ih =>
      exact turns_rel (R := Sets n (captured n r)) (.refl n _) Sets.trans (fun _ _ stepped => ih stepped)
        matched
  | group m r ih =>
      obtain ⟨e, inner, rfl⟩ := List.mem_map.mp matched
      intro text found
      by_cases this : n = m
      · subst this
        obtain ⟨eaten, inside, eats⟩ := run_language r inner
        rw [List.lookup_cons_self, Option.some.injEq, eats.taken_eq] at found
        left
        refine ⟨r, ?_, found ▸ inside⟩
        rw [bodies, if_pos rfl]
        exact List.mem_append_left _ (List.mem_singleton_self r)
      · have other : (n == m) = false := beq_eq_false_iff_ne.mpr this
        rw [List.lookup_cons, other] at found
        exact ((ih inner).mono (captured_mono (List.subset_append_right _ _))) text found
  | edge holds =>
      unfold run at matched
      split at matched
      · rw [List.mem_singleton] at matched
        subst matched
        exact .refl n _ d
      · cases matched

def Keeps (n : Nat) (c d : Cursor α) : Prop :=
  (c.groups.lookup n).isSome = true → (d.groups.lookup n).isSome = true

theorem run_keeps (n : Nat) (r : Regex α) {c d : Cursor α} (matched : d ∈ r.run c) : Keeps n c d := by
  induction r generalizing c d with
  | empty =>
      rw [run, List.mem_singleton] at matched
      subst matched
      exact id
  | one accepts =>
      unfold run at matched
      split at matched
      · cases matched
      · split at matched
        · rw [List.mem_singleton] at matched
          subst matched
          exact id
        · cases matched
  | seq r s ihr ihs =>
      obtain ⟨m, first, second⟩ := List.mem_flatMap.mp matched
      exact fun set => ihs second (ihr first set)
  | alt r s ihr ihs => exact (List.mem_append.mp matched).elim ihr ihs
  | star lazy r ih =>
      exact turns_rel (R := Keeps n) (fun _ => id) (fun first second set => second (first set))
        (fun _ _ stepped => ih stepped) matched
  | group m r ih =>
      obtain ⟨e, inner, rfl⟩ := List.mem_map.mp matched
      intro set
      rw [List.lookup_cons]
      split
      · rfl
      · exact ih inner set
  | edge holds =>
      unfold run at matched
      split at matched
      · rw [List.mem_singleton] at matched
        subst matched
        exact id
      · cases matched

theorem run_always {n : Nat} {r : Regex α} {c d : Cursor α} (sure : always n r = true)
    (matched : d ∈ r.run c) : (d.groups.lookup n).isSome = true := by
  induction r generalizing c d with
  | empty | one | star | edge => cases sure
  | seq r s ihr ihs =>
      obtain ⟨m, first, second⟩ := List.mem_flatMap.mp matched
      rw [always, Bool.or_eq_true] at sure
      rcases sure with left | right
      · exact run_keeps n s second (ihr left first)
      · exact ihs right second
  | alt r s ihr ihs =>
      rw [always, Bool.and_eq_true] at sure
      rcases List.mem_append.mp matched with left | right
      · exact ihr sure.1 left
      · exact ihs sure.2 right
  | group m r ih =>
      obtain ⟨e, inner, rfl⟩ := List.mem_map.mp matched
      rw [always, Bool.or_eq_true, beq_iff_eq] at sure
      rw [List.lookup_cons]
      split
      · rfl
      · rename_i other
        rcases sure with rfl | deeper
        · simp at other
        · exact ih deeper inner

theorem mem_captured {n : Nat} {r : Regex α} {c d : Cursor α} (fresh : c.groups = [])
    (sure : always n r = true) (matched : d ∈ r.run c) :
    ∃ text ∈ captured n r, d.groups.lookup n = some text := by
  obtain ⟨text, found⟩ := Option.isSome_iff_exists.mp (run_always sure matched)
  refine ⟨text, ?_, found⟩
  rcases run_sets n r matched text found with inside | earlier
  · exact inside
  · rw [fresh] at earlier
    cases earlier

/-! ## Searching -/

/-- A match: the place where it begins and the place where it ends. -/
structure Match (α : Type) where
  entry : Cursor α
  exit : Cursor α

namespace Match

variable (m : Match α)

def start : Nat := m.entry.before.length

def stop : Nat := m.exit.before.length

/-- `m.group(0)` -/
def text : List α := m.entry.taken m.exit

/-- `m.group(n)` -/
def group (n : Nat) : Option (List α) := m.exit.groups.lookup n

/-- `m.string` -/
def subject : List α := m.entry.before.reverse ++ m.entry.after

end Match

/-- `r.match` at a place. -/
def first (r : Regex α) (c : Cursor α) : Option (Cursor α) := (r.run c).head?

def finditerFrom (r : Regex α) : Nat → Cursor α → List (Match α)
  | 0, _ => []
  | fuel+1, c =>
      match first r c, c.after with
      | some d, a :: rest =>
          if d.after.length < c.after.length then
            ⟨c, d⟩ :: finditerFrom r fuel ⟨d.before, d.after, []⟩
          else ⟨c, d⟩ :: finditerFrom r fuel ⟨a :: c.before, rest, []⟩
      | some d, [] => [⟨c, d⟩]
      | none, a :: rest => finditerFrom r fuel ⟨a :: c.before, rest, []⟩
      | none, [] => []

/-- `r.finditer(s)` -/
def finditer (r : Regex α) (s : List α) : List (Match α) := finditerFrom r (s.length + 1) (.start s)

/-- `r.search(s)` -/
def search (r : Regex α) (s : List α) : Bool := !(finditer r s).isEmpty

structure Matches (r : Regex α) (s : List α) (m : Match α) : Prop where
  matched : m.exit ∈ r.run m.entry
  fresh : m.entry.groups = []
  subject : m.subject = s

theorem finditerFrom_matches {r : Regex α} {s : List α} {fuel : Nat} {c : Cursor α} {m : Match α}
    (fresh : c.groups = []) (whole : c.before.reverse ++ c.after = s)
    (found : m ∈ finditerFrom r fuel c) : Matches r s m := by
  induction fuel generalizing c with
  | zero => cases found
  | succ fuel ih =>
      have next : ∀ {a rest}, c.after = a :: rest → (a :: c.before).reverse ++ rest = s := by
        intro a rest after
        rw [← whole, after, List.reverse_cons, List.append_assoc, List.singleton_append]
      have here : ∀ {d}, first r c = some d → Matches r s ⟨c, d⟩ :=
        fun found => ⟨List.mem_of_mem_head? found, fresh, whole⟩
      unfold finditerFrom at found
      split at found
      · rename_i d a rest matched after
        split at found
        · rcases List.mem_cons.mp found with rfl | later
          · exact here matched
          · obtain ⟨text, -, eats⟩ := run_language r (List.mem_of_mem_head? matched)
            have after : d.before.reverse ++ d.after = s := eats.text_eq.trans whole
            exact ih (c := ⟨d.before, d.after, []⟩) rfl after later
        · rcases List.mem_cons.mp found with rfl | later
          · exact here matched
          · exact ih rfl (next after) later
      · rename_i d matched after
        rw [List.mem_singleton] at found
        exact found ▸ here matched
      · rename_i a rest missed after
        exact ih rfl (next after) found
      · cases found

theorem finditer_matches {r : Regex α} {s : List α} {m : Match α} (found : m ∈ finditer r s) :
    Matches r s m := finditerFrom_matches rfl rfl found

theorem Matches.group {r : Regex α} {s : List α} {m : Match α} (matches' : Matches r s m) {n : Nat}
    (sure : always n r = true) : ∃ text ∈ captured n r, m.group n = some text :=
  mem_captured matches'.fresh sure matches'.matched

/-! ## Patterns that do not occur -/

def Silent (r : Regex α) (s : List α) : Prop :=
  ∀ c : Cursor α, c.groups = [] → c.before.reverse ++ c.after = s → r.run c = []

theorem Silent.finditer_eq_nil {r : Regex α} {s : List α} (silent : Silent r s) : r.finditer s = [] := by
  apply List.eq_nil_iff_forall_not_mem.mpr
  intro m found
  obtain ⟨matched, fresh, subject⟩ := finditer_matches found
  rw [silent m.entry fresh subject] at matched
  cases matched

theorem first_of_finditerFrom_eq_nil {r : Regex α} {fuel : Nat} {before front rest : List α}
    (missed : finditerFrom r fuel ⟨before, front ++ rest, []⟩ = [])
    (enough : (front ++ rest).length < fuel) : first r ⟨front.reverse ++ before, rest, []⟩ = none := by
  induction front generalizing before fuel with
  | nil =>
      obtain ⟨fuel, rfl⟩ := Nat.exists_eq_succ_of_ne_zero (Nat.ne_zero_of_lt enough)
      rw [finditerFrom, List.nil_append] at missed
      cases found : first r ⟨before, rest, []⟩ with
      | none => exact found
      | some d =>
          rw [found] at missed
          cases rest with
          | nil => cases missed
          | cons a rest =>
              dsimp only at missed
              split at missed <;> cases missed
  | cons a front ih =>
      obtain ⟨fuel, rfl⟩ := Nat.exists_eq_succ_of_ne_zero (Nat.ne_zero_of_lt enough)
      rw [finditerFrom, List.cons_append] at missed
      rw [List.reverse_cons, List.append_assoc, List.singleton_append]
      cases found : first r ⟨before, a :: (front ++ rest), []⟩ with
      | none =>
          rw [found] at missed
          exact ih missed (Nat.succ_lt_succ_iff.mp enough)
      | some d =>
          rw [found] at missed
          dsimp only at missed
          split at missed <;> cases missed

theorem silent_of_finditer_eq_nil {r : Regex α} {s : List α} (missed : r.finditer s = []) : Silent r s := by
  rintro ⟨before, after, groups⟩ fresh whole
  dsimp only at fresh whole
  subst fresh
  subst whole
  have missing := first_of_finditerFrom_eq_nil missed (Nat.lt_succ_self _)
  rw [List.reverse_reverse, List.append_nil] at missing
  exact List.head?_eq_none_iff.mp missing

theorem Silent.anyOf {rs : List (Regex α)} {s : List α} (silent : ∀ r ∈ rs, Silent r s) :
    Silent (anyOf rs) s := by
  intro c fresh whole
  induction rs with
  | nil =>
      rw [Regex.anyOf, run]
      cases c.after <;> rfl
  | cons r rs ih =>
      have here := silent r List.mem_cons_self c fresh whole
      have there := ih fun r' member => silent r' (List.mem_cons_of_mem r member)
      cases rs with
      | nil => exact here
      | cons r' rs =>
          change r.run c ++ (Regex.anyOf (r' :: rs)).run c = []
          rw [here, there, List.append_nil]

/-- Every text that the pattern consumes has a character outside an alphabet. -/
def needs (letters : List α) : Regex α → Bool
  | .empty | .edge _ | .star _ _ => false
  | .one accepts => !letters.any accepts
  | .seq r s => needs letters r || needs letters s
  | .alt r s => needs letters r && needs letters s
  | .group _ r => needs letters r

theorem foreign_of_needs {letters text : List α} {r : Regex α} (foreign : needs letters r = true)
    (inside : text ∈ r.language) : ∃ a ∈ text, a ∉ letters := by
  induction r generalizing text with
  | empty | edge | star => cases foreign
  | one accepts =>
      obtain ⟨a, accepted, rfl⟩ := inside
      refine ⟨a, List.mem_singleton_self a, ?_⟩
      intro listed
      have refused := List.any_eq_false.mp (Bool.eq_false_of_not_eq_true' foreign) a listed
      exact refused accepted
  | seq r s ihr ihs =>
      obtain ⟨front, inFront, rest, inRest, rfl⟩ := Language.mem_mul.mp inside
      rcases Bool.or_eq_true_iff.mp foreign with left | right
      · obtain ⟨a, member, outside⟩ := ihr left inFront
        exact ⟨a, List.mem_append_left rest member, outside⟩
      · obtain ⟨a, member, outside⟩ := ihs right inRest
        exact ⟨a, List.mem_append_right front member, outside⟩
  | alt r s ihr ihs =>
      obtain ⟨left, right⟩ := Bool.and_eq_true_iff.mp foreign
      rcases inside with inLeft | inRight
      · exact ihr left inLeft
      · exact ihs right inRight
  | group n r ih => exact ih foreign inside

theorem silent_of_needs {letters s : List α} {r : Regex α} (within : ∀ a ∈ s, a ∈ letters)
    (foreign : needs letters r = true) : Silent r s := by
  intro c fresh whole
  apply List.eq_nil_iff_forall_not_mem.mpr
  intro d matched
  obtain ⟨text, inside, eats⟩ := run_language r matched
  obtain ⟨a, member, outside⟩ := foreign_of_needs foreign inside
  apply outside
  apply within
  rw [← whole, eats.after]
  exact List.mem_append_right _ (List.mem_append_left _ member)

theorem finditer_anyOf_eq_nil {letters s : List α} {rs : List (Regex α)} (within : ∀ a ∈ s, a ∈ letters)
    (missed : rs.all (fun r => needs letters r || (r.finditer s).isEmpty) = true) :
    (Regex.anyOf rs).finditer s = [] := by
  apply Silent.finditer_eq_nil
  apply Silent.anyOf
  intro r member
  rcases Bool.or_eq_true_iff.mp (List.all_eq_true.mp missed r member) with foreign | none
  · exact silent_of_needs within foreign
  · exact silent_of_finditer_eq_nil (List.isEmpty_iff.mp none)

end Regex
end Proxyshop.Structures
