import Mathlib.Logic.Function.Basic
import Mathlib.Logic.Relation

/-!
# Interleaved programs

A call performs one atomic operation after another on a state that it shares with other calls. A
proof about a call keeps a mark of where the call stands, and what it may use of the others is an
invariant of the shared state and everybody's marks.
-/

namespace Proxyshop.Structures

inductive Program (Op : Type) (Answer : Op → Type) (E A : Type)
  | returns (value : A)
  | raises (error : E)
  | perform (op : Op) (next : Answer op → Program Op Answer E A)

namespace Program

variable {Op : Type} {Answer : Op → Type} {E A B : Type}

def bind (f : A → Program Op Answer E B) : Program Op Answer E A → Program Op Answer E B
  | .returns value => f value
  | .raises error => .raises error
  | .perform op next => .perform op fun answer => (next answer).bind f

def handle (f : E → Program Op Answer E A) : Program Op Answer E A → Program Op Answer E A
  | .returns value => .returns value
  | .raises error => f error
  | .perform op next => .perform op fun answer => (next answer).handle f

instance : Monad (Program Op Answer E) where
  pure := .returns
  bind p f := p.bind f

instance : MonadExceptOf E (Program Op Answer E) where
  throw := .raises
  tryCatch p f := p.handle f

def operation (op : Op) : Program Op Answer E (Answer op) := .perform op .returns

/-- Every operation carried out by a program over other operations. -/
def expand {Op' : Type} {Answer' : Op' → Type} {E' : Type}
    (carryOut : (op : Op) → Program Op' Answer' E' (Answer op)) :
    Program Op Answer Empty A → Program Op' Answer' E' A
  | .returns value => .returns value
  | .raises error => error.elim
  | .perform op next => (carryOut op).bind fun answer => (next answer).expand carryOut

def finished : Program Op Answer E A → Option (Except E A)
  | .returns value => some (.ok value)
  | .raises error => some (.error error)
  | .perform _ _ => none

end Program

/-- Calls `ι` under way on a shared state. -/
structure World (S ι Op : Type) (Answer : Op → Type) (E A : Type) where
  shared : S
  calls : ι → Program Op Answer E A

section Runs

variable {S ι Op E A M : Type} {Answer : Op → Type} [DecidableEq ι]
variable (effect : ι → S → (op : Op) → Answer op → S → Prop)

/-- The call `i` performs its next operation. -/
inductive Step (i : ι) : World S ι Op Answer E A → World S ι Op Answer E A → Prop
  | perform {w : World S ι Op Answer E A} {op : Op} {next : Answer op → Program Op Answer E A}
      {answer : Answer op} {s : S} (due : w.calls i = .perform op next)
      (done : effect i w.shared op answer s) :
      Step i w ⟨s, Function.update w.calls i (next answer)⟩

def Run : World S ι Op Answer E A → World S ι Op Answer E A → Prop :=
  Relation.ReflTransGen fun w w' => ∃ i, Step effect i w w'

/-- Nothing happens but operations of the call `i`. -/
def Solo (i : ι) : World S ι Op Answer E A → World S ι Op Answer E A → Prop :=
  Relation.ReflTransGen (Step effect i)

theorem Solo.run {i : ι} {w w' : World S ι Op Answer E A} (alone : Solo effect i w w') :
    Run effect w w' := by
  induction alone with
  | refl => exact .refl
  | tail _ step ih => exact ih.tail ⟨i, step⟩

/-- The call `i` alone, of which its own program is all that matters. -/
inductive Advance (i : ι) : S × Program Op Answer E A → S × Program Op Answer E A → Prop
  | perform {s s' : S} {op : Op} {next : Answer op → Program Op Answer E A} {answer : Answer op}
      (done : effect i s op answer s') : Advance i (s, .perform op next) (s', next answer)

theorem Solo.of_advances {i : ι} {w : World S ι Op Answer E A}
    {e : S × Program Op Answer E A}
    (advances : Relation.ReflTransGen (Advance effect i) (w.shared, w.calls i) e) :
    Solo effect i w ⟨e.1, Function.update w.calls i e.2⟩ := by
  induction advances with
  | refl =>
      rw [Function.update_eq_self]
      exact .refl
  | tail _ advance ih =>
      cases advance with
      | @perform s s' op next answer done =>
          let w' : World S ι Op Answer E A := ⟨s, Function.update w.calls i (.perform op next)⟩
          have due : w'.calls i = .perform op next := Function.update_self ..
          have step : Step effect i w' _ := .perform due done
          rw [Function.update_idem] at step
          exact ih.tail step

variable {effect} in
theorem Run.keeps {P : S → Prop} {w w' : World S ι Op Answer E A} (run : Run effect w w')
    (kept : ∀ i s op answer s', P s → effect i s op answer s' → P s') (start : P w.shared) :
    P w'.shared := by
  induction run with
  | refl => exact start
  | tail _ step ih =>
      obtain ⟨i, due, done⟩ := step
      exact kept i _ _ _ _ ih done

variable {effect} in
theorem Run.imp {effect' : ι → S → (op : Op) → Answer op → S → Prop} {w w' : World S ι Op Answer E A}
    (run : Run effect w w')
    (weaker : ∀ i s op answer s', effect i s op answer s' → effect' i s op answer s') :
    Run effect' w w' := by
  induction run with
  | refl => exact .refl
  | tail _ step ih =>
      obtain ⟨i, due, done⟩ := step
      exact ih.tail ⟨i, .perform due (weaker _ _ _ _ _ done)⟩

variable (inv : S → (ι → M) → Prop) (i : ι)

/-- Every operation of the call, from a mark that the invariant allows, leads to a mark that it
allows, and `post` holds of the outcome. -/
def Upholds : Program Op Answer E A → M → (Except E A → M → Prop) → Prop
  | .returns value, m, post => post (.ok value) m
  | .raises error, m, post => post (.error error) m
  | .perform op next, m, post => ∀ s marks, inv s marks → marks i = m → ∀ answer s',
      effect i s op answer s' → ∃ m', inv s' (Function.update marks i m') ∧
        Upholds (next answer) m' post

variable {effect inv i}

theorem Upholds.imp {p : Program Op Answer E A} {m : M} {post post' : Except E A → M → Prop}
    (weaker : ∀ outcome m, post outcome m → post' outcome m)
    (holds : Upholds effect inv i p m post) : Upholds effect inv i p m post' := by
  induction p generalizing m with
  | returns value => exact weaker _ _ holds
  | raises error => exact weaker _ _ holds
  | perform op next ih =>
      intro s marks invariant own answer s' done
      obtain ⟨m', kept, rest⟩ := holds s marks invariant own answer s' done
      exact ⟨m', kept, ih answer rest⟩

theorem Upholds.bind {B : Type} {p : Program Op Answer E A} {f : A → Program Op Answer E B}
    {m : M} {post : Except E B → M → Prop}
    (holds : Upholds effect inv i p m fun outcome m' => match outcome with
      | .ok value => Upholds effect inv i (f value) m' post
      | .error error => post (.error error) m') :
    Upholds effect inv i (p >>= f) m post := by
  induction p generalizing m with
  | returns value => exact holds
  | raises error => exact holds
  | perform op next ih =>
      intro s marks invariant own answer s' done
      obtain ⟨m', kept, rest⟩ := holds s marks invariant own answer s' done
      exact ⟨m', kept, ih answer rest⟩

theorem Upholds.handle {p : Program Op Answer E A} {f : E → Program Op Answer E A}
    {m : M} {post : Except E A → M → Prop}
    (holds : Upholds effect inv i p m fun outcome m' => match outcome with
      | .ok value => post (.ok value) m'
      | .error error => Upholds effect inv i (f error) m' post) :
    Upholds effect inv i (p.handle f) m post := by
  induction p generalizing m with
  | returns value => exact holds
  | raises error => exact holds
  | perform op next ih =>
      intro s marks invariant own answer s' done
      obtain ⟨m', kept, rest⟩ := holds s marks invariant own answer s' done
      exact ⟨m', kept, ih answer rest⟩

variable (effect inv) in
def Stands (post : ι → Except E A → M → Prop) (w : World S ι Op Answer E A) (marks : ι → M) :
    Prop :=
  inv w.shared marks ∧ ∀ i, Upholds effect inv i (w.calls i) (marks i) (post i)

theorem Stands.step {post : ι → Except E A → M → Prop} {w w' : World S ι Op Answer E A}
    {marks : ι → M} (stands : Stands effect inv post w marks) (step : Step effect i w w') :
    ∃ m, Stands effect inv post w' (Function.update marks i m) := by
  obtain ⟨due, done⟩ := step
  obtain ⟨invariant, holds⟩ := stands
  have mine := holds i
  rw [due] at mine
  obtain ⟨m, kept, rest⟩ := mine _ marks invariant rfl _ _ done
  refine ⟨m, kept, fun j => ?_⟩
  show Upholds effect inv j (Function.update w.calls i _ j) _ _
  by_cases same : j = i
  · subst same
    rw [Function.update_self, Function.update_self]
    exact rest
  · rw [Function.update_of_ne same, Function.update_of_ne same]
    exact holds j

theorem Stands.run {post : ι → Except E A → M → Prop} {w w' : World S ι Op Answer E A}
    {marks : ι → M} (stands : Stands effect inv post w marks) (run : Run effect w w') :
    ∃ marks', Stands effect inv post w' marks' := by
  induction run with
  | refl => exact ⟨marks, stands⟩
  | tail _ step ih =>
      obtain ⟨marks', stands⟩ := ih
      obtain ⟨i, step⟩ := step
      obtain ⟨m, stands⟩ := stands.step step
      exact ⟨_, stands⟩

theorem Stands.finished {post : ι → Except E A → M → Prop} {w : World S ι Op Answer E A}
    {marks : ι → M} (stands : Stands effect inv post w marks) {outcome : Except E A}
    (finished : (w.calls i).finished = some outcome) : post i outcome (marks i) := by
  have mine := stands.2 i
  cases state : w.calls i with
  | returns value =>
      rw [state] at mine finished
      cases finished
      exact mine
  | raises error =>
      rw [state] at mine finished
      cases finished
      exact mine
  | perform op next =>
      rw [state] at finished
      cases finished

end Runs
end Proxyshop.Structures

/-!
## Programs against an oracle

A program is run against whoever answers its operations, who may keep a state and answer the same
operation differently each time. What a run ends in is proved along the program.
-/

namespace Proxyshop.Structures

variable {S Op E E' A B : Type} {Answer : Op → Type}

namespace Program

/-- An error ends in another program, which raises errors of its own. -/
def settle (f : E → Program Op Answer E' A) : Program Op Answer E A → Program Op Answer E' A
  | .returns value => .returns value
  | .raises error => f error
  | .perform op next => .perform op fun answer => (next answer).settle f

variable (answer : (op : Op) → S → Answer op × S)

def exec : Program Op Answer E A → S → Except E A × S
  | .returns value, s => (.ok value, s)
  | .raises error, s => (.error error, s)
  | .perform op next, s => exec (next (answer op s).1) (answer op s).2

/-- The run of the program from a state ends as `post` says. -/
def Ends (p : Program Op Answer E A) (s : S) (post : Except E A → S → Prop) : Prop :=
  post (p.exec answer s).1 (p.exec answer s).2

variable {answer} {s : S} {p : Program Op Answer E A}

theorem Ends.imp {post post' : Except E A → S → Prop} (ends : p.Ends answer s post)
    (weaker : ∀ outcome s', post outcome s' → post' outcome s') : p.Ends answer s post' :=
  weaker _ _ ends

theorem Ends.bind {f : A → Program Op Answer E B} {post : Except E B → S → Prop}
    (ends : p.Ends answer s fun outcome s' => match outcome with
      | .ok value => (f value).Ends answer s' post
      | .error error => post (.error error) s') :
    (p >>= f).Ends answer s post := by
  induction p generalizing s with
  | returns value => exact ends
  | raises error => exact ends
  | perform op next ih => exact @ih (answer op s).1 (answer op s).2 ends

theorem Ends.settle {f : E → Program Op Answer E' A} {post : Except E' A → S → Prop}
    (ends : p.Ends answer s fun outcome s' => match outcome with
      | .ok value => post (.ok value) s'
      | .error error => (f error).Ends answer s' post) :
    (p.settle f).Ends answer s post := by
  induction p generalizing s with
  | returns value => exact ends
  | raises error => exact ends
  | perform op next ih => exact @ih (answer op s).1 (answer op s).2 ends

/-- Every operation that the program may perform is allowed. -/
def Only (allowed : Op → Prop) : Program Op Answer E A → Prop
  | .returns _ => True
  | .raises _ => True
  | .perform op next => allowed op ∧ ∀ answer, Only allowed (next answer)

variable {allowed : Op → Prop}

theorem Only.bind {f : A → Program Op Answer E B} (only : p.Only allowed) (rest : ∀ a, (f a).Only allowed) :
    (p >>= f).Only allowed := by
  induction p with
  | returns value => exact rest value
  | raises error => trivial
  | perform op next ih => exact ⟨only.1, fun answer => ih answer (only.2 answer)⟩

theorem Only.handle {f : E → Program Op Answer E A} (only : p.Only allowed)
    (rest : ∀ e, (f e).Only allowed) : (p.handle f).Only allowed := by
  induction p with
  | returns value => trivial
  | raises error => exact rest error
  | perform op next ih => exact ⟨only.1, fun answer => ih answer (only.2 answer)⟩

theorem Only.keeps {R : S → S → Prop} (refl : ∀ s, R s s) (trans : ∀ {a b c}, R a b → R b c → R a c)
    (step : ∀ op, allowed op → ∀ s, R s (answer op s).2) (only : p.Only allowed) (s : S) :
    p.Ends answer s fun _ s' => R s s' := by
  induction p generalizing s with
  | returns value => exact refl s
  | raises error => exact refl s
  | perform op next ih => exact trans (step op only.1 s) (ih _ (only.2 _) _)

end Program
end Proxyshop.Structures
