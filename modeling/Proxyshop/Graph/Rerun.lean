import Proxyshop.Graph.Sourced

/-!
# What a batch does that is run again

Outside a memo a call writes what its text says, whatever the graph is, and what is written settles:
written again it changes nothing.
-/

namespace Proxyshop.Graph

open Python Numbers Verification Structures

structure Edit where
  folded : List Str
  place : Place
  props : Dict Str (Option Scalar)

def Source.edit (source : Source) : Edit := ⟨[], .source source.sourceId, source.asProperties⟩

namespace Action

def edits : Action → List Edit
  | .refuse _ | .require _ => []
  | .state source => [source.edit]
  | .fact label id props source folded =>
      [source.edit, ⟨folded, .node label id, props⟩,
        ⟨[], .support label id source.sourceId, [(str "observed_at", text source.observedAt),
          (str "confidence", some (.number source.confidence))]⟩]
  | .term label id props => [⟨[], .node label id, props⟩]
  | .tie type start finish source props =>
      [source.edit, ⟨[], .edge type start finish, edgeProps source props⟩]

def debris : Action → List Edit
  | .tie _ _ _ source _ => [source.edit]
  | _ => []

def fallible : Action → Bool
  | .refuse _ | .require _ | .tie _ _ _ _ _ => true
  | _ => false

end Action

variable [Collation]

def Edit.apply (g : Catalogue) (edit : Edit) : Catalogue := merge edit.folded edit.place edit.props g

def editAll (edits : List Edit) (g : Catalogue) : Catalogue := edits.foldl Edit.apply g

theorem editAll_append (edits edits' : List Edit) (g : Catalogue) :
    editAll (edits ++ edits') g = editAll edits' (editAll edits g) := List.foldl_append

theorem state_outside (g : Catalogue) (source : Source) :
    (World.mk g none).state source = ⟨source.edit.apply g, none⟩ := rfl

theorem supported_by (g : Catalogue) (source : Source) : ∃ src,
    source.edit.apply g (.source source.sourceId) = some src ∧
      src (str "observed_at") = text source.observedAt ∧
      src (str "confidence") = some (.number source.confidence) := by
  refine ⟨_, Function.update_self .., ?_, ?_⟩
  · rfl
  · rfl

theorem Action.after_outside (action : Action) (g : Catalogue) :
    action.after ⟨g, none⟩ = ⟨editAll (match action.refusal ⟨g, none⟩ with
      | none => action.edits
      | some _ => action.debris) g, none⟩ := by
  cases action with
  | refuse _ => rfl
  | require endpoints =>
      simp only [refusal]
      split <;> rfl
  | state source => rfl
  | fact label id props source folded =>
      obtain ⟨src, held, observed, confidence⟩ := supported_by g source
      simp only [refusal, after, state_outside, held, World.support, observed, confidence]
      rfl
  | term label id props => rfl
  | tie type start finish source props =>
      simp only [refusal, after, state_outside]
      by_cases joined : World.joins ⟨source.edit.apply g, none⟩ type start finish = true
      · simp only [joined, if_true]
        rfl
      · simp only [joined]
        rfl

theorem Action.infallible {action : Action} (sure : action.fallible = false) (g : Catalogue) :
    action.refusal ⟨g, none⟩ = none := by
  cases action with
  | refuse _ | require _ | tie _ _ _ _ _ => cases sure
  | state _ | term _ _ _ => rfl
  | fact label id props source folded =>
      obtain ⟨src, held, -⟩ := supported_by g source
      simp [refusal, state_outside, held]

/-- What the actions write before their first check refuses. -/
def debrisOf : List Action → List Edit
  | [] => []
  | action :: actions => if action.fallible then action.debris else action.edits ++ debrisOf actions

def OneDoor : List Action → Prop
  | [] => True
  | action :: actions =>
      if action.fallible then
        ∀ g : Catalogue, action.refusal ⟨g, none⟩ = none →
          (takeActions actions (action.after ⟨g, none⟩)).1 = none
      else OneDoor actions

theorem takeActions_done {actions : List Action} {g : Catalogue}
    (done : (takeActions actions ⟨g, none⟩).1 = none) :
    (takeActions actions ⟨g, none⟩).2 = ⟨editAll (actions.flatMap Action.edits) g, none⟩ := by
  induction actions generalizing g with
  | nil => rfl
  | cons action actions ih =>
      simp only [takeActions] at done ⊢
      cases taken : action.refusal ⟨g, none⟩ with
      | some refusal => simp [taken] at done
      | none =>
          have after_eq := action.after_outside g
          simp only [taken] at done after_eq ⊢
          rw [after_eq] at done ⊢
          rw [ih done, List.flatMap_cons, editAll_append]

theorem takeActions_refused {actions : List Action} (door : OneDoor actions) {g : Catalogue}
    (refused : (takeActions actions ⟨g, none⟩).1 ≠ none) :
    (takeActions actions ⟨g, none⟩).2 = ⟨editAll (debrisOf actions) g, none⟩ := by
  induction actions generalizing g with
  | nil => exact absurd rfl refused
  | cons action actions ih =>
      have after_eq := action.after_outside g
      simp only [takeActions, debrisOf, OneDoor] at refused door ⊢
      cases taken : action.refusal ⟨g, none⟩ with
      | some refusal =>
          cases may : action.fallible with
          | false => simp [Action.infallible may] at taken
          | true => simpa [taken] using after_eq
      | none =>
          simp only [taken] at refused after_eq ⊢
          cases may : action.fallible with
          | true =>
              rw [may] at door
              exact absurd (door g taken) refused
          | false =>
              rw [may] at door
              rw [after_eq] at refused ⊢
              simpa [editAll_append] using ih door refused

def Joined (g : Catalogue) (ties : List Action) : Prop :=
  ∀ action ∈ ties, ∃ type start finish source props, action = .tie type start finish source props ∧
    g.has type.ends.1 start = true ∧ g.has type.ends.2 finish = true

theorem takeActions_joined {ties : List Action} {w : World} (joined : Joined w.graph ties) :
    (takeActions ties w).1 = none := by
  induction ties generalizing w with
  | nil => rfl
  | cons action ties ih =>
      have kept : Joined (action.after w).graph ties := by
        intro other member
        obtain ⟨type, start, finish, source, props, same, left, right⟩ :=
          joined other (List.mem_cons_of_mem _ member)
        exact ⟨type, start, finish, source, props, same, action.after_keeps left,
          action.after_keeps right⟩
      obtain ⟨type, start, finish, source, props, rfl, left, right⟩ := joined action List.mem_cons_self
      have taken : (Action.tie type start finish source props).refusal w = none := by
        simp [Action.refusal, World.joins, World.state_has, left, right]
      simp only [takeActions, taken]
      exact ih kept

theorem fact_written (g : Catalogue) (label : Label) (id : Str) (props : Dict Str (Option Scalar))
    (source : Source) (folded : List Str) :
    ((Action.fact label id props source folded).after ⟨g, none⟩).graph.has label id = true := by
  rw [Action.after_outside, Action.infallible rfl]
  exact has_merge (has_written label id)

theorem require_taken {g : Catalogue} {endpoints : List (Label × Str)}
    (taken : (Action.require endpoints).refusal ⟨g, none⟩ = none) :
    ∀ endpoint ∈ endpoints, g.has endpoint.1 endpoint.2 = true := by
  intro endpoint member
  by_contra absent
  rw [Bool.not_eq_true] at absent
  have listed : endpoint ∈ (World.mk g none).missing endpoints := by
    simp [World.missing, World.written, member, absent]
  simp only [Action.refusal] at taken
  split at taken
  · rename_i empty
    rw [List.isEmpty_iff.mp empty] at listed
    cases listed
  · cases taken

theorem oneDoor_require {endpoints : List (Label × Str)} {label : Label} {id : Str}
    {props : Dict Str (Option Scalar)} {source : Source} {folded : List Str} {ties : List Action}
    (joined : ∀ g : Catalogue, (∀ endpoint ∈ endpoints, g.has endpoint.1 endpoint.2 = true) →
      g.has label id = true → Joined g ties) :
    OneDoor (.require endpoints :: .fact label id props source folded :: ties) := by
  intro g taken
  have required := require_taken taken
  have sure : (Action.fact label id props source folded).refusal ⟨g, none⟩ = none :=
    Action.infallible rfl g
  simp only [takeActions, Action.after, sure]
  apply takeActions_joined
  apply joined
  · intro endpoint member
    exact Action.after_keeps (.fact label id props source folded) (required endpoint member)
  · exact fact_written ..

/-! ## Writes settle -/

def Foldable : Set (Option Scalar)
  | none => True
  | some (.text _) => True
  | _ => False

theorem leastOf_none (value : Option Scalar) : leastOf value none = value := by
  cases value <;> rfl

theorem leastOf_self (value : Option Scalar) : leastOf value value = value := by
  rcases value with _ | ⟨s⟩ | _ | _ | _
  · rfl
  · simp [leastOf, text]
  all_goals rfl

theorem leastOf_other {written : Option Scalar} (other : written ∉ Foldable) (value : Option Scalar) :
    leastOf value written = written := by
  rcases written with _ | ⟨s⟩ | x | n | b
  · exact absurd trivial other
  · exact absurd trivial other
  all_goals rcases value with _ | _ | _ | _ | _ <;> rfl

theorem leastOf_text_assoc (u s t : Str) :
    leastOf (leastOf (text u) (text s)) (text t) = leastOf (text u) (leastOf (text s) (text t)) := by
  have order := Collation.order
  simp only [leastOf, text]
  cases us : Collation.le s u with
  | true =>
      cases st : Collation.le t s with
      | true => simp [st, order.trans st us]
      | false => simp [st, us]
  | false =>
      cases st : Collation.le t s with
      | true => simp
      | false =>
          cases ut : Collation.le t u with
          | false => simp [us, ut]
          | true =>
              have st' := (order.total s t).resolve_right (by simp [st])
              simp [order.trans st' ut] at us

theorem leastOf_laws : FoldLaws leastOf Foldable where
  closed {a b} left right := by
    rcases a with _ | ⟨s⟩ | _ | _ | _
    · exact right
    · rcases b with _ | ⟨t⟩ | _ | _ | _
      · trivial
      · trivial
      all_goals cases right
    all_goals cases left
  assoc x {a b} left right := by
    rcases a with _ | ⟨s⟩ | _ | _ | _
    · rw [leastOf_none]
      rfl
    · rcases b with _ | ⟨t⟩ | _ | _ | _
      · rw [leastOf_none, leastOf_none]
      · rcases x with _ | ⟨u⟩ | _ | _ | _
        · rfl
        · exact leastOf_text_assoc u s t
        all_goals rfl
      all_goals cases right
    all_goals cases left
  idem _ := leastOf_self _

def Edit.cell (edit : Edit) (name : Str) (value : Option Scalar) : Option Scalar :=
  let written := (Dict.get? edit.props name).getD value
  if name ∈ edit.folded then leastOf value written else written

theorem Edit.settling (edit : Edit) (name : Str) : Settling leastOf Foldable (edit.cell name) := by
  have kept : Settling leastOf Foldable id := Or.inr ⟨none, trivial, funext fun value => (leastOf_none value).symm⟩
  unfold Edit.cell
  cases Dict.get? edit.props name with
  | none =>
      simp only [Option.getD_none, leastOf_self, ite_self]
      exact kept
  | some written =>
      simp only [Option.getD_some]
      split
      · by_cases foldable : written ∈ Foldable
        · exact Or.inr ⟨written, foldable, rfl⟩
        · exact Or.inl ⟨written, funext fun value => leastOf_other foldable value⟩
      · exact Or.inl ⟨written, rfl⟩

def Edit.on (edit : Edit) (place : Place) (held : Option Properties) : Option Properties :=
  if edit.place = place then some fun name => edit.cell name (held.getD (fun _ => none) name) else held

theorem Edit.apply_place (edit : Edit) (g : Catalogue) (place : Place) :
    edit.apply g place = edit.on place (g place) := by
  have assign_eq (prior : Properties) (name : Str) :
      assign edit.props prior name = (Dict.get? edit.props name).getD (prior name) := by
    unfold assign
    cases Dict.get? edit.props name <;> rfl
  unfold Edit.apply Edit.on merge
  split
  · rename_i same
    subst same
    simp [assign_eq, Edit.cell]
  · rename_i other
    exact Function.update_of_ne (Ne.symm other) ..

theorem editAll_place (edits : List Edit) (g : Catalogue) (place : Place) :
    editAll edits g place = edits.foldl (fun held edit => edit.on place held) (g place) := by
  induction edits generalizing g with
  | nil => rfl
  | cons edit edits ih =>
      rw [List.foldl_cons, ← edit.apply_place]
      exact ih _

/-- A place is left alone, or each of its properties settles. -/
def Steady (f : Option Properties → Option Properties) : Prop :=
  f = id ∨ ∃ cell : Str → Option Scalar → Option Scalar, (∀ name, Settling leastOf Foldable (cell name)) ∧
    f = fun held => some fun name => cell name (held.getD (fun _ => none) name)

theorem Steady.comp {f g : Option Properties → Option Properties} (later : Steady f) (earlier : Steady g) :
    Steady (f ∘ g) := by
  rcases later with rfl | ⟨cell, settling, rfl⟩
  · exact earlier
  · rcases earlier with rfl | ⟨cell', settling', rfl⟩
    · exact Or.inr ⟨cell, settling, rfl⟩
    · exact Or.inr ⟨fun name => cell name ∘ cell' name,
        fun name => (settling name).comp leastOf_laws (settling' name), rfl⟩

theorem Steady.twice {f : Option Properties → Option Properties} (steady : Steady f)
    (held : Option Properties) : f (f held) = f held := by
  rcases steady with rfl | ⟨cell, settling, rfl⟩
  · rfl
  · simp only [Option.getD_some, (settling _).twice leastOf_laws]

theorem steady_edits (edits : List Edit) (place : Place) :
    Steady fun held => edits.foldl (fun held edit => edit.on place held) held := by
  induction edits with
  | nil => exact Or.inl rfl
  | cons edit edits ih =>
      have first : Steady (edit.on place) := by
        unfold Edit.on
        split
        · exact Or.inr ⟨edit.cell, edit.settling, rfl⟩
        · exact Or.inl rfl
      exact ih.comp first

theorem editAll_twice (edits : List Edit) (g : Catalogue) :
    editAll edits (editAll edits g) = editAll edits g := by
  funext place
  rw [editAll_place, editAll_place]
  exact (steady_edits edits place).twice (g place)

/-! ## The calls -/

variable [Folding]

theorem oneDoor_actionsOf (op : Op) : OneDoor (actionsOf op) := by
  have refused (refusal : Refusal) : OneDoor [.refuse refusal] := fun _ _ => rfl
  have tied (type : EdgeType) (start finish : Str) (source : Source) (props : Dict Str (Option Scalar)) :
      OneDoor [.tie type start finish source props] := fun _ _ => rfl
  cases op with
  | upsertSource _ | upsertCategory _ | upsertIngredient _ | upsertIntentCluster _ => trivial
  | upsertStore _ source | upsertProduct _ source | upsertPolicyPage _ source =>
      cases source with
      | none => exact refused _
      | some source => trivial
  | linkSells _ _ source | linkCompatibleWith _ _ source | linkCategory _ _ source
  | upsertAttribute _ _ source | linkIngredient _ _ source | linkStates _ _ source =>
      cases source with
      | none => exact refused _
      | some source => exact tied _ _ _ _ _
  | linkSameAs _ _ _ source =>
      simp only [actionsOf]
      split
      · cases source with
        | none => exact refused _
        | some source => exact tied _ _ _ _ _
      · exact refused _
  | upsertVariant variant productId source =>
      cases source with
      | none => exact refused _
      | some source =>
          cases productId with
          | none => trivial
          | some productId =>
              apply oneDoor_require
              intro g required held
              simp only [List.forall_mem_singleton] at required
              simp [Joined, EdgeType.ends, required, held]
  | upsertOffer offer storeId variantId source =>
      cases source with
      | none => exact refused _
      | some source =>
          apply oneDoor_require
          intro g required held
          simp only [List.forall_mem_cons, List.not_mem_nil, false_implies, implies_true,
            and_true] at required
          simp [Joined, EdgeType.ends, required, held]
  | upsertMediaAsset productId asset source =>
      cases source with
      | none => exact refused _
      | some source =>
          apply oneDoor_require
          intro g required held
          simp only [List.forall_mem_singleton] at required
          simp [Joined, EdgeType.ends, required, held]

def wroteBy (op : Op) (done : Bool) : List Edit :=
  if done then (actionsOf op).flatMap Action.edits else debrisOf (actionsOf op)

theorem step_outside_eq (op : Op) (g : Catalogue) :
    (step op ⟨g, none⟩).2 = ⟨editAll (wroteBy op (step op ⟨g, none⟩).1.isOk) g, none⟩ := by
  rw [step_eq]
  cases refused : (takeActions (actionsOf op) ⟨g, none⟩).1 with
  | none => exact takeActions_done refused
  | some refusal => exact takeActions_refused (oneDoor_actionsOf op) (by simp [refused])

def wroteAll : List Op → List Bool → List Edit
  | op :: ops, done :: rest => wroteBy op done ++ wroteAll ops rest
  | _, _ => []

theorem final_outside_eq (batch : List Op) (g : Catalogue) :
    final step batch ⟨g, none⟩ =
      ⟨editAll (wroteAll batch ((answers step batch ⟨g, none⟩).map Except.isOk)) g, none⟩ := by
  induction batch generalizing g with
  | nil => rfl
  | cons op batch ih =>
      have here := step_outside_eq op g
      rw [final_cons, answers, List.map_cons, wroteAll, editAll_append]
      rw [here, ih]

def Covers (g g' : Catalogue) : Prop := ∀ place, (g place).isSome → (g' place).isSome

omit [Folding] in
theorem Covers.merge {g g' : Catalogue} (covers : Covers g g') (folded : List Str) (place : Place)
    (props : Dict Str (Option Scalar)) : Covers (merge folded place props g) (merge folded place props g') := by
  intro other held
  by_cases same : other = place
  · rw [same]
    exact isSome_merge
  · rw [merge_of_ne same] at held ⊢
    exact covers other held

omit [Folding] in
theorem Covers.editAll {g g' : Catalogue} (covers : Covers g g') (edits : List Edit) :
    Covers (editAll edits g) (editAll edits g') := by
  induction edits generalizing g g' with
  | nil => exact covers
  | cons edit edits ih => exact ih (covers.merge edit.folded edit.place edit.props)

omit [Folding] in
theorem covers_editAll (edits : List Edit) (g : Catalogue) : Covers g (editAll edits g) := by
  induction edits generalizing g with
  | nil => exact fun _ held => held
  | cons edit edits ih => exact fun place held => ih _ place (merge_keeps held)

omit [Folding] in
theorem Action.taken_again (action : Action) {g g' : Catalogue} (covers : Covers g g')
    (taken : action.refusal ⟨g, none⟩ = none) : action.refusal ⟨g', none⟩ = none := by
  have has (label : Label) (id : Str) : g.has label id = true → g'.has label id = true := covers _
  cases action with
  | refuse _ => cases taken
  | require endpoints =>
      have required := require_taken taken
      have empty : (World.mk g' none).missing endpoints = [] := by
        rw [World.missing, List.filter_filter, List.filter_eq_nil_iff]
        intro endpoint member
        simp [has _ _ (required endpoint member)]
      simp [refusal, empty]
  | state _ | term _ _ _ => rfl
  | fact _ _ _ _ _ => exact infallible rfl g'
  | tie type start finish source props =>
      simp only [refusal, World.joins, World.state_has] at taken ⊢
      split at taken
      · rename_i joined
        simp only [Bool.and_eq_true] at joined
        simp [has _ _ joined.1, has _ _ joined.2]
      · cases taken

omit [Folding] in
theorem takeActions_again {actions : List Action} {g g' : Catalogue} (covers : Covers g g')
    (done : (takeActions actions ⟨g, none⟩).1 = none) : (takeActions actions ⟨g', none⟩).1 = none := by
  induction actions generalizing g g' with
  | nil => rfl
  | cons action actions ih =>
      simp only [takeActions] at done ⊢
      cases taken : action.refusal ⟨g, none⟩ with
      | some refusal => simp [taken] at done
      | none =>
          have again := action.taken_again covers taken
          rw [taken, action.after_outside, taken] at done
          rw [again, action.after_outside, again]
          exact ih (covers.editAll _) done

theorem step_again {op : Op} {g g' : Catalogue} (covers : Covers g g')
    (done : (step op ⟨g, none⟩).1.isOk = true) : (step op ⟨g', none⟩).1.isOk = true := by
  rw [step_eq] at done ⊢
  cases refused : (takeActions (actionsOf op) ⟨g, none⟩).1 with
  | none =>
      rw [takeActions_again covers refused]
      rfl
  | some refusal =>
      rw [refused] at done
      cases done

def RefusedAgain (first again : List (Except Refusal (Option Str))) : Prop :=
  List.Forall₂ (fun answer answer' => answer'.isOk = true → answer.isOk = true) first again

theorem answers_again (batch : List Op) {g g' : Catalogue}
    (covers : Covers (final step batch ⟨g, none⟩).graph g')
    (refused : RefusedAgain (answers step batch ⟨g, none⟩) (answers step batch ⟨g', none⟩)) :
    (answers step batch ⟨g', none⟩).map Except.isOk = (answers step batch ⟨g, none⟩).map Except.isOk := by
  induction batch generalizing g g' with
  | nil => rfl
  | cons op batch ih =>
      obtain ⟨head, tail⟩ := List.forall₂_cons.mp refused
      have before : Covers g g' := by
        intro place held
        apply covers
        rw [final_outside_eq]
        exact covers_editAll _ g place held
      have same : (step op ⟨g', none⟩).1.isOk = (step op ⟨g, none⟩).1.isOk :=
        Bool.eq_iff_iff.mpr ⟨head, step_again before⟩
      have first := step_outside_eq op g
      have again := step_outside_eq op g'
      rw [final_cons, first] at covers
      rw [first, again] at tail
      simp only [answers, List.map_cons, same]
      rw [first, again]
      congr 1
      exact ih (fun place held => covers_editAll _ g' place (covers place held)) tail

theorem final_twice (batch : List Op) (g : Catalogue)
    (refused : RefusedAgain (answers step batch ⟨g, none⟩) (answers step batch (final step batch ⟨g, none⟩))) :
    final step batch (final step batch ⟨g, none⟩) = final step batch ⟨g, none⟩ := by
  have once := final_outside_eq batch g
  rw [once] at refused ⊢
  rw [final_outside_eq, answers_again batch (by rw [once]; exact fun _ held => held) refused, editAll_twice]

/-! ## What a refused call leaves -/

def Place.material : Place → Bool
  | .node label _ => label.material
  | .edge _ _ _ => true
  | .source _ | .support _ _ _ => false

/-- The calls that check the nodes they attach to before they write a fact, or write none. -/
def preflighted : Op → Bool
  | .upsertAttribute _ _ _ | .linkStates _ _ _ => false
  | _ => true

omit [Folding] in
theorem editAll_elsewhere {edits : List Edit} {place : Place}
    (elsewhere : ∀ edit ∈ edits, edit.place ≠ place) (g : Catalogue) : editAll edits g place = g place := by
  induction edits generalizing g with
  | nil => rfl
  | cons edit edits ih =>
      obtain ⟨first, rest⟩ := List.forall_mem_cons.mp elsewhere
      exact (ih rest _).trans (merge_of_ne first.symm)

omit [Folding] in
theorem fallible_of_refused {actions : List Action} {g : Catalogue}
    (refused : (takeActions actions ⟨g, none⟩).1 ≠ none) : ∃ action ∈ actions, action.fallible = true := by
  induction actions generalizing g with
  | nil => exact absurd rfl refused
  | cons action actions ih =>
      cases may : action.fallible with
      | true => exact ⟨action, List.mem_cons_self, may⟩
      | false =>
          have taken := Action.infallible may g
          rw [takeActions, taken] at refused
          simp only [Action.after_outside] at refused
          obtain ⟨other, member, may'⟩ := ih refused
          exact ⟨other, List.mem_cons_of_mem _ member, may'⟩

omit [Collation] in
theorem debris_immaterial {op : Op} (checked : preflighted op = true)
    (may : ∃ action ∈ actionsOf op, action.fallible = true) :
    ∀ edit ∈ debrisOf (actionsOf op), edit.place.material = false := by
  cases op with
  | upsertAttribute _ _ _ | linkStates _ _ _ => cases checked
  | upsertSource _ | upsertCategory _ | upsertIngredient _ | upsertIntentCluster _ =>
      simp [actionsOf, Action.fallible] at may
  | linkSameAs _ _ _ source =>
      simp only [actionsOf]
      split
      · cases source <;>
          simp [sourced, debrisOf, Action.fallible, Action.debris, Source.edit, Place.material]
      · simp [debrisOf, Action.fallible, Action.debris]
  | upsertVariant _ productId source =>
      cases source <;> cases productId <;>
        simp_all [actionsOf, sourced, debrisOf, Action.fallible, Action.debris]
  | upsertStore _ source | upsertProduct _ source | upsertOffer _ _ _ source | upsertPolicyPage _ source
  | linkSells _ _ source | linkCategory _ _ source | upsertMediaAsset _ _ source | linkIngredient _ _ source
  | linkCompatibleWith _ _ source =>
      cases source <;> simp_all [actionsOf, sourced, debrisOf, Action.fallible, Action.debris, Action.edits,
        Source.edit, Place.material, Label.material]

theorem refused_leaves {op : Op} (checked : preflighted op = true) {g : Catalogue} {refusal : Refusal}
    (refused : (step op ⟨g, none⟩).1 = .error refusal) {place : Place} (material : place.material = true) :
    (step op ⟨g, none⟩).2.graph place = g place := by
  have left := step_outside_eq op g
  rw [refused] at left
  have may : ∃ action ∈ actionsOf op, action.fallible = true := by
    apply fallible_of_refused (g := g)
    intro done
    rw [step_eq, done] at refused
    cases refused
  rw [left]
  apply editAll_elsewhere
  intro edit member same
  have immaterial := debris_immaterial checked may edit member
  rw [same, material] at immaterial
  cases immaterial

/-! ## The catalogue graph -/

/-- From the empty graph the audit finds nothing after any part of a batch, with the memo or without;
a refused call that checks first leaves every material fact as it was; and a part of the batch that is
run again changes nothing, where each refused call is refused again. -/
theorem catalogue_sourced (batch : List Op) :
    (∀ memo ∈ [none, some Memo.empty], ∀ part, part <+: batch →
      provenanceViolations (final step part ⟨.empty, memo⟩).graph = ∅) ∧
    (∀ part op refusal, part ++ [op] <+: batch → preflighted op = true →
      (step op (final step part ⟨.empty, none⟩)).1 = .error refusal → refusal.provenance = true →
      ∀ place : Place, place.material = true →
        (step op (final step part ⟨.empty, none⟩)).2.graph place
          = (final step part ⟨.empty, none⟩).graph place) ∧
    ∀ part, part <+: batch →
      RefusedAgain (answers step part ⟨.empty, none⟩) (answers step part (final step part ⟨.empty, none⟩)) →
      final step part (final step part ⟨.empty, none⟩) = final step part ⟨.empty, none⟩ := by
  refine ⟨fun memo opened part _ => ?_, fun part op refusal _ checked refused _ place material => ?_,
    fun part _ refused => final_twice part .empty refused⟩
  · have start : (World.mk .empty memo).Sound := by
      simp only [List.mem_cons, List.not_mem_nil, or_false] at opened
      rcases opened with rfl | rfl
      · exact World.sound_bare ⟨.empty, none⟩
      · exact ⟨fun _ written => by simp [World.written, Memo.empty] at written,
          fun _ stated => by simp [World.stated, Memo.empty] at stated⟩
    exact (final_keeps step_sourced part ⟨start, sourced_empty⟩).2.no_violations
  · rw [final_outside_eq] at refused ⊢
    exact refused_leaves checked refused material

def sunFactor : AttributeValue where
  key := "spf"
  valueString := none
  valueNumber := some 50.0
  valueBool := none
  unit := none
  attrId := "av_spf"

def earlyLink : List Op :=
  [.linkSells "store" "product" (some earlierReading),
    .upsertStore ⟨"store", "shop.example", "", none⟩ (some earlierReading),
    .upsertProduct ⟨"product", "Cream", "", "active"⟩ (some earlierReading)]

omit [Collation] [Folding] in
/-- A reading of a product that does not exist is refused and its node stays; and an early link is
made when the batch is run again. -/
theorem reading_stays_link_appears :
    letI := Folding.ascii
    letI := Collation.codePoints
    ((step (.upsertAttribute "product" sunFactor (some earlierReading)) ⟨.empty, none⟩).1
        = .error (.dangling .hasAttribute "product" "av_spf") ∧
      (step (.upsertAttribute "product" sunFactor (some earlierReading)) ⟨.empty, none⟩).2.graph.has
        .attributeValue "av_spf" = true ∧
      Catalogue.empty.has .attributeValue "av_spf" = false) ∧
    ((final step earlyLink ⟨.empty, none⟩).graph (.edge .sells "store" "product")).isSome = false ∧
      ((final step earlyLink (final step earlyLink ⟨.empty, none⟩)).graph
        (.edge .sells "store" "product")).isSome = true := by
  let _ := Folding.ascii
  let _ := Collation.codePoints
  refine ⟨⟨rfl, ?_, rfl⟩, ?_, ?_⟩
  all_goals decide

end Proxyshop.Graph
