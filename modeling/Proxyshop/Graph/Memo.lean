import Proxyshop.Graph.Actions
import Proxyshop.Structures.Shadow

/-!
# What the write memo hides

A batch run with the memo does what it does without, as long as no source is stated again that the
batch stated before and has overwritten since.
-/

namespace Proxyshop.Graph

open Python Numbers Verification Structures

namespace World

def bare (w : World) : World := { w with memo := none }

structure Sound (w : World) : Prop where
  nodes : ∀ endpoint, w.written endpoint = true → w.graph.has endpoint.1 endpoint.2 = true
  sources : ∀ source, w.stated source = true → (w.graph (.source source.sourceId)).isSome = true

variable {w : World} {source : Source}

@[simp] theorem stated_bare : w.bare.stated source = false := rfl

@[simp] theorem written_bare (endpoint : Label × Str) : w.bare.written endpoint = false := rfl

@[simp] theorem bare_graph : w.bare.graph = w.graph := rfl

@[simp] theorem joins_bare (type : EdgeType) (start finish : Str) :
    w.bare.joins type start finish = w.joins type start finish := rfl

theorem missing_bare (sound : w.Sound) (endpoints : List (Label × Str)) :
    w.bare.missing endpoints = w.missing endpoints := by
  simp only [World.missing, List.filter_filter]
  apply List.filter_congr
  intro endpoint _
  cases written : w.written endpoint with
  | false => simp
  | true => simp [sound.nodes endpoint written]

theorem written_note {g : Catalogue} {endpoint endpoint' : Label × Str}
    (written : (World.mk g (w.memo.map (noteNode endpoint))).written endpoint' = true) :
    endpoint' = endpoint ∨ w.written endpoint' = true := by
  unfold World.written at written ⊢
  cases held : w.memo <;> simp_all [noteNode]

theorem stated_note {g : Catalogue} {source' : Source}
    (stated : (World.mk g (w.memo.map (noteSource source))).stated source' = true) :
    source'.sourceId = source.sourceId ∨ w.stated source' = true := by
  unfold World.stated at stated ⊢
  cases held : w.memo <;> simp_all [noteSource]
  tauto

theorem stated_noteSource {g : Catalogue} {source' : Source} (stated : w.stated source' = true) :
    (World.mk g (w.memo.map (noteSource source))).stated source' = true := by
  unfold World.stated at stated ⊢
  cases held : w.memo <;> simp_all [noteSource]

@[simp] theorem stated_noteNode (g : Catalogue) (endpoint : Label × Str) (source' : Source) :
    (World.mk g (w.memo.map (noteNode endpoint))).stated source' = w.stated source' := by
  unfold World.stated
  cases held : w.memo <;> simp [noteNode]

@[simp] theorem written_noteSource (g : Catalogue) (endpoint : Label × Str) :
    (World.mk g (w.memo.map (noteSource source))).written endpoint = w.written endpoint := by
  unfold World.written
  cases held : w.memo <;> simp [noteSource]

theorem Sound.grows (sound : w.Sound) {g : Catalogue}
    (keeps : ∀ place, (w.graph place).isSome → (g place).isSome) : { w with graph := g }.Sound :=
  ⟨fun endpoint written => keeps _ (sound.nodes endpoint written),
    fun source stated => keeps _ (sound.sources source stated)⟩

theorem Sound.note (sound : w.Sound) {g : Catalogue} (label : Label) (id : Str)
    (keeps : ∀ place, (w.graph place).isSome → (g place).isSome) (held : (g (.node label id)).isSome) :
    (World.mk g (w.memo.map (noteNode (label, id)))).Sound := by
  refine ⟨fun endpoint written => ?_, fun source' stated => ?_⟩
  · rcases written_note written with rfl | before
    · exact held
    · exact keeps _ (sound.nodes endpoint before)
  · exact keeps _ (sound.sources source' (by simpa using stated))

end World

variable [Collation]

section Merges

variable {folded : List Str} {place place' : Place} {props : Dict Str (Option Scalar)} {g : Catalogue}

theorem merge_of_ne (other : place' ≠ place) : merge folded place props g place' = g place' :=
  Function.update_of_ne other ..

theorem isSome_merge : (merge folded place props g place).isSome := by
  simp [merge]

theorem merge_keeps (held : (g place').isSome) : (merge folded place props g place').isSome := by
  by_cases same : place' = place
  · rw [same]
    exact isSome_merge
  · rwa [merge_of_ne same]

theorem has_merge {label : Label} {id : Str} (held : g.has label id = true) :
    Catalogue.has (merge folded place props g) label id = true :=
  merge_keeps held

theorem has_written (label : Label) (id : Str) :
    Catalogue.has (merge folded (.node label id) props g) label id = true :=
  isSome_merge

omit [Collation] in
theorem assign_assign (prior : Properties) : assign props (assign props prior) = assign props prior := by
  funext name
  simp only [assign]
  cases Dict.get? props name <;> rfl

end Merges

def Stands (source : Source) (g : Catalogue) : Prop :=
  merge [] (.source source.sourceId) source.asProperties g = g

theorem stands_iff {source : Source} {g : Catalogue} : Stands source g ↔
    some (assign source.asProperties ((g (.source source.sourceId)).getD fun _ => none))
      = g (.source source.sourceId) := by
  simp [Stands, merge, Function.update_eq_self_iff]

theorem stands_merge (source : Source) (g : Catalogue) :
    Stands source (merge [] (.source source.sourceId) source.asProperties g) := by
  simp [stands_iff, merge, assign_assign]

theorem Stands.of_eq {source : Source} {g g' : Catalogue}
    (same : g' (.source source.sourceId) = g (.source source.sourceId)) (stands : Stands source g) :
    Stands source g' := by
  rw [stands_iff] at stands ⊢
  rwa [same]

namespace World

def Current (w : World) (source : Source) : Prop := w.stated source = true → Stands source w.graph

variable {w : World} {source : Source}

theorem stands_state (current : w.Current source) : Stands source (w.state source).graph := by
  unfold World.state
  split
  · exact current ‹_›
  · exact stands_merge ..

theorem bare_state (current : w.Current source) : w.bare.state source = (w.state source).bare := by
  change World.mk (merge [] (.source source.sourceId) source.asProperties w.graph) none = _
  unfold World.state
  split
  · rw [current ‹_›]
    rfl
  · rfl

theorem state_keeps {place : Place} (held : (w.graph place).isSome) :
    ((w.state source).graph place).isSome := by
  unfold World.state
  split
  · exact held
  · exact merge_keeps held

theorem state_of_ne {place : Place} (other : place ≠ .source source.sourceId) :
    (w.state source).graph place = w.graph place := by
  unfold World.state
  split
  · rfl
  · exact merge_of_ne other

theorem state_has (label : Label) (id : Str) :
    (w.state source).graph.has label id = w.graph.has label id := by
  rw [Catalogue.has, state_of_ne (by simp)]
  rfl

theorem Sound.state (sound : w.Sound) (source : Source) : (w.state source).Sound := by
  unfold World.state
  split
  · exact sound
  · refine ⟨fun endpoint written => ?_, fun source' stated => ?_⟩
    · rw [written_noteSource] at written
      exact has_merge (sound.nodes endpoint written)
    · rcases stated_note stated with same | before
      · rw [same]
        exact isSome_merge
      · exact merge_keeps (sound.sources source' before)

end World

namespace Action

variable {w : World} {source : Source}

theorem after_keeps (action : Action) {place : Place} (held : (w.graph place).isSome) :
    ((action.after w).graph place).isSome := by
  cases action with
  | refuse _ | require _ => exact held
  | state source => exact World.state_keeps held
  | fact label id props source folded =>
      simp only [after]
      cases (w.state source).graph (.source source.sourceId) with
      | none => exact World.state_keeps held
      | some src => exact merge_keeps (merge_keeps (World.state_keeps held))
  | term label id props => exact merge_keeps held
  | tie type start finish source props =>
      simp only [after]
      split
      · exact merge_keeps (World.state_keeps held)
      · exact World.state_keeps held

theorem sound_after (action : Action) (sound : w.Sound) : (action.after w).Sound := by
  cases action with
  | refuse _ | require _ => exact sound
  | state source => exact sound.state source
  | fact label id props source folded =>
      simp only [after]
      cases (w.state source).graph (.source source.sourceId) with
      | none => exact sound.state source
      | some src =>
          exact (sound.state source).note label id (fun _ held => merge_keeps (merge_keeps held))
            (merge_keeps isSome_merge)
  | term label id props => exact sound.note label id (fun _ held => merge_keeps held) isSome_merge
  | tie type start finish source props =>
      simp only [after]
      split
      · exact (sound.state source).grows fun _ held => merge_keeps held
      · exact sound.state source

theorem mirrors (action : Action) (sound : w.Sound)
    (current : ∀ source, action.source = some source → w.Current source) :
    action.refusal w.bare = action.refusal w ∧ action.after w.bare = (action.after w).bare := by
  cases action with
  | refuse _ => exact ⟨rfl, rfl⟩
  | require endpoints => exact ⟨by simp only [refusal, World.missing_bare sound], rfl⟩
  | state source => exact ⟨rfl, World.bare_state (current source rfl)⟩
  | fact label id props source folded =>
      simp only [refusal, after, World.bare_state (current source rfl), World.bare_graph, true_and]
      cases (w.state source).graph (.source source.sourceId) <;> rfl
  | term label id props => exact ⟨rfl, rfl⟩
  | tie type start finish source props =>
      simp only [refusal, after, World.bare_state (current source rfl), World.joins_bare, World.bare_graph, true_and]
      split <;> rfl

theorem after_source (action : Action) (source : Source)
    (own : ∀ source', action.source = some source' → source' = source) :
    (action.after w).graph (.source source.sourceId) =
      if action.source.isSome then (w.state source).graph (.source source.sourceId)
      else w.graph (.source source.sourceId) := by
  cases action with
  | refuse _ | require _ => rfl
  | state source' =>
      obtain rfl := own source' rfl
      rfl
  | fact label id props source' folded =>
      obtain rfl := own source' rfl
      simp only [after]
      cases held : (w.state source').graph (.source source'.sourceId) with
      | none => simpa [Action.source] using held
      | some src => simp [World.support, merge_of_ne, Action.source, held]
  | term label id props => simp [after, merge_of_ne, Action.source]
  | tie type start finish source' props =>
      obtain rfl := own source' rfl
      simp only [after]
      split <;> simp [merge_of_ne, Action.source]

theorem stated_after (action : Action) (stated : w.stated source = true) :
    (action.after w).stated source = true := by
  have kept (source' : Source) : (w.state source').stated source = true := by
    unfold World.state
    split
    · exact stated
    · exact World.stated_noteSource stated
  cases action with
  | refuse _ | require _ => exact stated
  | state source' => exact kept source'
  | fact label id props source' folded =>
      simp only [after]
      cases (w.state source').graph (.source source'.sourceId) with
      | none => exact kept source'
      | some src => simpa [World.support] using kept source'
  | term label id props => simpa [after] using stated
  | tie type start finish source' props =>
      simp only [after]
      split
      · exact kept source'
      · exact kept source'

theorem stands_after (action : Action) (own : ∀ source', action.source = some source' → source' = source)
    (current : w.Current source) (stands : action.source = none → Stands source w.graph) :
    Stands source (action.after w).graph := by
  have place := action.after_source source own (w := w)
  cases states : action.source with
  | none =>
      rw [states] at place
      exact (stands states).of_eq place
  | some source' =>
      rw [states] at place
      exact (World.stands_state current).of_eq place

end Action

def firstStated : List Action → World → Option Source
  | [], _ => none
  | action :: actions, w =>
      match action.source with
      | some source => some source
      | none => if (action.refusal w).isSome then none else firstStated actions (action.after w)

def Own (actions : List Action) (named : Option Source) : Prop :=
  ∀ action ∈ actions, ∀ source, action.source = some source → named = some source

section Taken

variable {action : Action} {actions : List Action} {named : Option Source} {source : Source} {w : World}

omit [Collation] in
theorem Own.tail (own : Own (action :: actions) named) : Own actions named :=
  fun action' member => own action' (List.mem_cons_of_mem _ member)

omit [Collation] in
theorem Own.head (own : Own (action :: actions) (some source)) :
    ∀ source', action.source = some source' → source' = source := by
  intro source' states
  have same := own action List.mem_cons_self source' states
  exact (Option.some.inj same).symm

theorem firstStated_of_silent (silent : action.source = none) (taken : action.refusal w = none) :
    firstStated (action :: actions) w = firstStated actions (action.after w) := by
  simp [firstStated, silent, taken]

theorem Own.named_of_firstStated (own : Own actions named) (first : firstStated actions w = some source) :
    named = some source := by
  induction actions generalizing w with
  | nil => cases first
  | cons action actions ih =>
      simp only [firstStated] at first
      cases states : action.source with
      | some stated =>
          rw [states] at first
          obtain rfl := Option.some.inj first
          exact own action List.mem_cons_self stated states
      | none =>
          simp only [states] at first
          split at first
          · cases first
          · exact ih own.tail first

theorem current_after (silent : action.source = none) (current : w.Current source) :
    (action.after w).Current source := by
  intro stated
  cases before : w.stated source with
  | true => exact action.stands_after (by simp [silent]) current fun _ => current before
  | false =>
      cases action with
      | refuse _ | require _ | term _ _ _ => simp_all [Action.after]
      | state _ | fact _ _ _ _ _ | tie _ _ _ _ _ => cases silent

theorem takeActions_bare (own : Own actions named) (sound : w.Sound)
    (current : ∀ source, firstStated actions w = some source → w.Current source) :
    takeActions actions w.bare = ((takeActions actions w).1, (takeActions actions w).2.bare) ∧
      (takeActions actions w).2.Sound := by
  induction actions generalizing w with
  | nil => exact ⟨rfl, sound⟩
  | cons action actions ih =>
      have mirrors := action.mirrors sound fun source states =>
        current source (by simp [firstStated, states])
      simp only [takeActions, mirrors]
      cases taken : action.refusal w with
      | some refusal => exact ⟨rfl, action.sound_after sound⟩
      | none =>
          apply ih own.tail (action.sound_after sound)
          intro source first
          cases states : action.source with
          | none =>
              have before := current source ((firstStated_of_silent states taken).trans first)
              exact current_after states before
          | some stated =>
              obtain rfl := own.tail.named_of_firstStated first
              obtain rfl := own.head stated states
              have before := current stated (by simp [firstStated, states])
              exact fun _ => action.stands_after own.head before (by simp [states])

theorem takeActions_stands (own : Own actions (some source)) (current : w.Current source)
    (stands : firstStated actions w = none → Stands source w.graph) :
    Stands source (takeActions actions w).2.graph := by
  induction actions generalizing w with
  | nil => exact stands rfl
  | cons action actions ih =>
      have next : (action.source = none → Stands source w.graph) → Stands source (action.after w).graph :=
        action.stands_after own.head current
      simp only [takeActions]
      cases states : action.source with
      | some stated =>
          have here := next (by simp [states])
          cases action.refusal w with
          | some refusal => exact here
          | none => exact ih own.tail (fun _ => here) fun _ => here
      | none =>
          cases taken : action.refusal w with
          | some refusal => exact next fun _ => stands (by simp [firstStated, states, taken])
          | none =>
              apply ih own.tail (current_after states current)
              intro rest
              exact next fun _ => stands ((firstStated_of_silent states taken).trans rest)

theorem takeActions_source (own : Own actions (some source)) (stated : w.stated source = true) :
    (takeActions actions w).2.graph (.source source.sourceId) = w.graph (.source source.sourceId) := by
  induction actions generalizing w with
  | nil => rfl
  | cons action actions ih =>
      have elided : w.state source = w := by simp [World.state, stated]
      have place := action.after_source source own.head (w := w)
      rw [elided, ite_self] at place
      simp only [takeActions]
      cases action.refusal w with
      | some refusal => exact place
      | none => exact (ih own.tail (action.stated_after stated)).trans place

theorem firstStated_bare (sound : w.Sound) : firstStated actions w.bare = firstStated actions w := by
  induction actions generalizing w with
  | nil => rfl
  | cons action actions ih =>
      simp only [firstStated]
      cases states : action.source with
      | some stated => rfl
      | none =>
          have mirrors := action.mirrors sound (by simp [states])
          simp only [mirrors, ih (action.sound_after sound)]

end Taken

variable [Folding]

def namedBy : Op → Option Source
  | .upsertSource source => some source
  | .upsertCategory _ | .upsertIngredient _ | .upsertIntentCluster _ => none
  | .upsertStore _ source | .upsertProduct _ source | .upsertVariant _ _ source
  | .upsertOffer _ _ _ source | .upsertPolicyPage _ source | .linkSells _ _ source
  | .linkCategory _ _ source | .upsertAttribute _ _ source | .upsertMediaAsset _ _ source
  | .linkIngredient _ _ source | .linkCompatibleWith _ _ source | .linkSameAs _ _ _ source
  | .linkStates _ _ source => source

omit [Collation] in
theorem own_actionsOf (op : Op) : Own (actionsOf op) (namedBy op) := by
  have refused : Own [.refuse .unsourced] none := by simp [Own, Action.source]
  cases op with
  | upsertSource source => simp [Own, actionsOf, namedBy, Action.source]
  | upsertCategory _ | upsertIngredient _ | upsertIntentCluster _ =>
      simp [Own, actionsOf, namedBy, Action.source]
  | linkSameAs productId otherId confidence source =>
      simp only [actionsOf, namedBy]
      split
      · cases source <;> simp [Own, sourced, Action.source]
      · simp [Own, Action.source]
  | upsertVariant variant productId source =>
      cases source <;> cases productId <;> simp [Own, actionsOf, namedBy, sourced, Action.source]
  | upsertStore _ source | upsertProduct _ source | upsertOffer _ _ _ source
  | upsertPolicyPage _ source | linkSells _ _ source | linkCategory _ _ source
  | upsertAttribute _ _ source | upsertMediaAsset _ _ source | linkIngredient _ _ source
  | linkCompatibleWith _ _ source | linkStates _ _ source =>
      cases source <;> simp [Own, actionsOf, namedBy, sourced, Action.source]

/-- If the call gets to state a source that the batch has stated, the graph still has it so. -/
def Unspoiled (op : Op) (w : World) : Prop :=
  ∀ source, firstStated (actionsOf op) w = some source → w.stated source = true → Stands source w.graph

theorem shadowed : Shadowed step World.bare World.Sound Unspoiled := by
  intro op w sound unspoiled
  obtain ⟨same, sound'⟩ := takeActions_bare (own_actionsOf op) sound unspoiled
  simp only [step_eq, same]
  exact ⟨trivial, sound'⟩

theorem spoiled_shows {op : Op} {w : World} (sound : w.Sound) (spoiled : ¬ Unspoiled op w) :
    (step op w.bare).2 ≠ (step op w).2.bare := by
  intro same
  simp only [Unspoiled, not_forall] at spoiled
  obtain ⟨source, first, stated, fallen⟩ := spoiled
  have own := own_actionsOf op
  rw [own.named_of_firstStated first] at own
  have kept := takeActions_source own stated
  have written : Stands source (takeActions (actionsOf op) w.bare).2.graph :=
    takeActions_stands own (by simp [World.Current]) (by simp [firstStated_bare sound, first])
  simp only [step_eq] at same
  rw [same] at written
  exact fallen (written.of_eq kept.symm)

omit [Collation] [Folding] in
theorem World.sound_bare (w : World) : w.bare.Sound :=
  ⟨fun _ written => (by cases written), fun _ stated => (by cases stated)⟩

theorem step_outside (op : Op) (w : World) (outside : w.memo = none) : (step op w).2.memo = none := by
  obtain ⟨g, memo⟩ := w
  cases outside
  have same := (shadowed op (World.bare ⟨g, none⟩) (World.sound_bare _) fun _ _ stated => by cases stated).1
  exact congrArg (fun answer => answer.2.memo) same

/-- The batch runs alike with the memo and without, to each of its points, exactly when no step states
again a source that the batch stated and has overwritten since. -/
theorem memo_invisible_iff (g : Catalogue) (batch : List Op) :
    (∀ part, part <+: batch →
        answers step part ⟨g, some .empty⟩ = answers step part ⟨g, none⟩ ∧
          (final step part ⟨g, some .empty⟩).graph = (final step part ⟨g, none⟩).graph) ↔
      ∀ part op, part ++ [op] <+: batch → Unspoiled op (final step part ⟨g, some .empty⟩) := by
  have start : (World.mk g (some .empty)).Sound :=
    ⟨fun endpoint written => by simp [World.written, Memo.empty] at written,
      fun source stated => by simp [World.stated, Memo.empty] at stated⟩
  rw [← shadowed.alike_iff (fun op w sound spoiled => spoiled_shows sound spoiled) start]
  have outside (part : List Op) : (final step part ⟨g, none⟩).memo = none :=
    final_keeps step_outside part rfl
  apply forall₂_congr
  intro part _
  have bare_eq : final step part ⟨g, none⟩ = World.bare (final step part ⟨g, some .empty⟩) ↔
      (final step part ⟨g, some .empty⟩).graph = (final step part ⟨g, none⟩).graph := by
    constructor
    · intro same
      rw [same]
      rfl
    · intro same
      have none_left := outside part
      generalize final step part ⟨g, none⟩ = plain at same none_left
      obtain ⟨g', memo⟩ := plain
      cases none_left
      rw [World.bare, same]
  exact and_congr eq_comm bare_eq.symm

def earlierReading : Source where
  sourceId := "page"
  url := "https://shop.example/p"
  contentHash := "h1"
  observedAt := "2026-01-01"
  extractorVersion := "1"
  confidence := 1.0
  sourceClass := "scraped"
  traceable := by decide
  classed := by decide
  bounded := by decide +kernel

def laterReading : Source :=
  { earlierReading with
    contentHash := "h2"
    observedAt := "2026-02-01"
    traceable := by decide }

omit [Collation] [Folding] in
/-- The earlier reading is stated, overwritten and stated again; the memo holds it, so the third
statement is elided. -/
theorem restated_reading_lost :
    letI := Folding.ascii
    letI := Collation.codePoints
    (final step [.upsertSource earlierReading, .upsertSource laterReading, .upsertSource earlierReading]
        ⟨.empty, some .empty⟩).graph ≠
      (final step [.upsertSource earlierReading, .upsertSource laterReading, .upsertSource earlierReading]
        ⟨.empty, none⟩).graph := by
  let _ := Folding.ascii
  let _ := Collation.codePoints
  intro same
  have read := congrArg (fun g : Catalogue =>
    (g (.source (str "page"))).bind fun props => props (str "observed_at")) same
  revert read
  decide +kernel

end Proxyshop.Graph
