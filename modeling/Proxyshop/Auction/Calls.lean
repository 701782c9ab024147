import Proxyshop.Auction.Moves

/-!
# What a call of the state machine leaves behind
-/

namespace Proxyshop.Auction

open Python Structures

section Operations

variable {ι : Type} [DecidableEq ι] {i : ι}

theorem upholds_load {auctionId : Str} {m : Mark}
    {post : Except Raised (Option AuctionRecord) → Mark → Prop} (fails : post (.error .store) m)
    (found : ∀ (s : Shared ι) marks, Invariant s marks → marks i = m →
      ∃ m', Invariant s (Function.update marks i m') ∧ post (.ok (s.records auctionId)) m') :
    Upholds effect Invariant i (load auctionId) m post := by
  intro s marks invariant own answer s' done
  obtain ⟨rfl, rfl | rfl⟩ := done
  · refine ⟨m, ?_, fails⟩
    rw [← own, Function.update_eq_self]
    exact invariant
  · exact found s' marks invariant own

theorem upholds_look {auctionId : Str} {m : Mark}
    {post : Except Raised (Option AuctionRecord) → Mark → Prop} (fails : post (.error .store) m)
    (found : ∀ stands : Option AuctionRecord,
      (∀ record, stands = some record → record.auctionId = auctionId) → post (.ok stands) m) :
    Upholds effect Invariant i (load auctionId) m post := by
  apply upholds_load fails
  intro s marks invariant own
  refine ⟨m, ?_, found _ fun record stands => invariant.keyed stands⟩
  rw [← own, Function.update_eq_self]
  exact invariant

theorem upholds_reserve {auctionId token : Str} (source : Option State)
    {post : Except Raised (Option Str) → Mark → Prop} (fails : post (.error .store) .idle)
    (held : ∀ taken, post (.ok (some taken)) .idle)
    (won : post (.ok none) (.reserved auctionId source token)) :
    Upholds effect Invariant i (reserve auctionId (departure source) token) .idle post := by
  intro s marks invariant own answer s' done
  have same : Invariant s (Function.update marks i .idle) := by
    rw [← own, Function.update_eq_self]
    exact invariant
  rcases done with ⟨rfl, rfl⟩ | done
  · exact ⟨.idle, same, fails⟩
  · cases stands : s.reservations (auctionId, departure source) with
    | some holder =>
        rw [stands] at done
        obtain ⟨rfl, rfl⟩ := done
        exact ⟨.idle, same, held holder.1⟩
    | none =>
        rw [stands] at done
        obtain ⟨rfl, rfl⟩ := done
        exact ⟨_, invariant.won own stands, won⟩

theorem upholds_save {auctionId token : Str} {seen : Option AuctionRecord} {after : AuctionRecord}
    {post : Except Raised Unit → Mark → Prop} (keyed : after.auctionId = auctionId)
    (follows : Succeeds seen after) (fails : post (.error .store) (.reread auctionId token seen))
    (saved : post (.ok ()) (.moved auctionId token seen after none)) :
    Upholds effect Invariant i (save after) (.reread auctionId token seen) post := by
  intro s marks invariant own answer s' done
  rcases done with ⟨rfl, rfl⟩ | ⟨rfl, rfl⟩
  · refine ⟨_, ?_, fails⟩
    rw [← own, Function.update_eq_self]
    exact invariant
  · exact ⟨_, invariant.wrote own keyed follows, saved⟩

theorem upholds_release {auctionId name token : Str} {m : Mark}
    {post : Except Raised Unit → Mark → Prop} (claim : m.claim = some ((auctionId, name), token))
    (written : m.written = none) (reported : m.reported = none) (released : post (.ok ()) .idle) :
    Upholds effect Invariant i (release auctionId name token) m post := by
  intro s marks invariant own answer s' done
  have mine := claim
  rw [← own] at mine written reported
  simp only [effect, (invariant.held _ _ _).mpr mine, if_true] at done
  subst done
  exact ⟨.idle, invariant.released mine written reported, released⟩

theorem upholds_record {auctionId token : Str} {before : Option AuctionRecord}
    {after : AuctionRecord} {event : LedgerFields} {post : Except Raised Unit → Mark → Prop}
    (known : event.kind ∈ Events.ledgerEventKinds)
    (told : post (.ok ()) (.moved auctionId token before after (some event))) :
    Upholds effect Invariant i (ledgerRecord event)
      (.moved auctionId token before after none) post := by
  rw [ledgerRecord, if_pos known]
  intro s marks invariant own answer s' done
  obtain rfl := done
  exact ⟨_, invariant.told own event, told⟩

theorem upholds_create {auctionId intentId clusterId : Str} {roster : List Record}
    {deadline : Option Float} :
    Upholds effect Invariant i (create auctionId intentId clusterId roster deadline) .idle
      fun outcome m => match outcome with
        | .error _ => m = .idle
        | .ok record => record.auctionId = auctionId ∧ record.state = .created ∧
            m = .moved auctionId auctionId none record none := by
  apply Upholds.bind
  apply upholds_reserve none
  · rfl
  · exact fun _ => rfl
  · apply Upholds.handle
    apply Upholds.bind
    apply upholds_load
    · apply Upholds.bind
      exact upholds_release rfl rfl rfl rfl
    · intro s marks invariant own
      cases stands : s.records auctionId with
      | some record =>
          refine ⟨.reserved auctionId none auctionId, ?_, ?_⟩
          · rw [← own, Function.update_eq_self]
            exact invariant
          · apply Upholds.bind
            exact upholds_release rfl rfl rfl rfl
      | none =>
          refine ⟨.reread auctionId auctionId none, ?_, ?_⟩
          · refine invariant.remark (by rw [own]; rfl) (by rw [own]; rfl) (by rw [own]; rfl) ?_ ?_
            · intro _ _ _ mark
              cases mark
              exact stands
            · exact fun _ _ _ _ _ mark => by cases mark
          · apply Upholds.bind
            apply upholds_save rfl
            · exact rfl
            · apply Upholds.bind
              exact upholds_release rfl rfl rfl rfl
            · exact ⟨rfl, rfl, rfl⟩

theorem transitionKind_known {target state : State} (legal : target ∈ transitions state) :
    transitionKind target ∈ Events.ledgerEventKinds := by
  cases target with
  | created => cases state <;> simp [transitions] at legal
  | _ => decide

variable [Unicode]

theorem upholds_transition {auctionId : Str} {target : State} {now : Option Float}
    {payload : Record} {bidRef storeId : Option Str} :
    Upholds effect Invariant i (transition auctionId target now payload bidRef storeId)
      .idle fun outcome m => match outcome with
        | .error _ => m = .idle
        | .ok record => ∃ before, before.auctionId = auctionId ∧ target ∈ transitions before.state ∧
            record = before.moved target now bidRef ∧
            m = .moved auctionId target.name (some before) record
              (some (transitionEvent record auctionId target payload storeId)) := by
  apply Upholds.bind
  apply Upholds.bind
  apply upholds_look
  · rfl
  · intro stands _
    cases stands with
    | none => exact rfl
    | some record =>
        show Upholds effect Invariant i (ite _ _ _) _ _
        split
        case isTrue => exact rfl
        case isFalse legal =>
          rw [not_not] at legal
          apply Upholds.bind
          apply upholds_reserve (some record.state)
          · exact rfl
          · exact fun _ => rfl
          · apply Upholds.bind
            apply Upholds.handle
            apply Upholds.bind
            apply Upholds.bind
            apply upholds_load
            · apply Upholds.bind
              exact upholds_release rfl rfl rfl rfl
            · intro s marks invariant own
              have unmoved : Invariant s (Function.update marks i
                  (.reserved auctionId (some record.state) target.name)) := by
                rw [← own, Function.update_eq_self]
                exact invariant
              cases stands : s.records auctionId with
              | none =>
                  refine ⟨_, unmoved, ?_⟩
                  apply Upholds.bind
                  exact upholds_release rfl rfl rfl rfl
              | some seen =>
                  by_cases here : seen.state = record.state
                  · refine ⟨.reread auctionId target.name (some seen), ?_, ?_⟩
                    · refine invariant.remark ?_ (by rw [own]; rfl) (by rw [own]; rfl) ?_ ?_
                      · rw [own]
                        show some ((auctionId, departure (some seen.state)), target.name) = _
                        rw [here]
                        rfl
                      · intro _ _ _ mark
                        cases mark
                        exact stands
                      · exact fun _ _ _ _ _ mark => by cases mark
                    · show Upholds effect Invariant i (ite _ _ _) _ _
                      rw [if_neg (not_not_intro here)]
                      have follows : Succeeds (some seen) (seen.moved target now bidRef) :=
                        ⟨target, here ▸ legal, now, bidRef, rfl⟩
                      have keyed := invariant.keyed stands
                      apply Upholds.bind
                      apply upholds_save ((moved_auctionId ..).trans keyed) follows
                      · apply Upholds.bind
                        refine upholds_release ?_ rfl rfl rfl
                        show some ((auctionId, departure (some seen.state)), target.name) = _
                        rw [here]
                        rfl
                      · apply Upholds.bind
                        apply upholds_record (transitionKind_known legal)
                        exact ⟨seen, keyed, here ▸ legal, rfl, rfl⟩
                  · refine ⟨_, unmoved, ?_⟩
                    show Upholds effect Invariant i (ite _ _ _) _ _
                    rw [if_pos here]
                    show Upholds effect Invariant i (release _ _ _ >>= _) _ _
                    apply Upholds.bind
                    exact upholds_release rfl rfl rfl rfl

end Operations
end Proxyshop.Auction
