import Proxyshop.Reconcile.Emission
import Proxyshop.Ledger.Canonical

/-!
# From the stream to its orders

What reading and attribution make of a stream, and when the whole returns.
-/

namespace Proxyshop.Reconcile

open Python Structures

section Stream

variable [Unicode]

def readOf (event : Record) : Option Read := outcome (readEvent event)

def relevantOf (events : List Record) : List Relevant := attributed (events.filterMap readOf)

theorem readOf_eq_some {event : Record} {r : Read} : readOf event = some r ↔ r.event = event := by
  constructor
  · intro h
    unfold readOf readEvent at h
    split at h
    · cases h
    · split at h
      · cases h
        rfl
      · split at h <;> cases h
  · rintro rfl
    obtain ⟨kind, event, named, identified⟩ := r
    unfold readOf readEvent
    split
    · rename_i other
      rw [named] at other
      cases other
    · rename_i kind' named'
      cases Option.some.inj (named.symm.trans named')
      rw [dif_pos identified]
      rfl

theorem event_mem {events : List Record} {e : Relevant} (h : e ∈ relevantOf events) :
    e.event ∈ events := by
  obtain ⟨r, read, rfl⟩ := List.mem_map.mp h
  obtain ⟨event, here, found⟩ := List.mem_filterMap.mp read
  rw [← readOf_eq_some.mp found] at here
  exact here

theorem readEvent_returns {event : Record} :
    (∃ r, readEvent event = .ok r) ↔ unjoinableWebhook event = false := by
  unfold readEvent unjoinableWebhook
  split
  · rename_i other
    simp [other]
  · rename_i kind named
    split
    · rename_i identified
      refine iff_of_true ⟨_, rfl⟩ ?_
      rw [named]
      by_cases paid : kind = .orderPaid
      · subst paid
        rw [ne_eq, identifiersOf_orderPaid_eq_nil] at identified
        simp [identified]
      · simp [paid]
    · rename_i none
      split
      · rename_i paid
        subst paid
        have missing := identifiersOf_orderPaid_eq_nil.mp (not_not.mp none)
        simp [named, missing]
      · rename_i other
        simp [named, other]

theorem reconcile_eq_ok {events : List Record} {out : List ReconciledEvent} :
    reconcile events = .ok out ↔ (∀ event ∈ events, unjoinableWebhook event = false) ∧
      (∀ e ∈ orders (relevantOf events), ∃ v, gradeOrder (relevantOf events) e = .ok v) ∧
      out = (orders (relevantOf events)).filterMap fun e => outcome (gradeOrder (relevantOf events) e) := by
  have reads : (∀ event ∈ events, ∃ r, readEvent event = .ok r) ↔
      ∀ event ∈ events, unjoinableWebhook event = false :=
    forall₂_congr fun event _ => readEvent_returns
  rw [reconcile, Ledger.bind_eq_ok]
  constructor
  · rintro ⟨read, returned, emitted⟩
    obtain ⟨all, rfl⟩ := collect_eq_ok.mp returned
    rw [emit_eq] at emitted
    exact ⟨reads.mp all, collect_eq_ok.mp emitted⟩
  · rintro ⟨joinable, graded⟩
    refine ⟨_, collect_eq_ok.mpr ⟨reads.mpr joinable, rfl⟩, ?_⟩
    rw [emit_eq]
    exact collect_eq_ok.mpr graded

def emitted (events : List Record) : List ReconciledEvent := (reconcile events).toOption.getD []

def Returns (relevant : List Relevant) (e : Relevant) : Prop :=
  Readable relevant e ∧ ((offerFor relevant e).isSome → Legible (pixelsFor relevant e).head?)

theorem emitted_of_returns {events : List Record}
    (joinable : ∀ event ∈ events, unjoinableWebhook event = false)
    (returns : ∀ e ∈ orders (relevantOf events), Returns (relevantOf events) e) : emitted events =
      (orders (relevantOf events)).filterMap fun e => outcome (gradeOrder (relevantOf events) e) := by
  have run : reconcile events = .ok _ := reconcile_eq_ok.mpr
    ⟨joinable, fun e member => gradeOrder_returns.mpr (returns e member), rfl⟩
  rw [emitted, run]
  rfl

theorem emitted_of_raises {events : List Record} {e : Relevant}
    (member : e ∈ orders (relevantOf events)) (raises : ¬ Returns (relevantOf events) e) :
    emitted events = [] := by
  cases run : reconcile events with
  | error failure =>
      rw [emitted, run]
      rfl
  | ok out => exact absurd (gradeOrder_returns.mp ((reconcile_eq_ok.mp run).2.1 e member)) raises

theorem outcome_isSome {relevant : List Relevant} {e : Relevant} (returns : Returns relevant e) :
    (outcome (gradeOrder relevant e)).isSome = (offerFor relevant e).isSome := by
  have cores := outcome_offPixel (gradeOrder_returns.mpr returns)
  rw [← Option.isSome_map, cores]
  cases found : offerFor relevant e with
  | none => simp [core, found]
  | some offer =>
      obtain ⟨v, judged⟩ := returns.1 offer found
      rw [core_eq_some.mpr ⟨offer, v, found, judged, rfl⟩]
      rfl

theorem offPixel_emitted {events : List Record} {out : List ReconciledEvent}
    (returned : reconcile events = .ok out) : out.map ReconciledEvent.offPixel =
      (orders (relevantOf events)).filterMap (core (relevantOf events)) := by
  obtain ⟨-, graded, rfl⟩ := reconcile_eq_ok.mp returned
  rw [List.map_filterMap]
  exact List.filterMap_congr fun e member => outcome_offPixel (graded e member)

/-! ## Attribution -/

theorem mem_candidates {stores : Dict Str (List Str)} {r : Read} {store : Str} :
    store ∈ candidates stores r ↔ ∃ key ∈ r.identifiers, store ∈ (Dict.get? stores key).getD [] := by
  have step : ∀ (keys : List Str) (found : List Str),
      store ∈ keys.foldl (fun found key => found ∪ (Dict.get? stores key).getD []) found ↔
        store ∈ found ∨ ∃ key ∈ keys, store ∈ (Dict.get? stores key).getD [] := by
    intro keys
    induction keys with
    | nil => simp
    | cons key keys ih =>
        intro found
        rw [List.foldl_cons, ih, List.mem_union_iff, or_assoc]
        simp
  rw [candidates, step]
  simp

theorem nodup_candidates (read : List Read) (r : Read) : (candidates (keyStores read) r).Nodup := by
  have step : ∀ (keys : List Str) (found : List Str), found.Nodup →
      (keys.foldl (fun found key => found ∪ (Dict.get? (keyStores read) key).getD []) found).Nodup := by
    intro keys
    induction keys with
    | nil => exact fun found distinct => distinct
    | cons key keys ih => exact fun found _ => ih _ ((nodup_gather _ key).union _)
  exact step _ _ List.nodup_nil

/-- The stores that claim one of the identifiers of an event. -/
def Claims (read : List Read) (r : Read) (store : Str) : Prop :=
  ∃ key ∈ r.identifiers, (key, store) ∈ read.flatMap Read.ballots

theorem mem_candidates_keyStores {read : List Read} {r : Read} {store : Str} :
    store ∈ candidates (keyStores read) r ↔ Claims read r store := by
  rw [mem_candidates]
  simp only [keyStores, mem_gather, Claims]

theorem attributedStore_of_store {stores : Dict Str (List Str)} {r : Read} {store : Str}
    (named : r.store = some store) : attributedStore stores r = some store := by
  rw [attributedStore, named]

theorem attributedStore_congr {read read' : List Read} {r r' : Read} (stores : r.store = r'.store)
    (same : ∀ store, Claims read r store ↔ Claims read' r' store) :
    attributedStore (keyStores read) r = attributedStore (keyStores read') r' := by
  have perm : (candidates (keyStores read) r).Perm (candidates (keyStores read') r') := by
    rw [List.perm_ext_iff_of_nodup (nodup_candidates read r) (nodup_candidates read' r')]
    intro store
    rw [mem_candidates_keyStores, mem_candidates_keyStores, same]
  unfold attributedStore
  rw [stores]
  cases r'.store with
  | some store => rfl
  | none =>
      have length := perm.length_eq
      rcases left : candidates (keyStores read) r with - | ⟨s, - | ⟨t, rest⟩⟩
      · rw [left] at perm
        rw [List.nil_perm.mp perm]
      · rw [left] at perm
        rw [List.singleton_perm.mp perm]
      · rw [left] at length
        rcases right : candidates (keyStores read') r' with - | ⟨s', - | ⟨t', rest'⟩⟩
        · rfl
        · simp [right] at length
        · rfl

end Stream

end Proxyshop.Reconcile
