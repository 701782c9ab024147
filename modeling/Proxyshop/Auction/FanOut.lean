import Proxyshop.Auction.Malformed

/-!
# Asking the stores

What a solicitor hands back for a store is stamped by the exchange: whose it is and when it arrived
are the exchange's own words, and a store it got nothing from has a marker minted for it.
-/

namespace Proxyshop.Auction

open Python Numbers Contracts

variable {F : Type}

/-- What a solicitor returns for one store, of which the rest is overwritten or read by nobody. -/
structure Reply (F : Type) where
  refusal : Option Str
  bid : Wire F

inductive Marker
  | timedOut
  | notAsked
  | noAgent
  deriving DecidableEq

/-- `_stamped`. -/
def stamped (store : Rostered F) (finishedAt : Extended F) (reply : Reply F) : Response F where
  storeId := some store.storeId
  refusal := reply.refusal
  timedOut := false
  notAsked := false
  noAgent := false
  receivedAt := .number (.double finishedAt)
  bid :=
    match reply.bid with
    | .object fields => .object (Dict.set fields (str "store_id") (.string store.storeId))
    | bid => bid

/-- `_minted`. -/
def minted (marker : Marker) (store : Rostered F) : Response F where
  storeId := some store.storeId
  refusal := none
  timedOut := marker = .timedOut
  notAsked := marker = .notAsked
  noAgent := marker = .noAgent
  receivedAt := .null
  bid := .null

/-- How a store is left: the window closed before it was asked, it raised or was still answering when
the window closed, or it answered. -/
inductive Visit (F : Type)
  | closed
  | unanswered
  | answered (reply : Option (Reply F)) (finishedAt : Extended F)

/-- The walk of one worker over the stores. A store that raises ends the walk and stays pending. -/
def visitFrom (visit : Nat → Rostered F → Visit F) : Nat → List (Rostered F) → List (Response F)
  | _, [] => []
  | n, store :: rest =>
      match visit n store with
      | .closed => []
      | .unanswered => [minted .timedOut store]
      | .answered reply finishedAt =>
          (reply.map (stamped store finishedAt)).toList ++ visitFrom visit (n + 1) rest

/-- `sequential_fan_out`, with a deadline: nobody is asked unless a worker is free. -/
def sequentialFanOut (free : Bool) (visit : Nat → Rostered F → Visit F) (stores : List (Rostered F)) :
    List (Response F) :=
  if free then visitFrom visit 0 stores else stores.map (minted .notAsked)

inductive Fate (F : Type)
  | cancelled
  | pending
  | raised
  | returned (reply : Option (Reply F)) (finishedAt : Extended F)

def settled (store : Rostered F) : Fate F → List (Response F)
  | .cancelled => [minted .notAsked store]
  | .pending => [minted .timedOut store]
  | .raised => []
  | .returned reply finishedAt => (reply.map (stamped store finishedAt)).toList

/-- `parallel_fan_out`: as many stores are submitted as workers admit. -/
def parallelFanOut (submitted : Nat) (fate : Nat → Rostered F → Fate F) (stores : List (Rostered F)) :
    List (Response F) :=
  ((stores.take submitted).zipIdx.flatMap fun (store, n) => settled store (fate n store)) ++
    (stores.drop submitted).map (minted .notAsked)

theorem stamped_stamped (store : Rostered F) (finishedAt : Extended F) (reply : Option (Reply F)) :
    ∀ response ∈ (reply.map (stamped store finishedAt)).toList, Collect.Stamped response := by
  cases reply with
  | none => exact nofun
  | some reply => exact List.forall_mem_singleton.mpr (Or.inr ⟨finishedAt, rfl⟩)

theorem minted_stamped (marker : Marker) (stores : List (Rostered F)) :
    ∀ response ∈ stores.map (minted marker), Collect.Stamped response := by
  intro response member
  obtain ⟨store, -, rfl⟩ := List.mem_map.mp member
  exact Or.inl rfl

theorem visitFrom_stamped (visit : Nat → Rostered F → Visit F) (n : Nat) (stores : List (Rostered F)) :
    ∀ response ∈ visitFrom visit n stores, Collect.Stamped response := by
  induction stores generalizing n with
  | nil => exact nofun
  | cons store rest ih =>
      unfold visitFrom
      split
      · exact nofun
      · exact List.forall_mem_singleton.mpr (Or.inl rfl)
      · exact List.forall_mem_append.mpr ⟨stamped_stamped _ _ _, ih (n + 1)⟩

theorem settled_stamped (store : Rostered F) (fate : Fate F) :
    ∀ response ∈ settled store fate, Collect.Stamped response := by
  cases fate with
  | raised => exact nofun
  | returned reply finishedAt => exact stamped_stamped _ _ _
  | _ => exact List.forall_mem_singleton.mpr (Or.inl rfl)

/-- A way to ask the stores: every response it hands back bears the exchange's stamp. -/
structure FanOut (F : Type) where
  ask : List (Rostered F) → List (Response F)
  stamped : ∀ stores, ∀ response ∈ ask stores, Collect.Stamped response

namespace FanOut

def sequential (free : Bool) (visit : Nat → Rostered F → Visit F) : FanOut F where
  ask := sequentialFanOut free visit
  stamped := by
    intro stores
    unfold sequentialFanOut
    split
    · exact visitFrom_stamped visit 0 stores
    · exact minted_stamped .notAsked stores

def parallel (submitted : Nat) (fate : Nat → Rostered F → Fate F) : FanOut F where
  ask := parallelFanOut submitted fate
  stamped := by
    intro stores
    refine List.forall_mem_append.mpr ⟨?_, minted_stamped .notAsked _⟩
    intro response member
    obtain ⟨⟨store, n⟩, -, inside⟩ := List.mem_flatMap.mp member
    exact settled_stamped store (fate n store) response inside

end FanOut
end Proxyshop.Auction
