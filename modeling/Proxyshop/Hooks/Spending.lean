import Mathlib.Logic.Relation
import Proxyshop.Hooks.Walls

/-!
# Grants and what is spent of them

The holder of a facade calls its hooks in any order, opens bids and redeems what was emitted for the one
that is open, while the merchant edits the envelope.
-/

namespace Proxyshop.Hooks

open Python Numbers Contracts Structures Verification Learning Relation

variable [Minting]

/-! ## Emissions -/

namespace AdmissionLedger

def inscribe (l : AdmissionLedger) (claim : MintedClaim) : AdmissionLedger :=
  match Minting.fingerprint claim with
  | .ok fingerprint => l.record fingerprint
  | .error _ => l

def Bears (fingerprint : Str) (claim : MintedClaim) : Prop := Minting.fingerprint claim = .ok fingerprint

instance (fingerprint : Str) : DecidablePred (Bears fingerprint) := fun claim =>
  inferInstanceAs (Decidable (Minting.fingerprint claim = .ok fingerprint))

variable (l : AdmissionLedger)

omit [Minting] in
theorem count_adjust (counter : Dict Str Nat) (key fingerprint : Str) :
    count (Dict.adjust counter key 0 (· + 1)) fingerprint
      = count counter fingerprint + if key = fingerprint then 1 else 0 := by
  unfold count
  rw [Dict.get?_adjust]
  by_cases same : key = fingerprint
  · subst same
    simp
  · simp [same, Ne.symm same]

theorem emitted_inscribe (claim : MintedClaim) (fingerprint : Str) :
    count (l.inscribe claim).emitted fingerprint
      = count l.emitted fingerprint + if Bears fingerprint claim then 1 else 0 := by
  unfold inscribe
  by_cases bears : Bears fingerprint claim
  · rw [show Minting.fingerprint claim = .ok fingerprint from bears, if_pos bears]
    exact (count_adjust l.emitted fingerprint fingerprint).trans (by rw [if_pos rfl])
  · rw [if_neg bears, Nat.add_zero]
    split
    · rename_i own printed
      have other : own ≠ fingerprint := by
        rintro rfl
        exact bears printed
      exact (count_adjust l.emitted own fingerprint).trans (by rw [if_neg other, Nat.add_zero])
    · rfl

theorem emitted_inscribes (claims : List MintedClaim) (fingerprint : Str) :
    count (claims.foldl inscribe l).emitted fingerprint
      = count l.emitted fingerprint + claims.countP fun claim => decide (Bears fingerprint claim) := by
  induction claims generalizing l with
  | nil => rfl
  | cons claim claims ih =>
      rw [List.foldl_cons, ih, emitted_inscribe, List.countP_cons]
      by_cases bears : Bears fingerprint claim
      · simp [bears]
        omega
      · simp [bears]

theorem spent_inscribes (claims : List MintedClaim) : (claims.foldl inscribe l).spent = l.spent := by
  induction claims generalizing l with
  | nil => rfl
  | cons claim claims ih =>
      rw [List.foldl_cons, ih]
      unfold inscribe
      split <;> rfl

end AdmissionLedger

namespace ToolHooks

/-- The claims were emitted, and nothing else happened but that calls were logged. -/
structure Emits (h h' : ToolHooks) (claims : List MintedClaim) : Prop where
  trail : h'.claims = h.claims ++ claims
  ledger : h'.ledger = claims.foldl AdmissionLedger.inscribe h.ledger
  calls : h.calls <+: h'.calls
  context : h' = { h with claims := h'.claims, ledger := h'.ledger, calls := h'.calls }

theorem Emits.nothing (h : ToolHooks) : Emits h h [] :=
  ⟨(List.append_nil _).symm, rfl, List.prefix_rfl, rfl⟩

theorem emitOne_emits (h : ToolHooks) (claim : MintedClaim) : Emits h (h.emitOne claim).2 [claim] := by
  unfold emitOne
  cases printed : Minting.fingerprint claim with
  | error e =>
      refine ⟨rfl, ?_, List.prefix_rfl, rfl⟩
      simp [AdmissionLedger.inscribe, printed]
  | ok fingerprint =>
      refine ⟨rfl, ?_, List.prefix_rfl, rfl⟩
      simp [AdmissionLedger.inscribe, printed]

theorem Emits.then {h h' h'' : ToolHooks} {claims claims' : List MintedClaim} (first : Emits h h' claims)
    (second : Emits h' h'' claims') : Emits h h'' (claims ++ claims') where
  trail := by rw [second.trail, first.trail, List.append_assoc]
  ledger := by rw [second.ledger, first.ledger, List.foldl_append]
  calls := first.calls.trans second.calls
  context := by
    rw [second.context, first.context]

theorem emit_emits (h : ToolHooks) (claims : List MintedClaim) :
    ∃ emitted, emitted <+: claims ∧ Emits h (h.emit claims).2 emitted ∧
      ((h.emit claims).1 = .ok () → emitted = claims) := by
  induction claims generalizing h with
  | nil => exact ⟨[], List.prefix_rfl, .nothing h, fun _ => rfl⟩
  | cons claim claims ih =>
      have first := h.emitOne_emits claim
      unfold emit
      cases one : h.emitOne claim with
      | mk result h' =>
          rw [one] at first
          cases result with
          | error e => exact ⟨[claim], List.prefix_append [claim] claims, first, by rintro ⟨⟩⟩
          | ok done =>
              obtain ⟨emitted, initial, emits, all⟩ := ih h'
              refine ⟨claim :: emitted, List.prefix_cons_inj claim |>.mpr initial, first.then emits, ?_⟩
              exact fun returned => congrArg (claim :: ·) (all returned)

theorem log_emits (h : ToolHooks) (hook subject outcome : Str) (claims : List MintedClaim) :
    Emits h (h.log hook subject outcome claims) [] :=
  ⟨(List.append_nil _).symm, rfl, List.prefix_append _ _, rfl⟩

theorem publish_emits (h : ToolHooks) (hook subject outcome : Str) (read : Except PyError (List MintedClaim)) :
    ∃ emitted, Emits h (h.publish hook subject outcome read).2 emitted ∧
      (emitted = [] ∨ ∃ claims, read = .ok claims ∧ emitted <+: claims) := by
  unfold publish
  split
  · exact ⟨[], .nothing h, .inl rfl⟩
  · rename_i claims
    split
    · obtain ⟨emitted, initial, emits, -⟩ := h.emit_emits claims
      split
      · rename_i raised
        rw [raised] at emits
        exact ⟨emitted, emits, .inr ⟨claims, rfl, initial⟩⟩
      · rename_i returned
        rw [returned] at emits
        have logged := emits.then (log_emits _ hook subject outcome claims)
        rw [List.append_nil] at logged
        exact ⟨emitted, logged, .inr ⟨claims, rfl, initial⟩⟩
    · exact ⟨[], .nothing h, .inl rfl⟩

variable [Folding] [Spelling Binary64]

/-! ## Sources -/

omit [Minting] [Folding] in
theorem source_factClaim {h : ToolHooks} {productRef key : Str} {listing : Dict Str (Wire Binary64)}
    {value : Wire Binary64} {claims : List MintedClaim}
    (read : h.factClaim productRef key listing value = .ok claims) : ∀ claim ∈ claims, claim.source = .scraped := by
  obtain ⟨observedAt, _, read⟩ := bind_eq_ok.mp read
  cases read
  exact List.forall_mem_singleton.mpr rfl

omit [Minting] [Folding] in
theorem source_liveClaims {h : ToolHooks} {productRef : Str} {claims : List MintedClaim}
    (read : h.liveClaims productRef = .ok claims) : ∀ claim ∈ claims, claim.source = .pixelFeed := by
  obtain ⟨observedAt, _, read⟩ := bind_eq_ok.mp read
  cases read
  intro claim member
  obtain ⟨key, -, rfl⟩ := List.mem_map.mp member
  rfl

omit [Minting] in
theorem source_commitmentClaim {h : ToolHooks} {raw : Wire Binary64} {claim : MintedClaim}
    (read : h.commitmentClaim raw = .ok (some claim)) : claim.source = .ownerStatement := by
  unfold commitmentClaim at read
  obtain ⟨entry, _, read⟩ := bind_eq_ok.mp read
  obtain ⟨key, _, read⟩ := bind_eq_ok.mp read
  split at read
  · cases read
  · obtain ⟨provenance, _, read⟩ := bind_eq_ok.mp read
    obtain ⟨ref, _, read⟩ := bind_eq_ok.mp read
    obtain ⟨observedAt, _, read⟩ := bind_eq_ok.mp read
    obtain ⟨rank, _, read⟩ := bind_eq_ok.mp read
    cases read
    rfl

theorem source_commitmentClaims {h : ToolHooks} {raws : List (Wire Binary64)} {claims : List MintedClaim}
    (read : h.commitmentClaims raws = .ok claims) : ∀ claim ∈ claims, claim.source = .ownerStatement := by
  induction raws generalizing claims with
  | nil =>
      cases read
      exact nofun
  | cons raw raws ih =>
      unfold commitmentClaims at read
      split at read
      · cases read
      · cases read
      · rename_i claim minted
        split at read
        · cases rest : h.commitmentClaims raws with
          | error e =>
              rw [rest] at read
              cases read
          | ok others =>
              rw [rest] at read
              cases read
              exact List.forall_mem_cons.mpr ⟨source_commitmentClaim minted, ih rest⟩
        · cases read

omit [Minting] in
theorem source_priorClaim {h : ToolHooks} {clusterId : Str} {claim : MintedClaim}
    (read : h.priorClaim clusterId = .ok claim) : claim.source = .network := by
  unfold priorClaim at read
  split at read
  · obtain ⟨observedAt, _, read⟩ := bind_eq_ok.mp read
    cases read
    rfl
  · cases read
    rfl
  · cases read
    rfl
  · cases read
    rfl

end ToolHooks

/-! ## Sessions -/

inductive Action
  | getProductFact (productRef key : Str)
  | getLiveState (productRef : Str)
  | getOwnerCommitments (clusterId : Str)
  | authorizeDiscount (productRef : Str) (requested : Wire Binary64)
  | choosePolicyAction (context : Wire Binary64)
  | getNetworkPrior (clusterId : Str)
  | startBid (bidRef : Str)
  | spendAuthorization (fingerprint : Str)
  | editEnvelope (envelope : Dict Str (Wire Binary64))

/-- A facade, with how much its trail held when the bid was opened and what was redeemed since. -/
structure Session where
  hooks : ToolHooks
  opened : Nat
  redeemed : List Str

namespace Session

variable [Folding] [Spelling Binary64]

def act (s : Session) : Action → Session
  | .getProductFact productRef key => { s with hooks := (s.hooks.getProductFact productRef key).2 }
  | .getLiveState productRef => { s with hooks := (s.hooks.getLiveState productRef).2 }
  | .getOwnerCommitments clusterId => { s with hooks := (s.hooks.getOwnerCommitments clusterId).2 }
  | .authorizeDiscount productRef requested => { s with hooks := (s.hooks.authorizeDiscount productRef requested).2 }
  | .choosePolicyAction context => { s with hooks := (s.hooks.choosePolicyAction context).2 }
  | .getNetworkPrior clusterId => { s with hooks := (s.hooks.getNetworkPrior clusterId).2 }
  | .startBid bidRef => { hooks := s.hooks.startBid bidRef, opened := s.hooks.claims.length, redeemed := [] }
  | .spendAuthorization fingerprint =>
      { s with
        hooks := (s.hooks.spendAuthorization fingerprint).2
        redeemed := s.redeemed ++ if (s.hooks.spendAuthorization fingerprint).1 then [fingerprint] else [] }
  | .editEnvelope envelope => { s with hooks := { s.hooks with envelope } }

def Steps (s s' : Session) : Prop := ∃ action, s' = s.act action

def current (s : Session) : List MintedClaim := s.hooks.claims.drop s.opened

def emissions (s : Session) (fingerprint : Str) : Nat :=
  s.current.countP fun claim => decide (AdmissionLedger.Bears fingerprint claim)

/-- The ledger counts what was emitted and what was redeemed, and no more was redeemed than emitted. -/
structure Exact (s : Session) : Prop where
  opened : s.opened ≤ s.hooks.claims.length
  emitted : ∀ fingerprint, AdmissionLedger.count s.hooks.ledger.emitted fingerprint = s.emissions fingerprint
  spent : ∀ fingerprint, AdmissionLedger.count s.hooks.ledger.spent fingerprint = s.redeemed.count fingerprint
  covered : ∀ fingerprint, s.redeemed.count fingerprint ≤ s.emissions fingerprint

variable {s : Session}

omit [Folding] [Spelling Binary64] in
theorem Exact.emits (exact : s.Exact) {h : ToolHooks} {claims : List MintedClaim}
    (emits : ToolHooks.Emits s.hooks h claims) : Exact { s with hooks := h } := by
  have current : h.claims.drop s.opened = s.current ++ claims := by
    rw [emits.trail, List.drop_append_of_le_length exact.opened]
    rfl
  have emissions (fingerprint : Str) : Session.emissions { s with hooks := h } fingerprint
      = s.emissions fingerprint + claims.countP fun claim => decide (AdmissionLedger.Bears fingerprint claim) := by
    unfold Session.emissions Session.current
    rw [current, List.countP_append]
    rfl
  refine ⟨?_, ?_, ?_, ?_⟩
  · show s.opened ≤ h.claims.length
    rw [emits.trail, List.length_append]
    exact exact.opened.trans (Nat.le_add_right _ _)
  · intro fingerprint
    show AdmissionLedger.count h.ledger.emitted fingerprint = _
    rw [emissions, emits.ledger, AdmissionLedger.emitted_inscribes, exact.emitted]
  · intro fingerprint
    show AdmissionLedger.count h.ledger.spent fingerprint = _
    rw [emits.ledger, AdmissionLedger.spent_inscribes, exact.spent]
  · intro fingerprint
    rw [emissions]
    exact (exact.covered fingerprint).trans (Nat.le_add_right _ _)

theorem Exact.spend (exact : s.Exact) (fingerprint : Str) : Exact (s.act (.spendAuthorization fingerprint)) := by
  show Exact
    { hooks := { s.hooks with ledger := (s.hooks.ledger.spend fingerprint).2 }
      opened := s.opened
      redeemed := s.redeemed ++ if (s.hooks.ledger.spend fingerprint).1 then [fingerprint] else [] }
  by_cases exhausted : AdmissionLedger.count s.hooks.ledger.emitted fingerprint
      ≤ AdmissionLedger.count s.hooks.ledger.spent fingerprint
  · have refused : s.hooks.ledger.spend fingerprint = (false, s.hooks.ledger) := if_pos exhausted
    rw [refused, if_neg Bool.false_ne_true, List.append_nil]
    exact exact
  · have taken : s.hooks.ledger.spend fingerprint = (true,
        { s.hooks.ledger with spent := Dict.adjust s.hooks.ledger.spent fingerprint 0 (· + 1) }) := if_neg exhausted
    rw [exact.emitted, exact.spent, not_le] at exhausted
    rw [taken, if_pos rfl]
    refine ⟨exact.opened, exact.emitted, ?_, ?_⟩
    · intro other
      show AdmissionLedger.count (Dict.adjust s.hooks.ledger.spent fingerprint 0 (· + 1)) other = _
      rw [AdmissionLedger.count_adjust, exact.spent, List.count_append, List.count_singleton]
      by_cases same : fingerprint = other <;> simp [same]
    · intro other
      show (s.redeemed ++ [fingerprint]).count other ≤ s.emissions other
      rw [List.count_append, List.count_singleton]
      by_cases same : fingerprint = other
      · subst same
        simp only [BEq.rfl, if_true]
        exact exhausted
      · simpa [same] using exact.covered other

/-! ## Hooks -/

omit [Folding] in
theorem getProductFact_emits (h : ToolHooks) (productRef key : Str) :
    ∃ claims, ToolHooks.Emits h (h.getProductFact productRef key).2 claims ∧
      ∀ claim ∈ claims, claim.source ≠ .envelopeRule := by
  unfold ToolHooks.getProductFact
  split
  · exact ⟨[], ToolHooks.log_emits _ _ _ _ _, nofun⟩
  · split
    · exact ⟨[], ToolHooks.log_emits _ _ _ _ _, nofun⟩
    · obtain ⟨claims, emits, rfl | ⟨read, made, initial⟩⟩ := h.publish_emits (str "get_product_fact") productRef
        (str "claim") (h.factClaim productRef key _ _)
      · exact ⟨[], emits, nofun⟩
      · refine ⟨claims, emits, fun claim member => ?_⟩
        rw [ToolHooks.source_factClaim made claim (initial.subset member)]
        exact nofun

omit [Folding] in
theorem getLiveState_emits (h : ToolHooks) (productRef : Str) :
    ∃ claims, ToolHooks.Emits h (h.getLiveState productRef).2 claims ∧
      ∀ claim ∈ claims, claim.source ≠ .envelopeRule := by
  unfold ToolHooks.getLiveState
  split
  · obtain ⟨claims, emits, rfl | ⟨read, made, initial⟩⟩ := h.publish_emits (str "get_live_state") productRef _
      (h.liveClaims productRef)
    · exact ⟨[], emits, List.forall_mem_nil _⟩
    · refine ⟨claims, emits, fun claim member => ?_⟩
      rw [ToolHooks.source_liveClaims made claim (initial.subset member)]
      rintro ⟨⟩
  · exact ⟨[], ToolHooks.log_emits _ _ _ _ _, List.forall_mem_nil _⟩

theorem getOwnerCommitments_emits (h : ToolHooks) (clusterId : Str) :
    ∃ claims, ToolHooks.Emits h (h.getOwnerCommitments clusterId).2 claims ∧
      ∀ claim ∈ claims, claim.source ≠ .envelopeRule := by
  unfold ToolHooks.getOwnerCommitments
  split
  · exact ⟨[], .nothing h, nofun⟩
  · rename_i made
    obtain ⟨claims, emits, rfl | ⟨read, same, initial⟩⟩ := h.publish_emits (str "get_owner_commitments") clusterId
      (str "claims") (.ok _)
    · exact ⟨[], emits, nofun⟩
    · cases same
      refine ⟨claims, emits, fun claim member => ?_⟩
      rw [ToolHooks.source_commitmentClaims made claim (initial.subset member)]
      exact nofun

theorem choosePolicyAction_emits (h : ToolHooks) (context : Wire Binary64) :
    ∃ claims, ToolHooks.Emits h (h.choosePolicyAction context).2 claims ∧
      ∀ claim ∈ claims, claim.source ≠ .envelopeRule := by
  unfold ToolHooks.choosePolicyAction
  split
  · exact ⟨[], .nothing h, nofun⟩
  · split
    · exact ⟨[], .nothing h, nofun⟩
    · rename_i clusterId productRef version _ _ action walled _
      obtain ⟨claims, emits, rfl | ⟨read, same, initial⟩⟩ := h.publish_emits (str "choose_policy_action") clusterId
        (if walled then str "action_walled" else str "action") (.ok [h.actionClaim clusterId version action])
      · exact ⟨[], emits, nofun⟩
      · cases same
        refine ⟨claims, emits, fun claim member => ?_⟩
        obtain rfl := List.mem_singleton.mp (initial.subset member)
        exact nofun

theorem getNetworkPrior_emits (h : ToolHooks) (clusterId : Str) :
    ∃ claims, ToolHooks.Emits h (h.getNetworkPrior clusterId).2 claims ∧
      ∀ claim ∈ claims, claim.source ≠ .envelopeRule := by
  unfold ToolHooks.getNetworkPrior
  obtain ⟨claims, emits, rfl | ⟨read, made, initial⟩⟩ := h.publish_emits (str "get_network_prior") clusterId
    (if h.isPriorPresent clusterId then str "prior" else str "absent")
    ((fun claim => [claim]) <$> h.priorClaim clusterId)
  · exact ⟨[], emits, nofun⟩
  · refine ⟨claims, emits, fun claim member => ?_⟩
    cases prior : h.priorClaim clusterId with
    | error e =>
        rw [prior] at made
        cases made
    | ok own =>
        rw [prior] at made
        cases made
        obtain rfl := List.mem_singleton.mp (initial.subset member)
        rw [ToolHooks.source_priorClaim prior]
        exact nofun

/-- The claim is a grant of a depth that was within the walls of the envelope. -/
def Granted (h : ToolHooks) (claim : MintedClaim) : Prop :=
  ∃ productRef pct, h.grantClaim productRef pct = .ok [claim] ∧ h.Inside productRef pct

theorem authorizeDiscount_emits (h : ToolHooks) (productRef : Str) (requested : Wire Binary64) :
    ∃ claims, ToolHooks.Emits h (h.authorizeDiscount productRef requested).2 claims ∧
      ∀ claim ∈ claims, Granted h claim := by
  unfold ToolHooks.authorizeDiscount
  split
  · exact ⟨[], .nothing h, nofun⟩
  · exact ⟨[], .nothing h, nofun⟩
  · exact ⟨[], .nothing h, nofun⟩
  · rename_i pct _
    split
    · exact ⟨[], .nothing h, nofun⟩
    · exact ⟨[], ToolHooks.log_emits _ _ _ _ _, nofun⟩
    · rename_i evaluated
      obtain ⟨cap, price, floor, clears⟩ := ToolHooks.evaluateDiscount_eq_none.mp evaluated
      obtain ⟨claims, emits, told⟩ := h.publish_emits (str "authorize_discount") productRef (str "authorized")
        (h.grantClaim productRef pct)
      refine ⟨claims, ?_, ?_⟩
      · split <;> rename_i published <;> rw [published] at emits <;> exact emits
      · intro claim member
        rcases told with rfl | ⟨read, made, initial⟩
        · exact absurd member List.not_mem_nil
        · have minted := made
          obtain ⟨ruleRef, _, made⟩ := bind_eq_ok.mp made
          obtain ⟨ref, _, made⟩ := bind_eq_ok.mp made
          cases made
          obtain rfl := List.mem_singleton.mp (initial.subset member)
          exact ⟨productRef, pct, minted, ToolHooks.Clears.depthInside clears⟩

/-! ## Steps -/

theorem Exact.startBid (s : Session) (bidRef : Str) : Exact (s.act (.startBid bidRef)) := by
  have current : (s.act (.startBid bidRef)).current = [] := List.drop_length
  have emissions (fingerprint : Str) : (s.act (.startBid bidRef)).emissions fingerprint = 0 := by
    rw [Session.emissions, current]
    rfl
  exact ⟨le_rfl, fun fingerprint => (emissions fingerprint).symm, fun _ => rfl, fun _ => Nat.zero_le _⟩

theorem Exact.act (exact : s.Exact) (action : Action) : Exact (s.act action) := by
  cases action with
  | getProductFact productRef key => exact exact.emits (getProductFact_emits s.hooks productRef key).choose_spec.1
  | getLiveState productRef => exact exact.emits (getLiveState_emits s.hooks productRef).choose_spec.1
  | getOwnerCommitments clusterId => exact exact.emits (getOwnerCommitments_emits s.hooks clusterId).choose_spec.1
  | authorizeDiscount productRef requested =>
      exact exact.emits (authorizeDiscount_emits s.hooks productRef requested).choose_spec.1
  | choosePolicyAction context => exact exact.emits (choosePolicyAction_emits s.hooks context).choose_spec.1
  | getNetworkPrior clusterId => exact exact.emits (getNetworkPrior_emits s.hooks clusterId).choose_spec.1
  | startBid bidRef => exact .startBid s bidRef
  | spendAuthorization fingerprint => exact exact.spend fingerprint
  | editEnvelope envelope => exact ⟨exact.opened, exact.emitted, exact.spent, exact.covered⟩

theorem trail_act (s : Session) (action : Action) : ∃ claims, (s.act action).hooks.claims = s.hooks.claims ++ claims ∧
    ∀ claim ∈ claims, claim.source = .envelopeRule → Granted s.hooks claim := by
  have other {h : ToolHooks} (emitted : ∃ claims, ToolHooks.Emits s.hooks h claims ∧
      ∀ claim ∈ claims, claim.source ≠ .envelopeRule) : ∃ claims, h.claims = s.hooks.claims ++ claims ∧
        ∀ claim ∈ claims, claim.source = .envelopeRule → Granted s.hooks claim := by
    obtain ⟨claims, emits, elsewhere⟩ := emitted
    exact ⟨claims, emits.trail, fun claim member grant => absurd grant (elsewhere claim member)⟩
  have none : s.hooks.claims = s.hooks.claims ++ [] := (List.append_nil _).symm
  cases action with
  | getProductFact productRef key => exact other (getProductFact_emits s.hooks productRef key)
  | getLiveState productRef => exact other (getLiveState_emits s.hooks productRef)
  | getOwnerCommitments clusterId => exact other (getOwnerCommitments_emits s.hooks clusterId)
  | authorizeDiscount productRef requested =>
      obtain ⟨claims, emits, granted⟩ := authorizeDiscount_emits s.hooks productRef requested
      exact ⟨claims, emits.trail, fun claim member _ => granted claim member⟩
  | choosePolicyAction context => exact other (choosePolicyAction_emits s.hooks context)
  | getNetworkPrior clusterId => exact other (getNetworkPrior_emits s.hooks clusterId)
  | startBid bidRef => exact ⟨[], none, nofun⟩
  | spendAuthorization fingerprint => exact ⟨[], none, nofun⟩
  | editEnvelope envelope => exact ⟨[], none, nofun⟩

/-! ## Runs -/

def begun (h : ToolHooks) : Session := ⟨h, 0, []⟩

omit [Folding] in
theorem exact_begun {context : Wire Binary64} {h : ToolHooks} (built : ToolHooks.init context = .ok h) :
    (begun h).Exact ∧ h.claims = [] := by
  unfold ToolHooks.init at built
  obtain ⟨merged, _, built⟩ := bind_eq_ok.mp built
  obtain ⟨storeId, _, built⟩ := bind_eq_ok.mp built
  obtain ⟨envelope, _, built⟩ := bind_eq_ok.mp built
  obtain ⟨catalog, _, built⟩ := bind_eq_ok.mp built
  obtain ⟨liveState, _, built⟩ := bind_eq_ok.mp built
  obtain ⟨networkPriors, _, built⟩ := bind_eq_ok.mp built
  obtain ⟨asOf, _, built⟩ := bind_eq_ok.mp built
  cases built
  exact ⟨⟨le_rfl, fun _ => rfl, fun _ => rfl, fun _ => le_rfl⟩, rfl⟩

variable {context : Wire Binary64} {h : ToolHooks}

/-- In whatever order hooks are called, bids opened and emissions redeemed, a fingerprint is redeemed no more
often than it was emitted for the bid that is open, and it can be redeemed until then. -/
theorem spends_matched (built : ToolHooks.init context = .ok h) (run : ReflTransGen Steps (begun h) s)
    (fingerprint : Str) :
    s.redeemed.count fingerprint ≤ s.emissions fingerprint ∧
      s.hooks.remainingAuthorizations fingerprint = s.emissions fingerprint - s.redeemed.count fingerprint ∧
      ((s.hooks.spendAuthorization fingerprint).1 = true ↔
        s.redeemed.count fingerprint < s.emissions fingerprint) := by
  have exact : s.Exact := by
    induction run with
    | refl => exact (exact_begun built).1
    | tail _ step ih =>
        obtain ⟨action, rfl⟩ := step
        exact ih.act action
  refine ⟨exact.covered fingerprint, ?_, ?_⟩
  · show AdmissionLedger.count _ _ - AdmissionLedger.count _ _ = _
    rw [exact.emitted, exact.spent]
  · rw [← exact.emitted, ← exact.spent]
    unfold ToolHooks.spendAuthorization AdmissionLedger.spend
    split
    · rename_i exhausted
      exact iff_of_false Bool.false_ne_true (not_lt.mpr exhausted)
    · rename_i unspent
      exact iff_of_true rfl (not_le.mp unspent)

/-- A store that sells one product at a hundred, up to a fifth off. -/
def oneProduct : Wire Binary64 := .object [(str "store_id", .string (str "s")),
  (str "envelope", .object [(str "max_discount_pct", .number (.integer 20))]),
  (str "catalog", .object [(str "p", .object [(str "list_price", .number (.integer 100))])])]

def fivePercent : Action := .authorizeDiscount (str "p") (.number (.integer 5))

def grantOfP : Str := str "envelope:s:v#max_discount_pct@p"

omit [Minting] [Folding] [Spelling Binary64] in
theorem grant_redeemed_once :
    letI : Folding := .ascii
    letI : Spelling Binary64 := .strings Binary64
    letI : Minting := ToolHooks.plainMinting
    ∃ h s, ToolHooks.init oneProduct = .ok h ∧ ReflTransGen Steps (begun h) s ∧
      s.hooks.remainingAuthorizations grantOfP = 0 ∧ s.redeemed.count grantOfP = 1 ∧
      (s.hooks.spendAuthorization grantOfP).1 = false := by
  let _ : Folding := .ascii
  let _ : Spelling Binary64 := .strings Binary64
  let _ : Minting := ToolHooks.plainMinting
  let s₁ := (begun (ToolHooks.shopOf (str "s") (.number (.integer 20)))).act fivePercent
  have built : ToolHooks.init oneProduct = .ok (ToolHooks.shopOf (str "s") (.number (.integer 20))) := rfl
  have run : ReflTransGen Steps (begun _) (s₁.act (.spendAuthorization grantOfP)) :=
    (ReflTransGen.single ⟨fivePercent, rfl⟩).tail ⟨.spendAuthorization grantOfP, rfl⟩
  obtain ⟨-, remaining, spendable⟩ := spends_matched built run grantOfP
  refine ⟨_, _, built, run, ?_, ?_, ?_⟩
  · rw [remaining]
    decide +kernel
  · decide +kernel
  · exact Bool.eq_false_iff.mpr (mt spendable.mp (by decide +kernel))

/-- Every grant in the trail was minted at some moment of the run, for a depth that was within the walls of
the envelope as it stood then. -/
theorem grants_traced (built : ToolHooks.init context = .ok h) (run : ReflTransGen Steps (begun h) s)
    {claim : MintedClaim} (member : claim ∈ s.hooks.claims) (grant : claim.source = .envelopeRule) :
    ∃ s₀, ReflTransGen Steps (begun h) s₀ ∧ ReflTransGen Steps s₀ s ∧ Granted s₀.hooks claim := by
  induction run with
  | refl =>
      rw [show (begun h).hooks.claims = [] from (exact_begun built).2] at member
      exact absurd member List.not_mem_nil
  | @tail s₁ s₂ before step ih =>
      obtain ⟨action, rfl⟩ := step
      obtain ⟨claims, grown, granted⟩ := trail_act s₁ action
      rw [grown] at member
      rcases List.mem_append.mp member with earlier | new
      · obtain ⟨s₀, first, then', traced⟩ := ih earlier
        exact ⟨s₀, first, then'.tail ⟨action, rfl⟩, traced⟩
      · exact ⟨s₁, before, .single ⟨action, rfl⟩, granted claim new grant⟩

omit [Minting] [Folding] [Spelling Binary64] in
theorem five_percent_traced :
    letI : Folding := .ascii
    letI : Spelling Binary64 := .strings Binary64
    letI : Minting := ToolHooks.plainMinting
    ∃ h claim, ToolHooks.init oneProduct = .ok h ∧ claim ∈ ((begun h).act fivePercent).hooks.claims ∧
      ∃ s₀, ReflTransGen Steps (begun h) s₀ ∧ Granted s₀.hooks claim := by
  let _ : Folding := .ascii
  let _ : Spelling Binary64 := .strings Binary64
  let _ : Minting := ToolHooks.plainMinting
  let s₁ := (begun (ToolHooks.shopOf (str "s") (.number (.integer 20)))).act fivePercent
  have built : ToolHooks.init oneProduct = .ok (ToolHooks.shopOf (str "s") (.number (.integer 20))) := rfl
  have one : s₁.hooks.claims.length = 1 := by decide +kernel
  have issued : ∀ claim ∈ s₁.hooks.claims, claim.source = .envelopeRule := by decide +kernel
  obtain ⟨claim, alone⟩ := List.length_eq_one_iff.mp one
  have member : claim ∈ s₁.hooks.claims := alone ▸ List.mem_singleton_self claim
  obtain ⟨s₀, reached, -, granted⟩ := grants_traced built (.single ⟨fivePercent, rfl⟩) member (issued claim member)
  exact ⟨_, claim, built, member, s₀, reached, granted⟩

end Session
end Proxyshop.Hooks
