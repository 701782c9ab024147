import Proxyshop.Auction.Malformed
import Proxyshop.Numbers.Monotone

/-!
# What a rival can reach

Two collections that agree on the responses of one store, and what a late or a repeated response
changes. The auction that the offers at list price name is the one thing all the answers share.
-/

namespace Proxyshop.Auction.Collect

open Python Numbers Contracts Structures

section Rivals

variable {F : Type} [Format F] [Unicode] {text : Wire F → Str}
  {model : Wire F → Option (List Str)} {truth : Wire F → Str} {clock : DateTime}
  {now : Extended F} {arrivals arrivals' : Arrivals F} {rostered : Rostered F}

/-! ## The auction named -/

omit [Format F] [Unicode] in
theorem agreed_eq_some {named : List (Option Str)} {id : Str} :
    agreed named = some id ↔ some id ∈ named ∧ ∀ other, some other ∈ named → other = id := by
  have members (other : Str) : other ∈ named.reduceOption.dedup ↔ some other ∈ named := by
    rw [List.mem_dedup, List.reduceOption_mem_iff]
  have single : agreed named = some id ↔ named.reduceOption.dedup = [id] := by
    unfold agreed
    split
    · rename_i only listed
      rw [listed, Option.some.injEq, List.singleton_inj]
    · rename_i several
      exact ⟨nofun, fun listed => absurd listed (several id)⟩
  rw [single]
  constructor
  · intro listed
    simp only [← members, listed, List.mem_singleton]
    exact ⟨trivial, fun _ same => same⟩
  · rintro ⟨held, only⟩
    have alone : ∀ other ∈ named.reduceOption.dedup, other = id :=
      fun other member => only other ((members other).mp member)
    have nodup := List.nodup_dedup named.reduceOption
    have held := (members id).mpr held
    generalize named.reduceOption.dedup = listed at alone nodup held
    match listed with
    | [] => cases held
    | [only] => rw [alone only List.mem_cons_self]
    | first :: second :: rest =>
        have same := (alone first List.mem_cons_self).trans
          (alone second (List.mem_cons_of_mem _ List.mem_cons_self)).symm
        rw [same] at nodup
        exact absurd List.mem_cons_self (List.nodup_cons.mp nodup).1

variable (text now) in
def Names (responses : List (Response F)) (id : Str) : Prop :=
  ∃ storeId answer, answerOf now storeId responses = some answer ∧
    namedAuction text answer = .ok (some id)

variable (text now) in
/-- The auction that all the answers on time name, where they name any. -/
def Agreed (responses : List (Response F)) (auctionId : Option Str) : Prop :=
  ∀ id, auctionId = some id ↔
    Names text now responses id ∧ ∀ other, Names text now responses other → other = id

theorem agreed_of_named {responses : List (Response F)} {named : List (Option Str)}
    (walked : responses.foldlM (arrive now) ⟨[], []⟩ = .ok arrivals)
    (read : (Dict.values arrivals.onTime).mapM (namedAuction text) = .ok named) :
    Agreed text now responses (agreed named) := by
  have names (id : Str) : some id ∈ named ↔ Names text now responses id := by
    obtain ⟨back, forth⟩ := mapM_members read
    constructor
    · intro member
      obtain ⟨answer, held, stated⟩ := back _ member
      obtain ⟨storeId, found⟩ := (mem_onTime walked).mp held
      exact ⟨storeId, answer, found, stated⟩
    · rintro ⟨storeId, answer, found, stated⟩
      obtain ⟨other, member, same⟩ := forth answer ((mem_onTime walked).mpr ⟨storeId, found⟩)
      rwa [Except.ok.inj (stated.symm.trans same)]
  intro id
  simp only [agreed_eq_some, names]

/-! ## One row under two collections -/

def readdressed (auctionId : Option Str) : Wire F → Wire F
  | .object members => .object (Dict.set members (str "auction_id") (text? auctionId))
  | bid => bid

/-- The entry with its offer at list price addressed to an auction. -/
def addressed (auctionId : Option Str) (entry : BidEntry F) : BidEntry F :=
  if entry.fallback then { entry with bid := readdressed auctionId entry.bid } else entry

omit [Unicode] in
theorem listPriceBid_readdressed {auctionId auctionId' : Option Str} {bid bid' : Wire F}
    (made : listPriceBid rostered auctionId now = .ok bid)
    (made' : listPriceBid rostered auctionId' now = .ok bid') : bid' = readdressed auctionId' bid := by
  unfold listPriceBid at made made'
  obtain ⟨listed, read, made⟩ := bind_eq_ok.mp made
  obtain ⟨listed', read', made'⟩ := bind_eq_ok.mp made'
  obtain rfl := Except.ok.inj (read.symm.trans read')
  obtain rfl := Except.ok.inj made
  obtain rfl := Except.ok.inj made'
  simp only [readdressed, Dict.set, if_true]

variable [DecidableEq F]

theorem outcome_congr {t : Int}
    (same : Dict.get? arrivals.onTime rostered.storeId = Dict.get? arrivals'.onTime rostered.storeId)
    (same' : Dict.get? arrivals.rejected rostered.storeId =
      Dict.get? arrivals'.rejected rostered.storeId) :
    outcome text model truth clock now arrivals rostered t =
      outcome text model truth clock now arrivals' rostered t := by
  unfold outcome
  rw [same, same']

theorem entryFor_addressed {auctionId auctionId' : Option Str} {entry entry' : BidEntry F}
    (same : Dict.get? arrivals.onTime rostered.storeId = Dict.get? arrivals'.onTime rostered.storeId)
    (same' : Dict.get? arrivals.rejected rostered.storeId =
      Dict.get? arrivals'.rejected rostered.storeId)
    (made : entryFor text model truth clock now arrivals auctionId rostered = .ok entry)
    (made' : entryFor text model truth clock now arrivals' auctionId' rostered = .ok entry') :
    entry' = addressed auctionId' entry := by
  unfold entryFor at made made'
  obtain ⟨t, tier_eq, made⟩ := bind_eq_ok.mp made
  obtain ⟨t', tier_eq', made'⟩ := bind_eq_ok.mp made'
  obtain rfl := Except.ok.inj (tier_eq.symm.trans tier_eq')
  obtain ⟨o, outcome_eq, made⟩ := bind_eq_ok.mp made
  obtain ⟨o', outcome_eq', made'⟩ := bind_eq_ok.mp made'
  rw [← outcome_congr same same'] at outcome_eq'
  obtain rfl := Except.ok.inj (outcome_eq.symm.trans outcome_eq')
  obtain ⟨listPrice, listed, made⟩ := bind_eq_ok.mp made
  obtain ⟨listPrice', listed', made'⟩ := bind_eq_ok.mp made'
  obtain rfl := Except.ok.inj (listed.symm.trans listed')
  cases o with
  | bid answer =>
      obtain rfl := Except.ok.inj (made'.symm.trans made)
      obtain ⟨receivedAt, -, made⟩ := bind_eq_ok.mp made
      obtain ⟨claims, -, made⟩ := bind_eq_ok.mp made
      obtain rfl := Except.ok.inj made
      rfl
  | fallback reason prices boundary =>
      obtain ⟨bid, bid_eq, made⟩ := bind_eq_ok.mp made
      obtain ⟨bid', bid_eq', made'⟩ := bind_eq_ok.mp made'
      obtain rfl := Except.ok.inj made
      obtain rfl := Except.ok.inj made'
      rw [listPriceBid_readdressed bid_eq bid_eq']
      rfl

/-- Two collections that read the same responses of a store give it one entry, save for the auction
that an offer at list price is addressed to. -/
theorem entries_of_store {roster : List (Rostered F)} {storeId : Str}
    (distinct : (roster.map Rostered.storeId).Nodup) {responses responses' : List (Response F)}
    {entries entries' : List (BidEntry F)} (same :
      (responses.filter fun response => response.storeId = some storeId) =
        responses'.filter fun response => response.storeId = some storeId)
    (made : collectBids text model truth clock roster responses now = .ok entries)
    (made' : collectBids text model truth clock roster responses' now = .ok entries') :
    ∃ auctionId, Agreed text now responses' auctionId ∧
      ∀ entry ∈ entries, entry.storeId = storeId → ∀ entry' ∈ entries', entry'.storeId = storeId →
        entry' = addressed auctionId entry := by
  obtain ⟨arrivals, auctionId, walked, made⟩ := collectBids_rows made
  obtain ⟨arrivals', walked', made'⟩ := bind_eq_ok.mp made'
  obtain ⟨named, read, made'⟩ := bind_eq_ok.mp made'
  refine ⟨agreed named, agreed_of_named walked' read, ?_⟩
  intro entry inside own entry' inside' own'
  obtain ⟨rostered, member, entry_eq⟩ := (mapM_members made).1 entry inside
  obtain ⟨rostered', member', entry_eq'⟩ := (mapM_members made').1 entry' inside'
  have stored : rostered.storeId = storeId := (entryFor_cases entry_eq).1.symm.trans own
  have stored' : rostered'.storeId = storeId := (entryFor_cases entry_eq').1.symm.trans own'
  obtain rfl : rostered = rostered' :=
    List.inj_on_of_nodup_map distinct member member' (stored.trans stored'.symm)
  obtain ⟨answered, rejected⟩ := arrivals_get walked rostered.storeId
  obtain ⟨answered', rejected'⟩ := arrivals_get walked' rostered.storeId
  rw [← stored] at same
  apply entryFor_addressed _ _ entry_eq entry_eq'
  · rw [answered, answered', ← answerOf_filter, same, answerOf_filter]
  · unfold rejectionOf at rejected rejected'
    rw [rejected, rejected', same]

/-! ## A late response -/

variable (now) in
def isLate (response : Response F) : Bool :=
  match Wire.toDouble response.receivedAt with
  | .ok arrived => now < arrived
  | .error _ => false

omit [DecidableEq F] in
theorem unusableBecause_late {response : Response F} (late : isLate now response = true) :
    ∃ reason, unusableBecause response now = .ok (some reason) := by
  unfold isLate at late
  cases read : Wire.toDouble response.receivedAt with
  | error e =>
      rw [read] at late
      cases late
  | ok arrived =>
      rw [read] at late
      have after : ¬ arrived ≤ now := Extended.not_le_of_less (of_decide_eq_true late)
      unfold unusableBecause
      split
      · exact ⟨_, rfl⟩
      · split_ifs
        iterate 5 exact ⟨_, rfl⟩
        rw [read]
        exact ⟨_, if_neg after⟩

omit [DecidableEq F] in
theorem arrivals_late {responses : List (Response F)} {arrivals final arrivals' : Arrivals F}
    (same : arrivals'.onTime = arrivals.onTime)
    (walked : responses.foldlM (arrive now) arrivals = .ok final) :
    ∃ final', (responses.filter fun response => !isLate now response).foldlM (arrive now) arrivals' =
      .ok final' ∧ final'.onTime = final.onTime := by
  induction responses generalizing arrivals arrivals' with
  | nil =>
      obtain rfl := Except.ok.inj walked
      exact ⟨arrivals', rfl, same⟩
  | cons response responses ih =>
      rw [List.foldlM_cons] at walked
      obtain ⟨next, step, walked⟩ := bind_eq_ok.mp walked
      by_cases late : isLate now response = true
      · rw [List.filter_cons_of_neg (by rw [late]; decide)]
        apply ih _ walked
        obtain ⟨reason, unusable⟩ := unusableBecause_late late
        unfold arrive at step
        rw [unusable] at step
        cases owner : response.storeId with
        | none =>
            rw [owner] at step
            obtain rfl := Except.ok.inj step
            exact same
        | some storeId =>
            rw [owner] at step
            obtain rfl := Except.ok.inj step
            exact same
      · rw [Bool.not_eq_true] at late
        rw [List.filter_cons_of_pos (by rw [late]; rfl), List.foldlM_cons]
        simp only [bind_eq_ok]
        obtain ⟨next', step', kept⟩ : ∃ next', arrive now arrivals' response = .ok next' ∧
            next'.onTime = next.onTime := by
          unfold arrive at step ⊢
          cases owner : response.storeId with
          | none =>
              rw [owner] at step
              obtain rfl := Except.ok.inj step
              exact ⟨arrivals', rfl, same⟩
          | some storeId =>
              simp only [owner] at step
              obtain ⟨reason, unusable, step⟩ := bind_eq_ok.mp step
              rw [unusable]
              cases reason <;> obtain rfl := Except.ok.inj step
              · refine ⟨_, rfl, ?_⟩
                simp only [same]
              · exact ⟨_, rfl, same⟩
        obtain ⟨final', rest, equal⟩ := ih kept walked
        exact ⟨final', ⟨next', step', rest⟩, equal⟩

theorem entryFor_reason {auctionId : Option Str} {entry : BidEntry F}
    (same : Dict.get? arrivals'.onTime rostered.storeId = Dict.get? arrivals.onTime rostered.storeId)
    (made : entryFor text model truth clock now arrivals auctionId rostered = .ok entry) :
    ∃ entry', entryFor text model truth clock now arrivals' auctionId rostered = .ok entry' ∧
      entry' = { entry with fallbackReason := entry'.fallbackReason } := by
  unfold entryFor at made
  obtain ⟨t, tier_eq, made⟩ := bind_eq_ok.mp made
  obtain ⟨o, outcome_eq, made⟩ := bind_eq_ok.mp made
  have again : outcome text model truth clock now arrivals' rostered t = .ok o ∨
      (∃ reason reason', o = .fallback reason [] [] ∧
        outcome text model truth clock now arrivals' rostered t = .ok (.fallback reason' [] [])) := by
    unfold outcome at outcome_eq ⊢
    rw [same]
    split at outcome_eq
    · rename_i idle
      rw [if_pos idle]
      exact Or.inl outcome_eq
    · rename_i positive
      rw [if_neg positive]
      cases found : Dict.get? arrivals.onTime rostered.storeId with
      | none =>
          rw [found] at outcome_eq
          exact Or.inr ⟨_, _, (Except.ok.inj outcome_eq).symm, rfl⟩
      | some answer =>
          rw [found] at outcome_eq
          exact Or.inl outcome_eq
  obtain ⟨listPrice, listed, made⟩ := bind_eq_ok.mp made
  unfold entryFor
  rcases again with outcome_eq' | ⟨reason, reason', rfl, outcome_eq'⟩
  · refine ⟨entry, ?_, rfl⟩
    exact bind_eq_ok.mpr ⟨t, tier_eq, bind_eq_ok.mpr ⟨o, outcome_eq',
      bind_eq_ok.mpr ⟨listPrice, listed, made⟩⟩⟩
  · obtain ⟨bid, bid_eq, made⟩ := bind_eq_ok.mp made
    obtain rfl := Except.ok.inj made
    refine ⟨_, bind_eq_ok.mpr ⟨t, tier_eq, bind_eq_ok.mpr ⟨_, outcome_eq',
      bind_eq_ok.mpr ⟨listPrice, listed, bind_eq_ok.mpr ⟨bid, bid_eq, rfl⟩⟩⟩⟩, rfl⟩

/-! ## An answer repeated -/

omit [DecidableEq F] in
theorem arrive_repeated {first later : Response F} {responses : List (Response F)} {storeId : Str}
    (held : first ∈ responses) (own : first.storeId = some storeId)
    (own' : later.storeId = some storeId) (good : usable now first = true)
    (good' : usable now later = true)
    (walked : responses.foldlM (arrive now) ⟨[], []⟩ = .ok arrivals) :
    arrive now arrivals later = .ok arrivals := by
  have kept : Dict.contains arrivals.onTime storeId = true := by
    unfold Dict.contains
    rw [(arrivals_get walked storeId).1]
    unfold answerOf
    rw [List.find?_isSome]
    exact ⟨first, held, by simp [own, good]⟩
  unfold usable at good'
  unfold arrive
  simp only [own']
  split at good'
  · rename_i unusable
    rw [unusable]
    show Except.ok { arrivals with onTime := Dict.setDefault arrivals.onTime storeId later } = _
    rw [Dict.setDefault_of_contains kept]
  · cases good'

/-! ## The collections compared -/

/-- The entries without the late responses: no more than the reason of a fallback changes, and that
only where a late response was sent. -/
theorem collectBids_late {roster : List (Rostered F)} {responses : List (Response F)}
    {entries : List (BidEntry F)}
    (made : collectBids text model truth clock roster responses now = .ok entries) :
    ∃ entries', collectBids text model truth clock roster
        (responses.filter fun response => !isLate now response) now = .ok entries' ∧
      List.Forall₂ (fun entry entry' =>
        entry' = { entry with fallbackReason := entry'.fallbackReason } ∧
          ((∀ response ∈ responses, response.storeId = some entry.storeId →
            isLate now response = false) → entry' = entry)) entries entries' := by
  obtain ⟨arrivals, walked, made⟩ := bind_eq_ok.mp made
  obtain ⟨named, read, made⟩ := bind_eq_ok.mp made
  obtain ⟨arrivals', walked', kept⟩ := arrivals_late rfl walked
  rw [← kept] at read
  have rows : ∀ rostered ∈ roster, ∀ entry,
      entryFor text model truth clock now arrivals (agreed named) rostered = .ok entry →
        ∃ entry', entryFor text model truth clock now arrivals' (agreed named) rostered = .ok entry' ∧
          (entry' = { entry with fallbackReason := entry'.fallbackReason } ∧
            ((∀ response ∈ responses, response.storeId = some entry.storeId →
              isLate now response = false) → entry' = entry)) := by
    intro rostered _ entry entry_eq
    have onTime : Dict.get? arrivals'.onTime rostered.storeId =
        Dict.get? arrivals.onTime rostered.storeId := by rw [kept]
    obtain ⟨entry', entry_eq', same⟩ := entryFor_reason onTime entry_eq
    refine ⟨entry', entry_eq', same, fun punctual => ?_⟩
    rw [(entryFor_cases entry_eq).1] at punctual
    have rejected : Dict.get? arrivals'.rejected rostered.storeId =
        Dict.get? arrivals.rejected rostered.storeId := by
      rw [(arrivals_get walked' _).2, (arrivals_get walked _).2]
      unfold rejectionOf
      rw [List.filter_filter]
      congr 1
      apply List.filter_congr
      intro response member
      by_cases own : response.storeId = some rostered.storeId
      · simp [own, punctual response member own]
      · simp [own]
    unfold entryFor at entry_eq entry_eq'
    simp only [outcome_congr onTime rejected] at entry_eq'
    exact Except.ok.inj (entry_eq'.symm.trans entry_eq)
  obtain ⟨entries', made', related⟩ := mapM_related rows made
  exact ⟨entries', bind_eq_ok.mpr ⟨arrivals', walked', bind_eq_ok.mpr ⟨named, read, made'⟩⟩, related⟩

theorem collectBids_repeated (roster : List (Rostered F)) {before between after : List (Response F)}
    {first later : Response F} {storeId : Str} (own : first.storeId = some storeId)
    (own' : later.storeId = some storeId) (good : usable now first = true)
    (good' : usable now later = true) :
    collectBids text model truth clock roster (before ++ first :: between ++ later :: after) now =
      collectBids text model truth clock roster (before ++ first :: between ++ after) now := by
  have grouped : (before ++ first :: between ++ later :: after).foldlM (arrive now) ⟨[], []⟩ =
      (before ++ first :: between ++ after).foldlM (arrive now) ⟨[], []⟩ := by
    have split (rest : List (Response F)) :
        (before ++ first :: between ++ rest).foldlM (arrive now) ⟨[], []⟩ =
          (before ++ first :: between).foldlM (arrive now) ⟨[], []⟩ >>= rest.foldlM (arrive now) :=
      List.foldlM_append
    rw [split, split]
    cases walked : (before ++ first :: between).foldlM (arrive now) ⟨[], []⟩ with
    | error e => rfl
    | ok arrivals =>
        have held : first ∈ before ++ first :: between :=
          List.mem_append_right _ List.mem_cons_self
        show (later :: after).foldlM (arrive now) arrivals = after.foldlM (arrive now) arrivals
        rw [List.foldlM_cons, arrive_repeated held own own' good good' walked]
        rfl
  unfold collectBids
  rw [grouped]

/-- Rivals reach no more of an entry than the auction its offer at list price names, late responses no
more than the reason of a fallback, and repeated answers nothing. -/
theorem collectBids_separate (text : Wire F → Str) (model : Wire F → Option (List Str))
    (truth : Wire F → Str) (clock : DateTime) (roster : List (Rostered F)) (now : Extended F)
    (distinct : (roster.map Rostered.storeId).Nodup) :
    (∀ storeId responses responses' entries entries',
      (responses.filter fun response => response.storeId = some storeId) =
        (responses'.filter fun response => response.storeId = some storeId) →
      collectBids text model truth clock roster responses now = .ok entries →
      collectBids text model truth clock roster responses' now = .ok entries' →
        ∃ auctionId, Agreed text now responses' auctionId ∧
          ∀ entry ∈ entries, entry.storeId = storeId →
            ∀ entry' ∈ entries', entry'.storeId = storeId → entry' = addressed auctionId entry) ∧
    (∀ responses entries, collectBids text model truth clock roster responses now = .ok entries →
      ∃ entries', collectBids text model truth clock roster
          (responses.filter fun response => !isLate now response) now = .ok entries' ∧
        List.Forall₂ (fun entry entry' =>
          entry' = { entry with fallbackReason := entry'.fallbackReason } ∧
            ((∀ response ∈ responses, response.storeId = some entry.storeId →
              isLate now response = false) → entry' = entry)) entries entries') ∧
    ∀ before between after first later storeId, first.storeId = some storeId →
      later.storeId = some storeId → usable now first = true → usable now later = true →
        collectBids text model truth clock roster (before ++ first :: between ++ later :: after) now =
          collectBids text model truth clock roster (before ++ first :: between ++ after) now :=
  ⟨fun _ _ _ _ _ same made made' => entries_of_store distinct same made made',
    fun _ _ made => collectBids_late made,
    fun _ _ _ _ _ _ own own' good good' => collectBids_repeated roster own own' good good'⟩

end Rivals

/-! ## A rival that names the auction -/

def rivalAnswer : Response Binary64 :=
  { answering (.object [(str "auction_id", .string (str "auction-1"))]) with
    storeId := some (str "store-2") }

/-- The stores of the entries, with whether their bids name no auction. -/
def unnamed [Unicode] (responses : List (Response Binary64)) : Option (List (Str × Bool)) :=
  (collectBids (fun _ => []) (fun _ => some []) (fun _ => []) epoch [listedRow] responses
    (.finite hundred)).toOption.map fun entries =>
      entries.map fun entry => (entry.storeId, (entry.bid.get (str "auction_id")).isNull)

theorem unnamed_eq_single [Unicode] {responses : List (Response Binary64)} {storeId : Str} {b : Bool}
    (read : unnamed responses = some [(storeId, b)]) :
    ∃ entry, collectBids (fun _ => []) (fun _ => some []) (fun _ => []) epoch [listedRow] responses
        (.finite hundred) = .ok [entry] ∧
      entry.storeId = storeId ∧ (entry.bid.get (str "auction_id")).isNull = b := by
  obtain ⟨entry, made, own⟩ := single_of_read read
  exact ⟨entry, made, (Prod.mk.inj own).1, (Prod.mk.inj own).2⟩

/-- The offer at list price of a silent store names the auction that a rival names. -/
theorem rivalAnswer_names_auction : letI := Unicode.ascii
    ([rivalAnswer].filter fun response => response.storeId = some (str "store-1")) = [] ∧
      ∃ entry entry', collectBids (fun _ => []) (fun _ => some []) (fun _ => []) epoch [listedRow] []
          (.finite hundred) = .ok [entry] ∧
        collectBids (fun _ => []) (fun _ => some []) (fun _ => []) epoch [listedRow] [rivalAnswer]
          (.finite hundred) = .ok [entry'] ∧
        entry.storeId = str "store-1" ∧ entry'.storeId = str "store-1" ∧ entry' ≠ entry := by
  let _ := Unicode.ascii
  obtain ⟨entry, made, own, silent⟩ := unnamed_eq_single
    (by decide +kernel : unnamed [] = some [(str "store-1", true)])
  obtain ⟨entry', made', own', named⟩ := unnamed_eq_single
    (by decide +kernel : unnamed [rivalAnswer] = some [(str "store-1", false)])
  refine ⟨rfl, entry, entry', made, made', own, own', ?_⟩
  rintro rfl
  rw [silent] at named
  cases named

/-- The answer of a rival beside the bid of a store. -/
theorem pricedBid_untouched : letI := Unicode.ascii
    let priced := answering (pricedBid (.number (.integer 100)))
    ([listedRow].map Rostered.storeId).Nodup ∧
      ∃ entry entry' auctionId,
        collectBids (fun _ => []) (fun _ => some []) (fun _ => []) epoch [listedRow] [priced]
          (.finite hundred) = .ok [entry] ∧
        collectBids (fun _ => []) (fun _ => some []) (fun _ => []) epoch [listedRow]
          [rivalAnswer, priced] (.finite hundred) = .ok [entry'] ∧
        Agreed (fun _ => []) (.finite hundred) [rivalAnswer, priced] auctionId ∧
        entry' = addressed auctionId entry := by
  let _ := Unicode.ascii
  obtain ⟨entry, made, own, -⟩ := unnamed_eq_single
    (by decide +kernel : unnamed [answering (pricedBid (.number (.integer 100)))] =
      some [(str "store-1", true)])
  obtain ⟨entry', made', own', -⟩ := unnamed_eq_single
    (by decide +kernel : unnamed [rivalAnswer, answering (pricedBid (.number (.integer 100)))] =
      some [(str "store-1", true)])
  have distinct : ([listedRow].map Rostered.storeId).Nodup := List.nodup_singleton _
  have apart := List.filter_cons_of_neg (a := rivalAnswer)
    (l := [answering (pricedBid (.number (.integer 100)))])
    (p := fun response => decide (response.storeId = some (str "store-1"))) (by decide)
  obtain ⟨auctionId, agrees, same⟩ := (collectBids_separate (fun _ => []) (fun _ => some [])
    (fun _ => []) epoch [listedRow] (.finite hundred) distinct).1 (str "store-1")
      [answering (pricedBid (.number (.integer 100)))]
      [rivalAnswer, answering (pricedBid (.number (.integer 100)))] _ _
      apart.symm made made'
  exact ⟨distinct, entry, entry', auctionId, made, made', agrees,
    same entry List.mem_cons_self own entry' List.mem_cons_self own'⟩

end Proxyshop.Auction.Collect
