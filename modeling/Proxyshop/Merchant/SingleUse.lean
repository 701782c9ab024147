import Proxyshop.Merchant.Redemption
import Proxyshop.Merchant.Spellings

/-!
# Single use, counted once

No code is redeemed beyond its limit, under whatever spelling. An order that was judged before is
counted once where it stands among the accepted and is delivered with the code; a refused order is
refused again, under one more event.
-/

namespace Proxyshop.Merchant.RedemptionRegister

open Python Numbers Contracts

variable {F : Type}

/-- What filing keeps: records under their own keys, lists for issued codes, no list beyond its
limit. -/
structure Ordered (r : RedemptionRegister F) : Prop where
  keyed : ∀ key record, Dict.get? r.issued key = some record → record.key = key
  listed : ∀ key record, Dict.get? r.issued key = some record → Dict.contains r.accepted key = true
  known : ∀ key prior, prior ∈ r.acceptedFor key ++ r.refusedFor key →
    ∃ record, Dict.get? r.issued key = some record
  limited : ∀ key record, Dict.get? r.issued key = some record →
    ((r.acceptedFor key).length : Int) ≤ max record.usageLimit 0

theorem Ordered.opened (ledger : List (CodeEvent F)) : Ordered (RedemptionRegister.opened ledger) where
  keyed := fun _ _ found => nomatch found
  listed := fun _ _ found => nomatch found
  known := fun _ _ member => absurd member List.not_mem_nil
  limited := fun _ _ found => nomatch found

/-! ## Issuing -/

section Issuing

theorem getD_setDefault_nil (d : Dict Str (List Redemption)) (k k' : Str) :
    (Dict.get? (Dict.setDefault d k []) k').getD [] = (Dict.get? d k').getD [] := by
  rw [Dict.get?_setDefault]
  split
  · rename_i same
    rw [same]
    rfl
  · rfl

theorem acceptedFor_setDefault (r : RedemptionRegister F) (issued : Dict Str IssuedCode)
    (refused : Dict Str (List Redemption)) (k key : Str) :
    acceptedFor { r with issued, refused, accepted := Dict.setDefault r.accepted k [] } key
      = r.acceptedFor key := getD_setDefault_nil r.accepted k key

theorem refusedFor_setDefault (r : RedemptionRegister F) (issued : Dict Str IssuedCode)
    (accepted : Dict Str (List Redemption)) (k key : Str) :
    refusedFor { r with issued, accepted, refused := Dict.setDefault r.refused k [] } key
      = r.refusedFor key := getD_setDefault_nil r.refused k key

theorem Ordered.issue {r : RedemptionRegister F} (ordered : Ordered r) (issued : IssuedCode) :
    Ordered (r.issue issued).1 := by
  unfold RedemptionRegister.issue
  split
  · rename_i existing found
    split
    · exact ordered
    · refine { keyed := ordered.keyed, listed := ?_, known := ?_, limited := ?_ }
      · intro key record here
        exact Dict.contains_setDefault (ordered.listed key record here) issued.key []
      · intro key prior member
        rw [acceptedFor_setDefault, refusedFor_setDefault] at member
        exact ordered.known key prior member
      · intro key record here
        rw [acceptedFor_setDefault]
        exact ordered.limited key record here
  · rename_i missing
    have now_issued : ∀ key record, Dict.get? (Dict.setDefault r.issued issued.key issued) key = some record →
        Dict.get? r.issued key = some record ∨ key = issued.key ∧ record = issued := by
      intro key record here
      rw [Dict.get?_setDefault, missing] at here
      split at here
      · rename_i same
        exact Or.inr ⟨same, (Option.some.inj here).symm⟩
      · exact Or.inl here
    have nothing : r.acceptedFor issued.key = [] := by
      refine List.eq_nil_iff_forall_not_mem.mpr fun prior member => ?_
      obtain ⟨record, here⟩ := ordered.known issued.key prior (List.mem_append_left _ member)
      rw [missing] at here
      cases here
    refine { keyed := ?_, listed := ?_, known := ?_, limited := ?_ }
    · intro key record here
      rcases now_issued key record here with before | ⟨rfl, rfl⟩
      · exact ordered.keyed key record before
      · rfl
    · intro key record here
      rcases now_issued key record here with before | ⟨rfl, rfl⟩
      · exact Dict.contains_setDefault (ordered.listed key record before) issued.key []
      · exact Dict.contains_setDefault_self r.accepted record.key []
    · intro key prior member
      rw [acceptedFor_setDefault, refusedFor_setDefault] at member
      obtain ⟨record, here⟩ := ordered.known key prior member
      refine ⟨record, ?_⟩
      rw [Dict.get?_setDefault]
      split
      · rename_i same
        rw [same, missing] at here
        cases here
      · exact here
    · intro key record here
      rw [acceptedFor_setDefault]
      rcases now_issued key record here with before | ⟨rfl, rfl⟩
      · exact ordered.limited key record before
      · rw [nothing]
        exact Int.le_max_right _ _

end Issuing

/-! ## Judging -/

section Judging

variable [CodeUnicode]

/-- The order names the code among those it applied, or names none. -/
def Declares (c : Presentation F) : Prop :=
  ∀ codes, declaredCodes c.order = some codes → canonicalCode c.code ∈ codes

def OnFile (r : RedemptionRegister F) (c : Presentation F) : Prop :=
  ∃ ref, orderRef c.order = .ok (some ref) ∧ ∃ prior ∈ r.redemptions c.code, prior.orderRef = some ref

def AlreadyJudged (r : RedemptionRegister F) (c : Presentation F) : Prop :=
  ∃ ref, orderRef c.order = .ok (some ref) ∧
    ∃ prior ∈ r.redemptions c.code ++ r.refusals c.code, prior.orderRef = some ref

inductive Judged (r : RedemptionRegister F) (c : Presentation F) :
    RedemptionRegister F × Except PyError (RedemptionOutcome F) → Prop
  | unread {e : PyError} (unread : orderRef c.order = .error e) : Judged r c (r, .error e)
  | foreign {ref : Option Str} {outcome : RedemptionOutcome F} (read : orderRef c.order = .ok ref)
      (unissued : Dict.get? r.issued (canonicalCode c.code) = none)
      (status : outcome.status = .unrecognised) (silent : outcome.event = none) : Judged r c (r, .ok outcome)
  | repeated {record : IssuedCode} {outcome : RedemptionOutcome F}
      (issued : Dict.get? r.issued (canonicalCode c.code) = some record) (declared : Declares c)
      (filed : OnFile r c) (status : outcome.status = .redeemed) (silent : outcome.event = none) :
      Judged r c (r, .ok outcome)
  | incomparable {record : IssuedCode} {ref : Option Str} {expiry : DateTime} {e : PyError}
      (read : orderRef c.order = .ok ref)
      (issued : Dict.get? r.issued (canonicalCode c.code) = some record) (declared : Declares c)
      (new : ¬ OnFile r c) (room : ((r.redemptions c.code).length : Int) < record.usageLimit)
      (window : record.expiresAt = some expiry) (apart : c.moment.offset.isSome ≠ expiry.offset.isSome) :
      Judged r c (r, .error e)
  | refused {record : IssuedCode} {ref : Option Str} {event : CodeEvent F} {outcome : RedemptionOutcome F}
      (read : orderRef c.order = .ok ref)
      (issued : Dict.get? r.issued (canonicalCode c.code) = some record)
      (kept : Declares c → ¬ OnFile r c)
      (timely : Declares c → ((r.redemptions c.code).length : Int) < record.usageLimit →
        ∀ expiry, record.expiresAt = some expiry → c.moment.offset.isSome = expiry.offset.isSome)
      (status : outcome.status = .refused) (carried : outcome.event = some event)
      (kind : event.kind = str "offer_integrity") :
      Judged r c ({ r with
        refused := Dict.set r.refused (canonicalCode c.code) (r.refusals c.code ++
          [{ key := canonicalCode c.code, orderRef := ref, moment := c.moment }])
        ledger := r.ledger ++ [event] }, .ok outcome)
  | accepted {record : IssuedCode} {ref : Option Str} {outcome : RedemptionOutcome F}
      (read : orderRef c.order = .ok ref)
      (issued : Dict.get? r.issued (canonicalCode c.code) = some record) (declared : Declares c)
      (new : ¬ OnFile r c) (room : ((r.redemptions c.code).length : Int) < record.usageLimit)
      (timely : ∀ expiry, record.expiresAt = some expiry →
        c.moment.offset.isSome = expiry.offset.isSome)
      (status : outcome.status = .redeemed) (silent : outcome.event = none) :
      Judged r c ({ r with
        accepted := Dict.set r.accepted (canonicalCode c.code) (r.redemptions c.code ++
          [{ key := canonicalCode c.code, orderRef := ref, moment := c.moment }]) }, .ok outcome)

omit [CodeUnicode] in
theorem refuse_eq (r : RedemptionRegister F) (record : IssuedCode) (ref : Option Str) (moment : DateTime)
    (fieldName : Str) (promised observed : Wire F) (detail : Str) :
    ∃ event outcome, event.kind = str "offer_integrity" ∧ outcome.status = .refused ∧
      outcome.event = some event ∧
      r.refuse record ref moment fieldName promised observed detail = ({ r with
        refused := Dict.set r.refused record.key
          (r.refusedFor record.key ++ [{ key := record.key, orderRef := ref, moment }])
        ledger := r.ledger ++ [event] }, .ok outcome) := by
  unfold refuse
  dsimp only
  rw [buildEvent_of_published (["bid_ref", "field", "promised", "observed"].map str)]
  · exact ⟨_, _, rfl, rfl, rfl, rfl⟩
  · decide
  · decide
  · decide
  · show ∀ key ∈ _, key ∈ ["bid_ref", "field", "promised", "observed", "code", "offer_id", "order_ref",
      "reason"].map str
    decide

theorem declares_iff (c : Presentation F) :
    Declares c ↔ ¬ ((declaredCodes c.order).any fun codes => canonicalCode c.code ∉ codes) = true := by
  unfold Declares
  cases declaredCodes c.order with
  | none => simp
  | some codes => simp

theorem onFile_iff {r : RedemptionRegister F} {c : Presentation F} {ref : Option Str}
    (read : orderRef c.order = .ok ref) : onFile (r.redemptions c.code) ref = true ↔ OnFile r c := by
  rw [onFile, Bool.and_eq_true, List.any_eq_true]
  constructor
  · rintro ⟨named, prior, filed, same⟩
    obtain ⟨order, rfl⟩ := Option.isSome_iff_exists.mp named
    exact ⟨order, read, prior, filed, of_decide_eq_true same⟩
  · rintro ⟨order, again, prior, filed, same⟩
    obtain rfl := Except.ok.inj (read.symm.trans again)
    exact ⟨rfl, prior, filed, decide_eq_true same⟩

omit [CodeUnicode] in
theorem atOrAfter_eq_ok {t u : DateTime} {later : Bool} (compared : atOrAfter t u = .ok later) :
    t.offset.isSome = u.offset.isSome := by
  unfold atOrAfter at compared
  split at compared
  · assumption
  · cases compared

omit [CodeUnicode] in
theorem atOrAfter_eq_error {t u : DateTime} {e : PyError} (raised : atOrAfter t u = .error e) :
    t.offset.isSome ≠ u.offset.isSome := by
  unfold atOrAfter at raised
  split at raised
  · cases raised
  · assumption

theorem refuse_judged {r : RedemptionRegister F} (ordered : Ordered r) {c : Presentation F}
    {record : IssuedCode} {ref : Option Str} (read : orderRef c.order = .ok ref)
    (issued : Dict.get? r.issued (canonicalCode c.code) = some record)
    (kept : Declares c → ¬ OnFile r c)
    (timely : Declares c → ((r.redemptions c.code).length : Int) < record.usageLimit →
      ∀ expiry, record.expiresAt = some expiry → c.moment.offset.isSome = expiry.offset.isSome)
    (fieldName : Str) (promised observed : Wire F) (detail : Str) :
    Judged r c (r.refuse record ref c.moment fieldName promised observed detail) := by
  obtain ⟨event, outcome, kind, status, carried, made⟩ :=
    r.refuse_eq record ref c.moment fieldName promised observed detail
  rw [made, ordered.keyed _ _ issued]
  exact .refused read issued kept timely status carried kind

theorem judge_judged {r : RedemptionRegister F} (ordered : Ordered r) {c : Presentation F}
    {record : IssuedCode} {ref : Option Str} (read : orderRef c.order = .ok ref)
    (issued : Dict.get? r.issued (canonicalCode c.code) = some record) :
    Judged r c (r.judge record (canonicalCode c.code) ref c) := by
  have listed : ({ r with accepted := Dict.setDefault r.accepted (canonicalCode c.code) [] } :
      RedemptionRegister F) = r := by
    rw [Dict.setDefault_of_contains (ordered.listed _ _ issued)]
  have refused := refuse_judged ordered read issued
  rw [judge, listed]
  split
  · rename_i undeclared
    have absent : ¬ Declares c := fun declared => (declares_iff c).mp declared undeclared
    exact refused (fun declared => absurd declared absent) (fun declared => absurd declared absent) _ _ _ _
  · rename_i named
    have declared := (declares_iff c).mpr named
    split
    · rename_i filed
      exact .repeated issued declared ((onFile_iff read).mp filed) rfl rfl
    · rename_i unfiled
      have new : ¬ OnFile r c := fun filed => unfiled ((onFile_iff read).mpr filed)
      split
      · rename_i exhausted
        exact refused (fun _ => new) (fun _ room => absurd room (not_lt.mpr exhausted)) _ _ _ _
      · rename_i room
        unfold accept
        cases window : record.expiresAt with
        | none => exact .accepted read issued declared new (not_le.mp room) (by simp [window]) rfl rfl
        | some expiry =>
            dsimp only [Option.elim]
            cases compared : atOrAfter c.moment expiry with
            | error e =>
                exact .incomparable read issued declared new (not_le.mp room) window
                  (atOrAfter_eq_error compared)
            | ok late =>
                have timely : ∀ other, record.expiresAt = some other →
                    c.moment.offset.isSome = other.offset.isSome := by
                  intro other found
                  obtain rfl := Option.some.inj (window.symm.trans found)
                  exact atOrAfter_eq_ok compared
                cases late with
                | true => exact refused (fun _ => new) (fun _ _ => timely) _ _ _ _
                | false => exact .accepted read issued declared new (not_le.mp room) timely rfl rfl

theorem redeem_judged {r : RedemptionRegister F} (ordered : Ordered r) (c : Presentation F) :
    Judged r c (r.redeem c) := by
  unfold redeem
  cases read : orderRef c.order with
  | error e => exact .unread read
  | ok ref =>
      dsimp only
      cases issued : Dict.get? r.issued (canonicalCode c.code) with
      | none => exact .foreign read issued rfl rfl
      | some record => exact judge_judged ordered read issued

omit [CodeUnicode] in
theorem getD_set (d : Dict Str (List Redemption)) (k key : Str) (l : List Redemption) :
    (Dict.get? (Dict.set d k l) key).getD [] = if key = k then l else (Dict.get? d key).getD [] := by
  rw [Dict.get?_set]
  split <;> rfl

theorem Ordered.redeem {r : RedemptionRegister F} (ordered : Ordered r) (c : Presentation F) :
    Ordered (r.redeem c).1 := by
  have judged := redeem_judged ordered c
  generalize r.redeem c = answer at judged ⊢
  cases judged with
  | unread => exact ordered
  | foreign => exact ordered
  | repeated => exact ordered
  | incomparable => exact ordered
  | refused read issued =>
      refine { keyed := ordered.keyed, listed := ordered.listed, known := ?_, limited := ordered.limited }
      intro key prior member
      rcases List.mem_append.mp member with accepted | refused
      · exact ordered.known key prior (List.mem_append_left _ accepted)
      · rw [refusedFor, getD_set] at refused
        split at refused
        · rename_i same
          exact ⟨_, same ▸ issued⟩
        · exact ordered.known key prior (List.mem_append_right _ refused)
  | accepted read issued declared new room =>
      refine { keyed := ordered.keyed, listed := ?_, known := ?_, limited := ?_ }
      · intro key record here
        rw [Dict.contains_iff, Dict.keys_set, if_pos (ordered.listed _ _ issued), ← Dict.contains_iff]
        exact ordered.listed key record here
      · intro key prior member
        rcases List.mem_append.mp member with accepted | refused
        · rw [acceptedFor, getD_set] at accepted
          split at accepted
          · rename_i same
            exact ⟨_, same ▸ issued⟩
          · exact ordered.known key prior (List.mem_append_left _ accepted)
        · exact ordered.known key prior (List.mem_append_right _ refused)
      · intro key record here
        rw [acceptedFor, getD_set]
        split
        · rename_i same
          obtain rfl := Option.some.inj ((same ▸ here).symm.trans issued)
          rw [List.length_append, List.length_singleton]
          push_cast
          omega
        · exact ordered.limited key record here

/-- The `offer_integrity` events in the ledger. -/
def integrityEvents (r : RedemptionRegister F) : List (CodeEvent F) :=
  r.ledger.filter fun event => event.kind = str "offer_integrity"

/-- What one call must keep: it returns, no code is accepted beyond its limit, an order judged before
changes neither what is accepted nor the integrity events, each refusal carries the one event that it
adds to the ledger, and a count belongs to all spellings of one code and to no other minted code. -/
structure SingleUse (r : RedemptionRegister F) (c : Presentation F) : Prop where
  returns : ∃ outcome, (r.redeem c).2 = .ok outcome
  limited : ∀ code record, Dict.get? (r.redeem c).1.issued (canonicalCode code) = some record →
    (((r.redeem c).1.redemptions code).length : Int) ≤ max record.usageLimit 0
  lasting : ∀ code, r.redemptions code <+: (r.redeem c).1.redemptions code
  redelivered : AlreadyJudged r c → (∀ code, (r.redeem c).1.redemptions code = r.redemptions code) ∧
    (r.redeem c).1.integrityEvents.length = r.integrityEvents.length
  evented : ∀ outcome, (r.redeem c).2 = .ok outcome →
    if outcome.status = .refused then
      ∃ event, outcome.event = some event ∧ event.kind = str "offer_integrity" ∧
        (r.redeem c).1.ledger = r.ledger ++ [event]
    else outcome.event = none ∧ (r.redeem c).1.ledger = r.ledger
  respelled : ∀ spelling, Respelled c.code spelling → c.code.all isPlain = true →
    (r.redeem { c with code := spelling }).1 = (r.redeem c).1 ∧
    r.redemptions spelling = r.redemptions c.code
  apart : ∀ minted other, isWellFormed minted = true → isWellFormed other = true → minted ≠ other →
    canonicalCode c.code = canonicalCode minted → (r.redeem c).1.redemptions other = r.redemptions other

/-- The order's identifier can be written, an order judged before stands among the accepted and is
delivered with the code, and where the window is looked at, the instant can be compared with it. -/
structure Regular (r : RedemptionRegister F) (c : Presentation F) : Prop where
  readable : ∃ ref, orderRef c.order = .ok ref
  repeats : AlreadyJudged r c → OnFile r c ∧ Declares c
  comparable : ∀ record expiry, Dict.get? r.issued (canonicalCode c.code) = some record →
    record.expiresAt = some expiry → Declares c → ¬ OnFile r c →
    ((r.redemptions c.code).length : Int) < record.usageLimit →
    c.moment.offset.isSome = expiry.offset.isSome

theorem redeem_respelled (r : RedemptionRegister F) (c : Presentation F) {spelling : Str}
    (same : canonicalCode c.code = canonicalCode spelling) :
    (r.redeem { c with code := spelling }).1 = (r.redeem c).1 := by
  unfold redeem
  dsimp only
  rw [same]
  cases orderRef c.order with
  | error e => rfl
  | ok ref =>
      dsimp only
      cases Dict.get? r.issued (canonicalCode spelling) with
      | none => rfl
      | some record =>
          dsimp only
          unfold judge
          rfl

theorem lasting {r : RedemptionRegister F} (ordered : Ordered r) (c : Presentation F) (code : Str) :
    r.redemptions code <+: (r.redeem c).1.redemptions code := by
  have judged := redeem_judged ordered c
  generalize r.redeem c = answer at judged ⊢
  cases judged with
  | unread => exact List.prefix_rfl
  | foreign => exact List.prefix_rfl
  | repeated => exact List.prefix_rfl
  | incomparable => exact List.prefix_rfl
  | refused => exact List.prefix_rfl
  | accepted =>
      rw [redemptions, redemptions, acceptedFor, acceptedFor, getD_set]
      split
      · rename_i same
        rw [same]
        exact List.prefix_append _ _
      · exact List.prefix_rfl

theorem evented {r : RedemptionRegister F} (ordered : Ordered r) (c : Presentation F)
    (outcome : RedemptionOutcome F) (answered : (r.redeem c).2 = .ok outcome) :
    if outcome.status = .refused then
      ∃ event, outcome.event = some event ∧ event.kind = str "offer_integrity" ∧
        (r.redeem c).1.ledger = r.ledger ++ [event]
    else outcome.event = none ∧ (r.redeem c).1.ledger = r.ledger := by
  have judged := redeem_judged ordered c
  generalize r.redeem c = answer at judged answered ⊢
  cases judged with
  | unread => cases answered
  | foreign _ _ status silent =>
      obtain rfl := Except.ok.inj answered
      rw [if_neg (by simp [status])]
      exact ⟨silent, rfl⟩
  | repeated _ _ _ status silent =>
      obtain rfl := Except.ok.inj answered
      rw [if_neg (by simp [status])]
      exact ⟨silent, rfl⟩
  | incomparable => cases answered
  | refused _ _ _ _ status carried kind =>
      obtain rfl := Except.ok.inj answered
      rw [if_pos status]
      exact ⟨_, carried, kind, rfl⟩
  | accepted _ _ _ _ _ _ status silent =>
      obtain rfl := Except.ok.inj answered
      rw [if_neg (by simp [status])]
      exact ⟨silent, rfl⟩

theorem redemptions_other {r : RedemptionRegister F} (ordered : Ordered r) (c : Presentation F) {code : Str}
    (other : canonicalCode code ≠ canonicalCode c.code) :
    (r.redeem c).1.redemptions code = r.redemptions code := by
  have judged := redeem_judged ordered c
  generalize r.redeem c = answer at judged ⊢
  cases judged with
  | unread => rfl
  | foreign => rfl
  | repeated => rfl
  | incomparable => rfl
  | refused => rfl
  | accepted =>
      rw [redemptions, acceptedFor, getD_set, if_neg other]
      rfl

theorem not_alreadyJudged_of_unissued {r : RedemptionRegister F} (ordered : Ordered r)
    {c : Presentation F} (unissued : Dict.get? r.issued (canonicalCode c.code) = none) :
    ¬ AlreadyJudged r c := by
  rintro ⟨ref, -, prior, member, -⟩
  obtain ⟨record, issued⟩ := ordered.known _ prior member
  rw [unissued] at issued
  cases issued

theorem regular_iff {r : RedemptionRegister F} (ordered : Ordered r) (c : Presentation F) :
    (∃ outcome, (r.redeem c).2 = .ok outcome) ∧
      (AlreadyJudged r c → (∀ code, (r.redeem c).1.redemptions code = r.redemptions code) ∧
        (r.redeem c).1.integrityEvents.length = r.integrityEvents.length) ↔ Regular r c := by
  have judged := redeem_judged ordered c
  generalize r.redeem c = answer at judged ⊢
  cases judged with
  | unread unread =>
      constructor
      · rintro ⟨⟨outcome, answered⟩, -⟩
        cases answered
      · rintro ⟨⟨ref, read⟩, -, -⟩
        rw [unread] at read
        cases read
  | foreign read unissued =>
      refine iff_of_true ⟨⟨_, rfl⟩, fun _ => ⟨fun _ => rfl, rfl⟩⟩ ⟨⟨_, read⟩, ?_, ?_⟩
      · exact fun again => absurd again (not_alreadyJudged_of_unissued ordered unissued)
      · intro record expiry issued
        rw [unissued] at issued
        cases issued
  | repeated issued declared filed =>
      refine iff_of_true ⟨⟨_, rfl⟩, fun _ => ⟨fun _ => rfl, rfl⟩⟩ ⟨?_, fun _ => ⟨filed, declared⟩, ?_⟩
      · obtain ⟨ref, read, -⟩ := filed
        exact ⟨_, read⟩
      · exact fun _ _ _ _ _ new => absurd filed new
  | incomparable read issued declared new room window apart =>
      constructor
      · rintro ⟨⟨outcome, answered⟩, -⟩
        cases answered
      · intro regular
        exact absurd (regular.comparable _ _ issued window declared new room) apart
  | @refused record ref event outcome read issued kept timely status carried kind =>
      have counted : integrityEvents { r with
          refused := Dict.set r.refused (canonicalCode c.code) (r.refusals c.code ++
            [{ key := canonicalCode c.code, orderRef := ref, moment := c.moment }])
          ledger := r.ledger ++ [event] } = r.integrityEvents ++ [event] := by
        simp [integrityEvents, kind]
      constructor
      · rintro ⟨-, redelivered⟩
        refine ⟨⟨_, read⟩, fun again => ?_, ?_⟩
        · have same := (redelivered again).2
          rw [counted, List.length_append, List.length_singleton] at same
          omega
        · intro other expiry found window declared _ room
          obtain rfl := Option.some.inj (issued.symm.trans found)
          exact timely declared room expiry window
      · intro regular
        exact ⟨⟨_, rfl⟩, fun again =>
          absurd (regular.repeats again).1 (kept (regular.repeats again).2)⟩
  | @accepted record ref outcome read issued declared new room timely =>
      constructor
      · rintro ⟨-, redelivered⟩
        refine ⟨⟨_, read⟩, fun again => ?_, ?_⟩
        · have same := congrArg List.length ((redelivered again).1 c.code)
          rw [redemptions, acceptedFor, getD_set, if_pos rfl, List.length_append,
            List.length_singleton] at same
          omega
        · intro other expiry found window _ _ _
          obtain rfl := Option.some.inj (issued.symm.trans found)
          exact timely expiry window
      · intro regular
        exact ⟨⟨_, rfl⟩, fun again => absurd (regular.repeats again).1 new⟩

theorem singleUse_iff {r : RedemptionRegister F} (ordered : Ordered r) (c : Presentation F) :
    SingleUse r c ↔ Regular r c := by
  rw [← regular_iff ordered c]
  constructor
  · exact fun single => ⟨single.returns, single.redelivered⟩
  · rintro ⟨returns, redelivered⟩
    refine { returns, redelivered, limited := ?_, lasting := lasting ordered c,
             evented := evented ordered c, respelled := ?_, apart := ?_ }
    · exact fun code record issued => (ordered.redeem c).limited _ record issued
    · intro spelling respelled plain
      have same := canonicalCode_respelled respelled plain
      exact ⟨redeem_respelled r c same, by rw [redemptions, redemptions, same]⟩
    · intro minted other wellFormed wellFormed' different spelled
      apply redemptions_other ordered c
      rw [spelled, canonicalCode_minted wellFormed, canonicalCode_minted wellFormed']
      exact Ne.symm different

theorem Ordered.after {r : RedemptionRegister F} (ordered : Ordered r) (operations : List (Operation F)) :
    Ordered (r.after operations) := by
  induction operations generalizing r with
  | nil => exact ordered
  | cons operation operations ih =>
      cases operation with
      | issue issued => exact ih (ordered.issue issued)
      | redeem c => exact ih (ordered.redeem c)

/-- Along every sequence of issued codes and presentations, each code is used once and counted once
exactly where every presentation is regular. -/
theorem single_use_iff (ledger : List (CodeEvent F)) (operations : List (Operation F)) :
    (∀ earlier c, earlier ++ [.redeem c] <+: operations → SingleUse ((opened ledger).after earlier) c) ↔
      ∀ earlier c, earlier ++ [.redeem c] <+: operations → Regular ((opened ledger).after earlier) c :=
  forall_congr' fun earlier => forall_congr' fun c => forall_congr' fun _ =>
    singleUse_iff ((Ordered.opened ledger).after earlier) c

end Judging

/-! ## A refused order delivered twice -/

section Redelivery

def minted : IssuedCode where
  code := str "PSX-7QK2ZB0M"
  key := str "PSX-7QK2ZB0M"
  storeId := str "store"
  usageLimit := 1
  startsAt := none
  expiresAt := none
  offerId := none
  bidRef := none
  permalinkUrl := []

def presented (order : String) : Presentation ℚ where
  code := str "PSX-7QK2ZB0M"
  order := .object [(str "id", .string (str order))]
  moment := { year := 2026, month := 1, day := 1, hour := 0, minute := 0, second := 0, microsecond := 0,
              offset := some 0, valid := by decide }

def contested [CodeUnicode] : RedemptionRegister ℚ :=
  (opened []).after [.issue minted, .redeem (presented "first"), .redeem (presented "second")]

theorem refusal_counted_twice : letI := CodeUnicode.plain
    ¬ SingleUse contested (presented "second") := by
  let tables : CodeUnicode := CodeUnicode.plain
  intro single
  have filed : ((contested.redemptions (presented "second").code ++
      contested.refusals (presented "second").code).any fun prior =>
        prior.orderRef = some (str "second")) = true := by decide
  obtain ⟨prior, member, named⟩ := List.any_eq_true.mp filed
  have judged : AlreadyJudged contested (presented "second") :=
    ⟨str "second", by with_unfolding_all rfl, prior, member, of_decide_eq_true named⟩
  have counted : (contested.redeem (presented "second")).1.integrityEvents.length
      ≠ contested.integrityEvents.length := by decide
  exact counted (single.redelivered judged).2

end Redelivery

end Proxyshop.Merchant.RedemptionRegister
