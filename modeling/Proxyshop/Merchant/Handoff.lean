import Proxyshop.Merchant.Webhooks
import Proxyshop.Structures.Fallible

/-!
# What an acknowledgement promises

A delivery is acknowledged where the sink has accepted its body, and the inbox is the window of the
bodies that the sink accepted last. A failed delivery is undone only where recording it had evicted
nothing.
-/

namespace Proxyshop.Merchant

open Python Numbers Contracts Hashing

/-! ## Eviction -/

section Eviction

variable {A : Type}

/-- The last `n` entries. -/
def latest (n : Nat) (l : List A) : List A := l.drop (l.length - n)

theorem evictOldest_eq (capacity : Nat) (l : List A) : evictOldest capacity l = latest capacity l := by
  unfold latest
  induction l with
  | nil => simp [evictOldest]
  | cons x rest ih =>
      rw [evictOldest, List.length_cons]
      split
      · rename_i full
        rw [ih, show rest.length + 1 - capacity = rest.length - capacity + 1 by omega, List.drop_succ_cons]
      · rename_i room
        rw [show rest.length + 1 - capacity = 0 by omega, List.drop_zero]

theorem latest_of_le {n : Nat} {l : List A} (short : l.length ≤ n) : latest n l = l := by
  rw [latest, Nat.sub_eq_zero_of_le short, List.drop_zero]

theorem length_latest_le (n : Nat) (l : List A) : (latest n l).length ≤ n := by
  rw [latest, List.length_drop]
  omega

theorem latest_append_singleton (n : Nat) (l : List A) (x : A) :
    latest n (latest n l ++ [x]) = latest n (l ++ [x]) := by
  by_cases short : l.length ≤ n
  · rw [latest_of_le short]
  · have long : (latest n l).length = n := by rw [latest, List.length_drop]; omega
    have split : latest n l ++ [x] = (l ++ [x]).drop (l.length - n) := by
      rw [latest, List.drop_append_of_le_length (by omega)]
    have shifted : (l ++ [x]).length - n = l.length - n + 1 := by simp; omega
    rw [latest, List.length_append, long, List.length_singleton, Nat.add_sub_cancel_left, split,
      List.drop_drop, latest, shifted]

theorem latest_append_of_lt {n : Nat} {l : List A} (room : l.length < n) (x : A) :
    latest n (l ++ [x]) = l ++ [x] := by
  apply latest_of_le
  simp
  omega

theorem latest_append_of_le {n : Nat} {l : List A} (positive : 1 ≤ n) (bounded : l.length ≤ n)
    (full : ¬ l.length < n) (x : A) : latest n (l ++ [x]) = l.drop 1 ++ [x] := by
  rw [latest, List.length_append, List.length_singleton,
    show l.length + 1 - n = 1 by omega, List.drop_append_of_le_length (by omega)]

theorem latest_map {B : Type} (f : A → B) (n : Nat) (l : List A) :
    latest n (l.map f) = (latest n l).map f := by
  rw [latest, latest, List.length_map, List.map_drop]

end Eviction

section Undoing

variable {F : Type}

theorem withoutLast_append (l : List (Held F)) (held : Held F) :
    withoutLast held.object (l ++ [held]) = some l := by
  induction l with
  | nil => simp [withoutLast]
  | cons other l ih => rw [List.cons_append, withoutLast, ih]

structure Bounded (inbox : WebhookInbox F) : Prop where
  positive : 1 ≤ inbox.capacity
  larger : inbox.capacity ≤ inbox.seenCapacity
  events : inbox.events.length ≤ inbox.capacity
  seen : inbox.seen.length ≤ inbox.seenCapacity

def HasRoom (inbox : WebhookInbox F) : Prop :=
  inbox.events.length < inbox.capacity ∧ inbox.seen.length < inbox.seenCapacity

theorem Bounded.empty (capacity seenCapacity : Nat) :
    Bounded (WebhookInbox.empty capacity seenCapacity : WebhookInbox F) where
  positive := Nat.le_max_left 1 capacity
  larger := Nat.le_max_right _ _
  events := Nat.zero_le _
  seen := Nat.zero_le _

theorem pushed_eq (inbox : WebhookInbox F) (bounded : Bounded inbox) (held : Held F) :
    pushed inbox held = latest inbox.capacity (inbox.events ++ [held]) := by
  unfold pushed
  have short := bounded.events
  have positive := bounded.positive
  by_cases room : inbox.events.length < inbox.capacity
  · rw [latest_append_of_lt room, if_neg (by simp; omega)]
  · rw [latest_append_of_le positive short room, if_pos (by simp; omega),
      List.drop_append_of_le_length (by omega)]

theorem record_fresh {inbox : WebhookInbox F} (bounded : Bounded inbox) {held : Held F}
    (named : held.event.bodyDigest ≠ []) (fresh : held.event.bodyDigest ∉ Dict.keys inbox.seen) :
    inbox.record held =
      ({ inbox with
          seen := latest inbox.seenCapacity
            (inbox.seen ++ [(held.event.bodyDigest, held.event.topic)])
          events := latest inbox.capacity (inbox.events ++ [held]) }, true) := by
  have absent : Dict.contains inbox.seen held.event.bodyDigest ≠ true := by
    rw [ne_eq, Dict.contains_iff]
    exact fresh
  have some_digest : held.event.bodyDigest.isEmpty ≠ true := by simpa using named
  rw [WebhookInbox.record, if_neg some_digest, if_neg absent, evictOldest_eq,
    Dict.set_of_not_mem fresh, pushed_eq inbox bounded]

theorem record_seen {inbox : WebhookInbox F} {held : Held F}
    (named : held.event.bodyDigest ≠ []) (seen : held.event.bodyDigest ∈ Dict.keys inbox.seen) :
    inbox.record held = (inbox, false) := by
  have present : Dict.contains inbox.seen held.event.bodyDigest = true :=
    (Dict.contains_iff _ _).mpr seen
  have some_digest : held.event.bodyDigest.isEmpty ≠ true := by simpa using named
  rw [WebhookInbox.record, if_neg some_digest, if_pos present]

theorem Bounded.record {inbox : WebhookInbox F} (bounded : Bounded inbox) (held : Held F)
    (named : held.event.bodyDigest ≠ []) : Bounded (inbox.record held).1 := by
  by_cases seen : held.event.bodyDigest ∈ Dict.keys inbox.seen
  · rw [record_seen named seen]
    exact bounded
  · rw [record_fresh bounded named seen]
    exact { positive := bounded.positive, larger := bounded.larger,
            events := length_latest_le _ _, seen := length_latest_le _ _ }

theorem forget_record {inbox : WebhookInbox F} (bounded : Bounded inbox) {held : Held F}
    (named : held.event.bodyDigest ≠ []) (fresh : held.event.bodyDigest ∉ Dict.keys inbox.seen) :
    (inbox.record held).1.forget held =
      { inbox with
        seen := if inbox.seen.length < inbox.seenCapacity then inbox.seen else inbox.seen.drop 1
        events := if inbox.events.length < inbox.capacity then inbox.events
          else inbox.events.drop 1 } := by
  have some_digest : held.event.bodyDigest.isEmpty ≠ true := by simpa using named
  have positive : 1 ≤ inbox.seenCapacity := bounded.positive.trans bounded.larger
  have events : latest inbox.capacity (inbox.events ++ [held])
      = (if inbox.events.length < inbox.capacity then inbox.events else inbox.events.drop 1)
        ++ [held] := by
    split
    · rename_i room
      exact latest_append_of_lt room held
    · rename_i full
      exact latest_append_of_le bounded.positive bounded.events full held
  have seen : Dict.erase (latest inbox.seenCapacity
        (inbox.seen ++ [(held.event.bodyDigest, held.event.topic)])) held.event.bodyDigest
      = if inbox.seen.length < inbox.seenCapacity then inbox.seen else inbox.seen.drop 1 := by
    split
    · rename_i room
      rw [latest_append_of_lt room]
      exact Dict.erase_append_singleton fresh _
    · rename_i full
      rw [latest_append_of_le positive bounded.seen full]
      exact Dict.erase_append_singleton
        (fun member => fresh (((List.drop_sublist 1 _).map Prod.fst).subset member)) _
  rw [record_fresh bounded named fresh, WebhookInbox.forget, events, withoutLast_append]
  simp only [some_digest, if_false, seen, Bool.false_eq_true]

theorem drop_one_eq_iff {A : Type} (l : List A) : l.drop 1 = l ↔ l = [] := by
  cases l with
  | nil => simp
  | cons x l => simp

theorem forget_record_iff {inbox : WebhookInbox F} (bounded : Bounded inbox) {held : Held F}
    (named : held.event.bodyDigest ≠ []) (fresh : held.event.bodyDigest ∉ Dict.keys inbox.seen) :
    (inbox.record held).1.forget held = inbox ↔ HasRoom inbox := by
  have positive := bounded.positive
  have larger := bounded.larger
  have full {A : Type} {n : Nat} {l : List A} (some_place : 1 ≤ n) (room : ¬ l.length < n) :
      l.drop 1 ≠ l := by
    rw [ne_eq, drop_one_eq_iff]
    rintro rfl
    exact room some_place
  rw [forget_record bounded named fresh]
  constructor
  · intro undone
    have events := congrArg WebhookInbox.events undone
    have seen := congrArg WebhookInbox.seen undone
    refine ⟨by_contra fun room => ?_, by_contra fun room => ?_⟩
    · rw [if_neg room] at events
      exact full positive room events
    · rw [if_neg room] at seen
      exact full (positive.trans larger) room seen
  · intro room
    rw [if_pos room.1, if_pos room.2]

end Undoing

/-! ## The window -/

section Windows

variable {F : Type} [Unicode] [BodyReader F]

omit [BodyReader F] [Unicode] in
theorem deliveryDigest_ne_nil (body : List UInt8) : deliveryDigest body ≠ [] := sha256Hex_ne_nil body

omit [BodyReader F] in
theorem deliveryTopic_eq_error {d : Delivery} {decision : WebhookDecision F}
    (refused : deliveryTopic d = .error decision) : decision.accepted = false := by
  unfold deliveryTopic at refused
  split at refused
  · obtain rfl := Except.error.inj refused
    rfl
  · dsimp only at refused
    split at refused
    · obtain rfl := Except.error.inj refused
      rfl
    · split at refused
      · obtain rfl := Except.error.inj refused
        rfl
      · nomatch refused

omit [BodyReader F] [Unicode] in
theorem sign_ne_nil (body : List UInt8) (secret : Str) : sign body secret ≠ [] := by
  have bytes : hmacSha256 (signatureBytes secret) body ≠ [] :=
    List.ne_nil_of_length_pos (by rw [hmacSha256, sha256_length]; decide)
  rw [sign]
  generalize hmacSha256 (signatureBytes secret) body = digest at bytes
  match digest, bytes with
  | [_], _ | [_, _], _ | _ :: _ :: _ :: _, _ => simp [base64]

theorem authenticate_signed {d : Delivery} (named : ∃ topic, deliveryTopic (F := F) d = .ok topic)
    (signed : headerOf (lowered d.headers) headerHmac = some (sign d.body d.secret)) (keyed : d.secret ≠ [])
    (parsed : ∃ payload, BodyReader.loads (F := F) d.body = some (.object payload)) :
    ∃ event, authenticate (F := F) d = .ok event := by
  obtain ⟨topic, named⟩ := named
  obtain ⟨payload, parsed⟩ := parsed
  have verified : verifySignature d.body d.secret (some (sign d.body d.secret)) = true := by
    simp [verifySignature, secureEquals, sign_ne_nil, keyed]
  unfold authenticate
  simp only [named, signed, verified, parsed]
  exact ⟨_, rfl⟩

theorem authenticate_eq_ok {d : Delivery} {event : ReceivedWebhook F}
    (authenticated : authenticate d = .ok event) :
    event.bodyDigest = deliveryDigest d.body ∧
    verifySignature d.body d.secret (headerOf (lowered d.headers) headerHmac) = true := by
  unfold authenticate at authenticated
  obtain ⟨topic, -, authenticated⟩ := Structures.bind_eq_ok.mp authenticated
  dsimp only at authenticated
  split at authenticated
  · nomatch authenticated
  · rename_i signed
    split at authenticated
    · obtain rfl := Except.ok.inj authenticated
      exact ⟨rfl, not_not.mp signed⟩
    · nomatch authenticated

theorem authenticate_eq_error {d : Delivery} {decision : WebhookDecision F}
    (refused : authenticate d = .error decision) : decision.accepted = false := by
  unfold authenticate at refused
  cases judged : deliveryTopic (F := F) d with
  | error other =>
      simp only [judged, bind, Except.bind] at refused
      obtain rfl := Except.error.inj refused
      exact deliveryTopic_eq_error judged
  | ok topic =>
      simp only [judged, bind, Except.bind] at refused
      split at refused
      · obtain rfl := Except.error.inj refused
        rfl
      · split at refused
        · nomatch refused
        · obtain rfl := Except.error.inj refused
          rfl

inductive Handled (r : Receiver F) (d : Delivery) : Receiver F × WebhookDecision F → Prop
  | refused {decision : WebhookDecision F} (unaccepted : decision.accepted = false)
      (unreached : ¬ Reaches r d) : Handled r d (r, decision)
  | duplicate {decision : WebhookDecision F} (seen : deliveryDigest d.body ∈ Dict.keys r.inbox.seen)
      (unreached : ¬ Reaches r d) : Handled r d ({ r with objects := r.objects + 1 }, decision)
  | failed {decision : WebhookDecision F} {held : Held F} (unaccepted : decision.accepted = false)
      (fresh : deliveryDigest d.body ∉ Dict.keys r.inbox.seen)
      (known : held.event.bodyDigest = deliveryDigest d.body) (reached : Reaches r d)
      (raised : d.sinkRaises = true) :
      Handled r d ({ r with inbox := (r.inbox.record held).1.forget held, objects := r.objects + 1 },
        decision)
  | recorded {decision : WebhookDecision F} {held : Held F}
      (fresh : deliveryDigest d.body ∉ Dict.keys r.inbox.seen)
      (known : held.event.bodyDigest = deliveryDigest d.body) (took : ¬ d.sinkRaises = true) :
      Handled r d ({ inbox := (r.inbox.record held).1
                     accepted := r.accepted ++ [{ body := d.body, event := held.event }]
                     objects := r.objects + 1 }, decision)

theorem handleDelivery_handled (r : Receiver F) (bounded : Bounded r.inbox) (d : Delivery) :
    Handled r d (handleDelivery r d) := by
  unfold handleDelivery
  split
  · rename_i decision refused
    refine .refused (authenticate_eq_error refused) ?_
    rintro ⟨event, authenticated, -⟩
    rw [authenticated] at refused
    nomatch refused
  · rename_i event authenticated
    have known := (authenticate_eq_ok authenticated).1
    have named : event.bodyDigest ≠ [] := known ▸ deliveryDigest_ne_nil d.body
    dsimp only
    by_cases seen : event.bodyDigest ∈ Dict.keys r.inbox.seen
    · rw [record_seen (show (⟨r.objects, event⟩ : Held F).event.bodyDigest ≠ [] from named) seen]
      refine .duplicate (known ▸ seen) ?_
      rintro ⟨other, again, reached⟩
      obtain rfl := Except.ok.inj (again.symm.trans authenticated)
      rw [record_seen (show (⟨r.objects, other⟩ : Held F).event.bodyDigest ≠ [] from named) seen] at reached
      nomatch reached
    · have recorded := record_fresh bounded (show (⟨r.objects, event⟩ : Held F).event.bodyDigest ≠ [] from named)
        seen
      have reached : (r.inbox.record { object := r.objects, event }).2 = true := by rw [recorded]
      rw [← Prod.mk.eta (p := r.inbox.record _)]
      simp only [reached, if_true]
      split
      · rename_i raised
        exact .failed rfl (known ▸ seen) known ⟨event, authenticated, reached⟩ raised
      · rename_i took
        exact @Handled.recorded F _ _ r d _ ⟨r.objects, event⟩ (known ▸ seen) known took

/-- The entry that the seen set keeps of a body the sink accepted. -/
def Accepted.entry (a : Accepted F) : Str × Str := (deliveryDigest a.body, a.event.topic)

/-- The seen set is the window of the bodies that the sink accepted last. -/
structure Window (delivered : List Delivery) (r : Receiver F) : Prop where
  bounded : Bounded r.inbox
  seen : r.inbox.seen = latest r.inbox.seenCapacity (r.accepted.map Accepted.entry)
  distinct : (Dict.keys r.inbox.seen).Nodup
  bodies : ∀ a ∈ r.accepted, ∃ d ∈ delivered, d.body = a.body

/-- What one delivery must keep: a body is acknowledged where the sink has it, the last bodies that
the sink took differ and are bound to the topic they were recorded under, and a delivery on which the
sink raises leaves the inbox as it was. -/
structure AcksOnce (r : Receiver F) (d : Delivery) : Prop where
  acked : (handleDelivery r d).2.accepted = true → ∃ a ∈ (handleDelivery r d).1.accepted, a.body = d.body
  once : ((latest (handleDelivery r d).1.inbox.seenCapacity (handleDelivery r d).1.accepted).map
    Accepted.body).Nodup
  bound : ∀ a ∈ latest (handleDelivery r d).1.inbox.seenCapacity (handleDelivery r d).1.accepted,
    boundTopic (handleDelivery r d).1.inbox (deliveryDigest a.body) = some a.event.topic
  undone : Reaches r d → d.sinkRaises = true → (handleDelivery r d).1.inbox = r.inbox

omit [Unicode] [BodyReader F] in
theorem Window.keys_eq {delivered : List Delivery} {r : Receiver F} (window : Window delivered r) :
    Dict.keys r.inbox.seen
      = (latest r.inbox.seenCapacity r.accepted).map fun a => deliveryDigest a.body := by
  rw [window.seen, latest_map, Dict.keys, List.map_map]
  rfl

omit [Unicode] [BodyReader F] in
theorem Window.once {delivered : List Delivery} {r : Receiver F} (window : Window delivered r) :
    ((latest r.inbox.seenCapacity r.accepted).map Accepted.body).Nodup := by
  have digests := window.distinct
  rw [window.keys_eq] at digests
  exact List.Nodup.of_map deliveryDigest (by rwa [List.map_map])

omit [Unicode] [BodyReader F] in
theorem Window.bound {delivered : List Delivery} {r : Receiver F} (window : Window delivered r)
    {a : Accepted F} (kept : a ∈ latest r.inbox.seenCapacity r.accepted) :
    boundTopic r.inbox (deliveryDigest a.body) = some a.event.topic := by
  have entry : (deliveryDigest a.body, a.event.topic) ∈ r.inbox.seen := by
    rw [window.seen, latest_map]
    exact List.mem_map_of_mem (f := Accepted.entry) kept
  have named : (deliveryDigest a.body).isEmpty ≠ true := by simpa using deliveryDigest_ne_nil a.body
  rw [boundTopic, if_neg named]
  exact Dict.get?_of_mem window.distinct entry

omit [Unicode] [BodyReader F] in
theorem Window.taken {delivered : List Delivery} {r : Receiver F} (window : Window delivered r)
    {body : List UInt8} (seen : deliveryDigest body ∈ Dict.keys r.inbox.seen) :
    ∃ a ∈ r.accepted, deliveryDigest a.body = deliveryDigest body := by
  rw [window.keys_eq] at seen
  obtain ⟨a, kept, same⟩ := List.mem_map.mp seen
  exact ⟨a, List.mem_of_mem_drop kept, same⟩

omit [Unicode] [BodyReader F] in
theorem Window.recorded {delivered : List Delivery} {r : Receiver F} (window : Window delivered r)
    {d : Delivery} {held : Held F} (fresh : deliveryDigest d.body ∉ Dict.keys r.inbox.seen)
    (known : held.event.bodyDigest = deliveryDigest d.body) :
    Window (delivered ++ [d])
      { inbox := (r.inbox.record held).1
        accepted := r.accepted ++ [{ body := d.body, event := held.event }]
        objects := r.objects + 1 } := by
  have named : held.event.bodyDigest ≠ [] := known ▸ deliveryDigest_ne_nil d.body
  have new : held.event.bodyDigest ∉ Dict.keys r.inbox.seen := known ▸ fresh
  have inbox := record_fresh window.bounded named new
  refine { bounded := window.bounded.record held named, seen := ?_, distinct := ?_, bodies := ?_ }
  · have entry : (held.event.bodyDigest, held.event.topic)
        = Accepted.entry { body := d.body, event := held.event } := by rw [known]; rfl
    rw [inbox, List.map_append, entry]
    show latest _ (r.inbox.seen ++ [_]) = latest _ (r.accepted.map Accepted.entry ++ [_])
    rw [window.seen, latest_append_singleton]
  · rw [inbox]
    have all : (Dict.keys (r.inbox.seen ++ [(held.event.bodyDigest, held.event.topic)])).Nodup := by
      rw [← Dict.set_of_not_mem new]
      exact Dict.nodup_keys_set window.distinct _ _
    exact all.sublist ((List.drop_sublist _ _).map Prod.fst)
  · intro a member
    rcases List.mem_append.mp member with earlier | last
    · obtain ⟨sent, delivered, same⟩ := window.bodies a earlier
      exact ⟨sent, List.mem_append_left _ delivered, same⟩
    · obtain rfl := List.mem_singleton.mp last
      exact ⟨d, List.mem_append_right _ (List.mem_singleton_self d), rfl⟩

omit [Unicode] [BodyReader F] in
theorem Window.later {delivered : List Delivery} {r : Receiver F} (window : Window delivered r)
    (d : Delivery) (objects : Nat) : Window (delivered ++ [d]) { r with objects } where
  bounded := window.bounded
  seen := window.seen
  distinct := window.distinct
  bodies := fun a member =>
    let ⟨sent, earlier, same⟩ := window.bodies a member
    ⟨sent, List.mem_append_left _ earlier, same⟩

def Collisionless (deliveries : List Delivery) : Prop :=
  ∀ d ∈ deliveries, ∀ d' ∈ deliveries, deliveryDigest d.body = deliveryDigest d'.body → d.body = d'.body

theorem Window.step {delivered : List Delivery} {r : Receiver F} (window : Window delivered r)
    {d : Delivery} (collisionless : Collisionless (delivered ++ [d]))
    (room : Reaches r d → d.sinkRaises = true → HasRoom r.inbox) :
    Window (delivered ++ [d]) (handleDelivery r d).1 ∧ AcksOnce r d := by
  have handled := handleDelivery_handled r window.bounded d
  have finish (after : Window (delivered ++ [d]) (handleDelivery r d).1)
      (acked : (handleDelivery r d).2.accepted = true →
        ∃ a ∈ (handleDelivery r d).1.accepted, a.body = d.body)
      (undone : Reaches r d → d.sinkRaises = true → (handleDelivery r d).1.inbox = r.inbox) :
      Window (delivered ++ [d]) (handleDelivery r d).1 ∧ AcksOnce r d :=
    ⟨after, { acked, once := after.once, bound := fun a kept => after.bound kept, undone }⟩
  generalize handleDelivery r d = outcome at handled finish ⊢
  have here : d ∈ delivered ++ [d] := List.mem_append_right _ (List.mem_singleton_self d)
  cases handled with
  | refused unaccepted unreached =>
      refine finish (window.later d r.objects) ?_ fun reached => absurd reached unreached
      intro accepted
      rw [unaccepted] at accepted
      nomatch accepted
  | duplicate seen unreached =>
      refine finish (window.later d _) (fun _ => ?_) fun reached => absurd reached unreached
      obtain ⟨a, member, same⟩ := window.taken seen
      obtain ⟨sent, earlier, body⟩ := window.bodies a member
      refine ⟨a, member, ?_⟩
      rw [← body]
      exact collisionless sent (List.mem_append_left _ earlier) d here (body.symm ▸ same)
  | @failed decision held unaccepted fresh known reached raised =>
      have named : held.event.bodyDigest ≠ [] := known ▸ deliveryDigest_ne_nil d.body
      have undone := (forget_record_iff window.bounded named (known ▸ fresh)).mpr (room reached raised)
      rw [undone] at finish ⊢
      refine finish (window.later d _) ?_ fun _ _ => rfl
      intro accepted
      rw [unaccepted] at accepted
      nomatch accepted
  | recorded fresh known took =>
      refine finish (window.recorded fresh known) (fun _ => ?_) fun _ raised => absurd raised took
      exact ⟨_, List.mem_append_right _ (List.mem_singleton_self _), rfl⟩

theorem Bounded.handled {r : Receiver F} (bounded : Bounded r.inbox) (d : Delivery) :
    Bounded (handleDelivery r d).1.inbox := by
  have handled := handleDelivery_handled r bounded d
  generalize handleDelivery r d = outcome at handled ⊢
  cases handled with
  | refused => exact bounded
  | duplicate => exact bounded
  | @failed decision held unaccepted fresh known =>
      have named : held.event.bodyDigest ≠ [] := known ▸ deliveryDigest_ne_nil d.body
      dsimp only
      rw [forget_record bounded named (known ▸ fresh)]
      refine { positive := bounded.positive, larger := bounded.larger, events := ?_, seen := ?_ }
      · dsimp only
        split
        · exact bounded.events
        · exact (List.drop_sublist 1 _).length_le.trans bounded.events
      · dsimp only
        split
        · exact bounded.seen
        · exact (List.drop_sublist 1 _).length_le.trans bounded.seen
  | @recorded _ held _ known =>
      exact bounded.record held (known ▸ deliveryDigest_ne_nil d.body)

omit [Unicode] [BodyReader F] in
theorem Window.empty (capacity seenCapacity : Nat) :
    Window [] (Receiver.opened capacity seenCapacity : Receiver F) where
  bounded := Bounded.empty capacity seenCapacity
  seen := by simp [latest, Receiver.opened, WebhookInbox.empty]
  distinct := List.nodup_nil
  bodies := fun _ member => absurd member List.not_mem_nil

theorem received_append_singleton (r : Receiver F) (deliveries : List Delivery) (d : Delivery) :
    received r (deliveries ++ [d]) = (handleDelivery (received r deliveries) d).1 := by
  simp [received]

theorem Bounded.received {r : Receiver F} (bounded : Bounded r.inbox) (deliveries : List Delivery) :
    Bounded (received r deliveries).inbox := by
  induction deliveries using List.reverseRecOn with
  | nil => exact bounded
  | append_singleton deliveries d ih =>
      rw [received_append_singleton]
      exact ih.handled d

/-- Every failing delivery among these meets an inbox with room. -/
def RoomForFailures (start : Receiver F) (deliveries : List Delivery) : Prop :=
  ∀ earlier d, earlier ++ [d] <+: deliveries →
    Reaches (received start earlier) d → d.sinkRaises = true → HasRoom (received start earlier).inbox

theorem Window.received {start : Receiver F} (window : Window [] start) {deliveries : List Delivery}
    (collisionless : Collisionless deliveries) (room : RoomForFailures start deliveries) :
    ∀ earlier, earlier <+: deliveries → Window earlier (Merchant.received start earlier) := by
  intro earlier
  induction earlier using List.reverseRecOn with
  | nil => exact fun _ => window
  | append_singleton earlier d ih =>
      intro begins
      rw [received_append_singleton]
      have before := ih ((List.prefix_append earlier [d]).trans begins)
      have apart : Collisionless (earlier ++ [d]) := fun x hx y hy =>
        collisionless x (begins.subset hx) y (begins.subset hy)
      exact (before.step apart (room earlier d begins)).1

theorem AcksOnce.room {r : Receiver F} {d : Delivery} (acks : AcksOnce r d) (bounded : Bounded r.inbox)
    (reached : Reaches r d) (raised : d.sinkRaises = true) : HasRoom r.inbox := by
  have undone := acks.undone reached raised
  have handled := handleDelivery_handled r bounded d
  generalize handleDelivery r d = outcome at handled undone
  cases handled with
  | refused _ unreached => exact absurd reached unreached
  | duplicate _ unreached => exact absurd reached unreached
  | @failed _ held _ fresh known =>
      have named : held.event.bodyDigest ≠ [] := known ▸ deliveryDigest_ne_nil d.body
      exact (forget_record_iff bounded named (known ▸ fresh)).mp undone
  | recorded _ _ took => exact absurd raised took

/-- An acknowledged delivery was handed on once, along every sequence of deliveries, exactly where no
delivery that the sink raises on meets a full ring or a full seen set. -/
theorem acks_once_iff (capacity seenCapacity : Nat) (deliveries : List Delivery)
    (collisionless : Collisionless deliveries) :
    (∀ earlier d, earlier ++ [d] <+: deliveries →
      AcksOnce (received (.opened capacity seenCapacity : Receiver F) earlier) d) ↔
    RoomForFailures (.opened capacity seenCapacity : Receiver F) deliveries := by
  constructor
  · intro acks earlier d begins reached raised
    have bounded := Bounded.received (r := (.opened capacity seenCapacity : Receiver F))
      (Bounded.empty capacity seenCapacity) earlier
    exact (acks earlier d begins).room bounded reached raised
  · intro room earlier d begins
    have before := (Window.empty capacity seenCapacity).received collisionless room earlier
      ((List.prefix_append earlier [d]).trans begins)
    have apart : Collisionless (earlier ++ [d]) := fun x hx y hy =>
      collisionless x (begins.subset hx) y (begins.subset hy)
    exact (before.step apart (room earlier d begins)).2

end Windows

/-! ## A failure at capacity -/

section Failure

theorem received_valid : (1 ≤ 2026 ∧ 2026 ≤ 9999) ∧ (1 ≤ 1 ∧ 1 ≤ 12) ∧ (1 ≤ 1 ∧ 1 ≤ Calendar.daysInMonth 2026 1) ∧
    0 < 24 ∧ 0 < 60 ∧ 0 < 60 ∧ 0 < 1000000 ∧ ∀ o ∈ some (0 : Int), -microsPerDay < o ∧ o < microsPerDay := by
  decide

def signedDelivery (body topic : String) (sinkRaises : Bool) : Delivery where
  body := signatureBytes (str body)
  headers := [(headerTopic, str topic), (headerHmac, sign (signatureBytes (str body)) (str "secret"))]
  secret := str "secret"
  pathTopic := none
  now := { year := 2026, month := 1, day := 1, hour := 0, minute := 0, second := 0, microsecond := 0,
           offset := some 0, valid := received_valid }
  sinkRaises

@[reducible] def emptyObjects : BodyReader ℚ where
  loads body :=
    if body = signatureBytes (str "\x7b\x7d") ∨ body = signatureBytes (str "\x7b \x7d") then
      some (.object [])
    else none

def paid : Delivery := signedDelivery "\x7b\x7d" "orders/paid" false

def refused : Delivery := signedDelivery "\x7b \x7d" "refunds/create" true

theorem headerHmac_of_pair (topic signature : Str) : letI := Unicode.ascii
    headerOf (lowered [(headerTopic, topic), (headerHmac, signature)]) headerHmac = some signature := by
  let _ := Unicode.ascii
  have apart : Unicode.lower headerHmac ≠ Unicode.lower headerTopic := by decide
  simp [headerOf, lowered, Dict.get?_setDefault, apart]

theorem bodies_apart : deliveryDigest paid.body ≠ deliveryDigest refused.body := by
  decide +kernel

theorem paid_collisionless : Collisionless [paid, refused] := by
  intro d member d' member' same
  simp only [List.mem_cons, List.not_mem_nil, or_false] at member member'
  rcases member with rfl | rfl <;> rcases member' with rfl | rfl
  · rfl
  · exact absurd same bodies_apart
  · exact absurd same.symm bodies_apart
  · rfl

theorem acks_once_iff_paid : letI := Unicode.ascii
    letI := emptyObjects
    (∀ earlier d, earlier ++ [d] <+: [paid, refused] →
      AcksOnce (received (.opened 1 1 : Receiver ℚ) earlier) d) ↔
    RoomForFailures (.opened 1 1 : Receiver ℚ) [paid, refused] :=
  letI := Unicode.ascii
  letI := emptyObjects
  acks_once_iff 1 1 [paid, refused] paid_collisionless

theorem failure_evicts : letI := Unicode.ascii
    letI := emptyObjects
    Collisionless [paid, refused] ∧ ¬ AcksOnce (received (.opened 1 1 : Receiver ℚ) [paid]) refused := by
  let tables : Unicode := Unicode.ascii
  let reader : BodyReader ℚ := emptyObjects
  refine ⟨paid_collisionless, fun acks => ?_⟩
  have opened : Bounded (received (.opened 1 1 : Receiver ℚ) [paid]).inbox :=
    Bounded.received (r := .opened 1 1) (Bounded.empty 1 1) [paid]
  obtain ⟨first, signed⟩ : ∃ event, authenticate (F := ℚ) paid = .ok event :=
    authenticate_signed (Structures.returns_of_isOk (by decide)) (headerHmac_of_pair _ _) (by decide)
      ⟨[], if_pos (Or.inl rfl)⟩
  obtain ⟨event, authenticated⟩ : ∃ event, authenticate (F := ℚ) refused = .ok event :=
    authenticate_signed (Structures.returns_of_isOk (by decide)) (headerHmac_of_pair _ _) (by decide)
      ⟨[], if_pos (Or.inr rfl)⟩
  obtain ⟨capacity, full, fresh⟩ : (received (.opened 1 1 : Receiver ℚ) [paid]).inbox.capacity = 1 ∧
      (received (.opened 1 1 : Receiver ℚ) [paid]).inbox.events.length = 1 ∧
      deliveryDigest refused.body ∉ Dict.keys (received (.opened 1 1 : Receiver ℚ) [paid]).inbox.seen := by
    have digested := (authenticate_eq_ok signed).1
    have kept : received (.opened 1 1 : Receiver ℚ) [paid] =
        { inbox := { capacity := 1, seenCapacity := 1, events := [⟨0, first⟩],
                     seen := [(first.bodyDigest, first.topic)] }
          accepted := [⟨paid.body, first⟩]
          objects := 1 } := by
      rw [received, List.foldl_cons, List.foldl_nil, handleDelivery, signed]
      dsimp only
      have named : (⟨(Receiver.opened 1 1 : Receiver ℚ).objects, first⟩ : Held ℚ).event.bodyDigest ≠ [] := by
        rw [digested]
        exact deliveryDigest_ne_nil paid.body
      have recorded := record_fresh (show Bounded (Receiver.opened 1 1 : Receiver ℚ).inbox from Bounded.empty 1 1)
        named List.not_mem_nil
      simp only [recorded]
      rfl
    rw [kept]
    refine ⟨rfl, rfl, fun member => ?_⟩
    rw [digested] at member
    exact bodies_apart (List.mem_singleton.mp member).symm
  generalize received (.opened 1 1 : Receiver ℚ) [paid] = r at *
  have known := (authenticate_eq_ok authenticated).1
  have named : event.bodyDigest ≠ [] := known ▸ deliveryDigest_ne_nil refused.body
  have reached : Reaches r refused := by
    refine ⟨event, authenticated, ?_⟩
    rw [record_fresh opened (show (⟨r.objects, event⟩ : Held ℚ).event.bodyDigest ≠ [] from named)
      (known ▸ fresh)]
  have room := (acks.room opened reached rfl).1
  omega

end Failure
end Proxyshop.Merchant