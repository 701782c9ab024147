import Proxyshop.Contracts.Wire
import Proxyshop.Hashing.Sha256

/-!
# Webhook deliveries

How a delivery is authenticated, what the inbox remembers of it, and what is answered. What
`json.loads` makes of a body is a parameter.
-/

namespace Proxyshop.Merchant

open Python Numbers Contracts Hashing

/-! ## Signatures -/

/-- A code point under `surrogatepass`. -/
def encodePoint (c : CodePoint) : List UInt8 :=
  let n := c.val
  if n < 0x80 then [UInt8.ofNat n]
  else if n < 0x800 then [UInt8.ofNat (0xC0 + n / 64), UInt8.ofNat (0x80 + n % 64)]
  else if n < 0x10000 then
    [UInt8.ofNat (0xE0 + n / 4096), UInt8.ofNat (0x80 + n / 64 % 64), UInt8.ofNat (0x80 + n % 64)]
  else
    [UInt8.ofNat (0xF0 + n / 262144), UInt8.ofNat (0x80 + n / 4096 % 64),
      UInt8.ofNat (0x80 + n / 64 % 64), UInt8.ofNat (0x80 + n % 64)]

def signatureBytes (s : Str) : List UInt8 := s.flatMap encodePoint

def secureEquals (expected supplied : Str) : Bool := signatureBytes expected = signatureBytes supplied

def sign (body : List UInt8) (secret : Str) : Str := base64 (hmacSha256 (signatureBytes secret) body)

def deliveryDigest (body : List UInt8) : Str := sha256Hex body

def verifySignature (body : List UInt8) (secret : Str) (signature : Option Str) : Bool :=
  match signature with
  | none => false
  | some signature =>
      if signature.isEmpty || secret.isEmpty then false else secureEquals (sign body secret) signature

/-! ## Topics and headers -/

section Topics

variable [Unicode]

def normalizeTopic (raw : Str) : Str := (Unicode.lower raw.strip).replace (str "_") (str "/")

def webhookTopics : List Str := [str "orders/paid", str "orders/fulfilled", str "refunds/create"]

def headerTopic : Str := str "X-Shopify-Topic"
def headerHmac : Str := str "X-Shopify-Hmac-Sha256"
def headerShopDomain : Str := str "X-Shopify-Shop-Domain"
def headerApiVersion : Str := str "X-Shopify-API-Version"
def headerWebhookId : Str := str "X-Shopify-Webhook-Id"
def headerTriggeredAt : Str := str "X-Shopify-Triggered-At"

def lowered (headers : List (Str × Str)) : Dict Str Str :=
  headers.foldl (fun lower header => Dict.setDefault lower (Unicode.lower header.1) header.2) []

def headerOf (lower : Dict Str Str) (name : Str) : Option Str := Dict.get? lower (Unicode.lower name)

end Topics

/-! ## The inbox -/

structure ReceivedWebhook (F : Type) where
  topic : Str
  shopDomain : Str
  webhookId : Str
  payload : Dict Str (Wire F)
  receivedAt : DateTime
  apiVersion : Str
  triggeredAt : Str
  bodyDigest : Str

/-- An event in the ring, under the number that tells one object from another. -/
structure Held (F : Type) where
  object : Nat
  event : ReceivedWebhook F

structure WebhookInbox (F : Type) where
  capacity : Nat
  seenCapacity : Nat
  events : List (Held F)
  seen : Dict Str Str

section Inbox

variable {F : Type}

def WebhookInbox.empty (capacity seenCapacity : Nat) : WebhookInbox F :=
  { capacity := max 1 capacity, seenCapacity := max seenCapacity (max 1 capacity),
    events := [], seen := [] }

def boundTopic (inbox : WebhookInbox F) (bodyDigest : Str) : Option Str :=
  if bodyDigest.isEmpty then none else Dict.get? inbox.seen bodyDigest

def evictOldest {A : Type} (capacity : Nat) : List A → List A
  | [] => []
  | x :: rest => if capacity < rest.length + 1 then evictOldest capacity rest else x :: rest

def pushed (inbox : WebhookInbox F) (held : Held F) : List (Held F) :=
  let events := inbox.events ++ [held]
  if inbox.capacity < events.length then events.drop 1 else events

def WebhookInbox.record (inbox : WebhookInbox F) (held : Held F) : WebhookInbox F × Bool :=
  let identity := held.event.bodyDigest
  if identity.isEmpty then ({ inbox with events := pushed inbox held }, true)
  else if Dict.contains inbox.seen identity then (inbox, false)
  else
    ({ inbox with
        seen := evictOldest inbox.seenCapacity (Dict.set inbox.seen identity held.event.topic)
        events := pushed inbox held }, true)

/-- The ring without the latest occurrence of an object, where it occurs. -/
def withoutLast (object : Nat) : List (Held F) → Option (List (Held F))
  | [] => none
  | held :: rest =>
      match withoutLast object rest with
      | some rest => some (held :: rest)
      | none => if held.object = object then some rest else none

def WebhookInbox.forget (inbox : WebhookInbox F) (held : Held F) : WebhookInbox F :=
  match withoutLast held.object inbox.events with
  | none => inbox
  | some events =>
      let identity := held.event.bodyDigest
      if identity.isEmpty then { inbox with events }
      else { inbox with events, seen := Dict.erase inbox.seen identity }

end Inbox

/-! ## Deliveries -/

/-- `json.loads` of a body that it can parse. -/
class BodyReader (F : Type) where
  loads : List UInt8 → Option (Wire F)

/-- A request, the instant it is received, and whether the sink would raise on it. -/
structure Delivery where
  body : List UInt8
  headers : List (Str × Str)
  secret : Str
  pathTopic : Option Str
  now : DateTime
  sinkRaises : Bool

structure WebhookDecision (F : Type) where
  statusCode : Nat
  reason : Str
  event : Option (ReceivedWebhook F)
  duplicate : Bool
  detail : Dict Str Str

def WebhookDecision.accepted {F : Type} (d : WebhookDecision F) : Bool :=
  200 ≤ d.statusCode && d.statusCode < 300

/-- What the sink has taken: a body and the event made of it. -/
structure Accepted (F : Type) where
  body : List UInt8
  event : ReceivedWebhook F

/-- The inbox, what the sink has accepted, and how many objects there have been. -/
structure Receiver (F : Type) where
  inbox : WebhookInbox F
  accepted : List (Accepted F)
  objects : Nat

def Receiver.opened {F : Type} (capacity seenCapacity : Nat) : Receiver F :=
  { inbox := .empty capacity seenCapacity, accepted := [], objects := 0 }

section Handling

variable {F : Type} [Unicode] [BodyReader F]

def refusal (statusCode : Nat) (reason : Str) (detail : Dict Str Str) : WebhookDecision F :=
  { statusCode, reason, event := none, duplicate := false, detail }

/-- The topic that the header names, where the path agrees and the app subscribes to it. -/
def deliveryTopic (d : Delivery) : Except (WebhookDecision F) Str :=
  match (headerOf (lowered d.headers) headerTopic).bind Str.nonEmpty? with
  | none => .error (refusal 400 (str "missing-topic")
      (((d.pathTopic.bind Str.nonEmpty?).map normalizeTopic).elim [] fun t => [(str "path_topic", t)]))
  | some header =>
      let topic := normalizeTopic header
      let wanted := (d.pathTopic.map normalizeTopic).getD topic
      if topic ≠ wanted then
        .error (refusal 400 (str "topic-mismatch") [(str "path_topic", wanted), (str "header_topic", topic)])
      else if topic ∉ webhookTopics then
        .error (refusal 404 (str "unsubscribed-topic") [(str "topic", topic)])
      else .ok topic

/-- The event of a delivery whose headers, signature and body are in order. -/
def authenticate (d : Delivery) : Except (WebhookDecision F) (ReceivedWebhook F) := do
  let lower := lowered d.headers
  let topic ← deliveryTopic d
  if ¬ verifySignature d.body d.secret (headerOf lower headerHmac) then
    .error (refusal 401 (str "bad-signature") [(str "topic", topic)])
  match BodyReader.loads (F := F) d.body with
  | some (.object payload) =>
      return {
        topic, payload
        shopDomain := (headerOf lower headerShopDomain).getD []
        webhookId := (headerOf lower headerWebhookId).getD []
        receivedAt := d.now
        apiVersion := (headerOf lower headerApiVersion).getD []
        triggeredAt := (headerOf lower headerTriggeredAt).getD []
        bodyDigest := deliveryDigest d.body }
  | _ => .error (refusal 400 (str "unparseable-body") [(str "topic", topic)])

/-- The topic that a duplicate was recorded under, where it is another one. -/
def recordedAs (bound : Option Str) (topic : Str) : Dict Str Str :=
  match bound with
  | some other => if other ≠ topic then [(str "recorded_as", other)] else []
  | none => []

/-- `handle_delivery`. -/
def handleDelivery (r : Receiver F) (d : Delivery) : Receiver F × WebhookDecision F :=
  match authenticate d with
  | .error decision => (r, decision)
  | .ok event =>
      let held : Held F := { object := r.objects, event }
      let bound := boundTopic r.inbox event.bodyDigest
      let (inbox, fresh) := r.inbox.record held
      if fresh then
        if d.sinkRaises then
          ({ r with inbox := inbox.forget held, objects := r.objects + 1 },
            { statusCode := 500, reason := str "sink-failed", event := some event,
              duplicate := false, detail := [(str "topic", event.topic)] })
        else
          ({ inbox, accepted := r.accepted ++ [{ body := d.body, event }], objects := r.objects + 1 },
            { statusCode := 200, reason := str "recorded", event := some event,
              duplicate := false, detail := [] })
      else
        ({ r with inbox, objects := r.objects + 1 },
          { statusCode := 200, reason := str "duplicate", event := some event,
            duplicate := true, detail := recordedAs bound event.topic })

def received (r : Receiver F) (deliveries : List Delivery) : Receiver F :=
  deliveries.foldl (fun r d => (handleDelivery r d).1) r

def Reaches (r : Receiver F) (d : Delivery) : Prop :=
  ∃ event, authenticate (F := F) d = .ok event ∧ (r.inbox.record { object := r.objects, event }).2 = true

end Handling
end Proxyshop.Merchant
