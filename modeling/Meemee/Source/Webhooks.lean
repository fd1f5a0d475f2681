import Meemee.Library.Table
import Meemee.Library.Txn
import Meemee.Source.Values

/-!
# The webhook outbox: WebhookStore.enqueue

`meemee/webhooks.py`: an event is encoded and measured first, then one delivery is
queued for each active subscription of its owner that wants it. A delivery is told
apart by its subscription and event (`UNIQUE(subscription_id,event_id)`); its random
id and the SHA-256 of its body are left out.
-/
namespace Meemee.Source.Webhooks
open Library

/-- `events` and `fields` are the words of the stored texts. -/
structure Subscription where
  id : String
  principal : String
  events : List String
  fields : List String
  active : Bool
  deriving DecidableEq, Repr

structure Delivery where
  subscriptionId : String
  eventId : String
  eventType : String
  payload : String
  status : String
  nextAttemptAt : Instant
  deriving DecidableEq, Repr

def Delivery.key (d : Delivery) : String × String := (d.subscriptionId, d.eventId)

structure Outbox where
  subscriptions : Table Subscription.id
  deliveries : Table Delivery.key

def Outbox.empty : Outbox := ⟨Table.empty, Table.empty⟩

abbrev OutboxTxn := Txn Outbox Exc

/-- An event as the worker and the API hand it to `enqueue`. -/
structure WebhookEvent where
  eventId : String
  eventType : String
  payload : List (String × Json)
  principal : String

def WebhookEvent.envelope (event : WebhookEvent) (data : List (String × Json)) : Json :=
  .obj [("schema", .str "meemee.webhook.v1"), ("event_id", .str event.eventId),
    ("event_type", .str event.eventType), ("data", .obj data)]

/-- `json.dumps(envelope, sort_keys=True, separators=(",", ":"), allow_nan=False)`. -/
def WebhookEvent.encode (event : WebhookEvent) (data : List (String × Json)) : Except Exc String :=
  Json.dumps { sortKeys := true, compact := true, allowNan := false } (event.envelope data)

/-- The encoded envelope, if it is within the ceiling. -/
def WebhookEvent.checked (event : WebhookEvent) (maxPayloadBytes : Nat) : Except Exc String := do
  let encoded ← event.encode event.payload
  if maxPayloadBytes < encoded.utf8ByteSize then
    .error (.valueError ("webhook payload exceeds " ++ toString maxPayloadBytes ++ " bytes"))
  else return encoded

/-- The fields of the payload that a subscription selects, in its order. -/
def selectFields (fields : List String) (payload : List (String × Json)) : List (String × Json) :=
  fields.filterMap (fun name => payload.find? (fun f => f.1 = name))

def Subscription.wants (subscription : Subscription) (eventType : String) : Bool :=
  subscription.events.contains eventType || subscription.events.contains "*"

/-- Queue one delivery per subscription: how many were new. -/
def deliverAll (event : WebhookEvent) (encoded : String) (now : Instant) :
    List Subscription → OutboxTxn Nat
  | [] => pure 0
  | subscription :: rest =>
    if !subscription.wants event.eventType then deliverAll event encoded now rest
    else do
      let body ← Txn.ofExcept (if subscription.fields.isEmpty then .ok encoded
        else event.encode (selectFields subscription.fields event.payload))
      let delivery : Delivery :=
        ⟨subscription.id, event.eventId, event.eventType, body, "queued", now⟩
      let created ← Txn.read (fun s => (s.deliveries.insertOrIgnore delivery).2)
      Txn.write (fun s => { s with deliveries := (s.deliveries.insertOrIgnore delivery).1 })
      let others ← deliverAll event encoded now rest
      return others + if created then 1 else 0

def enqueue (maxPayloadBytes : Nat) (event : WebhookEvent) (now : Instant) : OutboxTxn Nat := do
  let encoded ← Txn.ofExcept (event.checked maxPayloadBytes)
  Txn.atomically do
    let subscriptions ← Txn.read (fun s =>
      s.subscriptions.select (fun r => r.active && decide (r.principal = event.principal)))
    deliverAll event encoded now subscriptions

end Meemee.Source.Webhooks
