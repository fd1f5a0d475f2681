import Meemee.Library.Words
import Meemee.Source.PgJobs
import Meemee.Source.Sse
import Meemee.Source.Webhooks

/-!
# The webhook outbox with its text columns

`WebhookStore.subscribe` and `enqueue` of `meemee/webhooks.py` and of `meemee_persist_pg/webhooks.py`,
which compute the same rows. `subscribe` joins the events and fields into one text each and `enqueue`
splits them again. The URL, the secret, the headers, the creation times and the random id of a delivery
are left out; SHA-256 is a parameter.
-/
namespace Meemee.Source.WebhookOutbox
open Library
open Source.JsonLoads (dict)
open Source.Sse (Bytes utf8)
open Source.Webhooks (WebhookEvent selectFields)

def split (text : String) : List String :=
  (Words.words PgJobs.isSpace text.toList).map String.ofList

/-- `" ".join(sorted(names))`. -/
def joined (names : List String) : String :=
  String.ofList (Separated.join ' '
    ((names.insertionSort (fun a b => a ≤ b)).map String.toList))

/-- A row of `webhook_subscriptions`. -/
structure Subscription where
  id : String
  principal : String
  events : String
  fields : Option String
  active : Bool
  deriving DecidableEq, Repr

/-- A row of `webhook_deliveries`. -/
structure Delivery where
  subscriptionId : String
  eventId : String
  eventType : String
  payload : String
  payloadSha256 : String
  status : String
  nextAttemptAt : Instant
  deriving DecidableEq, Repr

/-- `UNIQUE(subscription_id,event_id)`. -/
def Delivery.key (d : Delivery) : String × String := (d.subscriptionId, d.eventId)

structure Outbox where
  subscriptions : Table Subscription.id
  deliveries : Table Delivery.key

abbrev OutboxTxn := Txn Outbox Exc

structure WebhookStore where
  maxPayloadBytes : Nat
  /-- `hashlib.sha256(..).hexdigest()`. -/
  sha256 : Bytes → String

/-- A subscription as it was asked for: the sets are given without repetition. -/
structure Registration where
  id : String
  principal : String
  events : List String
  fields : List String
  active : Bool
  eventsSet : events.Nodup
  fieldsSet : fields.Nodup

/-- `" ".join(sorted(fields or ())) or None`. -/
def storedFields (fields : List String) : Option String :=
  if joined fields = "" then none else some (joined fields)

/-- The row that `subscribe` inserts. -/
def Registration.row (r : Registration) : Subscription :=
  { id := r.id, principal := r.principal, events := joined r.events,
    fields := storedFields r.fields, active := r.active }

def Subscription.wants (subscription : Subscription) (eventType : String) : Bool :=
  (split subscription.events).contains eventType || (split subscription.events).contains "*"

/-- `{key: payload[key] for key in fields.split() if key in payload}`. -/
def selected (fields : String) (payload : List (String × Json)) : List (String × Json) :=
  dict (selectFields (split fields) payload)

/-- `body`; the row's fields are NULL or a text that is not empty. -/
def bodyOf (event : WebhookEvent) (encoded : String) (subscription : Subscription) :
    Except Exc String :=
  match subscription.fields with
  | none => .ok encoded
  | some fields =>
    if fields.isEmpty then .ok encoded else event.encode (selected fields event.payload)

/-- The row that is inserted for a subscription. -/
def WebhookStore.delivery (store : WebhookStore) (event : WebhookEvent) (now : Instant)
    (subscription : Subscription) (body : String) : Delivery :=
  { subscriptionId := subscription.id, eventId := event.eventId, eventType := event.eventType,
    payload := body, payloadSha256 := store.sha256 (utf8 body), status := "queued",
    nextAttemptAt := now }

/-- The loop over the subscriptions: how many rows were new. -/
def WebhookStore.deliverAll (store : WebhookStore) (event : WebhookEvent) (encoded : String)
    (now : Instant) : List Subscription → OutboxTxn Nat
  | [] => pure 0
  | subscription :: rest =>
    if !subscription.wants event.eventType then store.deliverAll event encoded now rest
    else do
      let body ← Txn.ofExcept (bodyOf event encoded subscription)
      let created ← Txn.read (fun s =>
        (s.deliveries.insertOrIgnore (store.delivery event now subscription body)).2)
      Txn.write (fun s => { s with
        deliveries := (s.deliveries.insertOrIgnore (store.delivery event now subscription body)).1 })
      let others ← store.deliverAll event encoded now rest
      return others + if created then 1 else 0

def WebhookStore.enqueue (store : WebhookStore) (event : WebhookEvent) (now : Instant) :
    OutboxTxn Nat := do
  let encoded ← Txn.ofExcept (event.checked store.maxPayloadBytes)
  Txn.atomically do
    let subscriptions ← Txn.read (fun s =>
      s.subscriptions.select (fun r => r.active && decide (r.principal = event.principal)))
    store.deliverAll event encoded now subscriptions

/-- Any number of calls, one after the other; a call that raises leaves the rows alone. -/
def WebhookStore.enqueueAll (store : WebhookStore) (s : Outbox) :
    List (WebhookEvent × Instant) → Outbox
  | [] => s
  | call :: rest => store.enqueueAll (store.enqueue call.1 call.2 s).2 rest

end Meemee.Source.WebhookOutbox
