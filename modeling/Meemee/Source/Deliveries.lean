import Mathlib.Algebra.Group.Int.Defs
import Meemee.Library.Log
import Meemee.Library.Table
import Meemee.Library.Txn
import Meemee.Source.Values

/-!
# Webhook deliveries: claim, succeed, retry, recover, replay

`meemee/webhooks.py` and `meemee_persist_pg/webhooks.py`: the outbox as the dispatchers see
it. A claim moves the first due delivery to `sending` and opens an attempt; the report of the
send names the delivery and nothing else. What is sent and where is left out.
-/
namespace Meemee.Source.Deliveries
open Library

inductive DeliveryStatus where
  | queued | sending | delivered | failed
  deriving DecidableEq, Repr

structure Subscription where
  id : String
  principal : String
  active : Bool
  deriving DecidableEq, Repr

structure Delivery where
  id : String
  subscriptionId : String
  status : DeliveryStatus
  attempts : Nat
  nextAttemptAt : Instant
  responseStatus : Option Int
  lastError : Option String
  sendingStartedAt : Option Instant
  deriving DecidableEq, Repr

/-- A row of `webhook_attempts`; its id is its number in the log. -/
structure Attempt where
  deliveryId : String
  attempt : Nat
  startedAt : Instant
  finishedAt : Option Instant
  outcome : Option DeliveryStatus
  responseStatus : Option Int
  error : Option String
  deriving DecidableEq, Repr

structure Outbox where
  subscriptions : Table Subscription.id
  deliveries : Table Delivery.id
  attempts : Log Attempt

abbrev OutboxTxn := Txn Outbox Exc

/-- `UPDATE webhook_deliveries SET f WHERE p`. -/
def Outbox.updated (s : Outbox) (p : Delivery → Bool) (f : Delivery → Delivery)
    (keeps : ∀ d, (f d).id = d.id) : Outbox :=
  { s with deliveries := s.deliveries.update p f keeps }

def newDelivery (ident subscriptionId : String) (now : Instant) : Delivery :=
  ⟨ident, subscriptionId, .queued, 0, now, none, none, none⟩

/-- The INSERT of `enqueue`, for one subscription. -/
def queue (ident subscriptionId : String) (now : Instant) : OutboxTxn Unit :=
  Txn.write (fun s =>
    { s with deliveries := (s.deliveries.insertOrIgnore (newDelivery ident subscriptionId now)).1 })

def Delivery.claimed (d : Delivery) (current : Instant) : Delivery :=
  { d with status := .sending, attempts := d.attempts + 1, sendingStartedAt := some current }

@[simp] theorem Delivery.claimed_id (d : Delivery) (current : Instant) :
    (d.claimed current).id = d.id := rfl

def newAttempt (row : Delivery) (startedAt : Instant) : Attempt :=
  ⟨row.id, row.attempts + 1, startedAt, none, none, none, none⟩

/-- `ORDER BY d.next_attempt_at,d.id`. -/
def dueBefore (a b : Delivery) : Bool :=
  decide (a.nextAttemptAt < b.nextAttemptAt ∨ a.nextAttemptAt = b.nextAttemptAt ∧ a.id < b.id)

/-- Due, and its subscription is active. -/
def due (s : Outbox) (current : Instant) (d : Delivery) : Bool :=
  decide (d.status = .queued ∧ d.nextAttemptAt ≤ current) &&
    (s.subscriptions.find d.subscriptionId).any (fun r => r.active)

/-- `claim`: the row as it stood. PostgreSQL skips the rows that another transaction holds
(`FOR UPDATE SKIP LOCKED`); on SQLite there are none. -/
def claim (skipped : List String) (current startedAt : Instant) : OutboxTxn (Option Delivery) :=
  Txn.atomically do
    let row ← Txn.read (fun s =>
      s.deliveries.first (fun d => due s current d && !skipped.contains d.id) dueBefore)
    match row with
    | none => return none
    | some row =>
      Txn.write (fun s => s.updated (fun d => decide (d.id = row.id)) (fun d => d.claimed current)
        (fun d => d.claimed_id current))
      Txn.write (fun s => { s with attempts := s.attempts.append (newAttempt row startedAt) })
      return some row

/-- `SELECT max(id) FROM webhook_attempts WHERE delivery_id=?`. -/
def lastAttempt (s : Outbox) (ident : String) : Option Nat :=
  s.attempts.last (fun a => decide (a.deliveryId = ident))

/-- `UPDATE webhook_attempts SET f WHERE id=(SELECT max(id) ...)`. -/
def editLast (ident : String) (f : Attempt → Attempt) : OutboxTxn Unit :=
  Txn.write (fun s =>
    { s with attempts := s.attempts.edit (fun number a =>
        some (if lastAttempt s ident = some number then f a else a)) })

def Delivery.delivered (d : Delivery) (status : Int) : Delivery :=
  { d with
    status := .delivered
    responseStatus := some status
    lastError := none
    sendingStartedAt := none }

@[simp] theorem Delivery.delivered_id (d : Delivery) (status : Int) :
    (d.delivered status).id = d.id := rfl

def Attempt.delivered (a : Attempt) (status : Int) (now : Instant) : Attempt :=
  { a with finishedAt := some now, outcome := some .delivered, responseStatus := some status }

/-- The first statement of `succeed`. -/
def markDelivered (ident : String) (status : Int) : OutboxTxn Unit :=
  Txn.write (fun s => s.updated (fun d => decide (d.id = ident ∧ d.status = .sending))
    (fun d => d.delivered status) (fun d => d.delivered_id status))

/-- The second statement of `succeed`. -/
def closeDelivered (ident : String) (status : Int) (now : Instant) : OutboxTxn Unit :=
  editLast ident (fun a => a.delivered status now)

/-- `succeed` as PostgreSQL runs it; on SQLite, which autocommits, each statement is a transaction. -/
def succeed (ident : String) (status : Int) (now : Instant) : OutboxTxn Unit :=
  Txn.atomically do
    markDelivered ident status
    closeDelivered ident status now

/-- `error[:1000]`. -/
def clipped (error : String) : String := String.ofList (error.toList.take 1000)

/-- `min(2 ** max(attempts - 1, 0), 3600)` seconds. -/
def delay (attempts : Nat) : Int := seconds (min (2 ^ (attempts - 1)) 3600)

/-- What a failed send of a row makes of it. -/
def retryStatus (attempts maxAttempts : Nat) : DeliveryStatus :=
  if maxAttempts ≤ attempts then .failed else .queued

def Delivery.retried (d : Delivery) (status : DeliveryStatus) (next : Instant) (error : String) :
    Delivery :=
  { d with
    status := status
    nextAttemptAt := next
    lastError := some (clipped error)
    sendingStartedAt := none }

@[simp] theorem Delivery.retried_id (d : Delivery) (status : DeliveryStatus) (next : Instant)
    (error : String) : (d.retried status next error).id = d.id := rfl

def Attempt.retried (a : Attempt) (status : DeliveryStatus) (error : String) (now : Instant) :
    Attempt :=
  { a with finishedAt := some now, outcome := some status, error := some (clipped error) }

def Subscription.suspended (r : Subscription) : Subscription := { r with active := false }

@[simp] theorem Subscription.suspended_id (r : Subscription) : r.suspended.id = r.id := rfl

def Outbox.suspended (s : Outbox) (subscriptionId : String) : Outbox :=
  let named (r : Subscription) : Bool := decide (r.id = subscriptionId)
  { s with subscriptions := s.subscriptions.update named (fun r => r.suspended) (fun r => r.suspended_id) }

/-- Five failed deliveries suspend their subscription. -/
def suspend (ident : String) : OutboxTxn Unit := do
  let row ← Txn.read (fun s => s.deliveries.find ident)
  match row with
  | none => return ()
  | some row =>
    let failures ← Txn.read (fun s => (s.deliveries.select
      (fun d => decide (d.subscriptionId = row.subscriptionId ∧ d.status = .failed))).length)
    if 5 ≤ failures then Txn.write (fun s => s.suspended row.subscriptionId) else return ()

/-- The first UPDATE of `retry`, from the attempts that it read. -/
def markRetried (ident : String) (attempts : Nat) (error : String) (maxAttempts : Nat)
    (now : Instant) : OutboxTxn Unit :=
  let status := retryStatus attempts maxAttempts
  let next := now + delay attempts
  Txn.write (fun s => s.updated (fun d => decide (d.id = ident))
    (fun d => d.retried status next error) (fun d => d.retried_id status next error))

/-- The second UPDATE of `retry`. -/
def closeRetried (ident : String) (status : DeliveryStatus) (error : String) (finished : Instant) :
    OutboxTxn Unit :=
  editLast ident (fun a => a.retried status error finished)

/-- The writes of `retry`, from the attempts that it read: one transaction on PostgreSQL. SQLite
autocommits each of them. -/
def retryFrom (ident : String) (attempts : Nat) (error : String) (maxAttempts : Nat)
    (now finished : Instant) : OutboxTxn Unit :=
  Txn.atomically do
    markRetried ident attempts error maxAttempts now
    closeRetried ident (retryStatus attempts maxAttempts) error finished
    if maxAttempts ≤ attempts then suspend ident else return ()

/-- `retry`; `now` is the reading that the next attempt is counted from. PostgreSQL reads the row
in the transaction that writes it (`FOR UPDATE`), SQLite in a statement of its own. -/
def retry (ident error : String) (maxAttempts : Nat) (now finished : Instant) : OutboxTxn Unit := do
  let row ← Txn.read (fun s => s.deliveries.find ident)
  match row with
  | none => return ()
  | some row => retryFrom ident row.attempts error maxAttempts now finished

def Delivery.recovered (d : Delivery) (now : Instant) : Delivery :=
  { d with
    status := .queued
    nextAttemptAt := now
    lastError := some "dispatcher lease expired"
    sendingStartedAt := none }

@[simp] theorem Delivery.recovered_id (d : Delivery) (now : Instant) :
    (d.recovered now).id = d.id := rfl

/-- Sending since before the given time. -/
def Delivery.stale (d : Delivery) (staleBefore : Instant) : Bool :=
  decide (d.status = .sending) && d.sendingStartedAt.any (fun at_ => decide (at_ < staleBefore))

/-- `recover_stale`: the rowcount. -/
def recoverStale (staleBefore now : Instant) : OutboxTxn Nat := do
  let matched ← Txn.read (fun s => s.deliveries.select (fun d => d.stale staleBefore))
  Txn.write (fun s => s.updated (fun d => d.stale staleBefore) (fun d => d.recovered now)
    (fun d => d.recovered_id now))
  return matched.length

def Delivery.replayed (d : Delivery) (now : Instant) : Delivery :=
  { d with status := .queued, nextAttemptAt := now, lastError := none }

@[simp] theorem Delivery.replayed_id (d : Delivery) (now : Instant) :
    (d.replayed now).id = d.id := rfl

/-- Failed, and owned by the principal through an active subscription. -/
def replayable (s : Outbox) (principal ident : String) (d : Delivery) : Bool :=
  decide (d.id = ident ∧ d.status = .failed) && (s.subscriptions.find d.subscriptionId).any
    (fun r => r.active && decide (r.principal = principal))

def replayDelivery (principal ident : String) (now : Instant) : OutboxTxn Bool := do
  let matched ← Txn.read (fun s => s.deliveries.select (replayable s principal ident))
  Txn.write (fun s => s.updated (replayable s principal ident) (fun d => d.replayed now)
    (fun d => d.replayed_id now))
  return !matched.isEmpty

end Meemee.Source.Deliveries
