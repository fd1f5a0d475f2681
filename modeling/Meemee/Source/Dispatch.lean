import Mathlib.Logic.Function.Basic
import Meemee.Library.History
import Meemee.Source.Deliveries
import Meemee.Source.KeyRotation

/-!
# Claims with their secrets, and the dispatchers

`claim` of `meemee/webhooks.py` and `meemee_persist_pg/webhooks.py` to its end, where the secret of the
subscription is decrypted, and `WebhookDispatcher.deliver_one`. What comes of a request that was sent
is given. `max_attempts` has its default.
-/
namespace Meemee.Source.Dispatch
open Library Source.Deliveries
open Source.KeyRotation (Crypto Bytes SecretCipher.decrypt)

/-- The store's cipher. -/
structure Keys where
  crypto : Crypto
  key : Bytes

def secretContext (ident : String) : String := "webhook-subscription:" ++ ident

/-- What the column of a subscription decrypts to; none where InvalidTag or a ValueError is raised. -/
def Keys.secret (keys : Keys) (column : String → String) (subscriptionId : String) : Option String :=
  SecretCipher.decrypt keys.crypto keys.key (column subscriptionId) (secretContext subscriptionId)

/-- A claimed delivery; its secret is none where it is None. -/
structure Claimed where
  row : Delivery
  secret : Option String
  deriving DecidableEq, Repr

/-- `claim` on SQLite: a secret that does not decrypt is None. -/
def SQLite.claim (secret : String → Option String) (now startedAt : Instant) :
    OutboxTxn (Option Claimed) := do
  let row ← Deliveries.claim [] now startedAt
  return row.map (fun row => ⟨row, secret row.subscriptionId⟩)

/-- `claim` on PostgreSQL. -/
def Postgres.claim (secret : String → Option String) (skipped : List String) (now startedAt : Instant) :
    OutboxTxn (Option Claimed) := do
  let row ← Deliveries.claim skipped now startedAt
  match row with
  | none => return none
  | some row =>
    match secret row.subscriptionId with
    | some secret => return some ⟨row, some secret⟩
    | none => Txn.raise (.valueError "secret does not decrypt")

def claim (backend : Backend) (secret : String → Option String) (skipped : List String)
    (now startedAt : Instant) : OutboxTxn (Option Claimed) :=
  match backend with
  | .sqlite => SQLite.claim secret now startedAt
  | .postgres => Postgres.claim secret skipped now startedAt

/-- The rows a claim passes over. -/
def passedOver (backend : Backend) (skipped : List String) : List String :=
  match backend with
  | .sqlite => []
  | .postgres => skipped

/-- The row a claim picks. -/
def nextDue (backend : Backend) (skipped : List String) (now : Instant) (s : Outbox) : Option Delivery :=
  s.deliveries.first (fun d => due s now d && !(passedOver backend skipped).contains d.id) dueBefore

def maxAttempts : Nat := 8

/-- What comes of a send. -/
inductive Outcome where
  | delivered (status : Int)
  | failed (error : String)
  deriving DecidableEq, Repr

/-- What `deliver_one` reports: a delivery without a secret is not sent. -/
def reported (claimed : Claimed) (sent : Outcome) : Outcome :=
  match claimed.secret with
  | none => .failed "secret unreadable"
  | some _ => sent

/-- The outbox, and the calls of `deliver_one` that have not reported: what each claimed, and on
SQLite the attempts that its `retry` has read. -/
structure Desk where
  outbox : Outbox
  held : Nat → Option Claimed
  seen : Nat → Option Nat

inductive Action where
  | queue (ident subscriptionId : String) (now : Instant)
  /-- A call of `deliver_one` starts, with the column of secrets as it then stands. -/
  | claim (number : Nat) (column : String → String) (skipped : List String) (now startedAt : Instant)
  /-- The SELECT of a SQLite `retry`. -/
  | look (number : Nat)
  /-- A call of `deliver_one` ends. -/
  | report (number : Nat) (sent : Outcome) (now finished : Instant)
  | recover (staleBefore now : Instant)
  | replay (principal ident : String) (now : Instant)
  /-- Subscribing, unsubscribing and pausing: whatever they leave. -/
  | resubscribe (subscriptions : Table Subscription.id)

inductive Answer where
  | claimed (ident : String)
  | raised
  | done
  deriving DecidableEq, Repr

/-- A call of `deliver_one` is over. -/
def Desk.left (s : Desk) (number : Nat) (outbox : Outbox) : Desk where
  outbox := outbox
  held := Function.update s.held number none
  seen := Function.update s.seen number none

/-- The writes of a report on a claimed delivery. SQLite commits them one by one; those after the
first are to an attempt, and to a subscription that other steps may change back. -/
def file (backend : Backend) (s : Desk) (number : Nat) (claimed : Claimed) (now finished : Instant) :
    Outcome → Desk
  | .delivered status => s.left number (succeed claimed.row.id status finished s.outbox).2
  | .failed error =>
    match backend with
    | .postgres => s.left number (retry claimed.row.id error maxAttempts now finished s.outbox).2
    | .sqlite =>
      match s.seen number with
      | none => s
      | some attempts =>
        s.left number (retryFrom claimed.row.id attempts error maxAttempts now finished s.outbox).2

def step (backend : Backend) (keys : Keys) (s : Desk) : Action → Answer × Desk
  | .queue ident subscriptionId now =>
    (.done, { s with outbox := (queue ident subscriptionId now s.outbox).2 })
  | .claim number column skipped now startedAt =>
    match s.held number with
    | some _ => (.done, s)
    | none =>
      match claim backend (keys.secret column) skipped now startedAt s.outbox with
      | (.ok (some claimed), t) => (.claimed claimed.row.id,
          ⟨t, Function.update s.held number (some claimed), Function.update s.seen number none⟩)
      | (.ok none, t) => (.done, { s with outbox := t })
      | (.error _, t) => (.raised, { s with outbox := t })
  | .look number =>
    match (s.held number).bind (fun claimed => s.outbox.deliveries.find claimed.row.id) with
    | none => (.done, s)
    | some row => (.done, { s with seen := Function.update s.seen number (some row.attempts) })
  | .report number sent now finished =>
    match s.held number with
    | none => (.done, s)
    | some claimed => (.done, file backend s number claimed now finished (reported claimed sent))
  | .recover staleBefore now => (.done, { s with outbox := (recoverStale staleBefore now s.outbox).2 })
  | .replay principal ident now =>
    (.done, { s with outbox := (replayDelivery principal ident now s.outbox).2 })
  | .resubscribe subscriptions => (.done, { s with outbox := { s.outbox with subscriptions } })

end Meemee.Source.Dispatch
