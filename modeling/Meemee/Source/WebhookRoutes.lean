import Meemee.Library.Tally
import Meemee.Source.Accounts
import Meemee.Source.Deliveries
import Meemee.Source.Entitlements
import Meemee.Source.JobCreation

/-!
# The webhook routes of the API

`create_webhook`, `pause_webhook`, `resume_webhook` and `delete_webhook` of `meemee/api.py`, over
the `WebhookStore` of `meemee/webhooks.py`. Creating counts the active subscriptions in one store
step and inserts in another; the requests between the two are part of the state. The URL, the
selected fields and the secret of a subscription are left out, as are the audit entries.
-/
namespace Meemee.Source.WebhookRoutes
open Library Source.Deliveries Source.Entitlements
open Source.JobCreation (Failure)

/-- A delivery as `set_active` reads it. -/
structure Delivery where
  id : String
  subscriptionId : String
  status : DeliveryStatus
  createdAt : Instant
  deriving DecidableEq, Repr

structure WebhookStore where
  subscriptions : Table Subscription.id
  deliveries : Table Delivery.id

def WebhookStore.empty : WebhookStore := ⟨Table.empty, Table.empty⟩

abbrev WebhookTxn := Txn WebhookStore Exc

/-- What the interpreter computes: `str.lower`, and the text of a list of strings. -/
structure Primitives where
  lower : String → String
  repr : List String → String

/-- `WebhookRequest`; the events are a set, the headers a dictionary. -/
structure WebhookRequest where
  events : List String
  headers : List (String × String)
  deriving DecidableEq, Repr

def activeOf (principal : String) (row : Subscription) : Bool :=
  decide (row.principal = principal) && row.active

def WebhookStore.activeCount (s : WebhookStore) (principal : String) : Nat :=
  s.subscriptions.tally (activeOf principal)

def reservedHeaders : List String :=
  ["authorization", "cookie", "host", "content-length", "content-type", "x-meemee-signature-256",
    "x-meemee-timestamp", "x-meemee-delivery", "x-meemee-event"]

def namesEvents (events : List String) : Bool :=
  !events.isEmpty && events.all (fun event => decide (PgJobs.strip event ≠ ""))

def forbiddenHeader (prim : Primitives) (name : String) : Bool :=
  reservedHeaders.contains (prim.lower name) || "proxy-".toList.isPrefixOf (prim.lower name).toList

def headersFit (headers : List (String × String)) : Bool :=
  decide (headers.length ≤ 20) &&
    headers.all (fun header => decide (header.1.length ≤ 100 ∧ header.2.length ≤ 1000))

/-- The checks of `subscribe`, in order. `destination` is what `validate_webhook_url` does, which
asks the resolver. -/
def checkSubscription (prim : Primitives) (destination : Except Exc Unit) (request : WebhookRequest) :
    Except Exc Unit := do
  destination
  if !namesEvents request.events then
    .error (.valueError "at least one non-empty event is required")
  if request.headers.any (fun header => forbiddenHeader prim header.1) then
    .error (.valueError "custom headers contain a forbidden sensitive or transport name")
  if !headersFit request.headers then
    .error (.valueError "custom headers exceed count or size limits")

/-- `subscribe`, under the id it draws. -/
def subscribe (prim : Primitives) (principal : String) (destination : Except Exc Unit)
    (request : WebhookRequest) (ident : String) : WebhookTxn Unit := do
  Txn.ofExcept (checkSubscription prim destination request)
  let fresh ← Txn.read (fun s => (s.subscriptions.find ident).isNone)
  Txn.require fresh (.integrityError "UNIQUE constraint failed: webhook_subscriptions.id")
  Txn.write (fun s =>
    { s with subscriptions := (s.subscriptions.insertOrIgnore ⟨ident, principal, true⟩).1 })

def withActive (active : Bool) (row : Subscription) : Subscription := { row with active := active }

theorem withActive_id (active : Bool) (row : Subscription) : (withActive active row).id = row.id := rfl

/-- `UPDATE webhook_subscriptions SET active=? WHERE p`, and whether it matched. -/
def assignActive (p : Subscription → Bool) (active : Bool) : WebhookTxn Bool := do
  let matched ← Txn.read (fun s => s.subscriptions.select p)
  Txn.write (fun s =>
    { s with subscriptions := s.subscriptions.update p (withActive active) (withActive_id active) })
  return !matched.isEmpty

def ownedBy (ident principal : String) (row : Subscription) : Bool :=
  decide (row.id = ident ∧ row.principal = principal)

def unsubscribe (ident principal : String) : WebhookTxn Bool :=
  assignActive (fun row => ownedBy ident principal row && row.active) false

def failedOf (ident : String) (row : Delivery) : Bool :=
  decide (row.subscriptionId = ident ∧ row.status = .failed)

/-- `ORDER BY created_at DESC LIMIT 1`. -/
def WebhookStore.latestFailure (s : WebhookStore) (ident : String) : Option Delivery :=
  s.deliveries.first (failedOf ident) (fun a b => decide (b.createdAt < a.createdAt))

/-- The breaker's cooldown, if it applies, has passed. -/
def cooled (latest : Option Delivery) (cooldownSeconds : Int) (now : Instant) : Bool :=
  decide (cooldownSeconds ≤ 0) ||
    latest.all (fun failure => decide (seconds cooldownSeconds ≤ now - failure.createdAt))

/-- `int(cooldown_seconds-age)`, of a positive difference. -/
def remaining (latest : Option Delivery) (cooldownSeconds : Int) (now : Instant) : Int :=
  latest.elim 0 (fun failure => (seconds cooldownSeconds - (now - failure.createdAt)) / 1000000)

def setActive (ident principal : String) (active : Bool) (cooldownSeconds : Int) (now : Instant) :
    WebhookTxn Bool := do
  let latest ← Txn.read (fun s => s.latestFailure ident)
  Txn.require (!active || cooled latest cooldownSeconds now)
    (.valueError ("circuit breaker cooldown has " ++ toString (remaining latest cooldownSeconds now) ++
      " seconds remaining"))
  assignActive (ownedBy ident principal) active

/-- The API process: its settings and the plans it reads. -/
structure Deployment where
  prim : Primitives
  entitlements : EntitlementStore
  /-- `settings.webhook_breaker_cooldown_seconds`. -/
  breakerCooldownSeconds : Int

/-- The events a request may name. -/
def allowedEvents : List String := ["job.done", "job.failed", "job.cancelled", "*"]

/-- `sorted(request.events - allowed)`. -/
def unknownEvents (events : List String) : List String :=
  (events.filter (fun event => !allowedEvents.contains event)).insertionSort (fun a b => a ≤ b)

/-- `create_webhook` between its two store steps: refused, or on its way to `subscribe`. -/
def Deployment.checkCreation (d : Deployment) (principal : String) (request : WebhookRequest)
    (current : Nat) : Except Failure Unit :=
  if !d.entitlements.allows principal .webhooks current then
    .error (.http 403 "plan webhook limit reached")
  else if !(unknownEvents request.events).isEmpty then
    .error (.http 422 ("unknown webhook events: " ++ d.prim.repr (unknownEvents request.events)))
  else .ok ()

/-- A `create_webhook` request whose count, `current`, has been read and allowed. -/
structure Creation where
  principal : String
  request : WebhookRequest
  current : Nat
  deriving DecidableEq, Repr

structure Routes where
  store : WebhookStore
  pending : List Creation

/-- One store step of one request. -/
inductive Call where
  /-- Of `create_webhook`: `active_count`. -/
  | count (principal : String) (request : WebhookRequest)
  /-- Of `create_webhook`: `subscribe`, for one of the pending requests. -/
  | subscribe (index : Nat) (destination : Except Exc Unit) (ident : String)
  | pause (ident principal : String) (now : Instant)
  | resume (ident principal : String) (now : Instant)
  | delete (ident principal : String)

/-- `except ValueError`: an HTTP error with the text; what else is raised goes through. -/
def valueErrorAs (status : Nat) : Exc → Failure
  | .valueError text => .http status text
  | other => .raised other

/-- 404 unless a row matched. -/
def found (detail : String) (matched : Bool) : Except Failure Unit :=
  if matched then .ok () else .error (.http 404 detail)

/-- What a route makes of what its store call returned or raised. -/
def Routes.after (s : Routes) (caught : Exc → Failure) (detail : String)
    (run : Except Exc Bool × WebhookStore) : Except Failure Unit × Routes :=
  ((run.1.mapError caught).bind (found detail), { s with store := run.2 })

/-- The pending request at an index inserts its subscription, and is answered. -/
def Deployment.finish (d : Deployment) (s : Routes) (index : Nat) (destination : Except Exc Unit)
    (ident : String) : Except Failure Unit × Routes :=
  match s.pending[index]? with
  | none => (.ok (), s)
  | some creation =>
    let run := subscribe d.prim creation.principal destination creation.request ident s.store
    (run.1.mapError (valueErrorAs 422), ⟨run.2, s.pending.eraseIdx index⟩)

def Deployment.step (d : Deployment) (s : Routes) : Call → Except Failure Unit × Routes
  | .count principal request =>
    let current := s.store.activeCount principal
    match d.checkCreation principal request current with
    | .ok () => (.ok (), { s with pending := s.pending ++ [⟨principal, request, current⟩] })
    | .error failure => (.error failure, s)
  | .subscribe index destination ident => d.finish s index destination ident
  | .pause ident principal now =>
    s.after .raised "webhook not found" (setActive ident principal false 0 now s.store)
  | .resume ident principal now =>
    s.after (valueErrorAs 409) "webhook not found"
      (setActive ident principal true d.breakerCooldownSeconds now s.store)
  | .delete ident principal =>
    s.after .raised "active webhook not found" (unsubscribe ident principal s.store)

end Meemee.Source.WebhookRoutes
