import Meemee.Source.Idempotency
import Meemee.Source.Quotas

/-!
# POST /v1/jobs

`create_job` of `meemee/api.py`: claim the idempotency key, count the job against the day's
quota, enqueue it, store the response. Each store commits its own transaction. SHA-256 and
`datetime.fromisoformat` are parameters.
-/
namespace Meemee.Source.JobCreation
open Library Source.Jobs Source.Idempotency Source.Quotas

structure JobRequest where
  goal : String
  runAt : Option String
  goalLength : 2 ≤ goal.length ∧ goal.length ≤ 20000

def JobRequest.modelDump (r : JobRequest) : Json :=
  .obj [("goal", .str r.goal), ("run_at", r.runAt.elim .null .str)]

/-- What the route answers without a response: an `HTTPException`, or an exception that it
does not handle. -/
inductive Failure where
  | http (status : Nat) (detail : String)
  | raised (e : Exc)
  deriving DecidableEq, Repr

/-- The clock readings of one request, in order. -/
structure Clock where
  /-- Of the claim's DELETE; on SQLite it dates the claimed row too. -/
  claimed : Instant
  /-- That dates the claimed row on PostgreSQL. -/
  inserted : Instant
  /-- Of `get`, when the claim inserted nothing. -/
  read : Instant
  /-- Of `quota_day`. -/
  charged : Instant
  /-- Of `enqueue`. -/
  queued : Nat → Instant
  /-- Of `put`: the one that dates the row and, on SQLite, the one the lease is compared with. -/
  published : Instant
  checked : Instant

/-- What a request comes with, and what goes wrong below the stores: the exceptions of the
database, if any, in `enqueue` and `put`, and of `audit.append`. -/
structure Call where
  request : JobRequest
  principal : String
  idempotencyKey : Option String
  /-- `secrets.token_urlsafe(32)`. -/
  claimToken : String
  /-- The uuid that `enqueue` draws. -/
  ident : String
  clock : Clock
  enqueueFault : Except Exc Unit
  putFault : Except Exc Unit
  audit : Except Exc Unit

/-- The row of the request's key; an empty key is none. -/
def Call.key (call : Call) : Option Key :=
  (call.idempotencyKey.filter (fun key => key ≠ "")).map (fun key => ⟨call.principal, "/v1/jobs", key⟩)

def hashOptions : Json.DumpOptions :=
  { sortKeys := true, compact := true, allowNan := false, defaultStr := true }

def requestHash (sha256 : String → String) (payload : Json) : Except Exc String :=
  (Json.dumps hashOptions payload).map sha256

/-- The calls that `create_job` makes of a deployment's stores. -/
structure Persistence (σ : Type) where
  claim : (Json → Except Exc String) → Clock → Key → Json → Option String → Txn Records Exc Bool
  put : (Json → Except Exc String) → Clock → Int → Key → Json → Int → Json → Option String →
    Txn Records Exc Unit
  consumeJob : Int → String → Instant → QuotaTxn Quota
  enqueue : String → String → Option RunAt → Int → Option String → (Nat → Instant) →
    Txn σ Exc String

def sqlite : Persistence JobStore where
  claim hash clock := Idempotency.SQLite.claim hash clock.claimed
  put hash clock := Idempotency.SQLite.put hash clock.published clock.checked
  consumeJob := Quotas.SQLite.consumeJob
  enqueue ident goal runAt maxAttempts principal clock :=
    Jobs.enqueue ident goal runAt maxAttempts principal (clock 0) (clock 1)

def postgres : Persistence PgJobs.PgStore where
  claim hash clock := Idempotency.Postgres.claim hash clock.claimed clock.inserted
  put hash clock := Idempotency.Postgres.put hash clock.published
  consumeJob := Quotas.Postgres.consumeJob
  enqueue := PgJobs.enqueue

/-- The stores behind the route. -/
structure Api (σ : Type) where
  idempotency : Records
  quotas : QuotaStore
  jobs : σ

/-- What the application is configured with. -/
structure Settings where
  defaultDailyJobs : Int
  /-- How long a stored response is kept. -/
  ttl : Int

variable {σ : Type}

abbrev ApiTxn (σ : Type) := Txn (Api σ) Failure

def onRecords {α : Type} (failure : Exc → Failure) (m : Txn Records Exc α) : ApiTxn σ α :=
  Txn.mapError failure (Txn.within (fun api => api.idempotency)
    (fun api t => { api with idempotency := t }) m)

def onQuotas {α : Type} (failure : QuotaExc → Failure) (m : QuotaTxn α) : ApiTxn σ α :=
  Txn.mapError failure (Txn.within (fun api => api.quotas) (fun api t => { api with quotas := t }) m)

def onJobs {α : Type} (m : Txn σ Exc α) : ApiTxn σ α :=
  Txn.mapError .raised (Txn.within (fun api => api.jobs) (fun api t => { api with jobs := t }) m)

/-- The handlers around `idempotency.claim`. -/
def claimFailure : Exc → Failure
  | .idempotencyConflict text | .idempotencyInProgress text => .http 409 text
  | .valueError text => .http 422 text
  | e => .raised e

/-- The handler around `idempotency.put`. -/
def putFailure : Exc → Failure
  | .idempotencyConflict text | .idempotencyInProgress text => .http 409 text
  | e => .raised e

/-- The handler around `quotas.consume_job`. -/
def quotaFailure : QuotaExc → Failure
  | .quotaExceeded text => .http 429 text
  | .database e => .raised e

/-- `run_at.replace("Z", "+00:00")`. -/
def zuluReplaced (text : String) : String :=
  String.ofList (text.toList.flatMap (fun c =>
    if c = 'Z' then ['+', '0', '0', ':', '0', '0'] else [c]))

section Route

variable (d : Persistence σ) (settings : Settings) (sha256 : String → String)
  (fromisoformat : String → Option RunAt)

/-- The requested time; an empty text is none. -/
def parseRunAt (text : Option String) : Except Failure (Option RunAt) :=
  match text with
  | none => .ok none
  | some text =>
    if text = "" then .ok none
    else match fromisoformat (zuluReplaced text) with
      | none => .error (.http 422 "run_at must be ISO 8601")
      | some .naive => .error (.http 422 "run_at must include a timezone")
      | some (.aware instant) => .ok (some (.aware instant))

/-- `idempotency.claim`: `none` when the caller owns the key. -/
def claim (clock : Clock) (key : Key) (payload : Json) (claimToken : String) :
    Txn Records Exc (Option (Int × Json)) := do
  let inserted ← d.claim (requestHash sha256) clock key payload (some claimToken)
  if inserted then return none
  else Idempotency.get (requestHash sha256) clock.read key payload

/-- Claim the key of a request that has one. -/
def claimKey (call : Call) : ApiTxn σ (Option (Int × Json)) :=
  match call.key with
  | none => pure none
  | some key => onRecords claimFailure
      (claim d sha256 call.clock key call.request.modelDump call.claimToken)

/-- Read the time and count the job. -/
def charge (call : Call) : ApiTxn σ (Option RunAt × Quota) := do
  let runAt ← Txn.ofExcept (parseRunAt fromisoformat call.request.runAt)
  let quota ← onQuotas quotaFailure
    (d.consumeJob settings.defaultDailyJobs call.principal call.clock.charged)
  return (runAt, quota)

/-- `jobs.enqueue`, with three attempts. -/
def enqueueJob (call : Call) (runAt : Option RunAt) : ApiTxn σ String :=
  onJobs (do
    Txn.ofExcept call.enqueueFault
    d.enqueue call.ident call.request.goal runAt 3 (some call.principal) call.clock.queued)

def releaseKey (call : Call) : ApiTxn σ Unit :=
  match call.key with
  | none => pure ()
  | some key => onRecords .raised (release key (some call.claimToken))

def responseOf (ident : String) (quota : Quota) : Json :=
  .obj [("id", .str ident), ("quota", quota.json)]

/-- Store the response under the key of a request that has one. -/
def putResponse (call : Call) (response : Json) : ApiTxn σ Unit :=
  match call.key with
  | none => pure ()
  | some key => onRecords putFailure (do
      Txn.ofExcept call.putFault
      d.put (requestHash sha256) call.clock settings.ttl key call.request.modelDump 200 response
        (some call.claimToken))

/-- The guarded part: whatever it raises, the key is released and the exception goes on. -/
def bookJob (call : Call) : ApiTxn σ (String × Quota) :=
  Txn.onRaise (do
    let charged ← charge d settings fromisoformat call
    let ident ← enqueueJob d call charged.1
    return (ident, charged.2)) (releaseKey call)

/-- What follows once the job is in the queue. -/
def finishJob (call : Call) (booked : String × Quota) : ApiTxn σ Json := do
  putResponse d settings sha256 call (responseOf booked.1 booked.2)
  Txn.ofExcept (call.audit.mapError .raised)
  return responseOf booked.1 booked.2

def createJob (call : Call) : ApiTxn σ Json := do
  let cached ← claimKey d sha256 call
  match cached with
  | some response => return response.2
  | none => bookJob d settings fromisoformat call >>= finishJob d settings sha256 call

end Route

end Meemee.Source.JobCreation
