import Meemee.Source.Jobs

/-!
# JobStore on PostgreSQL

`meemee_persist_pg/jobs.py`. A claim leases the row to a worker under a token, and
every later call of the worker must carry the pair while the lease lasts. Each
statement that asks for `clock_timestamp()` takes the next reading of the database
clock. Events are deleted with their job (`ON DELETE CASCADE`).
-/
namespace Meemee.Source.PgJobs
open Library Source.Jobs

abbrev Clock := Nat → Instant

structure PgJob where
  id : String
  goal : String
  runAt : Instant
  status : JobStatus
  attempts : Int
  maxAttempts : Int
  leaseOwner : Option String
  leaseToken : Option String
  leaseExpiresAt : Option Instant
  result : Option Json
  error : Option String
  createdAt : Instant
  updatedAt : Instant
  principal : Option String
  purgePending : Bool
  deriving Repr

structure PgStore where
  jobs : Table PgJob.id
  events : Log JobEvent

def PgStore.empty : PgStore := ⟨Table.empty, Log.empty⟩

abbrev PgTxn := Txn PgStore Exc

/-- A store handle: the worker's identity and the length of its leases. -/
structure Worker where
  workerId : String
  leaseSeconds : Int
  deriving DecidableEq, Repr

def insertEvent (ident : String) (kind : EventKind) (payload : EventPayload) (now : Instant) :
    PgTxn Unit :=
  Txn.write (fun s => { s with events := s.events.append ⟨ident, kind, payload, now⟩ })

def findJob (ident : String) : PgTxn (Option PgJob) := Txn.read (fun s => s.jobs.find ident)

/-- `UPDATE meemee_jobs SET f WHERE p RETURNING *`: the rows as updated. -/
def updateReturning (p : PgJob → Bool) (f : PgJob → PgJob) (keeps : ∀ j, (f j).id = j.id) :
    PgTxn (List PgJob) := do
  let matched ← Txn.read (fun s => s.jobs.select p)
  Txn.write (fun s => { s with jobs := s.jobs.update p f keeps })
  return matched.map f

/-- `DELETE FROM meemee_jobs WHERE p`, with the cascade: the rowcount. -/
def deleteJobs (p : PgJob → Bool) : PgTxn Nat := do
  let matched ← Txn.read (fun s => s.jobs.select p)
  Txn.write (fun s =>
    { jobs := s.jobs.delete p
      events := s.events.delete (fun e => (s.jobs.find e.jobId).any p) })
  return matched.length

def dueBefore (a b : PgJob) : Bool := decide (a.runAt < b.runAt ∨ a.runAt = b.runAt ∧ a.id < b.id)

/-- Held by a worker. -/
def PgJob.held (job : PgJob) : Bool := decide (job.status = .running ∨ job.status = .cancelRequested)

/-- `lease_expires_at<=now`; a job without a lease has none that expired. -/
def PgJob.leaseExpired (job : PgJob) (now : Instant) : Bool :=
  job.leaseExpiresAt.any (fun expires => decide (expires ≤ now))

/-- `lease_owner=%s AND lease_token=%s`. -/
def PgJob.leasedTo (job : PgJob) (workerId token : String) : Bool :=
  decide (job.leaseOwner = some workerId ∧ job.leaseToken = some token)

/-- The lease is the caller's and has not expired. -/
def PgJob.heldBy (job : PgJob) (workerId token : String) (now : Instant) : Bool :=
  job.leasedTo workerId token && job.leaseExpiresAt.any (fun expires => decide (now < expires))

def PgJob.unleased (job : PgJob) : PgJob :=
  { job with leaseOwner := none, leaseToken := none, leaseExpiresAt := none }

/-- `str.isspace` of one character. -/
def isSpace (c : Char) : Bool :=
  let n := c.toNat
  decide (9 ≤ n ∧ n ≤ 13 ∨ 28 ≤ n ∧ n ≤ 32 ∨ n = 133 ∨ n = 160 ∨ n = 5760 ∨ 8192 ≤ n ∧ n ≤ 8202 ∨
    n = 8232 ∨ n = 8233 ∨ n = 8239 ∨ n = 8287 ∨ n = 12288)

/-- `str.strip`. -/
def strip (text : String) : String :=
  let front := text.toList.dropWhile isSpace
  String.ofList (front.reverse.dropWhile isSpace).reverse

/-- `not goal.strip()`. -/
def blank (goal : String) : Bool := goal.toList.all isSpace

def checkRunAt : Option RunAt → PgTxn (Option Instant)
  | none => pure none
  | some .naive => Txn.raise (.valueError "run_at requires a timezone")
  | some (.aware instant) => pure (some instant)

def newJob (ident goal : String) (due : Instant) (maxAttempts : Int) (principal : Option String)
    (now : Instant) : PgJob :=
  { id := ident, goal := goal, runAt := due, status := .queued, attempts := 0,
    maxAttempts := maxAttempts, leaseOwner := none, leaseToken := none, leaseExpiresAt := none,
    result := none, error := none, createdAt := now, updatedAt := now, principal := principal,
    purgePending := false }

/-- A `text` value holds no NUL. -/
def storesText (text : String) : Bool := !text.toList.contains (Char.ofNat 0)

/-- PostgreSQL's `integer` has 32 bits. -/
def maxInteger : Int := 2147483647

def outOfRange : Exc := .dataError "value does not fit its column"

/-- An `error` argument as its column takes it. -/
def errorColumn (error : PyStr) : Except Exc String := do
  let text ← error.bound
  if storesText text then return text else .error outOfRange

theorem errorColumn_text (text : String) :
    errorColumn text = if storesText text then .ok text else .error outOfRange := rfl

/-- The transaction of `enqueue`: the row and its first event, logged at `now`. -/
def insertJob (job : PgJob) (runAt : Option Instant) (now : Instant) : PgTxn String :=
  Txn.atomically do
    Txn.require (storesText job.goal && job.principal.all storesText &&
      decide (job.maxAttempts ≤ maxInteger)) outOfRange
    let fresh ← Txn.read (fun s => (s.jobs.insertOrIgnore job).2)
    Txn.require fresh (.integrityError "duplicate key value violates unique constraint")
    Txn.write (fun s => { s with jobs := (s.jobs.insertOrIgnore job).1 })
    insertEvent job.id .queued (.runAt runAt) now
    return job.id

def enqueue (ident goal : String) (runAt : Option RunAt) (maxAttempts : Int)
    (principal : Option String) (clock : Clock) : PgTxn String := do
  let runAt ← checkRunAt runAt
  Txn.require (!blank goal && decide (1 ≤ maxAttempts))
    (.valueError "goal and positive max_attempts required")
  insertJob (newJob ident goal (runAt.getD (clock 0)) maxAttempts principal (clock 0)) runAt
    (clock 1)

def PgJob.failedStatus (job : PgJob) : JobStatus :=
  if job.attempts < job.maxAttempts then .queued else .failed

def PgJob.failedKind (job : PgJob) : EventKind :=
  if job.attempts < job.maxAttempts then .retry else .failed

/-- Out of the worker's hands: failed, or back in the queue. -/
def PgJob.failed (job : PgJob) (error : String) (now : Instant) : PgJob :=
  { job.unleased with status := job.failedStatus, error := some error, updatedAt := now }

@[simp] theorem PgJob.failed_id (job : PgJob) (error : String) (now : Instant) :
    (job.failed error now).id = job.id := rfl

def PgJob.reapedCancelled (job : PgJob) (now : Instant) : PgJob :=
  { job.unleased with
    status := .cancelled, error := some "cancelled; worker lease expired", updatedAt := now }

@[simp] theorem PgJob.reapedCancelled_id (job : PgJob) (now : Instant) :
    (job.reapedCancelled now).id = job.id := rfl

/-- One event for each returned row. -/
def insertEvents (kind : PgJob → EventKind) (payload : EventPayload) (now : Instant) :
    List PgJob → PgTxn Unit
  | [] => pure ()
  | row :: rest => do
    insertEvent row.id (kind row) payload now
    insertEvents kind payload now rest

/-- A purge tombstone that no worker holds. -/
def PgJob.purgeable (job : PgJob) (now : Instant) : Bool :=
  job.purgePending && (!job.held || job.leaseExpiresAt.isNone || job.leaseExpired now)

def expiredError : EventPayload := .error (some "worker lease expired")

/-- The kind of the event the reaper writes for a returned row. -/
def reapedKind (row : PgJob) : EventKind := if row.status = .queued then .retry else .failed

/-- `_reap`: drop dead tombstones, requeue or fail expired runs, settle expired
cancellations. Its statements take readings 0 to 2. -/
def reap (clock : Clock) : PgTxn Unit := do
  let _ ← deleteJobs (fun j => j.purgeable (clock 0))
  let rows ← updateReturning (fun j => decide (j.status = .running) && j.leaseExpired (clock 1))
    (fun j => j.failed "worker lease expired" (clock 1)) (fun j => j.failed_id _ _)
  insertEvents reapedKind expiredError (clock 1) rows
  let rows ← updateReturning
    (fun j => decide (j.status = .cancelRequested) && j.leaseExpired (clock 2))
    (fun j => j.reapedCancelled (clock 2)) (fun j => j.reapedCancelled_id _)
  insertEvents (fun _ => .cancelled) (.error (some "worker lease expired after cancel request"))
    (clock 2) rows

/-- The row as a claim leases it. -/
def PgJob.claimed (job : PgJob) (worker : Worker) (token : String) (now : Instant) : PgJob :=
  { job with
    status := .running
    attempts := job.attempts + 1
    leaseOwner := some worker.workerId
    leaseToken := some token
    leaseExpiresAt := some (now + seconds worker.leaseSeconds)
    updatedAt := now }

@[simp] theorem PgJob.claimed_id (job : PgJob) (worker : Worker) (token : String) (now : Instant) :
    (job.claimed worker token now).id = job.id := rfl

/-- `claim`: reap, then lease the first due job at reading 3. `token` is the drawn uuid. -/
def claim (worker : Worker) (token : String) (clock : Clock) : PgTxn (Option PgJob) :=
  Txn.atomically do
    reap clock
    let candidate ← Txn.read (fun s =>
      s.jobs.first (fun j => decide (j.status = .queued ∧ j.runAt ≤ clock 3)) dueBefore)
    match candidate with
    | none => return none
    | some candidate =>
      let rows ← updateReturning (fun j => decide (j.id = candidate.id))
        (fun j => j.claimed worker token (clock 3)) (fun j => j.claimed_id _ _ _)
      match rows.head? with
      | none => return none
      | some row => do
        insertEvent row.id .running (.attempt row.attempts (some worker.workerId)) (clock 3)
        return some row

def PgJob.extended (job : PgJob) (worker : Worker) (now : Instant) : PgJob :=
  { job with leaseExpiresAt := some (now + seconds worker.leaseSeconds), updatedAt := now }

@[simp] theorem PgJob.extended_id (job : PgJob) (worker : Worker) (now : Instant) :
    (job.extended worker now).id = job.id := rfl

def heartbeat (worker : Worker) (ident token : String) (now : Instant) : PgTxn Bool :=
  Txn.atomically do
    let rows ← updateReturning
      (fun j => decide (j.id = ident) && j.held && j.heldBy worker.workerId token now)
      (fun j => j.extended worker now) (fun j => j.extended_id _ _)
    return !rows.isEmpty

/-- Delete the tombstone of the caller's job. The lease may have expired. -/
def settlePurge (worker : Worker) (ident token : String) : PgTxn Bool := do
  let deleted ← deleteJobs (fun j =>
    decide (j.id = ident) && j.purgePending && j.leasedTo worker.workerId token)
  return decide (0 < deleted)

def leaseLost (ident : String) : Exc := .leaseLost ("job " ++ ident ++ " lease is no longer owned")

mutual

/-- `jsonb` takes no NaN, no infinity and no `\u0000`. -/
def storesJson : Json → Bool
  | .float (.finite _) => true
  | .float _ => false
  | .str value => storesText value
  | .arr items => storesItems items
  | .obj fields => storesFields fields
  | _ => true

def storesItems : List Json → Bool
  | [] => true
  | item :: rest => storesJson item && storesItems rest

def storesFields : List (String × Json) → Bool
  | [] => true
  | (name, value) :: rest => storesText name && storesJson value && storesFields rest

end

/-- What becomes of a result: JSON text first, which `jsonb` then parses. -/
def checkJsonb (value : Json) : Except Exc Json := do
  let _ ← Json.dumps {} value
  if storesJson value then return value
  else .error (.dataError "invalid input syntax for type json")

/-- `Jsonb(result) if result is not None else None`. -/
def resultParameter : Option Json → Except Exc (Option Json)
  | none => .ok none
  | some value => (checkJsonb value).map some

/-- The job that a worker settles, whose event kind is the status' name. -/
def PgJob.settled (job : PgJob) (status : JobStatus) (result : Option Json) (error : Option String)
    (now : Instant) : PgJob :=
  { job.unleased with status := status, result := result, error := error, updatedAt := now }

@[simp] theorem PgJob.settled_id (job : PgJob) (status : JobStatus) (result : Option Json)
    (error : Option String) (now : Instant) : (job.settled status result error now).id = job.id := rfl

def statusKind : JobStatus → EventKind
  | .queued => .queued
  | .running => .running
  | .done => .done
  | .failed => .failed
  | .cancelRequested => .cancelRequested
  | .cancelled => .cancelled

def settledPayload (result : Option Json) (error : Option String) : EventPayload :=
  match result with
  | some value => .result value
  | none => .error error

/-- `_terminal`: `True` means that account deletion purged the job instead. -/
def terminal (worker : Worker) (ident token : String) (status : JobStatus) (result : Option Json)
    (error : Option String) (now : Instant) : PgTxn Bool :=
  Txn.atomically do
    let purged ← settlePurge worker ident token
    if purged then return true
    else do
      let result ← Txn.ofExcept (resultParameter result)
      let rows ← updateReturning
        (fun j => decide (j.id = ident) && j.held && j.heldBy worker.workerId token now)
        (fun j => j.settled status result error now) (fun j => j.settled_id _ _ _ _)
      Txn.require (!rows.isEmpty) (leaseLost ident)
      insertEvent ident (statusKind status) (settledPayload result error) now
      return false

/-- `_owned_token`, a transaction of its own. -/
def ownedToken (worker : Worker) (ident : String) : PgTxn String := do
  let row ← findJob ident
  match row.filter (fun j => decide (j.leaseOwner = some worker.workerId)) with
  | none => Txn.raise (leaseLost ident)
  | some row => return row.leaseToken.getD "None"

/-- `lease_token or self._owned_token(ident)`. -/
def tokenOr (worker : Worker) (ident : String) (token : Option String) : PgTxn String :=
  match token.filter (fun t => decide (t ≠ "")) with
  | some token => pure token
  | none => ownedToken worker ident

/-- `finish` under a token. -/
def finishWith (worker : Worker) (ident : String) (result : Json) (token : String)
    (now : Instant) : PgTxn Bool :=
  terminal worker ident token .done (given result) none now

def finish (worker : Worker) (ident : String) (result : Json) (token : Option String)
    (now : Instant) : PgTxn Bool := do
  let token ← tokenOr worker ident token
  finishWith worker ident result token now

/-- `fail` under a token. -/
def failWith (worker : Worker) (ident : String) (error : PyStr) (token : String) (now : Instant) :
    PgTxn Bool :=
  Txn.atomically do
    let purged ← settlePurge worker ident token
    if purged then return true
    else do
      let error ← Txn.ofExcept (errorColumn error)
      let rows ← updateReturning (fun j => decide (j.id = ident ∧ j.status = .running) &&
          j.heldBy worker.workerId token now)
        (fun j => j.failed error now) (fun j => j.failed_id _ _)
      match rows.head? with
      | none => Txn.raise (leaseLost ident)
      | some row => do
        insertEvent ident (reapedKind row) (.error (some error)) now
        return false

def fail (worker : Worker) (ident : String) (error : PyStr) (token : Option String)
    (now : Instant) : PgTxn Bool := do
  let token ← tokenOr worker ident token
  failWith worker ident error token now

/-- Run a program; what it raises as a lost lease becomes `otherwise`. -/
def exceptLeaseLost {α : Type} (m : PgTxn α) (otherwise : α) : PgTxn α := fun s =>
  match m s with
  | (.error (.leaseLost _), t) => (.ok otherwise, t)
  | outcome => outcome

/-- `cancel_running` under a token. -/
def cancelWith (worker : Worker) (ident token : String) (now : Instant) : PgTxn Bool :=
  exceptLeaseLost (do
    let _ ← terminal worker ident token .cancelled none (some "cancelled") now
    return true) false

def cancelRunning (worker : Worker) (ident : String) (token : Option String) (now : Instant) :
    PgTxn Bool :=
  exceptLeaseLost (do
    let token ← tokenOr worker ident token
    cancelWith worker ident token now) false

def cancelTarget : JobStatus → JobStatus
  | .queued => .cancelled
  | .running => .cancelRequested
  | status => status

def PgJob.cancelAsked (job : PgJob) (now : Instant) : PgJob :=
  { job with status := cancelTarget job.status, updatedAt := now }

@[simp] theorem PgJob.cancelAsked_id (job : PgJob) (now : Instant) :
    (job.cancelAsked now).id = job.id := rfl

def requestCancel (ident : String) (now : Instant) : PgTxn (Option JobStatus) :=
  Txn.atomically do
    let rows ← updateReturning (fun j => decide (j.id = ident)) (fun j => j.cancelAsked now)
      (fun j => j.cancelAsked_id _)
    match rows.head? with
    | none => return none
    | some row => do
      insertEvent ident (statusKind row.status) .empty now
      return some row.status

def cancel (ident : String) (now : Instant) : PgTxn Bool := do
  let status ← requestCancel ident now
  return decide (status = some .cancelled)

def get (ident : String) : PgTxn (Option PgJob) := findJob ident

def ownedBy (principal : String) (job : PgJob) : Bool := decide (job.principal = some principal)

def PgJob.tombstoned (job : PgJob) (now : Instant) : PgJob :=
  { job with
    goal := "[deleted]"
    result := none
    error := some "account deleted"
    principal := none
    status := .cancelRequested
    purgePending := true
    updatedAt := now }

@[simp] theorem PgJob.tombstoned_id (job : PgJob) (now : Instant) :
    (job.tombstoned now).id = job.id := rfl

/-- Delete the events of the jobs that meet `p`: the rowcount. -/
def deleteEventsOf (p : PgJob → Bool) : PgTxn Nat := do
  let count ← Txn.read (fun s : PgStore =>
    (s.events.entries.filter (fun e => (s.jobs.find e.2.jobId).any p)).length)
  Txn.write (fun s => { s with events := s.events.delete (fun e => (s.jobs.find e.jobId).any p) })
  return count

def purgePrincipal (principal : String) (now : Instant) : PgTxn PurgeCounts := do
  Txn.require (decide (principal ≠ "")) (.valueError "principal is required")
  Txn.atomically do
    let running ← Txn.read (fun s => s.jobs.select (fun j => ownedBy principal j && j.held))
    let runningEvents ← deleteEventsOf (fun j => ownedBy principal j && j.held)
    let _ ← updateReturning (fun j => ownedBy principal j && j.held) (fun j => j.tombstoned now)
      (fun j => j.tombstoned_id _)
    let idleEvents ← deleteEventsOf (ownedBy principal)
    let deleted ← deleteJobs (ownedBy principal)
    return ⟨deleted, runningEvents + idleEvents, running.length⟩

def sweepPurges (staleBefore : Option Instant) (clock : Clock) : PgTxn Nat :=
  Txn.atomically do
    let swept ← deleteJobs (fun j => j.purgeable (clock 0))
    match staleBefore with
    | none => return swept
    | some stale => do
      let abandoned ← deleteJobs (fun j => j.purgePending && decide (j.updatedAt < stale))
      return swept + abandoned

end Meemee.Source.PgJobs
