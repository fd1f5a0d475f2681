import Meemee.Library.Log
import Meemee.Library.Table
import Meemee.Library.Txn
import Meemee.Source.Values

/-!
# JobStore on SQLite

`meemee/jobs.py`: the durable queue and its event log. The row and the event of an
operation are written in one transaction, under the store's lock. An event payload is
kept as the data it encodes; a job's result is kept as the text `json.dumps` wrote.
-/
namespace Meemee.Source.Jobs
open Library

/-- `CHECK(status IN (...))`. -/
inductive JobStatus where
  | queued | running | done | failed | cancelRequested | cancelled
  deriving DecidableEq, Repr

def JobStatus.text : JobStatus → String
  | .queued => "queued"
  | .running => "running"
  | .done => "done"
  | .failed => "failed"
  | .cancelRequested => "cancel_requested"
  | .cancelled => "cancelled"

/-- The statuses a stream closes on and a webhook is sent for. -/
def JobStatus.terminal : JobStatus → Bool
  | .done | .failed | .cancelled => true
  | _ => false

inductive EventKind where
  | queued | running | retry | done | failed | cancelRequested | cancelled
  deriving DecidableEq, Repr

/-- What the JSON payload of an event holds. -/
inductive EventPayload where
  | runAt (due : Option Instant)
  | attempt (number : Int) (worker : Option String)
  | result (value : Json)
  | error (text : Option String)
  | empty
  deriving Repr

structure Job where
  id : String
  goal : String
  runAt : Instant
  status : JobStatus
  attempts : Int
  maxAttempts : Int
  result : Option String
  error : Option String
  createdAt : Instant
  updatedAt : Instant
  principal : Option String
  purgePending : Bool
  deriving DecidableEq, Repr

structure JobEvent where
  jobId : String
  kind : EventKind
  payload : EventPayload
  createdAt : Instant
  deriving Repr

structure JobStore where
  jobs : Table Job.id
  events : Log JobEvent
  /-- The job and the event that `_publish_terminal` writes are within SQLite's size limits. -/
  takes : Job → JobEvent → Bool

def JobStore.empty : JobStore := ⟨Table.empty, Log.empty, fun _ _ => true⟩

abbrev JobTxn := Txn JobStore Exc

def ofJob (ident : String) (e : JobEvent) : Bool := decide (e.jobId = ident)

def findJob (ident : String) : JobTxn (Option Job) := Txn.read (fun s => s.jobs.find ident)

/-- `UPDATE jobs SET f WHERE p`: whether any row matched. -/
def updateJobs (p : Job → Bool) (f : Job → Job) (keeps : ∀ j, (f j).id = j.id) : JobTxn Bool := do
  let matched ← Txn.read (fun s => s.jobs.select p)
  Txn.write (fun s => { s with jobs := s.jobs.update p f keeps })
  return !matched.isEmpty

def insertEvent (ident : String) (kind : EventKind) (payload : EventPayload) (now : Instant) :
    JobTxn Unit :=
  Txn.write (fun s => { s with events := s.events.append ⟨ident, kind, payload, now⟩ })

/-- Delete the jobs that meet `p` together with their events. -/
def JobStore.drop (s : JobStore) (p : Job → Bool) : JobStore :=
  { s with
    jobs := s.jobs.delete p
    events := s.events.delete (fun e => (s.jobs.find e.jobId).any p) }

/-- `ORDER BY run_at,id`. -/
def dueBefore (a b : Job) : Bool := decide (a.runAt < b.runAt ∨ a.runAt = b.runAt ∧ a.id < b.id)

/-- A `run_at` argument: a naive `datetime` or an instant. -/
inductive RunAt where
  | naive
  | aware (instant : Instant)
  deriving DecidableEq, Repr

/-- The instant of a `run_at` argument, when one is passed. -/
def RunAt.given : Option RunAt → Option Instant
  | some (.aware instant) => some instant
  | _ => none

/-- The instants a UTC `datetime` can stand for, of the years 1 to 9999. -/
def firstInstant : Instant := -62135596800000000

def lastInstant : Instant := 253402300799999999

/-- `run_at.astimezone(timezone.utc)` has a result. -/
def RunAt.converts : Option RunAt → Bool
  | some (.aware instant) => decide (firstInstant ≤ instant ∧ instant ≤ lastInstant)
  | _ => true

/-- A naive `run_at` is refused, and one that has no UTC time. -/
def checkRunAt : Option RunAt → JobTxn (Option Instant)
  | none => pure none
  | some .naive => Txn.raise (.valueError "run_at requires a timezone")
  | some (.aware instant) => do
    Txn.require (RunAt.converts (some (.aware instant))) (.overflowError "date value out of range")
    return some instant

def newJob (ident goal : String) (due : Instant) (maxAttempts : Int) (principal : Option String)
    (now : Instant) : Job :=
  { id := ident, goal := goal, runAt := due, status := .queued, attempts := 0,
    maxAttempts := maxAttempts, result := none, error := none, createdAt := now, updatedAt := now,
    principal := principal, purgePending := false }

/-- SQLite's INTEGER has 64 bits. -/
def maxInteger : Int := 9223372036854775807

/-- The transaction of `enqueue`: the row and its first event. -/
def insertJob (job : Job) (now : Instant) : JobTxn String :=
  Txn.atomically do
    Txn.require (decide (job.maxAttempts ≤ maxInteger))
      (.overflowError "Python int too large to convert to SQLite INTEGER")
    let fresh ← Txn.read (fun s => (s.jobs.insertOrIgnore job).2)
    Txn.require fresh (.integrityError "UNIQUE constraint failed: jobs.id")
    Txn.write (fun s => { s with jobs := (s.jobs.insertOrIgnore job).1 })
    insertEvent job.id .queued (.runAt (some job.runAt)) now
    return job.id

/-- `ident` is the drawn uuid; `clock` is the reading that stands for a missing `run_at`. -/
def enqueue (ident goal : String) (runAt : Option RunAt) (maxAttempts : Int)
    (principal : Option String) (now clock : Instant) : JobTxn String := do
  let runAt ← checkRunAt runAt
  insertJob (newJob ident goal (runAt.getD clock) maxAttempts principal now) now

def Job.claimed (job : Job) (now : Instant) : Job :=
  { job with status := .running, attempts := job.attempts + 1, updatedAt := now }

@[simp] theorem Job.claimed_id (job : Job) (now : Instant) : (job.claimed now).id = job.id := rfl

/-- The first due job, as it stood before the claim. -/
def claim (now : Instant) : JobTxn (Option Job) :=
  Txn.atomically do
    let row ← Txn.read (fun s =>
      s.jobs.first (fun j => decide (j.status = .queued ∧ j.runAt ≤ now)) dueBefore)
    match row with
    | none => return none
    | some row =>
      let changed ← updateJobs (fun j => decide (j.id = row.id ∧ j.status = .queued))
        (fun j => j.claimed now) (fun j => j.claimed_id now)
      if changed then
        insertEvent row.id .running (.attempt (row.attempts + 1) none) now
        return some row
      else return none

/-- Delete a tombstoned job once its worker lets go of it. -/
def settlePurge (ident : String) : JobTxn Bool := do
  let matched ← Txn.read (fun s => s.jobs.select (fun j => decide (j.id = ident) && j.purgePending))
  Txn.write (fun s => s.drop (fun j => decide (j.id = ident) && j.purgePending))
  return !matched.isEmpty

def Job.finished (job : Job) (result : String) (error : Option String) (now : Instant) : Job :=
  { job with status := .done, result := some result, error := error, updatedAt := now }

@[simp] theorem Job.finished_id (job : Job) (result : String) (error : Option String)
    (now : Instant) : (job.finished result error now).id = job.id := rfl

def Job.failedStatus (job : Job) : JobStatus :=
  if job.attempts < job.maxAttempts then .queued else .failed

def Job.failedKind (job : Job) : EventKind :=
  if job.attempts < job.maxAttempts then .retry else .failed

def Job.failed (job : Job) (error : Option String) (now : Instant) : Job :=
  { job with status := job.failedStatus, result := none, error := error, updatedAt := now }

@[simp] theorem Job.failed_id (job : Job) (error : Option String) (now : Instant) :
    (job.failed error now).id = job.id := rfl

def tooBig : Exc := .dataError "string or blob too big"

/-- The two writes of `_publish_terminal` about a job that stands as `row`. -/
def writeTerminal (row : Job) (ident : String) (f : Job → Job) (keeps : ∀ j, (f j).id = j.id)
    (event : JobEvent) : JobTxn Unit := do
  let fits ← Txn.read (fun s => s.takes (f row) event)
  Txn.require fits tooBig
  let _ ← updateJobs (fun j => decide (j.id = ident)) f keeps
  Txn.write (fun s => { s with events := s.events.append event })

/-- `_publish_terminal`: done with a result, else failed or back in the queue; a
tombstoned job is deleted instead. `True` means purged. -/
def publishTerminal (ident : String) (result : Option Json) (error : Option PyStr)
    (now : Instant) : JobTxn Bool :=
  Txn.atomically do
    let row ← findJob ident
    match row with
    | none => Txn.raise (.valueError "unknown job")
    | some row =>
      if row.purgePending then
        Txn.write (fun s => s.drop (fun j => decide (j.id = ident)))
        return true
      else do
        Txn.require (decide (row.status = .running))
          (.valueError ("job is not running: " ++ row.status.text))
        match result with
        | some value => do
          let text ← Txn.ofExcept (Json.dumps {} value)
          let error ← Txn.ofExcept (error.mapM PyStr.bound)
          writeTerminal row ident (fun j => j.finished text error now)
            (fun j => j.finished_id text error now) ⟨ident, .done, .result value, now⟩
          return false
        | none => do
          let error ← Txn.ofExcept (error.mapM PyStr.bound)
          writeTerminal row ident (fun j => j.failed error now) (fun j => j.failed_id error now)
            ⟨ident, row.failedKind, .error error, now⟩
          return false

/-- A `result` argument: `None` is no result. -/
def given : Json → Option Json
  | .null => none
  | value => some value

theorem given_cases (result : Json) : result = .null ∨ given result = some result := by
  cases result with
  | null => exact .inl rfl
  | _ => exact .inr rfl

def finish (ident : String) (result : Json) (now : Instant) : JobTxn Bool :=
  publishTerminal ident (given result) none now

def fail (ident : String) (error : PyStr) (now : Instant) : JobTxn Bool :=
  publishTerminal ident none (some error) now

def Job.cancelAt (job : Job) (target : JobStatus) (now : Instant) : Job :=
  { job with status := target, error := some "cancelled", updatedAt := now }

@[simp] theorem Job.cancelAt_id (job : Job) (target : JobStatus) (now : Instant) :
    (job.cancelAt target now).id = job.id := rfl

def requestCancel (ident : String) (now : Instant) : JobTxn (Option JobStatus) :=
  Txn.atomically do
    let row ← findJob ident
    match row with
    | none => return none
    | some row =>
      match row.status with
      | .queued => do
        let _ ← updateJobs (fun j => decide (j.id = ident)) (fun j => j.cancelAt .cancelled now)
          (fun j => j.cancelAt_id _ now)
        insertEvent ident .cancelled .empty now
        return some .cancelled
      | .running => do
        let _ ← updateJobs (fun j => decide (j.id = ident))
          (fun j => j.cancelAt .cancelRequested now) (fun j => j.cancelAt_id _ now)
        insertEvent ident .cancelRequested .empty now
        return some .cancelRequested
      | status => return some status

/-- The shared transaction of `cancel_running` and `cancel`: cancel from one status. -/
def cancelFrom (source : JobStatus) (ident : String) (now : Instant) : JobTxn Bool :=
  Txn.atomically do
    let changed ← updateJobs (fun j => decide (j.id = ident ∧ j.status = source))
      (fun j => j.cancelAt .cancelled now) (fun j => j.cancelAt_id _ now)
    if changed then
      insertEvent ident .cancelled .empty now
      return true
    else return false

/-- The second transaction of `cancel_running`. -/
def cancelRequestedJob (ident : String) (now : Instant) : JobTxn Bool :=
  cancelFrom .cancelRequested ident now

def cancelRunning (ident : String) (now : Instant) : JobTxn Bool := do
  let settled ← settlePurge ident
  if settled then return true
  else cancelRequestedJob ident now

def cancel (ident : String) (now : Instant) : JobTxn Bool := cancelFrom .queued ident now

def get (ident : String) : JobTxn (Option Job) := findJob ident

def getOwned (ident principal : String) : JobTxn (Option Job) :=
  Txn.read (fun s => (s.jobs.find ident).filter (fun j => decide (j.principal = some principal)))

/-- `events(ident, after)`: the numbered events, in the order of their numbers. -/
def JobStore.eventsAfter (s : JobStore) (ident : String) (after : Int) : List (Nat × JobEvent) :=
  s.events.after (ofJob ident) after

structure PurgeCounts where
  jobsDeleted : Nat
  jobEventsDeleted : Nat
  runningTombstoned : Nat
  deriving DecidableEq, Repr

/-- A job a worker is executing, stripped of everything its owner wrote. -/
def Job.tombstoned (job : Job) (now : Instant) : Job :=
  { job with
    goal := "[deleted]"
    result := none
    error := some "account deleted"
    principal := none
    status := .cancelRequested
    purgePending := true
    updatedAt := now }

@[simp] theorem Job.tombstoned_id (job : Job) (now : Instant) :
    (job.tombstoned now).id = job.id := rfl

/-- Held by a worker. -/
def Job.held (job : Job) : Bool := decide (job.status = .running ∨ job.status = .cancelRequested)

def ownedBy (principal : String) (job : Job) : Bool := decide (job.principal = some principal)

def countEvents (s : JobStore) (p : Job → Bool) : Nat :=
  (s.events.entries.filter (fun e => (s.jobs.find e.2.jobId).any p)).length

def purgePrincipal (principal : String) (now : Instant) : JobTxn PurgeCounts := do
  Txn.require (decide (principal ≠ "")) (.valueError "principal is required")
  Txn.atomically do
    let running ← Txn.read (fun s => s.jobs.select (fun j => ownedBy principal j && j.held))
    let runningEvents ← Txn.read (countEvents · (fun j => ownedBy principal j && j.held))
    Txn.write (fun s =>
      { s with
        jobs := s.jobs.update (fun j => ownedBy principal j && j.held) (fun j => j.tombstoned now)
          (fun j => j.tombstoned_id now)
        events := s.events.delete (fun e =>
          (s.jobs.find e.jobId).any (fun j => ownedBy principal j && j.held)) })
    let idle ← Txn.read (fun s => s.jobs.select (ownedBy principal))
    let idleEvents ← Txn.read (countEvents · (ownedBy principal))
    Txn.write (fun s => s.drop (ownedBy principal))
    return ⟨idle.length, runningEvents + idleEvents, running.length⟩

/-- A tombstone no worker holds, or one not touched since `staleBefore`. -/
def Job.sweepable (staleBefore : Option Instant) (job : Job) : Bool :=
  job.purgePending && (!job.held || staleBefore.any (fun stale => decide (job.updatedAt < stale)))

def sweepPurges (staleBefore : Option Instant) : JobTxn Nat := do
  let idents ← Txn.read (fun s => s.jobs.select (Job.sweepable staleBefore))
  Txn.write (fun s => s.drop (Job.sweepable staleBefore))
  return idents.length

end Meemee.Source.Jobs
