import Meemee.Source.PgJobs
import Meemee.Source.Webhooks

/-!
# The worker loop and the cancel route

`work_forever` of `meemee/worker.py`, one iteration after a claim, as the store calls it
makes: `Phase` is the next thing it does, and `advance` does it. The loop is the same
over both job stores, which differ in the `Backend`. `cancel_job` of `meemee/api.py` is
the other caller that ends jobs and announces it.
-/
namespace Meemee.Source.Worker
open Library Source.Jobs Source.Webhooks

/-- The columns of a row that the worker and the route read. -/
structure Row where
  status : JobStatus
  principal : Option String
  purgePending : Bool
  deriving DecidableEq, Repr

/-- The fields of a claimed job that the worker reads. -/
structure Claimed where
  id : String
  principal : Option String
  leaseToken : Option String
  deriving DecidableEq, Repr

/-- A job store, with the calls of the worker and of those around it. -/
structure Backend (σ : Type) where
  row : String → σ → Option Row
  enqueue : String → String → Option RunAt → Int → Option String → PgJobs.Clock → Txn σ Exc String
  claim : PgJobs.Worker → String → PgJobs.Clock → Txn σ Exc (Option Claimed)
  heartbeat : PgJobs.Worker → String → String → Instant → Txn σ Exc Bool
  finish : PgJobs.Worker → String → Json → Option String → Instant → Txn σ Exc Bool
  fail : PgJobs.Worker → String → PyStr → Option String → Instant → Txn σ Exc Bool
  /-- The transactions of `cancel_running`, which answers `True` with the first that does. -/
  cancelRunning : PgJobs.Worker → String → Option String → List (Instant → Txn σ Exc Bool)
  requestCancel : String → Instant → Txn σ Exc (Option JobStatus)
  purgePrincipal : String → Instant → Txn σ Exc PurgeCounts
  sweepPurges : Option Instant → PgJobs.Clock → Txn σ Exc Nat

/-- `meemee/jobs.py`: no leases, so no token and nothing to renew. -/
def sqlite : Backend JobStore where
  row ident s := (s.jobs.find ident).map (fun j => ⟨j.status, j.principal, j.purgePending⟩)
  enqueue ident goal runAt maxAttempts principal clock :=
    Jobs.enqueue ident goal runAt maxAttempts principal (clock 0) (clock 1)
  claim _ _ clock := do
    let job ← Jobs.claim (clock 0)
    return job.map (fun j => ⟨j.id, j.principal, none⟩)
  heartbeat _ _ _ _ := pure true
  finish _ ident result _ now := Jobs.finish ident result now
  fail _ ident error _ now := Jobs.fail ident error now
  cancelRunning _ ident _ := [fun _ => Jobs.settlePurge ident, Jobs.cancelRequestedJob ident]
  requestCancel := Jobs.requestCancel
  purgePrincipal := Jobs.purgePrincipal
  sweepPurges staleBefore _ := Jobs.sweepPurges staleBefore

/-- `meemee_persist_pg/jobs.py`. -/
def postgres : Backend PgJobs.PgStore where
  row ident s := (s.jobs.find ident).map (fun j => ⟨j.status, j.principal, j.purgePending⟩)
  enqueue := PgJobs.enqueue
  claim worker token clock := do
    let row ← PgJobs.claim worker token clock
    return row.map (fun j => ⟨j.id, j.principal, j.leaseToken⟩)
  heartbeat := PgJobs.heartbeat
  finish := PgJobs.finish
  fail := PgJobs.fail
  cancelRunning worker ident token := [PgJobs.cancelRunning worker ident token]
  requestCancel := PgJobs.requestCancel
  purgePrincipal := PgJobs.purgePrincipal
  sweepPurges := PgJobs.sweepPurges

/-- How the loop tells exceptions apart: `except LeaseLostError`, `except
JOB_FAILURE_CLASSES`, or not at all. -/
inductive Catch where
  | leaseLost | jobFailure | uncaught
  deriving DecidableEq, Repr

/-- An exception with its text and its `error_label`. -/
structure Failure where
  catch_ : Catch
  text : PyStr
  label : String
  deriving DecidableEq, Repr

/-- What a store raised, as the loop sees it. -/
def ofExc (e : Exc) : Failure :=
  match e with
  | .leaseLost _ => ⟨.leaseLost, e.text, "LeaseLostError"⟩
  | .valueError _ => ⟨.jobFailure, e.text, "ValueError"⟩
  | .unicodeEncodeError _ => ⟨.jobFailure, e.text, "UnicodeEncodeError"⟩
  | .idempotencyConflict _ => ⟨.jobFailure, e.text, "IdempotencyConflict"⟩
  | .idempotencyInProgress _ => ⟨.jobFailure, e.text, "IdempotencyInProgress"⟩
  | .lostCheckinClaim _ => ⟨.jobFailure, e.text, "LostCheckinClaim"⟩
  | .typeError _ => ⟨.uncaught, e.text, "TypeError"⟩
  | .overflowError _ => ⟨.uncaught, e.text, "OverflowError"⟩
  | .programmingError _ => ⟨.uncaught, e.text, "ProgrammingError"⟩
  | .dataError _ => ⟨.uncaught, e.text, "DataError"⟩
  | .integrityError _ => ⟨.uncaught, e.text, "IntegrityError"⟩

/-- The fields of a report as `model_dump` gives them, and `report.blocked`. -/
structure Report where
  fields : List (String × Json)
  blocked : Bool

/-- `report.model_dump()`: a dictionary. -/
def Report.dump (report : Report) : Json := .obj report.fields

/-- How `build_agent_async` and `agent.run` ended. -/
inductive Outcome where
  | returned (report : Report)
  | raised (failure : Failure)

/-- A terminal status to announce, with the payload of its event. -/
structure News where
  status : JobStatus
  payload : List (String × Json)

def eventId (ident : String) (status : JobStatus) : String := "job:" ++ ident ++ ":" ++ status.text

def News.event (news : News) (ident principal : String) : WebhookEvent where
  eventId := Worker.eventId ident news.status
  eventType := "job." ++ news.status.text
  payload := news.payload
  principal := principal

def cancelledNews (ident : String) : News :=
  ⟨.cancelled, [("job_id", .str ident), ("status", .str "cancelled")]⟩

def doneNews (ident : String) (report : Report) : News :=
  ⟨.done, [("job_id", .str ident), ("status", .str "done"), ("blocked", .bool report.blocked),
    ("result", report.dump)]⟩

def failedNews (ident label : String) : News :=
  ⟨.failed, [("job_id", .str ident), ("status", .str "failed"), ("error", .str label)]⟩

inductive Phase where
  /-- `owner = job.get("principal")`. -/
  | begins
  /-- `jobs.fail` of a job without an owner. -/
  | refuses
  /-- `agent.run`. -/
  | runs
  /-- `lease_lost.is_set()`. -/
  | reported (report : Report)
  /-- `cancel.is_set()`. -/
  | decides (report : Report)
  /-- The transaction of `cancel_running` that comes next. -/
  | cancels (next : Nat)
  /-- `jobs.finish`. -/
  | finishes (report : Report)
  /-- `purge_if_deleted`. -/
  | checks (news : News)
  /-- `webhooks.enqueue`. -/
  | announces (news : News)
  /-- The `except` clauses. -/
  | handles (failure : Failure)
  /-- `jobs.fail` in the handler. -/
  | fails (failure : Failure)
  /-- `purge_if_deleted` in the handler. -/
  | checksFailed (failure : Failure)
  /-- `jobs.get(...)["status"]`. -/
  | readsStatus (failure : Failure)
  /-- `webhooks.enqueue` in the handler. -/
  | announcesFailed (news : News)
  | ended
  /-- The exception left `work_forever`. -/
  | escaped (failure : Failure)

structure Iteration where
  worker : PgJobs.Worker
  job : Claimed
  cancel : Bool
  leaseLost : Bool
  phase : Phase

def start (worker : PgJobs.Worker) (job : Claimed) : Iteration := ⟨worker, job, false, false, .begins⟩

/-- `job.get("principal")`, which the loop tests for being falsy. -/
def Iteration.owner (it : Iteration) : String := it.job.principal.getD ""

/-- A lease token that is passed on. -/
def Iteration.leased (it : Iteration) : Bool := it.job.leaseToken.any (fun t => decide (t ≠ ""))

/-- The stores one worker writes. -/
structure World (σ ω : Type) where
  jobs : σ
  outbox : ω

section Steps

variable {σ ω : Type}

/-- Where a store call leads: on, or to the handler. -/
def afterCall {α : Type} (onward : α → Phase) (caught : Exc → Phase) :
    Except Exc α → Phase
  | .ok a => onward a
  | .error e => caught e

def handled (e : Exc) : Phase := .handles (ofExc e)

/-- Nothing catches what the handler's own calls raise. -/
def unhandled (e : Exc) : Phase := .escaped (ofExc e)

def unownedText : String := "job has no principal owner; refusing to run unowned work"

/-- `None["status"]`. -/
def noStatus : Failure := ⟨.uncaught, "'NoneType' object is not subscriptable", "TypeError"⟩

/-- What one step may depend on besides the stores: the end of the run and the clock. -/
structure Turn where
  outcome : Outcome
  now : Instant

/-- The store calls of a phase and the phase they lead to. -/
def Iteration.next (b : Backend σ) (enqueue : WebhookEvent → Instant → Txn ω Exc Nat)
    (it : Iteration) (turn : Turn) (w : World σ ω) : Phase × World σ ω :=
  let ident := it.job.id
  match it.phase with
  | .begins => (if it.owner = "" then .refuses else .runs, w)
  | .refuses =>
    let (result, jobs) := b.fail it.worker ident unownedText it.job.leaseToken turn.now w.jobs
    (afterCall (fun _ => .ended) handled result, { w with jobs })
  | .runs =>
    (match turn.outcome with
      | .returned report => .reported report
      | .raised failure => .handles failure, w)
  | .reported report => (if it.leaseLost then .ended else .decides report, w)
  | .decides report => (if it.cancel then .cancels 0 else .finishes report, w)
  | .cancels k =>
    match (b.cancelRunning it.worker ident it.job.leaseToken)[k]? with
    | none => (if it.leased then .ended else .checks (cancelledNews ident), w)
    | some transaction =>
      let (result, jobs) := transaction turn.now w.jobs
      (afterCall (fun settled => if settled then .checks (cancelledNews ident) else .cancels (k + 1))
        handled result, { w with jobs })
  | .finishes report =>
    let (result, jobs) := b.finish it.worker ident report.dump it.job.leaseToken turn.now w.jobs
    (afterCall (fun _ => .checks (doneNews ident report)) handled result, { w with jobs })
  | .checks news => (if (b.row ident w.jobs).isNone then .ended else .announces news, w)
  | .announces news =>
    let (result, outbox) := enqueue (news.event ident it.owner) turn.now w.outbox
    (afterCall (fun _ => .ended) handled result, { w with outbox })
  | .handles failure =>
    (match failure.catch_ with
      | .leaseLost => .ended
      | .jobFailure => if it.leaseLost then .ended else .fails failure
      | .uncaught => .escaped failure, w)
  | .fails failure =>
    let (result, jobs) := b.fail it.worker ident failure.text it.job.leaseToken turn.now w.jobs
    (afterCall (fun _ => .checksFailed failure)
      (fun e => if (ofExc e).catch_ = .leaseLost then .ended else unhandled e) result,
      { w with jobs })
  | .checksFailed failure =>
    (if (b.row ident w.jobs).isNone then .ended else .readsStatus failure, w)
  | .readsStatus failure =>
    (match b.row ident w.jobs with
      | none => .escaped noStatus
      | some row => if row.status = .failed then
          .announcesFailed (failedNews ident failure.label) else .ended, w)
  | .announcesFailed news =>
    let (result, outbox) := enqueue (news.event ident it.owner) turn.now w.outbox
    (afterCall (fun _ => .ended) unhandled result, { w with outbox })
  | .ended => (.ended, w)
  | .escaped failure => (.escaped failure, w)

def Iteration.advance (b : Backend σ) (enqueue : WebhookEvent → Instant → Txn ω Exc Nat)
    (it : Iteration) (turn : Turn) (w : World σ ω) : Iteration × World σ ω :=
  let (phase, after) := it.next b enqueue turn w
  ({ it with phase }, after)

/-- The watcher's `jobs.heartbeat`, when the job is leased. -/
def Iteration.beat (b : Backend σ) (it : Iteration) (now : Instant) (s : σ) : Iteration × σ :=
  match it.job.leaseToken.filter (fun t => decide (t ≠ "")) with
  | none => (it, s)
  | some token =>
    match b.heartbeat it.worker it.job.id token now s with
    | (.ok true, t) => (it, t)
    | (_, t) => ({ it with leaseLost := true, cancel := true }, t)

/-- The watcher's `jobs.get`. -/
def Iteration.watch (b : Backend σ) (it : Iteration) (s : σ) : Iteration :=
  { it with cancel := it.cancel ||
      (b.row it.job.id s).any (fun row => decide (row.status = .cancelRequested)) }

inductive RoutePhase where
  /-- `jobs.get_owned`. -/
  | owns
  /-- `jobs.request_cancel`. -/
  | requests
  /-- `webhooks.enqueue`. -/
  | announces
  | ended

structure CancelRequest where
  ident : String
  principal : String
  phase : RoutePhase

def CancelRequest.next (b : Backend σ) (enqueue : WebhookEvent → Instant → Txn ω Exc Nat)
    (request : CancelRequest) (now : Instant) (w : World σ ω) : RoutePhase × World σ ω :=
  match request.phase with
  | .owns =>
    (if ((b.row request.ident w.jobs).filter
        (fun row => decide (row.principal = some request.principal))).isNone then .ended
      else .requests, w)
  | .requests =>
    let (result, jobs) := b.requestCancel request.ident now w.jobs
    (match result with
      | .ok (some .cancelled) => .announces
      | _ => .ended, { w with jobs })
  | .announces =>
    (.ended, { w with
      outbox := (enqueue ((cancelledNews request.ident).event request.ident request.principal) now
        w.outbox).2 })
  | .ended => (.ended, w)

def CancelRequest.advance (b : Backend σ) (enqueue : WebhookEvent → Instant → Txn ω Exc Nat)
    (request : CancelRequest) (now : Instant) (w : World σ ω) : CancelRequest × World σ ω :=
  let (phase, after) := request.next b enqueue now w
  ({ request with phase }, after)

end Steps

end Meemee.Source.Worker
