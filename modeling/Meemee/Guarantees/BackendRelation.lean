import Meemee.Guarantees.JobMoves
import Meemee.Guarantees.LeaseCalls

/-!
# One worker on the two job stores

The same calls, drawn ids and clock readings go to a SQLite and to a PostgreSQL job
store. `Same` relates a job to its row: a row that is held is leased to the worker
under the token of its last claim.
-/
namespace Meemee.Guarantees.BackendRelation
open Library Library.History Source
open Source.Jobs (JobStatus EventKind JobEvent RunAt Job JobStore ofJob)
open Source.PgJobs (PgJob PgStore Worker blank storesText storesJson errorColumn)
open Guarantees.JobMoves (Budget)

structure Goal where
  text : String
  visible : blank text = false

/-- A drawn lease token. -/
structure Token where
  text : String
  nonempty : text ≠ ""

inductive PairCall where
  | enqueue (ident : String) (goal : Goal) (runAt : Option RunAt) (budget : Budget)
      (principal : Option String)
  | claim (token : Token)
  | finish (ident : String) (result : Json)
  | fail (ident : String) (error : PyStr)
  | requestCancel (ident : String)
  | cancel (ident : String)
  | cancelRunning (ident : String)

structure Action where
  call : PairCall
  now : Instant
  /-- The worker passes the token of its claim; else the store looks it up. -/
  withToken : Bool

structure Stores where
  sqlite : JobStore
  postgres : PgStore
  /-- The token of the worker's last claim of each job. -/
  tokens : String → Option String

inductive Value where
  | ident (value : String)
  | claimed (ident : Option String)
  | told (value : Bool)
  | status (value : Option JobStatus)
  deriving DecidableEq

abbrev Answer := Except Exc Value

def onSqlite (call : PairCall) (now : Instant) : JobStore → Answer × JobStore :=
  match call with
  | .enqueue ident goal runAt budget principal =>
    Txn.answer .ident (Jobs.enqueue ident goal.text runAt budget.attempts principal now now)
  | .claim _ => Txn.answer (fun job => .claimed (job.map (·.id))) (Jobs.claim now)
  | .finish ident result => Txn.answer .told (Jobs.finish ident result now)
  | .fail ident error => Txn.answer .told (Jobs.fail ident error now)
  | .requestCancel ident => Txn.answer .status (Jobs.requestCancel ident now)
  | .cancel ident => Txn.answer .told (Jobs.cancel ident now)
  | .cancelRunning ident => Txn.answer .told (Jobs.cancelRunning ident now)

def onPostgres (worker : Worker) (tokens : String → Option String) (call : PairCall)
    (now : Instant) : PgStore → Answer × PgStore :=
  match call with
  | .enqueue ident goal runAt budget principal =>
    Txn.answer .ident
      (PgJobs.enqueue ident goal.text runAt budget.attempts principal (fun _ => now))
  | .claim token =>
    Txn.answer (fun row => .claimed (row.map (·.id)))
      (PgJobs.claim worker token.text (fun _ => now))
  | .finish ident result =>
    Txn.answer .told (PgJobs.finish worker ident result (tokens ident) now)
  | .fail ident error => Txn.answer .told (PgJobs.fail worker ident error (tokens ident) now)
  | .requestCancel ident => Txn.answer .status (PgJobs.requestCancel ident now)
  | .cancel ident => Txn.answer .told (PgJobs.cancel ident now)
  | .cancelRunning ident =>
    Txn.answer .told (PgJobs.cancelRunning worker ident (tokens ident) now)

def passed (s : Stores) (action : Action) : String → Option String :=
  fun ident => if action.withToken then s.tokens ident else none

/-- The worker keeps the token of what it claims. -/
def kept (call : PairCall) (answer : Answer) (tokens : String → Option String) :
    String → Option String :=
  match call, answer with
  | .claim token, .ok (.claimed (some ident)) =>
    fun other => if other = ident then some token.text else tokens other
  | _, _ => tokens

def step (worker : Worker) (s : Stores) (action : Action) : (Answer × Answer) × Stores :=
  let left := onSqlite action.call action.now s.sqlite
  let right := onPostgres worker (passed s action) action.call action.now s.postgres
  ((left.1, right.1), ⟨left.2, right.2, kept action.call right.1 s.tokens⟩)

def start : Stores := ⟨JobStore.empty, PgStore.empty, fun _ => none⟩

abbrev Step := Event Stores Action (Answer × Answer)

/-- The kinds of a job's events, in order. -/
def kindsIn (log : Log JobEvent) (ident : String) : List EventKind :=
  (log.select (ofJob ident)).map (fun e => e.2.kind)

/-- Every job has the same status, attempts and kinds of events in both stores. -/
def SameView (s : Stores) : Prop :=
  ∀ ident, (s.sqlite.jobs.find ident).map (fun j => (j.status, j.attempts)) =
      (s.postgres.jobs.find ident).map (fun j => (j.status, j.attempts)) ∧
    kindsIn s.sqlite.events ident = kindsIn s.postgres.events ident

/-- Both stores refuse, or both accept and return the same value. -/
def SameAnswer : Answer × Answer → Prop
  | (.ok a, .ok b) => a = b
  | (.error _, .error _) => True
  | _ => False

/-- Cancelling a job that is done, failed or cancelled changes nothing. -/
def TerminalQuiet (e : Step) : Prop :=
  ∀ ident, e.action.call = .requestCancel ident ∨ e.action.call = .cancel ident →
    ∀ job, e.before.sqlite.jobs.find ident = some job → job.status.terminal = true →
      e.after.sqlite = e.before.sqlite ∧ e.after.postgres = e.before.postgres

/-- `cancel` returns `False` exactly when it changed nothing. -/
def CancelHonest (e : Step) : Prop :=
  ∀ ident, e.action.call = .cancel ident →
    (e.answer.1 = .ok (.told false) ↔ e.after.sqlite = e.before.sqlite) ∧
      (e.answer.2 = .ok (.told false) ↔ e.after.postgres = e.before.postgres)

structure Agrees (e : Step) : Prop where
  view : SameView e.after
  answer : SameAnswer e.answer
  quiet : TerminalQuiet e
  honest : CancelHonest e

/-- No lease has expired when a call is made. -/
def LeaseKept (e : Step) : Prop :=
  ∀ row ∈ e.before.postgres.jobs.rows, row.leaseExpired e.action.now = false

/-- A result that both `json.dumps` and `jsonb` take. -/
def storable (result : Json) : Bool := (Json.dumps {} result).isOk && storesJson result

def statusIn (s : JobStore) (ident : String) : Option JobStatus :=
  (s.jobs.find ident).map (·.status)

/-- Each store takes the values of the INSERT if the other does, or both refuse it anyway. -/
def fits (s : JobStore) (ident : String) (goal : Goal) (runAt : Option RunAt) (budget : Budget)
    (principal : Option String) : Prop :=
  (s.jobs.find ident).isSome = true ∨ runAt = some .naive ∨
    (budget.attempts ≤ Jobs.maxInteger ∧ RunAt.converts runAt = true ↔
      storesText goal.text = true ∧ principal.all storesText = true ∧
        budget.attempts ≤ PgJobs.maxInteger)

/-- The calls on which the stores do the same, by the stored status, with values that fit. -/
def CallMeets (s : JobStore) : PairCall → Prop
  | .enqueue ident goal runAt budget principal => fits s ident goal runAt budget principal
  | .claim _ => True
  | .finish ident result =>
    (statusIn s ident = some .cancelRequested → storable result = false) ∧
      (statusIn s ident = some .running → (Jobs.given result).isSome = true ∧
        ((Json.dumps {} result).isOk = true → storable result = true))
  | .fail ident error => statusIn s ident = some .running → error.bound.isOk = true →
      (errorColumn error).isOk = true
  | .requestCancel ident =>
    statusIn s ident = none ∨ statusIn s ident = some .queued ∨ statusIn s ident = some .running
  | .cancel ident => statusIn s ident = none ∨ statusIn s ident = some .queued
  | .cancelRunning ident => statusIn s ident ≠ some .running

instance (s : JobStore) : (call : PairCall) → Decidable (CallMeets s call)
  | .enqueue _ _ _ _ _ => inferInstanceAs (Decidable (_ ∨ _))
  | .claim _ => inferInstanceAs (Decidable True)
  | .finish _ _ => inferInstanceAs (Decidable (_ ∧ _))
  | .fail _ _ => inferInstanceAs (Decidable (_ → _))
  | .requestCancel _ => inferInstanceAs (Decidable (_ ∨ _))
  | .cancel _ => inferInstanceAs (Decidable (_ ∨ _))
  | .cancelRunning _ => inferInstanceAs (Decidable (_ ≠ _))

def Meets (e : Step) : Prop := CallMeets e.before.sqlite e.action.call

/-- A job and its row. A held row is leased to the worker, under its last claim's token. -/
structure Same (worker : Worker) (tokens : String → Option String) (job : Job) (row : PgJob) :
    Prop where
  ident : job.id = row.id
  status : job.status = row.status
  attempts : job.attempts = row.attempts
  maxAttempts : job.maxAttempts = row.maxAttempts
  runAt : job.runAt = row.runAt
  live : job.purgePending = false
  rowLive : row.purgePending = false
  held : row.held = true → row.leaseOwner = some worker.workerId ∧
    ∃ text expires, text ≠ "" ∧ tokens row.id = some text ∧ row.leaseToken = some text ∧
      row.leaseExpiresAt = some expires
  idle : row.held = false → row.leaseOwner = none

structure Related (worker : Worker) (s : Stores) : Prop where
  rows : Table.Matched (Same worker s.tokens) s.sqlite.jobs s.postgres.jobs
  /-- No job or event is too big. -/
  takes : ∀ job event, s.sqlite.takes job event = true
  kinds : ∀ ident, kindsIn s.sqlite.events ident = kindsIn s.postgres.events ident

variable {worker : Worker}

theorem kindsIn_append (log : Log JobEvent) (event : JobEvent) (ident : String) :
    kindsIn (log.append event) ident =
      if event.jobId = ident then kindsIn log ident ++ [event.kind] else kindsIn log ident := by
  simp only [kindsIn, Log.select_append, ofJob, decide_eq_true_eq]
  split
  · simp
  · rfl

theorem sameView_of_related {s : Stores} (related : Related worker s) : SameView s := by
  refine fun ident => ⟨?_, related.kinds ident⟩
  have pair := related.rows.rows ident
  cases found : s.sqlite.jobs.find ident with
  | none => rw [Table.rel_none pair found]; rfl
  | some job =>
    obtain ⟨row, found', same⟩ := Table.rel_some pair found
    rw [found']
    simp only [Option.map_some, same.status, same.attempts]

theorem related_start : Related worker start :=
  ⟨⟨rfl, fun _ => .none⟩, fun _ _ => rfl, fun _ => rfl⟩

theorem row_of_job {s : Stores} (related : Related worker s) (ident : String) :
    (s.sqlite.jobs.find ident = none ∧ s.postgres.jobs.find ident = none) ∨
      ∃ job row, s.sqlite.jobs.find ident = some job ∧ s.postgres.jobs.find ident = some row ∧
        Same worker s.tokens job row := by
  have pair := related.rows.rows ident
  cases found : s.sqlite.jobs.find ident with
  | none => exact .inl ⟨rfl, Table.rel_none pair found⟩
  | some job =>
    obtain ⟨row, found', same⟩ := Table.rel_some pair found
    exact .inr ⟨job, row, rfl, found', same⟩

theorem Same.retoken {tokens other : String → Option String} {job : Job} {row : PgJob}
    (same : Same worker tokens job row) (agree : other row.id = tokens row.id) :
    Same worker other job row := by
  refine ⟨same.ident, same.status, same.attempts, same.maxAttempts, same.runAt, same.live,
    same.rowLive, ?_, same.idle⟩
  rw [agree]
  exact same.held

/-- Both stores publish the same kind of event about a job, and its row changes in step. -/
theorem related_publish {s : Stores} (related : Related worker s) {ident : String}
    {tokens : String → Option String}
    (others : ∀ other, other ≠ ident → tokens other = s.tokens other)
    {f : Job → Job} {g : PgJob → PgJob} {keeps : ∀ j, (f j).id = j.id}
    {keeps' : ∀ j, (g j).id = j.id} {event event' : JobEvent} (about : event.jobId = ident)
    (about' : event'.jobId = ident) (kind : event.kind = event'.kind)
    (here : ∀ job row, s.sqlite.jobs.find ident = some job → Same worker s.tokens job row →
      Same worker tokens (f job) (g row)) :
    Related worker ⟨JobMoves.publish s.sqlite ident f keeps event,
      LeaseCalls.publish s.postgres ident g keeps' event', tokens⟩ := by
  refine ⟨related.rows.update keeps keeps' here ?_, related.takes, ?_⟩
  · intro job row elsewhere same
    exact same.retoken (others row.id (by rw [← same.ident]; exact elsewhere))
  · intro other
    simp only [JobMoves.publish, LeaseCalls.publish, kindsIn_append, about, about', kind,
      related.kinds other]

section Postgres

open PgJobs LeaseCalls

variable {p : PgStore} {ident : String} {token : Option String} {now : Instant} {row : PgJob}

theorem tokenOr_held {text : String} (found : p.jobs.find ident = some row)
    (owner : row.leaseOwner = some worker.workerId) (leased : row.leaseToken = some text)
    (nonempty : text ≠ "") (token_of : token = none ∨ token = some text) :
    tokenOr worker ident token p = (.ok text, p) := by
  unfold tokenOr
  rcases token_of with rfl | rfl
  · simp [ownedToken, findJob, found, Option.filter_some, owner, leased]
  · simp [Option.filter_some, nonempty]

/-- No row of this id carries a lease. -/
def Unleased (p : PgStore) (ident : String) : Prop :=
  ∀ row, p.jobs.find ident = some row → row.leaseOwner = none

theorem leasedTo_unleased {workerId text : String} (unleased : row.leaseOwner = none) :
    row.leasedTo workerId text = false := by
  simp [PgJob.leasedTo, unleased]

theorem unleased_noTombstone (unleased : Unleased p ident) (text : String) :
    NoTombstone p worker ident text := by
  intro row found
  simp [leasedTo_unleased (unleased row found)]

theorem unleased_refused (unleased : Unleased p ident) (text : String) :
    Refused p worker ident text now := by
  intro row found
  simp [PgJob.heldBy, leasedTo_unleased (unleased row found)]

theorem unleased_unfailed (unleased : Unleased p ident) (text : String) :
    Unfailed p worker ident text now := by
  intro row found
  simp [PgJob.heldBy, leasedTo_unleased (unleased row found)]

theorem finish_unleased (worker : Worker) (now : Instant) (token : Option String)
    (unleased : Unleased p ident) (result : Json) :
    ∃ e, finish worker ident result token now p = (.error e, p) := by
  unfold finish
  rcases tokenOr_cases worker ident token p with ⟨text, done⟩ | lost
  · rw [Txn.run_bind_ok done]
    exact ⟨_, terminal_refused .done (Jobs.given result) none (unleased_noTombstone unleased text)
      (unleased_refused unleased text)⟩
  · exact ⟨_, Txn.run_bind_error lost⟩

theorem fail_unleased (worker : Worker) (now : Instant) (token : Option String)
    (unleased : Unleased p ident) (error : PyStr) :
    ∃ e, fail worker ident error token now p = (.error e, p) := by
  unfold fail
  rcases tokenOr_cases worker ident token p with ⟨text, done⟩ | lost
  · rw [Txn.run_bind_ok done]
    exact ⟨_, failWith_refused error (unleased_noTombstone unleased text)
      (unleased_unfailed unleased text)⟩
  · exact ⟨_, Txn.run_bind_error lost⟩

theorem cancelRunning_unleased (unleased : Unleased p ident) :
    cancelRunning worker ident token now p = (.ok false, p) := by
  unfold cancelRunning exceptLeaseLost
  rcases tokenOr_cases worker ident token p with ⟨text, done⟩ | lost
  · rw [Txn.run_bind_ok done, cancelWith_refused (unleased_noTombstone unleased text)
      (unleased_refused unleased text)]
  · rw [Txn.run_bind_error lost]
    rfl

/-- The worker holds an unexpired lease on the row, under a token it may pass. -/
structure Held (worker : Worker) (p : PgStore) (ident : String) (token : Option String)
    (now : Instant) (row : PgJob) : Prop where
  found : p.jobs.find ident = some row
  live : row.purgePending = false
  holder : ∃ text, tokenOr worker ident token p = (.ok text, p) ∧
    row.heldBy worker.workerId text now = true

theorem finish_held (holds : Held worker p ident token now row) (held : row.held = true)
    (result : Json) :
    finish worker ident result token now p = match resultParameter (Jobs.given result) with
      | .error e => (.error e, p)
      | .ok checked => (.ok false, publish p ident (fun j => j.settled .done checked none now)
          (fun j => j.settled_id _ _ _ _) ⟨ident, .done, settledPayload checked none, now⟩) := by
  obtain ⟨found, live, text, looked, heldBy⟩ := holds
  unfold finish
  rw [Txn.run_bind_ok looked]
  exact terminal_settled .done (Jobs.given result) none found (by simp [live]) (by simp [held, heldBy])

theorem fail_running (holds : Held worker p ident token now row) (running : row.status = .running)
    (error : PyStr) :
    fail worker ident error token now p = match errorColumn error with
      | .ok text => (.ok false, publish p ident (fun j => j.failed text now)
        (fun j => j.failed_id _ _) ⟨ident, row.failedKind, .error (some text), now⟩)
      | .error e => (.error e, p) := by
  obtain ⟨found, live, text, looked, heldBy⟩ := holds
  unfold fail
  rw [Txn.run_bind_ok looked]
  exact failWith_failed error found (by simp [live]) (by simp [running, heldBy])

theorem fail_requested (holds : Held worker p ident token now row)
    (requested : row.status = .cancelRequested) (error : PyStr) :
    ∃ e, fail worker ident error token now p = (.error e, p) := by
  obtain ⟨found, live, text, looked, -⟩ := holds
  unfold fail
  rw [Txn.run_bind_ok looked]
  refine ⟨_, failWith_refused error ?_ ?_⟩
  · intro other there
    rw [found] at there
    cases there
    simp [live]
  · intro other there
    rw [found] at there
    cases there
    simp [requested]

theorem cancelRunning_held (holds : Held worker p ident token now row) (held : row.held = true) :
    cancelRunning worker ident token now p = (.ok true, publish p ident
      (fun j => j.settled .cancelled none (some "cancelled") now) (fun j => j.settled_id _ _ _ _)
      ⟨ident, .cancelled, .error (some "cancelled"), now⟩) := by
  obtain ⟨found, live, text, looked, heldBy⟩ := holds
  unfold cancelRunning exceptLeaseLost
  rw [Txn.run_bind_ok looked, cancelWith_settled found (by simp [live]) (by simp [held, heldBy])]

theorem reaped_none (live : ∀ row ∈ p.jobs, row.purgePending = false)
    (unexpired : ∀ row ∈ p.jobs, row.leaseExpired now = false) : reaped (fun _ => now) p = p := by
  have none_dead : drop p (fun j => j.purgeable now) = p := by
    refine drop_none ?_
    intro row mem
    simp [PgJob.purgeable, live row mem]
  have none_expired : ∀ status, ∀ row ∈ p.jobs,
      (decide (row.status = status) && row.leaseExpired now) = false := by
    intro status row mem
    simp [unexpired row mem]
  unfold reaped
  rw [none_dead, settleAll_none (s := p) _ _ _ (none_expired .running),
    settleAll_none _ _ _ (none_expired .cancelRequested)]

end Postgres

end Meemee.Guarantees.BackendRelation
