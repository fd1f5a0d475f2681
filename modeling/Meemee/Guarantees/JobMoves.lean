import Meemee.Library.History
import Meemee.Source.Jobs

/-!
# What one call can do to one job

`view` is a job together with its events. `JobMove` is the machine of a single job:
what the call of any operation may do to it. `call_moves` says that every call moves
every job by one `JobMove`; lifecycle and stream arguments are made on `JobMove` alone.
-/
namespace Meemee.Guarantees.JobMoves
open Library Library.History Source Source.Jobs Library.Txn Library.Table Option

/-- A `max_attempts` of at least one. -/
structure Budget where
  attempts : Int
  positive : 1 ≤ attempts

inductive StoreCall where
  | enqueue (ident goal : String) (runAt : Option RunAt) (budget : Budget)
      (principal : Option String) (now clock : Instant)
  | claim (now : Instant)
  | finish (ident : String) (result : Json) (now : Instant)
  | fail (ident : String) (error : PyStr) (now : Instant)
  | requestCancel (ident : String) (now : Instant)
  | cancel (ident : String) (now : Instant)
  /-- The two transactions of `cancel_running`, which other calls may separate. -/
  | settlePurge (ident : String)
  | cancelRequestedJob (ident : String) (now : Instant)
  | purgePrincipal (principal : String) (now : Instant)
  | sweepPurges (staleBefore : Option Instant)

inductive Value where
  | ident (value : String)
  | claimed (job : Option Job)
  | told (value : Bool)
  | status (value : Option JobStatus)
  | purged (counts : PurgeCounts)
  | number (value : Nat)
  deriving DecidableEq

def step (s : JobStore) : StoreCall → Except Exc Value × JobStore
  | .enqueue ident goal runAt budget principal now clock =>
    Txn.answer .ident (enqueue ident goal runAt budget.attempts principal now clock) s
  | .claim now => Txn.answer .claimed (claim now) s
  | .finish ident result now => Txn.answer .told (finish ident result now) s
  | .fail ident error now => Txn.answer .told (fail ident error now) s
  | .requestCancel ident now => Txn.answer .status (requestCancel ident now) s
  | .cancel ident now => Txn.answer .told (cancel ident now) s
  | .settlePurge ident => Txn.answer .told (settlePurge ident) s
  | .cancelRequestedJob ident now => Txn.answer .told (cancelRequestedJob ident now) s
  | .purgePrincipal principal now => Txn.answer .purged (purgePrincipal principal now) s
  | .sweepPurges staleBefore => Txn.answer .number (sweepPurges staleBefore) s

abbrev JobLog := List (Nat × JobEvent)

structure JobView where
  job : Job
  log : JobLog

def logOf (s : JobStore) (ident : String) : JobLog := s.events.select (ofJob ident)

def view (s : JobStore) (ident : String) : Option JobView :=
  (s.jobs.find ident).map (fun job => ⟨job, logOf s ident⟩)

/-- The row change that goes with an event. -/
inductive JobEdge (job : Job) : EventKind → Job → Prop where
  | claim (now : Instant) (queued : job.status = .queued) : JobEdge job .running (job.claimed now)
  | finish (text : String) (now : Instant) (running : job.status = .running)
      (live : job.purgePending = false) : JobEdge job .done (job.finished text none now)
  | fail (error : Option String) (now : Instant) (running : job.status = .running)
      (live : job.purgePending = false) : JobEdge job job.failedKind (job.failed error now)
  | cancelQueued (now : Instant) (queued : job.status = .queued) :
      JobEdge job .cancelled (job.cancelAt .cancelled now)
  | requestCancel (now : Instant) (running : job.status = .running) :
      JobEdge job .cancelRequested (job.cancelAt .cancelRequested now)
  | cancelRequested (now : Instant) (requested : job.status = .cancelRequested) :
      JobEdge job .cancelled (job.cancelAt .cancelled now)

inductive JobMove : Option JobView → Option JobView → Prop where
  | stays (v : Option JobView) : JobMove v v
  | enqueued (job : Job) (number : Nat) (event : JobEvent) (queued : job.status = .queued)
      (fresh : job.attempts = 0) (budget : 1 ≤ job.maxAttempts) (unfinished : job.result = none)
      (live : job.purgePending = false) (kind : event.kind = .queued) :
      JobMove none (some ⟨job, [(number, event)]⟩)
  | published (job after : Job) (log : JobLog) (number : Nat) (event : JobEvent)
      (edge : JobEdge job event.kind after) :
      JobMove (some ⟨job, log⟩) (some ⟨after, log ++ [(number, event)]⟩)
  | tombstoned (job : Job) (log : JobLog) (now : Instant) (held : job.held = true) :
      JobMove (some ⟨job, log⟩) (some ⟨job.tombstoned now, []⟩)
  | dropped (v : JobView) : JobMove (some v) none

/-- An event belongs to a stored job. -/
def NoOrphans (s : JobStore) : Prop := ∀ ident, s.jobs.find ident = none → logOf s ident = []

variable {s t : JobStore} {ident : String} {job : Job} {f : Job → Job} {event : JobEvent}
  {now : Instant} {error : Option String} {source : JobStatus}

theorem view_none : view s ident = none ↔ s.jobs.find ident = none := by
  simp [view]

theorem view_some (found : s.jobs.find ident = some job) :
    view s ident = some ⟨job, logOf s ident⟩ := by
  simp [view, found]

theorem logOf_drop (s : JobStore) (p : Job → Bool) (ident : String) :
    logOf (s.drop p) ident = if (s.jobs.find ident).any p then [] else logOf s ident := by
  split
  next gone =>
    refine Log.select_delete_all _ ?_
    intro e here
    rw [of_decide_eq_true here]
    exact gone
  next kept =>
    refine Log.select_delete_disjoint _ ?_
    intro e here
    rw [of_decide_eq_true here]
    simpa using kept

theorem view_drop (s : JobStore) (p : Job → Bool) (ident : String) :
    view (s.drop p) ident = (view s ident).filter (fun v => !p v.job) := by
  unfold view
  rw [logOf_drop]
  simp only [JobStore.drop, find_delete]
  cases s.jobs.find ident with
  | none => rfl
  | some job => cases gone : p job <;> simp [filter_some, gone]

theorem drop_none {p : Job → Bool} (unmatched : ∀ j ∈ s.jobs, p j = false) : s.drop p = s := by
  have kept : ∀ ident, (s.jobs.find ident).any p = false := by
    intro ident
    cases found : s.jobs.find ident with
    | none => rfl
    | some job => exact unmatched job (mem_of_find found)
  simp only [JobStore.drop, delete_none unmatched, kept]
  rw [Log.delete_none (fun _ _ => rfl)]

theorem noOrphans_drop (before : NoOrphans s) (p : Job → Bool) : NoOrphans (s.drop p) := by
  intro ident absent
  rw [logOf_drop]
  split
  next => rfl
  next kept =>
    refine before ident ?_
    simp only [JobStore.drop, find_delete] at absent
    cases found : s.jobs.find ident with
    | none => rfl
    | some job =>
      cases gone : p job <;> simp_all [filter_some]

theorem moves_drop (s : JobStore) (p : Job → Bool) (ident : String) :
    JobMove (view s ident) (view (s.drop p) ident) := by
  rw [view_drop]
  cases view s ident with
  | none => exact .stays none
  | some v =>
    cases gone : p v.job with
    | true => simpa [filter_some, gone] using JobMove.dropped v
    | false => simpa [filter_some, gone] using JobMove.stays (some v)

/-- Update the row of a job and append one event about it. -/
def publish (s : JobStore) (ident : String) (f : Job → Job) (keeps : ∀ j, (f j).id = j.id)
    (event : JobEvent) : JobStore :=
  { s with
    jobs := s.jobs.update (fun j => decide (j.id = ident)) f keeps
    events := s.events.append event }

theorem logOf_append (s : JobStore) (event : JobEvent) (jobs : Table Job.id) (ident : String) :
    logOf { s with jobs := jobs, events := s.events.append event } ident =
      if event.jobId = ident then logOf s ident ++ [(s.events.next, event)] else logOf s ident := by
  simp only [logOf, Log.select_append, ofJob, decide_eq_true_eq]

variable {keeps : ∀ j, (f j).id = j.id} {status : JobStatus} {runAt : Option RunAt} {told : Bool}
  {call : StoreCall}

theorem publish_moves (found : s.jobs.find ident = some job) (about : event.jobId = ident)
    (edge : JobEdge job event.kind (f job)) (other : String) :
    JobMove (view s other) (view (publish s ident f keeps event) other) := by
  unfold view publish
  rw [logOf_append, find_update_key]
  by_cases here : other = ident
  · subst here
    rw [if_pos rfl, if_pos about, found]
    exact .published job (f job) _ _ event edge
  · rw [if_neg here, if_neg (by rw [about]; exact Ne.symm here)]
    exact .stays _

theorem publish_noOrphans (before : NoOrphans s) (found : s.jobs.find ident = some job)
    (about : event.jobId = ident) : NoOrphans (publish s ident f keeps event) := by
  intro other absent
  unfold publish at absent ⊢
  rw [find_update_key] at absent
  rw [logOf_append]
  by_cases here : other = ident
  · subst here
    rw [if_pos rfl, found] at absent
    cases absent
  · rw [if_neg here] at absent
    rw [if_neg (by rw [about]; exact Ne.symm here)]
    exact before other absent

theorem updateJobs_run (p : Job → Bool) (f : Job → Job) (keeps : ∀ j, (f j).id = j.id)
    (s : JobStore) :
    updateJobs p f keeps s =
      (.ok (!(s.jobs.select p).isEmpty), { s with jobs := s.jobs.update p f keeps }) := rfl

/-- An UPDATE guarded by the job's id and status, where the stored job has them. -/
theorem updateJobs_matched (found : s.jobs.find job.id = some job) (same : job.status = status) :
    updateJobs (fun j => decide (j.id = job.id ∧ j.status = status)) f keeps s =
      (.ok true, { s with jobs := s.jobs.update (fun j => decide (j.id = job.id)) f keeps }) := by
  have nonempty : (s.jobs.select (fun j => decide (j.id = job.id ∧ j.status = status))).isEmpty =
      false := by
    rw [Bool.eq_false_iff]
    intro empty
    have unmatched := select_isEmpty.mp empty job (mem_of_find found)
    simp [same] at unmatched
  rw [updateJobs_run, nonempty, update_congr]
  · rfl
  · intro j mem
    by_cases here : j.id = job.id
    · simp [eq_of_find found mem here, same]
    · simp [here]

theorem updateJobs_unmatched (other : ∀ job, s.jobs.find ident = some job → job.status ≠ status) :
    updateJobs (fun j => decide (j.id = ident ∧ j.status = status)) f keeps s = (.ok false, s) := by
  have unmatched : ∀ j ∈ s.jobs, decide (j.id = ident ∧ j.status = status) = false := by
    intro j mem
    rw [decide_eq_false_iff_not]
    rintro ⟨rfl, same⟩
    exact other j (find_of_mem mem) same
  rw [updateJobs_run, update_none unmatched, select_isEmpty.mpr unmatched]
  rfl

theorem claim_run (now : Instant) (s : JobStore) :
    claim now s =
      match s.jobs.first (fun j => decide (j.status = .queued ∧ j.runAt ≤ now)) dueBefore with
      | none => (.ok none, s)
      | some job => (.ok (some job), publish s job.id (fun j => j.claimed now)
          (fun j => j.claimed_id now)
          ⟨job.id, .running, .attempt (job.attempts + 1) none, now⟩) := by
  cases picked : s.jobs.first (fun j => decide (j.status = .queued ∧ j.runAt ≤ now)) dueBefore with
  | none =>
    refine atomically_of_ok ?_
    rw [run_bind_read, picked]
    rfl
  | some job =>
    obtain ⟨mem, met⟩ := first_some picked
    refine atomically_of_ok ?_
    rw [run_bind_read, picked]
    simp only
    rw [run_bind_ok (updateJobs_matched (find_of_mem mem) (of_decide_eq_true met).1)]
    rfl

theorem claim_returned {result : Option Job} (run : claim now s = (.ok result, t)) :
    (result = none ∧ t = s) ∨ ∃ job, result = some job ∧ s.jobs.find job.id = some job ∧
      job.status = .queued ∧ job.runAt ≤ now ∧ t = publish s job.id (fun j => j.claimed now)
        (fun j => j.claimed_id now) ⟨job.id, .running, .attempt (job.attempts + 1) none, now⟩ := by
  rw [claim_run] at run
  split at run
  next =>
    cases run
    exact .inl ⟨rfl, rfl⟩
  next job picked =>
    cases run
    obtain ⟨mem, met⟩ := first_some picked
    obtain ⟨queued, due⟩ := of_decide_eq_true met
    exact .inr ⟨job, rfl, find_of_mem mem, queued, due, rfl⟩

section Terminal

variable {ident : String} {now : Instant} {s : JobStore}

theorem writeTerminal_run (row : Job) (ident : String) (f : Job → Job)
    (keeps : ∀ j, (f j).id = j.id) (event : JobEvent) (s : JobStore) :
    writeTerminal row ident f keeps event s =
      if s.takes (f row) event then (.ok (), publish s ident f keeps event)
      else (.error tooBig, s) := by
  unfold writeTerminal
  rw [run_bind_read, run_require_bind]
  split <;> rfl

theorem publishTerminal_unknown (result : Option Json) (error : Option PyStr)
    (absent : s.jobs.find ident = none) :
    publishTerminal ident result error now s = (.error (.valueError "unknown job"), s) := by
  refine atomically_of_error (t := s) ?_
  simp only [findJob, run_bind_read, absent]
  rfl

theorem publishTerminal_purged (result : Option Json) (error : Option PyStr)
    (found : s.jobs.find ident = some job) (purged : job.purgePending = true) :
    publishTerminal ident result error now s =
      (.ok true, s.drop (fun j => decide (j.id = ident))) := by
  refine atomically_of_ok ?_
  simp only [findJob, run_bind_read, found, purged]
  rfl

theorem publishTerminal_idle (result : Option Json) (error : Option PyStr)
    (found : s.jobs.find ident = some job) (live : job.purgePending = false)
    (idle : job.status ≠ .running) :
    publishTerminal ident result error now s =
      (.error (.valueError ("job is not running: " ++ job.status.text)), s) := by
  refine atomically_of_error (t := s) ?_
  simp only [findJob, run_bind_read, found, live, Bool.false_eq_true, if_false, idle,
    decide_false, run_require_bind]

section Running

variable {value : Json} {text : String} {error : Option PyStr} {bound : Option String} {e : Exc}
  (found : s.jobs.find ident = some job) (live : job.purgePending = false)
  (running : job.status = .running)

include found live running

theorem publishTerminal_unwritten (refused : Json.dumps {} value = .error e) :
    publishTerminal ident (some value) error now s = (.error e, s) := by
  refine atomically_of_error (t := s) ?_
  simp only [findJob, run_bind_read, found, live, running, refused]
  rfl

theorem publishTerminal_finished (written : Json.dumps {} value = .ok text)
    (binds : error.mapM PyStr.bound = .ok bound) :
    publishTerminal ident (some value) error now s =
      if s.takes (job.finished text bound now) ⟨ident, .done, .result value, now⟩ then
        (.ok false, publish s ident (fun j => j.finished text bound now)
          (fun j => j.finished_id text bound now) ⟨ident, .done, .result value, now⟩)
      else (.error tooBig, s) := by
  have ended := writeTerminal_run job ident (fun j => j.finished text bound now)
    (fun j => j.finished_id text bound now) ⟨ident, .done, .result value, now⟩ s
  split
  next fits =>
    rw [if_pos fits] at ended
    refine atomically_of_ok ?_
    simp only [findJob, run_bind_read, found, live, running, written, binds]
    exact run_bind_ok ended
  next big =>
    rw [if_neg big] at ended
    refine atomically_of_error (t := s) ?_
    simp only [findJob, run_bind_read, found, live, running, written, binds]
    exact (run_bind_ok rfl).trans <| (run_bind_ok rfl).trans <| (run_bind_ok rfl).trans <|
      run_bind_error ended

theorem finish_written (some : given value = some value)
    (written : Json.dumps {} value = .ok text) :
    finish ident value now s =
      if s.takes (job.finished text none now) ⟨ident, .done, .result value, now⟩ then
        (.ok false, publish s ident (fun j => j.finished text none now)
          (fun j => j.finished_id text none now) ⟨ident, .done, .result value, now⟩)
      else (.error tooBig, s) := by
  rw [finish, some]
  exact publishTerminal_finished found live running written rfl

theorem publishTerminal_failed (binds : error.mapM PyStr.bound = .ok bound) :
    publishTerminal ident none error now s =
      if s.takes (job.failed bound now) ⟨ident, job.failedKind, .error bound, now⟩ then
        (.ok false, publish s ident (fun j => j.failed bound now)
          (fun j => j.failed_id bound now) ⟨ident, job.failedKind, .error bound, now⟩)
      else (.error tooBig, s) := by
  have ended := writeTerminal_run job ident (fun j => j.failed bound now)
    (fun j => j.failed_id bound now) ⟨ident, job.failedKind, .error bound, now⟩ s
  split
  next fits =>
    rw [if_pos fits] at ended
    refine atomically_of_ok ?_
    simp only [findJob, run_bind_read, found, live, running, binds]
    exact run_bind_ok ended
  next big =>
    rw [if_neg big] at ended
    refine atomically_of_error (t := s) ?_
    simp only [findJob, run_bind_read, found, live, running, binds]
    exact (run_bind_ok rfl).trans ((run_bind_ok rfl).trans (run_bind_error ended))

theorem fail_written (text : String) :
    fail ident text now s =
      if s.takes (job.failed (some text) now) ⟨ident, job.failedKind, .error (some text), now⟩ then
        (.ok false, publish s ident (fun j => j.failed (some text) now)
          (fun j => j.failed_id (some text) now)
          ⟨ident, job.failedKind, .error (some text), now⟩)
      else (.error tooBig, s) :=
  publishTerminal_failed found live running rfl

theorem publishTerminal_unbound {result : Option Json}
    (written : ∀ value ∈ result, ∃ text, Json.dumps {} value = .ok text)
    (refused : error.mapM PyStr.bound = .error e) :
    publishTerminal ident result error now s = (.error e, s) := by
  refine atomically_of_error (t := s) ?_
  cases result with
  | none =>
    simp only [findJob, run_bind_read, found, live, running, refused]
    rfl
  | some value =>
    obtain ⟨text, written⟩ := written value rfl
    simp only [findJob, run_bind_read, found, live, running, written, refused]
    rfl

end Running

/-- A terminal call writes nothing, drops a tombstone or ends a running job with its event. -/
theorem publishTerminal_cases {result : Option Json} {error : Option PyStr}
    {answer : Except Exc Bool} (run : publishTerminal ident result error now s = (answer, t)) :
    (∃ e, answer = .error e ∧ t = s) ∨ ∃ job, s.jobs.find ident = some job ∧
      (job.purgePending = true ∧ answer = .ok true ∧ t = s.drop (fun j => decide (j.id = ident)) ∨
        job.purgePending = false ∧ job.status = .running ∧ answer = .ok false ∧
          ((∃ value text bound, result = some value ∧ Json.dumps {} value = .ok text ∧
              error.mapM PyStr.bound = .ok bound ∧
              t = publish s ident (fun j => j.finished text bound now)
                (fun j => j.finished_id text bound now) ⟨ident, .done, .result value, now⟩) ∨
            ∃ bound, result = none ∧ t = publish s ident (fun j => j.failed bound now)
              (fun j => j.failed_id bound now) ⟨ident, job.failedKind, .error bound, now⟩)) := by
  cases answer with
  | error e => exact .inl ⟨e, rfl, atomically_error run⟩
  | ok told =>
    cases found : s.jobs.find ident with
    | none =>
      rw [publishTerminal_unknown result error found] at run
      cases run
    | some job =>
      refine .inr ⟨job, rfl, ?_⟩
      cases purged : job.purgePending with
      | true =>
        rw [publishTerminal_purged result error found purged] at run
        cases run
        exact .inl ⟨rfl, rfl, rfl⟩
      | false =>
        refine .inr ⟨rfl, ?_⟩
        by_cases running : job.status = .running
        · refine ⟨running, ?_⟩
          cases result with
          | none =>
            cases binds : error.mapM PyStr.bound with
            | error e =>
              rw [publishTerminal_unbound found purged running (by simp) binds] at run
              cases run
            | ok bound =>
              rw [publishTerminal_failed found purged running binds] at run
              split at run <;> cases run
              exact ⟨rfl, .inr ⟨bound, rfl, rfl⟩⟩
          | some value =>
            cases written : Json.dumps {} value with
            | error e =>
              rw [publishTerminal_unwritten found purged running written] at run
              cases run
            | ok text =>
              cases binds : error.mapM PyStr.bound with
              | error e =>
                rw [publishTerminal_unbound found purged running
                  (fun _ same => Option.some.inj same ▸ ⟨text, written⟩) binds] at run
                cases run
              | ok bound =>
                rw [publishTerminal_finished found purged running written binds] at run
                split at run <;> cases run
                exact ⟨rfl, .inl ⟨value, text, bound, rfl, written, rfl, rfl⟩⟩
        · rw [publishTerminal_idle result error found purged running] at run
          cases run

theorem requestCancel_unknown (absent : s.jobs.find ident = none) :
    requestCancel ident now s = (.ok none, s) := by
  refine atomically_of_ok ?_
  simp only [findJob, run_bind_read, absent]
  rfl

theorem requestCancel_queued (found : s.jobs.find ident = some job)
    (queued : job.status = .queued) :
    requestCancel ident now s = (.ok (some .cancelled),
      publish s ident (fun j => j.cancelAt .cancelled now) (fun j => j.cancelAt_id _ now)
        ⟨ident, .cancelled, .empty, now⟩) := by
  refine atomically_of_ok ?_
  simp only [findJob, run_bind_read, found, queued]
  rfl

theorem requestCancel_running (found : s.jobs.find ident = some job)
    (running : job.status = .running) :
    requestCancel ident now s = (.ok (some .cancelRequested),
      publish s ident (fun j => j.cancelAt .cancelRequested now) (fun j => j.cancelAt_id _ now)
        ⟨ident, .cancelRequested, .empty, now⟩) := by
  refine atomically_of_ok ?_
  simp only [findJob, run_bind_read, found, running]
  rfl

theorem requestCancel_settled (found : s.jobs.find ident = some job)
    (unqueued : job.status ≠ .queued) (idle : job.status ≠ .running) :
    requestCancel ident now s = (.ok (some job.status), s) := by
  refine atomically_of_ok ?_
  simp only [findJob, run_bind_read, found]
  cases same : job.status with
  | queued => exact absurd same unqueued
  | running => exact absurd same idle
  | done | failed | cancelRequested | cancelled => rfl

theorem cancelFrom_matched (found : s.jobs.find ident = some job) (same : job.status = source) :
    cancelFrom source ident now s = (.ok true,
      publish s ident (fun j => j.cancelAt .cancelled now) (fun j => j.cancelAt_id _ now)
        ⟨ident, .cancelled, .empty, now⟩) := by
  obtain rfl := key_of_find found
  refine atomically_of_ok ?_
  rw [run_bind_ok (updateJobs_matched found same)]
  rfl

theorem cancelFrom_unmatched (other : ∀ job, s.jobs.find ident = some job → job.status ≠ source) :
    cancelFrom source ident now s = (.ok false, s) := by
  refine atomically_of_ok ?_
  rw [run_bind_ok (updateJobs_unmatched other)]
  rfl

end Terminal

theorem settlePurge_live (live : ∀ job, s.jobs.find ident = some job → job.purgePending = false) :
    settlePurge ident s = (.ok false, s) := by
  have unmatched : ∀ j ∈ s.jobs, (decide (j.id = ident) && j.purgePending) = false := by
    intro j mem
    by_cases here : j.id = ident
    · subst here
      simp [live j (find_of_mem mem)]
    · simp [here]
  unfold settlePurge
  rw [run_bind_read, run_bind_write, drop_none unmatched, select_none unmatched]
  rfl

/-- The store with one more job and its first event. -/
def inserted (s : JobStore) (job : Job) (fresh : s.jobs.find job.id = none) (now : Instant) :
    JobStore :=
  { s with
    jobs := s.jobs.insert job fresh
    events := s.events.append ⟨job.id, .queued, .runAt (some job.runAt), now⟩ }

theorem insertJob_stored
    (small : job.maxAttempts ≤ maxInteger) (fresh : s.jobs.find job.id = none) :
    insertJob job now s = (.ok job.id, inserted s job fresh now) := by
  refine atomically_of_ok ?_
  simp only [small, run_require_bind, run_bind_read]
  rw [run_bind_write,
    insertOrIgnore_fresh fresh]
  rfl

theorem insertJob_refused (job : Job) (now : Instant) (s : JobStore)
    (bad : maxInteger < job.maxAttempts ∨ ∃ other, s.jobs.find job.id = some other) :
    ∃ e, insertJob job now s = (.error e, s) := by
  by_cases small : job.maxAttempts ≤ maxInteger
  · obtain ⟨other, taken⟩ := bad.resolve_left (Int.not_lt.mpr small)
    refine ⟨.integrityError "UNIQUE constraint failed: jobs.id",
      atomically_of_error (t := s) ?_⟩
    simp only [small, decide_true, run_require_bind, if_true, run_bind_read]
    rw [insertOrIgnore_conflict taken, if_neg (by simp)]
  · refine ⟨.overflowError "Python int too large to convert to SQLite INTEGER",
      atomically_of_error (t := s) ?_⟩
    simp only [small, decide_false, run_require_bind, Bool.false_eq_true, if_false]

theorem insertJob_returned {result : String} (run : insertJob job now s = (.ok result, t)) :
    ∃ fresh : s.jobs.find job.id = none, result = job.id ∧ t = inserted s job fresh now := by
  by_cases bad : maxInteger < job.maxAttempts ∨ ∃ other, s.jobs.find job.id = some other
  · obtain ⟨e, refused⟩ := insertJob_refused job now s bad
    rw [refused] at run
    cases run
  · have fresh : s.jobs.find job.id = none :=
      eq_none_iff_forall_ne_some.mpr (fun other there => bad (.inr ⟨other, there⟩))
    rw [insertJob_stored (Int.not_lt.mp (fun large => bad (.inl large))) fresh] at run
    cases run
    exact ⟨fresh, rfl, rfl⟩

theorem enqueue_naive (ident goal : String) (maxAttempts : Int) (principal : Option String)
    (now clock : Instant) (s : JobStore) :
    enqueue ident goal (some .naive) maxAttempts principal now clock s =
      (.error (.valueError "run_at requires a timezone"), s) := rfl

theorem checkRunAt_converts (instant : Instant) (s : JobStore)
    (converts : RunAt.converts (some (.aware instant)) = true) :
    checkRunAt (some (.aware instant)) s = (.ok (some instant), s) := by
  simp only [checkRunAt, converts]
  rfl

theorem checkRunAt_lost (instant : Instant) (s : JobStore)
    (lost : RunAt.converts (some (.aware instant)) = false) :
    checkRunAt (some (.aware instant)) s = (.error (.overflowError "date value out of range"), s) := by
  simp only [checkRunAt, lost, run_require_bind, Bool.false_eq_true, if_false]

theorem enqueue_aware (ident goal : String) (maxAttempts : Int) (principal : Option String)
    (now clock : Instant) (s : JobStore) (aware : runAt ≠ some .naive)
    (converts : RunAt.converts runAt = true) :
    enqueue ident goal runAt maxAttempts principal now clock s =
      insertJob (newJob ident goal ((RunAt.given runAt).getD clock) maxAttempts principal now) now
        s := by
  cases runAt with
  | none => rfl
  | some at_ =>
    cases at_ with
    | naive => exact absurd rfl aware
    | aware instant => exact run_bind_ok (checkRunAt_converts instant s converts)

theorem enqueue_unconverted (ident goal : String) (maxAttempts : Int) (principal : Option String)
    (now clock : Instant) (s : JobStore) (lost : RunAt.converts runAt = false) :
    enqueue ident goal runAt maxAttempts principal now clock s =
      (.error (.overflowError "date value out of range"), s) := by
  cases runAt with
  | none => cases lost
  | some at_ =>
    cases at_ with
    | naive => cases lost
    | aware instant => exact run_bind_error (checkRunAt_lost instant s lost)

theorem enqueue_cases (ident goal : String) (runAt : Option RunAt) (maxAttempts : Int)
    (principal : Option String) (now clock : Instant) (s : JobStore) :
    enqueue ident goal runAt maxAttempts principal now clock s =
        insertJob (newJob ident goal ((RunAt.given runAt).getD clock) maxAttempts principal now) now
          s ∨
      ∃ e, enqueue ident goal runAt maxAttempts principal now clock s = (.error e, s) := by
  by_cases naive : runAt = some .naive
  · subst naive
    exact .inr ⟨_, enqueue_naive ident goal maxAttempts principal now clock s⟩
  · cases converts : RunAt.converts runAt with
    | true => exact .inl (enqueue_aware _ _ _ _ _ _ _ naive converts)
    | false => exact .inr ⟨_, enqueue_unconverted _ _ _ _ _ _ _ converts⟩

/-- The store after the running jobs of a principal were tombstoned. -/
def tombstoneHeld (s : JobStore) (principal : String) (now : Instant) : JobStore :=
  { s with
    jobs := s.jobs.update (fun j => ownedBy principal j && j.held) (fun j => j.tombstoned now)
      (fun j => j.tombstoned_id now)
    events := s.events.delete (fun e =>
      (s.jobs.find e.jobId).any (fun j => ownedBy principal j && j.held)) }

theorem purgePrincipal_returned {principal : String} {counts : PurgeCounts}
    (run : purgePrincipal principal now s = (.ok counts, t)) :
    t = (tombstoneHeld s principal now).drop (ownedBy principal) := by
  obtain ⟨-, run⟩ := require_bind_returned run
  cases run
  rfl

theorem view_tombstoneHeld (s : JobStore) (principal : String) (now : Instant) (ident : String) :
    view (tombstoneHeld s principal now) ident = (view s ident).map (fun v =>
      if ownedBy principal v.job && v.job.held then ⟨v.job.tombstoned now, []⟩ else v) := by
  unfold view tombstoneHeld logOf
  rw [find_update]
  cases found : s.jobs.find ident with
  | none => rfl
  | some job =>
    cases met : ownedBy principal job && job.held with
    | true =>
      rw [Log.select_delete_all]
      · simp only [map_some, met, if_true]
      · intro e here
        rw [of_decide_eq_true here, found]
        exact met
    | false =>
      rw [Log.select_delete_disjoint]
      · simp only [map_some, met, Bool.false_eq_true, if_false]
      · intro e here
        rw [of_decide_eq_true here, found]
        exact met

theorem noOrphans_tombstoneHeld (before : NoOrphans s) (principal : String) (now : Instant) :
    NoOrphans (tombstoneHeld s principal now) := by
  intro ident absent
  unfold tombstoneHeld at absent
  rw [find_update, map_eq_none_iff] at absent
  refine Eq.trans (Log.select_delete_disjoint _ ?_) (before ident absent)
  intro e here
  rw [of_decide_eq_true here, absent]
  rfl

/-- What every call does: one move of each job, no event orphaned, and a log that grows. -/
structure Called (s t : JobStore) : Prop where
  moves : ∀ ident, JobMove (view s ident) (view t ident)
  orphans : NoOrphans t
  grows : Log.Grows s.events t.events

theorem publish_call (before : NoOrphans s) (found : s.jobs.find ident = some job)
    (about : event.jobId = ident) (edge : JobEdge job event.kind (f job))
    (done : t = publish s ident f keeps event) : Called s t := by
  subst done
  exact ⟨publish_moves found about edge, publish_noOrphans before found about,
    Log.grows_append _ _⟩

theorem grows_drop (s : JobStore) (p : Job → Bool) : Log.Grows s.events (s.drop p).events :=
  Log.grows_delete s.events (fun e => (s.jobs.find e.jobId).any p)

theorem grows_tombstoneHeld (s : JobStore) (principal : String) (now : Instant) :
    Log.Grows s.events (tombstoneHeld s principal now).events :=
  Log.grows_delete s.events (fun e =>
    (s.jobs.find e.jobId).any (fun j => ownedBy principal j && j.held))

theorem drop_call (before : NoOrphans s) (p : Job → Bool) : Called s (s.drop p) :=
  ⟨moves_drop s p, noOrphans_drop before p, grows_drop s p⟩

theorem same_call (before : NoOrphans s) : Called s s :=
  ⟨fun _ => .stays _, before, Log.Grows.refl _⟩

/-- A terminal call published an edge of a running job or dropped a tombstone. -/
theorem publishTerminal_call {result : Option Json} {error : Option PyStr}
    (clean : result = none ∨ error = none) (before : NoOrphans s)
    (run : publishTerminal ident result error now s = (.ok told, t)) : Called s t := by
  obtain ⟨e, raised, -⟩ | ⟨job, found, ⟨-, -, rfl⟩ | ⟨live, running, -, ended⟩⟩ :=
    publishTerminal_cases run
  · cases raised
  · exact drop_call before _
  · obtain ⟨value, text, bound, rfl, -, binds, rfl⟩ | ⟨bound, -, rfl⟩ := ended
    · obtain rfl : error = none := by simpa using clean
      cases binds
      exact publish_call before found rfl (.finish text now running live) rfl
    · exact publish_call before found rfl (.fail bound now running live) rfl

theorem cancelFrom_call (before : NoOrphans s)
    (edge : ∀ job : Job, job.status = source → JobEdge job .cancelled (job.cancelAt .cancelled now))
    (run : cancelFrom source ident now s = (.ok told, t)) : Called s t := by
  by_cases matched : ∃ job, s.jobs.find ident = some job ∧ job.status = source
  · obtain ⟨job, found, same⟩ := matched
    rw [cancelFrom_matched found same] at run
    cases run
    exact publish_call before found rfl (edge job same) rfl
  · rw [cancelFrom_unmatched (fun job found same => matched ⟨job, found, same⟩)] at run
    cases run
    exact same_call before

theorem enqueue_call (before : NoOrphans s) (fresh : s.jobs.find job.id = none)
    (queued : job.status = .queued) (none : job.attempts = 0) (budget : 1 ≤ job.maxAttempts)
    (unfinished : job.result = .none) (live : job.purgePending = false) (now : Instant) :
    Called s (inserted s job fresh now) := by
  refine ⟨?_, ?_, Log.grows_append _ _⟩
  · intro other
    unfold view inserted
    rw [logOf_append, find_insert]
    by_cases here : job.id = other
    · subst here
      rw [if_pos rfl, if_pos rfl, fresh, before _ fresh]
      exact .enqueued job _ _ queued none budget unfinished live rfl
    · rw [if_neg here, if_neg here]
      exact .stays _
  · intro other absent
    unfold inserted at absent ⊢
    rw [find_insert] at absent
    rw [logOf_append]
    by_cases here : job.id = other
    · rw [if_pos here] at absent
      cases absent
    · rw [if_neg here] at absent
      rw [if_neg here]
      exact before other absent

/-- An account deletion tombstones the jobs a worker holds and drops the others. -/
theorem moves_purge (s : JobStore) (principal : String) (now : Instant) (ident : String) :
    JobMove (view s ident)
      (view ((tombstoneHeld s principal now).drop (ownedBy principal)) ident) := by
  rw [view_drop, view_tombstoneHeld]
  cases view s ident with
  | none => exact .stays none
  | some v =>
    cases met : ownedBy principal v.job && v.job.held with
    | true =>
      have held : v.job.held = true := (Bool.and_eq_true_iff.mp met).2
      simp only [map_some, met]
      have kept : ownedBy principal (v.job.tombstoned now) = false := rfl
      simpa [filter_some, kept] using JobMove.tombstoned v.job v.log now held
    | false =>
      simp only [map_some, met]
      cases gone : ownedBy principal v.job with
      | true => simpa [filter_some, gone] using JobMove.dropped v
      | false => simpa [filter_some, gone] using JobMove.stays (some v)

theorem call_moves {value : Value} (before : NoOrphans s) (run : step s call = (.ok value, t)) :
    Called s t := by
  cases call with
  | enqueue ident goal runAt budget principal now clock =>
    obtain ⟨result, done, rfl⟩ := answer_ok run
    rcases enqueue_cases ident goal runAt budget.attempts principal now clock s with
      taken | ⟨e, refused⟩
    · rw [taken] at done
      obtain ⟨fresh, -, rfl⟩ := insertJob_returned done
      exact enqueue_call before fresh rfl rfl budget.positive rfl rfl now
    · rw [refused] at done
      cases done
  | claim now =>
    obtain ⟨result, done, rfl⟩ := answer_ok run
    rcases claim_returned done with ⟨-, rfl⟩ | ⟨job, -, found, queued, -, done⟩
    · exact same_call before
    · exact publish_call before found rfl (.claim now queued) done
  | finish ident result now =>
    obtain ⟨told, done, rfl⟩ := answer_ok run
    exact publishTerminal_call (.inr rfl) before done
  | fail ident error now =>
    obtain ⟨told, done, rfl⟩ := answer_ok run
    exact publishTerminal_call (.inl rfl) before done
  | requestCancel ident now =>
    obtain ⟨status, done, rfl⟩ := answer_ok run
    cases found : s.jobs.find ident with
    | none =>
      rw [requestCancel_unknown found] at done
      cases done
      exact same_call before
    | some job =>
      by_cases queued : job.status = .queued
      · rw [requestCancel_queued found queued] at done
        cases done
        exact publish_call before found rfl (.cancelQueued now queued) rfl
      · by_cases running : job.status = .running
        · rw [requestCancel_running found running] at done
          cases done
          exact publish_call before found rfl (.requestCancel now running) rfl
        · rw [requestCancel_settled found queued running] at done
          cases done
          exact same_call before
  | cancel ident now =>
    obtain ⟨told, done, rfl⟩ := answer_ok run
    exact cancelFrom_call before (fun _ queued => .cancelQueued now queued) done
  | settlePurge ident =>
    rw [step] at run
    obtain ⟨told, done, rfl⟩ := answer_ok run
    cases done
    exact drop_call before _
  | cancelRequestedJob ident now =>
    obtain ⟨told, done, rfl⟩ := answer_ok run
    exact cancelFrom_call before (fun _ requested => .cancelRequested now requested) done
  | purgePrincipal principal now =>
    obtain ⟨counts, done, rfl⟩ := answer_ok run
    obtain rfl := purgePrincipal_returned done
    exact ⟨moves_purge s principal now,
      noOrphans_drop (noOrphans_tombstoneHeld before principal now) _,
      (grows_tombstoneHeld s principal now).trans (grows_drop _ _)⟩
  | sweepPurges staleBefore =>
    rw [step] at run
    obtain ⟨count, done, rfl⟩ := answer_ok run
    cases done
    exact drop_call before _

theorem call_raised {e : Exc} (run : step s call = (.error e, t)) : t = s := by
  cases call with
  | enqueue ident goal runAt budget principal now clock =>
    have raised := answer_error run
    rcases enqueue_cases ident goal runAt budget.attempts principal now clock s with
      taken | ⟨e, refused⟩
    · rw [taken] at raised
      exact atomically_error raised
    · rw [refused] at raised
      cases raised
      rfl
  | purgePrincipal principal now =>
    exact raisesClean_require_bind (raisesClean_atomically _) _ _ _ (answer_error run)
  | settlePurge ident =>
    rw [step] at run
    cases answer_error run
  | sweepPurges staleBefore =>
    rw [step] at run
    cases answer_error run
  | _ =>
    exact atomically_error (answer_error run)

theorem step_noOrphans (s : JobStore) (call : StoreCall) (before : NoOrphans s) :
    NoOrphans (step s call).2 := by
  cases run : step s call with
  | mk result t =>
    cases result with
    | error e =>
      obtain rfl := call_raised run
      exact before
    | ok value => exact (call_moves before run).orphans

end Meemee.Guarantees.JobMoves
