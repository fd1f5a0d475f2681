import Meemee.Source.PgJobs

/-!
# What one call does to the PostgreSQL job table

Each operation as an equation: the answer, and the store after it, by what row it
found. Leases, refinement and webhook arguments rewrite with these and never unfold an
operation.
-/
namespace Meemee.Guarantees.LeaseCalls
open Library Source Source.PgJobs Library.Txn Library.Table Option
open Source.Jobs (JobStatus EventKind EventPayload JobEvent RunAt PurgeCounts ofJob)

/-- Delete the rows that meet `p`, with the cascade. -/
def drop (s : PgStore) (p : PgJob → Bool) : PgStore where
  jobs := s.jobs.delete p
  events := s.events.delete (fun e => (s.jobs.find e.jobId).any p)

/-- Update the row of a job. -/
def updateOne (s : PgStore) (ident : String) (f : PgJob → PgJob) (keeps : ∀ j, (f j).id = j.id) :
    PgStore :=
  { s with jobs := s.jobs.update (fun j => decide (j.id = ident)) f keeps }

/-- Update the row of a job and append one event about it. -/
def publish (s : PgStore) (ident : String) (f : PgJob → PgJob) (keeps : ∀ j, (f j).id = j.id)
    (event : JobEvent) : PgStore where
  jobs := s.jobs.update (fun j => decide (j.id = ident)) f keeps
  events := s.events.append event

variable {p : PgJob → Bool} {s t : PgStore} {job : PgJob} {f : PgJob → PgJob} {now : Instant}
  {runAt : Option RunAt} {ident : String}

theorem any_congr {t : Table PgJob.id} {q : PgJob → Bool} (agree : ∀ j ∈ t, p j = q j)
    (ident : String) : (t.find ident).any p = (t.find ident).any q := by
  cases found : t.find ident with
  | none => rfl
  | some job => exact agree job (mem_of_find found)

theorem drop_congr {q : PgJob → Bool} (agree : ∀ j ∈ s.jobs, p j = q j) : drop s p = drop s q := by
  simp only [drop, delete_congr agree, any_congr agree]

theorem drop_none (unmatched : ∀ j ∈ s.jobs, p j = false) : drop s p = s := by
  have kept : ∀ ident, (s.jobs.find ident).any p = false := by
    intro ident
    rw [any_congr (q := fun _ => false) unmatched]
    cases s.jobs.find ident <;> rfl
  simp only [drop, delete_none unmatched, kept]
  rw [Log.delete_none (fun _ _ => rfl)]

theorem find_drop (s : PgStore) (p : PgJob → Bool) (ident : String) :
    (drop s p).jobs.find ident = (s.jobs.find ident).filter (fun j => !p j) :=
  find_delete s.jobs p ident

theorem deleteJobs_run (p : PgJob → Bool) (s : PgStore) :
    deleteJobs p s = (.ok (s.jobs.select p).length, drop s p) := rfl

theorem updateReturning_run (p : PgJob → Bool) (f : PgJob → PgJob) (keeps : ∀ j, (f j).id = j.id)
    (s : PgStore) : updateReturning p f keeps s =
      (.ok ((s.jobs.select p).map f), { s with jobs := s.jobs.update p f keeps }) := rfl

section Guarded

variable {s : PgStore} {ident : String} {p q : PgJob → Bool}

theorem guard_met (found : s.jobs.find ident = some job) (met : q job = true) :
    ∀ j ∈ s.jobs, (decide (j.id = ident) && q j) = decide (j.id = ident) := by
  intro j mem
  by_cases here : j.id = ident
  · rw [eq_of_find found mem here, met, Bool.and_true]
  · simp [here]

theorem guard_unmet (unmet : ∀ job, s.jobs.find ident = some job → q job = false) :
    ∀ j ∈ s.jobs, (decide (j.id = ident) && q j) = false := by
  intro j mem
  by_cases here : j.id = ident
  · subst here
    simp [unmet j (find_of_mem mem)]
  · simp [here]

variable {keeps : ∀ j, (f j).id = j.id}

theorem updateReturning_matched
    (guard : ∀ j, p j = (decide (j.id = ident) && q j)) (found : s.jobs.find ident = some job)
    (met : q job = true) : updateReturning p f keeps s =
      (.ok [f job], updateOne s ident f keeps) := by
  obtain rfl := funext guard
  rw [updateReturning_run, select_keyed, found, update_congr (guard_met found met)]
  simp [met, updateOne]

theorem updateReturning_unmatched
    (guard : ∀ j, p j = (decide (j.id = ident) && q j))
    (unmet : ∀ job, s.jobs.find ident = some job → q job = false) :
    updateReturning p f keeps s = (.ok [], s) := by
  obtain rfl := funext guard
  rw [updateReturning_run, select_none (guard_unmet unmet),
    update_none (guard_unmet unmet)]
  rfl

theorem deleteJobs_matched (guard : ∀ j, p j = (decide (j.id = ident) && q j))
    (found : s.jobs.find ident = some job) (met : q job = true) :
    deleteJobs p s = (.ok 1, drop s (fun j => decide (j.id = ident))) := by
  obtain rfl := funext guard
  rw [deleteJobs_run, select_keyed, found, drop_congr (guard_met found met)]
  simp [met]

theorem deleteJobs_unmatched (guard : ∀ j, p j = (decide (j.id = ident) && q j))
    (unmet : ∀ job, s.jobs.find ident = some job → q job = false) :
    deleteJobs p s = (.ok 0, s) := by
  obtain rfl := funext guard
  rw [deleteJobs_run, select_none (guard_unmet unmet), drop_none (guard_unmet unmet)]
  rfl

end Guarded

/-- The log after one event for each row. -/
def logged (kind : PgJob → EventKind) (payload : EventPayload) (now : Instant)
    (log : Log JobEvent) (rows : List PgJob) : Log JobEvent :=
  rows.foldl (fun log row => log.append ⟨row.id, kind row, payload, now⟩) log

theorem insertEvents_run (kind : PgJob → EventKind) (payload : EventPayload) (now : Instant)
    (rows : List PgJob) (s : PgStore) : insertEvents kind payload now rows s =
      (.ok (), { s with events := logged kind payload now s.events rows }) := by
  induction rows generalizing s with
  | nil => rfl
  | cons row rest ih => exact ih _

/-- UPDATE the rows that meet `p` and log one event for each. -/
def settleAll (s : PgStore) (p : PgJob → Bool) (f : PgJob → PgJob) (keeps : ∀ j, (f j).id = j.id)
    (kind : PgJob → EventKind) (payload : EventPayload) (now : Instant) : PgStore where
  jobs := s.jobs.update p f keeps
  events := logged kind payload now s.events ((s.jobs.select p).map f)

theorem settleAll_none (kind : PgJob → EventKind)
    (payload : EventPayload) (now : Instant) (unmatched : ∀ j ∈ s.jobs, p j = false) :
    settleAll s p f keeps kind payload now = s := by
  rw [settleAll, select_none unmatched, update_none unmatched]
  rfl

theorem expired_id (clock : Clock) (j : PgJob) :
    (j.failed "worker lease expired" (clock 1)).id = j.id := j.failed_id _ _

theorem cancelled_id (clock : Clock) (j : PgJob) : (j.reapedCancelled (clock 2)).id = j.id :=
  j.reapedCancelled_id _

/-- The store after `_reap`: dead tombstones dropped, expired work settled. -/
def reaped (clock : Clock) (s : PgStore) : PgStore :=
  settleAll
    (settleAll (drop s (fun j => j.purgeable (clock 0)))
      (fun j => decide (j.status = .running) && j.leaseExpired (clock 1))
      (fun j => j.failed "worker lease expired" (clock 1)) (expired_id clock)
      reapedKind expiredError (clock 1))
    (fun j => decide (j.status = .cancelRequested) && j.leaseExpired (clock 2))
    (fun j => j.reapedCancelled (clock 2)) (cancelled_id clock)
    (fun _ => .cancelled) (.error (some "worker lease expired after cancel request")) (clock 2)

theorem reap_run (clock : Clock) (s : PgStore) : reap clock s = (.ok (), reaped clock s) := by
  unfold reap
  rw [run_bind_ok (deleteJobs_run _ s), run_bind_ok (updateReturning_run _ _ _ _),
    run_bind_ok (insertEvents_run _ _ _ _ _), run_bind_ok (updateReturning_run _ _ _ _),
    insertEvents_run]
  rfl

/-- A running row that the reaper finds expired. -/
def reapRunning (now : Instant) (job : PgJob) : PgJob :=
  if decide (job.status = .running) && job.leaseExpired now then
    job.failed "worker lease expired" now
  else job

/-- A cancellation that the reaper finds expired. -/
def reapCancelling (now : Instant) (job : PgJob) : PgJob :=
  if decide (job.status = .cancelRequested) && job.leaseExpired now then job.reapedCancelled now
  else job

/-- What the reaper makes of one row. -/
def reapRow (clock : Clock) (job : PgJob) : Option PgJob :=
  if job.purgeable (clock 0) then none
  else some (reapCancelling (clock 2) (reapRunning (clock 1) job))

theorem find_reaped (clock : Clock) (s : PgStore) (ident : String) :
    (reaped clock s).jobs.find ident = (s.jobs.find ident).bind (reapRow clock) := by
  simp only [reaped, settleAll, drop, find_update, find_delete]
  cases s.jobs.find ident with
  | none => rfl
  | some job =>
    simp only [bind_some, reapRow, filter_some]
    cases gone : job.purgeable (clock 0) <;> rfl

/-- The table with one more row and its first event. -/
def inserted (s : PgStore) (job : PgJob) (fresh : s.jobs.find job.id = none)
    (runAt : Option Instant) (now : Instant) : PgStore where
  jobs := s.jobs.insert job fresh
  events := s.events.append ⟨job.id, .queued, .runAt runAt, now⟩

/-- The columns take the values of the row. -/
def stores (job : PgJob) : Bool :=
  storesText job.goal && job.principal.all storesText && decide (job.maxAttempts ≤ maxInteger)

theorem insertJob_stored {runAt : Option Instant} (stored : stores job = true)
    (fresh : s.jobs.find job.id = none) :
    insertJob job runAt now s = (.ok job.id, inserted s job fresh runAt now) := by
  refine atomically_of_ok ?_
  rw [show (storesText job.goal && job.principal.all storesText &&
    decide (job.maxAttempts ≤ maxInteger)) = true from stored]
  simp only [run_require_bind, run_bind_read]
  rw [run_bind_write,
    insertOrIgnore_fresh fresh]
  rfl

theorem insertJob_refused (job : PgJob) (runAt : Option Instant) (now : Instant) (s : PgStore)
    (bad : stores job = false ∨ ∃ other, s.jobs.find job.id = some other) :
    ∃ e, insertJob job runAt now s = (.error e, s) := by
  cases stored : stores job with
  | true =>
    obtain ⟨other, taken⟩ := bad.resolve_left (by simp [stored])
    refine ⟨.integrityError "duplicate key value violates unique constraint",
      atomically_of_error (t := s) ?_⟩
    rw [show (storesText job.goal && job.principal.all storesText &&
      decide (job.maxAttempts ≤ maxInteger)) = true from stored]
    simp only [run_require_bind, if_true, run_bind_read]
    rw [insertOrIgnore_conflict taken, if_neg (by simp)]
  | false =>
    refine ⟨outOfRange, atomically_of_error (t := s) ?_⟩
    rw [show (storesText job.goal && job.principal.all storesText &&
      decide (job.maxAttempts ≤ maxInteger)) = false from stored]
    simp only [run_require_bind, Bool.false_eq_true, if_false]

theorem insertJob_returned {runAt : Option Instant} {result : String}
    (run : insertJob job runAt now s = (.ok result, t)) :
    ∃ fresh : s.jobs.find job.id = none, t = inserted s job fresh runAt now := by
  by_cases bad : stores job = false ∨ ∃ other, s.jobs.find job.id = some other
  · obtain ⟨e, refused⟩ := insertJob_refused job runAt now s bad
    rw [refused] at run
    cases run
  · have fresh : s.jobs.find job.id = none :=
      eq_none_iff_forall_ne_some.mpr (fun other there => bad (.inr ⟨other, there⟩))
    rw [insertJob_stored (by simpa using fun no => bad (.inl no)) fresh] at run
    cases run
    exact ⟨fresh, rfl⟩

theorem enqueue_aware (ident goal : String) (maxAttempts : Int) (principal : Option String)
    (clock : Clock) (s : PgStore) (aware : runAt ≠ some .naive) :
    enqueue ident goal runAt maxAttempts principal clock s =
      if !blank goal && decide (1 ≤ maxAttempts) then
        insertJob (newJob ident goal ((RunAt.given runAt).getD (clock 0)) maxAttempts principal
          (clock 0)) (RunAt.given runAt) (clock 1) s
      else (.error (.valueError "goal and positive max_attempts required"), s) := by
  cases runAt with
  | none => exact run_require_bind _ _ _ s
  | some at_ =>
    cases at_ with
    | naive => exact absurd rfl aware
    | aware instant => exact run_require_bind _ _ _ s

theorem enqueue_returned {goal : String} {maxAttempts : Int} {principal : Option String}
    {clock : Clock} {result : String}
    (run : enqueue ident goal runAt maxAttempts principal clock s = (.ok result, t)) :
    ∃ job at_, ∃ fresh : s.jobs.find job.id = none, job.status = .queued ∧ job.attempts = 0 ∧
      job.leaseOwner = none ∧ 1 ≤ job.maxAttempts ∧ t = inserted s job fresh at_ (clock 1) := by
  by_cases aware : runAt = some .naive
  · subst aware
    cases run
  · rw [enqueue_aware _ _ _ _ _ _ aware] at run
    split at run
    next valid =>
      obtain ⟨fresh, done⟩ := insertJob_returned run
      exact ⟨_, _, fresh, rfl, rfl, rfl, of_decide_eq_true (Bool.and_eq_true_iff.mp valid).2, done⟩
    next => cases run

theorem enqueue_raised {goal : String} {maxAttempts : Int} {principal : Option String}
    {clock : Clock} {e : Exc}
    (run : enqueue ident goal runAt maxAttempts principal clock s = (.error e, t)) : t = s := by
  by_cases aware : runAt = some .naive
  · subst aware
    cases run
    rfl
  · rw [enqueue_aware _ _ _ _ _ _ aware] at run
    split at run
    next => exact atomically_error run
    next =>
      cases run
      rfl

theorem claim_run (worker : Worker) (token : String) (clock : Clock) (s : PgStore) :
    claim worker token clock s =
      match (reaped clock s).jobs.first (fun j => decide (j.status = .queued ∧ j.runAt ≤ clock 3))
          dueBefore with
      | none => (.ok none, reaped clock s)
      | some job => (.ok (some (job.claimed worker token (clock 3))),
          publish (reaped clock s) job.id (fun j => j.claimed worker token (clock 3))
            (fun j => j.claimed_id _ _ _)
            ⟨job.id, .running, .attempt (job.attempts + 1) (some worker.workerId), clock 3⟩) := by
  cases picked : (reaped clock s).jobs.first
      (fun j => decide (j.status = .queued ∧ j.runAt ≤ clock 3)) dueBefore with
  | none =>
    refine atomically_of_ok ?_
    rw [run_bind_ok (reap_run clock s), run_bind_read, picked]
    rfl
  | some job =>
    have found := find_of_mem (first_some picked).1
    refine atomically_of_ok ?_
    rw [run_bind_ok (reap_run clock s), run_bind_read, picked]
    simp only
    rw [run_bind_ok (updateReturning_matched (q := fun _ => true) (by simp) found rfl)]
    rfl

theorem tokenOr_cases (worker : Worker) (ident : String) (token : Option String) (s : PgStore) :
    (∃ text, tokenOr worker ident token s = (.ok text, s)) ∨
      tokenOr worker ident token s = (.error (leaseLost ident), s) := by
  unfold tokenOr
  cases token.filter (fun t => decide (t ≠ "")) with
  | some text => exact .inl ⟨text, rfl⟩
  | none =>
    unfold ownedToken findJob
    simp only [run_bind_read]
    cases (s.jobs.find ident).filter (fun j => decide (j.leaseOwner = some worker.workerId)) with
    | none => exact .inr rfl
    | some row => exact .inl ⟨_, rfl⟩

section Holder

variable {worker : Worker} {ident token : String} {now : Instant} {s : PgStore}

/-- No row that the caller's pair could change: not its own unexpired lease. -/
def Refused (s : PgStore) (worker : Worker) (ident token : String) (now : Instant) : Prop :=
  ∀ job, s.jobs.find ident = some job → (job.held && job.heldBy worker.workerId token now) = false

/-- No tombstone under the caller's token. -/
def NoTombstone (s : PgStore) (worker : Worker) (ident token : String) : Prop :=
  ∀ job, s.jobs.find ident = some job →
    (job.purgePending && job.leasedTo worker.workerId token) = false

theorem heartbeat_held (found : s.jobs.find ident = some job)
    (held : (job.held && job.heldBy worker.workerId token now) = true) :
    heartbeat worker ident token now s = (.ok true,
      updateOne s ident (fun j => j.extended worker now) (fun j => j.extended_id _ _)) := by
  refine atomically_of_ok ?_
  rw [run_bind_ok (updateReturning_matched
    (q := fun j => j.held && j.heldBy worker.workerId token now)
    (fun j => Bool.and_assoc _ _ _) found held)]
  rfl

theorem heartbeat_refused (refused : Refused s worker ident token now) :
    heartbeat worker ident token now s = (.ok false, s) := by
  refine atomically_of_ok ?_
  rw [run_bind_ok (updateReturning_unmatched
    (q := fun j => j.held && j.heldBy worker.workerId token now)
    (fun j => Bool.and_assoc _ _ _) refused)]
  rfl

theorem settlePurge_matched (found : s.jobs.find ident = some job)
    (tombstone : (job.purgePending && job.leasedTo worker.workerId token) = true) :
    settlePurge worker ident token s = (.ok true, drop s (fun j => decide (j.id = ident))) := by
  unfold settlePurge
  rw [run_bind_ok (deleteJobs_matched
    (q := fun j => j.purgePending && j.leasedTo worker.workerId token)
    (fun j => Bool.and_assoc _ _ _) found tombstone)]
  rfl

theorem settlePurge_unmatched (absent : NoTombstone s worker ident token) :
    settlePurge worker ident token s = (.ok false, s) := by
  unfold settlePurge
  rw [run_bind_ok (deleteJobs_unmatched
    (q := fun j => j.purgePending && j.leasedTo worker.workerId token)
    (fun j => Bool.and_assoc _ _ _) absent)]
  rfl

theorem terminal_purged (status : JobStatus) (result : Option Json) (error : Option String)
    (found : s.jobs.find ident = some job)
    (tombstone : (job.purgePending && job.leasedTo worker.workerId token) = true) :
    terminal worker ident token status result error now s =
      (.ok true, drop s (fun j => decide (j.id = ident))) := by
  refine atomically_of_ok ?_
  rw [run_bind_ok (settlePurge_matched found tombstone)]
  rfl

theorem terminal_refused (status : JobStatus) (result : Option Json) (error : Option String)
    (absent : NoTombstone s worker ident token) (refused : Refused s worker ident token now) :
    terminal worker ident token status result error now s =
      (.error (match resultParameter result with
        | .ok _ => leaseLost ident
        | .error e => e), s) := by
  refine atomically_of_error (t := s) ?_
  rw [run_bind_ok (settlePurge_unmatched absent)]
  simp only [Bool.false_eq_true, if_false]
  cases resultParameter result with
  | error e => rfl
  | ok checked =>
    rw [run_bind_ok (run_ofExcept _ _),
      run_bind_ok (updateReturning_unmatched
    (q := fun j => j.held && j.heldBy worker.workerId token now)
    (fun j => Bool.and_assoc _ _ _) refused)]
    rfl

theorem terminal_settled (status : JobStatus) (result : Option Json) (error : Option String)
    (found : s.jobs.find ident = some job)
    (live : (job.purgePending && job.leasedTo worker.workerId token) = false)
    (held : (job.held && job.heldBy worker.workerId token now) = true) :
    terminal worker ident token status result error now s =
      match resultParameter result with
      | .error e => (.error e, s)
      | .ok checked => (.ok false, publish s ident (fun j => j.settled status checked error now)
          (fun j => j.settled_id _ _ _ _)
          ⟨ident, statusKind status, settledPayload checked error, now⟩) := by
  have absent : NoTombstone s worker ident token := by
    intro other there
    rw [found] at there
    cases there
    exact live
  unfold terminal
  cases checkedEq : resultParameter result with
  | error e =>
    refine atomically_of_error (t := s) ?_
    rw [run_bind_ok (settlePurge_unmatched absent)]
    rfl
  | ok checked =>
    refine atomically_of_ok ?_
    rw [run_bind_ok (settlePurge_unmatched absent)]
    simp only [Bool.false_eq_true, if_false]
    rw [run_bind_ok (run_ofExcept _ _), run_bind_ok (updateReturning_matched
    (q := fun j => j.held && j.heldBy worker.workerId token now)
    (fun j => Bool.and_assoc _ _ _) found held)]
    rfl

theorem failWith_purged (error : PyStr) (found : s.jobs.find ident = some job)
    (tombstone : (job.purgePending && job.leasedTo worker.workerId token) = true) :
    failWith worker ident error token now s =
      (.ok true, drop s (fun j => decide (j.id = ident))) := by
  refine atomically_of_ok ?_
  rw [run_bind_ok (settlePurge_matched found tombstone)]
  rfl

/-- `fail` matches running rows only. -/
def Unfailed (s : PgStore) (worker : Worker) (ident token : String) (now : Instant) : Prop :=
  ∀ job, s.jobs.find ident = some job →
    (decide (job.status = .running) && job.heldBy worker.workerId token now) = false

theorem failWith_refused (error : PyStr) (absent : NoTombstone s worker ident token)
    (unfailed : Unfailed s worker ident token now) :
    failWith worker ident error token now s = (.error (match errorColumn error with
      | .ok _ => leaseLost ident
      | .error e => e), s) := by
  refine atomically_of_error (t := s) ?_
  rw [run_bind_ok (settlePurge_unmatched absent)]
  simp only [Bool.false_eq_true, if_false]
  cases errorColumn error with
  | error e => rfl
  | ok text =>
    refine (run_bind_ok rfl).trans ?_
    rw [run_bind_ok (updateReturning_unmatched
      (q := fun j => decide (j.status = .running) && j.heldBy worker.workerId token now)
      (fun j => by simp [Bool.and_assoc]) unfailed)]
    rfl

theorem failWith_failed (error : PyStr) (found : s.jobs.find ident = some job)
    (live : (job.purgePending && job.leasedTo worker.workerId token) = false)
    (running : (decide (job.status = .running) && job.heldBy worker.workerId token now) = true) :
    failWith worker ident error token now s = match errorColumn error with
      | .ok text => (.ok false, publish s ident (fun j => j.failed text now)
        (fun j => j.failed_id _ _) ⟨ident, job.failedKind, .error (some text), now⟩)
      | .error e => (.error e, s) := by
  have absent : NoTombstone s worker ident token := by
    intro other there
    rw [found] at there
    cases there
    exact live
  unfold failWith
  cases errorColumn error with
  | error e =>
    refine atomically_of_error (t := s) ?_
    rw [run_bind_ok (settlePurge_unmatched absent)]
    rfl
  | ok text =>
    refine atomically_of_ok ?_
    rw [run_bind_ok (settlePurge_unmatched absent)]
    simp only [Bool.false_eq_true, if_false]
    refine (run_bind_ok rfl).trans ?_
    rw [run_bind_ok (updateReturning_matched
      (q := fun j => decide (j.status = .running) && j.heldBy worker.workerId token now)
      (fun j => by simp [Bool.and_assoc]) found running)]
    have kind : reapedKind (job.failed text now) = job.failedKind := by
      unfold reapedKind PgJob.failed PgJob.failedStatus PgJob.failedKind
      by_cases left : job.attempts < job.maxAttempts <;> simp [left]
    simp only [List.head?_cons, kind]
    rfl

theorem cancelWith_purged (found : s.jobs.find ident = some job)
    (tombstone : (job.purgePending && job.leasedTo worker.workerId token) = true) :
    cancelWith worker ident token now s = (.ok true, drop s (fun j => decide (j.id = ident))) := by
  unfold cancelWith exceptLeaseLost
  rw [run_bind_ok (terminal_purged .cancelled none (some "cancelled") found tombstone)]
  rfl

theorem cancelWith_refused (absent : NoTombstone s worker ident token)
    (refused : Refused s worker ident token now) :
    cancelWith worker ident token now s = (.ok false, s) := by
  unfold cancelWith exceptLeaseLost
  rw [run_bind_error (terminal_refused .cancelled none (some "cancelled") absent refused)]
  rfl

theorem cancelWith_settled (found : s.jobs.find ident = some job)
    (live : (job.purgePending && job.leasedTo worker.workerId token) = false)
    (held : (job.held && job.heldBy worker.workerId token now) = true) :
    cancelWith worker ident token now s = (.ok true, publish s ident
      (fun j => j.settled .cancelled none (some "cancelled") now) (fun j => j.settled_id _ _ _ _)
      ⟨ident, .cancelled, .error (some "cancelled"), now⟩) := by
  unfold cancelWith exceptLeaseLost
  rw [run_bind_ok (terminal_settled .cancelled none (some "cancelled") found live held)]
  rfl

end Holder

theorem requestCancel_unknown (absent : s.jobs.find ident = none) :
    requestCancel ident now s = (.ok none, s) := by
  have unmet : ∀ job, s.jobs.find ident = some job → (fun _ : PgJob => true) job = false := by
    intro job found
    rw [absent] at found
    cases found
  refine atomically_of_ok ?_
  rw [run_bind_ok (updateReturning_unmatched (by simp) unmet)]
  rfl

theorem requestCancel_found (found : s.jobs.find ident = some job) :
    requestCancel ident now s = (.ok (some (cancelTarget job.status)),
      publish s ident (fun j => j.cancelAsked now) (fun j => j.cancelAsked_id _)
        ⟨ident, statusKind (cancelTarget job.status), .empty, now⟩) := by
  refine atomically_of_ok ?_
  rw [run_bind_ok (updateReturning_matched (q := fun _ => true) (by simp) found rfl)]
  rfl

/-- What an account deletion makes of one row. -/
def purgeRow (principal : String) (now : Instant) (job : PgJob) : Option PgJob :=
  if ownedBy principal job then (if job.held then some (job.tombstoned now) else none)
  else some job

theorem ownedBy_tombstoned (principal : String) (job : PgJob) (now : Instant) :
    ownedBy principal (job.tombstoned now) = false := rfl

theorem purgePrincipal_returned {principal : String} {counts : PurgeCounts}
    (run : purgePrincipal principal now s = (.ok counts, t)) (ident : String) :
    t.jobs.find ident = (s.jobs.find ident).bind (purgeRow principal now) := by
  obtain ⟨-, run⟩ := require_bind_returned run
  cases run
  simp only [find_delete, find_update]
  cases s.jobs.find ident with
  | none => rfl
  | some job =>
    simp only [map_some, bind_some, purgeRow]
    cases owned : ownedBy principal job <;> cases held : job.held <;>
      simp [owned, ownedBy_tombstoned]

theorem purgePrincipal_raised {principal : String} {e : Exc}
    (run : purgePrincipal principal now s = (.error e, t)) : t = s :=
  raisesClean_require_bind (raisesClean_atomically _) s e t run

/-- A tombstone that a sweep removes. -/
def sweepable (staleBefore : Option Instant) (now : Instant) (job : PgJob) : Bool :=
  job.purgeable now ||
    (job.purgePending && staleBefore.any (fun stale => decide (job.updatedAt < stale)))

theorem sweepPurges_find (staleBefore : Option Instant) (clock : Clock) (s : PgStore)
    (ident : String) : (sweepPurges staleBefore clock s).2.jobs.find ident =
      (s.jobs.find ident).filter (fun j => !sweepable staleBefore (clock 0) j) := by
  cases staleBefore with
  | none =>
    refine (find_delete s.jobs (fun j => j.purgeable (clock 0)) ident).trans ?_
    simp [sweepable]
  | some stale =>
    refine (find_delete _ (fun j : PgJob => j.purgePending && decide (j.updatedAt < stale))
      ident).trans ?_
    rw [find_delete]
    cases s.jobs.find ident with
    | none => rfl
    | some job =>
      simp only [sweepable, filter_some]
      cases job.purgeable (clock 0) <;> cases pending : job.purgePending <;>
        simp [filter_some, pending]

theorem sweepPurges_returned (staleBefore : Option Instant) (clock : Clock) (s : PgStore) :
    ∃ count, (sweepPurges staleBefore clock s).1 = .ok count := by
  cases staleBefore <;> exact ⟨_, rfl⟩

end Meemee.Guarantees.LeaseCalls
