import Meemee.Guarantees.JobMoves

/-!
# The job state machine and its event log

The events of a job that is not tombstoned spell a run of the job state machine, and
the last of them determines the stored status. The store's machine has one edge that
a diagram of the happy path leaves out: a job that is back in the queue after a failed
attempt can be cancelled from there, so `cancelled` may follow `retry`.
-/
namespace Meemee.Guarantees.JobLifecycle
open Library Library.History Source Source.Jobs List
open Guarantees.JobMoves

/-- The status a job has after an event. -/
def kindStatus : EventKind → JobStatus
  | .queued | .retry => .queued
  | .running => .running
  | .done => .done
  | .failed => .failed
  | .cancelRequested => .cancelRequested
  | .cancelled => .cancelled

/-- queued -> running -> (done | retry -> running | failed | cancel_requested ->
cancelled), or queued -> cancelled. -/
def diagramEdge : EventKind → EventKind → Bool
  | .queued, .running | .queued, .cancelled | .running, .done | .running, .retry
  | .running, .failed | .running, .cancelRequested | .retry, .running
  | .cancelRequested, .cancelled => true
  | _, _ => false

/-- The edges the store takes: those of the diagram, and retry -> cancelled. -/
def storeEdge (a b : EventKind) : Bool :=
  diagramEdge a b || (decide (a = .retry) && decide (b = .cancelled))

/-- Each kind of the list follows the one before it, the first one follows `k`. -/
def chained (edge : EventKind → EventKind → Bool) : EventKind → List EventKind → Bool
  | _, [] => true
  | k, next :: rest => edge k next && chained edge next rest

/-- A run of the machine: it starts with `queued` and takes edges only. -/
def validRun (edge : EventKind → EventKind → Bool) : List EventKind → Bool
  | [] => false
  | first :: rest => decide (first = .queued) && chained edge first rest

structure Lifecycle (edge : EventKind → EventKind → Bool) (job : Job) (kinds : List EventKind) :
    Prop where
  run : validRun edge kinds = true
  last : kinds.getLast?.map kindStatus = some job.status
  counted : job.attempts = kinds.count .running
  budget : job.attempts ≤ job.maxAttempts
  result : job.result.isSome = true ↔ job.status = .done

def kindsOf (s : JobStore) (ident : String) : List EventKind :=
  (logOf s ident).map (fun e => e.2.kind)

variable {last kind : EventKind} {job after : Job}

theorem chained_append {edge : EventKind → EventKind → Bool} {first next : EventKind}
    {rest : List EventKind} (chain : chained edge first rest = true)
    (ends : (first :: rest).getLast? = some last) (step : edge last next = true) :
    chained edge first (rest ++ [next]) = true := by
  induction rest generalizing first with
  | nil =>
    obtain rfl : first = last := by simpa using ends
    simp [chained, step]
  | cons second rest ih =>
    simp only [chained, Bool.and_eq_true, cons_append] at chain ⊢
    exact ⟨chain.1, ih chain.2 (by simpa [List.getLast?_cons_cons] using ends)⟩

theorem validRun_append {edge : EventKind → EventKind → Bool} {kinds : List EventKind}
    {next : EventKind} (run : validRun edge kinds = true) (ends : kinds.getLast? = some last)
    (step : edge last next = true) : validRun edge (kinds ++ [next]) = true := by
  cases kinds with
  | nil => cases run
  | cons first rest =>
    simp only [validRun, Bool.and_eq_true, cons_append] at run ⊢
    exact ⟨run.1, chained_append run.2 ends step⟩

/-- A job that is not tombstoned has a lifecycle, and a queued one an attempt left. -/
def Alive (v : JobView) : Prop :=
  v.job.purgePending = false →
    Lifecycle storeEdge v.job (v.log.map (fun e => e.2.kind)) ∧
      (v.job.status = .queued → v.job.attempts < v.job.maxAttempts)

theorem edge_follows (edge : JobEdge job kind after) (same : kindStatus last = job.status) :
    storeEdge last kind = true := by
  cases edge with
  | claim now queued => rw [queued] at same; cases last <;> first | rfl | cases same
  | finish text now running => rw [running] at same; cases last <;> first | rfl | cases same
  | fail error now running =>
    rw [running] at same
    unfold Job.failedKind
    split <;> cases last <;> first | rfl | cases same
  | cancelQueued now queued => rw [queued] at same; cases last <;> first | rfl | cases same
  | requestCancel now running => rw [running] at same; cases last <;> first | rfl | cases same
  | cancelRequested now requested => rw [requested] at same; cases last <;> first | rfl | cases same

theorem edge_lifecycle {kinds : List EventKind} (edge : JobEdge job kind after)
    (before : Lifecycle storeEdge job kinds)
    (room : job.status = .queued → job.attempts < job.maxAttempts) :
    Lifecycle storeEdge after (kinds ++ [kind]) ∧
      (after.status = .queued → after.attempts < after.maxAttempts) := by
  obtain ⟨run, ends, counted, budget, result⟩ := before
  obtain ⟨last, lastEq, same⟩ := Option.map_eq_some_iff.mp ends
  have follows := validRun_append run lastEq (edge_follows edge same)
  have latest : (kinds ++ [kind]).getLast? = some kind := by simp
  have count : (kinds ++ [kind]).count .running =
      kinds.count .running + if kind = .running then 1 else 0 := by
    rw [count_append, count_singleton]
    simp
  cases edge with
  | claim now queued =>
    have left := room queued
    refine ⟨⟨follows, by rw [latest]; rfl, ?_, ?_, ?_⟩, nofun⟩
    · simp [Job.claimed, counted]
    · simp only [Job.claimed]
      omega
    · simp [Job.claimed, result, queued]
  | finish text now running =>
    refine ⟨⟨follows, by rw [latest]; rfl, ?_, budget, ?_⟩, nofun⟩
    · simpa [Job.finished] using counted
    · simp [Job.finished]
  | fail error now running =>
    by_cases left : job.attempts < job.maxAttempts
    · refine ⟨⟨follows, ?_, ?_, budget, ?_⟩, fun _ => left⟩
      · simp [Job.failed, Job.failedKind, Job.failedStatus, left, kindStatus]
      · simpa [Job.failed, Job.failedKind, left] using counted
      · simp [Job.failed, Job.failedStatus, left]
    · refine ⟨⟨follows, ?_, ?_, budget, ?_⟩, ?_⟩
      · simp [Job.failed, Job.failedKind, Job.failedStatus, left, kindStatus]
      · simpa [Job.failed, Job.failedKind, left] using counted
      · simp [Job.failed, Job.failedStatus, left]
      · simp [Job.failed, Job.failedStatus, left]
  | cancelQueued now queued =>
    refine ⟨⟨follows, by rw [latest]; rfl, ?_, budget, ?_⟩, nofun⟩
    · simpa [Job.cancelAt] using counted
    · simp [Job.cancelAt, result, queued]
  | requestCancel now running =>
    refine ⟨⟨follows, by rw [latest]; rfl, ?_, budget, ?_⟩, nofun⟩
    · simpa [Job.cancelAt] using counted
    · simp [Job.cancelAt, result, running]
  | cancelRequested now requested =>
    refine ⟨⟨follows, by rw [latest]; rfl, ?_, budget, ?_⟩, nofun⟩
    · simpa [Job.cancelAt] using counted
    · simp [Job.cancelAt, result, requested]

theorem edge_purgePending (edge : JobEdge job kind after) :
    after.purgePending = job.purgePending := by
  cases edge <;> rfl

theorem edge_source (edge : JobEdge job kind after) : job.status.terminal = false := by
  cases edge with
  | claim now queued => rw [queued]; rfl
  | finish text now running => rw [running]; rfl
  | fail error now running => rw [running]; rfl
  | cancelQueued now queued => rw [queued]; rfl
  | requestCancel now running => rw [running]; rfl
  | cancelRequested now requested => rw [requested]; rfl

theorem move_alive {before after : Option JobView} (move : JobMove before after)
    (alive : ∀ v, before = some v → Alive v) : ∀ v, after = some v → Alive v := by
  intro v same
  cases move with
  | stays => exact alive v same
  | enqueued job number event queued fresh budget unfinished live kind =>
    cases same
    intro _
    refine ⟨⟨?_, ?_, ?_, ?_, ?_⟩, fun _ => ?_⟩
    · simp [kind, validRun, chained]
    · simp [kind, kindStatus, queued]
    · simp [kind, fresh]
    · simp only [fresh]
      omega
    · simp [unfinished, queued]
    · simp only [fresh]
      omega
  | published job after log number event edge =>
    cases same
    intro live
    obtain ⟨lifecycle, room⟩ := alive _ rfl ((edge_purgePending edge).symm.trans live)
    rw [map_append]
    exact edge_lifecycle edge lifecycle room
  | tombstoned job log now =>
    cases same
    intro live
    cases live
  | dropped => cases same

theorem move_terminal {before after : Option JobView} (move : JobMove before after) {v : JobView}
    (stored : before = some v) (terminal : v.job.status.terminal = true) :
    after = none ∨ after = some v := by
  cases move with
  | stays => exact .inr stored
  | enqueued => cases stored
  | published job after log number event edge =>
    cases stored
    rw [edge_source edge] at terminal
    cases terminal
  | tombstoned job log now held =>
    cases stored
    rcases of_decide_eq_true held with running | requested
    · rw [running] at terminal
      cases terminal
    · rw [requested] at terminal
      cases terminal
  | dropped => exact .inl rfl

def StoreAlive (s : JobStore) : Prop :=
  NoOrphans s ∧ ∀ ident v, view s ident = some v → Alive v

theorem step_storeAlive (s : JobStore) (call : StoreCall) (before : StoreAlive s) :
    StoreAlive (step s call).2 := by
  cases run : step s call with
  | mk result t =>
    cases result with
    | error e =>
      obtain rfl := call_raised run
      exact before
    | ok value =>
      have called := call_moves before.1 run
      exact ⟨called.orphans, fun ident => move_alive (called.moves ident) (before.2 ident)⟩

/-- Every job of the state that is not tombstoned is where its events say. -/
def LogAgrees (edge : EventKind → EventKind → Bool) (s : JobStore) : Prop :=
  ∀ ident job, s.jobs.find ident = some job → job.purgePending = false →
    Lifecycle edge job (kindsOf s ident)

/-- A job that is done, failed or cancelled is left alone until it is deleted. -/
def TerminalAbsorbs (e : Event JobStore StoreCall (Except Exc Value)) : Prop :=
  ∀ ident job, e.before.jobs.find ident = some job → job.status.terminal = true →
    e.after.jobs.find ident = none ∨ e.after.jobs.find ident = some job

/-- A call that raises changes neither rows nor events. -/
def RaisesUnchanged (e : Event JobStore StoreCall (Except Exc Value)) : Prop :=
  ∀ raised, e.answer = .error raised → e.after = e.before

theorem logAgrees_of_alive {s : JobStore} (alive : StoreAlive s) : LogAgrees storeEdge s := by
  intro ident job found live
  exact (alive.2 ident _ (view_some found) live).1

theorem empty_storeAlive : StoreAlive JobStore.empty := by
  refine ⟨fun _ _ => rfl, ?_⟩
  intro ident v stored
  cases stored

/-- In every run from the empty store: the log of every job that is not tombstoned is a
run of the machine that ends in its status, with its attempts counted and its result
set exactly when it is done; terminal jobs absorb; a raise changes nothing. -/
theorem job_lifecycle (run : List StoreCall) :
    ∀ e ∈ history step JobStore.empty run,
      LogAgrees storeEdge e.before ∧ LogAgrees storeEdge e.after ∧ TerminalAbsorbs e ∧
        RaisesUnchanged e := by
  intro e member
  obtain ⟨before, after⟩ := (invariant step_storeAlive empty_storeAlive run).1 e member
  have here := step_of_mem member
  refine ⟨logAgrees_of_alive before, logAgrees_of_alive after, ?_, ?_⟩
  · intro ident job found terminal
    cases answered : e.answer with
    | error raised =>
      rw [answered] at here
      exact Or.inr (by rw [call_raised here]; exact found)
    | ok value =>
      rw [answered] at here
      have moved := move_terminal ((call_moves before.1 here).moves ident) (view_some found) terminal
      rcases moved with gone | same
      · exact Or.inl (view_none.mp gone)
      · obtain ⟨job', stored, views⟩ := Option.map_eq_some_iff.mp same
        exact Or.inr (by rw [stored, (JobView.mk.inj views).1])
  · intro raised answered
    rw [answered] at here
    exact call_raised here

/-- A job is cancelled while it waits for its second attempt. -/
def cancelledAfterRetry : List StoreCall :=
  [.enqueue "j" "goal" none ⟨2, by decide⟩ (some "ada") 0 0, .claim 1, .fail "j" "refused" 2,
   .cancel "j" 3]

def lastCancel : Event JobStore StoreCall (Except Exc Value) :=
  (history step JobStore.empty cancelledAfterRetry).getLast (cons_ne_nil _ _)

theorem lastCancel_lawful :
    LogAgrees storeEdge lastCancel.before ∧ LogAgrees storeEdge lastCancel.after ∧
      TerminalAbsorbs lastCancel ∧ RaisesUnchanged lastCancel :=
  job_lifecycle cancelledAfterRetry lastCancel (getLast_mem _)

/-- The diagram does not describe the store: its log reads queued, running, retry,
cancelled. -/
theorem diagram_misses_cancelled_retry :
    ¬ ∀ (run : List StoreCall), ∀ e ∈ history step JobStore.empty run,
      LogAgrees diagramEdge e.after := by
  intro diagram
  obtain ⟨valid⟩ := diagram cancelledAfterRetry _ (mem_of_getLast? rfl) "j" _ rfl rfl
  revert valid
  decide +kernel

end Meemee.Guarantees.JobLifecycle
