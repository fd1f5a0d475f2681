import Meemee.Guarantees.LeaseMoves
import Meemee.Library.History

/-!
# Fencing by leases

Any number of workers over one PostgreSQL job table and one clock that never runs back. `grants` keeps
what the workers were told and did not give back. Leases expire and are reaped between any two calls:
a stale grant changes nothing, and two unexpired ones on a job are the same.
-/
namespace Meemee.Guarantees.LeaseFencing
open Library Library.History Source Source.PgJobs Option List
open Source.Jobs (JobStatus)
open Guarantees.LeaseCalls Guarantees.LeaseMoves

structure State where
  store : PgStore
  time : Instant
  grants : List Grant

structure Action where
  call : LeaseCall
  /-- How far the clock moves before each of the call's readings. -/
  elapsed : Nat → Nat

/-- Readings of a clock that never runs back. -/
def readings (start : Instant) (elapsed : Nat → Nat) : Nat → Int
  | 0 => start + (elapsed 0 : Int)
  | k + 1 => readings start elapsed k + (elapsed (k + 1) : Int)

/-- There is no lease on a job that is gone. -/
def onStored (s : PgStore) (grants : List Grant) : List Grant :=
  grants.filter (fun g => (s.jobs.find g.ident).isSome)

def step (s : State) (action : Action) : Except Exc Value × State :=
  let clock := readings s.time action.elapsed
  let (answer, store) := execute action.call clock s.store
  (answer, ⟨store, clock 3, onStored store (told action.call clock answer s.grants)⟩)

def start (time : Instant) : State := ⟨PgStore.empty, time, []⟩

abbrev Step := Event State Action (Except Exc Value)

def clockOf (e : Step) : Clock := readings e.before.time e.action.elapsed

/-- The pair a call presents, and the job it presents it for. -/
def presents : LeaseCall → Option (Worker × String × String)
  | .heartbeat worker ident token => some (worker, ident, token)
  | .finish worker ident _ token => some (worker, ident, token)
  | .fail worker ident _ token => some (worker, ident, token)
  | .cancelRunning worker ident token => some (worker, ident, token)
  | _ => none

/-- A pair that is not the row's, or out of time, at most removes the tombstone of its token. -/
def Fenced (e : Step) : Prop :=
  ∀ worker ident token, presents e.action.call = some (worker, ident, token) →
    (∀ job, e.before.store.jobs.find ident = some job →
      job.heldBy worker.workerId token (clockOf e 0) = false) →
    e.after.store = e.before.store ∨
      ∃ job, e.before.store.jobs.find ident = some job ∧ job.purgePending = true ∧
        job.leasedTo worker.workerId token = true ∧
        e.after.store = drop e.before.store (fun j => decide (j.id = ident))

/-- The row carries the grant. -/
def Carried (s : PgStore) (g : Grant) : Prop :=
  ∃ job, s.jobs.find g.ident = some job ∧ job.leasedTo g.workerId g.token = true ∧
    job.leaseExpiresAt = some g.expires

/-- Unexpired grants are on the rows, and on each job they are one pair's. -/
structure OneHolder (s : State) : Prop where
  carried : ∀ g ∈ s.grants, s.time < g.expires → Carried s.store g
  exclusive : ∀ g ∈ s.grants, ∀ h ∈ s.grants, g.ident = h.ident → s.time < g.expires →
    s.time < h.expires → g.workerId = h.workerId ∧ g.token = h.token

/-- A claim raises the attempts of its job by one; nothing else changes attempts. -/
structure AttemptsCounted (e : Step) : Prop where
  stored : ∀ ident, claimedJob e.answer = some ident →
    (e.before.store.jobs.find ident).isSome = true ∧ (e.after.store.jobs.find ident).isSome = true
  counted : ∀ ident before after, e.before.store.jobs.find ident = some before →
    e.after.store.jobs.find ident = some after →
    after.attempts = before.attempts + if claimedJob e.answer = some ident then 1 else 0

def Budgeted (s : State) : Prop :=
  ∀ ident job, s.store.jobs.find ident = some job → job.attempts ≤ job.maxAttempts

/-- A claim's reap leaves no lease that had expired at its reading of the clock. -/
def ReapComplete (e : Step) : Prop :=
  ∀ worker token, e.action.call = .claim worker token →
    ∀ job ∈ (reap (clockOf e) e.before.store).2.jobs,
      job.status = .running ∨ job.status = .cancelRequested ∨ job.purgePending = true →
      job.leaseExpired (clockOf e 1) = false

theorem readings_mono (start : Instant) (elapsed : Nat → Nat) {i k : Nat} (le : i ≤ k) :
    readings start elapsed i ≤ readings start elapsed k := by
  induction le with
  | refl => exact Int.le_refl _
  | step _ ih =>
    simp only [readings]
    omega

theorem start_le_readings (start : Instant) (elapsed : Nat → Nat) (k : Nat) :
    start ≤ readings start elapsed k := by
  refine Int.le_trans ?_ (readings_mono start elapsed (Nat.zero_le k))
  simp only [readings]
  omega

variable {grants : List Grant} {g : Grant} {worker : Worker} {token : String} {clock : Clock}
  {s t : PgStore} {job : PgJob}

section Outcomes

variable {worker : Worker} {ident token : String} {s t : PgStore} {after : List Grant}
  {now : Instant}

theorem outcome_carries (outcome : Outcome s worker ident token now grants after t)
    (mem : g ∈ after) (carried : g ∈ grants → Carried s g) :
    Carried t g ∨ t.jobs.find g.ident = none := by
  cases outcome with
  | refused same =>
    subst same
    exact .inl (carried mem)
  | removed job found pending leased gone =>
    subst gone
    obtain ⟨old, -⟩ := mem_filter.mp mem
    obtain ⟨row, stored, holder, expires⟩ := carried old
    by_cases here : g.ident = ident
    · exact .inr (by rw [find_dropOne, if_pos here])
    · exact .inl ⟨row, by rw [find_dropOne, if_neg here, stored], holder, expires⟩
  | settled job found held f keeps event attempts ok gone =>
    subst gone
    obtain ⟨old, other⟩ := mem_filter.mp mem
    obtain ⟨row, stored, holder, expires⟩ := carried old
    by_cases here : g.ident = ident
    · rw [here, found] at stored
      cases stored
      obtain ⟨sameWorker, sameToken⟩ := leasedTo_inj holder (heldBy_leasedTo held)
      simp [Grant.is, here, sameWorker, sameToken] at other
    · exact .inl ⟨row, by rw [find_publish, if_neg here, stored], holder, expires⟩

end Outcomes

theorem heartbeat_carries {ident : String} (found : s.jobs.find ident = some job)
    (held : job.heldBy worker.workerId token (clock 0) = true)
    (mem : g ∈ told (.heartbeat worker ident token) clock (.ok (.told true)) grants)
    (carried : g ∈ grants → Carried s g) :
    Carried (updateOne s ident (fun j => j.extended worker (clock 0))
      (fun j => j.extended_id _ _)) g := by
  obtain ⟨old, there, rfl⟩ := mem_map.mp mem
  by_cases own : old.is worker ident token = true
  · obtain ⟨sameIdent, sameWorker, sameToken⟩ := of_decide_eq_true own
    rw [if_pos own]
    refine ⟨job.extended worker (clock 0), ?_, ?_, rfl⟩
    · simp only [updateOne, sameIdent, Table.find_update_key, found, if_true, map_some]
    · rw [sameWorker, sameToken]
      exact (heldBy_leasedTo held : job.leasedTo worker.workerId token = true)
  · rw [if_neg own] at carried ⊢
    obtain ⟨row, stored, holder, expires⟩ := carried there
    have elsewhere : old.ident ≠ ident := by
      intro here
      rw [here, found] at stored
      cases stored
      obtain ⟨sameWorker, sameToken⟩ := leasedTo_inj holder (heldBy_leasedTo held)
      exact own (decide_eq_true ⟨here, sameWorker, sameToken⟩)
    exact ⟨row, by simp only [updateOne, Table.find_update_key, if_neg elsewhere, stored], holder, expires⟩

theorem reapRow_unexpired {expires : Instant} (ok : job.held = true)
    (leased : job.leaseExpiresAt = some expires) (unexpired : ∀ k ≤ 2, clock k < expires) :
    reapRow clock job = some job := by
  have kept : ∀ k ≤ 2, job.leaseExpired (clock k) = false := by
    intro k le
    simp only [PgJob.leaseExpired, leased, any_some, decide_eq_false_iff_not]
    exact Int.not_le.mpr (unexpired k le)
  have live : job.purgeable (clock 0) = false := by
    simp [PgJob.purgeable, ok, leased, kept 0 (by omega)]
  simp [reapRow, live, reapCancelling, reapRunning, kept 1 (by omega), kept 2 (by omega)]

/-- An unexpired lease survives a claim: the reaper and the queue pass it by. -/
theorem claim_carries {answer : Except Exc Value} (rows : RowsOk s)
    (run : execute (.claim worker token) clock s = (answer, t))
    (mem : g ∈ told (.claim worker token) clock answer grants)
    (unexpired : ∀ k ≤ 2, clock k < g.expires) (carried : g ∈ grants → Carried s g) :
    Carried t g := by
  have survives : Carried s g → ∃ row, (reaped clock s).jobs.find g.ident = some row ∧
      row.held = true ∧ row.leasedTo g.workerId g.token = true ∧
      row.leaseExpiresAt = some g.expires := by
    rintro ⟨row, stored, holder, expires⟩
    have held := leasedTo_held (rows _ _ stored) holder
    refine ⟨row, ?_, held, holder, expires⟩
    rw [find_reaped, stored]
    exact reapRow_unexpired held expires unexpired
  rcases claim_cases worker token clock s with ⟨job, found, queued, done⟩ | done
  · rw [done] at run
    cases run
    rcases mem_append.mp mem with old | new
    · obtain ⟨row, stored, held, holder, expires⟩ := survives (carried old)
      have elsewhere : g.ident ≠ job.id := by
        intro here
        rw [here, found] at stored
        cases stored
        rw [PgJob.held, queued] at held
        cases held
      exact ⟨row, by rw [find_publish, if_neg elsewhere, stored], holder, expires⟩
    · obtain rfl := mem_singleton.mp new
      refine ⟨job.claimed worker token (clock 3), ?_, decide_eq_true ⟨rfl, rfl⟩, rfl⟩
      have here : (job.claimed worker token (clock 3)).id = job.id := rfl
      simp only [here, find_publish, if_true, found, map_some]
  · rw [done] at run
    cases run
    obtain ⟨row, stored, held, holder, expires⟩ := survives (carried mem)
    exact ⟨row, stored, holder, expires⟩

/-- A row whose lease fields a call leaves alone, or deletes, still carries its grant. -/
theorem carried_of_find {f : PgJob → Option PgJob} (carried : Carried s g)
    (find : t.jobs.find g.ident = (s.jobs.find g.ident).bind f)
    (lease : ∀ job row, f job = some row → row.leaseOwner = job.leaseOwner ∧
      row.leaseToken = job.leaseToken ∧ row.leaseExpiresAt = job.leaseExpiresAt) :
    Carried t g ∨ t.jobs.find g.ident = none := by
  obtain ⟨job, stored, holder, expires⟩ := carried
  rw [stored] at find
  cases kept : f job with
  | none => exact .inr (find.trans kept)
  | some row =>
    obtain ⟨owner, token, until_⟩ := lease job row kept
    refine .inl ⟨row, find.trans kept, ?_, until_.trans expires⟩
    unfold PgJob.leasedTo at holder ⊢
    rw [owner, token]
    exact holder

theorem purgeRow_lease {principal : String} {now : Instant} (job row : PgJob)
    (kept : purgeRow principal now job = some row) :
    row.leaseOwner = job.leaseOwner ∧ row.leaseToken = job.leaseToken ∧
      row.leaseExpiresAt = job.leaseExpiresAt := by
  unfold purgeRow at kept
  split at kept
  · split at kept <;> cases kept
    exact ⟨rfl, rfl, rfl⟩
  · cases kept
    exact ⟨rfl, rfl, rfl⟩

/-- After every call each unexpired grant that is left is carried, or its job is gone. -/
theorem execute_carries {call : LeaseCall} {answer : Except Exc Value} (rows : RowsOk s)
    (run : execute call clock s = (answer, t)) (mem : g ∈ told call clock answer grants)
    (unexpired : ∀ k ≤ 2, clock k < g.expires) (carried : g ∈ grants → Carried s g) :
    Carried t g ∨ t.jobs.find g.ident = none := by
  cases call with
  | enqueue target goal runAt maxAttempts principal =>
    cases answer with
    | error e =>
      rw [enqueue_raised (Txn.answer_error run)]
      exact .inl (carried mem)
    | ok value =>
      obtain ⟨result, done, rfl⟩ := Txn.answer_ok run
      obtain ⟨job, at_, fresh, -, -, -, -, rfl⟩ := enqueue_returned done
      obtain ⟨row, stored, holder, expires⟩ := carried mem
      exact .inl ⟨row, Table.find_insert_of_found fresh stored, holder, expires⟩
  | claim worker token => exact .inl (claim_carries rows run mem unexpired carried)
  | heartbeat worker target token =>
    rcases heartbeat_cases worker target token clock s with ⟨job, found, held, done⟩ | done
    · rw [done] at run
      cases run
      exact .inl (heartbeat_carries found held mem carried)
    · rw [done] at run
      cases run
      exact .inl (carried mem)
  | ownedToken worker target =>
    have same := ownedToken_same worker target s
    have store : t = (ownedToken worker target s).2 := by
      rw [execute, Txn.answer] at run
      split at run <;> cases run <;> simp [*]
    rw [store, same]
    exact .inl (carried mem)
  | finish worker target result token =>
    exact outcome_carries (finish_outcome grants run) mem carried
  | fail worker target error token => exact outcome_carries (fail_outcome grants run) mem carried
  | cancelRunning worker target token =>
    exact outcome_carries (cancel_outcome grants run) mem carried
  | requestCancel target =>
    rw [execute] at run
    cases found : s.jobs.find target with
    | none =>
      rw [Txn.answer_of_ok (requestCancel_unknown found)] at run
      cases run
      exact .inl (carried mem)
    | some job =>
      rw [Txn.answer_of_ok (requestCancel_found found)] at run
      cases run
      refine carried_of_find (f := fun job => if g.ident = target then
        some (job.cancelAsked (clock 0)) else some job) (carried mem) ?_ ?_
      · rw [find_publish]
        by_cases here : g.ident = target <;> cases s.jobs.find g.ident <;> simp [here]
      · intro job row kept
        split at kept <;> cases kept <;> exact ⟨rfl, rfl, rfl⟩
  | purgePrincipal principal =>
    cases answer with
    | error e =>
      rw [purgePrincipal_raised (Txn.answer_error run)]
      exact .inl (carried mem)
    | ok value =>
      obtain ⟨counts, done, rfl⟩ := Txn.answer_ok run
      exact carried_of_find (carried mem) (purgePrincipal_returned done g.ident) purgeRow_lease
  | sweepPurges staleBefore =>
    rw [execute] at run
    have kept := sweepPurges_find staleBefore clock s g.ident
    cases done : sweepPurges staleBefore clock s with
    | mk result s' =>
      obtain ⟨count, returned⟩ := sweepPurges_returned staleBefore clock s
      rw [done] at kept returned
      obtain rfl : result = .ok count := returned
      rw [Txn.answer_of_ok done] at run
      cases run
      refine carried_of_find (f := fun job => (some job).filter
        (fun j => !sweepable staleBefore (clock 0) j)) (carried mem) ?_ ?_
      · rw [kept]
        cases s.jobs.find g.ident <;> rfl
      · intro job row same
        obtain rfl : job = row := (filter_eq_some_iff.mp same).1 |> Option.some.inj
        exact ⟨rfl, rfl, rfl⟩

structure Inv (s : State) : Prop where
  rows : RowsOk s.store
  carried : ∀ g ∈ s.grants, s.time < g.expires → Carried s.store g

theorem step_inv (s : State) (action : Action) (before : Inv s) : Inv (step s action).2 := by
  cases run : execute action.call (readings s.time action.elapsed) s.store with
  | mk answer t =>
    simp only [step, run]
    refine ⟨?_, ?_⟩
    · intro ident
      exact move_rowOk (execute_moves run ident) (before.rows ident)
    · intro g mem later
      obtain ⟨kept, stored⟩ := mem_filter.mp mem
      have unexpired : ∀ k ≤ 2, readings s.time action.elapsed k < g.expires := fun k le =>
        Int.lt_of_le_of_lt (readings_mono _ _ (Nat.le_succ_of_le le)) later
      have earlier : s.time < g.expires := Int.lt_of_le_of_lt (start_le_readings _ _ 3) later
      rcases execute_carries before.rows run kept unexpired
        (fun old => before.carried g old earlier) with there | gone
      · exact there
      · rw [gone] at stored
        cases stored

theorem start_inv (time : Instant) : Inv (start time) :=
  ⟨fun ident job stored => (by cases stored), nofun⟩

theorem oneHolder_of_inv {s : State} (inv : Inv s) : OneHolder s := by
  refine ⟨inv.carried, ?_⟩
  intro g gMember h hMember same gLater hLater
  obtain ⟨row, stored, holder, -⟩ := inv.carried g gMember gLater
  obtain ⟨other, there, holder', -⟩ := inv.carried h hMember hLater
  rw [← same, stored] at there
  cases there
  exact leasedTo_inj holder holder'

theorem outcome_fenced {ident : String} {now : Instant} {after : List Grant}
    (outcome : Outcome s worker ident token now grants after t)
    (stale : ∀ job, s.jobs.find ident = some job → job.heldBy worker.workerId token now = false) :
    t = s ∨ ∃ job, s.jobs.find ident = some job ∧ job.purgePending = true ∧
      job.leasedTo worker.workerId token = true ∧ t = drop s (fun j => decide (j.id = ident)) := by
  cases outcome with
  | refused => exact .inl rfl
  | removed job found pending leased => exact .inr ⟨job, found, pending, leased, rfl⟩
  | settled job found held =>
    rw [stale job found] at held
    cases held

theorem step_fenced (s : State) (action : Action) :
    Fenced ⟨s, action, (step s action).1, (step s action).2⟩ := by
  intro worker ident token presented stale
  obtain ⟨call, elapsed⟩ := action
  cases run : execute call (readings s.time elapsed) s.store with
  | mk answer t =>
    simp only [step, run]
    cases call with
    | heartbeat =>
      cases presented
      rcases heartbeat_cases worker ident token (readings s.time elapsed) s.store with
        ⟨job, found, held, done⟩ | done
      · have other : job.heldBy worker.workerId token (readings s.time elapsed 0) = false :=
          stale job found
        rw [other] at held
        cases held
      · rw [done] at run
        cases run
        exact .inl rfl
    | finish =>
      cases presented
      exact outcome_fenced (finish_outcome [] run) stale
    | fail =>
      cases presented
      exact outcome_fenced (fail_outcome [] run) stale
    | cancelRunning =>
      cases presented
      exact outcome_fenced (cancel_outcome [] run) stale
    | _ => cases presented

theorem step_attempts (s : State) (action : Action) :
    AttemptsCounted ⟨s, action, (step s action).1, (step s action).2⟩ := by
  cases run : execute action.call (readings s.time action.elapsed) s.store with
  | mk answer t =>
    simp only [step, run]
    refine ⟨fun ident => move_claimed (execute_moves run ident), ?_⟩
    intro ident before after found stored
    have move := execute_moves run ident
    rw [found, stored] at move
    exact move_attempts move

/-- A row that is still held after the reap was not expired when the reaper looked. -/
theorem reapRow_unexpired_after {row : PgJob} (mono : clock 1 ≤ clock 2)
    (kept : reapRow clock job = some row)
    (held : row.status = .running ∨ row.status = .cancelRequested ∨ row.purgePending = true) :
    row.leaseExpired (clock 1) = false := by
  unfold reapRow at kept
  split at kept
  next => cases kept
  next live =>
    have kept := Option.some.inj kept
    unfold reapCancelling reapRunning at kept
    by_cases running : (decide (job.status = .running) && job.leaseExpired (clock 1)) = true
    · rw [if_pos running] at kept
      split at kept <;> subst kept <;> rfl
    · rw [if_neg running] at kept
      by_cases requested : (decide (job.status = .cancelRequested) &&
          job.leaseExpired (clock 2)) = true
      · rw [if_pos requested] at kept
        subst kept
        rfl
      · rw [if_neg requested] at kept
        subst kept
        have status : job.status = .running ∨ job.status = .cancelRequested := by
          rcases held with run | ask | pending
          · exact .inl run
          · exact .inr ask
          · simp only [PgJob.purgeable, pending, Bool.true_and, Bool.or_eq_true, not_or,
              Bool.not_eq_true', Bool.not_eq_false] at live
            exact of_decide_eq_true live.1.1
        rcases status with run | ask
        · simpa [run] using running
        · have later : job.leaseExpired (clock 2) = false := by simpa [ask] using requested
          cases leased : job.leaseExpiresAt with
          | none => simp [PgJob.leaseExpired, leased]
          | some expires =>
            simp only [PgJob.leaseExpired, leased, any_some, decide_eq_false_iff_not,
              Int.not_le] at later ⊢
            exact Int.lt_of_le_of_lt mono later

theorem reapComplete (e : Step) : ReapComplete e := by
  intro worker token _ row mem held
  rw [reap_run] at mem
  have stored := Table.find_of_mem mem
  rw [find_reaped] at stored
  obtain ⟨job, -, kept⟩ := bind_eq_some_iff.mp stored
  exact reapRow_unexpired_after (readings_mono _ _ (by omega)) kept held

/-- In every run of any number of workers: a stale pair is fenced, an unexpired lease has
one holder, attempts count claims and stay within the budget, and a reap leaves no
expired lease behind. -/
theorem leases_fenced (time : Instant) (run : List Action) :
    ∀ e ∈ history step (start time) run,
      Fenced e ∧ OneHolder e.after ∧ AttemptsCounted e ∧ Budgeted e.after ∧ ReapComplete e := by
  intro e member
  have after := ((invariant step_inv (start_inv time) run).1 e member).2
  have shape : e = ⟨e.before, e.action, (step e.before e.action).1,
      (step e.before e.action).2⟩ := by
    rw [step_of_mem member]
  refine ⟨?_, oneHolder_of_inv after, ?_, ?_, reapComplete e⟩
  · rw [shape]
    exact step_fenced _ _
  · rw [shape]
    exact step_attempts _ _
  · intro ident job stored
    exact (after.rows ident job stored).budget

/-- A worker reports its result two minutes after a lease of one. -/
def lateFinish : List Action :=
  [⟨.enqueue "j" "goal" none 2 (some "ada"), fun _ => 0⟩, ⟨.claim ⟨"w", 60⟩ "t", fun _ => 0⟩,
   ⟨.finish ⟨"w", 60⟩ "j" .null "t", fun _ => 120000000⟩]

def lateResult : Step := (history step (start 0) lateFinish).getLast (cons_ne_nil _ _)

theorem lateResult_fenced :
    Fenced lateResult ∧ OneHolder lateResult.after ∧ AttemptsCounted lateResult ∧
      Budgeted lateResult.after ∧ ReapComplete lateResult :=
  leases_fenced 0 lateFinish lateResult (getLast_mem _)

end Meemee.Guarantees.LeaseFencing
