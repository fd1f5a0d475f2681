import Meemee.Guarantees.LeaseCalls

/-!
# What one call does to one leased row

The calls of any number of workers over one PostgreSQL job table, each with its
readings of the database clock. `RowMove` is the machine of a single row; the calls
that end a lease are described once, by `Outcome`, with what they do to the grants
their worker was told of.
-/
namespace Meemee.Guarantees.LeaseMoves
open Library Source Source.PgJobs Library.Txn Option
open Source.Jobs (JobStatus RunAt PurgeCounts)
open Guarantees.LeaseCalls

/-- One transaction of a call; without a token it is its `_owned_token` read and the call. -/
inductive LeaseCall where
  | enqueue (ident goal : String) (runAt : Option RunAt) (maxAttempts : Int)
      (principal : Option String)
  | claim (worker : Worker) (token : String)
  | heartbeat (worker : Worker) (ident token : String)
  | ownedToken (worker : Worker) (ident : String)
  | finish (worker : Worker) (ident : String) (result : Json) (token : String)
  | fail (worker : Worker) (ident : String) (error : PyStr) (token : String)
  | cancelRunning (worker : Worker) (ident token : String)
  | requestCancel (ident : String)
  | purgePrincipal (principal : String)
  | sweepPurges (staleBefore : Option Instant)

inductive Value where
  | text (value : String)
  | claimed (row : Option PgJob)
  | told (value : Bool)
  | status (value : Option JobStatus)
  | purged (counts : PurgeCounts)
  | number (value : Nat)

def execute (call : LeaseCall) (clock : Clock) : PgStore → Except Exc Value × PgStore :=
  match call with
  | .enqueue ident goal runAt maxAttempts principal =>
    Txn.answer .text (enqueue ident goal runAt maxAttempts principal clock)
  | .claim worker token => Txn.answer .claimed (claim worker token clock)
  | .heartbeat worker ident token => Txn.answer .told (heartbeat worker ident token (clock 0))
  | .ownedToken worker ident => Txn.answer .text (ownedToken worker ident)
  | .finish worker ident result token =>
    Txn.answer .told (finishWith worker ident result token (clock 0))
  | .fail worker ident error token => Txn.answer .told (failWith worker ident error token (clock 0))
  | .cancelRunning worker ident token =>
    Txn.answer .told (cancelWith worker ident token (clock 0))
  | .requestCancel ident => Txn.answer .status (requestCancel ident (clock 0))
  | .purgePrincipal principal => Txn.answer .purged (purgePrincipal principal (clock 0))
  | .sweepPurges staleBefore => Txn.answer .number (sweepPurges staleBefore clock)

/-- A lease a worker was told of and has not given back. -/
structure Grant where
  ident : String
  workerId : String
  token : String
  expires : Instant
  deriving DecidableEq, Repr

def Grant.is (g : Grant) (worker : Worker) (ident token : String) : Bool :=
  decide (g.ident = ident ∧ g.workerId = worker.workerId ∧ g.token = token)

/-- What the workers were told after an answer. -/
def told (call : LeaseCall) (clock : Clock) (answer : Except Exc Value) (grants : List Grant) :
    List Grant :=
  match call, answer with
  | .claim worker token, .ok (.claimed (some row)) =>
    grants ++ [⟨row.id, worker.workerId, token, row.leaseExpiresAt.getD (clock 3)⟩]
  | .heartbeat worker ident token, .ok (.told true) =>
    grants.map (fun g => if g.is worker ident token then
      { g with expires := clock 0 + seconds worker.leaseSeconds } else g)
  | .finish worker ident _ token, .ok _ => grants.filter (fun g => !g.is worker ident token)
  | .fail worker ident _ token, .ok _ => grants.filter (fun g => !g.is worker ident token)
  | .cancelRunning worker ident token, .ok (.told true) =>
    grants.filter (fun g => !g.is worker ident token)
  | _, _ => grants

def claimedJob (answer : Except Exc Value) : Option String :=
  match answer with
  | .ok (.claimed row) => row.map (·.id)
  | _ => none

/-- What every stored row satisfies. -/
structure RowOk (job : PgJob) : Prop where
  budget : job.attempts ≤ job.maxAttempts
  room : job.status = .queued → job.attempts < job.maxAttempts
  leased : job.leaseOwner ≠ none → job.held = true

def RowsOk (s : PgStore) : Prop := ∀ ident job, s.jobs.find ident = some job → RowOk job

variable {job : PgJob} {workerId token ident : String} {now : Instant} {clock : Clock}
  {answer : Except Exc Value} {s t : PgStore}

theorem heldBy_leasedTo (held : job.heldBy workerId token now = true) :
    job.leasedTo workerId token = true :=
  (Bool.and_eq_true_iff.mp held).1

theorem leasedTo_inj {workerId' token' : String} (first : job.leasedTo workerId token = true)
    (second : job.leasedTo workerId' token' = true) : workerId = workerId' ∧ token = token' := by
  obtain ⟨owner, tok⟩ := of_decide_eq_true first
  obtain ⟨owner', tok'⟩ := of_decide_eq_true second
  rw [owner] at owner'
  rw [tok] at tok'
  exact ⟨Option.some.inj owner', Option.some.inj tok'⟩

theorem leasedTo_held (ok : RowOk job) (leased : job.leasedTo workerId token = true) :
    job.held = true := by
  obtain ⟨owner, -⟩ := of_decide_eq_true leased
  exact ok.leased (by rw [owner]; exact some_ne_none _)

theorem rowOk_failed (ok : RowOk job) (error : String) (now : Instant) :
    RowOk (job.failed error now) := by
  refine ⟨ok.budget, fun queued => ?_, fun leased => absurd rfl leased⟩
  simp only [PgJob.failed, PgJob.failedStatus] at queued ⊢
  split at queued
  next left => exact left
  next => cases queued

theorem rowOk_reaped {row : PgJob} (ok : RowOk job) (kept : reapRow clock job = some row) :
    RowOk row := by
  unfold reapRow at kept
  split at kept
  next => cases kept
  next =>
    cases kept
    have running : RowOk (reapRunning (clock 1) job) := by
      unfold reapRunning
      split
      · exact rowOk_failed ok _ _
      · exact ok
    unfold reapCancelling
    split
    · exact ⟨running.budget, nofun, fun leased => absurd rfl leased⟩
    · exact running

theorem rowOk_settled (ok : RowOk job) {status : JobStatus} (left : status ≠ .queued)
    (result : Option Json) (error : Option String) (now : Instant) :
    RowOk (job.settled status result error now) :=
  ⟨ok.budget, fun queued => absurd queued left, fun leased => absurd rfl leased⟩

theorem rowOk_cancelAsked (ok : RowOk job) (now : Instant) : RowOk (job.cancelAsked now) := by
  refine ⟨ok.budget, ?_, ?_⟩
  · intro queued
    simp only [PgJob.cancelAsked] at queued
    cases same : job.status <;> rw [same] at queued <;> cases queued
  · intro leased
    unfold PgJob.held
    rw [decide_eq_true_eq]
    refine .inr ?_
    rcases of_decide_eq_true (ok.leased leased) with running | requested
    · simp only [PgJob.cancelAsked, running, cancelTarget]
    · simp only [PgJob.cancelAsked, requested, cancelTarget]

/-- The moves of one row under one call, with the call's answer. -/
inductive RowMove (clock : Clock) (ident : String) (answer : Except Exc Value) :
    Option PgJob → Option PgJob → Prop where
  | stays (row : Option PgJob) (unclaimed : claimedJob answer ≠ some ident) :
      RowMove clock ident answer row row
  | enqueued (job : PgJob) (unclaimed : claimedJob answer ≠ some ident) (ok : RowOk job) :
      RowMove clock ident answer none (some job)
  | reaped (job : PgJob) (unclaimed : claimedJob answer ≠ some ident) :
      RowMove clock ident answer (some job) (reapRow clock job)
  | claimed (job row : PgJob) (worker : Worker) (token : String)
      (kept : reapRow clock job = some row) (queued : row.status = .queued)
      (answered : claimedJob answer = some ident) :
      RowMove clock ident answer (some job) (some (row.claimed worker token (clock 3)))
  | changed (job row : PgJob) (unclaimed : claimedJob answer ≠ some ident)
      (attempts : row.attempts = job.attempts) (ok : RowOk job → RowOk row) :
      RowMove clock ident answer (some job) (some row)
  | dropped (row : Option PgJob) (unclaimed : claimedJob answer ≠ some ident) :
      RowMove clock ident answer row none

theorem move_rowOk {before after : Option PgJob} (move : RowMove clock ident answer before after)
    (ok : ∀ job, before = some job → RowOk job) : ∀ job, after = some job → RowOk job := by
  intro job stored
  cases move with
  | stays => exact ok job stored
  | enqueued row _ fresh =>
    cases stored
    exact fresh
  | reaped row => exact rowOk_reaped (ok row rfl) stored
  | claimed first row worker token kept queued =>
    cases stored
    have reaped := rowOk_reaped (ok first rfl) kept
    refine ⟨?_, nofun, fun _ => rfl⟩
    have left := reaped.room queued
    simp only [PgJob.claimed]
    omega
  | changed first row _ _ keeps =>
    cases stored
    exact keeps (ok first rfl)
  | dropped => cases stored

theorem reapRow_attempts {row : PgJob} (kept : reapRow clock job = some row) :
    row.attempts = job.attempts := by
  unfold reapRow at kept
  split at kept
  next => cases kept
  next =>
    cases kept
    unfold reapCancelling reapRunning
    split <;> split <;> rfl

theorem move_attempts {before after : PgJob}
    (move : RowMove clock ident answer (some before) (some after)) :
    after.attempts = before.attempts + if claimedJob answer = some ident then 1 else 0 := by
  generalize same : some after = row at move
  cases move with
  | stays _ unclaimed =>
    cases same
    rw [if_neg unclaimed, Int.add_zero]
  | reaped _ unclaimed =>
    rw [if_neg unclaimed, Int.add_zero]
    exact reapRow_attempts same.symm
  | claimed _ row worker token kept queued answered =>
    cases same
    rw [if_pos answered]
    simp only [PgJob.claimed, reapRow_attempts kept]
  | changed _ row unclaimed attempts =>
    cases same
    rw [if_neg unclaimed, Int.add_zero]
    exact attempts
  | dropped => cases same

theorem move_claimed {before after : Option PgJob} (move : RowMove clock ident answer before after)
    (claimed : claimedJob answer = some ident) : before.isSome = true ∧ after.isSome = true := by
  cases move with
  | claimed => exact ⟨rfl, rfl⟩
  | changed => exact ⟨rfl, rfl⟩
  | stays _ unclaimed | enqueued _ unclaimed | reaped _ unclaimed | dropped _ unclaimed =>
    exact absurd claimed unclaimed

/-- What `finish`, `fail` or `cancel_running` did under a pair, and the grants after it. -/
inductive Outcome (s : PgStore) (worker : Worker) (ident token : String) (now : Instant)
    (grants after : List Grant) : PgStore → Prop where
  | refused (same : after = grants) : Outcome s worker ident token now grants after s
  | removed (job : PgJob) (found : s.jobs.find ident = some job) (pending : job.purgePending = true)
      (leased : job.leasedTo worker.workerId token = true)
      (gone : after = grants.filter (fun g => !g.is worker ident token)) :
      Outcome s worker ident token now grants after (drop s (fun j => decide (j.id = ident)))
  | settled (job : PgJob) (found : s.jobs.find ident = some job)
      (held : job.heldBy worker.workerId token now = true) (f : PgJob → PgJob)
      (keeps : ∀ j, (f j).id = j.id) (event : Jobs.JobEvent)
      (attempts : (f job).attempts = job.attempts) (ok : RowOk job → RowOk (f job))
      (gone : after = grants.filter (fun g => !g.is worker ident token)) :
      Outcome s worker ident token now grants after (publish s ident f keeps event)

section Outcomes

variable {worker : Worker} {ident token : String} {clock : Clock} {s t : PgStore}
  {answer : Except Exc Value} (grants : List Grant)

theorem noTombstone_of_find (found : s.jobs.find ident = some job)
    (live : (job.purgePending && job.leasedTo worker.workerId token) = false) :
    NoTombstone s worker ident token := by
  intro other there
  rw [found] at there
  cases there
  exact live

theorem refused_of_find (found : s.jobs.find ident = some job)
    (idle : (job.held && job.heldBy worker.workerId token now) = false) :
    Refused s worker ident token now := by
  intro other there
  rw [found] at there
  cases there
  exact idle

/-- Either no row stands under the id, or one of three things is true of it. -/
theorem row_cases (s : PgStore) (worker : Worker) (ident token : String) (now : Instant) :
    (NoTombstone s worker ident token ∧ Refused s worker ident token now) ∨
      (∃ job, s.jobs.find ident = some job ∧
        (job.purgePending && job.leasedTo worker.workerId token) = true) ∨
      ∃ job, s.jobs.find ident = some job ∧
        (job.purgePending && job.leasedTo worker.workerId token) = false ∧
        (job.held && job.heldBy worker.workerId token now) = true := by
  cases found : s.jobs.find ident with
  | none =>
    refine .inl ⟨?_, ?_⟩ <;>
    · intro job there
      rw [found] at there
      cases there
  | some job =>
    cases tombstone : job.purgePending && job.leasedTo worker.workerId token with
    | true => exact .inr (.inl ⟨job, rfl, tombstone⟩)
    | false =>
      cases held : job.held && job.heldBy worker.workerId token now with
      | true => exact .inr (.inr ⟨job, rfl, tombstone, held⟩)
      | false => exact .inl ⟨noTombstone_of_find found tombstone, refused_of_find found held⟩

theorem finish_outcome {result : Json}
    (run : execute (.finish worker ident result token) clock s = (answer, t)) :
    Outcome s worker ident token (clock 0) grants
      (told (.finish worker ident result token) clock answer grants) t := by
  simp only [execute, finishWith] at run
  rcases row_cases s worker ident token (clock 0) with
    ⟨absent, refused⟩ | ⟨job, found, tombstone⟩ | ⟨job, found, live, held⟩
  · rw [answer_of_error (terminal_refused .done (Jobs.given result) none absent refused)] at run
    cases run
    exact .refused rfl
  · rw [answer_of_ok (terminal_purged .done (Jobs.given result) none found tombstone)] at run
    cases run
    obtain ⟨pending, leased⟩ := Bool.and_eq_true_iff.mp tombstone
    exact .removed job found pending leased rfl
  · have settled := terminal_settled .done (Jobs.given result) none found live held
    cases checked : resultParameter (Jobs.given result) with
    | error e =>
      rw [checked] at settled
      rw [answer_of_error settled] at run
      cases run
      exact .refused rfl
    | ok value =>
      rw [checked] at settled
      rw [answer_of_ok settled] at run
      cases run
      exact .settled job found (Bool.and_eq_true_iff.mp held).2 _ _ _ rfl
        (fun ok => rowOk_settled ok (by decide) _ _ _) rfl

theorem fail_outcome {error : PyStr}
    (run : execute (.fail worker ident error token) clock s = (answer, t)) :
    Outcome s worker ident token (clock 0) grants
      (told (.fail worker ident error token) clock answer grants) t := by
  simp only [execute] at run
  by_cases tombstoned : ∃ job, s.jobs.find ident = some job ∧
      (job.purgePending && job.leasedTo worker.workerId token) = true
  · obtain ⟨job, found, tombstone⟩ := tombstoned
    rw [answer_of_ok (failWith_purged error found tombstone)] at run
    cases run
    obtain ⟨pending, leased⟩ := Bool.and_eq_true_iff.mp tombstone
    exact .removed job found pending leased rfl
  · have absent : NoTombstone s worker ident token := by
      intro job found
      exact Bool.eq_false_iff.mpr (fun tombstone => tombstoned ⟨job, found, tombstone⟩)
    by_cases failing : ∃ job, s.jobs.find ident = some job ∧
        (decide (job.status = .running) && job.heldBy worker.workerId token (clock 0)) = true
    · obtain ⟨job, found, running⟩ := failing
      have failed := failWith_failed error found (absent job found) running
      cases stored : errorColumn error with
      | error e =>
        rw [stored] at failed
        rw [answer_of_error failed] at run
        cases run
        exact .refused rfl
      | ok text =>
        rw [stored] at failed
        rw [answer_of_ok failed] at run
        cases run
        exact .settled job found (Bool.and_eq_true_iff.mp running).2 _ _ _ rfl
          (fun ok => rowOk_failed ok _ _) rfl
    · have unfailed : Unfailed s worker ident token (clock 0) := by
        intro job found
        exact Bool.eq_false_iff.mpr (fun running => failing ⟨job, found, running⟩)
      rw [answer_of_error (failWith_refused error absent unfailed)] at run
      cases run
      exact .refused rfl

theorem cancel_outcome (run : execute (.cancelRunning worker ident token) clock s = (answer, t)) :
    Outcome s worker ident token (clock 0) grants
      (told (.cancelRunning worker ident token) clock answer grants) t := by
  simp only [execute] at run
  rcases row_cases s worker ident token (clock 0) with
    ⟨absent, refused⟩ | ⟨job, found, tombstone⟩ | ⟨job, found, live, held⟩
  · rw [answer_of_ok (cancelWith_refused absent refused)] at run
    cases run
    exact .refused rfl
  · rw [answer_of_ok (cancelWith_purged found tombstone)] at run
    cases run
    obtain ⟨pending, leased⟩ := Bool.and_eq_true_iff.mp tombstone
    exact .removed job found pending leased rfl
  · rw [answer_of_ok (cancelWith_settled found live held)] at run
    cases run
    exact .settled job found (Bool.and_eq_true_iff.mp held).2 _ _ _ rfl
      (fun ok => rowOk_settled ok (by decide) _ _ _) rfl

theorem find_publish (s : PgStore) (ident : String) (f : PgJob → PgJob)
    (keeps : ∀ j, (f j).id = j.id) (event : Jobs.JobEvent) (other : String) :
    (publish s ident f keeps event).jobs.find other =
      if other = ident then (s.jobs.find other).map f else s.jobs.find other :=
  Table.find_update_key s.jobs ident f keeps other

theorem find_dropOne (s : PgStore) (ident other : String) :
    (drop s (fun j => decide (j.id = ident))).jobs.find other =
      if other = ident then none else s.jobs.find other := by
  rw [find_drop]
  cases found : s.jobs.find other with
  | none => simp
  | some job =>
    have keyed := Table.key_of_find found
    by_cases here : other = ident <;> simp [keyed, here]

variable {after : List Grant} {now : Instant}

theorem outcome_moves {grants : List Grant}
    (outcome : Outcome s worker ident token now grants after t)
    (unclaimed : claimedJob answer = none) (other : String) :
    RowMove clock other answer (s.jobs.find other) (t.jobs.find other) := by
  have none_claimed : claimedJob answer ≠ some other := by
    rw [unclaimed]
    intro claimed
    cases claimed
  cases outcome with
  | refused => exact .stays _ none_claimed
  | removed job found =>
    rw [find_dropOne]
    split
    · exact .dropped _ none_claimed
    · exact .stays _ none_claimed
  | settled job found held f keeps event attempts ok =>
    rw [find_publish]
    by_cases here : other = ident
    · subst here
      rw [if_pos rfl, found]
      exact .changed job (f job) none_claimed attempts ok
    · rw [if_neg here]
      exact .stays _ none_claimed

end Outcomes

theorem heartbeat_cases (worker : Worker) (ident token : String) (clock : Clock) (s : PgStore) :
    (∃ job, s.jobs.find ident = some job ∧ job.heldBy worker.workerId token (clock 0) = true ∧
        execute (.heartbeat worker ident token) clock s = (.ok (.told true),
          updateOne s ident (fun j => j.extended worker (clock 0)) (fun j => j.extended_id _ _))) ∨
      execute (.heartbeat worker ident token) clock s = (.ok (.told false), s) := by
  by_cases held : ∃ job, s.jobs.find ident = some job ∧
      (job.held && job.heldBy worker.workerId token (clock 0)) = true
  · obtain ⟨job, found, held⟩ := held
    exact .inl ⟨job, found, (Bool.and_eq_true_iff.mp held).2,
      answer_of_ok (heartbeat_held found held)⟩
  · refine .inr (answer_of_ok (heartbeat_refused ?_))
    intro job found
    exact Bool.eq_false_iff.mpr (fun there => held ⟨job, found, there⟩)

theorem claim_cases (worker : Worker) (token : String) (clock : Clock) (s : PgStore) :
    (∃ job, (reaped clock s).jobs.find job.id = some job ∧ job.status = .queued ∧
        execute (.claim worker token) clock s =
          (.ok (.claimed (some (job.claimed worker token (clock 3)))),
            publish (reaped clock s) job.id (fun j => j.claimed worker token (clock 3))
              (fun j => j.claimed_id _ _ _) ⟨job.id, .running,
                .attempt (job.attempts + 1) (some worker.workerId), clock 3⟩)) ∨
      execute (.claim worker token) clock s = (.ok (.claimed none), reaped clock s) := by
  have run := claim_run worker token clock s
  cases picked : (reaped clock s).jobs.first
      (fun j => decide (j.status = .queued ∧ j.runAt ≤ clock 3)) dueBefore with
  | none =>
    rw [picked] at run
    exact .inr (answer_of_ok run)
  | some job =>
    rw [picked] at run
    obtain ⟨mem, met⟩ := Table.first_some picked
    exact .inl ⟨job, Table.find_of_mem mem, (of_decide_eq_true met).1, answer_of_ok run⟩

theorem claim_moves {worker : Worker} (run : execute (.claim worker token) clock s = (answer, t))
    (ident : String) : RowMove clock ident answer (s.jobs.find ident) (t.jobs.find ident) := by
  rcases claim_cases worker token clock s with ⟨job, found, queued, done⟩ | done
  · rw [done] at run
    cases run
    rw [find_publish]
    rw [find_reaped] at found ⊢
    by_cases here : ident = job.id
    · subst here
      rw [if_pos rfl]
      obtain ⟨row, stored, kept⟩ := bind_eq_some_iff.mp found
      rw [stored, bind_some, kept]
      exact .claimed row job worker token kept queued rfl
    · rw [if_neg here]
      have unclaimed : claimedJob (.ok (.claimed (some (job.claimed worker token (clock 3))))) ≠
          some ident := by
        intro same
        exact here (Option.some.inj same).symm
      cases s.jobs.find ident with
      | none => exact .stays _ unclaimed
      | some row => exact .reaped row unclaimed
  · rw [done] at run
    cases run
    rw [find_reaped]
    cases s.jobs.find ident with
    | none => exact .stays _ nofun
    | some row => exact .reaped row nofun

theorem settle_unclaimed {m : PgTxn Bool} (run : Txn.answer .told m s = (answer, t)) :
    claimedJob answer = none := by
  cases answer with
  | error e => rfl
  | ok value =>
    obtain ⟨flag, -, rfl⟩ := answer_ok run
    rfl

theorem ownedToken_same (worker : Worker) (ident : String) (s : PgStore) :
    (ownedToken worker ident s).2 = s := by
  unfold ownedToken findJob
  rw [run_bind_read]
  cases (s.jobs.find ident).filter (fun j => decide (j.leaseOwner = some worker.workerId)) <;> rfl

theorem insert_moves (fresh : s.jobs.find job.id = none) (ok : RowOk job)
    (unclaimed : claimedJob answer ≠ some ident) :
    RowMove clock ident answer (s.jobs.find ident) ((s.jobs.insert job fresh).find ident) := by
  rw [Table.find_insert]
  by_cases here : job.id = ident
  · subst here
    rw [if_pos rfl, fresh]
    exact .enqueued job unclaimed ok
  · rw [if_neg here]
    exact .stays _ unclaimed

theorem purgeRow_moves {principal : String} (unclaimed : claimedJob answer = none)
    (row : Option PgJob) : RowMove clock ident answer row (row.bind (purgeRow principal now)) := by
  have other : claimedJob answer ≠ some ident := by
    rw [unclaimed]
    intro claimed
    cases claimed
  cases row with
  | none => exact .stays _ other
  | some job =>
    rw [bind_some, purgeRow]
    split
    · split
      next held => exact .changed job _ other rfl (fun ok =>
          ⟨ok.budget, fun queued => (by cases queued), fun _ => rfl⟩)
      next => exact .dropped _ other
    · exact .stays _ other

theorem execute_moves {call : LeaseCall}
    (run : execute call clock s = (answer, t)) (ident : String) :
    RowMove clock ident answer (s.jobs.find ident) (t.jobs.find ident) := by
  cases call with
  | enqueue target goal runAt maxAttempts principal =>
    cases answer with
    | error e =>
      rw [enqueue_raised (Txn.answer_error run)]
      exact .stays _ (fun claimed => by cases claimed)
    | ok value =>
      obtain ⟨result, done, rfl⟩ := answer_ok run
      obtain ⟨job, at_, fresh, queued, attempts, unleased, positive, rfl⟩ := enqueue_returned done
      refine insert_moves fresh ⟨?_, fun _ => ?_, fun leased => absurd unleased leased⟩ (fun claimed => by cases claimed)
      · omega
      · omega
  | claim worker token => exact claim_moves run ident
  | heartbeat worker target token =>
    rcases heartbeat_cases worker target token clock s with ⟨job, found, held, done⟩ | done
    · rw [done] at run
      cases run
      rw [updateOne, Table.find_update_key]
      by_cases here : ident = target
      · subst here
        rw [if_pos rfl, found]
        exact .changed job _ (fun claimed => by cases claimed) rfl (fun ok => ⟨ok.budget, ok.room, ok.leased⟩)
      · rw [if_neg here]
        exact .stays _ (fun claimed => by cases claimed)
    · rw [done] at run
      cases run
      exact .stays _ (fun claimed => by cases claimed)
  | ownedToken worker target =>
    rw [execute] at run
    have same := ownedToken_same worker target s
    unfold Txn.answer at run
    split at run
    next value s' read =>
      cases run
      rw [read] at same
      obtain rfl := same
      exact .stays _ (fun claimed => by cases claimed)
    next e s' read =>
      cases run
      rw [read] at same
      obtain rfl := same
      exact .stays _ (fun claimed => by cases claimed)
  | finish worker target result token =>
    exact outcome_moves (finish_outcome [] run) (settle_unclaimed run) ident
  | fail worker target error token =>
    exact outcome_moves (fail_outcome [] run) (settle_unclaimed run) ident
  | cancelRunning worker target token =>
    exact outcome_moves (cancel_outcome [] run) (settle_unclaimed run) ident
  | requestCancel target =>
    rw [execute] at run
    cases found : s.jobs.find target with
    | none =>
      rw [answer_of_ok (requestCancel_unknown found)] at run
      cases run
      exact .stays _ (fun claimed => by cases claimed)
    | some job =>
      rw [answer_of_ok (requestCancel_found found)] at run
      cases run
      rw [find_publish]
      by_cases here : ident = target
      · subst here
        rw [if_pos rfl, found]
        exact .changed job _ (fun claimed => by cases claimed) rfl (fun ok => rowOk_cancelAsked ok _)
      · rw [if_neg here]
        exact .stays _ (fun claimed => by cases claimed)
  | purgePrincipal principal =>
    cases answer with
    | error e =>
      rw [purgePrincipal_raised (Txn.answer_error run)]
      exact .stays _ (fun claimed => by cases claimed)
    | ok value =>
      obtain ⟨counts, done, rfl⟩ := answer_ok run
      rw [purgePrincipal_returned done]
      exact purgeRow_moves rfl _
  | sweepPurges staleBefore =>
    rw [execute] at run
    have kept := sweepPurges_find staleBefore clock s ident
    cases done : sweepPurges staleBefore clock s with
    | mk result s' =>
      obtain ⟨count, returned⟩ := sweepPurges_returned staleBefore clock s
      rw [done] at kept returned
      obtain rfl : result = .ok count := returned
      rw [answer_of_ok done] at run
      cases run
      rw [kept]
      cases s.jobs.find ident with
      | none => exact .stays _ (fun claimed => by cases claimed)
      | some job =>
        rw [filter_some]
        split
        · exact .stays _ (fun claimed => by cases claimed)
        · exact .dropped _ (fun claimed => by cases claimed)

end Meemee.Guarantees.LeaseMoves
