import Meemee.Guarantees.BackendRelation

/-!
# Where the two job stores agree

`step_dichotomy` runs one call on related stores: either they answer alike and stay
related, or the call is one of those where the PostgreSQL store lacks a guard that the
SQLite store has, or refuses a value that SQLite takes, and they part at once. So the
condition on the calls is exact over whole runs.
-/
namespace Meemee.Guarantees.BackendRefinement
open Library Library.History Source Library.Txn Library.Table
open Source.Jobs (JobStatus JobEvent RunAt Job JobStore)
open Source.PgJobs (PgJob PgStore Worker storesText storesJson errorColumn)
open Guarantees.JobMoves (Budget)
open Guarantees.BackendRelation

variable {worker : Worker}

def eventOf (worker : Worker) (s : Stores) (action : Action) : Step :=
  ⟨s, action, (step worker s action).1, (step worker s action).2⟩

/-- The stores agree on a call and stay related, or the condition excludes the call. -/
def Dichotomy (worker : Worker) (s : Stores) (action : Action) : Prop :=
  (Related worker (step worker s action).2 ∧ Agrees (eventOf worker s action) ∧
      Meets (eventOf worker s action)) ∨
    (¬ Agrees (eventOf worker s action) ∧ ¬ Meets (eventOf worker s action))

variable {s : Stores} {ident : String} {event : JobEvent} {job : Job} {row : PgJob} {p : PgStore}
  {result : Json}

section Dichotomies

variable {s : Stores} {call : PairCall} {now : Instant} {withToken : Bool} {a b : Answer}
  {t : JobStore} {u : PgStore}

theorem together (left : onSqlite call now s.sqlite = (a, t))
    (right : onPostgres worker (passed s ⟨call, now, withToken⟩) call now s.postgres = (b, u))
    (answers : SameAnswer (a, b)) (related : Related worker ⟨t, u, kept call b s.tokens⟩)
    (quiet : TerminalQuiet ⟨s, ⟨call, now, withToken⟩, (a, b), ⟨t, u, kept call b s.tokens⟩⟩)
    (honest : CancelHonest ⟨s, ⟨call, now, withToken⟩, (a, b), ⟨t, u, kept call b s.tokens⟩⟩)
    (meets : Meets (eventOf worker s ⟨call, now, withToken⟩)) :
    Dichotomy worker s ⟨call, now, withToken⟩ := by
  have run : step worker s ⟨call, now, withToken⟩ = ((a, b), ⟨t, u, kept call b s.tokens⟩) := by
    simp only [step, left, right]
  refine .inl ⟨by rw [run]; exact related, ?_, meets⟩
  rw [eventOf, run]
  exact ⟨sameView_of_related related, answers, quiet, honest⟩

theorem apart (left : onSqlite call now s.sqlite = (a, t))
    (right : onPostgres worker (passed s ⟨call, now, withToken⟩) call now s.postgres = (b, u))
    (differ : ¬ SameAnswer (a, b) ∨ ¬ SameView ⟨t, u, kept call b s.tokens⟩)
    (excluded : ¬ Meets (eventOf worker s ⟨call, now, withToken⟩)) :
    Dichotomy worker s ⟨call, now, withToken⟩ := by
  have run : step worker s ⟨call, now, withToken⟩ = ((a, b), ⟨t, u, kept call b s.tokens⟩) := by
    simp only [step, left, right]
  refine .inr ⟨fun agrees => ?_, excluded⟩
  rw [eventOf, run] at agrees
  rcases differ with answers | views
  · exact answers agrees.answer
  · exact views agrees.view

theorem quiet_of_other {e : Step} (other : ∀ ident, e.action.call ≠ .requestCancel ident ∧
    e.action.call ≠ .cancel ident) : TerminalQuiet e ∧ CancelHonest e := by
  refine ⟨?_, fun ident same => absurd same (other ident).2⟩
  intro ident same
  rcases same with request | cancel
  · exact absurd request (other ident).1
  · exact absurd cancel (other ident).2

theorem differ_logged (related : Related worker s) {g : PgJob → PgJob}
    {keeps : ∀ j, (g j).id = j.id} (about : event.jobId = ident) (tokens : String → Option String) :
    ¬ SameView ⟨s.sqlite, LeaseCalls.publish s.postgres ident g keeps event, tokens⟩ := by
  intro views
  have kinds := (views ident).2
  simp only [LeaseCalls.publish, kindsIn_append, about, if_true, related.kinds ident] at kinds
  simpa using congrArg List.length kinds

theorem statusIn_of_find {s : JobStore} (found : s.jobs.find ident = some job) :
    statusIn s ident = some job.status := by
  rw [statusIn, found]
  rfl

theorem statusIn_none {s : JobStore} (absent : s.jobs.find ident = none) :
    statusIn s ident = none := by
  rw [statusIn, absent]
  rfl

theorem held_of_status {worker : Worker} {tokens : String → Option String}
    (same : Same worker tokens job row)
    (status : job.status = .running ∨ job.status = .cancelRequested) : row.held = true := by
  rw [same.status] at status
  exact decide_eq_true status

theorem unleased_of_status {tokens : String → Option String} (found : p.jobs.find ident = some row)
    (same : Same worker tokens job row) (idle : job.status ≠ .running)
    (unasked : job.status ≠ .cancelRequested) : Unleased p ident := by
  intro other there
  rw [found] at there
  cases there
  refine same.idle (decide_eq_false ?_)
  rw [← same.status]
  rintro (running | requested)
  · exact idle running
  · exact unasked requested

theorem unleased_of_absent (absent : p.jobs.find ident = none) : Unleased p ident := by
  intro row found
  rw [absent] at found
  cases found

theorem holds_of_same (call : PairCall) (withToken : Bool)
    (found : s.postgres.jobs.find ident = some row) (same : Same worker s.tokens job row)
    (held : row.held = true) (unexpired : row.leaseExpired now = false) :
    Held worker s.postgres ident (passed s ⟨call, now, withToken⟩ ident) now row := by
  obtain ⟨owner, text, expires, nonempty, own, leased, lease⟩ := same.held held
  obtain rfl := key_of_find found
  refine ⟨found, same.rowLive, text, tokenOr_held found owner leased nonempty ?_, ?_⟩
  · cases withToken with
    | true => exact .inr own
    | false => exact .inl rfl
  · have later : now < expires := by
      simpa [PgJob.leaseExpired, lease] using unexpired
    simp [PgJob.heldBy, PgJob.leasedTo, owner, leased, lease, later]

theorem both_refuse {e e' : Exc} (related : Related worker s)
    (left : onSqlite call now s.sqlite = (.error e, s.sqlite))
    (right : onPostgres worker (passed s ⟨call, now, withToken⟩) call now s.postgres =
      (.error e', s.postgres))
    (other : ∀ ident, call ≠ .requestCancel ident ∧ call ≠ .cancel ident)
    (meets : Meets (eventOf worker s ⟨call, now, withToken⟩)) :
    Dichotomy worker s ⟨call, now, withToken⟩ := by
  have tokens : kept call (.error e') s.tokens = s.tokens := by
    cases call <;> rfl
  refine together left right trivial ?_ (quiet_of_other other).1 (quiet_of_other other).2 meets
  rw [tokens]
  exact related

theorem fits_iff (goal : Goal) (budget : Budget) (principal : Option String) (ident : String)
    (due now : Instant) :
    (storesText goal.text = true ∧ principal.all storesText = true ∧
      budget.attempts ≤ PgJobs.maxInteger) ↔ LeaseCalls.stores
        (PgJobs.newJob ident goal.text due budget.attempts principal now) = true := by
  rw [LeaseCalls.stores, Bool.and_eq_true, Bool.and_eq_true, and_assoc, decide_eq_true_iff]
  rfl

/-- SQLite refuses a budget or a time that it cannot store, and a stored id. -/
theorem sqlite_refused (ident goal : String) (runAt : Option RunAt) (attempts : Int) (now : Instant)
    (principal : Option String) (s : JobStore)
    (bad : ¬ (attempts ≤ Jobs.maxInteger ∧ RunAt.converts runAt = true) ∨
      ∃ other, s.jobs.find ident = some other) :
    ∃ e, Jobs.enqueue ident goal runAt attempts principal now now s = (.error e, s) := by
  by_cases naive : runAt = some .naive
  · subst naive
    exact ⟨_, JobMoves.enqueue_naive ident goal attempts principal now now s⟩
  · cases converts : RunAt.converts runAt with
    | false => exact ⟨_, JobMoves.enqueue_unconverted _ _ _ _ _ _ _ converts⟩
    | true =>
      rw [JobMoves.enqueue_aware _ _ _ _ _ _ _ naive converts]
      apply JobMoves.insertJob_refused
      rcases bad with unfit | taken
      · exact .inl (Int.not_le.mp (fun small => unfit ⟨small, converts⟩))
      · exact .inr taken

theorem enqueue_dichotomy (related : Related worker s) (ident : String) (goal : Goal)
    (runAt : Option RunAt) (budget : Budget) (principal : Option String) :
    Dichotomy worker s ⟨.enqueue ident goal runAt budget principal, now, withToken⟩ := by
  have other : ∀ target, PairCall.enqueue ident goal runAt budget principal ≠
      .requestCancel target ∧ PairCall.enqueue ident goal runAt budget principal ≠ .cancel target :=
    fun _ => ⟨nofun, nofun⟩
  by_cases naive : runAt = some .naive
  · subst naive
    have left : onSqlite (.enqueue ident goal (some .naive) budget principal) now s.sqlite =
        (.error (.valueError "run_at requires a timezone"), s.sqlite) := rfl
    have right : onPostgres worker (passed s ⟨.enqueue ident goal (some .naive) budget principal,
        now, withToken⟩) (.enqueue ident goal (some .naive) budget principal) now s.postgres =
          (.error (.valueError "run_at requires a timezone"), s.postgres) := rfl
    exact both_refuse related left right other (.inr (.inl rfl))
  · have right := LeaseCalls.enqueue_aware ident goal.text budget.attempts principal
      (fun _ => now) s.postgres naive
    rw [goal.visible, Bool.not_false, Bool.true_and, if_pos (decide_eq_true budget.positive)]
      at right
    rcases row_of_job related ident with ⟨absent, absent'⟩ | ⟨job, row, found, found', -⟩
    · have pgTakes := fits_iff goal budget principal ident
        ((RunAt.given runAt).getD now) now
      -- the id is new to both stores, so each looks at the values only
      have meets_iff : fits s.sqlite ident goal runAt budget principal ↔
          (budget.attempts ≤ Jobs.maxInteger ∧ RunAt.converts runAt = true ↔
            LeaseCalls.stores (PgJobs.newJob ident goal.text ((RunAt.given runAt).getD now)
              budget.attempts principal now) = true) := by
        rw [← pgTakes]
        simp only [fits, absent, naive, Option.isSome_none, Bool.false_eq_true, false_or]
      by_cases takes : budget.attempts ≤ Jobs.maxInteger ∧ RunAt.converts runAt = true
      · have left := JobMoves.enqueue_aware ident goal.text budget.attempts principal now now
          s.sqlite naive takes.2
        rw [JobMoves.insertJob_stored takes.1 absent] at left
        cases stored : LeaseCalls.stores (PgJobs.newJob ident goal.text
            ((RunAt.given runAt).getD now) budget.attempts principal now) with
        | true =>
          rw [LeaseCalls.insertJob_stored stored absent'] at right
          refine together (answer_of_ok left) (answer_of_ok right) rfl ⟨?_, related.takes, ?_⟩
            (quiet_of_other other).1 (quiet_of_other other).2
            (meets_iff.mpr (iff_of_true takes stored))
          · exact related.rows.insert rfl ⟨rfl, rfl, rfl, rfl, rfl, rfl, rfl,
              fun held => (by cases held), fun _ => rfl⟩ absent absent'
          · intro target
            simp only [JobMoves.inserted, LeaseCalls.inserted, kindsIn_append, related.kinds target]
            rfl
        | false =>
          obtain ⟨e, refused⟩ := LeaseCalls.insertJob_refused _ (RunAt.given runAt) now s.postgres
            (.inl stored)
          rw [refused] at right
          refine apart (answer_of_ok left) (answer_of_error right) (.inl id) ?_
          intro meets
          have same := (meets_iff.mp meets).mp takes
          rw [stored] at same
          cases same
      · obtain ⟨e, left⟩ := sqlite_refused ident goal.text runAt budget.attempts now principal s.sqlite
          (.inl takes)
        cases stored : LeaseCalls.stores (PgJobs.newJob ident goal.text
            ((RunAt.given runAt).getD now) budget.attempts principal now) with
        | true =>
          rw [LeaseCalls.insertJob_stored stored absent'] at right
          refine apart (answer_of_error left) (answer_of_ok right) (.inl id) ?_
          intro meets
          exact takes ((meets_iff.mp meets).mpr stored)
        | false =>
          obtain ⟨e', refused'⟩ := LeaseCalls.insertJob_refused _ (RunAt.given runAt) now s.postgres
            (.inl stored)
          rw [refused'] at right
          refine both_refuse related (answer_of_error left) (answer_of_error right) other
            (meets_iff.mpr (iff_of_false takes ?_))
          rw [stored]
          exact Bool.false_ne_true
    · obtain ⟨e, left⟩ := sqlite_refused ident goal.text runAt budget.attempts now
        principal s.sqlite (.inr ⟨job, found⟩)
      obtain ⟨e', refused'⟩ : ∃ e, PgJobs.insertJob (PgJobs.newJob ident goal.text
          ((RunAt.given runAt).getD now) budget.attempts principal now) (RunAt.given runAt) now
          s.postgres = (.error e, s.postgres) :=
        LeaseCalls.insertJob_refused _ (RunAt.given runAt) now s.postgres (.inr ⟨row, found'⟩)
      rw [refused'] at right
      exact both_refuse related (answer_of_error left) (answer_of_error right) other
        (.inl (Option.isSome_of_eq_some found))

theorem claim_dichotomy (related : Related worker s) (token : Token)
    (unexpired : ∀ row ∈ s.postgres.jobs.rows, row.leaseExpired now = false) :
    Dichotomy worker s ⟨.claim token, now, withToken⟩ := by
  have other : ∀ target, PairCall.claim token ≠ .requestCancel target ∧
      PairCall.claim token ≠ .cancel target := fun _ => ⟨nofun, nofun⟩
  have live : ∀ row ∈ s.postgres.jobs, row.purgePending = false := by
    intro row mem
    rcases row_of_job related row.id with ⟨-, absent⟩ | ⟨job, row', -, found, same⟩
    · rw [find_of_mem mem] at absent
      cases absent
    · rw [find_of_mem mem] at found
      cases found
      exact same.rowLive
  have left := JobMoves.claim_run now s.sqlite
  have right := LeaseCalls.claim_run worker token.text (fun _ => now) s.postgres
  rw [reaped_none live unexpired] at right
  have picks : Option.Rel (Same worker s.tokens)
      (s.sqlite.jobs.first (fun j => decide (j.status = .queued ∧ j.runAt ≤ now)) Jobs.dueBefore)
      (s.postgres.jobs.first (fun j => decide (j.status = .queued ∧ j.runAt ≤ now))
        PgJobs.dueBefore) := by
    refine related.rows.first ?_ ?_
    · intro job row same
      rw [same.status, same.runAt]
    · intro a a' b b' same same'
      rw [Jobs.dueBefore, PgJobs.dueBefore, same.runAt, same'.runAt, same.ident, same'.ident]
  cases picked : s.sqlite.jobs.first (fun j => decide (j.status = .queued ∧ j.runAt ≤ now))
      Jobs.dueBefore with
  | none =>
    rw [picked] at left
    rw [rel_none picks picked] at right
    exact together (answer_of_ok left) (answer_of_ok right) rfl related
      (quiet_of_other other).1 (quiet_of_other other).2 trivial
  | some job =>
    obtain ⟨row, picked', same⟩ := rel_some picks picked
    rw [picked] at left
    rw [picked'] at right
    refine together (answer_of_ok left) (answer_of_ok right) ?_ ?_
      (quiet_of_other other).1 (quiet_of_other other).2 trivial
    · exact congrArg (fun ident => Value.claimed (some ident)) same.ident
    · have ident : (row.claimed worker token.text now).id = job.id := same.ident.symm
      rw [same.ident]
      refine related_publish related (fun target elsewhere => if_neg elsewhere) rfl rfl rfl ?_
      intro job' row' found same'
      refine ⟨same'.ident, rfl, ?_, same'.maxAttempts, same'.runAt, same'.live, same'.rowLive,
        fun _ => ?_, nofun⟩
      · simp only [Jobs.Job.claimed, PgJob.claimed, same'.attempts]
      · refine ⟨rfl, token.text, _, token.nonempty, if_pos ?_, rfl, rfl⟩
        exact same'.ident.symm.trans (key_of_find found)

theorem checkJsonb_encoded {text : String} (encoded : Json.dumps {} result = .ok text) :
    PgJobs.checkJsonb result =
      if storesJson result then .ok result
      else .error (.dataError "invalid input syntax for type json") := by
  rw [PgJobs.checkJsonb, encoded]
  rfl

theorem resultParameter_stored (stored : storable result = true) :
    PgJobs.resultParameter (Jobs.given result) = .ok (Jobs.given result) := by
  obtain ⟨encodes, takes⟩ := Bool.and_eq_true_iff.mp stored
  rcases Jobs.given_cases result with rfl | some
  · rfl
  · cases encoded : Json.dumps {} result with
    | ok text =>
      rw [some, PgJobs.resultParameter, checkJsonb_encoded encoded, if_pos takes]
      rfl
    | error e =>
      rw [encoded] at encodes
      cases encodes

theorem resultParameter_refused (refused : storable result = false) :
    ∃ e, PgJobs.resultParameter (Jobs.given result) = .error e := by
  unfold storable at refused
  rcases Jobs.given_cases result with rfl | some
  · cases refused
  · cases encoded : Json.dumps {} result with
    | ok text =>
      rw [encoded] at refused
      have takes : storesJson result = false := refused
      rw [some, PgJobs.resultParameter, checkJsonb_encoded encoded, takes]
      exact ⟨_, rfl⟩
    | error e =>
      rw [some, PgJobs.resultParameter, PgJobs.checkJsonb, encoded]
      exact ⟨e, rfl⟩

/-- Without a result SQLite fails a running job that PostgreSQL calls done. -/
theorem finish_none (related : Related worker s) (running : job.status = .running)
    (found : s.sqlite.jobs.find ident = some job) (found' : s.postgres.jobs.find ident = some row)
    (same : Same worker s.tokens job row) {token : Bool}
    (right : PgJobs.finish worker ident .null (passed s ⟨.finish ident .null, now, token⟩ ident) now
      s.postgres = (.ok false, LeaseCalls.publish s.postgres ident
        (fun j => j.settled .done none none now) (fun j => j.settled_id _ _ _ _)
        ⟨ident, .done, PgJobs.settledPayload none none, now⟩)) :
    Dichotomy worker s ⟨.finish ident .null, now, token⟩ := by
  have left : Jobs.finish ident .null now s.sqlite = _ :=
    (JobMoves.publishTerminal_failed found same.live running rfl).trans
      (if_pos (related.takes _ _))
  refine apart (answer_of_ok left) (answer_of_ok right) (.inr (fun views => ?_)) ?_
  · have statuses := (views ident).1
    simp only [JobMoves.publish, LeaseCalls.publish, find_update_key, if_true, found, found',
      Option.map_some, Option.some.injEq, Prod.mk.injEq] at statuses
    have failed : job.failedStatus = .done := statuses.1
    unfold Jobs.Job.failedStatus at failed
    split at failed <;> cases failed
  · simp [Meets, CallMeets, eventOf, statusIn_of_find found, running, Jobs.given]

theorem finish_dichotomy (related : Related worker s) (ident : String) (result : Json)
    (unexpired : ∀ row ∈ s.postgres.jobs.rows, row.leaseExpired now = false) :
    Dichotomy worker s ⟨.finish ident result, now, withToken⟩ := by
  have other : ∀ target, PairCall.finish ident result ≠ .requestCancel target ∧
      PairCall.finish ident result ≠ .cancel target := fun _ => ⟨nofun, nofun⟩
  rcases row_of_job related ident with ⟨absent, absent'⟩ | ⟨job, row, found, found', same⟩
  · obtain ⟨e, refused⟩ := finish_unleased worker now
      (passed s ⟨.finish ident result, now, withToken⟩ ident)
      (unleased_of_absent absent') result
    refine both_refuse related
      (answer_of_error (JobMoves.publishTerminal_unknown (Jobs.given result) none absent))
      (answer_of_error refused) other ?_
    simp [Meets, CallMeets, eventOf, statusIn_none absent]
  · have status := statusIn_of_find found
    have fresh := unexpired row (mem_of_find found')
    by_cases running : job.status = .running
    · have held := held_of_status same (.inl running)
      have right := finish_held (holds_of_same (.finish ident result) withToken
        found' same held fresh) held result
      rcases Jobs.given_cases result with rfl | some
      · exact finish_none related running found found' same right
      cases encoded : Json.dumps {} result with
      | error e =>
        have left : Jobs.finish ident result now s.sqlite = (.error e, s.sqlite) := by
          rw [Jobs.finish, some]
          exact JobMoves.publishTerminal_unwritten found same.live running encoded
        have refused : storable result = false := by
          simp [storable, encoded, Except.isOk, Except.toBool]
        obtain ⟨e', parameter⟩ := resultParameter_refused refused
        rw [parameter] at right
        refine both_refuse related (answer_of_error left) (answer_of_error right) other ?_
        simp [Meets, CallMeets, eventOf, status, running, some, encoded, Except.isOk, Except.toBool]
      | ok text =>
        have left : Jobs.finish ident result now s.sqlite = _ :=
          (JobMoves.finish_written found same.live running some encoded).trans
            (if_pos (related.takes _ _))
        cases stored : storable result with
        | true =>
          rw [resultParameter_stored stored, some] at right
          refine together (answer_of_ok left) (answer_of_ok right) rfl ?_
            (quiet_of_other other).1 (quiet_of_other other).2 ?_
          · refine related_publish related (fun _ _ => rfl) rfl rfl rfl ?_
            intro job' row' _ same'
            exact ⟨same'.ident, rfl, same'.attempts, same'.maxAttempts, same'.runAt, same'.live,
              same'.rowLive, (absurd · Bool.false_ne_true), fun _ => rfl⟩
          · simp [Meets, CallMeets, eventOf, status, running, some, stored]
        | false =>
          obtain ⟨e', parameter⟩ := resultParameter_refused stored
          rw [parameter] at right
          refine apart (answer_of_ok left) (answer_of_error right) (.inl id) ?_
          simp [Meets, CallMeets, eventOf, status, running, stored, encoded, Except.isOk,
            Except.toBool]
    · have left : Jobs.finish ident result now s.sqlite = _ :=
        JobMoves.publishTerminal_idle (Jobs.given result) none found same.live running
      by_cases requested : job.status = .cancelRequested
      · have held := held_of_status same (.inr requested)
        have right := finish_held (holds_of_same (.finish ident result) withToken
          found' same held fresh) held result
        cases stored : storable result with
        | true =>
          rw [resultParameter_stored stored] at right
          refine apart (answer_of_error left) (answer_of_ok right) (.inl id) ?_
          simp [Meets, CallMeets, eventOf, status, requested, stored]
        | false =>
          obtain ⟨e', parameter⟩ := resultParameter_refused stored
          rw [parameter] at right
          refine both_refuse related (answer_of_error left) (answer_of_error right) other ?_
          simp [Meets, CallMeets, eventOf, status, requested, stored]
      · obtain ⟨e, refused⟩ := finish_unleased worker now
          (passed s ⟨.finish ident result, now, withToken⟩ ident)
          (unleased_of_status found' same running requested) result
        refine both_refuse related (answer_of_error left) (answer_of_error refused) other ?_
        simp [Meets, CallMeets, eventOf, status, running, requested]

theorem fail_dichotomy (related : Related worker s) (ident : String) (error : PyStr)
    (unexpired : ∀ row ∈ s.postgres.jobs.rows, row.leaseExpired now = false) :
    Dichotomy worker s ⟨.fail ident error, now, withToken⟩ := by
  have other : ∀ target, PairCall.fail ident error ≠ .requestCancel target ∧
      PairCall.fail ident error ≠ .cancel target := fun _ => ⟨nofun, nofun⟩
  rcases row_of_job related ident with ⟨absent, absent'⟩ | ⟨job, row, found, found', same⟩
  · obtain ⟨e, refused⟩ := fail_unleased worker now
      (passed s ⟨.fail ident error, now, withToken⟩ ident)
      (unleased_of_absent absent') error
    refine both_refuse related
      (answer_of_error (JobMoves.publishTerminal_unknown none (some error) absent))
      (answer_of_error refused) other ?_
    simp [Meets, CallMeets, eventOf, statusIn_none absent]
  · have status := statusIn_of_find found
    have fresh := unexpired row (mem_of_find found')
    by_cases running : job.status = .running
    · have held := held_of_status same (.inl running)
      have right := fail_running (holds_of_same (.fail ident error) withToken
        found' same held fresh) (same.status.symm.trans running) error
      cases error with
      | unencodable =>
        have left : Jobs.fail ident .unencodable now s.sqlite = _ :=
          JobMoves.publishTerminal_unbound found same.live running (by simp) rfl
        refine both_refuse related (answer_of_error left) (answer_of_error right) other ?_
        simp [Meets, CallMeets, eventOf, PyStr.bound, Except.isOk, Except.toBool]
      | text text =>
        have left : Jobs.fail ident text now s.sqlite = _ :=
          (JobMoves.fail_written found same.live running text).trans (if_pos (related.takes _ _))
        cases stored : storesText text with
        | true =>
          have column : errorColumn text = .ok text :=
            (PgJobs.errorColumn_text text).trans (if_pos stored)
          rw [column] at right
          refine together (answer_of_ok left) (answer_of_ok right) rfl ?_
            (quiet_of_other other).1 (quiet_of_other other).2 ?_
          · refine related_publish related (fun _ _ => rfl) rfl rfl ?_ ?_
            · simp only [Jobs.Job.failedKind, PgJob.failedKind, same.attempts, same.maxAttempts]
            · intro job' row' _ same'
              refine ⟨same'.ident, ?_, same'.attempts, same'.maxAttempts, same'.runAt, same'.live,
                same'.rowLive, ?_, fun _ => rfl⟩
              · simp only [Jobs.Job.failed, Jobs.Job.failedStatus, PgJob.failed,
                  PgJob.failedStatus, same'.attempts, same'.maxAttempts]
              · intro held
                rw [PgJob.failed, PgJob.failedStatus] at held
                split at held <;> cases held
          · simp [Meets, CallMeets, eventOf, column, Except.isOk, Except.toBool]
        | false =>
          have column : errorColumn text = .error PgJobs.outOfRange := by
            rw [PgJobs.errorColumn_text, stored]
            rfl
          rw [column] at right
          refine apart (answer_of_ok left) (answer_of_error right) (.inl id) ?_
          simp [Meets, CallMeets, eventOf, status, running, column, PyStr.bound, Except.isOk,
            Except.toBool]
    · have left : Jobs.publishTerminal ident none (some error) now s.sqlite = _ :=
        JobMoves.publishTerminal_idle none (some error) found same.live running
      have right : ∃ e, PgJobs.fail worker ident error
          (passed s ⟨.fail ident error, now, withToken⟩ ident) now s.postgres =
            (.error e, s.postgres) := by
        by_cases requested : job.status = .cancelRequested
        · exact fail_requested (holds_of_same _ _ found' same (held_of_status same (.inr requested))
            fresh) (same.status.symm.trans requested) error
        · exact fail_unleased worker now _ (unleased_of_status found' same running requested) error
      obtain ⟨e, refused⟩ := right
      refine both_refuse related (answer_of_error left) (answer_of_error refused) other ?_
      simp [Meets, CallMeets, eventOf, status, running]

theorem same_cancelAsked {target : JobStatus} (found : s.sqlite.jobs.find ident = some job)
    (asked : PgJobs.cancelTarget job.status = target)
    (open_ : job.status = .queued ∨ job.status = .running) :
    ∀ job' row', s.sqlite.jobs.find ident = some job' → Same worker s.tokens job' row' →
      Same worker s.tokens (job'.cancelAt target now) (row'.cancelAsked now) := by
  intro job' row' found' same
  rw [found] at found'
  cases found'
  refine ⟨same.ident, ?_, same.attempts, same.maxAttempts, same.runAt, same.live, same.rowLive,
    ?_, ?_⟩
  · rw [same.status] at asked
    exact asked.symm
  · intro held
    refine same.held ?_
    rcases open_ with queued | running
    · rw [same.status] at queued
      rw [PgJob.cancelAsked, queued] at held
      cases held
    · exact held_of_status same (.inl running)
  · intro idle
    refine same.idle ?_
    rcases open_ with queued | running
    · rw [same.status] at queued
      rw [PgJob.held, queued]
      rfl
    · rw [same.status] at running
      rw [PgJob.cancelAsked, running] at idle
      cases idle

theorem publish_ne {s : JobStore} {f : Job → Job} {keeps : ∀ j, (f j).id = j.id} :
    JobMoves.publish s ident f keeps event ≠ s := by
  intro same
  have next := congrArg (fun t => t.events.next) same
  simp [JobMoves.publish, Log.append] at next

theorem publish_ne' {g : PgJob → PgJob} {keeps : ∀ j, (g j).id = j.id} :
    LeaseCalls.publish p ident g keeps event ≠ p := by
  intro same
  have next := congrArg (fun t => t.events.next) same
  simp [LeaseCalls.publish, Log.append] at next

theorem requestCancel_dichotomy (related : Related worker s) (ident : String) :
    Dichotomy worker s ⟨.requestCancel ident, now, withToken⟩ := by
  have honest : ∀ answers after, CancelHonest
      ⟨s, ⟨.requestCancel ident, now, withToken⟩, answers, after⟩ :=
    nofun
  rcases row_of_job related ident with ⟨absent, absent'⟩ | ⟨job, row, found, found', same⟩
  · refine together (answer_of_ok (JobMoves.requestCancel_unknown absent))
      (answer_of_ok (LeaseCalls.requestCancel_unknown absent')) rfl related ?_ (honest _ _)
      (.inl (statusIn_none absent))
    exact fun _ _ _ _ _ => ⟨rfl, rfl⟩
  · have status := statusIn_of_find found
    have right : PgJobs.requestCancel ident now s.postgres = _ :=
      LeaseCalls.requestCancel_found found'
    have live : ∀ answers after, job.status.terminal = false → TerminalQuiet
        ⟨s, ⟨.requestCancel ident, now, withToken⟩, answers, after⟩ := by
      intro answers after running target asked other there terminal
      have about : target = ident := by rcases asked with h | h <;> cases h; rfl
      subst about
      obtain rfl : job = other := Option.some.inj (found.symm.trans there)
      rw [running] at terminal
      cases terminal
    by_cases queued : job.status = .queued
    · have left : Jobs.requestCancel ident now s.sqlite = _ :=
        JobMoves.requestCancel_queued found queued
      rw [← same.status, queued] at right
      exact together (answer_of_ok left) (answer_of_ok right) rfl
        (related_publish related (fun _ _ => rfl) rfl rfl rfl
          (same_cancelAsked found (by rw [queued]; rfl) (.inl queued)))
        (live _ _ (by rw [queued]; rfl)) (honest _ _)
        (.inr (.inl (by rw [← queued]; exact status)))
    · by_cases running : job.status = .running
      · have left : Jobs.requestCancel ident now s.sqlite = _ :=
          JobMoves.requestCancel_running found running
        rw [← same.status, running] at right
        exact together (answer_of_ok left) (answer_of_ok right) rfl
          (related_publish related (fun _ _ => rfl) rfl rfl rfl
            (same_cancelAsked found (by rw [running]; rfl) (.inr running)))
          (live _ _ (by rw [running]; rfl)) (honest _ _)
          (.inr (.inr (by rw [← running]; exact status)))
      · have left : Jobs.requestCancel ident now s.sqlite = _ :=
          JobMoves.requestCancel_settled found queued running
        refine apart (answer_of_ok left) (answer_of_ok right)
          (.inr (differ_logged related (by rfl) _)) ?_
        simp [Meets, CallMeets, eventOf, status, queued, running]

theorem cancel_found (found : p.jobs.find ident = some row) : PgJobs.cancel ident now p =
      (.ok (decide (some (PgJobs.cancelTarget row.status) = some JobStatus.cancelled)),
        LeaseCalls.publish p ident (fun j => j.cancelAsked now) (fun j => j.cancelAsked_id _)
          ⟨ident, PgJobs.statusKind (PgJobs.cancelTarget row.status), .empty, now⟩) := by
  unfold PgJobs.cancel
  rw [run_bind_ok (LeaseCalls.requestCancel_found found)]
  rfl

theorem cancel_unknown (absent : p.jobs.find ident = none) :
    PgJobs.cancel ident now p = (.ok false, p) := by
  unfold PgJobs.cancel
  rw [run_bind_ok (LeaseCalls.requestCancel_unknown absent)]
  rfl

theorem cancel_dichotomy (related : Related worker s) (ident : String) :
    Dichotomy worker s ⟨.cancel ident, now, withToken⟩ := by
  rcases row_of_job related ident with ⟨absent, absent'⟩ | ⟨job, row, found, found', same⟩
  · have left : Jobs.cancelFrom .queued ident now s.sqlite = _ :=
      JobMoves.cancelFrom_unmatched (fun job there => by rw [absent] at there; cases there)
    refine together (answer_of_ok left) (answer_of_ok (cancel_unknown absent')) rfl related
      (fun _ _ _ _ _ => ⟨rfl, rfl⟩) ?_ (.inl (statusIn_none absent))
    intro target _
    exact ⟨⟨fun _ => rfl, fun _ => rfl⟩, ⟨fun _ => rfl, fun _ => rfl⟩⟩
  · have status := statusIn_of_find found
    have right : PgJobs.cancel ident now s.postgres = _ := cancel_found found'
    by_cases queued : job.status = .queued
    · have left : Jobs.cancelFrom .queued ident now s.sqlite = _ :=
        JobMoves.cancelFrom_matched found queued
      rw [← same.status, queued] at right
      refine together (answer_of_ok left) (answer_of_ok right) rfl
        (related_publish related (fun _ _ => rfl) rfl rfl rfl
          (same_cancelAsked found (by rw [queued]; rfl) (.inl queued))) ?_ ?_
        (.inr (by rw [← queued]; exact status))
      · intro target asked other there terminal
        have about : target = ident := by rcases asked with h | h <;> cases h; rfl
        subst about
        obtain rfl : job = other := Option.some.inj (found.symm.trans there)
        rw [queued] at terminal
        cases terminal
      · intro target _
        exact ⟨⟨nofun, fun same => absurd same publish_ne⟩,
          ⟨nofun, fun same => absurd same publish_ne'⟩⟩
    · have left : Jobs.cancelFrom .queued ident now s.sqlite = _ :=
        JobMoves.cancelFrom_unmatched (fun other there => by
          rw [found] at there
          cases there
          exact queued)
      refine apart (answer_of_ok left) (answer_of_ok right)
        (.inr (differ_logged related (by rfl) _)) ?_
      simp [Meets, CallMeets, eventOf, status, queued]

theorem cancelRunning_dichotomy (related : Related worker s) (ident : String)
    (unexpired : ∀ row ∈ s.postgres.jobs.rows, row.leaseExpired now = false) :
    Dichotomy worker s ⟨.cancelRunning ident, now, withToken⟩ := by
  have other : ∀ target, PairCall.cancelRunning ident ≠ .requestCancel target ∧
      PairCall.cancelRunning ident ≠ .cancel target := fun _ => ⟨nofun, nofun⟩
  have live : ∀ job, s.sqlite.jobs.find ident = some job → job.purgePending = false := by
    intro job there
    rcases row_of_job related ident with ⟨absent, -⟩ | ⟨job', row, found, -, same⟩
    · rw [absent] at there
      cases there
    · obtain rfl : job' = job := Option.some.inj (found.symm.trans there)
      exact same.live
  have settled := JobMoves.settlePurge_live live
  have left : Jobs.cancelRunning ident now s.sqlite =
      Jobs.cancelFrom .cancelRequested ident now s.sqlite := by
    unfold Jobs.cancelRunning
    rw [run_bind_ok settled]
    rfl
  rcases row_of_job related ident with ⟨absent, absent'⟩ | ⟨job, row, found, found', same⟩
  · rw [JobMoves.cancelFrom_unmatched (fun job there => by rw [absent] at there; cases there)]
      at left
    refine together (answer_of_ok left) (answer_of_ok (cancelRunning_unleased
      (unleased_of_absent absent'))) rfl related (quiet_of_other other).1
      (quiet_of_other other).2 ?_
    simp [Meets, CallMeets, eventOf, statusIn_none absent]
  · have status := statusIn_of_find found
    have fresh := unexpired row (mem_of_find found')
    by_cases requested : job.status = .cancelRequested
    · have held := held_of_status same (.inr requested)
      have right := cancelRunning_held (holds_of_same (.cancelRunning ident) withToken
        found' same held fresh) held
      rw [JobMoves.cancelFrom_matched found requested] at left
      refine together (answer_of_ok left) (answer_of_ok right) rfl ?_
        (quiet_of_other other).1 (quiet_of_other other).2 ?_
      · refine related_publish related (fun _ _ => rfl) rfl rfl rfl ?_
        intro job' row' _ same'
        exact ⟨same'.ident, rfl, same'.attempts, same'.maxAttempts, same'.runAt, same'.live,
          same'.rowLive, nofun, fun _ => rfl⟩
      · simp [Meets, CallMeets, eventOf, status, requested]
    · rw [JobMoves.cancelFrom_unmatched (fun other there => by
        rw [found] at there
        cases there
        exact requested)] at left
      by_cases running : job.status = .running
      · have held := held_of_status same (.inl running)
        have right := cancelRunning_held (holds_of_same (.cancelRunning ident) withToken
          found' same held fresh) held
        refine apart (answer_of_ok left) (answer_of_ok right)
          (.inl nofun) ?_
        simp [Meets, CallMeets, eventOf, status, running]
      · refine together (answer_of_ok left) (answer_of_ok (cancelRunning_unleased
          (unleased_of_status found' same running requested))) rfl related
          (quiet_of_other other).1 (quiet_of_other other).2 ?_
        simp [Meets, CallMeets, eventOf, status, running]

theorem step_dichotomy (related : Related worker s) (action : Action)
    (unexpired : ∀ row ∈ s.postgres.jobs.rows, row.leaseExpired action.now = false) :
    Dichotomy worker s action := by
  obtain ⟨call, now, withToken⟩ := action
  cases call with
  | enqueue ident goal runAt budget principal =>
    exact enqueue_dichotomy related ident goal runAt budget principal
  | claim token => exact claim_dichotomy related token unexpired
  | finish ident result => exact finish_dichotomy related ident result unexpired
  | fail ident error => exact fail_dichotomy related ident error unexpired
  | requestCancel ident => exact requestCancel_dichotomy related ident
  | cancel ident => exact cancel_dichotomy related ident
  | cancelRunning ident => exact cancelRunning_dichotomy related ident unexpired

end Dichotomies

/-- From related stores, agreement on a run and the condition on its calls are the same. -/
theorem agrees_iff_from (related : Related worker s) (run : List Action)
    (kept : ∀ e ∈ history (step worker) s run, LeaseKept e) :
    (∀ e ∈ history (step worker) s run, Agrees e) ↔
      ∀ e ∈ history (step worker) s run, Meets e := by
  induction run generalizing s with
  | nil => simp
  | cons action rest ih =>
    have here := step_dichotomy related action (kept _ List.mem_cons_self)
    simp only [history_cons, List.forall_mem_cons] at kept ⊢
    rcases here with ⟨next, agrees, meets⟩ | ⟨parts, excluded⟩
    · have later := ih next kept.2
      exact ⟨fun all => ⟨meets, later.mp all.2⟩, fun all => ⟨agrees, later.mpr all.2⟩⟩
    · exact ⟨fun all => absurd all.1 parts, fun all => absurd all.1 excluded⟩

/-- In every run of one worker within its lease the two stores agree throughout, and
cancelling is quiet and honest, if and only if every call meets the condition. -/
theorem stores_agree_iff (worker : Worker) (run : List Action)
    (kept : ∀ e ∈ history (step worker) start run, LeaseKept e) :
    (∀ e ∈ history (step worker) start run, Agrees e) ↔
      ∀ e ∈ history (step worker) start run, Meets e :=
  agrees_iff_from related_start run kept

/-- One worker with a lease of a minute. -/
def soleWorker : Worker := ⟨"worker", 60⟩

def goal : Goal := ⟨"goal", by decide⟩

theorem two_positive : (1 : Int) ≤ 2 := by decide

def budget : Budget := ⟨2, two_positive⟩

/-- A job that fails once and is cancelled in its second attempt. -/
def cancelledRetry : List Action :=
  [⟨.enqueue "j" goal none budget (some "ada"), 0, false⟩, ⟨.claim ⟨"t", by decide⟩, 1, false⟩,
   ⟨.fail "j" "refused", 2, true⟩, ⟨.claim ⟨"u", by decide⟩, 3, false⟩,
   ⟨.requestCancel "j", 4, false⟩, ⟨.cancelRunning "j", 5, true⟩]

theorem cancelledRetry_agrees :
    (∀ e ∈ history (step soleWorker) start cancelledRetry, Agrees e) ↔
      ∀ e ∈ history (step soleWorker) start cancelledRetry, Meets e :=
  stores_agree_iff soleWorker cancelledRetry (by
    show ∀ e ∈ history (step soleWorker) start cancelledRetry,
      ∀ row ∈ e.before.postgres.jobs.rows, row.leaseExpired e.action.now = false
    decide +kernel)

/-- A cancel request for a job that is done. -/
def cancelledLate : List Action :=
  [⟨.enqueue "j" goal none budget (some "ada"), 0, false⟩, ⟨.claim ⟨"t", by decide⟩, 1, false⟩,
   ⟨.finish "j" (.obj []), 2, true⟩, ⟨.requestCancel "j", 3, false⟩]

/-- PostgreSQL logs a second `done` event, which SQLite does not. -/
theorem cancelledLate_parts :
    ¬ ∀ (worker : Worker) (run : List Action),
      (∀ e ∈ history (step worker) start run, LeaseKept e) →
        ∀ e ∈ history (step worker) start run, Agrees e := by
  intro refines
  have agrees := refines soleWorker cancelledLate (by
    show ∀ e ∈ history (step soleWorker) start cancelledLate,
      ∀ row ∈ e.before.postgres.jobs.rows, row.leaseExpired e.action.now = false
    decide +kernel) _ (List.mem_of_getLast? rfl)
  have kinds := (agrees.view "j").2
  revert kinds
  decide +kernel

end Meemee.Guarantees.BackendRefinement
