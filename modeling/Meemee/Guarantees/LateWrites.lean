import Meemee.Guarantees.DeletionCompleteness
import Meemee.Guarantees.RunWrites

/-!
# Runs in flight while their account is deleted

Requests and workers run the agent for a principal while purgers go through the stores. A run removes
what it wrote too late in `discard_late_run` and `purge_if_deleted`; `Meets` says when it does not get
past them with something left behind.
-/
namespace Meemee.Guarantees.LateWrites
open Library Library.History Source Source.PurgeTargets Option List
open Source.AccountDeletion Source.Runs Guarantees.DeletionSteps
open Guarantees.RunWrites
open Guarantees.DeletionCompleteness (Sound Emptied executes principalOf isWrite)

inductive Role where
  | request (r : CreateRun)
  | worker (w : WorkerRun)

def Role.owner : Role → String
  | .request r => r.owner
  | .worker w => w.iteration.owner

def Role.runId : Role → String
  | .request r =>
    match r.phase with
    | .checking report | .discarding report | .adding report => report.runId
    | _ => r.runId
  | .worker w => w.runId

/-- The agent is running. -/
def Role.running : Role → Bool
  | .request r => match r.phase with | .running => true | _ => false
  | .worker w => match w.iteration.phase with | .runs => !w.deleting | _ => false

/-- The agent's run began, and the late-run check is not behind it. -/
def Role.pending : Role → Bool
  | .request r =>
    match r.phase with
    | .running | .checking _ | .discarding _ => true
    | _ => false
  | .worker w =>
    w.deleting || match w.iteration.phase with
      | .runs | .reported _ | .decides _ | .cancels _ | .finishes _ | .checks _ | .handles _
      | .fails _ | .checksFailed _ => true
      | _ => false

def Role.ended : Role → Bool
  | .request r => match r.phase with | .ended => true | _ => false
  | .worker w =>
    !w.deleting && match w.iteration.phase with
      | .ended | .escaped _ => true
      | _ => false

/-- The process died. -/
def Role.died : Role → Role
  | .request r => .request { r with phase := .ended }
  | .worker w => .worker { w with iteration := { w.iteration with phase := .ended }, deleting := false }

/-- A run, and how many memory steps its owner's deletions had had when it last added a memory. -/
structure Task where
  role : Role
  added : Option Nat

structure System (ω : Type) where
  base : DeletionCompleteness.System
  outbox : ω
  tasks : List Task
  /-- The steps that ran, with their principals. -/
  ran : List (String × StepName)

/-- What an access may depend on besides the stores. -/
structure Turn where
  runEnd : RunEnd
  work : Worker.Turn

inductive Action where
  | purger (action : DeletionCompleteness.Action)
  | request (owner runId : String) (startedAt : Instant)
  | claim (worker : PgJobs.Worker) (runId : String) (now : Instant)
  | remember (i : Nat) (remembered embedding : List Cell)
  | advance (i : Nat) (turn : Turn)
  /-- The cancellation watcher of a worker reads the job. -/
  | watch (i : Nat)
  | die (i : Nat)
  | requestCancel (ident : String) (now : Instant)

section Machine

variable {ω : Type} (targets : PurgeTargets) (runId : String → Option String)
  (enqueue : Webhooks.WebhookEvent → Instant → Txn ω Exc Nat)

def System.start (stores : Stores) (outbox : ω) : System ω :=
  ⟨DeletionCompleteness.System.start stores, outbox, [], []⟩

def System.stores (s : System ω) : Stores := s.base.deployment.stores

def System.ledger (s : System ω) : DeletionLedger := s.base.deployment.ledger

/-- A deletion of the owner is complete: a request that begins now is not in flight. -/
def System.closed (s : System ω) (owner : String) : Bool :=
  s.ledger.deletions.rows.any (fun d => decide (d.principal = owner ∧ d.status = .completed))

/-- The stores after a run's access. -/
def System.wrote (s : System ω) (stores : Stores) (tasks : List Task) : System ω :=
  { s with base := s.base.written (fun _ => stores), tasks := tasks }

def System.memorySteps (s : System ω) (owner : String) : Nat := s.ran.count (owner, .memory)

/-- The task added a memory after the last memory step of a deletion of its owner. -/
def System.late (s : System ω) (task : Task) : Bool :=
  decide ((task.role.owner, StepName.memory) ∈ s.ran ∧
    task.added = some (s.memorySteps task.role.owner))

def step (s : System ω) : Action → Unit × System ω
  | .purger action =>
    if isWrite action then ((), s)
    else ((), { s with
      base := (DeletionCompleteness.step targets runId s.base action).2
      ran := s.ran ++ executes runId s.base action })
  | .request owner ident startedAt =>
    if s.closed owner then ((), s)
    else ((), { s with tasks := s.tasks ++ [⟨.request ⟨owner, ident, startedAt, .running⟩, none⟩] })
  | .claim worker ident now =>
    match Worker.sqlite.claim worker ident (fun _ => now) s.stores.jobs with
    | (.ok (some job), jobs) =>
      ((), s.wrote { s.stores with jobs := jobs }
        (s.tasks ++ [⟨.worker ⟨Worker.start worker job, ident, false⟩, none⟩]))
    | (_, jobs) => ((), s.wrote { s.stores with jobs := jobs } s.tasks)
  | .remember i remembered embedding =>
    match s.tasks[i]? with
    | none => ((), s)
    | some task =>
      if task.role.running then
        match memoryAdd task.role.runId remembered embedding task.role.owner s.stores with
        | (.ok _, stores) =>
          ((), s.wrote stores (s.tasks.set i ⟨task.role, some (s.memorySteps task.role.owner)⟩))
        | (.error _, stores) => ((), s.wrote stores s.tasks)
      else ((), s)
  | .advance i turn =>
    match s.tasks[i]? with
    | none => ((), s)
    | some ⟨.request r, added⟩ =>
      let (phase, stores) := r.next turn.runEnd turn.work.now s.base.deployment
      ((), s.wrote stores (s.tasks.set i ⟨.request { r with phase := phase }, added⟩))
    | some ⟨.worker w, added⟩ =>
      let (w', stores, outbox) := w.next enqueue turn.work s.stores s.outbox
      ((), { s.wrote stores (s.tasks.set i ⟨.worker w', added⟩) with outbox := outbox })
  | .watch i =>
    match s.tasks[i]? with
    | some ⟨.worker w, added⟩ =>
      let iteration := w.iteration.watch Worker.sqlite s.stores.jobs
      ((), s.wrote s.stores (s.tasks.set i ⟨.worker { w with iteration := iteration }, added⟩))
    | _ => ((), s)
  | .die i =>
    match s.tasks[i]? with
    | some task => ((), s.wrote s.stores (s.tasks.set i ⟨task.role.died, task.added⟩))
    | none => ((), s)
  | .requestCancel ident now =>
    ((), s.wrote { s.stores with jobs := (Jobs.requestCancel ident now s.stores.jobs).2 } s.tasks)

/-- A request gets past `discard_late_run`: the agent raised, or no deletion is told. -/
def passesRequest (s : System ω) (r : CreateRun) (runEnd : RunEnd) : Bool :=
  match r.phase, runEnd with
  | .running, .raised => true
  | .checking _, _ => !s.ledger.deletedSince r.owner r.startedAt
  | _, _ => false

/-- A worker gets past `purge_if_deleted`: `jobs.get` still finds the job, or an exception leaves
the loop. Lost leases and leased jobs do not occur on SQLite. -/
def passesWorker (jobs : Jobs.JobStore) (it : Worker.Iteration) (now : Instant) : Bool :=
  match it.phase with
  | .checks _ | .checksFailed _ => (Worker.sqlite.row it.job.id jobs).isSome
  | .handles failure => decide (failure.catch_ ≠ .jobFailure) || it.leaseLost
  | .fails failure =>
    match (Jobs.fail it.job.id failure.text now jobs).1 with
    | .ok _ => false
    | .error _ => true
  | .reported _ => it.leaseLost
  | .cancels _ => it.leased
  | _ => false

/-- What an access of a run has to find. -/
def meetsAt (s : System ω) : Action → Bool
  | .die i => !(s.tasks[i]?).any s.late
  | .advance i turn =>
    match s.tasks[i]? with
    | none => true
    | some ⟨.request r, added⟩ =>
      match r.phase with
      | .adding _ => decide ((r.owner, StepName.runs) ∉ s.ran)
      | _ => !(passesRequest s r turn.runEnd && s.late ⟨.request r, added⟩)
    | some ⟨.worker w, added⟩ =>
      w.deleting ||
        !(passesWorker s.stores.jobs w.iteration turn.work.now && s.late ⟨.worker w, added⟩)
  | _ => true

def Meets (e : Event (System ω) Action Unit) : Prop := meetsAt e.before e.action = true

end Machine

variable {task : Task} {i : Nat}

section Invariant

variable {ω : Type} {targets : PurgeTargets} {runId : String → Option String}
  {enqueue : Webhooks.WebhookEvent → Instant → Txn ω Exc Nat} {s : System ω}

/-- A run that is still to come to its check wrote the memory after the memory step. -/
def Witnessed (s : System ω) (tasks : List Task) (r : StoredRow) : Prop :=
  ∃ task ∈ tasks, s.late task = true ∧ task.role.pending = true ∧
    ofRun task.role.owner task.role.runId r = true

structure Upheld (targets : PurgeTargets) (s : System ω) : Prop where
  sound : Sound targets s.base
  ran : ∀ mark ∈ s.base.since, ∀ principal, principalOf s.ledger mark.1 = some principal →
    (principal, mark.2) ∈ s.ran
  reports : ∀ principal, (principal, .runs) ∈ s.ran → ∀ r ∈ s.stores.tables .runs,
    r.owner ≠ some principal
  jobs : ∀ principal, (principal, .jobs) ∈ s.ran → ∀ job ∈ s.stores.jobs.jobs,
    Jobs.ownedBy principal job = false
  memories : ∀ principal, (principal, .memory) ∈ s.ran → ∀ r ∈ s.stores.tables .memories,
    r.owner = some principal → Witnessed s s.tasks r
  marked : ∀ task ∈ s.tasks, task.added ≠ none → PgJobs.blank task.role.owner = false

theorem late_owner (late : s.late task = true) :
    (task.role.owner, StepName.memory) ∈ s.ran ∧ task.added ≠ none := by
  obtain ⟨ran, added⟩ := of_decide_eq_true late
  refine ⟨ran, ?_⟩
  rw [added]
  exact some_ne_none _

theorem upheld_outbox (upheld : Upheld targets s) (outbox : ω) :
    Upheld targets { s with outbox := outbox } :=
  ⟨upheld.sound, upheld.ran, upheld.reports, upheld.jobs, upheld.memories, upheld.marked⟩

/-- What holds is kept when no purged one gains an owner, a report or a stray memory. -/
theorem upheld_wrote (upheld : Upheld targets s) {stores : Stores} {tasks : List Task}
    (reports : ∀ r ∈ stores.tables .runs, r ∈ s.stores.tables .runs ∨
      ∀ principal, r.owner = some principal → (principal, .runs) ∉ s.ran)
    (jobs : OwnersKept s.stores.jobs stores.jobs)
    (memories : ∀ r ∈ stores.tables .memories, ∀ principal, (principal, .memory) ∈ s.ran →
      r.owner = some principal → Witnessed s tasks r)
    (marked : ∀ task ∈ tasks, task.added ≠ none → PgJobs.blank task.role.owner = false) :
    Upheld targets (s.wrote stores tasks) := by
  refine ⟨DeletionCompleteness.sound_written upheld.sound (fun _ => stores), upheld.ran, ?_, ?_, ?_, marked⟩
  · intro principal purged r stored owner
    rcases reports r stored with before | free
    · exact upheld.reports principal purged r before owner
    · exact free principal owner purged
  · intro principal purged job stored
    obtain ⟨old, there, -, same⟩ := jobs job stored
    have before := upheld.jobs principal purged old there
    unfold Jobs.ownedBy at before ⊢
    rw [← same]
    exact before
  · intro principal purged r stored owner
    exact memories r stored principal purged owner

theorem witnessed_set {task' : Task} {r : StoredRow} (witnessed : Witnessed s s.tasks r)
    (found : s.tasks[i]? = some task)
    (here : s.late task = true → task.role.pending = true →
      ofRun task.role.owner task.role.runId r = true →
      s.late task' = true ∧ task'.role.pending = true ∧
        ofRun task'.role.owner task'.role.runId r = true) :
    Witnessed s (s.tasks.set i task') r := by
  obtain ⟨w, mem, late, pending, wrote⟩ := witnessed
  obtain ⟨j, at_⟩ := mem_iff_getElem?.mp mem
  by_cases same : i = j
  · subst same
    rw [found] at at_
    cases at_
    have inside : i < s.tasks.length := (List.getElem?_eq_some_iff.mp found).1
    exact ⟨task', mem_iff_getElem?.mpr ⟨i, by simp [inside]⟩, here late pending wrote⟩
  · refine ⟨w, mem_iff_getElem?.mpr ⟨j, ?_⟩, late, pending, wrote⟩
    rw [List.getElem?_set_ne same, at_]

theorem marked_set (upheld : Upheld targets s) {task' : Task}
    (given : task'.added ≠ none → PgJobs.blank task'.role.owner = false) :
    ∀ task ∈ s.tasks.set i task', task.added ≠ none → PgJobs.blank task.role.owner = false := by
  intro task mem
  rcases mem_or_eq_of_mem_set mem with before | rfl
  · exact upheld.marked task before
  · exact given

theorem upheld_purger (upheld : Upheld targets s) {action : DeletionCompleteness.Action}
    (own : isWrite action = false) :
    Upheld targets { s with
      base := (DeletionCompleteness.step targets runId s.base action).2
      ran := s.ran ++ executes runId s.base action } := by
  have sound := @DeletionCompleteness.sound_step targets runId s.base action upheld.sound
  have owners : ∀ mark ∈ s.base.since, ∀ principal,
      principalOf (DeletionCompleteness.step targets runId s.base action).2.deployment.ledger mark.1 =
        some principal → (principal, mark.2) ∈ s.ran := by
    intro mark mem principal owner
    obtain ⟨d, found⟩ := isSome_iff_exists.mp (upheld.sound.stored mark mem)
    have before : principalOf s.ledger mark.1 = some d.principal :=
      map_eq_some_iff.mpr ⟨d, found, rfl⟩
    have after := DeletionCompleteness.principal_step targets runId s.base action before
    rw [owner] at after
    cases after
    exact upheld.ran mark mem _ before
  rcases DeletionCompleteness.step_cases targets runId s.base action own with
    ⟨name, principal, now, marks, ran, executed, since, marked⟩ | ⟨ran, stores, since⟩
  · rw [ran]
    have appended : ∀ entry, entry ∈ s.ran ++ [(principal, name)] →
        entry ∈ s.ran ∨ entry = (principal, name) := by
      simp
    refine ⟨sound, ?_, ?_, ?_, ?_, upheld.marked⟩
    · intro mark mem q owner
      rw [since] at mem
      rcases mem_append.mp mem with old | new
      · exact mem_append_left _ (owners mark old q owner)
      · obtain ⟨same, before⟩ := marked mark new
        have after := DeletionCompleteness.principal_step targets runId s.base action before
        have same' : some q = some principal := owner.symm.trans after
        cases same'
        rw [same]
        exact mem_append_right _ mem_cons_self
    · intro q purged r stored owner
      rcases appended _ purged with old | new
      · exact upheld.reports q old r (executed.tables.mem stored) owner
      · cases new
        have gone := executed.tables.gone (by simp [stepTables]) stored
        rw [show ownerPath .runs = [] from rfl, Ownership.belongs_column.mpr owner] at gone
        cases gone
    · intro q purged job stored
      cases owned : Jobs.ownedBy q job with
      | false => rfl
      | true =>
        obtain ⟨before, free⟩ := DeletionCompleteness.job_before executed stored owned
        rcases appended _ purged with old | new
        · rw [upheld.jobs q old job before] at owned
          cases owned
        · cases new
          rw [free rfl] at owned
          cases owned
    · intro q purged r stored owner
      by_cases here : (q, StepName.memory) = (principal, name)
      · cases here
        have gone := executed.tables.gone (by simp [stepTables]) stored
        rw [show ownerPath .memories = [] from rfl, Ownership.belongs_column.mpr owner] at gone
        cases gone
      · have old : (q, StepName.memory) ∈ s.ran := (appended _ purged).resolve_right here
        obtain ⟨task, mem, late, pending, wrote⟩ :=
          upheld.memories q old r (executed.tables.mem stored) owner
        refine ⟨task, mem, ?_, pending, wrote⟩
        have same : task.role.owner = q := by
          have named := (of_decide_eq_true wrote).1
          rw [owner] at named
          exact (Option.some.inj named).symm
        obtain ⟨before, added⟩ := of_decide_eq_true late
        refine decide_eq_true ⟨mem_append_left _ before, ?_⟩
        rw [added, same]
        have none_ : List.count (q, StepName.memory) [(principal, name)] = 0 := by
          rw [count_eq_zero]
          simpa using here
        simp only [System.memorySteps, count_append, none_, Nat.add_zero]
  · rw [ran, append_nil]
    refine ⟨sound, ?_, ?_, ?_, ?_, upheld.marked⟩
    · intro mark mem
      rw [since] at mem
      exact owners mark mem
    · intro q purged r stored
      rw [System.stores, stores] at stored
      exact upheld.reports q purged r stored
    · intro q purged job stored
      rw [System.stores, stores] at stored
      exact upheld.jobs q purged job stored
    · intro q purged r stored
      rw [System.stores, stores] at stored
      exact upheld.memories q purged r stored

/-- A worker that does not get past `purge_if_deleted` still has it before it. -/
theorem worker_stays {w : WorkerRun} {turn : Worker.Turn} {stores : Stores} {outbox : ω}
    (live : w.deleting = false) (pending : (Role.worker w).pending = true)
    (kept : passesWorker stores.jobs w.iteration turn.now = false) :
    (Role.worker (w.next enqueue turn stores outbox).1).pending = true := by
  obtain ⟨it, ident, deleting⟩ := w
  obtain ⟨worker, job, cancel, leaseLost, phase⟩ := it
  subst live
  simp only [WorkerRun.next, Bool.false_eq_true, if_false, Worker.Iteration.advance,
    Worker.Iteration.next]
  cases phase with
  | begins | refuses | announces | readsStatus | announcesFailed | ended | escaped => cases pending
  | runs => cases turn.outcome <;> rfl
  | reported report =>
    obtain rfl : leaseLost = false := kept
    rfl
  | decides report => cases cancel <;> rfl
  | cancels k =>
    simp only [passesWorker] at kept
    rcases k with _ | _ | k
    · simp only [Worker.sqlite, List.getElem?_cons_zero]
      cases (Jobs.settlePurge job.id stores.jobs).1 with
      | error e => rfl
      | ok settled => cases settled <;> rfl
    · simp only [Worker.sqlite, List.getElem?_cons_succ, List.getElem?_cons_zero]
      cases (Jobs.cancelRequestedJob job.id turn.now stores.jobs).1 with
      | error e => rfl
      | ok settled => cases settled <;> rfl
    · simp only [kept]
      rfl
  | finishes report =>
    simp only [Worker.sqlite]
    cases (Jobs.finish job.id report.dump turn.now stores.jobs).1 <;> rfl
  | checks news =>
    simp only [passesWorker, isSome_eq_false_iff] at kept
    simp only [Role.pending, checksPurge, kept, Bool.and_true, Bool.true_or]
  | checksFailed failure =>
    simp only [passesWorker, isSome_eq_false_iff] at kept
    simp only [Role.pending, checksPurge, kept, Bool.and_true, Bool.true_or]
  | handles failure =>
    simp only [passesWorker, Bool.or_eq_false_iff, decide_eq_false_iff_not, not_not] at kept
    obtain ⟨caught, rfl⟩ := kept
    simp only [caught]
    rfl
  | fails failure =>
    simp only [passesWorker] at kept
    simp only [Worker.sqlite]
    cases failed : (Jobs.fail job.id failure.text turn.now stores.jobs).1 with
    | ok told => rfl
    | error e =>
      rw [failed] at kept
      cases kept

/-- The task at `i` moved on: its check is still to come, or its memories are gone. -/
theorem upheld_moved (upheld : Upheld targets s) (task' : Task) (stores : Stores)
    (found : s.tasks[i]? = some task) (owner : task'.role.owner = task.role.owner)
    (added : task'.added = task.added)
    (reports : ∀ r ∈ stores.tables .runs, r ∈ s.stores.tables .runs ∨
      ∀ principal, r.owner = some principal → (principal, .runs) ∉ s.ran)
    (jobs : OwnersKept s.stores.jobs stores.jobs)
    (memories : ∀ r ∈ stores.tables .memories, r ∈ s.stores.tables .memories ∧
      (s.late task = true → task.role.pending = true →
        ofRun task.role.owner task.role.runId r = true →
        task'.role.pending = true ∧ task'.role.runId = task.role.runId)) :
    Upheld targets (s.wrote stores (s.tasks.set i task')) := by
  have late : s.late task' = s.late task := by
    unfold System.late
    rw [owner, added]
  apply upheld_wrote upheld reports jobs
  · intro r stored principal purged owned
    obtain ⟨before, stays⟩ := memories r stored
    apply witnessed_set (upheld.memories principal purged r before owned) found
    intro isLate pending wrote
    obtain ⟨pending', same⟩ := stays isLate pending wrote
    rw [late, owner, same]
    exact ⟨isLate, pending', wrote⟩
  · apply marked_set upheld
    rw [added, owner]
    exact upheld.marked task (mem_of_getElem? found)

theorem upheld_unwritten (upheld : Upheld targets s) (task' : Task)
    (found : s.tasks[i]? = some task) (owner : task'.role.owner = task.role.owner)
    (added : task'.added = task.added)
    (stays : s.late task = true → task.role.pending = true →
      task'.role.pending = true ∧ task'.role.runId = task.role.runId) :
    Upheld targets (s.wrote s.stores (s.tasks.set i task')) :=
  upheld_moved upheld task' s.stores found owner added (fun _ stored => .inl stored)
    (ownersKept_refl _) (fun _ stored => ⟨stored, fun late pending _ => stays late pending⟩)

theorem upheld_request (upheld : Upheld targets s) {r : CreateRun} {added : Option Nat}
    (found : s.tasks[i]? = some ⟨.request r, added⟩) (turn : Turn)
    (meets : meetsAt s (.advance i turn) = true) :
    Upheld targets (step targets runId enqueue s (.advance i turn)).2 := by
  have given := upheld.marked _ (mem_of_getElem? found)
  obtain ⟨owner, ident, startedAt, phase⟩ := r
  have early : s.late ⟨.request ⟨owner, ident, startedAt, phase⟩, added⟩ = false →
      ∀ phase', Upheld targets (s.wrote s.stores
        (s.tasks.set i ⟨.request ⟨owner, ident, startedAt, phase'⟩, added⟩)) := by
    intro early phase'
    apply upheld_unwritten upheld ⟨.request ⟨owner, ident, startedAt, phase'⟩, added⟩ found rfl rfl
    intro late
    rw [early] at late
    cases late
  simp only [meetsAt, found] at meets
  simp only [step, found, CreateRun.next]
  cases phase with
  | running =>
    cases ends : turn.runEnd with
    | returned report =>
      exact upheld_unwritten upheld ⟨.request ⟨owner, ident, startedAt, .checking
        { report with runId := ident }⟩, added⟩ found rfl rfl (fun _ _ => ⟨rfl, rfl⟩)
    | raised =>
      simp only [ends, Bool.not_eq_true'] at meets
      exact early meets .ended
  | checking report =>
    simp only [passesRequest, System.ledger] at meets
    cases told : s.base.deployment.ledger.deletedSince owner startedAt with
    | true =>
      exact upheld_unwritten upheld ⟨.request ⟨owner, ident, startedAt, .discarding report⟩, added⟩
        found rfl rfl (fun _ _ => ⟨rfl, rfl⟩)
    | false =>
      rw [told, Bool.not_eq_true'] at meets
      exact early meets (.adding report)
  | discarding report =>
    cases blank : PgJobs.blank owner with
    | true =>
      have raised := @memoryDeleteRuns_blank s.stores owner blank [report.runId]
      have unmarked : s.late ⟨.request ⟨owner, ident, startedAt, .discarding report⟩, added⟩ =
          false := by
        rw [Bool.eq_false_iff]
        intro late
        have free : PgJobs.blank owner = false := given (late_owner late).2
        rw [blank] at free
        cases free
      simp only [System.stores] at raised
      simp only [raised]
      exact early unmarked .ended
    | false =>
      obtain ⟨frame, memories⟩ := @memoryDeleteRuns_one s.stores owner report.runId blank
      refine upheld_moved upheld ⟨.request ⟨owner, ident, startedAt, .ended⟩, added⟩ _ found rfl rfl
        ?_ ?_ ?_
      · intro row stored
        left
        rw [← frame.runs]
        exact stored
      · exact ownersKept_of_eq frame.jobs
      · intro row stored
        obtain ⟨before, other⟩ := memories row stored
        refine ⟨before, fun _ _ wrote => ?_⟩
        rw [show ofRun owner report.runId row = true from wrote] at other
        cases other
  | adding report =>
    obtain ⟨memories, jobs, reports⟩ := @runsAdd_after s.stores owner report turn.work.now
    have free := of_decide_eq_true meets
    refine upheld_moved upheld ⟨.request ⟨owner, ident, startedAt, .ended⟩, added⟩ _ found rfl rfl
      ?_ ?_ ?_
    · intro row stored
      rcases reports row stored with before | new
      · exact .inl before
      · right
        intro principal owned
        rw [new] at owned
        cases owned
        exact free
    · exact ownersKept_of_eq jobs
    · intro row stored
      refine ⟨?_, fun _ pending => ?_⟩
      · rw [← memories]
        exact stored
      · cases pending
  | ended =>
    exact upheld_unwritten upheld _ found rfl rfl (fun _ pending => ⟨pending, rfl⟩)

theorem upheld_worker (upheld : Upheld targets s) {w : WorkerRun} {added : Option Nat}
    (found : s.tasks[i]? = some ⟨.worker w, added⟩) (turn : Turn)
    (meets : meetsAt s (.advance i turn) = true) :
    Upheld targets (step targets runId enqueue s (.advance i turn)).2 := by
  have given := upheld.marked _ (mem_of_getElem? found)
  simp only [meetsAt, found] at meets
  simp only [step, found]
  apply upheld_outbox
  cases deleting : w.deleting with
  | true =>
    simp only [WorkerRun.next, deleting, if_true]
    cases blank : PgJobs.blank w.iteration.owner with
    | true =>
      rw [@memoryDeleteRuns_blank s.stores w.iteration.owner blank [w.runId]]
      apply upheld_unwritten upheld ⟨.worker { w with deleting := false }, added⟩ found rfl rfl
      intro late
      have free : PgJobs.blank w.iteration.owner = false := given (late_owner late).2
      rw [blank] at free
      cases free
    | false =>
      obtain ⟨frame, memories⟩ := @memoryDeleteRuns_one s.stores w.iteration.owner w.runId blank
      refine upheld_moved upheld ⟨.worker { w with deleting := false }, added⟩ _ found rfl rfl
        ?_ ?_ ?_
      · intro row stored
        left
        rw [← frame.runs]
        exact stored
      · exact ownersKept_of_eq frame.jobs
      · intro row stored
        obtain ⟨before, other⟩ := memories row stored
        refine ⟨before, fun _ _ wrote => ?_⟩
        rw [show ofRun w.iteration.owner w.runId row = true from wrote] at other
        cases other
  | false =>
    have stays := @worker_stays ω enqueue w turn.work s.stores s.outbox deleting
    simp only [WorkerRun.next, deleting] at stays ⊢
    refine upheld_moved upheld _ { s.stores with jobs := _ } found rfl rfl
      (fun _ stored => .inl stored) (advance_owners enqueue w.iteration turn.work _ _) ?_
    intro row stored
    refine ⟨stored, fun late pending _ => ⟨stays pending ?_, rfl⟩⟩
    rw [deleting, late, Bool.and_true, Bool.false_or, Bool.not_eq_true'] at meets
    exact meets

theorem pending_of_running {role : Role} (running : role.running = true) : role.pending = true := by
  cases role with
  | request r =>
    simp only [Role.running] at running
    cases phase : r.phase with
    | running => simp only [Role.pending, phase]
    | _ =>
      rw [phase] at running
      cases running
  | worker w =>
    simp only [Role.running] at running
    cases phase : w.iteration.phase with
    | runs => simp only [Role.pending, phase, Bool.or_true]
    | _ =>
      rw [phase] at running
      cases running

theorem upheld_remember (upheld : Upheld targets s) (i : Nat) (remembered embedding : List Cell) :
    Upheld targets (step targets runId enqueue s (.remember i remembered embedding)).2 := by
  simp only [step]
  cases found : s.tasks[i]? with
  | none => exact upheld
  | some task =>
    simp only
    cases running : task.role.running with
    | false => exact upheld
    | true =>
      rcases run : memoryAdd task.role.runId remembered embedding task.role.owner s.stores with
        ⟨result, stores⟩
      cases result with
      | error e =>
        obtain rfl := memoryAdd_raised run
        exact upheld_wrote upheld (fun _ stored => .inl stored) (ownersKept_refl _)
          (fun row stored principal purged owner => upheld.memories principal purged row stored owner)
          upheld.marked
      | ok ident =>
        obtain ⟨given, frame, memories⟩ := memoryAdd_returned run
        have pending := pending_of_running running
        have late : ∀ principal, (principal, StepName.memory) ∈ s.ran →
            principal = task.role.owner →
            s.late ⟨task.role, some (s.memorySteps task.role.owner)⟩ = true := by
          rintro principal purged rfl
          exact decide_eq_true ⟨purged, rfl⟩
        refine upheld_wrote upheld ?_ (ownersKept_of_eq frame.jobs) ?_ (marked_set upheld (fun _ => given))
        · intro row stored
          left
          rw [← frame.runs]
          exact stored
        · intro row stored principal purged owner
          rcases memories row stored with before | wrote
          · apply witnessed_set (upheld.memories principal purged row before owner) found
            intro isLate _ wrote
            refine ⟨decide_eq_true ⟨(late_owner isLate).1, rfl⟩, pending, wrote⟩
          · have same : principal = task.role.owner := by
              have named := (of_decide_eq_true wrote).1
              rw [owner] at named
              exact Option.some.inj named
            have inside : i < s.tasks.length := (List.getElem?_eq_some_iff.mp found).1
            exact ⟨⟨task.role, some (s.memorySteps task.role.owner)⟩,
              mem_iff_getElem?.mpr ⟨i, by simp [inside]⟩, late principal purged same, pending,
              wrote⟩

theorem upheld_jobs (upheld : Upheld targets s) {jobs : Jobs.JobStore} {new : List Task}
    (owners : OwnersKept s.stores.jobs jobs) (fresh : ∀ task ∈ new, task.added = none) :
    Upheld targets (s.wrote { s.stores with jobs := jobs } (s.tasks ++ new)) := by
  refine @upheld_wrote ω targets s upheld { s.stores with jobs := jobs } (s.tasks ++ new)
    (fun _ stored => .inl stored) owners ?_ ?_
  · intro row stored principal purged owner
    obtain ⟨task, mem, witness⟩ := upheld.memories principal purged row stored owner
    exact ⟨task, mem_append_left _ mem, witness⟩
  · intro task mem marked
    rcases mem_append.mp mem with before | new
    · exact upheld.marked task before marked
    · exact absurd (fresh task new) marked

theorem upheld_claim (upheld : Upheld targets s) (worker : PgJobs.Worker) (ident : String)
    (now : Instant) :
    Upheld targets (step targets runId enqueue s (.claim worker ident now)).2 := by
  have owners := claim_owners now s.stores.jobs
  have idle : ∀ jobs, OwnersKept s.stores.jobs jobs →
      Upheld targets (s.wrote { s.stores with jobs := jobs } s.tasks) := by
    intro jobs kept
    have unchanged := @upheld_jobs ω targets s upheld jobs [] kept (by simp)
    rwa [append_nil] at unchanged
  simp only [step, Worker.sqlite, Txn.run_bind]
  rcases run : Jobs.claim now s.stores.jobs with ⟨result, jobs⟩
  rw [run] at owners
  cases result with
  | error e => exact idle jobs owners
  | ok job =>
    cases job with
    | none => exact idle jobs owners
    | some job => exact upheld_jobs upheld owners (by simp)

theorem died_owner (role : Role) : role.died.owner = role.owner := by
  cases role <;> rfl

theorem upheld_step (s : System ω) (action : Action) (upheld : Upheld targets s)
    (meets : meetsAt s action = true) : Upheld targets (step targets runId enqueue s action).2 := by
  cases action with
  | purger action =>
    simp only [step]
    cases own : isWrite action with
    | true => exact upheld
    | false => exact upheld_purger upheld own
  | request owner ident startedAt =>
    simp only [step]
    cases s.closed owner with
    | true => exact upheld
    | false =>
      refine ⟨upheld.sound, upheld.ran, upheld.reports, upheld.jobs, ?_, ?_⟩
      · intro principal purged row stored owned
        obtain ⟨task, mem, witness⟩ := upheld.memories principal purged row stored owned
        exact ⟨task, mem_append_left _ mem, witness⟩
      · intro task mem marked
        rcases mem_append.mp mem with before | new
        · exact upheld.marked task before marked
        · rw [mem_singleton.mp new] at marked
          exact absurd rfl marked
  | claim worker ident now => exact upheld_claim upheld worker ident now
  | remember i remembered embedding => exact upheld_remember upheld i remembered embedding
  | advance i turn =>
    cases found : s.tasks[i]? with
    | none =>
      simp only [step, found]
      exact upheld
    | some task =>
      obtain ⟨role, added⟩ := task
      cases role with
      | request r => exact upheld_request upheld found turn meets
      | worker w => exact upheld_worker upheld found turn meets
  | watch i =>
    simp only [step]
    split
    next w added found =>
      exact upheld_unwritten upheld ⟨.worker { w with
        iteration := w.iteration.watch Worker.sqlite s.stores.jobs }, added⟩ found rfl rfl
        (fun _ pending => ⟨pending, rfl⟩)
    next => exact upheld
  | die i =>
    simp only [step]
    cases found : s.tasks[i]? with
    | none => exact upheld
    | some task =>
      simp only [meetsAt, found, any_some, Bool.not_eq_true'] at meets
      apply upheld_unwritten upheld ⟨task.role.died, task.added⟩ found (died_owner _) rfl
      intro late
      rw [meets] at late
      cases late
  | requestCancel ident now =>
    have unchanged := @upheld_jobs ω targets s upheld
      (Jobs.requestCancel ident now s.stores.jobs).2 [] requestCancel_owners (by simp)
    rw [append_nil] at unchanged
    exact unchanged

end Invariant

/-- No report, memory, job or job event is the principal's. -/
structure NothingLeft (principal : String) (s : Stores) : Prop where
  reports : ∀ r ∈ s.tables .runs, r.owner ≠ some principal
  memories : ∀ r ∈ s.tables .memories, r.owner ≠ some principal
  embeddings : ∀ r ∈ s.tables .memoryEmbeddings,
    Ownership.belongs s.tables principal [.memories] r = false
  jobs : ∀ job ∈ s.jobs.jobs, job.principal ≠ some principal
  events : ∀ e ∈ s.jobs.events.entries, ∀ job, s.jobs.jobs.find e.2.jobId = some job →
    job.principal ≠ some principal

/-- A completed deletion whose principal has no run going has left nothing. -/
def Gone {ω : Type} (s : System ω) : Prop :=
  ∀ d ∈ s.ledger.deletions, d.status = .completed →
    (∀ task ∈ s.tasks, task.role.owner = d.principal → task.role.ended = true) →
    NothingLeft d.principal s.stores

theorem pending_of_ended {role : Role} (ended : role.ended = true) : role.pending = false := by
  cases role with
  | request r =>
    simp only [Role.ended] at ended
    cases phase : r.phase with
    | ended => simp only [Role.pending, phase]
    | _ =>
      rw [phase] at ended
      cases ended
  | worker w =>
    simp only [Role.ended, Bool.and_eq_true, Bool.not_eq_true'] at ended
    obtain ⟨deleting, done⟩ := ended
    cases phase : w.iteration.phase with
    | ended => simp only [Role.pending, deleting, phase, Bool.false_or]
    | escaped failure => simp only [Role.pending, deleting, phase, Bool.false_or]
    | _ =>
      rw [phase] at done
      cases done

theorem gone_of_upheld {ω : Type} {targets : PurgeTargets} {s : System ω}
    (upheld : Upheld targets s) : Gone s := by
  intro d stored completed ended
  have ran : ∀ name ∈ stepsOf targets, (d.principal, name) ∈ s.ran := by
    intro name mem
    rcases upheld.sound.completed d stored completed name mem with waits | mark
    · cases waits
    · exact upheld.ran _ mark _ (DeletionCompleteness.principalOf_mem stored)
  have memories : ∀ r ∈ s.stores.tables .memories, r.owner ≠ some d.principal := by
    intro r mem owner
    obtain ⟨task, there, -, pending, wrote⟩ :=
      upheld.memories d.principal (ran .memory (by simp [stepsOf])) r mem owner
    have same : task.role.owner = d.principal := by
      have named := (of_decide_eq_true wrote).1
      rw [owner] at named
      exact (Option.some.inj named).symm
    rw [pending_of_ended (ended task there same)] at pending
    cases pending
  have jobs : ∀ job ∈ s.stores.jobs.jobs, job.principal ≠ some d.principal := by
    intro job mem
    exact of_decide_eq_false (upheld.jobs d.principal (ran .jobs (by simp [stepsOf])) job mem)
  refine ⟨upheld.reports d.principal (ran .runs (by simp [stepsOf])), memories, ?_, jobs, ?_⟩
  · intro r mem
    cases owned : Ownership.belongs s.stores.tables d.principal [.memories] r with
    | false => rfl
    | true =>
      obtain ⟨k, memory, -, found, owner⟩ := Ownership.belongs_through.mp owned
      exact absurd (Ownership.belongs_column.mp owner) (memories memory (Table.mem_of_find found))
  · intro e mem job found
    exact jobs job (Table.mem_of_find found)

theorem upheld_start {ω : Type} (targets : PurgeTargets) (stores : Stores) (outbox : ω) :
    Upheld targets (System.start stores outbox) := by
  refine ⟨DeletionCompleteness.sound_start stores, ?_, ?_, ?_, ?_, ?_⟩ <;>
    simp [System.start, DeletionCompleteness.System.start]

/-- In a run that always meets the condition, a completed deletion has left no report, memory, job
or job event of its principal in any state in which the principal's runs have ended. -/
theorem no_late_writes {ω : Type} (targets : PurgeTargets) (runId : String → Option String)
    (enqueue : Webhooks.WebhookEvent → Instant → Txn ω Exc Nat) (stores : Stores) (outbox : ω)
    (actions : List Action)
    (meets : ∀ e ∈ history (step targets runId enqueue) (System.start stores outbox) actions,
      Meets e) :
    (∀ e ∈ history (step targets runId enqueue) (System.start stores outbox) actions,
      Gone e.before ∧ Gone e.after) ∧
    Gone (final (step targets runId enqueue) (System.start stores outbox) actions) := by
  have held := @invariant_of_meets _ _ _ (step targets runId enqueue) (Upheld targets) Meets
    (fun s a upheld meets => upheld_step s a upheld meets) (System.start stores outbox)
    (upheld_start targets stores outbox) actions meets
  refine ⟨?_, gone_of_upheld held.2⟩
  intro e member
  obtain ⟨before, after⟩ := held.1 e member
  exact ⟨gone_of_upheld before, gone_of_upheld after⟩

instance {ω : Type} (e : Event (System ω) Action Unit) : Decidable (Meets e) :=
  inferInstanceAs (Decidable (meetsAt e.before e.action = true))

theorem evidenceOwned_empty : EvidenceOwned (fun _ => Table.empty) :=
  fun _ stored => absurd stored not_mem_nil

def noStores : Stores := ⟨fun _ => Table.empty, evidenceOwned_empty, Jobs.JobStore.empty⟩

def noEvents (_ : Webhooks.WebhookEvent) (_ : Instant) : Txn Unit Exc Nat := pure 0

def noTargets : PurgeTargets := fun _ => false

def noRunId : String → Option String := fun _ => none

def shortRun : RunReport := ⟨"", "paint", "done", 1, .arr [], .arr []⟩

def goOn : Turn := ⟨.returned shortRun, ⟨.returned ⟨[], false⟩, 3⟩⟩

/-- alice's account is deleted from beginning to end. -/
def purgeAll : List Action :=
  .purger (.purge "d" "alice" "alice" 2) :: List.replicate 9 (.purger (.advance 0 2))

/-- A run that writes after the memory step and finds the deletion. -/
def discardedRun : List Action :=
  [.request "alice" "r" 1, .remember 0 [] []] ++ purgeAll ++
    [.remember 0 [] [], .advance 0 goOn, .advance 0 goOn, .advance 0 goOn]

/-- A run that finds no deletion, and adds its report when the runs are purged. -/
def lateReport : List Action :=
  [.request "alice" "r" 1, .advance 0 goOn, .advance 0 goOn] ++ purgeAll ++ [.advance 0 goOn]

theorem discarded_run_gone :
    Gone (final (step noTargets noRunId noEvents) (System.start noStores ()) discardedRun) :=
  (no_late_writes noTargets noRunId noEvents noStores () discardedRun (by decide +kernel)).2

theorem late_report_stays : ¬ ∀ actions,
    Gone (final (step noTargets noRunId noEvents) (System.start noStores ()) actions) := by
  intro all
  have stored : (final (step noTargets noRunId noEvents) (System.start noStores ())
      lateReport).ledger.deletions.find "d" =
      some ⟨"d", "alice", "alice", .completed, 2, some 2⟩ := by
    decide +kernel
  have left := (all lateReport _ (Table.mem_of_find stored) rfl (by decide +kernel)).reports
  have kept : ((final (step noTargets noRunId noEvents) (System.start noStores ())
      lateReport).stores.tables .runs).rows.map Ownership.Row.owner = [some "alice"] := by
    decide +kernel
  have member : some "alice" ∈ ((final (step noTargets noRunId noEvents)
      (System.start noStores ()) lateReport).stores.tables .runs).rows.map Ownership.Row.owner := by
    rw [kept]
    exact mem_cons_self
  obtain ⟨r, there, owner⟩ := mem_map.mp member
  exact left r there owner

end Meemee.Guarantees.LateWrites
