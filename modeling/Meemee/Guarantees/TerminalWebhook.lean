import Mathlib.Logic.Function.Basic
import Meemee.Guarantees.StoreEffects

/-!
# Every terminal status is announced

A status change and the call of `enqueue` that announces it are separate steps, so between them the
event is owed by the process that made the change. A terminal job is announced, or its event is owed,
or a claim's reaper ended it, or a process stopped while it still owed the event.
-/
namespace Meemee.Guarantees.TerminalWebhook
open Library Library.History Source Source.Worker Guarantees.StoreEffects Function List
open Source.Jobs (JobStatus JobStore RunAt)
open Source.Webhooks (WebhookEvent)

/-- An event id and the principal it was enqueued for. -/
abbrev Announcement := String × String

/-- An outbox that keeps the calls of `enqueue` made to it. -/
abbrev Recorded (ω : Type) := ω × List Announcement

/-- `enqueue`, with the call recorded whatever comes of it. -/
def recorded {ω : Type} (enqueue : WebhookEvent → Instant → Txn ω Exc Nat) (event : WebhookEvent)
    (now : Instant) : Txn (Recorded ω) Exc Nat := fun s =>
  let (result, outbox) := enqueue event now s.1
  (result, outbox, s.2 ++ [(event.eventId, event.principal)])

structure Fleet (σ ω : Type) where
  world : World σ (Recorded ω)
  /-- The iteration that each worker is in, or was last in. -/
  workers : String → Option Iteration
  routes : String → Option CancelRequest
  /-- The job ids drawn so far. -/
  drawn : List String
  /-- The jobs that claims ended. -/
  reaped : List String

def Fleet.idle {σ ω : Type} (jobs : σ) (outbox : ω) : Fleet σ ω :=
  ⟨⟨jobs, outbox, []⟩, fun _ => none, fun _ => none, [], []⟩

inductive FleetAction where
  | enqueue (ident goal : String) (runAt : Option RunAt) (maxAttempts : Int)
      (principal : Option String) (clock : PgJobs.Clock)
  | claim (name : String) (worker : PgJobs.Worker) (token : String) (clock : PgJobs.Clock)
  | work (name : String) (turn : Turn)
  | beat (name : String) (now : Instant)
  | watch (name : String)
  | request (name ident principal : String)
  | route (name : String) (now : Instant)
  | purge (principal : String) (now : Instant)
  | sweep (staleBefore : Option Instant) (clock : PgJobs.Clock)
  | stopWorker (name : String)
  | stopRoute (name : String)

def atRest : Phase → Bool
  | .ended | .escaped _ => true
  | _ => false

def routeOver : RoutePhase → Bool
  | .ended => true
  | _ => false

section Machine

variable {σ ω : Type} (b : Backend σ) (enqueue : WebhookEvent → Instant → Txn ω Exc Nat)

def status (s : σ) (ident : String) : Option JobStatus := (b.row ident s).map (·.status)

/-- The jobs that came into a terminal status between two states. -/
def endedBetween (drawn : List String) (s t : σ) : List String :=
  drawn.filter (fun ident => (status b t ident).any JobStatus.terminal &&
    decide (status b t ident ≠ status b s ident))

def Fleet.claim (x : Fleet σ ω) (name : String) (worker : PgJobs.Worker) (token : String)
    (clock : PgJobs.Clock) : Fleet σ ω :=
  let (result, jobs) := b.claim worker token clock x.world.jobs
  let after := { x with
    world.jobs := jobs
    reaped := x.reaped ++ endedBetween b x.drawn x.world.jobs jobs }
  match result with
  | .ok (some job) =>
    { after with workers := Function.update x.workers name (some (Worker.start worker job)) }
  | _ => after

/-- A worker claims when it is in no iteration, and no id is drawn twice. -/
def step (x : Fleet σ ω) : FleetAction → Unit × Fleet σ ω
  | .enqueue ident goal runAt maxAttempts principal clock =>
    if ident ∈ x.drawn then ((), x)
    else ((), { x with
      world.jobs := (b.enqueue ident goal runAt maxAttempts principal clock x.world.jobs).2
      drawn := ident :: x.drawn })
  | .claim name worker token clock =>
    if (x.workers name).all (fun it => atRest it.phase) then ((), x.claim b name worker token clock)
    else ((), x)
  | .work name turn =>
    match x.workers name with
    | none => ((), x)
    | some it =>
      let (it, world) := it.advance b (recorded enqueue) turn x.world
      ((), { x with world, workers := Function.update x.workers name (some it) })
  | .beat name now =>
    match x.workers name with
    | none => ((), x)
    | some it =>
      let (it, jobs) := it.beat b now x.world.jobs
      ((), { x with world.jobs := jobs, workers := Function.update x.workers name (some it) })
  | .watch name =>
    match x.workers name with
    | none => ((), x)
    | some it =>
      ((), { x with workers := Function.update x.workers name (some (it.watch b x.world.jobs)) })
  | .request name ident principal =>
    if (x.routes name).all (fun r => routeOver r.phase) then
      ((), { x with routes := Function.update x.routes name (some ⟨ident, principal, .owns⟩) })
    else ((), x)
  | .route name now =>
    match x.routes name with
    | none => ((), x)
    | some request =>
      let (request, world) := request.advance b (recorded enqueue) now x.world
      ((), { x with world, routes := Function.update x.routes name (some request) })
  | .purge principal now =>
    ((), { x with world.jobs := (b.purgePrincipal principal now x.world.jobs).2 })
  | .sweep staleBefore clock =>
    ((), { x with world.jobs := (b.sweepPurges staleBefore clock x.world.jobs).2 })
  | .stopWorker name => ((), { x with workers := Function.update x.workers name none })
  | .stopRoute name => ((), { x with routes := Function.update x.routes name none })

end Machine

/-- The worker still has to announce that its job is `status`. -/
def owes (status : JobStatus) : Phase → Prop
  | .checks news | .announces news | .announcesFailed news => news.status = status
  | .checksFailed _ | .readsStatus _ => status = .failed
  | _ => False

section Debts

variable {σ ω : Type} (b : Backend σ)

/-- A terminal job's event is enqueued, owed by a process, or a claim ended it. -/
inductive Accounted (x : Fleet σ ω) (ident : String) (status : JobStatus) (principal : String) :
    Prop where
  | announced (done : (eventId ident status, principal) ∈ x.world.outbox.2)
  | reaped (ended : ident ∈ x.reaped)
  | worker (name : String) (it : Iteration) (here : x.workers name = some it)
      (job : it.job.id = ident) (owner : it.owner = principal) (owed : owes status it.phase)
  | route (name : String) (request : CancelRequest) (here : x.routes name = some request)
      (job : request.ident = ident) (owner : request.principal = principal)
      (cancelled : status = .cancelled) (owed : request.phase = .announces)

/-- A stored job with an owner is the owner's. -/
def OwnedBy (principal : String) (row : Option Row) : Prop :=
  ∀ stored, row = some stored → ∀ owner, stored.principal = some owner → owner = principal

structure WorkerOk (x : Fleet σ ω) (it : Iteration) : Prop where
  drawn : it.job.id ∈ x.drawn
  owned : OwnedBy it.owner (b.row it.job.id x.world.jobs)
  unowned : it.phase = .refuses → it.owner = ""

/-- Past the check of `get_owned`. -/
def asks : RoutePhase → Bool
  | .requests | .announces => true
  | _ => false

structure RouteOk (x : Fleet σ ω) (request : CancelRequest) : Prop where
  drawn : request.ident ∈ x.drawn
  owned : OwnedBy request.principal (b.row request.ident x.world.jobs)

structure Inv (x : Fleet σ ω) : Prop where
  stored : ∀ ident row, b.row ident x.world.jobs = some row → ident ∈ x.drawn
  workers : ∀ name it, x.workers name = some it → WorkerOk b x it
  routes : ∀ name request, x.routes name = some request → asks request.phase = true →
    RouteOk b x request
  told : ∀ ident row principal, b.row ident x.world.jobs = some row →
    row.status.terminal = true → row.principal = some principal → principal ≠ "" →
      Accounted x ident row.status principal

/-- No process stops while it owes the event of a stored job. -/
def Meets (e : Event (Fleet σ ω) FleetAction Unit) : Prop :=
  match e.action with
  | .stopWorker name => ∀ it row, e.before.workers name = some it →
      b.row it.job.id e.before.world.jobs = some row → ¬ owes row.status it.phase
  | .stopRoute name => ∀ request row, e.before.routes name = some request →
      b.row request.ident e.before.world.jobs = some row → row.status = .cancelled →
        request.phase ≠ .announces
  | _ => True

/-- No worker and no API call is in progress. -/
def Quiet (x : Fleet σ ω) : Prop :=
  (∀ name it, x.workers name = some it → atRest it.phase = true) ∧
    ∀ name request, x.routes name = some request → routeOver request.phase = true

end Debts

section Worker

variable {σ ω : Type} {b : Backend σ} (enqueue : WebhookEvent → Instant → Txn ω Exc Nat)
  (it : Iteration) (turn : Turn) (w : World σ (Recorded ω))

theorem effect_mono {settles allowed : String → JobStatus → Prop} {s t : σ}
    (effect : Effect b settles s t) (more : ∀ ident status, settles ident status →
      allowed ident status) : Effect b allowed s t := by
  intro ident row stored
  obtain ⟨first, found, evolves⟩ := effect ident row stored
  exact ⟨first, found, evolves.principal, fun terminal =>
    (evolves.terminal terminal).imp_right (more ident _)⟩

/-- A worker owes the event of a job its call ends, unless the job has no owner. -/
theorem next_effect {reaps : Prop} (lawful : Lawful b reaps) : Effect b
    (fun ident status => ident = it.job.id ∧
      (it.phase = .refuses ∨ owes status (it.next b (recorded enqueue) turn w).1))
    w.jobs (it.next b (recorded enqueue) turn w).2.jobs := by
  cases here : it.phase with
  | refuses =>
    rw [Iteration.next, here]
    exact effect_mono (lawful.fail (Prod.eta _).symm) (fun ident status settled =>
      ⟨settled.1, .inl rfl⟩)
  | cancels next =>
    rw [Iteration.next, here]
    simp only
    cases picked : (b.cancelRunning it.worker it.job.id it.job.leaseToken)[next]? with
    | none => exact effect_refl _ _ _
    | some transaction =>
      refine effect_mono
        (lawful.cancelRunning (mem_of_getElem? picked) (Prod.eta _).symm) ?_
      rintro ident status ⟨same, rfl, answered⟩
      refine ⟨same, .inr ?_⟩
      simp only [answered]
      rfl
  | finishes report =>
    rw [Iteration.next, here]
    refine effect_mono (lawful.finish (Prod.eta _).symm) ?_
    rintro ident status ⟨same, rfl, told, answered⟩
    refine ⟨same, .inr ?_⟩
    simp only [Report.dump, answered]
    rfl
  | fails failure =>
    rw [Iteration.next, here]
    refine effect_mono (lawful.fail (Prod.eta _).symm) ?_
    rintro ident status ⟨same, rfl, told, answered⟩
    refine ⟨same, .inr ?_⟩
    simp only [answered]
    rfl
  | _ =>
    simp only [Iteration.next, here]
    exact effect_refl _ _ _

theorem next_owed {row : Row} (owed : owes row.status it.phase)
    (found : b.row it.job.id w.jobs = some row) :
    (eventId it.job.id row.status, it.owner) ∈
        (it.next b (recorded enqueue) turn w).2.outbox.2 ∨
      owes row.status (it.next b (recorded enqueue) turn w).1 := by
  cases here : it.phase with
  | checks news | checksFailed failure =>
    rw [here] at owed
    simp only [Iteration.next, here, found]
    exact .inr owed
  | announces news | announcesFailed news =>
    rw [here] at owed
    have status : news.status = row.status := owed
    simp only [Iteration.next, here, ← status]
    exact .inl (mem_append_right _ mem_cons_self)
  | readsStatus failure =>
    rw [here] at owed
    have failed : row.status = .failed := owed
    simp only [Iteration.next, here, found, failed]
    exact .inr rfl
  | _ =>
    rw [here] at owed
    exact owed.elim

theorem next_log {announcement : Announcement} (before : announcement ∈ w.outbox.2) :
    announcement ∈ (it.next b (recorded enqueue) turn w).2.outbox.2 := by
  cases here : it.phase with
  | announces news | announcesFailed news =>
    simp only [Iteration.next, here]
    exact mem_append_left _ before
  | cancels next =>
    simp only [Iteration.next, here]
    cases (b.cancelRunning it.worker it.job.id it.job.leaseToken)[next]? <;> exact before
  | _ =>
    simp only [Iteration.next, here]
    exact before

theorem next_refuses (owned : it.owner ≠ "") :
    (it.next b (recorded enqueue) turn w).1 ≠ .refuses := by
  have called : ∀ {α : Type} {onward : α → Phase} {caught : Exc → Phase},
      (∀ a, onward a ≠ .refuses) → (∀ e, caught e ≠ .refuses) → ∀ result : Except Exc α,
        afterCall onward caught result ≠ .refuses := by
    intro α onward caught returned raised result
    cases result with
    | ok a => exact returned a
    | error e => exact raised e
  cases here : it.phase with
  | begins =>
    simp only [Iteration.next, here, if_neg owned]
    nofun
  | runs =>
    simp only [Iteration.next, here]
    cases turn.outcome <;> nofun
  | reported | decides | checks | checksFailed =>
    simp only [Iteration.next, here]
    split <;> nofun
  | cancels next =>
    simp only [Iteration.next, here]
    cases (b.cancelRunning it.worker it.job.id it.job.leaseToken)[next]? with
    | none =>
      simp only
      split <;> nofun
    | some transaction =>
      refine called (fun settled => ?_) (fun e => ?_) _
      · cases settled <;> nofun
      · nofun
  | refuses | finishes | announces | announcesFailed =>
    simp only [Iteration.next, here]
    refine called (fun _ => ?_) (fun _ => ?_) _ <;> nofun
  | handles failure =>
    simp only [Iteration.next, here]
    cases failure.catch_ with
    | jobFailure =>
      simp only
      split <;> nofun
    | _ => nofun
  | fails failure =>
    simp only [Iteration.next, here]
    refine called (fun _ => ?_) (fun e => ?_) _
    · nofun
    · split <;> nofun
  | readsStatus failure =>
    simp only [Iteration.next, here]
    cases b.row it.job.id w.jobs with
    | none => nofun
    | some row =>
      simp only
      split <;> nofun
  | ended | escaped =>
    simp only [Iteration.next, here]
    nofun

end Worker

section Route

variable {σ ω : Type} {b : Backend σ} (enqueue : WebhookEvent → Instant → Txn ω Exc Nat)
  (request : CancelRequest) (now : Instant) (w : World σ (Recorded ω))

theorem route_effect {reaps : Prop} (lawful : Lawful b reaps) : Effect b
    (fun ident status => ident = request.ident ∧ status = .cancelled ∧
      (request.next b (recorded enqueue) now w).1 = .announces)
    w.jobs (request.next b (recorded enqueue) now w).2.jobs := by
  cases here : request.phase with
  | requests =>
    rw [CancelRequest.next, here]
    refine effect_mono (lawful.requestCancel (Prod.eta _).symm) ?_
    rintro ident status ⟨same, rfl, answered⟩
    refine ⟨same, rfl, ?_⟩
    simp only [answered]
  | _ =>
    rw [CancelRequest.next, here]
    exact effect_refl _ _ _

theorem route_owed (owed : request.phase = .announces) :
    (eventId request.ident .cancelled, request.principal) ∈
      (request.next b (recorded enqueue) now w).2.outbox.2 := by
  rw [CancelRequest.next, owed]
  exact mem_append_right _ mem_cons_self

theorem route_log {announcement : Announcement} (before : announcement ∈ w.outbox.2) :
    announcement ∈ (request.next b (recorded enqueue) now w).2.outbox.2 := by
  cases here : request.phase with
  | announces =>
    rw [CancelRequest.next, here]
    exact mem_append_left _ before
  | _ =>
    rw [CancelRequest.next, here]
    exact before

theorem route_asks (next : asks (request.next b (recorded enqueue) now w).1 = true) :
    asks request.phase = true ∨ (request.next b (recorded enqueue) now w).2.jobs = w.jobs ∧
      ∃ row, b.row request.ident w.jobs = some row ∧ row.principal = some request.principal := by
  cases here : request.phase with
  | owns =>
    refine .inr ?_
    rw [CancelRequest.next, here] at next ⊢
    refine ⟨rfl, ?_⟩
    cases owned : (b.row request.ident w.jobs).filter
        (fun row => decide (row.principal = some request.principal)) with
    | none =>
      rw [owned] at next
      cases next
    | some row =>
      obtain ⟨found, same⟩ := Option.filter_eq_some_iff.mp owned
      exact ⟨row, found, of_decide_eq_true same⟩
  | requests | announces => exact .inl rfl
  | ended =>
    rw [CancelRequest.next, here] at next
    cases next

end Route

variable {principal ident name other : String} {it : Iteration} {run : List FleetAction}

section Invariant

variable {σ ω : Type} {b : Backend σ} {x y : Fleet σ ω}

variable {settles : JobStatus → Prop}

theorem ownedBy_follows {before after : Option Row}
    (follows : Follows settles before after) (owned : OwnedBy principal before) :
    OwnedBy principal after := by
  intro row stored owner same
  obtain ⟨first, found, evolves⟩ := follows row stored
  rcases evolves.principal with kept | gone
  · exact owned first found owner (by rw [← kept, same])
  · rw [gone] at same
    cases same

theorem workerOk_follows (drawn : ∀ ident ∈ x.drawn, ident ∈ y.drawn)
    (follows : Follows settles (b.row it.job.id x.world.jobs) (b.row it.job.id y.world.jobs))
    (ok : WorkerOk b x it) : WorkerOk b y it :=
  ⟨drawn _ ok.drawn, ownedBy_follows follows ok.owned, ok.unowned⟩

theorem routeOk_follows {request : CancelRequest}
    (drawn : ∀ ident ∈ x.drawn, ident ∈ y.drawn)
    (follows : Follows settles (b.row request.ident x.world.jobs)
      (b.row request.ident y.world.jobs))
    (ok : RouteOk b x request) : RouteOk b y request :=
  ⟨drawn _ ok.drawn, ownedBy_follows follows ok.owned⟩

theorem accounted_mono {status : JobStatus}
    (log : ∀ announcement ∈ x.world.outbox.2, announcement ∈ y.world.outbox.2)
    (reaped : ∀ ident ∈ x.reaped, ident ∈ y.reaped)
    (workers : ∀ name it, x.workers name = some it → it.job.id = ident → it.owner = principal →
      owes status it.phase → Accounted y ident status principal)
    (routes : ∀ name request, x.routes name = some request → request.ident = ident →
      request.principal = principal → status = .cancelled → request.phase = .announces →
        Accounted y ident status principal) (before : Accounted x ident status principal) :
    Accounted y ident status principal := by
  cases before with
  | announced done => exact .announced (log _ done)
  | reaped ended => exact .reaped (reaped _ ended)
  | worker name it here job owner owed => exact workers name it here job owner owed
  | route name request here job owner cancelled owed =>
    exact routes name request here job owner cancelled owed

theorem accounted_same {status : JobStatus} (log : y.world.outbox = x.world.outbox)
    (workers : y.workers = x.workers) (routes : y.routes = x.routes)
    (reaped : ∀ ident ∈ x.reaped, ident ∈ y.reaped) (before : Accounted x ident status principal) :
    Accounted y ident status principal := by
  refine accounted_mono (by rw [log]; exact fun _ mem => mem) reaped ?_ ?_ before
  · intro name it here job owner owed
    exact .worker name it (by rw [workers]; exact here) job owner owed
  · intro name request here job owner cancelled owed
    exact .route name request (by rw [routes]; exact here) job owner cancelled owed

/-- The rule for a step that draws no id: its rows, its processes, its accounts. -/
theorem inv_of_effect (settles : String → JobStatus → Prop) (inv : Inv b x)
    (effect : Effect b settles x.world.jobs y.world.jobs) (drawn : y.drawn = x.drawn)
    (workers : ∀ name it, y.workers name = some it → x.workers name = some it ∨ WorkerOk b y it)
    (routes : ∀ name request, y.routes name = some request →
      x.routes name = some request ∨ (asks request.phase = true → RouteOk b y request))
    (kept : ∀ ident row principal, b.row ident x.world.jobs = some row →
      Accounted x ident row.status principal → Accounted y ident row.status principal)
    (settled : ∀ ident row principal, settles ident row.status →
      b.row ident y.world.jobs = some row → row.status.terminal = true →
        row.principal = some principal → principal ≠ "" →
          Accounted y ident row.status principal) : Inv b y := by
  have same : ∀ ident ∈ x.drawn, ident ∈ y.drawn := by
    intro ident mem
    rw [drawn]
    exact mem
  refine ⟨?_, ?_, ?_, ?_⟩
  · intro ident row stored
    obtain ⟨first, found, -⟩ := effect ident row stored
    exact same _ (inv.stored ident first found)
  · intro name it here
    rcases workers name it here with before | ok
    · exact workerOk_follows same (effect _) (inv.workers name it before)
    · exact ok
  · intro name request here asked
    rcases routes name request here with before | ok
    · exact routeOk_follows same (effect _) (inv.routes name request before asked)
    · exact ok asked
  · intro ident row principal stored terminal owner owned
    obtain ⟨first, found, evolves⟩ := effect ident row stored
    rcases evolves.terminal terminal with unchanged | reached
    · have before : first.principal = some principal := by
        rcases evolves.principal with alike | gone
        · rw [← alike, owner]
        · rw [gone] at owner
          cases owner
      have account := inv.told ident first principal found (by rw [← unchanged]; exact terminal)
        before owned
      rw [unchanged]
      exact kept ident first principal found account
    · exact settled ident row principal reached stored terminal owner owned

end Invariant

section Steps

variable {σ ω : Type} {b : Backend σ} {reaps : Prop}
  {enqueue : WebhookEvent → Instant → Txn ω Exc Nat} {x : Fleet σ ω}

theorem update_some {α : Type} {f : String → Option α} {new found : α}
    (stored : Function.update f name (some new) other = some found) :
    (other = name ∧ found = new) ∨ (other ≠ name ∧ f other = some found) := by
  by_cases here : other = name
  · subst here
    rw [update_self] at stored
    exact .inl ⟨rfl, (Option.some.inj stored).symm⟩
  · rw [update_of_ne here] at stored
    exact .inr ⟨here, stored⟩

theorem update_none {α : Type} {f : String → Option α} {name other : String} {found : α}
    (stored : Function.update f name none other = some found) :
    other ≠ name ∧ f other = some found := by
  by_cases here : other = name
  · subst here
    rw [update_self] at stored
    cases stored
  · rw [update_of_ne here] at stored
    exact ⟨here, stored⟩

theorem jobs_inv {t : σ} (inv : Inv b x) (effect : Effect b nothing x.world.jobs t) :
    Inv b { x with world.jobs := t } := by
  refine inv_of_effect _ inv effect rfl (fun name it here => .inl here)
    (fun name request here => .inl here) ?_ (fun ident row principal never => never.elim)
  intro ident row principal stored account
  exact accounted_same (x := x) rfl rfl rfl (fun _ mem => mem) account

theorem enqueue_inv {goal : String} {runAt : Option RunAt} {maxAttempts : Int}
    {principal : Option String} {clock : PgJobs.Clock} {t : σ} {answer : Except Exc String}
    (lawful : Lawful b reaps) (inv : Inv b x) (fresh : ident ∉ x.drawn)
    (run : b.enqueue ident goal runAt maxAttempts principal clock x.world.jobs = (answer, t)) :
    Inv b { x with world.jobs := t, drawn := ident :: x.drawn } := by
  have rows := lawful.enqueue run
  have others : ∀ other ∈ x.drawn, b.row other t = b.row other x.world.jobs := by
    intro other mem
    rcases rows other with same | ⟨rfl, -⟩
    · exact same
    · exact absurd mem fresh
  have kept : ∀ other ∈ x.drawn, Follows (nothing other) (b.row other x.world.jobs)
      (b.row other t) := by
    intro other mem
    rw [others other mem]
    exact follows_refl _
  refine ⟨?_, ?_, ?_, ?_⟩
  · intro other row stored
    rcases rows other with same | ⟨rfl, -⟩
    · exact mem_cons_of_mem _ (inv.stored other row (same ▸ stored))
    · exact mem_cons_self
  · intro name it here
    have ok := inv.workers name it here
    exact workerOk_follows (fun _ => mem_cons_of_mem _) (kept _ ok.drawn) ok
  · intro name request here asked
    have ok := inv.routes name request here asked
    exact routeOk_follows (fun _ => mem_cons_of_mem _) (kept _ ok.drawn) ok
  · intro other row owner stored terminal same owned
    rcases rows other with unchanged | ⟨rfl, queued⟩
    · have account := inv.told other row owner (unchanged ▸ stored) terminal same owned
      exact accounted_same (x := x) rfl rfl rfl (fun _ mem => mem) account
    · rw [show b.row other _ = _ from queued] at stored
      cases stored
      cases terminal

theorem atRest_owes {phase : Phase} {status : JobStatus} (ended : atRest phase = true) :
    ¬ owes status phase := by
  cases phase with
  | ended | escaped => exact id
  | _ => cases ended

/-- A worker that claims owes nothing; the jobs its claim ends are on record. -/
theorem claim_inv {worker : PgJobs.Worker} {token : String} {clock : PgJobs.Clock}
    (lawful : Lawful b reaps) (inv : Inv b x)
    (idle : (x.workers name).all (fun it => atRest it.phase) = true) :
    Inv b (x.claim b name worker token clock) := by
  unfold Fleet.claim
  cases run : b.claim worker token clock x.world.jobs with
  | mk answer t =>
    have effect : Effect b (fun ident _ => ident ∈ x.reaped ++
        endedBetween b x.drawn x.world.jobs t) x.world.jobs t := by
      intro ident row stored
      obtain ⟨first, found, evolves⟩ := lawful.claim run ident row stored
      refine ⟨first, found, evolves.principal, fun terminal => ?_⟩
      by_cases same : row.status = first.status
      · exact .inl same
      · refine .inr (mem_append_right _
          (mem_filter.mpr ⟨inv.stored ident first found, ?_⟩))
        simp [status, stored, found, terminal, same]
    simp only
    split
    next job =>
      obtain ⟨row, stored, owner⟩ := lawful.claimed run
      refine inv_of_effect _ inv effect rfl ?_ (fun name request here => .inl here) ?_
        (fun ident row principal ended _ _ _ _ => .reaped ended)
      · intro other it here
        rcases update_some here with ⟨rfl, rfl⟩ | ⟨-, before⟩
        · obtain ⟨first, found, -⟩ := lawful.claim run job.id row stored
          refine .inr ⟨inv.stored job.id first found, ?_, nofun⟩
          intro same there principal owned
          rw [show b.row (Worker.start worker job).job.id t = some row from stored] at there
          cases there
          rw [owner] at owned
          rw [Iteration.owner, Worker.start, owned]
          rfl
        · exact .inl before
      · intro ident row principal found account
        refine accounted_mono (x := x) (fun _ mem => mem) (fun _ => mem_append_left _) ?_
          (fun name request here job owner cancelled owed =>
            .route name request here job owner cancelled owed) account
        intro other it here job_ owner_ owed
        have elsewhere : other ≠ name := by
          rintro rfl
          rw [here] at idle
          exact atRest_owes idle owed
        exact .worker other it ((update_of_ne elsewhere _ _).trans here) job_ owner_ owed
    next =>
      refine inv_of_effect _ inv effect rfl (fun other it here => .inl here)
        (fun name request here => .inl here) ?_
        (fun ident row principal ended _ _ _ _ => .reaped ended)
      intro ident row principal found account
      exact accounted_same (x := x) rfl rfl rfl (fun _ => mem_append_left _) account

theorem accounted_worker {y : Fleet σ ω} {status : JobStatus} (new : Option Iteration)
    (here : x.workers name = some it) (workers : y.workers = Function.update x.workers name new)
    (routes : y.routes = x.routes)
    (log : ∀ announcement ∈ x.world.outbox.2, announcement ∈ y.world.outbox.2)
    (reaped : y.reaped = x.reaped)
    (paid : it.job.id = ident → it.owner = principal → owes status it.phase →
      Accounted y ident status principal) (before : Accounted x ident status principal) :
    Accounted y ident status principal := by
  refine accounted_mono log (by rw [reaped]; exact fun _ mem => mem) ?_ ?_ before
  · intro other it' there job owner owed
    by_cases same : other = name
    · subst same
      rw [here] at there
      cases there
      exact paid job owner owed
    · exact .worker other it' (by rw [workers, update_of_ne same]; exact there) job owner
        owed
  · intro other request there job owner cancelled owed
    exact .route other request (by rw [routes]; exact there) job owner cancelled owed

theorem accounted_route {y : Fleet σ ω} {status : JobStatus} (new : Option CancelRequest)
    (workers : y.workers = x.workers) (routes : y.routes = Function.update x.routes name new)
    (log : ∀ announcement ∈ x.world.outbox.2, announcement ∈ y.world.outbox.2)
    (reaped : y.reaped = x.reaped)
    (paid : ∀ request, x.routes name = some request → request.ident = ident →
      request.principal = principal → status = .cancelled → request.phase = .announces →
        Accounted y ident status principal) (before : Accounted x ident status principal) :
    Accounted y ident status principal := by
  refine accounted_mono log (by rw [reaped]; exact fun _ mem => mem) ?_ ?_ before
  · intro other it there job owner owed
    exact .worker other it (by rw [workers]; exact there) job owner owed
  · intro other request there job owner cancelled owed
    by_cases same : other = name
    · subst same
      exact paid request there job owner cancelled owed
    · exact .route other request (by rw [routes, update_of_ne same]; exact there) job owner
        cancelled owed

theorem work_inv (turn : Turn) (lawful : Lawful b reaps) (inv : Inv b x)
    (here : x.workers name = some it) :
    Inv b { x with
      world := (it.advance b (recorded enqueue) turn x.world).2
      workers := Function.update x.workers name
        (some (it.advance b (recorded enqueue) turn x.world).1) } := by
  have effect := next_effect enqueue it turn x.world lawful
  have ok := inv.workers name it here
  refine inv_of_effect _ inv effect rfl ?_ (fun other request there => .inl there) ?_ ?_
  · intro other it' there
    rcases update_some there with ⟨-, rfl⟩ | ⟨-, before⟩
    · refine .inr ⟨ok.drawn, ownedBy_follows (effect it.job.id) ok.owned, ?_⟩
      intro refuses
      by_cases unowned : it.owner = ""
      · exact unowned
      · exact absurd refuses (next_refuses enqueue it turn x.world unowned)
    · exact .inl before
  · intro ident row principal found account
    refine accounted_worker (x := x) _ here rfl rfl (fun _ mem => next_log enqueue it turn x.world mem)
      rfl ?_ account
    rintro rfl rfl owed
    rcases next_owed enqueue it turn x.world owed found with paid | still
    · exact .announced paid
    · exact .worker name _ (update_self ..) rfl rfl still
  · intro ident row principal settled stored _ owner owned
    obtain ⟨rfl, refused | owed⟩ := settled
    · have same := ownedBy_follows (effect it.job.id) ok.owned row stored principal owner
      rw [ok.unowned refused] at same
      exact absurd same owned
    · have same := ownedBy_follows (effect it.job.id) ok.owned row stored principal owner
      exact .worker name _ (update_self ..) rfl same.symm owed

/-- The watcher touches nothing but the flags of the iteration and the lease. -/
theorem watcher_inv {new : Iteration} {t : σ} (inv : Inv b x) (here : x.workers name = some it)
    (effect : Effect b nothing x.world.jobs t) (job : new.job = it.job)
    (phase : new.phase = it.phase) :
    Inv b { x with world.jobs := t, workers := Function.update x.workers name (some new) } := by
  have ok := inv.workers name it here
  have owner : new.owner = it.owner := by rw [Iteration.owner, job, Iteration.owner]
  refine inv_of_effect _ inv effect rfl ?_ (fun other request there => .inl there) ?_
    (fun ident row principal never => never.elim)
  · intro other it' there
    rcases update_some there with ⟨-, rfl⟩ | ⟨-, before⟩
    · refine .inr ⟨by rw [job]; exact ok.drawn, ?_, ?_⟩
      · rw [owner, job]
        exact ownedBy_follows (effect it.job.id) ok.owned
      · rw [phase, owner]
        exact ok.unowned
    · exact .inl before
  · intro ident row principal found account
    refine accounted_worker (x := x) _ here rfl rfl (fun _ mem => mem) rfl ?_ account
    rintro rfl rfl owed
    exact .worker name new (update_self ..) (by rw [job]) owner (by rw [phase]; exact owed)

theorem beat_effect (lawful : Lawful b reaps) (it : Iteration) (now : Instant) (s : σ) :
    Effect b nothing s (it.beat b now s).2 ∧ (it.beat b now s).1.job = it.job ∧
      (it.beat b now s).1.phase = it.phase := by
  unfold Iteration.beat
  cases it.job.leaseToken.filter (fun t => decide (t ≠ "")) with
  | none => exact ⟨effect_refl _ _ _, rfl, rfl⟩
  | some token =>
    simp only
    split
    next t same => exact ⟨lawful.heartbeat same, rfl, rfl⟩
    next t same => exact ⟨lawful.heartbeat same, rfl, rfl⟩

theorem request_inv (ident principal : String) (inv : Inv b x)
    (idle : (x.routes name).all (fun r => routeOver r.phase) = true) :
    Inv b { x with routes := Function.update x.routes name (some ⟨ident, principal, .owns⟩) } := by
  refine inv_of_effect nothing inv (effect_refl _ _ _) rfl (fun _ _ there => .inl there)
    ?_ ?_ (fun ident row principal never => never.elim)
  · intro other request there
    rcases update_some there with ⟨-, rfl⟩ | ⟨-, before⟩
    · exact .inr nofun
    · exact .inl before
  · intro job row owner found account
    refine accounted_route (x := x) _ rfl rfl (fun _ mem => mem) rfl ?_ account
    intro request there _ _ _ owed
    rw [there] at idle
    have ended : routeOver request.phase = true := idle
    rw [owed] at ended
    cases ended

theorem route_inv {request : CancelRequest} (now : Instant) (lawful : Lawful b reaps)
    (inv : Inv b x) (here : x.routes name = some request) :
    Inv b { x with
      world := (request.advance b (recorded enqueue) now x.world).2
      routes := Function.update x.routes name
        (some (request.advance b (recorded enqueue) now x.world).1) } := by
  have effect := route_effect enqueue request now x.world lawful
  have ok : asks (request.next b (recorded enqueue) now x.world).1 = true →
      request.ident ∈ x.drawn ∧ OwnedBy request.principal
        (b.row request.ident (request.next b (recorded enqueue) now x.world).2.jobs) := by
    intro asked
    rcases route_asks enqueue request now x.world asked with before | ⟨same, row, found, owner⟩
    · have ok := inv.routes name request here before
      exact ⟨ok.drawn, ownedBy_follows (effect request.ident) ok.owned⟩
    · refine ⟨inv.stored _ row found, ?_⟩
      rw [same]
      intro stored there principal owned
      rw [found] at there
      cases there
      rw [owner] at owned
      exact (Option.some.inj owned).symm
  refine inv_of_effect _ inv effect rfl (fun other it there => .inl there) ?_ ?_ ?_
  · intro other request' there
    rcases update_some there with ⟨-, rfl⟩ | ⟨-, before⟩
    · exact .inr (fun asked => ⟨(ok asked).1, (ok asked).2⟩)
    · exact .inl before
  · intro ident row principal found account
    refine accounted_route (x := x) _ rfl rfl (fun _ mem => route_log enqueue request now x.world mem)
      rfl ?_ account
    intro request' there job owner cancelled owed
    rw [here] at there
    cases there
    subst job owner
    rw [cancelled]
    exact .announced (route_owed enqueue request now x.world owed)
  · intro ident row principal settled stored _ owner _
    obtain ⟨rfl, cancelled, owed⟩ := settled
    have asked : asks (request.next b (recorded enqueue) now x.world).1 = true := by
      rw [owed]
      rfl
    exact .route name _ (update_self ..) rfl
      ((ok asked).2 row stored principal owner).symm cancelled owed

theorem stopWorker_inv (inv : Inv b x)
    (paid : ∀ it row, x.workers name = some it → b.row it.job.id x.world.jobs = some row →
      ¬ owes row.status it.phase) :
    Inv b { x with workers := Function.update x.workers name none } := by
  refine inv_of_effect nothing inv (effect_refl _ _ _) rfl
    (fun _ _ there => .inl (update_none there).2) (fun _ _ there => .inl there) ?_
    (fun ident row principal never => never.elim)
  intro ident row principal found account
  refine accounted_mono (x := x) (fun _ mem => mem) (fun _ mem => mem) ?_
    (fun other request there job owner cancelled owed =>
      .route other request there job owner cancelled owed) account
  rintro other it there rfl rfl owed
  have elsewhere : other ≠ name := by
    rintro rfl
    exact paid it row there found owed
  exact .worker other it ((update_of_ne elsewhere _ _).trans there) rfl rfl owed

theorem stopRoute_inv (inv : Inv b x)
    (paid : ∀ request row, x.routes name = some request →
      b.row request.ident x.world.jobs = some row → row.status = .cancelled →
        request.phase ≠ .announces) :
    Inv b { x with routes := Function.update x.routes name none } := by
  refine inv_of_effect nothing inv (effect_refl _ _ _) rfl (fun _ _ there => .inl there)
    (fun _ _ there => .inl (update_none there).2) ?_ (fun ident row principal never => never.elim)
  intro ident row principal found account
  refine accounted_route (x := x) none rfl rfl (fun _ mem => mem) rfl ?_ account
  intro request there job _ cancelled owed
  subst job
  exact absurd owed (paid request row there found cancelled)

theorem step_inv (lawful : Lawful b reaps) (x : Fleet σ ω) (action : FleetAction) (inv : Inv b x)
    (meets : Meets b ⟨x, action, (step b enqueue x action).1, (step b enqueue x action).2⟩) :
    Inv b (step b enqueue x action).2 := by
  cases action with
  | enqueue ident goal runAt maxAttempts principal clock =>
    simp only [step]
    split
    next => exact inv
    next fresh => exact enqueue_inv lawful inv fresh (Prod.eta _).symm
  | claim name worker token clock =>
    simp only [step]
    split
    next idle => exact claim_inv lawful inv idle
    next => exact inv
  | work name turn =>
    simp only [step]
    cases here : x.workers name with
    | none => exact inv
    | some it => exact work_inv turn lawful inv here
  | beat name now =>
    simp only [step]
    cases here : x.workers name with
    | none => exact inv
    | some it =>
      obtain ⟨effect, job, phase⟩ := beat_effect lawful it now x.world.jobs
      exact watcher_inv inv here effect job phase
  | watch name =>
    simp only [step]
    cases here : x.workers name with
    | none => exact inv
    | some it => exact watcher_inv inv here (effect_refl _ _ _) rfl rfl
  | request name ident principal =>
    simp only [step]
    split
    next idle => exact request_inv ident principal inv idle
    next => exact inv
  | route name now =>
    simp only [step]
    cases here : x.routes name with
    | none => exact inv
    | some request => exact route_inv now lawful inv here
  | purge principal now => exact jobs_inv inv (lawful.purgePrincipal (Prod.eta _).symm)
  | sweep staleBefore clock => exact jobs_inv inv (lawful.sweepPurges (Prod.eta _).symm)
  | stopWorker name => exact stopWorker_inv inv meets
  | stopRoute name => exact stopRoute_inv inv meets

theorem idle_inv {jobs : σ} (outbox : ω) (empty : ∀ ident, b.row ident jobs = none) :
    Inv b (Fleet.idle jobs outbox) := by
  have unstored : ∀ ident row, b.row ident (Fleet.idle jobs outbox).world.jobs ≠ some row := by
    intro ident row stored
    rw [Fleet.idle, empty ident] at stored
    cases stored
  refine ⟨?_, ?_, ?_, ?_⟩
  · intro ident row stored
    exact absurd stored (unstored ident row)
  · intro name it here
    cases here
  · intro name request here
    cases here
  · intro ident row principal stored
    exact absurd stored (unstored ident row)

theorem quiet_accounted {status : JobStatus} (quiet : Quiet x)
    (account : Accounted x ident status principal) :
    (eventId ident status, principal) ∈ x.world.outbox.2 ∨ ident ∈ x.reaped := by
  cases account with
  | announced done => exact .inl done
  | reaped ended => exact .inr ended
  | worker name it here _ _ owed => exact absurd owed (atRest_owes (quiet.1 name it here))
  | route name request here _ _ _ owed =>
    have ended := quiet.2 name request here
    rw [owed] at ended
    cases ended

theorem sqlite_reaps_nothing {x : Fleet JobStore ω} (action : FleetAction) (none : x.reaped = []) :
    (step sqlite enqueue x action).2.reaped = [] := by
  cases action with
  | claim name worker token clock =>
    simp only [step]
    split
    next =>
      unfold Fleet.claim
      cases run : sqlite.claim worker token clock x.world.jobs with
      | mk answer t =>
        have unended : endedBetween sqlite x.drawn x.world.jobs t = [] := by
          refine filter_eq_nil_iff.mpr (fun ident _ reached => ?_)
          obtain ⟨terminal, changed⟩ := Bool.and_eq_true_iff.mp reached
          obtain ⟨reached, same, terminal⟩ := (Option.any_eq_true _ _).mp terminal
          obtain ⟨row, stored, rfl⟩ := Option.map_eq_some_iff.mp same
          obtain ⟨first, found, evolves⟩ := Sqlite.lawful.claim run ident row stored
          rcases evolves.terminal terminal with kept | never
          · exact of_decide_eq_true changed (by
              simp only [status, stored, found, Option.map_some, kept])
          · exact never
        have unreaped : x.reaped ++ endedBetween sqlite x.drawn x.world.jobs t = [] := by
          rw [none, unended]
          rfl
        simp only
        split <;> exact unreaped
    next => exact none
  | enqueue =>
    simp only [step]
    split <;> exact none
  | work name turn | beat name now | watch name =>
    simp only [step]
    cases x.workers name <;> exact none
  | request name ident principal =>
    simp only [step]
    split <;> exact none
  | route name now =>
    simp only [step]
    cases x.routes name <;> exact none
  | purge | sweep | stopWorker | stopRoute => exact none

end Steps

section Runs

variable {σ ω : Type}

/-- The event of every owned terminal job was enqueued, but for those in `except_`. -/
def Announced (b : Backend σ) (x : Fleet σ ω) (except_ : List String) : Prop :=
  ∀ ident row principal, b.row ident x.world.jobs = some row → row.status.terminal = true →
    row.principal = some principal → principal ≠ "" → ident ∉ except_ →
      (eventId ident row.status, principal) ∈ x.world.outbox.2

theorem quiet_announced {b : Backend σ} {enqueue : WebhookEvent → Instant → Txn ω Exc Nat}
    {reaps : Prop} (lawful : Lawful b reaps) {jobs : σ} (outbox : ω)
    (empty : ∀ ident, b.row ident jobs = none) (run : List FleetAction)
    (meets : ∀ e ∈ history (step b enqueue) (Fleet.idle jobs outbox) run, Meets b e)
    (quiet : Quiet (final (step b enqueue) (Fleet.idle jobs outbox) run)) :
    Announced b (final (step b enqueue) (Fleet.idle jobs outbox) run)
      (final (step b enqueue) (Fleet.idle jobs outbox) run).reaped := by
  have inv := (invariant_of_meets (Meets b) (step_inv lawful) (idle_inv outbox empty) meets).2
  intro ident row principal stored terminal owner owned unreaped
  have account := inv.told ident row principal stored terminal owner owned
  exact (quiet_accounted quiet account).resolve_right unreaped

/-- Over both job stores: when no worker and no API call is in progress, the event of
every terminal job has been enqueued for its principal, unless a process stopped while it
owed the event or, on PostgreSQL, the reaper ended the job. -/
theorem terminal_announced (enqueue : WebhookEvent → Instant → Txn ω Exc Nat) (outbox : ω)
    (run : List FleetAction) :
    ((∀ e ∈ history (step sqlite enqueue) (Fleet.idle JobStore.empty outbox) run,
        Meets sqlite e) →
      Quiet (final (step sqlite enqueue) (Fleet.idle JobStore.empty outbox) run) →
        Announced sqlite (final (step sqlite enqueue) (Fleet.idle JobStore.empty outbox) run) []) ∧
      ((∀ e ∈ history (step postgres enqueue) (Fleet.idle PgJobs.PgStore.empty outbox) run,
          Meets postgres e) →
        Quiet (final (step postgres enqueue) (Fleet.idle PgJobs.PgStore.empty outbox) run) →
          Announced postgres
            (final (step postgres enqueue) (Fleet.idle PgJobs.PgStore.empty outbox) run)
            (final (step postgres enqueue) (Fleet.idle PgJobs.PgStore.empty outbox) run).reaped) := by
  refine ⟨?_, ?_⟩
  · intro meets quiet
    have announced := quiet_announced Sqlite.lawful outbox (fun _ => rfl) run meets quiet
    have unreaped : (final (step sqlite enqueue) (Fleet.idle JobStore.empty outbox) run).reaped =
        [] := @final_invariant _ _ _ (step sqlite enqueue) (fun x => x.reaped = [])
      (fun x action none => sqlite_reaps_nothing action none) _ rfl run
    rw [unreaped] at announced
    exact announced
  · intro meets quiet
    exact quiet_announced Postgres.lawful outbox (fun _ => rfl) run meets quiet

end Runs

/-- The worker that takes part in an action. -/
def FleetAction.worker : FleetAction → Option String
  | .claim name _ _ _ | .work name _ | .beat name _ | .watch name | .stopWorker name => some name
  | _ => none

def FleetAction.concernsRoutes : FleetAction → Bool
  | .request _ _ _ | .route _ _ | .stopRoute _ => true
  | _ => false

section Frames

variable {σ ω : Type} {b : Backend σ} {enqueue : WebhookEvent → Instant → Txn ω Exc Nat}

theorem claim_elsewhere (x : Fleet σ ω) (elsewhere : other ≠ name) (worker : PgJobs.Worker)
    (token : String) (clock : PgJobs.Clock) :
    (x.claim b name worker token clock).workers other = x.workers other := by
  simp only [Fleet.claim]
  split
  · exact update_of_ne elsewhere _ _
  · rfl

/-- A worker is touched by its own actions only, and cancel requests by theirs. -/
theorem step_elsewhere (x : Fleet σ ω) (action : FleetAction)
    (elsewhere : action.worker ≠ some other) :
    (step b enqueue x action).2.workers other = x.workers other := by
  have apart : ∀ name, some name ≠ some other → other ≠ name := by
    rintro name different rfl
    exact different rfl
  cases action with
  | enqueue | request =>
    simp only [step]
    split <;> rfl
  | claim name worker token clock =>
    simp only [step]
    split
    · exact claim_elsewhere x (apart name elsewhere) worker token clock
    · rfl
  | work name turn | beat name now | watch name =>
    simp only [step]
    cases x.workers name with
    | none => rfl
    | some it => exact update_of_ne (apart name elsewhere) _ _
  | route name now =>
    simp only [step]
    cases x.routes name <;> rfl
  | stopWorker name => exact update_of_ne (apart name elsewhere) _ _
  | purge | sweep | stopRoute => rfl

theorem step_routes (x : Fleet σ ω) (action : FleetAction)
    (elsewhere : action.concernsRoutes = false) :
    (step b enqueue x action).2.routes = x.routes := by
  cases action with
  | enqueue =>
    simp only [step]
    split <;> rfl
  | claim name worker token clock =>
    simp only [step, Fleet.claim]
    split
    · split <;> rfl
    · rfl
  | work name turn | beat name now | watch name =>
    simp only [step]
    cases x.workers name <;> rfl
  | request | route | stopRoute => cases elsewhere
  | purge | sweep | stopWorker => rfl

theorem final_elsewhere (elsewhere : ∀ action ∈ run, action.worker ≠ some other) (x : Fleet σ ω) :
    (final (step b enqueue) x run).workers other = x.workers other := by
  induction run generalizing x with
  | nil => rfl
  | cons action rest ih =>
    rw [final_cons, ih (fun later mem => elsewhere later (mem_cons_of_mem _ mem)),
      step_elsewhere x action (elsewhere action mem_cons_self)]

theorem final_routes (elsewhere : ∀ action ∈ run, action.concernsRoutes = false) (x : Fleet σ ω) :
    (final (step b enqueue) x run).routes = x.routes := by
  induction run generalizing x with
  | nil => rfl
  | cons action rest ih =>
    rw [final_cons, ih (fun later mem => elsewhere later (mem_cons_of_mem _ mem)),
      step_routes x action (elsewhere action mem_cons_self)]

theorem quiet_of_one (name : String) {jobs : σ} {outbox : ω}
    (alone : ∀ action ∈ run, action.worker = none ∨ action.worker = some name)
    (unasked : ∀ action ∈ run, action.concernsRoutes = false)
    (idle : ((final (step b enqueue) (Fleet.idle jobs outbox) run).workers name).all
      (fun it => atRest it.phase) = true) :
    Quiet (final (step b enqueue) (Fleet.idle jobs outbox) run) := by
  refine ⟨?_, ?_⟩
  · intro other it here
    by_cases same : other = name
    · subst same
      rw [here] at idle
      exact idle
    · rw [final_elsewhere ?_] at here
      · cases here
      · intro action mem own
        rcases alone action mem with neither | this
        · rw [neither] at own
          cases own
        · rw [this] at own
          exact same (Option.some.inj own).symm
  · intro other request here
    rw [final_routes unasked] at here
    cases here

end Frames

/-- A worker claims a job and takes some turns, in which the run returns. -/
def working (turns : Nat) : List FleetAction :=
  [.enqueue "j" "goal" none 2 (some "ada") (fun _ => 0), .claim "w" ⟨"w", 60⟩ "t" (fun _ => 1)] ++
    List.replicate turns (.work "w" ⟨.returned ⟨[], false⟩, 2⟩)

def mailer : WebhookEvent → Instant → Txn Webhooks.Outbox Exc Nat := Webhooks.enqueue 65536

def afterRun (run : List FleetAction) : Fleet JobStore Webhooks.Outbox :=
  final (step sqlite mailer) (Fleet.idle JobStore.empty Webhooks.Outbox.empty) run

/-- The worker goes through its iteration, and the event is enqueued. -/
theorem finished_announced : Announced sqlite (afterRun (working 7)) [] := by
  have quiet : Quiet (afterRun (working 7)) := by
    refine quiet_of_one "w" ?_ (by decide) (by decide +kernel)
    intro action member
    simp only [working, mem_append, mem_cons, mem_replicate, not_mem_nil,
      or_false] at member
    rcases member with (rfl | rfl) | ⟨-, rfl⟩ <;> first | exact Or.inl rfl | exact Or.inr rfl
  refine (terminal_announced mailer Webhooks.Outbox.empty (working 7)).1 ?_ quiet
  intro e member
  have action := action_of_mem member
  simp only [working, mem_append, mem_cons, mem_replicate, not_mem_nil,
    or_false] at action
  rcases action with (same | same) | ⟨-, same⟩ <;> simp [Meets, same]

/-- The worker stops between `finish` and `enqueue`: the job is done and nobody is told. -/
theorem stopped_unannounced :
    ¬ ∀ run, Quiet (afterRun run) → Announced sqlite (afterRun run) [] := by
  intro announced
  have quiet : Quiet (afterRun (working 5 ++ [.stopWorker "w"])) := by
    refine quiet_of_one "w" ?_ (by decide) (by decide +kernel)
    intro action member
    simp only [working, mem_append, mem_cons, mem_replicate, not_mem_nil,
      or_false] at member
    rcases member with ((rfl | rfl) | ⟨-, rfl⟩) | rfl <;>
      first | exact Or.inl rfl | exact Or.inr rfl
  have told := announced _ quiet "j" ⟨.done, some "ada", false⟩ "ada" (by decide +kernel) rfl rfl
    (by decide) (by decide)
  revert told
  decide +kernel

end Meemee.Guarantees.TerminalWebhook
