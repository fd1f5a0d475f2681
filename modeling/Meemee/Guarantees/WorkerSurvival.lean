import Meemee.Guarantees.JobMoves
import Meemee.Guarantees.JsonText
import Meemee.Source.Worker

/-!
# One iteration of the worker loop

A worker on SQLite, with its cancellation watcher, while anyone calls `request_cancel` and
`purge_principal` between its store calls. The handler of the loop calls the store again, and what that
raises leaves the loop: `Meets` says for each step what keeps it from doing so.
-/
namespace Meemee.Guarantees.WorkerSurvival
open Library Library.History Source Source.Jobs Source.Webhooks Library.Table Option
open Source.Worker Guarantees.JobMoves Guarantees.JsonText

structure Scene where
  world : World JobStore Outbox
  it : Iteration

/-- The row of the claimed job. -/
def Scene.row (x : Scene) : Option Job := x.world.jobs.jobs.find x.it.job.id

inductive Action where
  /-- The worker goes on. What its run raises is of `JOB_FAILURE_CLASSES`. -/
  | work (turn : Turn) (foreseen : ∀ f, turn.outcome = .raised f → f.catch_ ≠ .uncaught)
  /-- The watcher reads the job. -/
  | watch
  | requestCancel (ident : String) (now : Instant)
  | purgePrincipal (principal : String) (now : Instant)

/-- `limit` is `webhook_max_payload_bytes`. -/
def step (limit : Nat) (x : Scene) : Action → Unit × Scene
  | .work turn _ =>
    let (it, world) := x.it.advance sqlite (enqueue limit) turn x.world
    ((), ⟨world, it⟩)
  | .watch => ((), { x with it := x.it.watch sqlite x.world.jobs })
  | .requestCancel ident now =>
    ((), { x with world.jobs := (requestCancel ident now x.world.jobs).2 })
  | .purgePrincipal principal now =>
    ((), { x with world.jobs := (purgePrincipal principal now x.world.jobs).2 })

/-- The iteration is over. -/
def Scene.over (x : Scene) : Bool :=
  match x.it.phase with
  | .ended | .escaped _ => true
  | _ => false

def Scene.escaped (x : Scene) : Bool :=
  match x.it.phase with
  | .escaped _ => true
  | _ => false

/-- No exception escaped, and the job is not left `running` or `cancel_requested`. -/
def Survived (x : Scene) : Prop :=
  x.escaped = false ∧ ∀ job, x.row = some job → job.held = false

def CallMeets (limit : Nat) (x : Scene) (turn : Turn) : Prop :=
  match x.it.phase with
  | .runs => ∀ failure, turn.outcome = .raised failure → failure.catch_ = .jobFailure
  | .finishes report => ∀ job, x.row = some job → job.status = .running → job.purgePending = false →
      ∃ text, Json.dumps {} report.dump = .ok text ∧
        x.world.jobs.takes (job.finished text none turn.now)
          ⟨x.it.job.id, .done, .result report.dump, turn.now⟩ = true
  | .fails failure => ∃ job, x.row = some job ∧ (job.purgePending = true ∨
      job.status = .running ∧ ∃ text, failure.text = .text text ∧
        x.world.jobs.takes (job.failed (some text) turn.now)
          ⟨x.it.job.id, job.failedKind, .error (some text), turn.now⟩ = true)
  | .readsStatus _ => x.row ≠ none
  | .announcesFailed news => ∃ text, (news.event x.it.job.id x.it.owner).checked limit = .ok text
  | _ => True

/-- What the worker's calls have to find. The calls of the others may come at any time. -/
def Meets (limit : Nat) (e : Event Scene Action Unit) : Prop :=
  match e.action with
  | .work turn _ => CallMeets limit e.before turn
  | _ => True

/-- In the worker's hands. -/
def Held (row : Option Job) : Prop := ∃ job, row = some job ∧ job.held = true

def Requested (row : Option Job) : Prop := ∃ job, row = some job ∧ job.status = .cancelRequested

def Released (row : Option Job) : Prop := ∀ job, row = some job → job.held = false

theorem requested_held {row : Option Job} (requested : Requested row) : Held row := by
  obtain ⟨job, stored, status⟩ := requested
  exact ⟨job, stored, decide_eq_true (.inr status)⟩

theorem held_not_released {row : Option Job} (held : Held row) : ¬ Released row := by
  obtain ⟨job, stored, held⟩ := held
  intro released
  rw [released job stored] at held
  cases held

variable {job : Job} {report : Report} {news : News} {limit : Nat} {x : Scene} {turn : Turn}

theorem released_some (released : job.held = false) : Released (some job) := by
  intro other same
  cases same
  exact released

theorem released_none : Released none := by
  intro job stored
  cases stored

theorem released_of_status (status : JobStatus) (same : job.status = status)
    (idle : status ≠ .running ∧ status ≠ .cancelRequested) : Released (some job) := by
  subst same
  exact released_some (decide_eq_false (fun held => held.elim idle.1 idle.2))

/-- What `request_cancel` and `purge_principal` can do to a row. -/
inductive Disturbed : Option Job → Option Job → Prop where
  | same (row : Option Job) : Disturbed row row
  | cancelled (job : Job) (now : Instant) (queued : job.status = .queued) :
      Disturbed (some job) (some (job.cancelAt .cancelled now))
  | requested (job : Job) (now : Instant) (running : job.status = .running) :
      Disturbed (some job) (some (job.cancelAt .cancelRequested now))
  | tombstoned (job : Job) (now : Instant) (held : job.held = true) :
      Disturbed (some job) (some (job.tombstoned now))
  | dropped (job : Job) (released : job.held = false) : Disturbed (some job) none

theorem requestCancel_disturbs (ident other : String) (now : Instant) (s : JobStore) :
    Disturbed (s.jobs.find other) ((requestCancel ident now s).2.jobs.find other) := by
  cases found : s.jobs.find ident with
  | none =>
    rw [requestCancel_unknown found]
    exact .same _
  | some job =>
    by_cases queued : job.status = .queued
    · rw [requestCancel_queued found queued]
      simp only [publish, find_update_key]
      by_cases here : other = ident
      · subst here
        rw [if_pos rfl, found]
        exact .cancelled job now queued
      · rw [if_neg here]
        exact .same _
    · by_cases running : job.status = .running
      · rw [requestCancel_running found running]
        simp only [publish, find_update_key]
        by_cases here : other = ident
        · subst here
          rw [if_pos rfl, found]
          exact .requested job now running
        · rw [if_neg here]
          exact .same _
      · rw [requestCancel_settled found queued running]
        exact .same _

theorem purge_disturbs (principal other : String) (now : Instant) (s : JobStore) :
    Disturbed (s.jobs.find other) ((purgePrincipal principal now s).2.jobs.find other) := by
  cases run : purgePrincipal principal now s with
  | mk result t =>
    cases result with
    | error e =>
      obtain rfl := Txn.raisesClean_require_bind (Txn.raisesClean_atomically _) _ _ _ run
      exact .same _
    | ok counts =>
      obtain rfl := purgePrincipal_returned run
      simp only [JobStore.drop, tombstoneHeld, find_delete, find_update]
      cases s.jobs.find other with
      | none => exact .same _
      | some job =>
        have kept : ownedBy principal (job.tombstoned now) = false := rfl
        cases owned : ownedBy principal job with
        | false =>
          simp only [map_some, owned, Bool.false_and, Bool.false_eq_true, if_false,
            filter_some]
          exact .same _
        | true =>
          cases held : job.held with
          | true =>
            simp only [map_some, owned, held]
            exact .tombstoned job now held
          | false =>
            simp only [map_some, owned, held, Bool.and_false, Bool.false_eq_true, if_false,
              filter_some]
            exact .dropped job held

section Disturbed

variable {before after : Option Job}

theorem disturbed_held (disturbed : Disturbed before after) (held : Held before) : Held after := by
  obtain ⟨job, stored, held⟩ := held
  cases disturbed with
  | same => exact ⟨job, stored, held⟩
  | cancelled job' now queued =>
    cases stored
    rw [Job.held, decide_eq_true_eq, queued] at held
    rcases held with running | requested
    · cases running
    · cases requested
  | requested job' now => exact ⟨_, rfl, rfl⟩
  | tombstoned job' now => exact ⟨_, rfl, rfl⟩
  | dropped job' released =>
    cases stored
    rw [released] at held
    cases held

theorem disturbed_requested (disturbed : Disturbed before after) (requested : Requested before) :
    Requested after := by
  have held := requested_held requested
  obtain ⟨job, stored, status⟩ := requested
  cases disturbed with
  | same => exact ⟨job, stored, status⟩
  | cancelled job' now queued =>
    cases stored
    rw [queued] at status
    cases status
  | requested job' now => exact ⟨_, rfl, rfl⟩
  | tombstoned job' now => exact ⟨_, rfl, rfl⟩
  | dropped job' released => exact absurd (released_some released) (held_not_released held)

theorem disturbed_released (disturbed : Disturbed before after) (released : Released before) :
    Released after := by
  cases disturbed with
  | same => exact released
  | cancelled job now => exact released_of_status .cancelled rfl (by decide)
  | requested job now running =>
    have held := released job rfl
    rw [Job.held, decide_eq_false_iff_not] at held
    exact absurd (.inl running) held
  | tombstoned job now held => exact absurd released (held_not_released ⟨job, rfl, held⟩)
  | dropped => exact released_none

theorem disturbed_none (disturbed : Disturbed before after) (absent : before = none) :
    after = none := by
  subst absent
  cases disturbed
  rfl

end Disturbed

/-- What holds of the row at each point of an iteration that will be survived. -/
def PhaseSound (cancel : Bool) (row : Option Job) : Phase → Prop
  | .begins | .runs | .reported _ | .decides _ => Held row ∧ (cancel = true → Requested row)
  | .finishes _ => Held row
  | .cancels next => next ≤ 1 ∧ Requested row
  | .checks news => Released row ∧ (row = none ∨ fieldsEncodable {} news.payload = true)
  | .announces news => Released row ∧ fieldsEncodable {} news.payload = true
  | .handles failure | .fails failure => failure.catch_ = .jobFailure
  | .checksFailed _ | .readsStatus _ | .announcesFailed _ | .ended => Released row
  | .refuses | .escaped _ => False

/-- What holds once the iteration cannot be survived. -/
def PhaseDoomed (row : Option Job) : Phase → Prop
  | .handles failure => failure.catch_ = .uncaught ∨ failure.catch_ = .leaseLost ∧ Held row
  | .escaped _ => True
  | .ended => Held row
  | _ => False

/-- The job has an owner, and without leases none is ever lost. -/
structure Claims (it : Iteration) : Prop where
  owned : it.owner ≠ ""
  leaseKept : it.leaseLost = false

def Sound (x : Scene) : Prop := Claims x.it ∧ PhaseSound x.it.cancel x.row x.it.phase

def Doomed (x : Scene) : Prop := Claims x.it ∧ PhaseDoomed x.row x.it.phase

variable {before after : Option Job} {phase : Phase} {s : JobStore} {ident : String}
  {failure : Failure} {bound : Nat}

theorem disturbed_sound {cancel : Bool} (disturbed : Disturbed before after)
    (sound : PhaseSound cancel before phase) : PhaseSound cancel after phase := by
  cases phase with
  | begins | runs | reported | decides =>
    exact sound.imp (disturbed_held disturbed) (fun asked flag =>
      disturbed_requested disturbed (asked flag))
  | finishes => exact disturbed_held disturbed sound
  | cancels => exact sound.imp_right (disturbed_requested disturbed)
  | checks => exact sound.imp (disturbed_released disturbed) (.imp_left (disturbed_none disturbed))
  | announces => exact sound.imp_left (disturbed_released disturbed)
  | handles | fails => exact sound
  | checksFailed | readsStatus | announcesFailed | ended => exact disturbed_released disturbed sound
  | refuses | escaped => exact sound

theorem disturbed_doomed (disturbed : Disturbed before after) (doomed : PhaseDoomed before phase) :
    PhaseDoomed after phase := by
  cases phase with
  | handles => exact doomed.imp_right (And.imp_right (disturbed_held disturbed))
  | escaped => trivial
  | ended => exact disturbed_held disturbed doomed
  | _ => exact doomed

theorem settlePurge_cases (ident : String) (s : JobStore) :
    (∃ t, settlePurge ident s = (.ok true, t) ∧ t.jobs.find ident = none) ∨
      settlePurge ident s = (.ok false, s) := by
  by_cases tombstone : ∃ job, s.jobs.find ident = some job ∧ job.purgePending = true
  · obtain ⟨job, found, pending⟩ := tombstone
    have matched := s.jobs.select_keyed ident Job.purgePending
    rw [found, filter_some, if_pos pending] at matched
    refine .inl ⟨s.drop (fun j => decide (j.id = ident) && j.purgePending), ?_, ?_⟩
    · unfold settlePurge
      rw [Txn.run_bind_read, matched]
      rfl
    · simp [JobStore.drop, find_delete, found, pending,
        key_of_find found]
  · refine .inr (settlePurge_live (fun job found => ?_))
    exact Bool.eq_false_iff.mpr (fun pending => tombstone ⟨job, found, pending⟩)

theorem find_dropOne (s : JobStore) (ident : String) :
    (s.drop (fun j => decide (j.id = ident))).jobs.find ident = none := by
  simp only [JobStore.drop, find_delete]
  cases found : s.jobs.find ident with
  | none => rfl
  | some job => simp [key_of_find found]

theorem find_published {f : Job → Job} {keeps : ∀ j, (f j).id = j.id} {event : JobEvent}
    (found : s.jobs.find ident = some job) :
    (publish s ident f keeps event).jobs.find ident = some (f job) := by
  rw [publish, find_update_key, if_pos rfl, found, map_some]

section Calls

variable {it : Iteration} {limit : Nat} {turn : Turn} {w : World JobStore Outbox}

/-- Where a call of the worker leads. -/
def Leads (limit : Nat) (it : Iteration) (turn : Turn) (w : World JobStore Outbox)
    (P : Option Job → Phase → Prop) : Prop :=
  let (phase, after) := it.next sqlite (enqueue limit) turn w
  P (after.jobs.jobs.find it.job.id) phase

/-- A pending cancellation is settled by the second transaction at the latest. -/
theorem cancels_sound {next : Nat} (here : it.phase = .cancels next) (within : next ≤ 1)
    (requested : Requested (w.jobs.jobs.find it.job.id)) :
    Leads limit it turn w (PhaseSound it.cancel) := by
  simp only [Leads, Iteration.next, here]
  have news : fieldsEncodable {} (cancelledNews it.job.id).payload = true := rfl
  rcases Nat.le_one_iff_eq_zero_or_eq_one.mp within with rfl | rfl
  · have first : (sqlite.cancelRunning it.worker it.job.id it.job.leaseToken)[0]? =
        some (fun _ => settlePurge it.job.id) := rfl
    simp only [first]
    rcases settlePurge_cases it.job.id w.jobs with ⟨t, done, gone⟩ | kept
    · rw [done]
      exact ⟨by rw [gone]; exact released_none, .inl gone⟩
    · rw [kept]
      exact ⟨Nat.le_refl 1, requested⟩
  · have second : (sqlite.cancelRunning it.worker it.job.id it.job.leaseToken)[1]? =
        some (cancelRequestedJob it.job.id) := rfl
    simp only [second]
    obtain ⟨job, found, status⟩ := requested
    rw [cancelRequestedJob, cancelFrom_matched found status]
    refine ⟨?_, .inr news⟩
    rw [find_published found]
    exact released_of_status .cancelled rfl (by decide)

theorem doneNews_encodable {text : String} (encoded : Json.dumps {} report.dump = .ok text) :
    fieldsEncodable {} (doneNews ident report).payload = true := by
  have answers := dumps_answers {} report.dump
  rw [encoded] at answers
  simp only [doneNews, fieldsEncodable, Bool.and_true]
  exact answers

theorem finishes_sound (here : it.phase = .finishes report)
    (held : Held (w.jobs.jobs.find it.job.id)) (meets : CallMeets limit ⟨w, it⟩ turn) :
    Leads limit it turn w (PhaseSound it.cancel) := by
  simp only [CallMeets, here] at meets
  simp only [Leads, Iteration.next, here]
  show PhaseSound _ ((finish it.job.id report.dump turn.now w.jobs).2.jobs.find it.job.id)
    (afterCall _ _ (finish it.job.id report.dump turn.now w.jobs).1)
  obtain ⟨job, found, -⟩ := held
  cases purged : job.purgePending with
  | true =>
    rw [finish, publishTerminal_purged _ _ found purged]
    exact ⟨by rw [find_dropOne]; exact released_none, .inl (find_dropOne _ _)⟩
  | false =>
    by_cases running : job.status = .running
    · obtain ⟨text, encoded, fits⟩ := meets job found running purged
      rw [finish_written found purged running rfl encoded, if_pos fits]
      refine ⟨?_, .inr (doneNews_encodable encoded)⟩
      rw [find_published found]
      exact released_of_status .done rfl (by decide)
    · rw [finish, publishTerminal_idle _ _ found purged running]
      rfl

theorem finishes_broken (here : it.phase = .finishes report)
    (broken : ¬ CallMeets limit ⟨w, it⟩ turn) : Leads limit it turn w PhaseDoomed := by
  simp only [CallMeets, here, not_forall] at broken
  obtain ⟨job, found, running, live, unwritten⟩ := broken
  simp only [Leads, Iteration.next, here]
  show PhaseDoomed ((finish it.job.id report.dump turn.now w.jobs).2.jobs.find it.job.id)
    (afterCall _ _ (finish it.job.id report.dump turn.now w.jobs).1)
  cases written : Json.dumps {} report.dump with
  | ok text =>
    rw [finish_written found live running rfl written, if_neg (fun fits =>
      unwritten ⟨text, written, fits⟩)]
    exact .inl rfl
  | error e =>
    obtain ⟨text, rfl⟩ := dumps_plain_error written
    have refused : finish it.job.id report.dump turn.now w.jobs = _ :=
      publishTerminal_unwritten found live running written
    rw [refused]
    exact .inl rfl

theorem fails_sound (here : it.phase = .fails failure) (meets : CallMeets limit ⟨w, it⟩ turn) :
    Leads limit it turn w (PhaseSound it.cancel) := by
  simp only [CallMeets, here] at meets
  simp only [Leads, Iteration.next, here]
  show PhaseSound _ ((fail it.job.id failure.text turn.now w.jobs).2.jobs.find it.job.id)
    (afterCall _ _ (fail it.job.id failure.text turn.now w.jobs).1)
  obtain ⟨job, found, fit⟩ := meets
  cases purged : job.purgePending with
  | true =>
    rw [fail, publishTerminal_purged _ _ found purged]
    rw [find_dropOne]
    exact released_none
  | false =>
    obtain ⟨running, text, plain, fits⟩ := fit.resolve_left (by simp [purged])
    rw [plain, fail_written found purged running, if_pos fits]
    rw [find_published found]
    refine released_of_status job.failedStatus rfl ?_
    unfold Job.failedStatus
    split <;> decide

theorem fails_broken (here : it.phase = .fails failure) (broken : ¬ CallMeets limit ⟨w, it⟩ turn) :
    Leads limit it turn w PhaseDoomed := by
  simp only [CallMeets, here] at broken
  simp only [Leads, Iteration.next, here]
  show PhaseDoomed ((fail it.job.id failure.text turn.now w.jobs).2.jobs.find it.job.id)
    (afterCall _ _ (fail it.job.id failure.text turn.now w.jobs).1)
  cases found : w.jobs.jobs.find it.job.id with
  | none =>
    rw [fail, publishTerminal_unknown _ _ found]
    trivial
  | some job =>
    have live : job.purgePending = false :=
      Bool.eq_false_iff.mpr (fun pending => broken ⟨job, found, .inl pending⟩)
    by_cases running : job.status = .running
    · cases said : failure.text with
      | unencodable =>
        rw [fail, publishTerminal_unbound found live running (by simp) rfl]
        trivial
      | text text =>
        rw [fail_written found live running, if_neg (fun fits =>
          broken ⟨job, found, .inr ⟨running, text, said, fits⟩⟩)]
        trivial
    · rw [fail, publishTerminal_idle _ _ found live running]
      trivial

theorem announces_sound (here : it.phase = .announces news)
    (released : Released (w.jobs.jobs.find it.job.id))
    (plain : fieldsEncodable {} news.payload = true) :
    Leads limit it turn w (PhaseSound it.cancel) := by
  simp only [Leads, Iteration.next, here]
  cases checked : (news.event it.job.id it.owner).checked limit with
  | ok text =>
    obtain ⟨count, t, done⟩ := enqueue_returns checked turn.now w.outbox
    rw [done]
    exact released
  | error e =>
    obtain ⟨text, rfl⟩ := checked_error plain checked
    rw [enqueue_raises checked]
    rfl

theorem announcesFailed_sound (here : it.phase = .announcesFailed news)
    (released : Released (w.jobs.jobs.find it.job.id)) (meets : CallMeets limit ⟨w, it⟩ turn) :
    Leads limit it turn w (PhaseSound it.cancel) := by
  simp only [CallMeets, here] at meets
  obtain ⟨text, checked⟩ := meets
  obtain ⟨count, t, done⟩ := enqueue_returns checked turn.now w.outbox
  simp only [Leads, Iteration.next, here]
  rw [done]
  exact released

theorem announcesFailed_broken (here : it.phase = .announcesFailed news)
    (broken : ¬ CallMeets limit ⟨w, it⟩ turn) : Leads limit it turn w PhaseDoomed := by
  simp only [CallMeets, here] at broken
  simp only [Leads, Iteration.next, here]
  cases checked : (news.event it.job.id it.owner).checked limit with
  | ok text => exact absurd ⟨text, checked⟩ broken
  | error e =>
    rw [enqueue_raises checked]
    trivial

end Calls

theorem work_sound (sound : Sound x) (meets : CallMeets limit x turn) :
    Leads limit x.it turn x.world (PhaseSound x.it.cancel) := by
  obtain ⟨w, it⟩ := x
  obtain ⟨⟨owned, leaseKept⟩, sound⟩ := sound
  have leaseKept : it.leaseLost = false := leaseKept
  cases here : it.phase with
  | begins =>
    rw [here] at sound
    simp only [Leads, Iteration.next, here, if_neg owned]
    exact sound
  | runs =>
    rw [here] at sound
    simp only [CallMeets, here] at meets
    simp only [Leads, Iteration.next, here]
    cases ended : turn.outcome with
    | returned report => exact sound
    | raised failure => exact meets failure ended
  | reported report =>
    rw [here] at sound
    simp only [Leads, Iteration.next, here, leaseKept]
    exact sound
  | decides report =>
    rw [here] at sound
    simp only [Leads, Iteration.next, here]
    cases flag : it.cancel with
    | true => exact ⟨Nat.zero_le 1, sound.2 flag⟩
    | false => exact sound.1
  | cancels next =>
    rw [here] at sound
    exact cancels_sound here sound.1 sound.2
  | finishes report =>
    rw [here] at sound
    exact finishes_sound here sound meets
  | checks news =>
    rw [here] at sound
    simp only [Leads, Iteration.next, here]
    cases found : w.jobs.jobs.find it.job.id with
    | none =>
      simp only [sqlite, found]
      exact released_none
    | some job =>
      simp only [sqlite, found]
      simp only [Scene.row, found] at sound
      exact ⟨sound.1, sound.2.resolve_left (fun impossible => by cases impossible)⟩
  | announces news =>
    rw [here] at sound
    exact announces_sound here sound.1 sound.2
  | handles failure =>
    rw [here] at sound
    have caught : failure.catch_ = .jobFailure := sound
    simp only [Leads, Iteration.next, here, caught, leaseKept]
    exact caught
  | fails failure => exact fails_sound here meets
  | checksFailed failure =>
    rw [here] at sound
    simp only [Leads, Iteration.next, here]
    cases found : (sqlite.row it.job.id w.jobs).isNone <;> exact sound
  | readsStatus failure =>
    rw [here] at sound
    simp only [CallMeets, here] at meets
    simp only [Leads, Iteration.next, here]
    obtain ⟨job, found⟩ := ne_none_iff_exists'.mp meets
    simp only [Scene.row] at found
    simp only [sqlite, found, map_some]
    rw [Scene.row, found] at sound
    split <;> exact sound
  | announcesFailed news =>
    rw [here] at sound
    exact announcesFailed_sound here sound meets
  | ended =>
    rw [here] at sound
    simp only [Leads, Iteration.next, here]
    exact sound
  | refuses | escaped =>
    rw [here] at sound
    exact sound.elim

theorem work_broken (foreseen : ∀ f, turn.outcome = .raised f → f.catch_ ≠ .uncaught)
    (sound : Sound x) (broken : ¬ CallMeets limit x turn) :
    Leads limit x.it turn x.world PhaseDoomed := by
  obtain ⟨w, it⟩ := x
  cases here : it.phase with
  | runs =>
    obtain ⟨-, sound⟩ := sound
    rw [here] at sound
    simp only [CallMeets, here, not_forall] at broken
    obtain ⟨failure, raised, unfit⟩ := broken
    have caught := foreseen failure raised
    simp only [Leads, Iteration.next, here, raised]
    refine .inr ⟨?_, sound.1⟩
    cases kind : failure.catch_ with
    | leaseLost => rfl
    | jobFailure => exact absurd kind unfit
    | uncaught => exact absurd kind caught
  | finishes report => exact finishes_broken here broken
  | fails failure => exact fails_broken here broken
  | readsStatus failure =>
    simp only [CallMeets, here, not_not, Scene.row] at broken
    simp only [Leads, Iteration.next, here, sqlite, broken]
    trivial
  | announcesFailed news => exact announcesFailed_broken here broken
  | _ =>
    simp only [CallMeets, here] at broken
    exact absurd trivial broken

theorem work_doomed (doomed : Doomed x) : Leads limit x.it turn x.world PhaseDoomed := by
  obtain ⟨w, it⟩ := x
  obtain ⟨-, doomed⟩ := doomed
  cases here : it.phase with
  | handles failure =>
    rw [here] at doomed
    simp only [Leads, Iteration.next, here]
    rcases doomed with caught | ⟨caught, held⟩
    · rw [caught]
      trivial
    · rw [caught]
      exact held
  | escaped failure =>
    simp only [Leads, Iteration.next, here]
    trivial
  | ended =>
    rw [here] at doomed
    simp only [Leads, Iteration.next, here]
    exact doomed
  | _ =>
    rw [here] at doomed
    exact doomed.elim

/-- The watcher sets the flag only for a job whose cancellation is requested. -/
theorem watch_sound (sound : Sound x) (s : JobStore) (same : s = x.world.jobs) :
    PhaseSound (x.it.watch sqlite s).cancel x.row x.it.phase := by
  subst same
  obtain ⟨-, sound⟩ := sound
  have flagged : Held x.row → (x.it.cancel = true → Requested x.row) →
      (x.it.watch sqlite x.world.jobs).cancel = true → Requested x.row := by
    rintro ⟨job, found, -⟩ asked flag
    rcases Bool.or_eq_true_iff.mp flag with before | seen
    · exact asked before
    · refine ⟨job, found, ?_⟩
      simp only [Scene.row] at found
      simp only [sqlite, found, map_some, any_some, decide_eq_true_eq] at seen
      exact seen
  cases here : x.it.phase with
  | begins | runs | reported | decides =>
    rw [here] at sound
    exact ⟨sound.1, flagged sound.1 sound.2⟩
  | _ =>
    rw [here] at sound
    exact sound

theorem step_sound (limit : Nat) (x : Scene) (action : Action) (sound : Sound x)
    (meets : Meets limit ⟨x, action, (step limit x action).1, (step limit x action).2⟩) :
    Sound (step limit x action).2 := by
  cases action with
  | work turn foreseen => exact ⟨⟨sound.1.owned, sound.1.leaseKept⟩, work_sound sound meets⟩
  | watch => exact ⟨⟨sound.1.owned, sound.1.leaseKept⟩, watch_sound sound _ rfl⟩
  | requestCancel ident now =>
    exact ⟨sound.1, disturbed_sound (requestCancel_disturbs ident _ now _) sound.2⟩
  | purgePrincipal principal now =>
    exact ⟨sound.1, disturbed_sound (purge_disturbs principal _ now _) sound.2⟩

theorem step_broken (limit : Nat) (x : Scene) (action : Action) (sound : Sound x)
    (broken : ¬ Meets limit ⟨x, action, (step limit x action).1, (step limit x action).2⟩) :
    Doomed (step limit x action).2 := by
  cases action with
  | work turn foreseen =>
    exact ⟨⟨sound.1.owned, sound.1.leaseKept⟩, work_broken foreseen sound broken⟩
  | watch | requestCancel | purgePrincipal => exact absurd trivial broken

theorem step_doomed (limit : Nat) (x : Scene) (action : Action) (doomed : Doomed x) :
    Doomed (step limit x action).2 := by
  cases action with
  | work turn foreseen => exact ⟨⟨doomed.1.owned, doomed.1.leaseKept⟩, work_doomed doomed⟩
  | watch => exact ⟨⟨doomed.1.owned, doomed.1.leaseKept⟩, doomed.2⟩
  | requestCancel ident now =>
    exact ⟨doomed.1, disturbed_doomed (requestCancel_disturbs ident _ now _) doomed.2⟩
  | purgePrincipal principal now =>
    exact ⟨doomed.1, disturbed_doomed (purge_disturbs principal _ now _) doomed.2⟩

/-- The scene right after a claim. -/
def opened (worker : PgJobs.Worker) (job : Claimed) (jobs : JobStore) (outbox : Outbox) : Scene :=
  ⟨⟨jobs, outbox⟩, start worker job⟩

theorem opened_sound {worker : PgJobs.Worker} {token : String} {clock : PgJobs.Clock} {t : JobStore}
    {job : Claimed} (claimed : sqlite.claim worker token clock s = (.ok (some job), t))
    (owned : job.principal.getD "" ≠ "") (outbox : Outbox) :
    Sound (opened worker job t outbox) := by
  obtain ⟨row, s', done, returned⟩ := Txn.bind_returned claimed
  cases returned_eq : row with
  | none =>
    subst returned_eq
    cases returned
  | some row =>
    subst returned_eq
    cases returned
    rcases claim_returned done with ⟨absurd_, -⟩ | ⟨job, same, found, -, -, rfl⟩
    · cases absurd_
    · cases same
      refine ⟨⟨owned, rfl⟩, ?_, nofun⟩
      exact ⟨row.claimed (clock 0), find_published found, rfl⟩

/-- An iteration over a claimed job with an owner is survived exactly when each of the
worker's calls met its condition. -/
theorem iteration_survived_iff (limit : Nat) {worker : PgJobs.Worker} {token : String}
    {clock : PgJobs.Clock} {s t : JobStore} {job : Claimed} (outbox : Outbox)
    (claimed : sqlite.claim worker token clock s = (.ok (some job), t))
    (owned : job.principal.getD "" ≠ "") (run : List Action)
    (ended : (final (step limit) (opened worker job t outbox) run).over = true) :
    Survived (final (step limit) (opened worker job t outbox) run) ↔
      ∀ e ∈ history (step limit) (opened worker job t outbox) run, Meets limit e := by
  have fate := sound_or_doomed (step_sound limit) (step_broken limit) (step_doomed limit)
    (opened_sound claimed owned outbox) run
  generalize final (step limit) (opened worker job t outbox) run = last at fate ended
  rcases fate with ⟨meets, -, sound⟩ | ⟨⟨e, member, broken⟩, -, doomed⟩
  · refine iff_of_true ?_ meets
    cases here : last.it.phase with
    | ended =>
      rw [here] at sound
      exact ⟨by simp only [Scene.escaped, here], sound⟩
    | escaped =>
      rw [here] at sound
      exact sound.elim
    | _ => simp only [Scene.over, here, Bool.false_eq_true] at ended
  · refine iff_of_false ?_ (fun meets => broken (meets e member))
    rintro ⟨caught, released⟩
    cases here : last.it.phase with
    | ended =>
      rw [here] at doomed
      exact held_not_released doomed released
    | escaped failure => simp only [Scene.escaped, here, Bool.true_eq_false] at caught
    | _ => simp only [Scene.over, here, Bool.false_eq_true] at ended

def queuedStore : JobStore := (Jobs.enqueue "j" "goal" none 2 (some "ada") 0 0 JobStore.empty).2

def adasJob : Claimed := ⟨"j", some "ada", none⟩

def firstWorker : PgJobs.Worker := ⟨"w", 60⟩

def claimedStore : JobStore := (sqlite.claim firstWorker "t" (fun _ => 1) queuedStore).2

theorem adasJob_claimed : sqlite.claim firstWorker "t" (fun _ => 1) queuedStore =
    (.ok (some adasJob), claimedStore) := rfl

def adaOpened : Scene := opened firstWorker adasJob claimedStore Outbox.empty

/-- A turn in which the run, if it ends, ends with an empty report. -/
def working (now : Instant) : Action :=
  .work ⟨.returned ⟨[], false⟩, now⟩ nofun

/-- The cancellation is requested while the agent runs, and the watcher sees it. -/
def seenCancel : List Action :=
  [working 2, .requestCancel "j" 3, .watch, working 4, working 5, working 6, working 7, working 8,
    working 9, working 10]

/-- The job is cancelled, and each call found what it needs. -/
theorem seenCancel_survived :
    Survived (final (step 65536) adaOpened seenCancel) ∧
      ∀ e ∈ history (step 65536) adaOpened seenCancel, Meets 65536 e := by
  have survived : Survived (final (step 65536) adaOpened seenCancel) := by
    have released : (final (step 65536) adaOpened seenCancel).row.all (fun j => !j.held) = true := by
      decide +kernel
    refine ⟨by decide +kernel, ?_⟩
    intro job found
    rw [found] at released
    simpa using released
  exact ⟨survived, (iteration_survived_iff 65536 Outbox.empty adasJob_claimed (by decide)
    seenCancel (by decide +kernel)).mp survived⟩

/-- The cancellation comes after the flag was read: `finish` and `fail` are refused. -/
def lateCancel : List Action :=
  [working 2, working 3, working 4, working 5, .requestCancel "j" 6, working 7, working 8, working 9]

theorem lateCancel_escapes :
    ¬ ∀ (limit : Nat) (worker : PgJobs.Worker) (token : String) (clock : PgJobs.Clock)
        (s t : JobStore) (job : Claimed) (outbox : Outbox),
      sqlite.claim worker token clock s = (.ok (some job), t) → job.principal.getD "" ≠ "" →
      ∀ run, (final (step limit) (opened worker job t outbox) run).over = true →
        Survived (final (step limit) (opened worker job t outbox) run) := by
  intro survives
  have survived := survives 65536 firstWorker "t" (fun _ => 1) queuedStore _ adasJob Outbox.empty
    adasJob_claimed (by decide) lateCancel (by decide +kernel)
  exact absurd survived.1 (by decide +kernel)

/-- An iteration has at most this many turns left. -/
def rank : Phase → Nat
  | .begins => 15
  | .runs => 14
  | .reported _ => 13
  | .decides _ => 12
  | .cancels next => 9 + (2 - next)
  | .finishes _ => 9
  | .checks _ => 8
  | .announces _ => 7
  | .refuses => 7
  | .handles _ => 6
  | .fails _ => 5
  | .checksFailed _ => 4
  | .readsStatus _ => 3
  | .announcesFailed _ => 2
  | .ended | .escaped _ => 0

theorem rank_afterCall {α : Type} {onward : α → Phase} {caught : Exc → Phase}
    (returned : ∀ a, rank (onward a) ≤ bound) (raised : ∀ e, rank (caught e) ≤ bound)
    (result : Except Exc α) : rank (afterCall onward caught result) ≤ bound := by
  cases result with
  | ok a => exact returned a
  | error e => exact raised e

theorem rank_ite {c : Prop} [Decidable c] {yes no : Phase} (first : rank yes ≤ bound)
    (second : rank no ≤ bound) : rank (if c then yes else no) ≤ bound := by
  split
  · exact first
  · exact second

theorem next_rank (limit : Nat) (it : Iteration) (turn : Turn) (w : World JobStore Outbox) :
    rank (it.next sqlite (enqueue limit) turn w).1 ≤ rank it.phase - 1 := by
  have handler : ∀ e bound, 6 ≤ bound → rank (handled e) ≤ bound := fun _ _ within => within
  have out : ∀ e bound, rank (unhandled e) ≤ bound := fun _ bound => Nat.zero_le bound
  cases here : it.phase with
  | begins | reported | decides | checks | checksFailed =>
    simp only [Iteration.next, here]
    exact rank_ite (by simp [rank]) (by simp [rank])
  | runs =>
    simp only [Iteration.next, here]
    cases turn.outcome <;> simp [rank]
  | cancels next =>
    simp only [Iteration.next, here]
    match next with
    | 0 =>
      have first : (sqlite.cancelRunning it.worker it.job.id it.job.leaseToken)[0]? =
          some (fun _ => settlePurge it.job.id) := rfl
      simp only [first]
      exact rank_afterCall (fun _ => rank_ite (by simp [rank]) (by simp [rank]))
        (fun e => handler e _ (by simp [rank])) _
    | 1 =>
      exact rank_afterCall (fun _ => rank_ite (by simp [rank]) (by simp [rank]))
        (fun e => handler e _ (by simp [rank])) _
    | next + 2 =>
      exact rank_ite (by simp [rank]) (by simp [rank])
  | refuses | finishes | announces =>
    simp only [Iteration.next, here]
    exact rank_afterCall (fun _ => by simp [rank]) (fun e => handler e _ (by simp [rank])) _
  | handles failure =>
    simp only [Iteration.next, here]
    cases failure.catch_ with
    | jobFailure => exact rank_ite (by simp [rank]) (by simp [rank])
    | _ => simp [rank]
  | fails failure =>
    simp only [Iteration.next, here]
    exact rank_afterCall (fun _ => by simp [rank]) (fun e => rank_ite (by simp [rank]) (out e _)) _
  | readsStatus failure =>
    simp only [Iteration.next, here]
    cases sqlite.row it.job.id w.jobs with
    | none => simp [rank]
    | some row => exact rank_ite (by simp [rank]) (by simp [rank])
  | announcesFailed news =>
    simp only [Iteration.next, here]
    exact rank_afterCall (fun _ => by simp [rank]) (fun e => out e _) _
  | ended | escaped =>
    simp only [Iteration.next, here]
    exact Nat.le_refl 0

def Action.isWork : Action → Bool
  | .work _ _ => true
  | _ => false

theorem final_rank (limit : Nat) (x : Scene) (run : List Action) :
    rank (final (step limit) x run).it.phase ≤ rank x.it.phase - run.countP Action.isWork := by
  induction run generalizing x with
  | nil => exact Nat.le_refl _
  | cons action rest ih =>
    refine Nat.le_trans (ih _) ?_
    rw [List.countP_cons]
    cases action with
    | work turn foreseen =>
      have less := next_rank limit x.it turn x.world
      have here : (step limit x (.work turn foreseen)).2.it.phase =
          (x.it.next sqlite (enqueue limit) turn x.world).1 := rfl
      rw [here, Action.isWork, if_pos rfl]
      omega
    | _ => exact Nat.le_refl _

/-- Whatever the others do, fifteen turns of the worker end its iteration. -/
theorem iteration_ends (limit : Nat) (worker : PgJobs.Worker) (job : Claimed) (jobs : JobStore)
    (outbox : Outbox) (run : List Action) (turns : 15 ≤ run.countP Action.isWork) :
    (final (step limit) (opened worker job jobs outbox) run).over = true := by
  have left := final_rank limit (opened worker job jobs outbox) run
  have spent : rank (final (step limit) (opened worker job jobs outbox) run).it.phase = 0 := by
    have full : rank (opened worker job jobs outbox).it.phase = 15 := rfl
    omega
  generalize final (step limit) (opened worker job jobs outbox) run = last at spent
  unfold Scene.over
  cases here : last.it.phase with
  | ended | escaped => rfl
  | cancels next =>
    rw [here, rank] at spent
    omega
  | _ =>
    rw [here] at spent
    cases spent

end Meemee.Guarantees.WorkerSurvival
