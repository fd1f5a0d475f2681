import Meemee.Guarantees.JobMoves
import Meemee.Guarantees.LeaseMoves
import Meemee.Source.Worker

/-!
# What the calls of a job store do to its rows

Which calls may bring a job into a terminal status, and into which one, as laws of a
`Backend`. Both job stores are lawful. They differ in the claim: the PostgreSQL store
reaps expired leases there, which may end jobs, and the SQLite store never does.
-/
namespace Meemee.Guarantees.StoreEffects
open Library Source Source.Worker Library.Txn Library.Table Option
open Source.Jobs (Job JobStatus JobStore RunAt)
open Source.PgJobs (PgJob PgStore)

/-- A row keeps its owner or is purged, and ends only in a status `settles` allows. -/
structure Evolves (settles : JobStatus → Prop) (before after : Row) : Prop where
  principal : after.principal = before.principal ∨ after.principal = none
  terminal : after.status.terminal = true → after.status = before.status ∨ settles after.status

/-- A stored row was stored before. -/
def Follows (settles : JobStatus → Prop) (before after : Option Row) : Prop :=
  ∀ row, after = some row → ∃ first, before = some first ∧ Evolves settles first row

section Rows

variable {settles : JobStatus → Prop}

theorem evolves_refl (row : Row) : Evolves settles row row := ⟨.inl rfl, fun _ => .inl rfl⟩

theorem follows_refl (row : Option Row) : Follows settles row row :=
  fun last same => ⟨last, same, evolves_refl last⟩

theorem follows_trans {first second third : Option Row} (one : Follows settles first second)
    (two : Follows settles second third) : Follows settles first third := by
  intro last stored
  obtain ⟨middle, stored, evolves⟩ := two last stored
  obtain ⟨start, stored, before⟩ := one middle stored
  refine ⟨start, stored, ?_, ?_⟩
  · rcases evolves.principal with same | gone
    · rw [same]
      exact before.principal
    · exact .inr gone
  · intro terminal
    rcases evolves.terminal terminal with same | settled
    · rw [same]
      exact before.terminal (by rw [← same]; exact terminal)
    · exact .inr settled

theorem evolves_running {before after : Row} (same : after.principal = before.principal)
    (idle : after.status.terminal = false) : Evolves settles before after :=
  ⟨.inl same, fun terminal => (by rw [idle] at terminal; cases terminal)⟩

theorem evolves_settled {before after : Row} (same : after.principal = before.principal)
    (settled : settles after.status) : Evolves settles before after :=
  ⟨.inl same, fun _ => .inr settled⟩

variable {ρ : Type} {key : ρ → String} (view : ρ → Row) (t : Table key)

theorem follows_filter (settles : JobStatus → Prop) (p : ρ → Bool) (ident : String) :
    Follows settles ((t.find ident).map view) (((t.find ident).filter p).map view) := by
  intro row stored
  obtain ⟨r, kept, rfl⟩ := map_eq_some_iff.mp stored
  obtain ⟨found, -⟩ := filter_eq_some_iff.mp kept
  rw [found]
  exact ⟨view r, rfl, evolves_refl _⟩

theorem follows_bind (settles : JobStatus → Prop) {g : ρ → Option ρ} (ident : String)
    (each : ∀ r r', g r = some r' → Evolves settles (view r) (view r')) :
    Follows settles ((t.find ident).map view) (((t.find ident).bind g).map view) := by
  intro row stored
  obtain ⟨r', kept, rfl⟩ := map_eq_some_iff.mp stored
  obtain ⟨r, found, changed⟩ := bind_eq_some_iff.mp kept
  rw [found]
  exact ⟨view r, rfl, each r r' changed⟩

theorem follows_update {settles : String → JobStatus → Prop} {k : String} {f : ρ → ρ}
    (keeps : ∀ r, key (f r) = key r)
    (each : ∀ r, t.find k = some r → Evolves (settles k) (view r) (view (f r))) (ident : String) :
    Follows (settles ident) ((t.find ident).map view)
      (((t.update (fun r => decide (key r = k)) f keeps).find ident).map view) := by
  rw [find_update_key]
  by_cases here : ident = k
  · subst here
    rw [if_pos rfl]
    cases found : t.find ident with
    | none => exact follows_refl _
    | some r =>
      intro row stored
      cases stored
      exact ⟨view r, rfl, each r found⟩
  · rw [if_neg here]
    exact follows_refl _

end Rows

/-- The job of the call may become terminal, as `status`, when the call answered so. -/
def only (ident : String) (status : JobStatus) (answered : Prop) (other : String)
    (reached : JobStatus) : Prop :=
  other = ident ∧ reached = status ∧ answered

def nothing (_ : String) (_ : JobStatus) : Prop := False

section Stores

variable {σ : Type}

def Effect (b : Backend σ) (settles : String → JobStatus → Prop) (s t : σ) : Prop :=
  ∀ ident, Follows (settles ident) (b.row ident s) (b.row ident t)

theorem effect_refl (b : Backend σ) (settles : String → JobStatus → Prop) (s : σ) :
    Effect b settles s s := fun _ => follows_refl _

/-- The calls of a store. `reaps` is whether its claims may end jobs. -/
structure Lawful (b : Backend σ) (reaps : Prop) : Prop where
  enqueue : ∀ {ident goal runAt maxAttempts principal clock s answer t},
    b.enqueue ident goal runAt maxAttempts principal clock s = (answer, t) → ∀ other,
      b.row other t = b.row other s ∨
        other = ident ∧ b.row other t = some ⟨.queued, principal, false⟩
  claim : ∀ {worker token clock s answer t}, b.claim worker token clock s = (answer, t) →
    Effect b (fun _ _ => reaps) s t
  claimed : ∀ {worker token clock s job t}, b.claim worker token clock s = (.ok (some job), t) →
    ∃ row, b.row job.id t = some row ∧ row.principal = job.principal
  heartbeat : ∀ {worker ident token now s answer t},
    b.heartbeat worker ident token now s = (answer, t) → Effect b nothing s t
  finish : ∀ {worker ident fields token now s answer t},
    b.finish worker ident (.obj fields) token now s = (answer, t) →
      Effect b (only ident .done (∃ told, answer = .ok told)) s t
  fail : ∀ {worker ident error token now s answer t},
    b.fail worker ident error token now s = (answer, t) →
      Effect b (only ident .failed (∃ told, answer = .ok told)) s t
  cancelRunning : ∀ {worker ident token transaction now s answer t},
    transaction ∈ b.cancelRunning worker ident token → transaction now s = (answer, t) →
      Effect b (only ident .cancelled (answer = .ok true)) s t
  requestCancel : ∀ {ident now s answer t}, b.requestCancel ident now s = (answer, t) →
    Effect b (only ident .cancelled (answer = .ok (some .cancelled))) s t
  purgePrincipal : ∀ {principal now s answer t},
    b.purgePrincipal principal now s = (answer, t) → Effect b nothing s t
  sweepPurges : ∀ {staleBefore clock s answer t},
    b.sweepPurges staleBefore clock s = (answer, t) → Effect b nothing s t

end Stores

namespace Sqlite
open Guarantees.JobMoves

variable {settles : String → JobStatus → Prop} {s t : JobStore}

def view (job : Job) : Row := ⟨job.status, job.principal, job.purgePending⟩

theorem publish_effect {ident : String} {f : Job → Job} {keeps : ∀ j, (f j).id = j.id}
    {event : Jobs.JobEvent}
    (each : ∀ job, s.jobs.find ident = some job →
      Evolves (settles ident) (view job) (view (f job))) :
    Effect sqlite settles s (publish s ident f keeps event) :=
  follows_update view s.jobs keeps each

theorem drop_effect (p : Job → Bool) : Effect sqlite settles s (s.drop p) := by
  intro ident
  have kept := find_delete s.jobs p ident
  have follows := follows_filter view s.jobs (settles ident) (fun j => !p j) ident
  rw [← kept] at follows
  exact follows

def settledStatus : Option Json → JobStatus
  | some _ => .done
  | none => .failed

theorem publishTerminal_effect {ident : String} {result : Option Json} {error : Option PyStr}
    {now : Instant} {answer : Except Exc Bool}
    (run : Jobs.publishTerminal ident result error now s = (answer, t)) :
    Effect sqlite (only ident (settledStatus result) (∃ told, answer = .ok told)) s t := by
  obtain ⟨e, rfl, rfl⟩ | ⟨job, found, ⟨-, rfl, rfl⟩ | ⟨live, running, rfl, ended⟩⟩ :=
    publishTerminal_cases run
  · exact effect_refl _ _ _
  · exact drop_effect _
  · obtain ⟨value, text, bound, rfl, -, -, rfl⟩ | ⟨bound, rfl, rfl⟩ := ended
    · exact publish_effect (fun other there => evolves_settled rfl ⟨rfl, rfl, _, rfl⟩)
    · refine publish_effect (fun other there => ?_)
      by_cases left : other.attempts < other.maxAttempts
      · exact evolves_running rfl (by simp [view, Job.failed, Job.failedStatus, left,
          JobStatus.terminal])
      · exact evolves_settled rfl ⟨rfl, by simp [view, Job.failed, Job.failedStatus, left,
          settledStatus], _, rfl⟩

theorem cancelFrom_effect {source : JobStatus} {ident : String} {now : Instant}
    {answer : Except Exc Bool} (run : Jobs.cancelFrom source ident now s = (answer, t)) :
    Effect sqlite (only ident .cancelled (answer = .ok true)) s t := by
  by_cases matched : ∃ job, s.jobs.find ident = some job ∧ job.status = source
  · obtain ⟨job, found, same⟩ := matched
    rw [cancelFrom_matched found same] at run
    cases run
    exact publish_effect (fun other there => evolves_settled rfl ⟨rfl, rfl, rfl⟩)
  · rw [cancelFrom_unmatched (fun job found same => matched ⟨job, found, same⟩)] at run
    cases run
    exact effect_refl _ _ _

theorem requestCancel_effect {ident : String} {now : Instant}
    {answer : Except Exc (Option JobStatus)} (run : Jobs.requestCancel ident now s = (answer, t)) :
    Effect sqlite (only ident .cancelled (answer = .ok (some .cancelled))) s t := by
  cases found : s.jobs.find ident with
  | none =>
    rw [requestCancel_unknown found] at run
    cases run
    exact effect_refl _ _ _
  | some job =>
    by_cases queued : job.status = .queued
    · rw [requestCancel_queued found queued] at run
      cases run
      exact publish_effect (fun other there => evolves_settled rfl ⟨rfl, rfl, rfl⟩)
    · by_cases running : job.status = .running
      · rw [requestCancel_running found running] at run
        cases run
        exact publish_effect (fun other there => evolves_running rfl rfl)
      · rw [requestCancel_settled found queued running] at run
        cases run
        exact effect_refl _ _ _

theorem purge_effect {principal : String} {now : Instant} {answer : Except Exc Jobs.PurgeCounts}
    (run : Jobs.purgePrincipal principal now s = (answer, t)) : Effect sqlite nothing s t := by
  cases answer with
  | error e =>
    rw [raisesClean_require_bind (raisesClean_atomically _) _ _ _ run]
    exact effect_refl _ _ _
  | ok counts =>
    obtain rfl := purgePrincipal_returned run
    intro ident
    refine follows_trans ?_ (drop_effect (Jobs.ownedBy principal) ident)
    have stored : (tombstoneHeld s principal now).jobs.find ident =
        (s.jobs.find ident).bind (fun j => some (if Jobs.ownedBy principal j && j.held then
          j.tombstoned now else j)) := by
      rw [tombstoneHeld, find_update]
      cases s.jobs.find ident <;> rfl
    have follows := follows_bind view s.jobs (nothing ident) ident
      (g := fun j => some (if Jobs.ownedBy principal j && j.held then j.tombstoned now else j)) (by
        intro j j' same
        cases same
        split
        · exact ⟨.inr rfl, nofun⟩
        · exact evolves_refl _)
    rw [← stored] at follows
    exact follows

theorem claim_effect {now : Instant} {answer : Except Exc (Option Job)}
    (run : Jobs.claim now s = (answer, t)) : Effect sqlite nothing s t := by
  rw [claim_run] at run
  split at run
  next =>
    cases run
    exact effect_refl _ _ _
  next job picked =>
    cases run
    exact publish_effect (fun other there => evolves_running rfl rfl)

theorem enqueue_effect {ident goal : String} {runAt : Option RunAt} {maxAttempts : Int}
    {principal : Option String} {now clock : Instant} {answer : Except Exc String}
    (run : Jobs.enqueue ident goal runAt maxAttempts principal now clock s = (answer, t))
    (other : String) : sqlite.row other t = sqlite.row other s ∨
      other = ident ∧ sqlite.row other t = some ⟨.queued, principal, false⟩ := by
  rcases enqueue_cases ident goal runAt maxAttempts principal now clock s with
    taken | ⟨e, refused⟩
  · rw [taken] at run
    cases answer with
    | error e =>
      rw [show t = s from atomically_error run]
      exact .inl rfl
    | ok value =>
      obtain ⟨fresh, -, rfl⟩ := insertJob_returned run
      by_cases here : other = ident
      · subst here
        refine .inr ⟨rfl, ?_⟩
        simp only [sqlite, inserted, find_insert, Jobs.newJob, if_true, map_some]
      · refine .inl ?_
        simp only [sqlite, inserted, find_insert, Jobs.newJob, if_neg (Ne.symm here)]
  · rw [refused] at run
    cases run
    exact .inl rfl

theorem lawful : Lawful sqlite False where
  enqueue run := enqueue_effect run
  claim {worker token clock s answer t} run := by
    cases claimed : Jobs.claim (clock 0) s with
    | mk result t' =>
      have effect := claim_effect claimed
      cases result with
      | ok job =>
        rw [show sqlite.claim worker token clock s = _ from run_bind_ok claimed] at run
        cases run
        exact effect
      | error e =>
        rw [show sqlite.claim worker token clock s = _ from run_bind_error claimed] at run
        cases run
        exact effect
  claimed {worker token clock s job t} run := by
    obtain ⟨row, s', done, returned⟩ := bind_returned run
    rcases claim_returned done with ⟨rfl, -⟩ | ⟨first, rfl, found, -, -, rfl⟩
    · cases returned
    · cases returned
      refine ⟨view (first.claimed (clock 0)), ?_, rfl⟩
      simp only [sqlite, publish, find_update_key, if_true, found, map_some, view]
  heartbeat run := by
    cases run
    exact effect_refl _ _ _
  finish {worker ident fields token now s answer t} run :=
    publishTerminal_effect
      (show Jobs.publishTerminal ident (some (.obj fields)) none now s = (answer, t) from run)
  fail {worker ident error token now s answer t} run :=
    publishTerminal_effect
      (show Jobs.publishTerminal ident none (some error) now s = (answer, t) from run)
  cancelRunning {worker ident token transaction now s answer t} mem run := by
    rcases List.mem_cons.mp mem with rfl | mem
    · cases run
      exact drop_effect _
    · obtain rfl := List.mem_singleton.mp mem
      exact cancelFrom_effect run
  requestCancel run := requestCancel_effect run
  purgePrincipal run := purge_effect run
  sweepPurges run := by
    cases run
    exact drop_effect _

end Sqlite

namespace Postgres
open Source.PgJobs (Worker Clock)
open Guarantees.LeaseCalls
open Guarantees.LeaseMoves (row_cases)

variable {settles : String → JobStatus → Prop} {s t : PgStore}

def view (job : PgJob) : Row := ⟨job.status, job.principal, job.purgePending⟩

theorem publish_effect {ident : String} {f : PgJob → PgJob} {keeps : ∀ j, (f j).id = j.id}
    {event : Jobs.JobEvent}
    (each : ∀ job, s.jobs.find ident = some job →
      Evolves (settles ident) (view job) (view (f job))) :
    Effect postgres settles s (publish s ident f keeps event) :=
  follows_update view s.jobs keeps each

theorem drop_effect (p : PgJob → Bool) : Effect postgres settles s (drop s p) := by
  intro ident
  have follows := follows_filter view s.jobs (settles ident) (fun j => !p j) ident
  rw [← find_drop] at follows
  exact follows

theorem bind_effect {g : String → PgJob → Option PgJob}
    (stored : ∀ ident, t.jobs.find ident = (s.jobs.find ident).bind (g ident))
    (each : ∀ ident job job', g ident job = some job' →
      Evolves (settles ident) (view job) (view job')) : Effect postgres settles s t := by
  intro ident
  have follows := follows_bind view s.jobs (settles ident) ident (each ident)
  rw [← stored] at follows
  exact follows

section Holder

variable {worker : Worker} {ident token : String} {now : Instant} {answer : Except Exc Bool}

theorem terminal_effect {status : JobStatus} {result : Option Json} {error : Option String}
    (run : PgJobs.terminal worker ident token status result error now s = (answer, t)) :
    Effect postgres (only ident status (∃ told, answer = .ok told)) s t := by
  rcases row_cases s worker ident token now with
    ⟨absent, refused⟩ | ⟨job, found, tombstone⟩ | ⟨job, found, live, held⟩
  · rw [terminal_refused status result error absent refused] at run
    cases run
    exact effect_refl _ _ _
  · rw [terminal_purged status result error found tombstone] at run
    cases run
    exact drop_effect _
  · rw [terminal_settled status result error found live held] at run
    split at run
    · cases run
      exact effect_refl _ _ _
    · cases run
      exact publish_effect (fun other there => evolves_settled rfl ⟨rfl, rfl, _, rfl⟩)

theorem failWith_effect {error : PyStr}
    (run : PgJobs.failWith worker ident error token now s = (answer, t)) :
    Effect postgres (only ident .failed (∃ told, answer = .ok told)) s t := by
  by_cases tombstoned : ∃ job, s.jobs.find ident = some job ∧
      (job.purgePending && job.leasedTo worker.workerId token) = true
  · obtain ⟨job, found, tombstone⟩ := tombstoned
    rw [failWith_purged error found tombstone] at run
    cases run
    exact drop_effect _
  · have absent : NoTombstone s worker ident token := by
      intro job found
      exact Bool.eq_false_iff.mpr (fun tombstone => tombstoned ⟨job, found, tombstone⟩)
    by_cases failing : ∃ job, s.jobs.find ident = some job ∧
        (decide (job.status = .running) && job.heldBy worker.workerId token now) = true
    · obtain ⟨job, found, running⟩ := failing
      rw [failWith_failed error found (absent job found) running] at run
      split at run
      · cases run
        refine publish_effect (fun other there => ?_)
        by_cases left : other.attempts < other.maxAttempts
        · exact evolves_running rfl (by simp [view, PgJob.failed, PgJob.failedStatus, left,
            JobStatus.terminal])
        · exact evolves_settled rfl ⟨rfl, by simp [view, PgJob.failed, PgJob.failedStatus, left],
            _, rfl⟩
      · cases run
        exact effect_refl _ _ _
    · have unfailed : Unfailed s worker ident token now := by
        intro job found
        exact Bool.eq_false_iff.mpr (fun running => failing ⟨job, found, running⟩)
      rw [failWith_refused error absent unfailed] at run
      cases run
      exact effect_refl _ _ _

theorem cancelWith_effect (run : PgJobs.cancelWith worker ident token now s = (answer, t)) :
    Effect postgres (only ident .cancelled (answer = .ok true)) s t := by
  rcases row_cases s worker ident token now with
    ⟨absent, refused⟩ | ⟨job, found, tombstone⟩ | ⟨job, found, live, held⟩
  · rw [cancelWith_refused absent refused] at run
    cases run
    exact effect_refl _ _ _
  · rw [cancelWith_purged found tombstone] at run
    cases run
    exact drop_effect _
  · rw [cancelWith_settled found live held] at run
    cases run
    exact publish_effect (fun other there => evolves_settled rfl ⟨rfl, rfl, rfl⟩)

theorem finish_effect {result : Json} {token : Option String}
    (run : PgJobs.finish worker ident result token now s = (answer, t)) :
    Effect postgres (only ident .done (∃ told, answer = .ok told)) s t := by
  unfold PgJobs.finish at run
  rcases tokenOr_cases worker ident token s with ⟨text, read⟩ | lost
  · rw [run_bind_ok read] at run
    exact terminal_effect run
  · rw [run_bind_error lost] at run
    cases run
    exact effect_refl _ _ _

theorem fail_effect {error : PyStr} {token : Option String}
    (run : PgJobs.fail worker ident error token now s = (answer, t)) :
    Effect postgres (only ident .failed (∃ told, answer = .ok told)) s t := by
  unfold PgJobs.fail at run
  rcases tokenOr_cases worker ident token s with ⟨text, read⟩ | lost
  · rw [run_bind_ok read] at run
    exact failWith_effect run
  · rw [run_bind_error lost] at run
    cases run
    exact effect_refl _ _ _

theorem cancelRunning_effect {token : Option String}
    (run : PgJobs.cancelRunning worker ident token now s = (answer, t)) :
    Effect postgres (only ident .cancelled (answer = .ok true)) s t := by
  unfold PgJobs.cancelRunning PgJobs.exceptLeaseLost at run
  rcases tokenOr_cases worker ident token s with ⟨text, read⟩ | lost
  · rw [run_bind_ok read] at run
    cases done : PgJobs.cancelWith worker ident text now s with
    | mk result t' =>
      have effect := cancelWith_effect done
      rw [done] at run
      split at run
      next lost t'' same =>
        cases run
        cases same
        intro other row stored
        obtain ⟨first, found, evolves⟩ := effect other row stored
        exact ⟨first, found, evolves.principal, fun terminal =>
          (evolves.terminal terminal).imp_right (fun settled => (by cases settled.2.2))⟩
      next =>
        cases run
        exact effect
  · rw [run_bind_error lost] at run
    cases run
    exact effect_refl _ _ _

end Holder

theorem requestCancel_effect {ident : String} {now : Instant}
    {answer : Except Exc (Option JobStatus)} (run : PgJobs.requestCancel ident now s = (answer, t)) :
    Effect postgres (only ident .cancelled (answer = .ok (some .cancelled))) s t := by
  cases found : s.jobs.find ident with
  | none =>
    rw [requestCancel_unknown found] at run
    cases run
    exact effect_refl _ _ _
  | some job =>
    rw [requestCancel_found found] at run
    cases run
    refine publish_effect (fun other there => ?_)
    rw [found] at there
    cases there
    cases status : job.status with
    | queued =>
      exact evolves_settled rfl ⟨rfl, by simp [view, PgJob.cancelAsked, status, PgJobs.cancelTarget],
        by rw [PgJobs.cancelTarget]⟩
    | running =>
      exact evolves_running rfl (by simp [view, PgJob.cancelAsked, status, PgJobs.cancelTarget,
        JobStatus.terminal])
    | _ => exact ⟨.inl rfl, fun _ => .inl (by simp [view, PgJob.cancelAsked, status,
        PgJobs.cancelTarget])⟩

theorem purge_effect {principal : String} {now : Instant} {answer : Except Exc Jobs.PurgeCounts}
    (run : PgJobs.purgePrincipal principal now s = (answer, t)) : Effect postgres nothing s t := by
  cases answer with
  | error e =>
    rw [purgePrincipal_raised run]
    exact effect_refl _ _ _
  | ok counts =>
    refine bind_effect (purgePrincipal_returned run) (fun ident job job' kept => ?_)
    unfold purgeRow at kept
    split at kept
    · split at kept
      · cases kept
        exact ⟨.inr rfl, nofun⟩
      · cases kept
    · cases kept
      exact evolves_refl _

variable {clock : Clock}

theorem sweep_effect {staleBefore : Option Instant} {answer : Except Exc Nat}
    (run : PgJobs.sweepPurges staleBefore clock s = (answer, t)) : Effect postgres nothing s t := by
  intro ident
  have kept := sweepPurges_find staleBefore clock s ident
  rw [run] at kept
  have follows := follows_filter view s.jobs (nothing ident)
    (fun j => !sweepable staleBefore (clock 0) j) ident
  rw [← kept] at follows
  exact follows

theorem heartbeat_effect {worker : Worker} {ident token : String} {now : Instant}
    {answer : Except Exc Bool} (run : PgJobs.heartbeat worker ident token now s = (answer, t)) :
    Effect postgres nothing s t := by
  by_cases leased : ∃ job, s.jobs.find ident = some job ∧
      (job.held && job.heldBy worker.workerId token now) = true
  · obtain ⟨job, found, held⟩ := leased
    rw [heartbeat_held found held] at run
    cases run
    exact follows_update view s.jobs (fun j => j.extended_id _ _)
      (fun other there => ⟨.inl rfl, fun _ => .inl rfl⟩)
  · have refused : Refused s worker ident token now := by
      intro job found
      exact Bool.eq_false_iff.mpr (fun held => leased ⟨job, found, held⟩)
    rw [heartbeat_refused refused] at run
    cases run
    exact effect_refl _ _ _

theorem reapRow_principal {job row : PgJob} (kept : reapRow clock job = some row) :
    row.principal = job.principal := by
  unfold reapRow at kept
  split at kept
  · cases kept
  · cases kept
    unfold reapCancelling reapRunning
    split <;> split <;> rfl

theorem reaped_effect (clock : Clock) (s : PgStore) :
    Effect postgres (fun _ _ => True) s (reaped clock s) :=
  bind_effect (find_reaped clock s) (fun _ _ _ kept =>
    ⟨.inl (reapRow_principal kept), fun _ => .inr trivial⟩)

theorem claim_effect {worker : Worker} {token : String}
    {answer : Except Exc (Option PgJob)} (run : PgJobs.claim worker token clock s = (answer, t)) :
    Effect postgres (fun _ _ => True) s t ∧ ∀ job, answer = .ok (some job) →
      postgres.row job.id t = some (view job) := by
  have reaping := reaped_effect clock s
  rw [claim_run] at run
  split at run
  next =>
    cases run
    refine ⟨reaping, ?_⟩
    intro claimed same
    cases same
  next job picked =>
    cases run
    have leasing : Effect postgres (fun _ _ => True) (reaped clock s)
        (publish (reaped clock s) job.id (fun j => j.claimed worker token (clock 3))
          (fun j => j.claimed_id _ _ _) ⟨job.id, .running,
            .attempt (job.attempts + 1) (some worker.workerId), clock 3⟩) :=
      publish_effect (fun other there => evolves_running rfl rfl)
    refine ⟨fun ident => follows_trans (reaping ident) (leasing ident), ?_⟩
    intro claimed same
    cases same
    have found := find_of_mem (first_some picked).1
    simp only [postgres, publish, PgJob.claimed_id, find_update_key, if_true, found,
      map_some, view]

theorem enqueue_effect {ident goal : String} {runAt : Option RunAt} {maxAttempts : Int}
    {principal : Option String} {answer : Except Exc String}
    (run : PgJobs.enqueue ident goal runAt maxAttempts principal clock s = (answer, t))
    (other : String) : postgres.row other t = postgres.row other s ∨
      other = ident ∧ postgres.row other t = some ⟨.queued, principal, false⟩ := by
  cases answer with
  | error e =>
    rw [enqueue_raised run]
    exact .inl rfl
  | ok value =>
    by_cases aware : runAt = some .naive
    · subst aware
      cases run
    · rw [enqueue_aware _ _ _ _ _ _ aware] at run
      split at run
      next =>
        obtain ⟨fresh, rfl⟩ := insertJob_returned run
        by_cases here : other = ident
        · subst here
          refine .inr ⟨rfl, ?_⟩
          simp only [postgres, inserted, find_insert, PgJobs.newJob, if_true, map_some]
        · refine .inl ?_
          simp only [postgres, inserted, find_insert, PgJobs.newJob, if_neg (Ne.symm here)]
      next => cases run

theorem lawful : Lawful postgres True where
  enqueue run := enqueue_effect run
  claim {worker token clock s answer t} run := by
    cases claimed : PgJobs.claim worker token clock s with
    | mk result t' =>
      have effect := (claim_effect claimed).1
      cases result with
      | ok job =>
        rw [show postgres.claim worker token clock s = _ from run_bind_ok claimed] at run
        cases run
        exact effect
      | error e =>
        rw [show postgres.claim worker token clock s = _ from run_bind_error claimed] at run
        cases run
        exact effect
  claimed {worker token clock s job t} run := by
    obtain ⟨row, s', done, returned⟩ := bind_returned run
    cases row with
    | none => cases returned
    | some row =>
      cases returned
      exact ⟨view row, (claim_effect done).2 row rfl, rfl⟩
  heartbeat run := heartbeat_effect run
  finish run := finish_effect run
  fail run := fail_effect run
  cancelRunning mem run := by
    obtain rfl := List.mem_singleton.mp mem
    exact cancelRunning_effect run
  requestCancel run := requestCancel_effect run
  purgePrincipal run := purge_effect run
  sweepPurges run := sweep_effect run

end Postgres

end Meemee.Guarantees.StoreEffects
