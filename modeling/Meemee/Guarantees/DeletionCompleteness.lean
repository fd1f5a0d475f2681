import Meemee.Guarantees.DeletionSteps
import Meemee.Guarantees.JobTombstones

/-!
# A completed account deletion is complete

Any number of processes purge, resume and crash, each access to a store or to the ledger at a time,
while other programs write what they like. `since` keeps for each deletion the steps that ran for
its principal after it was opened, and `quiet` whether no write of others brought the principal a
new row since then.
-/
namespace Meemee.Guarantees.DeletionCompleteness
open Library Library.History Library.Ownership Source Source.PurgeTargets Library.Txn Library.Table Option List
open Source.AccountDeletion Guarantees.DeletionSteps
open Guarantees.JobMoves (JobView)
open Guarantees.JobTombstones

/-- No row of the principal is there that was not there before, in whatever state. -/
structure NothingNew (principal : String) (s t : Stores) : Prop where
  rows : ∀ table, ∀ r ∈ t.tables table, belongs t.tables principal (ownerPath table) r = true →
    ∃ old ∈ s.tables table, old.key = r.key ∧
      belongs s.tables principal (ownerPath table) old = true
  jobs : ∀ job ∈ t.jobs.jobs, Jobs.ownedBy principal job = true →
    ∃ old ∈ s.jobs.jobs, old.id = job.id ∧ Jobs.ownedBy principal old = true

structure System where
  deployment : Deployment
  purgers : List (Option Purger)
  since : List (String × StepName)
  quiet : String → Prop

inductive Action where
  | purge (ident principal requestedBy : String) (now : Instant)
  | resume
  | advance (i : Nat) (now : Instant)
  | crash (i : Nat)
  /-- Anything another program does to the stores. -/
  | write (change : Stores → Stores)

/-- The step the process is about to run has run for every deletion of its principal. -/
def marksOf (p : Purger) (ledger : DeletionLedger) : List (String × StepName) :=
  match p.phase with
  | .stepping (name :: _) =>
    (ledger.deletions.select (fun d => decide (d.principal = p.principal))).map
      (fun d => (d.id, name))
  | _ => []

def System.start (stores : Stores) : System :=
  ⟨⟨stores, DeletionLedger.empty⟩, [], [], fun _ => True⟩

/-- A process that has just been started; one that raised is none. -/
def System.started (s : System) (m : DeploymentTxn (Option Purger)) :
    Except Exc (Option Report) × System :=
  match m s.deployment with
  | (.ok p, d) => (.ok none, { s with deployment := d, purgers := s.purgers ++ [p] })
  | (.error e, d) => (.error e, { s with deployment := d })

/-- A process makes its next access. -/
def System.advanced (s : System) (i : Nat) (p : Purger)
    (m : DeploymentTxn (Option Purger × Option Report)) : Except Exc (Option Report) × System :=
  match m s.deployment with
  | (.ok (next, report), d) =>
    (.ok report, { s with
      deployment := d
      purgers := s.purgers.set i next
      since := s.since ++ marksOf p s.deployment.ledger })
  | (.error e, d) => (.error e, { s with deployment := d, purgers := s.purgers.set i none })

/-- Another program's write. -/
def System.written (s : System) (change : Stores → Stores) : System :=
  { s with
    deployment := { s.deployment with stores := change s.deployment.stores }
    quiet := fun ident => s.quiet ident ∧ ∀ d, s.deployment.ledger.deletions.find ident = some d →
      NothingNew d.principal s.deployment.stores (change s.deployment.stores) }

def step (targets : PurgeTargets) (runId : String → Option String) (s : System) :
    Action → Except Exc (Option Report) × System
  | .purge ident principal requestedBy now =>
    s.started (startPurge ident principal requestedBy now)
  | .resume => s.started startResume
  | .advance i now =>
    match s.purgers[i]? with
    | some (some p) => s.advanced i p (p.advance targets runId now)
    | _ => (.ok none, s)
  | .crash i => (.ok none, { s with purgers := s.purgers.set i none })
  | .write change => (.ok none, s.written change)

def principalOf (ledger : DeletionLedger) (ident : String) : Option String :=
  (ledger.deletions.find ident).map Deletion.principal

/-- Nothing of the principal is left where the step deletes. -/
structure Emptied (name : StepName) (principal : String) (s : Stores) : Prop where
  tables : ∀ t ∈ stepTables name, ∀ r ∈ s.tables t,
    belongs s.tables principal (ownerPath t) r = false
  jobs : name = .jobs → ∀ job ∈ s.jobs.jobs, Jobs.ownedBy principal job = false

/-- Every step is still to come or has run. -/
def Covered (targets : PurgeTargets) (s : System) (ident : String) (left : List StepName) : Prop :=
  ∀ name ∈ stepsOf targets, name ∈ left ∨ (ident, name) ∈ s.since

/-- What a process has of its deletion behind it. -/
def AtPhase (targets : PurgeTargets) (s : System) (ident : String) : Phase → Prop
  | .loading => True
  | .stepping left => Covered targets s ident left
  | .recording name _ left => (ident, name) ∈ s.since ∧ Covered targets s ident left
  | .reporting => Covered targets s ident []

structure Working (targets : PurgeTargets) (s : System) (p : Purger) : Prop where
  owner : principalOf s.deployment.ledger p.deletionId = some p.principal
  queue : ∀ e ∈ p.queue, principalOf s.deployment.ledger e.1 = some e.2
  phase : AtPhase targets s p.deletionId p.phase

structure Sound (targets : PurgeTargets) (s : System) : Prop where
  single : ∀ d ∈ s.deployment.ledger.deletions, ∀ d' ∈ s.deployment.ledger.deletions,
    d.status = .inProgress → d'.status = .inProgress → d.principal = d'.principal → d = d'
  recorded : ∀ row ∈ s.deployment.ledger.steps, (row.deletionId, row.step) ∈ s.since
  stored : ∀ mark ∈ s.since, (s.deployment.ledger.deletions.find mark.1).isSome = true
  working : ∀ p, some p ∈ s.purgers → Working targets s p
  completed : ∀ d ∈ s.deployment.ledger.deletions, d.status = .completed →
    Covered targets s d.id []
  emptied : ∀ ident name principal, (ident, name) ∈ s.since → s.quiet ident →
    principalOf s.deployment.ledger ident = some principal →
    Emptied name principal s.deployment.stores

variable {ident : String} {v : JobView} {left : List StepName} {p : Purger}
  {ledger : DeletionLedger} {now : Instant} {name : StepName}

section Emptied

variable {name other : StepName} {principal q : String} {now : Instant} {s t : Stores}

theorem job_of_view {store : Jobs.JobStore} (seen : JobMoves.view store ident = some v) :
    v.job ∈ store.jobs := by
  obtain ⟨job, found, same⟩ := map_eq_some_iff.mp seen
  subst same
  exact mem_of_find found

theorem purgedView_owned {v' : JobView} (purged : purgedView q now v = some v')
    (owned : Jobs.ownedBy principal v'.job = true) : v' = v ∧ Jobs.ownedBy q v.job = false := by
  unfold purgedView at purged
  split at purged
  next =>
    split at purged
    next =>
      cases purged
      cases owned
    next => cases purged
  next free =>
    cases purged
    exact ⟨rfl, Bool.eq_false_iff.mpr free⟩

/-- A job after a step is one from before it, or a tombstone without an owner. -/
theorem job_before (executed : Executed name q now s t) {job : Jobs.Job}
    (stored : job ∈ t.jobs.jobs) (owned : Jobs.ownedBy principal job = true) :
    job ∈ s.jobs.jobs ∧ (name = .jobs → Jobs.ownedBy q job = false) := by
  have seen := executed.jobs job.id
  rw [JobMoves.view_some (find_of_mem stored)] at seen
  split at seen
  next =>
    obtain ⟨v, found, purged⟩ := bind_eq_some_iff.mp seen.symm
    obtain ⟨same, free⟩ := purgedView_owned purged owned
    rw [← same] at found free
    exact ⟨job_of_view found, fun _ => free⟩
  next elsewhere => exact ⟨job_of_view seen.symm, fun jobs => absurd jobs elsewhere⟩

theorem emptied_executed (executed : Executed name principal now s t) :
    Emptied name principal t := by
  constructor
  · intro table mem r stored
    exact executed.tables.gone mem stored
  · intro jobs job stored
    cases owned : Jobs.ownedBy principal job with
    | false => rfl
    | true =>
      rw [(job_before executed stored owned).2 jobs] at owned
      cases owned

theorem Emptied.executed (emptied : Emptied name principal s)
    (executed : Executed other q now s t) : Emptied name principal t := by
  constructor
  · intro table mem r stored
    cases owned : belongs t.tables principal (ownerPath table) r with
    | false => rfl
    | true =>
      have before := emptied.tables table mem r (executed.tables.mem stored)
      rw [executed.tables.belongs_before owned] at before
      cases before
  · intro jobs job stored
    cases owned : Jobs.ownedBy principal job with
    | false => rfl
    | true =>
      rw [emptied.jobs jobs job (job_before executed stored owned).1] at owned
      cases owned

theorem Emptied.quiet (emptied : Emptied name principal s) (quiet : NothingNew principal s t) :
    Emptied name principal t := by
  constructor
  · intro table mem r stored
    cases owned : belongs t.tables principal (ownerPath table) r with
    | false => rfl
    | true =>
      obtain ⟨old, there, -, before⟩ := quiet.rows table r stored owned
      rw [emptied.tables table mem old there] at before
      cases before
  · intro jobs job stored
    cases owned : Jobs.ownedBy principal job with
    | false => rfl
    | true =>
      obtain ⟨old, there, -, before⟩ := quiet.jobs job stored owned
      rw [emptied.jobs jobs old there] at before
      cases before

end Emptied

section Steps

variable {targets : PurgeTargets} {runId : String → Option String} {s : System}

theorem covered_grows {t : System} (covered : Covered targets s ident left)
    (since : ∀ mark ∈ s.since, mark ∈ t.since) : Covered targets t ident left := by
  intro name mem
  rcases covered name mem with waits | ran
  · exact .inl waits
  · exact .inr (since _ ran)

/-- A process stays on its way when deletions keep their principals and nothing is unmarked. -/
theorem working_grows {t : System} (working : Working targets s p)
    (owners : ∀ ident q, principalOf s.deployment.ledger ident = some q →
      principalOf t.deployment.ledger ident = some q) (since : ∀ mark ∈ s.since, mark ∈ t.since) :
    Working targets t p := by
  refine ⟨owners _ _ working.owner, fun e mem => owners _ _ (working.queue e mem), ?_⟩
  have phase := working.phase
  revert phase
  cases p.phase with
  | loading => exact id
  | stepping left => exact fun covered => covered_grows covered since
  | recording name counts left =>
    exact fun at_ => ⟨since _ at_.1, covered_grows at_.2 since⟩
  | reporting => exact fun covered => covered_grows covered since

theorem sound_purgers (sound : Sound targets s) {purgers : List (Option Purger)}
    (working : ∀ p, some p ∈ purgers → some p ∈ s.purgers ∨ Working targets s p) :
    Sound targets { s with purgers := purgers } := by
  refine ⟨sound.single, sound.recorded, sound.stored, ?_, sound.completed, sound.emptied⟩
  intro p mem
  rcases working p mem with before | works
  · exact working_grows (sound.working p before) (fun _ _ owner => owner) (fun _ mark => mark)
  · exact working_grows works (fun _ _ owner => owner) (fun _ mark => mark)

theorem sound_set (sound : Sound targets s) {i : Nat} {next : Option Purger}
    (works : ∀ p, next = some p → Working targets s p) :
    Sound targets { s with purgers := s.purgers.set i next } := by
  apply sound_purgers sound
  intro p mem
  rcases mem_or_eq_of_mem_set mem with before | same
  · exact .inl before
  · exact .inr (works p same.symm)

theorem sound_appended (sound : Sound targets s) {next : Option Purger}
    (works : ∀ p, next = some p → Working targets s p) :
    Sound targets { s with purgers := s.purgers ++ [next] } := by
  apply sound_purgers sound
  intro p mem
  rcases mem_append.mp mem with before | same
  · exact .inl before
  · exact .inr (works p (mem_singleton.mp same).symm)

theorem working_resumed {queue : List (String × String)}
    (owners : ∀ e ∈ queue, principalOf s.deployment.ledger e.1 = some e.2) :
    ∀ p, Purger.resumed queue = some p → Working targets s p := by
  intro p resumed
  cases queue with
  | nil => cases resumed
  | cons e rest =>
    cases resumed
    exact ⟨owners e mem_cons_self,
      fun e' mem => owners e' (mem_cons_of_mem _ mem), trivial⟩

/-- Another program's write disturbs the deletions whose principal it gives a row. -/
theorem sound_written (sound : Sound targets s) (change : Stores → Stores) :
    Sound targets (s.written change) := by
  refine ⟨sound.single, sound.recorded, sound.stored, ?_, sound.completed, ?_⟩
  · intro p mem
    exact working_grows (sound.working p mem) (fun _ _ owner => owner) (fun _ mark => mark)
  · intro ident name principal mark quiet owner
    obtain ⟨before, undisturbed⟩ := quiet
    obtain ⟨d, found, rfl⟩ := map_eq_some_iff.mp owner
    exact (sound.emptied ident name d.principal mark before owner).quiet (undisturbed d found)

theorem principalOf_mem {d : Deletion} (stored : d ∈ ledger.deletions) :
    principalOf ledger d.id = some d.principal := by
  rw [principalOf, find_of_mem stored]
  rfl

theorem principalOf_complete (ident other : String) :
    principalOf (ledger.complete ident now) other = principalOf ledger other := by
  unfold principalOf DeletionLedger.complete
  rw [find_update_key]
  split
  next =>
    cases ledger.deletions.find other with
    | none => rfl
    | some d => rfl
  next => rfl

theorem mem_marks {mark : String × StepName} (phase : p.phase = .stepping (name :: left)) :
    mark ∈ marksOf p ledger ↔
      mark.2 = name ∧ principalOf ledger mark.1 = some p.principal := by
  unfold marksOf
  rw [phase]
  simp only [List.mem_map]
  constructor
  · rintro ⟨d, selected, rfl⟩
    obtain ⟨stored, same⟩ := List.mem_filter.mp selected
    refine ⟨rfl, ?_⟩
    rw [principalOf_mem stored, of_decide_eq_true same]
  · rintro ⟨rfl, owner⟩
    obtain ⟨d, found, same⟩ := map_eq_some_iff.mp owner
    refine ⟨d, List.mem_filter.mpr ⟨mem_of_find found, decide_eq_true same⟩, ?_⟩
    rw [key_of_find found]

theorem sound_executed (sound : Sound targets s) {t : Stores}
    (phase : p.phase = .stepping (name :: left))
    (executed : Executed name p.principal now s.deployment.stores t) :
    Sound targets { s with
      deployment := { s.deployment with stores := t }
      since := s.since ++ marksOf p s.deployment.ledger } := by
  have grows : ∀ mark ∈ s.since, mark ∈ s.since ++ marksOf p s.deployment.ledger :=
    fun _ mark => mem_append_left _ mark
  refine ⟨sound.single, fun row mem => grows _ (sound.recorded row mem), ?_, ?_, ?_, ?_⟩
  · intro mark mem
    rcases mem_append.mp mem with before | new
    · exact sound.stored mark before
    · obtain ⟨-, owner⟩ := (mem_marks phase).mp new
      obtain ⟨d, found, -⟩ := map_eq_some_iff.mp owner
      simp only [found, isSome_some]
  · intro q mem
    exact working_grows (sound.working q mem) (fun _ _ owner => owner) grows
  · intro d stored completed
    exact covered_grows (sound.completed d stored completed) grows
  · intro ident other principal mem quiet owner
    rcases mem_append.mp mem with before | new
    · exact (sound.emptied ident other principal before quiet owner).executed executed
    · obtain ⟨rfl, same⟩ := (mem_marks phase).mp new
      rw [same] at owner
      cases owner
      exact emptied_executed executed

theorem sound_recorded (sound : Sound targets s) {row : FinishedStep}
    (ran : (row.deletionId, row.step) ∈ s.since) :
    Sound targets { s with
      deployment := { s.deployment with ledger := s.deployment.ledger.recordStep row } } := by
  refine ⟨sound.single, ?_, sound.stored, ?_, sound.completed, sound.emptied⟩
  · intro other mem
    rcases mem_append.mp mem with kept | new
    · exact sound.recorded other (mem_of_mem_filter kept)
    · rw [mem_singleton.mp new]
      exact ran
  · intro q mem
    exact working_grows (sound.working q mem) (fun _ _ owner => owner) (fun _ mark => mark)

theorem mem_complete {d : Deletion} (stored : d ∈ (ledger.complete ident now).deletions) :
    (d ∈ ledger.deletions ∧ d.id ≠ ident) ∨ (d.id = ident ∧ d.status = .completed) := by
  simp only [DeletionLedger.complete, mem_update] at stored
  obtain ⟨row, there, rfl⟩ := stored
  by_cases here : row.id = ident
  · simp [here, Deletion.completed]
  · left
    simp only [here]
    exact ⟨there, here⟩

theorem sound_completed (sound : Sound targets s) (covered : Covered targets s ident []) :
    Sound targets { s with
      deployment := { s.deployment with ledger := s.deployment.ledger.complete ident now } } := by
  have before : ∀ d ∈ (s.deployment.ledger.complete ident now).deletions,
      d.status = .inProgress → d ∈ s.deployment.ledger.deletions := by
    intro d stored progress
    rcases mem_complete stored with ⟨there, -⟩ | ⟨-, completed⟩
    · exact there
    · rw [completed] at progress
      cases progress
  refine ⟨?_, sound.recorded, ?_, ?_, ?_, ?_⟩
  · intro d stored d' stored' progress progress'
    exact sound.single d (before d stored progress) d' (before d' stored' progress') progress
      progress'
  · intro mark mem
    have stored := sound.stored mark mem
    unfold DeletionLedger.complete
    rw [find_update_key]
    split
    · simpa using stored
    · exact stored
  · intro p mem
    refine working_grows (sound.working p mem) ?_ (fun _ mark => mark)
    intro other q owner
    rw [← owner]
    exact principalOf_complete ident other
  · intro d stored completed
    rcases mem_complete stored with ⟨there, -⟩ | ⟨same, -⟩
    · exact sound.completed d there completed
    · rw [same]
      exact covered
  · intro other name principal mem quiet owner
    refine sound.emptied other name principal mem quiet ?_
    rw [← owner]
    exact (principalOf_complete ident other).symm

/-- Opening finds the deletion in progress, or starts one when there is none. -/
theorem openDeletion_cases (ident principal requestedBy : String) (now : Instant)
    (s : DeletionLedger) :
    (∃ e, DeletionLedger.openDeletion ident principal requestedBy now s = (.error e, s)) ∨
      (∃ row ∈ s.deletions, row.principal = principal ∧
        DeletionLedger.openDeletion ident principal requestedBy now s = (.ok row.id, s)) ∨
      ∃ fresh : s.deletions.find ident = none,
        (∀ d ∈ s.deletions, DeletionLedger.isOpen principal d = false) ∧
        DeletionLedger.openDeletion ident principal requestedBy now s = (.ok ident, { s with
          deletions := s.deletions.insert (newDeletion ident principal requestedBy now) fresh }) := by
  cases found : s.deletions.select (DeletionLedger.isOpen principal) with
  | cons row rest =>
    right
    left
    have selected : row ∈ s.deletions.select (DeletionLedger.isOpen principal) := by
      rw [found]
      exact mem_cons_self
    obtain ⟨stored, isOpen⟩ := List.mem_filter.mp selected
    refine ⟨row, stored, (of_decide_eq_true isOpen).1, ?_⟩
    apply atomically_of_ok
    rw [run_bind_read, found]
    rfl
  | nil =>
    have none_ : ∀ d ∈ s.deletions, DeletionLedger.isOpen principal d = false := by
      apply select_isEmpty.mp
      rw [found]
      rfl
    by_cases taken : s.deletions.find ident = none
    · right
      right
      refine ⟨taken, none_, ?_⟩
      apply atomically_of_ok
      rw [run_bind_read, found]
      have inserted := @insertOrIgnore_fresh _ _ _ _ s.deletions
        (newDeletion ident principal requestedBy now) taken
      simp only [List.head?_nil, run_bind_read, run_require_bind, inserted, if_true,
        run_bind_write, run_pure]
    · left
      obtain ⟨other, found'⟩ := ne_none_iff_exists'.mp taken
      refine ⟨.integrityError "UNIQUE constraint failed: account_deletions.id", ?_⟩
      apply atomically_of_error (t := s)
      rw [run_bind_read, found]
      have conflict := @insertOrIgnore_conflict _ _ _ _ s.deletions
        (newDeletion ident principal requestedBy now) other found'
      simp only [List.head?_nil, run_bind_read, run_require_bind, conflict,
        Bool.false_eq_true, if_false]

theorem sound_opened (sound : Sound targets s) {new : Deletion}
    (fresh : s.deployment.ledger.deletions.find new.id = none)
    (none_ : ∀ d ∈ s.deployment.ledger.deletions, DeletionLedger.isOpen new.principal d = false)
    (progress : new.status = .inProgress) :
    Sound targets { s with
      deployment := { s.deployment with
        ledger := { s.deployment.ledger with
          deletions := s.deployment.ledger.deletions.insert new fresh } } } := by
  have alone : ∀ d ∈ s.deployment.ledger.deletions, d.status = .inProgress →
      d.principal ≠ new.principal := by
    intro d stored inProgress same
    have closed := of_decide_eq_false (none_ d stored)
    exact closed ⟨same, inProgress⟩
  refine ⟨?_, sound.recorded, ?_, ?_, ?_, ?_⟩
  · intro d stored d' stored' inProgress inProgress' same
    rcases (mem_insert fresh).mp stored with old | rfl
    · rcases (mem_insert fresh).mp stored' with old' | rfl
      · exact sound.single d old d' old' inProgress inProgress' same
      · exact absurd same (alone d old inProgress)
    · rcases (mem_insert fresh).mp stored' with old' | rfl
      · exact absurd same.symm (alone d' old' inProgress')
      · rfl
  · intro mark mem
    obtain ⟨d, found⟩ := isSome_iff_exists.mp (sound.stored mark mem)
    rw [find_insert_of_found fresh found]
    rfl
  · intro p mem
    refine working_grows (sound.working p mem) ?_ (fun _ mark => mark)
    intro ident q owner
    obtain ⟨d, found, same⟩ := map_eq_some_iff.mp owner
    exact map_eq_some_iff.mpr ⟨d, find_insert_of_found fresh found, same⟩
  · intro d stored completed
    rcases (mem_insert fresh).mp stored with old | rfl
    · exact sound.completed d old completed
    · rw [progress] at completed
      cases completed
  · intro ident name principal mem quiet owner
    refine sound.emptied ident name principal mem quiet ?_
    obtain ⟨d, found⟩ := isSome_iff_exists.mp (sound.stored _ mem)
    have kept := find_insert_of_found fresh found
    obtain ⟨d', found', same⟩ := map_eq_some_iff.mp owner
    rw [kept] at found'
    cases found'
    exact map_eq_some_iff.mpr ⟨d, found, same⟩

theorem sound_purge (sound : Sound targets s) (ident principal requestedBy : String)
    (now : Instant) :
    Sound targets (s.started (startPurge ident principal requestedBy now)).2 := by
  have unchanged : ∀ e, startPurge ident principal requestedBy now s.deployment =
      (.error e, s.deployment) →
      Sound targets (s.started (startPurge ident principal requestedBy now)).2 := by
    intro e raised
    simp only [System.started, raised]
    exact sound
  by_cases given : principal = ""
  · subst given
    exact unchanged _ rfl
  have opens : ∀ result ledger, DeletionLedger.openDeletion ident principal requestedBy now
      s.deployment.ledger = (result, ledger) →
      startPurge ident principal requestedBy now s.deployment =
        (result.map (fun deletionId => some ⟨deletionId, principal, .loading, []⟩),
          { s.deployment with ledger := ledger }) := by
    intro result ledger run
    simp only [startPurge, given, ne_eq, run_require_bind]
    rw [run_bind, Txn.within, run]
    cases result <;> rfl
  rcases openDeletion_cases ident principal requestedBy now s.deployment.ledger with
    ⟨e, raised⟩ | ⟨row, stored, owner, found⟩ | ⟨fresh, none_, inserted⟩
  · exact unchanged e (opens _ _ raised)
  · simp only [System.started, opens _ _ found]
    apply sound_appended sound
    intro p same
    cases same
    refine ⟨?_, by simp, trivial⟩
    rw [principalOf_mem stored, owner]
  · have opened := @sound_opened targets s sound (newDeletion ident principal requestedBy now) fresh
      none_ rfl
    simp only [System.started, opens _ _ inserted]
    apply sound_appended opened
    intro p same
    cases same
    refine ⟨?_, by simp, trivial⟩
    have found := (find_insert s.deployment.ledger.deletions
      (newDeletion ident principal requestedBy now) fresh ident).trans (if_pos rfl)
    exact map_eq_some_iff.mpr ⟨_, found, rfl⟩

theorem sound_resume (sound : Sound targets s) : Sound targets (s.started startResume).2 := by
  apply sound_appended sound
  apply working_resumed
  intro e mem
  obtain ⟨d, listed, rfl⟩ := List.mem_map.mp mem
  have selected := (mem_insertionSort _).mp listed
  exact principalOf_mem (mem_of_mem_filter selected)

theorem sound_advance (sound : Sound targets s) {i : Nat} (now : Instant)
    (working : Working targets s p) :
    Sound targets (s.advanced i p (p.advance targets runId now)).2 := by
  have covered := working.phase
  cases phase : p.phase with
  | loading =>
    simp only [System.advanced, Purger.advance, phase, marksOf, append_nil]
    apply sound_set sound
    intro p' same
    cases same
    refine ⟨working.owner, working.queue, ?_⟩
    intro name mem
    cases done : ((s.deployment.ledger.doneSteps p.deletionId).map Prod.fst).contains name with
    | false =>
      left
      rw [List.mem_filter, done]
      exact ⟨mem, rfl⟩
    | true =>
      right
      obtain ⟨entry, found, rfl⟩ := List.mem_map.mp (contains_iff_mem.mp done)
      obtain ⟨row, selected, rfl⟩ := List.mem_map.mp found
      obtain ⟨stored, same⟩ := List.mem_filter.mp selected
      rw [← of_decide_eq_true same]
      exact sound.recorded row stored
  | stepping left =>
    rw [phase] at covered
    cases left with
    | nil =>
      simp only [System.advanced, Purger.advance, phase, marksOf, append_nil]
      apply sound_set (sound_completed sound covered)
      intro p' same
      cases same
      refine ⟨?_, ?_, covered⟩
      · exact (principalOf_complete _ _).trans working.owner
      · intro e mem
        exact (principalOf_complete _ _).trans (working.queue e mem)
    | cons name left =>
      have advance : ∀ result stores, runStep runId p.principal now name s.deployment.stores =
          (result, stores) → p.advance targets runId now s.deployment = match result with
            | .ok counts => (.ok (some { p with phase := .recording name counts left }, none),
                { s.deployment with stores := stores })
            | .error e => (.error e, { s.deployment with stores := stores }) := by
        intro result stores run
        simp only [Purger.advance, phase, run_bind, Txn.within, run]
        cases result <;> rfl
      rcases runStep_cases runId p.principal now name s.deployment.stores with
        ⟨e, raised⟩ | ⟨counts, t, returned, executed⟩
      · simp only [System.advanced, advance _ _ raised]
        exact sound_set sound (by simp)
      · simp only [System.advanced, advance _ _ returned]
        have ran := sound_executed sound phase executed
        apply sound_set ran
        intro p' same
        cases same
        refine ⟨working.owner, working.queue, ?_, ?_⟩
        · exact mem_append_right _ ((mem_marks phase).mpr ⟨rfl, working.owner⟩)
        · intro other mem
          rcases covered other mem with here | before
          · rcases mem_cons.mp here with rfl | later
            · right
              exact mem_append_right _ ((mem_marks phase).mpr ⟨rfl, working.owner⟩)
            · exact .inl later
          · exact .inr (mem_append_left _ before)
  | recording name counts left =>
    rw [phase] at covered
    simp only [System.advanced, Purger.advance, phase, marksOf, append_nil]
    apply sound_set (sound_recorded sound covered.1)
    intro p' same
    cases same
    exact ⟨working.owner, working.queue, covered.2⟩
  | reporting =>
    simp only [System.advanced, Purger.advance, phase, marksOf, append_nil]
    exact sound_set sound (working_resumed working.queue)

theorem sound_step (s : System) (action : Action) (sound : Sound targets s) :
    Sound targets (step targets runId s action).2 := by
  cases action with
  | purge ident principal requestedBy now => exact sound_purge sound ident principal requestedBy now
  | resume => exact sound_resume sound
  | advance i now =>
    simp only [step]
    split
    next p found =>
      exact sound_advance sound now (sound.working p (mem_of_getElem? found))
    next => exact sound
  | crash i => exact sound_set sound (by simp)
  | write change => exact sound_written sound change

theorem sound_start (stores : Stores) : Sound targets (System.start stores) := by
  constructor <;> simp [System.start, DeletionLedger.empty, Table.empty, ← mem_rows]

end Steps

def rowsOf (principal : String) (s : Stores) (table : TableName) : List StoredRow :=
  (s.tables table).select (belongs s.tables principal (ownerPath table))

/-- Only rows of the principal went, and nothing came. -/
structure OnlyOf (principal : String) (s t : Stores) : Prop where
  others : ∀ q, q ≠ principal → ∀ table, rowsOf q t table = rowsOf q s table
  kept : ∀ table, ∀ r ∈ s.tables table, belongs s.tables principal (ownerPath table) r = false →
    r ∈ t.tables table
  old : ∀ table, ∀ r ∈ t.tables table, r ∈ s.tables table
  otherJobs : ∀ ident v, JobMoves.view s.jobs ident = some v →
    Jobs.ownedBy principal v.job = false → JobMoves.view t.jobs ident = some v
  oldJobs : ∀ ident, JobMoves.view s.jobs ident = none → JobMoves.view t.jobs ident = none

theorem onlyOf_executed {principal : String} {s t : Stores}
    (executed : Executed name principal now s t) : OnlyOf principal s t := by
  refine ⟨?_, ?_, ?_, ?_, ?_⟩
  · intro q other table
    exact executed.tables.select_other ownerPath_coherent other
  · intro table r stored others
    exact executed.tables.kept stored others
  · intro table r stored
    exact executed.tables.mem stored
  · intro ident v seen others
    rw [executed.jobs ident, seen]
    split
    · rw [bind_some, purgedView, if_neg (by rw [others]; exact Bool.false_ne_true)]
    · rfl
  · intro ident absent
    rw [executed.jobs ident, absent]
    split <;> rfl

def isWrite : Action → Bool
  | .write _ => true
  | _ => false

/-- The step an access runs, with its principal. -/
def executes (runId : String → Option String) (s : System) : Action → List (String × StepName)
  | .advance i now =>
    match s.purgers[i]? with
    | some (some p) =>
      match p.phase with
      | .stepping (name :: _) =>
        match (runStep runId p.principal now name s.deployment.stores).1 with
        | .ok _ => [(p.principal, name)]
        | .error _ => []
      | _ => []
    | _ => []
  | _ => []

/-- An access of a purger runs a step, or leaves the stores and the marks alone. -/
theorem step_cases (targets : PurgeTargets) (runId : String → Option String) (s : System)
    (action : Action) (own : isWrite action = false) :
    (∃ name principal now marks, executes runId s action = [(principal, name)] ∧
      Executed name principal now s.deployment.stores
        (step targets runId s action).2.deployment.stores ∧
      (step targets runId s action).2.since = s.since ++ marks ∧
      ∀ mark ∈ marks, mark.2 = name ∧
        principalOf s.deployment.ledger mark.1 = some principal) ∨
    (executes runId s action = [] ∧
      (step targets runId s action).2.deployment.stores = s.deployment.stores ∧
      (step targets runId s action).2.since = s.since) := by
  cases action with
  | write change => cases own
  | resume => exact .inr ⟨rfl, rfl, rfl⟩
  | crash i => exact .inr ⟨rfl, rfl, rfl⟩
  | purge ident principal requestedBy now =>
    right
    simp only [step, System.started]
    by_cases given : principal = ""
    · subst given
      exact ⟨rfl, rfl, rfl⟩
    · simp only [startPurge, given, ne_eq, run_require_bind]
      rw [run_bind, Txn.within]
      rcases DeletionLedger.openDeletion ident principal requestedBy now s.deployment.ledger with
        ⟨result, ledger⟩
      cases result <;> exact ⟨rfl, rfl, rfl⟩
  | advance i now =>
    simp only [step, executes]
    cases found : s.purgers[i]? with
    | none => exact .inr ⟨rfl, rfl, rfl⟩
    | some purger =>
      cases purger with
      | none => exact .inr ⟨rfl, rfl, rfl⟩
      | some p =>
        simp only [System.advanced, Purger.advance]
        cases phase : p.phase with
        | loading | recording | reporting =>
          simp only [marksOf, phase]
          exact .inr ⟨trivial, rfl, append_nil _⟩
        | stepping left =>
          cases left with
          | nil =>
            simp only [marksOf, phase]
            exact .inr ⟨trivial, rfl, append_nil _⟩
          | cons name left =>
            simp only [run_bind, Txn.within]
            rcases runStep_cases runId p.principal now name s.deployment.stores with
              ⟨e, raised⟩ | ⟨counts, t, returned, executed⟩
            · rw [raised]
              exact .inr ⟨rfl, rfl, rfl⟩
            · left
              rw [returned]
              exact ⟨name, p.principal, now, marksOf p s.deployment.ledger, rfl, executed, rfl,
                fun mark => (mem_marks phase).mp⟩

theorem principal_step (targets : PurgeTargets) (runId : String → Option String) (s : System)
    (action : Action) {q : String} (owner : principalOf s.deployment.ledger ident = some q) :
    principalOf (step targets runId s action).2.deployment.ledger ident = some q := by
  cases action with
  | write change | resume | crash i => exact owner
  | purge new principal requestedBy now =>
    simp only [step, System.started]
    by_cases given : principal = ""
    · subst given
      exact owner
    · simp only [startPurge, given, ne_eq, run_require_bind]
      rw [run_bind, Txn.within]
      rcases openDeletion_cases new principal requestedBy now s.deployment.ledger with
        ⟨e, raised⟩ | ⟨row, -, -, found⟩ | ⟨fresh, -, inserted⟩
      · rw [raised]
        exact owner
      · rw [found]
        exact owner
      · rw [inserted]
        obtain ⟨d, stored, same⟩ := map_eq_some_iff.mp owner
        exact map_eq_some_iff.mpr ⟨d, find_insert_of_found fresh stored, same⟩
  | advance i now =>
    simp only [step]
    split
    next p _ =>
      simp only [System.advanced, Purger.advance]
      cases p.phase with
      | loading | recording name counts left | reporting => exact owner
      | stepping left =>
        cases left with
        | nil => exact (principalOf_complete _ _).trans owner
        | cons name left =>
          simp only [run_bind, Txn.within]
          rcases runStep runId p.principal now name s.deployment.stores with ⟨result, t⟩
          cases result <;> exact owner
    next => exact owner

def run (targets : PurgeTargets) (runId : String → Option String) (stores : Stores)
    (actions : List Action) : System :=
  final (step targets runId) (System.start stores) actions

/-- What removes the tombstone of a job: its worker's `finish`, `fail` or `settle_purge`, and a
sweep unless a worker may hold it and `stale_before` is not past its last update. -/
structure Removed (s : Jobs.JobStore) (ident : String) (v : JobView) : Prop where
  finish : ∀ result now, JobMoves.view (Jobs.finish ident result now s).2 ident = none
  fail : ∀ error now, JobMoves.view (Jobs.fail ident error now s).2 ident = none
  settlePurge : JobMoves.view (Jobs.settlePurge ident s).2 ident = none
  swept : ∀ stale, (v.job.held = false ∨ ∃ before, stale = some before ∧ v.job.updatedAt < before) →
    JobMoves.view (Jobs.sweepPurges stale s).2 ident = none
  spared : ∀ stale, v.job.held = true → (∀ before, stale = some before → before ≤ v.job.updatedAt) →
    JobMoves.view (Jobs.sweepPurges stale s).2 ident = some v

theorem removed_of_tombstone {s : Jobs.JobStore} (seen : JobMoves.view s ident = some v)
    (tombstone : Tombstone v) : Removed s ident v where
  finish := fun _ now => publishTerminal_removes _ _ now seen tombstone.pending
  fail := fun _ now => publishTerminal_removes _ _ now seen tombstone.pending
  settlePurge := settlePurge_removes seen tombstone.pending
  swept := fun _ due => sweepPurges_removes seen tombstone.pending due
  spared := fun _ held recent => sweepPurges_spares seen held recent

/-- From any reachable store: a tombstone stays until a call removes it, and each can be. -/
def TombstonesLast (before later : List JobMoves.StoreCall) (ident : String) : Prop :=
  let s := final JobMoves.step Jobs.JobStore.empty before
  (∃ v, JobMoves.view s ident = some v ∧ Tombstone v) →
    (∃ v, JobMoves.view (final JobMoves.step s later) ident = some v ∧ Tombstone v ∧
      Removed (final JobMoves.step s later) ident v) ∨
    ∃ e ∈ history JobMoves.step s later, JobMoves.view e.after ident = none

theorem tombstones_last (before later : List JobMoves.StoreCall) (ident : String) :
    TombstonesLast before later ident := by
  intro tombstone
  have orphans : JobMoves.NoOrphans (final JobMoves.step Jobs.JobStore.empty before) :=
    final_invariant JobMoves.step_noOrphans (fun _ _ => rfl) before
  rcases tombstone_run orphans tombstone later with ⟨v, seen, still⟩ | ended
  · exact .inl ⟨v, seen, still, removed_of_tombstone seen still⟩
  · exact .inr ended

/-- A completed deletion ran every step after it was opened and, unless others wrote rows of its
principal since, nothing of the principal is left; no principal has two deletions in progress; an
access of a purger takes rows of one principal only, and jobs under a worker stay as tombstones,
which their worker or a sweep removes. -/
theorem deletion_complete (targets : PurgeTargets) (runId : String → Option String)
    (stores : Stores) (actions : List Action) :
    (∀ d ∈ (run targets runId stores actions).deployment.ledger.deletions,
      d.status = .completed → ∀ name ∈ stepsOf targets,
        (d.id, name) ∈ (run targets runId stores actions).since ∧
        ((run targets runId stores actions).quiet d.id →
          Emptied name d.principal (run targets runId stores actions).deployment.stores)) ∧
    (∀ d ∈ (run targets runId stores actions).deployment.ledger.deletions,
      ∀ d' ∈ (run targets runId stores actions).deployment.ledger.deletions,
      d.status = .inProgress → d'.status = .inProgress → d.principal = d'.principal → d = d') ∧
    (∀ e ∈ history (step targets runId) (System.start stores) actions, isWrite e.action = false →
      e.after.deployment.stores = e.before.deployment.stores ∨
      ∃ name principal now,
        Executed name principal now e.before.deployment.stores e.after.deployment.stores ∧
        OnlyOf principal e.before.deployment.stores e.after.deployment.stores) ∧
    (∀ job now, Tombstone ⟨Jobs.Job.tombstoned job now, []⟩) ∧
    ∀ before later ident, TombstonesLast before later ident := by
  have sound : Sound targets (run targets runId stores actions) :=
    final_invariant sound_step (sound_start stores) actions
  refine ⟨?_, sound.single, ?_, tombstone_tombstoned, tombstones_last⟩
  · intro d stored completed name member
    have ran : (d.id, name) ∈ (run targets runId stores actions).since := by
      rcases sound.completed d stored completed name member with waits | ran
      · cases waits
      · exact ran
    exact ⟨ran, fun quiet => sound.emptied d.id name d.principal ran quiet (principalOf_mem stored)⟩
  · intro e member own
    have next := step_of_mem member
    have change := step_cases targets runId e.before e.action own
    rw [next] at change
    rcases change with ⟨name, principal, now, -, -, executed, -⟩ | ⟨-, same, -⟩
    · exact Or.inr ⟨name, principal, now, executed, onlyOf_executed executed⟩
    · exact Or.inl same

/-- `sweep_purges()` leaves the tombstone of a job that a worker holds. -/
theorem sweep_spares_tombstone : ¬ ∀ (calls : List JobMoves.StoreCall) (ident : String) (v : JobView),
    JobMoves.view (final JobMoves.step Jobs.JobStore.empty calls) ident = some v →
    v.job.purgePending = true →
    JobMoves.view (JobMoves.step (final JobMoves.step Jobs.JobStore.empty calls)
      (.sweepPurges none)).2 ident = none := by
  intro all
  have gone := all [.enqueue "job" "goal" none ⟨1, by decide⟩ (some "alice") 1 1, .claim 2,
    .purgePrincipal "alice" 3] "job" _ rfl rfl
  have stays : (JobMoves.view (JobMoves.step (final JobMoves.step Jobs.JobStore.empty
    [.enqueue "job" "goal" none ⟨1, by decide⟩ (some "alice") 1 1, .claim 2,
      .purgePrincipal "alice" 3]) (.sweepPurges none)).2 "job").isSome = true := by
    decide +kernel
  rw [gone] at stays
  cases stays

end Meemee.Guarantees.DeletionCompleteness
