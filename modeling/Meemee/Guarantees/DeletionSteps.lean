import Meemee.Guarantees.JobMoves
import Meemee.Source.AccountDeletion

/-!
# What a step of an account deletion does

A step takes exactly the principal's rows out of its tables, or raises and leaves the stores alone.
The jobs step drops the principal's jobs with their events, except that a job a worker holds stays
as a tombstone without events.
-/
namespace Meemee.Guarantees.DeletionSteps
open Library Library.Ownership Source Source.PurgeTargets
open Source.AccountDeletion
open Guarantees.JobMoves (JobView tombstoneHeld purgePrincipal_returned view_tombstoneHeld
  view_drop)

/-- The tables a step empties, in the order of its statements. -/
def stepTables : StepName → List TableName
  | .memory => [.memoryEmbeddings, .memories]
  | .jobs => []
  | .runs => [.runs]
  | .idempotency => [.idempotency]
  | .quotas => [.quotaUsage, .quotaLimits]
  | .entitlements => [.principalPlans]
  | .approvals => [.toolApprovals]
  | .monitors => [.monitorSourceEvents, .monitorEvents, .monitors]
  | .personalModel => [.personalEvidence, .personalItems]
  | .context => [.contextRecords, .contextSources]
  | .webhooks => [.webhookAttempts, .webhookDeliveries, .webhookSubscriptions]
  | .companion => [.companionMessages, .companionMessageModels, .companionDestinationChallenges,
      .companionDestinationGrants, .companionConversations, .companionFacts, .companionCheckins,
      .companionUsers]
  | .browserSessions => [.browserSessionEvents, .browserTakeovers, .browserSessions]
  | .browserNotices => [.browserTakeoverNotices]
  | .reflectionSchedule => [.reflectionRuns]

theorem ownerPath_coherent : Coherent ownerPath := by
  intro t u rest leads
  cases t <;> cases leads <;> rfl

theorem stepTables_order (name : StepName) : DependentsFirst ownerPath (stepTables name) := by
  cases name <;> simp [DependentsFirst, stepTables, ownerPath]

/-- What becomes of a job: a tombstone, nothing, or what it was. -/
def purgedView (principal : String) (now : Instant) (v : JobView) : Option JobView :=
  if Jobs.ownedBy principal v.job then
    if v.job.held then some ⟨v.job.tombstoned now, []⟩ else none
  else some v

/-- The step took the principal's rows, and no others. -/
structure Executed (name : StepName) (principal : String) (now : Instant) (s t : Stores) : Prop where
  tables : Purged ownerPath principal (stepTables name) s.tables t.tables
  jobs : ∀ ident, JobMoves.view t.jobs ident =
    if name = .jobs then (JobMoves.view s.jobs ident).bind (purgedView principal now)
    else JobMoves.view s.jobs ident

/-- The stores after the statements of a step. -/
def without (principal : String) : List TableName → Stores → Stores
  | [], s => s
  | t :: rest, s => without principal rest (s.delete principal t (ownerPath t))

theorem without_tables (principal : String) (tables : List TableName) (s : Stores) :
    (without principal tables s).tables = deleteAll ownerPath principal tables s.tables := by
  induction tables generalizing s with
  | nil => rfl
  | cons t rest ih => exact ih _

theorem without_jobs (principal : String) (tables : List TableName) (s : Stores) :
    (without principal tables s).jobs = s.jobs := by
  induction tables generalizing s with
  | nil => rfl
  | cons t rest ih => exact ih _

/-- A method raises before it wrote, or takes the principal's rows out of the tables. -/
def Empties {α : Type} (principal : String) (tables : List TableName) (m : StoreTxn α) : Prop :=
  ∀ s, (∃ e, m s = (.error e, s)) ∨ ∃ a, m s = (.ok a, without principal tables s)

variable {e : Exc} {s t : Stores} {principal : String} {now : Instant}

section Methods

variable {α β : Type} {principal : String} {tables : List TableName} {m : StoreTxn α}

theorem empties_guarded {c : Bool} (body : Empties principal tables m) :
    Empties principal tables (Txn.require c e >>= fun _ => m) := by
  intro s
  cases c with
  | false => exact .inl ⟨e, rfl⟩
  | true => exact body s

theorem empties_counted {f : α → β} (body : Empties principal tables m) :
    Empties principal tables (m >>= fun a => pure (f a)) := by
  intro s
  rcases body s with ⟨e, raised⟩ | ⟨a, returned⟩
  · exact .inl ⟨e, Txn.run_bind_error raised⟩
  · exact .inr ⟨f a, Txn.run_bind_ok returned⟩

theorem stores_ext (tables : s.tables = t.tables) (jobs : s.jobs = t.jobs) : s = t := by
  cases t
  cases tables
  cases jobs
  rfl

/-- No evidence about the principal's items is left once the principal's evidence is gone. -/
theorem delete_evidence_again (principal : String) (s : Stores) :
    (s.delete principal .personalEvidence []).delete principal .personalEvidence [.personalItems] =
      s.delete principal .personalEvidence [] := by
  have unmatched : ∀ r ∈ (s.delete principal .personalEvidence []).tables .personalEvidence,
      belongs (s.delete principal .personalEvidence []).tables principal [.personalItems] r =
        false := by
    intro r stored
    cases about : belongs (s.delete principal .personalEvidence []).tables principal
        [.personalItems] r with
    | false => rfl
    | true =>
      obtain ⟨k, item, names, found, owned⟩ := belongs_through.mp about
      have same :=
        (s.delete principal .personalEvidence []).evidenceOwned r stored k item names found
      rw [belongs_column, ← same] at owned
      have kept : belongs s.tables principal [] r = false := (Table.mem_delete.mp stored).2
      rw [belongs_column.mpr owned] at kept
      cases kept
  have tables : ((s.delete principal .personalEvidence []).delete principal .personalEvidence
      [.personalItems]).tables = (s.delete principal .personalEvidence []).tables := by
    funext t
    by_cases here : t = .personalEvidence
    · subst here
      exact Table.delete_none unmatched
    · exact deleteOwned_other here
  exact stores_ext tables rfl

theorem empties_of {f : Stores → Stores} (runs : ∀ s, ∃ a, m s = (.ok a, f s))
    (same : ∀ s, f s = without principal tables s) : Empties principal tables m := by
  intro s
  obtain ⟨a, run⟩ := runs s
  rw [same] at run
  exact .inr ⟨a, run⟩

theorem memory_empties : Empties principal (stepTables .memory) (memoryPurgeOwner principal) :=
  empties_guarded (fun _ => .inr ⟨_, rfl⟩)

theorem runs_empties : Empties principal (stepTables .runs) (runsDeletePrincipal principal) :=
  empties_guarded (fun _ => .inr ⟨_, rfl⟩)

theorem personalModel_empties :
    Empties principal (stepTables .personalModel) (personalModelPurgeOwner principal) := by
  apply empties_guarded
  apply @empties_of _ _ _ _ (fun s => ((s.delete principal .personalEvidence []).delete principal
    .personalEvidence [.personalItems]).delete principal .personalItems []) (fun _ => ⟨_, rfl⟩)
  intro s
  simp only [delete_evidence_again]
  rfl

end Methods

theorem jobsPurge_executed {counts : Counts}
    (run : jobsPurgePrincipal principal now s = (.ok counts, t)) :
    Executed .jobs principal now s t := by
  obtain ⟨purged, s', first, rest⟩ := Txn.bind_returned run
  cases rest
  rcases done : Jobs.purgePrincipal principal now s.jobs with ⟨result, jobs⟩
  simp only [Txn.within, done] at first
  cases first
  constructor
  · exact purged_nil
  · intro ident
    rw [if_pos rfl, purgePrincipal_returned done, view_drop, view_tombstoneHeld]
    cases JobMoves.view s.jobs ident with
    | none => rfl
    | some v =>
      unfold purgedView
      cases owned : Jobs.ownedBy principal v.job with
      | false => simp [owned, Option.filter_some]
      | true =>
        cases held : v.job.held with
        | false => simp [owned, held, Option.filter_some]
        | true =>
          have free : Jobs.ownedBy principal (v.job.tombstoned now) = false := rfl
          simp [owned, held, free, Option.filter_some]

theorem jobsPurge_raised (run : jobsPurgePrincipal principal now s = (.error e, t)) : t = s := by
  unfold jobsPurgePrincipal at run
  rcases done : Jobs.purgePrincipal principal now s.jobs with ⟨result, jobs⟩
  cases result with
  | ok counts =>
    rw [Txn.run_bind, Txn.within, done] at run
    cases run
  | error e' =>
    rw [Txn.run_bind, Txn.within, done] at run
    cases run
    have same : jobs = s.jobs :=
      Txn.raisesClean_require_bind (Txn.raisesClean_atomically _) _ _ _ done
    rw [same]

theorem runStep_empties (runId : String → Option String) (principal : String) (now : Instant)
    {name : StepName} (other : name ≠ .jobs) :
    Empties principal (stepTables name) (runStep runId principal now name) := by
  cases name with
  | jobs => exact absurd rfl other
  | memory =>
    intro s
    exact empties_counted memory_empties s
  | runs => exact empties_counted runs_empties
  | idempotency | quotas | entitlements | approvals | companion | browserSessions | browserNotices
  | reflectionSchedule =>
    intro s
    exact .inr ⟨_, rfl⟩
  | monitors | context | webhooks => exact empties_guarded (fun _ => .inr ⟨_, rfl⟩)
  | personalModel => exact personalModel_empties

theorem runStep_cases (runId : String → Option String) (principal : String) (now : Instant)
    (name : StepName) (s : Stores) :
    (∃ e, runStep runId principal now name s = (.error e, s)) ∨
      ∃ counts t, runStep runId principal now name s = (.ok counts, t) ∧
        Executed name principal now s t := by
  by_cases jobs : name = .jobs
  · subst jobs
    rcases run : jobsPurgePrincipal principal now s with ⟨result, t⟩
    cases result with
    | ok counts => exact .inr ⟨counts, t, run, jobsPurge_executed run⟩
    | error e =>
      obtain rfl := jobsPurge_raised run
      exact .inl ⟨e, run⟩
  · rcases runStep_empties runId principal now jobs s with raised | ⟨counts, returned⟩
    · exact .inl raised
    · refine .inr ⟨counts, _, returned, ?_, ?_⟩
      · rw [without_tables]
        exact purged_deleteAll (stepTables_order name)
      · intro ident
        rw [if_neg jobs, without_jobs]

end Meemee.Guarantees.DeletionSteps
