import Meemee.Source.PurgeTargets

/-!
# Product-wide account deletion

`meemee/account_deletion.py`: the ledger of deletions and the purger that runs the steps of one,
store by store. A purge is a process with one atomic access to a store or to the ledger at a time;
`Purger.advance` is its next access.
-/
namespace Meemee.Source.AccountDeletion
open Library Source.PurgeTargets

/-- The steps by their names in the ledger. -/
inductive StepName where
  | memory | jobs | runs | idempotency | quotas | entitlements | approvals | monitors
  | personalModel | context | webhooks | companion | browserSessions | browserNotices
  | reflectionSchedule
  deriving DecidableEq, Repr

/-- `CHECK(status IN ('in_progress','completed'))`. -/
inductive DeletionStatus where
  | inProgress | completed
  deriving DecidableEq, Repr

structure Deletion where
  id : String
  principal : String
  requestedBy : String
  status : DeletionStatus
  startedAt : Instant
  completedAt : Option Instant
  deriving DecidableEq, Repr

/-- The row `open` inserts. -/
def newDeletion (ident principal requestedBy : String) (now : Instant) : Deletion :=
  ⟨ident, principal, requestedBy, .inProgress, now, none⟩

def Deletion.completed (d : Deletion) (now : Instant) : Deletion :=
  { d with status := .completed, completedAt := some now }

@[simp] theorem Deletion.completed_id (d : Deletion) (now : Instant) :
    (d.completed now).id = d.id := rfl

/-- A row of `account_deletion_steps`. -/
structure FinishedStep where
  deletionId : String
  step : StepName
  counts : Counts
  finishedAt : Instant
  deriving DecidableEq, Repr

structure DeletionLedger where
  deletions : Table Deletion.id
  steps : List FinishedStep

namespace DeletionLedger

def empty : DeletionLedger := ⟨Table.empty, []⟩

def isOpen (principal : String) (d : Deletion) : Bool :=
  decide (d.principal = principal ∧ d.status = .inProgress)

/-- `open`: the deletion of the principal that is in progress, or a new one under the drawn id. -/
def openDeletion (ident principal requestedBy : String) (now : Instant) :
    Txn DeletionLedger Exc String :=
  Txn.atomically do
    let row ← Txn.read (fun s => (s.deletions.select (isOpen principal)).head?)
    match row with
    | some row => return row.id
    | none => do
      let new := newDeletion ident principal requestedBy now
      let fresh ← Txn.read (fun s => (s.deletions.insertOrIgnore new).2)
      Txn.require fresh (.integrityError "UNIQUE constraint failed: account_deletions.id")
      Txn.write (fun s => { s with deletions := (s.deletions.insertOrIgnore new).1 })
      return ident

def doneSteps (s : DeletionLedger) (deletionId : String) : List (StepName × Counts) :=
  (s.steps.filter (fun row => decide (row.deletionId = deletionId))).map
    (fun row => (row.step, row.counts))

/-- `INSERT OR REPLACE`, by deletion and step. -/
def recordStep (s : DeletionLedger) (row : FinishedStep) : DeletionLedger :=
  { s with steps := s.steps.filter (fun other =>
      !decide (other.deletionId = row.deletionId ∧ other.step = row.step)) ++ [row] }

def complete (s : DeletionLedger) (deletionId : String) (now : Instant) : DeletionLedger where
  deletions := s.deletions.update (fun d => decide (d.id = deletionId))
    (fun d => d.completed now) (fun d => d.completed_id now)
  steps := s.steps

def startedBefore (a b : Deletion) : Prop := a.startedAt ≤ b.startedAt

instance : DecidableRel startedBefore := fun a b =>
  inferInstanceAs (Decidable (a.startedAt ≤ b.startedAt))

/-- The deletions in progress, `ORDER BY started_at`. -/
def incomplete (s : DeletionLedger) : List Deletion :=
  (s.deletions.select (fun d => decide (d.status = .inProgress))).insertionSort startedBefore

/-- A deletion of the principal was opened at or after `since`. -/
def deletedSince (s : DeletionLedger) (principal : String) (since : Instant) : Bool :=
  s.deletions.rows.any (fun d => decide (d.principal = principal ∧ since ≤ d.startedAt))

end DeletionLedger

/-- `_as_counts` of a number. -/
def asCounts (key : String) (count : Nat) : Counts := [(key, count)]

/-- What a step does to its store; `runId` reads the run id off the result of a finished job. -/
def runStep (runId : String → Option String) (principal : String) (now : Instant) :
    StepName → StoreTxn Counts
  | .memory => do
    let runIds ← Txn.read (fun s => s.runIds principal ++ s.runIdsForPrincipal runId principal)
    let memories ← memoryPurgeOwner principal
    return [("memories", memories), ("runs_scanned", runIds.eraseDups.length)]
  | .jobs => jobsPurgePrincipal principal now
  | .runs => do return asCounts "runs" (← runsDeletePrincipal principal)
  | .idempotency => do
    return asCounts "idempotency_records" (← idempotencyDeletePrincipal principal)
  | .quotas => quotasDeletePrincipal principal
  | .entitlements => do return asCounts "plans" (← entitlementsDeletePrincipal principal)
  | .approvals => do return asCounts "tool_approvals" (← approvalsDeletePrincipal principal)
  | .monitors => monitorsDeleteOwner principal
  | .personalModel => personalModelPurgeOwner principal
  | .context => contextPurgeOwner principal
  | .webhooks => webhooksDeletePrincipal principal
  | .companion => companionDeleteUserData principal
  | .browserSessions => browserSessionsDeleteOwner principal
  | .browserNotices => browserNoticesDeleteUser principal
  | .reflectionSchedule => do
    return asCounts "reflection_runs" (← reflectionScheduleDeleteOwner principal)

/-- Which of the optional stores `PurgeTargets` was given. -/
abbrev PurgeTargets := StepName → Bool

/-- `_steps`: the three stores that are always there, then the optional ones in order. -/
def stepsOf (targets : PurgeTargets) : List StepName :=
  [.memory, .jobs, .runs] ++
    [.idempotency, .quotas, .entitlements, .approvals, .monitors, .personalModel, .context,
      .webhooks, .companion, .browserSessions, .browserNotices, .reflectionSchedule].filter targets

/-- The stores and the ledger, each a database of its own. -/
structure Deployment where
  stores : Stores
  ledger : DeletionLedger

abbrev DeploymentTxn := Txn Deployment Exc

/-- What `_run` answers. -/
structure Report where
  deletionId : String
  principal : String
  status : Option DeletionStatus
  steps : List (StepName × Counts)
  deleted : Counts
  deriving DecidableEq

/-- Add a count to the total under its key. -/
def addCount (totals : Counts) (key : String) (value : Nat) : Counts :=
  if totals.any (fun entry => decide (entry.1 = key)) then
    totals.map (fun entry => if entry.1 = key then (key, entry.2 + value) else entry)
  else totals ++ [(key, value)]

/-- The totals over all steps, without the scanned runs. -/
def totalsOf (steps : List (StepName × Counts)) : Counts :=
  ((steps.flatMap Prod.snd).filter (fun entry => decide (entry.1 ≠ "runs_scanned"))).foldl
    (fun totals entry => addCount totals entry.1 entry.2) []

/-- `ledger.get(deletion_id) or {}`, as `_run` reports it. -/
def reportOf (s : DeletionLedger) (deletionId principal : String) : Report :=
  match s.deletions.find deletionId with
  | none => ⟨deletionId, principal, none, [], []⟩
  | some row =>
    let steps := s.doneSteps deletionId
    ⟨deletionId, principal, some row.status, steps, totalsOf steps⟩

/-- Where `_run` stands: before the ledger is read, before a step or the completion, between a
step and its record, before the report. -/
inductive Phase where
  | loading
  | stepping (left : List StepName)
  | recording (name : StepName) (counts : Counts) (left : List StepName)
  | reporting
  deriving DecidableEq

/-- A process in `_run`, with the rows that `resume_incomplete` has still to go through. -/
structure Purger where
  deletionId : String
  principal : String
  phase : Phase
  queue : List (String × String)
  deriving DecidableEq

/-- A process on the first of some unfinished deletions. -/
def Purger.resumed : List (String × String) → Option Purger
  | [] => none
  | (deletionId, principal) :: rest => some ⟨deletionId, principal, .loading, rest⟩

/-- `purge`, up to the deletion it works on. -/
def startPurge (ident principal requestedBy : String) (now : Instant) :
    DeploymentTxn (Option Purger) := do
  Txn.require (decide (principal ≠ "")) (.valueError "principal is required")
  let deletionId ← Txn.within Deployment.ledger (fun s ledger => { s with ledger := ledger })
    (DeletionLedger.openDeletion ident principal requestedBy now)
  return some ⟨deletionId, principal, .loading, []⟩

/-- `resume_incomplete`, up to the first deletion it works on. -/
def startResume : DeploymentTxn (Option Purger) :=
  Txn.read (fun s => Purger.resumed (s.ledger.incomplete.map (fun d => (d.id, d.principal))))

/-- The next access of a process: the process after it, unless it is through, and its report. -/
def Purger.advance (targets : PurgeTargets) (runId : String → Option String) (now : Instant)
    (p : Purger) : DeploymentTxn (Option Purger × Option Report) :=
  match p.phase with
  | .loading => do
    let done ← Txn.read (fun s => (s.ledger.doneSteps p.deletionId).map Prod.fst)
    let left := (stepsOf targets).filter (fun name => !done.contains name)
    return (some { p with phase := .stepping left }, none)
  | .stepping [] => do
    Txn.write (fun s => { s with ledger := s.ledger.complete p.deletionId now })
    return (some { p with phase := .reporting }, none)
  | .stepping (name :: left) => do
    let counts ← Txn.within Deployment.stores (fun s stores => { s with stores := stores })
      (runStep runId p.principal now name)
    return (some { p with phase := .recording name counts left }, none)
  | .recording name counts left => do
    Txn.write (fun s => { s with ledger := s.ledger.recordStep ⟨p.deletionId, name, counts, now⟩ })
    return (some { p with phase := .stepping left }, none)
  | .reporting => do
    let report ← Txn.read (fun s => reportOf s.ledger p.deletionId p.principal)
    return (Purger.resumed p.queue, some report)

end Meemee.Source.AccountDeletion
