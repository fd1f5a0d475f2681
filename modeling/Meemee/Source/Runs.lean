import Meemee.Source.AccountDeletion
import Meemee.Source.Worker

/-!
# Runs and what they leave behind

The writes of an agent's run: `MemoryStore.add` and `delete_runs` (`meemee/memory.py`),
`RunStore.add` (`meemee/runs.py`), and the two that start runs: `create_run` of `meemee/api.py` and
the worker, with what each does about an account that was deleted meanwhile.
-/
namespace Meemee.Source.Runs
open Library Library.Ownership Source.PurgeTargets Source.AccountDeletion

theorem evidenceOwned_delete {tables : Tables} (owned : EvidenceOwned tables)
    (t : TableName) (p : StoredRow → Bool) :
    EvidenceOwned (fun u => if u = t then (tables u).delete p else tables u) := by
  apply evidenceOwned_of_sub owned
  intro u r stored
  by_cases here : u = t
  · simp only [here, if_true] at stored ⊢
    exact (Table.mem_delete.mp stored).1
  · simpa only [here, if_false] using stored

/-- `DELETE FROM t WHERE p`. -/
def deleteIf (s : Stores) (t : TableName) (p : StoredRow → Bool) : Stores where
  tables := fun u => if u = t then (s.tables u).delete p else s.tables u
  evidenceOwned := evidenceOwned_delete s.evidenceOwned t p
  jobs := s.jobs

/-- The tables that hold neither personal items nor their evidence. -/
def apart : TableName → Bool
  | .personalItems | .personalEvidence => false
  | _ => true

theorem evidenceOwned_insert {tables : Tables} (owned : EvidenceOwned tables) {t : TableName}
    (away : apart t = true) (r : StoredRow) :
    EvidenceOwned (fun u => if u = t then ((tables u).insertOrIgnore r).1 else tables u) := by
  have items : TableName.personalItems ≠ t := by
    rintro rfl
    cases away
  have evidence : TableName.personalEvidence ≠ t := by
    rintro rfl
    cases away
  unfold EvidenceOwned
  simp only [items, evidence, if_false]
  exact owned

/-- `INSERT INTO t`, of a row whose key is new. -/
def insertRow (t : TableName) (away : apart t = true) (r : StoredRow) : StoreTxn Unit := do
  let fresh ← Txn.read (fun s => ((s.tables t).insertOrIgnore r).2)
  Txn.require fresh (.integrityError "UNIQUE constraint failed")
  Txn.write (fun s =>
    { tables := fun u => if u = t then ((s.tables u).insertOrIgnore r).1 else s.tables u
      evidenceOwned := evidenceOwned_insert s.evidenceOwned away r
      jobs := s.jobs })

/-- The id SQLite gives the next row: one more than the largest. -/
def nextId (rows : List StoredRow) : Int :=
  1 + rows.foldl (fun largest r =>
    match r.key with
    | [.integer ident] => max largest ident
    | _ => largest) 0

/-- The columns of a memory: the run, then what is remembered. -/
def runIdOf (r : StoredRow) : Option Cell := r.columns.head?

def ofRun (ownerId runId : String) (r : StoredRow) : Bool :=
  decide (r.owner = some ownerId ∧ runIdOf r = some (.text runId))

/-- `MemoryStore.add`: the memory and its embedding. `remembered` and `embedding` are the other
columns of the two rows. -/
def memoryAdd (runId : String) (remembered embedding : List Cell) (ownerId : String) :
    StoreTxn Int := do
  Txn.require (!PgJobs.blank ownerId) (.valueError "owner_id is required")
  Txn.atomically do
    let ident ← Txn.read (fun s => nextId (s.tables .memories).rows)
    insertRow .memories rfl ⟨[.integer ident], some ownerId, none, .text runId :: remembered⟩
    insertRow .memoryEmbeddings rfl ⟨[.integer ident], none, some [.integer ident], embedding⟩
    return ident

/-- The two statements of `delete_runs` for one run. -/
def deleteRun (ownerId runId : String) : StoreTxn Nat := do
  let ids ← Txn.read (fun s => ((s.tables .memories).select (ofRun ownerId runId)).map Row.key)
  Txn.write (fun s => deleteIf s .memoryEmbeddings (fun r => r.of.any ids.contains))
  Txn.write (fun s => deleteIf s .memories (ofRun ownerId runId))
  return ids.length

def deleteRunsOf (ownerId : String) : List String → StoreTxn Nat
  | [] => pure 0
  | runId :: rest => do
    let deleted ← deleteRun ownerId runId
    let later ← deleteRunsOf ownerId rest
    return deleted + later

/-- `MemoryStore.delete_runs`. -/
def memoryDeleteRuns (runIds : List String) (ownerId : String) : StoreTxn Nat := do
  Txn.require (!PgJobs.blank ownerId) (.valueError "owner_id is required")
  Txn.atomically (deleteRunsOf ownerId runIds.eraseDups)

structure RunReport where
  runId : String
  goal : String
  final : String
  stepsUsed : Int
  toolResults : Json
  approvalsRequired : Json

/-- `RunStore.add`. -/
def runsAdd (principal : String) (report : RunReport) (now : Instant) : StoreTxn Unit := do
  let results ← Txn.ofExcept (Json.dumps { allowNan := false } report.toolResults)
  let approvals ← Txn.ofExcept (Json.dumps { allowNan := false } report.approvalsRequired)
  Txn.atomically (insertRow .runs rfl ⟨[.text report.runId], some principal, none,
    [.text report.goal, .text report.final, .integer report.stepsUsed, .text results,
      .integer now, .text approvals]⟩)

/-- Where `create_run` stands once it has read `started_at`: in the agent's run, before and after
`deleted_since` has told of a deletion, before `runs.add`. -/
inductive CreateRunPhase where
  | running
  | checking (report : RunReport)
  | discarding (report : RunReport)
  | adding (report : RunReport)
  | ended

/-- How a run ended: with a report, or an exception. -/
inductive RunEnd where
  | returned (report : RunReport)
  | raised

/-- A request that runs the agent; the agent drew `runId`. -/
structure CreateRun where
  owner : String
  runId : String
  startedAt : Instant
  phase : CreateRunPhase

/-- The next access of `create_run`. What a store raises ends the request. -/
def CreateRun.next (r : CreateRun) (runEnd : RunEnd) (now : Instant) (d : Deployment) :
    CreateRunPhase × Stores :=
  match r.phase with
  | .running =>
    (match runEnd with
      | .returned report => .checking { report with runId := r.runId }
      | .raised => .ended, d.stores)
  | .checking report =>
    (if d.ledger.deletedSince r.owner r.startedAt then .discarding report else .adding report,
      d.stores)
  | .discarding report => (.ended, (memoryDeleteRuns [report.runId] r.owner d.stores).2)
  | .adding report => (.ended, (runsAdd r.owner report now d.stores).2)
  | .ended => (.ended, d.stores)

/-- `purge_if_deleted` is next. -/
def checksPurge : Worker.Phase → Bool
  | .checks _ | .checksFailed _ => true
  | _ => false

/-- One iteration of the worker, the id of its run, and whether `purge_if_deleted` has found the
job gone and is to delete the memories. -/
structure WorkerRun where
  iteration : Worker.Iteration
  runId : String
  deleting : Bool

section Step

variable {ω : Type} (enqueue : Webhooks.WebhookEvent → Instant → Txn ω Exc Nat)

/-- The next access of the worker. -/
def WorkerRun.next (w : WorkerRun) (turn : Worker.Turn) (stores : Stores) (outbox : ω) :
    WorkerRun × Stores × ω :=
  if w.deleting then
    ({ w with deleting := false },
      (memoryDeleteRuns [w.runId] w.iteration.owner stores).2, outbox)
  else
    let (iteration, after) := w.iteration.advance Worker.sqlite enqueue turn ⟨stores.jobs, outbox⟩
    let gone := (Worker.sqlite.row w.iteration.job.id stores.jobs).isNone
    (⟨iteration, w.runId, checksPurge w.iteration.phase && gone⟩, { stores with jobs := after.jobs },
      after.outbox)

end Step

end Meemee.Source.Runs
