import Meemee.Source.PgJobs

/-!
# Plans and their stores

`Plan` and `PlanStep` of `meemee/types.py`, and the two plan stores: `meemee/plan_store.py`
and `meemee_persist_pg/plans.py`. A plan is a value that `valid_graph` accepted. A stored
document is the plan that reads back from it.
-/
namespace Meemee.Source.Plans
open Library
open Source.PgJobs (blank storesText maxInteger outOfRange)

inductive StepStatus where
  | pending | running | done | failed
  deriving DecidableEq, Repr

def StepStatus.text : StepStatus → String
  | .pending => "pending"
  | .running => "running"
  | .done => "done"
  | .failed => "failed"

/-- The `Literal` that `PlanStep` checks a status against. -/
def StepStatus.parse (text : String) : Option StepStatus :=
  [.pending, .running, .done, .failed].find? (fun status => decide (status.text = text))

@[simp] theorem StepStatus.parse_text (status : StepStatus) :
    StepStatus.parse status.text = some status := by
  cases status <;> decide

theorem StepStatus.text_of_parse {text : String} {status : StepStatus}
    (parsed : StepStatus.parse text = some status) : status.text = text := by
  simpa using List.find?_some parsed

structure PlanStep where
  id : String
  description : String
  dependsOn : List String
  status : StepStatus
  deriving DecidableEq, Repr

inductive PlanExc where
  | keyError (key : String)
  | valueError (text : String)
  /-- Of pydantic, with the message of the check that failed. -/
  | validationError (text : String)
  | recursionError
  | database (e : Exc)
  deriving DecidableEq, Repr

/-- `graph[node]`. -/
def dependencies (steps : List PlanStep) (node : String) : List String :=
  ((steps.find? (fun step => decide (step.id = node))).map (fun step => step.dependsOn)).getD []

/-- `visit`, to a depth: the nodes visited after it. `visiting` is put back when a call
returns, so it is handed down only. -/
def visit (steps : List PlanStep) :
    Nat → List String → List String → String → Except PlanExc (List String)
  | 0, _, _, _ => .error .recursionError
  | depth + 1, visiting, visited, node =>
    if node ∈ visiting then .error (.validationError "plan contains dependency cycle")
    else if node ∈ visited then .ok visited
    else do
      let visited ← (dependencies steps node).foldlM
        (fun seen dependency => visit steps depth (node :: visiting) seen dependency) visited
      return node :: visited

def checkStep (ids : List String) (step : PlanStep) : Except PlanExc Unit :=
  if step.dependsOn.any (fun dep => decide (dep ∉ ids)) then
    .error (.validationError (step.id ++ " has unknown dependency"))
  else if step.id ∈ step.dependsOn then
    .error (.validationError (step.id ++ " depends on itself"))
  else .ok ()

/-- `valid_graph`. A call of `visit` is as deep as there are nodes in `visiting`, so one more
than there are steps is deep enough. -/
def validGraph (steps : List PlanStep) : Except PlanExc Unit := do
  let ids := steps.map (fun step => step.id)
  if ids.Nodup then
    steps.forM (checkStep ids)
    let _ ← ids.foldlM (fun seen node => visit steps (steps.length + 1) [] seen node) []
    return ()
  else .error (.validationError "step ids must be unique")

structure Plan where
  goal : String
  steps : List PlanStep
  valid : validGraph steps = .ok ()
  deriving DecidableEq

/-- `Plan(goal=..., steps=...)`. -/
def Plan.make (goal : String) (steps : List PlanStep) : Except PlanExc Plan :=
  match valid : validGraph steps with
  | .ok () => .ok ⟨goal, steps, valid⟩
  | .error e => .error e

/-- `by_id.get(step_id)`. -/
def Plan.step? (plan : Plan) (stepId : String) : Option PlanStep :=
  plan.steps.find? (fun step => decide (step.id = stepId))

/-- The steps with one status replaced, each validated again. -/
def setStatus (stepId status : String) (steps : List PlanStep) : Except PlanExc (List PlanStep) :=
  steps.mapM (fun step =>
    if step.id = stepId then
      match StepStatus.parse status with
      | some status => .ok { step with status }
      | none => .error (.validationError "Input should be 'pending', 'running', 'done' or 'failed'")
    else .ok step)

/-- The loop that both stores build the new plan with. -/
def Plan.withStatus (plan : Plan) (stepId status : String) : Except PlanExc Plan := do
  let steps ← setStatus stepId status plan.steps
  if plan.steps.any (fun step => decide (step.id = stepId)) then Plan.make plan.goal steps
  else .error (.keyError stepId)

structure PlanRow where
  id : String
  goal : String
  version : Nat
  plan : Plan
  createdAt : Instant
  updatedAt : Instant
  deriving DecidableEq

structure HistoryRow where
  planId : String
  version : Nat
  plan : Plan
  reason : String
  createdAt : Instant
  deriving DecidableEq

/-- `PRIMARY KEY(plan_id, version)`. -/
def HistoryRow.key (row : HistoryRow) : String × Nat := (row.planId, row.version)

structure PlanStore where
  plans : Table PlanRow.id
  history : Table HistoryRow.key

def PlanStore.empty : PlanStore := ⟨Table.empty, Table.empty⟩

abbrev PlanTxn := Txn PlanStore PlanExc

def uniqueViolation : PlanExc := .database (.integrityError "UNIQUE constraint failed")

def insertPlan (row : PlanRow) : PlanTxn Unit := do
  let fresh ← Txn.read (fun s => (s.plans.insertOrIgnore row).2)
  Txn.require fresh uniqueViolation
  Txn.write (fun s => { s with plans := (s.plans.insertOrIgnore row).1 })

def insertHistory (row : HistoryRow) : PlanTxn Unit := do
  let fresh ← Txn.read (fun s => (s.history.insertOrIgnore row).2)
  Txn.require fresh uniqueViolation
  Txn.write (fun s => { s with history := (s.history.insertOrIgnore row).1 })

/-- `get`, of either store. -/
def get (ident : String) : PlanTxn PlanRow := fun s =>
  match s.plans.find ident with
  | some row => (.ok row, s)
  | none => (.error (.keyError ident), s)

/-- `history`, of either store: in order of version. -/
def PlanStore.historyOf (s : PlanStore) (ident : String) : List HistoryRow :=
  (s.history.select (fun row => decide (row.planId = ident))).insertionSort
    (fun a b => a.version ≤ b.version)

/-- The transaction of `create`. -/
def createRow (ident : String) (plan : Plan) (now : Instant) : PlanTxn Unit :=
  Txn.atomically do
    insertPlan ⟨ident, plan.goal, 1, plan, now, now⟩
    insertHistory ⟨ident, 1, plan, "created", now⟩

def conflict (expected : Int) (actual : Nat) : PlanExc :=
  .valueError ("version conflict: expected " ++ toString expected ++ ", actual " ++ toString actual)

/-- The row as `replace` writes it. -/
def PlanRow.replaced (plan : Plan) (now : Instant) (row : PlanRow) : PlanRow :=
  { row with goal := plan.goal, version := row.version + 1, plan := plan, updatedAt := now }

theorem PlanRow.replaced_id (plan : Plan) (now : Instant) (row : PlanRow) :
    (PlanRow.replaced plan now row).id = row.id := rfl

/-- `WHERE id=? AND version=?`. -/
def PlanRow.at (ident : String) (expected : Int) (row : PlanRow) : Bool :=
  decide (row.id = ident) && decide ((row.version : Int) = expected)

/-- `UPDATE ... SET version=version+1 ... WHERE id=? AND version=?`: the rows it found. -/
def updatePlan (ident : String) (plan : Plan) (expected : Int) (now : Instant) :
    PlanTxn (List PlanRow) := do
  let matched ← Txn.read (fun s => s.plans.select (PlanRow.at ident expected))
  Txn.write (fun s => { s with
    plans := s.plans.update (PlanRow.at ident expected) (PlanRow.replaced plan now)
      (PlanRow.replaced_id plan now) })
  return matched

/-- What an UPDATE that found nothing answers. -/
def refuseUpdate (ident : String) (expected : Int) : PlanTxn Unit := fun s =>
  match s.plans.find ident with
  | none => (.error (.keyError ident), s)
  | some actual => (.error (conflict expected actual.version), s)

/-- The transaction of `replace`. `storable` is what binding the plan raises, `fits` what the
new version and its row of the history raise. -/
def replaceWith (storable fits : Except PlanExc Unit) (ident : String) (plan : Plan)
    (expected : Int) (reason : String) (now : Instant) : PlanTxn Unit :=
  Txn.atomically do
    Txn.ofExcept storable
    let changed ← updatePlan ident plan expected now
    if changed.isEmpty then refuseUpdate ident expected
    else do
      Txn.ofExcept fits
      insertHistory ⟨ident, (expected + 1).toNat, plan, reason, now⟩

def checkReason (reason : String) : PlanTxn Unit :=
  Txn.require (!blank reason) (.valueError "plan change reason is required")

def statusReason (stepId status : String) : String := "status " ++ stepId ++ " -> " ++ status

namespace SQLite

def create (ident : String) (plan : Plan) (now : Instant) : PlanTxn PlanRow := do
  createRow ident plan now
  get ident

/-- The largest integer that can be bound. -/
def maxBound : Int := 9223372036854775807

def checkBound (value : Int) : Except PlanExc Unit :=
  if -maxBound - 1 ≤ value ∧ value ≤ maxBound then .ok ()
  else .error (.database (.overflowError "Python int too large to convert to SQLite INTEGER"))

def replaceRow (ident : String) (plan : Plan) (expected : Int) (reason : String) (now : Instant) :
    PlanTxn Unit :=
  replaceWith (checkBound expected) (checkBound (expected + 1)) ident plan expected reason now

def replace (ident : String) (plan : Plan) (expected : Int) (reason : String) (now : Instant) :
    PlanTxn PlanRow := do
  checkReason reason
  replaceRow ident plan expected reason now
  get ident

/-- The statuses that each status may be set to. -/
def transitions : StepStatus → List String
  | .pending => ["pending", "running", "done", "failed"]
  | .running => ["running", "done", "failed"]
  | .done => ["done"]
  | .failed => ["failed", "pending"]

/-- The dependencies that keep a step from running or being done. -/
def incomplete (plan : Plan) (selected : PlanStep) (status : String) : List String :=
  if status ∈ ["running", "done"] then
    selected.dependsOn.filter (fun dep =>
      decide ((plan.step? dep).map (fun step => step.status) ≠ some .done))
  else []

/-- What `update_status` makes of the plan it read: the plan to replace it with, if any. -/
def checkStatus (current : PlanRow) (stepId status : String) (expected : Int) :
    Except PlanExc (Option Plan) :=
  if (current.version : Int) ≠ expected then .error (conflict expected current.version)
  else
    match current.plan.step? stepId with
    | none => .error (.keyError stepId)
    | some selected =>
      if status ∉ transitions selected.status then
        .error (.valueError
          ("invalid status transition: " ++ selected.status.text ++ " -> " ++ status))
      else if incomplete current.plan selected status ≠ [] then
        .error (.valueError
          ("incomplete dependencies: " ++ ", ".intercalate (incomplete current.plan selected status)))
      else if status = selected.status.text then .ok none
      else (current.plan.withStatus stepId status).map some

def updateStatus (ident stepId status : String) (expected : Int) (now : Instant) :
    PlanTxn PlanRow := do
  let current ← get ident
  let next ← Txn.ofExcept (checkStatus current stepId status expected)
  match next with
  | none => return current
  | some plan => replace ident plan expected (statusReason stepId status) now

end SQLite

namespace Postgres

/-- The strings of a plan hold no NUL, which neither `text` nor `jsonb` takes. -/
def storesPlan (plan : Plan) : Bool :=
  storesText plan.goal && plan.steps.all (fun step =>
    storesText step.id && storesText step.description && step.dependsOn.all storesText)

def checkPlan (plan : Plan) : Except PlanExc Unit :=
  if storesPlan plan then .ok () else .error (.database outOfRange)

def create (ident : String) (plan : Plan) (now : Instant) : PlanTxn PlanRow := do
  Txn.ofExcept (checkPlan plan)
  createRow ident plan now
  get ident

/-- `version` is an `integer`, `reason` a `text`. -/
def checkHistory (version : Int) (reason : String) : Except PlanExc Unit :=
  if version ≤ maxInteger ∧ storesText reason = true then .ok () else .error (.database outOfRange)

def replaceRow (ident : String) (plan : Plan) (expected : Int) (reason : String) (now : Instant) :
    PlanTxn Unit :=
  replaceWith (checkPlan plan) (checkHistory (expected + 1) reason) ident plan expected reason now

def replace (ident : String) (plan : Plan) (expected : Int) (reason : String) (now : Instant) :
    PlanTxn PlanRow := do
  checkReason reason
  replaceRow ident plan expected reason now
  get ident

/-- No table of transitions, no look at the dependencies. -/
def updateStatus (ident stepId status : String) (expected : Int) (now : Instant) :
    PlanTxn PlanRow := do
  let current ← get ident
  let plan ← Txn.ofExcept (current.plan.withStatus stepId status)
  replace ident plan expected (statusReason stepId status) now

end Postgres

/-- One step waits for the other. -/
example : validGraph [⟨"test", "t", ["build"], .pending⟩, ⟨"build", "b", [], .pending⟩] = .ok () := by
  decide +kernel

example : validGraph [⟨"a", "a", ["b"], .pending⟩, ⟨"b", "b", ["a"], .pending⟩] =
    .error (.validationError "plan contains dependency cycle") := by decide +kernel

end Meemee.Source.Plans
