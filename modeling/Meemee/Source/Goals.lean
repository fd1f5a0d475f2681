import Meemee.Source.PgJobs

/-!
# Goals: creation, claims, leases and transitions

`meemee/goals.py`. A call is one transaction (`BEGIN IMMEDIATE`) and the reads of `get` after it.
-/
namespace Meemee.Source.Goals
open Library
open Source.PgJobs (strip)

inductive GoalStatus where
  | pending | active | blocked | completed | failed | cancelled
  deriving DecidableEq, Repr

def GoalStatus.text : GoalStatus → String
  | .pending => "pending"
  | .active => "active"
  | .blocked => "blocked"
  | .completed => "completed"
  | .failed => "failed"
  | .cancelled => "cancelled"

def GoalStatus.terminal : GoalStatus → Bool
  | .completed | .failed | .cancelled => true
  | _ => false

def GoalStatus.transitions : GoalStatus → List GoalStatus
  | .pending => [.active, .blocked, .cancelled]
  | .active => [.pending, .blocked, .completed, .failed, .cancelled]
  | .blocked => [.pending, .active, .cancelled]
  | .completed | .failed | .cancelled => []

inductive GoalExc where
  | keyError (ident : String)
  | goalConflict (text : String)
  | raised (e : Exc)
  deriving DecidableEq, Repr

structure Goal where
  id : String
  principal : String
  description : String
  status : GoalStatus
  priority : Int
  parentId : Option String
  context : String
  outcome : Option String
  failure : Option String
  leaseOwner : Option String
  leaseUntil : Option Instant
  version : Nat
  createdAt : Instant
  updatedAt : Instant
  deriving DecidableEq, Repr

/-- The two tables; `dependencies` holds the pairs (goal_id, dependency_id). -/
structure GoalStore where
  goals : Table Goal.id
  dependencies : List (String × String)

abbrev GoalTxn := Txn GoalStore GoalExc

/-- `SELECT * FROM agency_goals WHERE principal=? AND id=?`. -/
def GoalStore.owned? (s : GoalStore) (principal ident : String) : Option Goal :=
  (s.goals.find ident).filter (fun g => decide (g.principal = principal))

def owned (principal ident : String) : GoalTxn Goal := do
  let row ← Txn.read (fun s => s.owned? principal ident)
  match row with
  | some g => return g
  | none => Txn.raise (.keyError ident)

/-- A dependency of the goal is not completed. -/
def GoalStore.waiting (s : GoalStore) (ident : String) : Bool :=
  s.dependencies.any (fun edge => decide (edge.1 = ident) &&
    (s.goals.find edge.2).any (fun dep => decide (dep.status ≠ .completed)))

/-- `UPDATE agency_goals SET f WHERE p`. -/
def GoalStore.updated (s : GoalStore) (p : Goal → Bool) (f : Goal → Goal)
    (keeps : ∀ g, (f g).id = g.id) : GoalStore :=
  { s with goals := s.goals.update p f keeps }

structure NewGoal where
  principal : String
  description : String
  priority : Int
  parentId : Option String
  dependsOn : List String
  context : List (String × Json)
  /-- `goal_id or uuid.uuid4().hex`. -/
  ident : String
  named : ident ≠ ""

/-- `list(dict.fromkeys(items))`: the first of each. -/
def fromKeys : List String → List String
  | [] => []
  | item :: rest => item :: (fromKeys rest).filter (fun other => decide (other ≠ item))

def NewGoal.row (new : NewGoal) (context : String) (now : Instant) : Goal where
  id := new.ident
  principal := new.principal
  description := strip new.description
  status := .pending
  priority := new.priority
  parentId := new.parentId
  context := context
  outcome := none
  failure := none
  leaseOwner := none
  leaseUntil := none
  version := 1
  createdAt := now
  updatedAt := now

def requireOwned (principal : String) : List String → GoalTxn Unit
  | [] => return ()
  | ident :: rest => do
    let _ ← owned principal ident
    requireOwned principal rest

/-- `if parent_id: self._owned(principal, parent_id)`. -/
def parents (new : NewGoal) : List String :=
  match new.parentId with
  | none => []
  | some parent => if parent = "" then [] else [parent]

def fitsInteger (n : Int) : Bool := decide (-9223372036854775808 ≤ n ∧ n ≤ 9223372036854775807)

def GoalStore.inserted (s : GoalStore) (row : Goal) (dependencies : List String)
    (fresh : s.goals.find row.id = none) : GoalStore where
  goals := s.goals.insert row fresh
  dependencies := s.dependencies ++ dependencies.map (fun item => (row.id, item))

/-- The INSERTs: the primary key is checked before the foreign key of an empty parent. -/
def insertGoal (row : Goal) (dependencies : List String) : GoalTxn Unit := fun s =>
  if fresh : s.goals.find row.id = none then
    if row.parentId = some "" then
      (.error (.raised (.integrityError "FOREIGN KEY constraint failed")), s)
    else (.ok (), s.inserted row dependencies fresh)
  else (.error (.raised (.integrityError "UNIQUE constraint failed: agency_goals.id")), s)

/-- The checks of a `create` before its transaction. -/
def checkNew (new : NewGoal) : Except GoalExc Unit :=
  if PgJobs.blank new.principal || PgJobs.blank new.description then
    .error (.raised (.valueError "principal and description are required"))
  else if new.ident ∈ new.dependsOn then
    .error (.raised (.valueError "goal cannot depend on itself"))
  else .ok ()

/-- What the INSERT is given: `json.dumps(context, sort_keys=True)`, and an INTEGER. -/
def boundContext (new : NewGoal) : Except GoalExc String :=
  match Json.dumps { sortKeys := true } (.obj new.context) with
  | .error e => .error (.raised e)
  | .ok context =>
    if fitsInteger new.priority then .ok context
    else .error (.raised (.overflowError "Python int too large to convert to SQLite INTEGER"))

/-- The transaction of `create`. -/
def create (new : NewGoal) (now : Instant) : GoalTxn Unit := do
  Txn.ofExcept (checkNew new)
  Txn.atomically do
    requireOwned new.principal (parents new)
    requireOwned new.principal (fromKeys new.dependsOn)
    let context ← Txn.ofExcept (boundContext new)
    insertGoal (new.row context now) (fromKeys new.dependsOn)

/-- `get`: the row with its dependencies in order. -/
def get (principal ident : String) : GoalTxn (Goal × List String) := do
  let row ← owned principal ident
  let dependencies ← Txn.read (fun s =>
    (s.dependencies.filter (fun edge => decide (edge.1 = ident))).map (fun edge => edge.2))
  return (row, dependencies.insertionSort (fun a b => a ≤ b))

/-- `ORDER BY priority DESC,created_at,id`. -/
def listedBefore (a b : Goal) : Bool :=
  decide (b.priority < a.priority ∨ a.priority = b.priority ∧
    (a.createdAt < b.createdAt ∨ a.createdAt = b.createdAt ∧ a.id < b.id))

/-- The query of `list`; each id is then read by `get`. -/
def listIds (principal : String) (status : Option GoalStatus) : GoalTxn (List String) :=
  Txn.read (fun s => ((s.goals.select (fun g => decide (g.principal = principal) &&
    status.all (fun wanted => decide (g.status = wanted)))).insertionSort
      (fun a b => listedBefore a b = true)).map Goal.id)

/-- `_iso(clock + timedelta(seconds=lease_seconds))`. -/
def leaseEnd (now : Instant) (leaseSeconds : Int) : Except GoalExc Instant :=
  if now + seconds leaseSeconds ≤ Jobs.lastInstant then .ok (now + seconds leaseSeconds)
  else .error (.raised (.overflowError "date value out of range"))

/-- `lease_until IS NULL OR lease_until<=?`. -/
def Goal.unleased (g : Goal) (now : Instant) : Bool := g.leaseUntil.all (fun ends => decide (ends ≤ now))

def Goal.claimed (g : Goal) (worker : String) (ends now : Instant) : Goal :=
  { g with
    status := .active
    leaseOwner := some worker
    leaseUntil := some ends
    version := g.version + 1
    updatedAt := now }

@[simp] theorem Goal.claimed_id (g : Goal) (worker : String) (ends now : Instant) :
    (g.claimed worker ends now).id = g.id := rfl

@[simp] theorem Goal.claimed_principal (g : Goal) (worker : String) (ends now : Instant) :
    (g.claimed worker ends now).principal = g.principal := rfl

/-- Open to a claim: pending or active, with no lease in force and no dependency to wait for. -/
def claimable (s : GoalStore) (principal : String) (now : Instant) (g : Goal) : Bool :=
  decide (g.principal = principal ∧ (g.status = .pending ∨ g.status = .active)) &&
    g.unleased now && !s.waiting g.id

/-- The transaction of `claim`: the goal that it leased. -/
def claim (principal worker : String) (leaseSeconds : Int) (now : Instant) : GoalTxn (Option String) := do
  Txn.require (!PgJobs.blank worker && decide (0 < leaseSeconds))
    (.raised (.valueError "worker and positive lease are required"))
  Txn.atomically do
    let ends ← Txn.ofExcept (leaseEnd now leaseSeconds)
    let row ← Txn.read (fun s => s.goals.first (claimable s principal now) listedBefore)
    match row with
    | none => return none
    | some row =>
      Txn.write (fun s => s.updated (fun g => decide (g.id = row.id) && g.unleased now)
        (fun g => g.claimed worker ends now) (fun g => g.claimed_id worker ends now))
      return some row.id

def Goal.renewed (g : Goal) (ends now : Instant) : Goal :=
  { g with leaseUntil := some ends, version := g.version + 1, updatedAt := now }

@[simp] theorem Goal.renewed_id (g : Goal) (ends now : Instant) : (g.renewed ends now).id = g.id := rfl

@[simp] theorem Goal.renewed_principal (g : Goal) (ends now : Instant) :
    (g.renewed ends now).principal = g.principal := rfl

/-- A lease in force of the worker. -/
def renewable (principal ident worker : String) (now : Instant) (g : Goal) : Bool :=
  decide (g.principal = principal ∧ g.id = ident ∧ g.status = .active ∧
    g.leaseOwner = some worker) && g.leaseUntil.any (fun ends => decide (now < ends))

/-- The transaction of `renew`. -/
def renew (principal ident worker : String) (leaseSeconds : Int) (now : Instant) : GoalTxn Unit := do
  Txn.require (decide (0 < leaseSeconds)) (.raised (.valueError "positive lease is required"))
  let ends ← Txn.ofExcept (leaseEnd now leaseSeconds)
  let matched ← Txn.read (fun s => s.goals.select (renewable principal ident worker now))
  Txn.write (fun s => s.updated (renewable principal ident worker now)
    (fun g => g.renewed ends now) (fun g => g.renewed_id ends now))
  Txn.require (!matched.isEmpty) (.goalConflict "goal has no live lease owned by worker")

structure Transition where
  principal : String
  ident : String
  status : GoalStatus
  worker : Option String
  expectedVersion : Option Int
  outcome : Option String
  failure : Option String

/-- Terminal, pending and blocked goals are under no lease. -/
def GoalStatus.clears (status : GoalStatus) : Bool :=
  status.terminal || decide (status = .pending ∨ status = .blocked)

def Goal.moved (g : Goal) (t : Transition) (now : Instant) : Goal :=
  { g with
    status := t.status
    outcome := t.outcome
    failure := t.failure
    leaseOwner := if t.status.clears then none else g.leaseOwner
    leaseUntil := if t.status.clears then none else g.leaseUntil
    version := g.version + 1
    updatedAt := now }

@[simp] theorem Goal.moved_id (g : Goal) (t : Transition) (now : Instant) : (g.moved t now).id = g.id := rfl

@[simp] theorem Goal.moved_principal (g : Goal) (t : Transition) (now : Instant) :
    (g.moved t now).principal = g.principal := rfl

/-- The checks of a transition of a row, before the one of its dependencies. -/
def checkMove (t : Transition) (now : Instant) (row : Goal) : Except GoalExc Unit :=
  if t.status ∉ row.status.transitions then
    .error (.goalConflict ("invalid transition " ++ row.status.text ++ " -> " ++ t.status.text))
  else if t.expectedVersion.any (fun expected => decide ((row.version : Int) ≠ expected)) then
    .error (.goalConflict ("version conflict: expected " ++ toString (t.expectedVersion.getD 0) ++
      ", actual " ++ toString row.version))
  else if row.leaseOwner.isSome ∧ t.worker ≠ row.leaseOwner then
    .error (.goalConflict "active lease is owned by another worker")
  else if row.leaseOwner.isSome ∧ row.unleased now then
    .error (.goalConflict "worker lease has expired")
  else .ok ()

/-- The transaction of `transition`. -/
def transition (t : Transition) (now : Instant) : GoalTxn Unit :=
  Txn.atomically do
    let row ← owned t.principal t.ident
    Txn.ofExcept (checkMove t now row)
    let waiting ← Txn.read (fun s => decide (t.status = .completed) && s.waiting t.ident)
    Txn.require (!waiting) (.goalConflict "dependencies are not complete")
    Txn.write (fun s => s.updated (fun g => decide (g.id = t.ident)) (fun g => g.moved t now)
      (fun g => g.moved_id t now))

end Meemee.Source.Goals
