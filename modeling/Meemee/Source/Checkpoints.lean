import Meemee.Source.DeviceProtocol
import Meemee.Source.JsonLoads
import Meemee.Source.PgJobs

/-!
# CheckpointStore

`meemee/checkpoints.py`: the journal of an agent's run. A save is one transaction: it replays the
checkpoint of its idempotency key or appends one under the next sequence, and what it appended is
read back. SHA-256 is a parameter.
-/
namespace Meemee.Source.Checkpoints
open Library

/-- A row of `agency_checkpoints`; `state` is the document. -/
structure CheckpointRow where
  id : String
  principal : String
  runId : String
  goalId : String
  sequence : Nat
  phase : String
  state : String
  stateSha256 : String
  idempotencyKey : Option String
  createdAt : Instant
  deriving DecidableEq, Repr

abbrev Journal := Table CheckpointRow.id

inductive CheckpointExc where
  | raised (e : Exc)
  | checkpointConflict (text : String)
  | keyError (runId : String) (sequence : Option Nat)
  deriving DecidableEq, Repr

abbrev CheckpointTxn := Txn Journal CheckpointExc

/-- A row with its document parsed. -/
structure Checkpoint where
  row : CheckpointRow
  state : Json

/-- The arguments of `save`, the uuid it draws and the clock it reads. -/
structure SaveCall where
  principal : String
  runId : String
  goalId : String
  phase : String
  state : Json
  expectedSequence : Option Int
  idempotencyKey : Option String
  ident : String
  now : Instant

def canonical (value : Json) : Except Exc String := DeviceProtocol.compactText value.sortKeys

section Store

variable (sha256 : String → String)

/-- `_row`. -/
def CheckpointRow.checkpoint (row : CheckpointRow) : Except CheckpointExc Checkpoint :=
  if sha256 row.state = row.stateSha256 then
    match JsonLoads.loads row.state with
    | some state => .ok ⟨row, state⟩
    | none => .error (.raised (.valueError "Expecting value"))
  else .error (.raised (.valueError "checkpoint state checksum mismatch"))

def ofRun (principal runId : String) (row : CheckpointRow) : Bool :=
  decide (row.principal = principal ∧ row.runId = runId)

/-- The row of an idempotency key; an empty key is none. -/
def keyedRow (s : Journal) (principal runId : String) (key : Option String) : Option CheckpointRow :=
  (key.filter (fun k => k ≠ "")).bind (fun k =>
    (s.select (fun row => ofRun principal runId row && decide (row.idempotencyKey = some k))).head?)

/-- `ORDER BY sequence DESC LIMIT 1`. -/
def latestRow (s : Journal) (principal runId : String) : Option CheckpointRow :=
  s.first (ofRun principal runId) (fun a b => decide (b.sequence < a.sequence))

def currentSequence (s : Journal) (principal runId : String) : Nat :=
  ((latestRow s principal runId).map CheckpointRow.sequence).getD 0

/-- The primary key and the two UNIQUE constraints; a missing key conflicts with none. -/
def fits (s : Journal) (row : CheckpointRow) : Bool :=
  (s.find row.id).isNone &&
    (s.select (fun other => ofRun row.principal row.runId other &&
      (decide (other.sequence = row.sequence) ||
        (row.idempotencyKey.isSome && decide (other.idempotencyKey = row.idempotencyKey))))).isEmpty

def newRow (c : SaveCall) (document : String) (sequence : Nat) : CheckpointRow :=
  ⟨c.ident, c.principal, c.runId, c.goalId, sequence, c.phase, document, sha256 document,
    c.idempotencyKey, c.now⟩

/-- The row holds what the save asks for. -/
def sameContent (c : SaveCall) (document : String) (row : CheckpointRow) : Bool :=
  decide (row.goalId = c.goalId ∧ row.phase = c.phase ∧ row.stateSha256 = sha256 document)

def sequenceConflict (c : SaveCall) (current : Nat) : CheckpointExc :=
  .checkpointConflict ("sequence conflict: expected " ++ toString (c.expectedSequence.getD 0) ++
    ", actual " ++ toString current)

/-- The INSERT of `save`: the sequence it used. -/
def append (c : SaveCall) (document : String) : CheckpointTxn Nat := do
  let current ← Txn.read (fun s => currentSequence s c.principal c.runId)
  Txn.require (c.expectedSequence.all (fun expected : Int => decide (expected = current)))
    (sequenceConflict c current)
  let row := newRow sha256 c document (current + 1)
  let free ← Txn.read (fun s => fits s row)
  Txn.require free (.raised (.integrityError "UNIQUE constraint failed: agency_checkpoints"))
  Txn.write (fun s => (s.insertOrIgnore row).1)
  return current + 1

/-- The transaction of `save`: a checkpoint to replay, or the sequence of a new one. -/
def commit (c : SaveCall) (document : String) : CheckpointTxn (Checkpoint ⊕ Nat) := do
  let existing ← Txn.read (fun s => keyedRow s c.principal c.runId c.idempotencyKey)
  match existing with
  | some row =>
    Txn.require (sameContent sha256 c document row)
      (.checkpointConflict "idempotency key was used for different checkpoint content")
    let checkpoint ← Txn.ofExcept (row.checkpoint sha256)
    return .inl checkpoint
  | none =>
    let sequence ← append sha256 c document
    return .inr sequence

def get (s : Journal) (principal runId : String) (sequence : Nat) : Except CheckpointExc Checkpoint :=
  match (s.select (fun row => ofRun principal runId row && decide (row.sequence = sequence))).head? with
  | some row => row.checkpoint sha256
  | none => .error (.keyError runId (some sequence))

def named (c : SaveCall) : Bool :=
  [c.principal, c.runId, c.goalId, c.phase].all (fun text => !PgJobs.blank text)

def save (c : SaveCall) : CheckpointTxn Checkpoint := do
  Txn.require (named c) (.raised (.valueError "principal, run, goal and phase are required"))
  let document ← Txn.ofExcept ((canonical c.state).mapError CheckpointExc.raised)
  let committed ← Txn.atomically (commit sha256 c document)
  match committed with
  | .inl checkpoint => return checkpoint
  | .inr sequence =>
    let read ← Txn.read (fun s => get sha256 s c.principal c.runId sequence)
    Txn.ofExcept read

/-- What `resume` answers. -/
structure Resumed where
  runId : String
  goalId : String
  nextSequence : Nat
  phase : String
  state : Json
  checkpointId : String

def resume (s : Journal) (principal runId : String) : Except CheckpointExc Resumed :=
  match latestRow s principal runId with
  | none => .error (.keyError runId none)
  | some row => (row.checkpoint sha256).map (fun checkpoint =>
    ⟨runId, row.goalId, row.sequence + 1, row.phase, checkpoint.state, row.id⟩)

end Store

end Meemee.Source.Checkpoints
