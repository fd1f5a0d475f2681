import Meemee.Source.Expiry

/-!
# SourceHealthStore

`meemee/source_health.py`: the ledger of checks and one summary row for each source. `record` is one
transaction, which first writes the times of the source again in UTC. SQLite compares the times as
texts. `datetime.fromisoformat` is the parameter `fromisoformat`, which raises as it does.
-/
namespace Meemee.Source.SourceHealth
open Library Source.Expiry

/-- A number of milliseconds. -/
inductive Latency where
  | finite (value : Rat)
  | nan
  | infinity (negative : Bool)
  deriving DecidableEq

/-- A row of `source_health`. -/
structure HealthRow where
  ownerId : String
  sourceId : String
  lastAttemptAt : String
  lastSuccessAt : Option String
  lastCursor : Option String
  consecutiveFailures : Nat
  totalSuccesses : Nat
  totalFailures : Nat
  latencyMs : Option Latency
  lastError : Option String
  metadata : String
  deriving DecidableEq

def HealthRow.id (row : HealthRow) : String × String := (row.ownerId, row.sourceId)

/-- A row of `source_health_checks`. Rows are never deleted, so the ids are the positions. -/
structure CheckRow where
  ownerId : String
  sourceId : String
  checkedAt : String
  ok : Bool
  latencyMs : Option Latency
  cursor : Option String
  error : Option String
  metadata : String
  deriving DecidableEq

structure HealthStore where
  health : Table HealthRow.id
  checks : List CheckRow

def HealthStore.empty : HealthStore := ⟨Table.empty, []⟩

inductive HealthExc where
  | raised (e : Exc)
  /-- `user-defined function raised exception`. -/
  | operationalError
  deriving DecidableEq, Repr

abbrev HealthTxn := Txn HealthStore HealthExc

/-- The arguments of `record` and `datetime.now(timezone.utc)`; `ok` is none where it is no bool. -/
structure Call where
  ownerId : String
  sourceId : String
  ok : Option Bool
  latencyMs : Option Latency
  cursor : Option String
  error : Option String
  metadata : Option (List (String × Json))
  checkedAt : Option String
  now : Moment

/-- What `record` has checked and writes. -/
structure Check where
  moment : Datetime
  ok : Bool
  latencyMs : Option Latency
  cursor : Option String
  error : Option String
  metadata : String

/-- A Python condition on a text that may be None. -/
def truthy (text : Option String) : Bool := text.any (fun t => decide (t ≠ ""))

/-- `not math.isfinite(latency_ms) or latency_ms < 0`. -/
def Latency.refused : Latency → Bool
  | .finite value => decide (value < 0)
  | .nan | .infinity _ => true

section Timestamps

variable (fromisoformat : String → Except Exc Moment)

/-- A datetime in UTC; it must have a timezone. -/
def aware (moment : Moment) (refusal : String) : Except Exc Datetime := do
  if moment.offset.isNone then throw (.valueError refusal)
  utcMoment moment

/-- `datetime.fromisoformat(checked_at) if checked_at else datetime.now(timezone.utc)`. -/
def Call.given (c : Call) : Except Exc Moment :=
  match c.checkedAt.filter (fun t => decide (t ≠ "")) with
  | some text => fromisoformat text
  | none => .ok c.now

/-- The checks of `record`, down to the encoded metadata. -/
def Call.check (c : Call) : Except Exc Check :=
  match c.ok with
  | none => .error (.typeError "ok must be an explicit boolean")
  | some ok =>
    if c.ownerId = "" ∨ c.sourceId = "" then
      .error (.valueError "owner_id and source_id are required")
    else if ok && truthy c.error then .error (.valueError "successful check cannot have an error")
    else if c.latencyMs.any Latency.refused then
      .error (.valueError "latency_ms must be finite and nonnegative")
    else do
      let given ← c.given fromisoformat
      let moment ← aware given "checked_at must include a timezone"
      let encoded ← Json.dumps { sortKeys := true, allowNan := false } (.obj (c.metadata.getD []))
      return ⟨moment, ok, c.latencyMs, c.cursor, c.error, encoded⟩

/-- `health_utc`, for a text that is there. -/
def healthUtc (text : String) : Except HealthExc String := do
  let stamp : Except Exc Datetime := do
    aware (← fromisoformat text) "stored health timestamp must include a timezone"
  match stamp with
  | .ok t => .ok t.isoformat
  | .error _ => .error .operationalError

/-- The first UPDATE, of the summary row. -/
def HealthRow.normalized (row : HealthRow) : Except HealthExc HealthRow := do
  let attempt ← healthUtc fromisoformat row.lastAttemptAt
  let success ← match row.lastSuccessAt with
    | some text => (healthUtc fromisoformat text).map some
    | none => .ok none
  return { row with lastAttemptAt := attempt, lastSuccessAt := success }

def CheckRow.isOf (ownerId sourceId : String) (row : CheckRow) : Bool :=
  decide (row.ownerId = ownerId) && decide (row.sourceId = sourceId)

def CheckRow.normalized (row : CheckRow) : Except HealthExc CheckRow := do
  return { row with checkedAt := ← healthUtc fromisoformat row.checkedAt }

/-- The second UPDATE, of the source's checks. -/
def normalizedChecks (ownerId sourceId : String) : List CheckRow → Except HealthExc (List CheckRow)
  | [] => .ok []
  | row :: rest => do
    let first ← if row.isOf ownerId sourceId then row.normalized fromisoformat else .ok row
    let others ← normalizedChecks ownerId sourceId rest
    return first :: others

/-- The row that is inserted into the ledger. -/
def Check.ledger (k : Check) (ownerId sourceId : String) : CheckRow :=
  ⟨ownerId, sourceId, k.moment.isoformat, k.ok, k.latencyMs, k.cursor, k.error, k.metadata⟩

/-- `error or "unknown error"`. -/
def Check.errorText (k : Check) : Option String :=
  if k.ok then none else some (if truthy k.error then k.error.getD "" else "unknown error")

/-- The VALUES of the upsert. -/
def Check.excluded (k : Check) (ownerId sourceId : String) : HealthRow where
  ownerId := ownerId
  sourceId := sourceId
  lastAttemptAt := k.moment.isoformat
  lastSuccessAt := if k.ok then some k.moment.isoformat else none
  lastCursor := k.cursor
  consecutiveFailures := if k.ok then 0 else 1
  totalSuccesses := if k.ok then 1 else 0
  totalFailures := if k.ok then 0 else 1
  latencyMs := k.latencyMs
  lastError := k.errorText
  metadata := k.metadata

/-- `excluded.last_attempt_at<source_health.last_attempt_at`. -/
def HealthRow.late (stored excluded : HealthRow) : Bool :=
  decide (excluded.lastAttemptAt < stored.lastAttemptAt)

/-- `ON CONFLICT DO UPDATE SET`. -/
def HealthRow.merge (stored excluded : HealthRow) : HealthRow where
  ownerId := stored.ownerId
  sourceId := stored.sourceId
  lastAttemptAt := if stored.late excluded then stored.lastAttemptAt else excluded.lastAttemptAt
  lastSuccessAt := match excluded.lastSuccessAt, stored.lastSuccessAt with
    | some success, some before => some (if success < before then before else success)
    | some success, none => some success
    | none, before => before
  lastCursor := if excluded.lastCursor.isSome && !stored.late excluded then excluded.lastCursor
    else stored.lastCursor
  consecutiveFailures := if stored.late excluded then stored.consecutiveFailures
    else if excluded.lastSuccessAt.isSome then 0 else stored.consecutiveFailures + 1
  totalSuccesses := stored.totalSuccesses + excluded.totalSuccesses
  totalFailures := stored.totalFailures + excluded.totalFailures
  latencyMs := if stored.late excluded then stored.latencyMs else excluded.latencyMs
  lastError := if stored.late excluded then stored.lastError else excluded.lastError
  metadata := if stored.late excluded then stored.metadata else excluded.metadata

/-- The row after the upsert. -/
def upsert (stored : Option HealthRow) (excluded : HealthRow) : HealthRow :=
  match stored with
  | some row => row.merge excluded
  | none => excluded

/-- `s.checked_at>c.checked_at OR (s.checked_at=c.checked_at AND s.id>c.id)`. -/
def after (s c : CheckRow × Nat) : Bool :=
  decide (c.1.checkedAt < s.1.checkedAt) ||
    decide (s.1.checkedAt = c.1.checkedAt) && decide (c.2 < s.2)

/-- The count of the last UPDATE: the source's failures without a later success. -/
def streak (checks : List CheckRow) (ownerId sourceId : String) : Nat :=
  let rows := checks.zipIdx.filter (fun c => c.1.isOf ownerId sourceId)
  (rows.filter (fun c => !c.1.ok && !rows.any (fun s => s.1.ok && after s c))).length

def HealthRow.withStreak (row : HealthRow) (failures : Nat) : HealthRow :=
  { row with consecutiveFailures := failures }

/-- The transaction of `record`. -/
def publish (ownerId sourceId : String) (k : Check) : HealthTxn Unit := do
  let stored ← Txn.read (fun s => s.health.find (ownerId, sourceId))
  let row ← Txn.ofExcept (stored.mapM (HealthRow.normalized fromisoformat))
  let checks ← Txn.read HealthStore.checks
  let checks ← Txn.ofExcept (normalizedChecks fromisoformat ownerId sourceId checks)
  let merged := upsert row (k.excluded ownerId sourceId)
  let ledger := checks ++ [k.ledger ownerId sourceId]
  Txn.write (fun s => ⟨s.health.replace (merged.withStreak (streak ledger ownerId sourceId)), ledger⟩)

/-- `get`: the row with its metadata read. -/
def get (s : HealthStore) (ownerId sourceId : String) : Except HealthExc (Option (HealthRow × Json)) :=
  match s.health.find (ownerId, sourceId) with
  | none => .ok none
  | some row =>
    match JsonLoads.loads row.metadata with
    | some metadata => .ok (some (row, metadata))
    | none => .error (.raised (.valueError "Expecting value"))

def record (c : Call) : HealthTxn (Option (HealthRow × Json)) := do
  let k ← Txn.ofExcept ((c.check fromisoformat).mapError HealthExc.raised)
  Txn.atomically (publish fromisoformat c.ownerId c.sourceId k)
  let answer ← Txn.read (fun s => get s c.ownerId c.sourceId)
  Txn.ofExcept answer

end Timestamps

end Meemee.Source.SourceHealth
