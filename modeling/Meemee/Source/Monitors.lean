import Mathlib.Data.List.Infix
import Meemee.Source.MonitorIdentity

/-!
# Monitors: creation, evaluation and cancellation

`meemee/monitors.py`. An evaluation reads the identity and the time before its transaction
(`BEGIN IMMEDIATE`) and walks the active monitors of the owner and the source in it.
-/
namespace Meemee.Source.Monitors
open Library MonitorIdentity
open Source.Jobs (RunAt)

inductive MonitorExc where
  | monitorEventInvalid
  | monitorEventConflict
  | attributeError (text : String)
  | raised (e : Exc)
  deriving DecidableEq, Repr

inductive Operator where
  | eq | contains | gt | gte | lt | lte | exists
  deriving DecidableEq, Repr

/-- `str|float|bool|None`, the number finite. -/
inductive Expected where
  | null
  | bool (value : Bool)
  | number (repr : String)
  | str (value : String)
  deriving DecidableEq, Repr

def Expected.json : Expected → Json
  | .null => .null
  | .bool value => .bool value
  | .number repr => .float (.finite repr)
  | .str value => .str value

structure Predicate where
  field : String
  operator : Operator
  expected : Expected
  deriving DecidableEq, Repr

def Operator.text : Operator → String
  | .eq => "eq"
  | .contains => "contains"
  | .gt => "gt"
  | .gte => "gte"
  | .lt => "lt"
  | .lte => "lte"
  | .exists => "exists"

def Predicate.json (predicate : Predicate) : Json :=
  .obj [("field", .str predicate.field), ("operator", .str predicate.operator.text),
    ("expected", predicate.expected.json)]

structure MonitorInput where
  name : String
  sourceId : String
  predicate : Predicate
  deadline : Option Instant
  maxFires : Nat
  named : 1 ≤ name.length ∧ name.length ≤ 240
  sourced : 1 ≤ sourceId.length ∧ sourceId.length ≤ 240
  fielded : 1 ≤ predicate.field.length ∧ predicate.field.length ≤ 120
  fires : 1 ≤ maxFires ∧ maxFires ≤ 1000

inductive MonitorStatus where
  | active | triggered | completed | timedOut | cancelled
  deriving DecidableEq, Repr

structure Monitor where
  id : String
  ownerId : String
  name : String
  sourceId : String
  predicate : Predicate
  deadline : Option Instant
  maxFires : Nat
  fireCount : Nat
  status : MonitorStatus
  createdAt : Instant
  updatedAt : Instant
  deriving DecidableEq

structure SourceEvent where
  ownerId : String
  sourceId : String
  eventId : String
  payloadSha256 : String
  createdAt : Instant
  deriving DecidableEq

/-- `PRIMARY KEY(owner_id,source_id,event_id)`. -/
def SourceEvent.key (row : SourceEvent) : String × String × String :=
  (row.ownerId, row.sourceId, row.eventId)

inductive EventKind where
  | created | timedOut | triggered | cancelled
  deriving DecidableEq, Repr

structure MonitorEvent where
  monitorId : String
  ownerId : String
  kind : EventKind
  payload : String
  createdAt : Instant
  deriving DecidableEq

structure MonitorStore where
  monitors : Table Monitor.id
  sourceEvents : Table SourceEvent.key
  events : Log MonitorEvent

def MonitorStore.empty : MonitorStore := ⟨Table.empty, Table.empty, Log.empty⟩

abbrev MonitorTxn := Txn MonitorStore MonitorExc

def event (ident owner : String) (kind : EventKind) (payload : Json) (now : Instant) :
    MonitorTxn Unit := do
  let text ← Txn.ofExcept ((Json.dumps { sortKeys := true } payload).mapError .raised)
  Txn.write (fun s => { s with events := s.events.append ⟨ident, owner, kind, text, now⟩ })

/-- `UPDATE monitors SET f WHERE p`. -/
def MonitorStore.updated (s : MonitorStore) (p : Monitor → Bool) (f : Monitor → Monitor)
    (keeps : ∀ m, (f m).id = m.id) : MonitorStore :=
  { s with monitors := s.monitors.update p f keeps }

def MonitorInput.row (item : MonitorInput) (ident ownerId : String) (now : Instant) : Monitor where
  id := ident
  ownerId := ownerId
  name := item.name
  sourceId := item.sourceId
  predicate := item.predicate
  deadline := item.deadline
  maxFires := item.maxFires
  fireCount := 0
  status := .active
  createdAt := now
  updatedAt := now

def insertMonitor (row : Monitor) : MonitorTxn Unit := fun s =>
  if fresh : s.monitors.find row.id = none then
    (.ok (), { s with monitors := s.monitors.insert row fresh })
  else (.error (.raised (.integrityError "UNIQUE constraint failed: monitors.id")), s)

/-- The transaction of `create`; `ident` is the drawn uuid and `stamp` the reading of `_event`. -/
def create (ownerId : String) (item : MonitorInput) (ident : String) (now stamp : Instant) :
    MonitorTxn Unit := do
  Txn.require (decide (ownerId ≠ "")) (.raised (.valueError "owner is required"))
  Txn.atomically do
    insertMonitor (item.row ident ownerId now)
    event ident ownerId .created (.obj [("predicate", item.predicate.json)]) stamp

def get (ownerId ident : String) : MonitorTxn (Option Monitor) :=
  Txn.read (fun s => (s.monitors.find ident).filter (fun m => decide (m.ownerId = ownerId)))

def Monitor.cancelled (now : Instant) (m : Monitor) : Monitor :=
  { m with status := .cancelled, updatedAt := now }

@[simp] theorem Monitor.cancelled_id (now : Instant) (m : Monitor) : (m.cancelled now).id = m.id := rfl

/-- `WHERE owner_id=? AND id=? AND status='active'`. -/
def cancellable (ownerId ident : String) (m : Monitor) : Bool :=
  decide (m.ownerId = ownerId ∧ m.id = ident ∧ m.status = .active)

def cancel (ownerId ident : String) (now stamp : Instant) : MonitorTxn Bool :=
  Txn.atomically do
    let changed ← Txn.read (fun s => s.monitors.select (cancellable ownerId ident))
    Txn.write (fun s => s.updated (cancellable ownerId ident) (Monitor.cancelled now)
      (Monitor.cancelled_id now))
    if changed.isEmpty then return false
    else do
      event ident ownerId .cancelled (.obj []) stamp
      return true

/-- What the evaluation takes from Python itself: the digest, the ISO reader and the operators.
`order` has no answer where the comparison is a TypeError. -/
structure Python where
  sha256 : String → String
  fromisoformat : String → Except Exc RunAt
  equal : Json → Json → Bool
  order : Operator → Json → Json → Option Bool
  str : Json → String
  lower : String → String

/-- `part in text`. -/
def within (part text : String) : Bool := decide (part.toList <:+: text.toList)

/-- The comparison of `matches`; a missing field is None. -/
def compare (python : Python) (operator : Operator) (value expected : Json) : Bool :=
  match operator, value, expected with
  | .exists, .null, _ => false
  | .exists, _, _ => true
  | .eq, .bool value, .bool expected => decide (value = expected)
  | .eq, .bool _, _ => false
  | .eq, _, .bool _ => false
  | .eq, value, expected => python.equal value expected
  | .contains, .null, expected => within (python.lower (python.str expected)) (python.lower "")
  | .contains, value, expected =>
    within (python.lower (python.str expected)) (python.lower (python.str value))
  | _, .bool _, _ => false
  | _, _, .bool _ => false
  | operator, value, expected => (python.order operator value expected).getD false

def Predicate.matches (python : Python) (predicate : Predicate) : Json → Except MonitorExc Bool
  | .obj fields => .ok (compare python predicate.operator
      (((Json.obj fields).field? predicate.field).getD .null) predicate.expected.json)
  | _ => .error (.attributeError "object has no attribute 'get'")

/-- `prepare_monitor_identity`, and the event to evaluate. -/
def prepareMonitorIdentity (python : Python) (ownerId sourceId : String) (eventId : Option String)
    (payload : Json) : Except MonitorExc (Option EventIdentity × Json) :=
  match eventId with
  | none => .ok (none, payload)
  | some eventId =>
    match identifyEvent python.sha256 ownerId sourceId eventId payload none maxPayloadBytes with
    | .ok decision => .ok (some decision.identity, decision.payload)
    | .error _ => .error .monitorEventInvalid

/-- The evaluation time, of `at` where it is not empty. -/
def evaluationTime (python : Python) (time : Option String) (now : Instant) :
    Except MonitorExc Instant :=
  match time with
  | none => .ok now
  | some time =>
    if time = "" then .ok now
    else match python.fromisoformat (time.replace "Z" "+00:00") with
      | .error e => .error (.raised e)
      | .ok .naive => .error (.raised (.valueError "evaluation time must include a timezone"))
      | .ok (.aware instant) =>
        if Jobs.firstInstant ≤ instant ∧ instant ≤ Jobs.lastInstant then .ok instant
        else .error (.raised (.overflowError "date value out of range"))

def sourceEvent (identity : EventIdentity) (clock : Instant) : SourceEvent :=
  ⟨identity.ownerId, identity.sourceId, identity.eventId, identity.payloadSha256, clock⟩

/-- The store with an identity recorded. -/
def MonitorStore.admitted (s : MonitorStore) (row : SourceEvent)
    (fresh : s.sourceEvents.find row.key = none) : MonitorStore :=
  { s with sourceEvents := s.sourceEvents.insert row fresh }

/-- Record an identity that is new; false for a replay. -/
def admitEvent (identity : EventIdentity) (clock : Instant) : MonitorTxn Bool := fun s =>
  match found : s.sourceEvents.find (sourceEvent identity clock).key with
  | some prior =>
    if prior.payloadSha256 ≠ identity.payloadSha256 then (.error .monitorEventConflict, s)
    else (.ok false, s)
  | none => (.ok true, s.admitted (sourceEvent identity clock) found)

def Monitor.timedOut (clock : Instant) (m : Monitor) : Monitor :=
  { m with status := .timedOut, updatedAt := clock }

@[simp] theorem Monitor.timedOut_id (clock : Instant) (m : Monitor) : (m.timedOut clock).id = m.id := rfl

/-- The row as a match writes it, from the row that the evaluation read. -/
def Monitor.fired (row : Monitor) (clock : Instant) (m : Monitor) : Monitor :=
  { m with
    fireCount := row.fireCount + 1
    status := if row.maxFires ≤ row.fireCount + 1 then .completed else .active
    updatedAt := clock }

@[simp] theorem Monitor.fired_id (row : Monitor) (clock : Instant) (m : Monitor) :
    (row.fired clock m).id = m.id := rfl

/-- `row['deadline'] and row['deadline']<=clock`. -/
def Monitor.expired (m : Monitor) (clock : Instant) : Bool :=
  m.deadline.any (fun deadline => decide (deadline ≤ clock))

/-- One turn of the loop: the ids it adds to those fired. -/
def evaluateRow (python : Python) (owner : String) (payload : Json) (clock : Instant)
    (stamp : String → Instant) (row : Monitor) : MonitorTxn (List String) := do
  if row.expired clock then
    Txn.write (fun s => s.updated (fun m => decide (m.id = row.id)) (Monitor.timedOut clock)
      (Monitor.timedOut_id clock))
    event row.id owner .timedOut (.obj []) (stamp row.id)
    return []
  else do
    let hit ← Txn.ofExcept (row.predicate.matches python payload)
    if hit then
      Txn.write (fun s => s.updated (fun m => decide (m.id = row.id)) (row.fired clock)
        (row.fired_id clock))
      event row.id owner .triggered payload (stamp row.id)
      return [row.id]
    else return []

def evaluateRows (python : Python) (owner : String) (payload : Json) (clock : Instant)
    (stamp : String → Instant) : List Monitor → MonitorTxn (List String)
  | [] => return []
  | row :: rest => do
    let first ← evaluateRow python owner payload clock stamp row
    let later ← evaluateRows python owner payload clock stamp rest
    return first ++ later

inductive EvaluationStatus where
  | new | replay | legacy
  deriving DecidableEq, Repr

structure Evaluation where
  fired : List String
  status : EvaluationStatus
  deriving DecidableEq, Repr

/-- `WHERE owner_id=? AND source_id=? AND status='active'`. -/
def watching (owner source : String) (m : Monitor) : Bool :=
  decide (m.ownerId = owner ∧ m.sourceId = source ∧ m.status = .active)

/-- The walk over the active monitors. -/
def evaluateActive (python : Python) (owner source : String) (payload : Json) (clock : Instant)
    (stamp : String → Instant) (status : EvaluationStatus) : MonitorTxn Evaluation := do
  let rows ← Txn.read (fun s => s.monitors.select (watching owner source))
  let fired ← evaluateRows python owner payload clock stamp rows
  return ⟨fired, status⟩

def admitAndEvaluate (python : Python) (owner source : String) (identity : Option EventIdentity)
    (payload : Json) (clock : Instant) (stamp : String → Instant) : MonitorTxn Evaluation :=
  match identity with
  | none => evaluateActive python owner source payload clock stamp .legacy
  | some identity => do
    let fresh ← admitEvent identity clock
    if fresh then evaluateActive python owner source payload clock stamp .new
    else return ⟨[], .replay⟩

/-- `stamp` is the reading of `_event` for each monitor. -/
def evaluateIdentified (python : Python) (owner source : String) (payload : Json)
    (eventId time : Option String) (now : Instant) (stamp : String → Instant) :
    MonitorTxn Evaluation := do
  let (identity, payload) ← Txn.ofExcept (prepareMonitorIdentity python owner source eventId payload)
  let _ ← Txn.ofExcept ((Json.dumps { allowNan := false } payload).mapError .raised)
  let clock ← Txn.ofExcept (evaluationTime python time now)
  Txn.atomically (admitAndEvaluate python owner source identity payload clock stamp)

def evaluate (python : Python) (owner source : String) (payload : Json) (time : Option String)
    (now : Instant) (stamp : String → Instant) : MonitorTxn (List String) := do
  let evaluation ← evaluateIdentified python owner source payload none time now stamp
  return evaluation.fired

end Meemee.Source.Monitors
