import Meemee.Source.Checkins

/-!
# Planning check-ins

`meemee/companion/checkins.py` and the two stores' `schedule_checkin`. `plan_user` reads the profile,
looks for a queued and then for a running check-in, and then schedules; each is a call of its own. The
PostgreSQL store takes an advisory lock, looks again, inserts and commits, one statement at a time.
`strftime`, the lock's hash and the profile's cadence are parameters.
-/
namespace Meemee.Source.Planning
open Library Source Source.Checkins

section Due

variable (wallClock : String → Instant → Nat)

/-- The loop of `next_due`: a quarter of an hour later as long as the candidate is quiet,
`budget` more times. -/
def postpone (zone : String) (quiet : QuietHours) : Nat → Instant → Except Exc Instant
  | budget, candidate =>
    if inQuietHours (wallClock zone candidate) quiet then
      match budget with
      | 0 => .error (.valueError "quiet hours leave no deliverable slot in two weeks")
      | left + 1 => postpone zone quiet left (candidate + minutes 15)
    else .ok candidate

def nextDue (cadenceMinutes : Int) (quietHours : Option QuietHours) (zone : String)
    (after : Instant) : Except Exc Instant :=
  let candidate := after + minutes cadenceMinutes
  match quietHours with
  | none => .ok candidate
  | some quiet => postpone wallClock zone quiet (4 * 24 * 14) candidate

end Due

/-- `list_checkins(user_id, status=status, limit=1)`. -/
def listCheckin (userId : String) (status : CheckinStatus) (s : CompanionStore) : Option CheckinRow :=
  s.checkins.first (fun r => decide (r.userId = userId ∧ r.status = status)) (fun a b => dueBefore b a)

/-- The arguments of the planner's `schedule_checkin(..., reuse_pending=True)`. -/
structure Slot where
  userId : String
  dueAt : Instant
  slot : String
  channel : String
  address : Option String
  deriving DecidableEq

/-- The row that an insert adds for a slot, under the drawn uuid. -/
def Slot.row (slot : Slot) (maxAttempts : Int) (ident : String) (now : Instant) : CheckinRow :=
  { id := ident, userId := slot.userId, slot := slot.slot, dueAt := slot.dueAt, status := .queued,
    attempts := 0, maxAttempts := maxAttempts, channel := slot.channel, address := slot.address,
    message := none, lastError := none, createdAt := now, updatedAt := now, claimToken := none,
    claimGeneration := 0, claimedAt := none, leaseUntil := none, deliveryState := .unknown }

/-- Where a `plan_user` call is. The last three are inside the transaction of the PostgreSQL
`schedule_checkin`: the advisory lock is held, no check-in is pending, the insert ran. -/
inductive PlanPhase where
  | idle
  | looking (userId : String)
  | profiled (profile : UserProfile)
  | unqueued (profile : UserProfile)
  | scheduling (slot : Slot)
  | locked (slot : Slot)
  | looked (slot : Slot)
  | inserted (slot : Slot) (row : Option CheckinRow)
  deriving DecidableEq

/-- A `plan_all`, with the users it has still to plan and the rows it planned; a `plan_user` is
one without further users. -/
structure Planner where
  phase : PlanPhase := .idle
  rest : List String := []
  planned : List CheckinRow := []
  deriving DecidableEq

/-- `plan_user` returned, and `plan_all` goes on with its next user. -/
def Planner.returned (p : Planner) (row : Option CheckinRow) : Planner :=
  let planned := p.planned ++ row.toList
  match p.rest with
  | [] => { phase := .idle, rest := [], planned := planned }
  | userId :: rest => { phase := .looking userId, rest := rest, planned := planned }

/-- An exception ends the planner. -/
def Planner.raised (p : Planner) : Planner := { p with phase := .idle, rest := [] }

/-- What a planner reads off the clock and draws in a step. -/
structure PlanTurn where
  moment : Instant
  now : Instant
  ident : String

/-- The row as the caller gets it. -/
def CheckinRow.shown (row : CheckinRow) : CheckinRow := { row with claimToken := none }

/-- The committed store; per lock the session that holds it; the rows inserted by open
transactions; the planners. -/
structure Deployment where
  store : CompanionStore
  locks : Int → Option Nat
  uncommitted : List (Nat × CheckinRow)
  planners : Nat → Planner

def Deployment.start (store : CompanionStore) : Deployment :=
  ⟨store, fun _ => none, [], fun _ => {}⟩

section Steps

variable (wallClock : String → Instant → Nat) (cadenceMinutes : UserProfile → Int)
  (slotName : Instant → String) (hashtextextended : String → Int)

def planLock (userId : String) : Int := hashtextextended ("checkin-plan:" ++ userId)

/-- `plan_user` has found nothing pending: it works out the slot, or raises. -/
def slotOf (profile : UserProfile) (moment : Instant) : Except Exc Slot := do
  let due ← nextDue wallClock (cadenceMinutes profile) profile.checkins.quietHours profile.timezone
    moment
  return { userId := profile.userId, dueAt := due, slot := slotName due,
           channel := profile.checkins.channel, address := profile.checkins.address }

/-- The profile allows planning: enabled, and not quiet all day. -/
def plannable (profile : UserProfile) : Bool :=
  profile.checkins.enabled && !profile.checkins.quietHours.any (fun q => decide (q.start = q.stop))

/-- The reads of `plan_user` before it schedules. -/
def Planner.look (p : Planner) (s : CompanionStore) (turn : PlanTurn) : Planner :=
  match p.phase with
  | .looking userId =>
    match s.users.find userId with
    | none => p.returned none
    | some profile =>
      if plannable profile then { p with phase := .profiled profile } else p.returned none
  | .profiled profile =>
    match listCheckin profile.userId .queued s with
    | some row => p.returned (some (CheckinRow.shown row))
    | none => { p with phase := .unqueued profile }
  | .unqueued profile =>
    match listCheckin profile.userId .running s with
    | some row => p.returned (some (CheckinRow.shown row))
    | none =>
      match slotOf wallClock cadenceMinutes slotName profile turn.moment with
      | .ok slot => { p with phase := .scheduling slot }
      | .error _ => p.raised
  | _ => p

def Deployment.put (d : Deployment) (n : Nat) (p : Planner) : Deployment :=
  { d with planners := Function.update d.planners n p }

/-- Commit or rollback: the lock of the transaction is given back and its row is no longer
uncommitted. -/
def Deployment.ended (d : Deployment) (n : Nat) (userId : String) : Deployment :=
  { d with
    locks := Function.update d.locks (planLock hashtextextended userId) none
    uncommitted := d.uncommitted.filter (fun entry => decide (entry.1 ≠ n)) }

/-- The SQLite store schedules in one transaction. -/
def scheduleSqlite (d : Deployment) (n : Nat) (slot : Slot) (turn : PlanTurn) : Deployment :=
  match scheduleCheckin slot.userId slot.dueAt slot.slot slot.channel slot.address 3 true turn.ident
      turn.now d.store with
  | (.ok (row, _), store) => { d with store := store }.put n ((d.planners n).returned (some row))
  | (.error _, store) => { d with store := store }.put n (d.planners n).raised

/-- `pg_advisory_xact_lock`: wait until no other session holds the lock. -/
def lockPg (d : Deployment) (n : Nat) (slot : Slot) : Deployment :=
  let lock := planLock hashtextextended slot.userId
  match d.locks lock with
  | some _ => d
  | none =>
    { d with locks := Function.update d.locks lock (some n) }.put n
      { d.planners n with phase := .locked slot }

/-- The pending row is returned, which ends the transaction, or the transaction goes on. -/
def lookPg (d : Deployment) (n : Nat) (slot : Slot) : Deployment :=
  match pendingCheckin slot.userId d.store with
  | some row =>
    (d.ended hashtextextended n slot.userId).put n
      ((d.planners n).returned (some (CheckinRow.shown row)))
  | none => d.put n { d.planners n with phase := .looked slot }

/-- `INSERT ... ON CONFLICT (user_id, slot) DO NOTHING`. It waits for an open transaction that
has inserted the same key; a stored row with the drawn id is an integrity error. -/
def insertPg (d : Deployment) (n : Nat) (slot : Slot) (turn : PlanTurn) : Deployment :=
  let row := slot.row 3 turn.ident turn.now
  if d.uncommitted.any (fun entry => decide (entry.2.id = row.id ∨
      entry.2.userId = row.userId ∧ entry.2.slot = row.slot)) then d
  else
    match slotCheckin slot.userId slot.slot d.store, d.store.checkins.find row.id with
    | some _, _ => d.put n { d.planners n with phase := .inserted slot none }
    | none, some _ => (d.ended hashtextextended n slot.userId).put n (d.planners n).raised
    | none, none =>
      { d with uncommitted := (n, row) :: d.uncommitted }.put n
        { d.planners n with phase := .inserted slot (some row) }

/-- `SELECT * ... WHERE user_id=%s AND slot=%s`, and the commit. -/
def commitPg (d : Deployment) (n : Nat) (slot : Slot) (inserted : Option CheckinRow) : Deployment :=
  match inserted with
  | some row =>
    { (d.ended hashtextextended n slot.userId) with
      store := { d.store with checkins := (d.store.checkins.insertOrIgnore row).1 } }.put n
        ((d.planners n).returned (some (CheckinRow.shown row)))
  | none =>
    match slotCheckin slot.userId slot.slot d.store with
    | some row =>
      (d.ended hashtextextended n slot.userId).put n
        ((d.planners n).returned (some (CheckinRow.shown row)))
    | none => (d.ended hashtextextended n slot.userId).put n (d.planners n).raised

/-- The next step of a planner. -/
def Deployment.plan (backend : Backend) (d : Deployment) (n : Nat) (turn : PlanTurn) : Deployment :=
  match (d.planners n).phase with
  | .scheduling slot =>
    match backend with
    | .sqlite => scheduleSqlite d n slot turn
    | .postgres => lockPg hashtextextended d n slot
  | .locked slot => lookPg hashtextextended d n slot
  | .looked slot => insertPg hashtextextended d n slot turn
  | .inserted slot row => commitPg hashtextextended d n slot row
  | _ => d.put n ((d.planners n).look wallClock cadenceMinutes slotName d.store turn)

/-- The session of a planner breaks: its transaction is rolled back. -/
def Deployment.broken (d : Deployment) (n : Nat) : Deployment :=
  match (d.planners n).phase with
  | .locked slot | .looked slot | .inserted slot _ =>
    (d.ended hashtextextended n slot.userId).put n (d.planners n).raised
  | _ => d.put n (d.planners n).raised

end Steps

theorem exhausted_at_id (clock : Clock) (r : CheckinRow) : (r.exhausted (clock 1)).id = r.id := rfl

theorem leased_at_id (token : String) (clock : Clock) (leaseSeconds : Int) (r : CheckinRow) :
    (r.leased token (clock 2) leaseSeconds).id = r.id := rfl

/-- What a claim without a lease assigns. -/
def CheckinRow.running (now : Instant) (r : CheckinRow) : CheckinRow :=
  { r with status := .running, attempts := r.attempts + 1, updatedAt := now }

theorem CheckinRow.running_id (now : Instant) (r : CheckinRow) : (running now r).id = r.id := rfl

/-- The PostgreSQL `claim_checkin_fenced`: `FOR UPDATE SKIP LOCKED` passes over the rows that
open transactions hold. -/
def claimCheckinFencedSkipping (locked : String → Bool) (clock : Clock) (leaseSeconds : Int)
    (token : String) : CompanionTxn (Option CheckinRow) := do
  checkLeaseSeconds leaseSeconds "lease seconds must be an integer between3 and3600"
  Txn.atomically do
    updateCheckins (fun r => decide (r.status = .queued ∧ r.maxAttempts ≤ r.attempts))
      (fun r => r.exhausted (clock 1)) (exhausted_at_id clock)
    let row ← Txn.read (fun s => s.checkins.first (fun r => decide (r.status = .queued ∧
      r.dueAt ≤ clock 1 ∧ r.attempts < r.maxAttempts) && !locked r.id) dueBefore)
    match row with
    | none => return none
    | some row =>
      if clock 2 < row.dueAt then return none
      else
        updateCheckins (fun r => decide (r.id = row.id ∧ r.status = .queued))
          (fun r => r.leased token (clock 2) leaseSeconds) (leased_at_id token clock leaseSeconds)
        findCheckin row.id

/-- The PostgreSQL `claim_checkin`. -/
def claimCheckinSkipping (locked : String → Bool) (moment now : Instant) :
    CompanionTxn (Option CheckinRow) :=
  Txn.atomically do
    let row ← Txn.read (fun s => s.checkins.first (fun r => decide (r.status = .queued ∧
      r.claimToken = none ∧ r.attempts < r.maxAttempts ∧ r.dueAt ≤ moment) && !locked r.id) dueBefore)
    match row with
    | none => return none
    | some row =>
      updateCheckins (fun r => decide (r.id = row.id))
        (CheckinRow.running now) (CheckinRow.running_id now)
      return some row

end Meemee.Source.Planning
