import Meemee.Library.Log
import Meemee.Library.Table
import Meemee.Library.Txn
import Meemee.Source.Values

/-!
# Check-in claims and their leases

`meemee/companion/checkin_leases.py` and the check-in half of
`meemee/companion/store.py`. Each operation is one SQLite transaction
(`BEGIN IMMEDIATE`), so a raise leaves every table as it was. `lease_clock(now)` is
read several times in one call: `clock i` is the reading number `i`, and an explicit
`now` is the constant clock. `scrub_text` and the time-zone database are parameters.
-/
namespace Meemee.Source.Checkins
open Library

/-- `CHECK(status IN (...))`. -/
inductive CheckinStatus where
  | queued | running | done | failed | cancelled
  deriving DecidableEq, Repr

inductive DeliveryState where
  | unknown | notStarted | started | accepted
  deriving DecidableEq, Repr

/-- A row of `companion_checkins`. -/
structure CheckinRow where
  id : String
  userId : String
  slot : String
  dueAt : Instant
  status : CheckinStatus
  attempts : Int
  maxAttempts : Int
  channel : String
  address : Option String
  message : Option String
  lastError : Option String
  createdAt : Instant
  updatedAt : Instant
  claimToken : Option String
  claimGeneration : Int
  claimedAt : Option Instant
  leaseUntil : Option Instant
  deliveryState : DeliveryState
  deriving DecidableEq, Repr

/-- A time of day that matches `HHMM`. -/
structure HourMinute where
  hour : Fin 24
  minute : Fin 60
  deriving DecidableEq, Repr

structure QuietHours where
  start : HourMinute
  stop : HourMinute
  deriving DecidableEq, Repr

/-- The preferences a delivery permission reads. -/
structure CheckInPreferences where
  enabled : Bool
  quietHours : Option QuietHours
  channel : String
  address : Option String
  deriving DecidableEq, Repr

structure UserProfile where
  userId : String
  timezone : String
  checkins : CheckInPreferences
  deriving DecidableEq, Repr

structure Conversation where
  id : String
  userId : String
  channel : String
  lastMessageAt : Instant
  deriving DecidableEq, Repr

structure Message where
  conversationId : String
  role : String
  content : String
  createdAt : Instant
  deriving DecidableEq, Repr

/-- A row of `companion_destination_grants`; the channel is always "webhook". -/
structure DestinationGrant where
  id : String
  ownerId : String
  destination : String
  issuedAt : Instant
  expiresAt : Instant
  revokedAt : Option Instant
  deriving DecidableEq, Repr

structure CompanionStore where
  checkins : Table CheckinRow.id
  users : Table UserProfile.userId
  conversations : Table Conversation.id
  messages : Log Message
  destinationGrants : Table DestinationGrant.id

def CompanionStore.empty : CompanionStore :=
  ⟨Table.empty, Table.empty, Table.empty, Log.empty, Table.empty⟩

abbrev Clock := Nat → Instant

abbrev CompanionTxn := Txn CompanionStore Exc

def selectCheckins (p : CheckinRow → Bool) : CompanionTxn (List CheckinRow) :=
  Txn.read (fun s => s.checkins.select p)

def findCheckin (id : String) : CompanionTxn (Option CheckinRow) :=
  Txn.read (fun s => s.checkins.find id)

/-- `UPDATE companion_checkins SET f WHERE p`. -/
def updateCheckins (p : CheckinRow → Bool) (f : CheckinRow → CheckinRow)
    (keeps : ∀ r, (f r).id = r.id) : CompanionTxn Unit :=
  Txn.write (fun s => { s with checkins := s.checkins.update p f keeps })

/-- `text[:limit]`. -/
def clip (limit : Nat) (text : String) : String := String.ofList (text.toList.take limit)

/-- `ORDER BY due_at,id`. -/
def dueBefore (a b : CheckinRow) : Bool := decide (a.dueAt < b.dueAt ∨ a.dueAt = b.dueAt ∧ a.id < b.id)

/-- A value of the claim dictionary. A float carries its text. -/
inductive PyValue where
  | null
  | bool (value : Bool)
  | int (value : Int)
  | float (text : String)
  | str (value : String)
  | bytes
  | object
  deriving DecidableEq, Repr

/-- Comparing a bound value with a TEXT column: numbers are converted to text, NULL
and blobs equal nothing, other objects cannot be bound. -/
def PyValue.bindText : PyValue → Except Exc (Option String)
  | .null | .bytes => .ok none
  | .bool value => .ok (some (if value then "1" else "0"))
  | .int value =>
    if -9223372036854775808 ≤ value ∧ value ≤ 9223372036854775807 then .ok (some (toString value))
    else .error (.overflowError "Python int too large to convert to SQLite INTEGER")
  | .float text | .str text => .ok (some text)
  | .object => .error (.programmingError "Error binding parameter: type is not supported")

/-- What is passed as a claim: anything, or a dictionary that may lack a key. -/
inductive Claim where
  | notDict
  | dict (id userId claimToken claimGeneration : Option PyValue)
  deriving DecidableEq, Repr

/-- `dict(row)`, the claim a claimant holds. -/
def CheckinRow.toClaim (row : CheckinRow) : Claim :=
  .dict (some (.str row.id)) (some (.str row.userId))
    (some (match row.claimToken with | some token => .str token | none => .null))
    (some (.int row.claimGeneration))

def claimLost : Exc := .lostCheckinClaim "check-in claim lost"

/-- The four values of a claim as the lookup binds them, or the exception. -/
def boundClaim : Claim → Except Exc (Option String × Option String × String × Int)
  | .dict (some id) (some userId) (some (.str token)) (some (.int generation)) =>
    if token = "" ∨ generation < 1 then .error claimLost
    else do
      let id ← id.bindText
      let userId ← userId.bindText
      let _ ← (PyValue.int generation).bindText
      return (id, userId, token, generation)
  | _ => .error claimLost

def validateClaimTime (row : CheckinRow) (instant : Instant) : CompanionTxn Instant :=
  match row.leaseUntil, row.claimedAt with
  | some expiry, some claimed =>
    if claimed ≤ instant ∧ instant < expiry then pure instant
    else Txn.raise (.lostCheckinClaim "check-in claim expired")
  | _, _ => Txn.raise claimLost

def ownedClaim (claim : Claim) (instant : Instant) : CompanionTxn CheckinRow := do
  let (id, userId, token, generation) ← Txn.ofExcept (boundClaim claim)
  let rows ← selectCheckins (fun r => decide (some r.id = id ∧ some r.userId = userId ∧
    r.claimToken = some token ∧ r.claimGeneration = generation ∧ r.status = .running))
  match rows.head? with
  | none => Txn.raise claimLost
  | some row =>
    let _ ← validateClaimTime row instant
    return row

structure RecoveryCounts where
  requeued : Nat := 0
  quarantined : Nat := 0
  exhausted : Nat := 0
  deriving DecidableEq, Repr

/-- A claim that never reached its send. -/
def CheckinRow.retriable (row : CheckinRow) : Bool :=
  row.claimToken.isSome && decide (row.deliveryState = .notStarted)

/-- What recovery sets on an expired row. -/
def CheckinRow.recovered (row : CheckinRow) (clock : Instant) : CheckinRow :=
  { row with
    status := if row.retriable ∧ row.attempts < row.maxAttempts then .queued else .failed
    deliveryState := if row.retriable then .notStarted else .unknown
    lastError := some (if row.retriable then "expired claim before send"
      else "delivery outcome unknown: expired or legacy claim")
    updatedAt := clock }

def RecoveryCounts.count (counts : RecoveryCounts) (row : CheckinRow) : RecoveryCounts :=
  if row.retriable ∧ row.attempts < row.maxAttempts then
    { counts with requeued := counts.requeued + 1 }
  else if row.retriable then { counts with exhausted := counts.exhausted + 1 }
  else { counts with quarantined := counts.quarantined + 1 }

/-- The loop of `recover_checkin_claims`: the clock is read again at each row. -/
def recoverRows (clock : Clock) : Nat → List CheckinRow → RecoveryCounts →
    CompanionTxn RecoveryCounts
  | _, [], counts => pure counts
  | reading, row :: rest, counts =>
    if row.leaseUntil.any (fun lease => decide (clock reading < lease)) then
      recoverRows clock (reading + 1) rest counts
    else do
      updateCheckins (fun r => decide (r.id = row.id ∧ r.status = .running))
        (fun r => { r with
          status := (row.recovered (clock reading)).status
          deliveryState := (row.recovered (clock reading)).deliveryState
          lastError := (row.recovered (clock reading)).lastError
          updatedAt := clock reading }) (fun _ => rfl)
      recoverRows clock (reading + 1) rest (counts.count row)

/-- `lease_until IS NULL OR lease_until<=?`. -/
def leaseOver (instant : Instant) (row : CheckinRow) : Bool :=
  row.leaseUntil.all (fun lease => decide (lease ≤ instant))

def recoverCheckinClaims (clock : Clock) : CompanionTxn RecoveryCounts :=
  Txn.atomically do
    let rows ← selectCheckins (fun r => decide (r.status = .running) && leaseOver (clock 0) r)
    recoverRows clock 1 (rows.mergeSort (fun a b => decide (a.id ≤ b.id))) {}

def checkLeaseSeconds (leaseSeconds : Int) (text : String) : CompanionTxn Unit :=
  Txn.require (decide (3 ≤ leaseSeconds ∧ leaseSeconds ≤ 3600)) (.valueError text)

/-- A queued row whose attempts are used up gets no extra send. -/
def CheckinRow.exhausted (row : CheckinRow) (clock : Instant) : CheckinRow :=
  { row with
    status := .failed
    lastError := some "check-in attempt budget exhausted"
    updatedAt := clock }

@[simp] theorem CheckinRow.exhausted_id (row : CheckinRow) (clock : Instant) :
    (row.exhausted clock).id = row.id := rfl

/-- The next generation of a row, leased from `instant` on. -/
def CheckinRow.leased (row : CheckinRow) (token : String) (instant : Instant) (leaseSeconds : Int) :
    CheckinRow :=
  { row with
    status := .running
    attempts := row.attempts + 1
    claimGeneration := row.claimGeneration + 1
    claimToken := some token
    claimedAt := some instant
    leaseUntil := some (instant + seconds leaseSeconds)
    deliveryState := .notStarted
    updatedAt := instant }

@[simp] theorem CheckinRow.leased_id (row : CheckinRow) (token : String) (instant : Instant)
    (leaseSeconds : Int) : (row.leased token instant leaseSeconds).id = row.id := rfl

/-- Reading 0 only validates an explicit clock. `token` is the drawn uuid. -/
def claimCheckinFenced (clock : Clock) (leaseSeconds : Int) (token : String) :
    CompanionTxn (Option CheckinRow) := do
  checkLeaseSeconds leaseSeconds "lease seconds must be an integer between3 and3600"
  Txn.atomically do
    updateCheckins (fun r => decide (r.status = .queued ∧ r.maxAttempts ≤ r.attempts))
      (fun r => r.exhausted (clock 1)) (fun r => r.exhausted_id _)
    let row ← Txn.read (fun s => s.checkins.first (fun r => decide (r.status = .queued ∧
      r.dueAt ≤ clock 1 ∧ r.attempts < r.maxAttempts)) dueBefore)
    match row with
    | none => return none
    | some row =>
      if clock 2 < row.dueAt then return none
      else
        updateCheckins (fun r => decide (r.id = row.id ∧ r.status = .queued))
          (fun r => r.leased token (clock 2) leaseSeconds) (fun r => r.leased_id _ _ _)
        findCheckin row.id

def renewCheckinClaim (claim : Claim) (clock : Clock) (leaseSeconds : Int) : CompanionTxn Bool := do
  checkLeaseSeconds leaseSeconds "invalid lease seconds"
  Txn.atomically do
    let row ← ownedClaim claim (clock 0)
    let instant ← validateClaimTime row (clock 1)
    updateCheckins (fun r => decide (r.id = row.id))
      (fun r => { r with
        leaseUntil := some (instant + seconds leaseSeconds)
        updatedAt := instant }) (fun _ => rfl)
    return true

section Permission

-- Local time of day, in microseconds, of an instant in a named zone.
variable (wallClock : String → Instant → Nat)

def hhmm (value : HourMinute) : Nat := (value.hour.val * 60 + value.minute.val) * 60000000

def inQuietHours (moment : Nat) (quiet : QuietHours) : Bool :=
  let start := hhmm quiet.start
  let stop := hhmm quiet.stop
  if start = stop then true
  else if start < stop then decide (start ≤ moment ∧ moment < stop)
  else decide (start ≤ moment ∨ moment < stop)

/-- `prefs.quiet_hours and in_quiet_hours(instant.astimezone(tz), prefs.quiet_hours)`. -/
def silenced (profile : UserProfile) (instant : Instant) : Bool :=
  profile.checkins.quietHours.any (fun quiet => inQuietHours (wallClock profile.timezone instant) quiet)

def permissionCurrent (profile : Option UserProfile) (row : CheckinRow) (instant : Instant) : Bool :=
  profile.any (fun p => p.checkins.enabled && decide (p.checkins.channel = row.channel) &&
    decide (p.checkins.address = row.address) && !silenced wallClock p instant)

def destinationGrantsLocked (owner channel : String) (destination : Option String)
    (s : CompanionStore) : List DestinationGrant :=
  if channel ≠ "webhook" then []
  else s.destinationGrants.select (fun g => decide (g.ownerId = owner ∧ some g.destination = destination))

def destinationGrantsValid (channel : String) (rows : List DestinationGrant) (clock : Instant) : Bool :=
  if channel = "local" then true
  else if channel ≠ "webhook" then false
  else rows.any (fun g => g.revokedAt.isNone && decide (g.issuedAt ≤ clock ∧ clock < g.expiresAt))

def startCheckinDelivery (claim : Claim) (clock : Clock) : CompanionTxn Bool :=
  Txn.atomically do
    let row ← ownedClaim claim (clock 0)
    Txn.require (decide (row.deliveryState = .notStarted))
      (.lostCheckinClaim "check-in send intent already used")
    let profile ← Txn.read (fun s => s.users.find row.userId)
    let grants ← Txn.read (destinationGrantsLocked row.userId row.channel row.address)
    let instant ← validateClaimTime row (clock 1)
    if permissionCurrent wallClock profile row instant &&
        destinationGrantsValid row.channel grants instant then
      updateCheckins (fun r => decide (r.id = row.id))
        (fun r => { r with deliveryState := .started, updatedAt := instant }) (fun _ => rfl)
      return true
    else
      updateCheckins (fun r => decide (r.id = row.id))
        (fun r => { r with status := .cancelled, updatedAt := instant }) (fun _ => rfl)
      return false

end Permission

section Text

variable (scrubText : String → String)

def finishCheckinClaim (claim : Claim) (message : String) (clock : Clock) : CompanionTxn Unit :=
  Txn.atomically do
    let row ← ownedClaim claim (clock 0)
    let instant ← validateClaimTime row (clock 1)
    Txn.require (decide (row.deliveryState = .started))
      (.lostCheckinClaim "check-in has no send intent")
    updateCheckins (fun r => decide (r.id = row.id))
      (fun r => { r with
        status := .done
        deliveryState := .accepted
        message := some (scrubText message)
        lastError := none
        updatedAt := instant }) (fun _ => rfl)

def failCheckinClaim (claim : Claim) (error : String) (clock : Clock) (provenNotDelivered : Bool) :
    CompanionTxn CheckinStatus :=
  Txn.atomically do
    let row ← ownedClaim claim (clock 0)
    let instant ← validateClaimTime row (clock 1)
    let safe := decide (row.deliveryState = .notStarted) || provenNotDelivered
    let status := if safe ∧ row.attempts < row.maxAttempts then CheckinStatus.queued else .failed
    updateCheckins (fun r => decide (r.id = row.id))
      (fun r => { r with
        status := status
        deliveryState := if safe then .notStarted else .unknown
        lastError := some (clip 500 (scrubText error))
        updatedAt := instant }) (fun _ => rfl)
    return status

def unknownCheckinClaim (claim : Claim) (error : String) (clock : Clock) : CompanionTxn Bool :=
  Txn.atomically do
    let row ← ownedClaim claim (clock 0)
    let instant ← validateClaimTime row (clock 1)
    updateCheckins (fun r => decide (r.id = row.id))
      (fun r => { r with
        status := .failed
        deliveryState := .unknown
        lastError := some (clip 500 (scrubText error))
        updatedAt := instant }) (fun _ => rfl)
    return true

end Text

def cancelCheckinClaim (claim : Claim) (clock : Clock) : CompanionTxn Bool :=
  Txn.atomically do
    let row ← ownedClaim claim (clock 0)
    let instant ← validateClaimTime row (clock 1)
    updateCheckins (fun r => decide (r.id = row.id))
      (fun r => { r with status := .cancelled, updatedAt := instant }) (fun _ => rfl)
    return true

/-- The user's check-in that is still to be delivered, the next due first. -/
def pendingCheckin (userId : String) (s : CompanionStore) : Option CheckinRow :=
  s.checkins.first (fun r => decide (r.userId = userId ∧ (r.status = .queued ∨ r.status = .running)))
    dueBefore

/-- `SELECT * ... WHERE user_id=? AND slot=?`. -/
def slotCheckin (userId slot : String) (s : CompanionStore) : Option CheckinRow :=
  (s.checkins.select (fun r => decide (r.userId = userId ∧ r.slot = slot))).head?

/-- `ident` is the drawn uuid. The conflict target is `UNIQUE(user_id, slot)`; a
repeated `ident` is an integrity error. -/
def scheduleCheckin (userId : String) (dueAt : Instant) (slot channel : String)
    (address : Option String) (maxAttempts : Int) (reusePending : Bool) (ident : String)
    (now : Instant) : CompanionTxn (CheckinRow × Bool) := do
  Txn.require (decide (1 ≤ maxAttempts)) (.valueError "max_attempts must be a positive integer")
  Txn.atomically do
    let pending ← Txn.read (fun s => if reusePending then pendingCheckin userId s else none)
    match pending with
    | some row => return ({ row with claimToken := none }, false)
    | none =>
      let held ← Txn.read (slotCheckin userId slot)
      match held with
      | some row => return ({ row with claimToken := none }, false)
      | none =>
        let row : CheckinRow :=
          { id := ident, userId := userId, slot := slot, dueAt := dueAt, status := .queued,
            attempts := 0, maxAttempts := maxAttempts, channel := channel, address := address,
            message := none, lastError := none, createdAt := now, updatedAt := now,
            claimToken := none, claimGeneration := 0, claimedAt := none, leaseUntil := none,
            deliveryState := .unknown }
        let fresh ← Txn.read (fun s => (s.checkins.insertOrIgnore row).2)
        Txn.require fresh (.integrityError "UNIQUE constraint failed: companion_checkins.id")
        Txn.write (fun s => { s with checkins := (s.checkins.insertOrIgnore row).1 })
        return (row, true)

/-- The row returned is the one read before the update. -/
def claimCheckin (moment now : Instant) : CompanionTxn (Option CheckinRow) :=
  Txn.atomically do
    let row ← Txn.read (fun s => s.checkins.first (fun r => decide (r.status = .queued ∧
      r.claimToken = none ∧ r.attempts < r.maxAttempts ∧ r.dueAt ≤ moment)) dueBefore)
    match row with
    | none => return none
    | some row =>
      updateCheckins (fun r => decide (r.id = row.id ∧ r.status = .queued))
        (fun r => { r with status := .running, attempts := r.attempts + 1, updatedAt := now })
        (fun _ => rfl)
      return some row

/-- `status='running' AND claim_token IS NULL`. -/
def CheckinRow.unleased (row : CheckinRow) : Bool :=
  decide (row.status = .running ∧ row.claimToken = none)

/-- `UPDATE ... WHERE id=? AND status='running' AND claim_token IS NULL`: the rowcount. -/
def updateUnleased (id : String) (f : CheckinRow → CheckinRow) (keeps : ∀ r, (f r).id = r.id) :
    CompanionTxn Bool := do
  let rows ← selectCheckins (fun r => decide (r.id = id) && r.unleased)
  updateCheckins (fun r => decide (r.id = id) && r.unleased) f keeps
  return !rows.isEmpty

def failCheckin (id error : String) (now : Instant) : CompanionTxn CheckinStatus :=
  Txn.atomically do
    let _ ← updateUnleased id (fun r => { r with
      status := if r.attempts < r.maxAttempts then .queued else .failed
      lastError := some (clip 500 error)
      updatedAt := now }) (fun _ => rfl)
    let row ← findCheckin id
    match row with
    | none => Txn.raise (.typeError "'NoneType' object is not subscriptable")
    | some row => return row.status

def markCheckinUnknown (id error : String) (now : Instant) : CompanionTxn Bool :=
  Txn.atomically (updateUnleased id (fun r => { r with
    status := .failed
    lastError := some (clip 500 error)
    updatedAt := now }) (fun _ => rfl))

def cancelClaimedCheckin (id : String) (now : Instant) : CompanionTxn Bool :=
  Txn.atomically (updateUnleased id (fun r => { r with status := .cancelled, updatedAt := now })
    (fun _ => rfl))

def cancelPendingCheckins (userId : String) (now : Instant) : CompanionTxn Nat :=
  Txn.atomically do
    let rows ← selectCheckins (fun r => decide (r.userId = userId ∧ r.status = .queued))
    updateCheckins (fun r => decide (r.userId = userId ∧ r.status = .queued))
      (fun r => { r with status := .cancelled, updatedAt := now }) (fun _ => rfl)
    return rows.length

section Local

variable (scrubText : String → String) (wallClock : String → Instant → Nat)

def finishCheckin (id message : String) (now : Instant) : CompanionTxn Unit :=
  Txn.atomically do
    let _ ← updateUnleased id (fun r => { r with
      status := .done
      message := some (scrubText message)
      lastError := none
      updatedAt := now }) (fun _ => rfl)

/-- The claim's own test, when a claim is passed: readings 1 and 2 are its guard. -/
def ownedLocalClaim (claim : Option Claim) (checkinId : String) (clock : Clock) :
    CompanionTxn (Option CheckinRow) :=
  match claim with
  | none => pure none
  | some claim => do
    let owned ← ownedClaim claim (clock 1)
    Txn.require (decide (owned.deliveryState = .notStarted))
      (.valueError "local claim already has send intent")
    Txn.require (match claim with
      | .dict id _ _ _ => decide (id = some (.str checkinId))
      | .notDict => false) (.valueError "check-in claim mismatch")
    return some owned

/-- `if claim is not None: self._validate_claim_time(owned)`. -/
def validateOwned (owned : Option CheckinRow) (instant : Instant) : CompanionTxn Unit :=
  match owned with
  | none => pure ()
  | some owned => do
    let _ ← validateClaimTime owned instant
    return ()

/-- Whether the check-in and the conversation may be joined. -/
def localEligible (row : Option CheckinRow) (conversation : Option Conversation)
    (conversationId : String) : Bool :=
  match row, conversation with
  | some row, some conversation =>
    decide (row.userId = conversation.userId ∧ row.channel = "local" ∧
      conversation.channel = "local") &&
      row.address.all (fun address => decide (address = conversationId))
  | _, _ => false

def localPermission (profile : Option UserProfile) (row : CheckinRow) (instant : Instant) : Bool :=
  profile.any (fun p => p.checkins.enabled && decide (p.checkins.channel = "local") &&
    decide (p.checkins.address = row.address) && !silenced wallClock p instant)

/-- Readings: 0 is `_now()`, 1 and 2 guard a claim, 3 dates the rows, 4 is the
quiet-hours test. -/
def finishLocalCheckin (checkinId conversationId message : String) (claim : Option Claim)
    (clock : Clock) : CompanionTxn Bool :=
  let clean := scrubText message
  Txn.atomically do
    let owned ← ownedLocalClaim claim checkinId clock
    let found ← findCheckin checkinId
    let row := found.filter (fun r => decide (r.status = .running) &&
      (claim.isSome || decide (r.claimToken = none)))
    let conversation ← Txn.read (fun s => s.conversations.find conversationId)
    Txn.require (localEligible row conversation conversationId)
      (.valueError "check-in or local conversation is no longer eligible")
    match row with
    | none => Txn.raise (.valueError "check-in or local conversation is no longer eligible")
    | some row =>
      let profile ← Txn.read (fun s => s.users.find row.userId)
      validateOwned owned (clock 2)
      if localPermission wallClock profile row (clock 4) then
        Txn.write (fun s => { s with
          messages := s.messages.append ⟨conversationId, "assistant", clean, clock 3⟩
          conversations := s.conversations.update (fun c => decide (c.id = conversationId))
            (fun c => { c with lastMessageAt := clock 3 }) (fun _ => rfl) })
        updateCheckins (fun r => decide (r.id = checkinId))
          (fun r => { r with
            status := .done
            deliveryState := .accepted
            message := some clean
            lastError := none
            updatedAt := clock 3 }) (fun _ => rfl)
        return true
      else
        updateCheckins (fun r => decide (r.id = checkinId))
          (fun r => { r with status := .cancelled, updatedAt := clock 3 }) (fun _ => rfl)
        return false

end Local

end Meemee.Source.Checkins
