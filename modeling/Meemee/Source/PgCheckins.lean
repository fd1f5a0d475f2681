import Meemee.Source.Checkins

/-!
# Local completion on PostgreSQL

`finish_local_checkin` of `meemee_persist_pg/companion.py`, statement by statement. A `FOR UPDATE`
waits until no other call holds the row it has found, and then holds it to the end of its
transaction; a `FOR SHARE` keeps the profile from changing. What the transaction writes is seen at
its commit. The text of a database error is not modelled.
-/
namespace Meemee.Source.PgCheckins
open Library Source Source.Checkins

structure LocalCall where
  checkinId : String
  conversationId : String
  message : String
  claim : Option Claim
  deriving DecidableEq

/-- Comparing a bound value with a text column: other types have no such operator. -/
def bindText : PyValue → Except Exc (Option String)
  | .str value => .ok (some value)
  | .null => .ok none
  | _ => .error (.programmingError "operator does not exist")

def boundClaim : Claim → Except Exc (Option String × Option String × String × Int)
  | .dict (some id) (some userId) (some (.str token)) (some (.int generation)) =>
    if token = "" ∨ generation < 1 then .error claimLost
    else do
      let id ← bindText id
      let userId ← bindText userId
      return (id, userId, token, generation)
  | _ => .error claimLost

/-- Where a call is, with the rows it holds. -/
inductive LocalPhase where
  | idle
  | begun (call : LocalCall)
  | owned (call : LocalCall) (claimed : Option CheckinRow)
  | held (call : LocalCall) (claimed : Option CheckinRow) (row : Option CheckinRow)
  | joined (call : LocalCall) (claimed : Option CheckinRow) (row : CheckinRow)
  | permitted (call : LocalCall) (claimed : Option CheckinRow) (row : CheckinRow)
      (profile : Option UserProfile)
  | written (call : LocalCall) (row : CheckinRow) (told : Bool) (now : Instant)
  deriving DecidableEq

/-- The committed tables, the open calls, and the row locks they hold. -/
structure Desk where
  store : CompanionStore
  calls : Nat → LocalPhase
  checkinLocks : String → Option Nat
  conversationLocks : String → Option Nat
  profileShares : String → List Nat

def Desk.start (store : CompanionStore) : Desk :=
  ⟨store, fun _ => .idle, fun _ => none, fun _ => none, fun _ => []⟩

def Desk.put (d : Desk) (n : Nat) (phase : LocalPhase) : Desk :=
  { d with calls := fun m => if m = n then phase else d.calls m }

/-- No other call holds the row. -/
def free (locks : String → Option Nat) (id : String) (n : Nat) : Bool :=
  (locks id).all (fun m => decide (m = n))

def lock (locks : String → Option Nat) (id : String) (n : Nat) : String → Option Nat :=
  fun other => if other = id then some n else locks other

def unlock (locks : String → Option Nat) (n : Nat) : String → Option Nat :=
  fun id => if locks id = some n then none else locks id

/-- The end of a transaction. -/
def Desk.ended (d : Desk) (n : Nat) : Desk :=
  { d.put n .idle with
    checkinLocks := unlock d.checkinLocks n
    conversationLocks := unlock d.conversationLocks n
    profileShares := fun userId => (d.profileShares userId).filter (fun m => decide (m ≠ n)) }

/-- What a call returns or raises, in the step in which it does. -/
abbrev Told := Option (LocalCall × Except Exc Bool)

def Desk.raised (d : Desk) (n : Nat) (call : LocalCall) (e : Exc) : Told × Desk :=
  (some (call, .error e), d.ended n)

/-- What is checked of a claimed row once it is held. -/
def checkOwned (call : LocalCall) (claim : Claim) (row : CheckinRow) (instant : Instant) :
    CompanionTxn Unit := do
  let _ ← validateClaimTime row instant
  Txn.require (decide (row.deliveryState = .notStarted))
    (.valueError "local claim already has send intent")
  Txn.require (match claim with
    | .dict id _ _ _ => decide (id = some (.str call.checkinId))
    | .notDict => false) (.valueError "check-in claim mismatch")

/-- `_owned_claim` and the tests after it. -/
def Desk.own (d : Desk) (n : Nat) (call : LocalCall) (claim : Claim) (instant : Instant) :
    Told × Desk :=
  match boundClaim claim with
  | .error e => d.raised n call e
  | .ok (id, userId, token, generation) =>
    match (d.store.checkins.select (fun r => decide (some r.id = id ∧ some r.userId = userId ∧
        r.claimToken = some token ∧ r.claimGeneration = generation ∧ r.status = .running))).head? with
    | none => d.raised n call claimLost
    | some row =>
      if free d.checkinLocks row.id n then
        match (checkOwned call claim row instant d.store).1 with
        | .error e => d.raised n call e
        | .ok () =>
          (none, { d.put n (.owned call (some row)) with
            checkinLocks := lock d.checkinLocks row.id n })
      else (none, d)

/-- `SELECT user_id,address,channel FROM meemee_companion_checkins ... FOR UPDATE`. -/
def Desk.hold (d : Desk) (n : Nat) (call : LocalCall) (claimed : Option CheckinRow) : Told × Desk :=
  match (d.store.checkins.find call.checkinId).filter (fun r => decide (r.status = .running) &&
      (call.claim.isSome || decide (r.claimToken = none))) with
  | none => (none, d.put n (.held call claimed none))
  | some row =>
    if free d.checkinLocks row.id n then
      (none, { d.put n (.held call claimed (some row)) with
        checkinLocks := lock d.checkinLocks row.id n })
    else (none, d)

def notEligible : Exc := .valueError "check-in or local conversation is no longer eligible"

/-- The conversation is read and held, and the two rows are compared. -/
def Desk.join (d : Desk) (n : Nat) (call : LocalCall) (claimed row : Option CheckinRow) :
    Told × Desk :=
  match d.store.conversations.find call.conversationId with
  | none => d.raised n call notEligible
  | some conversation =>
    if free d.conversationLocks conversation.id n then
      match row with
      | none => d.raised n call notEligible
      | some row =>
        if localEligible (some row) (some conversation) call.conversationId then
          (none, { d.put n (.joined call claimed row) with
            conversationLocks := lock d.conversationLocks conversation.id n })
        else d.raised n call notEligible
    else (none, d)

section Statements

variable (scrubText : String → String) (wallClock : String → Instant → Nat)

/-- The three statements of an accepted completion. -/
def accept (call : LocalCall) (now : Instant) (s : CompanionStore) : CompanionStore :=
  { s with
    messages := s.messages.append ⟨call.conversationId, "assistant", scrubText call.message, now⟩
    conversations := s.conversations.update (fun c => decide (c.id = call.conversationId))
      (fun c => { c with lastMessageAt := now }) (fun _ => rfl)
    checkins := s.checkins.update (fun r => decide (r.id = call.checkinId))
      (fun r => { r with
        status := .done
        deliveryState := .accepted
        message := some (scrubText call.message)
        lastError := none
        updatedAt := now }) (fun _ => rfl) }

theorem cancelled_id (now : Instant) (r : CheckinRow) :
    ({ r with status := .cancelled, updatedAt := now } : CheckinRow).id = r.id := rfl

def cancel (call : LocalCall) (now : Instant) (s : CompanionStore) : CompanionStore :=
  { s with
    checkins := s.checkins.update (fun r => decide (r.id = call.checkinId))
      (fun r => { r with status := .cancelled, updatedAt := now }) (cancelled_id now) }

/-- The next statement of a call: reading 0 guards a claim, reading 1 dates the rows. -/
def Desk.advance (d : Desk) (n : Nat) (clock : Clock) : Told × Desk :=
  match d.calls n with
  | .idle => (none, d)
  | .begun call =>
    match call.claim with
    | none => (none, d.put n (.owned call none))
    | some claim => d.own n call claim (clock 0)
  | .owned call claimed => d.hold n call claimed
  | .held call claimed row => d.join n call claimed row
  | .joined call claimed row =>
    (none, { d.put n (.permitted call claimed row (d.store.users.find row.userId)) with
      profileShares := fun userId =>
        if userId = row.userId then n :: d.profileShares userId else d.profileShares userId })
  | .permitted call claimed row profile =>
    match (validateOwned claimed (clock 0) d.store).1 with
    | .error e => d.raised n call e
    | .ok () => (none, d.put n (.written call row (localPermission wallClock profile row (clock 1))
        (clock 1)))
  | .written call _ told now =>
    (some (call, .ok told), { d.ended n with
      store := if told then accept scrubText call now d.store else cancel call now d.store })

end Statements

/-- A row that an open call holds is the same before and after. -/
def Desk.undisturbed (d : Desk) (t : CompanionStore) : Bool :=
  d.store.checkins.rows.all (fun r =>
    (d.checkinLocks r.id).isNone || decide (t.checkins.find r.id = some r)) &&
  d.store.conversations.rows.all (fun c =>
    (d.conversationLocks c.id).isNone || decide (t.conversations.find c.id = some c)) &&
  d.store.users.rows.all (fun p =>
    (d.profileShares p.userId).isEmpty || decide (t.users.find p.userId = some p))

end Meemee.Source.PgCheckins
