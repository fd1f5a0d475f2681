import Meemee.Library.ReadCommitted
import Meemee.Source.PgJobs

/-!
# EmailVerificationStore

`meemee/email_verification.py` and `meemee_persist_pg/email_verification.py`: one row for each account
and purpose, with the digest of the last link. The calls of the SQLite store are atomic; those of
PostgreSQL run one statement at a time beside each other. SHA-256 is a parameter.
-/
namespace Meemee.Source.EmailVerification
open Library

/-- The table: `email_verifications` or `password_resets`. -/
inductive Purpose where
  | verify | reset
  deriving DecidableEq, Repr

/-- A row of one of the two tables; `usedAt` is its `verified_at` or `used_at`. -/
structure Challenge where
  purpose : Purpose
  accountId : String
  tokenDigest : String
  expiresAt : Instant
  usedAt : Option Instant
  sentAt : Instant
  deriving DecidableEq, Repr

abbrev Place := Purpose × String

def Challenge.place (row : Challenge) : Place := (row.purpose, row.accountId)

abbrev Challenges := Table Challenge.place

/-- What an issue writes, whether or not there was a row. -/
def issuedRow (purpose : Purpose) (accountId digest : String) (expiresAt now : Instant) : Challenge :=
  ⟨purpose, accountId, digest, expiresAt, none, now⟩

def used (now : Instant) (row : Challenge) : Challenge := { row with usedAt := some now }

theorem used_place (now : Instant) (row : Challenge) : (used now row).place = row.place := rfl

/-- A call, with the token that `secrets.token_urlsafe` draws for it. -/
inductive Call where
  | issue (accountId : String) (ttlMinutes : Int) (raw : String)
  | verify (accountId raw : String)
  | issuePasswordReset (accountId : String) (ttlMinutes : Int) (raw : String)
  | consumePasswordReset (accountId raw : String)
  deriving DecidableEq, Repr

/-- The token a call draws. -/
def Call.drawn : Call → Option String
  | .issue _ _ raw | .issuePasswordReset _ _ raw => some raw
  | _ => none

def Call.raw : Call → String
  | .issue _ _ raw | .verify _ raw | .issuePasswordReset _ _ raw | .consumePasswordReset _ raw => raw

namespace SQLite

/-- `timedelta(minutes=n)`. -/
def timedeltaMinutes (n : Int) : Except Exc Int :=
  if n / 1440 < -2147483648 ∨ 2147483647 < n / 1440 then
    .error (.overflowError "Python int too large to convert to C int")
  else if n / 1440 < -999999999 ∨ 999999999 < n / 1440 then
    .error (.overflowError ("days=" ++ toString (n / 1440) ++ "; must have magnitude <= 999999999"))
  else .ok (minutes n)

/-- `now + timedelta(minutes=ttl_minutes)`. -/
def expiry (now : Instant) (ttlMinutes : Int) : Except Exc Instant := do
  let delta ← timedeltaMinutes ttlMinutes
  if Jobs.firstInstant ≤ now + delta ∧ now + delta ≤ Jobs.lastInstant then .ok (now + delta)
  else .error (.overflowError "date value out of range")

/-- What a call answers. -/
inductive Reply where
  | token (raw : String)
  | consumed (accepted : Bool)
  deriving DecidableEq, Repr

section Calls

variable (sha256 : String → String)

def issueChallenge (s : Challenges) (purpose : Purpose) (accountId : String) (ttlMinutes : Int)
    (raw : String) (now : Instant) : Except Exc Reply × Challenges :=
  match expiry now ttlMinutes with
  | .error e => (.error e, s)
  | .ok expiresAt =>
    (.ok (.token raw), s.replace (issuedRow purpose accountId (sha256 raw) expiresAt now))

def issue (s : Challenges) := issueChallenge sha256 s .verify

def issuePasswordReset (s : Challenges) := issueChallenge sha256 s .reset

/-- The row is there, unused, not expired, and of this token. -/
def takes (row : Challenge) (raw : String) (now : Instant) : Bool :=
  !(row.usedAt.isSome || decide (row.expiresAt ≤ now) || decide (row.tokenDigest ≠ sha256 raw))

def consumeChallenge (s : Challenges) (purpose : Purpose) (accountId raw : String) (now : Instant) :
    Except Exc Reply × Challenges :=
  match s.find (purpose, accountId) with
  | none => (.ok (.consumed false), s)
  | some row =>
    if takes sha256 row raw now then
      (.ok (.consumed true), s.update (fun r => decide (r.place = (purpose, accountId))) (used now)
        (used_place now))
    else (.ok (.consumed false), s)

def verify (s : Challenges) := consumeChallenge sha256 s .verify

def consumePasswordReset (s : Challenges) := consumeChallenge sha256 s .reset

/-- A call and its reading of the clock. -/
def step (s : Challenges) : Call × Instant → Except Exc Reply × Challenges
  | (.issue accountId ttlMinutes raw, now) => issue sha256 s accountId ttlMinutes raw now
  | (.verify accountId raw, now) => verify sha256 s accountId raw now
  | (.issuePasswordReset accountId ttlMinutes raw, now) =>
    issuePasswordReset sha256 s accountId ttlMinutes raw now
  | (.consumePasswordReset accountId raw, now) => consumePasswordReset sha256 s accountId raw now

end Calls

end SQLite

namespace Postgres

/-- Where the transaction of a session is. -/
inductive Session where
  | idle
  /-- Before the INSERT. -/
  | issuing (purpose : Purpose) (accountId : String) (ttlMinutes : Int) (raw : String)
  /-- Before the COMMIT, with what was written. -/
  | issued (raw : String) (row : Challenge)
  /-- Before the SELECT ... FOR UPDATE. -/
  | looking (purpose : Purpose) (accountId raw : String)
  /-- Before the UPDATE, with the row it locked and the reading of the clock it was live at. -/
  | taking (raw : String) (row : Challenge) (asked : Instant)
  /-- Before the COMMIT. -/
  | taken (raw : String) (row : Challenge) (asked : Instant)
  | refusing (raw : String)
  deriving DecidableEq, Repr

/-- What a step answers: nothing yet, that it waits, or what its call returned or raised. -/
inductive Answer where
  | running
  | waiting
  | raised (e : Exc)
  | aborted
  | token (raw : String)
  | consumed (accepted : Bool)
  deriving DecidableEq, Repr

/-- The accounts there are, and `clock_timestamp() + n * interval '1 minute'`. -/
structure Server where
  sha256 : String → String
  accounts : String → Bool
  later : Instant → Int → Option Instant

structure Deployment where
  rows : RowVersions Challenge.place
  sessions : Nat → Session

namespace Deployment

def start : Deployment := ⟨.start Table.empty, fun _ => .idle⟩

def resume (d : Deployment) (i : Nat) (session : Session) : Deployment :=
  { d with sessions := Function.update d.sessions i session }

def rollback (d : Deployment) (i : Nat) : Deployment :=
  { d.resume i .idle with rows := d.rows.rollback i }

def commit (d : Deployment) (i : Nat) : Deployment :=
  { d.resume i .idle with rows := d.rows.commit i }

end Deployment

def foreignKey : Purpose → Exc
  | .verify => .integrityError "insert or update on table \"meemee_email_verifications\" violates foreign key constraint \"meemee_email_verifications_account_id_fkey\""
  | .reset => .integrityError "insert or update on table \"meemee_password_resets\" violates foreign key constraint \"meemee_password_resets_account_id_fkey\""

def nul : Exc := .dataError "PostgreSQL text fields cannot contain NUL (0x00) bytes"

/-- The session a call begins. -/
def begun : Call → Session
  | .issue accountId ttlMinutes raw => .issuing .verify accountId ttlMinutes raw
  | .verify accountId raw => .looking .verify accountId raw
  | .issuePasswordReset accountId ttlMinutes raw => .issuing .reset accountId ttlMinutes raw
  | .consumePasswordReset accountId raw => .looking .reset accountId raw

section Statements

variable (server : Server)

/-- The INSERT of `_issue`. -/
def insertRow (d : Deployment) (i : Nat) (purpose : Purpose) (accountId : String) (ttlMinutes : Int)
    (raw : String) (now : Instant) : Answer × Deployment :=
  if !PgJobs.storesText accountId then (.raised nul, d.rollback i)
  else
    match server.later now ttlMinutes with
    | none => (.raised (.dataError "timestamp out of range"), d.rollback i)
    | some expiresAt =>
      let row := issuedRow purpose accountId (server.sha256 raw) expiresAt now
      if !d.rows.free i row.place then (.waiting, d)
      else if !server.accounts accountId then (.raised (foreignKey purpose), d.rollback i)
      else (.running, { d with rows := d.rows.put i row }.resume i (.issued raw row))

/-- The SELECT of `_consume`, and what it makes of the row. -/
def selectRow (d : Deployment) (i : Nat) (purpose : Purpose) (accountId raw : String) (now : Instant) :
    Answer × Deployment :=
  if !PgJobs.storesText accountId then (.raised nul, d.rollback i)
  else
    match (d.rows.visible i).find (purpose, accountId) with
    | none => (.running, d.resume i (.refusing raw))
    | some row =>
      if !d.rows.free i row.place then (.waiting, d)
      else
        let locked := { d with rows := d.rows.lock i row.place }
        if row.usedAt.isSome || !decide (now < row.expiresAt) then (.running, locked.resume i (.refusing raw))
        else if row.tokenDigest ≠ server.sha256 raw then (.running, locked.resume i (.refusing raw))
        else (.running, locked.resume i (.taking raw row now))

/-- The UPDATE of `_consume`. -/
def updateRow (d : Deployment) (i : Nat) (raw : String) (row : Challenge) (asked now : Instant) :
    Answer × Deployment :=
  match (d.rows.visible i).find row.place with
  | none => (.running, d.resume i (.taken raw row asked))
  | some current =>
    if !d.rows.free i current.place then (.waiting, d)
    else (.running, { d with rows := d.rows.put i (used now current) }.resume i (.taken raw row asked))

/-- The next statement of a session. -/
def advance (d : Deployment) (i : Nat) (now : Instant) : Answer × Deployment :=
  match d.sessions i with
  | .idle => (.running, d)
  | .issuing purpose accountId ttlMinutes raw => insertRow server d i purpose accountId ttlMinutes raw now
  | .issued raw _ => (.token raw, d.commit i)
  | .looking purpose accountId raw => selectRow server d i purpose accountId raw now
  | .taking raw row asked => updateRow d i raw row asked now
  | .taken _ _ _ => (.consumed true, d.commit i)
  | .refusing _ => (.consumed false, d.commit i)

inductive Action where
  | begin (i : Nat) (call : Call)
  | go (i : Nat) (now : Instant)
  /-- The connection is lost. -/
  | abort (i : Nat)
  deriving DecidableEq, Repr

/-- The call an action begins. -/
def Action.call : Action → Option Call
  | .begin _ call => some call
  | _ => none

def step (d : Deployment) : Action → Answer × Deployment
  | .begin i call => if d.sessions i = .idle then (.running, d.resume i (begun call)) else (.waiting, d)
  | .go i now => advance server d i now
  | .abort i => (.aborted, d.rollback i)

end Statements

end Postgres

end Meemee.Source.EmailVerification
