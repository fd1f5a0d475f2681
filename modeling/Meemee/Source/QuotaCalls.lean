import Meemee.Library.ReadCommitted
import Meemee.Source.Quotas

/-!
# Calls of the quota stores

`consume_job` and `set_limit` of `meemee/quotas.py`, where each call is one transaction under the
write lock, and of `meemee_persist_pg/quotas.py`, where the statements of the hosts interleave.
`consume_job` of PostgreSQL counts first, which locks its row, and then reads the limit.
-/
namespace Meemee.Source.QuotaCalls
open Library Source.Quotas

/-- The arguments of a call: a clock without a timezone is none, and so is a limit that is no int. -/
inductive Call where
  | consumeJob (principal : String) (now : Option Instant)
  | setLimit (principal : String) (dailyJobs : Option Int)
  deriving DecidableEq, Repr

inductive Fault where
  | valueError (text : String)
  | quota (e : QuotaExc)
  deriving DecidableEq, Repr

/-- `quota_day`. -/
def checkedDay : Option Instant → Except Fault Int
  | none => .error (.valueError "quota clock must include a timezone")
  | some now => .ok (quotaDay now)

/-- `validate_quota_limit`. -/
def checkedLimit (value : Option Int) : Except Fault Int :=
  match value.filter (fun n => decide (1 ≤ n)) with
  | none => .error (.valueError "daily quota must be a positive integer")
  | some n => .ok n

def exceeded (maximum : Int) : QuotaExc :=
  .quotaExceeded ("daily job quota exceeded (" ++ toString maximum ++ ")")

namespace SQLite

inductive Reply where
  | consumed (q : Quota)
  | limitSet
  deriving DecidableEq, Repr

/-- SQLite's integers have 64 bits. -/
def fitsInteger (n : Int) : Bool := decide (n < 9223372036854775808)

/-- `set_limit`, after the limit was checked. -/
def setLimit (principal : String) (dailyJobs : Int) : QuotaTxn Unit := do
  Txn.require (fitsInteger dailyJobs)
    (.database (.overflowError "Python int too large to convert to SQLite INTEGER"))
  Txn.write (fun s => { s with limits := s.limits.replace ⟨principal, dailyJobs⟩ })

/-- One call. -/
def call (default : Int) (c : Call) (s : QuotaStore) : Except Fault Reply × QuotaStore :=
  match c with
  | .consumeJob principal now =>
    match now with
    | none => (.error (.valueError "quota clock must include a timezone"), s)
    | some now =>
      let (result, t) := Quotas.SQLite.consumeJob default principal now s
      ((result.map Reply.consumed).mapError Fault.quota, t)
  | .setLimit principal dailyJobs =>
    match checkedLimit dailyJobs with
    | .error e => (.error e, s)
    | .ok n =>
      let (result, t) := setLimit principal n s
      ((result.map (fun _ => Reply.limitSet)).mapError Fault.quota, t)

end SQLite

namespace Postgres

/-- Where the call of a session stands. -/
inductive Session where
  | idle
  /-- Next is the upsert of `consume_job`. -/
  | counting (principal : String) (day : Int)
  /-- Next is `_limit`. -/
  | counted (usage : Usage)
  /-- Next is COMMIT. -/
  | granting (usage : Usage) (maximum : Int)
  /-- Next is ROLLBACK. -/
  | refusing (usage : Usage) (maximum : Int)
  /-- Next is the upsert of `set_limit`. -/
  | setting (limit : Limit)
  /-- Next is its COMMIT. -/
  | set (limit : Limit)
  deriving DecidableEq, Repr

/-- What a step answers. -/
inductive Answer where
  | running
  /-- Another transaction holds the row. -/
  | waiting
  | aborted
  | raised (e : Fault)
  /-- `consume_job` of the principal returned. -/
  | consumed (principal : String) (q : Quota)
  | limitSet
  deriving DecidableEq, Repr

structure Deployment where
  usage : RowVersions Usage.id
  limits : RowVersions Limit.principal
  sessions : Nat → Session

namespace Deployment

def start : Deployment := ⟨.start Table.empty, .start Table.empty, fun _ => .idle⟩

def resume (d : Deployment) (i : Nat) (session : Session) : Deployment :=
  { d with sessions := Function.update d.sessions i session }

def rollback (d : Deployment) (i : Nat) : Deployment :=
  { d.resume i .idle with usage := d.usage.rollback i, limits := d.limits.rollback i }

def commit (d : Deployment) (i : Nat) : Deployment :=
  { d.resume i .idle with usage := d.usage.commit i, limits := d.limits.commit i }

end Deployment

/-- The count in some rows. -/
def jobsIn (rows : Table Usage.id) (principal : String) (day : Int) : Int :=
  match rows.find (principal, day) with
  | none => 0
  | some row => row.jobs

/-- The limit in some rows. -/
def limitIn (default : Int) (rows : Table Limit.principal) (principal : String) : Int :=
  match rows.find principal with
  | none => default
  | some row => row.dailyJobs

/-- `principal text CHECK (principal <> '')`. -/
def fitsPrincipal (principal : String) : Bool :=
  PgJobs.storesText principal && decide (principal ≠ "")

def outOfRange : Fault := .quota (.database PgJobs.outOfRange)

section Statements

variable (default : Int)

/-- The upsert of `consume_job`, which returns the new count. -/
def countRow (d : Deployment) (i : Nat) (principal : String) (day : Int) : Answer × Deployment :=
  if !fitsPrincipal principal then (.raised outOfRange, d.rollback i)
  else if !d.usage.free i (principal, day) then (.waiting, d)
  else
    let usage : Usage := ⟨principal, day, jobsIn (d.usage.visible i) principal day + 1⟩
    if PgJobs.maxInteger < usage.jobs then (.raised outOfRange, d.rollback i)
    else (.running, { d with usage := d.usage.put i usage }.resume i (.counted usage))

/-- The upsert of `set_limit`. -/
def limitRow (d : Deployment) (i : Nat) (limit : Limit) : Answer × Deployment :=
  if !fitsPrincipal limit.principal || decide (PgJobs.maxInteger < limit.dailyJobs) then
    (.raised outOfRange, d.rollback i)
  else if !d.limits.free i limit.principal then (.waiting, d)
  else (.running, { d with limits := d.limits.put i limit }.resume i (.set limit))

/-- What `consume_job` returns. -/
def quotaOf (usage : Usage) (maximum : Int) : Quota :=
  ⟨usage.day, usage.jobs, maximum, maximum - usage.jobs⟩

/-- The next statement of a session. -/
def advance (d : Deployment) (i : Nat) : Answer × Deployment :=
  match d.sessions i with
  | .idle => (.running, d)
  | .counting principal day => countRow d i principal day
  | .counted usage =>
    let maximum := limitIn default (d.limits.visible i) usage.principal
    (.running, d.resume i
      (if maximum < usage.jobs then .refusing usage maximum else .granting usage maximum))
  | .granting usage maximum => (.consumed usage.principal (quotaOf usage maximum), d.commit i)
  | .refusing _ maximum => (.raised (.quota (exceeded maximum)), d.rollback i)
  | .setting limit => limitRow d i limit
  | .set _ => (.limitSet, d.commit i)

/-- The session a call begins, after its arguments were checked. -/
def begun : Call → Except Fault Session
  | .consumeJob principal now => (checkedDay now).map (.counting principal)
  | .setLimit principal dailyJobs => (checkedLimit dailyJobs).map (fun n => .setting ⟨principal, n⟩)

inductive Action where
  | begin (i : Nat) (call : Call)
  | go (i : Nat)
  /-- The connection is lost. -/
  | abort (i : Nat)
  deriving DecidableEq, Repr

def step (d : Deployment) : Action → Answer × Deployment
  | .begin i call =>
    if d.sessions i = .idle then
      match begun call with
      | .ok session => (.running, d.resume i session)
      | .error e => (.raised e, d)
    else (.waiting, d)
  | .go i => advance default d i
  | .abort i => (.aborted, d.rollback i)

end Statements

end Postgres

end Meemee.Source.QuotaCalls
