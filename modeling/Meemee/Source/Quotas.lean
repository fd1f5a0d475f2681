import Meemee.Source.Datetime
import Meemee.Source.PgJobs

/-!
# QuotaStore, SQLite and PostgreSQL

`meemee/quotas.py` and `meemee_persist_pg/quotas.py`: how many jobs a principal created on
a UTC day, and how many it may. `consume_job` counts one more and takes the count back when
it passes the limit.
-/
namespace Meemee.Source.Quotas
open Library

/-- A row of `quota_usage`, `PRIMARY KEY(principal, day)`. -/
structure Usage where
  principal : String
  day : Int
  jobs : Int
  deriving DecidableEq, Repr

def Usage.id (u : Usage) : String × Int := (u.principal, u.day)

/-- A row of `quota_limits`. -/
structure Limit where
  principal : String
  dailyJobs : Int
  deriving DecidableEq, Repr

structure QuotaStore where
  usage : Table Usage.id
  limits : Table Limit.principal

def QuotaStore.empty : QuotaStore := ⟨Table.empty, Table.empty⟩

/-- `quota_day`: the UTC date of an instant, as days since the epoch. -/
def quotaDay (now : Instant) : Int := now / days 1

/-- The civil date of a day number, in the proleptic Gregorian calendar: years that begin in
March, in eras of 400. -/
def civil (day : Int) : Int × Int × Int :=
  let z := day + 719468
  let era := z / 146097
  let dayOfEra := z - era * 146097
  let yearOfEra := (dayOfEra - dayOfEra / 1460 + dayOfEra / 36524 - dayOfEra / 146096) / 365
  let dayOfYear := dayOfEra - (365 * yearOfEra + yearOfEra / 4 - yearOfEra / 100)
  let shifted := (5 * dayOfYear + 2) / 153
  let month := if shifted < 10 then shifted + 3 else shifted - 9
  let year := yearOfEra + era * 400
  (if month ≤ 2 then year + 1 else year, month, dayOfYear - (153 * shifted + 2) / 5 + 1)

/-- `date.isoformat()`. -/
def dateText (day : Int) : String :=
  let (year, month, dayOfMonth) := civil day
  String.ofList (pad 4 year.toNat ++ '-' :: pad 2 month.toNat ++ '-' :: pad 2 dayOfMonth.toNat)

example : dateText (quotaDay 1709164800000000) = "2024-02-29" := by decide

/-- What `consume_job` answers. -/
structure Quota where
  day : Int
  used : Int
  limit : Int
  remaining : Int
  deriving DecidableEq, Repr

def Quota.json (q : Quota) : Json :=
  .obj [("day", .str (dateText q.day)), ("used", .int q.used), ("limit", .int q.limit),
    ("remaining", .int q.remaining)]

inductive QuotaExc where
  | quotaExceeded (text : String)
  /-- Of the database. -/
  | database (e : Exc)
  deriving DecidableEq, Repr

abbrev QuotaTxn := Txn QuotaStore QuotaExc

/-- `limit`: the principal's own, else the default. -/
def QuotaStore.limit (s : QuotaStore) (default : Int) (principal : String) : Int :=
  match s.limits.find principal with
  | none => default
  | some row => row.dailyJobs

/-- The stored count of a day; a day without a row has none. -/
def QuotaStore.used (s : QuotaStore) (principal : String) (day : Int) : Int :=
  match s.usage.find (principal, day) with
  | none => 0
  | some row => row.jobs

def Usage.counted (u : Usage) : Usage := { u with jobs := u.jobs + 1 }

@[simp] theorem Usage.counted_id (u : Usage) : u.counted.id = u.id := rfl

/-- `INSERT ... VALUES(?,?,1) ON CONFLICT DO UPDATE SET jobs=jobs+1`. -/
def upsert (usage : Table Usage.id) (principal : String) (day : Int) : Table Usage.id :=
  match usage.find (principal, day) with
  | none => (usage.insertOrIgnore ⟨principal, day, 1⟩).1
  | some _ => usage.update (fun u => decide (u.id = (principal, day))) Usage.counted Usage.counted_id

def QuotaStore.counted (s : QuotaStore) (principal : String) (day : Int) : QuotaStore :=
  { s with usage := upsert s.usage principal day }

/-- The transaction of `consume_job`. The stores read the limit before and after the upsert,
which does not change it. -/
def countJob (default : Int) (principal : String) (day : Int) : QuotaTxn Quota := do
  let maximum ← Txn.read (fun s => s.limit default principal)
  Txn.write (fun s => s.counted principal day)
  let used ← Txn.read (fun s => s.used principal day)
  Txn.require (decide (used ≤ maximum))
    (.quotaExceeded ("daily job quota exceeded (" ++ toString maximum ++ ")"))
  return ⟨day, used, maximum, maximum - used⟩

namespace SQLite

def consumeJob (default : Int) (principal : String) (now : Instant) : QuotaTxn Quota :=
  Txn.atomically (countJob default principal (quotaDay now))

end SQLite

namespace Postgres

/-- The values of the upsert fit their columns: `principal text CHECK (principal <> '')` and
`jobs integer`. -/
def fits (s : QuotaStore) (principal : String) (day : Int) : Bool :=
  PgJobs.storesText principal && decide (principal ≠ "") &&
    decide (s.used principal day < PgJobs.maxInteger)

def consumeJob (default : Int) (principal : String) (now : Instant) : QuotaTxn Quota :=
  Txn.atomically do
    let fit ← Txn.read (fun s => fits s principal (quotaDay now))
    Txn.require fit (.database PgJobs.outOfRange)
    countJob default principal (quotaDay now)

end Postgres

end Meemee.Source.Quotas
