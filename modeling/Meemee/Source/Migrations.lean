import Meemee.Library.Sessions
import Meemee.Source.PgJobs

/-!
# SQLite migrations

`src/meemee/migrations.py`: the migrator with its authorizer, its splitting of scripts into
statements, and the version ledger `schema_migrations`. SQLite itself is the parameter `Sqlite`.
-/
namespace Meemee.Source.Migrations
open Library

inductive Exc where
  | valueError (text : String)
  | runtimeError (text : String)
  | database (text : String)
  deriving DecidableEq, Repr

structure Migration where
  version : Int
  name : String
  sql : String
  deriving DecidableEq, Repr

def Migration.checksum (sha256 : String → String) (m : Migration) : String := sha256 m.sql

/-- `list(range(1, n + 1))`. -/
def versionsTo (n : Nat) : List Int := (List.range n).map (fun (i : Nat) => (i : Int) + 1)

/-- A migration list that `Migrator.__init__` accepts, sorted by version. -/
structure Migrator where
  migrations : List Migration
  contiguous : migrations.map (fun m => m.version) = versionsTo migrations.length

def Migrator.init (migrations : List Migration) : Except Exc Migrator :=
  let sorted := migrations.mergeSort (fun a b => decide (a.version ≤ b.version))
  if contiguous : sorted.map (fun m => m.version) = versionsTo sorted.length then
    .ok ⟨sorted, contiguous⟩
  else .error (.valueError "migration versions must be contiguous from 1")

/-- The authorizer's action codes: the five it forbids by name, the others by number. -/
inductive Action where
  | transaction
  | savepoint
  | attach
  | detach
  | pragma
  | other (code : Nat)
  deriving DecidableEq, Repr

/-- What SQLite asks the authorizer about one part of a statement. -/
structure Request where
  action : Action
  arg1 : Option String
  arg2 : Option String
  deriving DecidableEq, Repr

def forbidden : List Action := [.transaction, .savepoint, .attach, .detach, .pragma]

/-- `authorize`: only the first argument is compared with the ledger's name. -/
def authorize (r : Request) : Bool :=
  !(decide (r.action ∈ forbidden) || decide (r.arg1 = some "schema_migrations"))

/-- A row of `schema_migrations`. -/
structure LedgerRow where
  version : Int
  name : String
  checksum : String
  appliedAt : String
  deriving DecidableEq, Repr

/-- A database file: the rows of `schema_migrations`, if it has the table, and everything else:
the other tables with their rows, views and triggers. -/
structure File (σ : Type) where
  objects : σ
  ledger : Option (List LedgerRow)
  deriving DecidableEq

/-- What a connection sees: the file and its own temporary objects. -/
structure View (σ τ : Type) where
  file : File σ
  temp : τ

/-- The migrator's own writes of the ledger. -/
inductive LedgerCall where
  | create
  | insert (row : LedgerRow)

/-- SQLite as the migrator uses it. `bare` says of the file's other objects that none of them is a
trigger on `schema_migrations` or bears its name, and `shadows` says of the temporary objects that
one of them does. Where there is such an object, `stray` and `strayRows` stand for what the
migrator's own statements about the ledger do. -/
structure Sqlite (σ τ : Type) where
  engine : Engine Request (View σ τ) Exc
  /-- Only the five kinds of requests reach past the open transaction. -/
  confined : ∀ r, engine.reachesPast r = true → r.action ∈ forbidden
  /-- `sqlite3.complete_statement`. -/
  complete : List Char → Bool
  fresh : τ
  bare : σ → Bool
  shadows : τ → Bool
  fresh_bare : shadows fresh = false
  stray : LedgerCall → Nat → View σ τ → Ending (View σ τ) Exc
  strayRows : View σ τ → List (Int × String)
  now : Nat → String

section Migrate

variable {σ τ : Type}

def View.setLedger (v : View σ τ) (rows : List LedgerRow) : View σ τ :=
  { v with file := { v.file with ledger := some rows } }

namespace Sqlite

variable (db : Sqlite σ τ)

/-- `schema_migrations` is the ordinary table of that name, with no trigger on it. -/
def plain (v : View σ τ) : Bool := db.bare v.file.objects && !db.shadows v.temp

/-- `CREATE TABLE IF NOT EXISTS schema_migrations` and `INSERT INTO schema_migrations`. -/
def ledgerEnding (call : LedgerCall) (moment : Nat) (v : View σ τ) : Ending (View σ τ) Exc :=
  if db.plain v then
    match call, v.file.ledger with
    | .create, rows => .done (v.setLedger (rows.getD []))
    | .insert row, some rows =>
      if rows.any (fun old => decide (old.version = row.version)) then
        .failed (.database "UNIQUE constraint failed: schema_migrations.version") v
      else .done (v.setLedger (rows ++ [row]))
    | .insert _, none => .failed (.database "no such table: schema_migrations") v
  else db.stray call moment v

/-- `SELECT version,checksum FROM schema_migrations`. -/
def ledgerRows (v : View σ τ) : List (Int × String) :=
  if db.plain v then (v.file.ledger.getD []).map (fun row => (row.version, row.checksum))
  else db.strayRows v

end Sqlite

/-- `current.get(version)` of the dictionary made of the rows: the last one counts. -/
def recorded (rows : List (Int × String)) (version : Int) : Option String :=
  (rows.reverse.find? (fun row => decide (row.1 = version))).map (fun row => row.2)

abbrev Program (σ τ α : Type) : Type := Txn (Session (View σ τ)) Exc α

variable (db : Sqlite σ τ) (sha256 : String → String)

/-- `_execute_script`: the statement read so far and the characters to come. -/
def executeScript : List Char → List Char → Program σ τ Unit
  | statement, [] =>
    if statement.all PgJobs.isSpace then pure ()
    else Session.execute db.engine authorize statement
  | statement, char :: rest =>
    if decide (char = ';') && db.complete (statement ++ [char]) then do
      Session.execute db.engine authorize (statement ++ [char])
      executeScript [] rest
    else executeScript (statement ++ [char]) rest

/-- `INSERT INTO schema_migrations VALUES(?,?,?,?)` for an applied migration. -/
def record (m : Migration) : Program σ τ Unit :=
  Session.act db.engine (fun moment =>
    db.ledgerEnding (.insert ⟨m.version, m.name, m.checksum sha256, db.now moment⟩) moment)

/-- `target is not None and migration.version > target`. -/
def beyond (target : Option Int) (version : Int) : Bool :=
  target.any (fun t => decide (version > t))

/-- The loop of `migrate`, with the versions it applies. -/
def applyAll (target : Option Int) (current : List (Int × String)) :
    List Migration → Program σ τ (List Int)
  | [] => pure []
  | m :: rest =>
    match recorded current m.version with
    | some sum =>
      if sum = m.checksum sha256 then applyAll target current rest
      else Txn.raise
        (.runtimeError ("migration " ++ toString m.version ++ " checksum changed after application"))
    | none =>
      if beyond target m.version then applyAll target current rest
      else do
        executeScript db [] m.sql.toList
        record db sha256 m
        let applied ← applyAll target current rest
        pure (m.version :: applied)

/-- The body of `migrate`'s transaction. -/
def upgrade (m : Migrator) (target : Option Int) : Program σ τ (List Int) := do
  let current ← Session.look db.engine db.ledgerRows
  applyAll db sha256 target current m.migrations

/-- The `try` block of `migrate`. -/
def attemptUpgrade (m : Migrator) (target : Option Int) : Program σ τ (List Int) := do
  Session.attempt db.engine (fun s => (.ok (), s)) -- PRAGMA journal_mode=WAL
  Session.act db.engine (db.ledgerEnding .create)
  Session.transaction db.engine (upgrade db sha256 m target)

def migrate (m : Migrator) (target : Option Int) : Program σ τ (List Int) := do
  Session.attempt db.engine (fun s => (.ok (), s)) -- sqlite3.connect
  Txn.onRaise (attemptUpgrade db sha256 m target) (Session.rollbackQuietly db.engine)

/-- One call of `migrate` on a database file: what it returns or raises, and the file after the
connection is closed. An open transaction and the temporary objects go with the connection. -/
def run (m : Migrator) (target : Option Int) (moment : Nat) (file : File σ) :
    Except Exc (List Int) × File σ :=
  let (result, s) := migrate db sha256 m target ⟨⟨file, db.fresh⟩, none, moment⟩
  (result, s.stored.file)

end Migrate

end Meemee.Source.Migrations
