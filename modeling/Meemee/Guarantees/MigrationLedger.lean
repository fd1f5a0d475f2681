import Meemee.Source.Migrations
import Meemee.Library.History

/-!
# The version ledger of the SQLite migrations

A call of `migrate` is one transaction that its scripts cannot leave. What a script may still reach is
the ledger, by a request that does not name it first. Without such a script the ledger holds an initial
part of the list after every call, and each of these was applied exactly once.
-/
namespace Meemee.Guarantees.MigrationLedger
open Library Library.Session Source.Migrations Option List

variable {σ τ : Type} {db : Sqlite σ τ} {sha256 : String → String}

/-- The statements `_execute_script` runs, in order. -/
def pieces (complete : List Char → Bool) : List Char → List Char → List (List Char)
  | statement, [] => if statement.all Meemee.Source.PgJobs.isSpace then [] else [statement]
  | statement, char :: rest =>
    if decide (char = ';') && complete (statement ++ [char]) then
      (statement ++ [char]) :: pieces complete [] rest
    else pieces complete (statement ++ [char]) rest

variable (db) in
/-- The statements took effect in order, each once and with the authorizer's leave. -/
inductive Ran : List (List Char) → View σ τ → View σ τ → Prop where
  | nil (v : View σ τ) : Ran [] v v
  | cons {statement : List Char} {more : List (List Char)} {v w x : View σ τ} {moment : Nat}
      (allowed : (db.engine.requests statement v).all authorize = true)
      (effect : db.engine.effect moment statement v = .done w) (rest : Ran more w x) :
      Ran (statement :: more) v x

variable (db sha256) in
/-- The migrations were applied one after the other, each once, and each was recorded. -/
inductive Applied : List Migration → View σ τ → View σ τ → Prop where
  | nil (v : View σ τ) : Applied [] v v
  | cons {m : Migration} {more : List Migration} {v w x y : View σ τ} {moment : Nat}
      (ran : Ran db (pieces db.complete [] m.sql.toList) v w)
      (written : db.ledgerEnding
        (.insert ⟨m.version, m.name, m.checksum sha256, db.now moment⟩) moment w = .done x)
      (rest : Applied more x y) : Applied (m :: more) v y

/-- The migrations a call has to apply. -/
def pending (target : Option Int) (current : List (Int × String)) (m : Migration) : Bool :=
  (recorded current m.version).isNone && !beyond target m.version

/-- The file once `CREATE TABLE IF NOT EXISTS schema_migrations` has run. -/
def opened (file : File σ) : File σ := { file with ledger := some (file.ledger.getD []) }

variable {file : File σ}

/-- `min(target, last)`. -/
def limit (m : Migrator) : Option Int → Nat
  | none => m.migrations.length
  | some target => min target.toNat m.migrations.length

variable (db) in
/-- No statement that is let through changes the ledger, its triggers or its name. -/
def Guarded (sql : String) : Prop :=
  ∀ statement ∈ pieces db.complete [] sql.toList, ∀ moment v w, db.plain v = true →
    (db.engine.requests statement v).all authorize = true →
    db.engine.effect moment statement v = .done w →
    db.plain w = true ∧ w.file.ledger = v.file.ledger

variable {v w : View σ τ} {rows : List LedgerRow} {target : Option Int}

/-- What identifies a migration in the ledger. -/
def Migration.entry (sha256 : String → String) (m : Migration) : Int × String × String :=
  (m.version, m.name, m.checksum sha256)

def LedgerRow.entry (row : LedgerRow) : Int × String × String :=
  (row.version, row.name, row.checksum)

variable (sha256) in
/-- The ledger rows are those of the first `k` migrations of the list. -/
structure Recorded (m : Migrator) (k : Nat) (rows : List LedgerRow) : Prop where
  versions : rows.map (fun row => row.version) = versionsTo k
  entries : rows.map LedgerRow.entry = (m.migrations.take k).map (Migration.entry sha256)

variable (db sha256) in
/-- The file comes from `base` by the first `k` migrations, each once and in order. -/
inductive Built (m : Migrator) (base : File σ) : Nat → File σ → Prop where
  | start : Built m base 0 base
  | opened {k : Nat} {file : File σ} (built : Built m base k file) : Built m base k (opened file)
  | upgraded {j k : Nat} {file : File σ} {w : View σ τ} (built : Built m base k file)
      (later : k ≤ j)
      (applied : Applied db sha256 ((m.migrations.take j).drop k) ⟨file, db.fresh⟩ w) :
      Built m base j w.file

variable (db sha256) in
/-- A file on which the calls so far have applied and recorded the first `k` migrations. -/
structure Level (m : Migrator) (base : File σ) (k : Nat) (file : File σ) : Prop where
  bare : db.bare file.objects = true
  recorded : Recorded sha256 m k (file.ledger.getD [])
  built : Built db sha256 m base k file

variable (db sha256) in
/-- What one call owes to a file at level `k`. -/
inductive Meets (m : Migrator) (base : File σ) (k : Nat) (file : File σ) (used : Migrator)
    (target : Option Int) : Except Exc (List Int) × File σ → Prop where
  /-- It commits: the versions up to its target are applied, and a second call applies nothing. -/
  | committed {applied : List Int} {after : File σ}
      (listed : applied = (versionsTo (max k (limit used target))).drop k)
      (level : Level db sha256 m base (max k (limit used target)) after)
      (ledger : after.ledger.isSome = true)
      (again : ∀ moment, (run db sha256 used target moment after).2 = after ∧
        ∀ more, (run db sha256 used target moment after).1 = .ok more → more = []) :
      Meets m base k file used target (.ok applied, after)
  /-- It raises: the file is as it was, but it may have got the ledger's empty table. -/
  | raised (e : Exc) {after : File σ} (same : after = file ∨ after = opened file) :
      Meets m base k file used target (.error e, after)

variable {m used : Migrator} {base : File σ} {k n : Nat}

theorem versions_take (m : Migrator) (j : Nat) :
    (m.migrations.take j).map (fun x => x.version) = versionsTo (min j m.migrations.length) := by
  rw [map_take, m.contiguous, versionsTo, ← map_take, take_range, versionsTo]

/-- The migrator of the first `n` migrations. -/
def upTo (m : Migrator) (n : Nat) : Migrator :=
  ⟨m.migrations.take n, by rw [versions_take, length_take]⟩

/-- An earlier call: how much of the list its migrator had, its target and its moment. -/
structure Call where
  upTo : Nat
  target : Option Int
  moment : Nat

variable (db sha256) in
def step (m : Migrator) (file : File σ) (call : Call) : Except Exc (List Int) × File σ :=
  run db sha256 (upTo m call.upTo) call.target call.moment file

/-- The tables of a small database, and whether it has the trigger of `forgetScript`. -/
structure Objects where
  tables : List String
  forgets : Bool
  deriving DecidableEq, Repr

def itemsScript : String := "CREATE TABLE items(id INT);"

def forgetScript : String :=
  "CREATE TRIGGER forget AFTER INSERT ON schema_migrations BEGIN DELETE FROM schema_migrations; END;"

/-- What SQLite asks about the two scripts; a trigger's table comes second. -/
def smallRequests (statement : List Char) : List Request :=
  if statement = itemsScript.toList then
    [⟨.other 18, some "sqlite_master", none⟩, ⟨.other 2, some "items", none⟩]
  else if statement = forgetScript.toList then
    [⟨.other 7, some "forget", some "schema_migrations"⟩, ⟨.other 18, some "sqlite_master", none⟩]
  else []

def smallEffect (statement : List Char) (v : View Objects Unit) : Ending (View Objects Unit) Exc :=
  let objects := v.file.objects
  if statement = itemsScript.toList then
    if "items" ∈ objects.tables then .failed (.database "table items already exists") v
    else .done ⟨⟨⟨"items" :: objects.tables, objects.forgets⟩, v.file.ledger⟩, ()⟩
  else if statement = forgetScript.toList then
    if objects.forgets then .failed (.database "trigger forget already exists") v
    else .done ⟨⟨⟨objects.tables, true⟩, v.file.ledger⟩, ()⟩
  else .failed (.database "syntax error") v

/-- With the trigger, an inserted row goes at once, with all others. -/
def smallStray : LedgerCall → View Objects Unit → Ending (View Objects Unit) Exc
  | .create, v => .done v
  | .insert _, v => .done (v.setLedger [])

def smallReaches (r : Request) : Bool := decide (r.action ∈ forbidden)

theorem smallReaches_forbidden (r : Request) (past : smallReaches r = true) :
    r.action ∈ forbidden :=
  of_decide_eq_true past

def small : Sqlite Objects Unit where
  engine :=
    { requests := fun statement _ => smallRequests statement
      reachesPast := smallReaches
      effect := fun _ statement v => smallEffect statement v
      elsewhere := fun _ _ s => (.error (.database "outside a transaction"), s)
      refused := .database "not authorized"
      fault := fun _ => none }
  confined := smallReaches_forbidden
  complete := fun statement => statement.getLast? == some ';' &&
    (!"CREATE TRIGGER".toList.isPrefixOf statement || "END;".toList.isSuffixOf statement)
  fresh := ()
  bare := fun objects => !objects.forgets
  shadows := fun _ => false
  fresh_bare := rfl
  stray := fun call _ v => smallStray call v
  strayRows := fun v => (v.file.ledger.getD []).map (fun row => (row.version, row.checksum))
  now := fun _ => "2026-01-01T00:00:00+00:00"

theorem single_contiguous (name sql : String) :
    [(⟨1, name, sql⟩ : Migration)].map (fun m => m.version) = versionsTo 1 := rfl

/-- The list of one migration. -/
def single (name sql : String) : Migrator := ⟨[⟨1, name, sql⟩], single_contiguous name sql⟩

def empty : File Objects := ⟨⟨[], false⟩, none⟩

end Meemee.Guarantees.MigrationLedger
