import Meemee.Source.Runs

/-!
# Statements on stored rows

Columns by their names, `UPDATE` of columns, and the inserts that the stores of `PurgeTargets` have
beside the plain one of `Runs`.
-/
namespace Meemee.Source.Rows
open Library Library.Ownership Source.PurgeTargets
open Source.Runs (apart evidenceOwned_insert nextId)

/-- The value of a column; `names` are the table's columns in order. -/
def column (names : List String) (name : String) (r : StoredRow) : Cell :=
  ((names.zip r.columns).lookup name).getD .null

/-- `SET`. -/
def setColumns (names : List String) (changes : List (String × Cell)) (columns : List Cell) :
    List Cell :=
  (names.zip columns).map (fun entry => (changes.lookup entry.1).getD entry.2)

def nullable : Option String → Cell
  | none => .null
  | some value => .text value

def nullableInstant : Option Instant → Cell
  | none => .null
  | some instant => .integer instant

def instantOf : Cell → Option Instant
  | .integer instant => some instant
  | _ => none

def textOf : Cell → Option String
  | .text value => some value
  | _ => none

def integerOf : Cell → Int
  | .integer value => value
  | _ => 0

/-- The check behind `EvidenceOwned`. -/
def evidenceFits (tables : Tables) : Bool :=
  (tables .personalEvidence).rows.all (fun e => e.of.all (fun k =>
    ((tables .personalItems).find k).all (fun item => decide (e.owner = item.owner))))

theorem evidenceOwned_of_fits {tables : Tables} (fits : evidenceFits tables = true) :
    EvidenceOwned tables := by
  intro e stored k item names found
  have checked := List.all_eq_true.mp fits e stored
  rw [names, Option.all_some, found] at checked
  exact of_decide_eq_true checked

theorem evidenceOwned_updated {tables : Tables} (owned : EvidenceOwned tables) (t : TableName)
    (p : StoredRow → Bool) (f : List Cell → List Cell) : EvidenceOwned (updated tables t p f) := by
  intro e stored k item names found
  obtain ⟨old, there, -, owner, of⟩ := mem_updated stored
  obtain ⟨before, found', owner', -⟩ := find_updated found
  rw [← owner, ← owner']
  exact owned old there k before (of.trans names) found'

/-- `UPDATE t SET ... WHERE p`, with values that the row's own columns give. -/
def updateWith (t : TableName) (p : StoredRow → Bool) (f : List Cell → List Cell) : StoreTxn Unit :=
  Txn.write (fun s =>
    { tables := updated s.tables t p f
      evidenceOwned := evidenceOwned_updated s.evidenceOwned t p f
      jobs := s.jobs })

/-- `UPDATE t SET changes WHERE p`. -/
def updateRows (t : TableName) (names : List String) (p : StoredRow → Bool)
    (changes : List (String × Cell)) : StoreTxn Unit :=
  Txn.write (fun s =>
    { tables := updated s.tables t p (setColumns names changes)
      evidenceOwned := evidenceOwned_updated s.evidenceOwned t p (setColumns names changes)
      jobs := s.jobs })

theorem owned_inserted (s : Stores) (t : TableName) (away : apart t = true) (r : StoredRow) :
    EvidenceOwned (inserted s.tables t r) := evidenceOwned_insert s.evidenceOwned away r

/-- `INSERT ... ON CONFLICT DO NOTHING`. -/
def insertOrIgnoreRow (t : TableName) (away : apart t = true) (r : StoredRow) : StoreTxn Unit :=
  Txn.write (fun s =>
    { tables := inserted s.tables t r
      evidenceOwned := owned_inserted s t away r
      jobs := s.jobs })

/-- `INSERT` of a personal item or of evidence. The id of an item is drawn, so neither an item nor
evidence has it yet. -/
def insertPersonal (t : TableName) (r : StoredRow) : StoreTxn Unit := fun s =>
  if ((s.tables t).find r.key).isSome then
    (.error (.integrityError "UNIQUE constraint failed"), s)
  else if fits : evidenceFits (inserted s.tables t r) = true then
    (.ok (), { tables := inserted s.tables t r
               evidenceOwned := evidenceOwned_of_fits fits
               jobs := s.jobs })
  else (.error (.integrityError "UNIQUE constraint failed"), s)

end Meemee.Source.Rows
