import Meemee.Source.Expiry

/-!
# The context store

`ContextStore` of `meemee/context.py` on one connection, whose lock makes each call one step. The
content hash of a record is a parameter, and so is the full-text index: which stored records match an
expression, with their `bm25` scores, or none where FTS5 raises `sqlite3.OperationalError`. JSON
columns hold the value that they read back as.
-/
namespace Meemee.Source.Context
open Library Source
open Source.Expiry (Moment utcMoment replaceZ)

structure ContextRecord where
  ownerId : String
  sourceId : String
  externalId : String
  kind : String
  title : String
  content : String
  occurredAt : String
  provenance : Json
  visibility : String
  cursor : Option String
  metadata : Option Json

/-- A row of `context_sources`. -/
structure SourceRow where
  ownerId : String
  sourceId : String
  connector : String
  config : Json
  permission : String
  cursor : Option String
  createdAt : Instant
  updatedAt : Instant

/-- `PRIMARY KEY(owner_id,source_id)`. -/
def SourceRow.key (r : SourceRow) : String × String := (r.ownerId, r.sourceId)

/-- A row of `context_records`. -/
structure RecordRow where
  id : Nat
  ownerId : String
  sourceId : String
  externalId : String
  contentHash : String
  kind : String
  title : String
  content : String
  occurredAt : String
  provenance : Json
  visibility : String
  cursor : Option String
  metadata : Json
  ingestedAt : Instant

/-- `UNIQUE(owner_id,source_id,external_id,content_hash)`. -/
def RecordRow.key (r : RecordRow) : String × String × String × String :=
  (r.ownerId, r.sourceId, r.externalId, r.contentHash)

structure ContextStore where
  sources : Table SourceRow.key
  records : Table RecordRow.key

def ContextStore.empty : ContextStore := ⟨Table.empty, Table.empty⟩

/-- The id of a new row: the largest stored id plus one. -/
def nextRecordId (s : ContextStore) : Nat := (s.records.rows.map RecordRow.id).foldr max 0 + 1

inductive ContextExc where
  | raised (e : Exc)
  | operationalError (text : String)

abbrev ContextTxn := Txn ContextStore ContextExc

/-- `isoformat(timespec="microseconds")` of a UTC datetime. -/
def isoMicroseconds (t : Datetime) : String :=
  String.ofList (pad 4 t.year ++ '-' :: pad 2 t.month ++ '-' :: pad 2 t.day ++ 'T' :: pad 2 t.hour ++
    ':' :: pad 2 t.minute ++ ':' :: pad 2 t.second ++ '.' :: pad 6 t.microsecond ++
    ['+', '0', '0', ':', '0', '0'])

section Store

-- `datetime.fromisoformat`, and `context_record_hash`.
variable (fromisoformat : String → Except Exc Moment) (recordHash : ContextRecord → Except Exc String)

/-- The UTC datetime that a timestamp stands for. -/
def utcOf (value : String) : Except Exc Datetime := do
  utcMoment (← fromisoformat (replaceZ value))

def contextUtc (value : String) : Except Exc String := (utcOf fromisoformat value).map isoMicroseconds

/-- `INSERT … ON CONFLICT DO UPDATE` of `register_source`. -/
def registered (s : ContextStore) (ownerId sourceId connector : String) (config : Json)
    (permission : String) (now : Instant) : SourceRow :=
  match s.sources.find (ownerId, sourceId) with
  | some old => { old with connector, config, permission, updatedAt := now }
  | none => ⟨ownerId, sourceId, connector, config, permission, none, now, now⟩

def registerSource (ownerId sourceId connector : String) (config : Json) (permission : String)
    (now : Instant) : ContextTxn Unit := do
  Txn.require (decide (ownerId ≠ "" ∧ sourceId ≠ "" ∧ connector ≠ ""))
    (.raised (.valueError "owner, source and connector are required"))
  Txn.write (fun s => { s with
    sources := s.sources.replace (registered s ownerId sourceId connector config permission now) })

def knowsSource (ownerId sourceId : String) (s : ContextStore) : Bool :=
  (s.sources.find (ownerId, sourceId)).isSome

/-- The row that `ingest` inserts. -/
def ContextRecord.row (record : ContextRecord) (digest : String) (now : Instant) (id : Nat) : RecordRow :=
  ⟨id, record.ownerId, record.sourceId, record.externalId, digest, record.kind, record.title,
    record.content, record.occurredAt, record.provenance, record.visibility, record.cursor,
    record.metadata.getD (.obj []), now⟩

/-- `INSERT OR IGNORE`: whether a row was inserted. -/
def insertRecord (record : ContextRecord) (digest : String) (now : Instant) : ContextTxn Bool := fun s =>
  let (records, inserted) := s.records.insertOrIgnore (record.row digest now (nextRecordId s))
  (.ok inserted, { s with records })

/-- The cursor of a source after a record that has one. -/
def moveCursor (record : ContextRecord) (now : Instant) (r : SourceRow) : SourceRow :=
  match record.cursor with
  | some cursor => { r with cursor := some cursor, updatedAt := now }
  | none => r

theorem moveCursor_keeps (record : ContextRecord) (now : Instant) (r : SourceRow) :
    (moveCursor record now r).key = r.key := by
  unfold moveCursor
  split <;> rfl

def visibilities : List String := ["private", "agent", "shared"]

def ingest (record : ContextRecord) (now : Instant) : ContextTxn Bool := do
  let _ ← Txn.ofExcept ((contextUtc fromisoformat record.occurredAt).mapError .raised)
  Txn.require (visibilities.contains record.visibility) (.raised (.valueError "invalid visibility"))
  let digest ← Txn.ofExcept ((recordHash record).mapError .raised)
  Txn.atomically do
    let known ← Txn.read (knowsSource record.ownerId record.sourceId)
    Txn.require known (.raised (.valueError "source is not registered for owner"))
    let inserted ← insertRecord record digest now
    Txn.write (fun s => { s with
      sources := s.sources.update (fun r => decide (r.key = (record.ownerId, record.sourceId)))
        (moveCursor record now) (moveCursor_keeps record now) })
    return inserted

def purgeOwner (ownerId : String) : ContextTxn Unit := do
  Txn.require (decide (ownerId ≠ "")) (.raised (.valueError "owner is required"))
  Txn.write (fun s => ⟨s.sources.delete (fun r => decide (r.ownerId = ownerId)),
    s.records.delete (fun r => decide (r.ownerId = ownerId))⟩)

/-- A row with the text that `context_utc` gives its timestamp. -/
abbrev Stamped := RecordRow × String

/-- What SQLite says of an exception in a function of the application. -/
def functionRaised : ContextExc := .operationalError "user-defined function raised exception"

def stamp (r : RecordRow) : Except ContextExc Stamped :=
  match contextUtc fromisoformat r.occurredAt with
  | .ok text => .ok (r, text)
  | .error _ => .error functionRaised

/-- `ORDER BY context_utc(occurred_at) DESC,id DESC`. -/
def later (a b : Stamped) : Bool := decide (b.2 < a.2 ∨ a.2 = b.2 ∧ b.1.id ≤ a.1.id)

/-- `max(1,min(limit,100))`. -/
def clamped (limit : Int) : Nat := (max 1 (min limit 100)).toNat

/-- `visibility IN (…)`; without `allowed` these are `private` and `agent`. -/
def visibleTo (allowed : Option (List String)) (ownerId : String) (r : RecordRow) : Bool :=
  decide (r.ownerId = ownerId) && (allowed.getD ["private", "agent"]).contains r.visibility

def recent (ownerId : String) (limit : Int) (allowed : Option (List String)) (s : ContextStore) :
    Except ContextExc (List RecordRow) := do
  let stamped ← (s.records.select (visibleTo allowed ownerId)).mapM (stamp fromisoformat)
  return ((stamped.insertionSort (fun a b => later a b)).take (clamped limit)).map Prod.fst

-- The full-text index: the score of each record that matches an expression.
variable (fts : String → ContextStore → Option (RecordRow → Option ℚ))

/-- `ORDER BY score,context_utc(r.occurred_at) DESC,r.id DESC`. -/
def better (a b : ℚ × Stamped) : Bool := decide (a.1 < b.1) || decide (a.1 = b.1) && later a.2 b.2

def search (ownerId query : String) (limit : Int) (allowed : Option (List String)) (s : ContextStore) :
    Except ContextExc (List RecordRow) :=
  match fts query s with
  | none => .error (.operationalError "fts5")
  | some score => do
    let hits := (s.records.select (visibleTo allowed ownerId)).filterMap
      (fun r => (score r).map (fun value => (value, r)))
    let stamped ← hits.mapM (fun hit => (stamp fromisoformat hit.2).map (fun row => (hit.1, row)))
    return ((stamped.insertionSort (fun a b => better a b)).take (clamped limit)).map
      (fun hit => hit.2.1)

/-- `assemble`: the records; only `sqlite3.OperationalError` of the search is caught. -/
def assemble (ownerId query : String) (limit : Int) (s : ContextStore) :
    Except ContextExc (List RecordRow) := do
  let records ← match search fromisoformat fts ownerId query limit none s with
    | .ok records => pure records
    | .error (.operationalError _) => pure []
    | .error e => throw e
  if (records.length : Int) < limit then
    let seen := records.map RecordRow.id
    let others := (← recent fromisoformat ownerId (limit * 2) none s).filter
      (fun row => !seen.contains row.id)
    return records ++ others.take (limit - records.length).toNat
  else return records

end Store

end Meemee.Source.Context
