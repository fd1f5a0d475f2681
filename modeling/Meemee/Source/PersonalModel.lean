import Meemee.Source.Goals
import Meemee.Source.Rows

/-!
# The personal model

`meemee/personal_model.py`. Claims are versions of an owner's item of a kind and a title; what the
user confirmed is left alone by a reflection, whose only write is `upsert_batch`. Confidences are
kept as numbers of some fixed unit.
-/
namespace Meemee.Source.PersonalModel
open Library Library.Ownership Source.PurgeTargets Source.Rows
open Source.PgJobs (strip)
open Source.Runs (nextId)

def itemColumns : List String :=
  ["kind", "title", "value", "confidence", "status", "valid_from", "valid_until", "supersedes_id",
    "created_at", "updated_at"]

def evidenceColumns : List String :=
  ["source_id", "source_record_id", "observed_value", "confidence", "observed_at"]

/-- An item that has passed its validators. -/
structure PersonalItemInput where
  kind : String
  title : String
  value : String
  confidence : Int
  sourceId : String
  sourceRecordId : String
  validFrom : Option String
  validUntil : Option String
  deriving DecidableEq, Repr

/-- The owner's active item of the kind and title. -/
def isCurrent (ownerId : String) (item : PersonalItemInput) (r : StoredRow) : Bool :=
  decide (r.owner = some ownerId ∧ column itemColumns "kind" r = .text item.kind ∧
    column itemColumns "title" r = .text (strip item.title) ∧
    column itemColumns "status" r = .text "active")

/-- The user stands behind the item. -/
def isConfirmation (ownerId : String) (current e : StoredRow) : Bool :=
  decide (e.of = some current.key ∧ e.owner = some ownerId ∧
    column evidenceColumns "source_id" e = .text "user")

def confirmed (ownerId : String) (current : Option StoredRow) (s : Stores) : Bool :=
  current.any (fun c => (s.tables .personalEvidence).rows.any (isConfirmation ownerId c))

def hasKey (k : Key) (r : StoredRow) : Bool := decide (r.key = k)

def newItem (ownerId ident : String) (item : PersonalItemInput) (supersedes : Cell)
    (now : Instant) : StoredRow :=
  ⟨[.text ident], some ownerId, none, [.text item.kind, .text (strip item.title),
    .text (strip item.value), .integer item.confidence, .text "active", nullable item.validFrom,
    nullable item.validUntil, supersedes, .integer now, .integer now]⟩

/-- The claim is what the item says already. -/
def restateItem (current : StoredRow) (item : PersonalItemInput) (now : Instant) : StoreTxn Key := do
  let combined := max (integerOf (column itemColumns "confidence" current)) item.confidence
  updateRows .personalItems itemColumns (hasKey current.key)
    [("confidence", .integer combined), ("valid_from", nullable item.validFrom),
      ("valid_until", nullable item.validUntil), ("updated_at", .integer now)]
  return current.key

/-- The claim takes the place of the item. -/
def supersedeItem (ownerId ident : String) (current : StoredRow) (item : PersonalItemInput)
    (now : Instant) : StoreTxn Key := do
  updateRows .personalItems itemColumns (hasKey current.key)
    [("status", .text "superseded"), ("updated_at", .integer now)]
  insertPersonal .personalItems (newItem ownerId ident item (current.key.headD .null) now)
  return [.text ident]

def startItem (ownerId ident : String) (item : PersonalItemInput) (now : Instant) :
    StoreTxn Key := do
  insertPersonal .personalItems (newItem ownerId ident item .null now)
  return [.text ident]

def placeItem (ownerId ident : String) (current : Option StoredRow) (item : PersonalItemInput)
    (now : Instant) : StoreTxn Key :=
  match current with
  | none => startItem ownerId ident item now
  | some row =>
    if column itemColumns "value" row = .text (strip item.value) then restateItem row item now
    else supersedeItem ownerId ident row item now

/-- `UNIQUE(item_id,source_id,source_record_id,observed_value)`. -/
def sameEvidence (named : Key) (item : PersonalItemInput) (e : StoredRow) : Bool :=
  decide (e.of = some named ∧ column evidenceColumns "source_id" e = .text item.sourceId ∧
    column evidenceColumns "source_record_id" e = .text item.sourceRecordId ∧
    column evidenceColumns "observed_value" e = .text (strip item.value))

/-- `INSERT OR IGNORE INTO personal_evidence`. -/
def addEvidence (ownerId : String) (named : Key) (item : PersonalItemInput) (now : Instant) :
    StoreTxn Unit := do
  let known ← Txn.read (fun s =>
    (s.tables .personalEvidence).rows.any (sameEvidence named item))
  let ident ← Txn.read (fun s => nextId (s.tables .personalEvidence).rows)
  if known then pure ()
  else insertPersonal .personalEvidence ⟨[.integer ident], some ownerId, some named,
    [.text item.sourceId, .text item.sourceRecordId, .text (strip item.value),
      .integer item.confidence, .integer now]⟩

/-- A claim with its evidence. -/
def publishItem (ownerId ident : String) (current : Option StoredRow) (item : PersonalItemInput)
    (now : Instant) : StoreTxn Bool := do
  let named ← placeItem ownerId ident current item now
  addEvidence ownerId named item now
  return false

/-- `_upsert_locked`, as a batch calls it; `ident` is the id `uuid4` draws. The answer is
`reflection_preserved_user`. -/
def upsertLocked (ownerId : String) (item : PersonalItemInput) (ident : String)
    (preserveUser : Bool) (now : Instant) : StoreTxn Bool := do
  let current ← Txn.read (fun s =>
    ((s.tables .personalItems).select (isCurrent ownerId item)).head?)
  let kept ← Txn.read (fun s => preserveUser && confirmed ownerId current s)
  if kept then pure true else publishItem ownerId ident current item now

def upsertAll (ownerId : String) (preserveUser : Bool) (now : Instant) :
    List (PersonalItemInput × String) → StoreTxn (List Bool)
  | [] => pure []
  | (item, ident) :: rest => do
    let preserved ← upsertLocked ownerId item ident preserveUser now
    let others ← upsertAll ownerId preserveUser now rest
    return preserved :: others

/-- `upsert_batch`: each item with the id it would draw, and whether it was left to the user. -/
def upsertBatch (ownerId : String) (items : List (PersonalItemInput × String))
    (preserveUser : Bool) (now : Instant) : StoreTxn (List Bool) := do
  Txn.require (decide (ownerId ≠ "")) (.valueError "owner is required")
  Txn.atomically (upsertAll ownerId preserveUser now items)

/-- An item with its evidence, the latest first. -/
abbrev ItemView := StoredRow × List StoredRow

def latestFirst (a b : StoredRow) : Bool :=
  let seen := fun r => integerOf (column evidenceColumns "observed_at" r)
  let drawn := fun (r : StoredRow) => integerOf (r.key.headD .null)
  decide (seen b < seen a ∨ seen a = seen b ∧ drawn b ≤ drawn a)

/-- `get`. -/
def getItem (ownerId : String) (k : Key) (s : Stores) : Option ItemView :=
  ((s.tables .personalItems).find k).bind (fun r =>
    if r.owner = some ownerId then
      some (r, ((s.tables .personalEvidence).select (fun e =>
        decide (e.owner = some ownerId ∧ e.of = some k))).mergeSort latestFirst)
    else none)

/-- What `_upsert_locked` returns: `{}` for an item that is no longer current, the current item
that was left to the user, or the item that was written. -/
inductive Written where
  | displaced
  | preserved (current : Option StoredRow)
  | item (view : Option ItemView)
  deriving DecidableEq

/-- `current is None or current["id"] != expected_current_id`. -/
def displaced (expected : Option Key) (current : Option StoredRow) : Bool :=
  expected.any (fun k => current.all (fun c => decide (c.key ≠ k)))

/-- An item is placed, gets its evidence and is read back. -/
def writeItem (ownerId ident : String) (current : Option StoredRow) (item : PersonalItemInput)
    (now : Instant) : StoreTxn Written := do
  let named ← placeItem ownerId ident current item now
  addEvidence ownerId named item now
  let view ← Txn.read (getItem ownerId named)
  return .item view

/-- `_upsert_locked` with all its arguments. -/
def upsertExpecting (ownerId : String) (item : PersonalItemInput) (ident : String)
    (preserveUser : Bool) (expected : Option Key) (now : Instant) : StoreTxn Written := do
  let current ← Txn.read (fun s =>
    ((s.tables .personalItems).select (isCurrent ownerId item)).head?)
  if displaced expected current then pure .displaced
  else do
    let kept ← Txn.read (fun s => preserveUser && confirmed ownerId current s)
    if kept then pure (.preserved current) else writeItem ownerId ident current item now

def upsert (ownerId : String) (item : PersonalItemInput) (ident : String) (preserveUser : Bool)
    (expected : Option Key) (now : Instant) : StoreTxn Written := do
  Txn.require (decide (ownerId ≠ "")) (.valueError "owner is required")
  Txn.atomically (upsertExpecting ownerId item ident preserveUser expected now)

def isActive (r : StoredRow) : Bool := decide (column itemColumns "status" r = .text "active")

section Correct

-- The validators of `PersonalItemInput`, and the confidence 1.0.
variable (validated : PersonalItemInput → Except Exc PersonalItemInput) (certain : Int)

def textColumn (names : List String) (name : String) (r : StoredRow) : String :=
  (textOf (column names name r)).getD ""

/-- The claim that a correction makes of the item; `draw` is the uuid of its evidence. -/
def correction (current : StoredRow) (value draw : String) : PersonalItemInput :=
  { kind := textColumn itemColumns "kind" current, title := textColumn itemColumns "title" current,
    value := value, confidence := certain, sourceId := "user",
    sourceRecordId := "correction:" ++ draw,
    validFrom := textOf (column itemColumns "valid_from" current),
    validUntil := textOf (column itemColumns "valid_until" current) }

/-- The first half of `correct`, before its `upsert`: nothing, or the claim to make. -/
def readCorrection (ownerId : String) (k : Key) (value draw : String) :
    StoreTxn (Option PersonalItemInput) := do
  let current ← Txn.read (getItem ownerId k)
  match current with
  | none => pure none
  | some (row, _) =>
    if isActive row then do
      let item ← Txn.ofExcept (validated (correction certain row value draw))
      return some item
    else pure none

/-- The second half: `self.upsert(..., expected_current_id=ident) or None`. -/
def writeCorrection (ownerId : String) (k : Key) (item : PersonalItemInput) (ident : String)
    (now : Instant) : StoreTxn (Option ItemView) := do
  let written ← upsert ownerId item ident false (some k) now
  match written with
  | .item view => return view
  | _ => return none

end Correct

section Decay

-- `confidence*factor`.
variable (scaled : Int → Int)

/-- `NOT EXISTS(SELECT 1 FROM personal_evidence ... source_id='user')`. -/
def unconfirmed (s : Stores) (r : StoredRow) : Bool :=
  !(s.tables .personalEvidence).rows.any (fun e =>
    decide (e.of = some r.key ∧ column evidenceColumns "source_id" e = .text "user"))

def decays (ownerId : String) (before : Instant) (s : Stores) (r : StoredRow) : Bool :=
  decide (r.owner = some ownerId) && isActive r &&
    decide (integerOf (column itemColumns "updated_at" r) < before) && unconfirmed s r

/-- The cell of a column in a row's list of columns. -/
def cellOf (names : List String) (name : String) (columns : List Cell) : Cell :=
  ((names.zip columns).lookup name).getD .null

def decayed (now : Instant) (columns : List Cell) : List Cell :=
  setColumns itemColumns
    [("confidence", .integer (scaled (integerOf (cellOf itemColumns "confidence" columns)))),
      ("updated_at", .integer now)] columns

/-- `inRange` says that the factor is between zero and one. -/
def decay (inRange : Bool) (ownerId : String) (before now : Instant) : StoreTxn Nat := do
  Txn.require inRange (.valueError "decay factor must be between zero and one")
  Txn.atomically do
    let rows ← Txn.read (fun s => (s.tables .personalItems).select (decays ownerId before s))
    let chosen ← Txn.read (fun s => decays ownerId before s)
    updateWith .personalItems chosen (decayed scaled now)
    return rows.length

end Decay

def deletable (ownerId : String) (k : Key) (r : StoredRow) : Bool :=
  decide (r.owner = some ownerId ∧ r.key = k ∧ column itemColumns "status" r ≠ .text "deleted")

def deleteItem (ownerId : String) (k : Key) (now : Instant) : StoreTxn Bool :=
  Txn.atomically do
    let rows ← Txn.read (fun s => (s.tables .personalItems).select (deletable ownerId k))
    updateRows .personalItems itemColumns (deletable ownerId k)
      [("status", .text "deleted"), ("updated_at", .integer now)]
    return !rows.isEmpty

section Expire

-- `valid_until` lies at or before the clock, or is no timestamp.
variable (lapsed : String → Instant → Bool)

def isOver (clock : Instant) (r : StoredRow) : Bool :=
  (textOf (column itemColumns "valid_until" r)).any (fun end_ => lapsed end_ clock)

/-- The items that `expire` finds over: its SELECT opens no transaction. -/
def readExpired (ownerId : String) (clock : Instant) (s : Stores) : List Key :=
  ((s.tables .personalItems).select (fun r =>
    decide (r.owner = some ownerId) && isActive r && isOver lapsed clock r)).map (fun r => r.key)

end Expire

/-- The UPDATE of `expire`, for each of the items. -/
def expireItems (ownerId : String) (now : Instant) : List Key → StoreTxn Unit
  | [] => pure ()
  | k :: rest => do
    updateRows .personalItems itemColumns
      (fun r => decide (r.key = k ∧ r.owner = some ownerId) && isActive r)
      [("status", .text "superseded"), ("updated_at", .integer now)]
    expireItems ownerId now rest

def writeExpired (ownerId : String) (now : Instant) (expired : List Key) : StoreTxn Nat :=
  Txn.atomically do
    expireItems ownerId now expired
    return expired.length

end Meemee.Source.PersonalModel
