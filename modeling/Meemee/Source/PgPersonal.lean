import Meemee.Library.ReadCommitted
import Meemee.Source.PersonalModel

/-!
# The personal model on PostgreSQL

`PersonalModelStore` of `meemee_persist_pg/personal.py`, one statement at a time at READ COMMITTED. A
statement that has to wait is tried again; a deadlock or a broken connection ends a session's
transaction at any point. `hashtextextended`, the validators of an item and the reading of
`valid_until` are parameters, and the two reads of `_get_on` inside a transaction are one step.
-/
namespace Meemee.Source.PgPersonal
open Library Source
open Source.PgJobs (strip)
open Source.PersonalModel (PersonalItemInput)

inductive Status where
  | active | superseded | deleted
  deriving DecidableEq, Repr

/-- A row of `meemee_personal_items`. -/
structure Item where
  id : String
  ownerId : String
  kind : String
  title : String
  value : String
  confidence : Int
  status : Status
  validFrom : Option String
  validUntil : Option String
  supersedesId : Option String
  createdAt : Instant
  updatedAt : Instant
  deriving DecidableEq, Repr

/-- A row of `meemee_personal_evidence`. -/
structure Evidence where
  id : Nat
  itemId : String
  ownerId : String
  sourceId : String
  sourceRecordId : String
  observedValue : String
  confidence : Int
  observedAt : Instant
  deriving DecidableEq, Repr

/-- One item of a call, with the uuid it would draw and its `_now()`. -/
structure Upsert where
  item : PersonalItemInput
  ident : String
  now : Instant
  deriving DecidableEq, Repr

/-- An item with its evidence, the latest first. -/
abbrev ItemView := Item × List Evidence

/-- What `_upsert_on` returns: `{}` for an item that is no longer current, the current item that
was left to the user, or the item that was written. -/
inductive Written where
  | displaced
  | preserved (current : Item)
  | item (view : Option ItemView)
  deriving DecidableEq

inductive Form where
  | upsert | batch | correct
  deriving DecidableEq, Repr

/-- An `upsert`, `upsert_batch` or `correct` in its transaction: what is still to do and what each
item has come to. -/
structure Writer where
  form : Form
  ownerId : String
  preserveUser : Bool
  expected : Option String
  todo : List Upsert
  done : List (Upsert × Written)
  deriving DecidableEq

/-- Where `_upsert_on` is with an item: before the advisory lock, the SELECT of the current row, the
SELECT of a confirmation, the UPDATE by id, the INSERT, the INSERT of the evidence, `_get_on`. -/
inductive Stage where
  | entering
  | looking
  | confirming (current : Item)
  | placing (current : Item)
  | inserting (previous : Option String)
  | observing (ident : String)
  | rereading (ident : String)
  deriving DecidableEq

inductive Session where
  | idle
  | correcting (ownerId ident value draw : String) (newIdent : String) (now : Instant)
  | reserving (w : Writer) (texts : List String)
  | writing (w : Writer) (u : Upsert) (stage : Stage)
  | committing (w : Writer)
  | deleting (ownerId ident : String) (now : Instant)
  | deleted (ident : String) (found : Bool)
  | listing (ownerId : String) (clock : Instant)
  | locking (ownerId : String) (clock : Instant) (todo : List String) (rows : List Item)
  | expiring (ownerId : String) (clock : Instant) (todo : List String) (count : Nat)
  deriving DecidableEq

inductive Op where
  | upsert (ownerId : String) (u : Upsert) (preserveUser : Bool) (expected : Option String)
  | upsertBatch (ownerId : String) (items : List Upsert) (preserveUser : Bool)
  | correct (ownerId ident value draw : String) (newIdent : String) (now : Instant)
  | delete (ownerId ident : String) (now : Instant)
  | expire (ownerId : String) (clock : Instant)

/-- What a step answers: nothing yet, that it waits, or what its call returned or raised. -/
inductive Answer where
  | running
  | waiting
  | raised
  | upserted (written : Option Written)
  | batch (written : List Written)
  | corrected (view : Option ItemView)
  | deleted (found : Bool)
  | expired (count : Nat)
  deriving DecidableEq

inductive Action where
  | begin (i : Nat) (op : Op)
  | go (i : Nat)
  | abort (i : Nat)

/-- The owner, the kind and the title of a claim. -/
abbrev Claim := String × String × String

def Item.claim (r : Item) : Claim := (r.ownerId, r.kind, r.title)

def claimOf (ownerId : String) (item : PersonalItemInput) : Claim :=
  (ownerId, item.kind, strip item.title)

/-- The rows, the evidence with what open transactions have added to it, the next number of its
sequence; who holds which advisory lock and which entry of the unique index of active claims; and
the sessions. -/
structure Deployment where
  items : RowVersions Item.id
  evidence : List Evidence
  observed : List (Nat × Evidence)
  sequence : Nat
  advisory : Int → Option Nat
  entries : Claim → Option Nat
  sessions : Nat → Session

namespace Deployment

def start (items : Table Item.id) (evidence : List Evidence) (sequence : Nat) : Deployment :=
  ⟨.start items, evidence, [], sequence, fun _ => none, fun _ => none, fun _ => .idle⟩

def resume (d : Deployment) (i : Nat) (s : Session) : Deployment :=
  { d with sessions := Function.update d.sessions i s }

/-- What session `i` sees of the evidence. -/
def evidenceSeen (d : Deployment) (i : Nat) : List Evidence :=
  d.evidence ++ (d.observed.filter (fun o => decide (o.1 = i))).map Prod.snd

/-- The end of a transaction: what it holds is given back. -/
def released (d : Deployment) (i : Nat) : Deployment :=
  { d with
    observed := d.observed.filter (fun o => decide (o.1 ≠ i))
    advisory := fun lock => if d.advisory lock = some i then none else d.advisory lock
    entries := fun claim => if d.entries claim = some i then none else d.entries claim
    sessions := Function.update d.sessions i .idle }

def rollback (d : Deployment) (i : Nat) : Deployment :=
  { d.released i with items := d.items.rollback i }

def commit (d : Deployment) (i : Nat) : Deployment :=
  { d.released i with items := d.items.commit i, evidence := d.evidenceSeen i }

/-- A row is written. An active row, or one that was active, takes its entry of the index. -/
def put (d : Deployment) (i : Nat) (row : Item) : Deployment :=
  { d with
    items := d.items.put i row
    entries := if row.status = .active ∨
        ((d.items.visible i).find row.id).any (fun r => decide (r.status = .active)) then
      Function.update d.entries row.claim (some i) else d.entries }

end Deployment

def lockText (claim : Claim) : String :=
  "personal:" ++ claim.1 ++ ":" ++ claim.2.1 ++ ":" ++ claim.2.2

def isCurrent (claim : Claim) (r : Item) : Bool := decide (r.claim = claim ∧ r.status = .active)

def current (d : Deployment) (i : Nat) (claim : Claim) : Option Item :=
  ((d.items.visible i).select (isCurrent claim)).head?

def displaced (expected : Option String) (found : Option Item) : Bool :=
  expected.any (fun k => found.all (fun c => decide (c.id ≠ k)))

def confirmed (d : Deployment) (i : Nat) (ownerId : String) (c : Item) : Bool :=
  (d.evidenceSeen i).any (fun e =>
    decide (e.itemId = c.id ∧ e.ownerId = ownerId ∧ e.sourceId = "user"))

/-- `SET confidence=%s,valid_from=%s,valid_until=%s,updated_at=%s`; the confidence is that of the
row that was read. -/
def restated (u : Upsert) (c r : Item) : Item :=
  { r with confidence := max c.confidence u.item.confidence, validFrom := u.item.validFrom,
           validUntil := u.item.validUntil, updatedAt := u.now }

def superseded (now : Instant) (r : Item) : Item :=
  { r with status := .superseded, updatedAt := now }

def newItem (ownerId : String) (u : Upsert) (previous : Option String) : Item :=
  { id := u.ident, ownerId := ownerId, kind := u.item.kind, title := strip u.item.title,
    value := strip u.item.value, confidence := u.item.confidence, status := .active,
    validFrom := u.item.validFrom, validUntil := u.item.validUntil, supersedesId := previous,
    createdAt := u.now, updatedAt := u.now }

def newEvidence (ident : Nat) (ownerId itemId : String) (u : Upsert) : Evidence :=
  { id := ident, itemId := itemId, ownerId := ownerId, sourceId := u.item.sourceId,
    sourceRecordId := u.item.sourceRecordId, observedValue := strip u.item.value,
    confidence := u.item.confidence, observedAt := u.now }

/-- `UNIQUE (item_id, source_id, source_record_id, observed_value)`, and the primary key. -/
def collides (a b : Evidence) : Bool :=
  decide (a.id = b.id ∨ a.itemId = b.itemId ∧ a.sourceId = b.sourceId ∧
    a.sourceRecordId = b.sourceRecordId ∧ a.observedValue = b.observedValue)

/-- `ORDER BY observed_at DESC,id DESC`. -/
def latestFirst (a b : Evidence) : Bool :=
  decide (b.observedAt < a.observedAt ∨ a.observedAt = b.observedAt ∧ b.id ≤ a.id)

def getOn (ownerId ident : String) (items : Table Item.id) (evidence : List Evidence) :
    Option ItemView :=
  ((items.find ident).filter (fun r => decide (r.ownerId = ownerId))).map (fun r =>
    (r, (evidence.filter (fun e =>
      decide (e.ownerId = ownerId ∧ e.itemId = ident))).mergeSort latestFirst))

/-- The next item, or the commit. -/
def Writer.next (w : Writer) : Session :=
  match w.todo with
  | [] => .committing w
  | u :: rest => .writing { w with todo := rest } u .entering

def Writer.finished (w : Writer) (u : Upsert) (written : Written) : Session :=
  Writer.next { w with done := w.done ++ [(u, written)] }

def Writer.answer (w : Writer) : Answer :=
  match w.form with
  | .upsert => .upserted (w.done.head?.map Prod.snd)
  | .batch => .batch (w.done.map Prod.snd)
  | .correct =>
    match w.done.head?.map Prod.snd with
    | some (.item view) => .corrected view
    | _ => .corrected none

section Steps

variable (hashtextextended : String → Int)

/-- `pg_advisory_xact_lock`. -/
def reserve (d : Deployment) (i : Nat) (text : String) (s : Session) : Answer × Deployment :=
  let lock := hashtextextended text
  if (d.advisory lock).all (fun j => decide (j = i)) then
    (.running, { d with advisory := Function.update d.advisory lock (some i) }.resume i s)
  else (.waiting, d)

/-- The SELECT of the active row, and what `_upsert_on` makes of it. -/
def look (d : Deployment) (i : Nat) (w : Writer) (u : Upsert) : Deployment :=
  let found := current d i (claimOf w.ownerId u.item)
  if displaced w.expected found then d.resume i (w.finished u .displaced)
  else
    match found with
    | none => d.resume i (.writing w u (.inserting none))
    | some c =>
      if w.preserveUser then d.resume i (.writing w u (.confirming c))
      else d.resume i (.writing w u (.placing c))

def confirm (d : Deployment) (i : Nat) (w : Writer) (u : Upsert) (c : Item) : Deployment :=
  if confirmed d i w.ownerId c then d.resume i (w.finished u (.preserved c))
  else d.resume i (.writing w u (.placing c))

/-- `UPDATE meemee_personal_items SET ... WHERE id=%s`: the row is the latest one, whatever its
status has become. -/
def place (d : Deployment) (i : Nat) (w : Writer) (u : Upsert) (c : Item) : Answer × Deployment :=
  if d.items.free i c.id then
    let rows := (d.items.visible i).find c.id
    if c.value = strip u.item.value then
      (.running, (rows.elim d (fun r => d.put i (restated u c r))).resume i
        (.writing w u (.observing c.id)))
    else
      (.running, (rows.elim d (fun r => d.put i (superseded u.now r))).resume i
        (.writing w u (.inserting (some c.id))))
  else (.waiting, d)

/-- The INSERT of a new row: it waits for a transaction that writes the same key, and raises when
the key is taken. -/
def insertRow (d : Deployment) (i : Nat) (w : Writer) (u : Upsert) (previous : Option String) :
    Answer × Deployment :=
  let row := newItem w.ownerId u previous
  if d.items.free i row.id && (d.entries row.claim).all (fun j => decide (j = i)) then
    if ((d.items.visible i).find row.id).isSome ∨ (current d i row.claim).isSome then
      (.raised, d.rollback i)
    else (.running, (d.put i row).resume i (.writing w u (.observing row.id)))
  else (.waiting, d)

/-- `INSERT INTO meemee_personal_evidence ... ON CONFLICT DO NOTHING`; `item_id` is a foreign
key. -/
def observe (d : Deployment) (i : Nat) (w : Writer) (u : Upsert) (ident : String) :
    Answer × Deployment :=
  let e := newEvidence d.sequence w.ownerId ident u
  if ((d.items.visible i).find ident).isNone then (.raised, d.rollback i)
  else if d.observed.any (fun o => decide (o.1 ≠ i) && collides o.2 e) then (.waiting, d)
  else
    let drawn := { d with sequence := d.sequence + 1 }.resume i (.writing w u (.rereading ident))
    if (d.evidenceSeen i).any (fun old => collides old e) then (.running, drawn)
    else (.running, { drawn with observed := drawn.observed ++ [(i, e)] })

def reread (d : Deployment) (i : Nat) (w : Writer) (u : Upsert) (ident : String) : Deployment :=
  d.resume i (w.finished u (.item (getOn w.ownerId ident (d.items.visible i) (d.evidenceSeen i))))

def write (d : Deployment) (i : Nat) (w : Writer) (u : Upsert) : Stage → Answer × Deployment
  | .entering => reserve hashtextextended d i (lockText (claimOf w.ownerId u.item))
      (.writing w u .looking)
  | .looking => (.running, look d i w u)
  | .confirming c => (.running, confirm d i w u c)
  | .placing c => place d i w u c
  | .inserting previous => insertRow d i w u previous
  | .observing ident => observe d i w u ident
  | .rereading ident => (.running, reread d i w u ident)

/-- `WHERE owner_id=%s AND id=%s AND status!='deleted'`; a row that does not meet it is not waited
for. -/
def delete (d : Deployment) (i : Nat) (ownerId ident : String) (now : Instant) :
    Answer × Deployment :=
  match ((d.items.visible i).find ident).filter (fun r =>
      decide (r.ownerId = ownerId ∧ r.status ≠ .deleted)) with
  | none => (.running, d.resume i (.deleted ident false))
  | some r =>
    if d.items.free i ident then
      (.running, (d.put i { r with status := .deleted, updatedAt := now }).resume i
        (.deleted ident true))
    else (.waiting, d)

def expirable (ownerId : String) (r : Item) : Bool :=
  decide (r.ownerId = ownerId ∧ r.status = .active) && r.validUntil.isSome

section Expire

-- `valid_until` lies at or before the clock, or is no timestamp.
variable (lapsed : String → Instant → Bool)

/-- `SELECT ... FOR UPDATE` locks the rows that it has found one after the other, and looks at each
again once it has it. -/
def lockRow (d : Deployment) (i : Nat) (ownerId : String) (clock : Instant) (ident : String)
    (todo : List String) (rows : List Item) : Answer × Deployment :=
  if d.items.free i ident then
    match ((d.items.visible i).find ident).filter (expirable ownerId) with
    | none => (.running, d.resume i (.locking ownerId clock todo rows))
    | some r => (.running, { d with items := d.items.lock i ident }.resume i
        (.locking ownerId clock todo (rows ++ [r])))
  else (.waiting, d)

/-- The items of which `valid_until` is over. -/
def overdue (clock : Instant) (rows : List Item) : List String :=
  (rows.filter (fun r => r.validUntil.any (fun stop => lapsed stop clock))).map Item.id

def expireRow (d : Deployment) (i : Nat) (ownerId : String) (clock : Instant) (ident : String)
    (todo : List String) (count : Nat) : Answer × Deployment :=
  match ((d.items.visible i).find ident).filter (fun r =>
      decide (r.ownerId = ownerId ∧ r.status = .active)) with
  | none => (.running, d.resume i (.expiring ownerId clock todo count))
  | some r =>
    if d.items.free i ident then
      (.running, (d.put i (superseded clock r)).resume i
        (.expiring ownerId clock todo (count + 1)))
    else (.waiting, d)

end Expire

section Correct

variable (validated : PersonalItemInput → Except Exc PersonalItemInput) (certain : Int)

/-- The claim that a correction makes; `draw` is the uuid of its evidence. -/
def correction (r : Item) (value draw : String) : PersonalItemInput :=
  { kind := r.kind, title := r.title, value := value, confidence := certain, sourceId := "user",
    sourceRecordId := "correction:" ++ draw, validFrom := r.validFrom, validUntil := r.validUntil }

/-- `correct` up to its upsert: `get` is a transaction of its own. -/
def readCorrection (d : Deployment) (i : Nat) (ownerId ident value draw newIdent : String)
    (now : Instant) : Answer × Deployment :=
  match (getOn ownerId ident d.items.committed d.evidence).filter (fun view =>
      decide (view.1.status = .active)) with
  | none => (.corrected none, d.resume i .idle)
  | some view =>
    match validated (correction certain view.1 value draw) with
    | .error _ => (.raised, d.resume i .idle)
    | .ok item =>
      if ownerId = "" then (.raised, d.resume i .idle)
      else (.running, d.resume i (Writer.next
        ⟨.correct, ownerId, false, some ident, [⟨item, newIdent, now⟩], []⟩))

end Correct

/-- The claims of a batch in order: `sorted({(kind, title)})`. -/
def batchTexts (ownerId : String) (items : List Upsert) : List String :=
  let before := fun (a b : String × String) => decide (a.1 < b.1 ∨ a.1 = b.1 ∧ a.2 ≤ b.2)
  (((items.map (fun u => (u.item.kind, strip u.item.title))).dedup).mergeSort before).map
    (fun pair => lockText (ownerId, pair))

def opened (d : Deployment) (i : Nat) : Op → Answer × Deployment
  | .upsert ownerId u preserveUser expected =>
    if ownerId = "" then (.raised, d)
    else (.running, d.resume i (Writer.next ⟨.upsert, ownerId, preserveUser, expected, [u], []⟩))
  | .upsertBatch ownerId items preserveUser =>
    if ownerId = "" then (.raised, d)
    else (.running, d.resume i (.reserving ⟨.batch, ownerId, preserveUser, none, items, []⟩
      (batchTexts ownerId items)))
  | .correct ownerId ident value draw newIdent now =>
    (.running, d.resume i (.correcting ownerId ident value draw newIdent now))
  | .delete ownerId ident now => (.running, d.resume i (.deleting ownerId ident now))
  | .expire ownerId clock => (.running, d.resume i (.listing ownerId clock))

variable (lapsed : String → Instant → Bool)
  (validated : PersonalItemInput → Except Exc PersonalItemInput) (certain : Int)

/-- The next statement of a session. -/
def advance (d : Deployment) (i : Nat) : Answer × Deployment :=
  match d.sessions i with
  | .idle => (.running, d)
  | .correcting ownerId ident value draw newIdent now =>
    readCorrection validated certain d i ownerId ident value draw newIdent now
  | .reserving w [] => (.running, d.resume i w.next)
  | .reserving w (text :: rest) => reserve hashtextextended d i text (.reserving w rest)
  | .writing w u stage => write hashtextextended d i w u stage
  | .committing w => (w.answer, d.commit i)
  | .deleting ownerId ident now => delete d i ownerId ident now
  | .deleted _ found => (.deleted found, d.commit i)
  | .listing ownerId clock =>
    (.running, d.resume i (.locking ownerId clock
      (((d.items.visible i).select (expirable ownerId)).map Item.id) []))
  | .locking ownerId clock [] rows =>
    (.running, d.resume i (.expiring ownerId clock (overdue lapsed clock rows) 0))
  | .locking ownerId clock (ident :: todo) rows => lockRow d i ownerId clock ident todo rows
  | .expiring _ _ [] count => (.expired count, d.commit i)
  | .expiring ownerId clock (ident :: todo) count => expireRow d i ownerId clock ident todo count

def step (d : Deployment) : Action → Answer × Deployment
  | .begin i op =>
    match d.sessions i with
    | .idle => opened d i op
    | _ => (.raised, d)
  | .go i => advance hashtextextended lapsed validated certain d i
  | .abort i => (.raised, d.rollback i)

end Steps

end Meemee.Source.PgPersonal
