import Meemee.Library.Log
import Meemee.Library.Txn
import Meemee.Source.Datetime
import Meemee.Source.JsonLoads

/-!
# The audit chain and its anchors

`meemee/audit.py` and `meemee/audit_anchor.py`, and for PostgreSQL `meemee_persist_pg/audit.py` and the
anchors of `meemee_persist_pg/operator_tools.py`. The columns of a row are text to `verify`; a TEXT column
of SQLite can also hold a BLOB, PostgreSQL stores a timestamp and a `jsonb` value. SHA-256, the signature
of an anchor and what a `jsonb` column gives back are parameters.
-/
namespace Meemee.Source.Audit
open Library

/-- The columns a row's hash is about. -/
structure Fields (χ τ μ : Type) where
  occurredAt : τ
  actorId : χ
  action : χ
  resource : χ
  outcome : χ
  metadata : μ
  deriving DecidableEq

structure Entry (χ τ μ : Type) where
  fields : Fields χ τ μ
  previousHash : String
  entryHash : String
  deriving DecidableEq

/-- The row of `audit_chain_base`. -/
structure Base where
  sequence : Nat
  entryHash : String
  deriving DecidableEq, Repr

structure Chain (χ τ μ : Type) where
  log : Log (Entry χ τ μ)
  base : Option Base

def Chain.empty {χ τ μ : Type} : Chain χ τ μ := ⟨Log.empty, none⟩

/-- How a store writes its columns as text. -/
structure Columns (χ τ μ : Type) where
  text : χ → String
  occurred : τ → String
  metadata : μ → String

/-- `"0" * 64`. -/
def ZERO : String := String.ofList (List.replicate 64 '0')

variable {χ τ μ : Type}

/-- The hash that the first stored row follows. -/
def Chain.start (c : Chain χ τ μ) : String :=
  match c.base with
  | none => ZERO
  | some base => base.entryHash

/-- The number of the last row that was pruned. -/
def Chain.floor (c : Chain χ τ μ) : Nat :=
  match c.base with
  | none => 0
  | some base => base.sequence

/-- The hash the next row follows: of the last row, else of the base. -/
def Chain.last (c : Chain χ τ μ) : String :=
  match c.log.entries.getLast? with
  | none => c.start
  | some e => e.2.entryHash

/-- The text that is hashed. -/
def canonical (columns : Columns χ τ μ) (previous : String) (row : Fields χ τ μ) : String :=
  previous ++ "\x1f" ++ columns.occurred row.occurredAt ++ "\x1f" ++ columns.text row.actorId ++
    "\x1f" ++ columns.text row.action ++ "\x1f" ++ columns.text row.resource ++ "\x1f" ++
    columns.text row.outcome ++ "\x1f" ++ columns.metadata row.metadata

def hash (sha256 : String → String) (columns : Columns χ τ μ) (previous : String)
    (row : Fields χ τ μ) : String :=
  sha256 (canonical columns previous row)

/-- The truth value of a JSON value in Python. -/
def truthy : Json → Bool
  | .null => false
  | .bool value => value
  | .int value => decide (value ≠ 0)
  | .float (.finite repr) => decide (repr ≠ "0.0" ∧ repr ≠ "-0.0")
  | .float _ => true
  | .str value => decide (value ≠ "")
  | .arr items => !items.isEmpty
  | .obj fields => !fields.isEmpty
  | .object _ => true

/-- `metadata or {}`. -/
def orEmpty (metadata : Json) : Json := if truthy metadata then metadata else .obj []

/-- `json.dumps(metadata or {}, sort_keys=True, separators=(",", ":"))`. -/
def encodeMetadata (metadata : Json) : Except Exc String :=
  Json.dumps { sortKeys := true, compact := true } (orEmpty metadata)

/-- What the anchors raise. -/
inductive AuditExc where
  /-- Of `json.dumps` or the database. -/
  | database (e : Exc)
  | valueError (text : String)
  | runtimeError (text : String)
  | fileExistsError
  deriving DecidableEq, Repr

abbrev ChainTxn (χ τ μ : Type) := Txn (Chain χ τ μ) AuditExc

def brokenText (broken : Option Nat) : String :=
  match broken with
  | none => "None"
  | some n => toString n

/-- Append a row after the last one: its number. -/
def appendRow (sha256 : String → String) (columns : Columns χ τ μ) (row : Fields χ τ μ) :
    ChainTxn χ τ μ Nat := do
  let previous ← Txn.read (fun c => c.last)
  let digest := hash sha256 columns previous row
  let fresh ← Txn.read (fun c => c.log.entries.all (fun e => decide (e.2.entryHash ≠ digest)))
  Txn.require fresh (.database (.integrityError "UNIQUE constraint failed: audit_log.entry_hash"))
  let sequence ← Txn.read (fun c => c.log.next)
  Txn.write (fun c => { c with log := c.log.append ⟨row, previous, digest⟩ })
  return sequence

/-- The signed part of an anchor. A document that has no integer for its sequence, or no
string for its hash, has none here. -/
structure Anchor where
  format : String
  sequence : Option Int
  entryHash : Option String
  entryOccurredAt : Option String
  anchoredAt : String
  deriving DecidableEq, Repr

structure Document where
  anchor : Anchor
  signature : String
  deriving DecidableEq, Repr

structure Report where
  signatureValid : Bool
  headMatches : Bool
  chainValid : Bool
  brokenSequence : Option Nat
  anchor : Anchor
  deriving DecidableEq, Repr

/-- `status == "pass"`. -/
def Report.passes (r : Report) : Bool := r.signatureValid && r.headMatches && r.chainValid

/-- The stored row, else the base, of a number. -/
def Chain.recorded (c : Chain χ τ μ) (sequence : Int) : Option String :=
  match c.log.entries.find? (fun e => decide ((e.1 : Int) = sequence)) with
  | some e => some e.2.entryHash
  | none => (c.base.filter (fun base => decide ((base.sequence : Int) = sequence))).map
      (fun base => base.entryHash)

/-- Whether an anchor's number carries its hash; the anchor of an empty chain names no row. -/
def Chain.headMatches (c : Chain χ τ μ) (anchor : Anchor) : Bool :=
  match anchor.sequence with
  | none => false
  | some sequence =>
    match c.recorded sequence with
    | some entryHash => decide (anchor.entryHash = some entryHash)
    | none => decide (sequence = 0)

/-- The anchor of a head. -/
def newAnchor (sequence : Nat) (entryHash : String) (occurredAt : Option String) (now : Datetime) :
    Anchor :=
  { format := "meemee-audit-anchor-v1", sequence := some sequence, entryHash := some entryHash,
    entryOccurredAt := occurredAt, anchoredAt := now.isoformat }

/-- The checks every anchor is created under, and the signed document. -/
def signedAnchor (sign : String → Anchor → String) (signingKey : String) (exists_ : Bool)
    (verdict : Bool × Option Nat) (anchor : Except AuditExc Anchor) : Except AuditExc Document :=
  if signingKey.utf8ByteSize < 32 then
    .error (.valueError "audit anchor signing key must be at least 32 bytes")
  else if exists_ then .error .fileExistsError
  else if verdict.1 then anchor.map (fun anchor => ⟨anchor, sign signingKey anchor⟩)
  else .error (.valueError ("audit chain is invalid at sequence " ++ brokenText verdict.2))

def report (sign : String → Anchor → String) (signingKey : String) (document : Document)
    (headMatches : Bool) (verdict : Bool × Option Nat) : Report :=
  { signatureValid := decide (document.signature = sign signingKey document.anchor),
    headMatches := headMatches, chainValid := verdict.1, brokenSequence := verdict.2,
    anchor := document.anchor }

/-- Delete the rows through a number and record where the chain goes on. -/
def Chain.pruned (c : Chain χ τ μ) (sequence : Nat) (entryHash : String) : Chain χ τ μ :=
  ⟨c.log.deleteThrough sequence, some ⟨sequence, entryHash⟩⟩

def Chain.deleted (c : Chain χ τ μ) (sequence : Nat) : Nat :=
  (c.log.entries.filter (fun e => decide (e.1 ≤ sequence))).length

/-- The anchor of a report that passed: its number and its hash. -/
def checkPrune (r : Report) : Except AuditExc (Nat × String) :=
  if r.passes then
    match r.anchor.sequence, r.anchor.entryHash with
    | some sequence, some entryHash =>
      if sequence < 1 then .error (.valueError "cannot prune to an empty-chain anchor")
      else .ok (sequence.toNat, entryHash)
    | some _, none => .error (.valueError "cannot prune to an empty-chain anchor")
    | none, _ => .error (.valueError "audit anchor verification failed")
  else .error (.valueError "audit anchor verification failed")

/-- A prune does not move the base back. -/
def Chain.checkBase (c : Chain χ τ μ) (sequence : Nat) : Except AuditExc Unit :=
  if c.base.any (fun base => decide (sequence < base.sequence)) then
    .error (.valueError "anchor predates the current chain base")
  else .ok ()

def checkRetained (verdict : Bool × Option Nat) : ChainTxn χ τ μ Unit :=
  Txn.require verdict.1
    (.runtimeError ("audit chain invalid after prune at " ++ brokenText verdict.2))

namespace SQLite

/-- What a TEXT column keeps: text, or the bytes of a BLOB. -/
inductive Cell where
  | text (value : String)
  | blob (bytes : List UInt8)
  deriving DecidableEq

/-- One byte in the `repr` of a `bytes` that stands between `quote`s. -/
def reprByte (quote : Char) (byte : UInt8) : List Char :=
  let c := Char.ofNat byte.toNat
  if c = quote ∨ c = '\\' then ['\\', c]
  else if c = '\t' then ['\\', 't']
  else if c = '\n' then ['\\', 'n']
  else if c = '\r' then ['\\', 'r']
  else if byte < 32 ∨ 127 ≤ byte then
    ['\\', 'x', Json.hexDigit (byte.toNat / 16), Json.hexDigit (byte.toNat % 16)]
  else [c]

/-- `repr` of a `bytes`: between double quotes if it holds only single ones. -/
def reprBytes (bytes : List UInt8) : String :=
  let quote := if bytes.contains 39 && !bytes.contains 34 then '"' else '\''
  String.ofList ('b' :: quote :: bytes.flatMap (reprByte quote) ++ [quote])

/-- What an f-string makes of a column. -/
def Cell.printed : Cell → String
  | .text value => value
  | .blob bytes => reprBytes bytes

/-- What `json.dumps` makes of a column. -/
def Cell.json : Cell → Except AuditExc String
  | .text value => .ok value
  | .blob _ => .error (.database (.typeError "Object of type bytes is not JSON serializable"))

def columns : Columns Cell Cell Cell := ⟨Cell.printed, Cell.printed, Cell.printed⟩

abbrev TextChain := Chain Cell Cell Cell

/-- The loop of `verify`, at a hash and the number that must come next. -/
def verifyRows (sha256 : String → String) :
    String → Nat → List (Nat × Entry Cell Cell Cell) → Bool × Option Nat
  | _, _, [] => (true, none)
  | previous, expected, (sequence, row) :: rest =>
    if sequence ≠ expected then (false, some expected)
    else if row.previousHash ≠ previous ∨ row.entryHash ≠ hash sha256 columns previous row.fields then
      (false, some sequence)
    else verifyRows sha256 row.entryHash (expected + 1) rest

def verify (sha256 : String → String) (c : TextChain) : Bool × Option Nat :=
  verifyRows sha256 c.start (c.floor + 1) c.log.entries

/-- `append`. `fault` is what the database raises, if anything: a lock it could not get, a
full disk. The number of a row that is rolled back is drawn again. -/
def append (sha256 : String → String) (now : Datetime) (actor action resource outcome : String)
    (metadata : Json) (fault : Except Exc Unit) : ChainTxn Cell Cell Cell Nat := do
  let encoded ← Txn.ofExcept ((encodeMetadata metadata).mapError .database)
  Txn.atomically do
    Txn.ofExcept (fault.mapError .database)
    appendRow sha256 columns ⟨.text now.isoformat, .text actor, .text action, .text resource,
      .text outcome, .text encoded⟩

/-- `create_anchor`: the last stored row, else the zero hash. -/
def createAnchor (sha256 : String → String) (sign : String → Anchor → String) (signingKey : String)
    (exists_ : Bool) (now : Datetime) (c : TextChain) : Except AuditExc Document :=
  signedAnchor sign signingKey exists_ (verify sha256 c)
    (match c.log.entries.getLast? with
    | some e => e.2.fields.occurredAt.json.map (fun occurred =>
        newAnchor e.1 e.2.entryHash (some occurred) now)
    | none => .ok (newAnchor 0 ZERO none now))

def verifyAnchor (sha256 : String → String) (sign : String → Anchor → String) (signingKey : String)
    (document : Document) (c : TextChain) : Report :=
  report sign signingKey document (c.headMatches document.anchor) (verify sha256 c)

/-- The transaction of `prune_to_anchor`: the number of rows deleted. -/
def deleteThrough (head : Nat × String) : ChainTxn Cell Cell Cell Nat :=
  Txn.atomically do
    let deleted ← Txn.read (fun c => c.deleted head.1)
    Txn.write (fun c => c.pruned head.1 head.2)
    return deleted

/-- `prune_to_anchor`. It reads the base before its transaction begins. -/
def pruneToAnchor (sha256 : String → String) (sign : String → Anchor → String) (signingKey : String)
    (document : Document) : ChainTxn Cell Cell Cell Nat := do
  let checked ← Txn.read (verifyAnchor sha256 sign signingKey document)
  let head ← Txn.ofExcept (checkPrune checked)
  let based ← Txn.read (fun c => c.checkBase head.1)
  Txn.ofExcept based
  let deleted ← deleteThrough head
  let verdict ← Txn.read (verify sha256)
  checkRetained verdict
  return deleted

end SQLite

namespace Postgres

/-- `json.loads` reads the text as a float. -/
def numberText (repr : String) : Bool :=
  match JsonLoads.readNumber repr.toList with
  | some (.float (.finite text), []) => decide (text = repr)
  | _ => false

mutual

/-- A value that `json.loads` makes. -/
def wellFormed : Json → Bool
  | .float (.finite repr) => numberText repr
  | .arr items => wellFormedItems items
  | .obj fields => decide (fields.map Prod.fst).Nodup && wellFormedFields fields
  | .object _ => false
  | _ => true

def wellFormedItems : List Json → Bool
  | [] => true
  | item :: rest => wellFormed item && wellFormedItems rest

def wellFormedFields : List (String × Json) → Bool
  | [] => true
  | (_, value) :: rest => wellFormed value && wellFormedFields rest

end

mutual

/-- How many floats a value holds. -/
def floatCount : Json → Nat
  | .float _ => 1
  | .arr items => floatCountItems items
  | .obj fields => floatCountFields fields
  | _ => 0

def floatCountItems : List Json → Nat
  | [] => 0
  | item :: rest => floatCount item + floatCountItems rest

def floatCountFields : List (String × Json) → Nat
  | [] => 0
  | (_, value) :: rest => floatCount value + floatCountFields rest

end

/-- The value of a `jsonb` column as `json.loads` reads it; its objects have one order of keys. The
column keeps decimals, and endlessly many are read as one float: `decimals` says for each float which
of them is stored, 0 for the one its `repr` writes. -/
structure Jsonb where
  value : Json
  sorted : value.sortKeys = value
  wellFormed : wellFormed value = true
  decimals : List Nat
  counted : decimals.length = floatCount value

/-- The text `_encode` writes of a stored value; it raises on none. -/
def Jsonb.encoded (stored : Jsonb) : String := (encodeMetadata stored.value).toOption.getD ""

def columns : Columns String Datetime Jsonb := ⟨id, Datetime.isoformat, Jsonb.encoded⟩

abbrev TypedChain := Chain String Datetime Jsonb

/-- The loop of `verify`; numbers may have gaps. -/
def verifyRows (sha256 : String → String) (floor : Nat) :
    String → List (Nat × Entry String Datetime Jsonb) → Bool × Option Nat
  | _, [] => (true, none)
  | previous, (sequence, row) :: rest =>
    if sequence ≤ floor then (false, some sequence)
    else if row.previousHash ≠ previous ∨ row.entryHash ≠ hash sha256 columns previous row.fields then
      (false, some sequence)
    else verifyRows sha256 floor row.entryHash rest

def verify (sha256 : String → String) (c : TypedChain) : Bool × Option Nat :=
  verifyRows sha256 c.floor c.start c.log.entries

/-- `append`. The hash is over the encoded metadata, the row holds what the column makes of
it. A number drawn for a row that is rolled back is lost. -/
def append (jsonb : Json → Except Exc Jsonb) (sha256 : String → String) (now : Datetime)
    (actor action resource outcome : String) (metadata : Json) (fault : Except Exc Unit)
    (drawn : Bool) : ChainTxn String Datetime Jsonb Nat := fun c =>
  let body : ChainTxn String Datetime Jsonb Nat := do
    let encoded ← Txn.ofExcept ((encodeMetadata metadata).mapError .database)
    let stored ← Txn.ofExcept ((jsonb (orEmpty metadata)).mapError .database)
    Txn.ofExcept (fault.mapError .database)
    let previous ← Txn.read (fun c => c.last)
    let digest := sha256 (canonical ⟨id, Datetime.isoformat, id⟩ previous
      ⟨now, actor, action, resource, outcome, encoded⟩)
    let fresh ← Txn.read (fun c => c.log.entries.all (fun e => decide (e.2.entryHash ≠ digest)))
    Txn.require fresh (.database (.integrityError "duplicate key value violates unique constraint"))
    let sequence ← Txn.read (fun c => c.log.next)
    let row : Entry String Datetime Jsonb :=
      ⟨⟨now, actor, action, resource, outcome, stored⟩, previous, digest⟩
    Txn.write (fun c => { c with log := c.log.append row })
    return sequence
  match Txn.atomically body c with
  | (.ok sequence, t) => (.ok sequence, t)
  | (.error e, t) => (.error e, if drawn then { t with log := t.log.skip } else t)

/-- `create_anchor`: the last stored row, else the base, else the zero hash. -/
def createAnchor (sha256 : String → String) (sign : String → Anchor → String) (signingKey : String)
    (exists_ : Bool) (now : Datetime) (c : TypedChain) : Except AuditExc Document :=
  signedAnchor sign signingKey exists_ (verify sha256 c)
    (match c.log.entries.getLast?, c.base with
    | some e, _ => .ok (newAnchor e.1 e.2.entryHash (some e.2.fields.occurredAt.isoformat) now)
    | none, some base => .ok (newAnchor base.sequence base.entryHash none now)
    | none, none => .ok (newAnchor 0 ZERO none now))

def verifyAnchor (sha256 : String → String) (sign : String → Anchor → String) (signingKey : String)
    (document : Document) (c : TypedChain) : Report :=
  match document.anchor.sequence with
  | none =>
    { signatureValid := decide (document.signature = sign signingKey document.anchor),
      headMatches := false, chainValid := false, brokenSequence := none, anchor := document.anchor }
  | some _ => report sign signingKey document (c.headMatches document.anchor) (verify sha256 c)

/-- The transaction of `prune_to_anchor`: it reads the base, compares the head again and verifies
the rest. -/
def deleteAnchored (sha256 : String → String) (anchor : Anchor) (head : Nat × String) :
    ChainTxn String Datetime Jsonb Nat :=
  Txn.atomically do
    let based ← Txn.read (fun c => c.checkBase head.1)
    Txn.ofExcept based
    let same ← Txn.read (fun c => c.headMatches anchor)
    Txn.require same (.valueError "anchored entry changed before prune")
    let deleted ← Txn.read (fun c => c.deleted head.1)
    Txn.write (fun c => c.pruned head.1 head.2)
    let verdict ← Txn.read (verify sha256)
    checkRetained verdict
    return deleted

def pruneToAnchor (sha256 : String → String) (sign : String → Anchor → String) (signingKey : String)
    (document : Document) : ChainTxn String Datetime Jsonb Nat := do
  let checked ← Txn.read (verifyAnchor sha256 sign signingKey document)
  let head ← Txn.ofExcept (checkPrune checked)
  deleteAnchored sha256 checked.anchor head

end Postgres

end Meemee.Source.Audit
