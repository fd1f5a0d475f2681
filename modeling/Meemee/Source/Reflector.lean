import Meemee.Source.Reflection

/-!
# PersonalModelReflector

`reflect_records` of `meemee/reflection.py`, with the checks of `PersonalItemInput` and `upsert_batch`
of `meemee/personal_model.py`. The records are given, and what the model came back with: an exception
(its own, or of the check of its answer), or any claims. `datetime.fromisoformat`, SHA-256 and the
texts of pydantic are parameters.
-/
namespace Meemee.Source.Reflector
open Library Source.PersonalModel Source.Reflection Source.PurgeTargets
open Source.PgJobs (strip)

/-- What a call is given besides its arguments. -/
structure Setting where
  /-- `validity_instant(value).isoformat()`. -/
  instantText : String → Option String
  /-- The confidence 1.0. -/
  certain : Int
  /-- The text of a `ValidationError`. -/
  refusal : PersonalItemInput → String
  sha256 : String → String

section Checks

variable (setting : Setting)

/-- A text field of at most `longest` characters that is not blank. -/
def readableText (longest : Nat) (text : String) : Bool :=
  decide (1 ≤ text.length ∧ text.length ≤ longest ∧ strip text ≠ "")

def readableFields (raw : PersonalItemInput) : Bool :=
  allowedKinds.contains raw.kind && readableText 240 raw.title && readableText 10000 raw.value &&
    decide (0 ≤ raw.confidence ∧ raw.confidence ≤ setting.certain) &&
    readableText 240 raw.sourceId && readableText 240 raw.sourceRecordId

def normalizedTime : Option String → Option (Option String)
  | none => some none
  | some value => (setting.instantText value).map some

def orderedTime : Option String → Option String → Bool
  | some from_, some until_ => from_ = "" || until_ = "" || decide (from_ < until_)
  | _, _ => true

/-- `PersonalItemInput(...)`. -/
def validated (raw : PersonalItemInput) : Except Exc PersonalItemInput :=
  match normalizedTime setting raw.validFrom, normalizedTime setting raw.validUntil with
  | some from_, some until_ =>
    if readableFields setting raw && orderedTime from_ until_ then
      .ok { raw with validFrom := from_, validUntil := until_ }
    else .error (.valueError (setting.refusal raw))
  | _, _ => .error (.valueError (setting.refusal raw))

def itemOf (claim : ReflectionClaim) : PersonalItemInput :=
  ⟨claim.kind, claim.title, claim.value, claim.confidence, claim.sourceId, claim.sourceRecordId,
    claim.validFrom, claim.validUntil⟩

/-- The eligible claims with their items, and the number of the others. -/
def prepare (records : List ContextRecord) :
    List ReflectionClaim → Except Exc (List (ReflectionClaim × PersonalItemInput) × Nat)
  | [] => .ok ([], 0)
  | claim :: rest =>
    if supported records claim then do
      let value ← validated setting (itemOf claim)
      let (prepared, rejected) ← prepare records rest
      return ((claim, value) :: prepared, rejected)
    else do
      let (prepared, rejected) ← prepare records rest
      return (prepared, rejected + 1)

end Checks

/-- An item with the uuid that would be drawn for it and its reading of the clock. -/
structure Draw where
  item : PersonalItemInput
  ident : String
  now : Instant
  deriving DecidableEq, Repr

def upsertEach (ownerId : String) (preserveUser : Bool) : List Draw → StoreTxn (List Written)
  | [] => pure []
  | draw :: rest => do
    let written ← upsertExpecting ownerId draw.item draw.ident preserveUser none draw.now
    let others ← upsertEach ownerId preserveUser rest
    return written :: others

/-- `upsert_batch`, with what each item came to. -/
def upsertBatch (ownerId : String) (draws : List Draw) (preserveUser : Bool) :
    StoreTxn (List Written) := do
  Txn.require (decide (ownerId ≠ "")) (.valueError "owner is required")
  Txn.atomically (upsertEach ownerId preserveUser draws)

/-- `zip(..., strict=True)`. -/
def zipStrict {α β : Type} (first : List α) (second : List β) : Except Exc (List (α × β)) :=
  if second.length < first.length then .error (.valueError "zip() argument 2 is shorter than argument 1")
  else if first.length < second.length then
    .error (.valueError "zip() argument 2 is longer than argument 1")
  else .ok (first.zip second)

/-- `f"{claim.source_id}\0{claim.source_record_id}"`. -/
def evidenceText (claim : ReflectionClaim) : String :=
  claim.sourceId ++ String.singleton (Char.ofNat 0) ++ claim.sourceRecordId

/-- What was published and its evidence hash, and how many claims were left to the user. -/
def settle (sha256 : String → String) :
    List ((ReflectionClaim × PersonalItemInput) × Written) → List (Written × String) × Nat
  | [] => ([], 0)
  | (_, .preserved _) :: rest => ((settle sha256 rest).1, (settle sha256 rest).2 + 1)
  | (prepared, written) :: rest =>
    ((written, sha256 (evidenceText prepared.1)) :: (settle sha256 rest).1, (settle sha256 rest).2)

structure Reflected where
  considered : Nat
  accepted : Nat
  rejected : Nat
  items : List (Written × String)
  deriving DecidableEq

/-- The uuids and clock readings of a batch. -/
def drawsOf (draws : Nat → String × Instant) (items : List PersonalItemInput) : List Draw :=
  items.zipIdx.map (fun entry => ⟨entry.1, (draws entry.2).1, (draws entry.2).2⟩)

/-- What is done with the claims of the model. -/
def publish (setting : Setting) (ownerId : String) (records : List ContextRecord)
    (draws : Nat → String × Instant) (claims : List ReflectionClaim) : StoreTxn Reflected := do
  let ready ← Txn.ofExcept (prepare setting records claims)
  let published ← upsertBatch ownerId (drawsOf draws (ready.1.map Prod.snd)) true
  let pairs ← Txn.ofExcept (zipStrict ready.1 published)
  let settled := settle setting.sha256 pairs
  return ⟨records.length, settled.1.length, ready.2 + settled.2, settled.1⟩

def reflectRecords (setting : Setting) (ownerId : String) (records : List ContextRecord)
    (draws : Nat → String × Instant) (reply : Except Exc (List ReflectionClaim)) :
    StoreTxn Reflected :=
  match records with
  | [] => pure ⟨0, 0, 0, []⟩
  | _ => do
    Txn.ofExcept (checkRecords ownerId records)
    let claims ← Txn.ofExcept reply
    publish setting ownerId records draws claims

end Meemee.Source.Reflector
