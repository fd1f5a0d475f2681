import Meemee.Source.PersonalModel

/-!
# Scheduled reflection

`meemee/reflection_schedule.py` and `meemee/reflection.py`. A pass of `reflect_due_once` is a
process that makes one access to a store at a time, or waits for the model; `Pass.next` is what it
does next. The stores it is given are a parameter, as SQLite and PostgreSQL have their own, and so
is pydantic's check of a claim.
-/
namespace Meemee.Source.Reflection
open Library Source.PersonalModel

inductive Visibility where
  | private_ | agent | shared
  deriving DecidableEq, Repr

/-- A row of `context_records`. -/
structure ContextRecord where
  id : Int
  ownerId : String
  sourceId : String
  externalId : String
  contentHash : String
  kind : String
  title : String
  content : String
  occurredAt : String
  provenance : String
  visibility : Visibility
  cursor : Option String
  metadata : String
  ingestedAt : Instant
  deriving DecidableEq, Repr

/-- The levels a reflection reads. -/
def Visibility.eligible : Visibility → Bool
  | .private_ | .agent => true
  | .shared => false

/-- `WHERE owner_id=? AND id>? AND id<=? AND visibility IN ('private','agent')`. -/
def inBatch (ownerId : String) (after through : Int) (r : ContextRecord) : Bool :=
  decide (r.ownerId = ownerId ∧ after < r.id ∧ r.id ≤ through) && r.visibility.eligible

def earlier (a b : ContextRecord) : Prop := a.id ≤ b.id

instance : DecidableRel earlier := fun a b => inferInstanceAs (Decidable (a.id ≤ b.id))

/-- `reflection_batch` over the stored records. -/
def batchOf (records : List ContextRecord) (ownerId : String) (after through : Int) (limit : Nat) :
    List ContextRecord :=
  ((records.filter (inBatch ownerId after through)).insertionSort earlier).take
    (max 1 (min limit 100))

/-- `MAX(id)` of the owner's records. -/
def topOf (records : List ContextRecord) (ownerId : String) : Option Int :=
  ((records.filter (fun r => decide (r.ownerId = ownerId))).map ContextRecord.id).max?

/-- `owner_watermarks`, sorted by owner as `due` goes through them. -/
def watermarksOf (records : List ContextRecord) : List (String × Int) :=
  ((records.map ContextRecord.ownerId).eraseDups.insertionSort (fun a b => a ≤ b)).filterMap
    (fun owner => (topOf records owner).map (fun top => (owner, top)))

/-- What `reflection_runs` holds for an owner. -/
structure ReflectionRun where
  watermark : Int
  lastAttemptAt : Option Instant
  lastSuccessAt : Option Instant
  lastStatus : Option String
  lastResult : Option String
  deriving DecidableEq, Repr

/-- One owner's turn in `due`. -/
def isDue (interval : Int) (now : Instant) (top : Int) : Option ReflectionRun → Bool
  | none => true
  | some st =>
    if top ≤ st.watermark then false
    else match st.lastAttemptAt with
      | none => true
      | some last => decide (interval ≤ now - last)

inductive RunStatus where
  | ok | failed
  deriving DecidableEq, Repr

def RunStatus.text : RunStatus → String
  | .ok => "ok"
  | .failed => "failed"

/-- The row after `record`; the new watermark counts only if it is larger. -/
def recorded (st : Option ReflectionRun) (status : RunStatus) (encoded : String)
    (watermark : Option Int) (now : Instant) : ReflectionRun where
  watermark := match st with
    | none => watermark.getD 0
    | some run => max run.watermark (watermark.getD run.watermark)
  lastAttemptAt := some now
  lastSuccessAt := if status = .ok then some now else st.bind ReflectionRun.lastSuccessAt
  lastStatus := some status.text
  lastResult := some encoded

/-- The stores of a pass. -/
structure ReflectionStores (σ : Type) where
  ownerWatermarks : σ → List (String × Int)
  reflectionBatch : σ → String → Int → Int → Nat → List ContextRecord
  state : σ → String → Option ReflectionRun
  upsertBatch : String → List (PersonalItemInput × String) → Bool → Instant →
    Txn σ Exc (List Bool)
  /-- The upsert of `record`, once the result is encoded. -/
  putRun : String → RunStatus → String → Option Int → Instant → Txn σ Exc Unit

variable {σ : Type} (stores : ReflectionStores σ)

def record (ownerId : String) (status : RunStatus) (result : Json) (watermark : Option Int)
    (now : Instant) : Txn σ Exc Unit := do
  let encoded ← Txn.ofExcept
    (Json.dumps { sortKeys := true, defaultStr := true, allowNan := false } result)
  stores.putRun ownerId status encoded watermark now

structure ReflectionClaim where
  kind : String
  title : String
  value : String
  confidence : Int
  sourceId : String
  sourceRecordId : String
  validFrom : Option String
  validUntil : Option String
  deriving DecidableEq, Repr

/-- The checks before the model is asked. -/
def checkRecords (ownerId : String) (records : List ContextRecord) : Except Exc Unit :=
  if ownerId = "" ∨ records.any (fun r => decide (r.ownerId ≠ ownerId)) then
    .error (.valueError "reflection records must belong to the requested owner")
  else if records.any (fun r => !r.visibility.eligible) then
    .error (.valueError "reflection record visibility must be private or agent")
  else .ok ()

def allowedKinds : List String :=
  ["goal", "relationship", "project", "preference", "routine", "constraint"]

/-- The claim is of an allowed kind and cites a record that was supplied. -/
def supported (records : List ContextRecord) (claim : ReflectionClaim) : Bool :=
  allowedKinds.contains claim.kind &&
    records.any (fun r => decide (r.sourceId = claim.sourceId ∧ r.externalId = claim.sourceRecordId))

/-- The items to publish and the number of rejected claims. One claim that pydantic refuses fails
the batch. -/
def prepare (input : ReflectionClaim → Except String PersonalItemInput)
    (records : List ContextRecord) :
    List ReflectionClaim → Except String (List PersonalItemInput × Nat)
  | [] => .ok ([], 0)
  | claim :: rest =>
    if supported records claim then do
      let value ← input claim
      let (items, rejected) ← prepare input records rest
      return (value :: items, rejected)
    else do
      let (items, rejected) ← prepare input records rest
      return (items, rejected + 1)

/-- How an owner's turn ended. -/
inductive Outcome where
  | failed (error : String)
  | ok (considered accepted rejected : Nat) (processed : Int)
  deriving DecidableEq, Repr

/-- `f"{type(exc).__name__}: {str(exc)[:300]}"`. -/
def errorText (e : Exc) : String :=
  (Worker.ofExc e).label ++ ": " ++ String.ofList (e.text.toList.take 300)

/-- How far the batch went. A full one may leave evidence unseen. -/
def processed (records : List ContextRecord) (top : Int) : Int :=
  if records.length = 50 then ((records.map ContextRecord.id).max?).getD top else top

/-- What is recorded of an outcome. -/
def Outcome.info (trace : Json) : Outcome → Json
  | .failed error => .obj [("error", .str error), ("model_trace", trace)]
  | .ok considered accepted rejected _ =>
    .obj [("considered", .int considered), ("accepted", .int accepted), ("rejected", .int rejected),
      ("model_trace", trace)]

def Outcome.status : Outcome → RunStatus
  | .failed _ => .failed
  | .ok .. => .ok

def Outcome.watermark : Outcome → Option Int
  | .failed _ => none
  | .ok _ _ _ processed => some processed

/-- What the model came back with: an exception (its own, or of the check of its answer), or
claims. -/
inductive ModelReply where
  | raised (error : String)
  | claims (claims : List ReflectionClaim)

/-- Where a pass stands: before the census, in one of its two scans of `due`, before an owner's
guard, and inside it. -/
inductive PassPhase where
  | starting
  | scanning (left : List (String × Int)) (found : List String)
  | claiming
  | rescanning (owner : String) (left : List (String × Int)) (found : List String)
  | loading (owner : String)
  | collecting (owner : String) (after : Int)
  | thinking (owner : String) (records : List ContextRecord)
  | publishing (owner : String) (records : List ContextRecord) (items : List PersonalItemInput)
      (rejected : Nat)
  | recording (owner : String) (outcome : Outcome)
  | ended

structure Pass where
  interval : Int
  watermarks : List (String × Int)
  /-- The due owners whose turn has not come. -/
  queue : List String
  phase : PassPhase

def Pass.start (interval : Int) : Pass := ⟨interval, [], [], .starting⟩

def Pass.at (p : Pass) (phase : PassPhase) : Pass := { p with phase := phase }

/-- `owner_guard` is held for this owner. -/
def Pass.holds (p : Pass) : Option String :=
  match p.phase with
  | .rescanning owner _ _ | .loading owner | .collecting owner _ | .thinking owner _
  | .publishing owner _ _ _ | .recording owner _ => some owner
  | .starting | .scanning _ _ | .claiming | .ended => none

/-- The owner's highest record in the census of the pass. -/
def Pass.top (p : Pass) (owner : String) : Int := (p.watermarks.lookup owner).getD 0

/-- What is up to others: the clock, the ids `uuid4` draws, the model, and whether the guard of the
next owner is free. -/
structure PassTurn where
  now : Instant
  draws : Nat → String
  model : ModelReply
  trace : Json
  free : Bool

/-- The items with the ids drawn for them. -/
def drawn (draws : Nat → String) (items : List PersonalItemInput) :
    List (PersonalItemInput × String) :=
  items.zipIdx.map (fun entry => (entry.1, draws entry.2))

/-- The owner's records are there: no model is needed for none. -/
def Pass.considered (p : Pass) (owner : String) (records : List ContextRecord) : Pass :=
  match records with
  | [] => p.at (.recording owner (.ok 0 0 0 (processed [] (p.top owner))))
  | _ =>
    match checkRecords owner records with
    | .ok _ => p.at (.thinking owner records)
    | .error e => p.at (.recording owner (.failed (errorText e)))

/-- The model has answered. -/
def Pass.answered (p : Pass) (input : ReflectionClaim → Except String PersonalItemInput)
    (owner : String) (records : List ContextRecord) : ModelReply → Pass
  | .raised error => p.at (.recording owner (.failed error))
  | .claims claims =>
    match prepare input records claims with
    | .error error => p.at (.recording owner (.failed error))
    | .ok (items, rejected) => p.at (.publishing owner records items rejected)

/-- `upsert_batch` has returned or raised. -/
def Pass.published (p : Pass) (owner : String) (records : List ContextRecord) (rejected : Nat) :
    Except Exc (List Bool) → Pass
  | .error e => p.at (.recording owner (.failed (errorText e)))
  | .ok preserved =>
    p.at (.recording owner (.ok records.length (preserved.count false)
      (rejected + preserved.count true) (processed records (p.top owner))))

/-- `record` has returned, and the guard is given back; or it raised, out of the pass. -/
def Pass.recorded (p : Pass) : Except Exc Unit → Pass
  | .ok _ => p.at .claiming
  | .error _ => p.at .ended

/-- The next access of a pass. -/
def Pass.next (input : ReflectionClaim → Except String PersonalItemInput) (p : Pass)
    (turn : PassTurn) (s : σ) : Pass × σ :=
  match p.phase with
  | .starting =>
    ({ p with
        watermarks := stores.ownerWatermarks s
        phase := .scanning (stores.ownerWatermarks s) [] }, s)
  | .scanning [] found => ({ p with queue := found, phase := .claiming }, s)
  | .scanning ((owner, top) :: left) found =>
    (p.at (.scanning left
      (if isDue p.interval turn.now top (stores.state s owner) then found ++ [owner] else found)), s)
  | .claiming =>
    match p.queue with
    | [] => (p.at .ended, s)
    | owner :: rest =>
      ({ p with
          queue := rest
          phase := if turn.free then .rescanning owner p.watermarks [] else .claiming }, s)
  | .rescanning owner [] found =>
    (p.at (if found.contains owner then .loading owner else .claiming), s)
  | .rescanning owner ((other, top) :: left) found =>
    (p.at (.rescanning owner left
      (if isDue p.interval turn.now top (stores.state s other) then found ++ [other] else found)), s)
  | .loading owner =>
    (p.at (.collecting owner (((stores.state s owner).map ReflectionRun.watermark).getD 0)), s)
  | .collecting owner after =>
    (p.considered owner (stores.reflectionBatch s owner after (p.top owner) 50), s)
  | .thinking owner records => (p.answered input owner records turn.model, s)
  | .publishing owner records items rejected =>
    let (result, t) := stores.upsertBatch owner (drawn turn.draws items) true turn.now s
    (p.published owner records rejected result, t)
  | .recording owner outcome =>
    let (result, t) := record stores owner outcome.status (outcome.info turn.trace)
      outcome.watermark turn.now s
    (p.recorded result, t)
  | .ended => (p, s)

section SQLite

open Library.Ownership Source.PurgeTargets Source.Rows
open Source.Runs (insertRow)

def contextColumns : List String :=
  ["source_id", "external_id", "content_hash", "kind", "title", "content", "occurred_at",
    "provenance", "visibility", "cursor", "metadata", "ingested_at"]

def Visibility.ofText : String → Visibility
  | "private" => .private_
  | "agent" => .agent
  | _ => .shared

def contextText (name : String) (r : StoredRow) : String :=
  (textOf (column contextColumns name r)).getD ""

/-- `_record`. -/
def contextRecordOf (r : StoredRow) : ContextRecord where
  id := integerOf (r.key.headD .null)
  ownerId := r.owner.getD ""
  sourceId := contextText "source_id" r
  externalId := contextText "external_id" r
  contentHash := contextText "content_hash" r
  kind := contextText "kind" r
  title := contextText "title" r
  content := contextText "content" r
  occurredAt := contextText "occurred_at" r
  provenance := contextText "provenance" r
  visibility := Visibility.ofText (contextText "visibility" r)
  cursor := textOf (column contextColumns "cursor" r)
  metadata := contextText "metadata" r
  ingestedAt := integerOf (column contextColumns "ingested_at" r)

def contextRecords (s : Stores) : List ContextRecord :=
  (s.tables .contextRecords).rows.map contextRecordOf

def runColumns : List String :=
  ["watermark", "last_attempt_at", "last_success_at", "last_status", "last_result"]

def reflectionRunOf (r : StoredRow) : ReflectionRun where
  watermark := integerOf (column runColumns "watermark" r)
  lastAttemptAt := instantOf (column runColumns "last_attempt_at" r)
  lastSuccessAt := instantOf (column runColumns "last_success_at" r)
  lastStatus := textOf (column runColumns "last_status" r)
  lastResult := textOf (column runColumns "last_result" r)

def ReflectionRun.cells (run : ReflectionRun) : List Cell :=
  [.integer run.watermark, nullableInstant run.lastAttemptAt, nullableInstant run.lastSuccessAt,
    nullable run.lastStatus, nullable run.lastResult]

def reflectionState (s : Stores) (ownerId : String) : Option ReflectionRun :=
  ((s.tables .reflectionRuns).find [.text ownerId]).map reflectionRunOf

/-- `INSERT INTO reflection_runs ... ON CONFLICT(owner_id) DO UPDATE`. -/
def putReflectionRun (ownerId : String) (status : RunStatus) (encoded : String)
    (watermark : Option Int) (now : Instant) : StoreTxn Unit := do
  let st ← Txn.read (fun s => reflectionState s ownerId)
  let run := Reflection.recorded st status encoded watermark now
  if st.isSome then
    updateRows .reflectionRuns runColumns (fun r => decide (r.key = [.text ownerId]))
      (runColumns.zip run.cells)
  else insertRow .reflectionRuns rfl ⟨[.text ownerId], some ownerId, none, run.cells⟩

def sqliteStores : ReflectionStores Stores where
  ownerWatermarks := fun s => watermarksOf (contextRecords s)
  reflectionBatch := fun s => batchOf (contextRecords s)
  state := reflectionState
  upsertBatch := upsertBatch
  putRun := putReflectionRun

end SQLite

end Meemee.Source.Reflection
