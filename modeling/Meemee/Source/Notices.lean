import Meemee.Library.Table
import Meemee.Source.Values

/-!
# TakeoverNoticeQueue

`meemee/browser_notices.py`: `enqueue`, `delete_user`, and `deliver_notices` over `_claim`, `_finish` and
`_record_failure`. A pass holds the rows it claimed and goes through them; between two of its database
calls anything else may happen, and a send may take any time. What a pass finds of the takeover, the
profile and the channel, and what the channel answers, is data of the step.
-/
namespace Meemee.Source.Notices
open Library

inductive NoticeStatus where
  | queued | delivered | failed | cancelled
  deriving DecidableEq, Repr

/-- A row of `browser_takeover_notices`. -/
structure NoticeRow where
  id : String
  takeoverId : String
  sessionId : String
  userId : String
  text : Option String
  status : NoticeStatus
  attempts : Nat
  channel : Option String
  detail : Option String
  createdAt : Instant
  updatedAt : Instant
  leaseUntil : Option Instant
  deriving DecidableEq, Repr

abbrev Queue := Table NoticeRow.id

/-- The fields of a takeover that `enqueue` reads. -/
structure Takeover where
  takeoverId : String
  reason : String
  expiresAt : String
  url : String
  deriving DecidableEq, Repr

/-- `text[:n]`. -/
def upTo (n : Nat) (text : String) : String := String.ofList (text.toList.take n)

/-- `takeover["expires_at"][:16].replace("T", " ")`. -/
def shownExpiry (expiresAt : String) : String :=
  String.ofList ((expiresAt.toList.take 16).map (fun c => if c = 'T' then ' ' else c))

def noticeText (t : Takeover) : String :=
  "Meemee needs a hand in the browser: " ++ t.reason ++ "\n" ++
    "Take control here (one-time link, expires " ++ shownExpiry t.expiresAt ++ " UTC): " ++ t.url

def newNotice (t : Takeover) (sessionId userId ident : String) (now : Instant) : NoticeRow :=
  ⟨ident, t.takeoverId, sessionId, userId, some (noticeText t), .queued, 0, none, none, now, now, none⟩

def ofTakeover (takeoverId : String) (row : NoticeRow) : Bool := decide (row.takeoverId = takeoverId)

/-- `INSERT OR IGNORE`: the id is the primary key and the takeover is unique. -/
def insertNotice (s : Queue) (row : NoticeRow) : Queue :=
  if (s.select (ofTakeover row.takeoverId)).isEmpty then (s.insertOrIgnore row).1 else s

/-- `enqueue`, under the uuid it draws. -/
def enqueue (s : Queue) (t : Takeover) (sessionId userId ident : String) (now : Instant) :
    Except Exc String × Queue :=
  let inserted := insertNotice s (newNotice t sessionId userId ident now)
  match (inserted.select (ofTakeover t.takeoverId)).head? with
  | none => (.error (.typeError "'NoneType' object is not subscriptable"), s)
  | some row =>
    if row.sessionId = sessionId ∧ row.userId = userId then (.ok row.id, inserted)
    else (.error (.valueError "Existing takeover notice belongs to a different session or user"), s)

/-- The SET of `_finish`; no caller keeps the text. -/
def finished (status : NoticeStatus) (detail : String) (channel : Option String) (now : Instant)
    (row : NoticeRow) : NoticeRow :=
  { row with status := status, detail := some (upTo 500 detail), channel := channel.or row.channel,
             updatedAt := now, leaseUntil := none, text := none }

theorem finished_id (status : NoticeStatus) (detail : String) (channel : Option String) (now : Instant)
    (row : NoticeRow) : (finished status detail channel now row).id = row.id := rfl

def finish (s : Queue) (ident : String) (status : NoticeStatus) (detail : String)
    (channel : Option String) (now : Instant) : Queue :=
  s.update (fun row => decide (row.id = ident)) (finished status detail channel now)
    (finished_id status detail channel now)

/-- The SET of `_record_failure`. -/
def failedOnce (detail channel : String) (now : Instant) (row : NoticeRow) : NoticeRow :=
  { row with attempts := row.attempts + 1, detail := some (upTo 500 detail), channel := some channel,
             updatedAt := now, leaseUntil := none }

theorem failedOnce_id (detail channel : String) (now : Instant) (row : NoticeRow) :
    (failedOnce detail channel now row).id = row.id := rfl

/-- `_record_failure`: the attempts, unless the row is gone. -/
def recordFailure (s : Queue) (ident detail channel : String) (now : Instant) : Option Nat × Queue :=
  let recorded := s.update (fun row => decide (row.id = ident)) (failedOnce detail channel now)
    (failedOnce_id detail channel now)
  ((recorded.find ident).map NoticeRow.attempts, recorded)

/-- `status='queued' AND (lease_until IS NULL OR lease_until<?)`. -/
def claimable (now : Instant) (row : NoticeRow) : Bool :=
  decide (row.status = .queued) && row.leaseUntil.all (fun lease => decide (lease < now))

def leased (until_ : Instant) (row : NoticeRow) : NoticeRow := { row with leaseUntil := some until_ }

theorem leased_id (until_ : Instant) (row : NoticeRow) : (leased until_ row).id = row.id := rfl

/-- `ORDER BY created_at LIMIT ?`. -/
def claimedRows (s : Queue) (limit : Int) (now : Instant) : List NoticeRow :=
  ((s.select (claimable now)).insertionSort (fun a b => a.createdAt ≤ b.createdAt)).take
    (max 1 (min limit 100)).toNat

/-- The UPDATE of `_claim`: a lease of five minutes. -/
def lease (s : Queue) (rows : List NoticeRow) (now : Instant) : Queue :=
  s.update (fun row => rows.any (fun claimed => decide (claimed.id = row.id)))
    (leased (now + minutes 5)) (leased_id (now + minutes 5))

def deleteUser (s : Queue) (userId : String) : Queue :=
  s.delete (fun row => decide (row.userId = userId))

/-- Where a pass is with its current notice. -/
inductive Stage where
  /-- Before it reads the takeover and the profile, and sends. -/
  | looking
  /-- The send was accepted; before `_finish` as delivered. -/
  | publishing (detail channel : String)
  /-- That call raised; before `_finish` as failed. -/
  | republishing (detail channel : String)
  /-- Before `_finish` without an accepted send; `raises`: a cancelled send goes on being raised. -/
  | finishing (status : NoticeStatus) (detail : String) (channel : Option String) (raises : Bool)
  /-- Before `_record_failure`. -/
  | recording (detail channel : String)
  /-- The last attempt is recorded; before `_finish` as failed. -/
  | exhausted (detail : String)
  deriving DecidableEq, Repr

/-- What the channel answers. -/
inductive Reply where
  | accepted (detail : String)
  /-- A `ChannelError`, or a result that is not delivered. -/
  | refused (detail : String)
  /-- Any other exception. -/
  | unknown (detail : String)
  /-- `asyncio.CancelledError`. -/
  | cancelled
  deriving DecidableEq, Repr

/-- What a pass finds of a notice. -/
inductive Look where
  /-- The takeover is gone, finished or expired. -/
  | ended
  | unknownUser
  /-- An error before the send. -/
  | unsent (detail channel : String)
  | sent (reply : Reply) (channel : String)
  deriving DecidableEq, Repr

/-- What a pass does next of what it found. -/
def Look.stage (found : Look) (userId : String) : Stage :=
  match found with
  | .ended => .finishing .cancelled "takeover already ended" none false
  | .unknownUser => .finishing .failed ("unknown companion user: " ++ userId) none false
  | .unsent detail channel => .recording detail channel
  | .sent (.accepted detail) channel => .publishing detail channel
  | .sent (.refused detail) channel => .recording detail channel
  | .sent (.unknown detail) channel =>
    .finishing .failed ("delivery outcome unknown: " ++ detail) (some channel) false
  | .sent .cancelled channel =>
    .finishing .failed "delivery outcome unknown: send cancelled" (some channel) true

/-- A pass: the rows its `_claim` returned, and how far it is. -/
structure Pass where
  claimed : List NoticeRow
  position : Nat
  stage : Stage
  /-- It raised, or its host stopped. -/
  stopped : Bool
  deriving DecidableEq, Repr

/-- The notice a pass is at. -/
def Pass.here (p : Pass) : Option NoticeRow := p.claimed[p.position]?

def Pass.withStage (p : Pass) (stage : Stage) : Pass := { p with stage := stage }

def Pass.next (p : Pass) : Pass := { p with position := p.position + 1, stage := .looking }

def Pass.stop (p : Pass) : Pass := { p with stopped := true }

/-- After `_record_failure`; it raises when the row is gone. -/
def Pass.afterFailure (maxAttempts : Nat) (p : Pass) (detail : String) : Option Nat → Pass
  | none => p.stop
  | some attempts => if maxAttempts ≤ attempts then p.withStage (.exhausted detail) else p.next

/-- The database call a pass is before. `fault` is what the database raises, if anything. -/
def Pass.write (maxAttempts : Nat) (p : Pass) (ident : String) (s : Queue) (fault : Option String)
    (now : Instant) : Pass × Queue :=
  match p.stage, fault with
  | .looking, _ => (p, s)
  | .publishing detail channel, none => (p.next, finish s ident .delivered detail (some channel) now)
  | .publishing _ channel, some text =>
    (p.withStage (.republishing ("delivery accepted; completion publication outcome unknown: " ++ text) channel), s)
  | .republishing detail channel, none => (p.next, finish s ident .failed detail (some channel) now)
  | .finishing status detail channel raises, none =>
    (if raises then p.stop else p.next, finish s ident status detail channel now)
  | .recording detail channel, none =>
    (p.afterFailure maxAttempts detail (recordFailure s ident detail channel now).1,
      (recordFailure s ident detail channel now).2)
  | .exhausted detail, none => (p.next, finish s ident .failed detail none now)
  | _, some _ => (p.stop, s)

/-- The queue, and the passes over it in the order of their claims. -/
structure Hosts where
  queue : Queue
  passes : List Pass

inductive Action where
  | enqueue (t : Takeover) (sessionId userId ident : String) (now : Instant)
  | claim (limit : Int) (now : Instant)
  | look (index : Nat) (found : Look)
  | write (index : Nat) (fault : Option String) (now : Instant)
  | stop (index : Nat)
  | deleteUser (userId : String)

/-- A pass that runs, and the notice it is at. -/
def Hosts.running (s : Hosts) (index : Nat) : Option (Pass × NoticeRow) :=
  s.passes[index]?.bind (fun p => if p.stopped then none else p.here.map (fun row => (p, row)))

def Hosts.step (maxAttempts : Nat) (s : Hosts) : Action → Option (Except Exc String) × Hosts
  | .enqueue t sessionId userId ident now =>
    let run := Notices.enqueue s.queue t sessionId userId ident now
    (some run.1, { s with queue := run.2 })
  | .claim limit now =>
    let rows := claimedRows s.queue limit now
    (none, ⟨lease s.queue rows now, s.passes ++ [⟨rows, 0, .looking, false⟩]⟩)
  | .look index found =>
    match s.running index with
    | some (p, row) =>
      if p.stage = .looking then
        (none, { s with passes := s.passes.set index (p.withStage (found.stage row.userId)) })
      else (none, s)
    | none => (none, s)
  | .write index fault now =>
    match s.running index with
    | some (p, row) =>
      let run := p.write maxAttempts row.id s.queue fault now
      (none, ⟨run.2, s.passes.set index run.1⟩)
    | none => (none, s)
  | .stop index =>
    match s.passes[index]? with
    | some p => (none, { s with passes := s.passes.set index p.stop })
    | none => (none, s)
  | .deleteUser userId => (none, { s with queue := Notices.deleteUser s.queue userId })

end Meemee.Source.Notices
