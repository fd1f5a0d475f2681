import Meemee.Source.Jobs
import Meemee.Source.Sse

/-!
# Following a job from the client

`stream_events` and `stream_ws` of `meemee_client/client.py` and `meemee_client/aio.py`, with
`meemee_client/_ws.py`, and the frames that `meemee/streaming.py` and `meemee/api.py` send. A loop
is given what comes of each connection it opens, as a function of its request. Pydantic's
`JobEvent.model_validate` is a parameter.
-/
namespace Meemee.Source.ClientStreams
open Source Source.Sse Source.Jobs

def kindText : EventKind → String
  | .queued => "queued"
  | .running => "running"
  | .retry => "retry"
  | .done => "done"
  | .failed => "failed"
  | .cancelRequested => "cancel_requested"
  | .cancelled => "cancelled"

/-- A row of `jobs.events`, with the time as `default=str` writes it. -/
structure Row where
  sequence : Int
  jobId : String
  kind : EventKind
  payload : List (String × Json)
  createdAt : String

def Row.data (row : Row) : Json :=
  .obj [("sequence", .int row.sequence), ("job_id", .str row.jobId),
    ("kind", .str (kindText row.kind)), ("payload", .obj row.payload),
    ("created_at", .str row.createdAt)]

/-- `json.dumps(event, separators=(",", ":"), default=str)`, also the frame of the WebSocket. -/
def Row.text (row : Row) : Except Exc String :=
  Json.dumps { compact := true, defaultStr := true } row.data

/-- The frame of the SSE stream. -/
def Row.frame (row : Row) : Except Exc String := do
  let data ← row.text
  return "id: " ++ toString row.sequence ++ "\nevent: " ++ kindText row.kind ++ "\ndata: " ++ data ++
    "\n\n"

/-- The object that a payload column holds, as the operations hand it to `json.dumps`. -/
def payloadJson (isoformat : Instant → String) : EventPayload → List (String × Json)
  | .runAt due => [("run_at", match due with
    | some t => .str (isoformat t)
    | none => .null)]
  | .attempt number none => [("attempt", .int number)]
  | .attempt number (some worker) => [("attempt", .int number), ("worker", .str worker)]
  | .result value => [("result", value)]
  | .error text => [("error", match text with
    | some text => .str text
    | none => .null)]
  | .empty => []

/-- A row as `JobStore.events` returns it, with its payload read by `json.loads`. -/
def readRow (isoformat : Instant → String) (entry : Nat × Jobs.JobEvent) : Option Row := do
  let text ← (Json.dumps {} (.obj (payloadJson isoformat entry.2.payload))).toOption
  match JsonLoads.loads text with
  | some (.obj payload) =>
    some ⟨entry.1, entry.2.jobId, entry.2.kind, payload, isoformat entry.2.createdAt⟩
  | _ => none

def heartbeat (cursor : Int) : String := ": heartbeat " ++ toString cursor ++ "\n\n"

/-- The frame after which the SSE stream of a job that is gone returns. -/
def notFoundFrame : String := "event: error\ndata: \x7b\"detail\":\"job not found\"\x7d\n\n"

structure JobEvent (τ : Type) where
  sequence : Int
  jobId : String
  kind : String
  payload : List (String × Json)
  createdAt : τ

/-- `TERMINAL_EVENT_KINDS`. -/
def terminalKinds : List String := ["done", "failed", "cancelled"]

/-- Why a `StreamError` is raised: an error frame, data that is no JSON, JSON that is no event, or
bytes that are no UTF-8. -/
inductive StreamFault where
  | errorFrame (data : String)
  | malformed (data : String)
  | unparseable (data : Json)
  | nonUtf8

inductive ApiErrorKind where
  | badRequest | authentication | permissionDenied | notFound | other
  deriving DecidableEq, Repr

structure ApiError where
  kind : ApiErrorKind
  message : String
  statusCode : Nat
  detail : Option String
  deriving DecidableEq, Repr

inductive Refusal where
  | streamError (fault : StreamFault)
  | apiError (error : ApiError)

/-- How a stream ends: it returns or it raises. -/
inductive Outcome where
  | returned
  | raised (refusal : Refusal)
  | networkError (message : String)

/-- The loop's cursor, with what it yielded and what it passed to `on_heartbeat`. -/
structure Progress (τ : Type) where
  cursor : Int
  yielded : List (JobEvent τ) := []
  heartbeats : List String := []

/-- What follows when a connection is over: another try with a new credential, the end, a failure
that the budget is asked for, or nothing yet. -/
inductive Reaction where
  | refresh
  | stop (refusal : Option Refusal)
  | failure (text : String)
  | waiting

variable {τ : Type} (validate : Json → Option (JobEvent τ)) (replaced : Bytes → String)

def parseEvent (text : String) : Except StreamFault (JobEvent τ × Bool) :=
  match JsonLoads.loads text with
  | none => .error (.malformed text)
  | some data =>
    match validate data with
    | none => .error (.unparseable data)
    | some event => .ok (event, decide (event.kind ∈ terminalKinds))

structure Request where
  after : Int
  lastEventId : Option Int

/-- The request of a cursor; `if cursor` leaves the header out at zero. -/
def request (cursor : Int) : Request := ⟨cursor, if cursor = 0 then none else some cursor⟩

/-- How a connection ends: the body is complete, the transport raises, the status is an error,
or nothing has come yet. -/
inductive Ending where
  | closed
  | lost (text : String)
  | refused (error : ApiError)
  | waiting

/-- The chunks of a response, and how it ends. -/
structure Connection where
  chunks : List Bytes
  ending : Ending

/-- `_handle_stream_message` and the body of the loop. -/
def readMessage (g : Progress τ) : SSEMessage → Progress τ × Option Reaction
  | .comment text => ({ g with heartbeats := g.heartbeats ++ [text] }, none)
  | .event name data _ =>
    if name = "error" then (g, some (.stop (some (.streamError (.errorFrame data)))))
    else match parseEvent validate data with
      | .error fault => (g, some (.stop (some (.streamError fault))))
      | .ok (event, terminal) =>
        ({ g with cursor := max g.cursor event.sequence, yielded := g.yielded ++ [event] },
          if terminal then some (.stop none) else none)

def readMessages (g : Progress τ) : List SSEMessage → Progress τ × Option Reaction
  | [] => (g, none)
  | message :: rest =>
    match readMessage validate g message with
    | (g, none) => readMessages g rest
    | stopped => stopped

def readChunks (parser : SSEParser) (g : Progress τ) : List Bytes → Progress τ × Option Reaction
  | [] => (g, none)
  | chunk :: rest =>
    match readMessages validate g (parser.feed replaced chunk).2 with
    | (g, none) => readChunks (parser.feed replaced chunk).1 g rest
    | stopped => stopped

def Ending.reaction : Ending → Reaction
  | .closed => .stop none
  | .lost text => .failure text
  | .refused error => .stop (some (.apiError error))
  | .waiting => .waiting

/-- One connection of the SSE loops. -/
def hear (_refreshed : Bool) (g : Progress τ) (connection : Connection) : Progress τ × Reaction :=
  match readChunks validate replaced {} g connection.chunks with
  | (g, some reaction) => (g, reaction)
  | (g, none) => (g, connection.ending.reaction)

inductive Frame where
  | text (content : String)
  | binary (content : Bytes)

/-- How an open connection ends: `ConnectionClosed` with the code and the reason received, an
error of the transport, or nothing has come yet. -/
inductive SocketEnding where
  | closed (code : Option Int) (reason text : String)
  | broken (text : String)
  | waiting

/-- What comes of `connect`: another status than 101, no connection, or frames and an ending. -/
inductive Socket where
  | rejected (status : Nat) (text : String)
  | unreachable (text : String)
  | opened (frames : List Frame) (ending : SocketEnding)

def parseFrame : Frame → Except StreamFault (JobEvent τ × Bool)
  | .text content => parseEvent validate content
  | .binary content =>
    match String.fromUTF8? content.toByteArray with
    | none => .error .nonUtf8
    | some text => parseEvent validate text

def rejectionError (jobId : String) (code : Option Int) (reason : String) : Option ApiError :=
  let error (kind : ApiErrorKind) (status : Nat) (code : String) : Option ApiError :=
    some ⟨kind, "WebSocket for job " ++ jobId ++ " closed with " ++ code ++ ": " ++
      (if reason = "" then "no reason given" else reason), status, some reason⟩
  if code = some 4400 then error .badRequest 400 "4400"
  else if code = some 4401 then error .authentication 401 "4401"
  else if code = some 4403 then error .permissionDenied 403 "4403"
  else if code = some 4404 then error .notFound 404 "4404"
  else none

def handshakeError (jobId : String) (status : Nat) : Option ApiError :=
  let message := "WebSocket handshake for job " ++ jobId ++ " was rejected with HTTP " ++
    toString status
  if status = 400 then some ⟨.badRequest, message, 400, none⟩
  else if status = 401 then some ⟨.authentication, message, 401, none⟩
  else if status = 403 then
    some ⟨.permissionDenied, message ++ " (credential, scope or job ownership)", 403, none⟩
  else if status = 404 then some ⟨.notFound, message, 404, none⟩
  else if 400 ≤ status ∧ status < 500 ∧ status ≠ 408 ∧ status ≠ 429 then
    some ⟨.other, message, status, none⟩
  else none

/-- The loop over the frames; events up to the cursor are left out. -/
def readFrames (g : Progress τ) : List Frame → Progress τ × Option Reaction
  | [] => (g, none)
  | frame :: rest =>
    match parseFrame validate frame with
    | .error fault => (g, some (.stop (some (.streamError fault))))
    | .ok (event, terminal) =>
      if event.sequence ≤ g.cursor then readFrames g rest
      else
        let g := { g with cursor := event.sequence, yielded := g.yielded ++ [event] }
        if terminal then (g, some (.stop none)) else readFrames g rest

/-- A refusal that a new credential may help, one that is raised, or a failure. -/
def refused (mayRefresh : Bool) (error : Option ApiError) (failure : Reaction) : Reaction :=
  if mayRefresh then .refresh
  else match error with
    | some error => .stop (some (.apiError error))
    | none => failure

def SocketEnding.reaction (jobId : String) (canRefresh refreshed : Bool) : SocketEnding → Reaction
  | .closed code reason text =>
    refused (decide (code = some 4401) && !refreshed && canRefresh) (rejectionError jobId code reason)
      (if code = some 1000 then .stop none else .failure text)
  | .broken text => .failure text
  | .waiting => .waiting

/-- One connection of the WebSocket loops. -/
def hearSocket (jobId : String) (canRefresh refreshed : Bool) (g : Progress τ) :
    Socket → Progress τ × Reaction
  | .rejected status text =>
    (g, refused (decide (status = 401) && !refreshed && canRefresh) (handshakeError jobId status)
      (.failure text))
  | .unreachable text => (g, .failure text)
  | .opened frames ending =>
    match readFrames validate g frames with
    | (g, some reaction) => (g, reaction)
    | (g, none) => (g, ending.reaction jobId canRefresh refreshed)

/-- The `after` of `ws_url`. -/
def socketAfter (cursor : Int) : Int := max cursor 0

/-- A stream as far as it has come: each reconnection waited some seconds before it. -/
structure Report (τ : Type) where
  progress : Progress τ
  waits : List Nat
  outcome : Option Outcome

/-- The message of `NetworkError`. -/
def exhausted (what jobId : String) (cursor : Int) (text : String) : String :=
  what ++ " for " ++ jobId ++ " interrupted and the reconnect budget is exhausted " ++
    "(last delivered event id " ++ toString cursor ++ "): " ++ text

section Loop

variable {ρ κ : Type} (what jobId : String) (ask : Int → ρ)
  (hears : Bool → Progress τ → κ → Progress τ × Reaction) (reconnect : Bool)

/-- The `while True` loop, with `auth_refreshed`, `reconnects_left` and `backoff`. -/
def follow : Bool → Int → Nat → Progress τ → List (ρ → κ) → Report τ
  | _, _, _, g, [] => ⟨g, [], none⟩
  | refreshed, left, backoff, g, connect :: later =>
    let (g, reaction) := hears refreshed g (connect (ask g.cursor))
    match reaction with
    | .refresh => follow true left backoff g later
    | .stop none => ⟨g, [], some .returned⟩
    | .stop (some refusal) => ⟨g, [], some (.raised refusal)⟩
    | .waiting => ⟨g, [], none⟩
    | .failure text =>
      if !reconnect || decide (left ≤ 0) then
        ⟨g, [], some (.networkError (exhausted what jobId g.cursor text))⟩
      else
        let rest := follow refreshed (left - 1) (backoff * 2) g later
        { rest with waits := min backoff 30 :: rest.waits }

end Loop

def streamEvents (jobId : String) (after : Int) (reconnect : Bool) (maxReconnects : Int)
    (connections : List (Request → Connection)) : Report τ :=
  follow "job stream" jobId request (hear validate replaced) reconnect false maxReconnects 1
    { cursor := max after 0 } connections

/-- `AsyncJobsResource.stream_events`. -/
def asyncStreamEvents (jobId : String) (after : Int) (reconnect : Bool) (maxReconnects : Int)
    (connections : List (Request → Connection)) : Report τ :=
  follow "job stream" jobId request (hear validate replaced) reconnect false maxReconnects 1
    { cursor := max after 0 } connections

def streamWs (jobId : String) (canRefresh : Bool) (after : Int) (reconnect : Bool)
    (maxReconnects : Int) (connections : List (Int → Socket)) : Report τ :=
  follow "job WebSocket" jobId socketAfter (hearSocket validate jobId canRefresh) reconnect false
    maxReconnects 1 { cursor := max after 0 } connections

/-- `AsyncJobsResource.stream_ws`. -/
def asyncStreamWs (jobId : String) (canRefresh : Bool) (after : Int) (reconnect : Bool)
    (maxReconnects : Int) (connections : List (Int → Socket)) : Report τ :=
  follow "job WebSocket" jobId socketAfter (hearSocket validate jobId canRefresh) reconnect false
    maxReconnects 1 { cursor := max after 0 } connections

end Meemee.Source.ClientStreams

/-! `job_event_stream` of `meemee/streaming.py` with its heartbeats: what it yields, given what each
round of its loop reads. `asyncio.sleep` returns; floats are a type with a zero, a sum and an order. -/
namespace Meemee.Source.Streaming
open Source Source.Jobs Source.ClientStreams

inductive Yield where
  | event (row : Row)
  | heartbeat (cursor : Int)
  /-- The frame before the `return` for a job that is gone. -/
  | notFound

def Yield.text : Yield → Except Exc String
  | .event row => row.frame
  | .heartbeat cursor => .ok (ClientStreams.heartbeat cursor)
  | .notFound => .ok notFoundFrame

/-- All that was yielded, as the response sends it. -/
def streamText : List Yield → Except Exc String
  | [] => .ok ""
  | first :: rest => do
    let head ← first.text
    let tail ← streamText rest
    return head ++ tail

/-- What a round reads: `jobs.events(job_id, cursor)`, the status of `jobs.get(job_id)`, and
`jobs.events(job_id, cursor)` again. -/
structure Round where
  events : Int → List Row
  status : Option JobStatus
  later : Int → List Row

section Clock

variable {φ : Type} [Zero φ] [Add φ] [LE φ] [DecidableLE φ] (pollSeconds heartbeatSeconds : φ)

/-- The loop from a cursor on. -/
def rounds : Int → φ → List Round → List Yield
  | _, _, [] => []
  | cursor, sinceHeartbeat, round :: more =>
    let events := round.events cursor
    let cursor := (events.getLast?.map Row.sequence).getD cursor
    let sinceHeartbeat := if events.isEmpty then sinceHeartbeat else 0
    events.map .event ++
      match round.status with
      | none => [.notFound]
      | some status =>
        if status.terminal && (round.later cursor).isEmpty then []
        else if heartbeatSeconds ≤ sinceHeartbeat + pollSeconds then
          .heartbeat cursor :: rounds cursor 0 more
        else rounds cursor (sinceHeartbeat + pollSeconds) more

def jobEventStream (after : Int) (reads : List Round) : List Yield :=
  rounds pollSeconds heartbeatSeconds after 0 reads

end Clock

end Meemee.Source.Streaming
