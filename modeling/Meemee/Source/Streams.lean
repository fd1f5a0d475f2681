import Meemee.Source.Jobs

/-!
# The two job event streams

`job_events_socket` of `meemee/api.py` and `job_event_stream` of
`meemee/streaming.py`, as the reads they make of the job store: each `Read` step is one
store call of the loop. What a stream has sent is the list of events, in order; both
routes encode an event with the same `json.dumps` call.
-/
namespace Meemee.Source.Streams
open Library Source.Jobs

/-- Where the loop stands: its next read, or how it ended. -/
inductive Phase where
  /-- `jobs.events(job_id, after)`. -/
  | events
  /-- The status read; `drained` says that the events just read were none. -/
  | status (drained : Bool)
  /-- The SSE loop's second `jobs.events(job_id, cursor)`. -/
  | recheck
  /-- Closed with code 1000, or the SSE generator returned. -/
  | closed
  /-- The SSE generator returned after `event: error`. -/
  | notFound
  deriving DecidableEq

structure Stream where
  reader : Log.Reader JobEvent
  phase : Phase

/-- A stream that was asked for the events after `start`. -/
def Stream.openAt (start : Int) : Stream := ⟨⟨start, []⟩, .events⟩

/-- Send the events after the cursor. -/
def Stream.readEvents (st : Stream) (ident : String) (s : JobStore) : Stream :=
  ⟨st.reader.read s.events (ofJob ident), .status (s.eventsAfter ident st.reader.cursor).isEmpty⟩

/-- One read of `job_events_socket`: it closes when the status is terminal and the
events it had read before the status were none. -/
def socketRead (ident principal : String) (s : JobStore) (st : Stream) : Stream :=
  match st.phase with
  | .events => st.readEvents ident s
  | .status drained =>
    match (s.jobs.find ident).filter (fun j => decide (j.principal = some principal)) with
    | some job => { st with phase := if job.status.terminal && drained then .closed else .events }
    | none => { st with phase := .events }
  | _ => st

/-- One read of `job_event_stream`: after a terminal status the events are read again. -/
def sseRead (ident : String) (s : JobStore) (st : Stream) : Stream :=
  match st.phase with
  | .events => st.readEvents ident s
  | .status _ =>
    match s.jobs.find ident with
    | none => { st with phase := .notFound }
    | some job => { st with phase := if job.status.terminal then .recheck else .events }
  | .recheck =>
    { st with
      phase := if (s.eventsAfter ident st.reader.cursor).isEmpty then .closed else .events }
  | _ => st

end Meemee.Source.Streams
