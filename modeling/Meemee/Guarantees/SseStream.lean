import Meemee.Guarantees.StreamCompleteness
import Meemee.Guarantees.SseFrames

/-!
# The event stream and its frames

The SSE loop beside every other use of the store: it has sent each event up to its cursor once and
in order, each in a frame that a parser reads back, and it ends only where nothing is left and the
job is terminal or gone. A job's id is drawn once, so that a job that is gone stays gone.
-/
namespace Meemee.Guarantees.SseStream
open Library Library.History Source Source.Jobs Source.Streams List
open Source.Sse Source.ClientStreams Guarantees.JobMoves
open Guarantees.StreamCompleteness Guarantees.SseFrames Guarantees.JsonLoading
open Guarantees.JsonText (encodable)

/-- The id that a call draws for a new job. -/
def enqueued : StoreCall → Option String
  | .enqueue ident _ _ _ _ _ _ => some ident
  | _ => none

/-- The result that a call stores in an event. -/
def finished : StoreCall → Option Json
  | .finish _ result _ => given result
  | _ => none

/-- What a call makes of the store: one row changed with its event, or rows added or gone. -/
inductive Done (call : StoreCall) (s : JobStore) : JobStore → Prop where
  | same : Done call s s
  | published {ident : String} {f : Job → Job} {keeps : ∀ j, (f j).id = j.id} {event : JobEvent}
      {job : Job} (found : s.jobs.find ident = some job) (about : event.jobId = ident)
      (given : ∀ value, event.payload = .result value →
        finished call = some value ∧ encodable {} value = true) :
      Done call s (publish s ident f keeps event)
  | dropped (p : Job → Bool) : Done call s (s.drop p)
  | inserted (job : Job) (fresh : s.jobs.find job.id = none) (now : Instant)
      (drawn : enqueued call = some job.id) : Done call s (inserted s job fresh now)
  | purged (principal : String) (now : Instant) :
      Done call s ((tombstoneHeld s principal now).drop (ownedBy principal))

theorem encodable_of_dumps {value : Json} {text : String} (written : Json.dumps {} value = .ok text) :
    encodable {} value = true := by
  have answers := JsonText.dumps_answers {} value
  rw [written] at answers
  exact answers

variable {call : StoreCall} {ident principal : String} {now : Instant} {s t : JobStore}
  {st : Stream} {start : Int} {action : Action}

theorem publishTerminal_done {result : Option Json} {error : Option PyStr} {told : Bool}
    (given : result = none ∨ finished call = result)
    (run : publishTerminal ident result error now s = (.ok told, t)) : Done call s t := by
  obtain ⟨e, raised, -⟩ | ⟨job, found, ⟨-, -, rfl⟩ | ⟨-, -, -, ended⟩⟩ := publishTerminal_cases run
  · cases raised
  · exact .dropped _
  · obtain ⟨value, text, bound, rfl, written, -, rfl⟩ | ⟨bound, -, rfl⟩ := ended
    · refine .published found rfl (fun other same => ?_)
      cases same
      exact ⟨given.resolve_left (Option.some_ne_none _), encodable_of_dumps written⟩
    · exact .published found rfl nofun

theorem cancelFrom_done {source : JobStatus} {told : Bool}
    (run : cancelFrom source ident now s = (.ok told, t)) : Done call s t := by
  by_cases matched : ∃ job, s.jobs.find ident = some job ∧ job.status = source
  · obtain ⟨job, found, same⟩ := matched
    rw [cancelFrom_matched found same] at run
    cases run
    exact .published found rfl nofun
  · rw [cancelFrom_unmatched (fun job found same => matched ⟨job, found, same⟩)] at run
    cases run
    exact .same

theorem requestCancel_done {status : Option JobStatus}
    (run : requestCancel ident now s = (.ok status, t)) : Done call s t := by
  cases found : s.jobs.find ident with
  | none =>
    rw [requestCancel_unknown found] at run
    cases run
    exact .same
  | some job =>
    by_cases queued : job.status = .queued
    · rw [requestCancel_queued found queued] at run
      cases run
      exact .published found rfl nofun
    · by_cases running : job.status = .running
      · rw [requestCancel_running found running] at run
        cases run
        exact .published found rfl nofun
      · rw [requestCancel_settled found queued running] at run
        cases run
        exact .same

theorem call_done (call : StoreCall) (s : JobStore) : Done call s (JobMoves.step s call).2 := by
  cases run : JobMoves.step s call with
  | mk result t =>
    cases result with
    | error e =>
      obtain rfl := call_raised run
      exact .same
    | ok value =>
      cases call with
      | enqueue ident goal runAt budget principal now clock =>
        obtain ⟨result, done, rfl⟩ := Txn.answer_ok run
        rcases enqueue_cases ident goal runAt budget.attempts principal now clock s with
          taken | ⟨e, refused⟩
        · rw [taken] at done
          obtain ⟨fresh, -, rfl⟩ := insertJob_returned done
          exact .inserted _ fresh now rfl
        · rw [refused] at done
          cases done
      | claim now =>
        obtain ⟨result, done, rfl⟩ := Txn.answer_ok run
        rcases claim_returned done with ⟨-, rfl⟩ | ⟨job, -, found, -, -, rfl⟩
        · exact .same
        · exact .published found rfl nofun
      | finish ident result now =>
        obtain ⟨told, done, rfl⟩ := Txn.answer_ok run
        exact publishTerminal_done (.inr rfl) done
      | fail ident error now =>
        obtain ⟨told, done, rfl⟩ := Txn.answer_ok run
        exact publishTerminal_done (.inl rfl) done
      | requestCancel ident now =>
        obtain ⟨status, done, rfl⟩ := Txn.answer_ok run
        exact requestCancel_done done
      | cancel ident now =>
        obtain ⟨told, done, rfl⟩ := Txn.answer_ok run
        exact cancelFrom_done done
      | settlePurge ident =>
        rw [JobMoves.step] at run
        obtain ⟨told, done, rfl⟩ := Txn.answer_ok run
        cases done
        exact .dropped _
      | cancelRequestedJob ident now =>
        obtain ⟨told, done, rfl⟩ := Txn.answer_ok run
        exact cancelFrom_done done
      | purgePrincipal principal now =>
        obtain ⟨counts, done, rfl⟩ := Txn.answer_ok run
        obtain rfl := purgePrincipal_returned done
        exact .purged principal now
      | sweepPurges staleBefore =>
        rw [JobMoves.step] at run
        obtain ⟨count, done, rfl⟩ := Txn.answer_ok run
        cases done
        exact .dropped _

/-- The job is gone or its status is terminal. -/
def Settled (s : JobStore) (ident : String) : Prop :=
  ∀ job, s.jobs.find ident = some job → job.status.terminal = true

theorem find_drop_none {p : Job → Bool} (absent : s.jobs.find ident = none) :
    (s.drop p).jobs.find ident = none := by
  simp only [JobStore.drop, Table.find_delete, absent, Option.filter_none]

theorem absent_stays (done : Done call s t) (other : enqueued call ≠ some ident)
    (absent : s.jobs.find ident = none) : t.jobs.find ident = none := by
  cases done with
  | same => exact absent
  | dropped p => exact find_drop_none absent
  | @published changed f keeps event job found about given =>
    have apart : ident ≠ changed := by
      rintro rfl
      cases absent.symm.trans found
    simp only [publish, Table.find_update_key, if_neg apart, absent]
  | inserted job fresh now drawn =>
    have apart : job.id ≠ ident := fun same => other (same ▸ drawn)
    simp only [inserted, Table.find_insert, if_neg apart, absent]
  | purged principal now =>
    refine find_drop_none ?_
    simp only [tombstoneHeld, Table.find_update, absent, Option.map_none]

theorem terminal_still {job after : Job} {kind : EventKind} (terminal : job.status.terminal = true)
    (edge : JobEdge job kind after) : False := by
  have others : job.status ≠ .queued ∧ job.status ≠ .running ∧ job.status ≠ .cancelRequested := by
    refine ⟨?_, ?_, ?_⟩ <;> (intro same; rw [same] at terminal; cases terminal)
  cases edge with
  | claim now queued => exact others.1 queued
  | finish text now running live => exact others.2.1 running
  | fail error now running live => exact others.2.1 running
  | cancelQueued now queued => exact others.1 queued
  | requestCancel now running => exact others.2.1 running
  | cancelRequested now requested => exact others.2.2 requested

/-- A settled job stays settled, whatever is called, unless its id is drawn again. -/
theorem settled_stays {value : Value} (orphans : NoOrphans s) (other : enqueued call ≠ some ident)
    (settled : Settled s ident) (run : JobMoves.step s call = (.ok value, t)) :
    Settled t ident := by
  have done := call_done call s
  rw [run] at done
  have move := (call_moves orphans run).moves ident
  intro later found
  cases before : s.jobs.find ident with
  | none => cases (absent_stays done other before).symm.trans found
  | some job =>
    have terminal := settled job before
    rw [view_some before, view_some found] at move
    generalize logOf t ident = log at move
    cases move with
    | stays => exact terminal
    | published _ _ _ number event edge => exact (terminal_still terminal edge).elim
    | tombstoned _ _ now held =>
      rcases of_decide_eq_true held with same | same <;> (rw [same] at terminal; cases terminal)

/-- A payload that `json.dumps` wrote. -/
def Plain : EventPayload → Prop
  | .result value => Loadable value
  | _ => True

def Written (s : JobStore) : Prop := ∀ e ∈ s.events.entries, Plain e.2.payload

/-- A result that `json.dumps` writes: floats have their text, no dictionary a name twice. -/
def Genuine (call : StoreCall) : Prop :=
  ∀ value, finished call = some value → encodable {} value = true → Loadable value

theorem written_stays (done : Done call s t) (genuine : Genuine call) (written : Written s) :
    Written t := by
  cases done with
  | same => exact written
  | dropped p => exact fun e mem => written e (mem_of_mem_filter mem)
  | @published changed f keeps event job found about given =>
    intro e mem
    rcases mem_append.mp mem with old | new
    · exact written e old
    · obtain rfl := mem_singleton.mp new
      cases held : event.payload with
      | result value =>
        obtain ⟨drawn, encodes⟩ := given value held
        exact genuine value drawn encodes
      | runAt due | attempt number worker | error text | empty => trivial
  | inserted job fresh now drawn =>
    intro e mem
    rcases mem_append.mp mem with old | new
    · exact written e old
    · obtain rfl := mem_singleton.mp new
      trivial
  | purged principal now =>
    exact fun e mem => written e (mem_of_mem_filter (mem_of_mem_filter mem))

/-- The row of an entry, as `JobStore.events` returns it. -/
def rowOf (isoformat : Instant → String) (entry : Nat × Jobs.JobEvent) : Row :=
  ⟨entry.1, entry.2.jobId, entry.2.kind, payloadJson isoformat entry.2.payload,
    isoformat entry.2.createdAt⟩

theorem plain_readable (isoformat : Instant → String) {entry : Nat × Jobs.JobEvent}
    (plain : Plain entry.2.payload) : Readable (rowOf isoformat entry) := by
  unfold Readable rowOf
  cases held : entry.2.payload with
  | result value =>
    rw [held] at plain
    exact ⟨by simp [payloadJson], plain, trivial⟩
  | runAt due => cases due <;> exact ⟨by simp [payloadJson], trivial, trivial⟩
  | attempt number worker =>
    cases worker with
    | none => exact ⟨by simp [payloadJson], trivial, trivial⟩
    | some worker => exact ⟨by simp [payloadJson], trivial, trivial, trivial⟩
  | error text => cases text <;> exact ⟨by simp [payloadJson], trivial, trivial⟩
  | empty => exact ⟨by simp [payloadJson], trivial⟩

theorem readRow_plain (isoformat : Instant → String) {entry : Nat × Jobs.JobEvent}
    (plain : Plain entry.2.payload) : readRow isoformat entry = some (rowOf isoformat entry) := by
  have readable : Loadable (.obj (payloadJson isoformat entry.2.payload)) :=
    plain_readable isoformat plain
  obtain ⟨text, written⟩ := JsonPrinted.dumps_ok {} readable rfl
  have loaded := dumps_loaded readable rfl written
  unfold readRow
  simp only [written, Except.toOption, Option.bind_eq_bind, Option.bind_some, loaded]
  rfl

/-- The id that an action draws. -/
def drawn : Action → Option String
  | .store call => enqueued call
  | _ => none

/-- How often a run draws an id. -/
def draws (ident : String) (run : List Action) : Nat := (run.filterMap drawn).count ident

theorem draws_cons (ident : String) (action : Action) (rest : List Action) :
    draws ident (action :: rest) =
      draws ident rest + if drawn action = some ident then 1 else 0 := by
  unfold draws
  cases made : drawn action with
  | none => simp [filterMap_cons_none made]
  | some other => simp [filterMap_cons_some made, count_cons]

/-- Before the job's id is drawn it is not there, and after that nothing brings a settled job back. -/
def Pending (ident : String) (s : State) (run : List Action) : Prop :=
  (draws ident run ≤ 1 ∧ s.store.jobs.find ident = none ∧ s.sse.phase ≠ .recheck ∧
      s.sse.phase ≠ .closed) ∨
    draws ident run = 0 ∧
      (s.sse.phase = .recheck ∨ s.sse.phase = .closed → Settled s.store ident)

theorem sseRead_absent (absent : s.jobs.find ident = none)
    (early : st.phase ≠ .recheck ∧ st.phase ≠ .closed) :
    (sseRead ident s st).phase ≠ .recheck ∧ (sseRead ident s st).phase ≠ .closed := by
  unfold sseRead
  cases phase : st.phase with
  | events => exact ⟨by simp [Stream.readEvents], by simp [Stream.readEvents]⟩
  | status drained => simp [absent]
  | recheck => exact absurd phase early.1
  | closed => exact absurd phase early.2
  | notFound => simp [phase]

theorem sseRead_settled (before : st.phase = .recheck ∨ st.phase = .closed → Settled s ident)
    (late : (sseRead ident s st).phase = .recheck ∨ (sseRead ident s st).phase = .closed) :
    Settled s ident := by
  unfold sseRead at late
  cases phase : st.phase with
  | events => simp [phase, Stream.readEvents] at late
  | status drained =>
    cases found : s.jobs.find ident with
    | none => simp [phase, found] at late
    | some job =>
      by_cases terminal : job.status.terminal = true
      · intro other same
        cases found.symm.trans same
        exact terminal
      · simp [phase, found, terminal] at late
  | recheck => exact before (.inl phase)
  | closed => exact before (.inr phase)
  | notFound => simp [phase] at late

theorem pending_step {s : State} {rest : List Action} (sound : Sound start ident s)
    (pending : Pending ident s (action :: rest)) :
    Pending ident (StreamCompleteness.step ident principal s action).2 rest := by
  simp only [Pending, draws_cons] at pending
  cases action with
  | socketRead => simpa [drawn, Pending, StreamCompleteness.step] using pending
  | sseRead =>
    rcases pending with ⟨once, absent, early⟩ | ⟨never, settled⟩
    · exact .inl ⟨once, absent, sseRead_absent absent early⟩
    · exact .inr ⟨never, sseRead_settled settled⟩
  | store call =>
    rcases pending with ⟨once, absent, early⟩ | ⟨never, settled⟩
    · by_cases mine : drawn (.store call) = some ident
      · rw [if_pos mine] at once
        refine .inr ⟨by omega, ?_⟩
        rintro (recheck | closed)
        · exact absurd recheck early.1
        · exact absurd closed early.2
      · rw [if_neg mine] at once
        exact .inl ⟨once, absent_stays (call_done call s.store) mine absent, early⟩
    · by_cases mine : drawn (.store call) = some ident
      · rw [if_pos mine] at never
        omega
      · rw [if_neg mine] at never
        refine .inr ⟨never, fun late => ?_⟩
        cases run : JobMoves.step s.store call with
        | mk result t =>
          have same : (StreamCompleteness.step ident principal s (.store call)).2.store = t := by
            simp only [StreamCompleteness.step, run]
          rw [same]
          cases result with
          | error e =>
            obtain rfl := call_raised run
            exact settled late
          | ok value => exact settled_stays sound.orphans mine (settled late) run

theorem gone_empty (orphans : NoOrphans s) (absent : s.jobs.find ident = none) (cursor : Int) :
    s.eventsAfter ident cursor = [] := by
  have none : logOf s ident = [] := orphans ident absent
  exact filter_eq_nil_iff.mpr (fun e mem => by
    rw [logOf] at none
    rw [none] at mem
    cases mem)

theorem sseRead_notFound (opened : st.phase ≠ .notFound)
    (gone : (sseRead ident s st).phase = .notFound) :
    s.jobs.find ident = none ∧ (sseRead ident s st).reader = st.reader := by
  unfold sseRead at gone ⊢
  split at gone
  next => cases gone
  next =>
    split at gone
    next absent => exact ⟨absent, rfl⟩
    next job found =>
      split at gone <;> cases gone
  next =>
    split at gone <;> cases gone
  next => exact absurd gone opened

/-- The text of some events: each row has a frame, and with heartbeats anywhere, however the bytes
are cut, a parser reads back a message for each event in order, with its number as the id and its
JSON as the data; the frame for a job that is gone is one more message. -/
def ReadBack (replaced : Bytes → String) (isoformat : Instant → String)
    (seen : List (Nat × Jobs.JobEvent)) : Prop :=
  ∃ rows, List.Forall₂ (fun entry row => readRow isoformat entry = some row) seen rows ∧
    Sent rows (frames rows) ∧
    ∀ bytes, Sent rows bytes → ∃ messages id, Carries rows messages ∧ ∀ chunks : List Bytes,
      (chunks.flatten <+: bytes → feedAll replaced {} chunks <+: messages) ∧
        (chunks.flatten = bytes → feedAll replaced {} chunks = messages) ∧
        (chunks.flatten = bytes ++ utf8 notFoundFrame →
          feedAll replaced {} chunks = messages ++ [goneMessage id])

/-- What one step of a run shows of the stream. -/
structure Conforms (replaced : Bytes → String) (isoformat : Instant → String) (start : Int)
    (ident : String) (e : Event State Action Unit) : Prop where
  /-- A step sends nothing, or the stored events after the cursor. -/
  sends : e.after.sse.reader.seen = e.before.sse.reader.seen ∨
    e.after.sse.reader.seen = e.before.sse.reader.seen ++
      e.before.store.eventsAfter ident e.before.sse.reader.cursor
  /-- Each event is sent once, in order, and lies after the start. -/
  order : InOrder start e.after.sse
  /-- Nothing up to the cursor is left out. -/
  complete : ∀ entry ∈ e.after.store.events.select (ofJob ident), start < entry.1 →
    (entry.1 : Int) ≤ e.after.sse.reader.cursor → entry ∈ e.after.sse.reader.seen
  readBack : ReadBack replaced isoformat e.after.sse.reader.seen
  /-- The stream returns where the job is terminal or gone and no stored event is left. -/
  closes : e.before.sse.phase ≠ .closed → e.after.sse.phase = .closed →
    Settled e.after.store ident ∧ AllSent start ident e.after.store e.after.sse ∧
      e.after.store.eventsAfter ident e.after.sse.reader.cursor = []
  /-- It returns with the error frame where the job is gone. -/
  gone : e.before.sse.phase ≠ .notFound → e.after.sse.phase = .notFound →
    e.after.store.jobs.find ident = none ∧
      e.after.store.eventsAfter ident e.after.sse.reader.cursor = []

theorem readBack_plain (replaced : Bytes → String) (isoformat : Instant → String)
    {seen : List (Nat × Jobs.JobEvent)} (plain : ∀ entry ∈ seen, Plain entry.2.payload) :
    ReadBack replaced isoformat seen := by
  have readable : ∀ row ∈ seen.map (rowOf isoformat), Readable row := by
    intro row mem
    obtain ⟨entry, inside, rfl⟩ := mem_map.mp mem
    exact plain_readable isoformat (plain entry inside)
  refine ⟨seen.map (rowOf isoformat), ?_, frames_sent readable, fun bytes sent =>
    sent_read replaced sent readable⟩
  rw [List.forall₂_map_right_iff, List.forall₂_same]
  exact fun entry mem => readRow_plain isoformat (plain entry mem)

theorem sseRead_sends (ident : String) (s : JobStore) (st : Stream) :
    (sseRead ident s st).reader.seen = st.reader.seen ∨
      (sseRead ident s st).reader.seen =
        st.reader.seen ++ s.eventsAfter ident st.reader.cursor := by
  unfold sseRead
  split
  next => exact .inr rfl
  next => split <;> exact .inl rfl
  next => exact .inl rfl
  next => exact .inl rfl

/-- Every payload that is stored or was sent can be read back. -/
def AllPlain (s : State) : Prop :=
  Written s.store ∧ ∀ entry ∈ s.sse.reader.seen, Plain entry.2.payload

theorem allPlain_step {s : State} (genuine : ∀ call, action = .store call → Genuine call)
    (plain : AllPlain s) : AllPlain (StreamCompleteness.step ident principal s action).2 := by
  cases action with
  | socketRead => exact plain
  | store call =>
    exact ⟨written_stays (call_done call s.store) (genuine call rfl) plain.1, plain.2⟩
  | sseRead =>
    refine ⟨plain.1, fun entry mem => ?_⟩
    rcases sseRead_sends ident s.store s.sse with same | more
    · exact plain.2 entry (same ▸ mem)
    · change entry ∈ (sseRead ident s.store s.sse).reader.seen at mem
      rw [more] at mem
      rcases mem_append.mp mem with old | new
      · exact plain.2 entry old
      · exact plain.1 entry (mem_of_mem_filter (Log.mem_after.mp new).1)

theorem step_conforms (replaced : Bytes → String) (isoformat : Instant → String) {s : State}
    {rest : List Action} (sound : Sound start ident s) (pending : Pending ident s (action :: rest))
    (plain : AllPlain (StreamCompleteness.step ident principal s action).2) :
    Conforms replaced isoformat start ident
      ⟨s, action, (StreamCompleteness.step ident principal s action).1,
        (StreamCompleteness.step ident principal s action).2⟩ := by
  have after : Sound start ident (StreamCompleteness.step ident principal s action).2 :=
    step_sound s action sound
  have later : Pending ident (StreamCompleteness.step ident principal s action).2 rest :=
    pending_step sound pending
  refine ⟨?_, inOrder_of_faithful after.sse, after.sse.complete,
    readBack_plain replaced isoformat plain.2, ?_, ?_⟩
  · cases action with
    | sseRead => exact sseRead_sends ident s.store s.sse
    | store call => exact .inl rfl
    | socketRead => exact .inl rfl
  · intro opened closed
    have sent := step_sseComplete s action sound opened closed
    refine ⟨?_, sent, (Log.stored_eq_iff after.sse).mp sent⟩
    rcases later with ⟨-, -, -, other⟩ | ⟨-, settled⟩
    · exact absurd closed other
    · exact settled (.inr closed)
  · intro opened ended
    cases action with
    | store call => exact absurd ended opened
    | socketRead => exact absurd ended opened
    | sseRead =>
      obtain ⟨absent, -⟩ := sseRead_notFound opened ended
      exact ⟨absent, gone_empty sound.orphans absent _⟩

theorem run_conforms (replaced : Bytes → String) (isoformat : Instant → String) (run : List Action)
    {s : State} (sound : Sound start ident s) (pending : Pending ident s run) (plain : AllPlain s)
    (genuine : ∀ call, Action.store call ∈ run → Genuine call) :
    ∀ e ∈ history (StreamCompleteness.step ident principal) s run,
      Conforms replaced isoformat start ident e := by
  induction run generalizing s with
  | nil =>
    intro e mem
    cases mem
  | cons action rest ih =>
    have written : AllPlain (StreamCompleteness.step ident principal s action).2 :=
      allPlain_step (fun call same => genuine call (same ▸ mem_cons_self)) plain
    rw [history_cons, forall_mem_cons]
    exact ⟨step_conforms replaced isoformat sound pending written,
      ih (step_sound s action sound) (pending_step sound pending) written
        (fun call mem => genuine call (mem_cons_of_mem _ mem))⟩

/-- Every interleaving of the stream's reads with the store's calls: the stream sends each stored
event after the start once and in order, each in a frame that reads back as the event, and returns
only where the job is terminal or gone and nothing is left. -/
theorem sse_conforms (replaced : Bytes → String) (isoformat : Instant → String)
    (ident principal : String) (start : Int) (run : List Action) (once : draws ident run ≤ 1)
    (genuine : ∀ call, Action.store call ∈ run → Genuine call) :
    ∀ e ∈ history (StreamCompleteness.step ident principal) (opened start) run,
      Conforms replaced isoformat start ident e :=
  run_conforms replaced isoformat run (opened_sound start ident)
    (Or.inl ⟨once, rfl, by simp [opened, Stream.openAt], by simp [opened, Stream.openAt]⟩)
    ⟨nofun, nofun⟩ genuine

theorem once_attempted : (1 : Int) ≤ 1 := Int.le_refl 1

/-- A job is done while its stream is open, and the stream reads on until it has everything. -/
def streamed : List Action :=
  [.store (.enqueue "j" "goal" none ⟨1, once_attempted⟩ (some "ada") 0 0), .sseRead, .store (.claim 1),
    .sseRead, .sseRead, .store (.finish "j" (.obj []) 2), .sseRead, .sseRead, .sseRead, .sseRead,
    .sseRead]

theorem streamed_conforms :
    (final (StreamCompleteness.step "j" "ada") (opened 0) streamed).sse.phase = .closed ∧
      (final (StreamCompleteness.step "j" "ada") (opened 0) streamed).sse.reader.seen.map Prod.fst =
        [1, 2, 3] ∧
      ∀ e ∈ history (StreamCompleteness.step "j" "ada") (opened 0) streamed,
        Conforms (fun _ => "") (fun _ => "") 0 "j" e := by
  refine ⟨by decide +kernel, by decide +kernel,
    sse_conforms (fun _ => "") (fun _ => "") "j" "ada" 0 streamed (by decide +kernel) ?_⟩
  intro call member value result written
  simp only [streamed, mem_cons, Action.store.injEq, reduceCtorEq, false_or, or_false,
    not_mem_nil] at member
  rcases member with rfl | rfl | rfl
  · cases result
  · cases result
  · cases result
    trivial

end Meemee.Guarantees.SseStream
