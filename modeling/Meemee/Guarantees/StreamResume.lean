import Meemee.Library.Resume
import Meemee.Guarantees.SseFrames

/-!
# Streams that resume

The four loops that follow a job keep one invariant over every connection, however it is cut: what
was yielded, with the log after the cursor, is the log after the start. A connection is read as far
as it came; the loop ends normally only on the terminal event or on a complete answer, both of which
leave nothing after the cursor.
-/
namespace Meemee.Guarantees.StreamResume
open Library Source Source.Sse Source.Jobs Source.ClientStreams List
open Guarantees.SseFrames

/-- The stored events of a job: numbered in order from 1 on, and ending in the only terminal one. -/
structure EventLog where
  rows : List Row
  ordered : rows.Pairwise (fun a b => a.sequence < b.sequence)
  positive : ∀ row ∈ rows, 0 < row.sequence
  readable : ∀ row ∈ rows, Readable row
  closed : Resume.Closed (fun row => decide (kindText row.kind ∈ terminalKinds)) rows

/-- The stored events after a number. -/
def EventLog.after (log : EventLog) (n : Int) : List Row := Resume.after Row.sequence log.rows n

variable {τ : Type} (clock : String → τ)

/-- The event that the client makes of a row. -/
def received (row : Row) : JobEvent τ :=
  ⟨row.sequence, row.jobId, kindText row.kind, row.payload, clock row.createdAt⟩

/-- `JobEvent.model_validate` makes an event of each row's data. -/
def Validates (validate : Json → Option (JobEvent τ)) (log : EventLog) : Prop :=
  ∀ row ∈ log.rows, validate row.data = some (received clock row)

/-- The larger of the query's `after` and the header, as the route takes it. -/
def requested (r : Request) : Int :=
  match r.lastEventId with
  | none => r.after
  | some ident => max r.after ident

/-- The bytes of the events after a number: a first part, or all if it closes normally. -/
def Serves (log : EventLog) (n : Int) (connection : Connection) : Prop :=
  ∃ bytes, Sent (log.after n) bytes ∧ connection.chunks.flatten <+: bytes ∧
    (connection.ending = .closed → connection.chunks.flatten = bytes)

/-- The frame of a row. -/
def Framed (row : Row) (frame : Frame) : Prop := ∃ text, row.text = .ok text ∧ frame = .text text

/-- The same of a WebSocket, which has one text frame for each event and closes normally with 1000. -/
def ServesSocket (log : EventLog) (n : Int) : Socket → Prop
  | .opened frames ending =>
    ∃ sent, List.Forall₂ Framed (log.after n) sent ∧ frames <+: sent ∧
      ∀ reason text, ending = .closed (some 1000) reason text → frames = sent
  | _ => True

variable {clock} {log : EventLog} {start : Int}

def Caught (clock : String → τ) (log : EventLog) (start : Int) (g : Progress τ) : Prop :=
  Resume.Caught Row.sequence (received clock) log.rows start g.cursor g.yielded

theorem after_max (log : EventLog) (n : Int) : log.after (max n 0) = log.after n := by
  refine filter_congr (fun row mem => ?_)
  have positive := log.positive row mem
  simp only [decide_eq_decide]
  omega

theorem requested_request (cursor : Int) : requested (request cursor) = cursor := by
  unfold requested request
  split
  next => rfl
  next ident header =>
    simp only at header
    split at header
    · cases header
    · cases header
      exact max_self cursor

theorem take_caught {g : Progress τ} (caught : Caught clock log start g) {row : Row} {rest : List Row}
    (left : log.after g.cursor = row :: rest) :
    row ∈ log.rows ∧ g.cursor < row.sequence ∧ log.after row.sequence = rest ∧
      Caught clock log start
        { g with cursor := row.sequence, yielded := g.yielded ++ [received clock row] } ∧
      (kindText row.kind ∈ terminalKinds → rest = []) := by
  have first : row ∈ log.after g.cursor := left ▸ mem_cons_self
  obtain ⟨mem, later⟩ := Resume.mem_after.mp first
  exact ⟨mem, later, Resume.after_head log.ordered left, Resume.Caught.take log.ordered caught left,
    fun terminal => Resume.after_closing log.closed left (decide_eq_true terminal)⟩

section Reading

variable {validate : Json → Option (JobEvent τ)} (validates : Validates clock validate log)
include validates

theorem parseEvent_row {row : Row} (mem : row ∈ log.rows) {data : String}
    (loaded : JsonLoads.loads data = some row.data) :
    parseEvent validate data =
      .ok (received clock row, decide (kindText row.kind ∈ terminalKinds)) := by
  simp only [parseEvent, loaded, validates row mem]
  rfl

theorem readMessages_caught (messages : List SSEMessage) : ∀ (g : Progress τ) (all : List SSEMessage),
    Caught clock log start g → Carries (log.after g.cursor) all → messages <+: all →
      Caught clock log start (readMessages validate g messages).1 ∧
        (∀ reaction, (readMessages validate g messages).2 = some reaction → reaction = .stop none ∧
          log.after (readMessages validate g messages).1.cursor = []) ∧
        ((readMessages validate g messages).2 = none → messages = all →
          log.after (readMessages validate g messages).1.cursor = []) := by
  induction messages with
  | nil =>
    intro g all caught carries _
    refine ⟨caught, ?_, ?_⟩
    · intro reaction stopped
      cases stopped
    intro _ same
    subst same
    change log.after g.cursor = []
    cases left : log.after g.cursor with
    | nil => rfl
    | cons row rest => rw [left] at carries; cases carries
  | cons message rest ih =>
    intro g all caught carries front
    obtain ⟨others, rfl⟩ := front
    generalize left : log.after g.cursor = rows at carries
    cases carries with
    | beat text carries =>
      have later := ih { g with heartbeats := g.heartbeats ++ [text] } (rest ++ others) caught
        (by rw [← left] at carries; exact carries) (prefix_append _ _)
      simp only [readMessages, readMessage, List.cons.injEq, true_and, cons_append]
      exact later
    | @event row data rows _ loaded carries =>
      obtain ⟨mem, ahead, after, taken, terminal⟩ := take_caught caught left
      have parsed := parseEvent_row validates mem loaded
      have reached : max g.cursor row.sequence = row.sequence := max_eq_right (Int.le_of_lt ahead)
      have moved : max g.cursor (received clock row).sequence = row.sequence := reached
      by_cases last : kindText row.kind ∈ terminalKinds
      · have nothing := terminal last
        subst nothing
        simp only [readMessages, readMessage, if_neg (kind_named row.kind).2, parsed, last,
          decide_true, if_true, moved]
        refine ⟨taken, ?_, ?_⟩
        · intro reaction same
          cases same
          exact ⟨rfl, after⟩
        · intro none
          cases none
      · have later := ih { g with
          cursor := row.sequence, yielded := g.yielded ++ [received clock row] } (rest ++ others)
          taken (by rw [← after] at carries; exact carries) (prefix_append _ _)
        simp only [readMessages, readMessage, if_neg (kind_named row.kind).2, parsed, last,
          decide_false, if_neg Bool.false_ne_true, moved, List.cons.injEq, true_and, cons_append]
        exact later

theorem readFrames_caught (frames : List Frame) : ∀ (g : Progress τ) (all : List Frame),
    Caught clock log start g → List.Forall₂ Framed (log.after g.cursor) all → frames <+: all →
      Caught clock log start (readFrames validate g frames).1 ∧
        (∀ reaction, (readFrames validate g frames).2 = some reaction → reaction = .stop none ∧
          log.after (readFrames validate g frames).1.cursor = []) ∧
        ((readFrames validate g frames).2 = none → frames = all →
          log.after (readFrames validate g frames).1.cursor = []) := by
  induction frames with
  | nil =>
    intro g all caught framed _
    refine ⟨caught, ?_, ?_⟩
    · intro reaction stopped
      cases stopped
    intro _ same
    subst same
    change log.after g.cursor = []
    cases left : log.after g.cursor with
    | nil => rfl
    | cons row rest => rw [left] at framed; cases framed
  | cons frame rest ih =>
    intro g all caught framed front
    obtain ⟨others, rfl⟩ := front
    generalize left : log.after g.cursor = rows at framed
    cases framed with
    | @cons row _ rows _ here framed =>
      obtain ⟨text, written, rfl⟩ := here
      obtain ⟨mem, ahead, after, taken, terminal⟩ := take_caught caught left
      have loadable := data_loadable (log.readable row mem)
      have parsed := parseEvent_row validates mem (dumps_loaded loadable rfl written)
      have new : ¬ (received clock row).sequence ≤ g.cursor := Int.not_le.mpr ahead
      by_cases last : kindText row.kind ∈ terminalKinds
      · have nothing := terminal last
        subst nothing
        simp only [readFrames, parseFrame, parsed, if_neg new, last, decide_true, if_true]
        refine ⟨taken, ?_, ?_⟩
        · intro reaction same
          cases same
          exact ⟨rfl, after⟩
        · intro none
          cases none
      · have later := ih { g with
          cursor := row.sequence, yielded := g.yielded ++ [received clock row] } (rest ++ others)
          taken (by rw [← after] at framed; exact framed) (prefix_append _ _)
        simp only [readFrames, parseFrame, parsed, if_neg new, last, decide_false,
          if_neg Bool.false_ne_true, List.cons.injEq, true_and, cons_append]
        exact later

end Reading

section Chunks

variable (validate : Json → Option (JobEvent τ)) (replaced : Bytes → String)

/-- Messages that follow others are read where those did not stop the reader. -/
def continued (read : Progress τ × Option Reaction) (messages : List SSEMessage) :
    Progress τ × Option Reaction :=
  match read.2 with
  | none => readMessages validate read.1 messages
  | some reaction => (read.1, some reaction)

theorem readMessages_append (first second : List SSEMessage) (g : Progress τ) :
    readMessages validate g (first ++ second) =
      continued validate (readMessages validate g first) second := by
  induction first generalizing g with
  | nil => rfl
  | cons message rest ih =>
    rw [cons_append, readMessages, readMessages]
    cases here : readMessage validate g message with
    | mk next reaction =>
      cases reaction with
      | none => exact ih next
      | some reaction => rfl

theorem readChunks_eq (chunks : List Bytes) (p : SSEParser) (g : Progress τ) :
    readChunks validate replaced p g chunks = readMessages validate g (feedAll replaced p chunks) := by
  induction chunks generalizing p g with
  | nil => rfl
  | cons chunk rest ih =>
    rw [readChunks, feedAll, readMessages_append]
    cases here : readMessages validate g (p.feed replaced chunk).2 with
    | mk next reaction =>
      cases reaction with
      | none => exact ih _ next
      | some reaction => rfl

end Chunks

section Connections

variable {validate : Json → Option (JobEvent τ)} (validates : Validates clock validate log)
include validates

/-- One SSE connection: it comes to its own ending, if the terminal event did not stop it. -/
theorem hear_caught (replaced : Bytes → String) (refreshed : Bool) {g : Progress τ}
    {connection : Connection} (caught : Caught clock log start g)
    (serves : Serves log g.cursor connection) :
    Caught clock log start (hear validate replaced refreshed g connection).1 ∧
      ((hear validate replaced refreshed g connection).2 = .stop none →
        log.after (hear validate replaced refreshed g connection).1.cursor = []) ∧
      ((hear validate replaced refreshed g connection).2 = .stop none ∨
        (hear validate replaced refreshed g connection).2 = connection.ending.reaction) := by
  obtain ⟨bytes, sent, front, complete⟩ := serves
  have readable : ∀ row ∈ log.after g.cursor, Readable row := fun row mem =>
    log.readable row (Resume.mem_after.mp mem).1
  obtain ⟨messages, _, carries, parsed⟩ := sent_read replaced sent readable
  obtain ⟨first, all, -⟩ := parsed connection.chunks
  obtain ⟨kept, stopped, finished⟩ := readMessages_caught validates _ g messages caught carries
    (first front)
  unfold hear
  rw [readChunks_eq]
  cases read : readMessages validate g (feedAll replaced {} connection.chunks) with
  | mk next reaction =>
    rw [read] at kept stopped finished
    cases reaction with
    | some reaction =>
      exact ⟨kept, fun _ => (stopped reaction rfl).2, .inl (stopped reaction rfl).1⟩
    | none =>
      refine ⟨kept, ?_, .inr rfl⟩
      intro ended
      cases ending : connection.ending with
      | closed => exact finished rfl (all (complete ending))
      | lost text | refused error | waiting => rw [ending] at ended; cases ended

omit validates in
theorem refused_stop {mayRefresh : Bool} {error : Option ApiError} {failure : Reaction}
    (stop : refused mayRefresh error failure = .stop none) : failure = .stop none := by
  unfold refused at stop
  split at stop
  · cases stop
  · cases error with
    | some error => cases stop
    | none => exact stop

omit validates in
theorem socket_stop {jobId : String} {canRefresh refreshed : Bool} {ending : SocketEnding}
    (stop : ending.reaction jobId canRefresh refreshed = .stop none) :
    ∃ reason text, ending = .closed (some 1000) reason text := by
  cases ending with
  | broken text => cases stop
  | waiting => cases stop
  | closed code reason text =>
    have closes := refused_stop stop
    split at closes
    next normal => exact ⟨reason, text, by rw [normal]⟩
    next => cases closes

theorem hearSocket_caught (jobId : String) (canRefresh refreshed : Bool) {g : Progress τ}
    {socket : Socket} (caught : Caught clock log start g)
    (serves : ServesSocket log g.cursor socket) :
    Caught clock log start (hearSocket validate jobId canRefresh refreshed g socket).1 ∧
      ((hearSocket validate jobId canRefresh refreshed g socket).2 = .stop none →
        log.after (hearSocket validate jobId canRefresh refreshed g socket).1.cursor = []) ∧
      ∀ frames ending, socket = .opened frames ending →
        (hearSocket validate jobId canRefresh refreshed g socket).2 = .stop none ∨
          (hearSocket validate jobId canRefresh refreshed g socket).2 =
            ending.reaction jobId canRefresh refreshed := by
  cases socket with
  | rejected status text =>
    refine ⟨caught, ?_, nofun⟩
    intro stop
    cases refused_stop stop
  | unreachable text =>
    refine ⟨caught, ?_, nofun⟩
    intro stop
    cases stop
  | opened frames ending =>
    obtain ⟨sent, framed, front, complete⟩ := serves
    obtain ⟨kept, stopped, finished⟩ := readFrames_caught validates frames g sent caught framed front
    simp only [hearSocket]
    cases read : readFrames validate g frames with
    | mk next reaction =>
      rw [read] at kept stopped finished
      cases reaction with
      | some reaction =>
        exact ⟨kept, fun _ => (stopped reaction rfl).2, fun _ _ _ => .inl (stopped reaction rfl).1⟩
      | none =>
        refine ⟨kept, fun stop => ?_, fun _ _ opened => by cases opened; exact .inr rfl⟩
        obtain ⟨reason, text, normal⟩ := socket_stop stop
        exact finished rfl (complete reason text normal)

end Connections

section Loop

variable {ρ κ : Type} {what jobId : String} {ask : Int → ρ}
  {hears : Bool → Progress τ → κ → Progress τ × Reaction} {reconnect : Bool} {serves : ρ → κ → Prop}

/-- Over any connections: the invariant is kept, and a normal end leaves nothing. -/
theorem follow_caught
    (heard : ∀ refreshed g connection, Caught clock log start g → serves (ask g.cursor) connection →
      Caught clock log start (hears refreshed g connection).1 ∧
        ((hears refreshed g connection).2 = .stop none →
          log.after (hears refreshed g connection).1.cursor = []))
    (connections : List (ρ → κ)) (served : ∀ connect ∈ connections, ∀ r, serves r (connect r))
    (refreshed : Bool) (left : Int) (backoff : Nat) (g : Progress τ) (caught : Caught clock log start g) :
    Caught clock log start (follow what jobId ask hears reconnect refreshed left backoff g connections).progress ∧
      ((follow what jobId ask hears reconnect refreshed left backoff g connections).outcome = some .returned →
        log.after (follow what jobId ask hears reconnect refreshed left backoff g
          connections).progress.cursor = []) := by
  induction connections generalizing refreshed left backoff g with
  | nil => exact ⟨caught, nofun⟩
  | cons connect later ih =>
    obtain ⟨here, after⟩ := forall_mem_cons.mp served
    obtain ⟨kept, ended⟩ := heard refreshed g (connect (ask g.cursor)) caught (here _)
    unfold follow
    cases read : hears refreshed g (connect (ask g.cursor)) with
    | mk next reaction =>
      rw [read] at kept ended
      cases reaction with
      | refresh => exact ih after true left backoff next kept
      | stop refusal =>
        cases refusal with
        | none => exact ⟨kept, fun _ => ended rfl⟩
        | some refusal => exact ⟨kept, nofun⟩
      | waiting => exact ⟨kept, nofun⟩
      | failure text =>
        simp only
        split
        · exact ⟨kept, nofun⟩
        · exact ih after refreshed (left - 1) (backoff * 2) next kept

theorem follow_budget (connections : List (ρ → κ)) (refreshed : Bool) (left : Int) (backoff : Nat)
    (g : Progress τ) (message : String)
    (raised : (follow what jobId ask hears reconnect refreshed left backoff g connections).outcome =
      some (.networkError message)) :
    (if reconnect then left else 0) ≤
      (follow what jobId ask hears reconnect refreshed left backoff g connections).waits.length := by
  induction connections generalizing refreshed left backoff g with
  | nil => cases raised
  | cons connect later ih =>
    unfold follow at raised ⊢
    cases read : hears refreshed g (connect (ask g.cursor)) with
    | mk next reaction =>
      rw [read] at raised
      cases reaction with
      | refresh => exact ih true left backoff next raised
      | stop refusal => cases refusal <;> cases raised
      | waiting => cases raised
      | failure text =>
        simp only at raised ⊢
        split at raised
        next spent =>
          rw [if_pos spent]
          cases reconnect with
          | false => exact Int.le_refl _
          | true =>
            have none_left : left ≤ 0 := by simpa using spent
            exact none_left
        next more =>
          rw [if_neg more]
          have spent := ih refreshed (left - 1) (backoff * 2) next raised
          cases reconnect with
          | false => exact absurd rfl more
          | true =>
            simp only [if_true, length_cons] at spent ⊢
            omega

/-- Within its budget a stream returns if its connections fail at worst and the last one does not. -/
theorem follow_returns {servesLast : ρ → κ → Prop}
    (heard : ∀ refreshed g connection, Caught clock log start g → serves (ask g.cursor) connection →
      Caught clock log start (hears refreshed g connection).1 ∧
        ((hears refreshed g connection).2 = .stop none ∨
          ∃ text, (hears refreshed g connection).2 = .failure text))
    (ends : ∀ refreshed g connection, Caught clock log start g →
      servesLast (ask g.cursor) connection → (hears refreshed g connection).2 = .stop none)
    (first : List (ρ → κ)) (served : ∀ connect ∈ first, ∀ r, serves r (connect r)) (last : ρ → κ)
    (servedLast : ∀ r, servesLast r (last r)) (refreshed : Bool) (left : Int)
    (enough : first.length ≤ left) (backoff : Nat) (g : Progress τ) (caught : Caught clock log start g) :
    (follow what jobId ask hears true refreshed left backoff g (first ++ [last])).outcome =
      some .returned := by
  induction first generalizing left backoff g with
  | nil =>
    have ended := ends refreshed g (last (ask g.cursor)) caught (servedLast _)
    rw [nil_append, follow]
    simp only [ended]
  | cons connect later ih =>
    obtain ⟨here, after⟩ := forall_mem_cons.mp served
    obtain ⟨kept, ended | ⟨text, failed⟩⟩ := heard refreshed g (connect (ask g.cursor)) caught (here _)
    · rw [cons_append, follow]
      simp only [ended]
    · rw [length_cons, Nat.cast_succ] at enough
      have budget : ¬ left ≤ 0 := by omega
      rw [cons_append, follow]
      simp only [failed, Bool.not_true, Bool.false_or, decide_eq_true_eq, if_neg budget]
      exact ih after (left - 1) (by omega) (backoff * 2) _ kept

end Loop

/-- What is promised of a stream that was asked for the events after a number. -/
structure ExactlyOnce (clock : String → τ) (log : EventLog) (after : Int) (reconnect : Bool)
    (maxReconnects : Int) (report : Report τ) : Prop where
  front : report.progress.yielded <+: (log.after after).map (received clock)
  complete : report.outcome = some .returned →
    report.progress.yielded = (log.after after).map (received clock)
  exhausted : ∀ message, report.outcome = some (.networkError message) →
    (if reconnect then maxReconnects else 0) ≤ report.waits.length

theorem follow_exactly_once {ρ κ : Type} {what jobId : String} {ask : Int → ρ}
    {hears : Bool → Progress τ → κ → Progress τ × Reaction} {reconnect : Bool} {serves : ρ → κ → Prop}
    {after maxReconnects : Int}
    (heard : ∀ refreshed g connection, Caught clock log (max after 0) g →
      serves (ask g.cursor) connection →
        Caught clock log (max after 0) (hears refreshed g connection).1 ∧
          ((hears refreshed g connection).2 = .stop none →
            log.after (hears refreshed g connection).1.cursor = []))
    {connections : List (ρ → κ)} (served : ∀ connect ∈ connections, ∀ r, serves r (connect r)) :
    ExactlyOnce clock log after reconnect maxReconnects
      (follow what jobId ask hears reconnect false maxReconnects 1 { cursor := max after 0 }
        connections) := by
  obtain ⟨caught, ended⟩ := @follow_caught _ _ _ _ ρ κ what jobId ask hears reconnect serves heard
    connections served false maxReconnects 1 { cursor := max after 0 } Resume.caught_start
  rw [Caught, Resume.Caught] at caught
  have begun : Resume.after Row.sequence log.rows (max after 0) = log.after after := after_max log after
  refine ⟨?_, ?_, ?_⟩
  · rw [← begun]
    exact Resume.Caught.front caught
  · intro returned
    rw [← begun]
    exact Resume.Caught.all caught (ended returned)
  · intro message raised
    exact follow_budget connections false maxReconnects 1 _ message raised

/-- For every log, start, budget and sequence of connections, cut anywhere, the four streams yield
the events after the start once and in order, return normally only when none is missing, and raise
`NetworkError` only once the budget is spent. -/
theorem streams_exactly_once (clock : String → τ) (log : EventLog)
    (validate : Json → Option (JobEvent τ)) (validates : Validates clock validate log)
    (replaced : Bytes → String) (jobId : String) (canRefresh : Bool) (after : Int) (reconnect : Bool)
    (maxReconnects : Int) (connections : List (Request → Connection)) (sockets : List (Int → Socket))
    (served : ∀ connect ∈ connections, ∀ r, Serves log (requested r) (connect r))
    (servedSockets : ∀ connect ∈ sockets, ∀ n, ServesSocket log n (connect n)) :
    ExactlyOnce clock log after reconnect maxReconnects
        (streamEvents validate replaced jobId after reconnect maxReconnects connections) ∧
      ExactlyOnce clock log after reconnect maxReconnects
        (asyncStreamEvents validate replaced jobId after reconnect maxReconnects connections) ∧
      ExactlyOnce clock log after reconnect maxReconnects
        (streamWs validate jobId canRefresh after reconnect maxReconnects sockets) ∧
      ExactlyOnce clock log after reconnect maxReconnects
        (asyncStreamWs validate jobId canRefresh after reconnect maxReconnects sockets) := by
  have events : ∀ refreshed (g : Progress τ) connection, Caught clock log (max after 0) g →
      Serves log (requested (request g.cursor)) connection →
        Caught clock log (max after 0) (hear validate replaced refreshed g connection).1 ∧
          ((hear validate replaced refreshed g connection).2 = .stop none →
            log.after (hear validate replaced refreshed g connection).1.cursor = []) := by
    intro refreshed g connection caught serves
    rw [requested_request] at serves
    obtain ⟨kept, ended, -⟩ := hear_caught validates replaced refreshed caught serves
    exact ⟨kept, ended⟩
  have frames : ∀ refreshed (g : Progress τ) socket, Caught clock log (max after 0) g →
      ServesSocket log (socketAfter g.cursor) socket →
        Caught clock log (max after 0) (hearSocket validate jobId canRefresh refreshed g socket).1 ∧
          ((hearSocket validate jobId canRefresh refreshed g socket).2 = .stop none →
            log.after (hearSocket validate jobId canRefresh refreshed g socket).1.cursor = []) := by
    intro refreshed g socket caught serves
    have same : ServesSocket log g.cursor socket := by
      unfold ServesSocket at serves ⊢
      rwa [socketAfter, after_max] at serves
    obtain ⟨kept, ended, -⟩ := hearSocket_caught validates jobId canRefresh refreshed caught same
    exact ⟨kept, ended⟩
  have sse := @follow_exactly_once _ clock log _ _ "job stream" jobId request _ reconnect
    (fun r => Serves log (requested r)) after maxReconnects events connections served
  have ws := @follow_exactly_once _ clock log _ _ "job WebSocket" jobId socketAfter _ reconnect
    (fun n => ServesSocket log n) after maxReconnects frames sockets servedSockets
  exact ⟨sse, sse, ws, ws⟩

/-- A run of a job: it starts and is done. -/
def shortLog : EventLog where
  rows := [⟨1, "j", .running, [], "t"⟩, ⟨2, "j", .done, [("result", .null)], "t"⟩]
  ordered := by decide
  positive := by decide
  readable := by simp [Readable, JsonLoading.Loadable, JsonLoading.LoadableFields]
  closed := ⟨[⟨1, "j", .running, [], "t"⟩], ⟨2, "j", .done, [("result", .null)], "t"⟩, rfl, by decide, by
    decide⟩

/-- The fields of a row's data as an event. -/
def eventOf : Json → Option (JobEvent Unit)
  | .obj [(_, .int sequence), (_, .str jobId), (_, .str kind), (_, .obj payload), _] =>
    some ⟨sequence, jobId, kind, payload, ()⟩
  | _ => none

def cutOnce : List (Request → Connection) :=
  [fun r => ⟨[(frames (shortLog.after (requested r))).take 120], .lost "reset"⟩,
    fun r => ⟨[frames (shortLog.after (requested r))], .closed⟩]

theorem cutOnce_serves : ∀ connect ∈ cutOnce, ∀ r, Serves shortLog (requested r) (connect r) := by
  have sent : ∀ n, Sent (shortLog.after n) (frames (shortLog.after n)) := fun n =>
    frames_sent (fun row mem => shortLog.readable row (Resume.mem_after.mp mem).1)
  intro connect mem r
  simp only [cutOnce, mem_cons, not_mem_nil, or_false] at mem
  rcases mem with rfl | rfl
  · refine ⟨_, sent _, ?_, nofun⟩
    rw [flatten_singleton]
    exact take_prefix _ _
  · exact ⟨_, sent _, by rw [flatten_singleton], fun _ => flatten_singleton⟩

/-- The frames of the rows after a number. -/
def textFrames (n : Int) : List Frame :=
  (shortLog.after n).map (fun row => .text (row.text.toOption.getD ""))

def cutSocket : List (Int → Socket) :=
  [fun n => .opened ((textFrames n).take 1) (.broken "reset"),
    fun n => .opened (textFrames n) (.closed (some 1000) "" "")]

theorem cutSocket_serves : ∀ connect ∈ cutSocket, ∀ n, ServesSocket shortLog n (connect n) := by
  have framed : ∀ n, List.Forall₂ Framed (shortLog.after n) (textFrames n) := by
    intro n
    rw [textFrames, List.forall₂_map_right_iff, List.forall₂_same]
    intro row mem
    obtain ⟨frame, sent⟩ := frame_ok (shortLog.readable row (Resume.mem_after.mp mem).1)
    obtain ⟨data, written, -⟩ := frame_body sent
    exact ⟨data, written, by rw [written]; rfl⟩
  intro connect mem n
  simp only [cutSocket, mem_cons, not_mem_nil, or_false] at mem
  rcases mem with rfl | rfl
  · exact ⟨_, framed n, take_prefix _ _, nofun⟩
  · exact ⟨_, framed n, prefix_rfl, fun _ _ _ => rfl⟩

theorem short_validates : Validates (fun _ => ()) eventOf shortLog := by
  simp [Validates, shortLog]
  exact ⟨rfl, rfl⟩

theorem cutOnce_returns :
    (streamEvents eventOf (fun _ => "") "j" 0 true 3 cutOnce).outcome = some .returned := by
  refine @follow_returns Unit (fun _ => ()) shortLog 0 Request Connection "job stream" "j" request _
    (fun r connection => Serves shortLog (requested r) connection ∧ connection.ending = .lost "reset")
    (fun r connection => Serves shortLog (requested r) connection ∧ connection.ending = .closed)
    ?_ ?_ [fun r => ⟨[(frames (shortLog.after (requested r))).take 120], .lost "reset"⟩] ?_
    (fun r => ⟨[frames (shortLog.after (requested r))], .closed⟩) ?_ false 3 (by decide) 1 _
    Resume.caught_start
  · rintro refreshed g connection caught ⟨serves, ending⟩
    rw [requested_request] at serves
    obtain ⟨kept, -, reacts⟩ := hear_caught short_validates (fun _ => "") refreshed caught serves
    rw [ending] at reacts
    exact ⟨kept, reacts.imp id (fun failed => ⟨"reset", failed⟩)⟩
  · rintro refreshed g connection caught ⟨serves, ending⟩
    rw [requested_request] at serves
    obtain ⟨-, -, reacts⟩ := hear_caught short_validates (fun _ => "") refreshed caught serves
    rw [ending] at reacts
    exact reacts.elim id id
  · rintro connect mem r
    obtain rfl := mem_singleton.mp mem
    exact ⟨cutOnce_serves _ mem_cons_self r, rfl⟩
  · exact fun r => ⟨cutOnce_serves _ (mem_cons_of_mem _ mem_cons_self) r, rfl⟩

theorem cutSocket_returns :
    (streamWs eventOf "j" false 0 true 3 cutSocket).outcome = some .returned := by
  refine @follow_returns Unit (fun _ => ()) shortLog 0 Int Socket "job WebSocket" "j" socketAfter _
    (fun n socket => ServesSocket shortLog n socket ∧
      ∃ frames, socket = .opened frames (.broken "reset"))
    (fun n socket => ServesSocket shortLog n socket ∧
      ∃ frames, socket = .opened frames (.closed (some 1000) "" ""))
    ?_ ?_ [fun n => .opened ((textFrames n).take 1) (.broken "reset")] ?_
    (fun n => .opened (textFrames n) (.closed (some 1000) "" "")) ?_ false 3 (by decide) 1 _
    Resume.caught_start
  · rintro refreshed g socket caught ⟨serves, frames, opened⟩
    have same : ServesSocket shortLog g.cursor socket := by
      unfold ServesSocket at serves ⊢
      rwa [socketAfter, after_max] at serves
    obtain ⟨kept, -, reacts⟩ := hearSocket_caught short_validates "j" false refreshed caught same
    exact ⟨kept, (reacts _ _ opened).imp id (fun failed => ⟨"reset", failed⟩)⟩
  · rintro refreshed g socket caught ⟨serves, frames, opened⟩
    have same : ServesSocket shortLog g.cursor socket := by
      unfold ServesSocket at serves ⊢
      rwa [socketAfter, after_max] at serves
    obtain ⟨-, -, reacts⟩ := hearSocket_caught short_validates "j" false refreshed caught same
    exact (reacts _ _ opened).elim id id
  · rintro connect mem n
    obtain rfl := mem_singleton.mp mem
    exact ⟨cutSocket_serves _ mem_cons_self n, _, rfl⟩
  · exact fun n => ⟨cutSocket_serves _ (mem_cons_of_mem _ mem_cons_self) n, _, rfl⟩

/-- Both kinds of stream survive one cut. -/
theorem cut_streams :
    ((streamEvents eventOf (fun _ => "") "j" 0 true 3 cutOnce).progress.yielded.map
        JobEvent.sequence = [1, 2] ∧
      (streamWs eventOf "j" false 0 true 3 cutSocket).progress.yielded.map
        JobEvent.sequence = [1, 2]) ∧
    ExactlyOnce (fun _ => ()) shortLog 0 true 3
        (streamEvents eventOf (fun _ => "") "j" 0 true 3 cutOnce) ∧
      ExactlyOnce (fun _ => ()) shortLog 0 true 3
        (asyncStreamEvents eventOf (fun _ => "") "j" 0 true 3 cutOnce) ∧
      ExactlyOnce (fun _ => ()) shortLog 0 true 3 (streamWs eventOf "j" false 0 true 3 cutSocket) ∧
      ExactlyOnce (fun _ => ()) shortLog 0 true 3
        (asyncStreamWs eventOf "j" false 0 true 3 cutSocket) := by
  have streams := streams_exactly_once (fun _ => ()) shortLog eventOf short_validates (fun _ => "") "j"
    false 0 true 3 cutOnce cutSocket cutOnce_serves cutSocket_serves
  refine ⟨⟨?_, ?_⟩, streams⟩
  · rw [streams.1.complete cutOnce_returns]
    rfl
  · rw [streams.2.2.1.complete cutSocket_returns]
    rfl

end Meemee.Guarantees.StreamResume
