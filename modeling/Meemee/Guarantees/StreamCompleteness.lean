import Meemee.Guarantees.JobLifecycle
import Meemee.Source.Streams

/-!
# Completeness of the job event streams

A WebSocket and an SSE stream of one job, while other callers use the store. The SSE loop reads the
events again after it saw a terminal status, so it has everything when it returns. The socket loop
trusts an empty read that it made before: it has everything exactly when no event arrived between.
-/
namespace Meemee.Guarantees.StreamCompleteness
open Library Library.History Source Source.Jobs Source.Streams
open Guarantees.JobMoves Guarantees.JobLifecycle

structure State where
  store : JobStore
  socket : Stream
  sse : Stream

inductive Action where
  | store (call : StoreCall)
  | socketRead
  | sseRead

def step (ident principal : String) (s : State) : Action → Unit × State
  | .store call => ((), { s with store := (JobMoves.step s.store call).2 })
  | .socketRead => ((), { s with socket := Streams.socketRead ident principal s.store s.socket })
  | .sseRead => ((), { s with sse := Streams.sseRead ident s.store s.sse })

/-- An empty store and two streams that were asked for the events after `start`. -/
def opened (start : Int) : State := ⟨JobStore.empty, Stream.openAt start, Stream.openAt start⟩

/-- A job in a terminal status has the event of that status as its last one. -/
def Ends (v : JobView) : Prop :=
  v.job.status.terminal = true → ∃ e, v.log.getLast? = some e ∧ kindStatus e.2.kind = v.job.status

variable {job : Job} {start : Int} {ident principal : String} {s : JobStore} {st : Stream}

theorem edge_status {after : Job} {kind : EventKind} (edge : JobEdge job kind after) :
    kindStatus kind = after.status := by
  cases edge with
  | fail error now running =>
    simp only [Job.failedKind, Job.failed, Job.failedStatus]
    split <;> rfl
  | _ => rfl

theorem move_ends {before after : Option JobView} (move : JobMove before after)
    (ends : ∀ v, before = some v → Ends v) : ∀ v, after = some v → Ends v := by
  intro v same
  cases move with
  | stays => exact ends v same
  | enqueued job number event queued =>
    cases same
    intro terminal
    rw [queued] at terminal
    cases terminal
  | published job after log number event edge =>
    cases same
    intro _
    exact ⟨(number, event), by simp, edge_status edge⟩
  | tombstoned job log now =>
    cases same
    intro terminal
    cases terminal
  | dropped => cases same

/-- What the streams rely on: the store's own invariants and faithful readers. -/
structure Sound (start : Int) (ident : String) (s : State) : Prop where
  orphans : NoOrphans s.store
  ends : ∀ v, view s.store ident = some v → Ends v
  socket : s.socket.reader.Faithful start s.store.events (ofJob ident)
  sse : s.sse.reader.Faithful start s.store.events (ofJob ident)

theorem opened_sound (start : Int) (ident : String) : Sound start ident (opened start) where
  orphans _ _ := rfl
  ends _ stored := by cases stored
  socket := Log.faithful_start _ _ _
  sse := Log.faithful_start _ _ _

theorem socketRead_faithful (before : st.reader.Faithful start s.events (ofJob ident)) :
    (socketRead ident principal s st).reader.Faithful start s.events (ofJob ident) := by
  unfold socketRead
  split
  next => exact Log.faithful_read before
  next =>
    split
    next => exact before
    next => exact before
  next => exact before

theorem sseRead_faithful (before : st.reader.Faithful start s.events (ofJob ident)) :
    (sseRead ident s st).reader.Faithful start s.events (ofJob ident) := by
  unfold sseRead
  split
  next => exact Log.faithful_read before
  next =>
    split
    next => exact before
    next => exact before
  next => exact before
  next => exact before

theorem step_sound (s : State) (action : Action) (before : Sound start ident s) :
    Sound start ident (step ident principal s action).2 := by
  cases action with
  | store call =>
    cases run : JobMoves.step s.store call with
    | mk result t =>
      have same : (step ident principal s (.store call)).2 = { s with store := t } := by
        simp only [step, run]
      rw [same]
      cases result with
      | error e =>
        obtain rfl := call_raised run
        exact before
      | ok value =>
        have called := call_moves before.orphans run
        exact ⟨called.orphans, move_ends (called.moves ident) before.ends,
          Log.faithful_grows before.socket called.grows, Log.faithful_grows before.sse called.grows⟩
  | socketRead =>
    exact ⟨before.orphans, before.ends, socketRead_faithful before.socket, before.sse⟩
  | sseRead => exact ⟨before.orphans, before.ends, before.socket, sseRead_faithful before.sse⟩

/-- Each event was sent once, in order, and lies after the start. -/
def InOrder (start : Int) (st : Stream) : Prop :=
  st.reader.seen.Pairwise (fun a b => a.1 < b.1) ∧ ∀ e ∈ st.reader.seen, start < e.1

/-- Of the stored events of the job, the stream has sent exactly those after the start. -/
def AllSent (start : Int) (ident : String) (s : JobStore) (st : Stream) : Prop :=
  st.reader.stored s.events (ofJob ident) = s.eventsAfter ident start

/-- The last stored event of the job is a terminal one. -/
def TerminalLast (ident : String) (s : JobStore) : Prop :=
  ∃ e, (logOf s ident).getLast? = some e ∧ (kindStatus e.2.kind).terminal = true

/-- When the socket closes normally every event was sent, the terminal one among them. -/
def SocketComplete (start : Int) (ident : String) (e : Event State Action Unit) : Prop :=
  e.before.socket.phase ≠ .closed → e.after.socket.phase = .closed →
    AllSent start ident e.after.store e.after.socket ∧ TerminalLast ident e.after.store

/-- At the read that ends the SSE stream normally, every event was sent. -/
def SseComplete (start : Int) (ident : String) (e : Event State Action Unit) : Prop :=
  e.before.sse.phase ≠ .closed → e.after.sse.phase = .closed →
    AllSent start ident e.after.store e.after.sse

/-- An events read of the socket that returns nothing. -/
def EmptyRead (ident : String) (e : Event State Action Unit) : Prop :=
  e.action = .socketRead ∧ e.before.socket.phase = .events ∧
    e.before.store.eventsAfter ident e.before.socket.reader.cursor = []

/-- A read of the socket at which the principal's job has a terminal status. -/
def FindsTerminal (ident principal : String) (e : Event State Action Unit) : Prop :=
  e.action = .socketRead ∧ ∃ job, e.before.store.jobs.find ident = some job ∧
    job.principal = some principal ∧ job.status.terminal = true

/-- An event of the job that the stream was asked for is committed. -/
def Commits (start : Int) (ident : String) (e : Event State Action Unit) : Prop :=
  ∃ entry ∈ logOf e.after.store ident, start < entry.1 ∧ entry ∉ logOf e.before.store ident

/-- No event of the job is committed between an empty events read and the status read after it,
where that finds the job terminal. -/
def NothingBetween (start : Int) (ident principal : String)
    (events : List (Event State Action Unit)) : Prop :=
  ∀ first read between close rest, events = first ++ read :: (between ++ close :: rest) →
    EmptyRead ident read → (∀ e ∈ between, e.action ≠ .socketRead) →
    FindsTerminal ident principal close → ∀ e ∈ between, ¬ Commits start ident e

theorem terminalLast (ends : ∀ v, view s ident = some v → Ends v)
    (found : s.jobs.find ident = some job) (terminal : job.status.terminal = true) :
    TerminalLast ident s := by
  obtain ⟨e, last, same⟩ := ends _ (view_some found) terminal
  exact ⟨e, last, by rw [same]; exact terminal⟩

theorem socketRead_closes (opened : st.phase ≠ .closed)
    (closes : (socketRead ident principal s st).phase = .closed) :
    st.phase = .status true ∧ (socketRead ident principal s st).reader = st.reader ∧
      ∃ job, s.jobs.find ident = some job ∧ job.principal = some principal ∧
        job.status.terminal = true := by
  unfold socketRead at closes ⊢
  split at closes
  next => cases closes
  next drained phase =>
    split at closes
    next job owned =>
      obtain ⟨found, principal⟩ := Option.filter_eq_some_iff.mp owned
      split at closes
      next both =>
        simp only [Bool.and_eq_true] at both
        exact ⟨by rw [phase, both.2], rfl, job, found, of_decide_eq_true principal, both.1⟩
      next => cases closes
    next => cases closes
  next other => exact absurd closes opened

theorem socketRead_closed (phase : st.phase = .status true) (found : s.jobs.find ident = some job)
    (owned : job.principal = some principal) (terminal : job.status.terminal = true) :
    socketRead ident principal s st = { st with phase := .closed } := by
  simp [socketRead, phase, found, Option.filter_some, owned, terminal]

/-- A stored event of the job lies after the cursor, if the principal has the job at all. -/
def Behind (cursor : Int) (ident principal : String) (s : JobStore) : Prop :=
  ∀ job, s.jobs.find ident = some job → job.principal = some principal →
    s.eventsAfter ident cursor ≠ []

theorem eventsAfter_nil {cursor : Int} :
    s.eventsAfter ident cursor = [] ↔ ∀ entry ∈ logOf s ident, (entry.1 : Int) ≤ cursor := by
  rw [JobStore.eventsAfter, List.eq_nil_iff_forall_not_mem]
  refine forall_congr' fun entry => ?_
  rw [Log.mem_after, not_and, Int.not_lt]
  exact Iff.rfl

/-- What a call adds to the log of a job has a number drawn since. -/
theorem added_drawn {t : JobStore} {entry : Nat × JobEvent} (grows : Log.Grows s.events t.events)
    (there : entry ∈ logOf t ident) (new : entry ∉ logOf s ident) : s.events.next ≤ entry.1 := by
  obtain ⟨stored, about⟩ := List.mem_filter.mp there
  rcases grows.entries entry stored with old | drawn
  · exact absurd (List.mem_filter.mpr ⟨old, about⟩) new
  · exact drawn

theorem edge_principal {after : Job} {kind : EventKind} (edge : JobEdge job kind after) :
    after.principal = job.principal := by
  cases edge <;> rfl

/-- A reader that is behind stays so: only a purge takes the events, and it takes the owner too. -/
theorem behind_call {t : JobStore} {call : StoreCall} {value : Value} {cursor : Int}
    (orphans : NoOrphans s) (run : JobMoves.step s call = (.ok value, t))
    (below : cursor < s.events.next) (behind : Behind cursor ident principal s) :
    Behind cursor ident principal t := by
  have called := call_moves orphans run
  have drawn : ∀ entry ∈ logOf t ident, entry ∉ logOf s ident → t.eventsAfter ident cursor ≠ [] := by
    intro entry there new none
    have low := eventsAfter_nil.mp none entry there
    have high := added_drawn called.grows there new
    omega
  intro job found owned
  have move := called.moves ident
  generalize before : view s ident = old at move
  generalize after : view t ident = now at move
  rw [view_some found] at after
  cases move with
  | stays =>
    rw [← after] at before
    obtain ⟨old, there, same⟩ := Option.map_eq_some_iff.mp before
    obtain ⟨rfl, logs⟩ := JobView.mk.inj same
    intro none
    refine behind old there owned (eventsAfter_nil.mpr ?_)
    rw [logs]
    exact eventsAfter_nil.mp none
  | enqueued queued number event =>
    obtain ⟨rfl, logs⟩ := JobView.mk.inj (Option.some.inj after)
    refine drawn (number, event) (by rw [logs]; exact List.mem_singleton_self _) ?_
    rw [orphans ident (view_none.mp before)]
    exact List.not_mem_nil
  | published earlier later log number event edge =>
    obtain ⟨rfl, logs⟩ := JobView.mk.inj (Option.some.inj after)
    obtain ⟨old, there, same⟩ := Option.map_eq_some_iff.mp before
    obtain ⟨rfl, oldLogs⟩ := JobView.mk.inj same
    intro none
    refine behind old there ((edge_principal edge).symm.trans owned) (eventsAfter_nil.mpr ?_)
    intro entry mem
    refine eventsAfter_nil.mp none entry ?_
    rw [logs, ← oldLogs]
    exact List.mem_append_left _ mem
  | tombstoned =>
    obtain ⟨rfl, -⟩ := JobView.mk.inj (Option.some.inj after)
    cases owned
  | dropped => cases after

/-- Since an empty read nothing has come in: `socket` is what that read left. -/
structure Fresh (start : Int) (ident : String) (socket : Stream) (s : State) : Prop where
  sound : Sound start ident s
  unmoved : s.socket = socket
  drained : s.store.eventsAfter ident socket.reader.cursor = []

/-- Since an empty read something has come in. -/
structure Missed (start : Int) (ident principal : String) (socket : Stream) (s : State) : Prop where
  sound : Sound start ident s
  unmoved : s.socket = socket
  below : socket.reader.cursor < s.store.events.next
  behind : Behind socket.reader.cursor ident principal s.store

section Between

variable {socket : Stream} {s : State} {action : Action}

theorem step_unmoved (polls : action ≠ .socketRead) (same : s.socket = socket) :
    (step ident principal s action).2.socket = socket := by
  cases action with
  | socketRead => exact absurd rfl polls
  | store | sseRead => exact same

theorem step_grows (before : Sound start ident s) (action : Action) :
    Log.Grows s.store.events (step ident principal s action).2.store.events := by
  cases action with
  | socketRead | sseRead => exact .refl _
  | store call =>
    simp only [step]
    cases run : JobMoves.step s.store call with
    | mk result t =>
      cases result with
      | error e =>
        obtain rfl := call_raised run
        exact .refl _
      | ok value => exact (call_moves before.orphans run).grows

theorem fresh_step (polls : action ≠ .socketRead) (fresh : Fresh start ident socket s)
    (quiet : ¬ Commits start ident
      ⟨s, action, (step ident principal s action).1, (step ident principal s action).2⟩) :
    Fresh start ident socket (step ident principal s action).2 := by
  refine ⟨step_sound s action fresh.sound, step_unmoved polls fresh.unmoved, eventsAfter_nil.mpr ?_⟩
  intro entry there
  have started := fresh.sound.socket.started
  rw [fresh.unmoved] at started
  by_contra above
  have old : entry ∈ logOf s.store ident := by
    by_contra new
    exact quiet ⟨entry, there, by omega, new⟩
  exact above (eventsAfter_nil.mp fresh.drained entry old)

theorem missed_of_commits (polls : action ≠ .socketRead) (fresh : Fresh start ident socket s)
    (commits : Commits start ident
      ⟨s, action, (step ident principal s action).1, (step ident principal s action).2⟩) :
    Missed start ident principal socket (step ident principal s action).2 := by
  obtain ⟨entry, there, above, new⟩ := commits
  have after := @step_sound start ident principal s action fresh.sound
  have high := added_drawn (step_grows fresh.sound action) there new
  have drawn := Log.select_drawn _ _ there
  have cursor := fresh.sound.socket.drawn
  rw [fresh.unmoved] at cursor
  have below : socket.reader.cursor < (step ident principal s action).2.store.events.next := by
    have reached : (entry.1 : Int) < (step ident principal s action).2.store.events.next :=
      Int.ofNat_lt.mpr drawn
    omega
  refine ⟨after, step_unmoved polls fresh.unmoved, below, ?_⟩
  intro job _ _ none
  have low := eventsAfter_nil.mp none entry there
  omega

theorem missed_step (polls : action ≠ .socketRead) (missed : Missed start ident principal socket s) :
    Missed start ident principal socket (step ident principal s action).2 := by
  refine ⟨step_sound s action missed.sound, step_unmoved polls missed.unmoved, ?_, ?_⟩
  · exact Int.lt_of_lt_of_le missed.below
      (Int.ofNat_le.mpr (step_grows missed.sound action).next)
  · cases action with
    | socketRead | sseRead => exact missed.behind
    | store call =>
      simp only [step]
      cases run : JobMoves.step s.store call with
      | mk result t =>
        cases result with
        | error e =>
          obtain rfl := call_raised run
          exact missed.behind
        | ok value => exact behind_call missed.sound.orphans run missed.below missed.behind

theorem emptyRead_fresh (sound : Sound start ident s) (phase : s.socket.phase = .events)
    (empty : s.store.eventsAfter ident s.socket.reader.cursor = []) :
    Fresh start ident (step ident principal s .socketRead).2.socket
        (step ident principal s .socketRead).2 ∧
      (step ident principal s .socketRead).2.socket.phase = .status true := by
  have ends : (s.store.events.after (ofJob ident) s.socket.reader.cursor).getLast? = none := by
    rw [List.getLast?_eq_none_iff]
    exact empty
  have after : socketRead ident principal s.store s.socket = s.socket.readEvents ident s.store := by
    simp only [socketRead, phase]
  refine ⟨⟨step_sound s .socketRead sound, rfl, ?_⟩, ?_⟩
  · simp only [step, after, Stream.readEvents, Log.Reader.read, ends]
    exact empty
  · simp only [step, after, Stream.readEvents, empty, List.isEmpty_nil]

/-- After an empty read and other callers' steps, the store holds something new of the job exactly
when one of them committed it. -/
theorem between_cases (fresh : Fresh start ident s.socket s) {between : List Action}
    (polls : ∀ e ∈ history (step ident principal) s between, e.action ≠ .socketRead) :
    ((∀ e ∈ history (step ident principal) s between, ¬ Commits start ident e) ∧
        Fresh start ident s.socket (final (step ident principal) s between)) ∨
      ((∃ e ∈ history (step ident principal) s between, ¬ ¬ Commits start ident e) ∧
        Missed start ident principal s.socket (final (step ident principal) s between)) := by
  refine sound_or_doomed_of_allowed (fun _ _ => fresh_step) ?_ (fun _ _ => missed_step) fresh polls
  exact fun _ _ polls fresh commits => missed_of_commits polls fresh (not_not.mp commits)

end Between

/-- A socket that waits for the status after an empty read has made that read last. -/
def LastRead (ident : String) (events : List (Event State Action Unit)) (s : State) : Prop :=
  s.socket.phase = .status true → ∃ first read between, events = first ++ read :: between ∧
    EmptyRead ident read ∧ ∀ e ∈ between, e.action ≠ .socketRead

theorem step_lastRead (events : List (Event State Action Unit)) (s : State) (action : Action)
    (before : LastRead ident events s) :
    LastRead ident (events ++ [⟨s, action, (step ident principal s action).1,
      (step ident principal s action).2⟩]) (step ident principal s action).2 := by
  intro waits
  by_cases polls : action = .socketRead
  · subst polls
    refine ⟨events, _, [], rfl, ⟨rfl, ?_⟩, by simp⟩
    simp only [step, socketRead] at waits
    split at waits
    next phase => exact ⟨phase, List.isEmpty_iff.mp (Phase.status.inj waits)⟩
    next =>
      split at waits
      · dsimp only at waits
        split at waits <;> cases waits
      · cases waits
    next phase other => exact absurd waits (other true)
  · rw [step_unmoved polls rfl] at waits
    obtain ⟨first, read, between, rfl, empty, others⟩ := before waits
    refine ⟨first, read, between ++ [_], by rw [List.append_assoc, List.cons_append], empty, ?_⟩
    intro e mem
    rcases List.mem_append.mp mem with earlier | last
    · exact others e earlier
    · obtain rfl := List.mem_singleton.mp last
      exact polls

theorem sseRead_closes (opened : st.phase ≠ .closed)
    (closes : (sseRead ident s st).phase = .closed) :
    st.phase = .recheck ∧ (sseRead ident s st).reader = st.reader ∧
      s.eventsAfter ident st.reader.cursor = [] := by
  unfold sseRead at closes ⊢
  split at closes
  next => cases closes
  next =>
    split at closes
    next => cases closes
    next job found =>
      split at closes <;> cases closes
  next phase =>
    split at closes
    next empty => exact ⟨phase, rfl, List.isEmpty_iff.mp empty⟩
    next => cases closes
  next other => exact absurd closes opened

theorem step_sseComplete (s : State) (action : Action) (sound : Sound start ident s) :
    SseComplete start ident
      ⟨s, action, (step ident principal s action).1, (step ident principal s action).2⟩ := by
  intro opened closes
  cases action with
  | store call => exact absurd closes opened
  | socketRead => exact absurd closes opened
  | sseRead =>
    have phase := sseRead_closes opened closes
    simp only [AllSent, step, phase.2.1]
    exact (Log.stored_eq_iff sound.sse).mpr phase.2.2

theorem inOrder_of_faithful (faithful : st.reader.Faithful start s.events (ofJob ident)) :
    InOrder start st :=
  ⟨faithful.ordered, fun e mem => (faithful.within e mem).1⟩

variable {run : List Action} {first between rest : List (Event State Action Unit)}
  {read close : Event State Action Unit}

/-- Where the socket reads next after an empty read, it reads the status. -/
theorem at_close
    (split : history (step ident principal) (opened start) run =
      first ++ read :: (between ++ close :: rest))
    (empty : EmptyRead ident read) (polls : ∀ e ∈ between, e.action ≠ .socketRead) :
    close.before.socket.phase = .status true ∧
      (((∀ e ∈ between, ¬ Commits start ident e) ∧
          Fresh start ident close.before.socket close.before) ∨
        ((∃ e ∈ between, ¬ ¬ Commits start ident e) ∧
          Missed start ident principal close.before.socket close.before)) := by
  obtain ⟨earlier, later, -, -, tail⟩ := history_prefix split
  have sound := final_invariant (@step_sound start ident principal) (opened_sound start ident) earlier
  cases later with
  | nil => cases tail
  | cons action later =>
    obtain ⟨here, remains⟩ := List.cons.inj tail
    subst here
    obtain ⟨rfl, phase, nothing⟩ := empty
    obtain ⟨fresh, waits⟩ := @emptyRead_fresh start ident principal _ sound phase nothing
    obtain ⟨mid, last, -, rfl, ends⟩ := history_prefix remains
    cases last with
    | nil => cases ends
    | cons action last =>
      obtain ⟨rfl, -⟩ := List.cons.inj ends
      rcases between_cases fresh polls with ⟨none, still⟩ | ⟨some, missed⟩
      · exact ⟨by rw [still.unmoved]; exact waits, .inl ⟨none, by rw [still.unmoved]; exact still⟩⟩
      · exact ⟨by rw [missed.unmoved]; exact waits, .inr ⟨some, by rw [missed.unmoved]; exact missed⟩⟩

theorem complete_of_nothingBetween
    (quiet : NothingBetween start ident principal (history (step ident principal) (opened start) run)) :
    ∀ e ∈ history (step ident principal) (opened start) run, SocketComplete start ident e := by
  intro e member opened closes
  obtain ⟨pre, post, split⟩ := List.append_of_mem member
  have shape := step_of_mem member
  have after : e.after = (step ident principal e.before e.action).2 := by rw [shape]
  cases called : e.action with
  | store | sseRead =>
    rw [after, called] at closes
    exact absurd closes opened
  | socketRead =>
    rw [after, called] at closes ⊢
    obtain ⟨phase, same, job, found, owned, terminal⟩ := socketRead_closes opened closes
    have traced : LastRead ident pre e.before :=
      traced_before step_lastRead (fun waits => by cases waits) split
    obtain ⟨first, read, between, rfl, empty, polls⟩ := traced phase
    rw [List.append_assoc, List.cons_append] at split
    have none := quiet first read between e post split empty polls ⟨called, job, found, owned, terminal⟩
    obtain ⟨-, ⟨-, fresh⟩ | ⟨⟨other, mem, commits⟩, -⟩⟩ := at_close split empty polls
    · refine ⟨?_, terminalLast fresh.sound.ends found terminal⟩
      simp only [AllSent, step, same]
      exact (Log.stored_eq_iff fresh.sound.socket).mpr fresh.drained
    · exact absurd (none other mem) commits

theorem nothingBetween_of_complete
    (complete : ∀ e ∈ history (step ident principal) (opened start) run, SocketComplete start ident e) :
    NothingBetween start ident principal (history (step ident principal) (opened start) run) := by
  intro first read between close rest split empty polls finds
  obtain ⟨phase, ⟨none, -⟩ | ⟨-, missed⟩⟩ := at_close split empty polls
  · exact none
  · have member : close ∈ history (step ident principal) (opened start) run := by
      rw [split]
      simp
    obtain ⟨called, job, found, owned, terminal⟩ := finds
    have after : close.after = (step ident principal close.before .socketRead).2 := by
      rw [← called, step_of_mem member]
    have closed := socketRead_closed phase found owned terminal
    have open_ : close.before.socket.phase ≠ .closed := by
      rw [phase]
      exact nofun
    obtain ⟨sent, -⟩ := complete close member open_ (by simp only [after, step, closed])
    simp only [AllSent, after, step, closed] at sent
    exact absurd ((Log.stored_eq_iff missed.sound.socket).mp sent) (missed.behind job found owned)

/-- For every job, start and run: both streams send in order and without repetition, the SSE stream
ends with every event sent, and the socket closes with every event sent if and only if no event is
committed between its last, empty events read and the status read that finds the job terminal. -/
theorem socket_stream_complete_iff (ident principal : String) (start : Int) (run : List Action) :
    (∀ e ∈ history (step ident principal) (opened start) run,
        InOrder start e.after.socket ∧ InOrder start e.after.sse ∧ SseComplete start ident e) ∧
      ((∀ e ∈ history (step ident principal) (opened start) run, SocketComplete start ident e) ↔
        NothingBetween start ident principal (history (step ident principal) (opened start) run)) := by
  refine ⟨?_, nothingBetween_of_complete, complete_of_nothingBetween⟩
  have keeps : ∀ s a, Sound start ident s → Sound start ident (step ident principal s a).2 :=
    step_sound
  intro e member
  have sound := (invariant keeps (opened_sound start ident) run).1 e member
  refine ⟨inOrder_of_faithful sound.2.socket, inOrder_of_faithful sound.2.sse, ?_⟩
  have complete := @step_sseComplete start ident principal e.before e.action sound.1
  rw [step_of_mem member] at complete
  exact complete

/-- The worker finishes between the socket's last two reads. -/
def finishedBetween : List Action :=
  [.store (.enqueue "j" "goal" none ⟨1, by decide⟩ (some "ada") 0 0), .store (.claim 1),
   .socketRead, .socketRead, .socketRead, .store (.finish "j" (.obj []) 2), .socketRead]

/-- The socket closes without the `done` event. -/
theorem socket_misses_terminal_event :
    ¬ ∀ (ident principal : String) (start : Int) (run : List Action),
      ∀ e ∈ history (step ident principal) (opened start) run, SocketComplete start ident e := by
  intro contract
  obtain ⟨sent, -⟩ := contract "j" "ada" 0 finishedBetween _ (List.mem_of_getLast? rfl)
    (by decide +kernel) (by decide +kernel)
  have lengths := congrArg List.length sent
  revert lengths
  decide +kernel

end Meemee.Guarantees.StreamCompleteness
