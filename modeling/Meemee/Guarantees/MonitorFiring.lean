import Meemee.Library.History
import Meemee.Source.Monitors

/-!
# Monitor firing

A monitor fires once for each of its `triggered` events, at most `max_fires` times, in the
status active and before its deadline. An identity is admitted once, and what is refused
changes nothing.
-/
namespace Meemee.Guarantees.MonitorFiring
open Library Library.History Source Source.Monitors Library.Txn Library.Table List

inductive Action where
  | create (ownerId : String) (item : MonitorInput) (ident : String) (now stamp : Instant)
  | evaluate (owner source : String) (payload : Json) (time : Option String) (now : Instant)
      (stamp : String → Instant)
  | evaluateIdentified (owner source : String) (payload : Json) (eventId time : Option String)
      (now : Instant) (stamp : String → Instant)
  | cancel (ownerId ident : String) (now stamp : Instant)
  | get (ownerId ident : String)

inductive Answer where
  | done
  | fired (idents : List String)
  | evaluated (evaluation : Evaluation)
  | cancelled (changed : Bool)
  | row (found : Option Monitor)
  deriving DecidableEq

abbrev Result := Except MonitorExc Answer

abbrev Step := Event MonitorStore Action Result

def call (python : Python) (s : MonitorStore) : Action → Result × MonitorStore
  | .create ownerId item ident now stamp =>
    Txn.answer (fun _ => .done) (create ownerId item ident now stamp) s
  | .evaluate owner source payload time now stamp =>
    Txn.answer .fired (evaluate python owner source payload time now stamp) s
  | .evaluateIdentified owner source payload eventId time now stamp =>
    Txn.answer .evaluated (evaluateIdentified python owner source payload eventId time now stamp) s
  | .cancel ownerId ident now stamp => Txn.answer .cancelled (cancel ownerId ident now stamp) s
  | .get ownerId ident => Txn.answer .row (Monitors.get ownerId ident) s

/-- The owner and the source that an action evaluates an event of. -/
def Action.evaluates : Action → Option (String × String)
  | .evaluate owner source _ _ _ _ => some (owner, source)
  | .evaluateIdentified owner source _ _ _ _ _ => some (owner, source)
  | _ => none

/-- The evaluation time of an action. -/
def Action.clock (python : Python) : Action → Option Instant
  | .evaluate _ _ _ time now _ => (evaluationTime python time now).toOption
  | .evaluateIdentified _ _ _ _ time now _ => (evaluationTime python time now).toOption
  | _ => none

/-- The identity that an action supplies. -/
def Action.identity : Action → Option (String × String × String)
  | .evaluateIdentified owner source _ eventId _ _ _ => eventId.map (fun event => (owner, source, event))
  | _ => none

def eventsOf (s : MonitorStore) : List MonitorEvent := s.events.entries.map (fun e => e.2)

/-- The event is a firing of the monitor. -/
def firing (ident : String) (e : MonitorEvent) : Bool :=
  decide (e.monitorId = ident ∧ e.kind = .triggered)

def firings (s : MonitorStore) (ident : String) : Nat := (eventsOf s).countP (firing ident)

def appended (s : MonitorStore) (e : MonitorEvent) : MonitorStore :=
  { s with events := s.events.append e }

@[simp] theorem appended_monitors (s : MonitorStore) (e : MonitorEvent) :
    (appended s e).monitors = s.monitors := rfl

@[simp] theorem eventsOf_appended (s : MonitorStore) (e : MonitorEvent) :
    eventsOf (appended s e) = eventsOf s ++ [e] := by
  simp [eventsOf, appended, Log.append]

/-- One monitor rewritten and one event recorded. -/
def rewritten (s : MonitorStore) (f : Monitor → Monitor) (keeps : ∀ m, (f m).id = m.id)
    (e : MonitorEvent) : MonitorStore :=
  appended (s.updated (fun m => decide (m.id = e.monitorId)) f keeps) e

variable {s t : MonitorStore} {ident owner source : String} {payload : Json} {now clock : Instant}
  {python : Python} {stamp : String → Instant} {row m : Monitor} {rows : List Monitor}
  {action : Action} {fires : Nat} {answer : Result} {e : Step} {key : String × String × String}

theorem find_rewritten {f : Monitor → Monitor} {keeps : ∀ m, (f m).id = m.id} {e : MonitorEvent}
    (other : String) : (rewritten s f keeps e).monitors.find other =
      if other = e.monitorId then (s.monitors.find other).map f else s.monitors.find other :=
  find_update_key _ e.monitorId f keeps other

theorem eventsOf_rewritten {s : MonitorStore} {f : Monitor → Monitor}
    {keeps : ∀ m, (f m).id = m.id} {e : MonitorEvent} :
    eventsOf (rewritten s f keeps e) = eventsOf s ++ [e] :=
  eventsOf_appended _ e

theorem event_run {kind : EventKind} (run : event ident owner kind payload now s = (.ok (), t)) :
    ∃ text, t = appended s ⟨ident, owner, kind, text, now⟩ := by
  obtain ⟨text, -, written⟩ := ofExcept_bind_returned run
  cases written
  exact ⟨text, rfl⟩

/-- What an evaluation makes of one active monitor. -/
inductive Turn (owner : String) (clock : Instant) (row : Monitor) (s : MonitorStore) :
    MonitorStore → Prop where
  | passed : Turn owner clock row s s
  | timedOut (text : String) (stamp : Instant) :
      Turn owner clock row s (rewritten s (Monitor.timedOut clock) (Monitor.timedOut_id clock)
        ⟨row.id, owner, .timedOut, text, stamp⟩)
  | fired (text : String) (stamp : Instant) (early : row.expired clock = false) :
      Turn owner clock row s (rewritten s (row.fired clock) (row.fired_id clock)
        ⟨row.id, owner, .triggered, text, stamp⟩)

theorem evaluateRow_turn {fired : List String}
    (run : evaluateRow python owner payload clock stamp row s = (.ok fired, t)) :
    Turn owner clock row s t := by
  unfold evaluateRow at run
  cases late : row.expired clock with
  | true =>
    rw [late, if_pos rfl, run_bind_write] at run
    obtain ⟨_, s', recorded, rest⟩ := bind_returned run
    obtain ⟨text, rfl⟩ := event_run recorded
    cases rest
    exact .timedOut text (stamp row.id)
  | false =>
    rw [late] at run
    obtain ⟨hit, -, rest⟩ := ofExcept_bind_returned run
    cases hit with
    | false =>
      cases rest
      exact .passed
    | true =>
      rw [if_pos rfl, run_bind_write] at rest
      obtain ⟨_, s', recorded, rest⟩ := bind_returned rest
      obtain ⟨text, rfl⟩ := event_run recorded
      cases rest
      exact .fired text (stamp row.id) late

/-- The turns of a list of monitors, one after another. -/
inductive Walk (owner : String) (clock : Instant) : List Monitor → MonitorStore → MonitorStore → Prop where
  | nil (s : MonitorStore) : Walk owner clock [] s s
  | cons {row : Monitor} {rest : List Monitor} {s s' t : MonitorStore}
      (turn : Turn owner clock row s s') (later : Walk owner clock rest s' t) :
      Walk owner clock (row :: rest) s t

theorem evaluateRows_walk {fired : List String}
    (run : evaluateRows python owner payload clock stamp rows s = (.ok fired, t)) :
    Walk owner clock rows s t := by
  induction rows generalizing s fired with
  | nil =>
    cases run
    exact .nil _
  | cons row rest ih =>
    obtain ⟨first, s', turn, run⟩ := bind_returned run
    obtain ⟨later, t', walk, run⟩ := bind_returned run
    cases run
    exact .cons (evaluateRow_turn turn) (ih walk)

/-- The walk that an evaluation of the owner and the source makes. -/
def Evaluated (owner source : String) (clock : Instant) (s t : MonitorStore) : Prop :=
  Walk owner clock (s.monitors.select (watching owner source)) s t

inductive Change (python : Python) (s : MonitorStore) : Action → Result → MonitorStore → Prop where
  | refused (action : Action) (e : MonitorExc) : Change python s action (.error e) s
  | got (ownerId ident : String) (found : Option Monitor) :
      Change python s (.get ownerId ident) (.ok (.row found)) s
  | created (ownerId ident text : String) (item : MonitorInput) (now stamp : Instant)
      (fresh : s.monitors.find (item.row ident ownerId now).id = none) :
      Change python s (.create ownerId item ident now stamp) (.ok .done)
        (appended { s with monitors := s.monitors.insert (item.row ident ownerId now) fresh }
          ⟨ident, ownerId, .created, text, stamp⟩)
  | idle (ownerId ident : String) (now stamp : Instant) :
      Change python s (.cancel ownerId ident now stamp) (.ok (.cancelled false)) s
  | cancelled (ownerId ident text : String) (now stamp : Instant) (m : Monitor)
      (found : s.monitors.find ident = some m) (own : m.ownerId = ownerId)
      (active : m.status = .active) :
      Change python s (.cancel ownerId ident now stamp) (.ok (.cancelled true))
        (rewritten s (Monitor.cancelled now) (Monitor.cancelled_id now)
          ⟨ident, ownerId, .cancelled, text, stamp⟩)
  | unidentified (action : Action) (owner source : String) (clock : Instant) (answer : Answer)
      (t : MonitorStore) (evaluates : action.evaluates = some (owner, source))
      (timed : action.clock python = some clock) (plain : action.identity = none)
      (walk : Evaluated owner source clock s t) : Change python s action (.ok answer) t
  | replayed (owner source event : String) (payload : Json) (time : Option String) (now : Instant)
      (stamp : String → Instant) :
      Change python s (.evaluateIdentified owner source payload (some event) time now stamp)
        (.ok (.evaluated ⟨[], .replay⟩)) s
  | identified (owner source event : String) (payload : Json) (time : Option String) (now : Instant)
      (stamp : String → Instant) (clock : Instant) (fired : List String) (row : SourceEvent)
      (t : MonitorStore) (timed : evaluationTime python time now = .ok clock)
      (keyed : row.key = (owner, source, event)) (fresh : s.sourceEvents.find row.key = none)
      (walk : Evaluated owner source clock (s.admitted row fresh) t) :
      Change python s (.evaluateIdentified owner source payload (some event) time now stamp)
        (.ok (.evaluated ⟨fired, .new⟩)) t

theorem clean_evaluateIdentified (python : Python) (owner source : String) (payload : Json)
    (eventId time : Option String) (now : Instant) (stamp : String → Instant) :
    Txn.RaisesClean (evaluateIdentified python owner source payload eventId time now stamp) := by
  apply raisesClean_ofExcept_bind
  rintro ⟨identity, payload'⟩ _
  apply raisesClean_ofExcept_bind
  intro _ _
  apply raisesClean_ofExcept_bind
  intro clock _
  exact raisesClean_atomically _

theorem evaluateActive_walk {status : EvaluationStatus} {evaluation : Evaluation}
    (run : evaluateActive python owner source payload clock stamp status s = (.ok evaluation, t)) :
    Evaluated owner source clock s t ∧ evaluation.status = status := by
  rw [evaluateActive, run_bind_read] at run
  obtain ⟨fired, t', walk, run⟩ := bind_returned run
  cases run
  exact ⟨evaluateRows_walk walk, rfl⟩

theorem admit_run {identity : MonitorIdentity.EventIdentity} {fresh : Bool}
    (run : admitEvent identity clock s = (.ok fresh, t)) :
    (fresh = false ∧ t = s) ∨ (fresh = true ∧ ∃ row : SourceEvent, row.key = identity.key ∧
      ∃ new : s.sourceEvents.find row.key = none, t = s.admitted row new) := by
  unfold admitEvent at run
  split at run
  · split at run
    · cases run
    · cases run
      exact .inl ⟨rfl, rfl⟩
  next new =>
    cases run
    exact .inr ⟨rfl, _, rfl, new, rfl⟩

/-- An evaluation that returned: its time, and the walk, unless it was a replay. -/
theorem evaluateIdentified_run {eventId time : Option String} {evaluation : Evaluation}
    (run : evaluateIdentified python owner source payload eventId time now stamp s =
      (.ok evaluation, t)) :
    ∃ clock, evaluationTime python time now = .ok clock ∧
      ((eventId = none ∧ Evaluated owner source clock s t) ∨
        ∃ event, eventId = some event ∧
          ((evaluation = ⟨[], .replay⟩ ∧ t = s) ∨
            (evaluation.status = .new ∧ ∃ row : SourceEvent, row.key = (owner, source, event) ∧
              ∃ new : s.sourceEvents.find row.key = none,
                Evaluated owner source clock (s.admitted row new) t))) := by
  obtain ⟨⟨identity, payload'⟩, prepared, run⟩ := ofExcept_bind_returned run
  obtain ⟨_, -, run⟩ := ofExcept_bind_returned run
  obtain ⟨clock, timed, run⟩ := ofExcept_bind_returned run
  refine ⟨clock, timed, ?_⟩
  have body := atomically_ok.mp run
  unfold prepareMonitorIdentity at prepared
  cases eventId with
  | none =>
    cases prepared
    exact .inl ⟨rfl, (evaluateActive_walk body).1⟩
  | some event =>
    refine .inr ⟨event, rfl, ?_⟩
    simp only at prepared
    split at prepared
    next decision identified =>
      cases prepared
      have keyed := MonitorIdentity.identifyEvent_key identified
      obtain ⟨fresh, s', first, rest⟩ := bind_returned body
      rcases admit_run first with ⟨rfl, rfl⟩ | ⟨rfl, row, same, new, rfl⟩
      · cases rest
        exact .inl ⟨rfl, rfl⟩
      · obtain ⟨walk, status⟩ := evaluateActive_walk rest
        exact .inr ⟨status, row, same.trans keyed, new, walk⟩
    next => cases prepared

theorem answer_change {α : Type} {wrap : α → Answer} {m : MonitorTxn α} (clean : Txn.RaisesClean m)
    (returns : ∀ a t, m s = (.ok a, t) → Change python s action (.ok (wrap a)) t) :
    Change python s action (Txn.answer wrap m s).1 (Txn.answer wrap m s).2 := by
  rcases run : m s with ⟨result, t⟩
  cases result with
  | ok a =>
    rw [answer_of_ok run]
    exact returns a t run
  | error e =>
    rw [answer_of_error run, clean s e t run]
    exact .refused action e

theorem clean_evaluate (python : Python) (owner source : String) (payload : Json)
    (time : Option String) (now : Instant) (stamp : String → Instant) :
    Txn.RaisesClean (evaluate python owner source payload time now stamp) := by
  apply raisesClean_bind_total
    (clean_evaluateIdentified python owner source payload none time now stamp)
  intro evaluation s
  exact ⟨evaluation.fired, s, rfl⟩

theorem insertMonitor_run (run : insertMonitor row s = (.ok (), t)) :
    ∃ fresh, t = { s with monitors := s.monitors.insert row fresh } := by
  unfold insertMonitor at run
  split at run
  next fresh =>
    cases run
    exact ⟨fresh, rfl⟩
  next => cases run

theorem create_change (python : Python) (ownerId : String) (item : MonitorInput) (ident : String)
    (now stamp : Instant) (s : MonitorStore) :
    Change python s (.create ownerId item ident now stamp)
      (call python s (.create ownerId item ident now stamp)).1
      (call python s (.create ownerId item ident now stamp)).2 := by
  apply answer_change
  · exact raisesClean_require_bind (raisesClean_atomically _)
  · intro _ t run
    obtain ⟨-, body⟩ := require_bind_returned run
    obtain ⟨_, s', inserted, recorded⟩ := bind_returned (atomically_ok.mp body)
    obtain ⟨fresh, rfl⟩ := insertMonitor_run inserted
    obtain ⟨text, rfl⟩ := event_run recorded
    exact .created ownerId ident text item now stamp fresh

theorem cancel_change (python : Python) (ownerId ident : String) (now stamp : Instant)
    (s : MonitorStore) :
    Change python s (.cancel ownerId ident now stamp)
      (call python s (.cancel ownerId ident now stamp)).1
      (call python s (.cancel ownerId ident now stamp)).2 := by
  apply answer_change (raisesClean_atomically _)
  intro changed t run
  have body := atomically_ok.mp run
  rw [run_bind_read, run_bind_write] at body
  cases matched : s.monitors.select (cancellable ownerId ident) with
  | nil =>
    rw [matched] at body
    cases body
    have unmatched := select_isEmpty.mp (by rw [matched]; rfl)
    have same : s.updated (cancellable ownerId ident) (Monitor.cancelled now)
        (Monitor.cancelled_id now) = s := by
      unfold MonitorStore.updated
      rw [update_none unmatched]
    rw [same]
    exact .idle ownerId ident now stamp
  | cons m rest =>
    rw [matched] at body
    obtain ⟨_, s', recorded, rest⟩ := bind_returned body
    obtain ⟨text, rfl⟩ := event_run recorded
    cases rest
    have head : m ∈ s.monitors.select (cancellable ownerId ident) := by
      rw [matched]
      exact mem_cons_self
    obtain ⟨mem, met⟩ := mem_filter.mp head
    obtain ⟨own, named, active⟩ := of_decide_eq_true met
    have found : s.monitors.find ident = some m := by
      rw [← named]
      exact find_of_mem mem
    have change := @Change.cancelled python s ownerId ident text now stamp m found own active
    have same : s.updated (fun m => decide (m.id = ident)) (Monitor.cancelled now)
        (Monitor.cancelled_id now) = s.updated (cancellable ownerId ident) (Monitor.cancelled now)
        (Monitor.cancelled_id now) := by
      unfold MonitorStore.updated
      congr 1
      apply update_congr
      intro other there
      by_cases here : other.id = ident
      · rw [eq_of_find found there here, met, decide_eq_true named]
      · simp [cancellable, here]
    rw [rewritten, same] at change
    exact change

theorem step_change (python : Python) (s : MonitorStore) (action : Action) :
    Change python s action (call python s action).1 (call python s action).2 := by
  cases action with
  | create ownerId item ident now stamp => exact create_change python ownerId item ident now stamp s
  | evaluate owner source payload time now stamp =>
    apply answer_change (clean_evaluate python owner source payload time now stamp)
    intro fired t run
    obtain ⟨evaluation, t', inner, rest⟩ := bind_returned run
    cases rest
    obtain ⟨clock, timed, ⟨-, walk⟩ | ⟨event, absent, -⟩⟩ := evaluateIdentified_run inner
    · apply Change.unidentified _ owner source clock _ _ rfl _ rfl walk
      simp only [Action.clock, timed, Except.toOption]
    · cases absent
  | evaluateIdentified owner source payload eventId time now stamp =>
    apply answer_change (clean_evaluateIdentified python owner source payload eventId time now stamp)
    intro evaluation t run
    obtain ⟨clock, timed, ⟨rfl, walk⟩ | ⟨event, rfl, ⟨rfl, rfl⟩ | new⟩⟩ := evaluateIdentified_run run
    · apply Change.unidentified _ owner source clock _ _ rfl _ rfl walk
      simp only [Action.clock, timed, Except.toOption]
    · exact .replayed owner source event payload time now stamp
    · obtain ⟨status, row, keyed, fresh, walk⟩ := new
      obtain ⟨fired, status'⟩ := evaluation
      cases status
      exact .identified owner source event payload time now stamp clock fired row t timed keyed fresh
        walk
  | cancel ownerId ident now stamp => exact cancel_change python ownerId ident now stamp s
  | get ownerId ident => exact .got ownerId ident _

/-- A monitor that has fired that often. -/
structure Consistent (m : Monitor) (fires : Nat) : Prop where
  counted : m.fireCount = fires
  bounded : m.fireCount ≤ m.maxFires
  completed : m.status = .completed ↔ m.fireCount = m.maxFires
  positive : 1 ≤ m.maxFires

/-- Every monitor is consistent with the log, and the log is of stored monitors. -/
structure Sound (s : MonitorStore) : Prop where
  monitors : ∀ ident m, s.monitors.find ident = some m → Consistent m (firings s ident)
  events : ∀ e ∈ eventsOf s, ∃ m, s.monitors.find e.monitorId = some m ∧ m.ownerId = e.ownerId

theorem sound_empty : Sound MonitorStore.empty := by
  constructor
  · intro ident m found
    cases found
  · intro e mem
    cases mem

theorem firings_append (s t : MonitorStore) (e : MonitorEvent) (ident : String)
    (events : eventsOf t = eventsOf s ++ [e]) :
    firings t ident = firings s ident + if firing ident e then 1 else 0 := by
  simp only [firings, events, countP_append, countP_singleton]

theorem firings_other {e : MonitorEvent} (events : eventsOf t = eventsOf s ++ [e])
    (other : e.monitorId ≠ ident) : firings t ident = firings s ident := by
  rw [firings_append s t e ident events]
  simp [firing, other]

/-- One monitor is rewritten, consistently with the event that is recorded. -/
theorem sound_rewritten (sound : Sound s) {f : Monitor → Monitor} {keeps : ∀ m, (f m).id = m.id}
    {e : MonitorEvent} (found : s.monitors.find e.monitorId = some m)
    (owner : ∀ m, (f m).ownerId = m.ownerId) (own : m.ownerId = e.ownerId)
    (consistent : Consistent (f m) (firings s e.monitorId + if e.kind = .triggered then 1 else 0)) :
    Sound (rewritten s f keeps e) := by
  have events := @eventsOf_rewritten s f keeps e
  have here : (rewritten s f keeps e).monitors.find e.monitorId = some (f m) := by
    rw [find_rewritten, if_pos rfl, found, Option.map_some]
  constructor
  · intro ident m' found'
    by_cases same : ident = e.monitorId
    · subst same
      rw [here] at found'
      cases found'
      rw [firings_append s _ e _ events]
      simpa [firing] using consistent
    · rw [find_rewritten, if_neg same] at found'
      rw [firings_other events (Ne.symm same)]
      exact sound.monitors ident m' found'
  · intro e' mem
    rw [events] at mem
    rcases mem_append.mp mem with old | new
    · obtain ⟨m', found', own'⟩ := sound.events e' old
      by_cases same : e'.monitorId = e.monitorId
      · rw [same, here]
        rw [same, found] at found'
        cases found'
        exact ⟨f m, rfl, (owner m).trans own'⟩
      · rw [find_rewritten, if_neg same]
        exact ⟨m', found', own'⟩
    · rw [mem_singleton] at new
      subst new
      exact ⟨f m, here, (owner m).trans own⟩

theorem below_of_active (consistent : Consistent m fires) (active : m.status = .active) :
    m.fireCount < m.maxFires := by
  have bounded := consistent.bounded
  have open_ : m.fireCount ≠ m.maxFires := by
    intro full
    have completed := consistent.completed.mpr full
    rw [active] at completed
    cases completed
  omega

theorem consistent_left {m' : Monitor} (consistent : Consistent m fires)
    (active : m.status = .active) (count : m'.fireCount = m.fireCount)
    (limit : m'.maxFires = m.maxFires) (left : m'.status ≠ .completed) : Consistent m' fires := by
  have below := below_of_active consistent active
  constructor
  · rw [count]
    exact consistent.counted
  · omega
  · constructor
    · intro completed
      exact absurd completed left
    · omega
  · rw [limit]
    exact consistent.positive

theorem consistent_fired (clock : Instant) (consistent : Consistent m fires)
    (active : m.status = .active) : Consistent (m.fired clock m) (fires + 1) := by
  have below := below_of_active consistent active
  have counted := consistent.counted
  constructor
  · simp only [Monitor.fired]
    omega
  · simp only [Monitor.fired]
    omega
  · simp only [Monitor.fired]
    split
    next full =>
      have last : m.fireCount + 1 = m.maxFires := by omega
      simp [last]
    next more =>
      have notLast : m.fireCount + 1 ≠ m.maxFires := by omega
      simp [notLast]
  · exact consistent.positive

section Walks

variable {owner : String} {clock : Instant}

/-- The rows of a walk: stored as they were read, active, of the owner, and each once. -/
structure Ready (owner : String) (rows : List Monitor) (s : MonitorStore) : Prop where
  stored : ∀ m ∈ rows, s.monitors.find m.id = some m
  active : ∀ m ∈ rows, m.status = .active
  own : ∀ m ∈ rows, m.ownerId = owner
  once : (rows.map Monitor.id).Nodup

theorem ready_watching (s : MonitorStore) (owner source : String) :
    Ready owner (s.monitors.select (watching owner source)) s := by
  constructor
  · intro m mem
    exact find_of_mem (mem_of_mem_filter mem)
  · intro m mem
    exact (of_decide_eq_true (mem_filter.mp mem).2).2.2
  · intro m mem
    exact (of_decide_eq_true (mem_filter.mp mem).2).1
  · exact (List.Sublist.map Monitor.id filter_sublist).nodup s.monitors.unique

theorem turn_frame (turn : Turn owner clock row s t) :
    t.sourceEvents = s.sourceEvents ∧
      ∀ other, other ≠ row.id → t.monitors.find other = s.monitors.find other := by
  cases turn with
  | passed => exact ⟨rfl, fun _ _ => rfl⟩
  | timedOut text stamp =>
    refine ⟨rfl, ?_⟩
    intro other apart
    rw [find_rewritten, if_neg apart]
  | fired text stamp early =>
    refine ⟨rfl, ?_⟩
    intro other apart
    rw [find_rewritten, if_neg apart]

theorem ready_turn {rest : List Monitor} (ready : Ready owner (row :: rest) s)
    (turn : Turn owner clock row s t) : Ready owner rest t := by
  obtain ⟨apart, once⟩ := nodup_cons.mp ready.once
  constructor
  · intro m mem
    have other : m.id ≠ row.id := by
      intro same
      rw [← same] at apart
      exact apart (mem_map_of_mem mem)
    rw [(turn_frame turn).2 m.id other]
    exact ready.stored m (mem_cons_of_mem _ mem)
  · intro m mem
    exact ready.active m (mem_cons_of_mem _ mem)
  · intro m mem
    exact ready.own m (mem_cons_of_mem _ mem)
  · exact once

theorem sound_turn {rest : List Monitor} (sound : Sound s) (ready : Ready owner (row :: rest) s)
    (turn : Turn owner clock row s t) : Sound t := by
  have stored := ready.stored row mem_cons_self
  have active := ready.active row mem_cons_self
  have own := ready.own row mem_cons_self
  have consistent := sound.monitors row.id row stored
  cases turn with
  | passed => exact sound
  | timedOut text stamp =>
    apply sound_rewritten sound stored
    · exact fun _ => rfl
    · exact own
    · exact consistent_left consistent active rfl rfl (by simp [Monitor.timedOut])
  | fired text stamp early =>
    apply sound_rewritten sound stored
    · exact fun _ => rfl
    · exact own
    · exact consistent_fired clock consistent active

theorem sound_walk (walk : Walk owner clock rows s t)
    (sound : Sound s) (ready : Ready owner rows s) : Sound t := by
  induction walk with
  | nil s => exact sound
  | cons turn later ih => exact ih (sound_turn sound ready turn) (ready_turn ready turn)

theorem walk_frame (walk : Walk owner clock rows s t) :
    t.sourceEvents = s.sourceEvents ∧
      ∀ other, other ∉ rows.map Monitor.id → t.monitors.find other = s.monitors.find other := by
  induction walk with
  | nil s => exact ⟨rfl, fun _ _ => rfl⟩
  | cons turn later ih =>
    obtain ⟨sources, frame⟩ := turn_frame turn
    refine ⟨ih.1.trans sources, ?_⟩
    intro other apart
    rw [map_cons, mem_cons, not_or] at apart
    rw [ih.2 other apart.2, frame other apart.1]

/-- The events of a turn or a walk: each of one of the rows, a firing only before the deadline. -/
def Records (owner : String) (clock : Instant) (rows : List Monitor) (added : List MonitorEvent) :
    Prop :=
  ∀ e ∈ added, e.ownerId = owner ∧ ∃ m ∈ rows, e.monitorId = m.id ∧
    (e.kind = .triggered → m.expired clock = false)

theorem records_nil (rows : List Monitor) : Records owner clock rows [] := by
  intro e mem
  cases mem

theorem turn_events (turn : Turn owner clock row s t) :
    ∃ added, eventsOf t = eventsOf s ++ added ∧ Records owner clock [row] added ∧
      (added.map MonitorEvent.monitorId).Sublist [row.id] := by
  cases turn with
  | passed => exact ⟨[], by simp, records_nil [row], by simp⟩
  | timedOut text stamp =>
    refine ⟨_, eventsOf_rewritten, ?_, by simp⟩
    intro e mem
    rw [mem_singleton] at mem
    subst mem
    exact ⟨rfl, row, mem_cons_self, rfl, nofun⟩
  | fired text stamp early =>
    refine ⟨_, eventsOf_rewritten, ?_, by simp⟩
    intro e mem
    rw [mem_singleton] at mem
    subst mem
    exact ⟨rfl, row, mem_cons_self, rfl, fun _ => early⟩

theorem walk_events (walk : Walk owner clock rows s t) :
    ∃ added, eventsOf t = eventsOf s ++ added ∧ Records owner clock rows added ∧
      (added.map MonitorEvent.monitorId).Sublist (rows.map Monitor.id) := by
  induction walk with
  | nil s => exact ⟨[], by simp, records_nil [], by simp⟩
  | @cons row rest s s' t turn later ih =>
    obtain ⟨first, firstEq, firstOf, firstOnce⟩ := turn_events turn
    obtain ⟨others, othersEq, othersOf, othersOnce⟩ := ih
    refine ⟨first ++ others, ?_, ?_, ?_⟩
    · rw [othersEq, firstEq, append_assoc]
    · intro e mem
      rcases mem_append.mp mem with here | there
      · obtain ⟨own, m, only, of_, early⟩ := firstOf e here
        rw [mem_singleton] at only
        subst only
        exact ⟨own, m, mem_cons_self, of_, early⟩
      · obtain ⟨own, m, among, of_, early⟩ := othersOf e there
        exact ⟨own, m, mem_cons_of_mem _ among, of_, early⟩
    · rw [map_append]
      exact firstOnce.append othersOnce

end Walks

theorem sound_created (sound : Sound s) {item : MonitorInput} {ownerId text : String}
    {stamp : Instant} (fresh : s.monitors.find (item.row ident ownerId now).id = none) :
    Sound (appended { s with monitors := s.monitors.insert (item.row ident ownerId now) fresh }
      ⟨ident, ownerId, .created, text, stamp⟩) := by
  have unfired : firings s ident = 0 := by
    rw [firings, countP_eq_zero]
    intro e mem fires
    obtain ⟨m, found, -⟩ := sound.events e mem
    rw [(of_decide_eq_true fires).1] at found
    exact absurd (found.symm.trans fresh) (by simp)
  have inserted := find_insert s.monitors (item.row ident ownerId now) fresh
  have events := eventsOf_appended
    { s with monitors := s.monitors.insert (item.row ident ownerId now) fresh }
    ⟨ident, ownerId, .created, text, stamp⟩
  constructor
  · intro other m found
    rw [firings_append s _ _ other events]
    rw [appended_monitors, inserted] at found
    simp only [firing, reduceCtorEq, and_false]
    split at found
    next same =>
      cases found
      rw [← same]
      have positive := item.fires.1
      have empty : (0 : Nat) ≠ item.maxFires := by omega
      exact ⟨unfired.symm, Nat.zero_le _, by simp [MonitorInput.row, empty], positive⟩
    next => exact sound.monitors other m found
  · intro e mem
    rw [events] at mem
    rw [appended_monitors, inserted]
    rcases mem_append.mp mem with old | new
    · obtain ⟨m, found, own⟩ := sound.events e old
      have other : (item.row ident ownerId now).id ≠ e.monitorId := by
        intro same
        rw [← same, fresh] at found
        cases found
      rw [if_neg other]
      exact ⟨m, found, own⟩
    · rw [mem_singleton] at new
      subst new
      exact ⟨_, if_pos rfl, rfl⟩

theorem sound_evaluated (sound : Sound s) (walk : Evaluated owner source clock s t) : Sound t :=
  sound_walk walk sound (ready_watching s owner source)

theorem sound_admitted (sound : Sound s) (row : SourceEvent)
    (fresh : s.sourceEvents.find row.key = none) : Sound (s.admitted row fresh) :=
  ⟨sound.monitors, sound.events⟩

theorem sound_change (sound : Sound s) (change : Change python s action answer t) : Sound t := by
  cases change with
  | refused action e => exact sound
  | got ownerId ident found => exact sound
  | created ownerId ident text item now stamp fresh => exact sound_created sound fresh
  | idle ownerId ident now stamp => exact sound
  | cancelled ownerId ident text now stamp m found own active =>
    have consistent := sound.monitors ident m found
    apply sound_rewritten sound found
    · exact fun _ => rfl
    · exact own
    · exact consistent_left consistent active rfl rfl (by simp [Monitor.cancelled])
  | unidentified _ owner source clock _ _ evaluates timed plain walk => exact sound_evaluated sound walk
  | replayed owner source event payload time now stamp => exact sound
  | identified owner source event payload time now stamp clock fired row _ timed keyed fresh walk =>
    exact sound_evaluated (sound_admitted sound row fresh) walk

/-- A firing only of an active monitor, before its deadline, and of each once. -/
def FiresInTime (python : Python) (e : Step) : Prop :=
  ∃ added, eventsOf e.after = eventsOf e.before ++ added ∧
    ∀ record ∈ added, record.kind = .triggered → added.countP (firing record.monitorId) = 1 ∧
      ∃ clock m, e.action.clock python = some clock ∧
        e.before.monitors.find record.monitorId = some m ∧ m.status = .active ∧
          ∀ deadline, m.deadline = some deadline → clock < deadline

/-- The step evaluated the monitors under the identity. -/
def evaluatesAs (key : String × String × String) (e : Step) : Bool :=
  decide (e.action.identity = some key) && match e.answer with
    | .ok (.evaluated evaluation) => decide (evaluation.status = .new)
    | _ => false

/-- An evaluation leaves the monitors of other owners and of other sources as they were. -/
def LeavesOthers (e : Step) : Prop :=
  ∀ owner source, e.action.evaluates = some (owner, source) →
    ∀ ident m, e.before.monitors.find ident = some m → (m.ownerId ≠ owner ∨ m.sourceId ≠ source) →
      e.after.monitors.find ident = some m ∧
        (eventsOf e.after).filter (fun record => decide (record.monitorId = ident)) =
          (eventsOf e.before).filter (fun record => decide (record.monitorId = ident))

structure Upheld (python : Python) (e : Step) : Prop where
  inTime : FiresInTime python e
  refused : ∀ error, e.answer = .error error → e.after = e.before
  unevaluated : ∀ key, e.action.identity = some key → evaluatesAs key e = false → e.after = e.before
  apart : LeavesOthers e

theorem firesInTime_silent {added : List MonitorEvent}
    (events : eventsOf e.after = eventsOf e.before ++ added)
    (silent : ∀ record ∈ added, record.kind ≠ .triggered) : FiresInTime python e :=
  ⟨added, events, fun record mem kind => absurd kind (silent record mem)⟩

theorem firesInTime_same (same : e.after = e.before) : FiresInTime python e := by
  apply firesInTime_silent
  · rw [same, append_nil]
  · intro record mem
    cases mem

/-- In a list that names each monitor at most once, a firing is the only one of its monitor. -/
theorem countP_firing {added : List MonitorEvent} (once : (added.map MonitorEvent.monitorId).Nodup)
    {record : MonitorEvent} (mem : record ∈ added) (kind : record.kind = .triggered) :
    added.countP (firing record.monitorId) = 1 := by
  have among : firing record.monitorId record = true := by simp [firing, kind]
  have some_ : 0 < added.countP (firing record.monitorId) := by
    rw [countP_pos_iff]
    exact ⟨record, mem, among⟩
  have named : added.countP (firing record.monitorId) ≤
      (added.map MonitorEvent.monitorId).count record.monitorId := by
    rw [List.count, countP_map]
    apply countP_mono_left
    intro other _ fires
    simp [(of_decide_eq_true fires).1]
  have most := nodup_iff_count_le_one.mp once record.monitorId
  omega

theorem firesInTime_evaluated (timed : e.action.clock python = some clock)
    (monitors : s.monitors = e.before.monitors) (events : eventsOf s = eventsOf e.before)
    (walk : Evaluated owner source clock s e.after) : FiresInTime python e := by
  have ready := ready_watching s owner source
  obtain ⟨added, eq, records, once⟩ := walk_events walk
  rw [events] at eq
  refine ⟨added, eq, ?_⟩
  intro record mem kind
  refine ⟨countP_firing (once.nodup ready.once) mem kind, ?_⟩
  obtain ⟨-, m, among, of_, early⟩ := records record mem
  refine ⟨clock, m, timed, ?_, ready.active m among, ?_⟩
  · rw [of_, ← monitors]
    exact ready.stored m among
  · intro deadline set_
    have unexpired := early kind
    rw [Monitor.expired, set_] at unexpired
    exact Int.not_le.mp (of_decide_eq_false unexpired)

theorem leavesOthers_same (same : e.after = e.before) : LeavesOthers e := by
  intro owner source _ ident m found _
  rw [same]
  exact ⟨found, rfl⟩

theorem leavesOthers_evaluated (evaluates : e.action.evaluates = some (owner, source))
    (monitors : s.monitors = e.before.monitors) (events : eventsOf s = eventsOf e.before)
    (walk : Evaluated owner source clock s e.after) : LeavesOthers e := by
  intro owner' source' evaluates' ident m found other
  rw [evaluates] at evaluates'
  cases evaluates'
  rw [← monitors] at found
  have unwatched : ident ∉ (s.monitors.select (watching owner source)).map Monitor.id := by
    intro among
    obtain ⟨row, selected, named⟩ := mem_map.mp among
    obtain ⟨stored, watched⟩ := mem_filter.mp selected
    obtain ⟨own, from_, -⟩ := of_decide_eq_true watched
    have same := eq_of_find found stored named
    subst same
    rcases other with owner' | source'
    · exact owner' own
    · exact source' from_
  constructor
  · rw [(walk_frame walk).2 ident unwatched]
    exact found
  · obtain ⟨added, eq, records, -⟩ := walk_events walk
    have none_added : added.filter (fun record => decide (record.monitorId = ident)) = [] := by
      rw [filter_eq_nil_iff]
      intro record mem named
      obtain ⟨-, row, among, of_, -⟩ := records record mem
      have same : row.id = ident := of_.symm.trans (of_decide_eq_true named)
      rw [← same] at unwatched
      exact unwatched (mem_map_of_mem among)
    rw [eq, events, filter_append, none_added, append_nil]

theorem upheld_change (change : Change python s action answer t) :
    Upheld python ⟨s, action, answer, t⟩ := by
  cases change with
  | refused action error =>
    exact ⟨firesInTime_same rfl, fun _ _ => rfl, fun _ _ _ => rfl, leavesOthers_same rfl⟩
  | got ownerId ident found =>
    exact ⟨firesInTime_same rfl, fun _ _ => rfl, fun _ _ _ => rfl, leavesOthers_same rfl⟩
  | idle ownerId ident now stamp =>
    exact ⟨firesInTime_same rfl, fun _ _ => rfl, fun _ _ _ => rfl, leavesOthers_same rfl⟩
  | replayed owner source event payload time now stamp =>
    exact ⟨firesInTime_same rfl, fun _ _ => rfl, fun _ _ _ => rfl, leavesOthers_same rfl⟩
  | created ownerId ident text item now stamp fresh =>
    refine ⟨firesInTime_silent (eventsOf_appended _ _) ?_, ?_, ?_, ?_⟩
    · simp
    · intro error raised
      cases raised
    · intro key identity
      cases identity
    · intro owner source evaluates
      cases evaluates
  | cancelled ownerId ident text now stamp m found own active =>
    refine ⟨firesInTime_silent eventsOf_rewritten ?_, ?_, ?_, ?_⟩
    · simp
    · intro error raised
      cases raised
    · intro key identity
      cases identity
    · intro owner source evaluates
      cases evaluates
  | unidentified action owner source clock _ _ evaluates timed plain walk =>
    refine ⟨firesInTime_evaluated timed rfl rfl walk, ?_, ?_,
      leavesOthers_evaluated evaluates rfl rfl walk⟩
    · intro error raised
      cases raised
    · intro key identity
      simp only [plain] at identity
      cases identity
  | identified owner source event payload time now stamp clock fired row t timed keyed fresh walk =>
    have clocked : Action.clock python
        (.evaluateIdentified owner source payload (some event) time now stamp) = some clock := by
      simp only [Action.clock, timed, Except.toOption]
    refine ⟨firesInTime_evaluated (s := s.admitted row fresh) clocked rfl rfl walk, ?_, ?_,
      leavesOthers_evaluated (s := s.admitted row fresh) rfl rfl rfl walk⟩
    · intro error raised
      cases raised
    · intro key identity unevaluated
      simp [evaluatesAs] at unevaluated
      exact absurd identity unevaluated

/-- The identity is recorded. -/
def Recorded (key : String × String × String) (s : MonitorStore) : Prop :=
  s.sourceEvents.find key ≠ none

theorem recorded_evaluated (recorded : Recorded key s) (walk : Evaluated owner source clock s t) :
    Recorded key t := by
  unfold Recorded
  rw [(walk_frame walk).1]
  exact recorded

theorem recorded_admitted {row : SourceEvent} {fresh : s.sourceEvents.find row.key = none}
    (known : Recorded key s ∨ row.key = key) : Recorded key (s.admitted row fresh) := by
  unfold Recorded MonitorStore.admitted
  rw [find_insert]
  split
  · simp
  next other =>
    rcases known with recorded | same
    · exact recorded
    · exact absurd same other

theorem recorded_change (recorded : Recorded key s) (change : Change python s action answer t) :
    Recorded key t := by
  cases change with
  | refused action e | got ownerId ident found | created ownerId ident text item now stamp fresh
  | idle ownerId ident now stamp | cancelled ownerId ident text now stamp m found own active =>
    exact recorded
  | unidentified _ owner source clock _ _ evaluates timed plain walk =>
    exact recorded_evaluated recorded walk
  | replayed owner source event payload time now stamp => exact recorded
  | identified owner source event payload time now stamp clock fired row _ timed keyed fresh walk =>
    exact recorded_evaluated (recorded_admitted (.inl recorded)) walk

theorem evaluatesAs_change (change : Change python s action answer t)
    (evaluated : evaluatesAs key ⟨s, action, answer, t⟩ = true) :
    ¬ Recorded key s ∧ Recorded key t := by
  cases change with
  | refused action error | got ownerId ident found | created ownerId ident text item now stamp fresh
  | idle ownerId ident now stamp | cancelled ownerId ident text now stamp m found own active =>
    simp [evaluatesAs] at evaluated
  | unidentified action owner source clock _ _ evaluates timed plain walk =>
    simp [evaluatesAs, plain] at evaluated
  | replayed owner source event payload time now stamp => simp [evaluatesAs] at evaluated
  | identified owner source event payload time now stamp clock fired row t timed keyed fresh walk =>
    have same : (owner, source, event) = key := by
      simpa [evaluatesAs, Action.identity] using evaluated
    have new : row.key = key := keyed.trans same
    refine ⟨?_, recorded_evaluated (recorded_admitted (.inr new)) walk⟩
    rw [← new]
    exact fun recorded => recorded fresh

/-- After every run of creations, evaluations and cancellations each monitor is consistent with
the log; each step of it fires in time, changes nothing where it refuses or replays and leaves
other monitors alone; and each identity is evaluated at most once. -/
theorem monitors_upheld (python : Python) (actions : List Action) :
    (∀ ident m, (final (call python) MonitorStore.empty actions).monitors.find ident = some m →
      Consistent m (firings (final (call python) MonitorStore.empty actions) ident)) ∧
    (∀ e ∈ history (call python) MonitorStore.empty actions, Upheld python e) ∧
    ∀ key, (history (call python) MonitorStore.empty actions).countP (evaluatesAs key) ≤ 1 := by
  refine ⟨?_, ?_, ?_⟩
  · have sound := final_invariant
      (fun s action sound => sound_change sound (step_change python s action)) sound_empty actions
    exact sound.monitors
  · intro e member
    apply upheld_change
    have change := step_change python e.before e.action
    rw [step_of_mem member] at change
    exact change
  · intro key
    apply @count_le_one _ _ _ (call python) (Recorded key)
    · intro s action recorded
      exact recorded_change recorded (step_change python s action)
    · intro s action recorded
      rw [Bool.eq_false_iff]
      intro evaluated
      exact (evaluatesAs_change (step_change python s action) evaluated).1 recorded
    · intro s action evaluated
      exact (evaluatesAs_change (step_change python s action) evaluated).2

end Meemee.Guarantees.MonitorFiring
