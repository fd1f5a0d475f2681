import Meemee.Guarantees.CheckinPlanning
import Meemee.Guarantees.SendPermission
import Meemee.Library.Completion
import Meemee.Source.PgCheckins

/-!
# A local check-in is completed once

A row that is done was completed by exactly one call, which wrote the message it carries to the
conversation it names, in the same transaction; a call that does not return `True` changes neither.
On PostgreSQL other calls run between the statements of a call, and the lock of the check-in's row
carries what the call has read to its commit.
-/
namespace Meemee.Guarantees.LocalCompletion
open Library Library.History Library.Completion Source Source.Checkins Library.Table Option
open Source.PgCheckins (LocalCall LocalPhase Desk Told)
open Guarantees.CheckinRows

/-- The row of a check-in that is done. -/
def doneRow (id : String) (s : CompanionStore) : Option CheckinRow :=
  (s.checkins.find id).filter (fun r => decide (r.status = .done))

/-- A machine's tables and the events of `finish_local_checkin` and of the other completions. -/
structure Reading (σ α ο : Type) where
  store : σ → CompanionStore
  completed : Event σ α ο → Option LocalCall
  ofCall : Event σ α ο → Bool
  otherwise : Event σ α ο → Bool

variable {call : LocalCall} {s t : CompanionStore} {row after : CheckinRow} {action : Action}
  {now : Instant} {d d' : Desk} {n m : Nat} {phase : LocalPhase} {told : Bool}

section Promise

variable {σ α ο : Type} (scrubText : String → String) (reading : Reading σ α ο)

def Reading.completes (id : String) (e : Event σ α ο) : Bool :=
  (reading.completed e).any (fun call => decide (call.checkinId = id))

theorem Reading.completes_iff {reading : Reading σ α ο} {id : String} {e : Event σ α ο} :
    reading.completes id e = true ↔ ∃ call, reading.completed e = some call ∧ call.checkinId = id := by
  rw [Reading.completes, any_eq_true]
  simp only [decide_eq_true_eq]

theorem Reading.completes_at {reading : Reading σ α ο} {id : String} {e : Event σ α ο}
    (completed : reading.completed e = some call) :
    reading.completes id e = decide (call.checkinId = id) := by
  rw [Reading.completes, completed]
  rfl

/-- The call returned `True`: its scrubbed text is in the row and in one new message. -/
def Reading.Delivers (e : Event σ α ο) (row : CheckinRow) : Prop :=
  ∃ call instant, reading.completed e = some call ∧ call.checkinId = row.id ∧
    row.message = some (scrubText call.message) ∧
    (reading.store e.before).conversations.find call.conversationId ≠ none ∧
    (reading.store e.after).messages = (reading.store e.before).messages.append
      ⟨call.conversationId, "assistant", scrubText call.message, instant⟩

structure ExactlyOnce (events : List (Event σ α ο)) (first last : σ) : Prop where
  /-- A row done at the end and not at the start, unless it was completed otherwise. -/
  once : ∀ row, doneRow row.id (reading.store first) = none →
    (∀ e ∈ events, reading.otherwise e = true →
      (reading.store e.after).checkins.find row.id = (reading.store e.before).checkins.find row.id) →
    doneRow row.id (reading.store last) = some row →
    events.countP (reading.completes row.id) = 1 ∧
      ∃ e ∈ events, reading.Delivers scrubText e row
  silent : ∀ e ∈ events, reading.ofCall e = true → reading.completed e = none →
    (reading.store e.after).messages = (reading.store e.before).messages ∧
      (reading.store e.after).conversations = (reading.store e.before).conversations

/-- An event of no other completion keeps the row done or not, or completes it. -/
structure Steady (e : Event σ α ο) : Prop where
  tends : ∀ id, (reading.otherwise e = true → (reading.store e.after).checkins.find id =
      (reading.store e.before).checkins.find id) →
    Tends (fun s => doneRow id (reading.store s)) (reading.completes id)
      (reading.Delivers scrubText) e
  silent : reading.ofCall e = true → reading.completed e = none →
    (reading.store e.after).messages = (reading.store e.before).messages ∧
      (reading.store e.after).conversations = (reading.store e.before).conversations

variable {scrubText reading} {step : σ → α → ο × σ}

theorem exactlyOnce_of_steady {s : σ} {run : List α}
    (steady : ∀ e ∈ history step s run, Steady scrubText reading e) :
    ExactlyOnce scrubText reading (history step s run) s (final step s run) := by
  constructor
  · intro row opened apart completed
    have tends : ∀ e ∈ history step s run, Tends (fun s => doneRow row.id (reading.store s))
        (reading.completes row.id) (reading.Delivers scrubText) e :=
      fun e mem => (steady e mem).tends row.id (apart e mem)
    obtain ⟨count, e, mem, -, delivers⟩ :=
      (@Completion.once _ _ _ _ step _ _ _ s opened run tends).2 row completed
    exact ⟨count, e, mem, delivers⟩
  · intro e mem
    exact (steady e mem).silent

end Promise

theorem doneRow_none {id : String} (absent : s.checkins.find id = none) : doneRow id s = none := by
  rw [doneRow, absent]
  rfl

theorem doneRow_open {id : String} (found : s.checkins.find id = some row)
    (undone : row.status ≠ .done) : doneRow id s = none := by
  rw [doneRow, found, filter_some, if_neg (by simpa using undone)]

theorem doneRow_done {id : String} (found : s.checkins.find id = some row)
    (done : row.status = .done) : doneRow id s = some row := by
  rw [doneRow, found, filter_some, if_pos (by simpa using done)]

theorem doneRow_congr {id : String} (same : t.checkins.find id = s.checkins.find id) :
    doneRow id t = doneRow id s := by
  rw [doneRow, doneRow, same]

theorem undone_of_live (live : row.status = .queued ∨ row.status = .running) :
    row.status ≠ .done := by
  rcases live with live | live <;> rw [live] <;> decide

theorem label_of_done {label : Label} (moves : RowStep row label after)
    (done : after.status = .done) : label = .finished ∨ label = .localDone ∨ label = .unleased := by
  cases moves with
  | finished => exact .inl rfl
  | localDone => exact .inr (.inl rfl)
  | unleased => exact .inr (.inr rfl)
  | recovered clock =>
    simp only [CheckinRow.recovered] at done
    split at done <;> cases done
  | exhausted clock | fencedClaim token instant leaseSeconds | legacyClaim updatedAt => cases done
  | renewed until_ updatedAt running => cases running.symm.trans done
  | sendStarted updatedAt running => cases running.symm.trans done
  | failed proven lastError updatedAt =>
    split at done <;> cases done
  | abandoned lastError updatedAt => cases done
  | stopped updatedAt => cases done

section SQLite

variable {scrubText : String → String} {wallClock : String → Instant → Nat}

/-- The call of an action that completes a local check-in. -/
def localCall : Action → Option LocalCall
  | .finishLocal checkinId conversationId message claim _ =>
    some ⟨checkinId, conversationId, message, claim⟩
  | _ => none

def completesOtherwise : Action → Bool
  | .finishClaim .. | .finishLegacy .. => true
  | _ => false

/-- The store itself; an event is one call. -/
def sqlite : Reading CompanionStore Action (Except Exc Value) where
  store := id
  completed := fun e => if e.answer = .ok (.told true) then localCall e.action else none
  ofCall := fun e => (localCall e.action).isSome
  otherwise := fun e => completesOtherwise e.action

theorem sqlite_completed {e : Event CompanionStore Action (Except Exc Value)} :
    sqlite.completed e = some call ↔ e.answer = .ok (.told true) ∧ localCall e.action = some call := by
  simp only [sqlite]
  split
  next told => simp only [told, true_and]
  next other => simp only [other, false_and, reduceCtorEq]

theorem localCall_some (known : localCall action = some call) :
    ∃ clock, action = .finishLocal call.checkinId call.conversationId call.message call.claim clock := by
  cases action with
  | finishLocal checkinId conversationId message claim clock =>
    cases known
    exact ⟨clock, rfl⟩
  | _ => cases known

theorem schedule_fresh {userId : String} {dueAt : Instant} {slot channel : String}
    {address : Option String} {maxAttempts : Int} {reusePending : Bool} {ident : String}
    {result : CheckinRow × Bool}
    (run : scheduleCheckin userId dueAt slot channel address maxAttempts reusePending ident now s =
      (.ok result, t)) {id : String} (absent : s.checkins.find id = none)
    (stored : t.checkins.find id = some after) : after.status = .queued := by
  rcases scheduleCheckin_cases run with rfl | ⟨-, -, -, fresh, rfl⟩
  · cases absent.symm.trans stored
  · rw [find_insert] at stored
    split at stored
    next =>
      cases stored
      rfl
    next => cases absent.symm.trans stored

theorem step_fresh {value : Value} (run : step scrubText wallClock s action = (.ok value, t))
    {id : String} (absent : s.checkins.find id = none) (stored : t.checkins.find id = some after) :
    after.status = .queued := by
  by_cases schedules : CheckinPlanning.schedules action = true
  · cases action with
    | schedule userId dueAt slot channel address maxAttempts reusePending ident now =>
      obtain ⟨result, done, -⟩ := call_ok run
      exact schedule_fresh done absent stored
    | _ => cases schedules
  · have noNew := @CheckinPlanning.operation_noNew scrubText wallClock s t
      ⟨action, Bool.eq_false_iff.mpr schedules⟩ value run
    cases (noNew id absent).symm.trans stored

/-- A call that completes nothing leaves what is done, and makes nothing done. -/
theorem doneRow_kept {value : Value} (run : step scrubText wallClock s action = (.ok value, t))
    {id : String}
    (apart : completesOtherwise action = true → t.checkins.find id = s.checkins.find id)
    (other : sqlite.completes id ⟨s, action, .ok value, t⟩ = false) :
    doneRow id t = doneRow id s := by
  cases found : s.checkins.find id with
  | none =>
    cases stored : t.checkins.find id with
    | none => rw [doneRow_none found, doneRow_none stored]
    | some after =>
      have queued := step_fresh run found stored
      rw [doneRow_none found, doneRow_open stored (undone_of_live (.inl queued))]
  | some row =>
    obtain ⟨after, stored, same | ⟨label, moves, -, completed⟩⟩ := (step_taken run).rows id row found
    · exact doneRow_congr (by rw [stored, same, found])
    · have live := CheckinFencing.rowStep_live moves
      rw [doneRow_open found (undone_of_live live)]
      refine doneRow_open stored ?_
      intro done
      have unmoved : completesOtherwise action = true → False := by
        intro otherwise
        cases stored.symm.trans ((apart otherwise).trans found)
        exact undone_of_live live done
      rcases label_of_done moves done with rfl | rfl | rfl
      · obtain ⟨claim, message, clock, rfl⟩ := completed
        exact unmoved rfl
      · obtain ⟨conversationId, message, claim, clock, rfl, told⟩ := completed
        have keyed : row.id = id := key_of_find found
        refine Bool.eq_false_iff.mp other (Reading.completes_iff.mpr ?_)
        exact ⟨_, sqlite_completed.mpr ⟨told, rfl⟩, keyed⟩
      · obtain ⟨_, message, now, rfl⟩ := completed done
        exact unmoved rfl

/-- A call that returned `True` found the row running and left it done, with its message. -/
theorem finished_local {checkinId conversationId message : String} {claim : Option Claim}
    {clock : Clock}
    (run : step scrubText wallClock s (.finishLocal checkinId conversationId message claim clock) =
      (.ok (.told true), t)) :
    doneRow checkinId s = none ∧ ∃ after, doneRow checkinId t = some after ∧
      sqlite.Delivers scrubText
        ⟨s, .finishLocal checkinId conversationId message claim clock, .ok (.told true), t⟩ after := by
  obtain ⟨told, done, same⟩ := call_ok run
  cases same
  obtain ⟨row, after, rfl, -, one, effect⟩ := finishLocalCheckin_effect done
  have moves := one.moves
  have stored := one.stored
  obtain ⟨text, named, added⟩ := effect.written rfl
  have finished : after.status = .done := by
    cases moves with
    | localDone => rfl
  refine ⟨doneRow_open one.found (undone_of_live (CheckinFencing.rowStep_live moves)), after,
    doneRow_done stored finished, ⟨row.id, conversationId, message, claim⟩, clock 3,
    sqlite_completed.mpr ⟨rfl, rfl⟩, ?_, text, isSome_iff_ne_none.mp named, added⟩
  exact (key_of_find stored).symm

theorem sqlite_steady (s : CompanionStore) (action : Action) :
    Steady scrubText sqlite ⟨s, action, (step scrubText wallClock s action).1,
      (step scrubText wallClock s action).2⟩ := by
  cases run : step scrubText wallClock s action with
  | mk answer t =>
    have opened : ∀ id, sqlite.completes id ⟨s, action, answer, t⟩ = true → doneRow id s = none ∧
        ∃ row, doneRow id t = some row ∧ sqlite.Delivers scrubText ⟨s, action, answer, t⟩ row := by
      intro id completes
      obtain ⟨call, completed, rfl⟩ := Reading.completes_iff.mp completes
      obtain ⟨rfl, known⟩ := sqlite_completed.mp completed
      obtain ⟨clock, rfl⟩ := localCall_some known
      exact finished_local run
    constructor
    · intro id apart
      refine ⟨?_, fun completes => (opened id completes).1, fun completes => (opened id completes).2⟩
      intro other
      cases answer with
      | error e =>
        obtain rfl := step_raised run
        rfl
      | ok value => exact doneRow_kept run apart other
    · intro ofCall uncompleted
      obtain ⟨call, known⟩ := isSome_iff_exists.mp ofCall
      obtain ⟨clock, rfl⟩ := localCall_some known
      cases answer with
      | error e =>
        obtain rfl := step_raised run
        exact ⟨rfl, rfl⟩
      | ok value =>
        obtain ⟨told, done, rfl⟩ := call_ok run
        obtain ⟨row, after, -, -, -, effect⟩ := finishLocalCheckin_effect done
        cases told with
        | true =>
          cases (sqlite_completed.mpr ⟨rfl, known⟩).symm.trans uncompleted
        | false => exact effect.silent rfl

end SQLite

/-- A call other than a local completion. -/
def Other : Type := { action : Action // localCall action = none }

inductive PgAction where
  | call (n : Nat) (call : LocalCall)
  | advance (n : Nat) (clock : Clock)
  /-- The database ends the call. -/
  | broken (n : Nat) (e : Exc)
  | other (action : Other)
  | claimFencedSkipping (locked : String → Bool) (clock : Clock) (leaseSeconds : Int)
      (token : String)
  | claimSkipping (locked : String → Bool) (moment now : Instant)

/-- The call of an open transaction. -/
def openCall : LocalPhase → Option LocalCall
  | .idle => none
  | .begun call | .owned call _ | .held call _ _ | .joined call _ _ | .permitted call _ _ _
  | .written call _ _ _ => some call

/-- Another call is stored, or waits while it would change a row that is held. -/
def unlessHeld (d : Desk) (t : CompanionStore) : Desk :=
  if d.undisturbed t then { d with store := t } else d

section Postgres

variable (scrubText : String → String) (wallClock : String → Instant → Nat)

def pgStep (d : Desk) : PgAction → Told × Desk
  | .call n call =>
    match d.calls n with
    | .idle => (none, d.put n (.begun call))
    | _ => (none, d)
  | .advance n clock => d.advance scrubText wallClock n clock
  | .broken n e =>
    match openCall (d.calls n) with
    | none => (none, d)
    | some call => d.raised n call e
  | .other action => (none, unlessHeld d (step scrubText wallClock d.store action.1).2)
  | .claimFencedSkipping locked clock leaseSeconds token =>
    (none, unlessHeld d
      (Planning.claimCheckinFencedSkipping locked clock leaseSeconds token d.store).2)
  | .claimSkipping locked moment now =>
    (none, unlessHeld d (Planning.claimCheckinSkipping locked moment now d.store).2)

/-- The committed tables; an event is one statement. -/
def postgres : Reading Desk PgAction Told where
  store := Desk.store
  completed := fun e => e.answer.bind (fun told => if told.2 = .ok true then some told.1 else none)
  ofCall := fun e => match e.action with
    | .call .. | .advance .. | .broken .. => true
    | _ => false
  otherwise := fun e => match e.action with
    | .other action => completesOtherwise action.1
    | _ => false

end Postgres

/-- The check-in that a call has found, from the statement that found it on. -/
def target : LocalPhase → Option (LocalCall × CheckinRow)
  | .held call _ (some row) | .joined call _ row | .permitted call _ row _
  | .written call row _ _ => some (call, row)
  | _ => none

/-- The call, from the statement on that has found its conversation. -/
def joinedCall : LocalPhase → Option LocalCall
  | .joined call _ _ | .permitted call _ _ _ | .written call _ _ _ => some call
  | _ => none

/-- The row that a call has found is locked for it, and still is as the call found it. -/
structure HoldsRow (d : Desk) (n : Nat) (call : LocalCall) (row : CheckinRow) : Prop where
  lock : d.checkinLocks row.id = some n
  found : d.store.checkins.find row.id = some row
  named : row.id = call.checkinId
  running : row.status = .running

structure HoldsConversation (d : Desk) (n : Nat) (call : LocalCall) : Prop where
  lock : d.conversationLocks call.conversationId = some n
  found : d.store.conversations.find call.conversationId ≠ none

/-- What a call has found in its phase is held for it. -/
structure Holds (d : Desk) (n : Nat) (phase : LocalPhase) : Prop where
  row : ∀ call row, target phase = some (call, row) → HoldsRow d n call row
  conversation : ∀ call, joinedCall phase = some call → HoldsConversation d n call

def Held (d : Desk) : Prop := ∀ n, Holds d n (d.calls n)

theorem holds_nothing (untargeted : target phase = none) (apart : joinedCall phase = none) :
    Holds d n phase := by
  refine ⟨?_, ?_⟩
  · intro call row found
    cases untargeted.symm.trans found
  · intro call found
    cases apart.symm.trans found

theorem held_start (s : CompanionStore) : Held (Desk.start s) := fun _ => holds_nothing rfl rfl

theorem held_moved (held : Held d) (store : d'.store = d.store)
    (others : ∀ m, m ≠ n → d'.calls m = d.calls m)
    (locks : ∀ k m, m ≠ n → d.checkinLocks k = some m → d'.checkinLocks k = some m)
    (conversations : ∀ k m, m ≠ n → d.conversationLocks k = some m → d'.conversationLocks k = some m)
    (own : Holds d' n (d'.calls n)) : Held d' := by
  intro m
  by_cases here : m = n
  · subst here
    exact own
  · rw [others m here]
    constructor
    · intro call row found
      have before := (held m).row call row found
      exact ⟨locks _ _ here before.lock, by rw [store]; exact before.found, before.named,
        before.running⟩
    · intro call found
      have before := (held m).conversation call found
      exact ⟨conversations _ _ here before.lock, by rw [store]; exact before.found⟩

theorem put_other (other : m ≠ n) :
    (d.put n phase).calls m = d.calls m := if_neg other

theorem put_own : (d.put n phase).calls n = phase :=
  if_pos rfl

theorem unlock_other {locks : String → Option Nat} {k : String} (other : m ≠ n)
    (lock : locks k = some m) : PgCheckins.unlock locks n k = some m := by
  rw [PgCheckins.unlock, if_neg, lock]
  rw [lock]
  intro same
  exact other (Option.some.inj same)

theorem lock_other {locks : String → Option Nat} {k id : String}
    (free : PgCheckins.free locks id n = true) (other : m ≠ n) (lock : locks k = some m) :
    PgCheckins.lock locks id n k = some m := by
  rw [PgCheckins.lock, if_neg, lock]
  rintro rfl
  rw [PgCheckins.free, lock] at free
  exact other (of_decide_eq_true free)

theorem lock_own (locks : String → Option Nat) (id : String) (n : Nat) :
    PgCheckins.lock locks id n id = some n := if_pos rfl

theorem held_ended (held : Held d) (n : Nat) : Held (d.ended n) := by
  refine held_moved held rfl (fun m other => put_other other) (fun k m other => unlock_other other)
    (fun k m other => unlock_other other) ?_
  rw [Desk.ended, put_own]
  exact holds_nothing rfl rfl

theorem held_put (held : Held d) (untargeted : target phase = none)
    (apart : joinedCall phase = none) : Held (d.put n phase) := by
  refine held_moved held rfl (fun m other => put_other other) (fun k m other lock => lock)
    (fun k m other lock => lock) ?_
  rw [put_own]
  exact holds_nothing untargeted apart

/-- A call that goes on with the check-in and the conversation it has found. -/
theorem held_onward (held : Held d) {next : LocalPhase} (phaseIs : d.calls n = phase)
    (calls : d'.calls = (d.put n next).calls) (sameTarget : target next = target phase)
    (sameCall : joinedCall next = joinedCall phase) (store : d'.store = d.store)
    (locks : d'.checkinLocks = d.checkinLocks)
    (conversations : d'.conversationLocks = d.conversationLocks) : Held d' := by
  have holds := held n
  rw [phaseIs] at holds
  refine held_moved held store (fun m other => by rw [calls, put_other other])
    (fun k m other lock => by rw [locks]; exact lock)
    (fun k m other lock => by rw [conversations]; exact lock) ?_
  rw [calls, put_own]
  constructor
  · intro call row found
    rw [sameTarget] at found
    have before := holds.row call row found
    exact ⟨by rw [locks]; exact before.lock, by rw [store]; exact before.found, before.named,
      before.running⟩
  · intro call found
    rw [sameCall] at found
    have before := holds.conversation call found
    exact ⟨by rw [conversations]; exact before.lock, by rw [store]; exact before.found⟩

/-- Nothing is stored, no call returns `True`, and what is found is still held. -/
structure Quiet (d : Desk) (r : Told × Desk) : Prop where
  store : r.2.store = d.store
  undone : ∀ call, r.1 ≠ some (call, .ok true)
  held : Held r.2

section Quiet

variable {d : Desk} {n : Nat} {call : LocalCall}

theorem quiet_none (store : d'.store = d.store) (held : Held d') : Quiet d (none, d') where
  store := store
  undone := fun _ told => by cases told
  held := held

theorem quiet_raised (held : Held d) (e : Exc) : Quiet d (d.raised n call e) where
  store := rfl
  undone := fun _ told => by cases told
  held := held_ended held n

theorem own_quiet (held : Held d) (claim : Claim) (instant : Instant) :
    Quiet d (d.own n call claim instant) := by
  unfold Desk.own
  split
  next e _ => exact quiet_raised held e
  next id userId token generation _ =>
    split
    next => exact quiet_raised held _
    next row _ =>
      split
      next free =>
        split
        next e _ => exact quiet_raised held e
        next =>
          refine quiet_none rfl (held_moved held rfl (fun m other => put_other other)
            (fun k m other => lock_other free other) (fun k m other lock => lock) ?_)
          rw [put_own]
          exact holds_nothing rfl rfl
      next => exact quiet_none rfl held

theorem hold_quiet (held : Held d) (claimed : Option CheckinRow) :
    Quiet d (d.hold n call claimed) := by
  unfold Desk.hold
  split
  next => exact quiet_none rfl (held_put held rfl rfl)
  next row selected =>
    obtain ⟨found, met⟩ := filter_eq_some_iff.mp selected
    simp only [Bool.and_eq_true, decide_eq_true_eq] at met
    have keyed : row.id = call.checkinId := key_of_find found
    split
    next free =>
      refine quiet_none rfl (held_moved held rfl (fun m other => put_other other)
        (fun k m other => lock_other free other) (fun k m other lock => lock) ?_)
      rw [put_own]
      refine ⟨?_, fun call' known => by cases known⟩
      intro call' row' known
      cases known
      refine ⟨lock_own _ _ _, ?_, keyed, met.1⟩
      rw [keyed]
      exact found
    next => exact quiet_none rfl held

theorem join_quiet (held : Held d) {claimed row : Option CheckinRow}
    (phase : d.calls n = .held call claimed row) : Quiet d (d.join n call claimed row) := by
  unfold Desk.join
  split
  next => exact quiet_raised held _
  next conversation there =>
    have keyed : conversation.id = call.conversationId := key_of_find there
    split
    next free =>
      cases row with
      | none => exact quiet_raised held _
      | some row =>
        simp only
        split
        next =>
          have holds := held n
          rw [phase] at holds
          have before := holds.row call row rfl
          refine quiet_none rfl (held_moved held rfl (fun m other => put_other other)
            (fun k m other lock => lock) (fun k m other => lock_other free other) ?_)
          rw [put_own]
          constructor
          · intro call' row' known
            cases known
            exact ⟨before.lock, before.found, before.named, before.running⟩
          · intro call' known
            cases known
            refine ⟨?_, ?_⟩
            · rw [keyed]
              exact lock_own _ _ _
            · exact ne_none_iff_exists'.mpr ⟨conversation, there⟩
        next => exact quiet_raised held _
    next => exact quiet_none rfl held

theorem advance_quiet {scrubText : String → String} {wallClock : String → Instant → Nat}
    (held : Held d) (clock : Clock)
    (open_ : ∀ call row told now, d.calls n ≠ .written call row told now) :
    Quiet d (d.advance scrubText wallClock n clock) := by
  cases phase : d.calls n with
  | written call row told now => exact absurd phase (open_ call row told now)
  | idle =>
    simp only [Desk.advance, phase]
    exact quiet_none rfl held
  | begun call =>
    simp only [Desk.advance, phase]
    split
    next => exact quiet_none rfl (held_put held rfl rfl)
    next claim _ => exact own_quiet held claim _
  | owned call claimed =>
    simp only [Desk.advance, phase]
    exact hold_quiet held claimed
  | held call claimed row =>
    simp only [Desk.advance, phase]
    exact join_quiet held phase
  | joined call claimed row =>
    simp only [Desk.advance, phase]
    exact quiet_none rfl (held_onward held phase rfl rfl rfl rfl rfl rfl)
  | permitted call claimed row profile =>
    simp only [Desk.advance, phase]
    split
    next e _ => exact quiet_raised held e
    next => exact quiet_none rfl (held_onward held phase rfl rfl rfl rfl rfl rfl)

end Quiet

section Commit

variable {scrubText : String → String} {wallClock : String → Instant → Nat} {d : Desk}

/-- What a commit makes of the row, by what the call returns. -/
def settled (scrubText : String → String) (call : LocalCall) (now : Instant) (row : CheckinRow) :
    Bool → CheckinRow
  | true => { row with
      status := .done, deliveryState := .accepted, message := some (scrubText call.message),
      lastError := none, updatedAt := now }
  | false => { row with status := .cancelled, updatedAt := now }

/-- The tables after a commit differ from before in the row of the call alone. -/
theorem find_committed {n : Nat} {call : LocalCall} {row : CheckinRow}
    (holds : HoldsRow d n call row)
    (told : Bool) (now : Instant) (id : String) :
    (if told then PgCheckins.accept scrubText call now d.store
      else PgCheckins.cancel call now d.store).checkins.find id =
      if id = row.id then some (settled scrubText call now row told)
      else d.store.checkins.find id := by
  have updated : ∀ (f : CheckinRow → CheckinRow) (keeps : ∀ r, (f r).id = r.id),
      (d.store.checkins.update (fun r => decide (r.id = call.checkinId)) f keeps).find id =
        if id = row.id then some (f row) else d.store.checkins.find id := by
    intro f keeps
    rw [find_update]
    by_cases here : id = row.id
    · rw [if_pos here, here, holds.found, map_some, if_pos (decide_eq_true holds.named)]
    · rw [if_neg here]
      cases found : d.store.checkins.find id with
      | none => rfl
      | some other =>
        have keyed : other.id = id := key_of_find found
        rw [map_some, if_neg]
        rw [decide_eq_true_eq, keyed, ← holds.named]
        exact here
  cases told with
  | true => exact updated (fun r => settled scrubText call now r true) (fun _ => rfl)
  | false => exact updated (fun r => settled scrubText call now r false) (fun _ => rfl)

theorem holds_written (held : Held d) (phase : d.calls n = .written call row told now) :
    HoldsRow d n call row ∧ HoldsConversation d n call := by
  have holds := held n
  rw [phase] at holds
  exact ⟨holds.row call row rfl, holds.conversation call rfl⟩

theorem conversation_committed (call : LocalCall) (told : Bool) (now : Instant) (id : String)
    (there : d.store.conversations.find id ≠ none) :
    (if told then PgCheckins.accept scrubText call now d.store
      else PgCheckins.cancel call now d.store).conversations.find id ≠ none := by
  cases told with
  | true =>
    simp only [if_true, PgCheckins.accept, find_update, ne_eq, map_eq_none_iff]
    exact there
  | false => exact there

theorem commit_held (held : Held d) (phase : d.calls n = .written call row told now) :
    Held { d.ended n with
      store := if told then PgCheckins.accept scrubText call now d.store
        else PgCheckins.cancel call now d.store } := by
  have holds := (holds_written held phase).1
  intro m
  by_cases here : m = n
  · rw [here, Desk.ended, put_own]
    exact holds_nothing rfl rfl
  · rw [Desk.ended, put_other here]
    constructor
    · intro call' row' known
      have before := (held m).row call' row' known
      refine ⟨unlock_other here before.lock, ?_, before.named, before.running⟩
      refine (find_committed holds told now row'.id).trans ?_
      rw [if_neg, before.found]
      intro same
      have lock := before.lock
      rw [same, holds.lock] at lock
      exact here (Option.some.inj lock).symm
    · intro call' known
      have before := (held m).conversation call' known
      exact ⟨unlock_other here before.lock, conversation_committed call told now _ before.found⟩

theorem unlessHeld_held (held : Held d) (t : CompanionStore) : Held (unlessHeld d t) := by
  unfold unlessHeld
  split
  next undisturbed =>
    simp only [Desk.undisturbed, Bool.and_eq_true, List.all_eq_true] at undisturbed
    obtain ⟨⟨checkins, conversations⟩, -⟩ := undisturbed
    intro n
    constructor
    · intro call row known
      have before := (held n).row call row known
      refine ⟨before.lock, ?_, before.named, before.running⟩
      have kept := checkins row (mem_of_find before.found)
      rw [before.lock] at kept
      exact of_decide_eq_true kept
    · intro call known
      have before := (held n).conversation call known
      obtain ⟨conversation, there⟩ := ne_none_iff_exists'.mp before.found
      have keyed : conversation.id = call.conversationId := key_of_find there
      have kept := conversations conversation (mem_of_find there)
      rw [keyed, before.lock, isNone_some, Bool.false_or, decide_eq_true_eq] at kept
      refine ⟨before.lock, ?_⟩
      rw [kept]
      exact some_ne_none _
  next => exact held

theorem call_quiet (held : Held d) {action : PgAction} {o : Told} {d' : Desk}
    (ofCall : postgres.ofCall ⟨d, action, o, d'⟩ = true)
    (open_ : ∀ n clock, action = .advance n clock →
      ∀ call row told now, d.calls n ≠ .written call row told now) :
    Quiet d (pgStep scrubText wallClock d action) := by
  cases action with
  | call n call =>
    simp only [pgStep]
    split
    next => exact quiet_none rfl (held_put held rfl rfl)
    next => exact quiet_none rfl held
  | advance n clock => exact advance_quiet held clock (open_ n clock rfl)
  | broken n e =>
    simp only [pgStep]
    split
    next => exact quiet_none rfl held
    next call _ => exact quiet_raised held e
  | other action | claimFencedSkipping locked clock leaseSeconds token
  | claimSkipping locked moment now => cases ofCall

theorem pgStep_held (held : Held d) (action : PgAction) :
    Held (pgStep scrubText wallClock d action).2 := by
  cases action with
  | call n call => exact (@call_quiet _ _ _ held _ none d rfl (fun _ _ same => by cases same)).held
  | advance n clock =>
    cases phase : d.calls n with
    | written call row told now =>
      simp only [pgStep, Desk.advance, phase]
      exact commit_held held phase
    | _ =>
      refine (advance_quiet held clock ?_).held
      intro call row told now written
      cases phase.symm.trans written
  | broken n e => exact (@call_quiet _ _ _ held _ none d rfl (fun _ _ same => by cases same)).held
  | other action | claimFencedSkipping locked clock leaseSeconds token
  | claimSkipping locked moment now => exact unlessHeld_held held _

theorem postgres_completed {e : Event Desk PgAction Told} :
    postgres.completed e = some call ↔ e.answer = some (call, .ok true) := by
  simp only [postgres, bind_eq_some_iff]
  constructor
  · rintro ⟨⟨other, result⟩, answered, told⟩
    split at told
    next accepted =>
      cases told
      rw [answered]
      exact congrArg (fun r => some (other, r)) accepted
    next => cases told
  · intro answered
    exact ⟨(call, .ok true), answered, if_pos rfl⟩

/-- An event that returns `True` to no call leaves the done rows and what a call wrote. -/
theorem steady_uncompleted {e : Event Desk PgAction Told} (undone : postgres.completed e = none)
    (rows : ∀ id, (postgres.otherwise e = true → e.after.store.checkins.find id =
      e.before.store.checkins.find id) → doneRow id e.after.store = doneRow id e.before.store)
    (silent : postgres.ofCall e = true → e.after.store.messages = e.before.store.messages ∧
      e.after.store.conversations = e.before.store.conversations) :
    Steady scrubText postgres e := by
  constructor
  · intro id apart
    have incomplete : postgres.completes id e ≠ true := by
      intro completes
      obtain ⟨call, completed, -⟩ := Reading.completes_iff.mp completes
      cases undone.symm.trans completed
    exact ⟨fun _ => rows id apart, fun completes => absurd completes incomplete,
      fun completes => absurd completes incomplete⟩
  · intro ofCall _
    exact silent ofCall

theorem steady_quiet {action : PgAction} {r : Told × Desk} (quiet : Quiet d r) :
    Steady scrubText postgres ⟨d, action, r.1, r.2⟩ := by
  refine steady_uncompleted ?_ ?_ ?_
  · rw [eq_none_iff_forall_ne_some]
    intro call completed
    exact quiet.undone call (postgres_completed.mp completed)
  · intro id _
    exact congrArg (doneRow id) quiet.store
  · intro _
    exact ⟨congrArg CompanionStore.messages quiet.store,
      congrArg CompanionStore.conversations quiet.store⟩

/-- The commit: the row was running, and is done where the call returns `True`. -/
theorem steady_commit (held : Held d) {clock : Clock}
    (phase : d.calls n = .written call row told now) :
    Steady scrubText postgres ⟨d, .advance n clock, some (call, .ok told), { d.ended n with
      store := if told then PgCheckins.accept scrubText call now d.store
        else PgCheckins.cancel call now d.store }⟩ := by
  obtain ⟨holds, there⟩ := holds_written held phase
  have opened : doneRow row.id d.store = none :=
    doneRow_open holds.found (undone_of_live (.inr holds.running))
  have committed := @find_committed scrubText d n call row holds told now
  have others : ∀ id, id ≠ row.id → doneRow id (if told then PgCheckins.accept scrubText call now
      d.store else PgCheckins.cancel call now d.store) = doneRow id d.store :=
    fun id apart => doneRow_congr ((committed id).trans (if_neg apart))
  have stored := (committed row.id).trans (if_pos rfl)
  cases told with
  | false =>
    refine steady_uncompleted ?_ ?_ (fun _ => ⟨rfl, rfl⟩)
    · rw [eq_none_iff_forall_ne_some]
      intro other completed
      cases postgres_completed.mp completed
    · intro id _
      by_cases here : id = row.id
      · subst here
        exact (doneRow_open stored (by simp [settled])).trans opened.symm
      · exact others id here
  | true =>
    have completed : ∀ after, postgres.completed
        ⟨d, .advance n clock, some (call, .ok true), after⟩ = some call :=
      fun after => postgres_completed.mpr rfl
    constructor
    · intro id _
      by_cases here : id = row.id
      · subst here
        refine ⟨?_, fun _ => opened, fun _ => ⟨_, doneRow_done stored rfl, call, now, completed _,
          holds.named.symm, rfl, there.found, rfl⟩⟩
        intro incomplete
        rw [Reading.completes_at (completed _), decide_eq_false_iff_not] at incomplete
        exact absurd holds.named.symm incomplete
      · have apart : ∀ after, postgres.completes id
            ⟨d, .advance n clock, some (call, .ok true), after⟩ ≠ true := by
          intro after
          rw [Reading.completes_at (completed after), ne_eq, decide_eq_true_eq, ← holds.named]
          exact fun same => here same.symm
        exact ⟨fun _ => others id here, fun completes => absurd completes (apart _),
          fun completes => absurd completes (apart _)⟩
    · intro _ uncompleted
      cases (completed _).symm.trans uncompleted

/-- Updates of rows that are not done before and after leave the rows that are. -/
theorem doneRow_update {p : CheckinRow → Bool} {f : CheckinRow → CheckinRow}
    (written : t.checkins.rows = s.checkins.rows.map (fun r => if p r then f r else r))
    (keeps : ∀ r, (f r).id = r.id)
    (undone : ∀ r ∈ s.checkins, p r = true → r.status ≠ .done ∧ (f r).status ≠ .done) (id : String) :
    doneRow id t = doneRow id s := by
  have updated : t.checkins = s.checkins.update p f keeps := ext_rows written
  rw [doneRow, doneRow, updated, find_update]
  cases found : s.checkins.find id with
  | none => rfl
  | some row =>
    rw [map_some]
    cases met : p row with
    | false => rfl
    | true =>
      obtain ⟨before, after⟩ := undone row (mem_of_find found) met
      rw [filter_some, filter_some, if_neg (by simpa using after),
        if_neg (by simpa using before)]

/-- The rows that are done are the same. -/
def DoneSame (s t : CompanionStore) : Prop := ∀ id, doneRow id t = doneRow id s

theorem doneSame_refl (s : CompanionStore) : DoneSame s s := fun _ => rfl

theorem doneSame_trans (s t u : CompanionStore) (first : DoneSame s t) (second : DoneSame t u) :
    DoneSame s u := fun id => (second id).trans (first id)

theorem queued_undone (queued : row.status = .queued) (live : after.status ≠ .done) :
    row.status ≠ .done ∧ after.status ≠ .done :=
  ⟨undone_of_live (.inl queued), live⟩

theorem claimFencedSkipping_same (locked : String → Bool) (clock : Clock) (leaseSeconds : Int)
    (token : String) :
    Txn.Confined DoneSame (Planning.claimCheckinFencedSkipping locked clock leaseSeconds token) := by
  refine Txn.confined_require doneSame_refl (Txn.confined_atomically doneSame_refl ?_)
  refine Txn.confined_bind doneSame_trans (fun s => doneRow_update rfl (fun _ => rfl)
    (fun r _ met => queued_undone (of_decide_eq_true met).1 (by simp [CheckinRow.exhausted])))
    (fun _ => ?_)
  refine Txn.confined_read (fun picked => ?_)
  cases picked with
  | none => exact Txn.confined_pure doneSame_refl _
  | some row =>
    simp only
    split
    next => exact Txn.confined_pure doneSame_refl _
    next =>
      exact Txn.confined_bind doneSame_trans (fun s => doneRow_update rfl (fun _ => rfl)
        (fun r _ met => queued_undone (of_decide_eq_true met).2 (by simp [CheckinRow.leased])))
        (fun _ s => doneSame_refl s)

theorem claimSkipping_same (locked : String → Bool) (moment now : Instant) :
    Txn.Confined DoneSame (Planning.claimCheckinSkipping locked moment now) := by
  refine Txn.confined_atomically doneSame_refl ?_
  intro s
  simp only [Txn.run_bind_read]
  cases picked : s.checkins.first (fun r => decide (r.status = .queued ∧ r.claimToken = none ∧
      r.attempts < r.maxAttempts ∧ r.dueAt ≤ moment) && !locked r.id) Checkins.dueBefore with
  | none => exact doneSame_refl s
  | some row =>
    obtain ⟨mem, met⟩ := first_some picked
    simp only [Bool.and_eq_true, decide_eq_true_eq] at met
    refine doneRow_update rfl (fun _ => rfl) ?_
    intro other stored here
    obtain rfl := eq_of_find (find_of_mem mem) stored (of_decide_eq_true here)
    exact queued_undone met.1.1 (by simp [Planning.CheckinRow.running])

theorem unlessHeld_store (d : Desk) (t : CompanionStore) :
    (unlessHeld d t).store = t ∨ (unlessHeld d t).store = d.store := by
  unfold unlessHeld
  split
  next => exact .inl rfl
  next => exact .inr rfl

theorem steady_other (action : Other) : Steady scrubText postgres ⟨d, .other action, none,
    unlessHeld d (step scrubText wallClock d.store action.1).2⟩ := by
  refine steady_uncompleted rfl ?_ nofun
  intro id apart
  rcases unlessHeld_store d (step scrubText wallClock d.store action.1).2 with stored | waits
  · simp only [stored] at apart ⊢
    cases run : step scrubText wallClock d.store action.1 with
    | mk answer t =>
      rw [run] at apart
      cases answer with
      | error e =>
        obtain rfl := step_raised run
        rfl
      | ok value =>
        refine doneRow_kept run apart (Bool.eq_false_iff.mpr ?_)
        intro completes
        obtain ⟨call, completed, -⟩ := Reading.completes_iff.mp completes
        cases action.2.symm.trans (sqlite_completed.mp completed).2
  · exact congrArg (doneRow id) waits

theorem steady_claim {action : PgAction} (same : DoneSame d.store t)
    (apart : postgres.ofCall ⟨d, action, none, unlessHeld d t⟩ = false) :
    Steady scrubText postgres ⟨d, action, none, unlessHeld d t⟩ := by
  refine steady_uncompleted rfl ?_ (fun ofCall => by cases apart.symm.trans ofCall)
  intro id _
  rcases unlessHeld_store d t with stored | waits
  · simp only [stored]
    exact same id
  · exact congrArg (doneRow id) waits

theorem postgres_steady (held : Held d) (action : PgAction) : Steady scrubText postgres
    ⟨d, action, (pgStep scrubText wallClock d action).1, (pgStep scrubText wallClock d action).2⟩ := by
  cases action with
  | call n call =>
    exact steady_quiet (@call_quiet _ _ _ held _ none d rfl nofun)
  | advance n clock =>
    cases phase : d.calls n with
    | written call row told now =>
      simp only [pgStep, Desk.advance, phase]
      exact steady_commit held phase
    | _ =>
      refine steady_quiet (advance_quiet held clock ?_)
      intro call row told now written
      cases phase.symm.trans written
  | broken n e =>
    exact steady_quiet (@call_quiet _ _ _ held _ none d rfl nofun)
  | other action => exact steady_other action
  | claimFencedSkipping locked clock leaseSeconds token =>
    exact steady_claim (claimFencedSkipping_same locked clock leaseSeconds token d.store) rfl
  | claimSkipping locked moment now =>
    exact steady_claim (claimSkipping_same locked moment now d.store) rfl

end Commit

/-- Over every run of either store, from any tables: a check-in that becomes done, other than
through `finish_checkin` and `finish_checkin_claim`, was completed by exactly one call of
`finish_local_checkin`, which wrote its text to the row and in one message to the conversation; the
calls that return `False` or raise write neither messages nor conversations. -/
theorem local_exactly_once (scrubText : String → String) (wallClock : String → Instant → Nat) :
    (∀ (s : CompanionStore) (run : List Action),
      ExactlyOnce scrubText sqlite (history (step scrubText wallClock) s run) s
        (final (step scrubText wallClock) s run)) ∧
    ∀ (s : CompanionStore) (run : List PgAction),
      ExactlyOnce scrubText postgres (history (pgStep scrubText wallClock) (Desk.start s) run)
        (Desk.start s) (final (pgStep scrubText wallClock) (Desk.start s) run) := by
  constructor
  · intro s run
    refine exactlyOnce_of_steady ?_
    intro e member
    have steady := @sqlite_steady scrubText wallClock e.before e.action
    rw [step_of_mem member] at steady
    exact steady
  · intro s run
    have held := invariant (fun d action held => @pgStep_held scrubText wallClock d held action)
      (held_start s) run
    refine exactlyOnce_of_steady ?_
    intro e member
    have steady := @postgres_steady scrubText wallClock e.before (held.1 e member).1 e.action
    rw [step_of_mem member] at steady
    exact steady

/-- The leased check-in of `SendPermission` and a conversation of its user. -/
def talkStore : CompanionStore :=
  { SendPermission.leasedStore with conversations := Table.empty.replace ⟨"talk", "ada", "local", 0⟩ }

example : doneRow "c1" (final (pgStep id (fun _ _ => 0)) (Desk.start talkStore)
    (.call 0 ⟨"c1", "talk", "hello", some (CheckinDelivery.sampleClaim "first" 1)⟩ ::
      List.replicate 6 (.advance 0 (fun _ => 20)))).store =
    some { SendPermission.leasedRow with
      status := .done, deliveryState := .accepted, message := some "hello", updatedAt := 20 } := by
  decide +kernel

end Meemee.Guarantees.LocalCompletion
