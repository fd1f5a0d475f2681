import Meemee.Guarantees.CheckinFencing
import Meemee.Source.Planning

/-!
# One pending check-in per user

The planner looks for pending work before it schedules, and the store looks again inside the scheduling
transaction. SQLite has no step between that look and the insert, PostgreSQL holds the user's advisory
lock, and no other operation makes a settled row pending again (`Aged`).
-/
namespace Meemee.Guarantees.CheckinPlanning
open Library Library.History Source Source.Checkins Source.Planning Library.Txn Library.Table
open Guarantees.CheckinRows

/-- Queued or running. -/
def Pending (row : CheckinRow) : Prop := row.status = .queued ∨ row.status = .running

def OnePending (userId : String) (s : CompanionStore) : Prop :=
  ∀ a ∈ s.checkins, ∀ b ∈ s.checkins, a.userId = userId → b.userId = userId →
    Pending a → Pending b → a = b

/-- `UNIQUE(user_id, slot)`. -/
def SlotsApart (userId : String) (s : CompanionStore) : Prop :=
  ∀ a ∈ s.checkins, ∀ b ∈ s.checkins, a.userId = userId → b.userId = userId →
    a.slot = b.slot → a = b

def NonePending (userId : String) (s : CompanionStore) : Prop :=
  ∀ row ∈ s.checkins, row.userId = userId → ¬ Pending row

def SlotFree (userId slot : String) (s : CompanionStore) : Prop :=
  ∀ row ∈ s.checkins, row.userId = userId → row.slot ≠ slot

/-- Every row is an earlier row of the same user and slot, and is pending only if that one was. -/
def Aged (s t : CompanionStore) : Prop :=
  ∀ after ∈ t.checkins, ∃ row ∈ s.checkins, after.id = row.id ∧ after.userId = row.userId ∧
    after.slot = row.slot ∧ (Pending after → Pending row)

variable {s t : CompanionStore} {slot : String} {row : CheckinRow} {phase : PlanPhase}

theorem aged_of_same (same : t.checkins = s.checkins) : Aged s t := by
  intro after mem
  rw [same] at mem
  exact ⟨after, mem, rfl, rfl, rfl, id⟩

theorem aged_refl (s : CompanionStore) : Aged s s := aged_of_same rfl

theorem aged_trans (s t u : CompanionStore) (first : Aged s t) (second : Aged t u) : Aged s u := by
  intro last mem
  obtain ⟨after, middle, sameId, sameUser, sameSlot, live⟩ := second last mem
  obtain ⟨row, stored, sameId', sameUser', sameSlot', live'⟩ := first after middle
  exact ⟨row, stored, sameId.trans sameId', sameUser.trans sameUser', sameSlot.trans sameSlot',
    fun pending => live' (live pending)⟩

theorem aged_update {p : CheckinRow → Bool} {f : CheckinRow → CheckinRow}
    (written : t.checkins.rows = s.checkins.rows.map (fun r => if p r then f r else r))
    (pending : ∀ r ∈ s.checkins, p r = true → Pending r)
    (same : ∀ r, (f r).id = r.id ∧ (f r).userId = r.userId ∧ (f r).slot = r.slot) : Aged s t := by
  intro after mem
  rw [← mem_rows, written] at mem
  obtain ⟨row, stored, rfl⟩ := List.mem_map.mp mem
  refine ⟨row, stored, ?_⟩
  split
  next here =>
    obtain ⟨sameId, sameUser, sameSlot⟩ := same row
    exact ⟨sameId, sameUser, sameSlot, fun _ => pending row stored here⟩
  next => exact ⟨rfl, rfl, rfl, id⟩

section Aging

variable {s t : CompanionStore} {userId : String}

theorem one_of_aged (aged : Aged s t) (one : OnePending userId s) : OnePending userId t := by
  intro a first b second ownA ownB liveA liveB
  obtain ⟨rowA, storedA, idA, userA, -, wasA⟩ := aged a first
  obtain ⟨rowB, storedB, idB, userB, -, wasB⟩ := aged b second
  have same := one rowA storedA rowB storedB (userA.symm.trans ownA) (userB.symm.trans ownB)
    (wasA liveA) (wasB liveB)
  have there := find_of_mem first
  rw [idA, same, ← idB, find_of_mem second] at there
  exact (Option.some.inj there).symm

theorem apart_of_aged (aged : Aged s t) (apart : SlotsApart userId s) : SlotsApart userId t := by
  intro a first b second ownA ownB together
  obtain ⟨rowA, storedA, idA, userA, slotA, -⟩ := aged a first
  obtain ⟨rowB, storedB, idB, userB, slotB, -⟩ := aged b second
  have same := apart rowA storedA rowB storedB (userA.symm.trans ownA) (userB.symm.trans ownB)
    (slotA.symm.trans (together.trans slotB))
  have there := find_of_mem first
  rw [idA, same, ← idB, find_of_mem second] at there
  exact (Option.some.inj there).symm

theorem none_of_aged (aged : Aged s t) (none : NonePending userId s) : NonePending userId t := by
  intro after mem own live
  obtain ⟨row, stored, -, user, -, was⟩ := aged after mem
  exact none row stored (user.symm.trans own) (was live)

theorem free_of_aged (aged : Aged s t) (free : SlotFree userId slot s) :
    SlotFree userId slot t := by
  intro after mem own same
  obtain ⟨row, stored, -, user, slotEq, -⟩ := aged after mem
  exact free row stored (user.symm.trans own) (slotEq.symm.trans same)

end Aging

variable {after : CheckinRow} {label : Label} {userId : String} {d : Deployment}

theorem rowStep_place (moves : RowStep row label after) :
    after.userId = row.userId ∧ after.slot = row.slot := by
  cases moves <;> exact ⟨rfl, rfl⟩

/-- No row is stored under a new id. -/
def NoNew (s t : CompanionStore) : Prop :=
  ∀ id, s.checkins.find id = none → t.checkins.find id = none

theorem noNew_refl (s : CompanionStore) : NoNew s s := fun _ absent => absent

theorem noNew_trans (s t u : CompanionStore) (first : NoNew s t) (second : NoNew t u) : NoNew s u :=
  fun id absent => second id (first id absent)

theorem aged_of_moves {because : Label → CheckinRow → CheckinRow → Prop} (moves : Moves s t because)
    (noNew : NoNew s t) : Aged s t := by
  intro after mem
  cases found : s.checkins.find after.id with
  | none =>
    have there := find_of_mem mem
    rw [noNew after.id found] at there
    cases there
  | some row =>
    refine ⟨row, mem_of_find found, (key_of_find found).symm, ?_⟩
    obtain ⟨other, there, how⟩ := moves.rows after.id row found
    obtain rfl := Option.some.inj ((find_of_mem mem).symm.trans there)
    rcases how with rfl | ⟨label, step, -⟩
    · exact ⟨rfl, rfl, id⟩
    · exact ⟨(rowStep_place step).1, (rowStep_place step).2,
        fun _ => CheckinFencing.rowStep_live step⟩

section NoNew

variable {s t : CompanionStore}

theorem noNew_updateCheckins (p : CheckinRow → Bool) (f : CheckinRow → CheckinRow)
    (keeps : ∀ r, (f r).id = r.id) : Txn.Confined NoNew (updateCheckins p f keeps) := by
  intro s id absent
  simp only [updateCheckins, run_write, find_update, absent, Option.map_none]

theorem noNew_oneRow (one : OneRowStep s t row label after) : NoNew s t := by
  intro id absent
  rw [one.others, if_neg, absent]
  rintro rfl
  rw [one.found] at absent
  cases absent

theorem noNew_recoverRows (clock : Clock) (rows : List CheckinRow) (reading : Nat)
    (counts : RecoveryCounts) : Txn.Confined NoNew (recoverRows clock reading rows counts) := by
  induction rows generalizing reading counts with
  | nil => exact confined_pure noNew_refl counts
  | cons row rest ih =>
    rw [recoverRows]
    split
    next => exact ih _ _
    next => exact confined_bind noNew_trans (noNew_updateCheckins _ _ _) (fun _ => ih _ _)

theorem noNew_claimFenced (clock : Clock) (leaseSeconds : Int) (token : String) :
    Txn.Confined NoNew (claimCheckinFenced clock leaseSeconds token) := by
  refine confined_require noNew_refl (confined_atomically noNew_refl ?_)
  refine confined_bind noNew_trans (noNew_updateCheckins _ _ _) (fun _ => ?_)
  refine confined_read (fun picked => ?_)
  cases picked with
  | none => exact confined_pure noNew_refl _
  | some row =>
    simp only
    split
    next => exact confined_pure noNew_refl _
    next =>
      exact confined_bind noNew_trans (noNew_updateCheckins _ _ _)
        (fun _ s => noNew_refl s)

theorem noNew_updateUnleased (id : String) (f : CheckinRow → CheckinRow)
    (keeps : ∀ r, (f r).id = r.id) : Txn.Confined NoNew (updateUnleased id f keeps) :=
  confined_read (fun _ => confined_bind noNew_trans (noNew_updateCheckins _ f keeps)
    (fun _ => confined_pure noNew_refl _))

end NoNew

/-- A call that schedules by itself, without a planner. -/
def schedules : CheckinRows.Action → Bool
  | .schedule .. => true
  | _ => false

/-- A call on the check-ins, or a write of the other tables. -/
def Operation : Type := { action : CheckinRows.Action // schedules action = false }

inductive Action where
  /-- `plan_user` of one user, or `plan_all` with the users its census yields. -/
  | planUsers (n : Nat) (users : List String)
  | plan (n : Nat) (turn : PlanTurn)
  | broken (n : Nat)
  | call (operation : Operation)
  | claimFencedSkipping (locked : String → Bool) (clock : Clock) (leaseSeconds : Int)
      (token : String)
  | claimSkipping (locked : String → Bool) (moment now : Instant)

section System

variable (scrubText : String → String) (wallClock : String → Instant → Nat)
  (cadenceMinutes : UserProfile → Int) (slotName : Instant → String)
  (hashtextextended : String → Int) (backend : Backend)

def step (d : Deployment) : Action → Unit × Deployment
  | .planUsers n users =>
    match (d.planners n).phase with
    | .idle => ((), d.put n (Planner.returned { rest := users } none))
    | _ => ((), d)
  | .plan n turn =>
    ((), d.plan wallClock cadenceMinutes slotName hashtextextended backend n turn)
  | .broken n => ((), d.broken hashtextextended n)
  | .call operation =>
    ((), { d with store := (CheckinRows.step scrubText wallClock d.store operation.1).2 })
  | .claimFencedSkipping locked clock leaseSeconds token =>
    ((), { d with store := (claimCheckinFencedSkipping locked clock leaseSeconds token d.store).2 })
  | .claimSkipping locked moment now =>
    ((), { d with store := (claimCheckinSkipping locked moment now d.store).2 })

end System

variable {scrubText : String → String} {wallClock : String → Instant → Nat}

theorem operation_noNew {s t : CompanionStore} {operation : Operation} {value : Value}
    (run : CheckinRows.step scrubText wallClock s operation.1 = (.ok value, t)) : NoNew s t := by
  obtain ⟨action, noSchedule⟩ := operation
  have confined : ∀ {α : Type} {wrap : α → Value} {m : CompanionTxn α},
      Txn.Confined NoNew m → CheckinRows.call wrap m s = (.ok value, t) → NoNew s t := by
    intro α wrap m within called
    obtain ⟨a, done, -⟩ := call_ok called
    have kept := within s
    rw [done] at kept
    exact kept
  cases action with
  | schedule => cases noSchedule
  | elsewhere =>
    cases run
    exact noNew_refl s
  | recover clock =>
    exact confined (confined_atomically noNew_refl (confined_read (fun _ =>
      noNew_recoverRows clock _ _ _))) run
  | claimFenced clock leaseSeconds token =>
    exact confined (noNew_claimFenced clock leaseSeconds token) run
  | renew claim clock leaseSeconds =>
    obtain ⟨told, done, -⟩ := call_ok run
    obtain ⟨row, after, -, one⟩ := renewCheckinClaim_returned done
    exact noNew_oneRow one
  | startDelivery claim clock =>
    obtain ⟨told, done, -⟩ := call_ok run
    obtain ⟨row, after, -, one⟩ := startCheckinDelivery_returned done
    exact noNew_oneRow one
  | finishClaim claim message clock =>
    obtain ⟨_, done, -⟩ := call_ok run
    obtain ⟨row, after, -, one⟩ := finishCheckinClaim_returned done
    exact noNew_oneRow one
  | failClaim claim error clock proven =>
    obtain ⟨status, done, -⟩ := call_ok run
    obtain ⟨row, after, -, one⟩ := failCheckinClaim_returned done
    exact noNew_oneRow one
  | unknownClaim claim error clock =>
    obtain ⟨told, done, -⟩ := call_ok run
    obtain ⟨row, after, -, one⟩ := unknownCheckinClaim_returned done
    exact noNew_oneRow one
  | cancelClaim claim clock =>
    obtain ⟨told, done, -⟩ := call_ok run
    obtain ⟨row, after, -, one⟩ := cancelCheckinClaim_returned done
    exact noNew_oneRow one
  | finishLocal checkinId conversationId message claim clock =>
    obtain ⟨told, done, -⟩ := call_ok run
    obtain ⟨row, after, -, -, one⟩ := finishLocalCheckin_returned done
    exact noNew_oneRow one
  | claimLegacy moment now =>
    refine confined (confined_atomically noNew_refl (confined_read (fun picked => ?_))) run
    cases picked with
    | none => exact confined_pure noNew_refl _
    | some row =>
      exact confined_bind noNew_trans (noNew_updateCheckins _ _ _)
        (fun _ => confined_pure noNew_refl _)
  | finishLegacy id message now =>
    have within : Txn.Confined NoNew (finishCheckin scrubText id message now) :=
      confined_atomically noNew_refl (confined_bind noNew_trans
        (noNew_updateUnleased id _ _) (fun _ => confined_pure noNew_refl _))
    rw [CheckinRows.step] at run
    exact confined within run
  | failLegacy id error now =>
    refine confined (confined_atomically noNew_refl (confined_bind noNew_trans
      (noNew_updateUnleased id _ _) (fun _ => confined_read (fun found => ?_)))) run
    cases found with
    | none => exact fun u => noNew_refl u
    | some row => exact confined_pure noNew_refl _
  | markUnknown id error now =>
    exact confined (confined_atomically noNew_refl (noNew_updateUnleased id _ _)) run
  | cancelClaimed id now =>
    exact confined (confined_atomically noNew_refl (noNew_updateUnleased id _ _)) run
  | cancelPending userId now =>
    have within : Txn.Confined NoNew (cancelPendingCheckins userId now) :=
      confined_atomically noNew_refl (confined_read (fun _ =>
        confined_bind noNew_trans (noNew_updateCheckins _ _ _)
          (fun _ => confined_pure noNew_refl _)))
    exact confined within run

theorem operation_aged (s : CompanionStore) (operation : Operation) :
    Aged s (CheckinRows.step scrubText wallClock s operation.1).2 := by
  cases run : CheckinRows.step scrubText wallClock s operation.1 with
  | mk answer t =>
    cases answer with
    | error e => exact aged_of_same (by rw [step_raised run])
    | ok value => exact aged_of_moves (step_moves run) (operation_noNew run)

theorem claimFencedSkipping_aged (locked : String → Bool) (clock : Clock) (leaseSeconds : Int)
    (token : String) :
    Txn.Confined Aged (claimCheckinFencedSkipping locked clock leaseSeconds token) := by
  refine confined_require aged_refl (confined_atomically aged_refl ?_)
  refine confined_bind aged_trans (fun s => aged_update rfl
    (fun r _ met => .inl (of_decide_eq_true met).1) (fun _ => ⟨rfl, rfl, rfl⟩)) (fun _ => ?_)
  refine confined_read (fun picked => ?_)
  cases picked with
  | none => exact confined_pure aged_refl _
  | some row =>
    simp only
    split
    next => exact confined_pure aged_refl _
    next =>
      exact confined_bind aged_trans (fun s => aged_update rfl
        (fun r _ met => .inl (of_decide_eq_true met).2) (fun _ => ⟨rfl, rfl, rfl⟩))
        (fun _ s => aged_refl s)

theorem claimSkipping_aged (locked : String → Bool) (moment now : Instant) :
    Txn.Confined Aged (claimCheckinSkipping locked moment now) := by
  refine confined_atomically aged_refl ?_
  intro s
  simp only [run_bind_read]
  cases picked : s.checkins.first (fun r => decide (r.status = .queued ∧ r.claimToken = none ∧
      r.attempts < r.maxAttempts ∧ r.dueAt ≤ moment) && !locked r.id) dueBefore with
  | none => exact aged_refl s
  | some row =>
    obtain ⟨mem, met⟩ := first_some picked
    simp only [Bool.and_eq_true, decide_eq_true_eq] at met
    refine aged_update rfl ?_ (fun _ => ⟨rfl, rfl, rfl⟩)
    intro other stored here
    obtain rfl := eq_of_find (find_of_mem mem) stored (of_decide_eq_true here)
    exact .inl met.1.1

/-- The store has one more row, queued: its user had none pending and its slot was free. -/
def Scheduled (s t : CompanionStore) (row : CheckinRow) : Prop :=
  NonePending row.userId s ∧ SlotFree row.userId row.slot s ∧
    ∃ fresh : s.checkins.find row.id = none, t.checkins = s.checkins.insert row fresh

theorem nonePending_of_none (looked : pendingCheckin userId s = none) : NonePending userId s := by
  intro row stored own live
  have nonempty : s.checkins.select (fun r => decide (r.userId = userId ∧
      (r.status = .queued ∨ r.status = .running))) ≠ [] :=
    List.ne_nil_of_mem (List.mem_filter.mpr ⟨stored, decide_eq_true ⟨own, live⟩⟩)
  have found := @leastOf_isSome _ dueBefore _ nonempty
  have looked : Table.leastOf dueBefore (s.checkins.select (fun r => decide (r.userId = userId ∧
      (r.status = .queued ∨ r.status = .running)))) = none := looked
  rw [looked] at found
  cases found

theorem slotFree_of_none (held : slotCheckin userId slot s = none) : SlotFree userId slot s := by
  intro row stored own same
  rw [slotCheckin, List.head?_eq_none_iff] at held
  have mem : row ∈ s.checkins.select (fun r => decide (r.userId = userId ∧ r.slot = slot)) :=
    List.mem_filter.mpr ⟨stored, decide_eq_true ⟨own, same⟩⟩
  rw [held] at mem
  cases mem

theorem scheduleCheckin_added {slot : Slot} {maxAttempts : Int} {ident : String} {now : Instant}
    {result : CheckinRow × Bool}
    (run : scheduleCheckin slot.userId slot.dueAt slot.slot slot.channel slot.address maxAttempts true
      ident now s = (.ok result, t)) : t = s ∨ Scheduled s t (slot.row maxAttempts ident now) := by
  rcases scheduleCheckin_cases run with same | ⟨-, pending, held, fresh, added⟩
  · exact .inl same
  · exact .inr ⟨nonePending_of_none pending, slotFree_of_none held, fresh, by rw [added]; rfl⟩

section Adding

variable {s t : CompanionStore} {row : CheckinRow} {userId : String}

theorem mem_scheduled (scheduled : Scheduled s t row) {other : CheckinRow} :
    other ∈ t.checkins ↔ other ∈ s.checkins ∨ other = row := by
  obtain ⟨-, -, fresh, written⟩ := scheduled
  rw [written, mem_insert]

theorem one_of_scheduled (scheduled : Scheduled s t row) (one : OnePending userId s) :
    OnePending userId t := by
  intro a first b second ownA ownB liveA liveB
  rcases (mem_scheduled scheduled).mp first with storedA | rfl
  · rcases (mem_scheduled scheduled).mp second with storedB | rfl
    · exact one a storedA b storedB ownA ownB liveA liveB
    · exact absurd liveA (scheduled.1 a storedA (ownA.trans ownB.symm))
  · rcases (mem_scheduled scheduled).mp second with storedB | rfl
    · exact absurd liveB (scheduled.1 b storedB (ownB.trans ownA.symm))
    · rfl

theorem apart_of_scheduled (scheduled : Scheduled s t row) (apart : SlotsApart userId s) :
    SlotsApart userId t := by
  intro a first b second ownA ownB together
  rcases (mem_scheduled scheduled).mp first with storedA | rfl
  · rcases (mem_scheduled scheduled).mp second with storedB | rfl
    · exact apart a storedA b storedB ownA ownB together
    · exact absurd together (scheduled.2.1 a storedA (ownA.trans ownB.symm))
  · rcases (mem_scheduled scheduled).mp second with storedB | rfl
    · exact absurd together.symm (scheduled.2.1 b storedB (ownB.trans ownA.symm))
    · rfl

theorem none_of_scheduled (scheduled : Scheduled s t row) (other : row.userId ≠ userId)
    (none : NonePending userId s) : NonePending userId t := by
  intro a mem own live
  rcases (mem_scheduled scheduled).mp mem with stored | rfl
  · exact none a stored own live
  · exact other own

theorem free_of_scheduled (scheduled : Scheduled s t row) (other : row.userId ≠ userId)
    (free : SlotFree userId slot s) : SlotFree userId slot t := by
  intro a mem own
  rcases (mem_scheduled scheduled).mp mem with stored | rfl
  · exact free a stored own
  · exact absurd own other

end Adding

/-- The slot of a planner that is inside the PostgreSQL transaction. -/
def inside : PlanPhase → Option Slot
  | .locked slot | .looked slot | .inserted slot _ => some slot
  | _ => none

/-- What the statements of a transaction have found, and what is still so. -/
def Established (s : CompanionStore) : PlanPhase → Prop
  | .looked slot => NonePending slot.userId s
  | .inserted slot none => NonePending slot.userId s
  | .inserted slot (some row) => NonePending slot.userId s ∧ row.userId = slot.userId ∧
      SlotFree slot.userId row.slot s
  | _ => True

theorem established_outside (out : inside phase = none) : Established s phase := by
  cases phase <;> first | exact trivial | cases out

theorem established_aged (aged : Aged s t) (before : Established s phase) :
    Established t phase := by
  cases phase with
  | looked slot => exact none_of_aged aged before
  | inserted slot row =>
    cases row with
    | none => exact none_of_aged aged before
    | some row =>
      obtain ⟨unpending, own, free⟩ := before
      exact ⟨none_of_aged aged unpending, own, free_of_aged aged free⟩
  | _ => exact trivial

theorem established_scheduled (scheduled : Scheduled s t row)
    (other : ∀ slot, inside phase = some slot → slot.userId ≠ row.userId)
    (before : Established s phase) : Established t phase := by
  cases phase with
  | looked slot => exact none_of_scheduled scheduled (other slot rfl).symm before
  | inserted slot inserted =>
    cases inserted with
    | none => exact none_of_scheduled scheduled (other slot rfl).symm before
    | some new =>
      obtain ⟨unpending, own, free⟩ := before
      exact ⟨none_of_scheduled scheduled (other slot rfl).symm unpending, own,
        free_of_scheduled scheduled (other slot rfl).symm free⟩
  | _ => exact trivial

theorem returned_outside (p : Planner) (row : Option CheckinRow) :
    inside (p.returned row).phase = none := by
  unfold Planner.returned
  cases p.rest <;> rfl

theorem raised_outside (p : Planner) : inside p.raised.phase = none := rfl

section Looking

variable {cadenceMinutes : UserProfile → Int} {slotName : Instant → String}

theorem look_outside {p : Planner} {turn : PlanTurn} (out : inside p.phase = none) :
    inside (p.look wallClock cadenceMinutes slotName s turn).phase = none := by
  unfold Planner.look
  cases phase : p.phase with
  | looking userId =>
    simp only
    split
    next => exact returned_outside p none
    next profile _ =>
      split
      next => rfl
      next => exact returned_outside p none
  | profiled profile =>
    simp only
    split
    next => exact returned_outside p _
    next => rfl
  | unqueued profile =>
    simp only
    split
    next => exact returned_outside p _
    next =>
      split
      next => rfl
      next => exact raised_outside p
  | _ =>
    exact out

end Looking

/-- One user's check-ins stay apart; what a planner found under its lock is still so. -/
structure Serial (hashtextextended : String → Int) (backend : Backend) (userId : String)
    (d : Deployment) : Prop where
  one : OnePending userId d.store
  apart : SlotsApart userId d.store
  held : ∀ n slot, inside (d.planners n).phase = some slot →
    d.locks (planLock hashtextextended slot.userId) = some n
  established : ∀ n, Established d.store (d.planners n).phase
  outside : backend = .sqlite → ∀ n, inside (d.planners n).phase = none

section Steps

variable {hashtextextended : String → Int} {backend : Backend} {userId : String} {d : Deployment}
  {n : Nat} {p : Planner} {slot : Slot}

@[simp] theorem put_locks : (d.put n p).locks = d.locks := rfl

theorem put_planners (m : Nat) : (d.put n p).planners m = if m = n then p else d.planners m :=
  Function.update_apply _ _ _ _

theorem serial_aged (serial : Serial hashtextextended backend userId d) (aged : Aged d.store t) :
    Serial hashtextextended backend userId { d with store := t } where
  one := one_of_aged aged serial.one
  apart := apart_of_aged aged serial.apart
  held := serial.held
  established m := established_aged aged (serial.established m)
  outside := serial.outside

/-- A planner moves on under the lock it holds, or outside of a transaction. -/
theorem serial_put (serial : Serial hashtextextended backend userId d)
    (holds : ∀ slot, inside p.phase = some slot →
      d.locks (planLock hashtextextended slot.userId) = some n ∧ backend = .postgres)
    (found : Established d.store p.phase) :
    Serial hashtextextended backend userId (d.put n p) where
  one := serial.one
  apart := serial.apart
  held := by
    intro m slot here
    rw [put_planners] at here
    split at here
    next same =>
      subst same
      exact (holds slot here).1
    next => exact serial.held m slot here
  established := by
    intro m
    rw [put_planners]
    split
    next => exact found
    next => exact serial.established m
  outside := by
    intro sqlite m
    rw [put_planners]
    split
    next =>
      cases here : inside p.phase with
      | none => rfl
      | some slot =>
        have postgres := (holds slot here).2
        rw [sqlite] at postgres
        cases postgres
    next => exact serial.outside sqlite m

theorem serial_put_outside (serial : Serial hashtextextended backend userId d)
    (out : inside p.phase = none) : Serial hashtextextended backend userId (d.put n p) :=
  serial_put serial (fun slot here => by rw [out] at here; cases here) (established_outside out)

/-- A transaction ends, and its lock is given back: no other planner held it. -/
theorem serial_ended (serial : Serial hashtextextended backend userId d)
    (was : inside (d.planners n).phase = some slot) (out : inside p.phase = none) :
    Serial hashtextextended backend userId ((d.ended hashtextextended n slot.userId).put n p) where
  one := serial.one
  apart := serial.apart
  held := by
    intro m other here
    rw [put_planners] at here
    split at here
    next =>
      rw [out] at here
      cases here
    next different =>
      have theirs := serial.held m other here
      simp only [put_locks, Deployment.ended]
      rw [Function.update_of_ne, theirs]
      intro same
      rw [same, serial.held n slot was] at theirs
      exact different (Option.some.inj theirs).symm
  established := by
    intro m
    rw [put_planners]
    split
    next => exact established_outside out
    next => exact serial.established m
  outside := by
    intro sqlite m
    rw [put_planners]
    split
    next => exact out
    next => exact serial.outside sqlite m

theorem serial_scheduled (serial : Serial hashtextextended backend userId d)
    (scheduled : Scheduled d.store t row)
    (alone : ∀ m slot, inside (d.planners m).phase = some slot → slot.userId ≠ row.userId) :
    Serial hashtextextended backend userId { d with store := t } where
  one := one_of_scheduled scheduled serial.one
  apart := apart_of_scheduled scheduled serial.apart
  held := serial.held
  established m := established_scheduled scheduled (alone m) (serial.established m)
  outside := serial.outside

end Steps

section Planners

variable {hashtextextended : String → Int} {backend : Backend} {userId : String} {d : Deployment}
  {n : Nat} {slot : Slot} {turn : PlanTurn}

theorem scheduleSqlite_serial (serial : Serial hashtextextended backend userId d)
    (sqlite : backend = .sqlite) :
    Serial hashtextextended backend userId (scheduleSqlite d n slot turn) := by
  have alone : ∀ m other, inside (d.planners m).phase = some other →
      other.userId ≠ (slot.row 3 turn.ident turn.now).userId := by
    intro m other here
    rw [serial.outside sqlite m] at here
    cases here
  unfold scheduleSqlite
  cases run : scheduleCheckin slot.userId slot.dueAt slot.slot slot.channel slot.address 3 true
      turn.ident turn.now d.store with
  | mk answer t =>
    cases answer with
    | error e =>
      have clean : t = d.store := raisesClean_require_bind (raisesClean_atomically _) _ _ _ run
      exact serial_put_outside (serial_aged serial (aged_of_same (by rw [clean])))
        (raised_outside _)
    | ok result =>
      have added := scheduleCheckin_added run
      have stored : Serial hashtextextended backend userId { d with store := t } := by
        rcases added with rfl | scheduled
        · exact serial
        · exact serial_scheduled serial scheduled alone
      exact serial_put_outside stored (returned_outside _ _)

theorem lockPg_serial (serial : Serial hashtextextended backend userId d)
    (postgres : backend = .postgres) :
    Serial hashtextextended backend userId (lockPg hashtextextended d n slot) := by
  unfold lockPg
  cases held : d.locks (planLock hashtextextended slot.userId) with
  | some holder =>
    simp only [held]
    exact serial
  | none =>
    simp only [held]
    -- The lock was free, so no planner was inside under it.
    have taken : Serial hashtextextended backend userId
        { d with locks := Function.update d.locks (planLock hashtextextended slot.userId) (some n) } := by
      refine ⟨serial.one, serial.apart, ?_, serial.established, serial.outside⟩
      intro m other here
      have theirs := serial.held m other here
      simp only
      rw [Function.update_of_ne, theirs]
      intro same
      rw [same, held] at theirs
      cases theirs
    refine serial_put taken ?_ trivial
    intro other here
    obtain rfl := Option.some.inj here
    exact ⟨Function.update_self _ _ _, postgres⟩

theorem postgres_of_inside (serial : Serial hashtextextended backend userId d)
    (was : inside (d.planners n).phase = some slot) : backend = .postgres := by
  cases backend with
  | postgres => rfl
  | sqlite =>
    rw [serial.outside rfl n] at was
    cases was

theorem serial_inside (serial : Serial hashtextextended backend userId d)
    (was : inside (d.planners n).phase = some slot) (still : inside phase = some slot)
    (found : Established d.store phase) :
    Serial hashtextextended backend userId (d.put n { d.planners n with phase := phase }) := by
  refine serial_put serial ?_ found
  intro other here
  obtain rfl := Option.some.inj (still.symm.trans here)
  exact ⟨serial.held n slot was, postgres_of_inside serial was⟩

theorem lookPg_serial (serial : Serial hashtextextended backend userId d)
    (phase : (d.planners n).phase = .locked slot) :
    Serial hashtextextended backend userId (lookPg hashtextextended d n slot) := by
  have was : inside (d.planners n).phase = some slot := by rw [phase]; rfl
  unfold lookPg
  cases pending : pendingCheckin slot.userId d.store with
  | some row => exact serial_ended serial was (returned_outside _ _)
  | none => exact serial_inside serial was rfl (nonePending_of_none pending)

theorem insertPg_serial (serial : Serial hashtextextended backend userId d)
    (phase : (d.planners n).phase = .looked slot) :
    Serial hashtextextended backend userId (insertPg hashtextextended d n slot turn) := by
  have was : inside (d.planners n).phase = some slot := by rw [phase]; rfl
  have unpending : NonePending slot.userId d.store := by
    have found := serial.established n
    rw [phase] at found
    exact found
  unfold insertPg
  simp only
  split
  next => exact serial
  next =>
    cases held : slotCheckin slot.userId slot.slot d.store with
    | some row => exact serial_inside serial was rfl unpending
    | none =>
      cases taken : d.store.checkins.find (slot.row 3 turn.ident turn.now).id with
      | some row => exact serial_ended serial was (raised_outside _)
      | none =>
        have noted : Serial hashtextextended backend userId { d with
            uncommitted := (n, slot.row 3 turn.ident turn.now) :: d.uncommitted } :=
          ⟨serial.one, serial.apart, serial.held, serial.established, serial.outside⟩
        exact serial_inside noted was rfl ⟨unpending, rfl, slotFree_of_none held⟩

theorem commitPg_serial (serial : Serial hashtextextended backend userId d)
    {inserted : Option CheckinRow} (phase : (d.planners n).phase = .inserted slot inserted) :
    Serial hashtextextended backend userId (commitPg hashtextextended d n slot inserted) := by
  have was : inside (d.planners n).phase = some slot := by rw [phase]; rfl
  have found := serial.established n
  rw [phase] at found
  cases inserted with
  | none =>
    unfold commitPg
    simp only
    split
    next => exact serial_ended serial was (returned_outside _ _)
    next => exact serial_ended serial was (raised_outside _)
  | some row =>
    obtain ⟨unpending, own, free⟩ := found
    have ended : Serial hashtextextended backend userId ((d.ended hashtextextended n slot.userId).put n
        ((d.planners n).returned (some (CheckinRow.shown row)))) :=
      serial_ended serial was (returned_outside _ _)
    -- The user's lock keeps every other planner of the user out.
    have alone : ∀ m other, inside (((d.ended hashtextextended n slot.userId).put n
        ((d.planners n).returned (some (CheckinRow.shown row)))).planners m).phase = some other →
        other.userId ≠ row.userId := by
      intro m other here same
      rw [put_planners] at here
      split at here
      next =>
        rw [returned_outside] at here
        cases here
      next different =>
        have theirs := serial.held m other here
        rw [same, own, serial.held n slot was] at theirs
        exact different (Option.some.inj theirs).symm
    cases taken : d.store.checkins.find row.id with
    | some holder =>
      have kept := serial_aged ended (t := { d.store with
        checkins := (d.store.checkins.insertOrIgnore row).1 })
        (aged_of_same (by rw [insertOrIgnore_conflict taken]; rfl))
      exact kept
    | none =>
      rw [← own] at unpending free
      have scheduled : Scheduled d.store { d.store with
          checkins := (d.store.checkins.insertOrIgnore row).1 } row :=
        ⟨unpending, free, taken, by rw [insertOrIgnore_fresh taken]⟩
      exact serial_scheduled ended scheduled alone

end Planners

section Runs

variable {cadenceMinutes : UserProfile → Int} {slotName : Instant → String}
  {hashtextextended : String → Int} {backend : Backend} {userId : String}

theorem plan_serial (serial : Serial hashtextextended backend userId d) (n : Nat)
    (turn : PlanTurn) : Serial hashtextextended backend userId
      (d.plan wallClock cadenceMinutes slotName hashtextextended backend n turn) := by
  have looks (out : inside (d.planners n).phase = none) : Serial hashtextextended backend userId
      (d.put n ((d.planners n).look wallClock cadenceMinutes slotName d.store turn)) :=
    serial_put_outside serial (look_outside out)
  unfold Deployment.plan
  cases phase : (d.planners n).phase with
  | scheduling slot =>
    cases engine : backend with
    | sqlite =>
      subst engine
      exact scheduleSqlite_serial serial rfl
    | postgres =>
      subst engine
      exact lockPg_serial serial rfl
  | locked slot => exact lookPg_serial serial phase
  | looked slot => exact insertPg_serial serial phase
  | inserted slot row => exact commitPg_serial serial phase
  | idle | looking user | profiled profile | unqueued profile => exact looks (by rw [phase]; rfl)

theorem broken_serial (serial : Serial hashtextextended backend userId d) (n : Nat) :
    Serial hashtextextended backend userId (d.broken hashtextextended n) := by
  unfold Deployment.broken
  cases phase : (d.planners n).phase with
  | locked slot | looked slot | inserted slot row =>
    exact serial_ended serial (by rw [phase]; rfl) (raised_outside _)
  | _ => exact serial_put_outside serial (raised_outside _)

theorem step_serial (d : Deployment) (action : Action)
    (serial : Serial hashtextextended backend userId d) :
    Serial hashtextextended backend userId
      (step scrubText wallClock cadenceMinutes slotName hashtextextended backend d action).2 := by
  cases action with
  | planUsers n users =>
    rw [step]
    split
    next => exact serial_put_outside serial (returned_outside _ _)
    next => exact serial
  | plan n turn => exact plan_serial serial n turn
  | broken n => exact broken_serial serial n
  | call operation => exact serial_aged serial (operation_aged d.store operation)
  | claimFencedSkipping locked clock leaseSeconds token =>
    exact serial_aged serial (claimFencedSkipping_aged locked clock leaseSeconds token d.store)
  | claimSkipping locked moment now =>
    exact serial_aged serial (claimSkipping_aged locked moment now d.store)

theorem start_serial (one : OnePending userId s) (apart : SlotsApart userId s) :
    Serial hashtextextended backend userId (Deployment.start s) where
  one := one
  apart := apart
  held := by
    intro n slot here
    cases here
  established n := trivial
  outside _ n := rfl

end Runs

/-- For both stores: any number of planners, one of whose steps is a single call of the SQLite
store and a single statement of the PostgreSQL store, interleaved with claims, renewals,
starts, finishes, failures, recoveries and cancellations. A user who starts with at most one
pending check-in has at most one in every state, and the slots stay apart. -/
theorem one_pending_per_user (scrubText : String → String) (wallClock : String → Instant → Nat)
    (cadenceMinutes : UserProfile → Int) (slotName : Instant → String)
    (hashtextextended : String → Int) (backend : Backend) (s : CompanionStore) (userId : String)
    (one : OnePending userId s) (apart : SlotsApart userId s) (run : List Action) :
    OnePending userId (final (step scrubText wallClock cadenceMinutes slotName hashtextextended backend)
        (Deployment.start s) run).store ∧
      SlotsApart userId (final (step scrubText wallClock cadenceMinutes slotName hashtextextended
        backend) (Deployment.start s) run).store := by
  have serial := @final_invariant Deployment Action Unit
    (step scrubText wallClock cadenceMinutes slotName hashtextextended backend)
    (Serial hashtextextended backend userId) step_serial (Deployment.start s)
    (start_serial one apart) run
  exact ⟨serial.one, serial.apart⟩

def adaStore : CompanionStore :=
  { CompanionStore.empty with
    users := ⟨[⟨"ada", "UTC", ⟨true, none, "local", none⟩⟩], by simp⟩ }

/-- Two planners have both looked and found nothing before either of them schedules. -/
def planRace (turn : PlanTurn) : List Action :=
  [.planUsers 0 ["ada"], .planUsers 1 ["ada"], .plan 0 turn, .plan 1 turn, .plan 0 turn, .plan 1 turn,
   .plan 0 turn, .plan 1 turn, .plan 0 turn, .plan 1 turn, .plan 0 turn, .plan 0 turn, .plan 1 turn,
   .plan 0 turn, .plan 1 turn, .plan 1 turn]

theorem planRace_one_pending :
    OnePending "ada" (final (step id (fun _ _ => 0) (fun _ => 60) (fun _ => "slot") (fun _ => 0)
        .postgres) (Deployment.start adaStore) (planRace ⟨0, 0, "c1"⟩)).store ∧
      SlotsApart "ada" (final (step id (fun _ _ => 0) (fun _ => 60) (fun _ => "slot") (fun _ => 0)
        .postgres) (Deployment.start adaStore) (planRace ⟨0, 0, "c1"⟩)).store :=
  one_pending_per_user id (fun _ _ => 0) (fun _ => 60) (fun _ => "slot") (fun _ => 0) .postgres
    adaStore "ada" (fun _ stored => by cases stored) (fun _ stored => by cases stored)
    (planRace ⟨0, 0, "c1"⟩)

example : ((final (step id (fun _ _ => 0) (fun _ => 60) (fun _ => "slot") (fun _ => 0) .postgres)
    (Deployment.start adaStore) (planRace ⟨0, 0, "c1"⟩)).store.checkins.rows.map CheckinRow.id) =
      ["c1"] := by decide +kernel

end Meemee.Guarantees.CheckinPlanning
