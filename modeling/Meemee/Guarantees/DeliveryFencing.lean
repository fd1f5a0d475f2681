import Mathlib.Logic.Function.Basic
import Meemee.Library.History
import Meemee.Source.Deliveries

/-!
# Reports of recovered webhook claims

A dispatcher reports a send by the delivery's id. When its lease was recovered meanwhile, the
report meets whatever the delivery has become. Any number of dispatchers send and report, in
any order, statement by statement where each commits by itself. `current` and `recovered` are
ghosts: the attempt that each delivery is being sent under, and the attempts that were recovered.
-/
namespace Meemee.Guarantees.DeliveryFencing
open Library Library.History Source Source.Deliveries Library.Table Function Option

/-- What the second statement of a report writes. -/
inductive Report where
  | delivered (status : Int)
  | failed (status : DeliveryStatus) (error : String)

structure System where
  outbox : Outbox
  /-- The delivery of each attempt whose dispatcher has not reported. -/
  inFlight : Nat → Option String
  /-- The reports that have marked the row and not yet closed the attempt. -/
  between : Nat → Option (String × Report)
  /-- On SQLite, the attempts that a `retry` has read. -/
  seen : Nat → Option Nat
  current : String → Option Nat
  recovered : Nat → Bool

/-- What a step answers: a claim, with the row it found and its attempt's number. -/
inductive Answer where
  | claimed (row : Delivery) (number : Nat)
  | done
  deriving DecidableEq, Repr

inductive Action where
  | queue (ident subscriptionId : String) (now : Instant)
  | claim (skipped : List String) (current startedAt : Instant)
  /-- The dispatcher of an attempt reports it delivered. -/
  | succeed (number : Nat) (status : Int) (now : Instant)
  /-- The second UPDATE of a report: on SQLite, and of a PostgreSQL `succeed` that marked no row. -/
  | close (number : Nat) (now : Instant)
  /-- The SELECT of a SQLite `retry`. -/
  | look (number : Nat)
  /-- The dispatcher of an attempt reports that it failed. -/
  | retry (number : Nat) (error : String) (now finished : Instant)
  | recover (staleBefore now : Instant)
  | replay (principal ident : String) (now : Instant)
  /-- Subscribing, pausing and the suspension of a SQLite `retry`: whatever they leave. -/
  | resubscribe (subscriptions : Table Subscription.id)

abbrev Step := Event System Action Answer

/-- The dispatcher's `max_attempts`. -/
def maxAttempts : Nat := 8

def isSending (s : Outbox) (ident : String) : Bool :=
  (s.deliveries.find ident).any (fun d => decide (d.status = .sending))

/-- A claim under way: the dispatcher holds its attempt, and the row is sent under it. -/
def System.opened (s : System) (row : Delivery) (after : Outbox) : System where
  outbox := after
  inFlight := Function.update s.inFlight s.outbox.attempts.next (some row.id)
  between := s.between
  seen := s.seen
  current := Function.update s.current row.id (some s.outbox.attempts.next)
  recovered := s.recovered

/-- The dispatcher of an attempt has reported, and the row is sent under no attempt. -/
def System.reported (s : System) (number : Nat) (ident : String)
    (between : Nat → Option (String × Report)) (after : Outbox) : System where
  outbox := after
  inFlight := Function.update s.inFlight number none
  between := between
  seen := s.seen
  current := Function.update s.current ident none
  recovered := s.recovered

/-- The second statement of a report. -/
def closeReport (ident : String) (now : Instant) : Report → OutboxTxn Unit
  | .delivered status => closeDelivered ident status now
  | .failed status error => closeRetried ident status error now

def step (backend : Backend) (s : System) : Action → Answer × System
  | .queue ident subscriptionId now =>
    (.done, { s with outbox := (queue ident subscriptionId now s.outbox).2 })
  | .claim skipped now startedAt =>
    match claim (if backend = .postgres then skipped else []) now startedAt s.outbox with
    | (.ok (some row), t) => (.claimed row s.outbox.attempts.next, s.opened row t)
    | _ => (.done, s)
  | .succeed number status now =>
    match s.inFlight number with
    | none => (.done, s)
    | some ident =>
      let closing := Function.update s.between number (some (ident, .delivered status))
      let marked := (markDelivered ident status s.outbox).2
      if isSending s.outbox ident then
        match backend with
        | .sqlite => (.done, s.reported number ident closing marked)
        | .postgres =>
          (.done, s.reported number ident s.between (succeed ident status now s.outbox).2)
      -- nothing matched, so on PostgreSQL too no row is locked until the second statement
      else (.done, { s with
        outbox := marked
        inFlight := Function.update s.inFlight number none
        between := closing })
  | .close number now =>
    match s.between number with
    | none => (.done, s)
    | some (ident, report) => (.done, { s with
        outbox := (closeReport ident now report s.outbox).2
        between := Function.update s.between number none })
  | .look number =>
    match backend with
    | .postgres => (.done, s)
    | .sqlite =>
      let row := (s.inFlight number).bind s.outbox.deliveries.find
      (.done, { s with seen := Function.update s.seen number (row.map Delivery.attempts) })
  | .retry number error now finished =>
    match s.inFlight number with
    | none => (.done, s)
    | some ident =>
      match backend with
      | .postgres => (.done, s.reported number ident s.between
          (retry ident error maxAttempts now finished s.outbox).2)
      | .sqlite =>
        match s.seen number with
        | none => (.done, s)
        | some attempts => (.done, s.reported number ident
            (Function.update s.between number
              (some (ident, .failed (retryStatus attempts maxAttempts) error)))
            (markRetried ident attempts error maxAttempts now s.outbox).2)
  | .recover staleBefore now =>
    let expired (ident : String) : Bool :=
      (s.outbox.deliveries.find ident).any (fun d => d.stale staleBefore)
    (.done, { s with
      outbox := (recoverStale staleBefore now s.outbox).2
      current := fun ident => if expired ident then none else s.current ident
      recovered := fun number => s.recovered number || (s.inFlight number).any (fun ident =>
        decide (s.current ident = some number) && expired ident) })
  | .replay principal ident now =>
    (.done, { s with outbox := (replayDelivery principal ident now s.outbox).2 })
  | .resubscribe subscriptions => (.done, { s with outbox := { s.outbox with subscriptions } })

/-- No delivery is stored yet. -/
def start (subscriptions : Table Subscription.id) : System :=
  ⟨⟨subscriptions, Table.empty, Log.empty⟩, fun _ => none, fun _ => none, fun _ => none,
    fun _ => none, fun _ => false⟩

/-- The delivery that an action reports on, and the attempt it reports. -/
def reports (s : System) : Action → Option (Nat × String)
  | .succeed number _ _ | .retry number _ _ _ => (s.inFlight number).map (fun ident => (number, ident))
  | .close number _ => (s.between number).map (fun report => (number, report.1))
  | _ => none

/-- A delivery that was delivered stays delivered. -/
def DeliveredStays (e : Step) : Prop :=
  ∀ ident row, e.before.outbox.deliveries.find ident = some row → row.status = .delivered →
    ∃ after, e.after.outbox.deliveries.find ident = some after ∧ after.status = .delivered

/-- A statement of the report of a recovered attempt changes nothing later. -/
def StaleSilent (e : Step) : Prop :=
  ∀ number ident, reports e.before e.action = some (number, ident) →
    e.before.recovered number = true →
    e.after.outbox.deliveries = e.before.outbox.deliveries ∧
      ∀ later, number < later →
        e.after.outbox.attempts.find later = e.before.outbox.attempts.find later

/-- The delivery was claimed again after an attempt. -/
def ClaimedAgain (s : Outbox) (number : Nat) (ident : String) : Prop :=
  ∃ e ∈ s.attempts.entries, e.2.deliveryId = ident ∧ number < e.1

def isRetry : Action → Bool
  | .retry _ _ _ _ => true
  | _ => false

/-- No failure is reported of a recovered attempt, and each statement of a success runs before the
next claim. -/
def Meets (e : Step) : Prop :=
  ∀ number ident, reports e.before e.action = some (number, ident) →
    e.before.recovered number = true →
    isRetry e.action = false ∧ ¬ ClaimedAgain e.before.outbox number ident

instance (s : Outbox) (number : Nat) (ident : String) : Decidable (ClaimedAgain s number ident) :=
  inferInstanceAs (Decidable (∃ e ∈ s.attempts.entries, e.2.deliveryId = ident ∧ number < e.1))

theorem meets_iff (e : Step) : Meets e ↔ ∀ r ∈ reports e.before e.action,
    e.before.recovered r.1 = true →
      isRetry e.action = false ∧ ¬ ClaimedAgain e.before.outbox r.1 r.2 := by
  constructor
  · intro meets r reported
    exact meets r.1 r.2 reported
  · intro meets number ident reported
    exact meets (number, ident) reported

instance (e : Step) : Decidable (Meets e) := decidable_of_iff' _ (meets_iff e)

variable {p : Delivery → Bool} {ident error : String} {f : Attempt → Attempt} {number : Nat}
  {now finished : Instant} {row : Delivery} {s t : System} {action : Action} {answer : Answer}

/-- The attempts with the last one of a delivery changed. -/
def editedLast (s : Outbox) (ident : String) (f : Attempt → Attempt) : Log Attempt :=
  s.attempts.edit (fun number a => some (if lastAttempt s ident = some number then f a else a))

theorem last_editedLast {s : Outbox}
    (keeps : ∀ a, (f a).deliveryId = a.deliveryId) (other : String) :
    (editedLast s ident f).last (fun a => decide (a.deliveryId = other)) =
      s.attempts.last (fun a => decide (a.deliveryId = other)) := by
  apply Log.last_edit
  intro number a
  split
  · rw [keeps]
  · rfl

theorem find_editedLast {s : Outbox} (other : lastAttempt s ident ≠ some number) :
    (editedLast s ident f).find number = s.attempts.find number := by
  rw [editedLast, Log.find_edit]
  simp [other]

theorem mem_editedLast {s : Outbox} (keeps : ∀ a, (f a).deliveryId = a.deliveryId) {other : String}
    (stored : ∃ a, (number, a) ∈ s.attempts.entries ∧ a.deliveryId = other) :
    ∃ a, (number, a) ∈ (editedLast s ident f).entries ∧ a.deliveryId = other := by
  obtain ⟨a, mem, about⟩ := stored
  refine ⟨if lastAttempt s ident = some number then f a else a, ?_, ?_⟩
  · rw [← Log.find_some_iff, editedLast, Log.find_edit, Log.find_some_iff.mpr mem]
    rfl
  · split
    · rw [keeps, about]
    · exact about

theorem succeed_deliveries (ident : String) (status : Int) (now : Instant) (s : Outbox) :
    (succeed ident status now s).2.deliveries =
      s.deliveries.update (fun d => decide (d.id = ident ∧ d.status = .sending))
        (fun d => d.delivered status) (fun d => d.delivered_id status) := rfl

theorem markDelivered_deliveries (ident : String) (status : Int) (s : Outbox) :
    (markDelivered ident status s).2.deliveries =
      s.deliveries.update (fun d => decide (d.id = ident ∧ d.status = .sending))
        (fun d => d.delivered status) (fun d => d.delivered_id status) := rfl

theorem markRetried_deliveries (ident : String) (attempts : Nat) (error : String) (budget : Nat)
    (now : Instant) (s : Outbox) :
    (markRetried ident attempts error budget now s).2.deliveries =
      s.deliveries.update (fun d => decide (d.id = ident))
        (fun d => d.retried (retryStatus attempts budget) (now + delay attempts) error)
        (fun d => d.retried_id (retryStatus attempts budget) (now + delay attempts) error) := rfl

theorem succeed_attempts (ident : String) (status : Int) (now : Instant) (s : Outbox) :
    (succeed ident status now s).2.attempts =
      editedLast s ident (fun a => a.delivered status now) := rfl

theorem suspend_run (ident : String) (s : Outbox) :
    ∃ t, suspend ident s = (.ok (), t) ∧ t.deliveries = s.deliveries ∧
      t.attempts = s.attempts := by
  rw [suspend, Txn.run_bind_read]
  cases s.deliveries.find ident with
  | none => exact ⟨_, rfl, rfl, rfl⟩
  | some row =>
    simp only [Txn.run_bind_read]
    split
    · exact ⟨_, rfl, rfl, rfl⟩
    · exact ⟨_, rfl, rfl, rfl⟩

theorem retryFrom_run (ident : String) (attempts : Nat) (error : String) (budget : Nat)
    (now finished : Instant) (s : Outbox) :
    (retryFrom ident attempts error budget now finished s).2.deliveries =
        s.deliveries.update (fun d => decide (d.id = ident))
          (fun d => d.retried (retryStatus attempts budget) (now + delay attempts) error)
          (fun d => d.retried_id (retryStatus attempts budget) (now + delay attempts) error) ∧
      (retryFrom ident attempts error budget now finished s).2.attempts = editedLast s ident
        (fun a => a.retried (retryStatus attempts budget) error finished) := by
  have body : ∃ t, retryFrom ident attempts error budget now finished s = (.ok (), t) ∧
      t.deliveries = s.deliveries.update (fun d => decide (d.id = ident))
        (fun d => d.retried (retryStatus attempts budget) (now + delay attempts) error)
        (fun d => d.retried_id (retryStatus attempts budget) (now + delay attempts) error) ∧
      t.attempts = editedLast s ident
        (fun a => a.retried (retryStatus attempts budget) error finished) := by
    simp only [retryFrom, Txn.atomically_ok]
    split
    · exact suspend_run ident _
    · exact ⟨_, rfl, rfl, rfl⟩
  obtain ⟨t, run, deliveries, attempts⟩ := body
  rw [run]
  exact ⟨deliveries, attempts⟩

theorem retry_found {budget : Nat} {s : Outbox} (found : s.deliveries.find ident = some row) :
    retry ident error budget now finished s =
      retryFrom ident row.attempts error budget now finished s := by
  rw [retry, Txn.run_bind_read, found]

theorem retry_absent {budget : Nat} {s : Outbox} (absent : s.deliveries.find ident = none) :
    (retry ident error budget now finished s).2 = s := by
  rw [retry, Txn.run_bind_read, absent]
  rfl

theorem claim_some {skipped : List String} {startedAt : Instant} {s t : Outbox}
    (run : claim skipped now startedAt s = (.ok (some row), t)) :
    s.deliveries.find row.id = some row ∧ row.status = .queued ∧
      t.deliveries = s.deliveries.update (fun d => decide (d.id = row.id))
        (fun d => d.claimed now) (fun d => d.claimed_id now) ∧
      t.attempts = s.attempts.append (newAttempt row startedAt) := by
  rw [claim, Txn.atomically_ok, Txn.run_bind_read] at run
  cases picked : s.deliveries.first (fun d => due s now d && !skipped.contains d.id) dueBefore with
  | none =>
    rw [picked] at run
    cases run
  | some found =>
    rw [picked] at run
    cases run
    obtain ⟨mem, met⟩ := first_some picked
    have due := (Bool.and_eq_true_iff.mp (Bool.and_eq_true_iff.mp met).1).1
    exact ⟨find_of_mem mem, (of_decide_eq_true due).1, rfl, rfl⟩

/-- Every row that is being sent is sent under its delivery's last attempt, by a dispatcher that
reports unless the attempt is recovered. -/
structure Inv (s : System) : Prop where
  sending : ∀ ident, isSending s.outbox ident = (s.current ident).isSome
  last : ∀ ident number, s.current ident = some number →
    lastAttempt s.outbox ident = some number
  flying : ∀ number ident, s.inFlight number = some ident →
    ∃ a, (number, a) ∈ s.outbox.attempts.entries ∧ a.deliveryId = ident
  pending : ∀ number report, s.between number = some report →
    ∃ a, (number, a) ∈ s.outbox.attempts.entries ∧ a.deliveryId = report.1
  live : ∀ number ident, s.inFlight number = some ident → s.recovered number = false →
    s.current ident = some number
  gone : ∀ number, s.recovered number = true →
    number < s.outbox.attempts.next ∧ ∀ ident, s.current ident ≠ some number

theorem inv_start (subscriptions : Table Subscription.id) : Inv (start subscriptions) where
  sending _ := rfl
  last _ _ held := by cases held
  flying _ _ there := by cases there
  pending _ _ there := by cases there
  live _ _ there := by cases there
  gone _ recovered := by cases recovered

/-- Two deliveries are not sent under one attempt. -/
theorem current_unique (inv : Inv s) {other : String} (held : s.current ident = some number)
    (also : s.current other = some number) : ident = other := by
  obtain ⟨⟨a, mem, about⟩, -⟩ := Log.last_some (inv.last ident number held)
  obtain ⟨⟨b, there, same⟩, -⟩ := Log.last_some (inv.last other number also)
  obtain rfl : a = b := (Prod.mk.inj (Log.eq_of_number s.outbox.attempts.ordered mem there rfl)).2
  exact (of_decide_eq_true about).symm.trans (of_decide_eq_true same)

theorem reported_stored (inv : Inv s) (reported : reports s action = some (number, ident)) :
    ∃ a, (number, a) ∈ s.outbox.attempts.entries ∧ a.deliveryId = ident := by
  cases action with
  | succeed at_ status now =>
    obtain ⟨other, there, same⟩ := map_eq_some_iff.mp reported
    cases same
    exact inv.flying _ _ there
  | retry at_ error now finished =>
    obtain ⟨other, there, same⟩ := map_eq_some_iff.mp reported
    cases same
    exact inv.flying _ _ there
  | close at_ now =>
    obtain ⟨report, there, same⟩ := map_eq_some_iff.mp reported
    cases same
    exact inv.pending _ _ there
  | _ => cases reported

/-- A recovered attempt not claimed again is the last one, and the row is not being sent. -/
theorem recovered_idle (inv : Inv s)
    (stored : ∃ a, (number, a) ∈ s.outbox.attempts.entries ∧ a.deliveryId = ident)
    (stale : s.current ident ≠ some number) (once : ¬ ClaimedAgain s.outbox number ident) :
    isSending s.outbox ident = false ∧ lastAttempt s.outbox ident = some number := by
  obtain ⟨a, mem, about⟩ := stored
  obtain ⟨latest, ends⟩ := Log.last_isSome (p := fun a => decide (a.deliveryId = ident)) mem
    (decide_eq_true about)
  obtain ⟨⟨b, there, same⟩, above⟩ := Log.last_some ends
  have le : number ≤ latest := above _ mem (decide_eq_true about)
  have ge : latest ≤ number := by
    refine Nat.not_lt.mp (fun more => once ?_)
    exact ⟨(latest, b), there, of_decide_eq_true same, more⟩
  obtain rfl : latest = number := by omega
  refine ⟨?_, ends⟩
  rw [inv.sending ident]
  cases held : s.current ident with
  | none => rfl
  | some other =>
    have under := inv.last ident other held
    rw [lastAttempt, ends] at under
    cases under
    exact absurd held stale

/-- The attempts that are stored, by the delivery they belong to. -/
def Stored (s : Outbox) (number : Nat) (ident : String) : Prop :=
  ∃ a, (number, a) ∈ s.attempts.entries ∧ a.deliveryId = ident

/-- A step that opens no attempt: what is in flight or sent under an attempt was so before. -/
structure Narrows (s t : System) : Prop where
  next : t.outbox.attempts.next = s.outbox.attempts.next
  last : ∀ ident, lastAttempt t.outbox ident = lastAttempt s.outbox ident
  stored : ∀ number ident, Stored s.outbox number ident → Stored t.outbox number ident
  current : ∀ ident number, t.current ident = some number → s.current ident = some number
  flying : ∀ number ident, t.inFlight number = some ident → s.inFlight number = some ident
  pending : ∀ number report, t.between number = some report →
    s.between number = some report ∨ s.inFlight number = some report.1

theorem inv_narrowed (inv : Inv s) (narrows : Narrows s t)
    (sending : ∀ ident, isSending t.outbox ident = (t.current ident).isSome)
    (live : ∀ number ident, t.inFlight number = some ident → t.recovered number = false →
      t.current ident = some number)
    (gone : ∀ number, t.recovered number = true → s.recovered number = true ∨
      number < s.outbox.attempts.next ∧ ∀ ident, t.current ident ≠ some number) : Inv t where
  sending := sending
  last ident number held := by
    rw [narrows.last]
    exact inv.last ident number (narrows.current ident number held)
  flying number ident there :=
    narrows.stored number ident (inv.flying number ident (narrows.flying number ident there))
  pending number report there := by
    apply narrows.stored
    cases narrows.pending number report there with
    | inl before => exact inv.pending number report before
    | inr flew => exact inv.flying number report.1 flew
  live := live
  gone number recovered := by
    rw [narrows.next]
    rcases gone number recovered with before | now
    · obtain ⟨drawn, idle⟩ := inv.gone number before
      exact ⟨drawn, fun ident held => idle ident (narrows.current ident number held)⟩
    · exact now

theorem narrows_outbox (attempts : t.outbox.attempts = s.outbox.attempts)
    (current : ∀ ident number, t.current ident = some number → s.current ident = some number)
    (flying : t.inFlight = s.inFlight) (pending : t.between = s.between) : Narrows s t where
  next := by rw [attempts]
  last ident := by
    simp only [lastAttempt, attempts]
  stored number ident stored := by
    unfold Stored
    simp only [attempts]
    exact stored
  current := current
  flying number ident there := by
    rw [← flying, there]
  pending number report there := by
    rw [pending] at there
    exact .inl there

theorem some_of_update_none {κ ρ : Type} [DecidableEq κ] {f : κ → Option ρ} {k other : κ} {r : ρ}
    (there : Function.update f k none other = some r) : f other = some r := by
  by_cases same : other = k
  · subst same
    rw [update_self] at there
    cases there
  · rw [update_of_ne same] at there
    exact there

theorem narrows_report (keeps : ∀ a, (f a).deliveryId = a.deliveryId)
    (attempts : t.outbox.attempts = editedLast s.outbox ident f)
    (current : ∀ ident number, t.current ident = some number → s.current ident = some number)
    (flying : ∀ number ident, t.inFlight number = some ident → s.inFlight number = some ident)
    (pending : ∀ number report, t.between number = some report →
      s.between number = some report ∨ s.inFlight number = some report.1) : Narrows s t where
  next := by
    rw [attempts]
    rfl
  last other := by
    rw [lastAttempt, attempts, last_editedLast keeps, lastAttempt]
  stored number other stored := by
    rw [Stored, attempts]
    exact mem_editedLast keeps stored
  current := current
  flying := flying
  pending := pending

/-- The two halves of what is claimed of a step, with the invariant they rest on. -/
structure Kept (s : System) (action : Action) (t : System) : Prop where
  inv : Inv t
  stays : DeliveredStays ⟨s, action, .done, t⟩
  silent : StaleSilent ⟨s, action, .done, t⟩

theorem stays_updated {f : Delivery → Delivery} {keeps : ∀ d, (f d).id = d.id}
    (deliveries : t.outbox.deliveries = s.outbox.deliveries.update p f keeps)
    (spared : ∀ d, s.outbox.deliveries.find d.id = some d → d.status = .delivered → p d = false) :
    DeliveredStays ⟨s, action, answer, t⟩ := by
  intro ident row found was
  have same := key_of_find found
  subst same
  refine ⟨row, ?_, was⟩
  rw [deliveries, find_update, found]
  simp [spared row found was]

theorem stays_same (deliveries : t.outbox.deliveries = s.outbox.deliveries) :
    DeliveredStays ⟨s, action, answer, t⟩ := by
  intro ident row found was
  refine ⟨row, ?_, was⟩
  rw [deliveries, found]

theorem silent_unreported (nothing : reports s action = none) :
    StaleSilent ⟨s, action, answer, t⟩ := by
  intro number ident reported
  rw [nothing] at reported
  cases reported

theorem silent_live (reported : reports s action = some (number, ident))
    (live : s.recovered number = false) : StaleSilent ⟨s, action, answer, t⟩ := by
  intro other name also stale
  rw [reported] at also
  cases also
  rw [live] at stale
  cases stale

/-- A recovered attempt closed before the delivery is claimed again: it is the last one. -/
theorem silent_closing (reported : reports s action = some (number, ident))
    (ends : s.recovered number = true → lastAttempt s.outbox ident = some number)
    (deliveries : t.outbox.deliveries = s.outbox.deliveries)
    (attempts : t.outbox.attempts = editedLast s.outbox ident f) :
    StaleSilent ⟨s, action, answer, t⟩ := by
  intro other name also stale
  rw [reported] at also
  cases also
  refine ⟨deliveries, ?_⟩
  intro later more
  rw [attempts, find_editedLast]
  rw [ends stale]
  intro same
  cases same
  omega

theorem sending_updated {s t : Outbox} {f : Delivery → Delivery} {keeps : ∀ d, (f d).id = d.id}
    (deliveries : t.deliveries = s.deliveries.update p f keeps)
    (idle : ∀ d, (f d).status ≠ .sending) (ident : String) :
    isSending t ident = (isSending s ident && !(s.deliveries.find ident).any p) := by
  simp only [isSending, deliveries, find_update]
  cases s.deliveries.find ident with
  | none => rfl
  | some row =>
    by_cases met : p row = true
    · simp [met, idle]
    · simp [met]

theorem keeps_queue (inv : Inv s) (ident subscriptionId : String) (now : Instant) :
    Kept s (.queue ident subscriptionId now)
      { s with outbox := (queue ident subscriptionId now s.outbox).2 } := by
  have rows : ∀ other, (queue ident subscriptionId now s.outbox).2.deliveries.find other =
      s.outbox.deliveries.find other ∨
      s.outbox.deliveries.find other = none ∧
        (queue ident subscriptionId now s.outbox).2.deliveries.find other =
          some (newDelivery ident subscriptionId now) := by
    intro other
    simp only [queue, Txn.run_write]
    cases found : s.outbox.deliveries.find (newDelivery ident subscriptionId now).id with
    | some row =>
      rw [insertOrIgnore_conflict found]
      exact .inl rfl
    | none =>
      rw [insertOrIgnore_fresh found, find_insert]
      by_cases here : (newDelivery ident subscriptionId now).id = other
      · subst here
        exact .inr ⟨found, if_pos rfl⟩
      · exact .inl (if_neg here)
  constructor
  · apply inv_narrowed inv
    · exact narrows_outbox rfl (fun _ _ held => held) rfl rfl
    · intro other
      rw [← inv.sending other]
      simp only [isSending]
      rcases rows other with same | ⟨absent, added⟩
      · rw [same]
      · rw [absent, added]
        rfl
    · exact inv.live
    · exact fun _ recovered => .inl recovered
  · intro other row found was
    refine ⟨row, ?_, was⟩
    rcases rows other with same | ⟨absent, added⟩
    · rw [same, found]
    · rw [absent] at found
      cases found
  · exact silent_unreported rfl

theorem keeps_recover (inv : Inv s) (staleBefore now : Instant) :
    Kept s (.recover staleBefore now) (step .sqlite s (.recover staleBefore now)).2 := by
  have deliveries : (recoverStale staleBefore now s.outbox).2.deliveries =
      s.outbox.deliveries.update (fun d => d.stale staleBefore) (fun d => d.recovered now)
        (fun d => d.recovered_id now) := rfl
  constructor
  · apply inv_narrowed inv
    · constructor
      case current =>
        intro ident number held
        simp only [step] at held
        split at held
        · cases held
        · exact held
      case next => rfl
      case last => exact fun _ => rfl
      case stored => exact fun _ _ stored => stored
      case flying => exact fun _ _ there => there
      case pending => exact fun _ _ there => .inl there
    · intro ident
      have after := sending_updated deliveries (fun d => by simp [Delivery.recovered]) ident
      simp only [step]
      rw [after, inv.sending ident]
      split
      next expired => simp [expired]
      next live => simp [live]
    · intro number ident there unrecovered
      simp only [step, Bool.or_eq_false_iff] at there unrecovered ⊢
      have held := inv.live number ident there unrecovered.1
      rw [there, any_some, held, decide_eq_true rfl, Bool.true_and] at unrecovered
      rw [if_neg (Bool.eq_false_iff.mp unrecovered.2)]
      exact held
    · intro number recovered
      simp only [step, Bool.or_eq_true] at recovered ⊢
      rcases recovered with before | now
      · exact .inl before
      · obtain ⟨ident, -, met⟩ := (Option.any_eq_true _ _).mp now
        obtain ⟨held, expired⟩ := Bool.and_eq_true_iff.mp met
        have held := of_decide_eq_true held
        obtain ⟨⟨a, mem, -⟩, -⟩ := Log.last_some (inv.last ident number held)
        refine .inr ⟨s.outbox.attempts.drawn _ mem, ?_⟩
        intro other also
        split at also
        · cases also
        next live =>
          rw [current_unique inv held also] at expired
          exact live expired
  · apply stays_updated deliveries
    intro d _ was
    simp [Delivery.stale, was]
  · exact silent_unreported rfl

theorem keeps_replay (inv : Inv s) (principal ident : String) (now : Instant) :
    Kept s (.replay principal ident now)
      { s with outbox := (replayDelivery principal ident now s.outbox).2 } := by
  have deliveries : (replayDelivery principal ident now s.outbox).2.deliveries =
      s.outbox.deliveries.update (replayable s.outbox principal ident) (fun d => d.replayed now)
        (fun d => d.replayed_id now) := rfl
  constructor
  · apply inv_narrowed inv
    · exact narrows_outbox rfl (fun _ _ held => held) rfl rfl
    · intro other
      rw [← inv.sending other]
      simp only [isSending, deliveries, find_update]
      cases s.outbox.deliveries.find other with
      | none => rfl
      | some row =>
        by_cases met : replayable s.outbox principal ident row = true
        · have failed : row.status = .failed := by
            simp only [replayable, Bool.and_eq_true, decide_eq_true_eq] at met
            exact met.1.2
          simp [met, failed, Delivery.replayed]
        · simp [met]
    · exact inv.live
    · exact fun _ recovered => .inl recovered
  · apply stays_updated deliveries
    intro d _ was
    simp [replayable, was]
  · exact silent_unreported rfl

/-- The attempt that a claim opens is the one its delivery is sent under. -/
theorem inv_opened (inv : Inv s) {skipped : List String} {startedAt : Instant} {t : Outbox}
    (run : claim skipped now startedAt s.outbox = (.ok (some row), t)) : Inv (s.opened row t) := by
  obtain ⟨found, queued, deliveries, attempts⟩ := claim_some run
  have stored : ∀ number ident, Stored s.outbox number ident → Stored t number ident := by
    rintro number ident ⟨a, mem, about⟩
    refine ⟨a, ?_, about⟩
    rw [attempts]
    exact List.mem_append_left _ mem
  constructor
  case sending =>
    intro ident
    simp only [System.opened, isSending, deliveries, find_update_key]
    by_cases here : ident = row.id
    · subst here
      simp [found, Delivery.claimed]
    · rw [if_neg here, update_of_ne here]
      exact inv.sending ident
  case last =>
    intro ident number held
    simp only [System.opened, lastAttempt, attempts, Log.last_append] at held ⊢
    by_cases here : ident = row.id
    · subst here
      rw [update_self] at held
      cases held
      simp [newAttempt]
    · rw [update_of_ne here] at held
      have other : decide ((newAttempt row startedAt).deliveryId = ident) = false :=
        decide_eq_false (fun same => here same.symm)
      rw [other]
      exact inv.last ident number held
  case flying =>
    intro number ident there
    by_cases here : number = s.outbox.attempts.next
    · subst here
      simp only [System.opened, update_self, Option.some.injEq] at there
      subst there
      refine ⟨newAttempt row startedAt, ?_, rfl⟩
      simp only [System.opened, attempts]
      exact List.mem_append_right _ (List.mem_singleton.mpr rfl)
    · simp only [System.opened, update_of_ne here] at there
      exact stored number ident (inv.flying number ident there)
  case pending =>
    intro number report there
    exact stored number report.1 (inv.pending number report there)
  case live =>
    intro number ident there unrecovered
    simp only [System.opened] at there unrecovered ⊢
    by_cases here : number = s.outbox.attempts.next
    · subst here
      rw [update_self] at there
      cases there
      exact update_self _ _ _
    · rw [update_of_ne here] at there
      have held := inv.live number ident there unrecovered
      have apart : ident ≠ row.id := by
        rintro rfl
        have sending := inv.sending row.id
        rw [held, isSending, found, any_some, queued] at sending
        cases sending
      rw [update_of_ne apart]
      exact held
  case gone =>
    intro number recovered
    obtain ⟨drawn, idle⟩ := inv.gone number recovered
    refine ⟨?_, ?_⟩
    · simp only [System.opened, attempts]
      exact Nat.lt_succ_of_lt drawn
    · intro ident held
      simp only [System.opened] at held
      by_cases here : ident = row.id
      · subst here
        rw [update_self] at held
        cases held
        exact Nat.lt_irrefl _ drawn
      · rw [update_of_ne here] at held
        exact idle ident held

theorem keeps_claim (inv : Inv s) {skipped : List String} {startedAt : Instant} {t : Outbox}
    (run : claim skipped now startedAt s.outbox = (.ok (some row), t)) (mine : List String) :
    Kept s (.claim mine now startedAt) (s.opened row t) := by
  obtain ⟨found, queued, deliveries, -⟩ := claim_some run
  constructor
  · exact inv_opened inv run
  · apply stays_updated deliveries
    intro d there was
    apply decide_eq_false
    intro same
    rw [same, found] at there
    cases there
    rw [queued] at was
    cases was
  · exact silent_unreported rfl

theorem isSending_found {s : Outbox} (sending : isSending s ident = true) :
    ∃ row, s.deliveries.find ident = some row ∧ row.status = .sending := by
  unfold isSending at sending
  cases found : s.deliveries.find ident with
  | none =>
    rw [found] at sending
    cases sending
  | some row =>
    rw [found] at sending
    exact ⟨row, rfl, of_decide_eq_true sending⟩

theorem markDelivered_idle {s : Outbox} (status : Int) (idle : isSending s ident = false) :
    (markDelivered ident status s).2.deliveries = s.deliveries := by
  have unmatched : ∀ d ∈ s.deliveries, decide (d.id = ident ∧ d.status = .sending) = false := by
    intro d mem
    apply decide_eq_false
    rintro ⟨same, sending⟩
    have found := find_of_mem mem
    rw [same] at found
    simp [isSending, found, sending] at idle
  apply update_none unmatched
  exact fun d => d.delivered_id status

/-- A report of the attempt the row is sent under; it closes the attempt here or in a second step. -/
theorem keeps_reported (inv : Inv s) (reported : reports s action = some (number, ident))
    (live : s.recovered number = false) (held : s.current ident = some number) {t : Outbox}
    {f : Delivery → Delivery} {keeps : ∀ d, (f d).id = d.id} (idle : ∀ d, (f d).status ≠ .sending)
    (only : ∀ d, p d = true → d.id = ident)
    (all : ∀ d, d.id = ident → d.status = .sending → p d = true) {g : Attempt → Attempt}
    (same : ∀ a, (g a).deliveryId = a.deliveryId)
    (deliveries : t.deliveries = s.outbox.deliveries.update p f keeps)
    (attempts : t.attempts = s.outbox.attempts ∨ t.attempts = editedLast s.outbox ident g)
    {between : Nat → Option (String × Report)}
    (pending : ∀ other report, between other = some report →
      s.between other = some report ∨ s.inFlight other = some report.1) :
    Kept s action (s.reported number ident between t) := by
  have sending := inv.sending ident
  rw [held] at sending
  obtain ⟨row, found, sent⟩ := isSending_found sending
  have fewer : ∀ other name, Function.update s.inFlight number none other = some name →
      s.inFlight other = some name := fun _ _ flew => some_of_update_none flew
  have older : ∀ other latest, Function.update s.current ident none other = some latest →
      s.current other = some latest := fun _ _ there => some_of_update_none there
  constructor
  · apply inv_narrowed inv
    · rcases attempts with untouched | edited
      · exact ⟨by rw [← untouched]; rfl, fun other => by rw [lastAttempt, lastAttempt, ← untouched]; rfl,
          fun other name stored => by rw [Stored, ← untouched] at stored; exact stored, older, fewer,
          pending⟩
      · exact narrows_report same edited older fewer pending
    · intro other
      rw [show (s.reported number ident between t).outbox = t from rfl, sending_updated deliveries idle]
      simp only [System.reported]
      by_cases here : other = ident
      · subst here
        simp [found, all row (key_of_find found) sent]
      · rw [update_of_ne here, ← inv.sending other]
        have spared : (s.outbox.deliveries.find other).any p = false := by
          rw [any_eq_false]
          intro d there
          apply Bool.eq_false_iff.mpr
          intro met
          exact here ((key_of_find there).symm.trans (only d met))
        rw [spared]
        simp
    · intro other name there unrecovered
      have under := inv.live other name (fewer other name there) unrecovered
      have apart : name ≠ ident := by
        rintro rfl
        obtain rfl : number = other := Option.some.inj (held.symm.trans under)
        simp only [System.reported, update_self] at there
        cases there
      simp only [System.reported, update_of_ne apart]
      exact under
    · exact fun _ recovered => .inl recovered
  · apply stays_updated deliveries
    intro d there was
    apply Bool.eq_false_iff.mpr
    intro met
    have named := only d met
    rw [named, found] at there
    cases there
    rw [sent] at was
    cases was
  · exact silent_live reported live

/-- A report that meets no row of its own changes at most the last attempt. -/
theorem keeps_closing (inv : Inv s) {g : Attempt → Attempt}
    (same : ∀ a, (g a).deliveryId = a.deliveryId)
    (reported : reports s action = some (number, ident))
    (ends : s.recovered number = true → lastAttempt s.outbox ident = some number)
    (deliveries : t.outbox.deliveries = s.outbox.deliveries)
    (attempts : t.outbox.attempts = editedLast s.outbox ident g) (current : t.current = s.current)
    (recovered : t.recovered = s.recovered)
    (flying : ∀ number ident, t.inFlight number = some ident → s.inFlight number = some ident)
    (pending : ∀ number report, t.between number = some report →
      s.between number = some report ∨ s.inFlight number = some report.1) : Kept s action t := by
  constructor
  · apply inv_narrowed inv
    · apply narrows_report same attempts _ flying pending
      intro other latest held
      rw [← current, held]
    · intro other
      rw [current, ← inv.sending other, isSending, isSending, deliveries]
    · intro other name there unrecovered
      rw [current]
      exact inv.live other name (flying other name there) (by rw [← recovered]; exact unrecovered)
    · exact fun other was => .inl (by rw [← recovered]; exact was)
  · exact stays_same deliveries
  · exact silent_closing reported ends deliveries attempts

theorem keeps_leaving (inv : Inv s) (outbox : t.outbox = s.outbox) (current : t.current = s.current)
    (recovered : t.recovered = s.recovered)
    (flying : ∀ number ident, t.inFlight number = some ident → s.inFlight number = some ident)
    (pending : ∀ number report, t.between number = some report →
      s.between number = some report ∨ s.inFlight number = some report.1) : Kept s action t := by
  constructor
  · apply inv_narrowed inv
    · constructor
      case next => rw [outbox]
      case last => exact fun ident => by rw [outbox]
      case stored => exact fun number ident stored => by rw [outbox]; exact stored
      case current => exact fun ident number held => by rw [← current, held]
      case flying => exact flying
      case pending => exact pending
    · intro other
      rw [current, ← inv.sending other, outbox]
    · intro other name there unrecovered
      rw [current]
      exact inv.live other name (flying other name there) (by rw [← recovered]; exact unrecovered)
    · exact fun other was => .inl (by rw [← recovered]; exact was)
  · exact stays_same (by rw [outbox])
  · intro number ident _ _
    rw [outbox]
    exact ⟨rfl, fun _ _ => rfl⟩

theorem keeps_still (inv : Inv s) (action : Action) : Kept s action s :=
  keeps_leaving inv rfl rfl rfl (fun _ _ flew => flew) (fun _ _ was => .inl was)

/-- A report `Meets` allows is of a live attempt, or a success of the last one, idle now. -/
theorem reports_cases (inv : Inv s) (meets : Meets ⟨s, action, answer, t⟩)
    (reported : reports s action = some (number, ident)) :
    s.recovered number = false ∨
      s.recovered number = true ∧ isRetry action = false ∧ isSending s.outbox ident = false ∧
        lastAttempt s.outbox ident = some number := by
  cases stale : s.recovered number with
  | false => exact .inl rfl
  | true =>
    obtain ⟨success, once⟩ := meets number ident reported stale
    have idle := (inv.gone number stale).2 ident
    exact .inr ⟨rfl, success, recovered_idle inv (reported_stored inv reported) idle once⟩

theorem pending_closing {report : Report} (there : s.inFlight number = some ident) (other : Nat)
    (later : String × Report)
    (was : Function.update s.between number (some (ident, report)) other = some later) :
    s.between other = some later ∨ s.inFlight other = some later.1 := by
  by_cases here : other = number
  · subst here
    rw [update_self, Option.some.injEq] at was
    subst was
    exact .inr there
  · rw [update_of_ne here] at was
    exact .inl was

theorem keeps_succeed (inv : Inv s) (backend : Backend) (number : Nat) (status : Int)
    (now : Instant) (meets : Meets ⟨s, .succeed number status now, answer, t⟩) :
    Kept s (.succeed number status now) (step backend s (.succeed number status now)).2 := by
  cases there : s.inFlight number with
  | none =>
    simp only [step, there]
    exact keeps_still inv _
  | some ident =>
    have reported : reports s (.succeed number status now) = some (number, ident) := by
      simp only [reports, there, map_some]
    cases sent : isSending s.outbox ident with
    | true =>
      simp only [step, there, sent, if_true]
      rcases reports_cases inv meets reported with live | ⟨-, -, idle, -⟩
      · have held := inv.live number ident there live
        have delivered : ∀ d : Delivery, (d.delivered status).status ≠ .sending := fun _ => nofun
        have only : ∀ d : Delivery, decide (d.id = ident ∧ d.status = .sending) = true → d.id = ident :=
          fun d met => (of_decide_eq_true met).1
        have all : ∀ d : Delivery, d.id = ident → d.status = .sending →
            decide (d.id = ident ∧ d.status = .sending) = true :=
          fun d named sending => decide_eq_true ⟨named, sending⟩
        have same : ∀ a : Attempt, (a.delivered status now).deliveryId = a.deliveryId := fun _ => rfl
        cases backend with
        | sqlite =>
          exact keeps_reported inv reported live held delivered only all same
            (markDelivered_deliveries ident status s.outbox) (.inl rfl) (pending_closing there)
        | postgres =>
          exact keeps_reported inv reported live held delivered only all same
            (succeed_deliveries ident status now s.outbox)
            (.inr (succeed_attempts ident status now s.outbox)) (fun _ _ was => .inl was)
      · rw [sent] at idle
        cases idle
    | false =>
      simp only [step, there, sent, Bool.false_eq_true, if_false]
      have same : (markDelivered ident status s.outbox).2 = s.outbox := by
        have rows := markDelivered_idle status sent
        simp only [markDelivered, Txn.run_write, Outbox.updated] at rows ⊢
        rw [rows]
      exact keeps_leaving inv same rfl rfl (fun _ _ flew => some_of_update_none flew)
        (pending_closing there)

theorem closeReport_run (ident : String) (now : Instant) (report : Report) (s : Outbox) :
    (closeReport ident now report s).2.deliveries = s.deliveries ∧
      ∃ g : Attempt → Attempt, (∀ a, (g a).deliveryId = a.deliveryId) ∧
        (closeReport ident now report s).2.attempts = editedLast s ident g := by
  cases report with
  | delivered status => exact ⟨rfl, fun a => a.delivered status now, fun _ => rfl, rfl⟩
  | failed status error => exact ⟨rfl, fun a => a.retried status error now, fun _ => rfl, rfl⟩

theorem keeps_close (inv : Inv s) (backend : Backend) (number : Nat) (now : Instant)
    (meets : Meets ⟨s, .close number now, answer, t⟩) :
    Kept s (.close number now) (step backend s (.close number now)).2 := by
  cases there : s.between number with
  | none =>
    simp only [step, there]
    exact keeps_still inv _
  | some pair =>
    obtain ⟨ident, report⟩ := pair
    have reported : reports s (.close number now) = some (number, ident) := by
      simp only [reports, there, map_some]
    obtain ⟨deliveries, g, same, attempts⟩ := closeReport_run ident now report s.outbox
    simp only [step, there]
    refine keeps_closing inv same reported ?ends (by exact deliveries) (by exact attempts) rfl rfl
      (fun _ _ flew => flew) ?pending
    case pending => exact fun other later was => .inl (some_of_update_none was)
    case ends =>
      intro stale
      rcases reports_cases inv meets reported with live | ⟨-, -, -, last⟩
      · rw [live] at stale
        cases stale
      · exact last

theorem keeps_retry (inv : Inv s) (backend : Backend) (number : Nat) (error : String)
    (now finished : Instant) (meets : Meets ⟨s, .retry number error now finished, answer, t⟩) :
    Kept s (.retry number error now finished)
      (step backend s (.retry number error now finished)).2 := by
  cases there : s.inFlight number with
  | none =>
    simp only [step, there]
    exact keeps_still inv _
  | some ident =>
    have reported : reports s (.retry number error now finished) = some (number, ident) := by
      simp only [reports, there, map_some]
    rcases reports_cases inv meets reported with live | ⟨-, failure, -⟩
    · have held := inv.live number ident there live
      have idle : ∀ attempts next (d : Delivery),
          (d.retried (retryStatus attempts maxAttempts) next error).status ≠ .sending := by
        intro attempts next d
        simp only [Delivery.retried, retryStatus]
        split <;> nofun
      have only : ∀ d : Delivery, decide (d.id = ident) = true → d.id = ident :=
        fun d met => of_decide_eq_true met
      have all : ∀ d : Delivery, d.id = ident → d.status = .sending → decide (d.id = ident) = true :=
        fun d named _ => decide_eq_true named
      have same : ∀ status (a : Attempt), (a.retried status error finished).deliveryId = a.deliveryId :=
        fun _ _ => rfl
      simp only [step, there]
      cases backend with
      | postgres =>
        have sending := inv.sending ident
        rw [held] at sending
        obtain ⟨row, found, -⟩ := isSending_found sending
        obtain ⟨deliveries, closed⟩ :=
          retryFrom_run ident row.attempts error maxAttempts now finished s.outbox
        simp only [retry_found found]
        exact keeps_reported inv reported live held (idle _ _) only all (same _) deliveries
          (.inr closed) (fun _ _ was => .inl was)
      | sqlite =>
        cases read : s.seen number with
        | none => exact keeps_still inv _
        | some attempts =>
          exact keeps_reported inv reported live held (idle _ _) only all (same .queued)
            (markRetried_deliveries ident attempts error maxAttempts now s.outbox) (.inl rfl)
            (pending_closing there)
    · cases failure

theorem step_keeps (backend : Backend) (inv : Inv s) (action : Action)
    (meets : Meets ⟨s, action, (step backend s action).1, (step backend s action).2⟩) :
    Kept s action (step backend s action).2 := by
  cases action with
  | queue ident subscriptionId now => exact keeps_queue inv ident subscriptionId now
  | claim skipped now startedAt =>
    simp only [step]
    split
    next row t run => exact keeps_claim inv run skipped
    next => exact keeps_still inv _
  | succeed number status now => exact keeps_succeed inv backend number status now meets
  | close number now => exact keeps_close inv backend number now meets
  | look number =>
    cases backend with
    | postgres => exact keeps_leaving inv rfl rfl rfl (fun _ _ flew => flew) (fun _ _ was => .inl was)
    | sqlite => exact keeps_leaving inv rfl rfl rfl (fun _ _ flew => flew) (fun _ _ was => .inl was)
  | retry number error now finished => exact keeps_retry inv backend number error now finished meets
  | recover staleBefore now => exact keeps_recover inv staleBefore now
  | replay principal ident now => exact keeps_replay inv principal ident now
  | resubscribe subscriptions =>
    constructor
    · apply inv_narrowed inv
      · exact narrows_outbox rfl (fun _ _ held => held) rfl rfl
      · exact inv.sending
      · exact inv.live
      · exact fun _ recovered => .inl recovered
    · exact stays_same rfl
    · exact silent_unreported rfl

/-- In a run whose steps all meet the condition, every step keeps what was delivered, and no
report of a recovered claim touches a row or a later attempt. -/
theorem deliveries_fenced (backend : Backend) (subscriptions : Table Subscription.id)
    (actions : List Action)
    (meets : ∀ e ∈ history (step backend) (start subscriptions) actions, Meets e) :
    ∀ e ∈ history (step backend) (start subscriptions) actions, DeliveredStays e ∧ StaleSilent e := by
  obtain ⟨events, -⟩ := invariant_of_meets Meets
    (fun s action inv met => (step_keeps backend inv action met).inv)
    (inv_start subscriptions) meets
  intro e member
  have met := meets e member
  have stepped := step_of_mem member
  have inv := (events e member).1
  cases e with
  | mk before action answered last =>
    have after : (step backend before action).2 = last := (Prod.mk.inj stepped).2
    subst after
    have kept := step_keeps backend inv action met
    exact ⟨kept.stays, kept.silent⟩

def oneSubscription : Table Subscription.id :=
  (Table.empty.insertOrIgnore (⟨"hook", "ana", true⟩ : Subscription)).1

/-- The first claim is recovered, and its success reported before the next claim. -/
def earlySuccess : List Action :=
  [.queue "d" "hook" 0, .claim [] 0 0, .recover 600 600, .succeed 1 200 700, .close 1 700,
    .claim [] 800 800, .succeed 2 200 900, .close 2 900]

theorem early_success_fenced :
    (∀ e ∈ history (step .sqlite) (start oneSubscription) earlySuccess, Meets e) ∧
      (∀ e ∈ history (step .sqlite) (start oneSubscription) earlySuccess,
        DeliveredStays e ∧ StaleSilent e) := by
  have meets : ∀ e ∈ history (step .sqlite) (start oneSubscription) earlySuccess, Meets e := by
    decide +kernel
  exact ⟨meets, deliveries_fenced .sqlite oneSubscription earlySuccess meets⟩

/-- The second claim is reported delivered, and then the first as failed. -/
def lateRetry : List Action :=
  [.queue "d" "hook" 0, .claim [] 0 0, .recover 600 600, .claim [] 700 700, .succeed 2 200 800,
    .look 1, .retry 1 "timeout" 900 900]

/-- The first claim is reported delivered while the second is under way. -/
def lateSuccess : List Action :=
  [.queue "d" "hook" 0, .claim [] 0 0, .recover 600 600, .claim [] 700 700, .succeed 1 200 800]

theorem not_stays {e : Step} {ident : String}
    (was : (e.before.outbox.deliveries.find ident).map Delivery.status = some .delivered)
    (now : (e.after.outbox.deliveries.find ident).map Delivery.status = some .queued) :
    ¬ DeliveredStays e := by
  intro stays
  obtain ⟨row, found, delivered⟩ := map_eq_some_iff.mp was
  obtain ⟨after, there, stayed⟩ := stays ident row found delivered
  rw [there, map_some, stayed] at now
  cases now

theorem not_silent {e : Step} {number : Nat} {ident : String}
    (reported : reports e.before e.action = some (number, ident))
    (stale : e.before.recovered number = true)
    (changed : (e.after.outbox.deliveries.find ident).map Delivery.status ≠
      (e.before.outbox.deliveries.find ident).map Delivery.status) : ¬ StaleSilent e := by
  intro silent
  have same := (silent number ident reported stale).1
  rw [same] at changed
  exact changed rfl

theorem late_reports_break :
    (∃ e ∈ history (step .sqlite) (start oneSubscription) lateRetry, ¬ DeliveredStays e) ∧
    (∃ e ∈ history (step .postgres) (start oneSubscription) lateRetry, ¬ DeliveredStays e) ∧
    (∃ e ∈ history (step .sqlite) (start oneSubscription) lateSuccess, ¬ StaleSilent e) ∧
    (∃ e ∈ history (step .postgres) (start oneSubscription) lateSuccess, ¬ StaleSilent e) := by
  have last {run : List Action} {backend : Backend} {e : Step}
      (there : (history (step backend) (start oneSubscription) run).getLast? = some e) :
      e ∈ history (step backend) (start oneSubscription) run := List.mem_of_getLast? there
  refine ⟨⟨_, last rfl, ?_⟩, ⟨_, last rfl, ?_⟩, ⟨_, last rfl, ?_⟩, ⟨_, last rfl, ?_⟩⟩
  · exact @not_stays _ "d" (by decide +kernel) (by decide +kernel)
  · exact @not_stays _ "d" (by decide +kernel) (by decide +kernel)
  · exact @not_silent _ 1 "d" rfl (by decide +kernel) (by decide +kernel)
  · exact @not_silent _ 1 "d" rfl (by decide +kernel) (by decide +kernel)

end Meemee.Guarantees.DeliveryFencing
