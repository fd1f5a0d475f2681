import Meemee.Guarantees.DeliveryFencing

/-!
# The attempt budget of a webhook delivery

Only `retry` compares the attempts with the budget. `claim` counts an attempt and
`recover_stale` queues the row again without a look at the count, so a delivery whose
dispatchers keep crashing is sent for ever. A SQLite `retry` reads the attempts in a statement of
its own, so another process may claim the delivery in between.
-/
namespace Meemee.Guarantees.DeliveryBudget
open Library Library.History Source Source.Deliveries Library.Table
open Guarantees.DeliveryFencing

/-- The answer is a claim of the delivery. -/
def Answer.claims (ident : String) : Answer → Bool
  | .claimed row _ => decide (row.id = ident)
  | .done => false

/-- How often a run claims the delivery. -/
def claimCount (ident : String) (run : List Step) : Nat :=
  run.countP (fun e => Answer.claims ident e.answer)

def replays (ident : String) : Action → Bool
  | .replay _ other _ => decide (other = ident)
  | _ => false

/-- The delivery is being sent since before the given time, its budget spent. -/
def staleSpent (s : Outbox) (ident : String) (staleBefore : Instant) : Bool :=
  (s.deliveries.find ident).any (fun d => d.stale staleBefore && decide (maxAttempts ≤ d.attempts))

def attemptsOf (s : Outbox) (ident : String) : Nat :=
  match s.deliveries.find ident with
  | none => 0
  | some d => d.attempts

/-- The attempts that a `retry` has read are below the budget, and those stored are not. -/
def lateSpent (s : System) (number : Nat) (ident : String) : Bool :=
  decide (s.inFlight number = some ident ∧ maxAttempts ≤ attemptsOf s.outbox ident) &&
    (s.seen number).any (fun attempts => decide (attempts < maxAttempts))

/-- A step queues the delivery again with its budget spent. -/
def requeuesSpent (ident : String) (e : Step) : Bool :=
  match e.action with
  | .recover staleBefore _ => staleSpent e.before.outbox ident staleBefore
  | .retry number _ _ _ => lateSpent e.before number ident
  | _ => false

/-- The attempts stay within the budget, and a queued delivery has some left. -/
structure Within (s : Outbox) (ident : String) : Prop where
  spent : attemptsOf s ident ≤ maxAttempts
  left : ∀ d, s.deliveries.find ident = some d → d.status = .queued → d.attempts < maxAttempts

/-- The attempts and the budget of one delivery, across a step that does not claim it. -/
def Unclaimed (s t : Outbox) (ident : String) : Prop :=
  Within t ident ∧ attemptsOf t ident = attemptsOf s ident

variable {s t : Outbox} {ident : String}

theorem unclaimed_same (within : Within s ident)
    (same : t.deliveries.find ident = s.deliveries.find ident) : Unclaimed s t ident := by
  have attempts : attemptsOf t ident = attemptsOf s ident := by
    simp only [attemptsOf, same]
  refine ⟨?_, attempts⟩
  constructor
  · rw [attempts]
    exact within.spent
  · rw [same]
    exact within.left

/-- An update that counts no attempt and queues the delivery only within its budget. -/
theorem unclaimed_updated (within : Within s ident) {p : Delivery → Bool} {f : Delivery → Delivery}
    {keeps : ∀ d, (f d).id = d.id} (deliveries : t.deliveries = s.deliveries.update p f keeps)
    (uncounted : ∀ d, (f d).attempts = d.attempts)
    (queued : ∀ d, s.deliveries.find ident = some d → p d = true → (f d).status = .queued →
      d.attempts < maxAttempts) : Unclaimed s t ident := by
  cases found : s.deliveries.find ident with
  | none =>
    apply unclaimed_same within
    rw [deliveries, find_update, found]
    rfl
  | some row =>
    by_cases met : p row = true
    · have there : t.deliveries.find ident = some (f row) := by
        rw [deliveries, find_update, found, Option.map_some, if_pos met]
      have attempts : attemptsOf t ident = attemptsOf s ident := by
        simp only [attemptsOf, there, found, uncounted]
      refine ⟨?_, attempts⟩
      constructor
      · rw [attempts]
        exact within.spent
      · intro d also waits
        rw [there] at also
        cases also
        rw [uncounted]
        exact queued row found met waits
    · apply unclaimed_same within
      rw [deliveries, find_update, found, Option.map_some, if_neg met]

theorem unclaimed_queue (within : Within s ident) (other subscriptionId : String) (now : Instant) :
    Unclaimed s (queue other subscriptionId now s).2 ident := by
  simp only [queue, Txn.run_write]
  cases found : s.deliveries.find (newDelivery other subscriptionId now).id with
  | some row =>
    rw [insertOrIgnore_conflict found]
    exact unclaimed_same within rfl
  | none =>
    rw [insertOrIgnore_fresh found]
    by_cases here : (newDelivery other subscriptionId now).id = ident
    · subst here
      have before : attemptsOf s (newDelivery other subscriptionId now).id = 0 := by
        simp only [attemptsOf, found]
      rw [Unclaimed, before]
      constructor
      · constructor
        · simp [attemptsOf, find_insert, newDelivery]
        · intro d there _
          rw [find_insert, if_pos rfl] at there
          cases there
          exact (by decide : 0 < maxAttempts)
      · simp [attemptsOf, find_insert, newDelivery]
    · apply unclaimed_same within
      rw [find_insert, if_neg here]

theorem unclaimed_marked (within : Within s ident) (other : String) (status : Int) :
    Unclaimed s (markDelivered other status s).2 ident := by
  have deliveries : (markDelivered other status s).2.deliveries = s.deliveries.update
      (fun d => decide (d.id = other ∧ d.status = .sending)) (fun d => d.delivered status)
      (fun d => d.delivered_id status) := rfl
  apply unclaimed_updated within deliveries
  · exact fun d => rfl
  · intro d _ _ waits
    cases waits

theorem unclaimed_succeeded (within : Within s ident) (other : String) (status : Int)
    (now : Instant) : Unclaimed s (succeed other status now s).2 ident := by
  have marked := unclaimed_marked within other status
  exact ⟨⟨marked.1.spent, marked.1.left⟩, marked.2⟩

theorem unclaimed_retried (within : Within s ident) {other : String} {attempts : Nat}
    (fresh : other = ident → attempts < maxAttempts → attemptsOf s ident < maxAttempts)
    {error : String} {now : Instant}
    (deliveries : t.deliveries = (markRetried other attempts error maxAttempts now s).2.deliveries) :
    Unclaimed s t ident := by
  rw [markRetried_deliveries] at deliveries
  apply unclaimed_updated within deliveries
  · exact fun d => rfl
  · intro d there met waits
    have named : d.id = other := of_decide_eq_true met
    have same : other = ident := named.symm.trans (key_of_find there)
    simp only [Delivery.retried, retryStatus] at waits
    split at waits
    · cases waits
    next some_left =>
      have left := fresh same (by omega)
      simp only [attemptsOf, there] at left
      exact left

theorem unclaimed_recovered (within : Within s ident) {staleBefore : Instant}
    (meets : staleSpent s ident staleBefore = false) (now : Instant) :
    Unclaimed s (recoverStale staleBefore now s).2 ident := by
  have deliveries : (recoverStale staleBefore now s).2.deliveries =
      s.deliveries.update (fun d => d.stale staleBefore) (fun d => d.recovered now)
        (fun d => d.recovered_id now) := rfl
  apply unclaimed_updated within deliveries
  · exact fun d => rfl
  · intro d there met _
    simp only [staleSpent, there, Option.any_some, met, Bool.true_and, decide_eq_false_iff_not]
      at meets
    omega

theorem unclaimed_replayed (within : Within s ident) {principal other : String}
    (elsewhere : other ≠ ident) (now : Instant) :
    Unclaimed s (replayDelivery principal other now s).2 ident := by
  have deliveries : (replayDelivery principal other now s).2.deliveries =
      s.deliveries.update (replayable s principal other) (fun d => d.replayed now)
        (fun d => d.replayed_id now) := rfl
  apply unclaimed_updated within deliveries
  · exact fun d => rfl
  · intro d there met _
    simp only [replayable, Bool.and_eq_true, decide_eq_true_eq] at met
    exact absurd (met.1.1.symm.trans (key_of_find there)) elsewhere

/-- A claim of the delivery takes an attempt that was left; a claim of another takes none. -/
theorem within_claimed (within : Within s ident) {skipped : List String} {now startedAt : Instant}
    {row : Delivery} (run : claim skipped now startedAt s = (.ok (some row), t)) :
    Within t ident ∧ attemptsOf t ident = attemptsOf s ident + if row.id = ident then 1 else 0 := by
  obtain ⟨found, queued, deliveries, -⟩ := claim_some run
  by_cases here : row.id = ident
  · subst here
    have left := within.left row found queued
    have there : t.deliveries.find row.id = some (row.claimed now) := by
      rw [deliveries, find_update_key, if_pos rfl, found]
      rfl
    have before : attemptsOf s row.id = row.attempts := by
      simp only [attemptsOf, found]
    have after : attemptsOf t row.id = row.attempts + 1 := by
      simp only [attemptsOf, there, Delivery.claimed]
    rw [if_pos rfl, before, after]
    refine ⟨?_, rfl⟩
    constructor
    · omega
    · intro d also waits
      rw [there] at also
      cases also
      cases waits
  · rw [if_neg here]
    apply unclaimed_same within
    rw [deliveries, find_update_key, if_neg (fun same => here same.symm)]

/-- A step keeps the budget and counts the claim that it makes. -/
def Counted (s : Outbox) (ident : String) (result : Answer × System) : Prop :=
  Within result.2.outbox ident ∧
    attemptsOf result.2.outbox ident =
      attemptsOf s ident + if Answer.claims ident result.1 then 1 else 0

theorem counted_done {t : System} (unclaimed : Unclaimed s t.outbox ident) :
    Counted s ident (.done, t) := unclaimed

theorem step_counts (backend : Backend) {s : System} (within : Within s.outbox ident)
    {action : Action} (unreplayed : replays ident action = false) {answer : Answer} {t : System}
    (meets : requeuesSpent ident ⟨s, action, answer, t⟩ = false) :
    Counted s.outbox ident (step backend s action) := by
  have same : Unclaimed s.outbox s.outbox ident := unclaimed_same within rfl
  cases action with
  | queue other subscriptionId now =>
    exact counted_done (unclaimed_queue within other subscriptionId now)
  | claim skipped now startedAt =>
    rw [step]
    split
    next row t run =>
      have counted := within_claimed within run
      simp only [Counted, Answer.claims, decide_eq_true_eq]
      exact counted
    next => exact counted_done same
  | succeed number status now =>
    rw [step]
    cases there : s.inFlight number with
    | none => exact counted_done same
    | some other =>
      have marked := unclaimed_marked within other status
      have succeeded := unclaimed_succeeded within other status now
      cases sent : isSending s.outbox other with
      | true =>
        simp only [sent, if_true]
        cases backend with
        | sqlite => exact counted_done marked
        | postgres => exact counted_done succeeded
      | false =>
        simp only [sent, Bool.false_eq_true, if_false]
        exact counted_done marked
  | close number now =>
    rw [step]
    cases there : s.between number with
    | none => exact counted_done same
    | some pair =>
      obtain ⟨other, report⟩ := pair
      apply counted_done
      apply unclaimed_same within
      rw [(closeReport_run other now report s.outbox).1]
  | look number =>
    cases backend with
    | sqlite => exact counted_done (unclaimed_same within rfl)
    | postgres => exact counted_done same
  | retry number error now finished =>
    rw [step]
    cases there : s.inFlight number with
    | none => exact counted_done same
    | some other =>
      cases backend with
      | postgres =>
        cases found : s.outbox.deliveries.find other with
        | none =>
          simp only [retry_absent found]
          exact counted_done (unclaimed_same within rfl)
        | some row =>
          simp only [retry_found found]
          refine unclaimed_retried within ?_
            (retryFrom_run other row.attempts error maxAttempts now finished s.outbox).1
          rintro rfl left
          simp only [attemptsOf, found]
          exact left
      | sqlite =>
        cases read : s.seen number with
        | none => exact counted_done same
        | some attempts =>
          refine unclaimed_retried within ?_ rfl
          rintro rfl left
          simp only [requeuesSpent, lateSpent, there, read, Option.any_some, decide_eq_true left,
            Bool.and_true, true_and, decide_eq_false_iff_not] at meets
          omega
  | recover staleBefore now => exact counted_done (unclaimed_recovered within meets now)
  | replay principal other now =>
    have elsewhere : other ≠ ident := of_decide_eq_false unreplayed
    exact counted_done (unclaimed_replayed within elsewhere now)
  | resubscribe subscriptions => exact counted_done (unclaimed_same within rfl)

theorem run_counts (backend : Backend) (actions : List Action) (s : System)
    (within : Within s.outbox ident) (unreplayed : ∀ action ∈ actions, replays ident action = false)
    (meets : ∀ e ∈ history (step backend) s actions, requeuesSpent ident e = false) :
    attemptsOf s.outbox ident + claimCount ident (history (step backend) s actions) ≤
      maxAttempts := by
  induction actions generalizing s with
  | nil => exact within.spent
  | cons action rest ih =>
    obtain ⟨kept, counted⟩ := step_counts backend within (unreplayed action List.mem_cons_self)
      (meets _ List.mem_cons_self)
    have later := ih (step backend s action).2 kept
      (fun other mem => unreplayed other (List.mem_cons_of_mem _ mem))
      (fun e mem => meets e (List.mem_cons_of_mem _ mem))
    have total : claimCount ident (history (step backend) s (action :: rest)) =
        claimCount ident (history (step backend) (step backend s action).2 rest) +
          if Answer.claims ident (step backend s action).1 then 1 else 0 := List.countP_cons
    omega

/-- A delivery that is not replayed and is never found stale with its budget spent is claimed
at most `maxAttempts` times. -/
theorem claims_bounded (backend : Backend) (subscriptions : Table Subscription.id)
    (actions : List Action) (ident : String)
    (unreplayed : ∀ action ∈ actions, replays ident action = false)
    (meets : ∀ e ∈ history (step backend) (start subscriptions) actions,
      requeuesSpent ident e = false) :
    claimCount ident (history (step backend) (start subscriptions) actions) ≤ maxAttempts := by
  have within : Within (start subscriptions).outbox ident := by
    constructor
    · exact Nat.zero_le _
    · intro d there
      cases there
  have bound := run_counts backend actions (start subscriptions) within unreplayed meets
  exact Nat.le_trans (Nat.le_add_left _ _) bound

/-- A failed send and a crash. -/
def failAndCrash : List Action :=
  [.queue "d" "hook" 0, .claim [] 0 0, .look 1, .retry 1 "timeout" 1 1, .claim [] 2000000 2000000,
    .recover 2600000 2600000, .claim [] 2600000 2600000]

theorem fail_and_crash_bounded :
    ((∀ action ∈ failAndCrash, replays "d" action = false) ∧
      ∀ e ∈ history (step .sqlite) (start oneSubscription) failAndCrash,
        requeuesSpent "d" e = false) ∧
    claimCount "d" (history (step .sqlite) (start oneSubscription) failAndCrash) ≤ maxAttempts := by
  have unreplayed : ∀ action ∈ failAndCrash, replays "d" action = false := by decide +kernel
  have meets : ∀ e ∈ history (step .sqlite) (start oneSubscription) failAndCrash,
      requeuesSpent "d" e = false := by decide +kernel
  exact ⟨⟨unreplayed, meets⟩, claims_bounded .sqlite oneSubscription failAndCrash "d" unreplayed meets⟩

/-- Every dispatcher that claims the delivery crashes. -/
def crash (n : Nat) : List Action :=
  [.claim [] (600 * (n : Int)) (600 * (n : Int)),
    .recover (600 * (n : Int) + 600) (600 * (n : Int) + 600)]

def nineCrashes : List Action := .queue "d" "hook" 0 :: (List.range 9).flatMap crash

theorem nine_crashes_claimed :
    ((∀ action ∈ nineCrashes, replays "d" action = false) ∧
      claimCount "d" (history (step .sqlite) (start oneSubscription) nineCrashes) = 9) ∧
    claimCount "d" (history (step .postgres) (start oneSubscription) nineCrashes) = 9 := by
  decide +kernel

end Meemee.Guarantees.DeliveryBudget
