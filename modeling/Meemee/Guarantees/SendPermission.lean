import Meemee.Guarantees.CheckinDelivery
import Meemee.Guarantees.CheckinFencing

/-!
# Permission to send a check-in

`start_checkin_delivery` reads its permission at the instant `clock 1`, after the row, the profile and
the grants. A claim that is still owned then and has not used its send intent is either permitted, and
its delivery starts, or cancelled, and no later call sends for the check-in again.
-/
namespace Meemee.Guarantees.SendPermission
open Library Library.History Source Source.Checkins Library.Txn Option
open Guarantees.CheckinRows Guarantees.CheckinDelivery

/-- The moment is in the window that opens at `start` and closes at `stop`, over midnight if
the window does. A window that closes when it opens is never closed. -/
def InWindow (start stop moment : Nat) : Prop :=
  start = stop ∨ (start < stop ∧ start ≤ moment ∧ moment < stop) ∨
    (stop < start ∧ (start ≤ moment ∨ moment < stop))

/-- The user's check-ins are on for this address, and no quiet window is open. -/
structure Welcome (wallClock : String → Instant → Nat) (profile : UserProfile) (row : CheckinRow)
    (instant : Instant) : Prop where
  enabled : profile.checkins.enabled = true
  channel : profile.checkins.channel = row.channel
  address : profile.checkins.address = row.address
  loud : ∀ quiet, profile.checkins.quietHours = some quiet →
    ¬ InWindow (hhmm quiet.start) (hhmm quiet.stop) (wallClock profile.timezone instant)

/-- A stored grant of this owner for this destination covers the instant. -/
def Granted (s : CompanionStore) (owner : String) (destination : Option String)
    (instant : Instant) : Prop :=
  ∃ grant ∈ s.destinationGrants, grant.ownerId = owner ∧ some grant.destination = destination ∧
    grant.revokedAt = none ∧ grant.issuedAt ≤ instant ∧ instant < grant.expiresAt

/-- The row's user may be sent to at the instant, over the row's channel. -/
structure Permitted (wallClock : String → Instant → Nat) (s : CompanionStore) (row : CheckinRow)
    (instant : Instant) : Prop where
  welcome : ∃ profile, s.users.find row.userId = some profile ∧
    Welcome wallClock profile row instant
  reachable : row.channel = "local" ∨
    row.channel = "webhook" ∧ Granted s row.userId row.address instant

/-- The claim has not used its send intent, and still owns the row at the instant. -/
structure Ready (row : CheckinRow) (instant : Instant) : Prop where
  unsent : row.deliveryState = .notStarted
  within : WithinLease row instant

theorem inQuietHours_iff {moment : Nat} {quiet : QuietHours} :
    inQuietHours moment quiet = true ↔ InWindow (hhmm quiet.start) (hhmm quiet.stop) moment := by
  unfold inQuietHours InWindow
  simp only
  split
  next same => simp [same]
  next different =>
    split
    next ordered =>
      simp only [decide_eq_true_eq]
      omega
    next =>
      simp only [decide_eq_true_eq]
      omega

section Reading

variable {wallClock : String → Instant → Nat} {s t : CompanionStore} {row : CheckinRow}
  {instant : Instant}

theorem silenced_eq_false_iff {profile : UserProfile} :
    silenced wallClock profile instant = false ↔ ∀ quiet, profile.checkins.quietHours = some quiet →
      ¬ InWindow (hhmm quiet.start) (hhmm quiet.stop) (wallClock profile.timezone instant) := by
  unfold silenced
  cases window : profile.checkins.quietHours with
  | none => simp
  | some quiet =>
    rw [any_some, ← Bool.not_eq_true, inQuietHours_iff]
    constructor
    · intro outside other same
      obtain rfl := Option.some.inj same
      exact outside
    · intro outside
      exact outside quiet rfl

theorem permissionCurrent_iff {profile : Option UserProfile} :
    permissionCurrent wallClock profile row instant = true ↔
      ∃ p, profile = some p ∧ Welcome wallClock p row instant := by
  cases profile with
  | none => simp [permissionCurrent]
  | some p =>
    simp only [permissionCurrent, any_some, Bool.and_eq_true, decide_eq_true_eq,
      Bool.not_eq_true', silenced_eq_false_iff, Option.some.injEq, exists_eq_left']
    constructor
    · rintro ⟨⟨⟨enabled, channel⟩, address⟩, loud⟩
      exact ⟨enabled, channel, address, loud⟩
    · rintro ⟨enabled, channel, address, loud⟩
      exact ⟨⟨⟨enabled, channel⟩, address⟩, loud⟩

theorem grantsValid_iff {owner channel : String} {destination : Option String} :
    destinationGrantsValid channel (destinationGrantsLocked owner channel destination s) instant =
        true ↔
      channel = "local" ∨ channel = "webhook" ∧ Granted s owner destination instant := by
  unfold destinationGrantsValid destinationGrantsLocked
  by_cases here : channel = "local"
  · simp [here]
  · by_cases web : channel = "webhook"
    · have covered : (s.destinationGrants.select (fun g => decide (g.ownerId = owner ∧
          some g.destination = destination))).any (fun g => g.revokedAt.isNone &&
            decide (g.issuedAt ≤ instant ∧ instant < g.expiresAt)) = true ↔
          Granted s owner destination instant := by
        simp only [List.any_eq_true, Table.select, List.mem_filter, Bool.and_eq_true,
          decide_eq_true_eq, isNone_iff_eq_none, Granted, Table.mem_rows]
        constructor
        · rintro ⟨grant, ⟨stored, owned, same⟩, live, timely⟩
          exact ⟨grant, stored, owned, same, live, timely⟩
        · rintro ⟨grant, stored, owned, same, live, timely⟩
          exact ⟨grant, ⟨stored, owned, same⟩, live, timely⟩
      rw [if_neg here, if_neg (not_not_intro web), if_neg (not_not_intro web), covered]
      simp [web]
    · simp [here, web]

theorem allowed_iff :
    (permissionCurrent wallClock (s.users.find row.userId) row instant &&
        destinationGrantsValid row.channel
          (destinationGrantsLocked row.userId row.channel row.address s) instant) = true ↔
      Permitted wallClock s row instant := by
  rw [Bool.and_eq_true, permissionCurrent_iff, grantsValid_iff]
  exact ⟨fun ⟨welcome, reachable⟩ => ⟨welcome, reachable⟩,
    fun ⟨welcome, reachable⟩ => ⟨welcome, reachable⟩⟩

theorem validateClaimTime_within (within : WithinLease row instant) :
    validateClaimTime row instant s = (.ok instant, s) := by
  obtain ⟨claimed, expiry, since, until_, inside⟩ := within
  simp only [validateClaimTime, since, until_, run_ite, if_pos inside, run_pure]

theorem validateClaimTime_outside (outside : ¬ WithinLease row instant) :
    ∃ text, validateClaimTime row instant s = (.error (.lostCheckinClaim text), s) := by
  unfold validateClaimTime
  cases lease : row.leaseUntil with
  | none => exact ⟨_, rfl⟩
  | some expiry =>
    cases since : row.claimedAt with
    | none => exact ⟨_, rfl⟩
    | some claimed =>
      simp only [run_ite]
      split
      next inside => exact absurd ⟨claimed, expiry, since, lease, inside⟩ outside
      next => exact ⟨_, rfl⟩

theorem ownedClaim_of_holds {claim : Claim} (found : s.checkins.find row.id = some row)
    (held : Holds claim row) (within : WithinLease row instant) :
    ownedClaim claim instant s = (.ok row, s) := by
  obtain ⟨running, token, carried, bound⟩ := held
  have alone : s.checkins.select (fun r => decide (some r.id = some row.id ∧
      some r.userId = some row.userId ∧ r.claimToken = some token ∧
      r.claimGeneration = row.claimGeneration ∧ r.status = .running)) = [row] := by
    have keyed := s.checkins.select_keyed row.id (fun r => decide (some r.userId = some row.userId ∧
      r.claimToken = some token ∧ r.claimGeneration = row.claimGeneration ∧ r.status = .running))
    simp only [found, filter_some, carried, running, and_self, decide_true, if_true,
      toList_some] at keyed
    rw [← keyed]
    congr 1
    simp [Bool.decide_and]
  unfold ownedClaim
  rw [bound]
  simp only [selectCheckins]
  rw [run_bind_ok (run_ofExcept _ _)]
  simp only [run_bind_read, alone, List.head?_cons]
  rw [run_bind_ok (validateClaimTime_within within), run_pure]

end Reading

section Call

variable {wallClock : String → Instant → Nat} {s : CompanionStore} {claim : Claim} {clock : Clock}
  {row : CheckinRow}

/-- The store with one check-in row changed. -/
def withRow (s : CompanionStore) (id : String) (f : CheckinRow → CheckinRow)
    (keeps : ∀ r, (f r).id = r.id) : CompanionStore :=
  { s with checkins := s.checkins.update (fun r => decide (r.id = id)) f keeps }

theorem startDelivery_ready (found : s.checkins.find row.id = some row) (held : Holds claim row)
    (live : WithinLease row (clock 0)) (ready : Ready row (clock 1)) :
    startCheckinDelivery wallClock claim clock s =
      if permissionCurrent wallClock (s.users.find row.userId) row (clock 1) &&
          destinationGrantsValid row.channel
            (destinationGrantsLocked row.userId row.channel row.address s) (clock 1) then
        (.ok true, withRow s row.id (fun r => { r with
          deliveryState := .started, updatedAt := clock 1 }) (fun _ => rfl))
      else
        (.ok false, withRow s row.id (fun r => { r with
          status := .cancelled, updatedAt := clock 1 }) (fun _ => rfl)) := by
  unfold startCheckinDelivery Txn.atomically
  rw [run_bind_ok (ownedClaim_of_holds found held live), run_require_bind,
    if_pos (decide_eq_true ready.unsent)]
  simp only [run_bind_read]
  rw [run_bind_ok (validateClaimTime_within ready.within)]
  cases permissionCurrent wallClock (s.users.find row.userId) row (clock 1) &&
      destinationGrantsValid row.channel
        (destinationGrantsLocked row.userId row.channel row.address s) (clock 1) <;> rfl

/-- A used intent, or a lease that ran out while the locks were taken, is refused. -/
theorem startDelivery_unready (found : s.checkins.find row.id = some row)
    (held : Holds claim row) (live : WithinLease row (clock 0)) (unready : ¬ Ready row (clock 1)) :
    ∃ text, startCheckinDelivery wallClock claim clock s = (.error (.lostCheckinClaim text), s) := by
  unfold startCheckinDelivery Txn.atomically
  rw [run_bind_ok (ownedClaim_of_holds found held live), run_require_bind]
  by_cases unsent : row.deliveryState = .notStarted
  · have outside : ¬ WithinLease row (clock 1) := fun within => unready ⟨unsent, within⟩
    obtain ⟨text, late⟩ := validateClaimTime_outside (s := s) outside
    rw [if_pos (decide_eq_true unsent)]
    simp only [run_bind_read]
    rw [run_bind_error late]
    exact ⟨text, rfl⟩
  · rw [if_neg (by simpa using unsent)]
    exact ⟨_, rfl⟩

end Call

/-- The call is told to call the provider, or stores the message for the user. -/
def Sends (id : String) (e : Event CompanionStore Action (Except Exc Value)) : Prop :=
  (∃ generation, StartedDelivery id generation e) ∨
    ∃ conversationId message claim clock,
      e.action = .finishLocal id conversationId message claim clock ∧ e.answer = .ok (.told true)

variable {scrubText : String → String} {wallClock : String → Instant → Nat}

theorem sends_running {id : String} {s : CompanionStore} {run : List Action}
    {e : Event CompanionStore Action (Except Exc Value)}
    (mem : e ∈ history (step scrubText wallClock) s run) (sends : Sends id e) :
    ∃ row, e.before.checkins.find id = some row ∧ row.status = .running := by
  rcases sends with ⟨generation, started⟩ | ⟨conversationId, message, claim, clock, acted, told⟩
  · obtain ⟨⟨row, found, running, -⟩, -⟩ := started_event mem started
    exact ⟨row, found, running⟩
  · have here := step_of_mem mem
    rw [acted, told] at here
    obtain ⟨answer, done, wrapped⟩ := call_ok here
    cases wrapped
    obtain ⟨row, after, rfl, -, one⟩ := finishLocalCheckin_returned done
    have moves := one.moves
    cases moves with
    | localDone _ _ running => exact ⟨row, one.found, running⟩

theorem cancelled_stays {id : String} {row : CheckinRow} (cancelled : row.status = .cancelled)
    (s : CompanionStore) (action : Action) (stored : s.checkins.find id = some row) :
    (step scrubText wallClock s action).2.checkins.find id = some row :=
  CheckinFencing.step_settledStays s action id row stored (.inr (.inr cancelled))

theorem cancelled_silent {id : String} {row : CheckinRow} {s : CompanionStore}
    (stored : s.checkins.find id = some row) (cancelled : row.status = .cancelled)
    (later : List Action) : ∀ e ∈ history (step scrubText wallClock) s later, ¬ Sends id e := by
  intro e mem sends
  have still := ((invariant (cancelled_stays cancelled) stored later).1 e mem).1
  obtain ⟨other, found, running⟩ := sends_running mem sends
  obtain rfl := Option.some.inj (still.symm.trans found)
  rw [cancelled] at running
  cases running

/-- A claim that owns a stored row at the first reading. If it is not ready at the instant of
the permission, the call is refused and changes nothing. If it is ready and permitted, the
delivery starts. If it is ready and not permitted, the check-in is cancelled, and no call of
any later run sends for it. -/
theorem delivery_needs_permission (scrubText : String → String) (wallClock : String → Instant → Nat)
    (s : CompanionStore) (claim : Claim) (clock : Clock) (row : CheckinRow)
    (found : s.checkins.find row.id = some row) (held : Holds claim row)
    (live : WithinLease row (clock 0)) :
    (¬ Ready row (clock 1) → ∃ text,
      startCheckinDelivery wallClock claim clock s = (.error (.lostCheckinClaim text), s)) ∧
    (Ready row (clock 1) → Permitted wallClock s row (clock 1) →
      startCheckinDelivery wallClock claim clock s =
        (.ok true, withRow s row.id (fun r => { r with
          deliveryState := .started, updatedAt := clock 1 }) (fun _ => rfl))) ∧
    (Ready row (clock 1) → ¬ Permitted wallClock s row (clock 1) → ∃ t,
      startCheckinDelivery wallClock claim clock s = (.ok false, t) ∧
      t = withRow s row.id (fun r => { r with
        status := .cancelled, updatedAt := clock 1 }) (fun _ => rfl) ∧
      ∀ (later : List Action), ∀ e ∈ history (step scrubText wallClock) t later,
        ¬ Sends row.id e) := by
  refine ⟨fun unready => startDelivery_unready found held live unready, ?_, ?_⟩
  · intro ready permitted
    rw [startDelivery_ready found held live ready, if_pos (allowed_iff.mpr permitted)]
  · intro ready unpermitted
    rw [startDelivery_ready found held live ready, if_neg (fun allowed =>
      unpermitted (allowed_iff.mp allowed))]
    refine ⟨_, rfl, rfl, ?_⟩
    intro later
    have stored : (withRow s row.id (fun r => { r with
        status := .cancelled, updatedAt := clock 1 }) (fun _ => rfl)).checkins.find row.id =
        some { row with status := .cancelled, updatedAt := clock 1 } := by
      rw [withRow, Table.find_update_key, if_pos rfl, found, map_some]
    exact cancelled_silent stored rfl later

/-- A check-in that ada's first claim has leased, over the local channel. -/
def leasedStore : CompanionStore :=
  final (step id (fun _ _ => 0)) CompanionStore.empty (redelivery.take 3)

def leasedRow : CheckinRow :=
  { id := "c1", userId := "ada", slot := "slot", dueAt := 0, status := .running, attempts := 1,
    maxAttempts := 3, channel := "local", address := none, message := none, lastError := none,
    createdAt := 0, updatedAt := 10, claimToken := some "first", claimGeneration := 1,
    claimedAt := some 10, leaseUntil := some 300000010, deliveryState := .notStarted }

theorem leased_needs_permission :
    leasedStore.checkins.find "c1" = some leasedRow ∧
    Holds (sampleClaim "first" 1) leasedRow ∧ WithinLease leasedRow 20 ∧
    (Ready leasedRow 20 → Permitted (fun _ _ => 0) leasedStore leasedRow 20 →
      startCheckinDelivery (fun _ _ => 0) (sampleClaim "first" 1) (fun _ => 20) leasedStore =
        (.ok true, withRow leasedStore "c1" (fun r => { r with
          deliveryState := .started, updatedAt := 20 }) (fun _ => rfl))) := by
  have found : leasedStore.checkins.find leasedRow.id = some leasedRow := by decide +kernel
  have held : Holds (sampleClaim "first" 1) leasedRow := ⟨rfl, "first", rfl, rfl⟩
  have live : WithinLease leasedRow 20 := ⟨10, 300000010, rfl, rfl, by decide, by decide⟩
  exact ⟨found, held, live, (delivery_needs_permission id (fun _ _ => 0) leasedStore
    (sampleClaim "first" 1) (fun _ => 20) leasedRow found held live).2.1⟩

/-- Check-ins are turned off after the start, and the same claim starts again. -/
def usedStore : CompanionStore :=
  { (step id (fun _ _ => 0) leasedStore (.startDelivery (sampleClaim "first" 1) (fun _ => 20))).2 with
    users := ⟨[{ sampleProfile with checkins := ⟨false, none, "local", none⟩ }], by simp⟩ }

def usedRow : CheckinRow := { leasedRow with deliveryState := .started, updatedAt := 20 }

theorem used_intent_not_cancelled :
    usedStore.checkins.find "c1" = some usedRow ∧ Holds (sampleClaim "first" 1) usedRow ∧
      WithinLease usedRow 30 ∧ ¬ Permitted (fun _ _ => 0) usedStore usedRow 30 ∧
      startCheckinDelivery (fun _ _ => 0) (sampleClaim "first" 1) (fun _ => 30) usedStore =
        (.error (.lostCheckinClaim "check-in send intent already used"), usedStore) := by
  refine ⟨by decide +kernel, ⟨rfl, "first", rfl, rfl⟩,
    ⟨10, 300000010, rfl, rfl, by decide, by decide⟩, ?_, rfl⟩
  rintro ⟨⟨profile, found, welcome⟩, -⟩
  have stored : usedStore.users.find "ada" =
      some { sampleProfile with checkins := ⟨false, none, "local", none⟩ } := rfl
  obtain rfl := Option.some.inj (found.symm.trans stored)
  exact absurd welcome.enabled (by decide)

end Meemee.Guarantees.SendPermission
