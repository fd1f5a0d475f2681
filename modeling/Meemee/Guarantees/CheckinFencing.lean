import Meemee.Guarantees.CheckinRows

/-!
# Fencing and lifecycle of check-in claims

Seven operations take a claim, look the row up by the claim's id, owner, token and generation, and
compare the clock with the row's lease twice; a claim that is not held writes nothing. The generation
of a row counts its fenced claims, the attempts stay within the budget, a settled row never changes.
-/
namespace Meemee.Guarantees.CheckinFencing
open Library Library.History Source Source.Checkins
open Guarantees.CheckinRows

/-- The claim an operation presents, with the clock readings of its guard. -/
def presents : Action → Option (Claim × List Instant)
  | .renew claim clock _ | .startDelivery claim clock | .finishClaim claim _ clock
  | .failClaim claim _ clock _ | .unknownClaim claim _ clock | .cancelClaim claim clock =>
    some (claim, [clock 0, clock 1])
  | .finishLocal _ _ _ (some claim) clock => some (claim, [clock 1, clock 2])
  | _ => none

/-- A claim that no stored running row carries in time is refused, and no table changes. -/
def Fenced (e : Event CompanionStore Action (Except Exc Value)) : Prop :=
  ∀ claim readings, presents e.action = some (claim, readings) →
    (¬ ∃ row, Guarded e.before claim readings row) →
      (∃ refusal, e.answer = .error refusal) ∧ e.after = e.before

/-- The call claimed the row that is now `row`. -/
def FencedClaimOf (e : Event CompanionStore Action (Except Exc Value)) (row : CheckinRow) : Prop :=
  (∃ clock leaseSeconds token, e.action = .claimFenced clock leaseSeconds token) ∧
    e.answer = .ok (.claimed (some row))

/-- A stored row stays; its generation is raised by one by a fenced claim and nothing else. -/
def GenerationCounts (e : Event CompanionStore Action (Except Exc Value)) : Prop :=
  ∀ id row, e.before.checkins.find id = some row → ∃ after, e.after.checkins.find id = some after ∧
    (FencedClaimOf e after → after.claimGeneration = row.claimGeneration + 1) ∧
    (¬ FencedClaimOf e after → after.claimGeneration = row.claimGeneration)

/-- A row that is done, failed or cancelled is not changed. -/
def SettledStays (e : Event CompanionStore Action (Except Exc Value)) : Prop :=
  ∀ id row, e.before.checkins.find id = some row →
    (row.status = .done ∨ row.status = .failed ∨ row.status = .cancelled) →
      e.after.checkins.find id = some row

def WithinBudget (s : CompanionStore) : Prop :=
  ∀ id row, s.checkins.find id = some row → row.attempts ≤ row.maxAttempts

variable {row after : CheckinRow} {label : Label}

theorem rowStep_live (moves : RowStep row label after) :
    row.status = .queued ∨ row.status = .running := by
  cases moves with
  | exhausted clock queued | fencedClaim token instant leaseSeconds queued
  | legacyClaim updatedAt queued => exact .inl queued
  | stopped updatedAt live => exact live
  | recovered clock running | renewed until_ updatedAt running | sendStarted updatedAt running
  | finished message updatedAt running | localDone message updatedAt running
  | failed proven lastError updatedAt running | abandoned lastError updatedAt running
  | unleased status message lastError updatedAt running => exact .inr running

theorem rowStep_generation (moves : RowStep row label after) :
    after.claimGeneration =
      if label = .fencedClaim then row.claimGeneration + 1 else row.claimGeneration := by
  cases moves <;> rfl

theorem rowStep_attempts (moves : RowStep row label after)
    (before : row.attempts ≤ row.maxAttempts) : after.attempts ≤ after.maxAttempts := by
  cases moves with
  | fencedClaim token instant leaseSeconds _ left =>
    simp only [CheckinRow.leased]
    omega
  | legacyClaim updatedAt _ _ left =>
    simp only
    omega
  | _ => exact before

variable {scrubText : String → String} {wallClock : String → Instant → Nat}

theorem step_guarded {s t : CompanionStore} {action : Action} {value : Value} {claim : Claim}
    {readings : List Instant} (presented : presents action = some (claim, readings))
    (run : step scrubText wallClock s action = (.ok value, t)) :
    ∃ row, Guarded s claim readings row := by
  cases action with
  | renew claim' clock leaseSeconds =>
    cases presented
    obtain ⟨told, done, -⟩ := call_ok run
    obtain ⟨row, after, guard, -⟩ := renewCheckinClaim_returned done
    exact ⟨row, guard⟩
  | startDelivery claim' clock =>
    cases presented
    obtain ⟨told, done, -⟩ := call_ok run
    obtain ⟨row, after, guard, -⟩ := startCheckinDelivery_returned done
    exact ⟨row, guard⟩
  | finishClaim claim' message clock =>
    cases presented
    obtain ⟨_, done, -⟩ := call_ok run
    obtain ⟨row, after, guard, -⟩ := finishCheckinClaim_returned done
    exact ⟨row, guard⟩
  | failClaim claim' error clock proven =>
    cases presented
    obtain ⟨status, done, -⟩ := call_ok run
    obtain ⟨row, after, guard, -⟩ := failCheckinClaim_returned done
    exact ⟨row, guard⟩
  | unknownClaim claim' error clock =>
    cases presented
    obtain ⟨told, done, -⟩ := call_ok run
    obtain ⟨row, after, guard, -⟩ := unknownCheckinClaim_returned done
    exact ⟨row, guard⟩
  | cancelClaim claim' clock =>
    cases presented
    obtain ⟨told, done, -⟩ := call_ok run
    obtain ⟨row, after, guard, -⟩ := cancelCheckinClaim_returned done
    exact ⟨row, guard⟩
  | finishLocal checkinId conversationId message claim' clock =>
    cases claim' with
    | none => cases presented
    | some claim' =>
      cases presented
      obtain ⟨told, done, -⟩ := call_ok run
      obtain ⟨row, after, -, guard, -⟩ := finishLocalCheckin_returned done
      exact ⟨row, guard _ rfl⟩
  | _ => cases presented

theorem step_fenced (s : CompanionStore) (action : Action) :
    Fenced ⟨s, action, (step scrubText wallClock s action).1,
      (step scrubText wallClock s action).2⟩ := by
  intro claim readings presented unguarded
  cases run : step scrubText wallClock s action with
  | mk answer t =>
    cases answer with
    | error e => exact ⟨⟨e, rfl⟩, step_raised run⟩
    | ok value => exact absurd (step_guarded presented run) unguarded

theorem step_generationCounts (s : CompanionStore) (action : Action) :
    GenerationCounts ⟨s, action, (step scrubText wallClock s action).1,
      (step scrubText wallClock s action).2⟩ := by
  intro id row found
  cases run : step scrubText wallClock s action with
  | mk answer t =>
    cases answer with
    | error e =>
      obtain rfl := step_raised run
      exact ⟨row, found, fun claimed => absurd claimed.2 (by simp), fun _ => rfl⟩
    | ok value =>
      obtain ⟨after, stored, moved⟩ := (step_moves run).rows id row found
      refine ⟨after, stored, ?_, ?_⟩
      · rintro ⟨⟨clock, leaseSeconds, token, rfl⟩, told⟩
        obtain ⟨result, done, rfl⟩ := call_ok run
        cases told
        obtain ⟨first, firstFound, -, moves⟩ := (claimCheckinFenced_returned done).2 after rfl
        rw [Table.key_of_find stored, found] at firstFound
        obtain rfl := Option.some.inj firstFound
        exact rowStep_generation moves
      · intro unclaimed
        rcases moved with rfl | ⟨label, moves, told⟩
        · rfl
        · rw [rowStep_generation moves, if_neg]
          rintro rfl
          exact unclaimed told

theorem step_settledStays (s : CompanionStore) (action : Action) :
    SettledStays ⟨s, action, (step scrubText wallClock s action).1,
      (step scrubText wallClock s action).2⟩ := by
  intro id row found settled
  cases run : step scrubText wallClock s action with
  | mk answer t =>
    cases answer with
    | error e =>
      obtain rfl := step_raised run
      exact found
    | ok value =>
      obtain ⟨after, stored, rfl | ⟨label, moves, -⟩⟩ := (step_moves run).rows id row found
      · exact stored
      · rcases rowStep_live moves with live | live <;> rw [live] at settled <;> simp at settled

theorem step_withinBudget (s : CompanionStore) (action : Action) (before : WithinBudget s) :
    WithinBudget (step scrubText wallClock s action).2 := by
  cases run : step scrubText wallClock s action with
  | mk answer t =>
    cases answer with
    | error e =>
      obtain rfl := step_raised run
      exact before
    | ok value =>
      intro id after stored
      cases found : s.checkins.find id with
      | none =>
        obtain ⟨none, positive⟩ := (step_moves run).fresh id after found stored
        omega
      | some row =>
        obtain ⟨other, there, moved⟩ := (step_moves run).rows id row found
        obtain rfl := Option.some.inj (stored.symm.trans there)
        rcases moved with rfl | ⟨label, moves, -⟩
        · exact before id after found
        · exact rowStep_attempts moves (before id row found)

/-- In every run over a store within its budget: every presented claim is fenced, the
generations count the fenced claims, the attempts stay within the budget and settled
rows never change. -/
theorem checkins_fenced (scrubText : String → String) (wallClock : String → Instant → Nat)
    (s : CompanionStore) (budget : WithinBudget s) (run : List Action) :
    ∀ e ∈ history (step scrubText wallClock) s run,
      Fenced e ∧ GenerationCounts e ∧ WithinBudget e.after ∧ SettledStays e := by
  intro e member
  have here := step_of_mem member
  have shape : e = ⟨e.before, e.action, (step scrubText wallClock e.before e.action).1,
      (step scrubText wallClock e.before e.action).2⟩ := by rw [here]
  refine ⟨?_, ?_, ((invariant step_withinBudget budget run).1 e member).2, ?_⟩
  · rw [shape]
    exact step_fenced _ _
  · rw [shape]
    exact step_generationCounts _ _
  · rw [shape]
    exact step_settledStays _ _

/-- A claim is renewed after its lease has run out: the renewal is refused. -/
def lateRenewal : List Action :=
  [.schedule "ada" 0 "slot" "local" none 3 false "c1" 0,
   .claimFenced (fun _ => 10) 300 "first",
   .renew (.dict (some (.str "c1")) (some (.str "ada")) (some (.str "first")) (some (.int 1)))
     (fun _ => 10 + seconds 300) 300]

def refusedRenewal : Event CompanionStore Action (Except Exc Value) :=
  (history (step id (fun _ _ => 0)) CompanionStore.empty lateRenewal).getLast (List.cons_ne_nil _ _)

theorem lateRenewal_fenced :
    Fenced refusedRenewal ∧ GenerationCounts refusedRenewal ∧ WithinBudget refusedRenewal.after ∧
      SettledStays refusedRenewal :=
  checkins_fenced id (fun _ _ => 0) CompanionStore.empty (fun _ _ found => by cases found) lateRenewal
    refusedRenewal (List.getLast_mem _)

end Meemee.Guarantees.CheckinFencing
