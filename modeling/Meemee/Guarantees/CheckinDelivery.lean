import Meemee.Guarantees.CheckinRows

/-!
# At-most-once delivery of a check-in

`start_checkin_delivery` returning `True` is the licence to call the provider. Then the row is still
being delivered by that generation or settled; the only way out is a failure report of the generation
itself that proves that nothing was delivered, so one lies before a second licence.
-/
namespace Meemee.Guarantees.CheckinDelivery
open Library Library.History Source Source.Checkins
open Guarantees.CheckinRows

/-- The provider may have been called by this generation, which still holds the row. -/
def Delivering (generation : Int) (row : CheckinRow) : Prop :=
  row.status = .running ∧ row.deliveryState = .started ∧ row.claimGeneration = generation ∧
    row.claimToken.isSome

/-- `done`, `failed` or `cancelled`. -/
def Settled (row : CheckinRow) : Prop := row.status ≠ .queued ∧ row.status ≠ .running

/-- A row step keeps a started delivery started or settles it, unless proven undelivered. -/
theorem rowStep_delivering {generation : Int} {row after : CheckinRow} {label : Label}
    (moves : RowStep row label after) (before : Delivering generation row ∨ Settled row) :
    (Delivering generation after ∨ Settled after) ∨
      label = .failed true ∧ Delivering generation row := by
  rcases before with ⟨running, started, same, held⟩ | ⟨unqueued, stopped⟩
  · cases moves with
    | recovered clock =>
      simp [Settled, CheckinRow.recovered, CheckinRow.retriable, started]
    | exhausted clock queued | fencedClaim token instant leaseSeconds queued
    | legacyClaim updatedAt queued => rw [queued] at running; cases running
    | renewed until_ updatedAt => exact .inl (.inl ⟨running, started, same, held⟩)
    | sendStarted updatedAt _ _ unsent => rw [unsent] at started; cases started
    | failed proven lastError updatedAt =>
      cases proven with
      | true => exact .inr ⟨rfl, running, started, same, held⟩
      | false => exact .inl (.inr (by simp [Settled, started]))
    | finished message updatedAt | localDone message updatedAt | abandoned lastError updatedAt
    | stopped updatedAt => exact .inl (.inr (by simp [Settled]))
    | unleased status message lastError updatedAt _ untouched =>
      rw [untouched] at held
      cases held
  · cases moves with
    | exhausted clock queued | fencedClaim token instant leaseSeconds queued
    | legacyClaim updatedAt queued => exact absurd queued unqueued
    | stopped updatedAt live => exact (live.elim unqueued stopped).elim
    | recovered clock running | renewed until_ updatedAt running | sendStarted updatedAt running
    | finished message updatedAt running | localDone message updatedAt running
    | failed proven lastError updatedAt running | abandoned lastError updatedAt running
    | unleased status message lastError updatedAt running => exact absurd running stopped

/-- The row was licensed to this generation and has not been handed back. -/
def Licensed (id : String) (generation : Int) (s : CompanionStore) : Prop :=
  ∃ row, s.checkins.find id = some row ∧ (Delivering generation row ∨ Settled row)

/-- `start_checkin_delivery` returned `True` for this row and generation. -/
def StartedDelivery (id : String) (generation : Int)
    (e : Event CompanionStore Action (Except Exc Value)) : Prop :=
  ∃ claim clock userId token, e.action = .startDelivery claim clock ∧ e.answer = .ok (.told true) ∧
    boundClaim claim = .ok (some id, userId, token, generation)

/-- `fail_checkin_claim(..., proven_not_delivered=True)` succeeded for this row and
generation. -/
def ProvenUndelivered (id : String) (generation : Int)
    (e : Event CompanionStore Action (Except Exc Value)) : Prop :=
  ∃ claim error clock status userId token, e.action = .failClaim claim error clock true ∧
    e.answer = .ok (.status status) ∧ boundClaim claim = .ok (some id, userId, token, generation)

variable {scrubText : String → String} {wallClock : String → Instant → Nat}

theorem step_licensed {id : String} {generation : Int} (s : CompanionStore) (action : Action)
    (before : Licensed id generation s) :
    Licensed id generation (step scrubText wallClock s action).2 ∨
      ProvenUndelivered id generation ⟨s, action, (step scrubText wallClock s action).1,
        (step scrubText wallClock s action).2⟩ := by
  cases run : step scrubText wallClock s action with
  | mk answer t =>
    cases answer with
    | error e =>
      obtain rfl := step_raised run
      exact .inl before
    | ok value =>
      obtain ⟨row, found, safe⟩ := before
      obtain ⟨after, stored, same | ⟨label, moves, told⟩⟩ := (step_moves run).rows id row found
      · exact .inl ⟨after, stored, by rw [same]; exact safe⟩
      · rcases rowStep_delivering moves safe with kept | ⟨rfl, -, -, rfl, -⟩
        · exact .inl ⟨after, stored, kept⟩
        · obtain ⟨claim, error, clock, status, acted, answered, -, token, -, bound⟩ := told
          rw [Table.key_of_find found] at bound
          exact .inr ⟨claim, error, clock, status, _, token, acted, answered, bound⟩

theorem started_event {id : String} {generation : Int} {s : CompanionStore} {run : List Action}
    {e : Event CompanionStore Action (Except Exc Value)}
    (mem : e ∈ history (step scrubText wallClock) s run)
    (started : StartedDelivery id generation e) :
    (∃ row, e.before.checkins.find id = some row ∧ row.status = .running ∧
        row.deliveryState = .notStarted) ∧ Licensed id generation e.after := by
  obtain ⟨claim, clock, userId, token, acted, told, bound⟩ := started
  have here := step_of_mem mem
  rw [acted, told] at here
  obtain ⟨answer, done, wrapped⟩ := call_ok here
  cases wrapped
  obtain ⟨row, after, guard, one⟩ := startCheckinDelivery_returned done
  obtain ⟨running, held, carried, bound'⟩ := guard.held
  rw [bound] at bound'
  obtain ⟨sameId, -, -, rfl⟩ : some id = some row.id ∧ userId = some row.userId ∧ token = held ∧
      generation = row.claimGeneration := by
    simpa only [Except.ok.injEq, Prod.mk.injEq] using bound'
  obtain rfl := Option.some.inj sameId
  have moves := one.moves
  have stored := one.stored
  cases moves with
  | sendStarted updatedAt _ _ unsent =>
    refine ⟨⟨row, guard.found, running, unsent⟩, _, stored, .inl ⟨running, rfl, rfl, ?_⟩⟩
    simp [carried]

/-- Two starts of one check-in that both returned `True` have, between them, a proof
by the first generation that it delivered nothing: over any number of workers, any
order of the operations and any clocks. -/
theorem delivery_at_most_once (scrubText : String → String) (wallClock : String → Instant → Nat)
    (s : CompanionStore) (run : List Action)
    {pre mid post : List (Event CompanionStore Action (Except Exc Value))}
    {e₁ e₂ : Event CompanionStore Action (Except Exc Value)} {id : String} {g₁ g₂ : Int}
    (split : history (step scrubText wallClock) s run = pre ++ e₁ :: (mid ++ e₂ :: post))
    (first : StartedDelivery id g₁ e₁) (second : StartedDelivery id g₂ e₂) :
    ∃ e ∈ mid, ProvenUndelivered id g₁ e := by
  have firstMember : e₁ ∈ history (step scrubText wallClock) s run := by simp [split]
  have secondMember : e₂ ∈ history (step scrubText wallClock) s run := by simp [split]
  have licensed := (started_event firstMember first).2
  rcases holds_between step_licensed split licensed with ⟨row, found, safe⟩ | reported
  · obtain ⟨⟨other, there, running, unsent⟩, -⟩ := started_event secondMember second
    obtain rfl := Option.some.inj (found.symm.trans there)
    rcases safe with ⟨-, started, -⟩ | ⟨-, stopped⟩
    · rw [unsent] at started
      cases started
    · exact absurd running stopped
  · exact reported

def sampleProfile : UserProfile :=
  ⟨"ada", "UTC", ⟨true, none, "local", none⟩⟩

def sampleClaim (token : String) (generation : Int) : Claim :=
  .dict (some (.str "c1")) (some (.str "ada")) (some (.str token)) (some (.int generation))

def redelivery : List Action :=
  [.elsewhere ⟨[sampleProfile], by simp⟩ Table.empty Log.empty Table.empty,
   .schedule "ada" 0 "slot" "local" none 3 false "c1" 0,
   .claimFenced (fun _ => 10) 300 "first",
   .startDelivery (sampleClaim "first" 1) (fun _ => 20),
   .failClaim (sampleClaim "first" 1) "refused" (fun _ => 30) true,
   .claimFenced (fun _ => 40) 300 "second",
   .startDelivery (sampleClaim "second" 2) (fun _ => 50)]

theorem redelivery_proven :
    ∃ e ∈ ((history (step id (fun _ _ => 0)) CompanionStore.empty redelivery).drop 4).take 2,
      ProvenUndelivered "c1" 1 e :=
  delivery_at_most_once id (fun _ _ => 0) CompanionStore.empty redelivery
    (show history (step id (fun _ _ => 0)) CompanionStore.empty redelivery =
      (history (step id (fun _ _ => 0)) CompanionStore.empty redelivery).take 3 ++ _ ::
        (((history (step id (fun _ _ => 0)) CompanionStore.empty redelivery).drop 4).take 2 ++
          _ :: []) from rfl)
    ⟨_, _, _, _, rfl, by decide +kernel, rfl⟩ ⟨_, _, _, _, rfl, by decide +kernel, rfl⟩

end Meemee.Guarantees.CheckinDelivery
