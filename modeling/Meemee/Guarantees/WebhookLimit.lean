import Meemee.Library.History
import Meemee.Source.WebhookRoutes

/-!
# The plan's limit on active webhooks

Only the route that creates checks the limit, and against a count of an earlier step. The count stays
within the limit in every run in which nothing becomes active between a request's count and its insert,
unless something else stops being so, and nothing is resumed while the plan is full.
-/
namespace Meemee.Guarantees.WebhookLimit
open Library Library.History Source Source.WebhookRoutes Library.Txn Library.Table
open Source.Deliveries (Subscription)

variable {d : Deployment}

/-- The plan's limit on a principal's webhooks. -/
def allowance (d : Deployment) (principal : String) : Nat :=
  d.entitlements.limit principal .webhooks

/-- No principal has more active subscriptions than its plan allows. -/
def WithinLimit (d : Deployment) (s : Routes) : Prop :=
  ∀ principal, s.store.activeCount principal ≤ allowance d principal

/-- The insert of a pending request takes place. -/
def Inserts (d : Deployment) (s : Routes) (destination : Except Exc Unit) (ident : String)
    (creation : Creation) : Prop :=
  s.store.subscriptions.find ident = none ∧
    checkSubscription d.prim destination creation.request = .ok ()

/-- An inactive subscription of its owner is resumed, after the cooldown. -/
def Resumes (d : Deployment) (s : Routes) (ident owner : String) (now : Instant) : Prop :=
  s.store.subscriptions.find ident = some ⟨ident, owner, false⟩ ∧
    cooled (s.store.latestFailure ident) d.breakerCooldownSeconds now = true

instance (d : Deployment) (s : Routes) (destination : Except Exc Unit) (ident : String)
    (creation : Creation) : Decidable (Inserts d s destination ident creation) :=
  inferInstanceAs (Decidable (_ ∧ _))

instance (d : Deployment) (s : Routes) (ident owner : String) (now : Instant) :
    Decidable (Resumes d s ident owner now) := inferInstanceAs (Decidable (_ ∧ _))

/-- A step that makes a subscription of the principal active. -/
def Activates (d : Deployment) (s : Routes) (principal : String) : Call → Prop
  | .subscribe index destination ident => ∃ creation, s.pending[index]? = some creation ∧
      creation.principal = principal ∧ Inserts d s destination ident creation
  | .resume ident owner now => owner = principal ∧ Resumes d s ident owner now
  | .count _ _ | .pause _ _ _ | .delete _ _ => False

/-- An insert finds no more active subscriptions than its request counted, and a resume finds that
the plan is not full. -/
def Meets (d : Deployment) (e : Event Routes Call (Except JobCreation.Failure Unit)) : Prop :=
  match e.action with
  | .subscribe index destination ident => ∀ creation ∈ e.before.pending[index]?,
      Inserts d e.before destination ident creation →
        e.before.store.activeCount creation.principal ≤ creation.current
  | .resume ident owner now => Resumes d e.before ident owner now →
      e.before.store.activeCount owner < allowance d owner
  | _ => True

instance (d : Deployment) : DecidablePred (Meets d) := by
  intro e
  unfold Meets
  cases e.action <;> infer_instance

/-- What a request has counted was below the limit. -/
structure Sound (d : Deployment) (s : Routes) : Prop where
  within : WithinLimit d s
  counted : ∀ creation ∈ s.pending, creation.current < allowance d creation.principal

theorem deactivated_count (p : Subscription → Bool) (s : WebhookStore) (principal : String) :
    (assignActive p false s).2.activeCount principal ≤ s.activeCount principal := by
  apply tally_update_le (withActive_id false)
  intro row _ _ active
  simp [activeOf, withActive] at active

variable {s : WebhookStore} {ident principal owner : String} {call : Call}

/-- Activating the inactive subscription of a principal adds one to its count. -/
theorem activated_count (stored : s.subscriptions.find ident = some ⟨ident, principal, false⟩) :
    (assignActive (ownedBy ident principal) true s).2.activeCount principal =
      s.activeCount principal + 1 := by
  have only : ∀ other ∈ s.subscriptions, ownedBy ident principal other = true →
      other = ⟨ident, principal, false⟩ := by
    intro other mem owned
    simp only [ownedBy, decide_eq_true_eq] at owned
    exact eq_of_find stored mem owned.1
  have counted := tally_update_row (p := activeOf principal) (withActive_id true)
    (mem_of_find stored) only
  have before : Table.weight (activeOf principal) ⟨ident, principal, false⟩ = 0 := by
    simp [Table.weight, activeOf]
  have after : Table.weight (activeOf principal) (if ownedBy ident principal ⟨ident, principal, false⟩
      then withActive true ⟨ident, principal, false⟩ else ⟨ident, principal, false⟩) = 1 := by
    simp [Table.weight, activeOf, ownedBy, withActive]
  rw [before, after] at counted
  exact counted

/-- An activation that finds no inactive subscription of the principal leaves its count. -/
theorem unactivated_count
    (unmatched : ¬ (owner = principal ∧
      s.subscriptions.find ident = some ⟨ident, principal, false⟩)) :
    (assignActive (ownedBy ident owner) true s).2.activeCount principal ≤
      s.activeCount principal := by
  apply tally_update_le (withActive_id true)
  intro row mem owned active
  simp only [ownedBy, decide_eq_true_eq] at owned
  obtain ⟨named, held⟩ := owned
  simp only [activeOf, withActive, Bool.and_true] at active
  cases inactive : row.active with
  | true =>
    rw [activeOf, inactive, Bool.and_true]
    exact active
  | false =>
    have same := of_decide_eq_true active
    refine absurd ⟨held.symm.trans same, ?_⟩ unmatched
    rw [← named, find_of_mem mem, ← same, ← inactive]

theorem resume_run (ident owner : String) (cooldownSeconds : Int) (now : Instant) (s : WebhookStore) :
    (setActive ident owner true cooldownSeconds now s).2 =
      if cooled (s.latestFailure ident) cooldownSeconds now then
        (assignActive (ownedBy ident owner) true s).2
      else s := by
  simp only [setActive, run_bind_read, Bool.not_true, Bool.false_or, run_require_bind]
  split <;> rfl

/-- A subscription goes in when the request passes the checks and the id is new. -/
theorem subscribe_accepted {prim : Primitives} {destination : Except Exc Unit}
    {request : WebhookRequest} (accepted : checkSubscription prim destination request = .ok ())
    (fresh : s.subscriptions.find ident = none) :
    (subscribe prim owner destination request ident s).2 =
      { s with subscriptions := s.subscriptions.insert ⟨ident, owner, true⟩ fresh } := by
  have isNew : (s.subscriptions.find ident).isNone = true := by rw [fresh, Option.isNone_none]
  have inserted := insertOrIgnore_fresh (t := s.subscriptions) (r := ⟨ident, owner, true⟩) fresh
  unfold subscribe
  rw [accepted, run_bind_ok (run_ofExcept _ s), run_bind_read, isNew,
    run_require_bind, if_pos rfl, run_write, inserted]

theorem subscribe_refused {prim : Primitives} {destination : Except Exc Unit}
    {request : WebhookRequest}
    (refused : ¬ (checkSubscription prim destination request = .ok () ∧
      s.subscriptions.find ident = none)) :
    (subscribe prim owner destination request ident s).2 = s := by
  unfold subscribe
  cases accepted : checkSubscription prim destination request with
  | error e => rfl
  | ok _ =>
    have taken : (s.subscriptions.find ident).isNone = false := by
      rw [Option.isNone_eq_false_iff, Option.isSome_iff_ne_none]
      exact fun fresh => refused ⟨accepted, fresh⟩
    rw [run_bind_ok (run_ofExcept _ s), run_bind_read, taken, run_require_bind,
      if_neg Bool.false_ne_true]

/-- A step that makes a subscription of the principal active adds one to its count. -/
theorem step_adds {s : Routes} (activates : Activates d s principal call) :
    (d.step s call).2.store.activeCount principal = s.store.activeCount principal + 1 := by
  cases call with
  | count owner request | pause ident owner now | delete ident owner => cases activates
  | resume ident owner now =>
    obtain ⟨rfl, stored, passed⟩ := activates
    change (setActive ident owner true d.breakerCooldownSeconds now s.store).2.activeCount owner = _
    rw [resume_run, if_pos passed, activated_count stored]
  | subscribe index destination ident =>
    obtain ⟨creation, waiting, rfl, fresh, accepted⟩ := activates
    simp only [Deployment.step, Deployment.finish, waiting]
    rw [subscribe_accepted accepted fresh]
    have counted := tally_insert (r := ⟨ident, creation.principal, true⟩) fresh
      (activeOf creation.principal)
    rw [Table.weight, if_pos (by simp [activeOf])] at counted
    exact counted

theorem step_bounded {s : Routes} (inert : ¬ Activates d s principal call) :
    (d.step s call).2.store.activeCount principal ≤ s.store.activeCount principal := by
  cases call with
  | count owner request =>
    simp only [Deployment.step]
    split <;> exact Nat.le_refl _
  | pause ident owner now => exact deactivated_count _ s.store principal
  | delete ident owner => exact deactivated_count _ s.store principal
  | resume ident owner now =>
    change (setActive ident owner true d.breakerCooldownSeconds now s.store).2.activeCount principal ≤ _
    rw [resume_run]
    split
    next passed =>
      apply unactivated_count
      rintro ⟨rfl, stored⟩
      exact inert ⟨rfl, stored, passed⟩
    next => exact Nat.le_refl _
  | subscribe index destination ident =>
    simp only [Deployment.step, Deployment.finish]
    split
    next => exact Nat.le_refl _
    next creation waiting =>
      by_cases goes : checkSubscription d.prim destination creation.request = .ok () ∧
          s.store.subscriptions.find ident = none
      · obtain ⟨accepted, fresh⟩ := goes
        rw [subscribe_accepted accepted fresh]
        have other : ¬ creation.principal = principal :=
          fun same => inert ⟨creation, waiting, same, fresh, accepted⟩
        have counted := tally_insert (r := ⟨ident, creation.principal, true⟩) fresh
          (activeOf principal)
        rw [Table.weight, if_neg (by simp [activeOf, other])] at counted
        exact Nat.le_of_eq counted
      · rw [subscribe_refused goes]

/-- A request is allowed below the limit only. -/
theorem allowed_below {request : WebhookRequest} {current : Nat}
    (allowed : d.checkCreation principal request current = .ok ()) :
    current < allowance d principal := by
  unfold Deployment.checkCreation at allowed
  split at allowed
  next => cases allowed
  next below =>
    rw [Bool.not_eq_true', Bool.not_eq_false] at below
    exact of_decide_eq_true below

theorem step_counted {s : Routes} (counted : ∀ c ∈ s.pending, c.current < allowance d c.principal)
    (call : Call) : ∀ c ∈ (d.step s call).2.pending, c.current < allowance d c.principal := by
  cases call with
  | pause | resume | delete => exact counted
  | count principal request =>
    simp only [Deployment.step]
    split
    next allowed =>
      intro c mem
      rcases List.mem_append.mp mem with earlier | new
      · exact counted c earlier
      · obtain rfl := List.mem_singleton.mp new
        exact allowed_below allowed
    next => exact counted
  | subscribe index destination ident =>
    simp only [Deployment.step, Deployment.finish]
    split
    next => exact counted
    next => exact fun c mem => counted c (List.mem_of_mem_eraseIdx mem)

/-- A step that makes a subscription active finds room: its request's count was below the limit. -/
theorem room_of_meets {s : Routes} (sound : Sound d s)
    (meets : Meets d ⟨s, call, (d.step s call).1, (d.step s call).2⟩)
    (activates : Activates d s principal call) : s.store.activeCount principal < allowance d principal := by
  cases call with
  | count | pause | delete => cases activates
  | resume ident owner now =>
    obtain ⟨rfl, resumes⟩ := activates
    exact meets resumes
  | subscribe index destination ident =>
    obtain ⟨creation, waiting, rfl, inserts⟩ := activates
    calc s.store.activeCount creation.principal ≤ creation.current := meets creation waiting inserts
      _ < allowance d creation.principal := sound.counted creation (List.mem_of_getElem? waiting)

theorem step_sound (s : Routes) (call : Call) (sound : Sound d s)
    (meets : Meets d ⟨s, call, (d.step s call).1, (d.step s call).2⟩) :
    Sound d (d.step s call).2 := by
  refine ⟨fun principal => ?_, step_counted sound.counted call⟩
  by_cases activates : Activates d s principal call
  · rw [step_adds activates]
    exact room_of_meets sound meets activates
  · exact Nat.le_trans (step_bounded activates) (sound.within principal)

/-- From any stored subscriptions within the limits, and whatever the order of the store steps, the
number of active subscriptions stays within them in every run whose steps meet the condition. -/
theorem within_of_meets {store : WebhookStore} (start : WithinLimit d ⟨store, []⟩) (calls : List Call)
    (meets : ∀ e ∈ history d.step ⟨store, []⟩ calls, Meets d e) :
    ∀ e ∈ history d.step ⟨store, []⟩ calls, WithinLimit d e.before ∧ WithinLimit d e.after := by
  intro e member
  have sound := (invariant_of_meets (Meets d) step_sound ⟨start, nofun⟩ meets).1 e member
  exact ⟨sound.1.within, sound.2.within⟩

section Starter

/-- Every principal has the starter plan: three webhooks. -/
def starter : Deployment := ⟨⟨id, fun _ => ""⟩, ⟨Table.empty, .starter⟩, 300⟩

def unused : Routes := ⟨WebhookStore.empty, []⟩

theorem unused_within : WithinLimit starter unused := fun _ => Nat.zero_le _

def anyEvent : WebhookRequest := ⟨["*"], []⟩

def create (ident : String) : List Call :=
  [.count "ana" anyEvent, .subscribe 0 (.ok ()) ident]

/-- Three webhooks, one of them paused while a fourth is created, and resumed then. -/
def resumed : List Call :=
  create "w1" ++ create "w2" ++ create "w3" ++ [.pause "w3" "ana" 0] ++ create "w4" ++
    [.resume "w3" "ana" 0]

/-- Two requests count before either inserts. -/
def crossed : List Call :=
  create "w1" ++ create "w2" ++ [.count "ana" anyEvent] ++ create "w3" ++
    [.subscribe 0 (.ok ()) "w4"]

theorem resumed_count : (final starter.step unused resumed).store.activeCount "ana" = 4 := by
  decide +kernel

theorem crossed_count : (final starter.step unused crossed).store.activeCount "ana" = 4 := by
  decide +kernel

theorem left_limit {calls : List Call}
    (past : (final starter.step unused calls).store.activeCount "ana" = 4) :
    ¬ WithinLimit starter (final starter.step unused calls) := by
  intro within
  have bound := within "ana"
  rw [past] at bound
  exact absurd bound (by decide)

theorem limit_exceeded :
    WithinLimit starter unused ∧ ¬ WithinLimit starter (final starter.step unused resumed) ∧
      ¬ WithinLimit starter (final starter.step unused crossed) :=
  ⟨unused_within, left_limit resumed_count, left_limit crossed_count⟩

/-- A request counts two, and inserts when one of them is paused and another request has come in. -/
def madeUp : List Call :=
  create "w1" ++ create "w2" ++ [.count "ana" anyEvent, .pause "w2" "ana" 0, .count "ana" anyEvent,
    .subscribe 1 (.ok ()) "w3", .subscribe 0 (.ok ()) "w4", .resume "w1" "ana" 0]

theorem madeUp_within :
    (∀ e ∈ history starter.step unused madeUp, Meets starter e) ∧
      ∀ e ∈ history starter.step unused madeUp, WithinLimit starter e.before ∧ WithinLimit starter e.after := by
  have meets : ∀ e ∈ history starter.step unused madeUp, Meets starter e := by decide +kernel
  exact ⟨meets, within_of_meets unused_within madeUp meets⟩

end Starter

end Meemee.Guarantees.WebhookLimit
