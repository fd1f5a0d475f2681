import Mathlib.Logic.Function.Basic
import Meemee.Guarantees.PlanMoves
import Meemee.Library.History

/-!
# Plans under concurrent callers

A call of `update_status` reads the plan and checks, then replaces it in a transaction, then reads
again; the steps of any number of calls come in any order. A running or done step has its dependencies
done, because the check read the plan of the version that is replaced.
-/
namespace Meemee.Guarantees.PlanConcurrency
open Library Library.History Source Source.Plans Library.Table List
open Guarantees.PlanSteps Guarantees.PlanMoves

/-- A plan to create, with every step pending. -/
structure FreshPlan where
  plan : Plan
  pending : ∀ step ∈ plan.steps, step.status = .pending

/-- A call of `update_status` that has passed its checks. -/
structure Built where
  ident : String
  stepId : String
  status : String
  plan : Plan
  expected : Int
  deriving DecidableEq

structure System where
  store : PlanStore
  /-- The calls before their transaction, by caller. -/
  building : String → Option Built
  /-- The calls after their transaction, with the plan they will return. -/
  returning : String → Option String

inductive Action where
  | create (ident : String) (plan : FreshPlan) (now : Instant)
  | read (caller ident stepId status : String) (expected : Int)
  | write (caller : String) (now : Instant)
  | finish (caller : String)

inductive Value where
  | created (row : PlanRow)
  | checked
  | replaced
  | returned (row : PlanRow)
  | idle
  deriving DecidableEq

def System.creates (x : System) (ident : String) (plan : Plan) (now : Instant) :
    Except PlanExc Value × System :=
  match SQLite.create ident plan now x.store with
  | (.ok row, t) => (.ok (.created row), { x with store := t })
  | (.error e, t) => (.error e, { x with store := t })

/-- The first `get` of `update_status`, and its checks. -/
def System.reads (x : System) (caller ident stepId status : String) (expected : Int) :
    Except PlanExc Value × System :=
  match Plans.get ident x.store with
  | (.error e, t) => (.error e, { x with store := t })
  | (.ok current, t) =>
    match SQLite.checkStatus current stepId status expected with
    | .error e => (.error e, { x with store := t })
    | .ok none => (.ok (.returned current), { x with store := t })
    | .ok (some plan) =>
      (.ok .checked, { x with
        store := t
        building := Function.update x.building caller (some ⟨ident, stepId, status, plan, expected⟩) })

/-- The transaction of `replace`. -/
def System.writes (x : System) (caller : String) (now : Instant) : Except PlanExc Value × System :=
  match x.building caller with
  | none => (.ok .idle, x)
  | some built =>
    let settled := { x with building := Function.update x.building caller none }
    match SQLite.replaceRow built.ident built.plan built.expected
        (statusReason built.stepId built.status) now x.store with
    | (.ok (), t) =>
      (.ok .replaced, { settled with
        store := t, returning := Function.update x.returning caller (some built.ident) })
    | (.error e, t) => (.error e, { settled with store := t })

/-- The `get` that `replace` returns. -/
def System.finishes (x : System) (caller : String) : Except PlanExc Value × System :=
  match x.returning caller with
  | none => (.ok .idle, x)
  | some ident =>
    let settled := { x with returning := Function.update x.returning caller none }
    match Plans.get ident x.store with
    | (.ok row, t) => (.ok (.returned row), { settled with store := t })
    | (.error e, t) => (.error e, { settled with store := t })

def step (x : System) (action : Action) : Except PlanExc Value × System :=
  match action with
  | .create ident plan now => x.creates ident plan.plan now
  | .read caller ident stepId status expected => x.reads caller ident stepId status expected
  | .write caller now => x.writes caller now
  | .finish caller => x.finishes caller

abbrev Step := Event System Action (Except PlanExc Value)

def start : System := ⟨PlanStore.empty, fun _ => none, fun _ => none⟩

/-- A running or done step has its dependencies done. -/
def Ordered (plan : Plan) : Prop :=
  ∀ step ∈ plan.steps, step.status = .running ∨ step.status = .done →
    ∀ dep ∈ step.dependsOn, ∃ other ∈ plan.steps, other.id = dep ∧ other.status = .done

/-- Every plan is in order and its history whole, the newest version with its document. -/
structure Valid (s : PlanStore) : Prop where
  ordered : ∀ row ∈ s.plans, Ordered row.plan
  versions : ∀ row ∈ s.plans,
    (s.historyOf row.id).map (fun entry => entry.version) = List.range' 1 row.version
  newest : ∀ row ∈ s.plans, (s.historyOf row.id).getLast?.map (fun entry => entry.plan) = some row.plan

/-- Whatever is stored stays, and its done steps stay done. -/
def DoneStays (s t : PlanStore) : Prop :=
  ∀ ident row, s.plans.find ident = some row → ∃ row', t.plans.find ident = some row' ∧
    ∀ step ∈ row.plan.steps, step.status = .done →
      ∃ step' ∈ row'.plan.steps, step'.id = step.id ∧ step'.status = .done

/-- A call that passed a version replaced the plan. -/
def Replaces (ident : String) (expected : Int) (e : Step) : Prop :=
  ∃ caller now built, e.action = .write caller now ∧ e.before.building caller = some built ∧
    built.ident = ident ∧ built.expected = expected ∧ e.answer = .ok .replaced

/-- Of the calls that pass one version of a plan, at most one replaces it. -/
def OneReplaces (events : List Step) : Prop :=
  ∀ ident expected pre e mid e' post, events = pre ++ e :: (mid ++ e' :: post) →
    Replaces ident expected e → ¬ Replaces ident expected e'

/-- The store changes only where a plan is created or replaced. -/
def Quiet (e : Step) : Prop :=
  e.after.store = e.before.store ∨ (∃ row, e.answer = .ok (.created row)) ∨ e.answer = .ok .replaced

/-- A call that returns from its first read found the status set already. -/
def UnchangedReturns (e : Step) : Prop :=
  ∀ caller ident stepId status expected row,
    e.action = .read caller ident stepId status expected → e.answer = .ok (.returned row) →
      e.before.store.plans.find ident = some row ∧ (row.version : Int) = expected ∧
        ∃ selected, row.plan.step? stepId = some selected ∧ status = selected.status.text

theorem ids_nodup (plan : Plan) : (plan.steps.map (fun step => step.id)).Nodup := by
  have valid := plan.valid
  simp only [validGraph] at valid
  split at valid
  next unique => exact unique
  next => cases valid

variable {plan : Plan} {stepId ident caller : String} {selected : PlanStep} {status : StepStatus}
  {x : System} {row : PlanRow} {t : PlanStore} {built : Built} {action : Action}
  {answer : Except PlanExc Value}

theorem eq_of_step {step : PlanStep} (found : plan.step? stepId = some selected)
    (mem : step ∈ plan.steps) (named : step.id = stepId) : step = selected := by
  obtain ⟨stored, chosen⟩ := step_mem found
  exact inj_on_of_nodup_map (ids_nodup plan) mem stored (named.trans chosen.symm)

theorem done_of_allowed (allowed : Allowed plan selected status.text)
    (done : selected.status = .done) : status = .done := by
  have listed := allowed.transition
  rw [done] at listed
  cases status with
  | done => rfl
  | pending | running | failed => exact absurd listed (by decide)

theorem stays_done {step : PlanStep} (found : plan.step? stepId = some selected)
    (allowed : Allowed plan selected status.text) (mem : step ∈ plan.steps)
    (done : step.status = .done) :
    ∃ step' ∈ (planWith plan stepId status).steps, step'.id = step.id ∧ step'.status = .done := by
  refine ⟨stepWith stepId status step, mem_map_of_mem mem, stepWith_id stepId status step, ?_⟩
  unfold stepWith
  split
  next named =>
    have same := eq_of_step found mem named
    rw [same] at done
    exact done_of_allowed allowed done
  next => exact done

theorem dependencies_done (allowed : Allowed plan selected status.text)
    (moves : status = .running ∨ status = .done) :
    ∀ dep ∈ selected.dependsOn, ∃ other ∈ plan.steps, other.id = dep ∧ other.status = .done := by
  have named : status.text ∈ ["running", "done"] := by
    rcases moves with rfl | rfl <;> decide
  have complete := allowed.complete
  rw [SQLite.incomplete, if_pos named, filter_eq_nil_iff] at complete
  intro dep mem
  have settled : (plan.step? dep).map (fun step => step.status) = some .done := by
    simpa using complete dep mem
  obtain ⟨other, found, done⟩ := Option.map_eq_some_iff.mp settled
  obtain ⟨stored, chosen⟩ := step_mem found
  exact ⟨other, stored, chosen, done⟩

theorem ordered_planWith (ordered : Ordered plan) (found : plan.step? stepId = some selected)
    (allowed : Allowed plan selected status.text) : Ordered (planWith plan stepId status) := by
  intro step' member' active dep needs
  obtain ⟨step, mem, rfl⟩ := mem_map.mp member'
  rw [stepWith_dependsOn] at needs
  -- The step was set to its status now, with its dependencies done, or had it before.
  have earlier : ∃ other ∈ plan.steps, other.id = dep ∧ other.status = .done := by
    unfold stepWith at active
    split at active
    next named =>
      rw [eq_of_step found mem named] at needs
      exact dependencies_done allowed active dep needs
    next => exact ordered step mem active dep needs
  obtain ⟨other, stored, chosen, done⟩ := earlier
  obtain ⟨other', stored', chosen', done'⟩ := stays_done found allowed stored done
  exact ⟨other', stored', chosen'.trans chosen, done'⟩

theorem ordered_fresh (fresh : FreshPlan) : Ordered fresh.plan := by
  intro step mem active
  rw [fresh.pending step mem] at active
  rcases active with running | done
  · cases running
  · cases done

/-- A plan that was built from the version it expects. -/
structure BuiltFrom (s : PlanStore) (built : Built) : Prop where
  version : ∃ entry selected status, s.history.find (built.ident, entry.version) = some entry ∧
    (entry.version : Int) = built.expected ∧ entry.plan.step? built.stepId = some selected ∧
    Allowed entry.plan selected status.text ∧ built.plan = planWith entry.plan built.stepId status

structure Kept (x : System) : Prop where
  consistent : Consistent x.store
  ordered : ∀ row ∈ x.store.plans, Ordered row.plan
  building : ∀ caller built, x.building caller = some built → BuiltFrom x.store built

theorem valid_of_kept (kept : Kept x) : Valid x.store := by
  have recorded := fun row mem => kept.consistent.recorded row mem
  constructor
  · exact kept.ordered
  · intro row mem
    rw [historyOf_recorded (recorded row mem)]
    exact (recorded row mem).versions
  · intro row mem
    rw [historyOf_recorded (recorded row mem)]
    exact (recorded row mem).newest

theorem current_entry {s : PlanStore} (recorded : Recorded s row) :
    ∃ entry, s.history.find (row.id, row.version) = some entry ∧ entry.version = row.version ∧
      entry.plan = row.plan := by
  obtain ⟨entry, last, same⟩ := Option.map_eq_some_iff.mp recorded.newest
  obtain ⟨front, shape⟩ := List.getLast?_eq_some_iff.mp last
  have mem : entry ∈ rowsOf s row.id := by rw [shape]; simp
  obtain ⟨stored, planId⟩ := mem_rowsOf.mp mem
  have versions := recorded.versions
  have version : entry.version = row.version := by
    rw [shape, map_append, map_singleton] at versions
    have length := congrArg List.length versions
    have ends := congrArg List.getLast? versions
    rw [length_append, length_singleton, length_range'] at length
    rw [List.getLast?_concat, ← length, range'_1_concat, List.getLast?_concat,
      Option.some.injEq] at ends
    omega
  refine ⟨entry, find_some_iff.mpr ⟨stored, ?_⟩, version, same⟩
  rw [HistoryRow.key, planId, version]

theorem start_kept : Kept start where
  consistent := empty_consistent
  ordered row mem := by cases mem
  building caller built waits := by cases waits

theorem BuiltFrom.mono {s : PlanStore} (from_ : BuiltFrom s built)
    (grows : ∀ k entry, s.history.find k = some entry → t.history.find k = some entry) :
    BuiltFrom t built := by
  obtain ⟨entry, selected, status, found, rest⟩ := from_.version
  exact ⟨entry, selected, status, grows _ _ found, rest⟩

section Grows

variable {s : PlanStore} (consistent : Consistent s)

include consistent

theorem history_advanced (found : s.plans.find row.id = some row) (plan : Plan) (reason : String)
    (now : Instant) :
    ∀ k entry, s.history.find k = some entry →
      (advanced s row plan reason now).history.find k = some entry := by
  intro k entry stored
  have fresh := next_fresh consistent found plan reason now
  unfold advanced
  rw [insertOrIgnore_fresh fresh]
  exact find_insert_of_found fresh stored

theorem history_created (fresh : s.plans.find ident = none) (plan : Plan) (now : Instant) :
    ∀ k entry, s.history.find k = some entry →
      (created s ident plan now).history.find k = some entry := by
  intro k entry stored
  have first := first_fresh consistent fresh plan now
  unfold created
  rw [insertOrIgnore_fresh first]
  exact find_insert_of_found first stored

theorem create_outcome (ident : String) (plan : Plan) (now : Instant) :
    (∃ e, SQLite.create ident plan now s = (.error e, s)) ∨
      (s.plans.find ident = none ∧ SQLite.create ident plan now s =
        (.ok ⟨ident, plan.goal, 1, plan, now, now⟩, created s ident plan now)) := by
  rcases createRow_outcome consistent ident plan now with ⟨e, refused⟩ | ⟨fresh, done⟩
  · exact .inl ⟨e, Txn.run_bind_error refused⟩
  · refine .inr ⟨fresh, ?_⟩
    have returned := find_created fresh plan now ident
    rw [if_pos rfl] at returned
    unfold SQLite.create
    rw [Txn.run_bind_ok done, Plans.get, returned]

end Grows

/-- What one step does to the store, and what it says of it. -/
inductive Move (x : System) (action : Action) : Except PlanExc Value × PlanStore → Prop
  | kept (answer : Except PlanExc Value) (silent : answer ≠ .ok .replaced)
      (returns : UnchangedReturns ⟨x, action, answer, x⟩) : Move x action (answer, x.store)
  | created (ident : String) (fresh : FreshPlan) (now : Instant)
      (unknown : x.store.plans.find ident = none)
      (asked : action = .create ident fresh now) :
      Move x action (.ok (.created ⟨ident, fresh.plan.goal, 1, fresh.plan, now, now⟩),
        created x.store ident fresh.plan now)
  | replaced (caller : String) (now : Instant) (built : Built) (row : PlanRow)
      (waits : x.building caller = some built) (asked : action = .write caller now)
      (found : x.store.plans.find built.ident = some row)
      (current : (row.version : Int) = built.expected) :
      Move x action (.ok .replaced,
        advanced x.store row built.plan (statusReason built.stepId built.status) now)

theorem Move.refused (e : PlanExc) : Move x action (.error e, x.store) :=
  .kept _ nofun nofun

theorem Move.idle {value : Value} (quiet : ∀ row, value ≠ .returned row)
    (silent : value ≠ .replaced) : Move x action (.ok value, x.store) := by
  refine .kept _ (fun same => silent (Except.ok.inj same)) ?_
  intro caller ident stepId status expected row _ answered
  exact absurd (Except.ok.inj answered) (quiet row)

theorem reads_move (x : System) (caller ident stepId status : String) (expected : Int) :
    Move x (.read caller ident stepId status expected)
      ((x.reads caller ident stepId status expected).1,
        (x.reads caller ident stepId status expected).2.store) := by
  unfold System.reads Plans.get
  cases found : x.store.plans.find ident with
  | none => exact .refused _
  | some current =>
    have checked := checkStatus_checked current stepId status expected
    simp only
    generalize SQLite.checkStatus current stepId status expected = outcome at checked
    cases checked with
    | stale e | unknown e | forbidden e => exact .refused e
    | moved => exact .idle nofun nofun
    | unchanged selected same there allowed kept =>
      refine .kept _ nofun ?_
      intro _ _ _ _ _ row asked answered
      cases asked
      cases answered
      exact ⟨found, same, selected, there, kept⟩

theorem writes_move (consistent : Consistent x.store) (caller : String) (now : Instant) :
    Move x (.write caller now) ((x.writes caller now).1, (x.writes caller now).2.store) := by
  unfold System.writes
  cases waits : x.building caller with
  | none => exact .idle nofun nofun
  | some built =>
    simp only
    rcases @replaceWith_outcome (SQLite.checkBound built.expected)
      (SQLite.checkBound (built.expected + 1)) built.ident built.plan built.expected
      (statusReason built.stepId built.status) now x.store consistent with
      ⟨e, refused⟩ | ⟨row, found, current, done⟩
    · rw [SQLite.replaceRow, refused]
      exact .refused e
    · rw [SQLite.replaceRow, done]
      exact .replaced caller now built row waits rfl found current

theorem finishes_move (x : System) (caller : String) :
    Move x (.finish caller) ((x.finishes caller).1, (x.finishes caller).2.store) := by
  unfold System.finishes
  cases x.returning caller with
  | none => exact .idle (fun _ same => by cases same) (fun same => by cases same)
  | some ident =>
    simp only [Plans.get]
    cases x.store.plans.find ident with
    | none => exact .refused _
    | some row =>
      refine .kept _ (fun silent => by cases silent) ?_
      intro _ _ _ _ _ _ asked
      cases asked

theorem step_move (consistent : Consistent x.store) (action : Action) :
    Move x action ((step x action).1, (step x action).2.store) := by
  cases action with
  | create ident fresh now =>
    simp only [step, System.creates]
    rcases create_outcome consistent ident fresh.plan now with ⟨e, refused⟩ | ⟨unknown, done⟩
    · rw [refused]
      exact .refused e
    · rw [done]
      exact .created ident fresh now unknown rfl
  | read caller ident stepId status expected => exact reads_move x caller ident stepId status expected
  | write caller now => exact writes_move consistent caller now
  | finish caller => exact finishes_move x caller

/-- A plan that waits to be written was built before, or is built from what was just read. -/
theorem step_building (consistent : Consistent x.store) (action : Action)
    (waits : (step x action).2.building caller = some built) :
    x.building caller = some built ∨ BuiltFrom x.store built := by
  cases action with
  | create ident fresh now =>
    simp only [step, System.creates] at waits
    split at waits <;> exact .inl waits
  | finish other =>
    simp only [step, System.finishes] at waits
    split at waits
    · exact .inl waits
    · split at waits <;> exact .inl waits
  | write other now =>
    simp only [step, System.writes] at waits
    split at waits
    · exact .inl waits
    · have settled : Function.update x.building other none caller = some built := by
        split at waits <;> exact waits
      by_cases same : caller = other
      · rw [same, Function.update_self] at settled
        cases settled
      · rw [Function.update_of_ne same] at settled
        exact .inl settled
  | read other ident stepId status expected =>
    simp only [step, System.reads, Plans.get] at waits
    cases found : x.store.plans.find ident with
    | none =>
      rw [found] at waits
      exact .inl waits
    | some current =>
      rw [found] at waits
      have checked := checkStatus_checked current stepId status expected
      simp only at waits
      generalize SQLite.checkStatus current stepId status expected = outcome at checked waits
      cases checked with
      | stale e | unknown e | forbidden e | unchanged => exact .inl waits
      | moved selected status' same there allowed parsed =>
        by_cases here : caller = other
        · simp only [here, Function.update_self, Option.some.injEq] at waits
          subst waits
          obtain rfl := key_of_find found
          obtain ⟨entry, recorded, version, plan⟩ :=
            current_entry (consistent.recorded current (mem_of_find found))
          rw [← version] at recorded
          refine .inr ⟨entry, selected, status', recorded, ?_, ?_, ?_, ?_⟩
          · rw [version]
            exact same
          · rw [plan]
            exact there
          · rw [plan, StepStatus.text_of_parse parsed]
            exact allowed
          · rw [plan]
        · simp only [Function.update_of_ne here] at waits
          exact .inl waits

/-- At the version it expects, a waiting plan was built from the stored one. -/
theorem built_of_current (kept : Kept x) (waits : x.building caller = some built)
    (found : x.store.plans.find built.ident = some row)
    (current : (row.version : Int) = built.expected) :
    ∃ selected status, row.plan.step? built.stepId = some selected ∧
      Allowed row.plan selected status.text ∧ built.plan = planWith row.plan built.stepId status := by
  obtain ⟨entry, selected, status, recorded, version, there, allowed, plan⟩ :=
    (kept.building caller built waits).version
  obtain ⟨newest, recorded', -, same⟩ :=
    current_entry (kept.consistent.recorded row (mem_of_find found))
  have versions : entry.version = row.version := by omega
  rw [key_of_find found, ← versions, recorded] at recorded'
  cases recorded'
  rw [same] at there allowed plan
  exact ⟨selected, status, there, allowed, plan⟩

/-- A store a step leads to: consistent, with the history and the done steps it had. -/
structure Follows (s t : PlanStore) : Prop where
  consistent : Consistent t
  ordered : ∀ row ∈ t.plans, Ordered row.plan
  history : ∀ k entry, s.history.find k = some entry → t.history.find k = some entry
  done : DoneStays s t

theorem doneStays_refl (s : PlanStore) : DoneStays s s :=
  fun _ row found => ⟨row, found, fun step mem done => ⟨step, mem, rfl, done⟩⟩

theorem created_follows (kept : Kept x) (unknown : x.store.plans.find ident = none)
    (fresh : FreshPlan) (now : Instant) :
    Follows x.store (created x.store ident fresh.plan now) where
  consistent := created_consistent kept.consistent unknown fresh.plan now
  ordered row mem := by
    have stored := find_of_mem mem
    rw [find_created unknown] at stored
    split at stored
    next =>
      cases stored
      exact ordered_fresh fresh
    next => exact kept.ordered row (mem_of_find stored)
  history := history_created kept.consistent unknown fresh.plan now
  done other row found := by
    refine ⟨row, ?_, fun step mem done => ⟨step, mem, rfl, done⟩⟩
    rw [find_created unknown, if_neg, found]
    rintro rfl
    rw [unknown] at found
    cases found

theorem advanced_follows (kept : Kept x) (waits : x.building caller = some built)
    (found : x.store.plans.find built.ident = some row)
    (current : (row.version : Int) = built.expected) (reason : String) (now : Instant) :
    Follows x.store (advanced x.store row built.plan reason now) := by
  obtain ⟨selected, status, there, allowed, plan⟩ := built_of_current kept waits found current
  have ids := key_of_find found
  rw [← ids] at found
  refine ⟨advanced_consistent kept.consistent found _ _ _, ?_,
    history_advanced kept.consistent found _ _ _, ?_⟩
  · intro other mem
    have stored := find_of_mem mem
    rw [find_advanced found] at stored
    split at stored
    next =>
      cases stored
      rw [plan]
      exact ordered_planWith (kept.ordered row (mem_of_find found)) there allowed
    next => exact kept.ordered other (mem_of_find stored)
  · intro other entry stored
    rw [find_advanced found]
    by_cases here : other = row.id
    · rw [here, found] at stored
      cases stored
      refine ⟨row.replaced built.plan now, if_pos here, ?_⟩
      intro step mem done
      rw [plan]
      exact stays_done there allowed mem done
    · rw [if_neg here]
      exact ⟨entry, stored, fun step mem done => ⟨step, mem, rfl, done⟩⟩

theorem move_follows (kept : Kept x) (move : Move x action (answer, t)) : Follows x.store t := by
  cases move with
  | kept => exact ⟨kept.consistent, kept.ordered, fun _ _ stored => stored, doneStays_refl x.store⟩
  | created ident fresh now unknown => exact created_follows kept unknown fresh now
  | replaced caller now built row waits asked found current =>
    exact advanced_follows kept waits found current _ now

theorem step_kept (x : System) (action : Action) (kept : Kept x) : Kept (step x action).2 := by
  have follows := move_follows kept (step_move kept.consistent action)
  refine ⟨follows.consistent, follows.ordered, ?_⟩
  intro caller built waits
  rcases step_building kept.consistent action waits with before | now
  · exact (kept.building caller built before).mono follows.history
  · exact now.mono follows.history

theorem move_quiet {y : System} (move : Move x action (answer, t)) :
    (t = x.store ∨ (∃ row, answer = .ok (.created row)) ∨ answer = .ok .replaced) ∧
      UnchangedReturns ⟨x, action, answer, y⟩ := by
  cases move with
  | kept _ silent returns => exact ⟨.inl rfl, returns⟩
  | created ident fresh now =>
    refine ⟨.inr (.inl ⟨_, rfl⟩), ?_⟩
    intro _ _ _ _ _ _ _ answered
    cases answered
  | replaced =>
    refine ⟨.inr (.inr rfl), ?_⟩
    intro _ _ _ _ _ _ _ answered
    cases answered

/-- The plan has gone past a version. -/
def Past (ident : String) (expected : Int) (x : System) : Prop :=
  Kept x ∧ ∃ row, x.store.plans.find ident = some row ∧ expected < row.version

theorem move_past {expected : Int} (past : Past ident expected x)
    (move : Move x action (answer, t)) :
    ∃ row, t.plans.find ident = some row ∧ expected < row.version := by
  obtain ⟨kept, row, found, later⟩ := past
  cases move with
  | kept => exact ⟨row, found, later⟩
  | created other fresh now unknown =>
    refine ⟨row, ?_, later⟩
    rw [find_created unknown, if_neg, found]
    rintro rfl
    rw [unknown] at found
    cases found
  | replaced caller now built other waits asked there current =>
    have ids := key_of_find there
    rw [← ids] at there
    rw [find_advanced there]
    by_cases here : ident = other.id
    · rw [here, there] at found
      cases found
      refine ⟨_, if_pos here, ?_⟩
      show expected < ((row.version + 1 : Nat) : Int)
      omega
    · rw [if_neg here]
      exact ⟨row, found, later⟩

theorem step_past (ident : String) (expected : Int) (x : System) (action : Action)
    (past : Past ident expected x) : Past ident expected (step x action).2 :=
  ⟨step_kept x action past.1, move_past past (step_move past.1.consistent action)⟩

theorem move_replaces {now : Instant} (waits : x.building caller = some built)
    (replaced : answer = .ok .replaced) (move : Move x (.write caller now) (answer, t)) :
    (∃ row, x.store.plans.find built.ident = some row ∧ (row.version : Int) = built.expected) ∧
      ∃ row, t.plans.find built.ident = some row ∧ built.expected < row.version := by
  cases move with
  | kept _ silent => exact absurd replaced silent
  | created _ _ _ _ asked => cases asked
  | replaced caller' now' built' row waits' asked found current =>
    cases asked
    rw [waits] at waits'
    cases waits'
    refine ⟨⟨row, found, current⟩, ?_⟩
    have ids := key_of_find found
    rw [← ids] at found
    rw [find_advanced found, if_pos ids.symm]
    refine ⟨_, rfl, ?_⟩
    show built.expected < ((row.version + 1 : Nat) : Int)
    omega

theorem one_replaces (run : List Action) : OneReplaces (history step start run) := by
  intro ident expected pre e mid e' post split first second
  have keeps := invariant step_kept start_kept run
  have mem : e ∈ history step start run := by rw [split]; simp
  have member' : e' ∈ history step start run := by rw [split]; simp
  obtain ⟨before, after⟩ := keeps.1 e mem
  obtain ⟨before', -⟩ := keeps.1 e' member'
  obtain ⟨caller, now, built, asked, waits, rfl, rfl, answered⟩ := first
  obtain ⟨caller', now', built', asked', waits', ident', expected', answered'⟩ := second
  have here := step_of_mem mem
  have there := step_of_mem member'
  have move := step_move before.consistent e.action
  have move' := step_move before'.consistent e'.action
  rw [here, asked] at move
  rw [there, asked'] at move'
  have past : Past built.ident built.expected e.after := ⟨after, (move_replaces waits answered move).2⟩
  obtain ⟨row, found, current⟩ := (move_replaces waits' answered' move').1
  have still : Past built.ident built.expected e'.before := by
    have held := @holds_between _ _ _ step (Past built.ident built.expected) (fun _ => False)
      (fun s a held => .inl (step_past _ _ s a held)) start run pre mid post e e' split past
    rcases held with held | ⟨_, _, never⟩
    · exact held
    · exact never.elim
  obtain ⟨-, row', found', later⟩ := still
  rw [ident', found'] at found
  cases found
  omega

/-- In every run, whatever the order of the callers' steps: the stored plans are in order and
their histories complete, done steps stay done, and of the calls that pass one version of a
plan at most one replaces it. The others change nothing, and the ones that do not raise
found the status set. -/
theorem plan_execution_ordered (run : List Action) :
    (∀ e ∈ history step start run, Valid e.before.store ∧ Valid e.after.store ∧
      DoneStays e.before.store e.after.store ∧ Quiet e ∧ UnchangedReturns e) ∧
      OneReplaces (history step start run) := by
  refine ⟨?_, one_replaces run⟩
  intro e member
  obtain ⟨before, after⟩ := (invariant step_kept start_kept run).1 e member
  have move := step_move before.consistent e.action
  rw [step_of_mem member] at move
  obtain ⟨quiet, returns⟩ := move_quiet move
  exact ⟨valid_of_kept before, valid_of_kept after, (move_follows before move).done, quiet, returns⟩

/-- A call that passed a version returned without an exception. -/
def Succeeds (ident : String) (expected : Int) (e : Step) : Prop :=
  (∃ caller stepId status row, e.action = .read caller ident stepId status expected ∧
    e.answer = .ok (.returned row)) ∨ Replaces ident expected e

def build : FreshPlan :=
  ⟨⟨"ship", [⟨"build", "build", [], .pending⟩], by decide +kernel⟩, by decide⟩

/-- One call sets the status that is set already, the other one starts the step. -/
def bothAtOne : List Action :=
  [.create "p" build 0, .read "ada" "p" "build" "pending" 1, .read "bob" "p" "build" "running" 1,
   .write "bob" 2]

/-- The system after so many of these steps, and the next of them. -/
def after (n : Nat) : System := final step start (bothAtOne.take n)

def eventAt (n : Nat) (action : Action) : Step :=
  ⟨after n, action, (step (after n) action).1, (step (after n) action).2⟩

/-- Two calls that pass the same version both return. -/
theorem two_succeed :
    ¬ ∀ (run : List Action) (ident : String) (expected : Int) (pre : List Step) (e : Step)
      (mid : List Step) (e' : Step) (post : List Step),
      history step start run = pre ++ e :: (mid ++ e' :: post) →
        Succeeds ident expected e → ¬ Succeeds ident expected e' := by
  intro single
  have unchanged : Succeeds "p" 1 (eventAt 1 (.read "ada" "p" "build" "pending" 1)) := by
    refine Or.inl ⟨"ada", "build", "pending", ⟨"p", "ship", 1, build.plan, 0, 0⟩, rfl, ?_⟩
    decide +kernel
  have replaced : Succeeds "p" 1 (eventAt 3 (.write "bob" 2)) := by
    refine Or.inr ⟨"bob", 2, ⟨"p", "build", "running", planWith build.plan "build" .running, 1⟩, rfl,
      ?_, rfl, rfl, ?_⟩
    · decide +kernel
    · decide +kernel
  exact single bothAtOne "p" 1 [eventAt 0 (.create "p" build 0)] _
    [eventAt 2 (.read "bob" "p" "build" "running" 1)] _ [] rfl unchanged replaced

end Meemee.Guarantees.PlanConcurrency
