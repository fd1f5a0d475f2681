import Meemee.Guarantees.PlanMoves
import Meemee.Library.History

/-!
# Where the two plan stores agree

PostgreSQL's `update_status` has neither the table of transitions nor the check of the dependencies,
and it writes a new version where the status is already set. So the stores agree on a run exactly when
each call that names the current version, a step and a status is one that SQLite allows and that
changes the status.
-/
namespace Meemee.Guarantees.PlanBackends
open Library Library.History Source Source.Plans Library.Table List
open Source.PgJobs (storesText maxInteger)
open Guarantees.PlanSteps Guarantees.PlanMoves

structure Stores where
  sqlite : PlanStore
  postgres : PlanStore

/-- A call of `update_status`, with a clock reading of each store. -/
structure Call where
  ident : String
  stepId : String
  status : String
  expected : Int
  now : Instant
  clock : Instant

abbrev Answers := Except PlanExc PlanRow × Except PlanExc PlanRow

def step (s : Stores) (call : Call) : Answers × Stores :=
  let left := SQLite.updateStatus call.ident call.stepId call.status call.expected call.now s.sqlite
  let right :=
    Postgres.updateStatus call.ident call.stepId call.status call.expected call.clock s.postgres
  ((left.1, right.1), ⟨left.2, right.2⟩)

abbrev Step := Event Stores Call Answers

/-- The version and the document of a plan, and its history without the times. -/
def view (s : PlanStore) (ident : String) : Option (Nat × Plan) × List (Nat × String × Plan) :=
  ((s.plans.find ident).map (fun row => (row.version, row.plan)),
    (s.historyOf ident).map (fun entry => (entry.version, entry.reason, entry.plan)))

def SameView (s : Stores) : Prop := ∀ ident, view s.sqlite ident = view s.postgres ident

/-- Both return the same plan at the same version, or both refuse. -/
def SameAnswer : Answers → Prop
  | (.ok row, .ok row') => row.id = row'.id ∧ row.version = row'.version ∧ row.plan = row'.plan
  | (.error _, .error _) => True
  | _ => False

theorem isOk_of_sameAnswer {answers : Answers} (same : SameAnswer answers) :
    answers.1.isOk = answers.2.isOk := by
  obtain ⟨left, right⟩ := answers
  cases left with
  | ok row =>
    cases right with
    | ok row' => rfl
    | error e => exact same.elim
  | error e =>
    cases right with
    | ok row' => exact same.elim
    | error e' => rfl

structure Agrees (e : Step) : Prop where
  answer : SameAnswer e.answer
  view : SameView e.after

/-- SQLite allows and makes the change, as long as another version fits; else it refuses. -/
structure SetsAlike (row : PlanRow) (selected : PlanStep) (status : StepStatus) : Prop where
  writes : (row.version : Int) < maxInteger →
    Allowed row.plan selected status.text ∧ status ≠ selected.status
  full : ¬ (row.version : Int) < maxInteger → ¬ Allowed row.plan selected status.text

/-- A call for the current version, a step and one of the four statuses sets it alike. -/
def Meets (e : Step) : Prop :=
  ∀ row selected status, e.before.sqlite.plans.find e.action.ident = some row →
    (row.version : Int) = e.action.expected → row.plan.step? e.action.stepId = some selected →
    StepStatus.parse e.action.status = some status → SetsAlike row selected status

/-- Stores with the same plans, which PostgreSQL can hold. -/
structure Twins (s : Stores) : Prop where
  sqlite : Consistent s.sqlite
  postgres : Consistent s.postgres
  same : SameView s
  stores : ∀ row ∈ s.postgres.plans, Postgres.storesPlan row.plan = true
  fits : ∀ row ∈ s.postgres.plans, (row.version : Int) ≤ maxInteger

theorem storesText_append (first second : String) :
    storesText (first ++ second) = (storesText first && storesText second) := by
  unfold storesText
  cases held : first.toList.contains (Char.ofNat 0) <;> simp_all

theorem storesText_status (status : StepStatus) : storesText status.text = true := by
  cases status <;> decide

variable {stepId ident : String} {plan : Plan} {selected : PlanStep} {row : PlanRow} {s : Stores}

theorem storesText_reason (status : StepStatus) (stored : storesText stepId = true) :
    storesText (statusReason stepId status.text) = true := by
  have opening : storesText "status " = true := by decide
  have arrow : storesText " -> " = true := by decide
  simp only [statusReason, storesText_append, stored, storesText_status, opening, arrow, Bool.and_self]

theorem storesPlan_planWith (plan : Plan) (stepId : String) (status : StepStatus) :
    Postgres.storesPlan (planWith plan stepId status) = Postgres.storesPlan plan := by
  have same : ∀ step, (storesText (stepWith stepId status step).id &&
      storesText (stepWith stepId status step).description &&
        (stepWith stepId status step).dependsOn.all storesText) =
      (storesText step.id && storesText step.description && step.dependsOn.all storesText) := by
    intro step
    unfold stepWith
    split <;> rfl
  simp only [Postgres.storesPlan, planWith, stepsWith, all_map, Function.comp_def, same]

theorem storesText_step (stores : Postgres.storesPlan plan = true)
    (found : plan.step? stepId = some selected) : storesText stepId = true := by
  obtain ⟨mem, rfl⟩ := step_mem found
  simp only [Postgres.storesPlan, Bool.and_eq_true, all_eq_true] at stores
  exact (stores.2 selected mem).1.1

section Sqlite

variable {s : PlanStore} {ident stepId text : String} {expected : Int} {now : Instant}

theorem sqlite_moved (consistent : Consistent s) {row : PlanRow} {plan : Plan}
    (found : s.plans.find row.id = some row) (small : (row.version : Int) ≤ maxInteger)
    (moved : SQLite.checkStatus row stepId text row.version = .ok (some plan)) :
    SQLite.updateStatus row.id stepId text row.version now s =
      (.ok (row.replaced plan now), advanced s row plan (statusReason stepId text) now) := by
  have bounds : SQLite.checkBound row.version = .ok () ∧
      SQLite.checkBound ((row.version : Int) + 1) = .ok () := by
    have limit : maxInteger < SQLite.maxBound := by decide
    constructor <;> exact if_pos ⟨by omega, by omega⟩
  rw [sqlite_replaces found moved]
  exact replace_done found (replaceWith_done consistent bounds.1 bounds.2 found)

end Sqlite

section Postgres

variable {s : PlanStore} {ident stepId text : String} {expected : Int} {now : Instant}

theorem postgres_absent (absent : s.plans.find ident = none) :
    Postgres.updateStatus ident stepId text expected now s = (.error (.keyError ident), s) :=
  Txn.run_bind_error (get_absent absent)

theorem postgres_refused {e : PlanExc} (found : s.plans.find ident = some row)
    (refused : row.plan.withStatus stepId text = .error e) :
    Postgres.updateStatus ident stepId text expected now s = (.error e, s) := by
  unfold Postgres.updateStatus
  rw [Txn.run_bind_ok (get_found found), refused]
  exact Txn.run_bind_error rfl

theorem postgres_replaces (found : s.plans.find ident = some row)
    (built : row.plan.withStatus stepId text = .ok plan) :
    Postgres.updateStatus ident stepId text expected now s =
      (do Postgres.replaceRow ident plan expected (statusReason stepId text) now; Plans.get ident) s := by
  unfold Postgres.updateStatus
  rw [Txn.run_bind_ok (get_found found), built, Txn.run_bind_ok (Txn.run_ofExcept _ _)]
  unfold Postgres.replace
  rw [Txn.run_bind_ok (checkReason_status stepId text s)]

theorem postgres_stale {row : PlanRow} (found : s.plans.find ident = some row)
    (stale : (row.version : Int) ≠ expected) :
    ∃ e, Postgres.updateStatus ident stepId text expected now s = (.error e, s) := by
  cases built : row.plan.withStatus stepId text with
  | error e => exact ⟨e, postgres_refused found built⟩
  | ok plan =>
    rw [postgres_replaces found built]
    cases stores : Postgres.checkPlan plan with
    | error e => exact ⟨e, Txn.run_bind_error (replaceWith_unstorable stores)⟩
    | ok => exact ⟨_, Txn.run_bind_error (replaceWith_stale stores found stale)⟩

variable {selected : PlanStep} {status : StepStatus} {row : PlanRow}

theorem checkPlan_planWith (stores : Postgres.storesPlan row.plan = true) (stepId : String)
    (status : StepStatus) : Postgres.checkPlan (planWith row.plan stepId status) = .ok () := by
  unfold Postgres.checkPlan
  rw [storesPlan_planWith, if_pos stores]

theorem postgres_done (consistent : Consistent s) (found : s.plans.find row.id = some row)
    (stores : Postgres.storesPlan row.plan = true) (there : row.plan.step? stepId = some selected)
    (parsed : StepStatus.parse text = some status) (small : (row.version : Int) < maxInteger) :
    Postgres.updateStatus row.id stepId text row.version now s =
      (.ok (row.replaced (planWith row.plan stepId status) now),
        advanced s row (planWith row.plan stepId status) (statusReason stepId text) now) := by
  have reason : storesText (statusReason stepId text) = true := by
    rw [← StepStatus.text_of_parse parsed]
    exact storesText_reason status (storesText_step stores there)
  have fit : Postgres.checkHistory ((row.version : Int) + 1) (statusReason stepId text) = .ok () :=
    if_pos ⟨by omega, reason⟩
  rw [postgres_replaces found (withStatus_parsed there parsed)]
  exact replace_done found (replaceWith_done consistent (checkPlan_planWith stores stepId status) fit found)

theorem postgres_full (found : s.plans.find row.id = some row)
    (stores : Postgres.storesPlan row.plan = true) (there : row.plan.step? stepId = some selected)
    (parsed : StepStatus.parse text = some status) (full : ¬ (row.version : Int) < maxInteger) :
    Postgres.updateStatus row.id stepId text row.version now s =
      (.error (.database PgJobs.outOfRange), s) := by
  have unfit : Postgres.checkHistory ((row.version : Int) + 1) (statusReason stepId text) =
      .error (.database PgJobs.outOfRange) := if_neg (fun fits => by omega)
  rw [postgres_replaces found (withStatus_parsed there parsed)]
  exact Txn.run_bind_error (replaceWith_unfit (checkPlan_planWith stores stepId status) found unfit)

end Postgres

theorem view_consistent {s : PlanStore} (consistent : Consistent s) (ident : String) :
    view s ident = ((s.plans.find ident).map (fun row => (row.version, row.plan)),
      (rowsOf s ident).map (fun entry => (entry.version, entry.reason, entry.plan))) := by
  rw [view, historyOf_consistent consistent]

theorem view_advanced {s : PlanStore} (consistent : Consistent s)
    (found : s.plans.find row.id = some row) (plan : Plan) (reason : String) (now : Instant)
    (ident : String) :
    view (advanced s row plan reason now) ident =
      if ident = row.id then (some (row.version + 1, plan),
        (view s ident).2 ++ [(row.version + 1, reason, plan)]) else view s ident := by
  rw [view_consistent (advanced_consistent consistent found plan reason now),
    view_consistent consistent, find_advanced found, rowsOf_advanced consistent found]
  by_cases here : ident = row.id
  · rw [if_pos here, if_pos here, if_pos here.symm, map_append]
    rfl
  · rw [if_neg here, if_neg here, if_neg (Ne.symm here), append_nil]

section Twins

variable {s : Stores} (twins : Twins s)

include twins

theorem find_twins (ident : String) :
    (s.sqlite.plans.find ident).map (fun row => (row.version, row.plan)) =
      (s.postgres.plans.find ident).map (fun row => (row.version, row.plan)) :=
  congrArg Prod.fst (twins.same ident)

theorem absent_twins (absent : s.sqlite.plans.find ident = none) :
    s.postgres.plans.find ident = none := by
  have same := find_twins twins ident
  rw [absent] at same
  exact Option.map_eq_none_iff.mp same.symm

theorem found_twins (found : s.sqlite.plans.find ident = some row) :
    ∃ row', s.postgres.plans.find ident = some row' ∧ row'.version = row.version ∧
      row'.plan = row.plan := by
  have same := find_twins twins ident
  rw [found] at same
  obtain ⟨row', found', pair⟩ := Option.map_eq_some_iff.mp same.symm
  exact ⟨row', found', (Prod.mk.inj pair).1, (Prod.mk.inj pair).2⟩

theorem advanced_twins {row' : PlanRow} (found : s.sqlite.plans.find row.id = some row)
    (found' : s.postgres.plans.find row'.id = some row') (ids : row'.id = row.id)
    (versions : row'.version = row.version) (stores : Postgres.storesPlan plan = true)
    (small : (row.version : Int) < maxInteger) (reason : String) (now clock : Instant) :
    Twins ⟨advanced s.sqlite row plan reason now, advanced s.postgres row' plan reason clock⟩ := by
  have kept : ∀ entry ∈ (advanced s.postgres row' plan reason clock).plans,
      entry = row'.replaced plan clock ∨ entry ∈ s.postgres.plans := by
    intro entry mem
    have stored := find_of_mem mem
    rw [find_advanced found'] at stored
    split at stored
    next => exact .inl (Option.some.inj stored).symm
    next => exact .inr (mem_of_find stored)
  refine ⟨advanced_consistent twins.sqlite found plan reason now,
    advanced_consistent twins.postgres found' plan reason clock, ?_, ?_, ?_⟩
  · intro ident
    rw [view_advanced twins.sqlite found, view_advanced twins.postgres found', ids, versions,
      twins.same ident]
  · intro entry mem
    rcases kept entry mem with new | old
    · rw [new]
      exact stores
    · exact twins.stores entry old
  · intro entry mem
    rcases kept entry mem with new | old
    · rw [new]
      show ((row'.version + 1 : Nat) : Int) ≤ maxInteger
      omega
    · exact twins.fits entry old

end Twins

/-- At the current version PostgreSQL sets any step to any status, if the next one fits. -/
theorem postgres_sets (twins : Twins s) {text : String} {status : StepStatus}
    (found : s.postgres.plans.find ident = some row) (there : row.plan.step? stepId = some selected)
    (parsed : StepStatus.parse text = some status) (clock : Instant) :
    (¬ (row.version : Int) < maxInteger ∧
        ∃ e, Postgres.updateStatus ident stepId text row.version clock s.postgres =
          (.error e, s.postgres)) ∨
      ((row.version : Int) < maxInteger ∧
        Postgres.updateStatus ident stepId text row.version clock s.postgres =
          (.ok (row.replaced (planWith row.plan stepId status) clock),
            advanced s.postgres row (planWith row.plan stepId status) (statusReason stepId text) clock)) := by
  obtain rfl := key_of_find found
  have stores := twins.stores row (mem_of_find found)
  by_cases small : (row.version : Int) < maxInteger
  · exact .inr ⟨small, postgres_done twins.postgres found stores there parsed small⟩
  · exact .inl ⟨small, _, postgres_full found stores there parsed small⟩

def eventOf (s : Stores) (call : Call) : Step := ⟨s, call, (step s call).1, (step s call).2⟩

/-- The stores agree on a call and go on agreeing, or they part and the condition excludes it. -/
def Dichotomy (s : Stores) (call : Call) : Prop :=
  (Twins (step s call).2 ∧ Agrees (eventOf s call) ∧ Meets (eventOf s call)) ∨
    (¬ Agrees (eventOf s call) ∧ ¬ Meets (eventOf s call))

section Dichotomies

variable {s : Stores} {call : Call} {a b : Except PlanExc PlanRow} {t u : PlanStore}

theorem together
    (left : SQLite.updateStatus call.ident call.stepId call.status call.expected call.now s.sqlite = (a, t))
    (right : Postgres.updateStatus call.ident call.stepId call.status call.expected call.clock
      s.postgres = (b, u)) (answers : SameAnswer (a, b)) (twins : Twins ⟨t, u⟩)
    (meets : Meets (eventOf s call)) : Dichotomy s call := by
  have run : step s call = ((a, b), ⟨t, u⟩) := by rw [step, left, right]
  refine .inl ⟨by rw [run]; exact twins, ?_, meets⟩
  rw [eventOf, run]
  exact ⟨answers, twins.same⟩

theorem apart
    (left : SQLite.updateStatus call.ident call.stepId call.status call.expected call.now s.sqlite = (a, t))
    (right : Postgres.updateStatus call.ident call.stepId call.status call.expected call.clock
      s.postgres = (b, u)) (differ : ¬ SameAnswer (a, b)) (excluded : ¬ Meets (eventOf s call)) :
    Dichotomy s call := by
  have run : step s call = ((a, b), ⟨t, u⟩) := by rw [step, left, right]
  refine .inr ⟨fun agrees => ?_, excluded⟩
  rw [eventOf, run] at agrees
  exact differ agrees.answer

/-- Where the row, the step and the status are known, the condition is about these. -/
theorem meets_iff {status : StepStatus} (found : s.sqlite.plans.find call.ident = some row)
    (same : (row.version : Int) = call.expected)
    (there : row.plan.step? call.stepId = some selected)
    (parsed : StepStatus.parse call.status = some status) :
    Meets (eventOf s call) ↔ SetsAlike row selected status := by
  constructor
  · intro meets
    exact meets row selected status found same there parsed
  · intro alike row₁ selected₁ status₁ found₁ same₁ there₁ parsed₁
    simp only [eventOf] at found₁ there₁ parsed₁
    rw [found] at found₁
    cases found₁
    rw [there] at there₁
    cases there₁
    rw [parsed] at parsed₁
    cases parsed₁
    exact alike

/-- A call that names no step of the plan at its version, or no status, is refused by both. -/
theorem refused_dichotomy (twins : Twins s) {e e' : PlanExc}
    (left : SQLite.updateStatus call.ident call.stepId call.status call.expected call.now s.sqlite =
      (.error e, s.sqlite))
    (right : Postgres.updateStatus call.ident call.stepId call.status call.expected call.clock
      s.postgres = (.error e', s.postgres))
    (found : s.sqlite.plans.find call.ident = some row)
    (idle : ∀ selected status, (row.version : Int) = call.expected →
      row.plan.step? call.stepId = some selected → StepStatus.parse call.status = some status → False) :
    Dichotomy s call := by
  refine together left right trivial twins ?_
  intro other selected status there same known parsed
  simp only [eventOf] at there same known parsed
  rw [found] at there
  cases there
  exact (idle selected status same known parsed).elim

theorem step_dichotomy (twins : Twins s) (call : Call) : Dichotomy s call := by
  obtain ⟨ident, stepId, text, expected, now, clock⟩ := call
  cases found : s.sqlite.plans.find ident with
  | none =>
    refine together (sqlite_absent found) (postgres_absent (absent_twins twins found)) trivial twins ?_
    intro row selected status there
    simp only [eventOf] at there
    rw [found] at there
    cases there
  | some row =>
    obtain ⟨row', found', versions, plans⟩ := found_twins twins found
    obtain rfl := key_of_find found
    have checked := checkStatus_checked row stepId text expected
    generalize result : SQLite.checkStatus row stepId text expected = outcome at checked
    cases checked with
    | stale e differs =>
      have differs' : (row'.version : Int) ≠ expected := by rw [versions]; exact differs
      obtain ⟨e', right⟩ := @postgres_stale _ _ stepId text _ clock _ found' differs'
      exact refused_dichotomy twins (sqlite_refused found result) right found
        (fun selected status same => absurd same differs)
    | unknown e absent =>
      have built : row'.plan.withStatus stepId text = .error (.keyError stepId) := by
        rw [plans]
        exact withStatus_unknown absent
      refine refused_dichotomy twins (sqlite_refused found result) (postgres_refused found' built) found ?_
      intro selected status same known
      rw [absent] at known
      cases known
    | forbidden e selected same there refused =>
      subst same
      have there' : row'.plan.step? stepId = some selected := by rw [plans]; exact there
      cases parsed : StepStatus.parse text with
      | none =>
        obtain ⟨e', built⟩ := withStatus_unparsed there' parsed
        refine refused_dichotomy twins (sqlite_refused found result) (postgres_refused found' built)
          found ?_
        intro _ status _ _ known
        rw [parsed] at known
        cases known
      | some status =>
        obtain rfl := StepStatus.text_of_parse parsed
        have sets := postgres_sets twins found' there' parsed clock
        rw [versions] at sets
        obtain ⟨full, e', right⟩ | ⟨small, right⟩ := sets
        · exact together (sqlite_refused found result) right trivial twins
            ((meets_iff found rfl there parsed).mpr ⟨fun small => absurd small full, fun _ => refused⟩)
        · refine apart (sqlite_refused found result) right id ?_
          rw [meets_iff found rfl there parsed]
          exact fun alike => refused (alike.writes small).1
    | unchanged selected same there allowed kept =>
      subst same
      subst kept
      have there' : row'.plan.step? stepId = some selected := by rw [plans]; exact there
      have parsed := StepStatus.parse_text selected.status
      have sets := postgres_sets twins found' there' parsed clock
      rw [versions] at sets
      obtain ⟨full, e', right⟩ | ⟨small, right⟩ := sets
      · refine apart (sqlite_unchanged found result) right id ?_
        rw [meets_iff found rfl there parsed]
        exact fun alike => alike.full full allowed
      · refine apart (sqlite_unchanged found result) right ?_ ?_
        · rintro ⟨-, same, -⟩
          change row.version = row'.version + 1 at same
          omega
        · rw [meets_iff found rfl there parsed]
          exact fun alike => (alike.writes small).2 rfl
    | moved selected status same there allowed parsed changes =>
      subst same
      obtain rfl := StepStatus.text_of_parse parsed
      have there' : row'.plan.step? stepId = some selected := by rw [plans]; exact there
      have stores := twins.stores row' (mem_of_find found')
      have fits := twins.fits row' (mem_of_find found')
      rw [versions] at fits
      have left := @sqlite_moved s.sqlite stepId status.text now twins.sqlite row _ found fits result
      have sets := postgres_sets twins found' there' parsed clock
      rw [versions, plans] at sets
      obtain ⟨full, e', right⟩ | ⟨small, right⟩ := sets
      · refine apart left right id ?_
        rw [meets_iff found rfl there parsed]
        exact fun alike => alike.full full allowed
      · have ids := key_of_find found'
        rw [← ids] at found'
        rw [plans, ← storesPlan_planWith row.plan stepId status] at stores
        refine together left right ⟨ids.symm, ?_, rfl⟩
          (advanced_twins twins found found' ids versions stores small _ now clock)
          ((meets_iff found rfl there parsed).mpr
            ⟨fun _ => ⟨allowed, changes⟩, fun full => absurd small full⟩)
        show row.version + 1 = row'.version + 1
        rw [versions]

end Dichotomies

theorem agrees_iff_from (twins : Twins s) (run : List Call) :
    (∀ e ∈ history step s run, Agrees e) ↔ ∀ e ∈ history step s run, Meets e := by
  induction run generalizing s with
  | nil => exact iff_of_true (fun _ mem => by cases mem) (fun _ mem => by cases mem)
  | cons call rest ih =>
    simp only [history_cons, forall_mem_cons]
    rcases step_dichotomy twins call with ⟨next, agrees, meets⟩ | ⟨parts, excluded⟩
    · have later := ih next
      exact ⟨fun all => ⟨meets, later.mp all.2⟩, fun all => ⟨agrees, later.mpr all.2⟩⟩
    · exact ⟨fun all => absurd all.1 parts, fun all => absurd all.1 excluded⟩

/-- Two stores that hold the same plans. -/
structure StoredTwice where
  stores : Stores
  twins : Twins stores

/-- The stores agree on every call of a run exactly when every call meets the condition. -/
theorem plan_stores_agree_iff (stored : StoredTwice) (run : List Call) :
    (∀ e ∈ history step stored.stores run, Agrees e) ↔
      ∀ e ∈ history step stored.stores run, Meets e :=
  agrees_iff_from stored.twins run

theorem empty_twins : Twins ⟨PlanStore.empty, PlanStore.empty⟩ where
  sqlite := empty_consistent
  postgres := empty_consistent
  same _ := rfl
  stores _ mem := by cases mem
  fits _ mem := by cases mem

theorem created_twins (twins : Twins s) (fresh : s.sqlite.plans.find ident = none)
    (stores : Postgres.storesPlan plan = true) (now clock : Instant) :
    Twins ⟨created s.sqlite ident plan now, created s.postgres ident plan clock⟩ := by
  have fresh' := absent_twins twins fresh
  have kept : ∀ entry ∈ (created s.postgres ident plan clock).plans,
      entry = ⟨ident, plan.goal, 1, plan, clock, clock⟩ ∨ entry ∈ s.postgres.plans := by
    intro entry mem
    have stored := find_of_mem mem
    rw [find_created fresh'] at stored
    split at stored
    next => exact .inl (Option.some.inj stored).symm
    next => exact .inr (mem_of_find stored)
  refine ⟨created_consistent twins.sqlite fresh plan now,
    created_consistent twins.postgres fresh' plan clock, ?_, ?_, ?_⟩
  · intro other
    have same := twins.same other
    rw [view_consistent twins.sqlite, view_consistent twins.postgres] at same
    rw [view_consistent (created_consistent twins.sqlite fresh plan now),
      view_consistent (created_consistent twins.postgres fresh' plan clock), find_created fresh,
      find_created fresh', rowsOf_created twins.sqlite fresh, rowsOf_created twins.postgres fresh']
    obtain ⟨plans, histories⟩ := Prod.mk.inj same
    by_cases here : ident = other
    · simp only [if_pos here, map_append, histories]
      rfl
    · simp only [if_neg here, append_nil, plans, histories]
  · intro entry mem
    rcases kept entry mem with new | old
    · rw [new]
      exact stores
    · exact twins.stores entry old
  · intro entry mem
    rcases kept entry mem with new | old
    · rw [new]
      show (1 : Int) ≤ maxInteger
      decide
    · exact twins.fits entry old

/-- The tests wait for the build. -/
def ship : Plan :=
  ⟨"ship", [⟨"build", "build", [], .pending⟩, ⟨"test", "test", ["build"], .pending⟩], by decide +kernel⟩

def shipped : StoredTwice :=
  ⟨⟨created PlanStore.empty "p" ship 0, created PlanStore.empty "p" ship 0⟩,
    created_twins empty_twins rfl (by decide +kernel) 0 0⟩

/-- PostgreSQL marks the tests done before the build. -/
theorem early_tests_part :
    ¬ ∀ (stored : StoredTwice) (run : List Call),
      ∀ e ∈ history step stored.stores run, Agrees e := by
  intro agree
  have agrees := agree shipped [⟨"p", "test", "done", 1, 1, 1⟩] _ mem_cons_self
  have accepted := isOk_of_sameAnswer agrees.answer
  revert accepted
  decide +kernel

end Meemee.Guarantees.PlanBackends
