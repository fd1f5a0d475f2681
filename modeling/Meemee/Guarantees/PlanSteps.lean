import Meemee.Source.Plans

/-!
# A plan with one status replaced

Replacing a status leaves the graph of a plan alone, so the plan stays valid. Both stores
build the new plan so; they differ in what they refuse before.
-/
namespace Meemee.Guarantees.PlanSteps
open Library Source.Plans List

def stepWith (stepId : String) (status : StepStatus) (step : PlanStep) : PlanStep :=
  if step.id = stepId then { step with status } else step

def stepsWith (stepId : String) (status : StepStatus) (steps : List PlanStep) : List PlanStep :=
  steps.map (stepWith stepId status)

theorem stepWith_id (stepId : String) (status : StepStatus) (step : PlanStep) :
    (stepWith stepId status step).id = step.id := by
  unfold stepWith
  split <;> rfl

theorem stepWith_dependsOn (stepId : String) (status : StepStatus) (step : PlanStep) :
    (stepWith stepId status step).dependsOn = step.dependsOn := by
  unfold stepWith
  split <;> rfl

theorem ids_stepsWith (stepId : String) (status : StepStatus) (steps : List PlanStep) :
    (stepsWith stepId status steps).map (fun step => step.id) = steps.map (fun step => step.id) := by
  rw [stepsWith, map_map]
  exact map_congr_left (fun step _ => stepWith_id stepId status step)

theorem find_stepsWith (stepId : String) (status : StepStatus) (steps : List PlanStep) (node : String) :
    (stepsWith stepId status steps).find? (fun step => decide (step.id = node)) =
      (steps.find? (fun step => decide (step.id = node))).map (stepWith stepId status) := by
  have same : (fun step => decide (step.id = node)) ∘ stepWith stepId status =
      (fun step => decide (step.id = node)) := by
    funext step
    simp only [Function.comp_apply, stepWith_id]
  rw [stepsWith, List.find?_map, same]

theorem dependencies_stepsWith (stepId : String) (status : StepStatus) (steps : List PlanStep)
    (node : String) : dependencies (stepsWith stepId status steps) node = dependencies steps node := by
  unfold dependencies
  rw [find_stepsWith, Option.map_map]
  have same : (fun step => step.dependsOn) ∘ stepWith stepId status = (fun step => step.dependsOn) :=
    funext (stepWith_dependsOn stepId status)
  rw [same]

variable {steps : List PlanStep} {stepId text : String} {selected : PlanStep} {plan : Plan}

theorem visit_congr {others : List PlanStep}
    (same : ∀ node, dependencies others node = dependencies steps node) (depth : Nat)
    (visiting visited : List String) (node : String) :
    visit others depth visiting visited node = visit steps depth visiting visited node := by
  induction depth generalizing visiting visited node with
  | zero => rfl
  | succ depth ih => simp only [visit, same, ih]

theorem forM_stepsWith (ids : List String) (stepId : String) (status : StepStatus)
    (steps : List PlanStep) :
    (stepsWith stepId status steps).forM (checkStep ids) = steps.forM (checkStep ids) := by
  unfold stepsWith
  induction steps with
  | nil => rfl
  | cons step rest ih =>
    have same : checkStep ids (stepWith stepId status step) = checkStep ids step := by
      unfold checkStep
      rw [stepWith_id, stepWith_dependsOn]
    show (checkStep ids (stepWith stepId status step) >>= fun _ => (rest.map _).forM _) =
      (checkStep ids step >>= fun _ => rest.forM _)
    rw [same, ih]

theorem validGraph_stepsWith (stepId : String) (status : StepStatus) (steps : List PlanStep) :
    validGraph (stepsWith stepId status steps) = validGraph steps := by
  have length : (stepsWith stepId status steps).length = steps.length := length_map _
  have visits := visit_congr (dependencies_stepsWith stepId status steps)
  unfold validGraph
  simp only [ids_stepsWith, forM_stepsWith, visits, length]

/-- The plan after `update_status`. -/
def planWith (plan : Plan) (stepId : String) (status : StepStatus) : Plan :=
  ⟨plan.goal, stepsWith stepId status plan.steps,
    (validGraph_stepsWith stepId status plan.steps).trans plan.valid⟩

theorem make_valid {goal : String} (valid : validGraph steps = .ok ()) :
    Plan.make goal steps = .ok ⟨goal, steps, valid⟩ := by
  unfold Plan.make
  split
  next => rfl
  next e raised =>
    rw [valid] at raised
    cases raised

theorem setStatus_parsed {status : StepStatus} (parsed : StepStatus.parse text = some status)
    (steps : List PlanStep) :
    setStatus stepId text steps = .ok (stepsWith stepId status steps) := by
  unfold setStatus stepsWith
  induction steps with
  | nil => rfl
  | cons step rest ih =>
    rw [mapM_cons, ih]
    by_cases chosen : step.id = stepId
    · simp only [chosen, parsed, if_true, map_cons, stepWith]
      rfl
    · simp only [chosen, if_false, map_cons, stepWith]
      rfl

theorem setStatus_unknown (unknown : ∀ step ∈ steps, step.id ≠ stepId) :
    setStatus stepId text steps = .ok steps := by
  unfold setStatus
  induction steps with
  | nil => rfl
  | cons step rest ih =>
    rw [mapM_cons, ih (fun other mem => unknown other (mem_cons_of_mem _ mem)),
      if_neg (unknown step mem_cons_self)]
    rfl

theorem setStatus_unparsed (unparsed : StepStatus.parse text = none) (stored : selected ∈ steps)
    (chosen : selected.id = stepId) : ∃ e, setStatus stepId text steps = .error e := by
  unfold setStatus
  induction steps with
  | nil => cases stored
  | cons step rest ih =>
    rw [mapM_cons]
    by_cases here : step.id = stepId
    · simp only [here, unparsed, if_true]
      exact ⟨_, rfl⟩
    · rcases mem_cons.mp stored with same | later
      · exact absurd (same ▸ chosen) here
      · obtain ⟨e, raised⟩ := ih later
        simp only [here, if_false, raised]
        exact ⟨e, rfl⟩

theorem step_mem (found : plan.step? stepId = some selected) :
    selected ∈ plan.steps ∧ selected.id = stepId :=
  ⟨mem_of_find?_eq_some found, by simpa using List.find?_some found⟩

theorem step_absent (absent : plan.step? stepId = none) :
    ∀ step ∈ plan.steps, step.id ≠ stepId := by
  intro step mem same
  exact absurd (List.find?_eq_none.mp absent step mem) (by simp [same])

theorem withStatus_unknown (absent : plan.step? stepId = none) :
    plan.withStatus stepId text = .error (.keyError stepId) := by
  have unknown := step_absent absent
  have missing : plan.steps.any (fun step => decide (step.id = stepId)) = false := by
    simpa using unknown
  unfold Plan.withStatus
  rw [setStatus_unknown unknown, missing]
  rfl

theorem withStatus_unparsed (found : plan.step? stepId = some selected)
    (unparsed : StepStatus.parse text = none) : ∃ e, plan.withStatus stepId text = .error e := by
  obtain ⟨stored, chosen⟩ := step_mem found
  obtain ⟨e, raised⟩ := setStatus_unparsed unparsed stored chosen
  unfold Plan.withStatus
  rw [raised]
  exact ⟨e, rfl⟩

theorem withStatus_parsed {status : StepStatus} (found : plan.step? stepId = some selected)
    (parsed : StepStatus.parse text = some status) :
    plan.withStatus stepId text = .ok (planWith plan stepId status) := by
  obtain ⟨stored, chosen⟩ := step_mem found
  have present : plan.steps.any (fun step => decide (step.id = stepId)) = true :=
    any_eq_true.mpr ⟨selected, stored, by simpa using chosen⟩
  unfold Plan.withStatus
  rw [setStatus_parsed parsed, present]
  exact make_valid ((validGraph_stepsWith stepId status plan.steps).trans plan.valid)

/-- The table of transitions has the status, and no dependency stands in its way. -/
structure Allowed (plan : Plan) (selected : PlanStep) (text : String) : Prop where
  transition : text ∈ SQLite.transitions selected.status
  complete : SQLite.incomplete plan selected text = []

theorem parse_transition {old : StepStatus} (listed : text ∈ SQLite.transitions old) :
    ∃ status, StepStatus.parse text = some status := by
  have known : text ∈ ["pending", "running", "done", "failed"] := by
    cases old <;> simp only [SQLite.transitions, mem_cons, not_mem_nil, or_false] at listed ⊢
    all_goals grind
  simp only [mem_cons, not_mem_nil, or_false] at known
  rcases known with rfl | rfl | rfl | rfl
  · exact ⟨.pending, rfl⟩
  · exact ⟨.running, rfl⟩
  · exact ⟨.done, rfl⟩
  · exact ⟨.failed, rfl⟩

/-- What `update_status` makes of the row it read, by what it checks. -/
inductive Checked (current : PlanRow) (stepId text : String) (expected : Int) :
    Except PlanExc (Option Plan) → Prop
  | stale (e : PlanExc) (differs : (current.version : Int) ≠ expected) :
      Checked current stepId text expected (.error e)
  | unknown (e : PlanExc) (absent : current.plan.step? stepId = none) :
      Checked current stepId text expected (.error e)
  | forbidden (e : PlanExc) (selected : PlanStep) (same : (current.version : Int) = expected)
      (found : current.plan.step? stepId = some selected)
      (refused : ¬ Allowed current.plan selected text) :
      Checked current stepId text expected (.error e)
  | unchanged (selected : PlanStep) (same : (current.version : Int) = expected)
      (found : current.plan.step? stepId = some selected)
      (allowed : Allowed current.plan selected text) (kept : text = selected.status.text) :
      Checked current stepId text expected (.ok none)
  | moved (selected : PlanStep) (status : StepStatus) (same : (current.version : Int) = expected)
      (found : current.plan.step? stepId = some selected)
      (allowed : Allowed current.plan selected text) (parsed : StepStatus.parse text = some status)
      (changes : status ≠ selected.status) :
      Checked current stepId text expected (.ok (some (planWith current.plan stepId status)))

theorem checkStatus_checked (current : PlanRow) (stepId text : String) (expected : Int) :
    Checked current stepId text expected (SQLite.checkStatus current stepId text expected) := by
  unfold SQLite.checkStatus
  split
  next differs => exact .stale _ differs
  next same =>
    rw [not_not] at same
    cases found : current.plan.step? stepId with
    | none => exact .unknown _ found
    | some selected =>
      simp only
      split
      next outside => exact .forbidden _ selected same found (fun allowed => outside allowed.transition)
      next listed =>
        rw [not_not] at listed
        split
        next blocked => exact .forbidden _ selected same found (fun allowed => blocked allowed.complete)
        next complete =>
          rw [not_not] at complete
          have allowed : Allowed current.plan selected text := ⟨listed, complete⟩
          split
          next kept => exact .unchanged selected same found allowed kept
          next changes =>
            obtain ⟨status, parsed⟩ := parse_transition listed
            rw [withStatus_parsed found parsed]
            refine .moved selected status same found allowed parsed ?_
            intro equal
            rw [← equal] at changes
            exact changes (StepStatus.text_of_parse parsed).symm

end Meemee.Guarantees.PlanSteps
