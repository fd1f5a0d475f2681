import Meemee.Source.AgentLoop

/-!
# Gating of tool calls

A run is read off its trace: what each turn emits, and the report it may end with. The decisions,
the answers of the callback and the cancel flag at every check are arbitrary.
-/
namespace Meemee.Guarantees.AgentGating
open Library Source Source.Policy Source.AgentLoop List

/-- The callback's answer is true. -/
def granted (env : Env) (step : Nat) (name : String) (arguments : Arguments) (risk : Risk) : Bool :=
  match env.approve with
  | none => false
  | some approve =>
    match approve step name arguments risk with
    | .ok answer => answer
    | .error _ => false

/-- What policy and approval make of a call. -/
inductive Gate where
  | unknown
  | denied (risk : Risk) (reason : String)
  | unapproved (risk : Risk)
  | opened (risk : Risk)
  deriving DecidableEq, Repr

def gate (agent : Agent) (env : Env) (step : Nat) (name : String) (arguments : Arguments) : Gate :=
  match agent.tools name with
  | none => .unknown
  | some risk =>
    let verdict := agent.policy.evaluate agent.matching name arguments risk
    if verdict.allowed = false then .denied risk verdict.reason
    else if verdict.requireApproval ∧ granted env step name arguments risk = false then
      .unapproved risk
    else .opened risk

/-- The record of a call that the gate refuses. -/
def refusedIn (agent : Agent) (env : Env) : Effect → Option Refusal
  | .decided step (.toolCall name arguments) =>
    match gate agent env step name arguments with
    | .denied risk reason => some (refusal agent.redaction step name risk .policyDenied
        ("policy denied: " ++ reason) arguments)
    | .unapproved risk => some (refusal agent.redaction step name risk .approvalRequired
        ("approval denied for " ++ risk.value ++ " tool") arguments)
    | _ => none
  | _ => none

/-- A call that the gate lets through. -/
def openedIn (agent : Agent) (env : Env) : Effect → Option (Nat × String × Arguments)
  | .decided step (.toolCall name arguments) =>
    match gate agent env step name arguments with
    | .opened _ => some (step, name, arguments)
    | _ => none
  | _ => none

def executedIn : Effect → Option (Nat × String × Arguments)
  | .executed step name arguments => some (step, name, arguments)
  | _ => none

def isAsked : Effect → Bool
  | .asked _ => true
  | _ => false

def isRevised : Effect → Bool
  | .revised _ _ => true
  | _ => false

def isCancelled : Effect → Bool
  | .cancelled _ => true
  | _ => false

/-- Every call that was executed had been allowed by the policy, and approved if that was needed. -/
def Gated (agent : Agent) (trace : List Effect) : Prop :=
  ∀ before step name arguments after, trace = before ++ .executed step name arguments :: after →
    ∃ risk, agent.tools name = some risk ∧
      (agent.policy.evaluate agent.matching name arguments risk).allowed = true ∧
      ((agent.policy.evaluate agent.matching name arguments risk).requireApproval = false ∨
        .consulted step name arguments risk true ∈ before)

/-- What the trace says the callback answered, it answered. -/
def Faithful (env : Env) (trace : List Effect) : Prop :=
  ∀ step name arguments risk answer, .consulted step name arguments risk answer ∈ trace →
    ∃ approve, env.approve = some approve ∧ approve step name arguments risk = .ok answer

structure Sound (agent : Agent) (env : Env)
    (result : Except AgentExc (Option RunReport) × Loop) : Prop where
  gated : Gated agent result.2.trace
  faithful : Faithful env result.2.trace
  /-- The calls executed are exactly those that the gate lets through. -/
  executed : result.2.trace.filterMap executedIn = result.2.trace.filterMap (openedIn agent env)
  /-- The run raises or returns a report, and the report lists the refused calls. -/
  reported : ∀ ending, result.1 = .ok ending → ∃ report, ending = some report ∧
    report.approvalsRequired = result.2.trace.filterMap (refusedIn agent env)
  modelCalls : result.2.trace.countP isAsked ≤ agent.maxSteps.toNat
  revisions : result.2.trace.countP isRevised ≤ 3
  /-- Nothing follows the check that found the run cancelled. -/
  silent : ∀ before step after, result.2.trace = before ++ .cancelled step :: after → after = []

variable {agent : Agent} {trace new : List Effect} {env : Env} {s t : Loop} {calls more : Nat}

theorem gated_append (first : Gated agent trace) (second : Gated agent new) :
    Gated agent (trace ++ new) := by
  intro before step name arguments after split
  rcases append_eq_append_iff.mp split with ⟨rest, here, there⟩ | ⟨rest, here, there⟩
  · obtain ⟨risk, known, allowed, approved⟩ := second rest step name arguments after there
    refine ⟨risk, known, allowed, approved.imp_right ?_⟩
    intro mem
    rw [here]
    exact mem_append_right _ mem
  · cases rest with
    | nil =>
      obtain ⟨risk, known, allowed, approved⟩ := second [] step name arguments after there.symm
      refine ⟨risk, known, allowed, approved.imp_right ?_⟩
      intro mem
      cases mem
    | cons effect others =>
      obtain ⟨rfl, -⟩ := List.cons.inj there
      exact first before step name arguments others here

theorem faithful_append (first : Faithful env trace) (second : Faithful env new) :
    Faithful env (trace ++ new) := by
  intro step name arguments risk answer mem
  rcases mem_append.mp mem with old | fresh
  · exact first step name arguments risk answer old
  · exact second step name arguments risk answer fresh

theorem gated_idle (idle : trace.filterMap executedIn = []) : Gated agent trace := by
  intro before step name arguments after split
  rw [split] at idle
  simp [executedIn] at idle

/-- The effects that lead from a state of the loop to another, with so many model calls. -/
structure Emits (agent : Agent) (env : Env) (s t : Loop) (new : List Effect) (calls : Nat) : Prop where
  trace : t.trace = s.trace ++ new
  gated : Gated agent new
  faithful : Faithful env new
  executed : new.filterMap executedIn = new.filterMap (openedIn agent env)
  asked : new.countP isAsked ≤ calls
  revised : new.countP isRevised + min s.revisions 3 ≤ min t.revisions 3

theorem emits_trans {u : Loop} {first second : List Effect} (one : Emits agent env s t first calls)
    (two : Emits agent env t u second more) :
    Emits agent env s u (first ++ second) (calls + more) where
  trace := by rw [two.trace, one.trace, append_assoc]
  gated := gated_append one.gated two.gated
  faithful := faithful_append one.faithful two.faithful
  executed := by rw [filterMap_append, filterMap_append, one.executed, two.executed]
  asked := by
    rw [countP_append]
    exact Nat.add_le_add one.asked two.asked
  revised := by
    have left := one.revised
    have right := two.revised
    rw [countP_append]
    omega

/-- The report and the list of refusals, once a piece of a run is over. -/
structure Lists (agent : Agent) (env : Env) (s t : Loop) (new : List Effect)
    (result : Except AgentExc (Option RunReport)) : Prop where
  refusals : ∀ ending, result = .ok ending → t.refusals = s.refusals ++ new.filterMap (refusedIn agent env)
  reported : ∀ report, result = .ok (some report) → report.approvalsRequired = t.refusals
  /-- A check that found the run cancelled ends it. -/
  ended : result = .ok none → new.countP isCancelled = 0
  silent : ∀ before step after, new = before ++ .cancelled step :: after → after = []

theorem gated_decided (step : Nat) (decision : Decision) :
    Gated agent [.decided step decision] := gated_idle rfl

theorem faithful_decided (step : Nat) (decision : Decision) :
    Faithful env [.decided step decision] := by
  intro _ _ _ _ _ mem
  cases mem_singleton.mp mem

/-- Of a call: the callback's answer and the execution. -/
def ofCall : Effect → Bool
  | .consulted _ _ _ _ _ | .executed _ _ _ => true
  | _ => false

/-- What `attempt` does to the loop. -/
structure Attempted (agent : Agent) (env : Env) (decided : Effect) (s t : Loop)
    (result : Except AgentExc Json) (new : List Effect) : Prop where
  trace : t.trace = s.trace ++ new
  revisions : t.revisions = s.revisions
  gated : Gated agent new
  faithful : Faithful env new
  executed : new.filterMap executedIn = (openedIn agent env decided).toList
  calls : ∀ e ∈ new, ofCall e = true
  refusals : ∀ json, result = .ok json →
    t.refusals = s.refusals ++ (refusedIn agent env decided).toList

section Attempt

variable {agent : Agent} {env : Env} {step : Nat} {name : String} {arguments : Arguments} {risk : Risk}

theorem gated_nil : Gated agent [] := gated_idle rfl

theorem faithful_nil : Faithful env [] := by
  intro _ _ _ _ _ mem
  cases mem

theorem gated_consulted (answer : Bool) :
    Gated agent [.consulted step name arguments risk answer] := gated_idle rfl

theorem faithful_consulted {approve : Nat → String → Arguments → Risk → Except AgentExc Bool}
    {answer : Bool} (given : env.approve = some approve)
    (answered : approve step name arguments risk = .ok answer) :
    Faithful env [.consulted step name arguments risk answer] := by
  intro _ _ _ _ _ mem
  cases mem_singleton.mp mem
  exact ⟨approve, given, answered⟩

theorem faithful_executed : Faithful env [.executed step name arguments] := by
  intro _ _ _ _ _ mem
  cases mem_singleton.mp mem

theorem gated_executed {before : List Effect} (idle : before.filterMap executedIn = [])
    (known : agent.tools name = some risk)
    (allowed : (agent.policy.evaluate agent.matching name arguments risk).allowed = true)
    (approved : (agent.policy.evaluate agent.matching name arguments risk).requireApproval = false ∨
      .consulted step name arguments risk true ∈ before) :
    Gated agent (before ++ [.executed step name arguments]) := by
  intro front at_ other given after split
  rcases append_eq_append_iff.mp split with ⟨rest, here, there⟩ | ⟨rest, here, there⟩
  · cases rest with
    | nil =>
      cases there
      rw [append_nil] at here
      rw [here]
      exact ⟨risk, known, allowed, approved⟩
    | cons effect others => simp at there
  · cases rest with
    | nil =>
      cases there
      rw [append_nil] at here
      rw [← here]
      exact ⟨risk, known, allowed, approved⟩
    | cons effect others =>
      obtain ⟨rfl, -⟩ := List.cons.inj there
      rw [here] at idle
      simp [executedIn] at idle

end Attempt

section Verdicts

variable {agent : Agent} {env : Env} {step : Nat} {name : String} {arguments : Arguments} {risk : Risk}
  {s : Loop}

theorem attempted_denied (known : agent.tools name = some risk)
    (refused : (agent.policy.evaluate agent.matching name arguments risk).allowed = false) :
    Attempted agent env (.decided step (.toolCall name arguments)) s
      (attempt agent env step name arguments s).2 (attempt agent env step name arguments s).1 [] := by
  have shut : gate agent env step name arguments =
      .denied risk (agent.policy.evaluate agent.matching name arguments risk).reason := by
    simp only [gate, known, refused, if_true]
  simp only [attempt, known, gated, refused]
  constructor
  · exact (append_nil _).symm
  · rfl
  · exact gated_nil
  · exact faithful_nil
  · simp [openedIn, shut]
  · exact nofun
  · intro json _
    simp only [refusedIn, shut]
    rfl

theorem gate_unapproved (known : agent.tools name = some risk)
    (allowed : (agent.policy.evaluate agent.matching name arguments risk).allowed = true)
    (needed : (agent.policy.evaluate agent.matching name arguments risk).requireApproval = true)
    (without : granted env step name arguments risk = false) :
    gate agent env step name arguments = .unapproved risk := by
  simp only [gate, known, allowed, needed, without, Bool.true_eq_false, if_false, and_self, if_true]

theorem gate_opened (known : agent.tools name = some risk)
    (allowed : (agent.policy.evaluate agent.matching name arguments risk).allowed = true)
    (approved : (agent.policy.evaluate agent.matching name arguments risk).requireApproval = false ∨
      granted env step name arguments risk = true) :
    gate agent env step name arguments = .opened risk := by
  rcases approved with free | given
  · simp [gate, known, allowed, free]
  · simp [gate, known, allowed, given]

theorem attempted_unapproved (known : agent.tools name = some risk)
    (allowed : (agent.policy.evaluate agent.matching name arguments risk).allowed = true)
    (needed : (agent.policy.evaluate agent.matching name arguments risk).requireApproval = true)
    (without : granted env step name arguments risk = false) :
    ∃ new, Attempted agent env (.decided step (.toolCall name arguments)) s
      (attempt agent env step name arguments s).2 (attempt agent env step name arguments s).1 new := by
  have shut := gate_unapproved known allowed needed without
  simp only [attempt, known, gated, allowed, approved, needed]
  cases given : env.approve with
  | none =>
    refine ⟨[], ?_⟩
    simp only [consult, given]
    constructor
    · exact (append_nil _).symm
    · rfl
    · exact gated_nil
    · exact faithful_nil
    · simp [openedIn, shut]
    · exact nofun
    · intro json _
      simp only [refusedIn, shut]
      rfl
  | some approve =>
    cases answered : approve step name arguments risk with
    | error e =>
      refine ⟨[], ?_⟩
      simp only [consult, given, answered]
      constructor
      · exact (append_nil _).symm
      · rfl
      · exact gated_nil
      · exact faithful_nil
      · simp [openedIn, shut]
      · exact nofun
      · intro json raised
        cases raised
    | ok answer =>
      have no : answer = false := by
        simpa only [granted, given, answered] using without
      subst no
      refine ⟨[.consulted step name arguments risk false], ?_⟩
      simp only [consult, given, answered]
      constructor
      · rfl
      · rfl
      · exact gated_consulted false
      · exact faithful_consulted given answered
      · simp [openedIn, shut, executedIn]
      · intro e mem
        cases mem_singleton.mp mem
        rfl
      · intro json _
        simp only [refusedIn, shut]
        rfl

theorem attempted_free (known : agent.tools name = some risk)
    (allowed : (agent.policy.evaluate agent.matching name arguments risk).allowed = true)
    (free : (agent.policy.evaluate agent.matching name arguments risk).requireApproval = false) :
    Attempted agent env (.decided step (.toolCall name arguments)) s
      (attempt agent env step name arguments s).2 (attempt agent env step name arguments s).1
      [.executed step name arguments] := by
  have way := @gate_opened agent env step name arguments risk known allowed (.inl free)
  simp only [attempt, known, gated, allowed, approved, free]
  constructor
  · rfl
  · rfl
  · exact gated_executed (@filterMap_nil _ _ executedIn) known allowed (.inl free)
  · exact faithful_executed
  · simp [openedIn, way, executedIn]
  · intro e mem
    cases mem_singleton.mp mem
    rfl
  · intro json _
    simp only [refusedIn, way]
    exact (append_nil _).symm

theorem attempted_approved (known : agent.tools name = some risk)
    (allowed : (agent.policy.evaluate agent.matching name arguments risk).allowed = true)
    (needed : (agent.policy.evaluate agent.matching name arguments risk).requireApproval = true)
    (given : granted env step name arguments risk = true) :
    Attempted agent env (.decided step (.toolCall name arguments)) s
      (attempt agent env step name arguments s).2 (attempt agent env step name arguments s).1
      [.consulted step name arguments risk true, .executed step name arguments] := by
  have way := @gate_opened agent env step name arguments risk known allowed (.inr given)
  unfold granted at given
  split at given
  next => cases given
  next approve passed =>
    split at given
    next answer answered =>
      subst given
      simp only [attempt, known, gated, allowed, approved, needed, consult, passed, answered]
      constructor
      · exact append_assoc _ _ _
      · rfl
      · have idle : [Effect.consulted step name arguments risk true].filterMap executedIn = [] := rfl
        exact gated_executed idle known allowed (.inr (mem_singleton.mpr rfl))
      · exact faithful_append (faithful_consulted passed answered) faithful_executed
      · simp only [openedIn, way]
        rfl
      · intro e mem
        rcases mem_cons.mp mem with rfl | later
        · rfl
        · cases mem_singleton.mp later
          rfl
      · intro json _
        simp only [refusedIn, way]
        exact (append_nil _).symm
    next => cases given

end Verdicts

theorem attempt_attempted (agent : Agent) (env : Env) (step : Nat) (name : String)
    (arguments : Arguments) (s : Loop) :
    ∃ new, Attempted agent env (.decided step (.toolCall name arguments)) s
      (attempt agent env step name arguments s).2 (attempt agent env step name arguments s).1 new := by
  cases known : agent.tools name with
  | none =>
    have shut : gate agent env step name arguments = .unknown := by
      simp only [gate, known]
    refine ⟨[], ?_⟩
    simp only [attempt, known]
    constructor
    · exact (append_nil _).symm
    · rfl
    · exact gated_nil
    · exact faithful_nil
    · simp [openedIn, shut]
    · exact nofun
    · simp [refusedIn, shut]
  | some risk =>
    cases allowed : (agent.policy.evaluate agent.matching name arguments risk).allowed with
    | false => exact ⟨[], attempted_denied known allowed⟩
    | true =>
      cases needed : (agent.policy.evaluate agent.matching name arguments risk).requireApproval with
      | false => exact ⟨_, attempted_free known allowed needed⟩
      | true =>
        cases given : granted env step name arguments risk with
        | false => exact attempted_unapproved known allowed needed given
        | true => exact ⟨_, attempted_approved known allowed needed given⟩

/-- A piece of a run: what it emits and what it answers. -/
structure Piece (agent : Agent) (env : Env) (s : Loop)
    (run : Except AgentExc (Option RunReport) × Loop) (new : List Effect) (calls : Nat) : Prop where
  emits : Emits agent env s run.2 new calls
  lists : Lists agent env s run.2 new run.1

theorem report_run (env : Env) (step : Nat) (final : String) (used : Int) (s : Loop) :
    (report env step final used s).2 = s ∧ ∀ ending, (report env step final used s).1 = .ok ending →
      ∃ done, ending = some done ∧ done.approvalsRequired = s.refusals := by
  unfold report
  cases env.remember step with
  | error e =>
    refine ⟨rfl, ?_⟩
    intro ending returned
    cases returned
  | ok _ =>
    refine ⟨rfl, ?_⟩
    intro ending returned
    cases returned
    exact ⟨_, rfl, rfl⟩

section Quiet

variable {agent : Agent} {env : Env}

theorem calls_quiet (agent : Agent) (env : Env) (calls : ∀ e ∈ new, ofCall e = true) :
    new.filterMap (openedIn agent env) = [] ∧ new.filterMap (refusedIn agent env) = [] ∧
      new.countP isAsked = 0 ∧ new.countP isRevised = 0 ∧ new.countP isCancelled = 0 := by
  induction new with
  | nil => exact ⟨rfl, rfl, rfl, rfl, rfl⟩
  | cons e rest ih =>
    obtain ⟨opened, refused, asked, revised, cancelled⟩ :=
      ih (fun other mem => calls other (mem_cons_of_mem _ mem))
    have head := calls e mem_cons_self
    cases e with
    | consulted step name arguments risk answer =>
      refine ⟨?_, ?_, ?_, ?_, ?_⟩
      · simpa [openedIn] using opened
      · simpa [refusedIn] using refused
      · simpa [isAsked] using asked
      · simpa [isRevised] using revised
      · simpa [isCancelled] using cancelled
    | executed step name arguments =>
      refine ⟨?_, ?_, ?_, ?_, ?_⟩
      · simpa [openedIn] using opened
      · simpa [refusedIn] using refused
      · simpa [isAsked] using asked
      · simpa [isRevised] using revised
      · simpa [isCancelled] using cancelled
    | _ => cases head

theorem silent_uncancelled (none : new.countP isCancelled = 0) :
    ∀ before step after, new = before ++ .cancelled step :: after → after = [] := by
  intro before step after split
  rw [split] at none
  simp [isCancelled] at none

/-- A report made after effects that neither ask, execute, revise nor refuse. -/
theorem piece_report (emits : Emits agent env s t new calls)
    (refusals : t.refusals = s.refusals ++ new.filterMap (refusedIn agent env))
    (silent : ∀ before step after, new = before ++ .cancelled step :: after → after = [])
    (step : Nat) (final : String) (used : Int) :
    Piece agent env s (report env step final used t) new calls := by
  obtain ⟨same, reported⟩ := report_run env step final used t
  constructor
  · rw [same]
    exact emits
  · constructor
    · intro ending _
      rw [same, refusals]
    · intro done returned
      obtain ⟨other, here, lists⟩ := reported _ returned
      cases here
      rw [same, lists]
    · intro returned
      obtain ⟨other, here, -⟩ := reported _ returned
      cases here
    · exact silent

end Quiet

theorem piece_final (agent : Agent) (env : Env) (step : Nat) (text : String) (s : Loop) :
    Piece agent env s (act agent env step (.final text) s) [.decided step (.final text)] 0 := by
  apply piece_report _ _ _ step text step
  · constructor
    · rfl
    · exact gated_decided step (.final text)
    · exact faithful_decided step (.final text)
    · rfl
    · exact Nat.le_refl 0
    · exact Nat.le_of_eq (Nat.zero_add _)
  · exact (append_nil _).symm
  · exact silent_uncancelled rfl

/-- After the attempt of a call the trace and the refusals stay, and the loop goes on. -/
theorem callTool_run (agent : Agent) (env : Env) (step : Nat) (name : String)
    (arguments : Arguments) (s : Loop) :
    (callTool agent env step name arguments s).2.trace =
        (attempt agent env step name arguments s).2.trace ∧
      (callTool agent env step name arguments s).2.revisions =
        (attempt agent env step name arguments s).2.revisions ∧
      (callTool agent env step name arguments s).2.refusals =
        (attempt agent env step name arguments s).2.refusals ∧
      ∀ ending, (callTool agent env step name arguments s).1 = .ok ending → ending = none ∧
        ∃ json, (attempt agent env step name arguments s).1 = .ok json := by
  rcases tried : attempt agent env step name arguments s with ⟨result, t⟩
  cases result with
  | error e =>
    have run : callTool agent env step name arguments s = (.error e, t) := Txn.run_bind_error tried
    rw [run]
    refine ⟨rfl, rfl, rfl, ?_⟩
    intro ending returned
    cases returned
  | ok json =>
    unfold callTool
    rw [Txn.run_bind_ok tried]
    cases env.remember step with
    | error e =>
      refine ⟨rfl, rfl, rfl, ?_⟩
      intro ending returned
      cases returned
    | ok _ =>
      refine ⟨rfl, rfl, rfl, ?_⟩
      intro ending returned
      cases returned
      exact ⟨rfl, json, rfl⟩

def noted (s : Loop) (effect : Effect) : Loop := { s with trace := s.trace ++ [effect] }

theorem piece_toolCall (agent : Agent) (env : Env) (step : Nat) (name : String)
    (arguments : Arguments) (s : Loop) :
    ∃ new, Piece agent env s (act agent env step (.toolCall name arguments) s)
      (.decided step (.toolCall name arguments) :: new) 0 := by
  obtain ⟨new, attempted⟩ := attempt_attempted agent env step name arguments
    (noted s (.decided step (.toolCall name arguments)))
  obtain ⟨opened, refused, asked, revised, cancelled⟩ := calls_quiet agent env attempted.calls
  obtain ⟨trace, revisions, refusals, answered⟩ := callTool_run agent env step name arguments
    (noted s (.decided step (.toolCall name arguments)))
  rw [attempted.trace] at trace
  rw [attempted.revisions] at revisions
  refine ⟨new, ?_⟩
  rw [show act agent env step (.toolCall name arguments) s = callTool agent env step name arguments
    (noted s (.decided step (.toolCall name arguments))) from rfl]
  constructor
  · constructor
    · rw [trace]
      exact append_assoc _ _ _
    · exact gated_append (gated_decided step (.toolCall name arguments)) attempted.gated
    · exact faithful_append (faithful_decided step (.toolCall name arguments)) attempted.faithful
    · rw [filterMap_cons, filterMap_cons, opened]
      simp only [attempted.executed]
      cases openedIn agent env (.decided step (.toolCall name arguments)) <;> rfl
    · rw [countP_cons, asked]
      exact Nat.le_refl 0
    · rw [countP_cons, revised, revisions]
      simp [isRevised, noted]
  · constructor
    · intro ending returned
      obtain ⟨-, json, tried⟩ := answered ending returned
      rw [refusals, attempted.refusals json tried, filterMap_cons, refused]
      cases refusedIn agent env (.decided step (.toolCall name arguments)) <;> rfl
    · intro done returned
      cases (answered _ returned).1
    · intro _
      rw [countP_cons, cancelled]
      rfl
    · apply silent_uncancelled
      rw [countP_cons, cancelled]
      rfl

/-- What `replan` does to the loop: a revision is noted only while the count is within the limit. -/
structure Replanned (step : Nat) (s t : Loop) (result : Except AgentExc (Option RunReport))
    (new : List Effect) : Prop where
  trace : t.trace = s.trace ++ new
  refusals : t.refusals = s.refusals
  revisions : t.revisions = s.revisions + 1
  answered : ∀ ending, result = .ok ending → ending = none
  revised : new = [] ∨ s.revisions < 3 ∧ ∃ plan, new = [.revised step plan]

theorem replan_run (env : Env) (step : Nat) (reason : String) (steps : List String) (s : Loop) :
    ∃ new, Replanned step s (replan env step reason steps s).2 (replan env step reason steps s).1
      new := by
  simp only [replan, Txn.run_bind_write, Txn.run_bind_read, Txn.run_ite]
  split
  next many =>
    refine ⟨[], ?_⟩
    cases env.remember step with
    | error e =>
      constructor
      · exact (append_nil _).symm
      · rfl
      · rfl
      · exact nofun
      · exact .inl rfl
    | ok _ =>
      constructor
      · exact (append_nil _).symm
      · rfl
      · rfl
      · exact fun ending returned => by cases returned; rfl
      · exact .inl rfl
  next few =>
    cases revise s.plan steps with
    | error e =>
      refine ⟨[], ?_⟩
      constructor
      · exact (append_nil _).symm
      · rfl
      · rfl
      · exact nofun
      · exact .inl rfl
    | ok plan =>
      have within : s.revisions < 3 := by omega
      refine ⟨[.revised step plan], ?_⟩
      cases env.remember step with
      | error e =>
        constructor
        · rfl
        · rfl
        · rfl
        · exact nofun
        · exact .inr ⟨within, plan, rfl⟩
      | ok _ =>
        constructor
        · rfl
        · rfl
        · rfl
        · exact fun ending returned => by cases returned; rfl
        · exact .inr ⟨within, plan, rfl⟩

theorem piece_replan (agent : Agent) (env : Env) (step : Nat) (reason : String)
    (steps : List String) (s : Loop) :
    ∃ new, Piece agent env s (act agent env step (.replan reason steps) s)
      (.decided step (.replan reason steps) :: new) 0 := by
  obtain ⟨new, replanned⟩ := replan_run env step reason steps
    (noted s (.decided step (.replan reason steps)))
  refine ⟨new, ?_⟩
  rw [show act agent env step (.replan reason steps) s = replan env step reason steps
    (noted s (.decided step (.replan reason steps))) from rfl]
  have revisions : (replan env step reason steps
      (noted s (.decided step (.replan reason steps)))).2.revisions = s.revisions + 1 :=
    replanned.revisions
  have quiet : new.filterMap executedIn = [] ∧ new.filterMap (openedIn agent env) = [] ∧
      new.filterMap (refusedIn agent env) = [] ∧ new.countP isAsked = 0 ∧
      new.countP isCancelled = 0 ∧ (new.countP isRevised = 0 ∨
        s.revisions < 3 ∧ new.countP isRevised = 1) := by
    rcases replanned.revised with rfl | ⟨few, plan, rfl⟩
    · exact ⟨rfl, rfl, rfl, rfl, rfl, .inl rfl⟩
    · exact ⟨rfl, rfl, rfl, rfl, rfl, .inr ⟨few, rfl⟩⟩
  obtain ⟨executed, opened, refused, asked, cancelled, revised⟩ := quiet
  constructor
  · constructor
    · rw [replanned.trace]
      exact append_assoc _ _ _
    · exact gated_append (gated_decided step (.replan reason steps)) (gated_idle executed)
    · apply faithful_append (faithful_decided step (.replan reason steps))
      rcases replanned.revised with rfl | ⟨few, plan, rfl⟩
      · exact faithful_nil
      · intro _ _ _ _ _ mem
        cases mem_singleton.mp mem
    · rw [filterMap_cons, filterMap_cons, executed, opened]
      rfl
    · rw [countP_cons, asked]
      exact Nat.le_refl 0
    · rw [countP_cons]
      simp only [isRevised, Bool.false_eq_true, if_false]
      rcases revised with none | ⟨few, one⟩
      · omega
      · omega
  · constructor
    · intro ending _
      rw [replanned.refusals, filterMap_cons, refused]
      exact (append_nil _).symm
    · intro done returned
      cases replanned.answered _ returned
    · intro _
      rw [countP_cons, cancelled]
      rfl
    · apply silent_uncancelled
      rw [countP_cons, cancelled]
      rfl

theorem piece_act (agent : Agent) (env : Env) (step : Nat) (decision : Decision) (s : Loop) :
    ∃ new, Piece agent env s (act agent env step decision s) new 0 := by
  cases decision with
  | final text => exact ⟨_, piece_final agent env step text s⟩
  | replan reason steps =>
    obtain ⟨new, piece⟩ := piece_replan agent env step reason steps s
    exact ⟨_, piece⟩
  | toolCall name arguments =>
    obtain ⟨new, piece⟩ := piece_toolCall agent env step name arguments s
    exact ⟨_, piece⟩

theorem piece_trans {first second : List Effect} {run : Except AgentExc (Option RunReport) × Loop}
    (one : Piece agent env s (.ok none, t) first calls) (two : Piece agent env t run second more) :
    Piece agent env s run (first ++ second) (calls + more) where
  emits := emits_trans one.emits two.emits
  lists := by
    have uncancelled := one.lists.ended rfl
    constructor
    · intro ending returned
      rw [two.lists.refusals ending returned, one.lists.refusals none rfl, filterMap_append,
        append_assoc]
    · exact two.lists.reported
    · intro goes
      rw [countP_append, uncancelled, two.lists.ended goes]
    · intro before step after split
      rcases append_eq_append_iff.mp split with ⟨rest, here, there⟩ | ⟨rest, here, there⟩
      · exact two.lists.silent rest step after there
      · cases rest with
        | nil => exact two.lists.silent [] step after there.symm
        | cons effect others =>
          obtain ⟨rfl, -⟩ := List.cons.inj there
          rw [here] at uncancelled
          simp [isCancelled] at uncancelled

theorem piece_note (s : Loop) {effect : Effect} (executes : executedIn effect = none)
    (opens : openedIn agent env effect = none) (refuses : refusedIn agent env effect = none)
    (faithful : Faithful env [effect]) (asks : [effect].countP isAsked ≤ calls)
    (revises : isRevised effect = false) (cancels : isCancelled effect = false) :
    Piece agent env s (.ok none, noted s effect) [effect] calls where
  emits := by
    constructor
    · rfl
    · apply gated_idle
      rw [filterMap_cons, executes]
      rfl
    · exact faithful
    · rw [filterMap_cons, filterMap_cons, executes, opens]
      rfl
    · exact asks
    · simp [revises, noted]
  lists := by
    have uncancelled : [effect].countP isCancelled = 0 := by simp [cancels]
    constructor
    · intro _ _
      rw [filterMap_cons, refuses]
      exact (append_nil _).symm
    · exact nofun
    · exact fun _ => uncancelled
    · exact silent_uncancelled uncancelled

theorem piece_asked (s : Loop) (step : Nat) :
    Piece agent env s (.ok none, noted s (.asked step)) [.asked step] 1 := by
  apply piece_note s rfl rfl rfl _ (Nat.le_refl 1) rfl rfl
  intro _ _ _ _ _ mem
  cases mem_singleton.mp mem

theorem piece_cancelled (agent : Agent) (env : Env) (step : Nat) (final : String) (s : Loop) :
    Piece agent env s (cancelled env step final s) [.cancelled step] 0 := by
  apply piece_report _ _ _ step final (step - 1)
  · constructor
    · rfl
    · exact gated_idle rfl
    · intro _ _ _ _ _ mem
      cases mem_singleton.mp mem
    · rfl
    · exact Nat.le_refl 0
    · exact Nat.le_of_eq (Nat.zero_add _)
  · exact (append_nil _).symm
  · intro before other after split
    cases before with
    | nil => exact (List.cons.inj split).2.symm
    | cons effect rest => simp at split

theorem piece_raised {agent : Agent} {env : Env} (s : Loop) (e : AgentExc) :
    Piece agent env s (.error e, s) [] 0 where
  emits := ⟨(append_nil _).symm, gated_nil, faithful_nil, rfl, Nat.le_refl 0,
    Nat.le_of_eq (Nat.zero_add _)⟩
  lists := by
    constructor
    · exact nofun
    · exact nofun
    · exact nofun
    · exact silent_uncancelled rfl

theorem piece_more {run : Except AgentExc (Option RunReport) × Loop}
    (piece : Piece agent env s run new calls) (le : calls ≤ more) :
    Piece agent env s run new more where
  emits := { piece.emits with asked := Nat.le_trans piece.emits.asked le }
  lists := piece.lists

theorem piece_answered (agent : Agent) (env : Env) (step : Nat) (s : Loop) :
    ∃ new, Piece agent env s
      ((if (env.checks step).during then cancelled env step "Cancelled during model generation."
        else do
          let decision ← Txn.ofExcept (env.decide step)
          if (env.checks step).after then
            cancelled env step "Cancelled after model response, before action."
          else act agent env step decision) s) new 0 := by
  split
  · exact ⟨_, piece_cancelled agent env step "Cancelled during model generation." s⟩
  · cases env.decide step with
    | error e => exact ⟨[], piece_raised s e⟩
    | ok decision =>
      split
      · exact ⟨_, piece_cancelled agent env step "Cancelled after model response, before action." s⟩
      · exact piece_act agent env step decision s

theorem piece_turn (agent : Agent) (env : Env) (step : Nat) (s : Loop) :
    ∃ new, Piece agent env s (turn agent env step s) new 1 := by
  unfold turn
  split
  · have piece := piece_cancelled agent env step "Cancelled before the next agent step." s
    exact ⟨_, piece_more piece (Nat.zero_le 1)⟩
  · obtain ⟨new, piece⟩ := piece_answered agent env step (noted s (.asked step))
    exact ⟨_, piece_trans (piece_asked s step) piece⟩

theorem piece_turns (agent : Agent) (env : Env) (left step : Nat) (s : Loop) :
    ∃ new, Piece agent env s (turns agent env left step s) new left ∧
      (turns agent env left step s).1 ≠ .ok none := by
  induction left generalizing step s with
  | zero =>
    have empty := (@piece_raised agent env s (.raised "")).emits
    refine ⟨[], piece_report empty (append_nil _).symm (silent_uncancelled rfl) step _ _, ?_⟩
    intro ended
    obtain ⟨-, reported⟩ := report_run env step ("Stopped after " ++ toString agent.maxSteps ++
      " steps without a final answer. Last tool event: " ++
        (s.events.getLast?.map env.shown).getD "none") agent.maxSteps s
    obtain ⟨done, here, -⟩ := reported none ended
    cases here
  | succ left ih =>
    obtain ⟨new, piece⟩ := piece_turn agent env step s
    rcases taken : turn agent env step s with ⟨result, t⟩
    rw [taken] at piece
    unfold turns
    cases result with
    | error e =>
      rw [Txn.run_bind_error taken]
      exact ⟨new, piece_more piece (Nat.le_add_left 1 left), nofun⟩
    | ok ending =>
      rw [Txn.run_bind_ok taken]
      cases ending with
      | some done =>
        exact ⟨new, piece_more piece (Nat.le_add_left 1 left), nofun⟩
      | none =>
        obtain ⟨more, rest, ends⟩ := ih (step + 1) t
        have whole := piece_trans piece rest
        rw [Nat.add_comm 1 left] at whole
        exact ⟨new ++ more, whole, ends⟩

/-- Every run, whatever the model decides, the policy and the callback say and whenever it is
cancelled. -/
theorem run_sound (agent : Agent) (env : Env) : Sound agent env (run agent env) := by
  unfold run
  cases env.prepared with
  | error e =>
    constructor
    · exact gated_nil
    · exact faithful_nil
    · rfl
    · exact nofun
    · exact Nat.zero_le _
    · exact Nat.zero_le _
    · exact silent_uncancelled rfl
  | ok plan =>
    obtain ⟨new, piece, ends⟩ := piece_turns agent env agent.maxSteps.toNat 1 ⟨plan, [], [], 0, []⟩
    have trace := piece.emits.trace
    rw [nil_append] at trace
    rw [← trace] at piece
    constructor
    · exact piece.emits.gated
    · exact piece.emits.faithful
    · exact piece.emits.executed
    · intro ending returned
      cases ending with
      | none => exact absurd returned ends
      | some done =>
        refine ⟨done, rfl, ?_⟩
        rw [piece.lists.reported done returned, piece.lists.refusals _ returned]
        exact nil_append _
    · exact piece.emits.asked
    · exact Nat.le_trans (Nat.le_of_add_right_le piece.emits.revised) (Nat.min_le_right _ _)
    · exact piece.lists.silent

end Meemee.Guarantees.AgentGating
