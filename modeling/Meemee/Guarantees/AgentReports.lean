import Meemee.Guarantees.PlanSteps
import Meemee.Source.RunStart

/-!
# Runs that end in a report

A plan whose steps follow one another is always accepted, so a run cannot fail at its start. In its
loop only a revision can raise: one whose steps are all blank, among the first three.
-/
namespace Meemee.Guarantees.AgentReports
open Library Source Source.AgentLoop Source.Plans Source.RunStart Library.Txn List
open Source.PgJobs (strip)
open Guarantees.PlanSteps (make_valid)

/-- Each step depends on the one before it; `label` names the steps. -/
structure Chain (label : Nat → String) (steps : List PlanStep) : Prop where
  distinct : ∀ i j, label i = label j → i = j
  ids : steps.map (fun step => step.id) = (List.range steps.length).map label
  depends : ∀ i step, steps[i]? = some step →
    step.dependsOn = if i = 0 then [] else [label (i - 1)]

section Chain

variable {label : Nat → String} {steps : List PlanStep}

theorem Chain.id (chain : Chain label steps) {i : Nat} {step : PlanStep} (at_ : steps[i]? = some step) :
    step.id = label i := by
  have within := (List.getElem?_eq_some_iff.mp at_).1
  have named : (steps.map (fun step => step.id))[i]? = some step.id := by
    rw [List.getElem?_map, at_]
    rfl
  rw [chain.ids, List.getElem?_map, List.getElem?_range within] at named
  exact (Option.some.inj named).symm

theorem Chain.dependencies (chain : Chain label steps) {k : Nat} (within : k < steps.length) :
    dependencies steps (label k) = if k = 0 then [] else [label (k - 1)] := by
  have at_ : steps[k]? = some steps[k] := List.getElem?_eq_getElem within
  unfold Plans.dependencies
  cases found : steps.find? (fun step => decide (step.id = label k)) with
  | none =>
    have missing := List.find?_eq_none.mp found steps[k] (getElem_mem within)
    simp [chain.id at_] at missing
  | some step =>
    have named : step.id = label k := by simpa using List.find?_some found
    obtain ⟨i, here⟩ := mem_iff_getElem?.mp (mem_of_find?_eq_some found)
    have same : i = k := chain.distinct i k ((chain.id here).symm.trans named)
    subst same
    exact chain.depends i step here

theorem Chain.checked (chain : Chain label steps) :
    ∀ step ∈ steps, checkStep (steps.map (fun step => step.id)) step = .ok () := by
  intro step mem
  obtain ⟨i, here⟩ := mem_iff_getElem?.mp mem
  have within := (List.getElem?_eq_some_iff.mp here).1
  have depends := chain.depends i step here
  unfold checkStep
  rw [depends, chain.ids, chain.id here]
  by_cases first : i = 0
  · simp [first]
  · have known : ∃ x, x < steps.length ∧ label x = label (i - 1) := ⟨i - 1, by omega, rfl⟩
    have apart : label i ∉ [label (i - 1)] := by
      intro mem
      have same := chain.distinct _ _ (mem_singleton.mp mem)
      omega
    rw [if_neg first, if_neg (by simp [known]), if_neg apart]

theorem Chain.visit (chain : Chain label steps) {k : Nat} (within : k < steps.length) :
    visit steps (steps.length + 1) [] ((List.range k).map label).reverse (label k) =
      .ok (label k :: ((List.range k).map label).reverse) := by
  have fresh : label k ∉ ((List.range k).map label).reverse := by
    intro mem
    obtain ⟨i, below, same⟩ := mem_map.mp (mem_reverse.mp mem)
    have equal := chain.distinct i k same
    have less := mem_range.mp below
    omega
  rw [Plans.visit, if_neg not_mem_nil, if_neg fresh, chain.dependencies within]
  split
  next => rfl
  next later =>
    obtain ⟨depth, deep⟩ : ∃ depth, steps.length = depth + 1 := ⟨steps.length - 1, by omega⟩
    have apart : label (k - 1) ∉ [label k] := by
      intro mem
      have equal := chain.distinct _ _ (mem_singleton.mp mem)
      omega
    have visited : label (k - 1) ∈ ((List.range k).map label).reverse :=
      mem_reverse.mpr (mem_map_of_mem (mem_range.mpr (by omega)))
    rw [foldlM_cons, deep, Plans.visit, if_neg apart, if_pos visited]
    rfl

theorem Chain.visits (chain : Chain label steps) (k : Nat) (within : k ≤ steps.length) :
    ((List.range k).map label).foldlM
      (fun seen node => Plans.visit steps (steps.length + 1) [] seen node) [] =
        .ok ((List.range k).map label).reverse := by
  induction k with
  | zero => rfl
  | succ k ih =>
    have last : ((List.range (k + 1)).map label) = (List.range k).map label ++ [label k] := by
      rw [range_succ, map_append, map_singleton]
    rw [last, foldlM_append, ih (Nat.le_of_succ_le within), reverse_append]
    change (Plans.visit steps (steps.length + 1) [] ((List.range k).map label).reverse (label k) >>=
      fun seen => pure seen) = _
    rw [chain.visit within]
    rfl

theorem forM_ok {α : Type} {f : α → Except PlanExc Unit} {l : List α} (passes : ∀ x ∈ l, f x = .ok ()) :
    l.forM f = .ok () := by
  induction l with
  | nil => rfl
  | cons x rest ih =>
    change (f x >>= fun _ => rest.forM f) = .ok ()
    rw [passes x mem_cons_self, ih (fun y mem => passes y (mem_cons_of_mem x mem))]
    rfl

theorem Chain.valid (chain : Chain label steps) : validGraph steps = .ok () := by
  have distinct : (steps.map (fun step => step.id)).Nodup := by
    rw [chain.ids]
    exact nodup_range.map (fun i j same => chain.distinct i j same)
  have visits := chain.visits steps.length (Nat.le_refl _)
  rw [← chain.ids] at visits
  unfold validGraph
  simp only [distinct, if_true, forM_ok chain.checked, visits]
  rfl

end Chain

theorem label_distinct (name : String) (i j : Nat)
    (same : name ++ toString (i + 1) = name ++ toString (j + 1)) : i = j := by
  have digits := (String.append_right_inj name).mp same
  rw [Nat.toString_eq_repr, Nat.toString_eq_repr] at digits
  have texts := congrArg (fun text => Nat.ofDigitChars 10 text.toList 0) digits
  simp only [Nat.toList_repr, Nat.ofDigitChars_ten_toDigits] at texts
  omega

theorem chain_mapIdx {name : String} {make : Nat → String → PlanStep}
    (ids : ∀ index description, (make index description).id = name ++ toString index)
    (depends : ∀ index description, (make index description).dependsOn =
      if 1 < index then [name ++ toString (index - 1)] else []) (descriptions : List String) :
    Chain (fun i => name ++ toString (i + 1)) (descriptions.mapIdx (fun i d => make (i + 1) d)) where
  distinct := label_distinct name
  ids := by
    apply ext_getElem?
    intro i
    rw [length_mapIdx, List.getElem?_map, List.getElem?_mapIdx, List.getElem?_map]
    by_cases within : i < descriptions.length
    · rw [List.getElem?_eq_getElem within, List.getElem?_range within]
      simp [ids]
    · rw [List.getElem?_eq_none (Nat.le_of_not_lt within), List.getElem?_eq_none (by simpa using within)]
      rfl
  depends := by
    intro i step here
    rw [List.getElem?_mapIdx] at here
    obtain ⟨description, -, rfl⟩ := Option.map_eq_some_iff.mp here
    rw [depends]
    cases i with
    | zero => rfl
    | succ i => simp

theorem make_chain {label : Nat → String} {steps : List PlanStep} (chain : Chain label steps) (goal : String) :
    ∃ plan, Plan.make goal steps = .ok plan := ⟨_, make_valid chain.valid⟩

theorem revise_ok_iff (current : Plan) (descriptions : List String) :
    (∃ plan, revise current descriptions = .ok plan) ↔
      ∃ item ∈ descriptions, PgJobs.blank item = false := by
  have filled : ((descriptions.filter (fun item => !PgJobs.blank item)).map strip).take 8 = [] ↔
      ¬ ∃ item ∈ descriptions, PgJobs.blank item = false := by
    simp [take_eq_nil_iff, filter_eq_nil_iff]
  unfold revise
  dsimp only
  split
  next empty =>
    constructor
    · rintro ⟨plan, raised⟩
      cases raised
    · intro some_
      exact absurd some_ (filled.mp empty)
  next full =>
    have chain := @chain_mapIdx "revision-step-" revisionStep (fun _ _ => rfl) (fun _ _ => rfl)
      (((descriptions.filter (fun item => !PgJobs.blank item)).map strip).take 8)
    have item : ∃ item ∈ descriptions, PgJobs.blank item = false := by
      by_contra none_
      exact full (filled.mpr none_)
    exact ⟨fun _ => item, fun _ => make_chain chain current.goal⟩

theorem plan_ok (actions : String → List String) {goal : String} (filled : PgJobs.blank goal = false)
    {maxSteps : Nat} (positive : 1 ≤ maxSteps) : ∃ planned, plan actions goal maxSteps = .ok planned := by
  unfold plan
  rw [if_neg (by simp [filled]), if_neg (Nat.not_lt.mpr positive)]
  exact make_chain (@chain_mapIdx "step-" planStep (fun _ _ => rfl) (fun _ _ => rfl) _) goal

/-- Some character of the text is no space. -/
def Filled (text : List Char) : Prop := ∃ c ∈ text, PgJobs.isSpace c = false

theorem marker_filled (sha256 : String → String) (value : List Char) : Filled (marker sha256 value) :=
  ⟨']', mem_append_right _ (mem_singleton.mpr rfl), by decide⟩

theorem scrubbed_filled (sha256 : String → String) (last : Bool) (whole first second : List Char) :
    Filled (Piece.scrubbed sha256 last (.found whole first second)) := by
  obtain ⟨c, mem, plain⟩ := marker_filled sha256 (if last then second else whole)
  refine ⟨c, ?_, plain⟩
  cases last with
  | true => exact mem_append_right first (mem_cons_of_mem '=' mem)
  | false => exact mem

theorem sub_filled (sha256 : String → String) (last : Bool) (pattern : Pattern) {text : List Char}
    (filled : Filled text) : Filled (pattern.sub sha256 last text) := by
  obtain ⟨c, mem, plain⟩ := filled
  rw [← pattern.covers text] at mem
  obtain ⟨piece, among, inside⟩ := mem_flatMap.mp mem
  cases piece with
  | plain text => exact ⟨c, mem_flatMap.mpr ⟨_, among, inside⟩, plain⟩
  | found whole first second =>
    obtain ⟨d, here, space⟩ := scrubbed_filled sha256 last whole first second
    exact ⟨d, mem_flatMap.mpr ⟨_, among, here⟩, space⟩

theorem scrubWith_filled (sha256 : String → String) (patterns : List Pattern) {text : List Char}
    (filled : Filled text) : Filled (scrubWith sha256 patterns text) := by
  induction patterns generalizing text with
  | nil => exact filled
  | cons pattern rest ih => exact ih (sub_filled sha256 rest.isEmpty pattern filled)

theorem blank_iff (text : String) : PgJobs.blank text = false ↔ Filled text.toList := by
  unfold PgJobs.blank Filled
  simp

theorem scrub_filled (start : Start) {goal : String} (filled : PgJobs.blank goal = false) :
    PgJobs.blank (start.scrub goal) = false := by
  rw [blank_iff] at filled ⊢
  rw [Start.scrub, String.toList_ofList]
  exact scrubWith_filled start.sha256 start.patterns filled

/-- The model answers, and neither the callback nor a tool nor the memory store raises. -/
structure Calm (env : Env) : Prop where
  decides : ∀ step, ∃ decision, env.decide step = .ok decision
  remembers : ∀ step, env.remember step = .ok ()
  approves : ∀ approve, env.approve = some approve → ∀ step name arguments risk,
    ∃ answer, approve step name arguments risk = .ok answer
  executes : ∀ step name arguments, ∃ result, env.execute step name arguments = .ok result

def stopped (checks : Checks) : Bool := checks.before || checks.during || checks.after

/-- The revisions the model asks for until it gives a final answer or the run is cancelled. -/
def replansMet (env : Env) : Nat → Nat → List (List String)
  | 0, _ => []
  | left + 1, step =>
    if stopped (env.checks step) then []
    else match env.decide step with
      | .ok (.replan _ steps) => steps :: replansMet env left (step + 1)
      | .ok (.toolCall _ _) => replansMet env left (step + 1)
      | _ => []

def Planned (steps : List String) : Prop := ∃ item ∈ steps, PgJobs.blank item = false

/-- The first three revisions all have a step that is not blank. -/
def Revisable (env : Env) (rounds : Nat) : Prop := ∀ steps ∈ (replansMet env rounds 1).take 3, Planned steps

variable {left step : Nat} {s t : Loop}

section Loop

variable {agent : Agent} {env : Env}

theorem report_calm (calm : Calm env) (step : Nat) (final : String) (used : Int) (s : Loop) :
    ∃ done t, report env step final used s = (.ok (some done), t) := by
  unfold report
  rw [run_bind_ok (show Txn.ofExcept (env.remember step) s = (.ok (), s) by
    rw [run_ofExcept, calm.remembers step])]
  exact ⟨_, s, rfl⟩

theorem consult_calm (calm : Calm env) (step : Nat) (name : String) (arguments : Policy.Arguments)
    (risk : Policy.Risk) (s : Loop) :
    ∃ answer t, consult env step name arguments risk s = (.ok answer, t) ∧ t.revisions = s.revisions := by
  unfold consult
  cases given : env.approve with
  | none => exact ⟨false, s, rfl, rfl⟩
  | some approve =>
    obtain ⟨answer, answered⟩ := calm.approves approve given step name arguments risk
    dsimp only
    rw [answered]
    exact ⟨answer, _, rfl, rfl⟩

theorem execute_calm (calm : Calm env) (step : Nat) (name : String) (arguments : Policy.Arguments)
    (s : Loop) :
    ∃ result t, execute env step name arguments s = (.ok result, t) ∧ t.revisions = s.revisions := by
  obtain ⟨result, returned⟩ := calm.executes step name arguments
  unfold execute
  rw [returned]
  exact ⟨result, _, rfl, rfl⟩

theorem attempt_calm (calm : Calm env) (step : Nat) (name : String) (arguments : Policy.Arguments)
    (s : Loop) :
    ∃ result t, attempt agent env step name arguments s = (.ok result, t) ∧ t.revisions = s.revisions := by
  unfold attempt
  cases agent.tools name with
  | none => exact ⟨_, s, rfl, rfl⟩
  | some risk =>
    unfold gated
    dsimp only
    split
    next =>
      unfold approved
      split
      next =>
        obtain ⟨answer, t, answered, kept⟩ := consult_calm calm step name arguments risk s
        rw [run_bind_ok answered]
        cases answer with
        | true =>
          obtain ⟨result, u, returned, same⟩ := execute_calm calm step name arguments t
          exact ⟨result, u, returned, same.trans kept⟩
        | false => exact ⟨_, _, rfl, kept⟩
      next =>
        exact execute_calm calm step name arguments s
    next => exact ⟨_, _, rfl, rfl⟩

theorem callTool_calm (calm : Calm env) (step : Nat) (name : String) (arguments : Policy.Arguments)
    (s : Loop) :
    ∃ t, callTool agent env step name arguments s = (.ok none, t) ∧ t.revisions = s.revisions := by
  obtain ⟨result, t, tried, kept⟩ := @attempt_calm agent env calm step name arguments s
  unfold callTool
  rw [run_bind_ok tried]
  simp only [addEvent, run_bind_write, calm.remembers step]
  exact ⟨_, rfl, kept⟩

/-- A revision raises when its steps are all blank and there were fewer than three before. -/
theorem replan_calm (calm : Calm env) (step : Nat) (reason : String) (steps : List String) (s : Loop) :
    (3 ≤ s.revisions ∨ Planned steps →
      ∃ t, replan env step reason steps s = (.ok none, t) ∧ t.revisions = s.revisions + 1) ∧
    (s.revisions < 3 → ¬ Planned steps → ∃ e t, replan env step reason steps s = (.error e, t)) := by
  simp only [replan, run_bind_write, run_bind_read, run_ite, addEvent, note, planned,
    calm.remembers step]
  split
  next many =>
    constructor
    · intro _
      exact ⟨_, rfl, rfl⟩
    · omega
  next few =>
    have revisable := revise_ok_iff s.plan steps
    cases revised : revise s.plan steps with
    | ok plan =>
      constructor
      · intro _
        exact ⟨_, rfl, rfl⟩
      · intro _ blank
        exact absurd (revisable.mp ⟨plan, revised⟩) blank
    | error e =>
      constructor
      · rintro (many | filled)
        · omega
        · obtain ⟨plan, made⟩ := revisable.mpr filled
          rw [revised] at made
          cases made
      · intro _ _
        exact ⟨_, _, rfl⟩

theorem cancelled_calm (calm : Calm env) (step : Nat) (final : String) (s : Loop) :
    ∃ done t, cancelled env step final s = (.ok (some done), t) := by
  unfold cancelled note
  exact report_calm calm step final _ _

theorem turn_stopped (calm : Calm env) {step : Nat} (stops : stopped (env.checks step) = true) (s : Loop) :
    ∃ done t, turn agent env step s = (.ok (some done), t) := by
  obtain ⟨decision, decided⟩ := calm.decides step
  unfold stopped at stops
  unfold turn note
  split
  next => exact cancelled_calm calm step _ s
  next running =>
    split
    next => exact cancelled_calm calm step _ _
    next generating =>
      have late : (env.checks step).after = true := by
        simpa [running, generating] using stops
      rw [decided, late]
      exact cancelled_calm calm step _ _

theorem turn_going {step : Nat} (goes : stopped (env.checks step) = false) {decision : Decision}
    (decided : env.decide step = .ok decision) (s : Loop) :
    ∃ t, turn agent env step s = act agent env step decision t ∧ t.revisions = s.revisions := by
  simp only [stopped, Bool.or_eq_false_iff] at goes
  obtain ⟨⟨before, during⟩, after⟩ := goes
  refine ⟨{ s with trace := s.trace ++ [.asked step] }, ?_, rfl⟩
  unfold turn note
  rw [before, during, after, decided]
  rfl

theorem turns_ended {done : RunReport} (round : turn agent env step s = (.ok (some done), t)) :
    turns agent env (left + 1) step s = (.ok (some done), t) := by
  rw [turns, run_bind_ok round]
  rfl

theorem turns_more (round : turn agent env step s = (.ok none, t)) :
    turns agent env (left + 1) step s = turns agent env left (step + 1) t := by
  rw [turns, run_bind_ok round]

theorem turns_raised {e : AgentExc} (round : turn agent env step s = (.error e, t)) :
    turns agent env (left + 1) step s = (.error e, t) := by
  rw [turns, run_bind_error round]

theorem allowed_cons {revisions : Nat} {steps : List String} {later : List (List String)}
    (accepted : 3 ≤ revisions ∨ Planned steps) :
    (∀ item ∈ (steps :: later).take (3 - revisions), Planned item) ↔
      ∀ item ∈ later.take (3 - (revisions + 1)), Planned item := by
  rcases Nat.lt_or_ge revisions 3 with few | many
  · obtain ⟨n, more, less⟩ : ∃ n, 3 - revisions = n + 1 ∧ 3 - (revisions + 1) = n :=
      ⟨2 - revisions, by omega, by omega⟩
    have filled : Planned steps := by
      rcases accepted with many | filled
      · omega
      · exact filled
    rw [more, less, take_succ_cons]
    simp only [mem_cons, forall_eq_or_imp, filled, true_and]
  · have none_ : 3 - revisions = 0 := by omega
    have noneLater : 3 - (revisions + 1) = 0 := by omega
    simp only [none_, noneLater, take_zero]

/-- How the loop ends: with a report exactly when each revision that is still counted has a step. -/
theorem turns_report_iff (calm : Calm env) (left step : Nat) (s : Loop) :
    (∃ done t, turns agent env left step s = (.ok (some done), t)) ↔
      ∀ steps ∈ (replansMet env left step).take (3 - s.revisions), Planned steps := by
  induction left generalizing step s with
  | zero =>
    have reported := report_calm calm step ("Stopped after " ++ toString agent.maxSteps ++
      " steps without a final answer. Last tool event: " ++ (s.events.getLast?.map env.shown).getD "none")
      agent.maxSteps s
    simp only [turns, run_bind_read, replansMet, take_nil, not_mem_nil, false_implies,
      implies_true, iff_true]
    exact reported
  | succ left ih =>
    cases stops : stopped (env.checks step) with
    | true =>
      obtain ⟨done, t, round⟩ := @turn_stopped agent env calm step stops s
      rw [turns_ended round, replansMet, if_pos stops]
      simp
    | false =>
      obtain ⟨decision, decided⟩ := calm.decides step
      obtain ⟨u, round, kept⟩ := @turn_going agent env step stops decision decided s
      have met : replansMet env (left + 1) step = _ := replansMet.eq_2 env step left
      rw [if_neg (by simp [stops]), decided] at met
      unfold act note at round
      cases decision with
      | final text =>
        obtain ⟨done, t, ended⟩ := report_calm calm step text step
          { u with trace := u.trace ++ [.decided step (.final text)] }
        rw [turns_ended (round.trans ended), met]
        simp
      | toolCall name arguments =>
        obtain ⟨t, called, same⟩ := @callTool_calm agent env calm step name arguments
          { u with trace := u.trace ++ [.decided step (.toolCall name arguments)] }
        rw [turns_more (round.trans called), met, ih, same, kept]
      | replan reason steps =>
        obtain ⟨goesOn, fails⟩ := replan_calm calm step reason steps
          { u with trace := u.trace ++ [.decided step (.replan reason steps)] }
        rw [met]
        by_cases accepted : 3 ≤ u.revisions ∨ Planned steps
        · obtain ⟨t, revised, counted⟩ := goesOn accepted
          rw [turns_more (round.trans revised), ih, counted, ← kept]
          exact (allowed_cons accepted).symm
        · have few : u.revisions < 3 := by omega
          have blank : ¬ Planned steps := fun filled => accepted (.inr filled)
          obtain ⟨e, t, raised⟩ := fails few blank
          rw [turns_raised (round.trans raised), ← kept]
          constructor
          · rintro ⟨done, v, returned⟩
            cases returned
          · intro all
            refine absurd (all steps ?_) blank
            obtain ⟨n, more⟩ : ∃ n, 3 - u.revisions = n + 1 := ⟨2 - u.revisions, by omega⟩
            rw [more]
            exact mem_cons_self

end Loop

/-- With a model that answers, and stores, callbacks and tools that do not raise, a run of a goal that
is not blank ends in a report if and only if each of the first three revisions the model asks for has
a step that is not blank. -/
theorem run_reports_iff (agent : Agent) (start : Start) (env : Env) (goal : String)
    (filled : PgJobs.blank goal = false) (calm : Calm env) :
    (∃ done loop, runGoal agent start env goal = (.ok (some done), loop)) ↔
      Revisable env agent.maxSteps.toNat := by
  have calmLaunched : Calm (start.launch env goal) :=
    ⟨calm.decides, calm.remembers, calm.approves, calm.executes⟩
  have met : ∀ left step, replansMet (start.launch env goal) left step = replansMet env left step := by
    intro left
    induction left with
    | zero => exact fun step => rfl
    | succ left ih =>
      intro step
      simp only [replansMet, ih]
      rfl
  obtain ⟨first, planned⟩ := plan_ok start.actions (scrub_filled start filled) (show 1 ≤ 8 by decide)
  have prepared : (start.launch env goal).prepared = .ok first := by
    unfold Start.launch
    rw [planned]
    rfl
  unfold runGoal run
  rw [prepared]
  rw [turns_report_iff calmLaunched, met]
  rfl

/-- A model that asks for the same revision in every round. -/
def rethinking (steps : List String) : Env where
  runId := "r1"
  goal := ""
  prepared := .error (.raised "not started")
  checks := fun _ => {}
  decide := fun _ => .ok (.replan "no progress" steps)
  approve := none
  execute := fun _ _ _ => .ok .null
  remember := fun _ => .ok ()
  unknownTool := id
  shown := fun _ => ""
  scrub := id

def patient : Agent where
  maxSteps := 4
  policy := { positive := Policy.default_positive }
  tools := fun _ => none
  matching := ⟨fun _ _ => false, id, some⟩
  redaction := ⟨fun _ => false, id⟩

def plainStart : Start := ⟨id, [], fun text => [text]⟩

theorem rethinking_calm (steps : List String) : Calm (rethinking steps) where
  decides := fun _ => ⟨_, rfl⟩
  remembers := fun _ => rfl
  approves := by
    intro approve given
    cases given
  executes := fun _ _ _ => ⟨_, rfl⟩

/-- One step of two blanks is admitted by the schema, and ends the run with an error. -/
theorem blank_revision_raises :
    Calm (rethinking ["  "]) ∧ PgJobs.blank "tidy up" = false ∧
      ∃ loop, runGoal patient plainStart (rethinking ["  "]) "tidy up" =
        (.error (.planner (.valueError "replan must contain at least one non-empty step")), loop) :=
  ⟨rethinking_calm ["  "], by decide +kernel, _, rfl⟩

theorem revised_reports :
    ∃ done loop, runGoal patient plainStart (rethinking ["look again", " "]) "tidy up" =
      (.ok (some done), loop) := by
  refine (run_reports_iff patient plainStart (rethinking ["look again", " "]) "tidy up"
    (by decide +kernel) (rethinking_calm _)).mpr ?_
  intro steps asked
  have same : steps = ["look again", " "] := by simpa [replansMet, rethinking, patient, stopped] using asked
  rw [same]
  exact ⟨"look again", mem_cons_self, by decide +kernel⟩

end Meemee.Guarantees.AgentReports
