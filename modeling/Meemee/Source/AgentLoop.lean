import Meemee.Source.Plans
import Meemee.Source.Policy
import Meemee.Source.Sensitive

/-!
# The agent loop

`Agent.run` of `meemee/agent.py`, with `meemee/tool_audit.py` and `revise` of `meemee/planner.py`. What
the loop meets in a turn (the cancel flag at its three checks, the model's decision, the tool's result,
the memory store) is the environment's, and its decisions are arbitrary. SHA-256 is a parameter.
-/
namespace Meemee.Source.AgentLoop
open Library
open Source.PgJobs (strip)
open Source.Plans (Plan PlanStep PlanExc)
open Source.Policy

inductive AgentExc where
  | planner (e : PlanExc)
  /-- What the model, a callback, a tool or the memory store raises. -/
  | raised (text : String)
  deriving DecidableEq, Repr

/-- `AgentDecision`: exactly one of the three. -/
inductive Decision where
  | toolCall (name : String) (arguments : Arguments)
  | final (text : String)
  | replan (reason : String) (steps : List String)

structure Redaction where
  /-- `SENSITIVE_KEYS.search(key)`. -/
  sensitive : String → Bool
  sha256 : String → String

/-- `json.dumps(value, sort_keys=True, default=str)`, which takes every value. -/
def dumped (value : Json) : String :=
  match Json.dumps { sortKeys := true, defaultStr := true } value with
  | .ok text => text
  | .error _ => ""

def fingerprint (r : Redaction) (value : Json) : Json :=
  .obj [("redacted", .bool true), ("sha256", .str (r.sha256 (dumped value))),
    ("bytes", .int (dumped value).utf8ByteSize)]

def truncated (r : Redaction) (text : String) : Json :=
  .obj [("truncated", .bool true), ("sha256", .str (r.sha256 text)),
    ("bytes", .int text.utf8ByteSize), ("preview", .str (String.ofList (text.toList.take 1000)))]

mutual

/-- `redact(value)` of a value under no sensitive key. -/
def redact (r : Redaction) : Json → Json
  | .obj fields => .obj (redactFields r fields)
  | .arr items => .arr (redactItems r items)
  | .str text => if 20000 < text.length then truncated r text else .str text
  | other => other

def redactItems (r : Redaction) : List Json → List Json
  | [] => []
  | item :: rest => redact r item :: redactItems r rest

/-- `redact(item, str(child))` of every field. -/
def redactFields (r : Redaction) : List (String × Json) → List (String × Json)
  | [] => []
  | (child, item) :: rest =>
    (child, if r.sensitive child then fingerprint r item else redact r item) :: redactFields r rest

end

inductive Reason where
  | approvalRequired | policyDenied
  deriving DecidableEq, Repr

/-- `ApprovalRefusal`. -/
structure Refusal where
  step : Nat
  tool : String
  risk : String
  reason : Reason
  detail : String
  arguments : Arguments
  grantable : Bool
  perRun : Option (List String)
  persistentGrant : Option (String × Arguments)

/-- A scalar that equals itself, of at most 500 characters. -/
def pinnable : Json → Bool
  | .str text => decide (text.length ≤ 500)
  | .int value => decide ((toString value).length ≤ 500)
  | .float .nan => false
  | .float (.finite text) => decide (text.length ≤ 500)
  | .float (.infinity _) => true
  | .bool _ => true
  | _ => false

/-- `_constraint_arguments`: a redacted value is pinned where redaction left it alone, and only an
object takes its place otherwise. -/
def constraintArguments (r : Redaction) (arguments : Arguments) : Arguments :=
  (redactFields r arguments).filter (fun entry => pinnable entry.2)

def refusal (r : Redaction) (step : Nat) (name : String) (risk : Risk) (reason : Reason)
    (detail : String) (arguments : Arguments) : Refusal :=
  let grantable := decide (reason = .approvalRequired)
  { step, tool := name, risk := risk.value, reason, detail
    arguments := redactFields r arguments
    grantable
    perRun := if grantable then some [name] else none
    persistentGrant := if grantable then some (name, constraintArguments r arguments) else none }

def revisionStep (index : Nat) (description : String) : PlanStep where
  id := "revision-step-" ++ toString index
  description := description
  dependsOn := if 1 < index then ["revision-step-" ++ toString (index - 1)] else []
  status := .pending

def revise (current : Plan) (descriptions : List String) : Except PlanExc Plan :=
  let cleaned := ((descriptions.filter (fun item => !PgJobs.blank item)).map strip).take 8
  if cleaned = [] then .error (.valueError "replan must contain at least one non-empty step")
  else Plan.make current.goal (cleaned.mapIdx (fun i description => revisionStep (i + 1) description))

def stepJson (step : PlanStep) : Json :=
  .obj [("id", .str step.id), ("description", .str step.description),
    ("depends_on", .arr (step.dependsOn.map Json.str)), ("status", .str step.status.text)]

/-- `plan.model_dump()`. -/
def planJson (plan : Plan) : Json :=
  .obj [("goal", .str plan.goal), ("steps", .arr (plan.steps.map stepJson))]

/-- What the three checks of a turn find: whether the cancel event is set. -/
structure Checks where
  before : Bool := false
  /-- Set while the model was still generating. -/
  during : Bool := false
  after : Bool := false

structure RunReport where
  runId : String
  goal : String
  final : String
  stepsUsed : Int
  toolResults : List Json
  approvalsRequired : List Refusal

structure Agent where
  maxSteps : Int
  policy : PolicyEngine
  /-- The registered tools, with their risks. -/
  tools : String → Option Risk
  matching : Matching
  redaction : Redaction

/-- A run's arguments and what its turns meet. -/
structure Env where
  runId : String
  goal : String
  /-- What comes before the loop: the plan, or what was raised. -/
  prepared : Except AgentExc Plan
  checks : Nat → Checks
  decide : Nat → Except AgentExc Decision
  /-- `approve`: none where the caller passed no callback. -/
  approve : Option (Nat → String → Arguments → Risk → Except AgentExc Bool)
  /-- `model_dump()` of what `tools.execute` returns. -/
  execute : Nat → String → Arguments → Except AgentExc Json
  /-- The turn's `memory.add`. -/
  remember : Nat → Except AgentExc Unit
  /-- `str(exc)` of the KeyError for an unknown tool, and `str` of a tool event. -/
  unknownTool : String → String
  shown : Json → String
  /-- `scrub_text`. -/
  scrub : String → String

/-- What a run does, in order. -/
inductive Effect where
  /-- A check found the cancel event set. -/
  | cancelled (step : Nat)
  /-- `model.decide`. -/
  | asked (step : Nat)
  /-- The loop takes a decision up. -/
  | decided (step : Nat) (decision : Decision)
  | revised (step : Nat) (plan : Plan)
  | consulted (step : Nat) (name : String) (arguments : Arguments) (risk : Risk) (answer : Bool)
  /-- `tools.execute`. -/
  | executed (step : Nat) (name : String) (arguments : Arguments)

/-- The loop's variables. -/
structure Loop where
  plan : Plan
  events : List Json
  refusals : List Refusal
  revisions : Nat
  trace : List Effect

abbrev Turn := Txn Loop AgentExc

def note (effect : Effect) : Turn Unit := Txn.write (fun s => { s with trace := s.trace ++ [effect] })

def addEvent (event : Json) : Turn Unit := Txn.write (fun s => { s with events := s.events ++ [event] })

def addRefusal (refused : Refusal) : Turn Unit :=
  Txn.write (fun s => { s with refusals := s.refusals ++ [refused] })

/-- `memory.add` and the report. -/
def report (env : Env) (step : Nat) (final : String) (stepsUsed : Int) : Turn (Option RunReport) := do
  Txn.ofExcept (env.remember step)
  Txn.read (fun s => some ⟨env.runId, env.goal, final, stepsUsed, s.events, s.refusals⟩)

def cancelled (env : Env) (step : Nat) (final : String) : Turn (Option RunReport) := do
  note (.cancelled step)
  report env step final (step - 1)

def planned (result : Except PlanExc Plan) : Turn Plan := Txn.ofExcept (result.mapError .planner)

/-- The `replan` branch. -/
def replan (env : Env) (step : Nat) (reason : String) (steps : List String) :
    Turn (Option RunReport) := do
  Txn.write (fun s => { s with revisions := s.revisions + 1 })
  let revisions ← Txn.read (fun s => s.revisions)
  if 3 < revisions then
    addEvent (.obj [("replan", .bool false), ("error", .str "replan limit exceeded")])
    Txn.ofExcept (env.remember step)
    return none
  else
    let current ← Txn.read (fun s => s.plan)
    let plan ← planned (revise current steps)
    Txn.write (fun s => { s with plan })
    note (.revised step plan)
    addEvent (.obj [("replan", .bool true), ("revision", .int revisions),
      ("reason", .str (env.scrub reason)), ("plan", planJson plan)])
    Txn.ofExcept (env.remember step)
    return none

def failed (error : String) : Json := .obj [("ok", .bool false), ("error", .str error)]

/-- `approve is not None and approve(name, arguments, risk)`. -/
def consult (env : Env) (step : Nat) (name : String) (arguments : Arguments) (risk : Risk) :
    Turn Bool :=
  match env.approve with
  | none => return false
  | some approve => do
    let answer ← Txn.ofExcept (approve step name arguments risk)
    note (.consulted step name arguments risk answer)
    return answer

def execute (env : Env) (step : Nat) (name : String) (arguments : Arguments) : Turn Json := do
  note (.executed step name arguments)
  Txn.ofExcept (env.execute step name arguments)

def approved (env : Env) (step : Nat) (name : String) (arguments : Arguments) (risk : Risk)
    (verdict : PolicyDecision) : Turn Bool :=
  if verdict.requireApproval then consult env step name arguments risk else return true

/-- The branch of a known tool. -/
def gated (agent : Agent) (env : Env) (step : Nat) (name : String) (arguments : Arguments)
    (risk : Risk) : Turn Json := do
  let verdict := agent.policy.evaluate agent.matching name arguments risk
  if verdict.allowed then
    let granted ← approved env step name arguments risk verdict
    if granted then execute env step name arguments
    else
      let error := "approval denied for " ++ risk.value ++ " tool"
      addRefusal (refusal agent.redaction step name risk .approvalRequired error arguments)
      return failed error
  else
    let error := "policy denied: " ++ verdict.reason
    addRefusal (refusal agent.redaction step name risk .policyDenied error arguments)
    return failed error

def attempt (agent : Agent) (env : Env) (step : Nat) (name : String) (arguments : Arguments) :
    Turn Json :=
  match agent.tools name with
  | none => return failed (env.unknownTool name)
  | some risk => gated agent env step name arguments risk

/-- The tool call of a turn. -/
def callTool (agent : Agent) (env : Env) (step : Nat) (name : String) (arguments : Arguments) :
    Turn (Option RunReport) := do
  let result ← attempt agent env step name arguments
  addEvent (.obj [("tool", .str name), ("arguments", .obj (redactFields agent.redaction arguments)),
    ("result", redact agent.redaction result)])
  Txn.ofExcept (env.remember step)
  return none

/-- What the loop does with a decision. -/
def act (agent : Agent) (env : Env) (step : Nat) (decision : Decision) : Turn (Option RunReport) := do
  note (.decided step decision)
  match decision with
  | .final text => report env step text step
  | .replan reason steps => replan env step reason steps
  | .toolCall name arguments => callTool agent env step name arguments

/-- One round of the loop; none where it goes on. -/
def turn (agent : Agent) (env : Env) (step : Nat) : Turn (Option RunReport) :=
  if (env.checks step).before then cancelled env step "Cancelled before the next agent step."
  else do
    note (.asked step)
    if (env.checks step).during then cancelled env step "Cancelled during model generation."
    else do
      let decision ← Txn.ofExcept (env.decide step)
      if (env.checks step).after then
        cancelled env step "Cancelled after model response, before action."
      else act agent env step decision

/-- The rounds that are left, and the end of the loop. -/
def turns (agent : Agent) (env : Env) : Nat → Nat → Turn (Option RunReport)
  | 0, step => do
    let last ← Txn.read (fun s => (s.events.getLast?.map env.shown).getD "none")
    report env step ("Stopped after " ++ toString agent.maxSteps ++
      " steps without a final answer. Last tool event: " ++ last) agent.maxSteps
  | left + 1, step => do
    let result ← turn agent env step
    match result with
    | some done => return some done
    | none => turns agent env left (step + 1)

/-- `Agent.run`: how it ended, and its loop's variables there. `range(1, max_steps + 1)` is empty
where `max_steps` is negative. -/
def run (agent : Agent) (env : Env) : Except AgentExc (Option RunReport) × Loop :=
  match env.prepared with
  | .error e => (.error e, ⟨⟨"", [], rfl⟩, [], [], 0, []⟩)
  | .ok plan => turns agent env agent.maxSteps.toNat 1 ⟨plan, [], [], 0, []⟩

end Meemee.Source.AgentLoop

namespace Meemee.Source.ToolAudit
open Library.Patterns Source Source.Sensitive
open Source.AgentLoop (Redaction)

def sensitiveKeys : Pattern Char :=
  .either (ignoringCase "token") (.either (ignoringCase "secret") (.either (ignoringCase "password")
    (.either (all [ignoringCase "api", maybe (fun c => c ∈ ['_', '-']), ignoringCase "key"])
      (.either (ignoringCase "authorization") (ignoringCase "cookie")))))

/-- `SENSITIVE_KEYS.search(key)`; the pattern has no `\b`. -/
def sensitiveKey (key : String) : Bool := !(sensitiveKeys.finditer wordChar key.toList).isEmpty

def redaction (sha256 : String → String) : Redaction := ⟨sensitiveKey, sha256⟩

/-- `redact(value, key)` -/
def redact (sha256 : String → String) (value : Json) (key : String := "") : Json :=
  if sensitiveKey key then AgentLoop.fingerprint (redaction sha256) value
  else AgentLoop.redact (redaction sha256) value

end Meemee.Source.ToolAudit
