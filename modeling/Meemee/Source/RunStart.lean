import Meemee.Source.AgentLoop

/-!
# How a run starts

`scrub_text` of `meemee/sensitive.py`, `TaskPlanner.plan` of `meemee/planner.py`, and the lines of
`Agent.run` before its loop. What a compiled pattern finds in a text, and how `ACTIONS` splits one,
are parameters.
-/
namespace Meemee.Source.RunStart
open Source.AgentLoop Source.Plans

/-- A stretch of a text between two matches, or a match with its first two groups. -/
inductive Piece where
  | plain (text : List Char)
  | found (whole first second : List Char)

def Piece.text : Piece → List Char
  | .plain text => text
  | .found whole _ _ => whole

/-- A compiled pattern: its matches and what lies between them make up the text. -/
structure Pattern where
  scan : List Char → List Piece
  covers : ∀ text, (scan text).flatMap Piece.text = text

def marker (sha256 : String → String) (value : List Char) : List Char :=
  "[REDACTED:".toList ++ (sha256 (String.ofList value)).toList.take 16 ++ ':' ::
    (toString value.length).toList ++ [']']

/-- What the lambda puts in a match's place. The last pattern keeps the name before the secret. -/
def Piece.scrubbed (sha256 : String → String) (last : Bool) : Piece → List Char
  | .plain text => text
  | .found whole first second =>
    if last then first ++ '=' :: marker sha256 second else marker sha256 whole

/-- `pattern.sub(...)`. -/
def Pattern.sub (sha256 : String → String) (last : Bool) (pattern : Pattern) (text : List Char) :
    List Char :=
  (pattern.scan text).flatMap (Piece.scrubbed sha256 last)

/-- The loop over `PATTERNS`. -/
def scrubWith (sha256 : String → String) : List Pattern → List Char → List Char
  | [], text => text
  | pattern :: rest, text => scrubWith sha256 rest (pattern.sub sha256 rest.isEmpty text)

/-- `chunk.strip(" -")`. -/
def stripDashes (chunk : String) : String :=
  let front := chunk.toList.dropWhile (fun c => decide (c = ' ' ∨ c = '-'))
  String.ofList (front.reverse.dropWhile (fun c => decide (c = ' ' ∨ c = '-'))).reverse

def planStep (index : Nat) (description : String) : PlanStep where
  id := "step-" ++ toString index
  description := description
  dependsOn := if 1 < index then ["step-" ++ toString (index - 1)] else []
  status := .pending

/-- `TaskPlanner.plan`; `actions` is `ACTIONS.split`. -/
def plan (actions : String → List String) (goal : String) (maxSteps : Nat) : Except PlanExc Plan :=
  if PgJobs.blank goal then .error (.valueError "goal must be non-empty")
  else if maxSteps < 1 then .error (.valueError "max_steps must be positive")
  else
    let chunks := ((actions goal).map stripDashes).filter (fun chunk => decide (chunk ≠ ""))
    let descriptions := if chunks = [] then [PgJobs.strip goal] else chunks
    Plan.make goal ((descriptions.take maxSteps).mapIdx (fun i description => planStep (i + 1) description))

/-- What a run starts with. -/
structure Start where
  sha256 : String → String
  /-- `PATTERNS`. -/
  patterns : List Pattern
  actions : String → List String

/-- `scrub_text`. -/
def Start.scrub (start : Start) (text : String) : String :=
  String.ofList (scrubWith start.sha256 start.patterns text.toList)

/-- The goal and the plan that the loop starts from. -/
def Start.launch (start : Start) (env : Env) (goal : String) : Env :=
  { env with
    goal := start.scrub goal
    scrub := start.scrub
    prepared := (plan start.actions (start.scrub goal) 8).mapError .planner }

/-- `Agent.run`. -/
def runGoal (agent : Agent) (start : Start) (env : Env) (goal : String) :
    Except AgentExc (Option RunReport) × Loop :=
  run agent (start.launch env goal)

end Meemee.Source.RunStart
