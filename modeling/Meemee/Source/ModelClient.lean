import Mathlib.Algebra.Order.Field.Rat
import Meemee.Source.Accounts

/-!
# The model client: OpenAICompatibleModel

`decide` and `chat` of `meemee/llm.py`: one loop of attempts each. A response is any status with any
`Retry-After` text and any body; `float(text)`, `AgentDecision.model_validate_json`, `asyncio.sleep` and
the texts of Python's own exceptions are parameters. The request itself is left out.
-/
namespace Meemee.Source.ModelClient

/-- A Python float; the finite ones are taken as they are. -/
inductive PyFloat where
  | finite (q : ℚ)
  | infinite (negative : Bool)
  | nan
  deriving DecidableEq

/-- `min(x, bound)`: the bound where it is less than `x`, which nothing is than a NaN. -/
def PyFloat.atMost (bound : ℚ) : PyFloat → PyFloat
  | .finite q => .finite (if bound < q then bound else q)
  | .infinite negative => if negative then .infinite true else .finite bound
  | .nan => .nan

/-- A value of `random.random()`. -/
def Fraction : Type := { q : ℚ // 0 ≤ q ∧ q < 1 }

/-- What the body of the loop can raise, with `str(exc)`. -/
inductive PyExc where
  | timeoutException (text : String)
  | networkError (text : String)
  | remoteProtocolError (text : String)
  | httpStatusError (text : String) (status : Nat) (retryAfter : Option String)
  /-- Any other `httpx.RequestError`. -/
  | requestError (text : String)
  | recursionError (text : String)
  | keyError (text : String)
  | indexError (text : String)
  | typeError (text : String)
  /-- With `json.JSONDecodeError` and pydantic's `ValidationError`, which are among them. -/
  | valueError (text : String)
  | modelError (text : String)
  deriving DecidableEq, Repr

def PyExc.text : PyExc → String
  | .timeoutException text | .networkError text | .remoteProtocolError text
  | .httpStatusError text _ _ | .requestError text | .recursionError text | .keyError text
  | .indexError text | .typeError text | .valueError text | .modelError text => text

def PyExc.isModelError : PyExc → Bool
  | .modelError _ => true
  | _ => false

/-- What reading a payload raises. -/
inductive Fault where
  | recursionError (text : String)
  | typeError (text : String)
  | valueError (text : String)
  deriving DecidableEq, Repr

def Fault.exc : Fault → PyExc
  | .recursionError text => .recursionError text
  | .typeError text => .typeError text
  | .valueError text => .valueError text

/-- What comes of one `client.post`. -/
inductive Posted where
  | timeoutException (text : String)
  | networkError (text : String)
  | remoteProtocolError (text : String)
  | requestError (text : String)
  /-- A response; its body as `response.json()` reads it. -/
  | response (status : Nat) (retryAfter : Option String) (body : Except Fault Json)

/-- What the interpreter and the libraries compute. -/
structure Python (δ : Type) where
  /-- `float(text)`; none where it raises ValueError. -/
  float : String → Option PyFloat
  /-- `repr(exc)`. -/
  repr : PyExc → String
  /-- `repr(key)`, the text of a KeyError. -/
  reprKey : String → String
  /-- The text of the TypeError for a subscript that a value does not take. -/
  notSubscriptable : Json → String
  /-- The text `raise_for_status` gives its error. -/
  statusText : Nat → String
  /-- `AgentDecision.model_validate_json`. -/
  validate : Json → Except Fault δ
  /-- What `asyncio.sleep` raises, if anything: the text of its ValueError. -/
  sleep : PyFloat → Option String

variable {δ : Type}

/-- `value[key]` of a string key. -/
def getKey (python : Python δ) (value : Json) (key : String) : Except PyExc Json :=
  match value with
  | .obj fields =>
    match fields.lookup key with
    | some found => .ok found
    | none => .error (.keyError (python.reprKey key))
  | other => .error (.typeError (python.notSubscriptable other))

/-- `value[0]`. -/
def getFirst (python : Python δ) (value : Json) : Except PyExc Json :=
  match value with
  | .arr [] => .error (.indexError "list index out of range")
  | .arr (item :: _) => .ok item
  | .str text =>
    match text.toList with
    | [] => .error (.indexError "string index out of range")
    | c :: _ => .ok (.str (String.singleton c))
  | .obj _ => .error (.keyError "0")
  | other => .error (.typeError (python.notSubscriptable other))

/-- Whether `choice.get("finish_reason")` is a text. -/
def finished (fields : List (String × Json)) (reason : String) : Bool :=
  match fields.lookup "finish_reason" with
  | some (.str text) => decide (text = reason)
  | _ => false

/-- The checks of a choice, and its content. -/
def choiceContent (python : Python δ) (choice : Json) : Except PyExc Json :=
  match choice with
  | .obj fields =>
    if finished fields "length" then
      .error (.modelError "model completion was truncated by the token limit")
    else if finished fields "content_filter" then
      .error (.modelError "model completion was blocked by the provider content filter")
    else do
      let message ← getKey python choice "message"
      getKey python message "content"
  | _ => .error (.valueError "invalid completion choice object")

def content (python : Python δ) (payload : Json) : Except PyExc Json := do
  let choices ← getKey python payload "choices"
  let choice ← getFirst python choices
  choiceContent python choice

/-- What `decide` makes of the content. -/
def decision (python : Python δ) (text : Json) : Except PyExc δ :=
  (python.validate text).mapError Fault.exc

/-- What `chat` makes of it. -/
def reply (text : Json) : Except PyExc String :=
  match text with
  | .str text =>
    if PgJobs.strip text = "" then .error (.modelError "model returned an empty chat completion")
    else .ok (PgJobs.strip text)
  | _ => .error (.modelError "model returned an empty chat completion")

/-- `{408, 429, 500, 502, 503, 504}`. -/
def transientStatus (status : Nat) : Bool := decide (status ∈ [408, 429, 500, 502, 503, 504])

/-- The body of the `try`. -/
def attempted {ρ : Type} (python : Python δ) (read : Json → Except PyExc ρ) :
    Posted → Except PyExc ρ
  | .timeoutException text => .error (.timeoutException text)
  | .networkError text => .error (.networkError text)
  | .remoteProtocolError text => .error (.remoteProtocolError text)
  | .requestError text => .error (.requestError text)
  | .response status retryAfter body =>
    if transientStatus status then
      .error (.httpStatusError ("transient model HTTP " ++ toString status) status retryAfter)
    else if 200 ≤ status ∧ status ≤ 299 then do
      let payload ← body.mapError Fault.exc
      let text ← content python payload
      read text
    else .error (.httpStatusError (python.statusText status) status retryAfter)

/-- The first handler's exceptions, and whether it may retry: `none` for the other handlers'. -/
def retryable : PyExc → Option Bool
  | .timeoutException _ | .networkError _ | .remoteProtocolError _ => some true
  | .httpStatusError _ status _ => some (transientStatus status)
  | _ => none

/-- `min(2 ** (attempt - 1), 8)`. -/
def backoff (attempt : Nat) : Nat := min (2 ^ (attempt - 1)) 8

/-- The header of a response with an error status. -/
def retryAfterOf : PyExc → Option String
  | .httpStatusError _ _ retryAfter => retryAfter
  | _ => none

/-- `delay`. An empty header is no header. -/
def delayOf (python : Python δ) (attempt : Nat) (random : Fraction) (exc : PyExc) : PyFloat :=
  match retryAfterOf exc with
  | none => .finite (backoff attempt + random.1 * mkRat 1 4)
  | some header =>
    if header = "" then .finite (backoff attempt + random.1 * mkRat 1 4)
    else
      match python.float header with
      | some value => value.atMost 30
      | none => .finite (backoff attempt)

/-- What the other handlers raise; `noun` is what the payload was read as. A `ModelError` is caught
by none of them. -/
def reraised (python : Python δ) (noun : String) (exc : PyExc) : PyExc :=
  match exc with
  | .requestError _ | .recursionError _ =>
    .modelError ("model response could not be processed: " ++ python.repr exc)
  | .keyError text | .indexError text | .typeError text | .valueError text =>
    .modelError ("model returned an invalid " ++ noun ++ " payload: " ++ text)
  | other => other

/-- A call: how often it posted, the delays it slept, and how it ended. -/
structure Run (ρ : Type) where
  posts : Nat
  delays : List PyFloat
  result : Except PyExc ρ

def Run.after {ρ : Type} (delay : PyFloat) (run : Run ρ) : Run ρ :=
  { posts := run.posts + 1, delays := delay :: run.delays, result := run.result }

/-- The `raise` behind the loop. -/
def exhausted (attempts : Nat) (exc : PyExc) : PyExc :=
  .modelError ("model request failed after " ++ toString attempts ++ " attempts: " ++ exc.text)

/-- The attempts from one on, `remaining` of them left after it. -/
def attempts {ρ : Type} (python : Python δ) (read : Json → Except PyExc ρ) (noun : String)
    (world : Nat → Posted) (random : Nat → Fraction) (attempt : Nat) : Nat → Run ρ
  | 0 =>
    match attempted python read (world attempt) with
    | .ok value => ⟨1, [], .ok value⟩
    | .error exc =>
      match retryable exc with
      | some _ => ⟨1, [], .error (exhausted attempt exc)⟩
      | none => ⟨1, [], .error (reraised python noun exc)⟩
  | remaining + 1 =>
    match attempted python read (world attempt) with
    | .ok value => ⟨1, [], .ok value⟩
    | .error exc =>
      match retryable exc with
      | some true =>
        match python.sleep (delayOf python attempt (random attempt) exc) with
        | none => (attempts python read noun world random (attempt + 1) remaining).after
            (delayOf python attempt (random attempt) exc)
        | some text => ⟨1, [delayOf python attempt (random attempt) exc], .error (.valueError text)⟩
      | some false => ⟨1, [], .error (exhausted attempt exc)⟩
      | none => ⟨1, [], .error (reraised python noun exc)⟩

/-- `__init__` refuses fewer attempts than one. -/
structure OpenAICompatibleModel where
  maxAttempts : Nat
  positive : 1 ≤ maxAttempts

def OpenAICompatibleModel.decide (client : OpenAICompatibleModel) (python : Python δ)
    (world : Nat → Posted) (random : Nat → Fraction) : Run δ :=
  attempts python (decision python) "decision" world random 1 (client.maxAttempts - 1)

def OpenAICompatibleModel.chat (client : OpenAICompatibleModel) (python : Python δ)
    (world : Nat → Posted) (random : Nat → Fraction) : Run String :=
  attempts python reply "chat" world random 1 (client.maxAttempts - 1)

end Meemee.Source.ModelClient
