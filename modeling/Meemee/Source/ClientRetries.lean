import Mathlib.Tactic.Linarith
import Meemee.Source.ModelClient

/-!
# The retries of the SDK's clients

`RetryPolicy` of `meemee_client/retry.py` and `_request` of `client.py` and of `aio.py`: the body of
each `while True` on its own, as a turn that goes round again or leaves. What the transport, the
credentials' `refresh` and the `sleeper` do are inputs; which URL, body and headers are sent is left
out. `aclose` of a response that was read does nothing.
-/
namespace Meemee.Source.ClientRetries
open ModelClient (PyFloat Fraction)

/-- What Python computes. A finite result is rounded, and none overflows. -/
structure Python where
  round : ℚ → ℚ
  monotone : ∀ a b, a ≤ b → round a ≤ round b
  zero : round 0 = 0
  again : ∀ q, round (round q) = round q
  /-- C's `pow` with a whole exponent. -/
  power : ℚ → Nat → ℚ
  positive : ∀ q n, 0 ≤ q → 0 ≤ power q n
  /-- `float(text)`; none where it raises ValueError. -/
  float : String → Option PyFloat
  /-- `str.upper`. -/
  upper : String → String

/-- `x <= y` -/
def Le : PyFloat → PyFloat → Prop
  | .finite a, .finite b => a ≤ b
  | .finite _, .infinite negative => negative = false
  | .infinite negative, .finite _ => negative = true
  | .infinite a, .infinite b => a = true ∨ b = false
  | _, _ => False

/-- `x < y` -/
def lt : PyFloat → PyFloat → Bool
  | .finite a, .finite b => decide (a < b)
  | .finite _, .infinite negative => !negative
  | .infinite negative, .finite _ => negative
  | .infinite a, .infinite b => a && !b
  | _, _ => false

/-- `min(x, y)` and `max(x, y)`: the first unless the second is less, or greater. -/
def least (x y : PyFloat) : PyFloat := if lt y x then y else x

def greatest (x y : PyFloat) : PyFloat := if lt x y then y else x

variable (python : Python)

/-- `x * y` -/
def times : PyFloat → PyFloat → PyFloat
  | .finite a, .finite b => .finite (python.round (a * b))
  | .finite a, .infinite negative | .infinite negative, .finite a =>
    if a = 0 then .nan else .infinite (negative != decide (a < 0))
  | .infinite a, .infinite b => .infinite (a != b)
  | _, _ => .nan

/-- `x ** n` -/
def raised : PyFloat → Nat → PyFloat
  | _, 0 => .finite 1
  | .finite q, n => .finite (python.power q n)
  | .infinite negative, n => .infinite (negative && decide (n % 2 = 1))
  | .nan, _ => .nan

structure RetryPolicy where
  maxAttempts : Int
  backoffBaseSeconds : PyFloat
  backoffMultiplier : PyFloat
  backoffMaxSeconds : PyFloat
  retryStatuses : List Int
  retryMethods : List String
  respectRetryAfter : Bool
  retryAfterMaxSeconds : PyFloat

variable (policy : RetryPolicy)

def canRetry (method : String) (attempt : Nat) : Bool :=
  decide (python.upper method ∈ policy.retryMethods) && decide ((attempt : Int) < policy.maxAttempts)

def isRetryableStatus (statusCode : Int) : Bool := decide (statusCode ∈ policy.retryStatuses)

def window (attempt : Nat) : PyFloat :=
  least (times python policy.backoffBaseSeconds (raised python policy.backoffMultiplier (attempt - 1)))
    policy.backoffMaxSeconds

variable (draws : Nat → Fraction)

/-- `delay`, and how many draws were then made. `uniform(0.0, window)` is
`0.0 + (window - 0.0) * random()`. -/
def delay (attempt : Nat) (retryAfter : Option PyFloat) (drawn : Nat) : PyFloat × Nat :=
  match policy.respectRetryAfter, retryAfter with
  | true, some value => (greatest (.finite 0) (least value policy.retryAfterMaxSeconds), drawn)
  | _, _ => (times python (window python policy attempt) (.finite (draws drawn).1), drawn + 1)

/-- What comes of one `http.request`. -/
inductive Answer where
  | transportError
  /-- Any other exception, from the credentials or the transport. -/
  | raised
  /-- `recorded` is whether its `RateLimit` headers can be read. -/
  | response (statusCode : Int) (retryAfter : Option String) (recorded : Bool)

inductive Step where
  | sent (answer : Answer)
  | refreshed
  | slept (time : PyFloat)

inductive Ending where
  | returned (statusCode : Int)
  | apiError (statusCode : Int)
  | networkError
  /-- What the transport, the credentials, the sleeper or a header raised. -/
  | raised

structure Request where
  method : String
  headers : Option (List (String × String))
  allowedStatuses : List Int
  canRefresh : Bool
  /-- Whether `refresh` returns, and which sleeps do. -/
  refreshes : Bool
  sleeper : PyFloat → Bool

/-- The variables of the loop, and how many random numbers were drawn. -/
structure State where
  attempt : Nat := 0
  authRefreshed : Bool := false
  drawn : Nat := 0

inductive Turn where
  | again (steps : List Step) (next : State)
  | leave (steps : List Step) (ending : Ending)

def parseRetryAfter (value : Option String) : Option PyFloat := value.bind python.float

variable (request : Request)

/-- `bool(headers and headers.get("Idempotency-Key"))` -/
def keyed : Bool :=
  ((request.headers.getD []).lookup "Idempotency-Key").any (fun key => decide (key ≠ ""))

/-- `sleeper(policy.delay(attempt, retry_after))` and `continue`. -/
def pause (s : State) (retryAfter : Option PyFloat) : Turn :=
  let (time, drawn) := delay python policy draws s.attempt retryAfter s.drawn
  if request.sleeper time then .again [.slept time] { s with drawn } else .leave [.slept time] .raised

/-- The loop body of `MeemeeClient._request`. -/
def turn (s : State) (answer : Answer) : Turn :=
  let s := { s with attempt := s.attempt + 1 }
  match answer with
  | .raised => .leave [] .raised
  | .transportError =>
    let retryableWrite := decide (python.upper request.method = "POST") && keyed request
    if canRetry python policy request.method s.attempt ||
        (retryableWrite && decide ((s.attempt : Int) < policy.maxAttempts)) then
      pause python policy draws request s none
    else .leave [] .networkError
  | .response statusCode header recorded =>
    if !recorded then .leave [] .raised
    else if statusCode = 401 ∧ s.authRefreshed = false ∧ request.canRefresh = true then
      let s := { s with authRefreshed := true, attempt := s.attempt - 1 }
      if request.refreshes then .again [.refreshed] s else .leave [.refreshed] .raised
    else
      let retryableWrite := decide (python.upper request.method = "POST") && keyed request
      let keyedStatusRetry := retryableWrite && decide (statusCode ≠ 429) &&
        decide ((s.attempt : Int) < policy.maxAttempts)
      if 400 ≤ statusCode ∧ isRetryableStatus policy statusCode = true ∧
          (canRetry python policy request.method s.attempt || keyedStatusRetry) = true then
        pause python policy draws request s (parseRetryAfter python header)
      else if 400 ≤ statusCode ∧ statusCode ∉ request.allowedStatuses then
        .leave [] (.apiError statusCode)
      else .leave [] (.returned statusCode)

/-- The loop body of `AsyncMeemeeClient._request`, which reads `retryable_write` once before it. -/
def aioTurn (retryableWrite : Bool) (s : State) (answer : Answer) : Turn :=
  let s := { s with attempt := s.attempt + 1 }
  match answer with
  | .raised => .leave [] .raised
  | .transportError =>
    if canRetry python policy request.method s.attempt ||
        (retryableWrite && decide ((s.attempt : Int) < policy.maxAttempts)) then
      pause python policy draws request s none
    else .leave [] .networkError
  | .response statusCode header recorded =>
    if !recorded then .leave [] .raised
    else if statusCode = 401 ∧ s.authRefreshed = false ∧ request.canRefresh = true then
      let s := { s with authRefreshed := true, attempt := s.attempt - 1 }
      if request.refreshes then .again [.refreshed] s else .leave [.refreshed] .raised
    else
      let keyedStatusRetry := retryableWrite && decide (statusCode ≠ 429) &&
        decide ((s.attempt : Int) < policy.maxAttempts)
      if 400 ≤ statusCode ∧ isRetryableStatus policy statusCode = true ∧
          (canRetry python policy request.method s.attempt || keyedStatusRetry) = true then
        pause python policy draws request s (parseRetryAfter python header)
      else if 400 ≤ statusCode ∧ statusCode ∉ request.allowedStatuses then
        .leave [] (.apiError statusCode)
      else .leave [] (.returned statusCode)

/-- What was done, and how it ended, if the answers so far end it. -/
structure Call where
  steps : List Step
  ending : Option Ending

def Turn.then (answer : Answer) (rest : State → Call) : Turn → Call
  | .again steps next => ⟨.sent answer :: (steps ++ (rest next).steps), (rest next).ending⟩
  | .leave steps ending => ⟨.sent answer :: steps, some ending⟩

/-- A `while True` of turns. -/
def loop (turn : State → Answer → Turn) : State → List Answer → Call
  | _, [] => ⟨[], none⟩
  | s, answer :: more => (turn s answer).then answer (fun next => loop turn next more)

/-- `MeemeeClient._request` -/
def syncRequest (answers : List Answer) : Call :=
  loop (turn python policy draws request) {} answers

/-- `AsyncMeemeeClient._request` -/
def asyncRequest (answers : List Answer) : Call :=
  let retryableWrite := decide (python.upper request.method = "POST") && keyed request
  loop (aioTurn python policy draws request retryableWrite) {} answers

end Meemee.Source.ClientRetries
