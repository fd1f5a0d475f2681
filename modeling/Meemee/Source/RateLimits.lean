import Mathlib.Data.Rat.Floor
import Meemee.Library.History
import Meemee.Source.QuotaCalls

/-!
# SQLiteRateLimiter

`SQLiteRateLimiter` of `meemee/rate_limit.py`: one counter for each identity and each window of the
clock, counted up under BEGIN IMMEDIATE. A clock reading is a finite number of seconds.
-/
namespace Meemee.Source.RateLimits
open Library
open Source.QuotaCalls.SQLite (fitsInteger)

/-- A limiter that `validate_rate_config` accepted. -/
structure Limiter where
  limit : Int
  window : Int
  limit_pos : 1 ≤ limit
  window_pos : 1 ≤ window

def Limiter.make (limit window : Int) : Except Exc Limiter :=
  if positive : 1 ≤ limit ∧ 1 ≤ window then .ok ⟨limit, window, positive.1, positive.2⟩
  else .error (.valueError "rate limit and window must be positive integers")

/-- A row of `rate_limits`, `PRIMARY KEY(identity, window_start)`. -/
structure Counter where
  identity : String
  windowStart : Int
  count : Int
  deriving DecidableEq, Repr

def Counter.id (c : Counter) : String × Int := (c.identity, c.windowStart)

def Counter.counted (c : Counter) : Counter := { c with count := c.count + 1 }

@[simp] theorem Counter.counted_id (c : Counter) : c.counted.id = c.id := rfl

abbrev Counters := Table Counter.id

/-- `int(now)`, which cuts the fraction off. -/
def wholeSeconds (now : ℚ) : Int := if 0 ≤ now then ⌊now⌋ else ⌈now⌉

/-- SQLite's integers have 64 bits. -/
def storable (n : Int) : Bool := decide (-9223372036854775808 ≤ n) && fitsInteger n

def tooLarge : Exc := .overflowError "Python int too large to convert to SQLite INTEGER"

namespace Limiter

variable (limiter : Limiter)

def windowStart (now : ℚ) : Int := wholeSeconds now - wholeSeconds now % limiter.window

/-- What `hit` answers. -/
structure Decision where
  allowed : Bool
  remaining : Int
  reset : Int
  deriving DecidableEq, Repr

/-- `INSERT ... VALUES(?,?,1) ON CONFLICT DO UPDATE SET count=count+1`. -/
def upsert (counters : Counters) (identity : String) (start : Int) : Counters :=
  match counters.find (identity, start) with
  | none => (counters.insertOrIgnore ⟨identity, start, 1⟩).1
  | some _ =>
    counters.update (fun c => decide (c.id = (identity, start))) Counter.counted Counter.counted_id

/-- The stored count; a window without a row has none. -/
def countOf (counters : Counters) (identity : String) (start : Int) : Int :=
  match counters.find (identity, start) with
  | none => 0
  | some row => row.count

def decision (start count : Int) : Decision :=
  ⟨decide (count ≤ limiter.limit), max (limiter.limit - count) 0, start + limiter.window⟩

def hit (identity : String) (now : ℚ) : Txn Counters Exc Decision :=
  Txn.atomically do
    let start := limiter.windowStart now
    Txn.require (storable start) tooLarge
    Txn.write (fun counters => upsert counters identity start)
    let count ← Txn.read (fun counters => countOf counters identity start)
    return limiter.decision start count

def cleanup (now : ℚ) : Txn Counters Exc Nat := do
  let cutoff := wholeSeconds now - limiter.window * 2
  Txn.require (storable cutoff) tooLarge
  let removed ← Txn.read (fun counters =>
    (counters.select (fun c => decide (c.windowStart < cutoff))).length)
  Txn.write (fun counters => counters.delete (fun c => decide (c.windowStart < cutoff)))
  return removed

end Limiter

inductive Call where
  | hit (identity : String) (now : ℚ)
  | cleanup (now : ℚ)
  deriving DecidableEq

/-- The clock reading of a call. -/
def Call.now : Call → ℚ
  | .hit _ now => now
  | .cleanup now => now

def Call.isHit : Call → Bool
  | .hit _ _ => true
  | .cleanup _ => false

inductive Answer where
  | decided (decision : Limiter.Decision)
  | removed (count : Nat)
  | raised (e : Exc)
  deriving DecidableEq, Repr

/-- One call of the shared store. -/
def step (limiter : Limiter) (counters : Counters) : Call → Answer × Counters
  | .hit identity now =>
    match limiter.hit identity now counters with
    | (.ok decision, after) => (.decided decision, after)
    | (.error e, after) => (.raised e, after)
  | .cleanup now =>
    match limiter.cleanup now counters with
    | (.ok removed, after) => (.removed removed, after)
    | (.error e, after) => (.raised e, after)

/-- The calls of a run with what they answered, from an empty store. -/
def run (limiter : Limiter) (calls : List Call) : List (Call × Answer) :=
  (History.history (step limiter) Table.empty calls).map (fun e => (e.action, e.answer))

end Meemee.Source.RateLimits
