import Meemee.Library.Txn

/-!
# Database sessions under an authorizer

A session reads and writes through its open transaction. Before a statement runs, the authorizer is
asked about everything it would do: one refusal and the statement does nothing. A program whose
authorizer refuses the requests that reach past the transaction is all or nothing.
-/
namespace Library

/-- What is stored, what the open transaction sees, and the number of calls so far. -/
structure Session (ν : Type) where
  stored : ν
  work : Option ν
  calls : Nat

/-- How a statement ends inside a transaction. -/
inductive Ending (ν ε : Type) where
  | done (view : ν)
  /-- It failed and the transaction goes on. -/
  | failed (e : ε) (view : ν)
  /-- It failed and took the transaction with it. -/
  | undone (e : ε)

/-- A database engine: what a statement requests, what it does inside a transaction, and what it
does when it reaches past one. The number of the call stands for the moment, so that the same
statement may fail at one call and not at another. -/
structure Engine (ρ ν ε : Type) where
  requests : List Char → ν → List ρ
  reachesPast : ρ → Bool
  effect : Nat → List Char → ν → Ending ν ε
  elsewhere : Nat → List Char → Session ν → Except ε Unit × Session ν
  refused : ε
  fault : Nat → Option ε

namespace Session

variable {ρ ν ε α β : Type}

/-- What a statement sees. -/
def view (s : Session ν) : ν := s.work.getD s.stored

/-- The next call. -/
def tick (s : Session ν) : Session ν := { s with calls := s.calls + 1 }

/-- The end of a statement: outside a transaction it is stored at once or not at all. -/
def settle (s : Session ν) : Ending ν ε → Except ε Unit × Session ν
  | .done v =>
    (.ok (), if s.work.isSome then { s with work := some v } else { s with stored := v })
  | .failed e v => (.error e, if s.work.isSome then { s with work := some v } else s)
  | .undone e => (.error e, { s with work := none })

/-- Run one statement under an authorizer. -/
def execute (engine : Engine ρ ν ε) (allows : ρ → Bool) (statement : List Char) :
    Txn (Session ν) ε Unit := fun s =>
  let requests := engine.requests statement s.view
  if requests.all allows then
    if requests.any engine.reachesPast || s.work.isNone then
      engine.elsewhere s.calls statement s.tick
    else s.tick.settle (engine.effect s.calls statement s.view)
  else (.error engine.refused, s.tick)

/-- A call that the surroundings may fail. -/
def attempt (engine : Engine ρ ν ε) (call : Session ν → Except ε α × Session ν) :
    Txn (Session ν) ε α := fun s =>
  match engine.fault s.calls with
  | some e => (.error e, s.tick)
  | none => call s.tick

/-- A statement of the program itself, whose effect is known. -/
def act (engine : Engine ρ ν ε) (effect : Nat → ν → Ending ν ε) : Txn (Session ν) ε Unit :=
  attempt engine (fun s => s.settle (effect s.calls s.view))

/-- A query of the program itself. -/
def look (engine : Engine ρ ν ε) (query : ν → α) : Txn (Session ν) ε α :=
  attempt engine (fun s => (.ok (query s.view), s))

def begin (engine : Engine ρ ν ε) : Txn (Session ν) ε Unit :=
  attempt engine (fun s => (.ok (), { s with work := some s.view }))

def commit (engine : Engine ρ ν ε) : Txn (Session ν) ε Unit :=
  attempt engine (fun s => (.ok (), { s with stored := s.view, work := none }))

/-- A rollback whose own failure is ignored. -/
def rollbackQuietly (engine : Engine ρ ν ε) : Txn (Session ν) ε Unit := fun s =>
  match engine.fault s.calls with
  | some _ => (.ok (), s.tick)
  | none => (.ok (), { s.tick with work := none })

/-- A program between `BEGIN` and `COMMIT`. -/
def transaction (engine : Engine ρ ν ε) (m : Txn (Session ν) ε α) : Txn (Session ν) ε α := do
  begin engine
  let a ← m
  commit engine
  pure a

variable {engine : Engine ρ ν ε} {allows : ρ → Bool} {m : Txn (Session ν) ε α}
  {next : α → Txn (Session ν) ε β} {reaches : ν → α → ν → Prop} {reachesNext : ν → β → ν → Prop}

theorem attempt_cases (engine : Engine ρ ν ε) (call : Session ν → Except ε α × Session ν) (s : Session ν) :
    (∃ e, attempt engine call s = (.error e, s.tick)) ∨ attempt engine call s = call s.tick := by
  cases faulted : engine.fault s.calls with
  | some e => exact .inl ⟨e, by simp only [attempt, faulted]⟩
  | none => exact .inr (by simp only [attempt, faulted])

end Session
end Library
