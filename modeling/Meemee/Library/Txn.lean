import Mathlib.Data.List.Basic

/-!
# Database actions and transactions

`Txn σ ε α` is a program over a store `σ`: it reads and writes the store, returns
an `α` or raises an `ε`. A program that raises keeps what it had written so far;
`atomically` is the transaction bracket that puts the store back.
-/
namespace Library

theorem except_bind_returned {ε α β : Type} {m : Except ε α} {next : α → Except ε β} {b : β}
    (run : (m >>= next) = .ok b) : ∃ a, m = .ok a ∧ next a = .ok b := by
  cases m with
  | ok a => exact ⟨a, rfl, run⟩
  | error e => cases run

/-- A program over the store `σ` that may raise `ε`. -/
def Txn (σ ε α : Type) : Type := σ → Except ε α × σ

namespace Txn

variable {σ ε α β : Type}

instance : Monad (Txn σ ε) where
  pure a := fun s => (.ok a, s)
  bind m next := fun s =>
    match m s with
    | (.ok a, s') => next a s'
    | (.error e, s') => (.error e, s')

/-- Read something off the store. -/
def read (f : σ → α) : Txn σ ε α := fun s => (.ok (f s), s)

/-- Change the store. -/
def write (f : σ → σ) : Txn σ ε Unit := fun s => (.ok (), f s)

/-- Raise. What was written before stays until a transaction takes it back. -/
def raise (e : ε) : Txn σ ε α := fun s => (.error e, s)

/-- Run a program as one transaction: a raise rolls the store back. -/
def atomically (m : Txn σ ε α) : Txn σ ε α := fun s =>
  match m s with
  | (.ok a, s') => (.ok a, s')
  | (.error e, _) => (.error e, s)

/-- Raise unless the condition holds. -/
def require (condition : Bool) (e : ε) : Txn σ ε Unit :=
  if condition then pure () else raise e

/-- Raise what a pure computation raised. -/
def ofExcept (result : Except ε α) : Txn σ ε α := fun s => (result, s)

/-- Run a program on a part of the store. -/
def within {τ : Type} (part : σ → τ) (replace : σ → τ → σ) (m : Txn τ ε α) : Txn σ ε α := fun s =>
  let (result, t) := m (part s)
  (result, replace s t)

/-- Raise another exception in place of the one that was raised. -/
def mapError {ε' : Type} (f : ε → ε') (m : Txn σ ε α) : Txn σ ε' α := fun s =>
  let (result, t) := m s
  (result.mapError f, t)

/-- Run the handler when the program raises, then raise again. What was written stays, and an
exception of the handler takes the place of the first. -/
def onRaise (m : Txn σ ε α) (handler : Txn σ ε Unit) : Txn σ ε α := fun s =>
  match m s with
  | (.ok a, t) => (.ok a, t)
  | (.error e, t) =>
    match handler t with
    | (.ok _, u) => (.error e, u)
    | (.error e', u) => (.error e', u)

@[simp] theorem run_pure (a : α) (s : σ) : (pure a : Txn σ ε α) s = (.ok a, s) := rfl

@[simp] theorem run_read (f : σ → α) (s : σ) : (read f : Txn σ ε α) s = (.ok (f s), s) := rfl

@[simp] theorem run_write (f : σ → σ) (s : σ) : (write f : Txn σ ε Unit) s = (.ok (), f s) := rfl

@[simp] theorem run_raise (e : ε) (s : σ) : (raise e : Txn σ ε α) s = (.error e, s) := rfl

@[simp] theorem run_ofExcept (result : Except ε α) (s : σ) :
    (ofExcept result : Txn σ ε α) s = (result, s) := rfl

@[simp] theorem run_ite (c : Prop) [Decidable c] (m n : Txn σ ε α) (s : σ) :
    (if c then m else n) s = if c then m s else n s := by
  by_cases h : c <;> simp [h]

theorem run_bind (m : Txn σ ε α) (next : α → Txn σ ε β) (s : σ) :
    (m >>= next) s = match m s with
      | (.ok a, s') => next a s'
      | (.error e, s') => (.error e, s') := rfl

@[simp] theorem run_bind_read (f : σ → α) (next : α → Txn σ ε β) (s : σ) :
    (read f >>= next) s = next (f s) s := rfl

@[simp] theorem run_bind_write (f : σ → σ) (next : Unit → Txn σ ε β) (s : σ) :
    (write f >>= next) s = next () (f s) := rfl

@[simp] theorem run_bind_pure (a : α) (next : α → Txn σ ε β) (s : σ) :
    (pure a >>= next) s = next a s := rfl

@[simp] theorem run_require_bind (c : Bool) (e : ε) (next : Unit → Txn σ ε β) (s : σ) :
    (require c e >>= next) s = if c then next () s else (.error e, s) := by
  cases c <;> rfl

variable {m : Txn σ ε α} {next : α → Txn σ ε β} {s t : σ} {a : α} {e : ε} {b : β}
  {result : Except ε α} {c : Bool} {wrap : α → β}

theorem run_bind_ok {s' : σ} (first : m s = (.ok a, s')) : (m >>= next) s = next a s' := by
  rw [run_bind, first]

theorem run_bind_error {s' : σ} (first : m s = (.error e, s')) :
    (m >>= next) s = (.error e, s') := by
  rw [run_bind, first]

theorem bind_returned (run : (m >>= next) s = (.ok b, t)) :
    ∃ a s', m s = (.ok a, s') ∧ next a s' = (.ok b, t) := by
  rw [run_bind] at run
  split at run
  next a s' first => exact ⟨a, s', first, run⟩
  next => cases run

theorem ofExcept_bind_returned (run : (ofExcept result >>= next) s = (.ok b, t)) :
    ∃ a, result = .ok a ∧ next a s = (.ok b, t) := by
  cases result with
  | ok a => exact ⟨a, rfl, run⟩
  | error e => cases run

theorem require_bind_returned {next : Unit → Txn σ ε β}
    (run : (require c e >>= next) s = (.ok b, t)) : c = true ∧ next () s = (.ok b, t) := by
  cases c with
  | true => exact ⟨rfl, run⟩
  | false => cases run

section Parts

variable {τ ε' : Type} {part : σ → τ} {replace : σ → τ → σ} {f : ε → ε'} {m : Txn τ ε α} {s : σ}
  {t : τ}

theorem within_returned (run : m (part s) = (.ok a, t)) :
    mapError f (within part replace m) s = (.ok a, replace s t) := by
  simp only [mapError, within, run]
  rfl

theorem within_raised (run : m (part s) = (.error e, t)) :
    mapError f (within part replace m) s = (.error (f e), replace s t) := by
  simp only [mapError, within, run]
  rfl

end Parts

theorem onRaise_returned {handler : Txn σ ε Unit} (run : m s = (.ok a, t)) :
    onRaise m handler s = (.ok a, t) := by
  simp only [onRaise, run]

theorem onRaise_raised {handler : Txn σ ε Unit} {u : σ} (run : m s = (.error e, t))
    (handled : handler t = (.ok (), u)) : onRaise m handler s = (.error e, u) := by
  simp only [onRaise, run, handled]

/-- Run a program and wrap what it returns: the step of a machine whose calls answer in
one type. -/
def answer (wrap : α → β) (m : Txn σ ε α) (s : σ) : Except ε β × σ :=
  match m s with
  | (.ok a, t) => (.ok (wrap a), t)
  | (.error e, t) => (.error e, t)

theorem answer_state (wrap : α → β) (m : Txn σ ε α) (s : σ) : (answer wrap m s).2 = (m s).2 := by
  unfold answer
  cases m s with
  | mk result after => cases result <;> rfl

theorem answer_of_ok (run : m s = (.ok a, t)) : answer wrap m s = (.ok (wrap a), t) := by
  rw [answer, run]

theorem answer_of_error (run : m s = (.error e, t)) : answer wrap m s = (.error e, t) := by
  rw [answer, run]

theorem answer_ok (run : answer wrap m s = (.ok b, t)) : ∃ a, m s = (.ok a, t) ∧ b = wrap a := by
  unfold answer at run
  split at run
  next a t' done =>
    cases run
    exact ⟨a, done, rfl⟩
  next => cases run

theorem answer_error (run : answer wrap m s = (.error e, t)) : m s = (.error e, t) := by
  unfold answer at run
  split at run
  next => cases run
  next e' t' raised =>
    cases run
    exact raised

theorem atomically_ok : atomically m s = (.ok a, t) ↔ m s = (.ok a, t) := by
  unfold atomically
  split
  next b s' run => rw [run]
  next e s' run =>
    rw [run]
    simp

theorem atomically_error (raised : atomically m s = (.error e, t)) : t = s := by
  unfold atomically at raised
  split at raised
  next => cases raised
  next => exact ((Prod.mk.inj raised).2).symm

theorem atomically_of_ok (run : m s = (.ok a, t)) :
    atomically m s = (.ok a, t) := atomically_ok.mpr run

theorem atomically_of_error (run : m s = (.error e, t)) : atomically m s = (.error e, s) := by
  unfold atomically
  rw [run]

theorem atomically_returns (returns : ∃ a t, m s = (.ok a, t)) :
    ∃ a t, atomically m s = (.ok a, t) := by
  obtain ⟨a, t, run⟩ := returns
  exact ⟨a, t, atomically_of_ok run⟩

theorem atomically_cases (m : Txn σ ε α) (s : σ) :
    (∃ a t, m s = (.ok a, t) ∧ atomically m s = (.ok a, t)) ∨
      (∃ e t, m s = (.error e, t) ∧ atomically m s = (.error e, s)) := by
  cases run : m s with
  | mk result t =>
    cases result with
    | ok a => exact .inl ⟨a, t, rfl, atomically_of_ok run⟩
    | error e => exact .inr ⟨e, t, rfl, atomically_of_error run⟩

theorem atomically_keeps {Inv : σ → Prop} (start : Inv s) (body : ∀ a t, m s = (.ok a, t) → Inv t) :
    Inv (atomically m s).2 := by
  rcases atomically_cases m s with ⟨a, t, run, done⟩ | ⟨e, t, run, done⟩
  · rw [done]
    exact body a t run
  · rw [done]
    exact start

/-- A program that leaves the store alone whenever it raises. -/
def RaisesClean (m : Txn σ ε α) : Prop := ∀ s e t, m s = (.error e, t) → t = s

theorem raisesClean_atomically (m : Txn σ ε α) : RaisesClean (atomically m) :=
  fun _ _ _ raised => atomically_error raised

theorem raisesClean_require_bind {next : Unit → Txn σ ε β} (rest : RaisesClean (next ())) :
    RaisesClean (require c e >>= next) := by
  intro s e' t raised
  cases c with
  | true => exact rest s e' t raised
  | false => exact ((Prod.mk.inj raised).2).symm

theorem raisesClean_ofExcept_bind (rest : ∀ a, result = .ok a → RaisesClean (next a)) :
    RaisesClean (ofExcept result >>= next) := by
  intro s e t raised
  cases result with
  | ok a => exact rest a rfl s e t raised
  | error e' =>
    cases raised
    rfl

theorem raisesClean_bind_total (first : RaisesClean m)
    (total : ∀ a s, ∃ b t, next a s = (.ok b, t)) : RaisesClean (m >>= next) := by
  intro s e t raised
  rcases run : m s with ⟨result, s'⟩
  cases result with
  | ok a =>
    obtain ⟨b, t', returned⟩ := total a s'
    rw [run_bind_ok run, returned] at raised
    cases raised
  | error e' =>
    rw [run_bind_error run] at raised
    cases raised
    exact first s e t run

section Projections

variable {h : σ → σ} {s : σ}

/-- From the projected store a program answers alike and ends in the projection. -/
def Commutes (h : σ → σ) (m : Txn σ ε α) (s : σ) : Prop := m (h s) = ((m s).1, h (m s).2)

theorem commutes_ofExcept (result : Except ε α) : Commutes h (ofExcept result) s := rfl

theorem commutes_pure (a : α) : Commutes h (pure a : Txn σ ε α) s := rfl

theorem commutes_raise (e : ε) : Commutes h (raise e : Txn σ ε α) s := rfl

theorem commutes_require (c : Bool) (e : ε) : Commutes h (require c e : Txn σ ε Unit) s := by
  cases c <;> rfl

theorem commutes_read {f : σ → α} (same : f (h s) = f s) : Commutes h (read f : Txn σ ε α) s := by
  simp only [Commutes, run_read, same]

theorem commutes_write {f : σ → σ} (same : f (h s) = h (f s)) :
    Commutes h (write f : Txn σ ε Unit) s := by
  simp only [Commutes, run_write, same]

theorem commutes_bind (first : Commutes h m s)
    (rest : ∀ a t, m s = (.ok a, t) → Commutes h (next a) t) : Commutes h (m >>= next) s := by
  unfold Commutes at first ⊢
  rcases run : m s with ⟨result, t⟩
  rw [run] at first
  cases result with
  | ok a =>
    rw [run_bind_ok first, run_bind_ok run]
    exact rest a t run
  | error e => rw [run_bind_error first, run_bind_error run]

theorem commutes_atomically (body : Commutes h m s) : Commutes h (atomically m) s := by
  unfold Commutes at body ⊢
  rcases run : m s with ⟨result, t⟩
  rw [run] at body
  cases result with
  | ok a => rw [atomically_of_ok body, atomically_of_ok run]
  | error e => rw [atomically_of_error body, atomically_of_error run]

theorem commutes_answer (body : Commutes h m s) :
    answer wrap m (h s) = ((answer wrap m s).1, h (answer wrap m s).2) := by
  unfold Commutes at body
  rcases run : m s with ⟨result, t⟩
  rw [run] at body
  cases result with
  | ok a => rw [answer_of_ok body, answer_of_ok run]
  | error e => rw [answer_of_error body, answer_of_error run]

end Projections

/-- Whatever the program returns or raises, the store before and the store after are related. -/
def Confined (R : σ → σ → Prop) (m : Txn σ ε α) : Prop := ∀ s, R s (m s).2

section Confined

variable {R : σ → σ → Prop} {m : Txn σ ε α} {next : α → Txn σ ε β}

theorem confined_pure (refl : ∀ s, R s s) (a : α) : Confined R (pure a : Txn σ ε α) :=
  fun s => refl s

theorem confined_bind_at (trans : ∀ s t u, R s t → R t u → R s u) (first : R s (m s).2)
    (rest : ∀ a, Confined R (next a)) : R s ((m >>= next) s).2 := by
  rcases run : m s with ⟨result, t⟩
  rw [run] at first
  cases result with
  | error e =>
    rw [run_bind_error run]
    exact first
  | ok a =>
    rw [run_bind_ok run]
    exact trans _ _ _ first (rest a t)

theorem confined_bind (trans : ∀ s t u, R s t → R t u → R s u) (first : Confined R m)
    (rest : ∀ a, Confined R (next a)) : Confined R (m >>= next) :=
  fun s => confined_bind_at trans (first s) rest

theorem confined_read {f : σ → α} (rest : ∀ a, Confined R (next a)) :
    Confined R (read f >>= next) :=
  fun s => rest (f s) s

theorem confined_require (refl : ∀ s, R s s) {next : Unit → Txn σ ε β}
    (rest : Confined R (next ())) : Confined R (require c e >>= next) := by
  intro s
  rw [run_require_bind]
  split
  · exact rest s
  · exact refl s

theorem confined_ofExcept (refl : ∀ s, R s s) (rest : ∀ a, Confined R (next a)) :
    Confined R (ofExcept result >>= next) := by
  intro s
  cases result with
  | ok a => exact rest a s
  | error e => exact refl s

theorem confined_atomically (refl : ∀ s, R s s) (body : Confined R m) :
    Confined R (atomically m) := by
  intro s
  have step := body s
  unfold atomically
  rcases run : m s with ⟨result, t⟩
  rw [run] at step
  cases result with
  | ok a => exact step
  | error e => exact refl s

end Confined

end Txn

end Library
