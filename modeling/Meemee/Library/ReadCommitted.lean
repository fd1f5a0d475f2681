import Mathlib.Logic.Function.Basic
import Meemee.Library.Table

/-!
# Rows under READ COMMITTED

A table of committed rows, what each open transaction has written on top of it, and the row locks.
A statement sees the committed rows and the writes of its own transaction; it may write a row when
no other transaction holds the row's lock, and keeps the lock to the end of its transaction.
-/
namespace Library
open Function

structure RowVersions {κ ρ : Type} (key : ρ → κ) where
  committed : Table key
  writes : Nat → Table key
  locks : κ → Option Nat

namespace RowVersions

variable {κ ρ : Type} {key : ρ → κ} [DecidableEq κ]

def start (t : Table key) : RowVersions key := ⟨t, fun _ => Table.empty, fun _ => none⟩

/-- What the statements of transaction `i` see. -/
def visible (v : RowVersions key) (i : Nat) : Table key := v.committed.merge (v.writes i)

/-- No other transaction holds the row. -/
def free (v : RowVersions key) (i : Nat) (k : κ) : Bool := (v.locks k).all (fun j => decide (j = i))

def lock (v : RowVersions key) (i : Nat) (k : κ) : RowVersions key :=
  { v with locks := Function.update v.locks k (some i) }

/-- Write a row, which locks it. -/
def put (v : RowVersions key) (i : Nat) (row : ρ) : RowVersions key :=
  { v.lock i (key row) with writes := Function.update v.writes i ((v.writes i).replace row) }

def rollback (v : RowVersions key) (i : Nat) : RowVersions key :=
  { v with
    writes := Function.update v.writes i Table.empty
    locks := fun k => if v.locks k = some i then none else v.locks k }

def commit (v : RowVersions key) (i : Nat) : RowVersions key :=
  { v.rollback i with committed := v.visible i }

variable {v : RowVersions key} {i j : Nat} {k : κ} {row a : ρ}

theorem find_visible (v : RowVersions key) (i : Nat) (k : κ) :
    (v.visible i).find k = ((v.writes i).find k).or (v.committed.find k) :=
  Table.find_merge _ _ k

theorem find_writes_put (v : RowVersions key) (i : Nat) (row : ρ) (j : Nat) (k : κ) :
    ((v.put i row).writes j).find k =
      if j = i ∧ key row = k then some row else (v.writes j).find k := by
  simp only [put]
  by_cases own : j = i
  · subst own
    rw [update_self, Table.find_replace]
    by_cases here : key row = k
    · rw [if_pos here, if_pos ⟨rfl, here⟩]
    · rw [if_neg here, if_neg (fun both => here both.2)]
  · rw [update_of_ne own, if_neg (fun both => own both.1)]

theorem find_writes_rollback (v : RowVersions key) (i j : Nat) (k : κ) :
    ((v.rollback i).writes j).find k = if j = i then none else (v.writes j).find k := by
  simp only [rollback]
  by_cases own : j = i
  · subst own
    rw [update_self, if_pos rfl, Table.find_empty]
  · rw [update_of_ne own, if_neg own]

theorem find_committed_commit (v : RowVersions key) (i : Nat) (k : κ) :
    (v.commit i).committed.find k = ((v.writes i).find k).or (v.committed.find k) :=
  find_visible v i k

/-- Every uncommitted row is locked by its transaction. -/
def Locked (v : RowVersions key) : Prop :=
  ∀ i k row, (v.writes i).find k = some row → v.locks k = some i

omit [DecidableEq κ] in
theorem free_iff : v.free i k = true ↔ ∀ j, v.locks k = some j → j = i := by
  rw [free]
  cases v.locks k <;> simp

theorem locks_lock (available : v.free i k = true) {other : κ}
    (held : v.locks other = some j) : (v.lock i k).locks other = some j := by
  simp only [lock]
  by_cases here : other = k
  · subst here
    rw [update_self, free_iff.mp available j held]
  · rw [update_of_ne here]
    exact held

theorem locked_start (t : Table key) : Locked (start t) := by
  intro i k row written
  cases written

theorem locked_lock (locked : Locked v) (available : v.free i k = true) : Locked (v.lock i k) :=
  fun j other row written => locks_lock available (locked j other row written)

theorem locked_put (locked : Locked v) (available : v.free i (key row) = true) :
    Locked (v.put i row) := by
  intro j k other written
  rw [find_writes_put] at written
  split at written
  next own =>
    obtain ⟨rfl, rfl⟩ := own
    exact update_self ..
  next => exact locks_lock available (locked j k other written)

theorem locked_rollback (locked : Locked v) (i : Nat) : Locked (v.rollback i) := by
  intro j k row written
  rw [find_writes_rollback] at written
  split at written
  next => cases written
  next other =>
    have held := locked j k row written
    simp only [rollback]
    rw [if_neg (by simpa [held] using other)]
    exact held

theorem locked_commit (locked : Locked v) (i : Nat) : Locked (v.commit i) :=
  locked_rollback locked i

/-- A row is committed, or some transaction has written it. -/
def Version (v : RowVersions key) (k : κ) (row : ρ) : Prop :=
  v.committed.find k = some row ∨ ∃ i, (v.writes i).find k = some row

theorem version_visible (seen : (v.visible i).find k = some row) : Version v k row := by
  rw [find_visible] at seen
  cases written : (v.writes i).find k with
  | none =>
    rw [written] at seen
    exact .inl seen
  | some own =>
    rw [written] at seen
    cases seen
    exact .inr ⟨i, written⟩

theorem version_put (version : Version (v.put i row) k a) :
    (a = row ∧ key row = k) ∨ Version v k a := by
  rcases version with committed | ⟨j, written⟩
  · exact .inr (.inl committed)
  · rw [find_writes_put] at written
    split at written
    next own =>
      cases written
      exact .inl ⟨rfl, own.2⟩
    next => exact .inr (.inr ⟨j, written⟩)

theorem version_rollback (version : Version (v.rollback i) k a) : Version v k a := by
  rcases version with committed | ⟨j, written⟩
  · exact .inl committed
  · rw [find_writes_rollback] at written
    split at written
    next => cases written
    next => exact .inr ⟨j, written⟩

theorem version_commit (version : Version (v.commit i) k a) : Version v k a := by
  rcases version with committed | written
  · rw [find_committed_commit] at committed
    exact version_visible ((find_visible v i k).trans committed)
  · exact version_rollback (.inr written)

theorem no_version (locked : Locked v) (available : v.free i k = true)
    (unseen : (v.visible i).find k = none) : ¬ Version v k a := by
  rw [find_visible] at unseen
  rintro (committed | ⟨j, written⟩)
  · cases own : (v.writes i).find k <;> simp [own, committed] at unseen
  · obtain rfl := free_iff.mp available j (locked j k a written)
    rw [written] at unseen
    cases unseen

/-- One statement of a transaction, or its end. -/
inductive Acts (v : RowVersions key) (i : Nat) : RowVersions key → Prop where
  | same : Acts v i v
  | lock {k : κ} : v.free i k = true → Acts v i (v.lock i k)
  | put {row : ρ} : v.free i (key row) = true → Acts v i (v.put i row)
  | rollback : Acts v i (v.rollback i)
  | commit : Acts v i (v.commit i)

variable {v' : RowVersions key}

theorem acts_locked (acts : Acts v i v') (locked : Locked v) : Locked v' := by
  cases acts with
  | same => exact locked
  | lock available => exact locked_lock locked available
  | put available => exact locked_put locked available
  | rollback => exact locked_rollback locked i
  | commit => exact locked_commit locked i

theorem acts_writes (acts : Acts v i v') (other : j ≠ i) : v'.writes j = v.writes j := by
  cases acts with
  | same | lock => rfl
  | put | rollback | commit => exact update_of_ne other ..

omit [DecidableEq κ] in
theorem locks_rollback (held : v.locks k = some j) (other : j ≠ i) :
    (v.rollback i).locks k = some j := by
  simp only [rollback]
  rw [if_neg (by simpa [held] using other)]
  exact held

theorem acts_locks (acts : Acts v i v') (other : j ≠ i) (held : v.locks k = some j) :
    v'.locks k = some j := by
  cases acts with
  | same => exact held
  | lock available | put available => exact locks_lock available held
  | rollback | commit => exact locks_rollback held other

theorem acts_committed (acts : Acts v i v') (locked : Locked v) (other : j ≠ i)
    (held : v.locks k = some j) : v'.committed.find k = v.committed.find k := by
  cases acts with
  | same | lock | put | rollback => rfl
  | commit =>
    rw [find_committed_commit]
    cases written : (v.writes i).find k with
    | none => rfl
    | some row =>
      have mine := locked i k row written
      rw [held] at mine
      exact absurd (Option.some.inj mine) other

end RowVersions

end Library
