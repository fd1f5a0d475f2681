import Mathlib.Data.List.Infix

/-!
# Resuming after the last number

A log is a list of entries in the order of their numbers. A follower has reached a number and has
taken some entries; it is told the entries after the number it has reached, as often as it asks, and
takes them one at a time.
-/
namespace Library.Resume
open List

variable {ε α : Type} (number : ε → Int)

/-- The entries after a number. -/
def after (log : List ε) (n : Int) : List ε := log.filter (fun e => decide (n < number e))

/-- What was taken, with what lies after the number reached, is all that lies after the start. -/
def Caught (view : ε → α) (log : List ε) (start reached : Int) (taken : List α) : Prop :=
  taken ++ (after number log reached).map view = (after number log start).map view

variable {number} {view : ε → α} {log : List ε} {start reached : Int} {taken : List α}

theorem mem_after {e : ε} {n : Int} : e ∈ after number log n ↔ e ∈ log ∧ n < number e := by
  rw [after, mem_filter, decide_eq_true_iff]

theorem after_head (ordered : log.Pairwise (fun a b => number a < number b)) {n : Int} {e : ε}
    {rest : List ε} (left : after number log n = e :: rest) : after number log (number e) = rest := by
  have later : n < number e := (mem_after.mp (left ▸ mem_cons_self)).2
  have fewer : after number log (number e) =
      (after number log n).filter (fun d => decide (number e < number d)) := by
    rw [after, after, filter_filter]
    refine filter_congr (fun d _ => ?_)
    by_cases beyond : number e < number d
    · simp [beyond, Int.lt_trans later beyond]
    · simp [beyond]
  have sorted : (e :: rest).Pairwise (fun a b => number a < number b) :=
    left ▸ ordered.sublist filter_sublist
  have beyond := (pairwise_cons.mp sorted).1
  rw [fewer, left, filter_cons_of_neg (by simp)]
  exact filter_eq_self.mpr (fun d mem => decide_eq_true (beyond d mem))

theorem caught_start : Caught number view log start start [] := rfl

theorem Caught.take (ordered : log.Pairwise (fun a b => number a < number b))
    (caught : Caught number view log start reached taken) {e : ε} {rest : List ε}
    (left : after number log reached = e :: rest) :
    Caught number view log start (number e) (taken ++ [view e]) := by
  rw [Caught, left] at caught
  rw [Caught, after_head ordered left, append_assoc]
  exact caught

theorem Caught.front (caught : Caught number view log start reached taken) :
    taken <+: (after number log start).map view := ⟨_, caught⟩

theorem Caught.all (caught : Caught number view log start reached taken)
    (nothing : after number log reached = []) : taken = (after number log start).map view := by
  rw [Caught, nothing, map_nil, append_nil] at caught
  exact caught

/-- A log that ends in its only closing entry. -/
def Closed (closing : ε → Bool) (log : List ε) : Prop :=
  ∃ front last, log = front ++ [last] ∧ closing last = true ∧ ∀ e ∈ front, closing e = false

theorem after_closing {closing : ε → Bool} (closed : Closed closing log) {n : Int} {e : ε}
    {rest : List ε} (left : after number log n = e :: rest) (here : closing e = true) : rest = [] := by
  obtain ⟨front, last, rfl, -, open_⟩ := closed
  rw [after, filter_append] at left
  cases early : front.filter (fun d => decide (n < number d)) with
  | cons d others =>
    rw [early] at left
    obtain ⟨rfl, -⟩ := List.cons.inj left
    have mem : d ∈ front := mem_of_mem_filter (early ▸ mem_cons_self)
    cases here.symm.trans (open_ d mem)
  | nil =>
    rw [early, filter_singleton] at left
    cases later : decide (n < number last) with
    | false => rw [later] at left; cases left
    | true => rw [later] at left; cases left; rfl

end Library.Resume
