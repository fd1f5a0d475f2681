import Meemee.Library.Table

/-!
# How many rows meet a condition

`SELECT count(*) ... WHERE p`, and what an insert or an update of one row does to it.
-/
namespace Library.Table
open List

variable {κ ρ : Type} {key : ρ → κ}

/-- `SELECT count(*) ... WHERE p`. -/
def tally (t : Table key) (p : ρ → Bool) : Nat := (t.select p).length

/-- How much a row counts. -/
def weight (p : ρ → Bool) (r : ρ) : Nat := if p r then 1 else 0

theorem length_filter_cons (p : ρ → Bool) (r : ρ) (rows : List ρ) :
    ((r :: rows).filter p).length = (rows.filter p).length + weight p r := by
  rw [filter_cons, weight]
  split <;> rfl

variable {u p : ρ → Bool} {f : ρ → ρ} {r : ρ} {t : Table key}

/-- An update of one row of a list changes the count by what it does to that row. -/
theorem length_updated {rows : List ρ} (distinct : rows.Nodup) (stored : r ∈ rows)
    (only : ∀ other ∈ rows, u other = true → other = r) :
    ((rows.map (fun x => if u x then f x else x)).filter p).length + weight p r =
      (rows.filter p).length + weight p (if u r then f r else r) := by
  induction rows with
  | nil => cases stored
  | cons first rest ih =>
    rw [nodup_cons] at distinct
    rw [map_cons, length_filter_cons, length_filter_cons]
    rcases mem_cons.mp stored with rfl | later
    · have untouched : rest.map (fun x => if u x then f x else x) = rest := by
        rw [map_congr_left (g := id), map_id]
        intro other mem
        rw [if_neg, id]
        intro matched
        have same := only other (mem_cons_of_mem _ mem) matched
        subst same
        exact distinct.1 mem
      rw [untouched]
      omega
    · have unmatched : u first = false := by
        by_contra matched
        have same := only first mem_cons_self (by simpa using matched)
        subst same
        exact distinct.1 later
      have tail := ih distinct.2 later (fun other mem =>
        only other (mem_cons_of_mem _ mem))
      rw [unmatched, if_neg Bool.false_ne_true]
      omega

theorem tally_update_row (keeps : ∀ r, key (f r) = key r) (stored : r ∈ t)
    (only : ∀ other ∈ t, u other = true → other = r) :
    (t.update u f keeps).tally p + weight p r = t.tally p + weight p (if u r then f r else r) :=
  length_updated t.unique.of_map stored only

theorem tally_update_le (keeps : ∀ r, key (f r) = key r)
    (fewer : ∀ r ∈ t, u r = true → p (f r) = true → p r = true) :
    (t.update u f keeps).tally p ≤ t.tally p := by
  unfold tally select update
  simp only [← countP_eq_length_filter, countP_map]
  apply countP_mono_left
  intro r mem met
  simp only [Function.comp_apply] at met
  split at met
  next matched => exact fewer r mem matched met
  next => exact met

theorem tally_insert [DecidableEq κ] (fresh : t.find (key r) = none) (p : ρ → Bool) :
    (t.insert r fresh).tally p = t.tally p + weight p r := by
  rw [tally, select_insert, length_append]
  unfold weight
  split <;> rfl

theorem tally_delete (t : Table key) (q p : ρ → Bool) :
    (t.delete q).tally p = t.tally (fun r => p r && !q r) := by
  simp only [tally, select, delete, filter_filter]

theorem tally_replace [DecidableEq κ] (t : Table key) (r : ρ) (p : ρ → Bool) :
    (t.replace r).tally p =
      t.tally (fun other => p other && !decide (key other = key r)) + weight p r := by
  rw [replace, insertOrIgnore_fresh (fresh_deleted t (key r)), tally_insert, tally_delete]

theorem tally_apart [DecidableEq κ] (stored : r ∈ t) (p : ρ → Bool) :
    t.tally (fun other => p other && !decide (key other = key r)) + weight p r = t.tally p := by
  have parts := (t.rows.filter p).length_eq_length_filter_add (fun other => decide (key other = key r))
  have here := t.select_keyed (key r) p
  have others : t.rows.filter (fun other => !decide (key other = key r) && p other) =
      t.rows.filter (fun other => p other && !decide (key other = key r)) :=
    filter_congr (fun _ _ => Bool.and_comm _ _)
  rw [find_of_mem stored, select] at here
  rw [filter_filter, filter_filter, here, others] at parts
  have own : ((some r).filter p).toList.length = weight p r := by
    rw [Option.filter_some, weight]
    split <;> rfl
  rw [own] at parts
  rw [tally, tally, select, select, parts, Nat.add_comm]

theorem tally_congr {q : ρ → Bool} (agree : ∀ r ∈ t, p r = q r) : t.tally p = t.tally q := by
  unfold tally select
  rw [filter_congr agree]

theorem tally_le {q : ρ → Bool} (stronger : ∀ r ∈ t, p r = true → q r = true) :
    t.tally p ≤ t.tally q := by
  unfold tally select
  simp only [← countP_eq_length_filter]
  exact countP_mono_left stronger

end Library.Table
