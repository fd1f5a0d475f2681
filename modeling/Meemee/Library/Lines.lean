import Mathlib.Data.List.Infix

/-!
# Cutting a text at a stop

A text cut after each stop: its finished lines, without their stops, and what follows the last
stop. A text that arrives in pieces can be cut piece by piece, each with what the last one left.
-/
namespace Library.Lines
open List

variable {χ : Type} [DecidableEq χ] {stop : χ}

/-- One more character before a cut text. -/
def push (stop c : χ) (cut : List (List χ) × List χ) : List (List χ) × List χ :=
  if c = stop then ([] :: cut.1, cut.2)
  else match cut.1 with
    | [] => ([], c :: cut.2)
    | line :: lines => ((c :: line) :: lines, cut.2)

/-- The finished lines of a text, and its unfinished end. -/
def cut (stop : χ) (text : List χ) : List (List χ) × List χ := text.foldr (push stop) ([], [])

theorem cut_cons (c : χ) (text : List χ) : cut stop (c :: text) = push stop c (cut stop text) := rfl

theorem cut_unfinished {text : List χ} (none : stop ∉ text) : cut stop text = ([], text) := by
  induction text with
  | nil => rfl
  | cons c rest ih =>
    rw [mem_cons, not_or] at none
    rw [cut_cons, ih none.2, push, if_neg (Ne.symm none.1)]

theorem cut_line {line : List χ} (none : stop ∉ line) (rest : List χ) :
    cut stop (line ++ stop :: rest) = (line :: (cut stop rest).1, (cut stop rest).2) := by
  induction line with
  | nil => rw [nil_append, cut_cons, push, if_pos rfl]
  | cons c line ih =>
    rw [mem_cons, not_or] at none
    rw [cons_append, cut_cons, ih none.2, push, if_neg (Ne.symm none.1)]

theorem cut_lines {lines : List (List χ)} (none : ∀ line ∈ lines, stop ∉ line) :
    cut stop (lines.flatMap (fun line => line ++ [stop])) = (lines, []) := by
  induction lines with
  | nil => rfl
  | cons line lines ih =>
    have later := ih (fun other mem => none other (mem_cons_of_mem _ mem))
    rw [flatMap_cons, append_assoc, singleton_append,
      cut_line (none line mem_cons_self), later]

/-- The second piece is cut with the unfinished end of the first before it. -/
theorem cut_append (first second : List χ) : cut stop (first ++ second) =
    ((cut stop first).1 ++ (cut stop ((cut stop first).2 ++ second)).1,
      (cut stop ((cut stop first).2 ++ second)).2) := by
  induction first with
  | nil => rfl
  | cons c first ih =>
    rw [cons_append, cut_cons, cut_cons, ih]
    by_cases here : c = stop
    · rw [push, push, if_pos here, if_pos here]
      rfl
    · cases lines : (cut stop first).1 with
      | nil => simp only [push, if_neg here, lines, nil_append, cons_append, cut_cons]
      | cons line others => simp only [push, if_neg here, lines, cons_append]

theorem cut_end (text : List χ) : stop ∉ (cut stop text).2 := by
  induction text with
  | nil => exact not_mem_nil
  | cons c rest ih =>
    rw [cut_cons, push]
    split
    · exact ih
    next other =>
      split
      · exact not_mem_cons_of_ne_of_not_mem (Ne.symm other) ih
      · exact ih

theorem cut_front {first text : List χ} (front : first <+: text) :
    (cut stop first).1 <+: (cut stop text).1 := by
  obtain ⟨second, rfl⟩ := front
  rw [cut_append]
  exact prefix_append _ _

end Library.Lines
