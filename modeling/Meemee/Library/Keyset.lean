import Mathlib.Data.List.Sort

/-!
# Keyset pagination

A list in descending order of a key, read page by page: a page holds the first rows below a
cursor, and when there is one more its cursor is the key of its last row. Following the cursors
from the first page gives the whole list.
-/
namespace Library.Keyset
open List

variable {ρ κ : Type} [LinearOrder κ] (key : ρ → κ)

/-- `ORDER BY key DESC`. -/
def newest (rows : List ρ) : List ρ := rows.insertionSort (fun a b => key b ≤ key a)

/-- What a cursor lets through. -/
def below (cursor : Option κ) (r : ρ) : Bool := cursor.all (fun k => decide (key r < k))

/-- The page of a selection, of which one more row is read than the page holds. -/
def cut (size : Nat) (selected : List ρ) : List ρ × Option κ :=
  (selected.take size, if size < selected.length then (selected.take size).getLast?.map key else none)

def page (size : Nat) (rows : List ρ) (cursor : Option κ) : List ρ × Option κ :=
  cut key size ((newest key (rows.filter (below key cursor))).take (size + 1))

/-- The rows of the pages from a cursor on, unless there are more pages than the bound. -/
def follow {χ ε : Type} (fetch : Option χ → Except ε (List ρ × Option χ)) :
    Nat → Option χ → Except ε (Option (List ρ))
  | 0, _ => .ok none
  | bound + 1, cursor => do
    let (items, next) ← fetch cursor
    match next with
    | none => return some items
    | some cursor =>
      let others ← follow fetch bound (some cursor)
      return others.map (fun rest => items ++ rest)

theorem newest_perm (rows : List ρ) : (newest key rows).Perm rows := perm_insertionSort _ _

theorem newest_sorted {rows : List ρ} (distinct : (rows.map key).Nodup) :
    (newest key rows).Pairwise (fun a b => key b < key a) := by
  have sorted : (newest key rows).Pairwise (fun a b => key b ≤ key a) := by
    exact pairwise_insertionSort _ rows
  have apart : (newest key rows).Pairwise (fun a b => key a ≠ key b) := by
    rw [← pairwise_map]
    exact ((newest_perm key rows).map key).nodup_iff.mpr distinct
  exact (sorted.and apart).imp (fun both => lt_of_le_of_ne both.1 (Ne.symm both.2))

theorem newest_unique {rows others : List ρ} (sorted : others.Pairwise (fun a b => key b < key a))
    (distinct : (rows.map key).Nodup) (same : others.Perm rows) : newest key rows = others :=
  ((newest_perm key rows).trans same.symm).eq_of_pairwise
    (fun _ _ _ _ first second => absurd (first.trans second) (lt_irrefl _))
    (newest_sorted key distinct) sorted

theorem newest_below {rows before after : List ρ} {r : ρ} (distinct : (rows.map key).Nodup)
    (split : newest key rows = before ++ r :: after) :
    newest key (rows.filter (below key (some (key r)))) = after := by
  have sorted := newest_sorted key distinct
  rw [split] at sorted
  obtain ⟨-, tail, ahead⟩ := pairwise_append.mp sorted
  obtain ⟨behind, rest⟩ := pairwise_cons.mp tail
  have passed : before.filter (below key (some (key r))) = [] := by
    rw [filter_eq_nil_iff]
    intro a mem low
    have high := ahead a mem r mem_cons_self
    exact absurd high (not_lt.mpr (of_decide_eq_true low).le)
  have here : below key (some (key r)) r = false := decide_eq_false (lt_irrefl _)
  have kept : after.filter (below key (some (key r))) = after := by
    rw [filter_eq_self]
    intro a mem
    exact decide_eq_true (behind a mem)
  have filtered : (newest key rows).filter (below key (some (key r))) = after := by
    rw [split, filter_append, filter_cons, passed, here, kept]
    rfl
  refine newest_unique key rest ?_ ?_
  · exact (filter_sublist.map key).nodup distinct
  · rw [← filtered]
    exact (newest_perm key rows).filter _

theorem newest_first (rows : List ρ) : newest key (rows.filter (below key none)) = newest key rows := by
  rw [filter_eq_self.mpr]
  exact fun _ _ => rfl

omit [LinearOrder κ] in
theorem cut_take (size : Nat) (selected : List ρ) :
    cut key size (selected.take (size + 1)) = cut key size selected := by
  have shorter : min size (size + 1) = size := by omega
  have same : size < min (size + 1) selected.length ↔ size < selected.length := by omega
  simp only [cut, take_take, length_take, shorter, same]

section Following

variable {χ ε : Type} {fetch : Option χ → Except ε (List ρ × Option χ)} {text : κ → χ} {size : Nat}
  {rows : List ρ}

theorem follow_from (positive : 0 < size) (distinct : (rows.map key).Nodup)
    (fetches : ∀ r ∈ rows, fetch (some (text (key r))) =
      .ok (Prod.map id (Option.map text) (page key size rows (some (key r)))))
    (after : List ρ) (cursor : Option χ) (bound : Nat) (enough : after.length < bound)
    (fetched : fetch cursor = .ok (Prod.map id (Option.map text) (cut key size after)))
    (before : List ρ) (split : newest key rows = before ++ after) :
    follow fetch bound cursor = .ok (some after) := by
  induction bound generalizing after cursor before with
  | zero => exact absurd enough (Nat.not_lt_zero _)
  | succ bound ih =>
    simp only [cut, Prod.map_apply, id] at fetched
    by_cases last : size < after.length
    · have filled : after.take size ≠ [] := by
        intro empty
        have none := congrArg List.length empty
        rw [length_take, length_nil] at none
        omega
      obtain ⟨init, r, items⟩ := (eq_nil_or_concat (after.take size)).resolve_left filled
      rw [concat_eq_append] at items
      have whole : after = init ++ r :: after.drop size := by
        have halves := take_append_drop size after
        rw [items, append_assoc] at halves
        exact halves.symm
      have parts : newest key rows = (before ++ init) ++ r :: after.drop size := by
        rw [split, append_assoc, ← whole]
      have stored : r ∈ rows := by
        rw [← (newest_perm key rows).mem_iff, parts]
        exact mem_append_right _ mem_cons_self
      have rest := ih (after.drop size) (some (text (key r))) (by rw [length_drop]; omega) (by
        rw [fetches r stored, page, newest_below key distinct parts, cut_take])
        (before ++ init ++ [r]) (by rw [parts]; simp)
      rw [if_pos last, items, List.getLast?_concat] at fetched
      rw [follow, fetched]
      simp only [Option.map_some, bind, Except.bind, rest, pure, Except.pure, append_assoc,
        singleton_append]
      rw [← whole]
    · rw [if_neg last, take_of_length_le (by omega)] at fetched
      rw [follow, fetched]
      rfl

/-- Following the cursors from the first page gives every row, in the order. -/
theorem follow_all (positive : 0 < size) (distinct : (rows.map key).Nodup)
    (fetches : ∀ r ∈ rows, fetch (some (text (key r))) =
      .ok (Prod.map id (Option.map text) (page key size rows (some (key r)))))
    (first : fetch none = .ok (Prod.map id (Option.map text) (page key size rows none))) :
    follow fetch (rows.length + 1) none = .ok (some (newest key rows)) := by
  refine follow_from key positive distinct fetches (newest key rows) none _ ?_ ?_ [] rfl
  · rw [(newest_perm key rows).length_eq]
    exact Nat.lt_succ_self _
  · rw [first, page, newest_first, cut_take]

end Following

end Library.Keyset
