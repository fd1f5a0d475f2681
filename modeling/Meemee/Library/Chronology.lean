import Mathlib.Data.List.Nodup
import Mathlib.Data.List.Induction
import Mathlib.Data.List.Sort

/-!
# Entries in the order of time

Entries arrive in any order. `chronological` puts them in the order of their stamps, and those of
one stamp in the order of arrival. A query over the numbered arrivals that counts the bad entries
without a later good one finds the length of the bad run at the end of that order.
-/
namespace Library.Chronology
open List

variable {α : Type} (stamp : α → Nat)

/-- The order of the stamps. -/
def before (a b : α) : Bool := decide (stamp a ≤ stamp b)

/-- A stable sort by stamp. -/
def chronological (entries : List α) : List α := entries.mergeSort (before stamp)

/-- How many entries there are after the last good one. -/
def trailing (good : α → Bool) (entries : List α) : Nat :=
  (entries.reverse.takeWhile (fun a => !good a)).length

theorem before_trans (a b c : α) (first : before stamp a b) (second : before stamp b c) :
    before stamp a c := by
  have low := of_decide_eq_true first
  have high := of_decide_eq_true second
  exact decide_eq_true (Nat.le_trans low high)

theorem before_total (a b : α) : before stamp a b || before stamp b a := by
  simpa [before] using Nat.le_total (stamp a) (stamp b)

theorem chronological_perm (entries : List α) : (chronological stamp entries).Perm entries :=
  mergeSort_perm entries _

theorem chronological_sorted (entries : List α) :
    (chronological stamp entries).Pairwise (fun a b => stamp a ≤ stamp b) := by
  have sorted := pairwise_mergeSort (before_trans stamp) (before_total stamp) entries
  exact sorted.imp of_decide_eq_true

theorem chronological_unique {first second : List α} (perm : first.Perm second)
    (distinct : (first.map stamp).Nodup) :
    chronological stamp first = chronological stamp second := by
  have same := ((chronological_perm stamp first).trans perm).trans
    (chronological_perm stamp second).symm
  refine same.eq_of_pairwise ?_ (chronological_sorted stamp first) (chronological_sorted stamp second)
  intro a b inFirst inSecond low high
  exact inj_on_of_nodup_map distinct ((chronological_perm stamp first).mem_iff.mp inFirst)
    (perm.mem_iff.mpr ((chronological_perm stamp second).mem_iff.mp inSecond))
    (Nat.le_antisymm low high)

/-- Among later and later entries the bad ones after every good one end the list. -/
theorem count_trailing {β : Type} (good : β → Bool) (later : β → β → Bool) {entries : List β}
    (sorted : entries.Pairwise (fun a b => later b a = true ∧ later a b = false)) :
    (entries.filter (fun c => !good c && !entries.any (fun s => good s && later s c))).length =
      trailing good entries := by
  induction entries using List.reverseRecOn with
  | nil => rfl
  | append_singleton first last ih =>
    obtain ⟨rest, -, order⟩ := pairwise_append.mp sorted
    have ahead : ∀ c ∈ first, later last c = true ∧ later c last = false := fun c mem =>
      order c mem last (mem_singleton_self last)
    have whole := ih rest
    cases fine : good last with
    | true =>
      have none : (first ++ [last]).filter (fun c => !good c &&
          !(first ++ [last]).any (fun s => good s && later s c)) = [] := by
        rw [filter_eq_nil_iff]
        intro c mem
        rcases mem_append.mp mem with old | new
        · simp [fine, (ahead c old).1]
        · obtain rfl := mem_singleton.mp new
          simp [fine]
      rw [none]
      simp [trailing, fine]
    | false =>
      have quiet : first.any (fun s => good s && later s last) = false := by
        rw [any_eq_false]
        intro s mem
        simp [(ahead s mem).2]
      have kept : first.filter (fun c => !good c &&
          !(first ++ [last]).any (fun s => good s && later s c)) =
          first.filter (fun c => !good c && !first.any (fun s => good s && later s c)) := by
        simp [fine]
      rw [filter_append, length_append, kept, whole]
      simp [trailing, fine, quiet]

/-- A later stamp, or the same one and a greater number. -/
def follows (s c : α × Nat) : Bool :=
  decide (stamp c.1 < stamp s.1) || decide (stamp s.1 = stamp c.1) && decide (c.2 < s.2)

/-- Entries with growing numbers, sorted by stamp, are in the order of stamps and numbers. -/
theorem sorted_follows {numbered : List (α × Nat)}
    (increasing : numbered.Pairwise (fun a b => a.2 < b.2)) :
    (numbered.mergeSort (fun a b => before stamp a.1 b.1)).Pairwise
      (fun a b => follows stamp b a = true ∧ follows stamp a b = false) := by
  have sorted := pairwise_mergeSort
    (zipIdxLE_trans (fun a b c => before_trans stamp a.1 b.1 c.1))
    (zipIdxLE_total (fun a b => before_total stamp a.1 b.1)) numbered.zipIdx
  have perm := mergeSort_perm numbered.zipIdx
    (List.zipIdxLE (fun a b => before stamp a.1 b.1))
  have places : (numbered.zipIdx.map Prod.snd).Nodup := by
    rw [zipIdx_map_snd]
    exact nodup_range'
  have apart : (numbered.zipIdx.mergeSort (List.zipIdxLE (fun a b => before stamp a.1 b.1))).Pairwise
      (fun p q => p.2 ≠ q.2) := pairwise_map.mp ((perm.map Prod.snd).nodup_iff.mpr places)
  rw [← mergeSort_zipIdx, pairwise_map]
  refine (sorted.and apart).imp_of_mem ?_
  rintro ⟨a, i⟩ ⟨b, j⟩ first second ⟨order, different⟩
  have atI := mem_zipIdx_iff_getElem?.mp (perm.mem_iff.mp first)
  have atJ := mem_zipIdx_iff_getElem?.mp (perm.mem_iff.mp second)
  obtain ⟨inI, atI⟩ := List.getElem?_eq_some_iff.mp atI
  obtain ⟨inJ, atJ⟩ := List.getElem?_eq_some_iff.mp atJ
  have grows : i < j → a.2 < b.2 := by
    intro less
    have := pairwise_iff_getElem.mp increasing i j inI inJ less
    rwa [atI, atJ] at this
  simp only [follows, Bool.or_eq_true, Bool.and_eq_true, decide_eq_true_eq, Bool.or_eq_false_iff,
    Bool.and_eq_false_iff, decide_eq_false_iff_not]
  by_cases low : stamp a.1 ≤ stamp b.1
  · by_cases high : stamp b.1 ≤ stamp a.1
    · have numbers : i ≤ j := by simpa [List.zipIdxLE, before, low, high] using order
      omega
    · omega
  · simp [List.zipIdxLE, before, low] at order

/-- Entries with the numbers of their arrival: the count over them is that of the order of time. -/
theorem count_numbered (good : α → Bool) {numbered : List (α × Nat)}
    (increasing : numbered.Pairwise (fun a b => a.2 < b.2)) :
    (numbered.filter (fun c => !good c.1 &&
      !numbered.any (fun s => good s.1 && follows stamp s c))).length =
      trailing good (chronological stamp (numbered.map Prod.fst)) := by
  have perm := mergeSort_perm numbered (fun a b => before stamp a.1 b.1)
  have count := count_trailing (fun c => good c.1) (follows stamp) (sorted_follows stamp increasing)
  have order : chronological stamp (numbered.map Prod.fst) =
      (numbered.mergeSort (fun a b => before stamp a.1 b.1)).map Prod.fst := by
    rw [map_mergeSort (s := before stamp) (fun a _ b _ => rfl)]
    rfl
  rw [order]
  have mapped : trailing good ((numbered.mergeSort (fun a b => before stamp a.1 b.1)).map Prod.fst) =
      trailing (fun c => good c.1) (numbered.mergeSort (fun a b => before stamp a.1 b.1)) := by
    rw [trailing, ← map_reverse, takeWhile_map, length_map]
    rfl
  rw [mapped, ← count]
  have any : ∀ c, (numbered.mergeSort (fun a b => before stamp a.1 b.1)).any
      (fun s => good s.1 && follows stamp s c) =
        numbered.any (fun s => good s.1 && follows stamp s c) := by
    intro c
    rw [Bool.eq_iff_iff]
    simp only [any_eq_true, perm.mem_iff]
  simp only [any]
  exact ((perm.filter _).length_eq).symm

end Library.Chronology
