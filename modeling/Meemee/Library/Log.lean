import Mathlib.Data.List.Nodup
import Mathlib.Data.List.Sort

/-!
# Append-only logs with an auto-incremented sequence

The number of an entry is drawn when it is appended and never reused, also not
after a deletion. Entries are therefore stored in the order of their numbers, and
reading "after `n`" twice, the second time from the last number seen, returns
each entry once.
-/
namespace Library
open Option

/-- A log of `ρ`. `next` is the number the next entry will get. -/
structure Log (ρ : Type) where
  entries : List (Nat × ρ)
  next : Nat
  ordered : entries.Pairwise (fun a b => a.1 < b.1)
  drawn : ∀ e ∈ entries, e.1 < next

namespace Log

variable {ρ : Type}

/-- Numbers start at one. -/
def empty : Log ρ := ⟨[], 1, List.Pairwise.nil, by simp⟩

/-- `INSERT` of an entry, numbered `next`. -/
def append (log : Log ρ) (r : ρ) : Log ρ where
  entries := log.entries ++ [(log.next, r)]
  next := log.next + 1
  ordered := by
    rw [List.pairwise_append]
    refine ⟨log.ordered, by simp, ?_⟩
    intro e member last here
    simp only [List.mem_singleton] at here
    subst here
    exact log.drawn e member
  drawn := by
    intro e member
    rcases List.mem_append.mp member with old | new
    · exact Nat.lt_succ_of_lt (log.drawn e old)
    · simp only [List.mem_singleton] at new
      subst new
      exact Nat.lt_succ_self _

/-- `DELETE ... WHERE p`; the numbers stay used. -/
def delete (log : Log ρ) (p : ρ → Bool) : Log ρ where
  entries := log.entries.filter (fun e => !p e.2)
  next := log.next
  ordered := log.ordered.sublist List.filter_sublist
  drawn := fun e member => log.drawn e (List.mem_of_mem_filter member)

/-- `DELETE ... WHERE sequence<=n`. -/
def deleteThrough (log : Log ρ) (n : Nat) : Log ρ where
  entries := log.entries.filter (fun e => decide (n < e.1))
  next := log.next
  ordered := log.ordered.sublist List.filter_sublist
  drawn := fun e member => log.drawn e (List.mem_of_mem_filter member)

/-- A number drawn for an entry that was never stored. -/
def skip (log : Log ρ) : Log ρ where
  entries := log.entries
  next := log.next + 1
  ordered := log.ordered
  drawn := fun e member => Nat.lt_succ_of_lt (log.drawn e member)

/-- Rewrite entries in place or delete them, by their number. -/
def edit (log : Log ρ) (f : Nat → ρ → Option ρ) : Log ρ where
  entries := log.entries.filterMap (fun e => (f e.1 e.2).map (fun r => (e.1, r)))
  next := log.next
  ordered := by
    rw [List.pairwise_filterMap]
    refine log.ordered.imp ?_
    rintro a b less a' edited b' edited'
    obtain ⟨_, -, rfl⟩ := map_eq_some_iff.mp edited
    obtain ⟨_, -, rfl⟩ := map_eq_some_iff.mp edited'
    exact less
  drawn := by
    intro e member
    obtain ⟨old, stored, edited⟩ := List.mem_filterMap.mp member
    obtain ⟨_, -, rfl⟩ := map_eq_some_iff.mp edited
    exact log.drawn old stored

/-- `SELECT ... WHERE sequence=n`. -/
def find (log : Log ρ) (n : Nat) : Option ρ :=
  (log.entries.find? (fun e => decide (e.1 = n))).map (fun e => e.2)

/-- The entries that meet `p`, in the order of their numbers. -/
def select (log : Log ρ) (p : ρ → Bool) : List (Nat × ρ) := log.entries.filter (fun e => p e.2)

/-- `SELECT ... WHERE p AND sequence > after ORDER BY sequence`. -/
def after (log : Log ρ) (p : ρ → Bool) (start : Int) : List (Nat × ρ) :=
  (log.select p).filter (fun e => decide (start < (e.1 : Int)))

theorem select_append (log : Log ρ) (r : ρ) (p : ρ → Bool) :
    (log.append r).select p = if p r then log.select p ++ [(log.next, r)] else log.select p := by
  simp only [select, append, List.filter_append]
  by_cases here : p r <;> simp [here]

theorem select_delete (log : Log ρ) (gone p : ρ → Bool) :
    (log.delete gone).select p = log.select (fun r => p r && !gone r) := by
  simp [select, delete, List.filter_filter]

variable {p : ρ → Bool} {log : Log ρ} {e : Nat × ρ} {start : Int} {entries : List (Nat × ρ)}

theorem select_delete_disjoint (log : Log ρ) {gone : ρ → Bool}
    (disjoint : ∀ r, p r = true → gone r = false) : (log.delete gone).select p = log.select p := by
  rw [select_delete]
  congr 1
  funext r
  cases here : p r with
  | false => rfl
  | true => simp [disjoint r here]

theorem select_delete_all (log : Log ρ) {gone : ρ → Bool} (all : ∀ r, p r = true → gone r = true) :
    (log.delete gone).select p = [] := by
  rw [select_delete]
  simp only [select, List.filter_eq_nil_iff]
  intro e _ selected
  simp only [Bool.and_eq_true, Bool.not_eq_true'] at selected
  rw [all e.2 selected.1] at selected
  exact absurd selected.2 (by simp)

theorem delete_none (unmatched : ∀ e ∈ log.entries, p e.2 = false) : log.delete p = log := by
  have same : log.entries.filter (fun e => !p e.2) = log.entries := by
    rw [List.filter_eq_self]
    intro e mem
    simp [unmatched e mem]
  obtain ⟨entries, next, ordered, drawn⟩ := log
  simp only [delete, mk.injEq, and_true]
  exact same

theorem select_ordered (log : Log ρ) (p : ρ → Bool) :
    (log.select p).Pairwise (fun a b => a.1 < b.1) :=
  log.ordered.sublist List.filter_sublist

theorem select_drawn (log : Log ρ) (p : ρ → Bool) (mem : e ∈ log.select p) : e.1 < log.next :=
  log.drawn e (List.mem_of_mem_filter mem)

/-- A later log's entries were there earlier or have a number drawn since. -/
structure Grows (log later : Log ρ) : Prop where
  next : log.next ≤ later.next
  entries : ∀ e ∈ later.entries, e ∈ log.entries ∨ log.next ≤ e.1

theorem Grows.refl (log : Log ρ) : Grows log log := ⟨Nat.le_refl _, fun _ mem => .inl mem⟩

theorem Grows.trans {later last : Log ρ} (first : Grows log later) (second : Grows later last) :
    Grows log last := by
  refine ⟨Nat.le_trans first.next second.next, ?_⟩
  intro e mem
  rcases second.entries e mem with old | new
  · exact first.entries e old
  · exact .inr (Nat.le_trans first.next new)

theorem grows_append (log : Log ρ) (r : ρ) : Grows log (log.append r) := by
  refine ⟨Nat.le_succ _, ?_⟩
  intro e mem
  rcases List.mem_append.mp mem with old | new
  · exact .inl old
  · rw [List.mem_singleton] at new
    subst new
    exact .inr (Nat.le_refl _)

theorem grows_delete (log : Log ρ) (p : ρ → Bool) : Grows log (log.delete p) :=
  ⟨Nat.le_refl _, fun _ mem => .inl (List.mem_of_mem_filter mem)⟩

/-- A reader of a log: the last number it read, and everything it read. -/
structure Reader (ρ : Type) where
  cursor : Int
  seen : List (Nat × ρ)

/-- Read what lies after the cursor and move the cursor to the last entry read. -/
def Reader.read (r : Reader ρ) (log : Log ρ) (p : ρ → Bool) : Reader ρ where
  cursor := match (log.after p r.cursor).getLast? with
    | none => r.cursor
    | some e => e.1
  seen := r.seen ++ log.after p r.cursor

/-- A reader that began at `start` has each entry up to its cursor, once, in order. -/
structure Reader.Faithful (start : Int) (log : Log ρ) (p : ρ → Bool) (r : Reader ρ) : Prop where
  started : start ≤ r.cursor
  drawn : r.cursor = start ∨ r.cursor < log.next
  ordered : r.seen.Pairwise (fun a b => a.1 < b.1)
  within : ∀ e ∈ r.seen, start < e.1 ∧ (e.1 : Int) ≤ r.cursor
  complete : ∀ e ∈ log.select p, start < e.1 → (e.1 : Int) ≤ r.cursor → e ∈ r.seen

theorem faithful_start (start : Int) (log : Log ρ) (p : ρ → Bool) :
    Reader.Faithful start log p ⟨start, []⟩ where
  started := Int.le_refl _
  drawn := .inl rfl
  ordered := List.Pairwise.nil
  within _ mem := by cases mem
  complete e _ above below := by simp only at below; omega

variable {r : Reader ρ}

theorem mem_after : e ∈ log.after p start ↔ e ∈ log.select p ∧ start < e.1 := by
  simp [after, List.mem_filter]

theorem after_ordered (log : Log ρ) (p : ρ → Bool) (start : Int) :
    (log.after p start).Pairwise (fun a b => a.1 < b.1) :=
  (log.select_ordered p).sublist List.filter_sublist

theorem le_last_of_ordered (ordered : entries.Pairwise (fun a b => a.1 < b.1)) {last : Nat × ρ}
    (mem : e ∈ entries) (ends : entries.getLast? = some last) : e.1 ≤ last.1 := by
  obtain ⟨front, rfl⟩ := List.getLast?_eq_some_iff.mp ends
  rcases List.mem_append.mp mem with before | here
  · exact Nat.le_of_lt ((List.pairwise_append.mp ordered).2.2 e before last (by simp))
  · obtain rfl := List.mem_singleton.mp here
    exact Nat.le_refl _

theorem faithful_read (before : r.Faithful start log p) : (r.read log p).Faithful start log p := by
  have ordered := log.after_ordered p r.cursor
  have seen : (r.seen ++ log.after p r.cursor).Pairwise (fun a b => a.1 < b.1) := by
    rw [List.pairwise_append]
    refine ⟨before.ordered, ordered, ?_⟩
    intro a old b new
    have low := (before.within a old).2
    have high := (mem_after.mp new).2
    omega
  cases ends : (log.after p r.cursor).getLast? with
  | none =>
    have empty : log.after p r.cursor = [] := List.getLast?_eq_none_iff.mp ends
    simp only [Reader.read, empty, List.append_nil, List.getLast?_nil]
    exact before
  | some last =>
    have lastMember : last ∈ log.after p r.cursor := List.mem_of_getLast? ends
    obtain ⟨selected, above⟩ := mem_after.mp lastMember
    have started := before.started
    refine ⟨?_, ?_, seen, ?_, ?_⟩
    · simp only [Reader.read, ends]
      omega
    · have bound := log.select_drawn p selected
      simp only [Reader.read, ends]
      omega
    · intro e mem
      simp only [Reader.read, ends] at mem ⊢
      rcases List.mem_append.mp mem with old | new
      · have low := before.within e old
        omega
      · have high := (mem_after.mp new).2
        have bound := le_last_of_ordered ordered new ends
        omega
    · intro e stored higher lower
      simp only [Reader.read, ends] at lower ⊢
      rw [List.mem_append]
      by_cases old : (e.1 : Int) ≤ r.cursor
      · exact .inl (before.complete e stored higher old)
      · exact .inr (mem_after.mpr ⟨stored, by omega⟩)

theorem faithful_grows {later : Log ρ} (before : r.Faithful start log p) (grows : Grows log later) :
    r.Faithful start later p := by
  have next := grows.next
  have drawn := before.drawn
  refine ⟨before.started, by omega, before.ordered, before.within, ?_⟩
  intro e stored higher lower
  obtain ⟨mem, met⟩ := List.mem_filter.mp stored
  rcases grows.entries e mem with old | new
  · exact before.complete e (List.mem_filter.mpr ⟨old, met⟩) higher lower
  · omega

/-- A faithful reader has everything exactly when nothing lies after its cursor. -/
theorem faithful_all_iff (faithful : r.Faithful start log p) :
    (∀ e ∈ log.select p, start < e.1 → e ∈ r.seen) ↔ log.after p r.cursor = [] := by
  constructor
  · intro all
    rw [List.eq_nil_iff_forall_not_mem]
    intro e mem
    obtain ⟨stored, above⟩ := mem_after.mp mem
    have started := faithful.started
    have bound := (faithful.within e (all e stored (by omega))).2
    omega
  · intro empty e stored higher
    refine faithful.complete e stored higher ?_
    by_contra above
    have mem := mem_after.mpr ⟨stored, show r.cursor < e.1 by omega⟩
    rw [empty] at mem
    cases mem

/-- What a reader has seen of the entries that are still stored. -/
def Reader.stored (r : Reader ρ) (log : Log ρ) (p : ρ → Bool) : List (Nat × ρ) :=
  r.seen.filter (fun e => (log.select p).any (fun d => decide (d.1 = e.1)))

theorem eq_of_number (ordered : entries.Pairwise (fun a b => a.1 < b.1)) {a b : Nat × ρ}
    (first : a ∈ entries) (second : b ∈ entries) (same : a.1 = b.1) : a = b := by
  have distinct : (entries.map (fun e => e.1)).Nodup := by
    refine List.pairwise_map.mpr (ordered.imp ?_)
    intro c d less
    exact Nat.ne_of_lt less
  exact List.inj_on_of_nodup_map distinct first second same

theorem eq_of_same_entries {others : List (Nat × ρ)}
    (ordered : entries.Pairwise (fun a b => a.1 < b.1))
    (ordered' : others.Pairwise (fun a b => a.1 < b.1)) (same : ∀ e, e ∈ entries ↔ e ∈ others) :
    entries = others := by
  exact ordered.eq_of_mem_iff ordered' same

/-- Entries in the order of their numbers are those through a number, then the others. -/
theorem filter_through (ordered : entries.Pairwise (fun a b => a.1 < b.1)) (n : Nat) :
    entries = entries.filter (fun e => decide (e.1 ≤ n)) ++
      entries.filter (fun e => decide (n < e.1)) := by
  induction entries with
  | nil => rfl
  | cons e rest ih =>
    obtain ⟨first, ordered⟩ := List.pairwise_cons.mp ordered
    by_cases low : e.1 ≤ n
    · have high : ¬ n < e.1 := Nat.not_lt.mpr low
      rw [List.filter_cons_of_pos (by simpa using low), List.filter_cons_of_neg (by simpa using high),
        List.cons_append, ← ih ordered]
    · have all : ∀ d ∈ rest, n < d.1 := by
        intro d mem
        have above := first d mem
        omega
      have none_low : rest.filter (fun d => decide (d.1 ≤ n)) = [] := by
        rw [List.filter_eq_nil_iff]
        intro d mem
        simpa using all d mem
      have all_high : rest.filter (fun d => decide (n < d.1)) = rest := by
        rw [List.filter_eq_self]
        intro d mem
        simpa using all d mem
      rw [List.filter_cons_of_neg (by simpa using low), List.filter_cons_of_pos (by simp; omega),
        none_low, all_high, List.nil_append]

/-- The reader has all stored entries exactly when none lies after its cursor. -/
theorem stored_eq_iff (faithful : r.Faithful start log p) :
    r.stored log p = log.after p start ↔ log.after p r.cursor = [] := by
  rw [← faithful_all_iff faithful]
  constructor
  · intro same e stored above
    have mem : e ∈ r.stored log p := by
      rw [same]
      exact mem_after.mpr ⟨stored, above⟩
    exact List.mem_of_mem_filter mem
  · intro all
    refine eq_of_same_entries (faithful.ordered.sublist List.filter_sublist)
      (log.after_ordered p start) ?_
    intro e
    rw [mem_after]
    constructor
    · intro mem
      obtain ⟨seen, numbered⟩ := List.mem_filter.mp mem
      obtain ⟨d, stored, same⟩ := List.any_eq_true.mp numbered
      have number : d.1 = e.1 := of_decide_eq_true same
      have above := (faithful.within e seen).1
      have seenToo := all d stored (by rw [number]; exact above)
      rw [← eq_of_number faithful.ordered seenToo seen number]
      exact ⟨stored, by rw [number]; exact above⟩
    · rintro ⟨stored, above⟩
      refine List.mem_filter.mpr ⟨all e stored above, ?_⟩
      exact List.any_eq_true.mpr ⟨e, stored, by simp⟩

theorem find_some_iff {n : Nat} {r : ρ} : log.find n = some r ↔ (n, r) ∈ log.entries := by
  unfold find
  constructor
  · intro found
    obtain ⟨e, there, rfl⟩ := map_eq_some_iff.mp found
    have same := List.find?_some there
    obtain rfl : e.1 = n := of_decide_eq_true same
    exact List.mem_of_find?_eq_some there
  · intro mem
    cases found : log.entries.find? (fun e => decide (e.1 = n)) with
    | none =>
      have absent := List.find?_eq_none.mp found (n, r) mem
      simp at absent
    | some e =>
      have numbered := List.find?_some found
      have same : e.1 = n := of_decide_eq_true numbered
      rw [eq_of_number log.ordered (List.mem_of_find?_eq_some found) mem same]
      rfl

theorem find_edit (log : Log ρ) (f : Nat → ρ → ρ) (n : Nat) :
    (log.edit (fun number r => some (f number r))).find n = (log.find n).map (f n) := by
  simp only [find, edit, map_some, List.filterMap_eq_map']
  rw [List.find?_map]
  cases found : log.entries.find? (fun e => decide (e.1 = n)) with
  | none =>
    have absent : log.entries.find?
        ((fun e : Nat × ρ => decide (e.1 = n)) ∘ fun e => (e.1, f e.1 e.2)) = none := found
    rw [absent]
    rfl
  | some e =>
    have there : log.entries.find?
        ((fun e : Nat × ρ => decide (e.1 = n)) ∘ fun e => (e.1, f e.1 e.2)) = some e := found
    have numbered := List.find?_some found
    have same : e.1 = n := of_decide_eq_true numbered
    rw [there]
    simp [same]

/-- `SELECT max(id) ... WHERE p`. -/
def last (log : Log ρ) (p : ρ → Bool) : Option Nat := ((log.select p).getLast?).map (fun e => e.1)

theorem last_append (log : Log ρ) (r : ρ) (p : ρ → Bool) :
    (log.append r).last p = if p r then some log.next else log.last p := by
  simp only [last, select_append]
  by_cases here : p r <;> simp [here]

theorem last_edit (log : Log ρ) (f : Nat → ρ → ρ) (keeps : ∀ n r, p (f n r) = p r) :
    (log.edit (fun number r => some (f number r))).last p = log.last p := by
  simp only [last, select, edit, map_some, List.filterMap_eq_map', List.filter_map]
  have same : (fun e : Nat × ρ => p e.2) ∘ (fun e : Nat × ρ => (e.1, f e.1 e.2)) =
      fun e => p e.2 := by
    funext e
    exact keeps e.1 e.2
  rw [same, List.getLast?_map, map_map]
  rfl

theorem last_some {n : Nat} (found : log.last p = some n) :
    (∃ r, (n, r) ∈ log.entries ∧ p r = true) ∧
      ∀ e ∈ log.entries, p e.2 = true → e.1 ≤ n := by
  obtain ⟨e, ends, rfl⟩ := map_eq_some_iff.mp found
  obtain ⟨stored, met⟩ := List.mem_filter.mp (List.mem_of_getLast? ends)
  refine ⟨⟨e.2, stored, met⟩, ?_⟩
  intro other mem also
  exact le_last_of_ordered (log.select_ordered p) (List.mem_filter.mpr ⟨mem, also⟩) ends

theorem last_isSome (mem : e ∈ log.entries) (met : p e.2 = true) : ∃ n, log.last p = some n := by
  cases ends : (log.select p).getLast? with
  | none =>
    have empty := List.getLast?_eq_none_iff.mp ends
    have selected : e ∈ log.select p := List.mem_filter.mpr ⟨mem, met⟩
    rw [empty] at selected
    cases selected
  | some last => exact ⟨last.1, by rw [Log.last, ends]; rfl⟩

end Log

end Library
