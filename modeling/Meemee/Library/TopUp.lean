import Mathlib.Data.List.Nodup
import Mathlib.Data.List.Perm.Subperm

/-!
# A list filled up from another

Some chosen rows come first, then others that were not chosen, up to a size. When the others are
the front of a list of all rows, and long enough, the result has the size that the rows allow.
-/
namespace Library.TopUp
open List

variable {ρ κ : Type} [DecidableEq κ] (key : ρ → κ)

/-- The rows that were not chosen. -/
def unseen (chosen others : List ρ) : List ρ :=
  others.filter (fun r => !(chosen.map key).contains (key r))

def topUp (size : Nat) (chosen others : List ρ) : List ρ :=
  chosen ++ (unseen key chosen others).take (size - chosen.length)

variable {key}

variable {chosen others : List ρ} {size : Nat}

theorem mem_unseen {r : ρ} :
    r ∈ unseen key chosen others ↔ r ∈ others ∧ key r ∉ chosen.map key := by
  simp [unseen]

theorem mem_topUp {r : ρ} (mem : r ∈ topUp key size chosen others) :
    r ∈ chosen ∨ r ∈ others := by
  rcases mem_append.mp mem with here | later
  · exact .inl here
  · exact .inr (mem_unseen.mp (mem_of_mem_take later)).1

theorem topUp_distinct (distinct : (chosen.map key).Nodup) (distinct' : (others.map key).Nodup) :
    ((topUp key size chosen others).map key).Nodup := by
  have part : ((unseen key chosen others).take (size - chosen.length)).Sublist others :=
    (take_sublist _ _).trans filter_sublist
  rw [topUp, map_append, nodup_append]
  refine ⟨distinct, (part.map key).nodup distinct', fun k here k' there same => ?_⟩
  obtain ⟨r, mem, rfl⟩ := mem_map.mp there
  exact (mem_unseen.mp (mem_of_mem_take mem)).2 (same ▸ here)

theorem unseen_length (chosen : List ρ) (distinct : (others.map key).Nodup) :
    others.length ≤ (unseen key chosen others).length + chosen.length := by
  have split := length_eq_length_filter_add
    (l := others) (fun r => (chosen.map key).contains (key r))
  have part : ((others.filter (fun r => (chosen.map key).contains (key r))).map key).Subperm
      (chosen.map key) := by
    refine List.Nodup.subperm ((filter_sublist.map key).nodup distinct) fun k mem => ?_
    obtain ⟨r, inside, rfl⟩ := mem_map.mp mem
    exact contains_iff_mem.mp (mem_filter.mp inside).2
  have fewer := part.length_le
  rw [length_map, length_map] at fewer
  simp only [unseen]
  omega

theorem unseen_length_all (distinct : (others.map key).Nodup) (distinct' : (chosen.map key).Nodup)
    (inside : chosen ⊆ others) :
    (unseen key chosen others).length + chosen.length = others.length := by
  have split := length_eq_length_filter_add
    (l := others) (fun r => (chosen.map key).contains (key r))
  have part : (chosen.map key).Subperm
      ((others.filter (fun r => (chosen.map key).contains (key r))).map key) := by
    refine List.Nodup.subperm distinct' fun k mem => ?_
    obtain ⟨r, held, rfl⟩ := mem_map.mp mem
    exact mem_map_of_mem (mem_filter.mpr
      ⟨inside held, contains_iff_mem.mpr (mem_map_of_mem held)⟩)
  have more := part.length_le
  rw [length_map, length_map] at more
  have fewer := unseen_length chosen distinct
  simp only [unseen] at fewer ⊢
  omega

/-- With enough of all rows to fill up from, the size is reached or every row is there. -/
theorem topUp_length {count : Nat} {all shuffled : List ρ} (distinct : (all.map key).Nodup)
    (distinct' : (chosen.map key).Nodup) (inside : chosen ⊆ all) (fits : chosen.length ≤ size)
    (perm : shuffled.Perm all) (enough : size ≤ count) :
    (topUp key size chosen (shuffled.take count)).length = min size all.length := by
  have length := perm.length_eq
  have whole : (shuffled.map key).Nodup := (perm.map key).nodup_iff.mpr distinct
  rw [topUp, length_append, length_take]
  by_cases short : all.length ≤ count
  · rw [take_of_length_le (by omega)]
    have left := unseen_length_all whole distinct' fun r mem => perm.mem_iff.mpr (inside mem)
    omega
  · have left := unseen_length chosen
      (((take_sublist count shuffled).map key).nodup whole)
    rw [length_take] at left
    omega

end Library.TopUp
