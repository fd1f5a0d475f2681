import Mathlib.Data.List.Nodup
import Mathlib.Logic.Relation

/-!
# Lists whose entries name earlier entries

A relation that grows only by arrows out of a fresh point stays acyclic. An entry may name another
one by its key: when every name points back in the list, following names ends.
-/
namespace Library

section

variable {α : Type} {r r' : α → α → Prop}

/-- No point leads back to itself. -/
def Acyclic (r : α → α → Prop) : Prop := ∀ a, ¬ Relation.TransGen r a a

/-- Where no arrow leads to the fresh point, a path that does not start there is an old one. -/
theorem path_old {n : α} (arrows : ∀ a b, r' a b → b ≠ n ∧ (a = n ∨ r a b)) {a b : α}
    (path : Relation.TransGen r' a b) : b ≠ n ∧ (a = n ∨ Relation.TransGen r a b) := by
  induction path with
  | single arrow =>
    obtain ⟨target, fresh | old⟩ := arrows _ _ arrow
    · exact ⟨target, .inl fresh⟩
    · exact ⟨target, .inr (.single old)⟩
  | tail _ arrow ih =>
    obtain ⟨target, fresh | old⟩ := arrows _ _ arrow
    · exact absurd fresh ih.1
    · exact ⟨target, ih.2.imp_right (fun front => front.tail old)⟩

theorem Acyclic.extend {n : α} (acyclic : Acyclic r)
    (arrows : ∀ a b, r' a b → b ≠ n ∧ (a = n ∨ r a b)) : Acyclic r' := by
  intro a loop
  obtain ⟨target, fresh | old⟩ := path_old arrows loop
  · exact target fresh
  · exact acyclic a old

end

variable {α κ : Type}

/-- Every entry that names a key comes after an entry with that key that `Same` relates to it. -/
def NamesEarlier (key : α → κ) (names : α → Option κ) (Same : α → α → Prop) (entries : List α) :
    Prop :=
  ∀ (i : Nat) (a : α) (k : κ), entries[i]? = some a → names a = some k →
    ∃ (j : Nat) (b : α), j < i ∧ entries[j]? = some b ∧ key b = k ∧ Same b a

section Lineage

variable {key : α → κ} {names : α → Option κ} {Same : α → α → Prop} {entries : List α}

theorem namesEarlier_nil : NamesEarlier key names Same [] := by
  intro i a k found
  simp at found

/-- Rewriting entries in place keeps the names when keys, names and `Same` stay. -/
theorem namesEarlier_map {g : α → α} (keys : ∀ a, key (g a) = key a)
    (named : ∀ a, names (g a) = names a) (same : ∀ a b, Same a b → Same (g a) (g b))
    (before : NamesEarlier key names Same entries) :
    NamesEarlier key names Same (entries.map g) := by
  intro i a k found names_k
  rw [List.getElem?_map, Option.map_eq_some_iff] at found
  obtain ⟨old, there, rfl⟩ := found
  rw [named] at names_k
  obtain ⟨j, b, earlier, stored, keyed, related⟩ := before i old k there names_k
  refine ⟨j, g b, earlier, ?_, (keys b).trans keyed, same b old related⟩
  rw [List.getElem?_map, stored, Option.map_some]

theorem namesEarlier_append {new : α} (before : NamesEarlier key names Same entries)
    (back : ∀ k, names new = some k → ∃ b ∈ entries, key b = k ∧ Same b new) :
    NamesEarlier key names Same (entries ++ [new]) := by
  intro i a k found names_k
  rcases Nat.lt_trichotomy i entries.length with inside | last | beyond
  · rw [List.getElem?_append_left inside] at found
    obtain ⟨j, b, earlier, stored, keyed, related⟩ := before i a k found names_k
    refine ⟨j, b, earlier, ?_, keyed, related⟩
    rw [List.getElem?_append_left (by omega), stored]
  · subst last
    rw [List.getElem?_append_right (Nat.le_refl _), Nat.sub_self] at found
    obtain rfl := Option.some.inj found
    obtain ⟨b, mem, keyed, related⟩ := back k names_k
    obtain ⟨j, stored⟩ := List.getElem?_of_mem mem
    have inside : j < entries.length := (List.getElem?_eq_some_iff.mp stored).1
    refine ⟨j, b, inside, ?_, keyed, related⟩
    rw [List.getElem?_append_left inside, stored]
  · have none : (entries ++ [new])[i]? = none := by
      rw [List.getElem?_eq_none_iff, List.length_append, List.length_singleton]
      omega
    rw [none] at found
    cases found

theorem path_earlier (unique : (entries.map key).Nodup)
    (before : NamesEarlier key names Same entries) {k k' : κ}
    (path : Relation.TransGen (fun k k' => ∃ a ∈ entries, key a = k ∧ names a = some k') k k') :
    ∀ (i : Nat) (a : α), entries[i]? = some a → key a = k →
      ∃ (j : Nat) (b : α), j < i ∧ entries[j]? = some b ∧ key b = k' := by
  have step : ∀ k k', (∃ a ∈ entries, key a = k ∧ names a = some k') → ∀ (i : Nat) (a : α),
      entries[i]? = some a → key a = k →
        ∃ (j : Nat) (b : α), j < i ∧ entries[j]? = some b ∧ key b = k' := by
    rintro k k' ⟨named, mem, keyed, names_k⟩ i a found here
    have same : a = named := List.inj_on_of_nodup_map unique (List.mem_of_getElem? found) mem
      (here.trans keyed.symm)
    subst same
    obtain ⟨j, b, earlier, stored, reached, -⟩ := before i a k' found names_k
    exact ⟨j, b, earlier, stored, reached⟩
  induction path with
  | single edge => exact step k _ edge
  | tail _ edge ih =>
    intro i a found here
    obtain ⟨j, b, earlier, stored, reached⟩ := ih i a found here
    obtain ⟨l, c, before', stored', reached'⟩ := step _ _ edge j b stored reached
    exact ⟨l, c, by omega, stored', reached'⟩

theorem acyclic_names (unique : (entries.map key).Nodup)
    (before : NamesEarlier key names Same entries) :
    Acyclic (fun k k' => ∃ a ∈ entries, key a = k ∧ names a = some k') := by
  intro k cycle
  obtain ⟨a, mem, keyed, -⟩ : ∃ a ∈ entries, key a = k ∧ ∃ k', names a = some k' := by
    obtain ⟨k', ⟨a, mem, keyed, names_k⟩, -⟩ := Relation.TransGen.head'_iff.mp cycle
    exact ⟨a, mem, keyed, k', names_k⟩
  obtain ⟨i, found⟩ := List.getElem?_of_mem mem
  obtain ⟨j, b, earlier, stored, reached⟩ := path_earlier unique before cycle i a found keyed
  have same : a = b := List.inj_on_of_nodup_map unique mem (List.mem_of_getElem? stored)
    (keyed.trans reached.symm)
  subst same
  have nodup : entries.Nodup := List.Nodup.of_map key unique
  have inside : i < entries.length := (List.getElem?_eq_some_iff.mp found).1
  have together : i = j := (List.getElem?_inj inside nodup).mp (found.trans stored.symm)
  omega

end Lineage

end Library
