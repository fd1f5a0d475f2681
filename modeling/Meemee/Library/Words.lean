import Meemee.Library.Separated

/-!
# The words of a text

A text is split at white space, and the empty parts are dropped. Joining texts with white space
and splitting again gives the words of each; what was one part is one word only if it was solid.
-/
namespace Library.Words
open List

variable {α : Type}

/-- The longest runs of characters that are not white space. -/
def words (space : α → Bool) (text : List α) : List (List α) :=
  (text.splitOnP space).filter (fun word => !word.isEmpty)

variable {space : α → Bool} {mark : α}

theorem words_append (white : space mark = true) (first second : List α) :
    words space (first ++ mark :: second) = words space first ++ words space second := by
  rw [words, splitOnP_append_cons first second white, filter_append]
  rfl

theorem words_join (white : space mark = true) (parts : List (List α)) :
    words space (Separated.join mark parts) = parts.flatMap (words space) := by
  induction parts with
  | nil => rfl
  | cons part rest ih =>
    cases rest with
    | nil => rw [Separated.join, flatMap_cons, flatMap_nil, append_nil]
    | cons next rest => simp only [Separated.join_cons, words_append white, ih, flatMap_cons]

theorem split_cons (c : α) (text : List α) :
    ∃ head rest, text.splitOnP space = head :: rest ∧
      (c :: text).splitOnP space = if space c then [] :: head :: rest else (c :: head) :: rest := by
  cases split : text.splitOnP space with
  | nil => exact absurd split (splitOnP_ne_nil space text)
  | cons head rest =>
    refine ⟨head, rest, rfl, ?_⟩
    rw [splitOnP_cons_eq_if_modifyHead, split]
    rfl

/-- The words hold just the characters of the text that are not white space. -/
theorem mem_words {text : List α} {c : α} (mem : c ∈ text) (solid : space c = false) :
    ∃ word ∈ words space text, c ∈ word := by
  have inside : ∃ part ∈ text.splitOnP space, c ∈ part := by
    induction text with
    | nil => cases mem
    | cons d text ih =>
      obtain ⟨head, rest, split, next⟩ := @split_cons _ space d text
      rw [next]
      rcases mem_cons.mp mem with rfl | later
      · rw [solid]
        exact ⟨c :: head, mem_cons_self, mem_cons_self⟩
      · obtain ⟨part, stored, here⟩ := ih later
        rw [split] at stored
        by_cases white : space d = true
        · rw [if_pos white]
          exact ⟨part, mem_cons_of_mem _ stored, here⟩
        · rw [if_neg white]
          rcases mem_cons.mp stored with rfl | stored
          · exact ⟨d :: part, mem_cons_self, mem_cons_of_mem _ here⟩
          · exact ⟨part, mem_cons_of_mem _ stored, here⟩
  obtain ⟨part, stored, here⟩ := inside
  refine ⟨part, mem_filter.mpr ⟨stored, ?_⟩, here⟩
  rw [isEmpty_eq_false_iff.mpr (ne_nil_of_mem here)]
  rfl

theorem mem_of_words {text word : List α} {c : α} (mem : word ∈ words space text)
    (inside : c ∈ word) : c ∈ text := by
  have split := (mem_filter.mp mem).1
  clear mem
  induction text generalizing word with
  | nil =>
    rw [splitOnP_nil, mem_singleton] at split
    rwa [split] at inside
  | cons d text ih =>
    obtain ⟨head, rest, parts, next⟩ := @split_cons _ space d text
    rw [next] at split
    rw [parts] at ih
    by_cases white : space d = true
    · rw [if_pos white, mem_cons] at split
      rcases split with rfl | stored
      · cases inside
      · exact mem_cons_of_mem _ (ih inside stored)
    · rw [if_neg white, mem_cons] at split
      rcases split with rfl | stored
      · rcases mem_cons.mp inside with rfl | later
        · exact mem_cons_self
        · exact mem_cons_of_mem _ (ih later mem_cons_self)
      · exact mem_cons_of_mem _ (ih inside (mem_cons_of_mem _ stored))

theorem join_nil_iff {parts : List (List α)} :
    Separated.join mark parts = [] ↔ parts = [] ∨ parts = [[]] := by
  cases parts with
  | nil => simp [Separated.join]
  | cons part rest =>
    cases rest with
    | nil => simp [Separated.join]
    | cons next rest => simp [Separated.join_cons]

end Library.Words
