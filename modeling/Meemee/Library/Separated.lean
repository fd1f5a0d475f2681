import Mathlib.Data.List.Count
import Mathlib.Data.List.Basic

/-!
# Texts joined with a separator

Joining is not injective: a separator inside a part reads like one between parts. It is
injective on parts that hold none, among all lists of as many parts, because the number
of separators in the joined text tells how many the parts hold.
-/
namespace Library.Separated
open List

variable {α : Type}

/-- The parts with one separator between each two. -/
def join (sep : α) : List (List α) → List α
  | [] => []
  | [part] => part
  | part :: rest => part ++ sep :: join sep rest

theorem join_cons (sep : α) (part next : List α) (rest : List (List α)) :
    join sep (part :: next :: rest) = part ++ sep :: join sep (next :: rest) := rfl

/-- A part that is split at a separator in two, the next parts taken together: the same text. -/
theorem join_shift (sep : α) (before : List (List α)) (a b next : List α) (rest : List (List α)) :
    join sep (before ++ (a ++ sep :: b) :: next :: rest) =
      join sep (before ++ a :: (b ++ sep :: next) :: rest) := by
  induction before with
  | nil =>
    have tail : b ++ sep :: join sep (next :: rest) = join sep ((b ++ sep :: next) :: rest) := by
      cases rest with
      | nil => rfl
      | cons other others => simp [join]
    simp only [nil_append, join_cons, append_assoc, cons_append, tail]
  | cons part before ih =>
    cases before with
    | nil => simpa only [nil_append, cons_append, join_cons] using congrArg (part ++ sep :: ·) ih
    | cons other others =>
      simpa only [cons_append, join_cons] using congrArg (part ++ sep :: ·) ih

variable {sep : α} {parts : List (List α)}

theorem join_append (sep : α) {first second : List (List α)} (nonempty : first ≠ [])
    (nonempty' : second ≠ []) : join sep (first ++ second) = join sep first ++ sep :: join sep second := by
  induction first with
  | nil => exact absurd rfl nonempty
  | cons part rest ih =>
    cases rest with
    | nil =>
      obtain ⟨next, others, shape⟩ := exists_cons_of_ne_nil nonempty'
      rw [shape]
      rfl
    | cons next rest =>
      have later := ih (cons_ne_nil _ _)
      rw [cons_append, cons_append, join_cons, join_cons, ← cons_append, later,
        append_assoc, cons_append]

theorem append_cons_inj {a b s t : List α} (clean : sep ∉ a) (clean' : sep ∉ b)
    (same : a ++ sep :: s = b ++ sep :: t) : a = b ∧ s = t := by
  induction a generalizing b with
  | nil =>
    cases b with
    | nil => simpa using same
    | cons c b =>
      simp only [nil_append, cons_append, List.cons.injEq] at same
      exact absurd (mem_cons.mpr (.inl same.1)) clean'
  | cons c a ih =>
    cases b with
    | nil =>
      simp only [nil_append, cons_append, List.cons.injEq] at same
      exact absurd (mem_cons.mpr (.inl same.1.symm)) clean
    | cons d b =>
      simp only [cons_append, List.cons.injEq] at same
      obtain ⟨first, rest⟩ := ih (fun mem => clean (mem_cons_of_mem _ mem))
        (fun mem => clean' (mem_cons_of_mem _ mem)) same.2
      exact ⟨by rw [same.1, first], rest⟩

/-- No part holds the separator. -/
def Clean (sep : α) (parts : List (List α)) : Prop := ∀ part ∈ parts, sep ∉ part

theorem join_inj_of_clean {others : List (List α)} (clean : Clean sep parts)
    (clean' : Clean sep others) (lengths : parts.length = others.length)
    (same : join sep parts = join sep others) : parts = others := by
  induction parts generalizing others with
  | nil => exact (length_eq_zero_iff.mp lengths.symm).symm
  | cons part rest ih =>
    cases others with
    | nil => simp at lengths
    | cons part' rest' =>
      have first := clean part mem_cons_self
      have first' := clean' part' mem_cons_self
      have later : Clean sep rest := fun p mem => clean p (mem_cons_of_mem _ mem)
      have later' : Clean sep rest' := fun p mem => clean' p (mem_cons_of_mem _ mem)
      have remaining : rest.length = rest'.length := by simpa using lengths
      cases rest with
      | nil =>
        have none_left : rest' = [] := length_eq_zero_iff.mp remaining.symm
        subst none_left
        simpa [join] using same
      | cons next rest =>
        cases rest' with
        | nil => simp at remaining
        | cons next' rest' =>
          obtain ⟨head, tail⟩ := append_cons_inj first first' same
          rw [head, ih later later' remaining tail]

/-- A separator in one of several parts can be read as one between two parts. -/
theorem join_resplit (several : 2 ≤ parts.length) (unclean : ¬ Clean sep parts) :
    ∃ others, others.length = parts.length ∧ others ≠ parts ∧ join sep others = join sep parts := by
  simp only [Clean, not_forall, not_not] at unclean
  obtain ⟨part, mem, inside⟩ := unclean
  obtain ⟨before, after, split⟩ := append_of_mem mem
  obtain ⟨a, b, halves⟩ := append_of_mem inside
  subst split halves
  have longer : ∀ part : List α, part ≠ part ++ sep :: b := by
    intro part same
    have lengths := congrArg List.length same
    rw [length_append, length_cons] at lengths
    omega
  cases after with
  | cons next rest =>
    refine ⟨before ++ a :: (b ++ sep :: next) :: rest, by simp, ?_, (join_shift sep before a b next rest).symm⟩
    intro same
    have parts := append_cancel_left same
    rw [List.cons.injEq] at parts
    exact longer a parts.1
  | nil =>
    have kept : before ≠ [] := by
      intro none_before
      rw [none_before] at several
      simp at several
    obtain ⟨front, last, shape⟩ := (eq_nil_or_concat before).resolve_left kept
    rw [concat_eq_append] at shape
    subst shape
    refine ⟨front ++ (last ++ sep :: a) :: b :: [], by simp, ?_, ?_⟩
    · intro same
      rw [append_assoc, singleton_append] at same
      have parts := append_cancel_left same
      rw [List.cons.injEq] at parts
      have lengths := congrArg List.length parts.1
      rw [length_append, length_cons] at lengths
      omega
    · rw [join_shift, append_assoc, singleton_append]

variable [DecidableEq α]

/-- The separators of a joined text: those between the parts and those in them. -/
theorem count_join (sep : α) (part : List α) (rest : List (List α)) :
    (join sep (part :: rest)).count sep = rest.length + (part :: rest).flatten.count sep := by
  induction rest generalizing part with
  | nil => simp [join]
  | cons next rest ih =>
    have tail := ih next
    have split : (part :: next :: rest).flatten.count sep =
        part.count sep + (next :: rest).flatten.count sep := by
      rw [flatten_cons, count_append]
    rw [join_cons, count_append, count_cons_self, length_cons]
    omega

theorem clean_iff_count (sep : α) (parts : List (List α)) :
    Clean sep parts ↔ parts.flatten.count sep = 0 := by
  rw [count_eq_zero, mem_flatten]
  constructor
  · rintro clean ⟨part, mem, inside⟩
    exact clean part mem inside
  · intro clean part mem inside
    exact clean ⟨part, mem, inside⟩

/-- Parts without a separator are the only ones, among as many, with their joined text. -/
theorem join_inj {others : List (List α)} (clean : Clean sep parts)
    (lengths : parts.length = others.length) (same : join sep parts = join sep others) :
    parts = others := by
  cases parts with
  | nil => exact (length_eq_zero_iff.mp lengths.symm).symm
  | cons part rest =>
    cases others with
    | nil => simp at lengths
    | cons part' rest' =>
      have counted := congrArg (List.count sep) same
      rw [count_join, count_join, (clean_iff_count sep _).mp clean] at counted
      simp only [length_cons] at lengths
      have clean' : Clean sep (part' :: rest') := by
        rw [clean_iff_count]
        omega
      exact join_inj_of_clean clean clean' lengths same

end Library.Separated
