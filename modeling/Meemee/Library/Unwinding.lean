import Meemee.Library.History

/-!
# Two runs that one party cannot tell apart

A party sees its own answers and its view of the state. The actions of others leave the view
alone, and its own actions answer and act by the view. Then what it sees of a run is a function
of its own actions: the unwinding argument, for a machine where some of its own actions may fall
out of line, and the exact condition for that.
-/
namespace Library.Unwinding
open Library.History List

variable {σ α ο ν : Type} {step : σ → α → ο × σ} {mine : α → Bool} {view : σ → ν}
  {Inv : σ → Prop} {Meets : σ → α → Prop}

/-- The party's own answers in a run. -/
def answers (mine : α → Bool) (run : List (Event σ α ο)) : List ο :=
  (run.filter (fun e => mine e.action)).map (fun e => e.answer)

/-- The conditions of the argument; `Meets` says that an own action stays in line. -/
structure Unwinds (step : σ → α → ο × σ) (mine : α → Bool) (view : σ → ν) (Inv : σ → Prop)
    (Meets : σ → α → Prop) : Prop where
  keeps : ∀ s a, Inv s → Inv (step s a).2
  respects : ∀ s a, Inv s → mine a = false → view (step s a).2 = view s
  consistent : ∀ s t a, Inv s → Inv t → mine a = true → view s = view t → Meets s a → Meets t a →
    (step s a).1 = (step t a).1 ∧ view (step s a).2 = view (step t a).2
  /-- An own action that falls out of line is told by its answer. -/
  diverges : ∀ s t a, Inv s → Inv t → mine a = true → view s = view t → ¬ Meets s a → Meets t a →
    (step s a).1 ≠ (step t a).1

/-- The party's own actions of a run all stay in line. -/
def InLine (mine : α → Bool) (Meets : σ → α → Prop) (run : List (Event σ α ο)) : Prop :=
  ∀ e ∈ run, mine e.action = true → Meets e.before e.action

variable {s t : σ}

theorem answers_append (first second : List (Event σ α ο)) :
    answers mine (first ++ second) = answers mine first ++ answers mine second := by
  simp only [answers, filter_append, map_append]

theorem others_unseen (unwinds : Unwinds step mine view Inv Meets) {actions : List α}
    (others : ∀ a ∈ actions, mine a = false) (inv : Inv s) :
    answers mine (history step s actions) = [] ∧ view (final step s actions) = view s ∧
      Inv (final step s actions) := by
  induction actions generalizing s with
  | nil => exact ⟨rfl, rfl, inv⟩
  | cons a rest ih =>
    have other := others a mem_cons_self
    obtain ⟨unheard, unseen, kept⟩ :=
      ih (fun b mem => others b (mem_cons_of_mem _ mem)) (unwinds.keeps s a inv)
    refine ⟨?_, unseen.trans (unwinds.respects s a inv other), kept⟩
    simp only [answers, history_cons, filter_cons, other, Bool.false_eq_true, if_false]
    exact unheard

/-- Of two runs with the same own actions the party sees the same if the second is in line. -/
theorem same_iff_inLine (unwinds : Unwinds step mine view Inv Meets) {first second : List α}
    (inv : Inv s) (inv' : Inv t) (same : view s = view t) (own : first.filter mine = second.filter mine)
    (inLine : InLine mine Meets (history step t second)) :
    (answers mine (history step s first) = answers mine (history step t second) ∧
      view (final step s first) = view (final step t second)) ↔
      InLine mine Meets (history step s first) := by
  induction first generalizing s t second with
  | nil =>
    have others : ∀ a ∈ second, mine a = false := by
      intro a mem
      rw [Bool.eq_false_iff]
      intro its
      have there : a ∈ second.filter mine := mem_filter.mpr ⟨mem, its⟩
      rw [← own] at there
      cases there
    obtain ⟨unheard, unseen, -⟩ := others_unseen unwinds others inv'
    constructor
    · intro _ e mem
      cases mem
    · intro _
      exact ⟨unheard.symm, same.trans unseen.symm⟩
  | cons a rest ih =>
    cases its : mine a with
    | false =>
      have skipped : (rest.filter mine) = second.filter mine := by
        rw [← own, filter_cons, its]
        rfl
      have next := ih (unwinds.keeps s a inv) inv' ((unwinds.respects s a inv its).trans same) skipped
        inLine
      have unheard : answers mine (history step s (a :: rest)) =
          answers mine (history step (step s a).2 rest) := by
        simp only [answers, history_cons, filter_cons, its, Bool.false_eq_true, if_false]
      rw [unheard, final_cons, next]
      constructor
      · intro line e mem
        rcases mem_cons.mp mem with rfl | later
        · intro mine_
          rw [its] at mine_
          cases mine_
        · exact line e later
      · intro line e mem
        exact line e (mem_cons_of_mem _ mem)
    | true =>
      rw [filter_cons, its] at own
      obtain ⟨before, after, rfl, others, its', rest_⟩ := filter_eq_cons_iff.mp own.symm
      have others : ∀ b ∈ before, mine b = false := fun b mem => by
        rw [Bool.eq_false_iff]
        exact others b mem
      obtain ⟨unheard, unseen, kept⟩ := others_unseen unwinds others inv'
      let u := final step t before
      have here : ⟨u, a, (step u a).1, (step u a).2⟩ ∈ history step t (before ++ a :: after) := by
        rw [history_split]
        exact mem_append_right _ mem_cons_self
      have met : Meets u a := inLine _ here its
      have line : InLine mine Meets (history step (step (final step t before) a).2 after) := by
        intro e mem
        apply inLine
        rw [history_split]
        exact mem_append_right _ (mem_cons_of_mem _ mem)
      have heard : answers mine (history step t (before ++ a :: after)) =
          (step (final step t before) a).1 ::
            answers mine (history step (step (final step t before) a).2 after) := by
        rw [history_split, answers_append, unheard]
        simp only [answers, nil_append, filter_cons, its, if_true, map_cons]
      have heard' : answers mine (history step s (a :: rest)) =
          (step s a).1 :: answers mine (history step (step s a).2 rest) := by
        simp only [answers, history_cons, filter_cons, its, if_true, map_cons]
      have alike : view s = view (final step t before) := same.trans unseen.symm
      rw [heard, heard', final_cons, final_append, final_cons]
      by_cases ours : Meets s a
      · obtain ⟨answer, after_⟩ := unwinds.consistent s _ a inv kept its alike ours met
        have next := ih (unwinds.keeps s a inv) (unwinds.keeps _ a kept) after_ rest_.symm line
        rw [answer, List.cons.injEq, eq_self_iff_true, true_and, next]
        constructor
        · intro others_ e mem
          rcases mem_cons.mp mem with rfl | later
          · exact fun _ => ours
          · exact others_ e later
        · intro whole e mem
          exact whole e (mem_cons_of_mem _ mem)
      · constructor
        · rintro ⟨answers_, -⟩
          exact absurd (List.cons.inj answers_).1 (unwinds.diverges s _ a inv kept its alike ours met)
        · intro whole
          exact absurd (whole _ mem_cons_self its) ours

end Library.Unwinding
