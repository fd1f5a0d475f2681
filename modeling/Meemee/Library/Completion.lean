import Meemee.Library.History

/-!
# Slots that are completed once

A slot of a machine's state is open, or completed with a value. Where every step of a run leaves the
slot alone or completes it while it is open, a completed slot was completed by exactly one event,
and still has the value of that event.
-/
namespace Library.Completion
open Library.History List

variable {σ α ο β : Type} {step : σ → α → ο × σ}

/-- A completing event finds the slot open and suits its value; others leave it. -/
structure Tends (value : σ → Option β) (completes : Event σ α ο → Bool)
    (Suits : Event σ α ο → β → Prop) (e : Event σ α ο) : Prop where
  alone : completes e = false → value e.after = value e.before
  opened : completes e = true → value e.before = none
  suited : completes e = true → ∃ b, value e.after = some b ∧ Suits e b

variable {value : σ → Option β} {completes : Event σ α ο → Bool} {Suits : Event σ α ο → β → Prop}

theorem stays {s : σ} {b : β} (completed : value s = some b) {actions : List α}
    (tends : ∀ e ∈ history step s actions, Tends value completes Suits e) :
    value (final step s actions) = some b ∧ (history step s actions).countP completes = 0 := by
  induction actions generalizing s with
  | nil => exact ⟨completed, rfl⟩
  | cons a rest ih =>
    have first := tends _ mem_cons_self
    cases here : completes ⟨s, a, (step s a).1, (step s a).2⟩ with
    | true => cases completed.symm.trans (first.opened here)
    | false =>
      obtain ⟨last, none_⟩ := ih ((first.alone here).trans completed)
        (fun e mem => tends e (mem_cons_of_mem _ mem))
      refine ⟨last, ?_⟩
      rw [history_cons, countP_cons, none_, here]
      rfl

/-- From an open slot, exactly one event has completed it when it is completed. -/
theorem once {s : σ} (opened : value s = none) {actions : List α}
    (tends : ∀ e ∈ history step s actions, Tends value completes Suits e) :
    (value (final step s actions) = none → (history step s actions).countP completes = 0) ∧
      ∀ b, value (final step s actions) = some b →
        (history step s actions).countP completes = 1 ∧
          ∃ e ∈ history step s actions, completes e = true ∧ Suits e b := by
  induction actions generalizing s with
  | nil =>
    refine ⟨fun _ => rfl, ?_⟩
    intro b completed
    cases opened.symm.trans completed
  | cons a rest ih =>
    have first := tends _ mem_cons_self
    have later := fun e mem => tends e (mem_cons_of_mem _ mem)
    rw [history_cons, countP_cons]
    cases here : completes ⟨s, a, (step s a).1, (step s a).2⟩ with
    | false =>
      obtain ⟨open_, closed⟩ := ih ((first.alone here).trans opened) later
      refine ⟨open_, ?_⟩
      intro b completed
      obtain ⟨count, e, mem, met⟩ := closed b completed
      exact ⟨count, e, mem_cons_of_mem _ mem, met⟩
    | true =>
      obtain ⟨b, left, suits⟩ := first.suited here
      obtain ⟨last, none_⟩ := stays left later
      refine ⟨fun still => ?_, ?_⟩
      · cases still.symm.trans last
      · intro c completed
        cases last.symm.trans completed
        rw [none_]
        exact ⟨rfl, _, mem_cons_self, here, suits⟩

end Library.Completion
