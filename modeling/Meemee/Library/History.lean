import Mathlib.Data.List.Basic

/-!
# Histories of a labelled machine

A machine is a total step function, and everything a run may choose (the order of the callers, their
clock readings, the names they draw) is carried by the actions: a list of actions is one
interleaving. `history` keeps, for each action, the state before it, its answer and the state after.
-/
namespace Library.History
open List

variable {σ α ο : Type}

/-- One action of a run, with the two states around it. -/
structure Event (σ α ο : Type) where
  before : σ
  action : α
  answer : ο
  after : σ

/-- The state after a list of actions. -/
def final (step : σ → α → ο × σ) (s : σ) : List α → σ
  | [] => s
  | a :: rest => final step (step s a).2 rest

/-- Every event of a list of actions, in order. -/
def history (step : σ → α → ο × σ) (s : σ) : List α → List (Event σ α ο)
  | [] => []
  | a :: rest => ⟨s, a, (step s a).1, (step s a).2⟩ :: history step (step s a).2 rest

variable {step : σ → α → ο × σ}

@[simp] theorem final_nil (s : σ) : final step s [] = s := rfl

@[simp] theorem final_cons (s : σ) (a : α) (rest : List α) :
    final step s (a :: rest) = final step (step s a).2 rest := rfl

@[simp] theorem history_nil (s : σ) : history step s [] = [] := rfl

@[simp] theorem history_cons (s : σ) (a : α) (rest : List α) :
    history step s (a :: rest) =
      ⟨s, a, (step s a).1, (step s a).2⟩ :: history step (step s a).2 rest := rfl

theorem final_append (s : σ) (first second : List α) :
    final step s (first ++ second) = final step (final step s first) second := by
  induction first generalizing s with
  | nil => rfl
  | cons a rest ih => exact ih (step s a).2

theorem history_append (s : σ) (first second : List α) :
    history step s (first ++ second) =
      history step s first ++ history step (final step s first) second := by
  induction first generalizing s with
  | nil => rfl
  | cons a rest ih => simp only [cons_append, history_cons, ih, final_cons]

theorem step_of_mem {s : σ} {actions : List α} {e : Event σ α ο}
    (mem : e ∈ history step s actions) : step e.before e.action = (e.answer, e.after) := by
  induction actions generalizing s with
  | nil => simp at mem
  | cons a rest ih =>
    rcases mem_cons.mp mem with here | later
    · subst here
      rfl
    · exact ih later

theorem action_of_mem {s : σ} {actions : List α} {e : Event σ α ο}
    (mem : e ∈ history step s actions) : e.action ∈ actions := by
  induction actions generalizing s with
  | nil => simp at mem
  | cons a rest ih =>
    rcases mem_cons.mp mem with here | later
    · subst here
      exact mem_cons_self
    · exact mem_cons_of_mem _ (ih later)

theorem history_split (s : σ) (first : List α) (a : α) (second : List α) :
    history step s (first ++ a :: second) =
      history step s first ++
        ⟨final step s first, a, (step (final step s first) a).1, (step (final step s first) a).2⟩ ::
          history step (step (final step s first) a).2 second := by
  rw [history_append]
  rfl

/-- An invariant kept by steps that meet a condition holds at every event of such a run. -/
theorem invariant_of_meets {Inv : σ → Prop} (Meets : Event σ α ο → Prop)
    (keeps : ∀ s a, Inv s → Meets ⟨s, a, (step s a).1, (step s a).2⟩ → Inv (step s a).2) {s : σ}
    (start : Inv s) {actions : List α} (meets : ∀ e ∈ history step s actions, Meets e) :
    (∀ e ∈ history step s actions, Inv e.before ∧ Inv e.after) ∧ Inv (final step s actions) := by
  induction actions generalizing s with
  | nil => exact ⟨by simp, start⟩
  | cons a rest ih =>
    have next : Inv (step s a).2 := keeps s a start (meets _ mem_cons_self)
    obtain ⟨events, last⟩ := ih next (fun e mem => meets e (mem_cons_of_mem _ mem))
    refine ⟨?_, last⟩
    intro e mem
    rcases mem_cons.mp mem with here | later
    · subst here
      exact ⟨start, next⟩
    · exact events e later

theorem invariant {Inv : σ → Prop} (keeps : ∀ s a, Inv s → Inv (step s a).2) {s : σ} (start : Inv s)
    (actions : List α) :
    (∀ e ∈ history step s actions, Inv e.before ∧ Inv e.after) ∧ Inv (final step s actions) :=
  invariant_of_meets (fun _ => True) (fun s a h _ => keeps s a h) start (fun _ _ => trivial)

theorem traced {P : List (Event σ α ο) → σ → Prop}
    (keeps : ∀ events s a, P events s →
      P (events ++ [⟨s, a, (step s a).1, (step s a).2⟩]) (step s a).2) {events : List (Event σ α ο)}
    {s : σ} (start : P events s) (actions : List α) :
    P (events ++ history step s actions) (final step s actions) := by
  induction actions generalizing events s with
  | nil => simpa using start
  | cons a rest ih => simpa using ih (keeps events s a start)

/-- Steps that meet a condition keep a state sound, a step that does not dooms it, and
a doomed state stays doomed: where a run ends tells whether all its steps met it. Every
step of the run may be supposed to be an allowed one. -/
theorem sound_or_doomed_of_allowed {Sound Doomed : σ → Prop} {Allowed Meets : Event σ α ο → Prop}
    (sound : ∀ s a, Allowed ⟨s, a, (step s a).1, (step s a).2⟩ → Sound s →
      Meets ⟨s, a, (step s a).1, (step s a).2⟩ → Sound (step s a).2)
    (broken : ∀ s a, Allowed ⟨s, a, (step s a).1, (step s a).2⟩ → Sound s →
      ¬ Meets ⟨s, a, (step s a).1, (step s a).2⟩ → Doomed (step s a).2)
    (doomed : ∀ s a, Allowed ⟨s, a, (step s a).1, (step s a).2⟩ → Doomed s → Doomed (step s a).2)
    {s : σ} (start : Sound s) {actions : List α} (allowed : ∀ e ∈ history step s actions, Allowed e) :
    ((∀ e ∈ history step s actions, Meets e) ∧ Sound (final step s actions)) ∨
      ((∃ e ∈ history step s actions, ¬ Meets e) ∧ Doomed (final step s actions)) := by
  induction actions generalizing s with
  | nil => exact .inl ⟨by simp, start⟩
  | cons a rest ih =>
    have first := allowed _ mem_cons_self
    have later := fun e mem => allowed e (mem_cons_of_mem _ mem)
    by_cases meets : Meets ⟨s, a, (step s a).1, (step s a).2⟩
    · rcases ih (sound s a first start meets) later with ⟨all, last⟩ | ⟨⟨e, mem, bad⟩, last⟩
      · refine .inl ⟨?_, last⟩
        intro e mem
        rcases mem_cons.mp mem with here | after
        · subst here
          exact meets
        · exact all e after
      · exact .inr ⟨⟨e, mem_cons_of_mem _ mem, bad⟩, last⟩
    · have lost := (invariant_of_meets Allowed (fun s a lost allowed => doomed s a allowed lost)
        (broken s a first start meets) later).2
      exact .inr ⟨⟨_, mem_cons_self, meets⟩, lost⟩

theorem sound_or_doomed {Sound Doomed : σ → Prop} {Meets : Event σ α ο → Prop}
    (sound : ∀ s a, Sound s → Meets ⟨s, a, (step s a).1, (step s a).2⟩ → Sound (step s a).2)
    (broken : ∀ s a, Sound s → ¬ Meets ⟨s, a, (step s a).1, (step s a).2⟩ → Doomed (step s a).2)
    (doomed : ∀ s a, Doomed s → Doomed (step s a).2) {s : σ} (start : Sound s) (actions : List α) :
    ((∀ e ∈ history step s actions, Meets e) ∧ Sound (final step s actions)) ∨
      ((∃ e ∈ history step s actions, ¬ Meets e) ∧ Doomed (final step s actions)) :=
  @sound_or_doomed_of_allowed _ _ _ _ Sound Doomed (fun _ => True) Meets (fun s a _ => sound s a)
    (fun s a _ => broken s a) (fun s a _ => doomed s a) s start actions (fun _ _ => trivial)

/-- An event that sets its own block happens at most once while the block stays. -/
theorem count_le_one_within {Inv Marked : σ → Prop} {p : Event σ α ο → Bool}
    (kept : ∀ s a, Inv s → Inv (step s a).2) (keeps : ∀ s a, Inv s → Marked s → Marked (step s a).2)
    (blocks : ∀ s a, Inv s → Marked s → p ⟨s, a, (step s a).1, (step s a).2⟩ = false)
    (marks : ∀ s a, Inv s → p ⟨s, a, (step s a).1, (step s a).2⟩ = true → Marked (step s a).2)
    {s : σ} (start : Inv s) (actions : List α) : (history step s actions).countP p ≤ 1 := by
  induction actions generalizing s with
  | nil => exact Nat.zero_le 1
  | cons a rest ih =>
    rw [history_cons, countP_cons]
    cases here : p ⟨s, a, (step s a).1, (step s a).2⟩ with
    | false => simpa using ih (kept s a start)
    | true =>
      have both : ∀ s a, Inv s ∧ Marked s → Inv (step s a).2 ∧ Marked (step s a).2 :=
        fun s a both => ⟨kept s a both.1, keeps s a both.1 both.2⟩
      have later : (history step (step s a).2 rest).countP p = 0 := by
        rw [countP_eq_zero]
        intro e mem
        obtain ⟨inv, marked⟩ :=
          ((invariant both ⟨kept s a start, marks s a start here⟩ rest).1 e mem).1
        have blocked := blocks e.before e.action inv marked
        rw [step_of_mem mem] at blocked
        simp [blocked]
      simp [later]

theorem count_le_one {Marked : σ → Prop} {p : Event σ α ο → Bool}
    (keeps : ∀ s a, Marked s → Marked (step s a).2)
    (blocks : ∀ s a, Marked s → p ⟨s, a, (step s a).1, (step s a).2⟩ = false)
    (marks : ∀ s a, p ⟨s, a, (step s a).1, (step s a).2⟩ = true → Marked (step s a).2) (s : σ)
    (actions : List α) : (history step s actions).countP p ≤ 1 :=
  @count_le_one_within _ _ _ _ (fun _ => True) Marked p (fun _ _ _ => trivial)
    (fun s a _ => keeps s a) (fun s a _ => blocks s a) (fun s a _ => marks s a) s trivial actions

theorem final_invariant {Inv : σ → Prop} (keeps : ∀ s a, Inv s → Inv (step s a).2) {s : σ}
    (start : Inv s) (actions : List α) : Inv (final step s actions) :=
  (invariant keeps start actions).2

theorem relates {R : σ → σ → Prop} (refl : ∀ s, R s s) (trans : ∀ s t u, R s t → R t u → R s u)
    (steps : ∀ s a, R s (step s a).2) (s : σ) (actions : List α) : R s (final step s actions) := by
  induction actions generalizing s with
  | nil => exact refl s
  | cons a rest ih => exact trans _ _ _ (steps s a) (ih _)

/-- What an event establishes for every later one relates every pair of events of a run. `Rest`
is a property of the actions still to come, which passes on to what comes after the first of
them. -/
theorem pairwise_of_tail {Rest : List α → Prop} {R : Event σ α ο → Event σ α ο → Prop}
    (tail : ∀ a rest, Rest (a :: rest) → Rest rest)
    (relates : ∀ s a rest, Rest (a :: rest) → ∀ e ∈ history step (step s a).2 rest,
      R ⟨s, a, (step s a).1, (step s a).2⟩ e) (s : σ) {actions : List α} (rest : Rest actions) :
    (history step s actions).Pairwise R := by
  induction actions generalizing s with
  | nil => exact List.Pairwise.nil
  | cons a later ih =>
    rw [history_cons, pairwise_cons]
    exact ⟨relates s a later rest, ih _ (tail a later rest)⟩

/-- The "until" rule. If `Q` holds at the start of a run and every event either
keeps it or is one of the events `Ends`, then at any later event either `Q` still
holds or one of the events before it was an `Ends`. -/
theorem holds_until {Q : σ → Prop} {Ends : Event σ α ο → Prop}
    (keeps : ∀ s a, Q s → Q (step s a).2 ∨ Ends ⟨s, a, (step s a).1, (step s a).2⟩) {s : σ}
    (start : Q s) (actions : List α) :
    Q (final step s actions) ∨ ∃ e ∈ history step s actions, Ends e := by
  induction actions generalizing s with
  | nil => exact .inl start
  | cons a rest ih =>
    rcases keeps s a start with kept | ended
    · rcases ih kept with last | ⟨e, mem, ends⟩
      · exact .inl last
      · exact .inr ⟨e, mem_cons_of_mem _ mem, ends⟩
    · exact .inr ⟨_, mem_cons_self, ended⟩

theorem history_prefix {s : σ} {actions : List α} {pre post : List (Event σ α ο)}
    (split : history step s actions = pre ++ post) :
    ∃ first second, actions = first ++ second ∧ history step s first = pre ∧
      history step (final step s first) second = post := by
  induction pre generalizing s actions with
  | nil => exact ⟨[], actions, rfl, rfl, by simpa using split⟩
  | cons e pre ih =>
    cases actions with
    | nil => simp at split
    | cons a rest =>
      simp only [history_cons, cons_append, List.cons.injEq] at split
      obtain ⟨first, second, actionsEq, preEq, postEq⟩ := ih split.2
      refine ⟨a :: first, second, ?_, ?_, postEq⟩
      · rw [actionsEq, cons_append]
      · rw [history_cons, preEq, split.1]

theorem traced_before {P : List (Event σ α ο) → σ → Prop}
    (keeps : ∀ events s a, P events s →
      P (events ++ [⟨s, a, (step s a).1, (step s a).2⟩]) (step s a).2) {s : σ} (start : P [] s)
    {actions : List α} {pre post : List (Event σ α ο)} {e : Event σ α ο}
    (split : history step s actions = pre ++ e :: post) : P pre e.before := by
  obtain ⟨first, second, -, before, tail⟩ := history_prefix split
  have run := traced keeps start first
  rw [before] at run
  cases second with
  | nil => cases tail
  | cons a rest =>
    obtain ⟨rfl, -⟩ := tail
    exact run

/-- What the first event establishes holds before the second, unless ended in between. -/
theorem holds_between {Q : σ → Prop} {Ends : Event σ α ο → Prop}
    (keeps : ∀ s a, Q s → Q (step s a).2 ∨ Ends ⟨s, a, (step s a).1, (step s a).2⟩) {s : σ}
    {actions : List α} {pre mid post : List (Event σ α ο)} {e₁ e₂ : Event σ α ο}
    (split : history step s actions = pre ++ e₁ :: (mid ++ e₂ :: post)) (start : Q e₁.after) :
    Q e₂.before ∨ ∃ e ∈ mid, Ends e := by
  obtain ⟨first, second, -, -, tail⟩ := history_prefix split
  cases second with
  | nil => simp at tail
  | cons a rest =>
    simp only [history_cons, List.cons.injEq] at tail
    obtain ⟨head, tail⟩ := tail
    subst head
    obtain ⟨between, after, -, midEq, rest⟩ := history_prefix tail
    cases after with
    | nil => simp at rest
    | cons b last =>
      simp only [history_cons, List.cons.injEq] at rest
      rw [← midEq, ← rest.1]
      exact holds_until keeps start between

end Library.History
