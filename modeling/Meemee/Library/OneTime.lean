import Mathlib.Data.List.Nodup
import Mathlib.Logic.Function.Basic
import Meemee.Library.History

/-!
# One-time secrets

A place keeps the digest of the last secret issued for it, a deadline, and whether it was used. A
secret is accepted at a place when its digest is the one kept there, unused, before the deadline.
-/
namespace Library.OneTime
open List

variable {κ τ δ ι : Type}

structure Slot (δ ι : Type) where
  digest : δ
  deadline : ι
  used : Bool
  deriving DecidableEq

abbrev Slots (κ δ ι : Type) := κ → Option (Slot δ ι)

/-- What happened at a place. -/
inductive Mark (κ τ ι : Type) where
  | issued (k : κ) (t : τ) (deadline : ι)
  | accepted (k : κ) (t : τ) (now : ι)

/-- The secret that a mark issues. -/
def Mark.issue : Mark κ τ ι → Option τ
  | .issued _ t _ => some t
  | .accepted _ _ _ => none

/-- The mark issues a secret for a place. -/
def Mark.IssuesAt (k : κ) : Mark κ τ ι → Prop
  | .issued k' _ _ => k' = k
  | .accepted _ _ _ => False

def Mark.secret : Mark κ τ ι → τ
  | .issued _ t _ => t
  | .accepted _ t _ => t

section Steps

variable [DecidableEq κ] [LT ι] (digest : τ → δ)

/-- The marks that may follow on slots, and the slots after them. -/
inductive Follows (s : Slots κ δ ι) : Mark κ τ ι → Slots κ δ ι → Prop where
  | issued {k : κ} {t : τ} {deadline : ι} : Follows s (.issued k t deadline)
      (Function.update s k (some ⟨digest t, deadline, false⟩))
  | accepted {k : κ} {t : τ} {now : ι} {slot : Slot δ ι} : s k = some slot → slot.used = false →
      slot.digest = digest t → now < slot.deadline →
      Follows s (.accepted k t now) (Function.update s k (some { slot with used := true }))

/-- The marks made from empty slots, the first one first. -/
inductive Marked : List (Mark κ τ ι) → Slots κ δ ι → Prop where
  | start : Marked [] (fun _ => none)
  | after {marks : List (Mark κ τ ι)} {mark : Mark κ τ ι} {s s' : Slots κ δ ι} : Marked marks s →
      Follows digest s mark s' → Marked (marks ++ [mark]) s'

end Steps

/-- Every accepted secret was issued for that place, with a deadline that has not come; no secret was
issued for the place since, the secret was issued for no other place, and it was not accepted
before. -/
def Rightful [LT ι] (marks : List (Mark κ τ ι)) : Prop :=
  ∀ pre post k t now, marks = pre ++ .accepted k t now :: post →
    (∃ before between deadline, pre = before ++ .issued k t deadline :: between ∧ now < deadline ∧
      ∀ mark ∈ between, ¬ mark.IssuesAt k) ∧
    (∀ k' deadline, Mark.issued k' t deadline ∈ pre → k' = k) ∧
    ∀ k' now', Mark.accepted k' t now' ∉ pre

/-- What a slot says of the marks that led to it. -/
structure Kept (digest : τ → δ) (marks : List (Mark κ τ ι)) (k : κ) (slot : Slot δ ι) : Prop where
  issued : ∃ before between t, marks = before ++ .issued k t slot.deadline :: between ∧
    digest t = slot.digest ∧ (∀ mark ∈ between, ¬ mark.IssuesAt k) ∧
    (slot.used = false → ∀ t' now, Mark.accepted k t' now ∉ between)

/-- No secret is issued twice. -/
def Distinct (marks : List (Mark κ τ ι)) : Prop := (marks.filterMap Mark.issue).Nodup

/-- The digests of the secrets that are issued or accepted tell them apart. -/
def Separates (digest : τ → δ) (marks : List (Mark κ τ ι)) : Prop :=
  ∀ a ∈ marks, ∀ b ∈ marks, digest a.secret = digest b.secret → a.secret = b.secret

variable {k : κ} {mark : Mark κ τ ι}

theorem issue_mem {marks : List (Mark κ τ ι)} {t : τ} {deadline : ι}
    (mem : Mark.issued k t deadline ∈ marks) : t ∈ marks.filterMap Mark.issue :=
  mem_filterMap.mpr ⟨_, mem, rfl⟩

theorem issued_once {marks before between before' between' : List (Mark κ τ ι)} {k' : κ} {t : τ}
    {deadline deadline' : ι} (distinct : Distinct marks)
    (split : marks = before ++ .issued k t deadline :: between)
    (split' : marks = before' ++ .issued k' t deadline' :: between') :
    before = before' ∧ k = k' ∧ deadline = deadline' ∧ between = between' := by
  induction before generalizing marks before' with
  | nil =>
    cases before' with
    | nil =>
      rw [split] at split'
      cases split'
      exact ⟨rfl, rfl, rfl, rfl⟩
    | cons mark rest =>
      rw [split] at split' distinct
      obtain ⟨-, tail⟩ := List.cons.inj split'
      have later : t ∈ between.filterMap Mark.issue := by
        rw [tail]
        exact issue_mem (mem_append_right rest mem_cons_self)
      exact absurd later (nodup_cons.mp distinct).1
  | cons mark rest ih =>
    cases before' with
    | nil =>
      rw [split'] at split distinct
      obtain ⟨-, tail⟩ := List.cons.inj split
      have later : t ∈ between'.filterMap Mark.issue := by
        rw [tail]
        exact issue_mem (mem_append_right rest mem_cons_self)
      exact absurd later (nodup_cons.mp distinct).1
    | cons mark' rest' =>
      rw [split] at split' distinct
      obtain ⟨rfl, tail⟩ := List.cons.inj split'
      have fewer : Distinct (rest ++ .issued k t deadline :: between) :=
        distinct.sublist ((sublist_cons_self _ _).filterMap Mark.issue)
      obtain ⟨rfl, rest⟩ := ih fewer rfl tail
      exact ⟨rfl, rest⟩

theorem filterMap_sublist {α β : Type} {f g : α → Option β} {l : List α}
    (agrees : ∀ a ∈ l, f a = none ∨ f a = g a) : (l.filterMap f).Sublist (l.filterMap g) := by
  induction l with
  | nil => exact List.Sublist.refl _
  | cons a rest ih =>
    have later := ih (fun b mem => agrees b (mem_cons_of_mem _ mem))
    rcases agrees a mem_cons_self with none | same
    · rw [filterMap_cons_none none]
      exact later.trans ((sublist_cons_self a rest).filterMap g)
    · rw [filterMap_cons, filterMap_cons, same]
      cases g a with
      | none => exact later
      | some b => exact later.cons_cons b

variable {digest : τ → δ} {marks : List (Mark κ τ ι)}

/-- A slot keeps what it says of the marks when one at another place follows. -/
theorem Kept.other {slot : Slot δ ι} (kept : Kept digest marks k slot)
    (unissued : ¬ mark.IssuesAt k) (unaccepted : ∀ t now, mark ≠ .accepted k t now) :
    Kept digest (marks ++ [mark]) k slot := by
  obtain ⟨before, between, t, split, same, last, fresh⟩ := kept.issued
  refine ⟨before, between ++ [mark], t, by rw [split]; simp, same, ?_, ?_⟩
  · intro later mem
    rcases mem_append.mp mem with earlier | here
    · exact last later earlier
    · rw [mem_singleton.mp here]
      exact unissued
  · intro unused t' now mem
    rcases mem_append.mp mem with earlier | here
    · exact fresh unused t' now earlier
    · exact unaccepted t' now (mem_singleton.mp here).symm

theorem Distinct.initial (distinct : Distinct (marks ++ [mark])) : Distinct marks :=
  distinct.sublist ((sublist_append_left _ _).filterMap Mark.issue)

theorem Separates.initial (apart : Separates digest (marks ++ [mark])) : Separates digest marks :=
  fun a first b second => apart a (mem_append_left _ first) b (mem_append_left _ second)

theorem split_last {pre post : List (Mark κ τ ι)} {here : Mark κ τ ι}
    (split : marks ++ [mark] = pre ++ here :: post) :
    (pre = marks ∧ here = mark) ∨ ∃ rest, marks = pre ++ here :: rest := by
  rcases eq_nil_or_concat post with rfl | ⟨rest, last, rfl⟩
  · obtain ⟨same, tail⟩ := append_inj' split rfl
    cases tail
    exact .inl ⟨same.symm, rfl⟩
  · rw [concat_eq_append, ← cons_append, ← append_assoc] at split
    exact .inr ⟨rest, (append_inj' split rfl).1⟩

section Marks

variable [DecidableEq κ] [LT ι] {s s' : Slots κ δ ι}

theorem kept_follows (follows : Follows digest s mark s')
    (kept : ∀ k slot, s k = some slot → Kept digest marks k slot) :
    ∀ k slot, s' k = some slot → Kept digest (marks ++ [mark]) k slot := by
  intro place slot there
  cases follows with
  | @issued k t deadline =>
    by_cases here : place = k
    · subst here
      rw [Function.update_self] at there
      cases there
      exact ⟨marks, [], t, rfl, rfl, by simp, by simp⟩
    · rw [Function.update_of_ne here] at there
      exact (kept place slot there).other (fun same => here same.symm) (by simp)
  | @accepted k t now old found =>
    by_cases here : place = k
    · subst here
      rw [Function.update_self] at there
      cases there
      obtain ⟨before, between, t', split, same, last, -⟩ := (kept place old found).issued
      refine ⟨before, between ++ [.accepted place t now], t', by rw [split]; simp, same, ?_, by simp⟩
      intro later mem
      rcases mem_append.mp mem with earlier | here
      · exact last later earlier
      · rw [mem_singleton.mp here]
        exact id
    · rw [Function.update_of_ne here] at there
      refine (kept place slot there).other id (fun t' now' same => ?_)
      cases same
      exact here rfl

theorem marked_kept (marked : Marked digest marks s) :
    ∀ k slot, s k = some slot → Kept digest marks k slot := by
  induction marked with
  | start => intro _ _ none; cases none
  | after _ follows ih => exact kept_follows follows ih

theorem marked_rightful (marked : Marked digest marks s) (distinct : Distinct marks)
    (apart : Separates digest marks) : Rightful marks := by
  induction marked with
  | start => intro pre post k t now split; simp at split
  | @after marks mark s s' earlier follows ih =>
    have before := ih distinct.initial apart.initial
    intro pre post k t now split
    rcases split_last split with ⟨rfl, same⟩ | ⟨rest, split⟩
    · subst same
      cases follows with
      | @accepted _ _ _ slot found unused digests early =>
        obtain ⟨first, between, t', origin, same, last, fresh⟩ := (marked_kept earlier k slot found).issued
        have issued : Mark.issued k t' slot.deadline ∈ pre := by rw [origin]; simp
        obtain rfl : t' = t := apart _ (mem_append_left _ issued) _
          (mem_append_right _ (mem_singleton_self _)) (same.trans digests)
        refine ⟨⟨first, between, slot.deadline, origin, early, last⟩, ?_, ?_⟩
        · intro k' deadline again
          obtain ⟨first', between', split'⟩ := append_of_mem again
          exact (issued_once distinct.initial origin split').2.1.symm
        · intro k' now' again
          obtain ⟨pre', post', split'⟩ := append_of_mem again
          obtain ⟨first', between', deadline', start, -⟩ := (before pre' post' k' t' now' split').1
          rw [start, append_assoc] at split'
          obtain ⟨-, rfl, -, rfl⟩ := issued_once distinct.initial origin split'
          exact fresh unused t' now' (mem_append_right _ mem_cons_self)
    · exact before pre rest k t now split

end Marks

section Runs

open Library.History

theorem filterMap_actions {α ο σ β : Type} {step : σ → α → ο × σ} (f : α → Option β) (s : σ)
    (actions : List α) :
    (history step s actions).filterMap (fun e => f e.action) = actions.filterMap f := by
  induction actions generalizing s with
  | nil => rfl
  | cons a rest ih => rw [history_cons, filterMap_cons, filterMap_cons, ih]

variable [DecidableEq κ] [LT ι] {digest : τ → δ} {σ α ο : Type} {step : σ → α → ο × σ}

/-- The marks of a machine whose steps make a mark that may follow or none. -/
theorem marked_history {abs : σ → Slots κ δ ι} {mark : Event σ α ο → Option (Mark κ τ ι)}
    {Inv : σ → Prop} (keeps : ∀ s a, Inv s → Inv (step s a).2)
    (quiet : ∀ s a, Inv s → mark ⟨s, a, (step s a).1, (step s a).2⟩ = none → abs (step s a).2 = abs s)
    (follows : ∀ s a m, Inv s → mark ⟨s, a, (step s a).1, (step s a).2⟩ = some m →
      Follows digest (abs s) m (abs (step s a).2))
    {s : σ} (start : Inv s) (empty : abs s = fun _ => none) (actions : List α) :
    Marked digest ((history step s actions).filterMap mark) (abs (final step s actions)) := by
  have run := @traced _ _ _ step
    (fun events s => Inv s ∧ Marked digest (events.filterMap mark) (abs s))
    (fun events s a so => by
      refine ⟨keeps s a so.1, ?_⟩
      rw [filterMap_append]
      cases made : mark ⟨s, a, (step s a).1, (step s a).2⟩ with
      | none =>
        rw [quiet s a so.1 made, filterMap_cons_none made]
        simpa using so.2
      | some m =>
        rw [filterMap_cons_some made]
        exact .after so.2 (follows s a m so.1 made))
    [] s ⟨start, by rw [empty]; exact .start⟩ actions
  simpa using run.2

end Runs

end Library.OneTime
