import Meemee.Source.Goals

/-!
# What a goal operation can do

Every operation leaves the store alone, inserts one goal or rewrites one: `step_change` lists the
ways, with the guard of each.
-/
namespace Meemee.Guarantees.GoalMoves
open Library Source Source.Goals Library.Txn Library.Table

/-- The transactions of the calls, and the reads after them. -/
inductive Action where
  | create (new : NewGoal) (now : Instant)
  | claim (principal worker : String) (leaseSeconds : Int) (now : Instant)
  | renew (principal ident worker : String) (leaseSeconds : Int) (now : Instant)
  | transition (t : Transition) (now : Instant)
  | get (principal ident : String)
  | list (principal : String) (status : Option GoalStatus)

inductive Answer where
  | done
  | claimed (ident : Option String)
  | row (goal : Goal) (dependsOn : List String)
  | ids (idents : List String)
  deriving DecidableEq, Repr

def call : Action → GoalStore → Except GoalExc Answer × GoalStore
  | .create new now => Txn.answer (fun _ => .done) (create new now)
  | .claim principal worker leaseSeconds now =>
    Txn.answer .claimed (claim principal worker leaseSeconds now)
  | .renew principal ident worker leaseSeconds now =>
    Txn.answer (fun _ => .done) (renew principal ident worker leaseSeconds now)
  | .transition t now => Txn.answer (fun _ => .done) (transition t now)
  | .get principal ident => Txn.answer (fun found => .row found.1 found.2) (get principal ident)
  | .list principal status => Txn.answer .ids (listIds principal status)

/-- One goal rewritten. -/
def put (s : GoalStore) (ident : String) (f : Goal → Goal) (keeps : ∀ g, (f g).id = g.id) :
    GoalStore :=
  s.updated (fun g => decide (g.id = ident)) f keeps

variable {s t : GoalStore} {ident principal : String}

theorem find_put {f : Goal → Goal} {keeps : ∀ g, (f g).id = g.id} (other : String) :
    (put s ident f keeps).goals.find other =
      if other = ident then (s.goals.find other).map f else s.goals.find other :=
  find_update_key _ ident f keeps other

inductive Change (s : GoalStore) : Action → Except GoalExc Answer → GoalStore → Prop where
  | refused (action : Action) (e : GoalExc) : Change s action (.error e) s
  | got (principal ident : String) (goal : Goal) (dependsOn : List String) :
      Change s (.get principal ident) (.ok (.row goal dependsOn)) s
  | listed (principal : String) (status : Option GoalStatus) (idents : List String) :
      Change s (.list principal status) (.ok (.ids idents)) s
  | idle (principal worker : String) (leaseSeconds : Int) (now : Instant) :
      Change s (.claim principal worker leaseSeconds now) (.ok (.claimed none)) s
  | created (new : NewGoal) (now : Instant) (context : String)
      (fresh : s.goals.find (new.row context now).id = none)
      (apart : new.ident ∉ new.dependsOn)
      (own : ∀ item ∈ fromKeys new.dependsOn, ∃ g, s.owned? new.principal item = some g) :
      Change s (.create new now) (.ok .done)
        (s.inserted (new.row context now) (fromKeys new.dependsOn) fresh)
  | claimed (principal worker : String) (leaseSeconds : Int) (now ends : Instant) (row : Goal)
      (found : s.goals.find row.id = some row) (free : claimable s principal now row = true)
      (until_ : leaseEnd now leaseSeconds = .ok ends) :
      Change s (.claim principal worker leaseSeconds now) (.ok (.claimed (some row.id)))
        (put s row.id (fun g => g.claimed worker ends now) (fun g => g.claimed_id worker ends now))
  | renewed (principal ident worker : String) (leaseSeconds : Int) (now ends : Instant) (row : Goal)
      (found : s.goals.find ident = some row)
      (held : renewable principal ident worker now row = true)
      (until_ : leaseEnd now leaseSeconds = .ok ends) :
      Change s (.renew principal ident worker leaseSeconds now) (.ok .done)
        (put s ident (fun g => g.renewed ends now) (fun g => g.renewed_id ends now))
  | moved (t : Transition) (now : Instant) (row : Goal) (found : s.goals.find t.ident = some row)
      (own : row.principal = t.principal) (checked : checkMove t now row = .ok ())
      (ready : t.status = .completed → s.waiting t.ident = false) :
      Change s (.transition t now) (.ok .done)
        (put s t.ident (fun g => g.moved t now) (fun g => g.moved_id t now))

theorem owned_some {g : Goal} (own : s.owned? principal ident = some g) :
    s.goals.find ident = some g ∧ g.principal = principal := by
  obtain ⟨found, same⟩ := Option.filter_eq_some_iff.mp own
  exact ⟨found, of_decide_eq_true same⟩

theorem owned_run {g : Goal} (run : owned principal ident s = (.ok g, t)) :
    s.owned? principal ident = some g ∧ t = s := by
  rw [owned, run_bind_read] at run
  cases own : s.owned? principal ident with
  | none =>
    rw [own] at run
    cases run
  | some found =>
    rw [own] at run
    cases run
    exact ⟨rfl, rfl⟩

theorem requireOwned_run {idents : List String}
    (run : requireOwned principal idents s = (.ok (), t)) :
    t = s ∧ ∀ ident ∈ idents, ∃ g, s.owned? principal ident = some g := by
  induction idents generalizing s with
  | nil =>
    cases run
    exact ⟨rfl, nofun⟩
  | cons ident rest ih =>
    obtain ⟨g, s', first, later⟩ := bind_returned run
    obtain ⟨own, rfl⟩ := owned_run first
    obtain ⟨same, others⟩ := ih later
    refine ⟨same, ?_⟩
    intro other mem
    rcases List.mem_cons.mp mem with rfl | there
    · exact ⟨g, own⟩
    · exact others other there

theorem insertGoal_run {row : Goal} {dependencies : List String}
    (run : insertGoal row dependencies s = (.ok (), t)) :
    ∃ fresh, t = s.inserted row dependencies fresh := by
  unfold insertGoal at run
  split at run
  next fresh =>
    split at run
    · cases run
    · cases run
      exact ⟨fresh, rfl⟩
  · cases run

theorem answer_change {α : Type} {wrap : α → Answer} {m : GoalTxn α} {action : Action}
    (clean : Txn.RaisesClean m)
    (returns : ∀ a t, m s = (.ok a, t) → Change s action (.ok (wrap a)) t) :
    Change s action (Txn.answer wrap m s).1 (Txn.answer wrap m s).2 := by
  rcases run : m s with ⟨result, t⟩
  cases result with
  | ok a =>
    rw [answer_of_ok run]
    exact returns a t run
  | error e =>
    rw [answer_of_error run, clean s e t run]
    exact .refused action e

theorem clean_owned (principal ident : String) : Txn.RaisesClean (owned principal ident) := by
  intro s e t raised
  rw [owned, run_bind_read] at raised
  cases own : s.owned? principal ident with
  | none =>
    rw [own] at raised
    cases raised
    rfl
  | some found =>
    rw [own] at raised
    cases raised

theorem create_change (new : NewGoal) (now : Instant) (s : GoalStore) :
    Change s (.create new now) (call (.create new now) s).1 (call (.create new now) s).2 := by
  apply answer_change
  · intro s e t raised
    unfold create at raised
    cases checked : checkNew new with
    | error e' =>
      rw [checked] at raised
      cases raised
      rfl
    | ok _ =>
      rw [checked] at raised
      exact atomically_error raised
  · intro _ t run
    obtain ⟨_, checked, body⟩ := ofExcept_bind_returned run
    obtain ⟨_, s₁, parents, afterParents⟩ := bind_returned (atomically_ok.mp body)
    obtain ⟨rfl, -⟩ := requireOwned_run parents
    obtain ⟨_, s₂, dependencies, afterDependencies⟩ := bind_returned afterParents
    obtain ⟨rfl, own⟩ := requireOwned_run dependencies
    obtain ⟨context, -, insertion⟩ := ofExcept_bind_returned afterDependencies
    obtain ⟨fresh, rfl⟩ := insertGoal_run insertion
    apply Change.created new now context fresh _ own
    intro within
    unfold checkNew at checked
    split at checked
    · cases checked
    · cases checked

theorem claim_change (principal worker : String) (leaseSeconds : Int) (now : Instant) (s : GoalStore) :
    Change s (.claim principal worker leaseSeconds now)
      (call (.claim principal worker leaseSeconds now) s).1
      (call (.claim principal worker leaseSeconds now) s).2 := by
  apply answer_change
  · exact raisesClean_require_bind (raisesClean_atomically _)
  · intro claimed t run
    obtain ⟨-, body⟩ := require_bind_returned run
    obtain ⟨ends, until_, body⟩ := ofExcept_bind_returned (atomically_ok.mp body)
    rw [run_bind_read] at body
    cases picked : s.goals.first (claimable s principal now) listedBefore with
    | none =>
      rw [picked] at body
      cases body
      exact .idle principal worker leaseSeconds now
    | some row =>
      rw [picked] at body
      cases body
      obtain ⟨mem, free⟩ := first_some picked
      have found := find_of_mem mem
      have unleased : row.unleased now = true := by
        simp only [claimable, Bool.and_eq_true] at free
        exact free.1.2
      have same : s.updated (fun g => decide (g.id = row.id) && g.unleased now)
          (fun g => g.claimed worker ends now) (fun g => g.claimed_id worker ends now) =
          put s row.id (fun g => g.claimed worker ends now)
            (fun g => g.claimed_id worker ends now) := by
        unfold put GoalStore.updated
        congr 1
        apply update_congr
        intro g there
        by_cases here : g.id = row.id
        · rw [eq_of_find found there here, unleased, Bool.and_true]
        · simp [here]
      have change := Change.claimed principal worker leaseSeconds now ends row found free until_
      rw [← same] at change
      exact change

theorem updated_unmatched {p : Goal → Bool} {f : Goal → Goal} {keeps : ∀ g, (f g).id = g.id}
    (none : (s.goals.select p).isEmpty = true) : s.updated p f keeps = s := by
  have same := @update_none _ _ _ s.goals p f keeps (select_isEmpty.mp none)
  unfold GoalStore.updated
  rw [same]

theorem clean_renew (principal ident worker : String) (leaseSeconds : Int) (now : Instant) :
    Txn.RaisesClean (renew principal ident worker leaseSeconds now) := by
  intro s e t raised
  unfold renew at raised
  rw [run_require_bind] at raised
  split at raised
  · cases ends : leaseEnd now leaseSeconds with
    | error e' =>
      rw [ends] at raised
      cases raised
      rfl
    | ok ends' =>
      rw [ends, run_bind_ok (run_ofExcept (.ok ends') s), run_bind_read,
        run_bind_write] at raised
      cases matched : (s.goals.select (renewable principal ident worker now)).isEmpty with
      | true =>
        rw [matched, updated_unmatched matched] at raised
        cases raised
        rfl
      | false =>
        rw [matched] at raised
        cases raised
  · cases raised
    rfl

theorem renew_change (principal ident worker : String) (leaseSeconds : Int) (now : Instant)
    (s : GoalStore) :
    Change s (.renew principal ident worker leaseSeconds now)
      (call (.renew principal ident worker leaseSeconds now) s).1
      (call (.renew principal ident worker leaseSeconds now) s).2 := by
  apply answer_change (clean_renew principal ident worker leaseSeconds now)
  intro _ t run
  obtain ⟨-, body⟩ := require_bind_returned run
  obtain ⟨ends, until_, written⟩ := ofExcept_bind_returned body
  rw [run_bind_read] at written
  cases matched : s.goals.select (renewable principal ident worker now) with
  | nil =>
    rw [matched] at written
    cases written
  | cons row rest =>
    rw [matched] at written
    cases written
    have head : row ∈ s.goals.select (renewable principal ident worker now) := by
      rw [matched]
      exact List.mem_cons_self
    obtain ⟨mem, held⟩ := List.mem_filter.mp head
    have named : ∀ g, renewable principal ident worker now g = true → g.id = ident := by
      intro g met
      simp only [renewable, Bool.and_eq_true, decide_eq_true_eq] at met
      exact met.1.2.1
    have found : s.goals.find ident = some row := by
      rw [← named row held]
      exact find_of_mem mem
    have same : s.updated (renewable principal ident worker now)
        (fun g => g.renewed ends now) (fun g => g.renewed_id ends now) =
        put s ident (fun g => g.renewed ends now) (fun g => g.renewed_id ends now) := by
      unfold put GoalStore.updated
      congr 1
      apply update_congr
      intro g there
      by_cases here : g.id = ident
      · rw [eq_of_find found there here, held, key_of_find found, decide_eq_true rfl]
      · rw [decide_eq_false here, Bool.eq_false_iff]
        exact fun met => here (named g met)
    have change := Change.renewed principal ident worker leaseSeconds now ends row found held until_
    rw [← same] at change
    exact change

theorem transition_change (t : Transition) (now : Instant) (s : GoalStore) :
    Change s (.transition t now) (call (.transition t now) s).1 (call (.transition t now) s).2 := by
  apply answer_change
  · exact raisesClean_atomically _
  · intro _ after run
    obtain ⟨row, s₁, first, body⟩ := bind_returned (atomically_ok.mp run)
    obtain ⟨own, rfl⟩ := owned_run first
    obtain ⟨found, principal⟩ := owned_some own
    obtain ⟨_, checked, afterChecks⟩ := ofExcept_bind_returned body
    obtain ⟨ready, written⟩ := require_bind_returned afterChecks
    cases written
    apply Change.moved t now row found principal checked
    intro completed
    simpa [completed] using ready

theorem step_change (action : Action) (s : GoalStore) :
    Change s action (call action s).1 (call action s).2 := by
  cases action with
  | create new now => exact create_change new now s
  | claim principal worker leaseSeconds now => exact claim_change principal worker leaseSeconds now s
  | renew principal ident worker leaseSeconds now =>
    exact renew_change principal ident worker leaseSeconds now s
  | transition t now => exact transition_change t now s
  | get principal ident =>
    apply answer_change
    · intro s e t raised
      unfold Goals.get at raised
      rcases run : owned principal ident s with ⟨result, t'⟩
      cases result with
      | error e' =>
        rw [run_bind_error run] at raised
        cases raised
        exact clean_owned principal ident s e t run
      | ok g =>
        rw [run_bind_ok run] at raised
        cases raised
    · intro found t run
      obtain ⟨g, s₁, first, rest⟩ := bind_returned run
      obtain ⟨-, rfl⟩ := owned_run first
      cases rest
      exact .got principal ident _ _
  | list principal status => exact .listed principal status _

end Meemee.Guarantees.GoalMoves
