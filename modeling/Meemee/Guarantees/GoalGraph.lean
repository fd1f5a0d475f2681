import Mathlib.Logic.Function.Basic
import Meemee.Guarantees.GoalMoves
import Meemee.Library.Lineage
import Meemee.Library.History

/-!
# The goal graph over whole runs

Any principals and workers call, in any order. `told` is a ghost: until when each worker was told
that it holds the lease of a goal.
-/
namespace Meemee.Guarantees.GoalGraph
open Library Library.History Source Source.Goals Function
open Guarantees.GoalMoves

structure System where
  store : GoalStore
  /-- The end of the lease that a worker was last told of, by goal; none once it gave it up. -/
  told : String → String → Option Instant
  /-- The last reading of the clock. -/
  clock : Instant

abbrev Step := Event System Action (Except GoalExc Answer)

/-- The reading of the clock inside the call's transaction; `create` takes its own before it. -/
def Action.now : Action → Option Instant
  | .claim _ _ _ now | .renew _ _ _ _ now | .transition _ now => some now
  | _ => none

/-- What the workers are told, after a call. -/
def tell (told : String → String → Option Instant) : Action → Except GoalExc Answer →
    String → String → Option Instant
  | .claim _ worker leaseSeconds now, .ok (.claimed (some ident)) =>
    Function.update told ident (Function.update (told ident) worker (some (now + seconds leaseSeconds)))
  | .renew _ ident worker leaseSeconds now, .ok .done =>
    Function.update told ident (Function.update (told ident) worker (some (now + seconds leaseSeconds)))
  | .transition t _, .ok .done =>
    if t.status.clears then Function.update told t.ident
      (fun worker => if t.worker = some worker then none else told t.ident worker)
    else told
  | _, _ => told

def step (s : System) (action : Action) : Except GoalExc Answer × System :=
  let (answer, store) := call action s.store
  (answer, ⟨store, tell s.told action answer, (Action.now action).getD s.clock⟩)

def start (clock : Instant) : System := ⟨⟨Table.empty, []⟩, fun _ _ => none, clock⟩

def DependsOn (s : GoalStore) (a b : String) : Prop := (a, b) ∈ s.dependencies

/-- Every dependency of the goal is completed. -/
def Ready (s : GoalStore) (ident : String) : Prop :=
  ∀ item, DependsOn s ident item → ∃ dep, s.goals.find item = some dep ∧ dep.status = .completed

/-- The worker was told of a lease that has not expired. -/
def Holds (s : System) (ident worker : String) : Prop :=
  ∃ ends, s.told ident worker = some ends ∧ s.clock < ends

structure Lawful (s : System) : Prop where
  acyclic : Acyclic (DependsOn s.store)
  /-- A dependency joins two stored goals of one principal. -/
  joined : ∀ a b, DependsOn s.store a b → ∃ g d, s.store.goals.find a = some g ∧
    s.store.goals.find b = some d ∧ g.principal = d.principal
  completed : ∀ ident g, s.store.goals.find ident = some g → g.status = .completed → Ready s.store ident
  leased : ∀ ident g, s.store.goals.find ident = some g → g.leaseOwner.isSome →
    g.status = .active ∧ Ready s.store ident
  exclusive : ∀ ident w w', Holds s ident w → Holds s ident w' → w = w'

/-- A terminal goal is left as it is, and no goal is lost. -/
def Settled (e : Step) : Prop :=
  ∀ ident g, e.before.store.goals.find ident = some g →
    ∃ after, e.after.store.goals.find ident = some after ∧ (g.status.terminal = true → after = g)

/-- A goal that changes has its version raised by one; a new one starts at one. -/
def Versioned (e : Step) : Prop :=
  ∀ ident after, e.after.store.goals.find ident = some after →
    (e.before.store.goals.find ident = none ∧ after.version = 1) ∨
    ∃ g, e.before.store.goals.find ident = some g ∧ (after = g ∨ after.version = g.version + 1)

/-- A transition or a renewal of a leased goal by a worker whose lease is foreign or expired. -/
def Foreign (s : GoalStore) : Action → Prop
  | .transition t now => ∃ g owner, s.goals.find t.ident = some g ∧ g.leaseOwner = some owner ∧
      (t.worker ≠ some owner ∨ g.unleased now = true)
  | .renew _ ident worker _ now => ∃ g owner, s.goals.find ident = some g ∧
      g.leaseOwner = some owner ∧ (worker ≠ owner ∨ g.unleased now = true)
  | _ => False

/-- It raises and changes nothing. -/
def Fenced (e : Step) : Prop :=
  Foreign e.before.store e.action → (∃ x, e.answer = .error x) ∧ e.after.store = e.before.store

/-- The clock does not go back. -/
def Forward (e : Step) : Prop := ∀ now, Action.now e.action = some now → e.before.clock ≤ now

instance (e : Step) : Decidable (Forward e) :=
  inferInstanceAs (Decidable (∀ now ∈ Action.now e.action, e.before.clock ≤ now))

theorem find_inserted {s : GoalStore} {row : Goal} {dependencies : List String}
    {fresh : s.goals.find row.id = none} (ident : String) :
    (s.inserted row dependencies fresh).goals.find ident =
      if row.id = ident then some row else s.goals.find ident :=
  Table.find_insert s.goals row fresh ident

variable {t : GoalStore} {action : Action} {answer : Except GoalExc Answer} {s : System}
  {ident : String} {g : Goal}

/-- The rows after a change: one rewritten with its version raised, or a new one. -/
theorem change_rows {s : GoalStore} (change : Change s action answer t) (ident : String) :
    (t.goals.find ident = s.goals.find ident) ∨
    (s.goals.find ident = none ∧ ∃ g, t.goals.find ident = some g ∧ g.version = 1 ∧
      g.status = .pending ∧ g.leaseOwner = none) ∨
    ∃ g after, s.goals.find ident = some g ∧ t.goals.find ident = some after ∧
      g.status.terminal = false ∧ after.version = g.version + 1 ∧ after.principal = g.principal := by
  cases change with
  | created new now context fresh apart own =>
    rw [find_inserted]
    by_cases here : (new.row context now).id = ident
    · rw [if_pos here]
      rw [here] at fresh
      exact .inr (.inl ⟨fresh, _, rfl, rfl, rfl, rfl⟩)
    · rw [if_neg here]
      exact .inl rfl
  | claimed principal worker leaseSeconds now ends row found free until_ =>
    rw [find_put]
    by_cases here : ident = row.id
    · subst here
      rw [if_pos rfl, found]
      have open_ : row.status.terminal = false := by
        simp only [claimable, Bool.and_eq_true, decide_eq_true_eq] at free
        rcases free.1.1.2 with same | same
        · rw [same]
          rfl
        · rw [same]
          rfl
      exact .inr (.inr ⟨row, _, rfl, rfl, open_, rfl, rfl⟩)
    · rw [if_neg here]
      exact .inl rfl
  | renewed principal name worker leaseSeconds now ends row found held until_ =>
    rw [find_put]
    by_cases here : ident = name
    · subst here
      rw [if_pos rfl, found]
      have open_ : row.status.terminal = false := by
        simp only [renewable, Bool.and_eq_true, decide_eq_true_eq] at held
        rw [held.1.2.2.1]
        rfl
      exact .inr (.inr ⟨row, _, rfl, rfl, open_, rfl, rfl⟩)
    · rw [if_neg here]
      exact .inl rfl
  | moved t now row found own checked ready =>
    rw [find_put]
    by_cases here : ident = t.ident
    · subst here
      rw [if_pos rfl, found]
      have open_ : row.status.terminal = false := by
        unfold checkMove at checked
        split at checked
        · cases checked
        next allowed =>
          cases status : row.status with
          | completed | failed | cancelled => simp [status, GoalStatus.transitions] at allowed
          | _ => rfl
      exact .inr (.inr ⟨row, _, rfl, rfl, open_, rfl, rfl⟩)
    · rw [if_neg here]
      exact .inl rfl
  | _ => exact .inl rfl

/-- New dependencies start at a new goal and lead to goals of its principal. -/
theorem change_dependencies {s : GoalStore} (change : Change s action answer t) :
    t.dependencies = s.dependencies ∨
    ∃ row : Goal, s.goals.find row.id = none ∧ t.goals.find row.id = some row ∧
      (∀ a b, DependsOn t a b → DependsOn s a b ∨ a = row.id ∧ b ≠ row.id ∧
        ∃ d, s.goals.find b = some d ∧ d.principal = row.principal) := by
  cases change with
  | created new now context fresh apart own =>
    refine .inr ⟨new.row context now, fresh, ?_, ?_⟩
    · rw [find_inserted, if_pos rfl]
    · intro a b edge
      rcases List.mem_append.mp edge with old | added
      · exact .inl old
      · obtain ⟨item, listed, same⟩ := List.mem_map.mp added
        cases same
        obtain ⟨d, there⟩ := own _ listed
        obtain ⟨found, principal⟩ := owned_some there
        refine .inr ⟨rfl, ?_, d, found, principal⟩
        intro self
        rw [self, fresh] at found
        cases found
  | _ => exact .inl rfl

theorem settled_change {t : System} (change : Change s.store action answer t.store) :
    Settled ⟨s, action, answer, t⟩ := by
  intro ident g found
  rcases change_rows change ident with same | ⟨absent, -⟩ | ⟨g', after, there, now, live, -⟩
  · exact ⟨g, same.trans found, fun _ => rfl⟩
  · rw [absent] at found
    cases found
  · rw [there] at found
    cases found
    refine ⟨after, now, ?_⟩
    intro terminal
    rw [live] at terminal
    cases terminal

theorem versioned_change {t : System} (change : Change s.store action answer t.store) :
    Versioned ⟨s, action, answer, t⟩ := by
  intro ident after found
  rcases change_rows change ident with same | ⟨absent, g, there, first, -⟩ | ⟨g, g', was, there, -, raised, -⟩
  · exact .inr ⟨after, same.symm.trans found, .inl rfl⟩
  · rw [there] at found
    cases found
    exact .inl ⟨absent, first⟩
  · rw [there] at found
    cases found
    exact .inr ⟨g, was, .inr raised⟩

theorem checkMove_ok {t : Transition} {now : Instant} {row : Goal}
    (checked : checkMove t now row = .ok ()) :
    t.status ∈ row.status.transitions ∧ (row.leaseOwner.isSome = true →
      t.worker = row.leaseOwner ∧ row.unleased now = false) := by
  unfold checkMove at checked
  split at checked
  · cases checked
  next allowed =>
    split at checked
    · cases checked
    · split at checked
      · cases checked
      next mine =>
        split at checked
        · cases checked
        next live =>
          refine ⟨not_not.mp allowed, ?_⟩
          intro leased
          refine ⟨?_, ?_⟩
          · by_contra other
            exact mine ⟨leased, other⟩
          · rw [Bool.eq_false_iff]
            exact fun expired => live ⟨leased, expired⟩

theorem fenced_change {t : System} (change : Change s.store action answer t.store) :
    Fenced ⟨s, action, answer, t⟩ := by
  intro foreign
  generalize before : s.store = store at change
  generalize t.store = store' at change
  simp only [before] at foreign ⊢
  cases change with
  | refused action e => exact ⟨⟨e, rfl⟩, rfl⟩
  | renewed principal ident worker leaseSeconds now ends row found held until_ =>
    obtain ⟨g, owner, there, leased, bad⟩ := foreign
    rw [found] at there
    cases there
    simp only [renewable, Bool.and_eq_true, decide_eq_true_eq] at held
    obtain ⟨⟨-, -, -, mine⟩, live⟩ := held
    rw [leased] at mine
    cases mine
    rcases bad with other | expired
    · exact absurd rfl other
    · cases ends' : row.leaseUntil with
      | none =>
        rw [ends'] at live
        cases live
      | some ends' =>
        rw [ends', Option.any_some, decide_eq_true_eq] at live
        rw [Goal.unleased, ends', Option.all_some, decide_eq_true_eq] at expired
        exact absurd live (Int.not_lt.mpr expired)
  | moved move now row found own checked ready =>
    obtain ⟨g, owner, there, leased, bad⟩ := foreign
    rw [found] at there
    cases there
    obtain ⟨-, lease⟩ := checkMove_ok checked
    obtain ⟨mine, live⟩ := lease (by rw [leased]; rfl)
    rcases bad with other | expired
    · exact absurd (mine.trans leased) other
    · rw [live] at expired
      cases expired
  | _ => cases foreign

structure Inv (s : System) : Prop where
  acyclic : Acyclic (DependsOn s.store)
  joined : ∀ a b, DependsOn s.store a b → ∃ g d, s.store.goals.find a = some g ∧
    s.store.goals.find b = some d ∧ g.principal = d.principal
  completed : ∀ ident g, s.store.goals.find ident = some g → g.status = .completed → Ready s.store ident
  leased : ∀ ident g, s.store.goals.find ident = some g → g.leaseOwner.isSome →
    g.status = .active ∧ Ready s.store ident
  /-- What a worker was told is what the row says, or it has expired. -/
  told : ∀ ident worker ends, s.told ident worker = some ends → ends ≤ s.clock ∨
    ∃ g, s.store.goals.find ident = some g ∧ g.leaseOwner = some worker ∧ g.leaseUntil = some ends

theorem lawful_of_inv (inv : Inv s) : Lawful s where
  acyclic := inv.acyclic
  joined := inv.joined
  completed := inv.completed
  leased := inv.leased
  exclusive := by
    rintro ident w w' ⟨ends, told, live⟩ ⟨ends', told', live'⟩
    rcases inv.told ident w ends told with done | ⟨g, found, owner, -⟩
    · exact absurd live (Int.not_lt.mpr done)
    · rcases inv.told ident w' ends' told' with done | ⟨g', found', owner', -⟩
      · exact absurd live' (Int.not_lt.mpr done)
      · rw [found] at found'
        cases found'
        rw [owner] at owner'
        cases owner'
        rfl

theorem ready_of_waiting {s : GoalStore}
    (joined : ∀ a b, DependsOn s a b → ∃ g d, s.goals.find a = some g ∧ s.goals.find b = some d ∧
      g.principal = d.principal) (idle : s.waiting ident = false) : Ready s ident := by
  intro item edge
  obtain ⟨-, d, -, found, -⟩ := joined ident item edge
  have none := List.any_eq_false.mp idle (ident, item) edge
  simpa [found] using none

section Changes

variable {s t : GoalStore} {action : Action} {answer : Except GoalExc Answer}

theorem completed_stays (change : Change s action answer t) (found : s.goals.find ident = some g)
    (done : g.status = .completed) : t.goals.find ident = some g := by
  rcases change_rows change ident with same | ⟨absent, -⟩ | ⟨g', after, there, -, live, -⟩
  · rw [same, found]
  · rw [absent] at found
    cases found
  · rw [there] at found
    cases found
    rw [done] at live
    cases live

theorem dependsOn_old (change : Change s action answer t) {item : String}
    (found : s.goals.find ident = some g) (edge : DependsOn t ident item) :
    DependsOn s ident item := by
  rcases change_dependencies change with same | ⟨row, absent, -, edges⟩
  · rw [DependsOn, same] at edge
    exact edge
  · rcases edges ident item edge with old | ⟨here, -⟩
    · exact old
    · rw [here, absent] at found
      cases found

theorem ready_stays (change : Change s action answer t) (found : s.goals.find ident = some g)
    (ready : Ready s ident) : Ready t ident := by
  intro item edge
  obtain ⟨dep, there, done⟩ := ready item (dependsOn_old change found edge)
  exact ⟨dep, completed_stays change there done, done⟩

theorem acyclic_change (change : Change s action answer t) (acyclic : Acyclic (DependsOn s))
    (joined : ∀ a b, DependsOn s a b → ∃ g d, s.goals.find a = some g ∧ s.goals.find b = some d ∧
      g.principal = d.principal) : Acyclic (DependsOn t) := by
  rcases change_dependencies change with same | ⟨row, absent, -, edges⟩
  · unfold DependsOn at acyclic ⊢
    rw [same]
    exact acyclic
  · apply acyclic.extend
    intro a b edge
    rcases edges a b edge with old | ⟨here, apart, -⟩
    · obtain ⟨-, d, -, found, -⟩ := joined a b old
      refine ⟨?_, .inr old⟩
      rintro rfl
      rw [absent] at found
      cases found
    · exact ⟨apart, .inl here⟩

theorem joined_change (change : Change s action answer t)
    (joined : ∀ a b, DependsOn s a b → ∃ g d, s.goals.find a = some g ∧ s.goals.find b = some d ∧
      g.principal = d.principal) {a b : String} (edge : DependsOn t a b) :
    ∃ g d, t.goals.find a = some g ∧ t.goals.find b = some d ∧ g.principal = d.principal := by
  have kept : ∀ {ident : String} {g : Goal}, s.goals.find ident = some g →
      ∃ after, t.goals.find ident = some after ∧ after.principal = g.principal := by
    intro ident g found
    rcases change_rows change ident with same | ⟨absent, -⟩ | ⟨g', after, there, now, -, -, owner⟩
    · exact ⟨g, same.trans found, rfl⟩
    · rw [absent] at found
      cases found
    · rw [there] at found
      cases found
      exact ⟨after, now, owner⟩
  have old : DependsOn s a b → ∃ g d, t.goals.find a = some g ∧ t.goals.find b = some d ∧
      g.principal = d.principal := by
    intro edge
    obtain ⟨g, d, from_, to_, same⟩ := joined a b edge
    obtain ⟨g', found, owner⟩ := kept from_
    obtain ⟨d', found', owner'⟩ := kept to_
    exact ⟨g', d', found, found', by rw [owner, owner', same]⟩
  rcases change_dependencies change with same | ⟨row, -, inserted, edges⟩
  · apply old
    rw [DependsOn, same] at edge
    exact edge
  · rcases edges a b edge with before | ⟨rfl, -, d, to_, owner⟩
    · exact old before
    · obtain ⟨d', found', owner'⟩ := kept to_
      exact ⟨row, d', inserted, found', by rw [owner', owner]⟩

end Changes

/-- Completed and leased goals have their dependencies completed, after any change. -/
theorem rows_change (inv : Inv s) (change : Change s.store action answer t) (ident : String)
    (g : Goal) (found : t.goals.find ident = some g) :
    (g.status = .completed → Ready t ident) ∧
      (g.leaseOwner.isSome → g.status = .active ∧ Ready t ident) := by
  have old : s.store.goals.find ident = some g → (g.status = .completed → Ready t ident) ∧
      (g.leaseOwner.isSome → g.status = .active ∧ Ready t ident) := by
    intro was
    refine ⟨fun done => ready_stays change was (inv.completed ident g was done), ?_⟩
    intro held
    obtain ⟨active, ready⟩ := inv.leased ident g was held
    exact ⟨active, ready_stays change was ready⟩
  have whole := change
  cases change with
  | created new now context fresh apart own =>
    rw [find_inserted] at found
    by_cases here : (new.row context now).id = ident
    · rw [if_pos here] at found
      cases found
      constructor
      · intro done
        cases done
      · intro held
        cases held
    · rw [if_neg here] at found
      exact old found
  | claimed principal worker leaseSeconds now ends row was free until_ =>
    rw [find_put] at found
    by_cases here : ident = row.id
    · subst here
      rw [if_pos rfl, was] at found
      cases found
      have idle : s.store.waiting row.id = false := by
        simp only [claimable, Bool.and_eq_true, Bool.not_eq_true'] at free
        exact free.2
      have ready := ready_stays whole was (ready_of_waiting inv.joined idle)
      exact ⟨fun _ => ready, fun _ => ⟨rfl, ready⟩⟩
    · rw [if_neg here] at found
      exact old found
  | renewed principal name worker leaseSeconds now ends row was held until_ =>
    rw [find_put] at found
    by_cases here : ident = name
    · subst here
      rw [if_pos rfl, was] at found
      cases found
      simp only [renewable, Bool.and_eq_true, decide_eq_true_eq] at held
      obtain ⟨⟨-, -, active, mine⟩, -⟩ := held
      obtain ⟨-, waits⟩ := inv.leased ident row was (by rw [mine]; rfl)
      have ready := ready_stays whole was waits
      exact ⟨fun _ => ready, fun _ => ⟨active, ready⟩⟩
    · rw [if_neg here] at found
      exact old found
  | moved move now row was own checked ready =>
    rw [find_put] at found
    by_cases here : ident = move.ident
    · subst here
      rw [if_pos rfl, was] at found
      cases found
      obtain ⟨allowed, -⟩ := checkMove_ok checked
      constructor
      · intro done
        exact ready_stays whole was (ready_of_waiting inv.joined (ready done))
      · intro held
        cases clears : move.status.clears with
        | true =>
          simp [Goal.moved, clears] at held
        | false =>
          -- only a move to active keeps a lease, and a leased goal is active already
          have active : move.status = .active := by
            cases status : move.status <;> simp [status, GoalStatus.clears, GoalStatus.terminal] at clears
            rfl
          have kept : row.leaseOwner.isSome = true := by simpa [Goal.moved, clears] using held
          obtain ⟨already, -⟩ := inv.leased move.ident row was kept
          rw [active, already] at allowed
          simp [GoalStatus.transitions] at allowed
    · rw [if_neg here] at found
      exact old found
  | _ => exact old found

theorem leaseEnd_ok {now ends : Instant} {leaseSeconds : Int}
    (until_ : leaseEnd now leaseSeconds = .ok ends) : now + seconds leaseSeconds = ends := by
  unfold leaseEnd at until_
  split at until_
  · cases until_
    rfl
  · cases until_

/-- What the row says of a worker's lease. -/
def Backed (t : GoalStore) (ident worker : String) (ends : Instant) : Prop :=
  ∃ g, t.goals.find ident = some g ∧ g.leaseOwner = some worker ∧ g.leaseUntil = some ends

theorem told_change (inv : Inv s) (change : Change s.store action answer t)
    (forward : ∀ now, Action.now action = some now → s.clock ≤ now) (ident worker : String)
    (ends : Instant) (told : tell s.told action answer ident worker = some ends) :
    ends ≤ (Action.now action).getD s.clock ∨ Backed t ident worker ends := by
  have later : s.clock ≤ (Action.now action).getD s.clock := by
    cases reading : Action.now action with
    | none => exact Int.le_refl _
    | some now => exact forward now reading
  have old : s.told ident worker = some ends → t.goals.find ident = s.store.goals.find ident →
      ends ≤ (Action.now action).getD s.clock ∨ Backed t ident worker ends := by
    intro before same
    rcases inv.told ident worker ends before with done | ⟨g, found, owner, until_⟩
    · exact .inl (Int.le_trans done later)
    · exact .inr ⟨g, same.trans found, owner, until_⟩
  cases change with
  | created new now context fresh apart own =>
    rcases inv.told ident worker ends told with done | ⟨g, found, owner, until_⟩
    · exact .inl (Int.le_trans done later)
    · refine .inr ⟨g, ?_, owner, until_⟩
      rw [find_inserted, if_neg, found]
      intro here
      rw [here, found] at fresh
      cases fresh
  | claimed principal claimer leaseSeconds now lease row was free until_ =>
    by_cases here : ident = row.id
    · subst here
      simp only [tell, update_self] at told
      by_cases mine : worker = claimer
      · subst mine
        rw [update_self, leaseEnd_ok until_] at told
        cases told
        refine .inr ⟨row.claimed worker ends now, ?_, rfl, rfl⟩
        rw [find_put, if_pos rfl, was]
        rfl
      · rw [update_of_ne mine] at told
        rcases inv.told row.id worker ends told with done | ⟨g, found, owner, ends_⟩
        · exact .inl (Int.le_trans done later)
        · rw [was] at found
          cases found
          simp only [claimable, Bool.and_eq_true] at free
          have expired := free.1.2
          rw [Goal.unleased, ends_, Option.all_some, decide_eq_true_eq] at expired
          exact .inl expired
    · simp only [tell, update_of_ne here] at told
      apply old told
      rw [find_put, if_neg here]
  | renewed principal name renewer leaseSeconds now lease row was held until_ =>
    by_cases here : ident = name
    · subst here
      simp only [tell, update_self] at told
      simp only [renewable, Bool.and_eq_true, decide_eq_true_eq] at held
      obtain ⟨⟨-, -, -, mine⟩, -⟩ := held
      by_cases same : worker = renewer
      · subst same
        rw [update_self, leaseEnd_ok until_] at told
        cases told
        refine .inr ⟨row.renewed ends now, ?_, mine, rfl⟩
        rw [find_put, if_pos rfl, was]
        rfl
      · rw [update_of_ne same] at told
        rcases inv.told ident worker ends told with done | ⟨g, found, owner, -⟩
        · exact .inl (Int.le_trans done later)
        · rw [was] at found
          cases found
          rw [mine] at owner
          cases owner
          exact absurd rfl same
    · simp only [tell, update_of_ne here] at told
      apply old told
      rw [find_put, if_neg here]
  | moved move now row was own checked ready =>
    by_cases here : ident = move.ident
    · subst here
      cases clears : move.status.clears with
      | true =>
        simp only [tell, clears, if_true, update_self] at told
        split at told
        · cases told
        next other =>
          rcases inv.told move.ident worker ends told with done | ⟨g, found, owner, -⟩
          · exact .inl (Int.le_trans done later)
          · rw [was] at found
            cases found
            obtain ⟨-, lease⟩ := checkMove_ok checked
            obtain ⟨mine, -⟩ := lease (by rw [owner]; rfl)
            exact absurd (mine.trans owner) other
      | false =>
        simp only [tell, clears] at told
        rcases inv.told move.ident worker ends told with done | ⟨g, found, owner, until_⟩
        · exact .inl (Int.le_trans done later)
        · rw [was] at found
          cases found
          refine .inr ⟨row.moved move now, ?_, ?_, ?_⟩
          · rw [find_put, if_pos rfl, was]
            rfl
          · simp [Goal.moved, clears, owner]
          · simp [Goal.moved, clears, until_]
    · have before : s.told ident worker = some ends := by
        simp only [tell] at told
        split at told
        · rw [update_of_ne here] at told
          exact told
        · exact told
      apply old before
      rw [find_put, if_neg here]
  | refused action e =>
    apply old _ rfl
    cases action <;> exact told
  | _ => exact old told rfl

theorem inv_step (inv : Inv s) (action : Action)
    (forward : ∀ now, Action.now action = some now → s.clock ≤ now) : Inv (step s action).2 where
  acyclic := acyclic_change (step_change action s.store) inv.acyclic inv.joined
  joined _ _ edge := joined_change (step_change action s.store) inv.joined edge
  completed ident g found := (rows_change inv (step_change action s.store) ident g found).1
  leased ident g found := (rows_change inv (step_change action s.store) ident g found).2
  told ident worker ends told :=
    told_change inv (step_change action s.store) forward ident worker ends told

theorem inv_start (clock : Instant) : Inv (start clock) where
  acyclic := by
    intro a loop
    obtain ⟨b, edge, -⟩ := Relation.TransGen.head'_iff.mp loop
    cases edge
  joined _a _b edge := by cases edge
  completed _ _ found := by cases found
  leased _ _ found := by cases found
  told _ _ _ told := by cases told

/-- Every run of creates, claims, renewals and transitions by any principals and workers. -/
theorem goals_lawful (clock : Instant) (actions : List Action)
    (forward : ∀ e ∈ history step (start clock) actions, Forward e) :
    Lawful (final step (start clock) actions) ∧
    ∀ e ∈ history step (start clock) actions,
      Lawful e.after ∧ Settled e ∧ Versioned e ∧ Fenced e := by
  obtain ⟨events, last⟩ := invariant_of_meets Forward (fun s action inv ahead => inv_step inv action ahead)
    (inv_start clock) forward
  refine ⟨lawful_of_inv last, ?_⟩
  intro e member
  refine ⟨lawful_of_inv (events e member).2, ?_⟩
  have stepped := step_of_mem member
  have change := step_change e.action e.before.store
  have answer : (call e.action e.before.store).1 = e.answer := congrArg Prod.fst stepped
  have store : (call e.action e.before.store).2 = e.after.store :=
    congrArg (fun r => r.2.store) stepped
  rw [answer, store] at change
  exact ⟨settled_change change, versioned_change change, fenced_change change⟩

/-- A goal waits for another; the worker of the first is overtaken once its lease has expired. -/
def twoGoals : List Action :=
  [.create ⟨"ana", "buy paint", 0, none, [], [], "paint", by decide⟩ 0,
    .create ⟨"ana", "paint the wall", 0, none, ["paint"], [], "wall", by decide⟩ 1,
    .claim "ana" "w1" 60 2, .claim "ana" "w2" 60 100000000,
    .transition ⟨"ana", "paint", .completed, some "w1", none, none, none⟩ 100000001,
    .transition ⟨"ana", "paint", .completed, some "w2", none, none, none⟩ 100000002,
    .claim "ana" "w1" 60 100000003]

theorem two_goals_lawful :
    (∀ e ∈ history step (start 0) twoGoals, Forward e) ∧
    (Lawful (final step (start 0) twoGoals) ∧ ∀ e ∈ history step (start 0) twoGoals,
      Lawful e.after ∧ Settled e ∧ Versioned e ∧ Fenced e) := by
  have forward : ∀ e ∈ history step (start 0) twoGoals, Forward e := by decide +kernel
  exact ⟨forward, goals_lawful 0 twoGoals forward⟩

end Meemee.Guarantees.GoalGraph
