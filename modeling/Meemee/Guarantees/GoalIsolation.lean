import Meemee.Guarantees.GoalGraph
import Meemee.Library.Unwinding

/-!
# Goals of one principal and calls of the others

The store seen by a principal is the store without the goals of others. All that a call reads is
in it but for one thing: ids share one key space, so a create can meet another principal's id.
-/
namespace Meemee.Guarantees.GoalIsolation
open Library Library.History Library.Unwinding Source Source.Goals Library.Txn List
open Guarantees.GoalMoves
open Guarantees.GoalGraph (DependsOn change_rows joined_change)

def caller : Action → String
  | .create new _ => new.principal
  | .claim principal _ _ _ | .renew principal _ _ _ _ | .get principal _ | .list principal _ =>
    principal
  | .transition t _ => t.principal

def isBy (principal : String) (action : Action) : Bool := decide (caller action = principal)

/-- The goal is stored and not the principal's. -/
def foreign (principal : String) (g : Goal) : Bool := decide (g.principal ≠ principal)

/-- The store without the goals of others. -/
def alone (principal : String) (s : GoalStore) : GoalStore where
  goals := s.goals.delete (foreign principal)
  dependencies := s.dependencies.filter (fun edge => (s.owned? principal edge.1).isSome)

/-- The checks of a `create` before its INSERT. -/
def accepted (s : GoalStore) (new : NewGoal) : Bool :=
  (checkNew new).isOk && (parents new ++ fromKeys new.dependsOn).all
    (fun ident => (s.owned? new.principal ident).isSome) && (boundContext new).isOk

/-- A create of the principal comes to its INSERT and the id is another principal's. -/
def collides (principal : String) (s : GoalStore) : Action → Bool
  | .create new _ => decide (new.principal = principal) && accepted s new &&
      (s.goals.find new.ident).any (foreign principal)
  | _ => false

/-- The store as the joins of a query need it. -/
def Joined (s : GoalStore) : Prop :=
  ∀ a b, DependsOn s a b → ∃ g d, s.goals.find a = some g ∧ s.goals.find b = some d ∧
    g.principal = d.principal

variable {p : Goal → Bool} {ident principal : String} {g row : Goal} {f : Goal → Goal}
  {action : Action} {s : GoalStore}

section Reads

variable {principal : String} {s : GoalStore}

theorem find_alone (ident : String) :
    (alone principal s).goals.find ident = s.owned? principal ident := by
  rw [alone, Table.find_delete]
  congr 1
  simp [foreign]

theorem owned_alone (ident : String) :
    (alone principal s).owned? principal ident = s.owned? principal ident := by
  unfold GoalStore.owned?
  rw [find_alone, GoalStore.owned?]
  simp

theorem select_alone (own : ∀ g, p g = true → g.principal = principal) :
    (alone principal s).goals.select p = s.goals.select p := by
  unfold alone Table.delete Table.select
  rw [filter_filter]
  apply filter_congr
  intro g _
  cases met : p g with
  | false => rfl
  | true => simp [foreign, own g met]

theorem edges_alone (own : s.owned? principal ident = some g) :
    (alone principal s).dependencies.filter (fun edge => decide (edge.1 = ident)) =
      s.dependencies.filter (fun edge => decide (edge.1 = ident)) := by
  unfold alone
  rw [filter_filter]
  apply filter_congr
  intro edge _
  by_cases here : edge.1 = ident
  · simp [here, own]
  · simp [here]

theorem waiting_alone (joined : Joined s) (own : s.owned? principal ident = some g) :
    (alone principal s).waiting ident = s.waiting ident := by
  have by_edges : ∀ store : GoalStore, store.waiting ident =
      (store.dependencies.filter (fun edge => decide (edge.1 = ident))).any
        (fun edge => (store.goals.find edge.2).any (fun dep => decide (dep.status ≠ .completed))) := by
    intro store
    rw [GoalStore.waiting, any_filter]
  rw [by_edges, by_edges, edges_alone own]
  have stored := owned_some own
  rw [Bool.eq_iff_iff, any_eq_true, any_eq_true]
  have same : ∀ edge ∈ s.dependencies.filter (fun edge => decide (edge.1 = ident)),
      (alone principal s).goals.find edge.2 = s.goals.find edge.2 := by
    intro edge mem
    obtain ⟨there, about⟩ := mem_filter.mp mem
    obtain ⟨g', d, found, found', equal⟩ := joined edge.1 edge.2 there
    rw [of_decide_eq_true about, stored.1] at found
    cases found
    rw [find_alone, GoalStore.owned?, found', ← stored.2, equal]
    simp
  constructor
  · rintro ⟨edge, mem, waits⟩
    rw [same edge mem] at waits
    exact ⟨edge, mem, waits⟩
  · rintro ⟨edge, mem, waits⟩
    rw [← same edge mem] at waits
    exact ⟨edge, mem, waits⟩

end Reads

variable {keeps : ∀ g, (f g).id = g.id} {dependencies : List String}

section Own

variable {principal : String} {s : GoalStore}

theorem owned_updated (owner : ∀ g, (f g).principal = g.principal) (ident : String) :
    ((s.updated p f keeps).owned? principal ident).isSome = (s.owned? principal ident).isSome := by
  unfold GoalStore.owned? GoalStore.updated
  simp only [Table.find_update]
  cases s.goals.find ident with
  | none => rfl
  | some g =>
    by_cases met : p g = true
    · by_cases own : g.principal = principal <;> simp [met, owner, own]
    · simp [met]

theorem alone_updated (owner : ∀ g, (f g).principal = g.principal) :
    (alone principal s).updated p f keeps = alone principal (s.updated p f keeps) := by
  have goals : (s.goals.delete (foreign principal)).update p f keeps =
      (s.goals.update p f keeps).delete (foreign principal) := by
    apply Table.ext_rows
    simp only [Table.delete, Table.update, filter_map]
    congr 1
    apply filter_congr
    intro g _
    by_cases met : p g = true <;> simp [foreign, met, owner]
  have dependencies : s.dependencies.filter (fun edge => (s.owned? principal edge.1).isSome) =
      s.dependencies.filter
        (fun edge => ((s.updated p f keeps).owned? principal edge.1).isSome) := by
    apply filter_congr
    intro edge _
    rw [owned_updated owner]
  unfold alone
  simp only [GoalStore.updated] at dependencies ⊢
  rw [goals, dependencies]

theorem commutes_owned (ident : String) :
    Txn.Commutes (alone principal) (owned principal ident) s := by
  apply commutes_bind (commutes_read (owned_alone ident))
  intro row t _
  cases row with
  | none => exact commutes_raise _
  | some g => exact commutes_pure g

theorem commutes_requireOwned (idents : List String) :
    Txn.Commutes (alone principal) (requireOwned principal idents) s := by
  induction idents generalizing s with
  | nil => exact commutes_pure ()
  | cons ident rest ih => exact commutes_bind (commutes_owned ident) (fun _ _ _ => ih)

theorem alone_inserted (joined : Joined s) (own : row.principal = principal)
    (fresh : s.goals.find row.id = none) (fresh' : (alone principal s).goals.find row.id = none) :
    (alone principal s).inserted row dependencies fresh' =
      alone principal (s.inserted row dependencies fresh) := by
  have goals : (s.goals.delete (foreign principal)).insert row fresh' =
      (s.goals.insert row fresh).delete (foreign principal) := by
    simp [Table.delete, Table.insert, foreign, own]
  have there : (s.inserted row dependencies fresh).owned? principal row.id = some row := by
    rw [GoalStore.owned?, GoalGraph.find_inserted]
    simp [own]
  have old : ∀ edge ∈ s.dependencies, ((s.inserted row dependencies fresh).owned? principal edge.1) =
      s.owned? principal edge.1 := by
    intro edge mem
    obtain ⟨g, -, found, -⟩ := joined edge.1 edge.2 mem
    rw [GoalStore.owned?, GoalStore.owned?, GoalGraph.find_inserted, if_neg]
    intro here
    rw [here, found] at fresh
    cases fresh
  have edges : s.dependencies.filter (fun edge => (s.owned? principal edge.1).isSome) ++
      dependencies.map (fun item => (row.id, item)) =
      (s.dependencies ++ dependencies.map (fun item => (row.id, item))).filter
        (fun edge => ((s.inserted row dependencies fresh).owned? principal edge.1).isSome) := by
    rw [filter_append]
    congr 1
    · apply filter_congr
      intro edge mem
      rw [old edge mem]
    · symm
      rw [filter_eq_self]
      intro edge mem
      obtain ⟨item, -, rfl⟩ := mem_map.mp mem
      rw [there]
      rfl
  simp only [GoalStore.inserted] at edges ⊢
  congr 1

theorem commutes_insertGoal (joined : Joined s) (dependencies : List String)
    (own : row.principal = principal) (mine : (s.goals.find row.id).any (foreign principal) = false) :
    Txn.Commutes (alone principal) (insertGoal row dependencies) s := by
  unfold Txn.Commutes insertGoal
  by_cases found : s.goals.find row.id = none
  · have gone : (alone principal s).goals.find row.id = none := by
      rw [find_alone, GoalStore.owned?, found]
      rfl
    rw [dif_pos gone]
    split
    · rfl
    · rw [alone_inserted joined own found gone]
  · obtain ⟨g, there⟩ := Option.ne_none_iff_exists'.mp found
    have same : g.principal = principal := by
      rw [there] at mine
      simpa [foreign] using mine
    have kept : (alone principal s).goals.find row.id ≠ none := by
      rw [find_alone, GoalStore.owned?, there]
      simp [same]
    rw [dif_neg kept, dif_neg found]

theorem commutes_create (joined : Joined s) {new : NewGoal} (own : new.principal = principal)
    (apart : collides principal s (.create new 0) = false) (now : Instant) :
    Txn.Commutes (alone principal) (create new now) s := by
  subst own
  apply commutes_bind (commutes_ofExcept _)
  intro _ s₀ checked
  cases checkedOk : checkNew new with
  | error e =>
    rw [checkedOk] at checked
    cases checked
  | ok _ =>
    rw [checkedOk] at checked
    cases checked
    apply commutes_atomically
    apply commutes_bind (commutes_requireOwned _)
    intro _ s₁ parents_
    obtain ⟨rfl, ownParents⟩ := requireOwned_run parents_
    apply commutes_bind (commutes_requireOwned _)
    intro _ s₂ dependencies
    obtain ⟨rfl, ownDependencies⟩ := requireOwned_run dependencies
    apply commutes_bind (commutes_ofExcept _)
    intro context s₃ bound
    cases boundOk : boundContext new with
    | error e =>
      rw [boundOk] at bound
      cases bound
    | ok text =>
      rw [boundOk] at bound
      cases bound
      apply commutes_insertGoal joined _ rfl
      have all : (parents new ++ fromKeys new.dependsOn).all
          (fun ident => (s₂.owned? new.principal ident).isSome) = true := by
        rw [all_eq_true]
        intro ident mem
        rcases mem_append.mp mem with parent | dependency
        · obtain ⟨g, there⟩ := ownParents ident parent
          rw [there]
          rfl
        · obtain ⟨g, there⟩ := ownDependencies ident dependency
          rw [there]
          rfl
      have free : (s₂.goals.find new.ident).any (foreign new.principal) = false := by
        simpa [collides, accepted, checkedOk, boundOk, all, Except.toBool] using apart
      exact free

theorem unleased_claimable {now : Instant} (open_ : claimable s principal now g = true) :
    g.principal = principal := by
  simp only [claimable, Bool.and_eq_true, decide_eq_true_eq] at open_
  exact open_.1.1.1

theorem first_alone (joined : Joined s) (now : Instant) :
    (alone principal s).goals.first (claimable (alone principal s) principal now) listedBefore =
      s.goals.first (claimable s principal now) listedBefore := by
  unfold Table.first
  rw [select_alone (fun g open_ => unleased_claimable open_)]
  congr 1
  apply filter_congr
  intro g mem
  by_cases own : g.principal = principal
  · have there : s.owned? principal g.id = some g := by
      rw [GoalStore.owned?, Table.find_of_mem mem]
      simp [own]
    simp only [claimable, waiting_alone joined there]
  · simp [claimable, own]

theorem commutes_claim (joined : Joined s) (worker : String) (leaseSeconds : Int) (now : Instant) :
    Txn.Commutes (alone principal) (claim principal worker leaseSeconds now) s := by
  apply commutes_bind (commutes_require _ _)
  intro _ s₀ required
  have same : s₀ = s := by
    unfold Txn.require at required
    split at required
    · cases required
      rfl
    · cases required
  subst same
  apply commutes_atomically
  apply commutes_bind (commutes_ofExcept _)
  intro ends s₁ ended
  have same : s₁ = s₀ := (Prod.mk.inj ended).2.symm
  subst same
  apply commutes_bind (commutes_read (first_alone joined now))
  intro row s₂ _
  cases row with
  | none => exact commutes_pure none
  | some row =>
    have owner : ∀ g : Goal, (g.claimed worker ends now).principal = g.principal :=
      fun g => g.claimed_principal worker ends now
    exact commutes_bind (commutes_write (alone_updated owner))
      (fun _ _ _ => commutes_pure (some row.id))

theorem commutes_renew (ident worker : String) (leaseSeconds : Int) (now : Instant) :
    Txn.Commutes (alone principal) (renew principal ident worker leaseSeconds now) s := by
  have own : ∀ g, renewable principal ident worker now g = true → g.principal = principal := by
    intro g held
    simp only [renewable, Bool.and_eq_true, decide_eq_true_eq] at held
    exact held.1.1
  apply commutes_bind (commutes_require _ _)
  intro _ s₀ _
  apply commutes_bind (commutes_ofExcept _)
  intro ends s₁ _
  have same : (alone principal s₁).goals.select (renewable principal ident worker now) =
      s₁.goals.select (renewable principal ident worker now) := select_alone own
  apply commutes_bind (@commutes_read _ _ _ (alone principal) s₁
    (fun s => s.goals.select (renewable principal ident worker now)) same)
  intro matched s₂ _
  have owner : ∀ g : Goal, (g.renewed ends now).principal = g.principal :=
    fun g => g.renewed_principal ends now
  exact commutes_bind (commutes_write (alone_updated owner))
    (fun _ _ _ => commutes_require _ _)

theorem commutes_transition (joined : Joined s) (t : Transition) (now : Instant) :
    Txn.Commutes (alone t.principal) (transition t now) s := by
  apply commutes_atomically
  apply commutes_bind (commutes_owned t.ident)
  intro row s₀ read
  obtain ⟨own, rfl⟩ := owned_run read
  apply commutes_bind (commutes_ofExcept _)
  intro _ s₁ checked
  have same : s₁ = s₀ := (Prod.mk.inj checked).2.symm
  subst same
  have waits : (decide (t.status = .completed) && (alone t.principal s₁).waiting t.ident) =
      (decide (t.status = .completed) && s₁.waiting t.ident) := by
    rw [waiting_alone joined own]
  apply commutes_bind (commutes_read waits)
  intro waiting s₂ _
  apply commutes_bind (commutes_require _ _)
  intro _ s₃ _
  have owner : ∀ g : Goal, (g.moved t now).principal = g.principal :=
    fun g => g.moved_principal t now
  exact commutes_write (alone_updated owner)

theorem commutes_get (ident : String) :
    Txn.Commutes (alone principal) (Goals.get principal ident) s := by
  apply commutes_bind (commutes_owned ident)
  intro row s₀ read
  obtain ⟨own, rfl⟩ := owned_run read
  have same := congrArg (List.map (fun edge : String × String => edge.2)) (edges_alone own)
  apply commutes_bind (commutes_read same)
  exact fun _ _ _ => commutes_pure _

theorem commutes_list (status : Option GoalStatus) :
    Txn.Commutes (alone principal) (listIds principal status) s := by
  apply commutes_read
  rw [select_alone]
  intro g listed
  simp only [Bool.and_eq_true, decide_eq_true_eq] at listed
  exact listed.1

/-- A call of the principal answers and acts by its own goals, unless it collides. -/
theorem call_alone (joined : Joined s) (own : caller action = principal)
    (apart : collides principal s action = false) :
    call action (alone principal s) = ((call action s).1, alone principal (call action s).2) := by
  subst own
  cases action with
  | create new now => exact commutes_answer (commutes_create joined rfl apart now)
  | claim principal worker leaseSeconds now =>
    exact commutes_answer (commutes_claim joined worker leaseSeconds now)
  | renew principal ident worker leaseSeconds now =>
    exact commutes_answer (commutes_renew ident worker leaseSeconds now)
  | transition t now => exact commutes_answer (commutes_transition joined t now)
  | get principal ident => exact commutes_answer (commutes_get ident)
  | list principal status => exact commutes_answer (commutes_list status)

end Own

theorem alone_put (owner : ∀ g, (f g).principal = g.principal)
    (found : s.goals.find ident = some row) (other : row.principal ≠ principal) :
    alone principal (put s ident f keeps) = alone principal s := by
  rw [put, ← alone_updated owner]
  have unmatched : ∀ g ∈ (alone principal s).goals, decide (g.id = ident) = false := by
    intro g mem
    obtain ⟨there, own⟩ := Table.mem_delete.mp mem
    apply decide_eq_false
    intro here
    rw [Table.eq_of_find found there here] at own
    simp [foreign, other] at own
  have same := @Table.update_none _ _ _ (alone principal s).goals
    (fun g => decide (g.id = ident)) f keeps unmatched
  rw [GoalStore.updated, same]

theorem alone_inserted_other (joined : Joined s) (other : row.principal ≠ principal)
    (fresh : s.goals.find row.id = none) :
    alone principal (s.inserted row dependencies fresh) = alone principal s := by
  have goals : (s.goals.insert row fresh).delete (foreign principal) =
      s.goals.delete (foreign principal) := by
    simp [Table.delete, Table.insert, foreign, other]
  have unowned : (s.inserted row dependencies fresh).owned? principal row.id = none := by
    rw [GoalStore.owned?, GoalGraph.find_inserted]
    simp [other]
  have edges : (s.dependencies ++ dependencies.map (fun item => (row.id, item))).filter
        (fun edge => ((s.inserted row dependencies fresh).owned? principal edge.1).isSome) =
      s.dependencies.filter (fun edge => (s.owned? principal edge.1).isSome) := by
    rw [filter_append]
    have none : (dependencies.map (fun item => (row.id, item))).filter
        (fun edge => ((s.inserted row dependencies fresh).owned? principal edge.1).isSome) = [] := by
      rw [filter_eq_nil_iff]
      intro edge mem
      obtain ⟨item, -, rfl⟩ := mem_map.mp mem
      rw [unowned]
      exact Bool.false_ne_true
    rw [none, append_nil]
    apply filter_congr
    intro edge mem
    obtain ⟨g, -, found, -⟩ := joined edge.1 edge.2 mem
    rw [GoalStore.owned?, GoalStore.owned?, GoalGraph.find_inserted, if_neg]
    intro here
    rw [here, found] at fresh
    cases fresh
  unfold alone
  simp only [GoalStore.inserted] at edges ⊢
  rw [edges, goals]

theorem other_unseen {t : GoalStore} (joined : Joined s) {answer : Except GoalExc Answer}
    (change : Change s action answer t) (other : caller action ≠ principal) :
    alone principal t = alone principal s := by
  cases change with
  | created new now context fresh apart own => exact alone_inserted_other joined other fresh
  | claimed caller worker leaseSeconds now ends row found free until_ =>
    have theirs := unleased_claimable free
    exact alone_put (fun g => g.claimed_principal worker ends now) found (theirs ▸ other)
  | renewed caller ident worker leaseSeconds now ends row found held until_ =>
    simp only [renewable, Bool.and_eq_true, decide_eq_true_eq] at held
    have theirs := held.1.1
    exact alone_put (fun g => g.renewed_principal ends now) found (theirs ▸ other)
  | moved t now row found own checked ready =>
    exact alone_put (fun g => g.moved_principal t now) found (own ▸ other)
  | _ => rfl

theorem requireOwned_ok {idents : List String}
    (own : ∀ ident ∈ idents, (s.owned? principal ident).isSome = true) :
    requireOwned principal idents s = (.ok (), s) := by
  induction idents with
  | nil => rfl
  | cons ident rest ih =>
    obtain ⟨g, there⟩ := Option.isSome_iff_exists.mp (own ident mem_cons_self)
    have first : owned principal ident s = (.ok g, s) := by
      rw [owned, run_bind_read, there]
      rfl
    rw [requireOwned, run_bind_ok first]
    exact ih (fun other mem => own other (mem_cons_of_mem _ mem))

theorem create_accepted {s : GoalStore} {new : NewGoal} (passes : accepted s new = true) :
    ∃ context, boundContext new = .ok context ∧ ∀ now,
      (create new now s).1 = (insertGoal (new.row context now) (fromKeys new.dependsOn) s).1 := by
  simp only [accepted, Bool.and_eq_true, all_append] at passes
  obtain ⟨⟨checked, parents_, dependencies⟩, bound⟩ := passes
  cases checkedOk : checkNew new with
  | error e =>
    rw [checkedOk] at checked
    cases checked
  | ok _ =>
    cases boundOk : boundContext new with
    | error e =>
      rw [boundOk] at bound
      cases bound
    | ok context =>
      refine ⟨context, rfl, ?_⟩
      intro now
      have body : (requireOwned new.principal (parents new) >>= fun _ => do
          requireOwned new.principal (fromKeys new.dependsOn)
          let context ← Txn.ofExcept (boundContext new)
          insertGoal (new.row context now) (fromKeys new.dependsOn)) s =
          insertGoal (new.row context now) (fromKeys new.dependsOn) s := by
        rw [run_bind_ok (requireOwned_ok (all_eq_true.mp parents_)),
          run_bind_ok (requireOwned_ok (all_eq_true.mp dependencies)), boundOk]
        rfl
      unfold create
      rw [checkedOk, run_bind_ok (run_ofExcept (.ok ()) s)]
      rcases inserted : insertGoal (new.row context now) (fromKeys new.dependsOn) s with ⟨result, t⟩
      rw [inserted] at body
      cases result with
      | ok _ => rw [atomically_of_ok body]
      | error e => rw [atomically_of_error body]

/-- The collision is told by the answer: among the principal's own goals the id is free. -/
theorem collision_told (collision : collides principal s action = true) :
    (call action s).1 ≠ (call action (alone principal s)).1 := by
  cases action with
  | create new now =>
    simp only [collides, Bool.and_eq_true, decide_eq_true_eq] at collision
    obtain ⟨⟨own, passes⟩, taken⟩ := collision
    subst own
    have passes' : accepted (alone new.principal s) new = true := by
      unfold accepted at passes ⊢
      simp only [owned_alone]
      exact passes
    obtain ⟨context, bound, run⟩ := create_accepted passes
    obtain ⟨context', bound', run'⟩ := create_accepted passes'
    rw [bound] at bound'
    cases bound'
    obtain ⟨g, found, other⟩ : ∃ g, s.goals.find new.ident = some g ∧
        foreign new.principal g = true := by
      cases found : s.goals.find new.ident with
      | none =>
        rw [found] at taken
        cases taken
      | some g =>
        rw [found] at taken
        exact ⟨g, rfl, taken⟩
    have full : s.goals.find (new.row context now).id ≠ none := by
      rw [show (new.row context now).id = new.ident from rfl, found]
      exact Option.some_ne_none g
    have free : (alone new.principal s).goals.find (new.row context now).id = none := by
      rw [find_alone, GoalStore.owned?, show (new.row context now).id = new.ident from rfl, found]
      have theirs : g.principal ≠ new.principal := of_decide_eq_true other
      simp [theirs]
    have refused : (create new now s).1 =
        .error (.raised (.integrityError "UNIQUE constraint failed: agency_goals.id")) := by
      rw [run now, insertGoal, dif_neg full]
    have passed : (create new now (alone new.principal s)).1 ≠
        .error (.raised (.integrityError "UNIQUE constraint failed: agency_goals.id")) := by
      rw [run' now, insertGoal, dif_pos free]
      split
      · intro same
        simp at same
      · intro same
        cases same
    intro same
    apply passed
    rcases first : create new now s with ⟨result, t⟩
    rcases second : create new now (alone new.principal s) with ⟨result', t'⟩
    rw [first] at refused
    subst refused
    have left : call (.create new now) s = (.error _, t) := answer_of_error first
    rw [left] at same
    cases result' with
    | ok _ =>
      have right : call (.create new now) (alone new.principal s) = (.ok _, t') :=
        answer_of_ok second
      rw [right] at same
      cases same
    | error e =>
      have right : call (.create new now) (alone new.principal s) = (.error e, t') :=
        answer_of_error second
      rw [right] at same
      exact congrArg Except.error (Except.error.inj same).symm
  | _ => cases collision

def step (s : GoalStore) (action : Action) : Except GoalExc Answer × GoalStore := call action s

def start : GoalStore := ⟨Table.empty, []⟩

theorem goals_unwind (principal : String) :
    Unwinds step (isBy principal) (alone principal) Joined
      (fun s action => collides principal s action = false) where
  keeps s action joined _ _ edge := joined_change (step_change action s) joined edge
  respects s action joined other :=
    other_unseen joined (step_change action s) (of_decide_eq_false other)
  consistent s t action joined joined' own same apart apart' := by
    have one := call_alone joined (of_decide_eq_true own) apart
    have two := call_alone joined' (of_decide_eq_true own) apart'
    rw [same, two] at one
    exact ⟨(Prod.mk.inj one).1.symm, (Prod.mk.inj one).2.symm⟩
  diverges s t action joined joined' own same collision apart := by
    have two := call_alone joined' (of_decide_eq_true own) apart
    have told := collision_told (Bool.eq_true_of_not_eq_false collision)
    rw [same, two] at told
    exact told

/-- Two runs with the same calls of a principal, in the second of which none of its creates meets
an id of another: it gets the same answers and owns the same rows in both exactly when none does
in the first. -/
theorem isolated_iff (principal : String) (first second : List Action)
    (own : first.filter (isBy principal) = second.filter (isBy principal))
    (apart : ∀ e ∈ history step start second, collides principal e.before e.action = false) :
    (answers (isBy principal) (history step start first) =
        answers (isBy principal) (history step start second) ∧
      alone principal (final step start first) = alone principal (final step start second)) ↔
    ∀ e ∈ history step start first, collides principal e.before e.action = false := by
  have joined : Joined start := by
    intro _a _b edge
    cases edge
  have inLine : InLine (isBy principal) (fun s action => collides principal s action = false)
      (history step start second) := fun e member _ => apart e member
  rw [same_iff_inLine (goals_unwind principal) joined joined rfl own inLine]
  constructor
  · intro line e member
    cases its : isBy principal e.action with
    | true => exact line e member its
    | false =>
      cases action : e.action with
      | create new now =>
        rw [action] at its
        have other : decide (new.principal = principal) = false := its
        simp only [collides, other, Bool.false_and]
      | _ => rfl
  · exact fun all e member _ => all e member

def paint (principal : String) : NewGoal := ⟨principal, "paint", 0, none, [], [], "g", by decide⟩

/-- Bob works beside Ana, before and after her calls. -/
def beside : List Action :=
  [.create ⟨"bob", "buy paint", 0, none, [], [], "b", by decide⟩ 0, .create (paint "ana") 1,
    .claim "bob" "w" 60 2, .claim "ana" "w" 60 2, .get "ana" "g", .renew "ana" "b" "w" 60 3]

def byHerself : List Action :=
  [.create (paint "ana") 1, .claim "ana" "w" 60 2, .get "ana" "g", .renew "ana" "b" "w" 60 3]

theorem beside_isolated :
    (beside.filter (isBy "ana") = byHerself.filter (isBy "ana") ∧
      ∀ e ∈ history step start byHerself, collides "ana" e.before e.action = false) ∧
    ((answers (isBy "ana") (history step start beside) =
        answers (isBy "ana") (history step start byHerself) ∧
      alone "ana" (final step start beside) = alone "ana" (final step start byHerself)) ↔
    ∀ e ∈ history step start beside, collides "ana" e.before e.action = false) := by
  have own : beside.filter (isBy "ana") = byHerself.filter (isBy "ana") := rfl
  have apart : ∀ e ∈ history step start byHerself, collides "ana" e.before e.action = false := by
    decide +kernel
  exact ⟨⟨own, apart⟩, isolated_iff "ana" beside byHerself own apart⟩

/-- Bob's goal has the id that Ana asks for. -/
theorem taken_id_told :
    [Action.create (paint "bob") 0, .create (paint "ana") 1].filter (isBy "ana") =
      [Action.create (paint "ana") 1].filter (isBy "ana") ∧
    answers (isBy "ana") (history step start [.create (paint "bob") 0, .create (paint "ana") 1]) =
      [.error (.raised (.integrityError "UNIQUE constraint failed: agency_goals.id"))] ∧
    answers (isBy "ana") (history step start [.create (paint "ana") 1]) = [.ok .done] := by
  refine ⟨rfl, rfl, rfl⟩

end Meemee.Guarantees.GoalIsolation
