import Mathlib.Data.List.Perm.Subperm
import Meemee.Library.Lineage
import Meemee.Source.Plans

/-!
# The graph that a plan accepts

The search of `valid_graph` keeps the nodes on its path apart from those it has left. What it has left
is closed under dependencies and has no cycle; a node met again on the path is one.
-/
namespace Meemee.Guarantees.PlanGraph
open Library List
open Source
open Source.Plans

variable {steps : List PlanStep}

/-- The first step depends on the second. -/
def DependsOn (steps : List PlanStep) (node dependency : String) : Prop :=
  ∃ step ∈ steps, step.id = node ∧ dependency ∈ step.dependsOn

/-- What a plan's steps have to be. -/
structure WellFormed (steps : List PlanStep) : Prop where
  unique : (steps.map (fun step => step.id)).Nodup
  known : ∀ step ∈ steps, ∀ dependency ∈ step.dependsOn, ∃ other ∈ steps, other.id = dependency
  acyclic : Acyclic (DependsOn steps)

variable {node : String} {visited visiting after ids : List String}

theorem mem_dependencies (unique : (steps.map (fun step => step.id)).Nodup) {dependency : String} :
    dependency ∈ dependencies steps node ↔ DependsOn steps node dependency := by
  unfold dependencies
  cases found : steps.find? (fun step => decide (step.id = node)) with
  | none =>
    refine iff_of_false (by simp) ?_
    rintro ⟨step, mem, named, _⟩
    exact absurd (decide_eq_true named) (List.find?_eq_none.mp found step mem)
  | some step =>
    have mem := mem_of_find?_eq_some found
    have named : step.id = node := by simpa using List.find?_some found
    constructor
    · exact fun listed => ⟨step, mem, named, listed⟩
    · rintro ⟨other, there, same, listed⟩
      have equal := inj_on_of_nodup_map unique there mem (same.trans named.symm)
      rw [← equal]
      exact listed

/-- Nodes that were left: all they depend on was left too, and none depends on itself. -/
structure Left (steps : List PlanStep) (visited : List String) : Prop where
  closed : ∀ a ∈ visited, ∀ b ∈ dependencies steps a, b ∈ visited
  acyclic : ∀ a ∈ visited, ¬ Relation.TransGen (fun a b => b ∈ dependencies steps a) a a

theorem left_nil : Left steps [] := ⟨by simp, by simp⟩

theorem Left.reaches (left : Left steps visited) {a b : String} (mem : a ∈ visited)
    (path : Relation.TransGen (fun a b => b ∈ dependencies steps a) a b) : b ∈ visited := by
  induction path with
  | single arrow => exact left.closed a mem _ arrow
  | tail _ arrow ih => exact left.closed _ ih _ arrow

/-- A node may be left once all it depends on was, if it was not among them. -/
theorem Left.cons {visited : List String} {node : String} (left : Left steps visited)
    (listed : ∀ b ∈ dependencies steps node, b ∈ visited) (fresh : node ∉ visited) :
    Left steps (node :: visited) where
  closed := by
    intro a mem b arrow
    obtain rfl | mem := mem_cons.mp mem
    · exact mem_cons_of_mem _ (listed b arrow)
    · exact mem_cons_of_mem _ (left.closed a mem b arrow)
  acyclic := by
    intro a mem loop
    obtain rfl | mem := mem_cons.mp mem
    · cases loop with
      | single arrow => exact fresh (listed _ arrow)
      | tail path arrow =>
        obtain ⟨b, first, rest⟩ := Relation.TransGen.head'_iff.mp (path.tail arrow)
        obtain rfl | further := Relation.reflTransGen_iff_eq_or_transGen.mp rest
        · exact fresh (listed _ first)
        · exact fresh (left.reaches (listed b first) further)
    · exact left.acyclic a mem loop

/-- What a visit leaves: all that was left before, its node, and nothing on its path. -/
structure Visited (steps : List PlanStep) (visiting visited after : List String) : Prop where
  left : Left steps after
  grown : ∀ a ∈ visited, a ∈ after
  apart : ∀ a ∈ visiting, a ∉ after

variable {next : List String → String → Except PlanExc (List String)} {nodes : List String}
  {depth : Nat} {step : PlanStep} {e : PlanExc} {checked : List PlanStep}

theorem visits_fold
    (visits : ∀ visited node after, Visited steps visiting visited visited → next visited node = .ok after →
      Visited steps visiting visited after ∧ node ∈ after)
    (start : Visited steps visiting visited visited)
    (returned : nodes.foldlM next visited = .ok after) :
    Visited steps visiting visited after ∧ ∀ node ∈ nodes, node ∈ after := by
  induction nodes generalizing visited with
  | nil =>
    cases returned
    exact ⟨start, by simp⟩
  | cons node nodes ih =>
    obtain ⟨between, first, rest⟩ := except_bind_returned returned
    obtain ⟨one, here⟩ := visits visited node between start first
    obtain ⟨others, there⟩ := ih ⟨one.left, fun _ mem => mem, one.apart⟩ rest
    refine ⟨⟨others.left, fun a mem => others.grown a (one.grown a mem), others.apart⟩, ?_⟩
    exact forall_mem_cons.mpr ⟨others.grown node here, there⟩

theorem visit_visited (start : Visited steps visiting visited visited)
    (returned : visit steps depth visiting visited node = .ok after) :
    Visited steps visiting visited after ∧ node ∈ after := by
  induction depth generalizing visiting visited node after with
  | zero => cases returned
  | succ depth ih =>
    rw [visit] at returned
    split at returned
    next => cases returned
    next offPath =>
      split at returned
      next seen =>
        cases returned
        exact ⟨start, seen⟩
      next fresh =>
        obtain ⟨between, children, done⟩ := except_bind_returned returned
        cases done
        have inside : Visited steps (node :: visiting) visited visited :=
          ⟨start.left, start.grown, forall_mem_cons.mpr ⟨fresh, start.apart⟩⟩
        obtain ⟨below, listed⟩ := visits_fold (fun _ _ _ => ih) inside children
        have onPath := forall_mem_cons.mp below.apart
        refine ⟨⟨below.left.cons listed onPath.1, ?_, ?_⟩, mem_cons_self⟩
        · exact fun a mem => mem_cons_of_mem node (below.grown a mem)
        · intro a mem again
          obtain rfl | again := mem_cons.mp again
          · exact offPath mem
          · exact onPath.2 a mem again

def cycleFound : PlanExc := .validationError "plan contains dependency cycle"

/-- A search returns, or there is a cycle and it says so. -/
def Answers (steps : List PlanStep) (result : Except PlanExc (List String)) : Prop :=
  (∃ after, result = .ok after) ∨
    result = .error cycleFound ∧
      ∃ a, Relation.TransGen (fun a b => b ∈ dependencies steps a) a a

theorem fold_answers (answers : ∀ node ∈ nodes, ∀ visited, Answers steps (next visited node))
    (visited : List String) : Answers steps (nodes.foldlM next visited) := by
  induction nodes generalizing visited with
  | nil => exact .inl ⟨visited, rfl⟩
  | cons node nodes ih =>
    rw [foldlM_cons]
    obtain ⟨after, returned⟩ | ⟨raised, loop⟩ := answers node mem_cons_self visited
    · rw [returned]
      exact ih (fun other mem => answers other (mem_cons_of_mem node mem)) after
    · rw [raised]
      exact .inr ⟨rfl, loop⟩

/-- A path of different steps that leads to a node. -/
structure Path (steps : List PlanStep) (visiting : List String) (node : String) : Prop where
  nodup : visiting.Nodup
  named : ∀ a ∈ visiting, a ∈ steps.map (fun step => step.id)
  leads : ∀ a ∈ visiting, Relation.TransGen (fun a b => b ∈ dependencies steps a) a node

theorem visit_answers
    (known : ∀ a b, b ∈ dependencies steps a → b ∈ steps.map (fun step => step.id))
    (visited : List String) (path : Path steps visiting node)
    (named : node ∈ steps.map (fun step => step.id)) (deep : steps.length < depth + visiting.length) :
    Answers steps (visit steps depth visiting visited node) := by
  induction depth generalizing visiting visited node with
  | zero =>
    have short := (subperm_of_subset path.nodup path.named).length_le
    rw [length_map] at short
    omega
  | succ depth ih =>
    rw [visit]
    split
    next onPath => exact .inr ⟨rfl, node, path.leads node onPath⟩
    next offPath =>
      split
      next => exact .inl ⟨visited, rfl⟩
      next =>
        have below : Answers steps ((dependencies steps node).foldlM
            (fun seen dependency => visit steps depth (node :: visiting) seen dependency) visited) := by
          refine fold_answers (fun dependency arrow seen => ?_) visited
          refine ih seen ⟨nodup_cons.mpr ⟨offPath, path.nodup⟩, ?_, ?_⟩ (known _ _ arrow)
            (by rw [length_cons]; omega)
          · exact forall_mem_cons.mpr ⟨named, path.named⟩
          · exact forall_mem_cons.mpr ⟨.single arrow, fun a mem => (path.leads a mem).tail arrow⟩
        obtain ⟨after, returned⟩ | ⟨raised, loop⟩ := below
        · rw [returned]
          exact .inl ⟨_, rfl⟩
        · rw [raised]
          exact .inr ⟨rfl, loop⟩

theorem checkStep_ok :
    checkStep ids step = .ok () ↔ (∀ dependency ∈ step.dependsOn, dependency ∈ ids) ∧
      step.id ∉ step.dependsOn := by
  unfold checkStep
  split
  next unknown =>
    refine iff_of_false nofun (fun both => ?_)
    obtain ⟨dependency, mem, absent⟩ := any_eq_true.mp unknown
    exact of_decide_eq_true absent (both.1 dependency mem)
  next known =>
    have all : ∀ dependency ∈ step.dependsOn, dependency ∈ ids := by
      intro dependency mem
      by_contra absent
      exact known (any_eq_true.mpr ⟨dependency, mem, decide_eq_true absent⟩)
    split
    next itself => exact iff_of_false nofun (fun both => both.2 itself)
    next other => exact iff_of_true rfl ⟨all, other⟩

theorem checkStep_error (raised : checkStep ids step = .error e) :
    ∃ text, e = .validationError text := by
  unfold checkStep at raised
  split at raised
  next =>
    cases raised
    exact ⟨_, rfl⟩
  next =>
    split at raised
    next =>
      cases raised
      exact ⟨_, rfl⟩
    next => cases raised

theorem checks_ok :
    checked.forM (checkStep ids) = .ok () ↔ ∀ step ∈ checked, checkStep ids step = .ok () := by
  induction checked with
  | nil => exact iff_of_true rfl (by simp)
  | cons step checked ih =>
    have unfolded : (step :: checked).forM (checkStep ids) =
        (checkStep ids step >>= fun _ => checked.forM (checkStep ids)) := rfl
    rw [unfolded, forall_mem_cons, ← ih]
    cases checkStep ids step with
    | ok u => exact (and_iff_right rfl).symm
    | error e => exact iff_of_false nofun (fun both => nomatch both.1)

theorem checks_error (raised : checked.forM (checkStep ids) = .error e) :
    ∃ text, e = .validationError text := by
  induction checked with
  | nil => cases raised
  | cons step checked ih =>
    have unfolded : (step :: checked).forM (checkStep ids) =
        (checkStep ids step >>= fun _ => checked.forM (checkStep ids)) := rfl
    rw [unfolded] at raised
    cases first : checkStep ids step with
    | ok u =>
      rw [first] at raised
      exact ih raised
    | error e' =>
      rw [first] at raised
      cases raised
      exact checkStep_error first

theorem arrows_eq (unique : (steps.map (fun step => step.id)).Nodup) :
    (fun a b => b ∈ dependencies steps a) = DependsOn steps := by
  funext a b
  exact propext (mem_dependencies unique)

theorem mem_ids :
    node ∈ steps.map (fun step => step.id) ↔ ∃ step ∈ steps, step.id = node := mem_map

/-- The searches of all nodes, one after the other. -/
def searchAll (steps : List PlanStep) : Except PlanExc (List String) :=
  (steps.map (fun step => step.id)).foldlM
    (fun seen node => visit steps (steps.length + 1) [] seen node) []

theorem validGraph_unique (unique : (steps.map (fun step => step.id)).Nodup) :
    validGraph steps = (steps.forM (checkStep (steps.map (fun step => step.id))) >>= fun _ =>
      (searchAll steps).map (fun _ => ())) := by
  simp only [validGraph, if_pos unique]
  rfl

theorem searchAll_answers (known : ∀ step ∈ steps, ∀ dependency ∈ step.dependsOn,
    dependency ∈ steps.map (fun step => step.id))
    (unique : (steps.map (fun step => step.id)).Nodup) : Answers steps (searchAll steps) := by
  refine fold_answers (fun node mem visited => ?_) []
  refine visit_answers (fun a b arrow => ?_) visited ⟨nodup_nil, by simp, by simp⟩ mem
    (by rw [length_nil]; omega)
  obtain ⟨step, stored, _, listed⟩ := (mem_dependencies unique).mp arrow
  exact known step stored b listed

theorem searchAll_acyclic (unique : (steps.map (fun step => step.id)).Nodup)
    (returned : searchAll steps = .ok after) : Acyclic (DependsOn steps) := by
  obtain ⟨visited, all⟩ := visits_fold (fun _ _ _ => visit_visited)
    ⟨left_nil, fun _ mem => mem, fun a mem => absurd mem not_mem_nil⟩ returned
  intro a loop
  obtain ⟨b, ⟨step, stored, rfl, _⟩, _⟩ := Relation.TransGen.head'_iff.mp loop
  rw [← arrows_eq unique] at loop
  exact visited.left.acyclic _ (all _ (mem_ids.mpr ⟨step, stored, rfl⟩)) loop

/-- Validation accepts exactly the well-formed graphs, and refuses every other with ValidationError. -/
theorem plan_validates (steps : List PlanStep) :
    (validGraph steps = .ok () ↔ WellFormed steps) ∧
      ∀ e, validGraph steps = .error e → ∃ text, e = .validationError text := by
  by_cases unique : (steps.map (fun step => step.id)).Nodup
  · rw [validGraph_unique unique]
    cases checks : steps.forM (checkStep (steps.map (fun step => step.id))) with
    | error e =>
      refine ⟨iff_of_false nofun (fun well => ?_), ?_⟩
      · have passes := checks_ok.mpr (fun step member => checkStep_ok.mpr
          ⟨fun dependency listed => mem_ids.mpr (well.known step member dependency listed),
            fun itself => well.acyclic step.id (.single ⟨step, member, rfl, itself⟩)⟩)
        rw [checks] at passes
        cases passes
      · intro e' raised
        cases raised
        exact checks_error checks
    | ok u =>
      have passed := fun step member => checkStep_ok.mp (checks_ok.mp checks step member)
      have known : ∀ step ∈ steps, ∀ dependency ∈ step.dependsOn,
          dependency ∈ steps.map (fun step => step.id) := fun step member => (passed step member).1
      obtain ⟨after, returned⟩ | ⟨raised, loop⟩ := searchAll_answers known unique
      · refine ⟨iff_of_true ?_ ⟨unique, ?_, searchAll_acyclic unique returned⟩, ?_⟩
        · rw [returned]
          rfl
        · exact fun step member dependency listed => mem_ids.mp (known step member dependency listed)
        · intro e raised
          rw [returned] at raised
          cases raised
      · rw [raised]
        refine ⟨iff_of_false nofun (fun well => ?_), ?_⟩
        · obtain ⟨a, around⟩ := loop
          rw [arrows_eq unique] at around
          exact well.acyclic a around
        · intro e same
          cases same
          exact ⟨_, rfl⟩
  · have refused : validGraph steps = .error (.validationError "step ids must be unique") := by
      simp only [validGraph, if_neg unique]
    rw [refused]
    refine ⟨iff_of_false nofun (fun well => unique well.unique), ?_⟩
    intro e same
    cases same
    exact ⟨_, rfl⟩

end Meemee.Guarantees.PlanGraph
