import Meemee.Guarantees.BackgroundWrites
import Meemee.Guarantees.DeletionCompleteness

/-!
# Background work while its account is deleted

Reflection passes and companion replies go on while purgers walk the stores. Neither looks at the
deletion ledger, so what they derive stays away from a deleted account only when it is written
before the step that empties its tables.
-/
namespace Meemee.Guarantees.LateBackground
open Library Library.History Library.Ownership Source Source.PurgeTargets List
open Source.AccountDeletion Source.PersonalModel Source.Reflection
open Source.Companion Guarantees.DeletionSteps Guarantees.BackgroundWrites
open Guarantees.DeletionCompleteness (Sound executes principalOf isWrite)

inductive Task where
  | pass (p : Pass)
  | reply (r : Reply)

def Task.marks : Task → List (String × StepName)
  | .pass p => passMarks p
  | .reply r => replyMarks r

/-- The task may write for the principal: a pass goes through everybody. -/
def Task.concerns (principal : String) : Task → Bool
  | .pass _ => true
  | .reply r => decide (r.userId = principal)

def Task.ended : Task → Bool
  | .pass p => match p.phase with | .ended => true | _ => false
  | .reply r => match r.phase with | .ended _ => true | _ => false

/-- The task is cancelled, or its process dies. -/
def Task.died : Task → Task
  | .pass p => .pass (p.at .ended)
  | .reply r => .reply (r.at (.ended .stopped))

structure System where
  base : DeletionCompleteness.System
  tasks : List Task
  /-- The steps that ran, with their principals. -/
  ran : List (String × StepName)

/-- What is up to others, for either kind of task. -/
structure Turn where
  pass : PassTurn
  reply : ReplyTurn

inductive Action where
  | purger (action : DeletionCompleteness.Action)
  | reflect (interval : Int)
  | reply (userId text channel : String) (conversationId : Option String)
  | advance (i : Nat) (turn : Turn)
  | die (i : Nat)

def System.start (stores : Stores) : System := ⟨DeletionCompleteness.System.start stores, [], []⟩

def System.stores (s : System) : Stores := s.base.deployment.stores

def System.ledger (s : System) : DeletionLedger := s.base.deployment.ledger

/-- A deletion of the principal is complete: a reply that begins now is not in flight. -/
def System.closed (s : System) (principal : String) : Bool :=
  s.ledger.deletions.rows.any (fun d => decide (d.principal = principal ∧ d.status = .completed))

/-- No pass holds the guard of the owner this one comes to. -/
def System.free (s : System) (p : Pass) : Bool :=
  match p.queue with
  | [] => true
  | owner :: _ => !s.tasks.any (fun task =>
      match task with
      | .pass other => decide (other.holds = some owner)
      | .reply _ => false)

/-- The stores after a task's access. -/
def System.wrote (s : System) (stores : Stores) (tasks : List Task) : System :=
  { s with base := s.base.written (fun _ => stores), tasks := tasks }

section Machine

variable (targets : PurgeTargets) (runId : String → Option String)
  (input : ReflectionClaim → Except String PersonalItemInput) (scrubText : String → String)

def step (s : System) : Action → Unit × System
  | .purger action =>
    if isWrite action then ((), s)
    else ((), { s with
      base := (DeletionCompleteness.step targets runId s.base action).2
      ran := s.ran ++ executes runId s.base action })
  | .reflect interval => ((), { s with tasks := s.tasks ++ [.pass (Pass.start interval)] })
  | .reply userId text channel conversationId =>
    if s.closed userId then ((), s)
    else ((), { s with tasks := s.tasks ++ [.reply ⟨userId, text, channel, conversationId, .starting⟩] })
  | .advance i turn =>
    match s.tasks[i]? with
    | none => ((), s)
    | some (.pass p) =>
      let (p', stores) := p.next sqliteStores input { turn.pass with free := s.free p } s.stores
      ((), s.wrote stores (s.tasks.set i (.pass p')))
    | some (.reply r) =>
      let (r', stores) := r.next scrubText turn.reply s.stores
      ((), s.wrote stores (s.tasks.set i (.reply r')))
  | .die i =>
    match s.tasks[i]? with
    | none => ((), s)
    | some task => ((), { s with tasks := s.tasks.set i task.died })

/-- No access brings a principal what a step of its deletion has emptied. -/
def meetsAt (s : System) : Action → Bool
  | .advance i _ => (s.tasks[i]?).all (fun task => task.marks.all (fun mark => !s.ran.contains mark))
  | _ => true

def Meets (e : Event System Action Unit) : Prop := meetsAt e.before e.action = true

instance (e : Event System Action Unit) : Decidable (Meets e) :=
  inferInstanceAs (Decidable (meetsAt e.before e.action = true))

end Machine

variable {action : DeletionCompleteness.Action} {targets : PurgeTargets}

section Invariant

variable {targets : PurgeTargets} {runId : String → Option String}
  {input : ReflectionClaim → Except String PersonalItemInput} {scrubText : String → String}
  {s : System}

structure Upheld (targets : PurgeTargets) (s : System) : Prop where
  sound : Sound targets s.base
  ran : ∀ mark ∈ s.base.since, ∀ principal, principalOf s.ledger mark.1 = some principal →
    (principal, mark.2) ∈ s.ran
  clear : ∀ mark ∈ s.ran, Clear mark.2 mark.1 s.stores.tables

theorem upheld_tasks (upheld : Upheld targets s) (tasks : List Task) :
    Upheld targets { s with tasks := tasks } :=
  ⟨upheld.sound, upheld.ran, upheld.clear⟩

theorem upheld_wrote (upheld : Upheld targets s) {marks : List (String × StepName)} {stores : Stores}
    (tasks : List Task) (writes : Writes marks s.stores stores) (free : ∀ mark ∈ marks, mark ∉ s.ran) :
    Upheld targets (s.wrote stores tasks) := by
  refine ⟨DeletionCompleteness.sound_written upheld.sound (fun _ => stores), upheld.ran, ?_⟩
  intro mark ran
  apply writes.clear mark.1 mark.2 _ (upheld.clear mark ran)
  exact fun marked => free mark marked ran

/-- The deletions' steps are marked for their principals after a purger's access, too. -/
theorem ran_purger (upheld : Upheld targets s) {ran : List (String × StepName)}
    (grows : ∀ entry ∈ s.ran, entry ∈ ran)
    (new : ∀ mark ∈ (DeletionCompleteness.step targets runId s.base action).2.since,
      mark ∈ s.base.since ∨ ∃ principal, principalOf s.ledger mark.1 = some principal ∧
        (principal, mark.2) ∈ ran) :
    ∀ mark ∈ (DeletionCompleteness.step targets runId s.base action).2.since, ∀ principal,
      principalOf (DeletionCompleteness.step targets runId s.base action).2.deployment.ledger mark.1 =
        some principal → (principal, mark.2) ∈ ran := by
  intro mark mem principal owner
  have known : ∀ q, principalOf s.ledger mark.1 = some q → q = principal := by
    intro q before
    have after := DeletionCompleteness.principal_step targets runId s.base action before
    rw [owner] at after
    exact (Option.some.inj after).symm
  rcases new mark mem with old | ⟨q, before, marked⟩
  · obtain ⟨d, found⟩ := Option.isSome_iff_exists.mp (upheld.sound.stored mark old)
    have before : principalOf s.ledger mark.1 = some d.principal :=
      Option.map_eq_some_iff.mpr ⟨d, found, rfl⟩
    rw [← known _ before]
    exact grows _ (upheld.ran mark old _ before)
  · rw [← known q before]
    exact marked

theorem upheld_purger (upheld : Upheld targets s) (own : isWrite action = false) :
    Upheld targets { s with
      base := (DeletionCompleteness.step targets runId s.base action).2
      ran := s.ran ++ executes runId s.base action } := by
  have sound := @DeletionCompleteness.sound_step targets runId s.base action upheld.sound
  have grows : ∀ entry ∈ s.ran, entry ∈ s.ran ++ executes runId s.base action :=
    fun _ mem => mem_append_left _ mem
  rcases DeletionCompleteness.step_cases targets runId s.base action own with
    ⟨name, principal, now, marks, ran, executed, since, marked⟩ | ⟨ran, stores, since⟩
  · refine ⟨sound, ran_purger upheld grows ?_, ?_⟩
    · intro mark mem
      rw [since] at mem
      rcases mem_append.mp mem with old | new
      · exact .inl old
      · obtain ⟨same, before⟩ := marked mark new
        refine .inr ⟨principal, before, ?_⟩
        rw [same, ran]
        exact mem_append_right _ mem_cons_self
    · intro mark mem
      apply executed_clear executed
      intro other
      rw [ran] at mem
      rcases mem_append.mp mem with old | new
      · exact upheld.clear mark old
      · exact absurd (mem_singleton.mp new) other
  · refine ⟨sound, ran_purger upheld grows ?_, ?_⟩
    · intro mark mem
      rw [since] at mem
      exact .inl mem
    · intro mark mem
      rw [ran, append_nil] at mem
      show Clear mark.2 mark.1 (DeletionCompleteness.step targets runId s.base action).2.deployment.stores.tables
      rw [stores]
      exact upheld.clear mark mem

theorem upheld_step (s : System) (action : Action) (upheld : Upheld targets s)
    (meets : meetsAt s action = true) :
    Upheld targets (step targets runId input scrubText s action).2 := by
  cases action with
  | purger action =>
    simp only [step]
    cases own : isWrite action with
    | true => exact upheld
    | false => exact upheld_purger upheld own
  | reflect interval => exact upheld_tasks upheld _
  | reply userId text channel conversationId =>
    simp only [step]
    split
    · exact upheld
    · exact upheld_tasks upheld _
  | advance i turn =>
    simp only [step, meetsAt] at meets ⊢
    cases found : s.tasks[i]? with
    | none => exact upheld
    | some task =>
      rw [found] at meets
      have free : ∀ mark ∈ task.marks, mark ∉ s.ran := by
        intro mark marked
        have absent := all_eq_true.mp meets mark marked
        simpa using absent
      cases task with
      | pass p => exact upheld_wrote upheld _ (pass_writes input p _ s.stores) free
      | reply r => exact upheld_wrote upheld _ (reply_writes scrubText r turn.reply s.stores) free
  | die i =>
    simp only [step]
    cases s.tasks[i]? with
    | none => exact upheld
    | some task => exact upheld_tasks upheld _

theorem upheld_start (stores : Stores) : Upheld targets (System.start stores) := by
  refine ⟨DeletionCompleteness.sound_start stores, ?_, ?_⟩ <;>
    simp [System.start, DeletionCompleteness.System.start]

theorem anchored_step (s : System) (action : Action) (anchored : Anchored s.stores.tables) :
    Anchored (step targets runId input scrubText s action).2.stores.tables := by
  cases action with
  | purger action =>
    simp only [step]
    cases own : isWrite action with
    | true => exact anchored
    | false =>
      rcases DeletionCompleteness.step_cases targets runId s.base action own with
        ⟨name, principal, now, -, -, executed, -⟩ | ⟨-, same, -⟩
      · exact executed_anchored executed anchored
      · have tables : (DeletionCompleteness.step targets runId s.base action).2.deployment.stores =
            s.stores := same
        simp only [Bool.false_eq_true, if_false, System.stores, tables]
        exact anchored
  | reflect interval => exact anchored
  | reply userId text channel conversationId =>
    simp only [step]
    split <;> exact anchored
  | advance i turn =>
    simp only [step]
    cases s.tasks[i]? with
    | none => exact anchored
    | some task =>
      cases task with
      | pass p => exact (pass_writes input p _ s.stores).anchored anchored
      | reply r => exact (reply_writes scrubText r turn.reply s.stores).anchored anchored
  | die i =>
    simp only [step]
    cases s.tasks[i]? with
    | none => exact anchored
    | some task => exact anchored

end Invariant

/-- Nothing derived about the principal is in the stores that the deletion was given. -/
structure NothingLeft (targets : PurgeTargets) (principal : String) (s : Stores) : Prop where
  items : targets .personalModel = true → ∀ r ∈ s.tables .personalItems, r.owner ≠ some principal
  evidence : targets .personalModel = true →
    ∀ r ∈ s.tables .personalEvidence, r.owner ≠ some principal
  reflection : targets .reflectionSchedule = true →
    ∀ r ∈ s.tables .reflectionRuns, r.owner ≠ some principal
  facts : targets .companion = true → ∀ r ∈ s.tables .companionFacts, r.owner ≠ some principal
  conversations : targets .companion = true →
    ∀ r ∈ s.tables .companionConversations, r.owner ≠ some principal
  messages : targets .companion = true →
    ∀ r ∈ s.tables .companionMessages, belongs s.tables principal [.companionConversations] r = false

/-- A completed deletion has left nothing once the work that concerns its principal has ended. -/
def Gone (targets : PurgeTargets) (s : System) : Prop :=
  ∀ d ∈ s.ledger.deletions, d.status = .completed →
    (∀ task ∈ s.tasks, task.concerns d.principal = true → task.ended = true) →
    NothingLeft targets d.principal s.stores

theorem nothingLeft_of_clear {principal : String} {s : Stores}
    (clear : ∀ name ∈ stepsOf targets, Clear name principal s.tables) :
    NothingLeft targets principal s := by
  have column : ∀ name, name ∈ [StepName.personalModel, .companion, .reflectionSchedule] →
      targets name = true → ∀ t ∈ watched name, ownerPath t = [] →
      ∀ r ∈ s.tables t, r.owner ≠ some principal := by
    intro name optional given t mem path r stored owner
    have steps : name ∈ stepsOf targets := by
      simp only [mem_cons, not_mem_nil, or_false] at optional
      rcases optional with rfl | rfl | rfl <;> simp [stepsOf, given]
    have free := clear name steps t mem r stored
    rw [path, belongs_column.mpr owner] at free
    cases free
  constructor
  · exact fun given => column .personalModel (by simp) given .personalItems (by simp [watched]) rfl
  · exact fun given => column .personalModel (by simp) given .personalEvidence (by simp [watched]) rfl
  · exact fun given => column .reflectionSchedule (by simp) given .reflectionRuns (by simp [watched]) rfl
  · exact fun given => column .companion (by simp) given .companionFacts (by simp [watched]) rfl
  · exact fun given =>
      column .companion (by simp) given .companionConversations (by simp [watched]) rfl
  · intro given r stored
    exact clear .companion (by simp [stepsOf, given]) .companionMessages (by simp [watched]) r stored

theorem gone_of_upheld {s : System} (upheld : Upheld targets s) : Gone targets s := by
  intro d stored completed _
  apply nothingLeft_of_clear
  intro name mem
  rcases upheld.sound.completed d stored completed name mem with waits | mark
  · cases waits
  · exact upheld.clear _ (upheld.ran _ mark _ (DeletionCompleteness.principalOf_mem stored))

/-- In a run that always meets the condition, a completed deletion has left nothing derived of its
principal; and no run leaves a message without its conversation. -/
theorem background_stays_gone (targets : PurgeTargets) (runId : String → Option String)
    (input : ReflectionClaim → Except String PersonalItemInput) (scrubText : String → String)
    (stores : Stores) (actions : List Action) :
    ((∀ e ∈ history (step targets runId input scrubText) (System.start stores) actions, Meets e) →
      (∀ e ∈ history (step targets runId input scrubText) (System.start stores) actions,
        Gone targets e.before ∧ Gone targets e.after) ∧
      Gone targets (final (step targets runId input scrubText) (System.start stores) actions)) ∧
    (Anchored stores.tables → Anchored
      (final (step targets runId input scrubText) (System.start stores) actions).stores.tables) := by
  constructor
  · intro meets
    have held := @invariant_of_meets _ _ _ (step targets runId input scrubText) (Upheld targets)
      Meets (fun s a upheld meets => upheld_step s a upheld meets) (System.start stores)
      (upheld_start stores) actions meets
    refine ⟨?_, gone_of_upheld held.2⟩
    intro e member
    obtain ⟨before, after⟩ := held.1 e member
    exact ⟨gone_of_upheld before, gone_of_upheld after⟩
  · intro anchored
    exact @final_invariant _ _ _ (step targets runId input scrubText)
      (fun s => Anchored s.stores.tables) (fun s a held => anchored_step s a held)
      (System.start stores) anchored actions

theorem evidenceOwned_empty : EvidenceOwned (fun _ => Table.empty) :=
  fun _ stored => absurd stored not_mem_nil

def noStores : Stores := ⟨fun _ => Table.empty, evidenceOwned_empty, Jobs.JobStore.empty⟩

def companionOnly : PurgeTargets := fun name => decide (name = .companion)

def noRunId : String → Option String := fun _ => none

def noInput : ReflectionClaim → Except String PersonalItemInput := fun _ => .error "ValueError"

def plainStep : System → Action → Unit × System := step companionOnly noRunId noInput id

/-- The model answers, and learns that alice likes tea. -/
def turn : Turn where
  pass := ⟨5, fun _ => "item", .raised "TimeoutError", .null, true⟩
  reply := ⟨5, "c", some "hello", ⟨none, none, none, .arr []⟩, [⟨"preference", "likes tea", 1⟩]⟩

def purgeAll : List Action :=
  .purger (.purge "d" "alice" "alice" 6) :: List.replicate 11 (.purger (.advance 0 6))

/-- A reply that is through before the account is deleted. -/
def earlyReply : List Action :=
  .reply "alice" "hi" "local" none :: List.replicate 12 (.advance 0 turn) ++ purgeAll

/-- A reply that adds its fact when the companion's tables are empty. -/
def lateFact : List Action :=
  .reply "alice" "hi" "local" none :: List.replicate 10 (.advance 0 turn) ++ purgeAll ++
    List.replicate 2 (.advance 0 turn)

theorem early_reply_gone : Gone companionOnly (final plainStep (System.start noStores) earlyReply) :=
  ((background_stays_gone companionOnly noRunId noInput id noStores earlyReply).1
    (by decide +kernel)).2

theorem late_fact_stays : ¬ ∀ actions,
    Gone companionOnly (final plainStep (System.start noStores) actions) := by
  intro all
  have stored : (final plainStep (System.start noStores) lateFact).ledger.deletions.find "d" =
      some ⟨"d", "alice", "alice", .completed, 6, some 6⟩ := by
    decide +kernel
  have left := (all lateFact _ (Table.mem_of_find stored) rfl (by decide +kernel)).facts rfl
  have kept : ((final plainStep (System.start noStores) lateFact).stores.tables
      .companionFacts).rows.map Row.owner = [some "alice"] := by
    decide +kernel
  have member : some "alice" ∈ ((final plainStep (System.start noStores) lateFact).stores.tables
      .companionFacts).rows.map Row.owner := by
    rw [kept]
    exact mem_cons_self
  obtain ⟨r, there, owner⟩ := mem_map.mp member
  exact left r there owner

end Meemee.Guarantees.LateBackground
