import Meemee.Guarantees.DeletionSteps
import Meemee.Source.Companion
import Meemee.Source.Reflection

/-!
# What background work writes

A reflection pass brings rows with `upsert_batch` and `record`, a reply with `start_conversation`
and `add_fact`; a message and a model trace come only under a conversation that is there. Each
program is `Confined` to the rows its marks name.
-/
namespace Meemee.Guarantees.BackgroundWrites
open Library Library.Ownership Source Source.PurgeTargets Source.Rows Library.Txn Library.Table List
open Source.AccountDeletion Source.PersonalModel Source.Reflection
open Source.Companion Guarantees.DeletionSteps
open Source.Runs (apart insertRow deleteIf)

/-- The tables of the derived data that a step empties. -/
def watched : StepName → List TableName
  | .personalModel => [.personalEvidence, .personalItems]
  | .companion => [.companionMessages, .companionMessageModels, .companionConversations,
      .companionFacts]
  | .reflectionSchedule => [.reflectionRuns]
  | _ => []

/-- The step that empties a table of derived data. -/
def home : TableName → List StepName
  | .personalEvidence | .personalItems => [.personalModel]
  | .companionMessages | .companionMessageModels | .companionConversations | .companionFacts =>
    [.companion]
  | .reflectionRuns => [.reflectionSchedule]
  | _ => []

variable {name : StepName} {u t table : TableName} {r : StoredRow} {p : StoredRow → Bool}
  {s : Stores}

theorem watched_emptied (mem : u ∈ watched name) : u ∈ stepTables name := by
  cases name with
  | personalModel | reflectionSchedule => exact mem
  | companion =>
    simp only [watched, mem_cons, not_mem_nil, or_false] at mem
    rcases mem with rfl | rfl | rfl | rfl <;> simp [stepTables]
  | _ => cases mem

theorem home_watched (mem : u ∈ watched name) : home u = [name] := by
  cases name with
  | personalModel =>
    simp only [watched, mem_cons, not_mem_nil, or_false] at mem
    rcases mem with rfl | rfl <;> rfl
  | companion =>
    simp only [watched, mem_cons, not_mem_nil, or_false] at mem
    rcases mem with rfl | rfl | rfl | rfl <;> rfl
  | reflectionSchedule =>
    simp only [watched, mem_cons, not_mem_nil, or_false] at mem
    subst mem
    rfl
  | _ => cases mem

theorem mem_home (mem : u ∈ watched name) (touches : u = t ∨ t ∈ ownerPath u) :
    name ∈ home t := by
  have same := home_watched mem
  rcases touches with rfl | onPath
  · rw [same]
    exact mem_cons_self
  · cases u <;> cases onPath
    all_goals first
      | cases same; exact mem_cons_self
      | contradiction

/-- Nothing that the step watches over is the principal's. -/
def Clear (name : StepName) (principal : String) (tables : Tables) : Prop :=
  ∀ u ∈ watched name, NoneOf ownerPath principal tables u

/-- Every message is in a conversation that is there. -/
def Anchored (tables : Tables) : Prop :=
  ∀ m ∈ tables .companionMessages, ∃ k c, m.of = some k ∧
    (tables .companionConversations).find k = some c

/-- Only the marked principals' derived data may be more; no message lost its conversation. -/
structure Writes (marks : List (String × StepName)) (s t : Stores) : Prop where
  clear : ∀ q name, (q, name) ∉ marks → Clear name q s.tables → Clear name q t.tables
  anchored : Anchored s.tables → Anchored t.tables

/-- The marks of a row that comes to a table. -/
def marksOf (owner : String) (t : TableName) : List (String × StepName) :=
  (home t).map (fun name => (owner, name))

section Statements

variable {marks marks' : List (String × StepName)} {s t u : Stores} {owner : String}

theorem writes_refl (s : Stores) : Writes marks s s :=
  ⟨fun _ _ _ clear => clear, id⟩

theorem writes_trans (s t u : Stores) (first : Writes marks s t) (second : Writes marks t u) :
    Writes marks s u where
  clear := fun q name free clear => second.clear q name free (first.clear q name free clear)
  anchored := fun anchored => second.anchored (first.anchored anchored)

theorem writes_mono (sub : ∀ mark ∈ marks, mark ∈ marks') (writes : Writes marks s t) :
    Writes marks' s t where
  clear := fun q name free => writes.clear q name (fun mark => free (sub _ mark))
  anchored := writes.anchored

theorem writes_inserted (column : ownerPath table = []) (owned : r.owner = some owner)
    (tables : t.tables = inserted s.tables table r) : Writes (marksOf owner table) s t := by
  constructor
  · intro q name free clear u mem
    rw [tables]
    by_cases touches : u = table ∨ table ∈ ownerPath u
    · have other : q ≠ owner := by
        rintro rfl
        exact free (mem_map.mpr ⟨name, mem_home mem touches, rfl⟩)
      apply noneOf_inserted ownerPath_coherent _ (clear u mem)
      rw [column]
      apply Bool.eq_false_iff.mpr
      intro mine
      rw [belongs_column, owned] at mine
      exact other (Option.some.inj mine).symm
    · exact noneOf_inserted_aside touches (clear u mem)
  · intro anchored m stored
    rw [tables] at stored ⊢
    rcases mem_inserted stored with before | ⟨rfl, -⟩
    · obtain ⟨k, c, names, found⟩ := anchored m before
      refine ⟨k, c, names, ?_⟩
      unfold inserted
      split
      · cases fresh : (s.tables .companionConversations).find r.key with
        | some other =>
          rw [insertOrIgnore_conflict fresh]
          exact found
        | none =>
          rw [insertOrIgnore_fresh fresh]
          exact find_insert_of_found fresh found
      · exact found
    · cases column

/-- A new row under a conversation is no one's whose conversations are gone. -/
theorem clear_underConversation (path : ownerPath table = [.companionConversations])
    (tables : t.tables = inserted s.tables table r) (q : String) (name : StepName)
    (clear : Clear name q s.tables) : Clear name q t.tables := by
  have other : TableName.companionConversations ≠ table := by
    rintro rfl
    cases path
  have conversations : inserted s.tables table r .companionConversations =
      s.tables .companionConversations := if_neg other
  intro u mem
  rw [tables]
  by_cases touches : u = table ∨ table ∈ ownerPath u
  · apply noneOf_inserted ownerPath_coherent _ (clear u mem)
    have companion : name = .companion := by
      have at_ := mem_home mem touches
      cases table <;> simp_all [ownerPath, home]
    subst companion
    rw [path]
    apply Bool.eq_false_iff.mpr
    intro mine
    obtain ⟨k, c, -, found, owned⟩ := belongs_through.mp mine
    rw [conversations] at found
    have free := clear .companionConversations (by simp [watched]) c (mem_of_find found)
    rw [show ownerPath .companionConversations = [] from rfl,
      belongs_column.mpr (belongs_column.mp owned)] at free
    cases free
  · exact noneOf_inserted_aside touches (clear u mem)

theorem writes_updated {f : List Cell → List Cell}
    (tables : t.tables = updated s.tables table p f) : Writes marks s t := by
  constructor
  · intro q name _ clear u mem
    rw [tables]
    exact noneOf_updated (clear u mem)
  · intro anchored m stored
    rw [tables] at stored ⊢
    obtain ⟨old, there, -, -, of⟩ := mem_updated stored
    obtain ⟨k, c, names, found⟩ := anchored old there
    refine ⟨k, if table = .companionConversations ∧ p c then c.recolumned f else c, ?_, ?_⟩
    · rw [← of, names]
    · unfold updated
      by_cases here : TableName.companionConversations = table
      · subst here
        rw [if_pos rfl, find_update, found]
        simp
      · rw [if_neg here, found, if_neg (fun both => here both.1.symm)]

theorem writes_deleted (other : TableName.companionConversations ≠ table)
    (tables : t.tables = (deleteIf s table p).tables) : Writes marks s t := by
  have sub : ∀ u, ∀ r ∈ t.tables u, r ∈ s.tables u := by
    intro u r stored
    rw [tables] at stored
    simp only [deleteIf] at stored
    split at stored
    · exact (mem_delete.mp stored).1
    · exact stored
  constructor
  · intro q name _ clear u mem
    exact noneOf_of_sub sub (clear u mem)
  · intro anchored m stored
    obtain ⟨k, c, names, found⟩ := anchored m (sub _ m stored)
    refine ⟨k, c, names, ?_⟩
    rw [tables]
    simp only [deleteIf, other, if_false]
    exact found

end Statements

section Programs

variable {marks : List (String × StepName)} {owner : String}

theorem updateRows_writes {names : List String} {changes : List (String × Cell)} :
    Txn.Confined (Writes marks) (updateRows t names p changes) :=
  fun _ => writes_updated rfl

theorem insertOrIgnoreRow_writes {away : apart t = true} (column : ownerPath t = [])
    (owned : r.owner = some owner) :
    Txn.Confined (Writes (marksOf owner t)) (insertOrIgnoreRow t away r) :=
  fun _ => writes_inserted column owned rfl

theorem insertRow_writes {away : apart t = true} (column : ownerPath t = [])
    (owned : r.owner = some owner) :
    Txn.Confined (Writes (marksOf owner t)) (insertRow t away r) := by
  intro fresh
  apply confined_require writes_refl
  exact fun _ => writes_inserted column owned rfl

theorem insertPersonal_writes (column : ownerPath t = []) (owned : r.owner = some owner) :
    Txn.Confined (Writes (marksOf owner t)) (insertPersonal t r) := by
  intro s
  unfold insertPersonal
  split
  · exact writes_refl s
  · split
    · exact writes_inserted column owned rfl
    · exact writes_refl s

theorem placeItem_writes (ident : String) (current : Option StoredRow) (item : PersonalItemInput)
    (now : Instant) :
    Txn.Confined (Writes [(owner, .personalModel)]) (placeItem owner ident current item now) := by
  cases current with
  | none =>
    apply confined_bind writes_trans
    · exact insertPersonal_writes (t := .personalItems) rfl rfl
    · exact fun _ => confined_pure writes_refl _
  | some row =>
    rw [placeItem]
    split
    · apply confined_bind writes_trans updateRows_writes
      exact fun _ => confined_pure writes_refl _
    · apply confined_bind writes_trans updateRows_writes
      intro _
      apply confined_bind writes_trans
      · exact insertPersonal_writes (t := .personalItems) rfl rfl
      · exact fun _ => confined_pure writes_refl _

theorem addEvidence_writes (named : Key) (item : PersonalItemInput) (now : Instant) :
    Txn.Confined (Writes [(owner, .personalModel)]) (addEvidence owner named item now) := by
  apply confined_read
  intro known
  apply confined_read
  intro ident
  split
  · exact confined_pure writes_refl _
  · exact insertPersonal_writes (t := .personalEvidence) rfl rfl

theorem upsertLocked_writes (item : PersonalItemInput) (ident : String) (preserveUser : Bool)
    (now : Instant) :
    Txn.Confined (Writes [(owner, .personalModel)])
      (upsertLocked owner item ident preserveUser now) := by
  apply confined_read
  intro current
  apply confined_read
  intro kept
  split
  · exact confined_pure writes_refl _
  · apply confined_bind writes_trans (placeItem_writes ident current item now)
    intro named
    apply confined_bind writes_trans (addEvidence_writes named item now)
    exact fun _ => confined_pure writes_refl _

theorem upsertAll_writes (preserveUser : Bool) (now : Instant)
    (items : List (PersonalItemInput × String)) :
    Txn.Confined (Writes [(owner, .personalModel)]) (upsertAll owner preserveUser now items) := by
  induction items with
  | nil => exact confined_pure writes_refl _
  | cons entry rest ih =>
    apply confined_bind writes_trans (upsertLocked_writes entry.1 entry.2 preserveUser now)
    intro _
    apply confined_bind writes_trans ih
    exact fun _ => confined_pure writes_refl _

theorem upsertBatch_writes (items : List (PersonalItemInput × String)) (preserveUser : Bool)
    (now : Instant) :
    Txn.Confined (Writes (if items = [] then [] else [(owner, .personalModel)]))
      (upsertBatch owner items preserveUser now) := by
  apply confined_require writes_refl
  apply confined_atomically writes_refl
  split
  next none =>
    subst none
    exact confined_pure writes_refl _
  next => exact upsertAll_writes preserveUser now items

theorem putReflectionRun_writes (status : RunStatus) (encoded : String) (watermark : Option Int)
    (now : Instant) :
    Txn.Confined (Writes [(owner, .reflectionSchedule)])
      (putReflectionRun owner status encoded watermark now) := by
  apply confined_read
  intro st
  split
  · exact updateRows_writes
  · exact insertRow_writes (t := .reflectionRuns) rfl rfl

theorem record_writes (status : RunStatus) (result : Json) (watermark : Option Int)
    (now : Instant) :
    Txn.Confined (Writes [(owner, .reflectionSchedule)])
      (record sqliteStores owner status result watermark now) := by
  apply confined_ofExcept writes_refl
  exact fun encoded => putReflectionRun_writes status encoded watermark now

theorem upsertUser_writes (profile : UserProfile) (now : Instant) :
    Txn.Confined (Writes marks) (upsertUser profile now) := by
  apply confined_read
  intro known
  split
  · exact updateRows_writes
  · intro s
    have nothing : Writes [] s (insertOrIgnoreRow .companionUsers rfl (profile.row now) s).2 :=
      insertOrIgnoreRow_writes (t := .companionUsers) rfl rfl s
    exact writes_mono (fun _ mem => absurd mem not_mem_nil) nothing

theorem addFact_writes (scrubText : String → String) (fact : FactInput) (source : String)
    (now : Instant) :
    Txn.Confined (Writes [(owner, .companion)]) (addFact scrubText owner fact source now) := by
  apply confined_read
  intro ident
  exact insertRow_writes (t := .companionFacts) rfl rfl

theorem startConversation_writes (channel ident : String) (now : Instant) :
    Txn.Confined (Writes [(owner, .companion)]) (startConversation owner channel ident now) := by
  apply confined_atomically writes_refl
  apply confined_bind writes_trans
  · exact insertOrIgnoreRow_writes (t := .companionConversations)
      (r := newConversation ident owner channel now) rfl rfl
  · intro _ row
    apply confined_require writes_refl
    exact confined_pure writes_refl _

/-- A row goes under a conversation; if it is a message, one that is there. -/
theorem insertRow_underConversation {away : apart table = true}
    (path : ownerPath table = [.companionConversations])
    (anchor : table = .companionMessages → ∃ k c, r.of = some k ∧
      (s.tables .companionConversations).find k = some c) :
    Writes marks s (insertRow table away r s).2 := by
  unfold insertRow
  rw [run_bind_read, run_require_bind]
  split
  next =>
    constructor
    · exact fun q name _ => clear_underConversation path rfl q name
    · intro anchored m stored
      have conversations : inserted s.tables table r .companionConversations =
          s.tables .companionConversations := by
        apply if_neg
        rintro rfl
        cases path
      show ∃ k c, m.of = some k ∧
        (inserted s.tables table r .companionConversations).find k = some c
      rw [conversations]
      rcases mem_inserted stored with before | ⟨here, rfl⟩
      · exact anchored m before
      · exact anchor here.symm
  next => exact writes_refl s

theorem addMessage_writes (scrubText : String → String) (conversation : String)
    (role : MessageRole) (content : String) (now : Instant) :
    Txn.Confined (Writes marks) (addMessage scrubText conversation role content now) := by
  apply confined_atomically writes_refl
  intro s
  rw [run_bind_read, run_require_bind]
  split
  next known =>
    obtain ⟨c, found⟩ := Option.isSome_iff_exists.mp known
    rw [run_bind_read]
    apply confined_bind_at writes_trans
    · exact insertRow_underConversation rfl (fun _ => ⟨_, c, rfl, found⟩)
    · intro _
      apply confined_bind writes_trans updateRows_writes
      exact fun _ => confined_pure writes_refl _
  next => exact writes_refl s

theorem recordModelTrace_writes (message : Int) (conversation : String) (trace : ModelTrace)
    (now : Instant) :
    Txn.Confined (Writes marks) (recordModelTrace message conversation trace now) := by
  apply confined_atomically writes_refl
  intro row
  apply confined_require writes_refl
  apply confined_require writes_refl
  apply confined_ofExcept writes_refl
  intro attempts
  apply confined_bind writes_trans
  · exact fun _ => writes_deleted (by simp) rfl
  · intro _ s
    exact insertRow_underConversation rfl (by simp)

end Programs

/-- What the next access of a pass may bring, and to whom. -/
def passMarks (p : Pass) : List (String × StepName) :=
  match p.phase with
  | .publishing owner _ items _ => if items = [] then [] else [(owner, .personalModel)]
  | .recording owner _ => [(owner, .reflectionSchedule)]
  | _ => []

/-- What the next access of a reply may bring. -/
def replyMarks (r : Reply) : List (String × StepName) :=
  match r.phase with
  | .opening | .adding .. => [(r.userId, .companion)]
  | _ => []

theorem drawn_nil {draws : Nat → String} {items : List PersonalItemInput} :
    drawn draws items = [] ↔ items = [] := by
  simp [drawn]

theorem pass_writes (input : ReflectionClaim → Except String PersonalItemInput) (p : Pass)
    (turn : PassTurn) (s : Stores) :
    Writes (passMarks p) s (p.next sqliteStores input turn s).2 := by
  cases phase : p.phase with
  | publishing owner records items rejected =>
    have writes := @upsertBatch_writes owner (drawn turn.draws items) true turn.now s
    rw [if_congr drawn_nil rfl rfl] at writes
    simp only [Pass.next, passMarks, phase]
    exact writes
  | recording owner outcome =>
    simp only [Pass.next, passMarks, phase]
    exact record_writes _ _ _ _ s
  | claiming =>
    simp only [Pass.next, phase]
    split
    · exact writes_refl s
    · exact writes_refl s
  | scanning left found =>
    cases left with
    | nil =>
      simp only [Pass.next, phase]
      exact writes_refl s
    | cons entry rest =>
      simp only [Pass.next, phase]
      exact writes_refl s
  | rescanning owner left found =>
    cases left with
    | nil =>
      simp only [Pass.next, phase]
      exact writes_refl s
    | cons entry rest =>
      simp only [Pass.next, phase]
      exact writes_refl s
  | _ =>
    simp only [Pass.next, phase]
    exact writes_refl s

theorem reply_writes (scrubText : String → String) (r : Reply) (turn : ReplyTurn) (s : Stores) :
    Writes (replyMarks r) s (r.next scrubText turn s).2 := by
  cases phase : r.phase with
  | enrolling profile =>
    simp only [Reply.next, phase]
    exact upsertUser_writes _ _ s
  | opening =>
    simp only [Reply.next, replyMarks, phase]
    exact startConversation_writes _ _ _ s
  | asking conversation =>
    simp only [Reply.next, phase]
    exact addMessage_writes _ _ _ _ _ s
  | thinking conversation =>
    simp only [Reply.next, phase]
    split
    · exact writes_refl s
    · exact writes_refl s
  | answering conversation reply =>
    simp only [Reply.next, phase]
    exact addMessage_writes _ _ _ _ _ s
  | tracing conversation reply message =>
    simp only [Reply.next, phase]
    exact recordModelTrace_writes _ _ _ _ s
  | learning conversation reply facts learned =>
    cases facts with
    | nil =>
      simp only [Reply.next, phase]
      exact writes_refl s
    | cons fact rest =>
      simp only [Reply.next, phase]
      exact writes_refl s
  | adding conversation reply fact facts learned =>
    simp only [Reply.next, replyMarks, phase]
    exact addFact_writes _ _ _ _ s
  | _ =>
    simp only [Reply.next, phase]
    exact writes_refl s

theorem executed_clear {other : StepName} {principal q : String} {now : Instant} {t : Stores}
    (executed : Executed name principal now s t)
    (before : (q, other) ≠ (principal, name) → Clear other q s.tables) :
    Clear other q t.tables := by
  intro u mem r stored
  by_cases here : (q, other) = (principal, name)
  · cases here
    exact executed.tables.gone (watched_emptied mem) stored
  · exact noneOf_of_sub (fun _ _ => executed.tables.mem) (before here u mem) r stored

theorem executed_anchored {principal : String} {now : Instant} {t : Stores}
    (executed : Executed name principal now s t) (anchored : Anchored s.tables) :
    Anchored t.tables := by
  intro m stored
  obtain ⟨k, c, names, found⟩ := anchored m (executed.tables.mem stored)
  refine ⟨k, c, names, ?_⟩
  have there := mem_of_find found
  suffices stays : c ∈ t.tables .companionConversations from
    find_some_iff.mpr ⟨stays, key_of_find found⟩
  cases mine : belongs s.tables principal (ownerPath .companionConversations) c with
  | false => exact executed.tables.kept there mine
  | true =>
    by_cases companion : name = .companion
    · subst companion
      have owned : belongs s.tables principal (ownerPath .companionMessages) m = true :=
        belongs_through.mpr ⟨k, c, names, found, mine⟩
      exact absurd stored (executed.tables.absent (by simp [stepTables]) owned)
    · have untouched : TableName.companionConversations ∉ stepTables name := by
        cases name <;> simp_all [stepTables]
      rw [executed.tables .companionConversations, if_neg untouched]
      exact there

end Meemee.Guarantees.BackgroundWrites
