import Meemee.Library.History
import Meemee.Source.Memory

/-!
# Memories and their vectors stay paired

Adding and purging write both tables in one transaction. `reindex` writes vectors for the
batch it read in an earlier transaction, and `delete_runs` deletes the vectors of the ids
it read before its own. The pairing holds in every run in which what was read is still so
when it is used, and is lost in others.
-/
namespace Meemee.Guarantees.MemoryVectors
open Library Library.History Source Source.Memory Library.Txn Library.Table List

/-- The store, the rounds with their batches and the `delete_runs` with their ids. -/
structure Processes (φ : Type) where
  store : MemoryStore φ
  reindexing : Nat → Option (String × List (Nat × String))
  deleting : Nat → Option (String × List String × List Nat)

inductive Action where
  | add (space runId kind content metadata ownerId : String) (now : Instant)
  | readBatch (n : Nat) (space : String) (batchSize : Nat)
  | writeBatch (n : Nat)
  | purgeOwner (ownerId : String)
  | readRun (n : Nat) (ownerId : String) (runIds : List String)
  | deleteRuns (n : Nat)

inductive Value where
  | goesOn
  | id (value : Nat)
  | number (value : Nat)
  deriving DecidableEq

section System

variable {φ : Type} (encode : String → String → Except Exc (List φ)) (scrubText : String → String)

def Processes.call {α : Type} (p : Processes φ) (wrap : α → Value) (program : MemoryTxn φ α) :
    Except Exc Value × Processes φ :=
  ((Txn.answer wrap program p.store).1, { p with store := (Txn.answer wrap program p.store).2 })

def step (p : Processes φ) : Action → Except Exc Value × Processes φ
  | .add space runId kind content metadata ownerId now =>
    p.call .id (Memory.add encode scrubText space runId kind content metadata ownerId now)
  | .readBatch n space batchSize =>
    let batch := Memory.readBatch space batchSize p.store
    if batchSize < 1 then (.error (.valueError "batch_size must be positive"), p)
    else (.ok .goesOn, { p with reindexing := Function.update p.reindexing n (some (space, batch)) })
  | .writeBatch n =>
    match p.reindexing n with
    | none => (.ok .goesOn, p)
    | some (space, batch) =>
      { p with reindexing := Function.update p.reindexing n none }.call .number
        (Memory.writeBatch encode space batch)
  | .purgeOwner ownerId => p.call .number (Memory.purgeOwner ownerId)
  | .readRun n ownerId runIds =>
    let ids := Memory.readRun ownerId runIds p.store
    (.ok .goesOn, { p with deleting := Function.update p.deleting n (some (ownerId, runIds, ids)) })
  | .deleteRuns n =>
    match p.deleting n with
    | none => (.ok .goesOn, p)
    | some (ownerId, runIds, ids) =>
      { p with deleting := Function.update p.deleting n none }.call .number
        (Memory.deleteRuns ownerId runIds ids)

/-- Every vector belongs to a stored memory and is the vector of its content. -/
def Paired (s : MemoryStore φ) : Prop :=
  ∀ e ∈ s.embeddings, ∃ m, s.memories.find e.memoryId = some m ∧
    encode e.spaceId m.content = .ok e.embedding

/-- What a step read before is still so: the batch's memories, the run's vectors. -/
def Timely (e : Event (Processes φ) Action (Except Exc Value)) : Prop :=
  match e.action with
  | .writeBatch n => ∀ space batch rows, e.before.reindexing n = some (space, batch) →
      encodeBatch encode space batch = .ok rows → ∀ entry ∈ batch,
        ∃ m, e.before.store.memories.find entry.1 = some m ∧
          encode space m.content = encode space entry.2
  | .deleteRuns n => ∀ ownerId runIds ids first rest,
      e.before.deleting n = some (ownerId, runIds, ids) → runIds.eraseDups = first :: rest →
        ∀ m ∈ e.before.store.memories, ofRun ownerId first m = true →
          (e.before.store.embeddings.find m.id).isSome → m.id ∈ ids
  | _ => True

end System

variable {φ : Type} {encode : String → String → Except Exc (List φ)} {scrubText : String → String}

variable {s : MemoryStore φ}

theorem lt_nextMemoryId {m : MemoryRow} (stored : m ∈ s.memories) : m.id < nextMemoryId s := by
  have bounded : ∀ (ids : List Nat) (id : Nat), id ∈ ids → id ≤ ids.foldr max 0 := by
    intro ids
    induction ids with
    | nil => simp
    | cons first rest ih =>
      intro id mem
      rcases mem_cons.mp mem with rfl | later
      · exact Nat.le_max_left _ _
      · exact Nat.le_trans (ih id later) (Nat.le_max_right _ _)
  have below := bounded _ m.id (mem_map_of_mem stored)
  unfold nextMemoryId
  omega

theorem nextMemoryId_fresh (paired : Paired encode s) :
    s.memories.find (nextMemoryId s) = none ∧ s.embeddings.find (nextMemoryId s) = none := by
  constructor
  · refine find_none_iff.mpr ?_
    intro m stored same
    have below := lt_nextMemoryId stored
    omega
  · refine find_none_iff.mpr ?_
    intro e stored same
    obtain ⟨m, found, -⟩ := paired e stored
    have below := lt_nextMemoryId (mem_of_find found)
    rw [key_of_find found] at below
    omega

theorem paired_dropped {t : MemoryStore φ} (paired : Paired encode s)
    (fewer : ∀ e ∈ t.embeddings, e ∈ s.embeddings)
    (kept : ∀ e ∈ t.embeddings, ∀ m, s.memories.find e.memoryId = some m →
      t.memories.find e.memoryId = some m) : Paired encode t := by
  intro e stored
  obtain ⟨m, found, same⟩ := paired e (fewer e stored)
  exact ⟨m, kept e stored m found, same⟩

theorem paired_replaced {row : EmbeddingRow φ} (paired : Paired encode s)
    (fits : ∃ m, s.memories.find row.memoryId = some m ∧ encode row.spaceId m.content = .ok row.embedding) :
    Paired encode { s with embeddings := s.embeddings.replace row } := by
  intro e stored
  rcases mem_replace.mp stored with ⟨old, -⟩ | rfl
  · exact paired e old
  · exact fits

theorem insertVector_fresh {s : MemoryStore φ} {row : EmbeddingRow φ}
    (fresh : s.embeddings.find row.memoryId = none) :
    insertVector row s = (.ok (), { s with embeddings := s.embeddings.insert row fresh }) := by
  unfold insertVector
  simp only [run_bind_read]
  rw [insertOrIgnore_fresh fresh, run_require_bind, if_pos rfl]
  simp only [setEmbeddings, run_write]
  rw [insertOrIgnore_fresh fresh]

theorem add_returned {s : MemoryStore φ} (paired : Paired encode s)
    {space runId kind content metadata ownerId : String} {now : Instant} {vector : List φ}
    (owned : PgJobs.blank ownerId = false) (encoded : encode space (scrubText content) = .ok vector) :
    ∃ t, Memory.add encode scrubText space runId kind content metadata ownerId now s =
        (.ok (nextMemoryId s), t) ∧ Paired encode t := by
  obtain ⟨freshMemory, freshVector⟩ := nextMemoryId_fresh paired
  let memory : MemoryRow :=
    ⟨nextMemoryId s, runId, kind, scrubText content, metadata, now, ownerId⟩
  let row := vectorRow (nextMemoryId s) space vector
  have noMemory : s.memories.find memory.id = none := freshMemory
  have noVector : s.embeddings.find row.memoryId = none := freshVector
  let remembered : MemoryStore φ := { s with memories := (s.memories.insertOrIgnore memory).1 }
  have inserted : insertVector row remembered =
      (.ok (), { remembered with embeddings := s.embeddings.insert row noVector }) :=
    @insertVector_fresh φ remembered row noVector
  refine ⟨{ remembered with embeddings := s.embeddings.insert row noVector }, ?_, ?_⟩
  · unfold Memory.add
    rw [owned]
    refine atomically_of_ok ?_
    simp only [setMemories, run_bind_read, run_bind_write, encoded]
    rw [run_bind_ok (run_ofExcept _ _), run_bind_ok inserted]
    rfl
  · have stored : remembered.memories = s.memories.insert memory noMemory := by
      simp only [remembered, insertOrIgnore_fresh noMemory]
    intro e mem
    rcases (mem_insert noVector).mp mem with old | rfl
    · obtain ⟨m, found, same⟩ := paired e old
      refine ⟨m, ?_, same⟩
      rw [stored]
      exact find_insert_of_found noMemory found
    · refine ⟨memory, ?_, encoded⟩
      rw [stored, find_insert]
      exact if_pos rfl

theorem add_raised {s : MemoryStore φ} {space runId kind content metadata ownerId : String}
    {now : Instant}
    (refused : PgJobs.blank ownerId = true ∨ ∃ e, encode space (scrubText content) = .error e) :
    ∃ e, Memory.add encode scrubText space runId kind content metadata ownerId now s =
      (.error e, s) := by
  unfold Memory.add
  rw [run_require_bind]
  split
  next owned =>
    rcases refused with blank | ⟨e, encoded⟩
    · rw [blank] at owned
      cases owned
    · refine ⟨e, atomically_of_error (t := { s with memories := (s.memories.insertOrIgnore
        ⟨nextMemoryId s, runId, kind, scrubText content, metadata, now, ownerId⟩).1 }) ?_⟩
      simp only [setMemories, run_bind_read, run_bind_write, encoded]
      rfl
  next => exact ⟨_, rfl⟩

theorem replaceVectors_paired (rows : List (EmbeddingRow φ)) (s : MemoryStore φ)
    (paired : Paired encode s)
    (fits : ∀ row ∈ rows, ∃ m, s.memories.find row.memoryId = some m ∧
      encode row.spaceId m.content = .ok row.embedding) :
    ∃ t, replaceVectors rows s = (.ok (), t) ∧ Paired encode t := by
  induction rows generalizing s with
  | nil => exact ⟨s, rfl, paired⟩
  | cons row rest ih =>
    exact ih _ (paired_replaced paired (fits row mem_cons_self))
      (fun other later => fits other (mem_cons_of_mem _ later))

variable {space ownerId : String} {batch : List (Nat × String)} {ids : List Nat}

theorem encodeBatch_entry {rows : List (EmbeddingRow φ)}
    (encoded : encodeBatch encode space batch = .ok rows) :
    ∀ row ∈ rows, ∃ entry ∈ batch, row.memoryId = entry.1 ∧ row.spaceId = space ∧
      encode space entry.2 = .ok row.embedding := by
  induction batch generalizing rows with
  | nil =>
    cases encoded
    intro row mem
    cases mem
  | cons first rest ih =>
    obtain ⟨id, content⟩ := first
    obtain ⟨vector, here, more⟩ := except_bind_returned encoded
    obtain ⟨others, later, done⟩ := except_bind_returned more
    cases done
    intro row mem
    rcases mem_cons.mp mem with rfl | there
    · exact ⟨(id, content), mem_cons_self, rfl, rfl, here⟩
    · obtain ⟨entry, among, facts⟩ := ih later row there
      exact ⟨entry, mem_cons_of_mem _ among, facts⟩

theorem writeBatch_paired (paired : Paired encode s)
    (timely : ∀ rows, encodeBatch encode space batch = .ok rows → ∀ entry ∈ batch,
      ∃ m, s.memories.find entry.1 = some m ∧ encode space m.content = encode space entry.2) :
    Paired encode (Memory.writeBatch encode space batch s).2 := by
  unfold Memory.writeBatch
  cases encoded : encodeBatch encode space batch with
  | error e => exact paired
  | ok rows =>
    have fits : ∀ row ∈ rows, ∃ m, s.memories.find row.memoryId = some m ∧
        encode row.spaceId m.content = .ok row.embedding := by
      intro row mem
      obtain ⟨entry, among, sameId, sameSpace, vector⟩ := encodeBatch_entry encoded row mem
      obtain ⟨m, found, same⟩ := timely rows encoded entry among
      exact ⟨m, by rw [sameId]; exact found, by rw [sameSpace, same, vector]⟩
    obtain ⟨t, replaced, kept⟩ := replaceVectors_paired rows s paired fits
    have written : Txn.atomically (do
        replaceVectors rows
        return rows.length) s = (.ok rows.length, t) := by
      refine atomically_of_ok ?_
      rw [run_bind_ok replaced, run_pure]
    rw [run_bind_ok (run_ofExcept _ _), written]
    exact kept

theorem purgeOwner_paired (paired : Paired encode s) (ownerId : String) :
    Paired encode (Memory.purgeOwner ownerId s).2 ∧ (PgJobs.blank ownerId = false →
      ∀ m ∈ (Memory.purgeOwner ownerId s).2.memories, m.ownerId ≠ ownerId) := by
  unfold Memory.purgeOwner
  rw [run_require_bind]
  split
  next =>
    refine ⟨paired_dropped paired ?_ ?_, ?_⟩
    · intro e mem
      exact (mem_delete.mp mem).1
    · intro e mem m found
      obtain ⟨-, spared⟩ := mem_delete.mp mem
      have others : decide (m.ownerId = ownerId) = false := by
        refine decide_eq_false ?_
        intro own
        have listed := any_eq_false.mp spared m (mem_of_find found)
        rw [key_of_find found, own] at listed
        simp at listed
      show (s.memories.delete (fun m => decide (m.ownerId = ownerId))).find e.memoryId = some m
      rw [find_delete, found, Option.filter_some, others]
      rfl
    · intro _ m mem
      obtain ⟨-, others⟩ := mem_delete.mp mem
      exact of_decide_eq_false others
  next blank =>
    refine ⟨paired, ?_⟩
    intro owned
    rw [owned] at blank
    exact absurd rfl blank

/-- The deletes of one run, when its memories that have a vector are among the ids. -/
theorem deleteRun_paired (paired : Paired encode s) {runId : String}
    (covered : ∀ m ∈ s.memories, ofRun ownerId runId m = true →
      (s.embeddings.find m.id).isSome → m.id ∈ ids) :
    ∃ deleted t, deleteRun ownerId runId ids s = (.ok deleted, t) ∧ Paired encode t := by
  refine ⟨_, _, rfl, paired_dropped paired ?_ ?_⟩
  · intro e mem
    exact (mem_delete.mp mem).1
  · intro e mem m found
    obtain ⟨stored, spared⟩ := mem_delete.mp mem
    have others : ofRun ownerId runId m = false := by
      refine Bool.eq_false_iff.mpr ?_
      intro mine
      have keyed : m.id = e.memoryId := key_of_find found
      have vectored : (s.embeddings.find m.id).isSome := by
        rw [keyed, find_of_mem stored]
        rfl
      have listed := covered m (mem_of_find found) mine vectored
      rw [keyed] at listed
      simp [listed] at spared
    rw [find_delete, found, Option.filter_some, others]
    rfl

theorem deleteRunsFrom_paired (ownerId : String) (runIds : List String) (s : MemoryStore φ)
    (paired : Paired encode s) :
    ∃ deleted t, deleteRunsFrom ownerId runIds s = (.ok deleted, t) ∧ Paired encode t := by
  induction runIds generalizing s with
  | nil => exact ⟨0, s, rfl, paired⟩
  | cons runId rest ih =>
    -- Inside the transaction the ids are those of the memories it deletes.
    have covered : ∀ m ∈ s.memories, ofRun ownerId runId m = true →
        (s.embeddings.find m.id).isSome → m.id ∈ runIdsOf ownerId runId s :=
      fun m stored mine _ => mem_map_of_mem (mem_filter.mpr ⟨stored, mine⟩)
    obtain ⟨deleted, t, done, kept⟩ := deleteRun_paired paired covered
    obtain ⟨later, u, rest_done, last⟩ := ih t kept
    refine ⟨deleted + later, u, ?_, last⟩
    rw [deleteRunsFrom]
    simp only [run_bind_read]
    rw [run_bind_ok done, run_bind_ok rest_done, run_pure]

theorem deleteRuns_paired (paired : Paired encode s) {runIds : List String}
    (covered : ∀ first rest, runIds.eraseDups = first :: rest → ∀ m ∈ s.memories,
      ofRun ownerId first m = true → (s.embeddings.find m.id).isSome → m.id ∈ ids) :
    Paired encode (Memory.deleteRuns ownerId runIds ids s).2 := by
  unfold Memory.deleteRuns
  rw [run_require_bind]
  split
  next =>
    refine atomically_keeps paired ?_
    intro count t run
    cases runs : runIds.eraseDups with
    | nil =>
      rw [runs] at run
      cases run
      exact paired
    | cons first rest =>
      obtain ⟨deleted, u, done, kept⟩ := deleteRun_paired paired (covered first rest runs)
      obtain ⟨later, last, rest_done, final⟩ := deleteRunsFrom_paired ownerId rest u kept
      simp only [runs] at run
      rw [run_bind_ok done, run_bind_ok rest_done] at run
      cases run
      exact final
  next => exact paired

theorem call_store {α : Type} (p : Processes φ) (wrap : α → Value) (program : MemoryTxn φ α) :
    (p.call wrap program).2.store = (program p.store).2 := by
  unfold Processes.call Txn.answer
  rcases program p.store with ⟨answer, t⟩
  cases answer <;> rfl

theorem step_paired (p : Processes φ) (action : Action) (paired : Paired encode p.store)
    (timely : Timely encode ⟨p, action, (step encode scrubText p action).1,
      (step encode scrubText p action).2⟩) :
    Paired encode (step encode scrubText p action).2.store := by
  cases action with
  | add space runId kind content metadata ownerId now =>
    rw [step, call_store]
    cases owned : PgJobs.blank ownerId with
    | true =>
      obtain ⟨e, raised⟩ := @add_raised φ encode scrubText p.store space runId kind content metadata
        ownerId now (.inl owned)
      rw [raised]
      exact paired
    | false =>
      cases encoded : encode space (scrubText content) with
      | error refused =>
        obtain ⟨e, raised⟩ := @add_raised φ encode scrubText p.store space runId kind content
          metadata ownerId now (.inr ⟨refused, encoded⟩)
        rw [raised]
        exact paired
      | ok vector =>
        obtain ⟨t, added, kept⟩ := @add_returned φ encode scrubText p.store paired space runId kind
          content metadata ownerId now vector owned encoded
        rw [added]
        exact kept
  | readBatch n space batchSize =>
    rw [step]
    split <;> exact paired
  | writeBatch n =>
    rw [step]
    cases waiting : p.reindexing n with
    | none => exact paired
    | some round =>
      obtain ⟨space, batch⟩ := round
      rw [call_store]
      exact writeBatch_paired paired (fun rows encoded => timely space batch rows waiting encoded)
  | purgeOwner ownerId =>
    rw [step, call_store]
    exact (purgeOwner_paired paired ownerId).1
  | readRun n ownerId runIds =>
    exact paired
  | deleteRuns n =>
    rw [step]
    cases waiting : p.deleting n with
    | none => exact paired
    | some round =>
      obtain ⟨ownerId, runIds, ids⟩ := round
      rw [call_store]
      exact deleteRuns_paired paired (fun first rest runs =>
        timely ownerId runIds ids first rest waiting runs)

/-- An `add` whose owner is given and whose content has a vector returns the id it drew. -/
def Adds (encode : String → String → Except Exc (List φ)) (scrubText : String → String)
    (e : Event (Processes φ) Action (Except Exc Value)) : Prop :=
  ∀ space runId kind content metadata ownerId now vector,
    e.action = .add space runId kind content metadata ownerId now → PgJobs.blank ownerId = false →
      encode space (scrubText content) = .ok vector →
        e.answer = .ok (.id (nextMemoryId e.before.store))

/-- A purge leaves no vector of a memory of its owner. -/
def Purges (e : Event (Processes φ) Action (Except Exc Value)) : Prop :=
  ∀ ownerId, e.action = .purgeOwner ownerId → PgJobs.blank ownerId = false →
    ∀ v ∈ e.after.store.embeddings, ∃ m, e.after.store.memories.find v.memoryId = some m ∧
      m.ownerId ≠ ownerId

theorem step_adds (p : Processes φ) (action : Action) (paired : Paired encode p.store) :
    Adds encode scrubText ⟨p, action, (step encode scrubText p action).1,
      (step encode scrubText p action).2⟩ := by
  rintro space runId kind content metadata ownerId now vector rfl owned encoded
  obtain ⟨t, added, -⟩ := @add_returned φ encode scrubText p.store paired space runId kind content
    metadata ownerId now vector owned encoded
  simp only [step, Processes.call, answer_of_ok added]

theorem step_purges (p : Processes φ) (action : Action) (paired : Paired encode p.store) :
    Purges ⟨p, action, (step encode scrubText p action).1,
      (step encode scrubText p action).2⟩ := by
  rintro ownerId rfl owned v mem
  obtain ⟨kept, others⟩ := purgeOwner_paired paired ownerId
  have stores : (step encode scrubText p (.purgeOwner ownerId)).2.store =
      (Memory.purgeOwner ownerId p.store).2 := call_store _ _ _
  have left : v ∈ (step encode scrubText p (.purgeOwner ownerId)).2.store.embeddings := mem
  rw [stores] at left ⊢
  obtain ⟨m, found, -⟩ := kept v left
  exact ⟨m, found, others owned m (mem_of_find found)⟩

/-- In every run whose steps find what they read before still so: every vector belongs to a
stored memory and is the vector of its content, no vector of a purged owner is left, and no
`add` fails because of a vector that is there already. -/
theorem vectors_stay_paired (encode : String → String → Except Exc (List φ))
    (scrubText : String → String) (s : MemoryStore φ) (run : List Action)
    (start : Paired encode s)
    (timely : ∀ e ∈ history (step encode scrubText) ⟨s, fun _ => none, fun _ => none⟩ run,
      Timely encode e) :
    ∀ e ∈ history (step encode scrubText) ⟨s, fun _ => none, fun _ => none⟩ run,
      Paired encode e.after.store ∧ Adds encode scrubText e ∧ Purges e := by
  intro e member
  obtain ⟨before, after⟩ := (@invariant_of_meets (Processes φ) Action (Except Exc Value)
    (step encode scrubText) (fun p => Paired encode p.store) (Timely encode) step_paired _ start run
    timely).1 e member
  have here := step_of_mem member
  have shape : e = ⟨e.before, e.action, (step encode scrubText e.before e.action).1,
      (step encode scrubText e.before e.action).2⟩ := by rw [here]
  refine ⟨after, ?_, ?_⟩
  · rw [shape]
    exact step_adds e.before e.action before
  · rw [shape]
    exact step_purges e.before e.action before

/-- An encoder whose vector is the length of the text. -/
def measure (_ text : String) : Except Exc (List Nat) := .ok [text.length]

def emptyProcesses : Processes Nat := ⟨MemoryStore.empty Nat, fun _ => none, fun _ => none⟩

/-- Another process reads ada's memory for its own space; she is purged; the batch is written. -/
def lateBatch : List Action :=
  [.add "hash" "r1" "note" "likes tea" "\x7b\x7d" "ada" 0,
   .readBatch 0 "learned" 32,
   .purgeOwner "ada",
   .writeBatch 0,
   .add "hash" "r2" "note" "likes rye" "\x7b\x7d" "bob" 1]

/-- A memory added after `delete_runs` has read its ids goes, and its vector stays. -/
def lateRunMemory : List Action :=
  [.readRun 0 "ada" ["r1"], .add "hash" "r1" "note" "likes tea" "\x7b\x7d" "ada" 0, .deleteRuns 0]

theorem late_steps_orphan :
    (final (step measure id) emptyProcesses (lateBatch.take 4)).store.embeddings.rows =
        [⟨1, 1, [9], "learned"⟩] ∧
      (final (step measure id) emptyProcesses (lateBatch.take 4)).store.memories.rows = [] ∧
      ((history (step measure id) emptyProcesses lateBatch).map (fun e => e.answer)).getLast? =
        some (.error (.integrityError "UNIQUE constraint failed: memory_embeddings.memory_id")) ∧
      (final (step measure id) emptyProcesses lateRunMemory).store.embeddings.rows =
        [⟨1, 1, [9], "hash"⟩] ∧
      (final (step measure id) emptyProcesses lateRunMemory).store.memories.rows = [] := by
  decide +kernel

/-- Without the purge the batch is written in time. -/
def timelyBatch : List Action :=
  [.add "hash" "r1" "note" "likes tea" "\x7b\x7d" "ada" 0, .readBatch 0 "learned" 32, .writeBatch 0]

theorem timelyBatch_paired :
    (final (step measure id) emptyProcesses timelyBatch).store.embeddings.rows =
        [⟨1, 1, [9], "learned"⟩] ∧
      ∀ e ∈ history (step measure id) emptyProcesses timelyBatch,
        Paired measure e.after.store ∧ Adds measure id e ∧ Purges e := by
  refine ⟨by decide +kernel, vectors_stay_paired measure id (MemoryStore.empty Nat) timelyBatch
    nofun ?_⟩
  intro e member
  simp only [timelyBatch, history, mem_cons, not_mem_nil, or_false] at member
  rcases member with rfl | rfl | rfl
  · trivial
  · trivial
  · intro space batch rows waiting encoded entry among
    have read : (final (step measure id) emptyProcesses (timelyBatch.take 2)).reindexing 0 =
      some ("learned", [(1, "likes tea")]) := by decide +kernel
    cases read.symm.trans waiting
    obtain rfl := mem_singleton.mp among
    exact ⟨⟨1, "r1", "note", "likes tea", "\x7b\x7d", 0, "ada"⟩, by decide +kernel, rfl⟩

end Meemee.Guarantees.MemoryVectors
