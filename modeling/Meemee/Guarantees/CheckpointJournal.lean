import Meemee.Guarantees.JsonLoading
import Meemee.Library.History
import Meemee.Source.Checkpoints

/-!
# The journal of a run

Saves of any principals and runs come in any order. `Sound` is what every journal they lead to
satisfies: the sequences of a run count its rows, a key names one row, and a document is the
canonical text of the state it was saved from. `Outcome` lists what a save does to such a journal.
-/
namespace Meemee.Guarantees.CheckpointJournal
open Library Library.History Source Source.Checkpoints Library.Txn Library.Table Option List
open Guarantees.JsonLoading (Loadable loadable_sorted compactText_written compactStyle_readable
  loads_written sortKeys_idem)

variable {sha256 : String → String} {s : Journal} {principal runId : String}

/-- A save of a JSON state, without an idempotency key or under one that is not empty. -/
structure JsonSave extends SaveCall where
  loadable : Loadable state
  keyed : idempotencyKey ≠ some ""

/-- The rows of a run, in the order they were inserted. -/
def rowsOf (s : Journal) (principal runId : String) : List CheckpointRow :=
  s.select (ofRun principal runId)

/-- The document of a row, and the value it was made of. -/
structure Holds (sha256 : String → String) (row : CheckpointRow) (value : Json) : Prop where
  document : canonical value = .ok row.state
  digest : row.stateSha256 = sha256 row.state
  loadable : Loadable value

structure Sound (sha256 : String → String) (s : Journal) : Prop where
  counted : ∀ principal runId, (rowsOf s principal runId).map CheckpointRow.sequence =
    List.range' 1 (rowsOf s principal runId).length
  keyed : ∀ a ∈ s, ∀ b ∈ s, a.principal = b.principal → a.runId = b.runId →
    a.idempotencyKey = b.idempotencyKey → a.idempotencyKey ≠ none → a = b
  written : ∀ row ∈ s, ∃ value, Holds sha256 row value
  labelled : ∀ row ∈ s, [row.principal, row.runId, row.goalId, row.phase].all
    (fun text => !PgJobs.blank text) = true

variable {row : CheckpointRow} {value : Json} {document key : String} {c : JsonSave}

theorem mem_rowsOf :
    row ∈ rowsOf s principal runId ↔ row ∈ s ∧ row.principal = principal ∧ row.runId = runId := by
  simp [rowsOf, Table.select, mem_rows, ofRun]

theorem empty_sound : Sound sha256 (Table.empty : Journal) where
  counted _ _ := rfl
  keyed _ mem := by cases mem
  written _ mem := by cases mem
  labelled _ mem := by cases mem

theorem canonical_loads (loadable : Loadable value) (written : canonical value = .ok document) :
    JsonLoads.loads document = some value.sortKeys :=
  loads_written compactStyle_readable (loadable_sorted value loadable)
    (compactText_written _ _ (loadable_sorted value loadable) written)

theorem checkpoint_loads (holds : Holds sha256 row value) :
    row.checkpoint sha256 = .ok ⟨row, value.sortKeys⟩ := by
  rw [CheckpointRow.checkpoint, if_pos holds.digest.symm, canonical_loads holds.loadable holds.document]

theorem canonical_injective {v w : Json} (loadable : Loadable v) (loadable' : Loadable w)
    (written : canonical v = .ok document) (written' : canonical w = .ok document) :
    v.sortKeys = w.sortKeys := by
  have read := canonical_loads loadable written
  rw [canonical_loads loadable' written'] at read
  exact (Option.some.inj read).symm

/-- Of rows in the order of their sequences, the one with the greatest comes last. -/
theorem latest_last : ∀ (rows : List CheckpointRow) (first : Nat),
    rows.map CheckpointRow.sequence = List.range' first rows.length →
      Table.leastOf (fun a b => decide (b.sequence < a.sequence)) rows = rows.getLast?
  | [], _, _ => rfl
  | [row], _, _ => rfl
  | row :: next :: rest, first, counted => by
    rw [map_cons, length_cons, range'_succ, List.cons.injEq] at counted
    have later := latest_last (next :: rest) (first + 1) counted.2
    have filled : next :: rest ≠ [] := cons_ne_nil _ _
    have greater : ((next :: rest).getLast filled).sequence ∈ (next :: rest).map CheckpointRow.sequence :=
      mem_map_of_mem (getLast_mem filled)
    rw [counted.2, mem_range'_1] at greater
    have more : row.sequence < ((next :: rest).getLast filled).sequence := by
      omega
    rw [Table.leastOf, later, List.getLast?_eq_getLast_of_ne_nil filled]
    simp only [more, decide_true, if_true]
    rw [List.getLast?_cons_cons, List.getLast?_eq_getLast_of_ne_nil filled]

theorem latestRow_last (sound : Sound sha256 s) :
    latestRow s principal runId = (rowsOf s principal runId).getLast? :=
  latest_last _ 1 (sound.counted principal runId)

theorem current_count (sound : Sound sha256 s) :
    currentSequence s principal runId = (rowsOf s principal runId).length := by
  have counted := sound.counted principal runId
  rw [currentSequence, latestRow_last sound]
  cases rows : rowsOf s principal runId with
  | nil => rfl
  | cons row rest =>
    rw [rows] at counted
    have last : ((row :: rest).map CheckpointRow.sequence).getLast? =
        (List.range' 1 (row :: rest).length).getLast? := by rw [counted]
    rw [List.getLast?_map] at last
    rw [last, List.getLast?_range']
    simp

theorem sequence_bounds (sound : Sound sha256 s) (mem : row ∈ rowsOf s principal runId) :
    1 ≤ row.sequence ∧ row.sequence ≤ (rowsOf s principal runId).length := by
  have listed := mem_map_of_mem (f := CheckpointRow.sequence) mem
  rw [sound.counted, mem_range'_1] at listed
  omega

theorem keyedRow_stored (sound : Sound sha256 s) (stored : row ∈ s)
    (keyed : row.idempotencyKey = some key) (nonempty : key ≠ "") :
    keyedRow s row.principal row.runId (some key) = some row := by
  have found : row ∈ s.select (fun other => ofRun row.principal row.runId other &&
      decide (other.idempotencyKey = some key)) :=
    mem_filter.mpr ⟨stored, by simp [ofRun, keyed]⟩
  have given : (some key).filter (fun k => decide (k ≠ "")) = some key := by
    rw [filter_some, if_pos (by simpa using nonempty)]
  rw [keyedRow, given, bind_some]
  cases rows : s.select (fun other => ofRun row.principal row.runId other &&
      decide (other.idempotencyKey = some key)) with
  | nil => rw [rows] at found; cases found
  | cons other rest =>
    have here : other ∈ s.select (fun other => ofRun row.principal row.runId other &&
        decide (other.idempotencyKey = some key)) := by rw [rows]; exact mem_cons_self
    obtain ⟨mem, matched⟩ := mem_filter.mp here
    simp only [ofRun, Bool.and_eq_true, decide_eq_true_eq] at matched
    rw [List.head?_cons, sound.keyed other mem row stored matched.1.1 matched.1.2
      (matched.2.trans keyed.symm) (by rw [matched.2]; exact some_ne_none key)]

theorem keyedRow_cases (sound : Sound sha256 s) (c : JsonSave) :
    (∃ row key, keyedRow s c.principal c.runId c.idempotencyKey = some row ∧ row ∈ s ∧
      row.principal = c.principal ∧ row.runId = c.runId ∧ c.idempotencyKey = some key ∧
      row.idempotencyKey = some key) ∨
    keyedRow s c.principal c.runId c.idempotencyKey = none ∧
      ∀ row ∈ s, row.principal = c.principal → row.runId = c.runId →
        row.idempotencyKey = c.idempotencyKey → c.idempotencyKey = none := by
  cases given : c.idempotencyKey with
  | none => exact .inr ⟨rfl, fun _ _ _ _ _ => rfl⟩
  | some key =>
    have nonempty : key ≠ "" := fun empty => c.keyed (by rw [given, empty])
    by_cases used : ∃ row ∈ s, row.principal = c.principal ∧ row.runId = c.runId ∧
        row.idempotencyKey = some key
    · obtain ⟨row, stored, same, sameRun, keyed⟩ := used
      have found := keyedRow_stored sound stored keyed nonempty
      rw [same, sameRun] at found
      exact .inl ⟨row, key, found, stored, same, sameRun, rfl, keyed⟩
    · refine .inr ⟨?_, ?_⟩
      · cases found : keyedRow s c.principal c.runId (some key) with
        | none => rfl
        | some row =>
          obtain ⟨k, given, selected⟩ := bind_eq_some_iff.mp found
          obtain ⟨here, -⟩ := filter_eq_some_iff.mp given
          cases here
          obtain ⟨mem, matched⟩ := mem_filter.mp (mem_of_head? selected)
          simp only [ofRun, Bool.and_eq_true, decide_eq_true_eq] at matched
          exact absurd ⟨row, mem, matched.1.1, matched.1.2, matched.2⟩ used
      · intro row mem same sameRun keyed
        exact absurd ⟨row, mem, same, sameRun, keyed⟩ used

/-- The row a save appends. -/
def appended (sha256 : String → String) (s : Journal) (c : SaveCall) (document : String) :
    CheckpointRow :=
  newRow sha256 c document ((rowsOf s c.principal c.runId).length + 1)

/-- A save changes nothing, when it raises or replays, or appends one row to its run. -/
inductive Outcome (sha256 : String → String) (s : Journal) (c : SaveCall) :
    Except CheckpointExc Checkpoint → Journal → Prop where
  | refused (e : CheckpointExc) : Outcome sha256 s c (.error e) s
  | replayed {row : CheckpointRow} {value : Json} {document key : String} (stored : row ∈ s)
      (same : row.principal = c.principal) (sameRun : row.runId = c.runId)
      (given : c.idempotencyKey = some key) (keyed : row.idempotencyKey = some key)
      (holds : Holds sha256 row value) (written : canonical c.state = .ok document)
      (content : sameContent sha256 c document row = true) :
      Outcome sha256 s c (.ok ⟨row, value.sortKeys⟩) s
  | created {document : String} (written : canonical c.state = .ok document)
      (labelled : named c = true)
      (unused : ∀ row ∈ s, row.principal = c.principal → row.runId = c.runId →
        row.idempotencyKey = c.idempotencyKey → c.idempotencyKey = none)
      (expected : ∀ e, c.expectedSequence = some e → e = (rowsOf s c.principal c.runId).length)
      (fresh : s.find (appended sha256 s c document).id = none) :
      Outcome sha256 s c (.ok ⟨appended sha256 s c document, c.state.sortKeys⟩)
        (s.insert (appended sha256 s c document) fresh)

theorem fits_appended (sound : Sound sha256 s) (c : SaveCall) (document : String)
    (unused : ∀ row ∈ s, row.principal = c.principal → row.runId = c.runId →
      row.idempotencyKey = c.idempotencyKey → c.idempotencyKey = none) :
    fits s (appended sha256 s c document) = (s.find (appended sha256 s c document).id).isNone := by
  unfold fits
  have apart : ∀ other ∈ s, (ofRun (appended sha256 s c document).principal
      (appended sha256 s c document).runId other &&
      (decide (other.sequence = (appended sha256 s c document).sequence) ||
        ((appended sha256 s c document).idempotencyKey.isSome &&
          decide (other.idempotencyKey = (appended sha256 s c document).idempotencyKey)))) = false := by
    intro other mem
    by_contra conflict
    rw [Bool.not_eq_false] at conflict
    simp only [ofRun, Bool.and_eq_true, Bool.or_eq_true, decide_eq_true_eq] at conflict
    obtain ⟨⟨same, sameRun⟩, clash | ⟨given, keyed⟩⟩ := conflict
    · have bounds := sequence_bounds sound (mem_rowsOf.mpr ⟨mem, same, sameRun⟩)
      rw [clash] at bounds
      exact absurd bounds.2 (Nat.not_succ_le_self _)
    · have keyless : (appended sha256 s c document).idempotencyKey = none :=
        unused other mem same sameRun keyed
      rw [keyless] at given
      cases given
  rw [select_isEmpty.mpr apart, Bool.and_true]

theorem rowsOf_insert {row : CheckpointRow} (fresh : s.find row.id = none) :
    rowsOf (s.insert row fresh) principal runId =
      rowsOf s principal runId ++ if ofRun principal runId row then [row] else [] :=
  select_insert fresh _

section Appended

variable {c : JsonSave} {document : String}

theorem appended_holds (written : canonical c.state = .ok document) :
    Holds sha256 (appended sha256 s c.toSaveCall document) c.state := ⟨written, rfl, c.loadable⟩

theorem sound_appended (sound : Sound sha256 s) (written : canonical c.state = .ok document)
    (labelled : named c.toSaveCall = true)
    (unused : ∀ row ∈ s, row.principal = c.principal → row.runId = c.runId →
      row.idempotencyKey = c.idempotencyKey → c.idempotencyKey = none)
    (fresh : s.find (appended sha256 s c.toSaveCall document).id = none) :
    Sound sha256 (s.insert (appended sha256 s c.toSaveCall document) fresh) where
  counted principal runId := by
    rw [rowsOf_insert]
    split
    next here =>
      simp only [ofRun, decide_eq_true_eq] at here
      obtain ⟨rfl, rfl⟩ := here
      rw [map_append, sound.counted, length_append, length_singleton,
        range'_1_concat, Nat.add_comm 1]
      rfl
    next => rw [append_nil, sound.counted]
  keyed := by
    intro a mem b member' same sameRun sameKey given
    rw [mem_insert] at mem member'
    rcases mem with old | rfl
    · rcases member' with old' | rfl
      · exact sound.keyed a old b old' same sameRun sameKey given
      · exact absurd (sameKey.trans (unused a old same sameRun sameKey)) given
    · rcases member' with old' | rfl
      · exact absurd (unused b old' same.symm sameRun.symm sameKey.symm) given
      · rfl
  written := by
    intro row mem
    rcases (mem_insert fresh).mp mem with old | rfl
    · exact sound.written row old
    · exact ⟨c.state, appended_holds written⟩
  labelled := by
    intro row mem
    rcases (mem_insert fresh).mp mem with old | rfl
    · exact sound.labelled row old
    · exact labelled

theorem get_appended (sound : Sound sha256 s) (written : canonical c.state = .ok document)
    (fresh : s.find (appended sha256 s c.toSaveCall document).id = none) :
    Checkpoints.get sha256 (s.insert (appended sha256 s c.toSaveCall document) fresh) c.principal c.runId
      ((rowsOf s c.principal c.runId).length + 1) =
      .ok ⟨appended sha256 s c.toSaveCall document, c.state.sortKeys⟩ := by
  have older : s.select (fun row => ofRun c.principal c.runId row &&
      decide (row.sequence = (rowsOf s c.principal c.runId).length + 1)) = [] := by
    apply select_none
    intro row mem
    by_contra matched
    rw [Bool.not_eq_false] at matched
    simp only [ofRun, Bool.and_eq_true, decide_eq_true_eq] at matched
    obtain ⟨⟨same, sameRun⟩, here⟩ := matched
    have bounds := sequence_bounds sound (mem_rowsOf.mpr ⟨mem, same, sameRun⟩)
    rw [here] at bounds
    exact absurd bounds.2 (Nat.not_succ_le_self _)
  have here : (ofRun c.principal c.runId (appended sha256 s c.toSaveCall document) &&
      decide ((appended sha256 s c.toSaveCall document).sequence =
        (rowsOf s c.principal c.runId).length + 1)) = true := by
    simp [ofRun, appended, newRow]
  rw [Checkpoints.get, select_insert, older, here]
  exact checkpoint_loads (appended_holds written)

end Appended

theorem append_run (sound : Sound sha256 s) (c : SaveCall) (document : String)
    (unused : ∀ row ∈ s, row.principal = c.principal → row.runId = c.runId →
      row.idempotencyKey = c.idempotencyKey → c.idempotencyKey = none) :
    (∃ e, append sha256 c document s = (.error e, s)) ∨
    ∃ fresh : s.find (appended sha256 s c document).id = none,
      (∀ e, c.expectedSequence = some e → e = (rowsOf s c.principal c.runId).length) ∧
      append sha256 c document s = (.ok ((rowsOf s c.principal c.runId).length + 1),
        s.insert (appended sha256 s c document) fresh) := by
  have free := fits_appended sound c document unused
  unfold appended at free ⊢
  unfold append
  rw [run_bind_read, current_count sound, run_require_bind]
  split
  next expected =>
    simp only [run_bind_read, free, run_require_bind]
    split
    next fresh =>
      rw [isNone_iff_eq_none] at fresh
      refine .inr ⟨fresh, ?_, ?_⟩
      · intro e given
        rw [given, all_some, decide_eq_true_eq] at expected
        exact expected
      · rw [run_bind_write, insertOrIgnore_fresh fresh]
        rfl
    next => exact .inl ⟨_, rfl⟩
  next => exact .inl ⟨_, rfl⟩

theorem save_document (c : SaveCall) :
    (∃ e, save sha256 c s = (.error e, s)) ∨
    ∃ document, named c = true ∧ canonical c.state = .ok document := by
  unfold save
  rw [run_require_bind]
  split
  next labelled =>
    cases written : canonical c.state with
    | error e => exact .inl ⟨_, rfl⟩
    | ok document => exact .inr ⟨document, labelled, rfl⟩
  next => exact .inl ⟨_, rfl⟩

section Committed

variable {c : SaveCall} {document : String} {t : Journal}

theorem save_of_error (labelled : named c = true) (written : canonical c.state = .ok document)
    {e : CheckpointExc} (committed : commit sha256 c document s = (.error e, t)) :
    save sha256 c s = (.error e, s) := by
  unfold save
  rw [run_require_bind, if_pos labelled, written]
  exact (run_bind_ok rfl).trans (run_bind_error (atomically_of_error committed))

theorem save_of_replay (labelled : named c = true) (written : canonical c.state = .ok document)
    {checkpoint : Checkpoint} (committed : commit sha256 c document s = (.ok (.inl checkpoint), t)) :
    save sha256 c s = (.ok checkpoint, t) := by
  unfold save
  rw [run_require_bind, if_pos labelled, written]
  exact run_bind_ok (atomically_of_ok committed)

theorem save_of_append (labelled : named c = true) (written : canonical c.state = .ok document)
    {n : Nat} (committed : commit sha256 c document s = (.ok (.inr n), t)) {checkpoint : Checkpoint}
    (read : Checkpoints.get sha256 t c.principal c.runId n = .ok checkpoint) :
    save sha256 c s = (.ok checkpoint, t) := by
  unfold save
  rw [run_require_bind, if_pos labelled, written]
  refine (run_bind_ok (atomically_of_ok committed)).trans ?_
  simp only [run_bind_read, read]
  rfl

end Committed

theorem commit_keyed {c : SaveCall} {document : String} {row : CheckpointRow} {value : Json}
    (found : keyedRow s c.principal c.runId c.idempotencyKey = some row)
    (holds : Holds sha256 row value) : commit sha256 c document s =
      if sameContent sha256 c document row then (.ok (.inl ⟨row, value.sortKeys⟩), s)
      else (.error (.checkpointConflict "idempotency key was used for different checkpoint content"), s) := by
  unfold commit
  rw [run_bind_read, found]
  simp only [run_require_bind, checkpoint_loads holds]
  rfl

theorem commit_unkeyed {c : SaveCall} {document : String}
    (found : keyedRow s c.principal c.runId c.idempotencyKey = none) :
    commit sha256 c document s = (append sha256 c document >>= fun n => pure (.inr n)) s := by
  unfold commit
  rw [run_bind_read, found]

theorem save_outcome (sound : Sound sha256 s) (c : JsonSave) : Outcome sha256 s c.toSaveCall
    (save sha256 c.toSaveCall s).1 (save sha256 c.toSaveCall s).2 := by
  rcases @save_document sha256 s c.toSaveCall with ⟨e, refused⟩ | ⟨document, labelled, written⟩
  · rw [refused]
    exact .refused e
  rcases keyedRow_cases sound c with
    ⟨row, key, found, stored, same, sameRun, given, keyed⟩ | ⟨found, unused⟩
  · obtain ⟨value, holds⟩ := sound.written row stored
    have committed := @commit_keyed _ _ _ document _ _ found holds
    split at committed
    next content =>
      rw [save_of_replay labelled written committed]
      exact .replayed stored same sameRun given keyed holds written content
    next =>
      rw [save_of_error labelled written committed]
      exact .refused _
  · have committed := @commit_unkeyed sha256 _ _ document found
    rcases append_run sound c.toSaveCall document unused with ⟨e, refused⟩ | ⟨fresh, expected, run⟩
    · rw [run_bind_error refused] at committed
      rw [save_of_error labelled written committed]
      exact .refused e
    · rw [run_bind_ok run] at committed
      rw [save_of_append labelled written committed (get_appended sound written fresh)]
      exact .created written labelled unused expected fresh

theorem outcome_sound (sound : Sound sha256 s) {answer : Except CheckpointExc Checkpoint}
    {t : Journal} (outcome : Outcome sha256 s c.toSaveCall answer t) : Sound sha256 t := by
  cases outcome with
  | refused e => exact sound
  | replayed => exact sound
  | created written labelled unused expected fresh =>
    exact sound_appended sound written labelled unused fresh

/-- One save of a run of saves. -/
def step (sha256 : String → String) (s : Journal) (c : JsonSave) :
    Except CheckpointExc Checkpoint × Journal := save sha256 c.toSaveCall s

abbrev SaveEvent := Event Journal JsonSave (Except CheckpointExc Checkpoint)

theorem step_sound (s : Journal) (c : JsonSave) (sound : Sound sha256 s) :
    Sound sha256 (step sha256 s c).2 := outcome_sound sound (save_outcome sound c)

/-- The save stored a checkpoint. -/
def creates (e : SaveEvent) : Bool := decide (e.before.rows.length < e.after.rows.length)

/-- A save of a run that stored a checkpoint. -/
def createsIn (principal runId : String) (e : SaveEvent) : Bool :=
  creates e && decide (e.action.principal = principal ∧ e.action.runId = runId)

theorem length_insert (fresh : s.find row.id = none) :
    (s.insert row fresh).rows.length = s.rows.length + 1 := by
  simp [Table.insert]

/-- An event of a sound journal leaves it alone, or appends a row and answers with it. -/
theorem event_cases {e : SaveEvent} (sound : Sound sha256 e.before)
    (stepped : step sha256 e.before e.action = (e.answer, e.after)) :
    (creates e = false ∧ e.after = e.before) ∨
    ∃ document, ∃ fresh : e.before.find (appended sha256 e.before e.action.toSaveCall document).id = none,
      creates e = true ∧ canonical e.action.state = .ok document ∧
      (∀ n, e.action.expectedSequence = some n →
        n = (rowsOf e.before e.action.principal e.action.runId).length) ∧
      e.answer = .ok ⟨appended sha256 e.before e.action.toSaveCall document, e.action.state.sortKeys⟩ ∧
      e.after = e.before.insert (appended sha256 e.before e.action.toSaveCall document) fresh := by
  obtain ⟨before, action, answer, after⟩ := e
  have outcome : Outcome sha256 before action.toSaveCall (step sha256 before action).1
      (step sha256 before action).2 := save_outcome sound action
  rw [show step sha256 before action = (answer, after) from stepped] at outcome
  dsimp only at outcome ⊢
  cases outcome with
  | refused => exact .inl ⟨decide_eq_false (Nat.lt_irrefl _), rfl⟩
  | replayed => exact .inl ⟨decide_eq_false (Nat.lt_irrefl _), rfl⟩
  | created written labelled unused expected fresh =>
    refine .inr ⟨_, fresh, ?_, written, expected, rfl, rfl⟩
    rw [creates, decide_eq_true_eq, length_insert]
    exact Nat.lt_succ_self _

theorem rowsOf_step (sound : Sound sha256 s) (c : JsonSave) (principal runId : String) :
    (createsIn principal runId ⟨s, c, (step sha256 s c).1, (step sha256 s c).2⟩ = false ∧
      rowsOf (step sha256 s c).2 principal runId = rowsOf s principal runId) ∨
    createsIn principal runId ⟨s, c, (step sha256 s c).1, (step sha256 s c).2⟩ = true ∧
      (rowsOf (step sha256 s c).2 principal runId).length = (rowsOf s principal runId).length + 1 ∧
      ∀ n, c.expectedSequence = some n → n = (rowsOf s principal runId).length := by
  rcases event_cases (e := ⟨s, c, (step sha256 s c).1, (step sha256 s c).2⟩) sound rfl with
    ⟨idle, same⟩ | ⟨document, fresh, active, -, expected, -, after⟩
  · refine .inl ⟨?_, by rw [show (step sha256 s c).2 = s from same]⟩
    rw [createsIn, idle, Bool.false_and]
  · have rows := @rowsOf_insert _ principal runId _ fresh
    rw [← after] at rows
    rw [createsIn, active]
    by_cases here : c.principal = principal ∧ c.runId = runId
    · obtain ⟨rfl, rfl⟩ := here
      refine .inr ⟨by simp, ?_, expected⟩
      have matched : ofRun c.principal c.runId (appended sha256 s c.toSaveCall document) = true := by
        simp [ofRun, appended, newRow]
      rw [if_pos matched] at rows
      exact (congrArg List.length rows).trans (length_append.trans rfl)
    · refine .inl ⟨decide_eq_false here, ?_⟩
      have unmatched : ofRun principal runId (appended sha256 s c.toSaveCall document) = false :=
        decide_eq_false here
      rw [unmatched, if_neg Bool.false_ne_true, append_nil] at rows
      exact rows

/-- A save under the key of a row answers with it when the content is the same, or raises. -/
theorem save_keyed (sound : Sound sha256 s) (stored : row ∈ s) (same : row.principal = c.principal)
    (sameRun : row.runId = c.runId) (given : c.idempotencyKey = some key)
    (keyed : row.idempotencyKey = some key) (holds : Holds sha256 row value)
    (labelled : named c.toSaveCall = true) (written : canonical c.state = .ok document) :
    step sha256 s c =
      if sameContent sha256 c.toSaveCall document row then (.ok ⟨row, value.sortKeys⟩, s)
      else (.error (.checkpointConflict "idempotency key was used for different checkpoint content"), s) := by
  have nonempty : key ≠ "" := fun empty => c.keyed (by rw [given, empty])
  have found := keyedRow_stored sound stored keyed nonempty
  rw [same, sameRun, ← given] at found
  have committed := @commit_keyed _ _ _ document _ _ found holds
  unfold step
  split at committed
  next content => rw [save_of_replay labelled written committed, if_pos content]
  next content => rw [save_of_error labelled written committed, if_neg content]

theorem member_step (sound : Sound sha256 s) (c : JsonSave) (stored : row ∈ s) :
    row ∈ (step sha256 s c).2 := by
  rcases event_cases (e := ⟨s, c, (step sha256 s c).1, (step sha256 s c).2⟩) sound rfl with
    ⟨-, same⟩ | ⟨document, fresh, -, -, -, -, after⟩
  · rw [show (step sha256 s c).2 = s from same]
    exact stored
  · rw [show (step sha256 s c).2 = _ from after, mem_insert]
    exact .inl stored

/-- The saves of a run, from an empty journal. -/
def run (sha256 : String → String) (calls : List JsonSave) : List SaveEvent :=
  history (step sha256) Table.empty calls

/-- The journal a run of saves leads to. -/
def reached (sha256 : String → String) (calls : List JsonSave) : Journal :=
  final (step sha256) Table.empty calls

/-- SHA-256 tells the documents of the saves of a run apart. -/
def NoCollision (sha256 : String → String) (calls : List JsonSave) : Prop :=
  ∀ c ∈ calls, ∀ d ∈ calls, ∀ x y, canonical c.state = .ok x → canonical d.state = .ok y →
    sha256 x = sha256 y → x = y

/-- Two saves of one goal, phase and state; the order of an object's keys is no part of it. -/
def SameRequest (c d : JsonSave) : Prop :=
  c.goalId = d.goalId ∧ c.phase = d.phase ∧ c.state.sortKeys = d.state.sortKeys

variable {calls : List JsonSave} {e e' : SaveEvent}

theorem journal_sound (mem : e ∈ run sha256 calls) :
    Sound sha256 e.before ∧ Sound sha256 e.after :=
  (invariant step_sound empty_sound calls).1 e mem

theorem reached_sound : Sound sha256 (reached sha256 calls) :=
  final_invariant step_sound empty_sound calls

/-- A save under an earlier row's key answers alike exactly when the content is the same. -/
theorem second_save (sound : Sound sha256 s) {d : JsonSave} (stored : row ∈ s) {before : Journal}
    (appendedRow : row = appended sha256 before c.toSaveCall document)
    (written : canonical c.state = .ok document) (given : c.idempotencyKey = some key)
    (again : d.idempotencyKey = some key) (same : d.principal = c.principal)
    (sameRun : d.runId = c.runId)
    (apart : ∀ x, canonical d.state = .ok x → sha256 x = sha256 document → x = document) :
    (SameRequest c d → step sha256 s d = (.ok ⟨row, c.state.sortKeys⟩, s)) ∧
      (¬ SameRequest c d → ∃ e, step sha256 s d = (.error e, s)) := by
  have holds : Holds sha256 row c.state := by
    rw [appendedRow]
    exact appended_holds written
  have keyed : row.idempotencyKey = some key := by rw [appendedRow]; exact given
  have here : row.principal = d.principal := by rw [appendedRow]; exact same.symm
  have hereRun : row.runId = d.runId := by rw [appendedRow]; exact sameRun.symm
  have goal : row.goalId = c.goalId := by rw [appendedRow]; rfl
  have phase : row.phase = c.phase := by rw [appendedRow]; rfl
  have digest : row.stateSha256 = sha256 document := by rw [appendedRow]; rfl
  constructor
  · rintro ⟨sameGoal, samePhase, sameState⟩
    have labels := sound.labelled row stored
    rw [here, hereRun, goal, phase, sameGoal, samePhase] at labels
    have rewritten : canonical d.state = .ok document := by
      rw [canonical, ← sameState]
      exact written
    rw [save_keyed sound stored here hereRun again keyed holds labels rewritten]
    simp [sameContent, goal, phase, digest, sameGoal, samePhase]
  · intro different
    rcases @save_document sha256 s d.toSaveCall with refused | ⟨other, labelled, rewritten⟩
    · exact refused
    · rw [save_keyed sound stored here hereRun again keyed holds labelled rewritten, if_neg]
      · exact ⟨_, rfl⟩
      intro content
      simp only [sameContent, goal, phase, digest, decide_eq_true_eq] at content
      obtain ⟨sameGoal, samePhase, sameDigest⟩ := content
      have sameDocument := apart other rewritten sameDigest.symm
      rw [sameDocument] at rewritten
      exact different ⟨sameGoal, samePhase,
        canonical_injective c.loadable d.loadable written rewritten⟩

/-- A save under an earlier key answers alike when the content is the same, or raises. -/
theorem replayed_or_raised (apart : NoCollision sha256 calls) {pre mid post : List SaveEvent}
    (split : run sha256 calls = pre ++ e :: (mid ++ e' :: post)) (stored : creates e = true)
    (given : e.action.idempotencyKey = some key) (again : e'.action.idempotencyKey = some key)
    (same : e'.action.principal = e.action.principal) (sameRun : e'.action.runId = e.action.runId) :
    (SameRequest e.action e'.action → e'.answer = e.answer) ∧
      (¬ SameRequest e.action e'.action → ∃ x, e'.answer = .error x) ∧ e'.after = e'.before := by
  have mem : e ∈ run sha256 calls := by simp [split]
  have member' : e' ∈ run sha256 calls := by simp [split]
  rcases event_cases (journal_sound mem).1 (step_of_mem mem) with
    ⟨idle, -⟩ | ⟨document, fresh, -, written, -, answered, appendedTo⟩
  · rw [idle] at stored
    cases stored
  -- the row of the first save is still there when the second one comes
  obtain ⟨sound, kept⟩ : Sound sha256 e'.before ∧
      appended sha256 e.before e.action.toSaveCall document ∈ e'.before := by
    have start : Sound sha256 e.after ∧
        appended sha256 e.before e.action.toSaveCall document ∈ e.after := by
      refine ⟨(journal_sound mem).2, ?_⟩
      rw [appendedTo, mem_insert]
      exact .inr rfl
    rcases @holds_between _ _ _ _ (fun s => Sound sha256 s ∧
        appended sha256 e.before e.action.toSaveCall document ∈ s) (fun _ => False)
        (fun s c both => .inl ⟨step_sound s c both.1, member_step both.1 c both.2⟩)
        _ _ _ _ _ _ _ split start with kept | ⟨_, _, absurd⟩
    · exact kept
    · exact absurd.elim
  have stepped := step_of_mem member'
  obtain ⟨replays, raises⟩ := second_save sound kept rfl written given again same sameRun
    (fun x other => apart _ (action_of_mem member') _ (action_of_mem mem) x document other written)
  by_cases content : SameRequest e.action e'.action
  · rw [replays content, Prod.mk.injEq] at stepped
    exact ⟨fun _ => stepped.1.symm.trans answered.symm, fun different => absurd content different,
      stepped.2.symm⟩
  · obtain ⟨x, raised⟩ := raises content
    rw [raised, Prod.mk.injEq] at stepped
    exact ⟨fun same => absurd same content, fun _ => ⟨x, stepped.1.symm⟩, stepped.2.symm⟩

theorem raises_clean (mem : e ∈ run sha256 calls) {x : CheckpointExc} (raised : e.answer = .error x) :
    e.after = e.before := by
  rcases event_cases (journal_sound mem).1 (step_of_mem mem) with
    ⟨-, same⟩ | ⟨_, _, -, -, -, answered, -⟩
  · exact same
  · rw [raised] at answered
    cases answered

/-- A save of a run that expects a sequence, and stored a checkpoint. -/
def createsExpecting (principal runId : String) (n : Int) (e : SaveEvent) : Bool :=
  createsIn principal runId e && decide (e.action.expectedSequence = some n)

/-- Of the saves of a run that expect one sequence, at most one stores a checkpoint. -/
theorem expected_once (sha256 : String → String) (calls : List JsonSave) (principal runId : String)
    (n : Int) : (run sha256 calls).countP (createsExpecting principal runId n) ≤ 1 := by
  apply @count_le_one_within _ _ _ _ (Sound sha256) (fun s => n < (rowsOf s principal runId).length)
    (createsExpecting principal runId n) step_sound
  · intro s c sound longer
    rcases rowsOf_step sound c principal runId with ⟨-, same⟩ | ⟨-, grown, -⟩
    · rw [same]
      exact longer
    · omega
  · intro s c sound longer
    rcases rowsOf_step sound c principal runId with ⟨idle, -⟩ | ⟨-, -, expected⟩
    · rw [createsExpecting, idle, Bool.false_and]
    · refine Bool.and_eq_false_imp.mpr (fun _ => decide_eq_false ?_)
      intro given
      have current := expected n given
      omega
  · intro s c sound here
    rw [createsExpecting, Bool.and_eq_true, decide_eq_true_eq] at here
    rcases rowsOf_step sound c principal runId with ⟨idle, -⟩ | ⟨-, grown, expected⟩
    · rw [idle] at here
      cases here.1
    · have current := expected n here.2
      omega
  · exact empty_sound

theorem resume_last (sound : Sound sha256 s) (last : (rowsOf s principal runId).getLast? = some row)
    (holds : Holds sha256 row value) :
    resume sha256 s principal runId =
      .ok ⟨runId, row.goalId, row.sequence + 1, row.phase, value.sortKeys, row.id⟩ := by
  rw [resume, latestRow_last sound, last]
  simp only [checkpoint_loads holds]
  rfl

/-- Until the next checkpoint of its run, `resume` answers with what the last save stored. -/
theorem resumes_last {pre post : List SaveEvent} (split : run sha256 calls = pre ++ e :: post)
    (stored : createsIn principal runId e = true)
    (last : ∀ later ∈ post, createsIn principal runId later = false) :
    ∃ checkpoint, e.answer = .ok checkpoint ∧ checkpoint.state = e.action.state.sortKeys ∧
      resume sha256 (reached sha256 calls) principal runId = .ok ⟨runId, e.action.goalId,
        checkpoint.row.sequence + 1, e.action.phase, e.action.state.sortKeys, checkpoint.row.id⟩ := by
  have mem : e ∈ run sha256 calls := by simp [split]
  rw [createsIn, Bool.and_eq_true, decide_eq_true_eq] at stored
  obtain ⟨active, rfl, rfl⟩ := stored
  rcases event_cases (journal_sound mem).1 (step_of_mem mem) with
    ⟨idle, -⟩ | ⟨document, fresh, -, written, -, answered, appendedTo⟩
  · rw [idle] at active
    cases active
  refine ⟨_, answered, rfl, ?_⟩
  have matched : ofRun e.action.principal e.action.runId
      (appended sha256 e.before e.action.toSaveCall document) = true := decide_eq_true ⟨rfl, rfl⟩
  have ends : (rowsOf e.after e.action.principal e.action.runId).getLast? =
      some (appended sha256 e.before e.action.toSaveCall document) := by
    rw [appendedTo, rowsOf_insert, if_pos matched, List.getLast?_concat]
  obtain ⟨first, second, actions, -, tail⟩ := history_prefix split
  cases second with
  | nil => cases tail
  | cons c rest =>
    rw [history_cons, List.cons.injEq] at tail
    obtain ⟨here, later⟩ := tail
    have finish : reached sha256 calls = final (step sha256) e.after rest := by
      rw [reached, actions, final_append, final_cons, ← here]
    rw [finish]
    rcases @holds_until _ _ _ (step sha256) (fun s => Sound sha256 s ∧
        rowsOf s e.action.principal e.action.runId = rowsOf e.after e.action.principal e.action.runId)
        (fun later => createsIn e.action.principal e.action.runId later = true)
        (fun s c both => by
          rcases rowsOf_step both.1 c e.action.principal e.action.runId with
            ⟨-, same⟩ | ⟨active, -, -⟩
          · exact .inl ⟨step_sound s c both.1, same.trans both.2⟩
          · exact .inr active)
        e.after ⟨(journal_sound mem).2, rfl⟩ rest with ⟨sound, rows⟩ | ⟨next, inRest, active⟩
    · exact resume_last sound (by rw [rows, ends]) (appended_holds written)
    · rw [show (step sha256 (final (step sha256) Table.empty first) c).2 = e.after from by rw [← here]]
        at later
      rw [last next (later ▸ inRest)] at active
      cases active

/-- In every run of saves, in any order: the sequences of a run are one to its number of rows; a save
under a used key answers with the checkpoint first stored under it when goal, phase and state are
the same, and raises otherwise; of the saves that expect one sequence at most one stores a
checkpoint; a save that raises changes nothing; and `resume` answers with what was stored last. -/
theorem journal_kept (sha256 : String → String) (calls : List JsonSave)
    (apart : NoCollision sha256 calls) :
    (∀ principal runId, (rowsOf (reached sha256 calls) principal runId).map CheckpointRow.sequence =
      List.range' 1 (rowsOf (reached sha256 calls) principal runId).length) ∧
    (∀ pre e mid e' post key, run sha256 calls = pre ++ e :: (mid ++ e' :: post) →
      creates e = true → e.action.idempotencyKey = some key → e'.action.idempotencyKey = some key →
      e'.action.principal = e.action.principal → e'.action.runId = e.action.runId →
      (SameRequest e.action e'.action → e'.answer = e.answer) ∧
        (¬ SameRequest e.action e'.action → ∃ x, e'.answer = .error x) ∧ e'.after = e'.before) ∧
    (∀ principal runId n,
      (run sha256 calls).countP (createsExpecting principal runId n) ≤ 1) ∧
    (∀ e ∈ run sha256 calls, ∀ x, e.answer = .error x → e.after = e.before) ∧
    ∀ pre e post principal runId, run sha256 calls = pre ++ e :: post →
      createsIn principal runId e = true →
      (∀ later ∈ post, createsIn principal runId later = false) →
      ∃ checkpoint, e.answer = .ok checkpoint ∧ checkpoint.state = e.action.state.sortKeys ∧
        resume sha256 (reached sha256 calls) principal runId = .ok ⟨runId, e.action.goalId,
          checkpoint.row.sequence + 1, e.action.phase, e.action.state.sortKeys, checkpoint.row.id⟩ := by
  refine ⟨reached_sound.counted, ?_, expected_once sha256 calls, ?_, ?_⟩
  · intro pre e mid e' post key split stored given again same sameRun
    exact replayed_or_raised apart split stored given again same sameRun
  · intro e member x raised
    exact raises_clean member raised
  · intro pre e post principal runId split stored last
    exact resumes_last split stored last

theorem keyed_k1 : some "k1" ≠ some "" := by decide

theorem firstStep_loadable : Loadable (.obj [("step", .int 1)]) :=
  ⟨nodup_singleton _, trivial, trivial⟩

/-- Two saves of one run under one key, of the same content. -/
def keyedSaves : List JsonSave :=
  let first : JsonSave :=
    { principal := "ann", runId := "run-1", goalId := "goal-1", phase := "plan",
      state := .obj [("step", .int 1)], expectedSequence := some 0, idempotencyKey := some "k1",
      ident := "c1", now := 0, loadable := firstStep_loadable,
      keyed := keyed_k1 }
  [first, { first with ident := "c2", expectedSequence := none }]

theorem journal_kept_keyed : NoCollision id keyedSaves ∧
    ((run id keyedSaves).countP (createsExpecting "ann" "run-1" 0) ≤ 1 ∧
      ∀ e ∈ run id keyedSaves, ∀ x, e.answer = .error x → e.after = e.before) := by
  have apart : NoCollision id keyedSaves := fun _ _ _ _ _ _ _ _ same => same
  obtain ⟨-, -, once, clean, -⟩ := journal_kept id keyedSaves apart
  exact ⟨apart, once _ _ _, clean⟩

end Meemee.Guarantees.CheckpointJournal
