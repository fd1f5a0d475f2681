import Meemee.Source.Memory

/-!
# Reindexing in batches

A round of `reindex` gives each memory of its batch the vector of its content, so every round leaves
fewer memories without one, and what a round has committed no later failure takes back.
-/
namespace Meemee.Guarantees.MemoryReindex
open Library Source Source.Memory Library.Txn Library.Table List

variable {φ : Type} {encode : String → String → Except Exc (List φ)} {space : String} {batchSize : Nat}
  {s t u : MemoryStore φ} {batch : List (Nat × String)} {rows : List (EmbeddingRow φ)} {m : MemoryRow}
  {done more : Nat} {e : Exc}

/-- The memories without a vector of the space. -/
def staleRows (space : String) (s : MemoryStore φ) : List MemoryRow := s.memories.select (stale space s)

theorem mem_staleRows : m ∈ staleRows space s ↔ m ∈ s.memories ∧ stale space s m = true := mem_filter

theorem encodeBatch_rows (encoded : encodeBatch encode space batch = .ok rows) :
    rows.map EmbeddingRow.memoryId = batch.map Prod.fst ∧ ∀ row ∈ rows, ∃ entry ∈ batch, ∃ vector,
      encode space entry.2 = .ok vector ∧ row = vectorRow entry.1 space vector := by
  induction batch generalizing rows with
  | nil => cases encoded; exact ⟨rfl, nofun⟩
  | cons entry rest ih =>
    obtain ⟨vector, here, others⟩ := except_bind_returned encoded
    obtain ⟨later, tail, done⟩ := except_bind_returned others
    cases done
    obtain ⟨ids, entries⟩ := ih tail
    refine ⟨congrArg (entry.1 :: ·) ids, forall_mem_cons.mpr
      ⟨⟨entry, mem_cons_self, vector, here, rfl⟩, fun row mem => ?_⟩⟩
    obtain ⟨other, there, facts⟩ := entries row mem
    exact ⟨other, mem_cons_of_mem _ there, facts⟩

theorem encodeBatch_raised (raised : encodeBatch encode space batch = .error e) :
    ∃ entry ∈ batch, encode space entry.2 = .error e := by
  induction batch with
  | nil => cases raised
  | cons entry rest ih =>
    rw [encodeBatch] at raised
    cases here : encode space entry.2 with
    | error f =>
      rw [here] at raised
      cases raised
      exact ⟨entry, mem_cons_self, here⟩
    | ok vector =>
      rw [here] at raised
      cases later : encodeBatch encode space rest with
      | error f =>
        rw [later] at raised
        cases raised
        obtain ⟨other, mem, failed⟩ := ih later
        exact ⟨other, mem_cons_of_mem _ mem, failed⟩
      | ok others =>
        rw [later] at raised
        cases raised

theorem replaceVectors_run (distinct : (rows.map EmbeddingRow.memoryId).Nodup) (s : MemoryStore φ) :
    ∃ t, replaceVectors rows s = (.ok (), t) ∧ t.memories = s.memories ∧
      (∀ row ∈ rows, t.embeddings.find row.memoryId = some row) ∧
      ∀ id ∉ rows.map EmbeddingRow.memoryId, t.embeddings.find id = s.embeddings.find id := by
  induction rows generalizing s with
  | nil => exact ⟨s, rfl, rfl, nofun, fun _ _ => rfl⟩
  | cons row rest ih =>
    obtain ⟨alone, apart⟩ := nodup_cons.mp distinct
    obtain ⟨t, run, memories, written, kept⟩ := ih apart { s with embeddings := s.embeddings.replace row }
    refine ⟨t, run, memories, fun other mem => ?_, fun id outside => ?_⟩
    · rcases mem_cons.mp mem with rfl | later
      · rw [kept _ alone, find_replace, if_pos rfl]
      · exact written other later
    · rw [map_cons, mem_cons, not_or] at outside
      rw [kept id outside.2, find_replace, if_neg (Ne.symm outside.1)]

theorem writeBatch_run (encoded : encodeBatch encode space batch = .ok rows)
    (distinct : (batch.map Prod.fst).Nodup) (s : MemoryStore φ) :
    ∃ t, writeBatch encode space batch s = (.ok batch.length, t) ∧ t.memories = s.memories ∧
      (∀ row ∈ rows, t.embeddings.find row.memoryId = some row) ∧
      ∀ id ∉ batch.map Prod.fst, t.embeddings.find id = s.embeddings.find id := by
  have ids := (encodeBatch_rows encoded).1
  obtain ⟨t, run, memories, written, kept⟩ := replaceVectors_run (ids ▸ distinct) s
  have length : rows.length = batch.length := by
    have := congrArg List.length ids
    rwa [length_map, length_map] at this
  refine ⟨t, ?_, memories, written, ids ▸ kept⟩
  rw [writeBatch, encoded, run_bind_ok (run_ofExcept _ _)]
  refine atomically_of_ok ?_
  rw [run_bind_ok run, length]
  rfl

/-- What some rounds did: so many stale memories got the vector of their content, and every other
vector is as it was. -/
structure Reindexed (encode : String → String → Except Exc (List φ)) (space : String)
    (s t : MemoryStore φ) (done : Nat) : Prop where
  memories : t.memories = s.memories
  counted : (staleRows space t).length + done = (staleRows space s).length
  fewer : ∀ m ∈ staleRows space t, m ∈ staleRows space s
  encoded : ∀ m ∈ staleRows space s, m ∉ staleRows space t → ∃ vector,
    encode space m.content = .ok vector ∧ t.embeddings.find m.id = some (vectorRow m.id space vector)
  kept : ∀ id ∉ (staleRows space s).map MemoryRow.id, t.embeddings.find id = s.embeddings.find id

theorem reindexed_refl (s : MemoryStore φ) : Reindexed encode space s s 0 :=
  ⟨rfl, rfl, fun _ mem => mem, fun _ mem other => absurd mem other, fun _ _ => rfl⟩

theorem reindexed_trans (first : Reindexed encode space s t done)
    (second : Reindexed encode space t u more) : Reindexed encode space s u (done + more) := by
  refine ⟨second.memories.trans first.memories, ?_, fun m mem => first.fewer m (second.fewer m mem),
    fun m before after => ?_, fun id outside => ?_⟩
  · have := first.counted
    have := second.counted
    omega
  · by_cases between : m ∈ staleRows space t
    · exact second.encoded m between after
    · obtain ⟨vector, encoded, found⟩ := first.encoded m before between
      refine ⟨vector, encoded, (second.kept m.id fun listed => ?_).trans found⟩
      obtain ⟨other, there, same⟩ := mem_map.mp listed
      have stored := (mem_staleRows.mp (first.fewer other there)).1
      have one := eq_of_find (find_of_mem (mem_staleRows.mp before).1) stored same
      exact between (one ▸ there)
  · refine (second.kept id fun listed => outside ?_).trans (first.kept id outside)
    obtain ⟨other, there, same⟩ := mem_map.mp listed
    exact mem_map.mpr ⟨other, first.fewer other there, same⟩

/-- The memories of the batch, in the order of their ids. -/
def batchRows (space : String) (batchSize : Nat) (s : MemoryStore φ) : List MemoryRow :=
  ((staleRows space s).mergeSort (fun a b => decide (a.id ≤ b.id))).take batchSize

theorem readBatch_eq (s : MemoryStore φ) :
    readBatch space batchSize s = (batchRows space batchSize s).map (fun m => (m.id, m.content)) := rfl

theorem batch_ids (s : MemoryStore φ) : (readBatch space batchSize s).map Prod.fst =
    (batchRows space batchSize s).map MemoryRow.id := by
  rw [readBatch_eq, map_map]
  rfl

theorem sorted_distinct (space : String) (s : MemoryStore φ) :
    (((staleRows space s).mergeSort (fun a b => decide (a.id ≤ b.id))).map MemoryRow.id).Nodup :=
  ((mergeSort_perm _ _).map _).nodup_iff.mpr (s.memories.unique.sublist (filter_sublist.map _))

theorem mem_batchRows (mem : m ∈ batchRows space batchSize s) : m ∈ staleRows space s :=
  (mergeSort_perm _ _).mem_iff.mp (mem_of_mem_take mem)

theorem length_outside {front back : List MemoryRow} (distinct : ((front ++ back).map MemoryRow.id).Nodup) :
    ((front ++ back).filter (fun m => !(front.map MemoryRow.id).contains m.id)).length + front.length =
      (front ++ back).length := by
  rw [map_append] at distinct
  have apart := (nodup_append.mp distinct).2.2
  have none : front.filter (fun m => !(front.map MemoryRow.id).contains m.id) = [] :=
    filter_eq_nil_iff.mpr (fun m mem => by simpa using ⟨m, mem, rfl⟩)
  have all : back.filter (fun m => !(front.map MemoryRow.id).contains m.id) = back := by
    refine filter_eq_self.mpr (fun m mem => ?_)
    simp only [Bool.not_eq_true', contains_eq_mem, decide_eq_false_iff_not]
    exact fun inside => apart _ inside _ (mem_map_of_mem mem) rfl
  rw [filter_append, none, all, nil_append, length_append, Nat.add_comm]

theorem left_length (s : MemoryStore φ) : ((staleRows space s).filter (fun m =>
      !((batchRows space batchSize s).map MemoryRow.id).contains m.id)).length +
    (batchRows space batchSize s).length = (staleRows space s).length := by
  have whole := mergeSort_perm (staleRows space s) (fun a b => decide (a.id ≤ b.id))
  have parts := take_append_drop batchSize
    ((staleRows space s).mergeSort (fun a b => decide (a.id ≤ b.id)))
  rw [← (whole.filter _).length_eq, ← whole.length_eq]
  have outside := length_outside (parts.symm ▸ sorted_distinct space s)
  rwa [parts] at outside

/-- One round: its batch has the vectors, and everything else is as it was. -/
theorem round_reindexed (encoded : encodeBatch encode space (readBatch space batchSize s) = .ok rows) :
    ∃ t, writeBatch encode space (readBatch space batchSize s) s =
        (.ok (batchRows space batchSize s).length, t) ∧
      Reindexed encode space s t (batchRows space batchSize s).length := by
  have distinct : ((readBatch space batchSize s).map Prod.fst).Nodup := by
    rw [batch_ids]
    exact (sorted_distinct space s).sublist ((take_sublist _ _).map _)
  obtain ⟨t, run, memories, written, kept⟩ := writeBatch_run encoded distinct s
  obtain ⟨ids, entries⟩ := encodeBatch_rows encoded
  rw [batch_ids] at kept ids
  -- a memory of the batch has a vector of the space now, any other the one it had
  have found : ∀ m ∈ s.memories, m.id ∈ (batchRows space batchSize s).map MemoryRow.id →
      ∃ vector, encode space m.content = .ok vector ∧
        t.embeddings.find m.id = some (vectorRow m.id space vector) := by
    intro m stored listed
    obtain ⟨row, mem, same⟩ := mem_map.mp (ids ▸ listed)
    obtain ⟨entry, among, vector, text, rfl⟩ := entries row mem
    obtain ⟨other, there, rfl⟩ := mem_map.mp (readBatch_eq s ▸ among)
    have one := eq_of_find (find_of_mem stored) (mem_staleRows.mp (mem_batchRows there)).1 same
    subst one
    exact ⟨vector, text, written _ mem⟩
  have stays : ∀ m ∈ s.memories, stale space t m =
      (!((batchRows space batchSize s).map MemoryRow.id).contains m.id && stale space s m) := by
    intro m stored
    by_cases listed : m.id ∈ (batchRows space batchSize s).map MemoryRow.id
    · obtain ⟨vector, -, now⟩ := found m stored listed
      rw [contains_iff_mem.mpr listed, stale, now]
      simp [vectorRow]
    · rw [stale, kept m.id listed, ← stale]
      simp [listed]
  have rows : staleRows space t = (staleRows space s).filter (fun m =>
      !((batchRows space batchSize s).map MemoryRow.id).contains m.id) := by
    rw [staleRows, staleRows, select, select, memories, filter_filter]
    exact filter_congr stays
  refine ⟨t, by rw [run, readBatch_eq, length_map], memories, rows ▸ left_length s, fun m mem => ?_,
    fun m before after => found m (mem_staleRows.mp before).1 ?_, fun id outside => kept id ?_⟩
  · exact (mem_filter.mp (rows ▸ mem)).1
  · by_contra other
    exact after (rows ▸ mem_filter.mpr ⟨before, by simpa using other⟩)
  · exact fun listed => outside ((mem_map.mp listed).elim fun m facts =>
      mem_map.mpr ⟨m, mem_batchRows facts.1, facts.2⟩)

theorem stale_of_batch (positive : 0 < batchSize) (empty : batchRows space batchSize s = []) :
    staleRows space s = [] := by
  rcases take_eq_nil_iff.mp empty with none | none
  · omega
  · have whole := mergeSort_perm (staleRows space s) (fun a b => decide (a.id ≤ b.id))
    rw [none] at whole
    exact nil_perm.mp whole

/-- With as many rounds as there are stale memories the loop ends because none is left, or with the
first batch that cannot be encoded. -/
theorem rounds_reindexed (encode : String → String → Except Exc (List φ)) (space : String)
    (positive : 0 < batchSize) (rounds count : Nat) (s : MemoryStore φ)
    (enough : (staleRows space s).length ≤ rounds) : ∃ done t, Reindexed encode space s t done ∧
      ((reindexRounds encode space batchSize rounds count s = (.ok (count + done), t) ∧
        staleRows space t = []) ∨
      ∃ e, reindexRounds encode space batchSize rounds count s = (.error e, t) ∧
        encodeBatch encode space (readBatch space batchSize t) = .error e) := by
  induction rounds generalizing s count with
  | zero => exact ⟨0, s, reindexed_refl s, .inl ⟨rfl, length_eq_zero_iff.mp (Nat.le_zero.mp enough)⟩⟩
  | succ rounds ih =>
    rw [reindexRounds, run_bind_read]
    by_cases empty : batchRows space batchSize s = []
    · rw [if_pos (by rw [readBatch_eq, empty]; rfl)]
      exact ⟨0, s, reindexed_refl s, .inl ⟨rfl, stale_of_batch positive empty⟩⟩
    · rw [if_neg (by simpa [readBatch_eq] using empty)]
      cases encoded : encodeBatch encode space (readBatch space batchSize s) with
      | error e =>
        refine ⟨0, s, reindexed_refl s, .inr ⟨e, run_bind_error ?_, encoded⟩⟩
        rw [writeBatch, encoded]
        rfl
      | ok rows =>
        obtain ⟨t, run, first⟩ := round_reindexed encoded
        have shorter := first.counted
        have taken := length_pos_of_ne_nil empty
        obtain ⟨done, u, later, ended⟩ := ih (count + (batchRows space batchSize s).length) t (by omega)
        refine ⟨_, u, reindexed_trans first later, ?_⟩
        rw [run_bind_ok run, ← Nat.add_assoc]
        exact ended

theorem reindex_ends (encode : String → String → Except Exc (List φ)) (space : String) {size : Int}
    (positive : 1 ≤ size) (s : MemoryStore φ) : ∃ done t, Reindexed encode space s t done ∧
      ((reindex encode space size s = (.ok done, t) ∧ staleRows space t = []) ∨
      ∃ e, reindex encode space size s = (.error e, t) ∧
        ∃ m ∈ staleRows space t, encode space m.content = .error e) := by
  obtain ⟨done, t, reindexed, ended⟩ := rounds_reindexed encode space
    (show 0 < size.toNat by omega) s.memories.rows.length 0 s (length_filter_le _ _)
  have run : reindex encode space size s =
      reindexRounds encode space size.toNat s.memories.rows.length 0 s := by
    rw [reindex, run_require_bind, if_pos (decide_eq_true positive), run_bind_read]
  refine ⟨done, t, reindexed, ended.imp (fun whole => ?_) (fun ⟨e, raised, failed⟩ => ?_)⟩
  · exact ⟨by rw [run, whole.1, Nat.zero_add], whole.2⟩
  · obtain ⟨entry, among, text⟩ := encodeBatch_raised failed
    obtain ⟨m, mem, rfl⟩ := mem_map.mp (readBatch_eq t ▸ among)
    exact ⟨e, run.trans raised, m, mem_batchRows mem, text⟩

/-- `reindex` ends, and raises only for a text that cannot be encoded. Every memory it counts had no
vector of the space and has that of its content; no other vector and no memory is touched. When it
returns no memory is left; when it raises, what it did stays done, and a later call that returns does
the rest. -/
theorem reindex_resumes (encode : String → String → Except Exc (List φ)) (space : String)
    (s : MemoryStore φ) :
    (∀ size < 1, reindex encode space size s = (.error (.valueError "batch_size must be positive"), s)) ∧
    ∀ size ≥ 1, ∃ done t, Reindexed encode space s t done ∧
      ((reindex encode space size s = (.ok done, t) ∧ staleRows space t = []) ∨
        ∃ e, reindex encode space size s = (.error e, t) ∧
          ∃ m ∈ staleRows space t, encode space m.content = .error e) ∧
      ∀ again other more u, reindex again space other t = (.ok more, u) →
        Reindexed again space t u more ∧ done + more = (staleRows space s).length ∧
          staleRows space u = [] := by
  refine ⟨fun size small => ?_, fun size positive => ?_⟩
  · rw [reindex, run_require_bind, if_neg (by simpa using small)]
  obtain ⟨done, t, reindexed, ended⟩ := reindex_ends encode space positive s
  refine ⟨done, t, reindexed, ended, fun again other more u run => ?_⟩
  obtain ⟨rest, v, later, outcome⟩ :=
    reindex_ends again space (of_decide_eq_true (require_bind_returned run).1) t
  rcases outcome with ⟨returned, none⟩ | ⟨e, raised, -⟩
  · cases run.symm.trans returned
    have first := reindexed.counted
    have second := later.counted
    rw [none, length_nil] at second
    exact ⟨later, by omega, none⟩
  · cases run.symm.trans raised

end Meemee.Guarantees.MemoryReindex
