import Meemee.Library.History
import Meemee.Library.TopUp
import Meemee.Source.Context

/-!
# Ingested records and assembled context

A record goes in once for each of its contents, and touches its own owner only. Every stored
timestamp has passed `context_utc`, so neither the search nor the list of recent records raises
because of one, and `assemble` fills the hits of the search up with recent records to the size that
the owner's visible records allow.
-/
namespace Meemee.Guarantees.ContextAssembly
open Library Library.History Library.TopUp Meemee.Source Context Library.Table List
open Meemee.Source.Expiry (Moment)

variable (fromisoformat : String → Except Exc Moment) (recordHash : ContextRecord → Except Exc String)

inductive Call where
  | registerSource (ownerId sourceId connector : String) (config : Json) (permission : String)
      (now : Instant)
  | ingest (record : ContextRecord) (now : Instant)
  | purgeOwner (ownerId : String)

/-- What a call answers: `ingest` whether it inserted a row. -/
abbrev Answer := Except ContextExc (Option Bool)

def step (s : ContextStore) : Call → Answer × ContextStore
  | .registerSource ownerId sourceId connector config permission now =>
    let (answer, t) := registerSource ownerId sourceId connector config permission now s
    (answer.map (fun _ => none), t)
  | .ingest record now =>
    let (answer, t) := ingest fromisoformat recordHash record now s
    (answer.map some, t)
  | .purgeOwner ownerId =>
    let (answer, t) := purgeOwner ownerId s
    (answer.map (fun _ => none), t)

variable {fromisoformat recordHash}

/-- What `ingest` asks of a record before it writes. -/
structure Accepted (fromisoformat : String → Except Exc Moment)
    (recordHash : ContextRecord → Except Exc String) (s : ContextStore) (record : ContextRecord)
    (digest : String) : Prop where
  dated : ∃ text, contextUtc fromisoformat record.occurredAt = .ok text
  visible : record.visibility ∈ visibilities
  hashed : recordHash record = .ok digest
  known : knowsSource record.ownerId record.sourceId s = true

/-- The store after a record was written. -/
def written (s : ContextStore) (record : ContextRecord) (digest : String) (now : Instant) : ContextStore where
  sources := s.sources.update (fun r => decide (r.key = (record.ownerId, record.sourceId)))
    (moveCursor record now) (moveCursor_keeps record now)
  records := (s.records.insertOrIgnore (record.row digest now (nextRecordId s))).1

variable {s : ContextStore} {record : ContextRecord}

theorem ingest_accepted {digest : String}
    (accepted : Accepted fromisoformat recordHash s record digest) (now : Instant) :
    ingest fromisoformat recordHash record now s =
      (.ok (s.records.insertOrIgnore (record.row digest now (nextRecordId s))).2,
        written s record digest now) := by
  obtain ⟨⟨text, dated⟩, visible, hashed, known⟩ := accepted
  have listed : visibilities.contains record.visibility = true := contains_iff_mem.mpr visible
  unfold ingest
  rw [dated, hashed, listed]
  simp only [Except.mapError, Txn.require, Txn.run_bind, Txn.run_ofExcept, if_true, Txn.run_pure,
    Txn.atomically, Txn.run_read, known]
  rfl

theorem ingest_refused
    (refused : ∀ digest, ¬ Accepted fromisoformat recordHash s record digest) (now : Instant) :
    ∃ e, ingest fromisoformat recordHash record now s = (.error e, s) := by
  unfold ingest
  cases dated : contextUtc fromisoformat record.occurredAt with
  | error e => exact ⟨_, rfl⟩
  | ok text =>
    simp only [Except.mapError, Txn.run_bind, Txn.run_ofExcept, Txn.require]
    by_cases visible : visibilities.contains record.visibility = true
    · rw [if_pos visible]
      cases hashed : recordHash record with
      | error e => exact ⟨_, rfl⟩
      | ok digest =>
        by_cases known : knowsSource record.ownerId record.sourceId s = true
        · exact absurd ⟨⟨text, dated⟩, contains_iff_mem.mp visible, hashed, known⟩ (refused digest)
        · refine ⟨.raised (.valueError "source is not registered for owner"), ?_⟩
          simp only [Txn.run_pure, Txn.atomically, Txn.run_bind, Txn.run_read, known]
          rfl
    · rw [if_neg visible]
      exact ⟨_, rfl⟩

/-- The key under which a record with a content hash is stored. -/
def contentKey (record : ContextRecord) (digest : String) : String × String × String × String :=
  (record.ownerId, record.sourceId, record.externalId, digest)

/-- At most one row more, among its owner's, and at most its own source's cursor moved. -/
structure Ingested (fromisoformat : String → Except Exc Moment)
    (recordHash : ContextRecord → Except Exc String) (before after : ContextStore)
    (record : ContextRecord) (answer : Answer) : Prop where
  stored : ∀ digest, Accepted fromisoformat recordHash before record digest →
    (before.records.find (contentKey record digest)).isSome → answer = .ok (some false) ∧
      after.records = before.records
  fresh : ∀ digest, Accepted fromisoformat recordHash before record digest →
    before.records.find (contentKey record digest) = none → answer = .ok (some true) ∧
      ∃ id now, after.records.rows = before.records.rows ++ [record.row digest now id]
  refused : (∀ digest, ¬ Accepted fromisoformat recordHash before record digest) →
    (∃ e, answer = .error e) ∧ after = before
  others : ∀ owner, owner ≠ record.ownerId →
    after.records.select (fun r => decide (r.ownerId = owner)) =
        before.records.select (fun r => decide (r.ownerId = owner)) ∧
      ∀ source, after.sources.find (owner, source) = before.sources.find (owner, source)

theorem written_others (s : ContextStore) (record : ContextRecord) (digest : String) (now : Instant)
    {owner : String} (other : owner ≠ record.ownerId) :
    (written s record digest now).records.select (fun r => decide (r.ownerId = owner)) =
        s.records.select (fun r => decide (r.ownerId = owner)) ∧
      ∀ source, (written s record digest now).sources.find (owner, source) =
        s.sources.find (owner, source) := by
  constructor
  · change Table.select (s.records.insertOrIgnore _).1 _ = _
    cases found : s.records.find (record.row digest now (nextRecordId s)).key with
    | none =>
      rw [insertOrIgnore_fresh found, select_insert found]
      have apart : (record.row digest now (nextRecordId s)).ownerId ≠ owner := fun same => other same.symm
      simp [apart]
    | some row => rw [insertOrIgnore_conflict found]
  · intro source
    rw [written, find_update]
    cases found : s.sources.find (owner, source) with
    | none => rfl
    | some row =>
      have key := key_of_find found
      have apart : row.key ≠ (record.ownerId, record.sourceId) := by
        rw [key]
        exact fun same => other (Prod.mk.inj same).1
      simp [apart]

theorem ingested (s : ContextStore) (record : ContextRecord) (now : Instant) :
    Ingested fromisoformat recordHash s (step fromisoformat recordHash s (.ingest record now)).2 record
      (step fromisoformat recordHash s (.ingest record now)).1 := by
  have run : ∀ {digest}, Accepted fromisoformat recordHash s record digest →
      step fromisoformat recordHash s (.ingest record now) =
        (.ok (some (s.records.insertOrIgnore (record.row digest now (nextRecordId s))).2),
          written s record digest now) := by
    intro digest accepted
    rw [step, ingest_accepted accepted]
    rfl
  refine ⟨fun digest accepted found => ?_, fun digest accepted missing => ?_, fun refused => ?_,
    fun owner other => ?_⟩
  · obtain ⟨row, found⟩ := Option.isSome_iff_exists.mp found
    have conflict := @insertOrIgnore_conflict _ _ RecordRow.key _ s.records
      (record.row digest now (nextRecordId s)) row found
    rw [run accepted]
    dsimp only [written]
    rw [conflict]
    exact ⟨rfl, rfl⟩
  · have inserted := @insertOrIgnore_fresh _ _ RecordRow.key _ s.records
      (record.row digest now (nextRecordId s)) missing
    rw [run accepted]
    dsimp only [written]
    rw [inserted]
    exact ⟨rfl, nextRecordId s, now, rfl⟩
  · obtain ⟨e, raised⟩ := ingest_refused refused now
    rw [step, raised]
    exact ⟨⟨e, rfl⟩, rfl⟩
  · by_cases accepted : ∃ digest, Accepted fromisoformat recordHash s record digest
    · obtain ⟨digest, accepted⟩ := accepted
      rw [run accepted]
      exact written_others s record digest now other
    · obtain ⟨e, raised⟩ := ingest_refused (not_exists.mp accepted) now
      rw [step, raised]
      exact ⟨rfl, fun _ => rfl⟩

/-- Every row has an id of its own and a timestamp that can be compared. -/
structure Sound (fromisoformat : String → Except Exc Moment) (s : ContextStore) : Prop where
  ids : (s.records.rows.map RecordRow.id).Nodup
  dated : ∀ r ∈ s.records.rows, ∃ text, contextUtc fromisoformat r.occurredAt = .ok text

variable {r : RecordRow}

theorem id_lt_next (mem : r ∈ s.records.rows) :
    r.id < nextRecordId s := by
  have bound : ∀ ids : List Nat, ∀ n ∈ ids, n ≤ ids.foldr max 0 := by
    intro ids
    induction ids with
    | nil => exact nofun
    | cons m rest ih =>
      intro n inside
      rcases mem_cons.mp inside with rfl | later
      · exact Nat.le_max_left _ _
      · exact Nat.le_trans (ih n later) (Nat.le_max_right _ _)
  exact Nat.lt_succ_of_le (bound _ _ (mem_map_of_mem mem))

theorem written_sound (sound : Sound fromisoformat s)
    {digest : String} (accepted : Accepted fromisoformat recordHash s record digest) (now : Instant) :
    Sound fromisoformat (written s record digest now) := by
  cases found : s.records.find (record.row digest now (nextRecordId s)).key with
  | some row =>
    have same : (written s record digest now).records = s.records := by
      rw [written, insertOrIgnore_conflict found]
    exact ⟨by rw [same]; exact sound.ids, by rw [same]; exact sound.dated⟩
  | none =>
    have rows : (written s record digest now).records.rows =
        s.records.rows ++ [record.row digest now (nextRecordId s)] := by
      rw [written, insertOrIgnore_fresh found]
      rfl
    constructor
    · rw [rows, map_append, nodup_append]
      refine ⟨sound.ids, nodup_singleton _, fun k there k' here same => ?_⟩
      obtain ⟨r, mem, rfl⟩ := mem_map.mp there
      rw [map_singleton, mem_singleton] at here
      have less := id_lt_next mem
      rw [same, here] at less
      exact Nat.lt_irrefl _ less
    · intro r mem
      rw [rows, mem_append, mem_singleton] at mem
      rcases mem with old | rfl
      · exact sound.dated r old
      · exact accepted.dated

theorem step_sound (sound : Sound fromisoformat s) (call : Call) :
    Sound fromisoformat (step fromisoformat recordHash s call).2 := by
  cases call with
  | ingest record now =>
    by_cases accepted : ∃ digest, Accepted fromisoformat recordHash s record digest
    · obtain ⟨digest, accepted⟩ := accepted
      rw [step, ingest_accepted accepted]
      exact written_sound sound accepted now
    · obtain ⟨e, raised⟩ := ingest_refused (not_exists.mp accepted) now
      rw [step, raised]
      exact sound
  | registerSource ownerId sourceId connector config permission now =>
    have kept : (step fromisoformat recordHash s
        (.registerSource ownerId sourceId connector config permission now)).2.records = s.records := by
      simp only [step, registerSource, Txn.require]
      split <;> rfl
    exact ⟨by rw [kept]; exact sound.ids, by rw [kept]; exact sound.dated⟩
  | purgeOwner ownerId =>
    have part : (step fromisoformat recordHash s (.purgeOwner ownerId)).2.records.rows.Sublist
        s.records.rows := by
      simp only [step, purgeOwner, Txn.require]
      split
      · exact filter_sublist
      · exact List.Sublist.refl _
    exact ⟨(part.map _).nodup sound.ids, fun r mem => sound.dated r (part.subset mem)⟩

theorem sound_of_calls (calls : List Call) :
    Sound fromisoformat (final (step fromisoformat recordHash) ContextStore.empty calls) :=
  @final_invariant _ _ _ _ (Sound fromisoformat) (fun _ call sound => step_sound sound call)
    ContextStore.empty ⟨nodup_nil, nofun⟩ calls

/-- The text that a stored timestamp is compared by. -/
def stampOf (fromisoformat : String → Except Exc Moment) (r : RecordRow) : String :=
  (contextUtc fromisoformat r.occurredAt).toOption.getD ""

theorem stamp_dated (dated : ∃ text, contextUtc fromisoformat r.occurredAt = .ok text) :
    stamp fromisoformat r = .ok (r, stampOf fromisoformat r) := by
  obtain ⟨text, dated⟩ := dated
  rw [stamp, stampOf, dated]
  rfl

theorem mapM_ok {α β : Type} {f : α → Except ContextExc β} {g : α → β} {items : List α}
    (each : ∀ a ∈ items, f a = .ok (g a)) : items.mapM f = .ok (items.map g) := by
  induction items with
  | nil => rfl
  | cons a rest ih =>
    rw [mapM_cons, each a mem_cons_self, ih fun b mem => each b (mem_cons_of_mem _ mem)]
    rfl

/-- The records of an owner that are visible to the agent. -/
def visibleRows (ownerId : String) (s : ContextStore) : List RecordRow :=
  s.records.select (visibleTo none ownerId)

theorem visibleRows_distinct (sound : Sound fromisoformat s) (ownerId : String) :
    ((visibleRows ownerId s).map RecordRow.id).Nodup :=
  (filter_sublist.map RecordRow.id).nodup sound.ids

theorem dated_visible (sound : Sound fromisoformat s) {ownerId : String}
    (mem : r ∈ visibleRows ownerId s) :
    ∃ text, contextUtc fromisoformat r.occurredAt = .ok text :=
  sound.dated r (mem_filter.mp mem).1

theorem recent_front (sound : Sound fromisoformat s) (ownerId : String)
    (limit : Int) : ∃ shuffled : List RecordRow, shuffled.Perm (visibleRows ownerId s) ∧
      recent fromisoformat ownerId limit none s = .ok (shuffled.take (clamped limit)) := by
  have stamped : (visibleRows ownerId s).mapM (stamp fromisoformat) =
      .ok ((visibleRows ownerId s).map fun r => (r, stampOf fromisoformat r)) :=
    mapM_ok fun r mem => stamp_dated (dated_visible sound mem)
  refine ⟨(((visibleRows ownerId s).map fun r => (r, stampOf fromisoformat r)).insertionSort
    (fun a b => later a b)).map Prod.fst, ?_, ?_⟩
  · refine ((perm_insertionSort _ _).map Prod.fst).trans ?_
    rw [map_map]
    exact List.Perm.of_eq (map_id _)
  · rw [← map_take]
    change (visibleRows ownerId s).mapM (stamp fromisoformat) >>= _ = _
    rw [stamped]
    rfl

variable (fts : String → ContextStore → Option (RecordRow → Option ℚ))

/-- A search raises as its expression does, or gives distinct visible records, within bounds. -/
theorem search_cases (sound : Sound fromisoformat s) (ownerId query : String)
    (limit : Int) :
    (∃ text, search fromisoformat fts ownerId query limit none s = .error (.operationalError text)) ∨
      ∃ hits, search fromisoformat fts ownerId query limit none s = .ok hits ∧
        (hits.map RecordRow.id).Nodup ∧ hits ⊆ visibleRows ownerId s ∧ hits.length ≤ clamped limit := by
  unfold search
  cases fts query s with
  | none => exact .inl ⟨_, rfl⟩
  | some score =>
    right
    have scored : ∀ rows : List RecordRow,
        ((rows.filterMap (fun r => (score r).map (fun value => (value, r)))).map Prod.snd).Sublist rows := by
      intro rows
      induction rows with
      | nil => exact List.Sublist.refl _
      | cons r rest ih =>
        rw [filterMap_cons]
        cases score r with
        | none => exact ih.cons r
        | some value => exact ih.cons_cons r
    have part := scored (visibleRows ownerId s)
    have stamped := @mapM_ok _ _
      (fun hit : ℚ × RecordRow => (stamp fromisoformat hit.2).map (fun row => (hit.1, row)))
      (fun hit => (hit.1, hit.2, stampOf fromisoformat hit.2))
      ((visibleRows ownerId s).filterMap (fun r => (score r).map (fun value => (value, r))))
      fun hit mem => by
        rw [stamp_dated (dated_visible sound (part.subset (mem_map_of_mem mem)))]
        rfl
    have order := ((perm_insertionSort (fun a b => better a b = true)
      (((visibleRows ownerId s).filterMap (fun r => (score r).map (fun value => (value, r)))).map
        (fun hit => (hit.1, hit.2, stampOf fromisoformat hit.2)))).map
          (fun hit => hit.2.1))
    rw [map_map] at order
    have whole := ((order.map RecordRow.id).nodup_iff).mpr
      ((part.map RecordRow.id).nodup (visibleRows_distinct sound ownerId))
    refine ⟨_, ?_, ((take_sublist (clamped limit) _).map RecordRow.id).nodup whole,
      fun r mem => part.subset (order.mem_iff.mp (mem_of_mem_take mem)), ?_⟩
    · rw [← map_take]
      change List.mapM _ ((visibleRows ownerId s).filterMap _) >>= _ = _
      rw [stamped]
      rfl
    · rw [length_take]
      exact Nat.min_le_left _ _

/-- Full-text hits first, then other records, as many as limit and visible records allow. -/
structure Assembled (fromisoformat : String → Except Exc Moment)
    (fts : String → ContextStore → Option (RecordRow → Option ℚ)) (s : ContextStore) : Prop where
  records : ∀ (ownerId query : String) (limit : Int), 1 ≤ limit → limit ≤ 100 →
    ∃ rows others : List RecordRow, assemble fromisoformat fts ownerId query limit s = .ok rows ∧
      rows.length = min limit.toNat (visibleRows ownerId s).length ∧
      (rows.map RecordRow.id).Nodup ∧
      (∀ r ∈ rows, r ∈ s.records ∧ r.ownerId = ownerId ∧ r.visibility ∈ ["private", "agent"]) ∧
      rows = (search fromisoformat fts ownerId query limit none s).toOption.getD [] ++ others

theorem visible_of_mem {ownerId : String}
    (mem : r ∈ visibleRows ownerId s) :
    r ∈ s.records ∧ r.ownerId = ownerId ∧ r.visibility ∈ ["private", "agent"] := by
  obtain ⟨stored, visible⟩ := mem_filter.mp mem
  rw [visibleTo, Bool.and_eq_true, decide_eq_true_eq] at visible
  exact ⟨stored, visible.1, contains_iff_mem.mp visible.2⟩

theorem assemble_hits (sound : Sound fromisoformat s) {ownerId query : String}
    {limit : Int} (positive : 1 ≤ limit) (most : limit ≤ 100) {hits : List RecordRow}
    (searched : search fromisoformat fts ownerId query limit none s = .ok hits ∨
      (∃ text, search fromisoformat fts ownerId query limit none s = .error (.operationalError text)) ∧
        hits = []) :
    ∃ (shuffled : List RecordRow) (count : Nat), shuffled.Perm (visibleRows ownerId s) ∧
      limit.toNat ≤ count ∧ assemble fromisoformat fts ownerId query limit s =
        .ok (topUp RecordRow.id limit.toNat hits (shuffled.take count)) := by
  obtain ⟨shuffled, perm, read⟩ := recent_front sound ownerId (limit * 2)
  have count : limit.toNat ≤ clamped (limit * 2) := by
    unfold clamped
    omega
  refine ⟨shuffled, clamped (limit * 2), perm, count, ?_⟩
  have filled : (if (hits.length : Int) < limit then do
        let others := (← recent fromisoformat ownerId (limit * 2) none s).filter
          (fun row => !(hits.map RecordRow.id).contains row.id)
        return hits ++ others.take (limit - hits.length).toNat
      else return hits : Except ContextExc (List RecordRow)) =
      .ok (topUp RecordRow.id limit.toNat hits (shuffled.take (clamped (limit * 2)))) := by
    by_cases short : (hits.length : Int) < limit
    · have room : (limit - hits.length).toNat = limit.toNat - hits.length := by omega
      rw [if_pos short, read, room]
      rfl
    · have full : limit.toNat - hits.length = 0 := by omega
      rw [if_neg short, topUp, full, take_zero, append_nil]
      rfl
  rw [← filled]
  unfold assemble
  rcases searched with found | ⟨⟨text, raised⟩, rfl⟩
  · rw [found]
    rfl
  · rw [raised]
    rfl

theorem assembled (sound : Sound fromisoformat s) : Assembled fromisoformat fts s where
  records ownerId query limit positive most := by
    have hits : ∃ hits, (search fromisoformat fts ownerId query limit none s = .ok hits ∨
        (∃ text, search fromisoformat fts ownerId query limit none s = .error (.operationalError text)) ∧
          hits = []) ∧ (search fromisoformat fts ownerId query limit none s).toOption.getD [] = hits ∧
        (hits.map RecordRow.id).Nodup ∧ hits ⊆ visibleRows ownerId s ∧ hits.length ≤ limit.toNat := by
      rcases search_cases fts sound ownerId query limit with
        ⟨text, raised⟩ | ⟨hits, found, distinct, inside, fits⟩
      · exact ⟨[], .inr ⟨⟨text, raised⟩, rfl⟩, by rw [raised]; rfl, nodup_nil,
          nil_subset _, Nat.zero_le _⟩
      · refine ⟨hits, .inl found, by rw [found]; rfl, distinct, inside, Nat.le_trans fits ?_⟩
        unfold clamped
        omega
    obtain ⟨hits, searched, first, distinct, inside, fits⟩ := hits
    obtain ⟨shuffled, count, perm, enough, run⟩ := assemble_hits fts sound positive most searched
    have whole := (perm.map RecordRow.id).nodup_iff.mpr (visibleRows_distinct sound ownerId)
    refine ⟨_, _, run, topUp_length (visibleRows_distinct sound ownerId) distinct inside fits perm enough,
      topUp_distinct distinct (((take_sublist _ _).map _).nodup whole), fun r mem => ?_,
      by rw [first]; rfl⟩
    rcases mem_topUp mem with hit | other
    · exact visible_of_mem (inside hit)
    · exact visible_of_mem (perm.mem_iff.mp (mem_of_mem_take other))

/-- In every run of the store's calls each record goes in once, for its own owner alone, and in every
store that such a run leaves, assembling gives as many records as there are to give. -/
theorem context_assembled (calls : List Call) :
    (∀ e ∈ history (step fromisoformat recordHash) ContextStore.empty calls, ∀ record now,
      e.action = .ingest record now →
        Ingested fromisoformat recordHash e.before e.after record e.answer) ∧
      Assembled fromisoformat fts (final (step fromisoformat recordHash) ContextStore.empty calls) := by
  refine ⟨fun e member record now action => ?_, assembled fts (sound_of_calls calls)⟩
  have run := step_of_mem member
  rw [action] at run
  have one := @ingested fromisoformat recordHash e.before record now
  rwa [run] at one

end Meemee.Guarantees.ContextAssembly
