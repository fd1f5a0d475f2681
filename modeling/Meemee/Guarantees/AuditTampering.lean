import Meemee.Guarantees.AuditChain

/-!
# Tampering with a valid audit chain

An edit tampers when a field of a kept row changes or when a row goes and a later one stays. `verify`
sees every tampering exactly when no field holds the separator and, in SQLite, no column prints like
bytes; in PostgreSQL the metadata must be truthy and free of floats, and no row but the last may carry
the hash the chain starts from.
-/
namespace Meemee.Guarantees.AuditTampering
open Library Library.Separated Source Source.Audit List
open Source.Audit.SQLite (Cell)
open Guarantees.AuditText Guarantees.AuditChain

/-- What is taken for granted of SHA-256 and its hexadecimal text. -/
structure Digest (sha256 : String → String) : Prop where
  injective : Function.Injective sha256
  hexadecimal : ∀ text, separator ∉ (sha256 text).toList

variable {χ τ μ : Type}

abbrev Edit (χ τ μ : Type) := Nat → Entry χ τ μ → Option (Entry χ τ μ)

def LeavesHashes (edit : Edit χ τ μ) : Prop :=
  ∀ n row row', edit n row = some row' → row'.entryHash = row.entryHash

def Tampers (edit : Edit χ τ μ) (c : Chain χ τ μ) : Prop :=
  (∃ e ∈ c.log.entries, ∃ row', edit e.1 e.2 = some row' ∧ row'.fields ≠ e.2.fields) ∨
    ∃ e ∈ c.log.entries, ∃ later ∈ c.log.entries, e.1 < later.1 ∧
      edit e.1 e.2 = none ∧ edit later.1 later.2 ≠ none

def edited (edit : Edit χ τ μ) (c : Chain χ τ μ) : Chain χ τ μ := ⟨c.log.edit edit, c.base⟩

/-- Every tampering makes `verify` fail. -/
def Evident (verify : Chain χ τ μ → Bool × Option Nat) (c : Chain χ τ μ) : Prop :=
  ∀ edit, LeavesHashes edit → Tampers edit c → verify (edited edit c) ≠ (true, none)

def rowEdit (edit : Edit χ τ μ) (e : Nat × Entry χ τ μ) : Option (Nat × Entry χ τ μ) :=
  (edit e.1 e.2).map (fun row => (e.1, row))

theorem edited_entries (edit : Edit χ τ μ) (c : Chain χ τ μ) :
    (edited edit c).log.entries = c.log.entries.filterMap (rowEdit edit) := rfl

variable {edit : Edit χ τ μ} {e : Nat × Entry χ τ μ} {rows : List (Nat × Entry χ τ μ)} {start : String}
  {c : Chain χ τ μ} {row : Fields String Datetime Postgres.Jsonb}

theorem rowEdit_some {e' : Nat × Entry χ τ μ} (kept : rowEdit edit e = some e') :
    e'.1 = e.1 ∧ edit e.1 e.2 = some e'.2 := by
  obtain ⟨row, found, rfl⟩ := Option.map_eq_some_iff.mp kept
  exact ⟨rfl, found⟩

theorem rowEdit_none :
    rowEdit edit e = none ↔ edit e.1 e.2 = none := Option.map_eq_none_iff

variable {sha256 : String → String} {columns : Columns χ τ μ}

theorem leavesHash_rowEdit (leaves : LeavesHashes edit) :
    (format sha256 columns).LeavesHash (rowEdit edit) := by
  intro e e' kept
  exact leaves _ _ _ (rowEdit_some kept).2

/-- Where the numbers go up, an edit that keeps a prefix deletes no row before a kept one. -/
theorem gone_of_keepsPrefix
    (ordered : rows.Pairwise (fun a b => a.1 < b.1))
    (keeps : ChainFormat.KeepsPrefix (rowEdit edit) rows) {later : Nat × Entry χ τ μ}
    (stored : e ∈ rows) (stored' : later ∈ rows) (less : e.1 < later.1)
    (gone : edit e.1 e.2 = none) : edit later.1 later.2 = none := by
  induction rows with
  | nil => cases stored
  | cons r rest ih =>
    obtain ⟨first, ordered⟩ := pairwise_cons.mp ordered
    rcases mem_cons.mp stored' with last | there
    · rcases mem_cons.mp stored with here | there
      · rw [here, last] at less
        omega
      · have above := first e there
        rw [last] at less
        omega
    · cases kept : rowEdit edit r with
      | none =>
        simp only [ChainFormat.KeepsPrefix, kept] at keeps
        exact rowEdit_none.mp (keeps later there)
      | some r' =>
        simp only [ChainFormat.KeepsPrefix, kept] at keeps
        rcases mem_cons.mp stored with here | before
        · rw [here, (rowEdit_some kept).2] at gone
          cases gone
        · exact ih ordered keeps before there

/-- No column of a row can be changed without its text changing. -/
def Told (columns : Columns χ τ μ) (row : Fields χ τ μ) : Prop :=
  CleanRow columns row ∧ ∀ row', parts columns row' = parts columns row → row' = row

theorem binds_of_told (digest : Digest sha256) (linked : (format sha256 columns).Linked start rows)
    (told : ∀ e ∈ rows, Told columns e.2.fields) : (format sha256 columns).Binds rows := by
  have hashes : ∀ e ∈ rows, separator ∉ e.2.entryHash.toList := by
    intro e mem
    obtain ⟨before, after, split⟩ := append_of_mem mem
    rw [split] at linked
    have carries := ((ChainFormat.linked_append _ _ _ _).mp linked).2.1.2
    change e.2.entryHash = sha256 _ at carries
    rw [carries]
    exact digest.hexadecimal _
  intro x mem link linkMember start y same
  obtain ⟨e, stored, rfl⟩ := mem_map.mp linkMember
  exact link_of_canonical (told x mem).1 (hashes e stored) (digest.injective same)

theorem fields_of_sameDigests (digest : Digest sha256) (told : ∀ e ∈ rows, Told columns e.2.fields)
    (same : (format sha256 columns).SameDigests (rowEdit edit) start rows) :
    ∀ e ∈ rows, ∀ row', edit e.1 e.2 = some row' → row'.fields = e.2.fields := by
  induction rows generalizing start with
  | nil =>
    intro e mem
    cases mem
  | cons r rest ih =>
    intro e mem row' kept
    rcases mem_cons.mp mem with here | there
    · subst here
      have moved : rowEdit edit e = some (e.1, row') := by rw [rowEdit, kept, Option.map_some]
      have texts := digest.injective (same.1 _ moved).2
      have here := told e mem_cons_self
      exact here.2 _ (parts_of_canonical here.1 texts)
    · exact ih (fun x later => told x (mem_cons_of_mem _ later)) same.2 e there row' kept

/-- An edit of told rows that keeps a prefix and leaves the chain linked does not tamper. -/
theorem not_tampers (digest : Digest sha256) (leaves : LeavesHashes edit)
    (told : ∀ e ∈ c.log.entries, Told columns e.2.fields)
    (linked : (format sha256 columns).Linked c.start c.log.entries)
    (keeps : ChainFormat.KeepsPrefix (rowEdit edit) c.log.entries)
    (after : (format sha256 columns).Linked c.start (edited edit c).log.entries) :
    ¬ Tampers edit c := by
  have same := (ChainFormat.linked_edit_iff _ (leavesHash_rowEdit leaves) linked keeps).mp after
  rintro (⟨e, stored, row', kept, changed⟩ | ⟨e, stored, later, stored', less, gone, stays⟩)
  · exact changed (fields_of_sameDigests digest told same e stored row' kept)
  · exact stays (gone_of_keepsPrefix c.log.ordered keeps stored stored' less gone)

/-- Rewrite the fields of the row of one number. -/
def rewrite (number : Nat) (fields : Fields χ τ μ) : Edit χ τ μ :=
  fun n row => some (if n = number then { row with fields } else row)

theorem rewrite_leaves (number : Nat) (fields : Fields χ τ μ) : LeavesHashes (rewrite number fields) := by
  intro n row row' kept
  obtain rfl := Option.some.inj kept
  split <;> rfl

theorem rewrite_numbers (number : Nat) (fields : Fields χ τ μ) (rows : List (Nat × Entry χ τ μ)) :
    rows.filterMap (rowEdit (rewrite number fields)) =
      rows.map (fun e => (e.1, if e.1 = number then { e.2 with fields } else e.2)) := by
  rw [← filterMap_eq_map]
  rfl

theorem rewrite_linked {number : Nat} {fields : Fields χ τ μ}
    (linked : (format sha256 columns).Linked start rows)
    (same : ∀ e ∈ rows, e.1 = number → ∀ previous,
      canonical columns previous fields = canonical columns previous e.2.fields) :
    (format sha256 columns).Linked start (rows.filterMap (rowEdit (rewrite number fields))) := by
  rw [rewrite_numbers]
  induction rows generalizing start with
  | nil => trivial
  | cons e rest ih =>
    obtain ⟨⟨named, carries⟩, later⟩ := linked
    have tail := ih later (fun x mem => same x (mem_cons_of_mem _ mem))
    by_cases here : e.1 = number
    · have text : hash sha256 columns start fields = hash sha256 columns start e.2.fields :=
        congrArg sha256 (same e mem_cons_self here start)
      simp only [map_cons, if_pos here]
      exact ⟨⟨named, carries.trans text.symm⟩, tail⟩
    · simp only [map_cons, if_neg here]
      exact ⟨⟨named, carries⟩, tail⟩

/-- Fields with the same text can replace a row's: the rewriting tampers and stays linked. -/
theorem rewrite_unseen (linked : (format sha256 columns).Linked c.start c.log.entries)
    (stored : e ∈ c.log.entries) {fields : Fields χ τ μ} (other : fields ≠ e.2.fields)
    (same : join separator (parts columns fields) = join separator (parts columns e.2.fields)) :
    Tampers (rewrite e.1 fields) c ∧
      (format sha256 columns).Linked c.start (edited (rewrite e.1 fields) c).log.entries := by
  constructor
  · refine .inl ⟨e, stored, { e.2 with fields }, ?_, other⟩
    rw [rewrite, if_pos rfl]
  · apply rewrite_linked linked
    intro x mem numbered previous
    rw [Log.eq_of_number c.log.ordered mem stored numbered]
    exact canonical_congr same previous

/-- The cell is a text, and not one that Python prints for bytes. -/
def Plain (cell : Cell) : Prop := ∃ value, cell = .text value ∧ ∀ bytes, value ≠ SQLite.reprBytes bytes

theorem printed_inj {cell other : Cell} (plain : Plain cell) (same : other.printed = cell.printed) :
    other = cell := by
  obtain ⟨value, rfl, apart⟩ := plain
  cases other with
  | text value' => exact congrArg Cell.text same
  | blob bytes => exact absurd same.symm (apart bytes)

theorem other_printed {cell : Cell} (odd : ¬ Plain cell) :
    ∃ other : Cell, other ≠ cell ∧ other.printed = cell.printed := by
  cases cell with
  | blob bytes => exact ⟨.text (SQLite.reprBytes bytes), nofun, rfl⟩
  | text value =>
    by_contra alone
    refine odd ⟨value, rfl, fun bytes same => alone ⟨.blob bytes, nofun, same.symm⟩⟩

def cells (row : Fields Cell Cell Cell) : List Cell :=
  [row.occurredAt, row.actorId, row.action, row.resource, row.outcome, row.metadata]

def PlainRow (row : Fields Cell Cell Cell) : Prop := ∀ cell ∈ cells row, Plain cell

theorem parts_cells (row : Fields Cell Cell Cell) :
    parts SQLite.columns row = (cells row).map (fun cell => cell.printed.toList) := rfl

theorem row_of_cells {values : List Cell} (six : values.length = 6) :
    ∃ row : Fields Cell Cell Cell, cells row = values := by
  match values, six with
  | [a, b, c, d, e, f], _ => exact ⟨⟨a, b, c, d, e, f⟩, rfl⟩

theorem told_text {row : Fields Cell Cell Cell} (clean : CleanRow SQLite.columns row)
    (plain : PlainRow row) : Told SQLite.columns row := by
  refine ⟨clean, ?_⟩
  intro row' same
  obtain ⟨occurredAt, actorId, action, resource, outcome, metadata⟩ := row
  obtain ⟨occurredAt', actorId', action', resource', outcome', metadata'⟩ := row'
  simp only [PlainRow, cells, forall_mem_cons] at plain
  obtain ⟨plainTime, plainActor, plainAction, plainResource, plainOutcome, plainMetadata, -⟩ := plain
  simp only [parts, SQLite.columns, List.cons.injEq, String.toList_inj, and_true] at same
  obtain ⟨times, actors, actions, resources, outcomes, texts⟩ := same
  rw [printed_inj plainTime times, printed_inj plainActor actors, printed_inj plainAction actions,
    printed_inj plainResource resources, printed_inj plainOutcome outcomes,
    printed_inj plainMetadata texts]

theorem reprint_text {row : Fields Cell Cell Cell} (odd : ¬ PlainRow row) :
    ∃ row', row' ≠ row ∧ parts SQLite.columns row' = parts SQLite.columns row := by
  simp only [PlainRow, not_forall] at odd
  obtain ⟨cell, mem, odd⟩ := odd
  obtain ⟨before, after, split⟩ := append_of_mem mem
  obtain ⟨other, changed, same⟩ := other_printed odd
  have six : (before ++ cell :: after).length = 6 := by
    rw [← split]
    rfl
  obtain ⟨row', written⟩ : ∃ row', cells row' = before ++ other :: after :=
    row_of_cells (by simpa using six)
  refine ⟨row', ?_, ?_⟩
  · intro equal
    rw [equal, split] at written
    exact changed (List.cons.inj (append_cancel_left written)).1.symm
  · rw [parts_cells, parts_cells, written, split]
    simp only [map_append, map_cons, same]

theorem keepsPrefix_of_consecutive {expected : Nat} (before : Consecutive expected rows)
    (after : Consecutive expected (rows.filterMap (rowEdit edit))) :
    ChainFormat.KeepsPrefix (rowEdit edit) rows := by
  induction rows generalizing expected with
  | nil => trivial
  | cons e rest ih =>
    obtain ⟨numbered, later⟩ := before
    cases kept : rowEdit edit e with
    | some e' =>
      simp only [filterMap_cons, kept, Consecutive] at after
      simp only [ChainFormat.KeepsPrefix, kept]
      exact ih later after.2
    | none =>
      simp only [ChainFormat.KeepsPrefix, kept]
      rcases ChainFormat.first_kept (rowEdit edit) rest with all | ⟨gone, x, x', more, split, none_kept, found⟩
      · exact all
      · -- The first row kept has the expected number, and every row after `e` a higher one.
        have first : x'.1 = expected := by
          rw [split, filterMap_cons, kept, filterMap_append,
            ChainFormat.filterMap_none none_kept, filterMap_cons, found] at after
          exact after.1
        have above := le_of_consecutive later x (by rw [split]; simp)
        have same := (rowEdit_some found).1
        omega

theorem resplit_text {row : Fields Cell Cell Cell} (unclean : ¬ CleanRow SQLite.columns row) :
    ∃ row', row' ≠ row ∧ join separator (parts SQLite.columns row') =
      join separator (parts SQLite.columns row) := by
  obtain ⟨texts, six, other, same⟩ := join_resplit (by simp [parts]) unclean
  obtain ⟨row', values⟩ : ∃ row', cells row' = texts.map (fun text => .text (String.ofList text)) :=
    row_of_cells (by rw [length_map]; exact six)
  have written : parts SQLite.columns row' = texts := by
    rw [parts_cells, values, map_map]
    exact map_id'' (fun text => String.toList_ofList) texts
  refine ⟨row', ?_, by rw [written, same]⟩
  intro equal
  rw [equal] at written
  exact other written.symm

/-- A row whose text another row has: some part holds the separator, or a cell prints like another. -/
theorem rewrite_text {row : Fields Cell Cell Cell} (odd : ¬ (CleanRow SQLite.columns row ∧ PlainRow row)) :
    ∃ row', row' ≠ row ∧ join separator (parts SQLite.columns row') =
      join separator (parts SQLite.columns row) := by
  by_cases clean : CleanRow SQLite.columns row
  · obtain ⟨row', other, same⟩ := reprint_text (fun plain => odd ⟨clean, plain⟩)
    exact ⟨row', other, by rw [same]⟩
  · exact resplit_text clean

theorem sqlite_evident_iff (digest : Digest sha256) {c : SQLite.TextChain}
    (valid : SQLite.verify sha256 c = (true, none)) :
    Evident (SQLite.verify sha256) c ↔
      ∀ e ∈ c.log.entries, CleanRow SQLite.columns e.2.fields ∧ PlainRow e.2.fields := by
  obtain ⟨linked, consecutive⟩ := verify_iff.mp valid
  constructor
  · intro evident e stored
    by_contra odd
    obtain ⟨fields, changed, same⟩ := rewrite_text odd
    obtain ⟨tampers, stays⟩ := rewrite_unseen linked stored changed same
    have numbers : Consecutive (c.floor + 1) (edited (rewrite e.1 fields) c).log.entries := by
      rw [edited_entries, rewrite_numbers]
      exact consecutive_map consecutive
    exact evident _ (rewrite_leaves _ _) tampers (verify_iff.mpr ⟨stays, numbers⟩)
  · intro clean edit leaves tampers accepted
    obtain ⟨after, numbers⟩ := verify_iff.mp accepted
    have told : ∀ e ∈ c.log.entries, Told SQLite.columns e.2.fields :=
      fun e stored => told_text (clean e stored).1 (clean e stored).2
    have keeps := keepsPrefix_of_consecutive consecutive numbers
    exact not_tampers digest leaves told linked keeps after tampers

/-- The metadata of a row are encoded as themselves, not as an empty object, and hold no float, of
which endlessly many stored decimals are read. -/
def Truthful (row : Fields String Datetime Postgres.Jsonb) : Prop :=
  truthy row.metadata.value = true ∧ Postgres.floatCount row.metadata.value = 0

theorem told_typed (clean : CleanRow Postgres.columns row) (truthful : Truthful row) :
    Told Postgres.columns row := by
  refine ⟨clean, ?_⟩
  intro row' same
  obtain ⟨occurredAt', actorId', action', resource', outcome', metadata'⟩ := row'
  simp only [parts, Postgres.columns, id_eq, List.cons.injEq, String.toList_inj, and_true] at same
  obtain ⟨times, rfl, rfl, rfl, rfl, encoded⟩ := same
  rw [isoformat_inj times, ← encoded_inj truthful.1 truthful.2 encoded.symm]

theorem reencode_typed (odd : ¬ Truthful row) :
    ∃ row', row' ≠ row ∧ parts Postgres.columns row' = parts Postgres.columns row := by
  have others : ∃ metadata : Postgres.Jsonb, metadata ≠ row.metadata ∧
      metadata.encoded = row.metadata.encoded := by
    cases truth : truthy row.metadata.value with
    | false => exact encoded_of_falsy truth
    | true => exact encoded_of_float (fun none_there => odd ⟨truth, none_there⟩)
  obtain ⟨metadata, other, same⟩ := others
  refine ⟨{ row with metadata }, fun equal => other (congrArg Fields.metadata equal), ?_⟩
  simp only [parts, Postgres.columns, same]

def texts (row : Fields String Datetime Postgres.Jsonb) : List (List Char) :=
  [row.actorId.toList, row.action.toList, row.resource.toList, row.outcome.toList]

theorem parts_texts (row : Fields String Datetime Postgres.Jsonb) :
    parts Postgres.columns row = row.occurredAt.isoformat.toList ::
      (texts row ++ [row.metadata.encoded.toList]) := rfl

theorem unclean_texts (unclean : ¬ CleanRow Postgres.columns row) :
    ¬ Clean separator (texts row) := by
  intro clean
  apply unclean
  intro part mem
  rw [parts_texts, mem_cons, mem_append, mem_singleton] at mem
  rcases mem with time | text | metadata
  · rw [time]
    exact separator_notMem_isoformat _
  · exact clean part text
  · rw [metadata]
    exact separator_notMem_encoded _

theorem join_texts {row' : Fields String Datetime Postgres.Jsonb}
    (time : row'.occurredAt = row.occurredAt) (metadata : row'.metadata = row.metadata)
    (same : join separator (texts row') = join separator (texts row)) :
    join separator (parts Postgres.columns row') = join separator (parts Postgres.columns row) := by
  have whole : ∀ r, join separator (parts Postgres.columns r) =
      r.occurredAt.isoformat.toList ++ separator :: (join separator (texts r) ++
        separator :: join separator [r.metadata.encoded.toList]) := by
    intro r
    have tail : join separator (texts r ++ [r.metadata.encoded.toList]) =
        join separator (texts r) ++ separator :: join separator [r.metadata.encoded.toList] :=
      join_append separator (cons_ne_nil _ _) (cons_ne_nil _ _)
    rw [← tail]
    rfl
  rw [whole, whole, same, time, metadata]

theorem resplit_typed (unclean : ¬ CleanRow Postgres.columns row) :
    ∃ row', row' ≠ row ∧ join separator (parts Postgres.columns row') =
      join separator (parts Postgres.columns row) := by
  obtain ⟨others, four, other, same⟩ := join_resplit (by simp [texts]) (unclean_texts unclean)
  obtain ⟨a, b, c, d, rfl⟩ : ∃ a b c d, others = [a, b, c, d] := by
    match others, four with
    | [a, b, c, d], _ => exact ⟨a, b, c, d, rfl⟩
  let row' : Fields String Datetime Postgres.Jsonb :=
    { row with actorId := String.ofList a, action := String.ofList b, resource := String.ofList c,
               outcome := String.ofList d }
  have written : texts row' = [a, b, c, d] := by
    simp only [texts, row', String.toList_ofList]
  refine ⟨row', ?_, join_texts rfl rfl (by rw [written, same])⟩
  intro equal
  rw [equal] at written
  exact other written.symm

theorem rewrite_typed (odd : ¬ (CleanRow Postgres.columns row ∧ Truthful row)) :
    ∃ row', row' ≠ row ∧ join separator (parts Postgres.columns row') =
      join separator (parts Postgres.columns row) := by
  by_cases clean : CleanRow Postgres.columns row
  · obtain ⟨row', other, same⟩ := reencode_typed (fun truthful => odd ⟨clean, truthful⟩)
    exact ⟨row', other, by rw [same]⟩
  · exact resplit_typed clean

/-- Delete every row up to a number. -/
def cut (number : Nat) : Edit χ τ μ := fun n row => if n ≤ number then none else some row

theorem cut_leaves (number : Nat) : LeavesHashes (cut number : Edit χ τ μ) := by
  intro n row row' kept
  unfold cut at kept
  split at kept
  · cases kept
  · obtain rfl := Option.some.inj kept
    rfl

theorem cut_entries {before after : List (Nat × Entry χ τ μ)}
    (ordered : (before ++ e :: after).Pairwise (fun a b => a.1 < b.1)) :
    (before ++ e :: after).filterMap (rowEdit (cut e.1)) = after := by
  obtain ⟨-, tail, across⟩ := pairwise_append.mp ordered
  have gone : ∀ x ∈ before, rowEdit (cut e.1) x = none := by
    intro x mem
    have less := across x mem e mem_cons_self
    exact rowEdit_none.mpr (if_pos (by omega))
  have here : rowEdit (cut e.1) e = none := rowEdit_none.mpr (if_pos (Nat.le_refl _))
  have kept : ∀ x ∈ after, rowEdit (cut e.1) x = some x := by
    intro x mem
    have less := (pairwise_cons.mp tail).1 x mem
    rw [rowEdit, cut, if_neg (by omega), Option.map_some]
  rw [filterMap_append, ChainFormat.filterMap_none gone, filterMap_cons,
    here]
  exact (filterMap_congr kept).trans filterMap_some

theorem cut_unseen (linked : (format sha256 columns).Linked c.start c.log.entries)
    (returns : c.start ∈ (c.log.entries.map (fun e => e.2.entryHash)).dropLast) :
    ∃ number, Tampers (cut number) c ∧
      (format sha256 columns).Linked c.start (edited (cut number) c).log.entries := by
  rw [← map_dropLast] at returns
  obtain ⟨e, mem, hash⟩ := mem_map.mp returns
  obtain ⟨before, between, split⟩ := append_of_mem mem
  have nonempty : c.log.entries ≠ [] := by
    intro empty
    rw [empty] at mem
    cases mem
  have whole : c.log.entries = before ++ e :: (between ++ [c.log.entries.getLast nonempty]) := by
    conv_lhs => rw [← dropLast_append_getLast nonempty]
    rw [split, append_assoc, cons_append]
  have ordered := c.log.ordered
  generalize c.log.entries.getLast nonempty = last at whole
  rw [whole] at ordered
  refine ⟨e.1, .inr ⟨e, by simp [whole], last, by simp [whole], ?_, if_pos (Nat.le_refl _), ?_⟩, ?_⟩
  · exact (pairwise_cons.mp (pairwise_append.mp ordered).2.1).1 last (by simp)
  · have less := (pairwise_cons.mp (pairwise_append.mp ordered).2.1).1 last (by simp)
    rw [cut, if_neg (by omega)]
    exact Option.some_ne_none _
  · rw [edited_entries, whole, cut_entries ordered]
    rw [whole] at linked
    exact ChainFormat.linked_of_return _ linked hash

theorem postgres_evident_iff (digest : Digest sha256) {c : Postgres.TypedChain}
    (valid : Postgres.verify sha256 c = (true, none)) :
    Evident (Postgres.verify sha256) c ↔
      (∀ e ∈ c.log.entries, CleanRow Postgres.columns e.2.fields ∧ Truthful e.2.fields) ∧
        c.start ∉ (c.log.entries.map (fun e => e.2.entryHash)).dropLast := by
  obtain ⟨linked, above⟩ := verifyTyped_iff.mp valid
  have numbered : ∀ edit : Edit String Datetime Postgres.Jsonb, ∀ e ∈ (edited edit c).log.entries,
      c.floor < e.1 := by
    intro edit e mem
    obtain ⟨old, stored, kept⟩ := mem_filterMap.mp mem
    rw [(rowEdit_some kept).1]
    exact above old stored
  constructor
  · intro evident
    constructor
    · intro e stored
      by_contra odd
      obtain ⟨fields, changed, same⟩ := rewrite_typed odd
      obtain ⟨tampers, stays⟩ := rewrite_unseen linked stored changed same
      exact evident _ (rewrite_leaves _ _) tampers (verifyTyped_iff.mpr ⟨stays, numbered _⟩)
    · intro returns
      obtain ⟨number, tampers, stays⟩ := cut_unseen linked returns
      exact evident _ (cut_leaves number) tampers (verifyTyped_iff.mpr ⟨stays, numbered _⟩)
  · rintro ⟨clean, apart⟩ edit leaves tampers accepted
    obtain ⟨after, -⟩ := verifyTyped_iff.mp accepted
    have told : ∀ e ∈ c.log.entries, Told Postgres.columns e.2.fields :=
      fun e stored => told_typed (clean e stored).1 (clean e stored).2
    have keeps := ChainFormat.keepsPrefix_of_linked _ (leavesHash_rowEdit leaves)
      (binds_of_told digest linked told) linked apart after
    exact not_tampers digest leaves told linked keeps after tampers

/-- `verify` sees every tampering with a valid chain exactly when the texts of its rows
can be read in one way and, without a check of the numbers, its links in one order. -/
theorem tampering_evident_iff (digest : Digest sha256) :
    (∀ c : SQLite.TextChain, SQLite.verify sha256 c = (true, none) →
      (Evident (SQLite.verify sha256) c ↔
        ∀ e ∈ c.log.entries, CleanRow SQLite.columns e.2.fields ∧ PlainRow e.2.fields)) ∧
    ∀ c : Postgres.TypedChain, Postgres.verify sha256 c = (true, none) →
      (Evident (Postgres.verify sha256) c ↔
        (∀ e ∈ c.log.entries, CleanRow Postgres.columns e.2.fields ∧ Truthful e.2.fields) ∧
          c.start ∉ (c.log.entries.map (fun e => e.2.entryHash)).dropLast) :=
  ⟨fun _ valid => sqlite_evident_iff digest valid, fun _ valid => postgres_evident_iff digest valid⟩

/-- A function that is SHA-256 on one text and tells all others apart. -/
def standIn (text digest : String) (t : String) : String := if t = text then digest else Json.quote t

theorem quote_inj {a b : String} (same : Json.quote a = Json.quote b) : a = b := by
  have texts : a.toList.flatMap Json.escapeChar ++ ['"'] = b.toList.flatMap Json.escapeChar ++ ['"'] :=
    (List.cons.inj (String.ofList_inj.mp same)).2
  have read := JsonLoading.readString_escaped JsonLoading.unescaped_ascii a []
  have read' := JsonLoading.readString_escaped JsonLoading.unescaped_ascii b []
  rw [texts, read'] at read
  exact (Prod.mk.inj (Option.some.inj read)).1.symm

theorem standIn_digest {text digest : String} (unquoted : digest.toList.head? ≠ some '"')
    (hexadecimal : separator ∉ digest.toList) : Digest (standIn text digest) := by
  have quotes : ∀ t, digest ≠ Json.quote t := by
    intro t same
    rw [same, Json.quote, String.toList_ofList] at unquoted
    exact unquoted rfl
  constructor
  · intro t u same
    unfold standIn at same
    split at same
    next here =>
      split at same
      next there => rw [here, there]
      next => exact absurd same (quotes u)
    next =>
      split at same
      next => exact absurd same.symm (quotes t)
      next => exact quote_inj same
  · intro t
    unfold standIn
    split
    next => exact hexadecimal
    next =>
      have written : Json.dumps {} (.str t) = .ok (Json.quote t) := rfl
      have printable := JsonPrinted.dumps_printable (v := .str t) trivial written separator
      exact fun mem => absurd (printable mem) (by unfold JsonPrinted.Printable; decide)

/-- The row of an administrator's `PUT /v1/quota/{principal_id}`. -/
def quotaRow (principal : String) : Fields Cell Cell Cell :=
  ⟨.text "2026-01-02T03:04:05+00:00", .text "api", .text "quota.update", .text principal,
    .text "success", .text "\x7b\"daily_jobs\":3\x7d"⟩

/-- The chain of that one row. -/
def quotaChain (digest principal : String) : SQLite.TextChain :=
  ⟨Log.empty.append ⟨quotaRow principal, ZERO, digest⟩, none⟩

def adaDigest : String := "e63dfa295a1aa4c35cee2756aa950b8a616dc2c8d98b7a7a335257ba09cdff6a"

theorem adas_quota_evident :
    Evident (SQLite.verify (standIn (canonical SQLite.columns ZERO (quotaRow "ada")) adaDigest))
      (quotaChain adaDigest "ada") ↔
      ∀ e ∈ (quotaChain adaDigest "ada").log.entries,
        CleanRow SQLite.columns e.2.fields ∧ PlainRow e.2.fields :=
  (tampering_evident_iff (standIn_digest (by decide) (by decide))).1 (quotaChain adaDigest "ada")
    (by decide +kernel)

def splitDigest : String := "2ea320ff01ddb46471ac1e0f90f08c7f2b1fa05a0bbe6d3a1086aaa6f71b9959"

/-- A principal whose name holds the separator: its second half becomes a part of the
outcome. -/
theorem moved_separator_unseen :
    ¬ ∀ sha256, Digest sha256 →
      (∀ c : SQLite.TextChain, SQLite.verify sha256 c = (true, none) →
        Evident (SQLite.verify sha256) c) ∧
      ∀ c : Postgres.TypedChain, Postgres.verify sha256 c = (true, none) →
        Evident (Postgres.verify sha256) c := by
  intro claimed
  let row := quotaRow "ada\x1fbob"
  have evident := (claimed (standIn (canonical SQLite.columns ZERO row) splitDigest)
    (standIn_digest (by decide) (by decide))).1 (quotaChain splitDigest "ada\x1fbob") (by decide +kernel)
  let moved : Fields Cell Cell Cell := 
    { row with resource := .text "ada", outcome := .text "bob\x1fsuccess" }
  refine evident (rewrite 1 moved) (rewrite_leaves 1 moved) (Or.inl ?_) (by decide +kernel)
  exact ⟨(1, ⟨row, ZERO, splitDigest⟩), by simp [quotaChain, Log.append, Log.empty, row],
    ⟨moved, ZERO, splitDigest⟩, by simp [rewrite], by decide⟩

end Meemee.Guarantees.AuditTampering
