import Meemee.Guarantees.AuditText
import Meemee.Library.HashChain

/-!
# What verify checks

`verify` accepts a chain exactly when each row names the hash before it and carries the
hash of its own text, the first from the base on, and the numbers are right: consecutive
in SQLite, above the base in PostgreSQL.
-/
namespace Meemee.Guarantees.AuditChain
open Library Source Source.Audit List
open Source.Audit.SQLite (Cell)
open Guarantees.AuditText

/-- Numbered rows as a chain of hashes. -/
def format {χ τ μ : Type} (sha256 : String → String) (columns : Columns χ τ μ) :
    ChainFormat (Nat × Entry χ τ μ) String where
  previous e := e.2.previousHash
  hash e := e.2.entryHash
  digest start e := hash sha256 columns start e.2.fields

/-- Numbers that follow each other. -/
def Consecutive {ρ : Type} : Nat → List (Nat × ρ) → Prop
  | _, [] => True
  | expected, e :: rest => e.1 = expected ∧ Consecutive (expected + 1) rest

theorem consecutive_append {ρ : Type} (expected : Nat) (first second : List (Nat × ρ)) :
    Consecutive expected (first ++ second) ↔
      Consecutive expected first ∧ Consecutive (expected + first.length) second := by
  induction first generalizing expected with
  | nil => simp [Consecutive]
  | cons e rest ih =>
    have shift : expected + 1 + rest.length = expected + (e :: rest).length := by
      rw [length_cons]
      omega
    rw [cons_append, Consecutive, Consecutive, ih, shift, and_assoc]

variable {expected n : Nat} {sha256 : String → String} {k : Int} {h previous : String}

theorem consecutive_map {ρ κ : Type} {f : Nat × ρ → κ} {rows : List (Nat × ρ)}
    (consecutive : Consecutive expected rows) :
    Consecutive expected (rows.map (fun e => (e.1, f e))) := by
  induction rows generalizing expected with
  | nil => trivial
  | cons e rest ih => exact ⟨consecutive.1, ih consecutive.2⟩

theorem le_of_consecutive {ρ : Type} {rows : List (Nat × ρ)}
    (consecutive : Consecutive expected rows) : ∀ e ∈ rows, expected ≤ e.1 := by
  induction rows generalizing expected with
  | nil =>
    intro e mem
    cases mem
  | cons r rest ih =>
    intro e mem
    rcases mem_cons.mp mem with here | later
    · rw [here, consecutive.1]
    · have above := ih consecutive.2 e later
      omega

theorem last_eq_head {χ τ μ : Type} (sha256 : String → String) (columns : Columns χ τ μ) (c : Chain χ τ μ) :
    c.last = (format sha256 columns).head c.start c.log.entries := by
  unfold Chain.last
  cases ends : c.log.entries.getLast? with
  | none =>
    rw [List.getLast?_eq_none_iff.mp ends]
    rfl
  | some e =>
    obtain ⟨front, shape⟩ := List.getLast?_eq_some_iff.mp ends
    rw [shape, ChainFormat.head_concat]
    rfl

variable {χ τ μ : Type}

/-- The number and the hash of the last stored row, else of the base. -/
def headOf (c : Chain χ τ μ) : Nat × String :=
  match c.log.entries.getLast? with
  | none => (c.floor, c.start)
  | some e => (e.1, e.2.entryHash)

theorem headOf_last (c : Chain χ τ μ) : (headOf c).2 = c.last := by
  unfold headOf Chain.last
  cases c.log.entries.getLast? <;> rfl

/-- A chain after an appended row. -/
def extended (c : Chain χ τ μ) (row : Entry χ τ μ) : Chain χ τ μ := { c with log := c.log.append row }

theorem headOf_extended (c : Chain χ τ μ) (row : Entry χ τ μ) :
    headOf (extended c row) = (c.log.next, row.entryHash) := by
  unfold headOf extended Log.append
  rw [List.getLast?_concat]

variable {columns : Columns χ τ μ} {row : Entry χ τ μ} {rows : List (Nat × Entry Cell Cell Cell)}
  {number : Option Nat} {floor : Nat}

variable {c : Chain χ τ μ}

theorem linked_extended
    (linked : (format sha256 columns).Linked c.start c.log.entries)
    (named : row.previousHash = c.last)
    (carries : row.entryHash = hash sha256 columns c.last row.fields) :
    (format sha256 columns).Linked (extended c row).start (extended c row).log.entries := by
  rw [last_eq_head sha256 columns] at named carries
  exact (ChainFormat.linked_concat _ _ _ _).mpr ⟨linked, named, carries⟩

/-- The numbers of the rows lie above the base. -/
def Above (c : Chain χ τ μ) : Prop := ∀ e ∈ c.log.entries, c.floor < e.1

theorem recorded_iff (above : Above c) :
    c.recorded k = some h ↔ (∃ e ∈ c.log.entries, (e.1 : Int) = k ∧ e.2.entryHash = h) ∨
      ∃ b, c.base = some b ∧ (b.sequence : Int) = k ∧ b.entryHash = h := by
  unfold Chain.recorded
  cases found : c.log.entries.find? (fun e => decide ((e.1 : Int) = k)) with
  | some e =>
    have stored := mem_of_find?_eq_some found
    have numbered : (e.1 : Int) = k := by simpa using List.find?_some found
    constructor
    · intro same
      exact .inl ⟨e, stored, numbered, Option.some.inj same⟩
    · rintro (⟨e', stored', numbered', hash⟩ | ⟨b, base, numbered', -⟩)
      · have same := Log.eq_of_number c.log.ordered stored stored' (by omega)
        rw [same]
        exact congrArg some hash
      · have high := above e stored
        rw [Chain.floor, base] at high
        simp only at high
        omega
  | none =>
    have missing : ∀ e ∈ c.log.entries, (e.1 : Int) ≠ k := by
      intro e stored numbered
      exact absurd (List.find?_eq_none.mp found e stored) (by simp [numbered])
    cases base : c.base with
    | none =>
      constructor
      · intro same
        cases same
      · rintro (⟨e, stored, numbered, -⟩ | ⟨b, none_there, -⟩)
        · exact absurd numbered (missing e stored)
        · cases none_there
    | some b =>
      constructor
      · intro same
        obtain ⟨b', kept, hash⟩ := Option.map_eq_some_iff.mp same
        obtain ⟨here, numbered⟩ := Option.filter_eq_some_iff.mp kept
        exact .inr ⟨b', here, by simpa using numbered, hash⟩
      · rintro (⟨e, stored, numbered, -⟩ | ⟨b', here, numbered, hash⟩)
        · exact absurd numbered (missing e stored)
        · cases here
          simp [numbered, hash]

theorem recorded_of_matched {anchor : Anchor}
    (matched : c.headMatches anchor = true) (sequence : anchor.sequence = some (n : Int))
    (hash : anchor.entryHash = some h) (positive : 1 ≤ n) : c.recorded n = some h := by
  rw [Chain.headMatches, sequence] at matched
  simp only at matched
  split at matched
  next g found =>
    rw [hash] at matched
    rw [found]
    exact (of_decide_eq_true matched).symm
  next =>
    have zero : (n : Int) = 0 := of_decide_eq_true matched
    omega

theorem floor_le_of_recorded (above : Above c) (found : c.recorded n = some h) :
    c.floor ≤ n := by
  rcases (recorded_iff above).mp found with ⟨e, stored, number, -⟩ | ⟨b, base, number, -⟩
  · have high := above e stored
    omega
  · rw [Chain.floor, base]
    simp only
    omega

theorem recorded_extended (above : Above c) (above' : Above (extended c row))
    (found : c.recorded k = some h) : (extended c row).recorded k = some h := by
  rw [recorded_iff above] at found
  rw [recorded_iff above']
  rcases found with ⟨e, stored, numbered⟩ | base
  · exact .inl ⟨e, mem_append_left _ stored, numbered⟩
  · exact .inr base

/-- The rows through a number. -/
def through (c : Chain χ τ μ) (n : Nat) : List (Nat × Entry χ τ μ) :=
  c.log.entries.filter (fun e => decide (e.1 ≤ n))

theorem mem_through {e : Nat × Entry χ τ μ} :
    e ∈ through c n ↔ e ∈ c.log.entries ∧ e.1 ≤ n := by
  simp [through, mem_filter]

theorem cut_at (sha256 : String → String) (columns : Columns χ τ μ) (above : Above c)
    (found : c.recorded n = some h) :
    c.log.entries = through c n ++ (c.log.deleteThrough n).entries ∧
      (format sha256 columns).head c.start (through c n) = h ∧
      ((through c n = [] ∧ c.floor = n) ∨ ∃ front e, through c n = front ++ [e] ∧ e.1 = n) := by
  unfold through
  refine ⟨Log.filter_through c.log.ordered n, ?_⟩
  rcases (recorded_iff above).mp found with ⟨e, stored, numbered, hash⟩ | ⟨b, base, numbered, hash⟩
  · have number : e.1 = n := by omega
    have kept : e ∈ c.log.entries.filter (fun e => decide (e.1 ≤ n)) :=
      mem_filter.mpr ⟨stored, by simp [number]⟩
    have ends : ∃ front, c.log.entries.filter (fun e => decide (e.1 ≤ n)) = front ++ [e] := by
      obtain ⟨before, after, split⟩ := append_of_mem kept
      cases after with
      | nil => exact ⟨before, split⟩
      | cons x after =>
        have ordered := c.log.ordered.sublist
          (filter_sublist (p := fun e => decide (e.1 ≤ n)) (l := c.log.entries))
        rw [split] at ordered
        have less := (pairwise_cons.mp (pairwise_append.mp ordered).2.1).1 x (by simp)
        have within : x ∈ c.log.entries.filter (fun e => decide (e.1 ≤ n)) := by
          rw [split]
          simp
        have low : x.1 ≤ n := by simpa using (mem_filter.mp within).2
        omega
    obtain ⟨front, split⟩ := ends
    refine ⟨?_, .inr ⟨front, e, split, number⟩⟩
    rw [split, ChainFormat.head_concat]
    exact hash
  · have floor : c.floor = n := by
      rw [Chain.floor, base]
      exact Int.ofNat_inj.mp numbered
    have empty : c.log.entries.filter (fun e => decide (e.1 ≤ n)) = [] := by
      rw [filter_eq_nil_iff]
      intro e stored
      have high := above e stored
      simp only [decide_eq_true_eq]
      omega
    refine ⟨?_, .inl ⟨empty, floor⟩⟩
    rw [empty]
    rw [Chain.start, base]
    exact hash

theorem linked_pruned
    (linked : (format sha256 columns).Linked c.start c.log.entries) (above : Above c)
    (found : c.recorded n = some h) :
    (format sha256 columns).Linked (c.pruned n h).start (c.pruned n h).log.entries := by
  obtain ⟨split, head, -⟩ := cut_at sha256 columns above found
  rw [split, ChainFormat.linked_append, head] at linked
  exact linked.2

theorem above_pruned (c : Chain χ τ μ) (n : Nat) (h : String) : Above (c.pruned n h) := by
  intro e mem
  show n < e.1
  simpa using (mem_filter.mp mem).2

theorem recorded_pruned (above : Above c) (found : c.recorded n = some h)
    {g : String} (later : (n : Int) ≤ k) (found' : c.recorded k = some g) :
    (c.pruned n h).recorded k = some g := by
  rw [recorded_iff (above_pruned c n h)]
  rcases Int.lt_or_eq_of_le later with higher | same
  · rcases (recorded_iff above).mp found' with ⟨e, stored, numbered, hash⟩ | ⟨b, base, numbered, -⟩
    · refine .inl ⟨e, mem_filter.mpr ⟨stored, ?_⟩, numbered, hash⟩
      simp only [decide_eq_true_eq]
      omega
    · rcases (recorded_iff above).mp found with ⟨e, stored, numbered', -⟩ | ⟨b', base', numbered', -⟩
      · have high := above e stored
        rw [Chain.floor, base] at high
        simp only at high
        omega
      · rw [base] at base'
        cases base'
        omega
  · subst same
    rw [found] at found'
    exact .inr ⟨⟨n, h⟩, rfl, rfl, Option.some.inj found'⟩

theorem headOf_pruned (above : Above c) (found : c.recorded n = some h) :
    headOf (c.pruned n h) = headOf c := by
  obtain ⟨split, head, shape⟩ := cut_at id ⟨fun _ => "", fun _ => "", fun _ => ""⟩ above found
  have entries : (c.pruned n h).log.entries = (c.log.deleteThrough n).entries := rfl
  unfold headOf
  rw [entries, split]
  generalize (c.log.deleteThrough n).entries = high at *
  generalize through c n = low at *
  rcases eq_nil_or_concat high with empty | ⟨front, e, ends⟩
  · subst empty
    rw [append_nil]
    rcases shape with ⟨none_low, floor⟩ | ⟨front, e, ends, number⟩
    · subst none_low
      rw [← floor, ← head]
      rfl
    · rw [ends, ChainFormat.head_concat] at head
      rw [ends, List.getLast?_concat]
      show (n, h) = (e.1, e.2.entryHash)
      rw [number, ← head]
      rfl
  · rw [concat_eq_append] at ends
    rw [ends, ← append_assoc, List.getLast?_concat, List.getLast?_concat]

theorem verifyRows_iff :
    SQLite.verifyRows sha256 previous expected rows = (true, none) ↔
      (format sha256 SQLite.columns).Linked previous rows ∧ Consecutive expected rows := by
  induction rows generalizing previous expected with
  | nil => exact iff_of_true rfl ⟨trivial, trivial⟩
  | cons e rest ih =>
    simp only [SQLite.verifyRows, ChainFormat.Linked, Consecutive, format]
    split
    next other =>
      constructor
      · intro failed
        cases failed
      · intro valid
        exact absurd valid.2.1 other
    next numbered =>
      split
      next broken =>
        constructor
        · intro failed
          cases failed
        · intro valid
          exact absurd broken (by rw [not_or, not_not, not_not]; exact valid.1.1)
      next holds =>
        rw [not_or, not_not, not_not] at holds
        rw [not_not] at numbered
        rw [ih]
        constructor
        · intro rest_valid
          exact ⟨⟨holds, rest_valid.1⟩, numbered, rest_valid.2⟩
        · intro valid
          exact ⟨valid.1.2, valid.2.2⟩

theorem verify_iff {c : SQLite.TextChain} :
    SQLite.verify sha256 c = (true, none) ↔
      (format sha256 SQLite.columns).Linked c.start c.log.entries ∧
        Consecutive (c.floor + 1) c.log.entries := verifyRows_iff

theorem verifyRows_number (run : SQLite.verifyRows sha256 previous expected rows = (true, number)) :
    number = none := by
  induction rows generalizing previous expected with
  | nil =>
    cases run
    rfl
  | cons e rest ih =>
    unfold SQLite.verifyRows at run
    split at run
    · cases run
    · split at run
      · cases run
      · exact ih run

theorem verified (sha256 : String → String) (c : SQLite.TextChain) :
    (SQLite.verify sha256 c).1 = true ↔ SQLite.verify sha256 c = (true, none) := by
  constructor
  · intro valid
    cases run : SQLite.verify sha256 c with
    | mk verdict number =>
      rw [run] at valid
      obtain rfl : verdict = true := valid
      rw [verifyRows_number run]
  · intro valid
    rw [valid]

theorem typedRows_number {rows : List (Nat × Entry String Datetime Postgres.Jsonb)}
    (run : Postgres.verifyRows sha256 floor previous rows = (true, number)) : number = none := by
  induction rows generalizing previous with
  | nil =>
    cases run
    rfl
  | cons e rest ih =>
    unfold Postgres.verifyRows at run
    split at run
    · cases run
    · split at run
      · cases run
      · exact ih run

theorem verifiedTyped (sha256 : String → String) (c : Postgres.TypedChain) :
    (Postgres.verify sha256 c).1 = true ↔ Postgres.verify sha256 c = (true, none) := by
  constructor
  · intro valid
    cases run : Postgres.verify sha256 c with
    | mk verdict number =>
      rw [run] at valid
      obtain rfl : verdict = true := valid
      rw [typedRows_number run]
  · intro valid
    rw [valid]

theorem typedRows_iff {rows : List (Nat × Entry String Datetime Postgres.Jsonb)} :
    Postgres.verifyRows sha256 floor previous rows = (true, none) ↔
      (format sha256 Postgres.columns).Linked previous rows ∧ ∀ e ∈ rows, floor < e.1 := by
  induction rows generalizing previous with
  | nil => exact iff_of_true rfl ⟨trivial, by simp⟩
  | cons e rest ih =>
    simp only [Postgres.verifyRows, ChainFormat.Linked, format, forall_mem_cons]
    split
    next low =>
      constructor
      · intro failed
        cases failed
      · intro valid
        exact absurd valid.2.1 (Nat.not_lt.mpr low)
    next above =>
      split
      next broken =>
        constructor
        · intro failed
          cases failed
        · intro valid
          exact absurd broken (by rw [not_or, not_not, not_not]; exact valid.1.1)
      next holds =>
        rw [not_or, not_not, not_not] at holds
        rw [ih]
        constructor
        · intro rest_valid
          exact ⟨⟨holds, rest_valid.1⟩, by omega, rest_valid.2⟩
        · intro valid
          exact ⟨valid.1.2, valid.2.2⟩

theorem verifyTyped_iff {c : Postgres.TypedChain} :
    Postgres.verify sha256 c = (true, none) ↔
      (format sha256 Postgres.columns).Linked c.start c.log.entries ∧
        ∀ e ∈ c.log.entries, c.floor < e.1 := typedRows_iff

end Meemee.Guarantees.AuditChain
