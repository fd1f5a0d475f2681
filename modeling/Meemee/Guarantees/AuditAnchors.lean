import Meemee.Guarantees.AuditPruning
import Meemee.Guarantees.AuditTampering

/-!
# Anchors record the head

An anchor is created in a run of appends and prunes of which none is overtaken, and no prune reaches
past it. It names the entry written last, verifies from then on, and stops when an entry through its
number is edited or deleted: in SQLite where the chain holds a row or was never pruned and each text
reads in one way, in PostgreSQL where the metadata are also written as they were hashed.
-/
namespace Meemee.Guarantees.AuditAnchors
open Library Library.History Source Source.Audit List
open Source.Audit.SQLite (Cell)
open Guarantees.AuditText Guarantees.AuditChain Guarantees.AuditRuns
open Guarantees.AuditTampering

variable {χ τ μ : Type}

abbrev Step (χ τ μ : Type) := Event (Keeper χ τ μ) Action (Except AuditExc Value)

/-- The document that `create_anchor` can write here. -/
def Created (store : Store χ τ μ) (sign : String → Anchor → String) (signingKey : String)
    (document : Document) (c : Chain χ τ μ) : Prop :=
  ∃ exists_ now, store.createAnchor sign signingKey exists_ now c = .ok document

def Records (document : Document) (head : Nat × String) : Prop :=
  document.anchor.sequence = some (head.1 : Int) ∧ document.anchor.entryHash = some head.2

def Passes (store : Store χ τ μ) (sign : String → Anchor → String) (signingKey : String)
    (document : Document) (c : Chain χ τ μ) : Prop :=
  (store.verifyAnchor sign signingKey document c).passes = true

/-- A prune deletes no further than a number, which is not the empty chain's 0. -/
def Within (n : Nat) (e : Step χ τ μ) : Prop :=
  ∀ caller anchor head rows, e.action = .delete caller → e.before.waiting caller = some (anchor, head) →
    e.answer = .ok (.deleted rows) → n = 0 ∨ head.1 ≤ n

/-- An edit rewrites or deletes an entry through a number. -/
def Touches (edit : Edit χ τ μ) (n : Nat) (c : Chain χ τ μ) : Prop :=
  ∃ e ∈ through c n, edit e.1 e.2 ≠ some e.2

/-- No entry through the number can be rewritten or deleted unseen. -/
def Protected (passes : Chain χ τ μ → Prop) (n : Nat) (c : Chain χ τ μ) : Prop :=
  ∀ edit, Touches edit n c → ¬ passes (edited edit c)

/-- The anchor created at `x` names what was written last, and at `y` it passes and protects. -/
structure Holds (store : Store χ τ μ) (sign : String → Anchor → String) (signingKey : String)
    (document : Document) (x y : Keeper χ τ μ) : Prop where
  records : Records document x.written
  passes : Passes store sign signingKey document y.chain
  protects : Protected (Passes store sign signingKey document) x.written.1 y.chain

theorem above_edited {c : Chain χ τ μ} (above : Above c) (edit : Edit χ τ μ) : Above (edited edit c) := by
  intro e mem
  obtain ⟨old, stored, kept⟩ := mem_filterMap.mp mem
  have number := (rowEdit_some kept).1
  have high := above old stored
  show c.floor < e.1
  omega

theorem through_edited (edit : Edit χ τ μ) (c : Chain χ τ μ) (n : Nat) :
    through (edited edit c) n = (through c n).filterMap (rowEdit edit) := by
  unfold through
  rw [edited_entries, filter_filterMap, filterMap_filter]
  apply filterMap_congr
  intro e mem
  cases kept : rowEdit edit e with
  | none => simp
  | some e' =>
    rw [Option.filter_some, (rowEdit_some kept).1]

variable {n : Nat} {h : String} {sha256 : String → String} {document : Document}
  {later : List Action} {sign : String → Anchor → String}

variable {edit : Edit χ τ μ}

theorem recorded_edited {c : Chain χ τ μ} (above : Above c)
    (found : c.recorded n = some h)
    (keeps : ∀ e ∈ c.log.entries, e.1 = n → ∃ row', edit e.1 e.2 = some row' ∧
      row'.entryHash = e.2.entryHash) : (edited edit c).recorded n = some h := by
  rw [recorded_iff (above_edited above edit)]
  rcases (recorded_iff above).mp found with ⟨e, stored, numbered, hash⟩ | base
  · obtain ⟨row', kept, same⟩ := keeps e stored (by omega)
    have moved : rowEdit edit e = some (e.1, row') := by rw [rowEdit, kept, Option.map_some]
    exact .inl ⟨(e.1, row'), mem_filterMap.mpr ⟨e, stored, moved⟩, numbered, same.trans hash⟩
  · exact .inr base

variable {columns : Columns χ τ μ}

theorem linked_through {c : Chain χ τ μ}
    (linked : (format sha256 columns).Linked c.start c.log.entries) (above : Above c)
    (found : c.recorded n = some h) : (format sha256 columns).Linked c.start (through c n) := by
  rw [(cut_at sha256 columns above found).1, ChainFormat.linked_append] at linked
  exact linked.1

theorem eq_of_twins (digest : Digest sha256) {e e' : Nat × Entry χ τ μ}
    (told : Told columns e.2.fields) (number : e'.1 = e.1)
    (twins : (format sha256 columns).Twins e' e) : e' = e := by
  obtain ⟨named, carries, link, texts⟩ := twins
  have fields := told.2 _ (parts_of_canonical told.1 (digest.injective texts))
  obtain ⟨number₀, fields₀, previousHash, entryHash⟩ := e
  cases number
  cases named
  cases carries
  cases fields
  rfl

theorem unchanged_of_twins (digest : Digest sha256)
    {rows : List (Nat × Entry χ τ μ)} (told : ∀ e ∈ rows, Told columns e.2.fields)
    (kept : ∀ e ∈ rows, (rowEdit edit e).isSome)
    (twins : List.Forall₂ (format sha256 columns).Twins (rows.filterMap (rowEdit edit)) rows) :
    ∀ e ∈ rows, edit e.1 e.2 = some e.2 := by
  induction rows with
  | nil =>
    intro e mem
    cases mem
  | cons r rest ih =>
    obtain ⟨r', moved⟩ := Option.isSome_iff_exists.mp (kept r mem_cons_self)
    rw [filterMap_cons, moved] at twins
    cases twins with
    | cons here later =>
      have same := eq_of_twins digest (told r mem_cons_self) (rowEdit_some moved).1 here
      intro e mem
      rcases mem_cons.mp mem with first | there
      · rw [first, (rowEdit_some moved).2, same]
      · exact ih (fun x mem => told x (mem_cons_of_mem _ mem))
          (fun x mem => kept x (mem_cons_of_mem _ mem)) later e there

/-- An edit that keeps as many rows through a number, and what is recorded, leaves them. -/
theorem untouched (digest : Digest sha256) {c : Chain χ τ μ}
    (above : Above c) (linked : (format sha256 columns).Linked c.start c.log.entries)
    (linked' : (format sha256 columns).Linked c.start (edited edit c).log.entries)
    (found : c.recorded n = some h) (found' : (edited edit c).recorded n = some h)
    (told : ∀ e ∈ through c n, Told columns e.2.fields)
    (lengths : (through (edited edit c) n).length = (through c n).length) : ¬ Touches edit n c := by
  have above' := above_edited above edit
  have low := linked_through linked above found
  have low' : (format sha256 columns).Linked c.start (through (edited edit c) n) :=
    linked_through linked' above' found'
  obtain ⟨-, head, -⟩ := cut_at sha256 columns above found
  obtain ⟨-, head', -⟩ := cut_at sha256 columns above' found'
  have twins := ChainFormat.twins_of_length _ (binds_of_told digest low told) low low'
    (head'.trans head.symm) lengths
  rw [through_edited] at lengths twins
  have same := unchanged_of_twins digest told (filterMap_length_eq_length.mp lengths) twins
  rintro ⟨e, stored, changed⟩
  exact changed (same e stored)

/-- An edit that keeps fewer rows through a number leaves a chain that came back to its start. -/
theorem returns (digest : Digest sha256) {c : Chain χ τ μ}
    (above : Above c) (linked : (format sha256 columns).Linked c.start c.log.entries)
    (linked' : (format sha256 columns).Linked c.start (edited edit c).log.entries)
    (found : c.recorded n = some h) (found' : (edited edit c).recorded n = some h)
    (told : ∀ e ∈ through c n, Told columns e.2.fields)
    (shorter : (through (edited edit c) n).length < (through c n).length) :
    c.start ∈ ((through c n).map (fun e => e.2.entryHash)).dropLast := by
  have above' := above_edited above edit
  have low := linked_through linked above found
  have low' : (format sha256 columns).Linked c.start (through (edited edit c) n) :=
    linked_through linked' above' found'
  obtain ⟨-, head, -⟩ := cut_at sha256 columns above found
  obtain ⟨-, head', shape⟩ := cut_at sha256 columns above' found'
  have nonempty : through (edited edit c) n ≠ [] := by
    rcases shape with ⟨-, floor⟩ | ⟨front, e, ends, -⟩
    · -- The base has this number, so no row lies below it.
      have none_low : through c n = [] := by
        apply eq_nil_iff_forall_not_mem.mpr
        intro e mem
        obtain ⟨stored, small⟩ := mem_through.mp mem
        have high := above e stored
        change c.floor = n at floor
        omega
      rw [none_low] at shorter
      exact absurd shorter (Nat.not_lt_zero _)
    · rw [ends]
      exact append_ne_nil_of_right_ne_nil _ (cons_ne_nil _ _)
  exact (ChainFormat.returns_of_shorter _ (binds_of_told digest low told) low low'
    (head'.trans head.symm) shorter).2 nonempty

section After

variable {sha256 : String → String} {store : Store χ τ μ} {Numbered : Chain χ τ μ → Prop}
  {faithful : AppendCall → Prop} (lawful : Lawful sha256 store Numbered faithful)
  {sign : String → Anchor → String}

/-- What an anchor of the head relies on: the entry it names is stored or is the base. -/
def Anchors (n : Nat) (h : String) (c : Chain χ τ μ) : Prop := n = 0 ∨ c.recorded n = some h

include lawful

variable {x : Keeper χ τ μ}

theorem anchors_written (kept : Kept Numbered x) :
    Anchors x.written.1 x.written.2 x.chain := by
  have above := lawful.above _ kept.numbered
  rw [kept.written]
  unfold Anchors headOf
  cases ends : x.chain.log.entries.getLast? with
  | some e =>
    have stored := mem_of_getLast? ends
    exact .inr ((recorded_iff above).mpr (.inl ⟨e, stored, rfl, rfl⟩))
  | none =>
    unfold Chain.floor Chain.start
    cases base : x.chain.base with
    | none => exact .inl rfl
    | some b => exact .inr ((recorded_iff above).mpr (.inr ⟨b, base, rfl, rfl⟩))

theorem recorded_zero (kept : Kept Numbered x) : x.chain.recorded 0 = none := by
  have above := lawful.above _ kept.numbered
  apply Option.eq_none_iff_forall_ne_some.mpr
  intro h found
  rcases (recorded_iff above).mp found with ⟨e, stored, numbered, -⟩ | ⟨b, base, numbered, -⟩
  · have high := above e stored
    omega
  · have positive := kept.base b base
    omega

theorem step_anchors (n : Nat) (h : String) (x : Keeper χ τ μ) (action : Action)
    (current : Current store ⟨x, action, (step store sign x action).1, (step store sign x action).2⟩)
    (sound : Sound sha256 store Numbered x) (anchors : Anchors n h x.chain)
    (within : Within n ⟨x, action, (step store sign x action).1, (step store sign x action).2⟩) :
    Anchors n h (step store sign x action).2.chain := by
  have above := lawful.above _ sound.1.numbered
  have kept' : Kept Numbered (step store sign x action).2 := step_kept lawful x action sound.1 current
  have above' := lawful.above _ kept'.numbered
  rcases anchors with zero | found
  · exact .inl zero
  · cases action with
    | append call =>
      have outcome := lawful.append call x.chain
      simp only [step, Keeper.appends] at above' ⊢
      generalize store.append call x.chain = result at outcome above'
      cases outcome with
      | appended row => exact .inr (recorded_extended above above' found)
      | refused e => exact .inr found
      | skipped e => exact .inr found
    | check caller signingKey document =>
      rw [step, check_chain]
      exact .inr found
    | confirm caller =>
      rw [step, confirm_chain]
      exact .inr found
    | delete caller =>
      have outcome := deletes_cases lawful current
      simp only [step] at within ⊢
      generalize x.deletes store caller = result at outcome within
      cases outcome with
      | idle => exact .inr found
      | kept e => exact .inr found
      | deleted anchor head waits current =>
        have reached := found_of_waiting sound.1 waits current
        rcases within caller anchor head _ rfl waits rfl with zero | lower
        · exact .inl zero
        · exact .inr (recorded_pruned above reached (by omega) found)

theorem found_of_passes {signingKey : String} {c : Chain χ τ μ} (records : Records document (n, h))
    (positive : 1 ≤ n) (passes : Passes store sign signingKey document c) :
    c.recorded n = some h ∧ store.verify c = (true, none) := by
  obtain ⟨-, matched, valid⟩ := (lawful.passes sign signingKey document c).mp passes
  exact ⟨recorded_of_matched matched records.1 records.2 positive, valid⟩

theorem passes_of_found {signingKey : String} {c : Chain χ τ μ}
    (signed : document.signature = sign signingKey document.anchor)
    (records : Records document (n, h)) (found : c.recorded n = some h)
    (valid : store.verify c = (true, none)) : Passes store sign signingKey document c := by
  refine (lawful.passes sign signingKey document c).mpr ⟨signed, ?_, valid⟩
  rw [Chain.headMatches, records.1]
  simp only
  rw [found, records.2]
  exact decide_eq_true rfl

/-- A document of the head passes after every run that kept the chain linked. -/
theorem passes_of_sound {signingKey : String}
    (signed : document.signature = sign signingKey document.anchor)
    (records : Records document (n, h)) (sound : Sound sha256 store Numbered x)
    (anchors : Anchors n h x.chain) : Passes store sign signingKey document x.chain := by
  have valid := verify_of_sound lawful sound
  rcases anchors with zero | found
  · subst zero
    refine (lawful.passes sign signingKey document x.chain).mpr ⟨signed, ?_, valid⟩
    have missing : x.chain.recorded ((0 : Nat) : Int) = none := recorded_zero lawful sound.1
    rw [Chain.headMatches, records.1]
    simp only
    rw [missing]
    rfl
  · exact passes_of_found lawful signed records found valid

theorem final_relied (sound : Sound sha256 store Numbered x)
    (anchors : Anchors n h x.chain)
    (current : ∀ e ∈ history (step store sign) x later, Current store e)
    (all : ∀ e ∈ history (step store sign) x later, Faithful faithful e)
    (within : ∀ e ∈ history (step store sign) x later, Within n e) :
    Sound sha256 store Numbered (final (step store sign) x later) ∧
      Anchors n h (final (step store sign) x later).chain := by
  induction later generalizing x with
  | nil => exact ⟨sound, anchors⟩
  | cons a rest ih =>
    have sound' := step_sound lawful x a (current _ mem_cons_self) sound (all _ mem_cons_self)
    have anchors' := step_anchors lawful n h x a (current _ mem_cons_self) sound anchors
      (within _ mem_cons_self)
    exact ih sound' anchors' (fun e mem => current e (mem_cons_of_mem _ mem))
      (fun e mem => all e (mem_cons_of_mem _ mem)) (fun e mem => within e (mem_cons_of_mem _ mem))

/-- An anchor of the head passes exactly when every later append wrote what it hashed. -/
theorem passes_iff_faithful {signingKey : String}
    (signed : document.signature = sign signingKey document.anchor)
    (records : Records document x.written) (sound : Sound sha256 store Numbered x)
    (current : ∀ e ∈ history (step store sign) x later, Current store e)
    (within : ∀ e ∈ history (step store sign) x later, Within x.written.1 e) :
    Passes store sign signingKey document (final (step store sign) x later).chain ↔
      ∀ e ∈ history (step store sign) x later, Faithful faithful e := by
  constructor
  · intro passes
    have ends : ((∀ e ∈ history (step store sign) x later, Faithful faithful e) ∧
          Sound sha256 store Numbered (final (step store sign) x later)) ∨
        ((∃ e ∈ history (step store sign) x later, ¬ Faithful faithful e) ∧
          Doomed sha256 store Numbered (final (step store sign) x later)) :=
      sound_or_doomed_of_allowed (step_sound lawful) (step_broken lawful) (step_doomed lawful) sound
        current
    rcases ends with ⟨all, -⟩ | ⟨-, doomed⟩
    · exact all
    · exact absurd ((lawful.passes _ _ _ _).mp passes).2.2 (not_verify_of_doomed lawful doomed)
  · intro all
    obtain ⟨last, anchors⟩ := final_relied lawful sound (anchors_written lawful sound.1) current all within
    exact passes_of_sound lawful signed records last anchors

end After

theorem signedAnchor_ok {signingKey : String} {exists_ : Bool}
    {verdict : Bool × Option Nat} {made : Except AuditExc Anchor}
    (created : signedAnchor sign signingKey exists_ verdict made = .ok document) :
    verdict.1 = true ∧ ∃ anchor, made = .ok anchor ∧ document = ⟨anchor, sign signingKey anchor⟩ := by
  unfold signedAnchor at created
  split at created
  next => cases created
  next =>
    split at created
    next => cases created
    next =>
      split at created
      next valid =>
        cases made with
        | error e => cases created
        | ok anchor =>
          cases created
          exact ⟨valid, anchor, rfl, rfl⟩
      next => cases created

theorem eq_of_records {head head' : Nat × String} (records : Records document head)
    (records' : Records document head') : head = head' := by
  obtain ⟨sequence, hash⟩ := records
  obtain ⟨sequence', hash'⟩ := records'
  rw [sequence, Option.some.injEq] at sequence'
  rw [hash, Option.some.injEq] at hash'
  exact Prod.ext (Int.ofNat_inj.mp sequence') hash'

theorem sqlite_created {signingKey : String} {c : SQLite.TextChain}
    (created : Created (sqlite sha256) sign signingKey document c) :
    SQLite.verify sha256 c = (true, none) ∧
      document.signature = sign signingKey document.anchor ∧
      Records document (if c.log.entries = [] then (0, ZERO) else headOf c) := by
  obtain ⟨exists_, now, made⟩ := created
  obtain ⟨valid, anchor, head, rfl⟩ := signedAnchor_ok made
  refine ⟨(verified sha256 c).mp valid, rfl, ?_⟩
  cases ends : c.log.entries.getLast? with
  | none =>
    rw [ends] at head
    cases head
    rw [if_pos (List.getLast?_eq_none_iff.mp ends)]
    exact ⟨rfl, rfl⟩
  | some e =>
    have nonempty : c.log.entries ≠ [] := by
      intro empty
      rw [empty] at ends
      cases ends
    rw [ends] at head
    simp only at head
    cases printed : e.2.fields.occurredAt.json with
    | error raised =>
      rw [printed] at head
      cases head
    | ok occurred =>
      rw [printed] at head
      cases head
      rw [if_neg nonempty, headOf, ends]
      exact ⟨rfl, rfl⟩

variable {jsonb : Json → Except Exc Postgres.Jsonb} {store : Store χ τ μ}
  {Numbered : Chain χ τ μ → Prop} {faithful : AppendCall → Prop}

theorem postgres_created {signingKey : String} {c : Postgres.TypedChain}
    (created : Created (postgres jsonb sha256) sign signingKey document c) :
    Postgres.verify sha256 c = (true, none) ∧
      document.signature = sign signingKey document.anchor ∧ Records document (headOf c) := by
  obtain ⟨exists_, now, made⟩ := created
  obtain ⟨valid, anchor, head, rfl⟩ := signedAnchor_ok made
  refine ⟨(verifiedTyped sha256 c).mp valid, rfl, ?_⟩
  unfold headOf Chain.floor Chain.start
  cases ends : c.log.entries.getLast? with
  | some e =>
    rw [ends] at head
    cases head
    exact ⟨rfl, rfl⟩
  | none =>
    cases base : c.base with
    | none =>
      rw [ends, base] at head
      cases head
      exact ⟨rfl, rfl⟩
    | some b =>
      rw [ends, base] at head
      cases head
      exact ⟨rfl, rfl⟩

theorem sqlite_records_iff {signingKey : String} {x : Keeper Cell Cell Cell}
    (created : Created (sqlite sha256) sign signingKey document x.chain)
    (kept : Kept SQLite.Numbered x) :
    Records document x.written ↔ x.chain.log.entries ≠ [] ∨ x.chain.base = none := by
  obtain ⟨-, -, made⟩ := sqlite_created created
  rw [kept.written]
  by_cases empty : x.chain.log.entries = []
  · rw [if_pos empty] at made
    have head : headOf x.chain = (x.chain.floor, x.chain.start) := by
      rw [headOf, empty]
      rfl
    rw [head]
    cases base : x.chain.base with
    | none =>
      have origin : (x.chain.floor, x.chain.start) = (0, ZERO) := by
        rw [Chain.floor, Chain.start, base]
      rw [origin]
      exact iff_of_true made (.inr rfl)
    | some b =>
      apply iff_of_false
      · intro records
        have number := congrArg Prod.fst (eq_of_records records made)
        have positive := kept.base b base
        rw [Chain.floor, base] at number
        simp only at number
        omega
      · rintro (nonempty | never)
        · exact nonempty empty
        · cases never
  · rw [if_neg empty] at made
    exact iff_of_true made (.inl empty)

theorem through_zero {c : Chain χ τ μ} (above : Above c) : through c 0 = [] := by
  unfold through
  rw [filter_eq_nil_iff]
  intro e stored
  have high := above e stored
  simp only [decide_eq_true_eq]
  omega

section Protected

variable {sha256 : String → String} {store : Store χ τ μ} {Numbered : Chain χ τ μ → Prop}
  {faithful : AppendCall → Prop} (lawful : Lawful sha256 store Numbered faithful)
  {sign : String → Anchor → String} {signingKey : String} {document : Document} {c : Chain χ τ μ}
  {n : Nat} {h : String} (signed : document.signature = sign signingKey document.anchor)
  (records : Records document (n, h)) (above : Above c)
  (linked : (format sha256 store.columns).Linked c.start c.log.entries)
  (found : c.recorded n = some h)

include lawful signed records above linked found

theorem told_of_protected
    (accepts : ∀ number fields, (format sha256 store.columns).Linked c.start
      (edited (rewrite number fields) c).log.entries →
        store.verify (edited (rewrite number fields) c) = (true, none))
    (protects : Protected (Passes store sign signingKey document) n c) :
    ∀ e ∈ through c n, ∀ fields, Separated.join separator (parts store.columns fields) =
      Separated.join separator (parts store.columns e.2.fields) → fields = e.2.fields := by
  intro e low fields same
  by_contra changed
  obtain ⟨-, stays⟩ := rewrite_unseen linked (mem_through.mp low).1 changed same
  have kept : (edited (rewrite e.1 fields) c).recorded n = some h := by
    apply recorded_edited above found
    intro x stored numbered
    refine ⟨_, rfl, ?_⟩
    split <;> rfl
  refine protects (rewrite e.1 fields) ⟨e, low, ?_⟩
    (passes_of_found lawful signed records kept (accepts _ _ stays))
  rw [rewrite, if_pos rfl]
  intro equal
  exact changed (congrArg Entry.fields (Option.some.inj equal))

theorem apart_of_protected
    (accepts : ∀ number, (format sha256 store.columns).Linked c.start
      (edited (cut number) c).log.entries → store.verify (edited (cut number) c) = (true, none))
    (protects : Protected (Passes store sign signingKey document) n c) :
    c.start ∉ ((through c n).map (fun e => e.2.entryHash)).dropLast := by
  intro returns
  obtain ⟨split, -, shape⟩ := cut_at sha256 store.columns above found
  rcases shape with ⟨empty, -⟩ | ⟨front, last, ends, number⟩
  · rw [empty] at returns
    cases returns
  · rw [ends, map_append, map_singleton, dropLast_concat] at returns
    obtain ⟨e, mem, hash⟩ := mem_map.mp returns
    obtain ⟨before, between, shape⟩ := append_of_mem mem
    have whole : c.log.entries =
        before ++ e :: (between ++ last :: (c.log.deleteThrough n).entries) := by
      rw [split, ends, shape]
      simp only [append_assoc, cons_append, nil_append]
    have ordered := c.log.ordered
    rw [whole] at ordered
    have less : e.1 < last.1 :=
      (pairwise_cons.mp (pairwise_append.mp ordered).2.1).1 last (by simp)
    have stays : (format sha256 store.columns).Linked c.start (edited (cut e.1) c).log.entries := by
      rw [edited_entries, whole, cut_entries ordered]
      rw [whole] at linked
      exact ChainFormat.linked_of_return _ linked hash
    have kept : (edited (cut e.1) c).recorded n = some h := by
      apply recorded_edited above found
      intro x stored numbered
      refine ⟨x.2, ?_, rfl⟩
      rw [cut, if_neg (by omega)]
    have low : e ∈ through c n := mem_through.mpr ⟨by rw [whole]; simp, by omega⟩
    refine protects (cut e.1) ⟨e, low, ?_⟩
      (passes_of_found lawful signed records kept (accepts _ stays))
    rw [cut, if_pos (Nat.le_refl _)]
    exact (Option.some_ne_none _).symm

end Protected

theorem protected_zero {c : Chain χ τ μ} (above : Above c) (passes : Chain χ τ μ → Prop) :
    Protected passes 0 c := by
  rintro edit ⟨e, low, -⟩
  rw [through_zero above] at low
  cases low

/-- The texts of the rows through a number can be read in one way. -/
def TextSealed (n : Nat) (c : SQLite.TextChain) : Prop :=
  ∀ e ∈ through c n, CleanRow SQLite.columns e.2.fields ∧ PlainRow e.2.fields

/-- The texts of the rows through a number read in one way, their links in one order. -/
def TypedSealed (n : Nat) (c : Postgres.TypedChain) : Prop :=
  (∀ e ∈ through c n, CleanRow Postgres.columns e.2.fields ∧ Truthful e.2.fields) ∧
    c.start ∉ ((through c n).map (fun e => e.2.entryHash)).dropLast

theorem sqlite_protected_iff (digest : Digest sha256) {signingKey : String}
    (signed : document.signature = sign signingKey document.anchor) {c : SQLite.TextChain}
    (records : Records document (n, h)) (valid : SQLite.verify sha256 c = (true, none))
    (anchors : Anchors n h c) :
    Protected (Passes (sqlite sha256) sign signingKey document) n c ↔ TextSealed n c := by
  obtain ⟨linked, consecutive⟩ := verify_iff.mp valid
  have above : Above c := le_of_consecutive consecutive
  rcases Nat.eq_zero_or_pos n with zero | positive
  · subst zero
    refine iff_of_true (protected_zero above _) ?_
    intro e low
    rw [through_zero above] at low
    cases low
  have found : c.recorded n = some h := anchors.resolve_left (by omega)
  constructor
  · intro protects e low
    by_contra odd
    obtain ⟨fields, changed, same⟩ := rewrite_text odd
    have accepts : ∀ number fields, (format sha256 SQLite.columns).Linked c.start
        (edited (rewrite number fields) c).log.entries →
          SQLite.verify sha256 (edited (rewrite number fields) c) = (true, none) := by
      intro number fields stays
      refine verify_iff.mpr ⟨stays, ?_⟩
      rw [edited_entries, rewrite_numbers]
      exact consecutive_map consecutive
    exact changed (told_of_protected (SQLite.lawful sha256) signed records above linked found accepts
      protects e low fields same)
  · intro clean edit touches passes
    obtain ⟨found', after⟩ := found_of_passes (SQLite.lawful sha256) records positive passes
    obtain ⟨linked', consecutive'⟩ := verify_iff.mp after
    have lengths := SQLite.length_through consecutive found
    have lengths' : c.floor + (through (edited edit c) n).length = n :=
      SQLite.length_through consecutive' found'
    exact untouched digest above linked linked' found found' (fun e low => told_text (clean e low).1 (clean e low).2)
      (by omega) touches

theorem postgres_protected_iff (digest : Digest sha256) {signingKey : String}
    (signed : document.signature = sign signingKey document.anchor) {c : Postgres.TypedChain}
    (records : Records document (n, h)) (valid : Postgres.verify sha256 c = (true, none))
    (anchors : Anchors n h c) :
    Protected (Passes (postgres jsonb sha256) sign signingKey document) n c ↔ TypedSealed n c := by
  obtain ⟨linked, above⟩ := verifyTyped_iff.mp valid
  rcases Nat.eq_zero_or_pos n with zero | positive
  · subst zero
    refine iff_of_true (protected_zero above _) ?_
    rw [TypedSealed, through_zero above]
    exact ⟨nofun, not_mem_nil⟩
  have found : c.recorded n = some h := anchors.resolve_left (by omega)
  have lawful := Postgres.lawful digest.injective jsonb
  constructor
  · intro protects
    have accepts : ∀ edit, (format sha256 Postgres.columns).Linked c.start (edited edit c).log.entries →
        Postgres.verify sha256 (edited edit c) = (true, none) :=
      fun edit stays => verifyTyped_iff.mpr ⟨stays, above_edited above edit⟩
    have told := told_of_protected lawful signed records above linked found
      (fun _ _ => accepts _) protects
    refine ⟨?_,
      apart_of_protected lawful signed records above linked found (fun _ => accepts _) protects⟩
    intro e low
    by_contra odd
    obtain ⟨fields, other, same⟩ := rewrite_typed odd
    exact other (told e low fields same)
  · rintro ⟨clean, apart⟩ edit touches passes
    obtain ⟨found', after⟩ := found_of_passes lawful records positive passes
    obtain ⟨linked', above'⟩ := verifyTyped_iff.mp after
    have told : ∀ e ∈ through c n, Told Postgres.columns e.2.fields :=
      fun e low => told_typed (clean e low).1 (clean e low).2
    refine untouched digest above linked linked' found found' told ?_ touches
    rcases Nat.lt_or_ge (through (edited edit c) n).length (through c n).length with shorter | enough
    · exact absurd (returns digest above linked linked' found found' told shorter) apart
    · apply Nat.le_antisymm _ enough
      rw [through_edited]
      exact length_filterMap_le _ _

/-- The keeper that a run reaches. -/
abbrev reached (store : Store χ τ μ) (sign : String → Anchor → String) (run : List Action) : Keeper χ τ μ :=
  final (step store sign) start run

/-- A document created where a run ends, and a later run that prunes no further. -/
structure Anchoring (store : Store χ τ μ) (sign : String → Anchor → String) (signingKey : String)
    (document : Document) (run later : List Action) : Prop where
  created : Created store sign signingKey document (reached store sign run).chain
  within : ∀ e ∈ history (step store sign) (reached store sign run) later,
    Within (reached store sign run).written.1 e
  current : ∀ e ∈ history (step store sign) start (run ++ later), Current store e

theorem current_split {run later : List Action}
    (current : ∀ e ∈ history (step store sign) start (run ++ later), Current store e) :
    (∀ e ∈ history (step store sign) start run, Current store e) ∧
      ∀ e ∈ history (step store sign) (reached store sign run) later, Current store e := by
  rw [history_append] at current
  exact forall_mem_append.mp current

theorem sound_of_verify (lawful : Lawful sha256 store Numbered faithful) {run : List Action}
    (current : ∀ e ∈ history (step store sign) start run, Current store e)
    (valid : store.verify (reached store sign run).chain = (true, none)) :
    Sound sha256 store Numbered (reached store sign run) := by
  have kept : Kept Numbered (reached store sign run) :=
    (invariant_of_meets _ (step_kept lawful) (start_kept lawful) current).2
  exact ⟨kept, (lawful.verify _ kept.numbered).mp valid⟩

/-- Where the rows through an anchor are protected under a condition, the anchor holds exactly
when it names the head, every later append is faithful and the condition is met. -/
theorem holds_iff (lawful : Lawful sha256 store Numbered faithful) {signingKey : String}
    {condition : Nat → Chain χ τ μ → Prop} (sound : Sound sha256 store Numbered x)
    (signed : document.signature = sign signingKey document.anchor)
    (current : ∀ e ∈ history (step store sign) x later, Current store e)
    (within : ∀ e ∈ history (step store sign) x later, Within x.written.1 e)
    (protected_iff : ∀ n h c, Records document (n, h) → store.verify c = (true, none) →
      Anchors n h c → (Protected (Passes store sign signingKey document) n c ↔ condition n c)) :
    Holds store sign signingKey document x (final (step store sign) x later) ↔
      Records document x.written ∧ (∀ e ∈ history (step store sign) x later, Faithful faithful e) ∧
        condition x.written.1 (final (step store sign) x later).chain := by
  have anchors := anchors_written lawful sound.1
  constructor
  · rintro ⟨records, passes, protects⟩
    have all := (passes_iff_faithful lawful signed records sound current within).mp passes
    obtain ⟨last, anchors'⟩ := final_relied lawful sound anchors current all within
    exact ⟨records, all, (protected_iff _ _ _ records (verify_of_sound lawful last) anchors').mp protects⟩
  · rintro ⟨records, all, met⟩
    obtain ⟨last, anchors'⟩ := final_relied lawful sound anchors current all within
    exact ⟨records, (passes_iff_faithful lawful signed records sound current within).mpr all,
      (protected_iff _ _ _ records (verify_of_sound lawful last) anchors').mpr met⟩

/-- An anchor names the head, verifies as long as the chain is only appended to and pruned
no further, and protects every entry through it, exactly under these conditions. -/
theorem anchor_holds_iff {sha256 : String → String} (digest : Digest sha256)
    (sign : String → Anchor → String) (signingKey : String) (document : Document)
    (run later : List Action) :
    (Anchoring (sqlite sha256) sign signingKey document run later →
      (Holds (sqlite sha256) sign signingKey document (reached (sqlite sha256) sign run)
          (reached (sqlite sha256) sign (run ++ later)) ↔
        ((reached (sqlite sha256) sign run).chain.log.entries ≠ [] ∨
          (reached (sqlite sha256) sign run).chain.base = none) ∧
        TextSealed (reached (sqlite sha256) sign run).written.1
          (reached (sqlite sha256) sign (run ++ later)).chain)) ∧
    ∀ jsonb, Anchoring (postgres jsonb sha256) sign signingKey document run later →
      (Holds (postgres jsonb sha256) sign signingKey document (reached (postgres jsonb sha256) sign run)
          (reached (postgres jsonb sha256) sign (run ++ later)) ↔
        (∀ e ∈ history (step (postgres jsonb sha256) sign) (reached (postgres jsonb sha256) sign run) later,
          Faithful (Postgres.Reencodes jsonb) e) ∧
        TypedSealed (reached (postgres jsonb sha256) sign run).written.1
          (reached (postgres jsonb sha256) sign (run ++ later)).chain) := by
  constructor
  · rintro ⟨created, within, current⟩
    obtain ⟨before, after⟩ := current_split current
    obtain ⟨valid, signed, -⟩ := sqlite_created created
    have sound := sound_of_verify (SQLite.lawful sha256) before valid
    have always : ∀ e ∈ history (step (sqlite sha256) sign) (reached (sqlite sha256) sign run) later,
        Faithful (fun _ => True) e := fun _ _ _ _ _ _ => trivial
    rw [reached, reached, final_append, holds_iff (SQLite.lawful sha256) sound signed after within
      (fun n h c records valid anchors => sqlite_protected_iff digest signed records valid anchors),
      sqlite_records_iff created sound.1]
    exact and_congr_right' (and_iff_right always)
  · intro jsonb anchoring
    obtain ⟨created, within, current⟩ := anchoring
    obtain ⟨before, after⟩ := current_split current
    have lawful := Postgres.lawful digest.injective jsonb
    obtain ⟨valid, signed, made⟩ := postgres_created created
    have sound := sound_of_verify lawful before valid
    rw [← sound.1.written] at made
    rw [reached, reached, final_append, holds_iff lawful sound signed after within
      (fun n h c records valid anchors => postgres_protected_iff digest signed records valid anchors)]
    exact and_iff_right made

open Guarantees.AuditPruning

theorem sampleSha_digest : Digest sampleSha := standIn_digest (by decide) (by decide)

theorem prune_within :
    ∀ e ∈ history (step (sqlite sampleSha) sampleSign)
      (reached (sqlite sampleSha) sampleSign [.append created]) prune, Within 1 e := by
  intro e mem caller anchor head rows deletes waits answered
  simp only [prune, history_cons, history_nil, mem_cons, not_mem_nil, or_false] at mem
  rcases mem with here | here | here
  · rw [here] at deletes
    cases deletes
  · rw [here] at deletes
    cases deletes
  · subst here
    obtain rfl : "operator" = caller := by simpa using deletes
    have checked : (final (step (sqlite sampleSha) sampleSign)
        (reached (sqlite sampleSha) sampleSign [.append created])
        [.check "operator" signingKey createdAnchor, .confirm "operator"]).waiting "operator" =
          some (createdAnchor.anchor, 1, createdDigest) := by decide +kernel
    have head_eq := congrArg Prod.snd (Option.some.inj (checked.symm.trans waits))
    exact .inr (Nat.le_of_eq (congrArg Prod.fst head_eq.symm))

theorem createdAnchor_holds :
    Holds (sqlite sampleSha) sampleSign signingKey createdAnchor
        (reached (sqlite sampleSha) sampleSign [.append created])
        (reached (sqlite sampleSha) sampleSign ([.append created] ++ prune)) ↔
      ((reached (sqlite sampleSha) sampleSign [.append created]).chain.log.entries ≠ [] ∨
        (reached (sqlite sampleSha) sampleSign [.append created]).chain.base = none) ∧
      TextSealed (reached (sqlite sampleSha) sampleSign [.append created]).written.1
        (reached (sqlite sampleSha) sampleSign ([.append created] ++ prune)).chain :=
  (anchor_holds_iff sampleSha_digest sampleSign signingKey createdAnchor [.append created] prune).1
    ⟨⟨false, ⟨2026, 1, 2, 4, 0, 0, 0, by decide⟩, by decide +kernel⟩, prune_within, pruning_current⟩

/-- The anchor of a chain that was pruned to its last row does not name that row. -/
theorem emptied_anchor_forgets :
    ¬ ∀ sha256, Digest sha256 → ∀ sign signingKey document run later,
      (Anchoring (sqlite sha256) sign signingKey document run later →
        Holds (sqlite sha256) sign signingKey document (reached (sqlite sha256) sign run)
          (reached (sqlite sha256) sign (run ++ later))) ∧
      ∀ jsonb, Anchoring (postgres jsonb sha256) sign signingKey document run later →
        Holds (postgres jsonb sha256) sign signingKey document
          (reached (postgres jsonb sha256) sign run)
          (reached (postgres jsonb sha256) sign (run ++ later)) := by
  intro claimed
  have holds := (claimed sampleSha sampleSha_digest sampleSign signingKey
    ⟨emptiedAnchor, emptiedSignature⟩ pruning []).1
    ⟨⟨false, ⟨2026, 1, 2, 5, 0, 0, 0, by decide⟩, by decide +kernel⟩, (fun e member => by cases member),
      by rw [append_nil]; exact pruning_current⟩
  have numbered := holds.records.1
  revert numbered
  decide +kernel

end Meemee.Guarantees.AuditAnchors
