import Meemee.Guarantees.AuditRuns

/-!
# The SQLite audit chain stays valid under pruning

Any number of callers append and prune in any order; a prune checks its anchor, reads the base and
deletes in three steps. As long as no prune overtakes another between those two, every chain they
reach verifies and numbers its rows from its base on. A prune keeps exactly the rows after its anchor,
and with them every later anchor that verified. A prune that was overtaken moves the base back.
-/
namespace Meemee.Guarantees.AuditPruning
open Library Library.History Source Source.Audit
open Source.Audit.SQLite (Cell)
open Guarantees.AuditChain Guarantees.AuditRuns

abbrev TextKeeper := Keeper Cell Cell Cell

abbrev Step := Event TextKeeper Action (Except AuditExc Value)

/-- The chain verifies and its rows carry the numbers after the base's, up to the next. -/
structure ChainValid (sha256 : String → String) (c : SQLite.TextChain) : Prop where
  verifies : SQLite.verify sha256 c = (true, none)
  numbers : c.log.entries.map (fun e => e.1) = List.range' (c.floor + 1) c.log.entries.length
  next : c.log.next = c.floor + 1 + c.log.entries.length

def Passes (sha256 : String → String) (sign : String → Anchor → String) (signingKey : String)
    (document : Document) (c : SQLite.TextChain) : Prop :=
  (SQLite.verifyAnchor sha256 sign signingKey document c).passes = true

/-- A deletion keeps the rows after its anchor, the base, and what verified from there on. -/
def PruneKeeps (sha256 : String → String) (sign : String → Anchor → String) (e : Step) : Prop :=
  ∀ caller rows, e.action = .delete caller → e.answer = .ok (.deleted rows) →
    ∃ anchor n h, e.before.waiting caller = some (anchor, n, h) ∧
      e.after.chain.log.entries = e.before.chain.log.entries.filter (fun r => decide (n < r.1)) ∧
      e.after.chain.base = some ⟨n, h⟩ ∧
      ∀ signingKey document k, document.anchor.sequence = some k → (n : Int) ≤ k →
        Passes sha256 sign signingKey document e.before.chain →
          Passes sha256 sign signingKey document e.after.chain

/-- What is refused, and that it changes nothing. -/
structure Refuses (sha256 : String → String) (sign : String → Anchor → String) (e : Step) : Prop where
  unchanged : ∀ raised, e.answer = .error raised → e.after.chain = e.before.chain
  unverified : ∀ caller signingKey document, e.action = .check caller signingKey document →
    ¬ Passes sha256 sign signingKey document e.before.chain → ∃ raised, e.answer = .error raised
  outdated : ∀ caller anchor n h, e.action = .confirm caller →
    e.before.waiting caller = some (anchor, n, h) → n < e.before.chain.floor →
      ∃ raised, e.answer = .error raised

/-- A whole `prune_to_anchor` with nothing in between. -/
inductive Pruned (passes : Prop) (anchor : Anchor) (c : SQLite.TextChain) :
    Except AuditExc Nat × SQLite.TextChain → Prop
  | done (n : Nat) (h : String) (verified : passes) (positive : 1 ≤ n) (current : c.floor ≤ n)
      (sequence : anchor.sequence = some (n : Int)) (hash : anchor.entryHash = some h) :
      Pruned passes anchor c (.ok (c.deleted n), c.pruned n h)
  | refused (raised : AuditExc) (why : ¬ passes ∨ ∃ k, anchor.sequence = some k ∧ k < max 1 (c.floor : Int)) :
      Pruned passes anchor c (.error raised, c)

theorem numbers_of_consecutive {ρ : Type} {expected : Nat} {rows : List (Nat × ρ)}
    (consecutive : Consecutive expected rows) :
    rows.map (fun e => e.1) = List.range' expected rows.length := by
  induction rows generalizing expected with
  | nil => rfl
  | cons e rest ih =>
    rw [List.map_cons, List.length_cons, List.range'_succ, consecutive.1, ih consecutive.2]

variable {sha256 : String → String} {sign : String → Anchor → String}

abbrev SoundKeeper (sha256 : String → String) (x : TextKeeper) : Prop :=
  Sound sha256 (sqlite sha256) SQLite.Numbered x

variable {x : TextKeeper} {c : SQLite.TextChain} {document : Document}

theorem chainValid_of_sound (sound : SoundKeeper sha256 x) :
    ChainValid sha256 x.chain where
  verifies := verify_of_sound (SQLite.lawful sha256) sound
  numbers := numbers_of_consecutive sound.1.numbered.consecutive
  next := sound.1.numbered.next

theorem passes_iff {signingKey : String} :
    Passes sha256 sign signingKey document c ↔
      document.signature = sign signingKey document.anchor ∧
        c.headMatches document.anchor = true ∧ SQLite.verify sha256 c = (true, none) :=
  (SQLite.lawful sha256).passes sign signingKey document c

theorem headMatches_pruned (above : Above c) {n : Nat} {h : String} (found : c.recorded n = some h)
    (positive : 1 ≤ n) {anchor : Anchor} {k : Int} (sequence : anchor.sequence = some k)
    (later : (n : Int) ≤ k) (matched : c.headMatches anchor = true) :
    (c.pruned n h).headMatches anchor = true := by
  rw [Chain.headMatches, sequence] at matched ⊢
  simp only at matched ⊢
  split at matched
  next g recorded =>
    rw [recorded_pruned above found later recorded]
    exact matched
  next =>
    have zero : k = 0 := of_decide_eq_true matched
    omega

theorem verify_pruned (sound : SoundKeeper sha256 x) {n : Nat} {h : String}
    (found : x.chain.recorded n = some h) :
    SQLite.verify sha256 (x.chain.pruned n h) = (true, none) := by
  have above : Above x.chain := (SQLite.lawful sha256).above _ sound.1.numbered
  have numbered := SQLite.numbered_pruned sound.1.numbered found
  exact ((SQLite.lawful sha256).verify _ numbered).mpr (linked_pruned sound.2 above found)

theorem delete_keeps (sound : SoundKeeper sha256 x) {caller : String} {anchor : Anchor} {n : Nat}
    {h : String} (waits : x.waiting caller = some (anchor, n, h)) (current : x.chain.floor ≤ n)
    {signingKey : String} {k : Int} (sequence : document.anchor.sequence = some k)
    (later : (n : Int) ≤ k) (passed : Passes sha256 sign signingKey document x.chain) :
    Passes sha256 sign signingKey document (x.chain.pruned n h) := by
  obtain ⟨signed, matched, -⟩ := passes_iff.mp passed
  have above : Above x.chain := (SQLite.lawful sha256).above _ sound.1.numbered
  have found := found_of_waiting sound.1 waits current
  have positive := (sound.1.waiting caller anchor n h waits).1
  exact passes_iff.mpr
    ⟨signed, headMatches_pruned above found positive sequence later matched, verify_pruned sound found⟩

section Steps

variable (sound : SoundKeeper sha256 x) (action : Action)
  (current : Current (sqlite sha256) ⟨x, action, (step (sqlite sha256) sign x action).1,
    (step (sqlite sha256) sign x action).2⟩)

include sound current

theorem step_pruneKeeps :
    PruneKeeps sha256 sign ⟨x, action, (step (sqlite sha256) sign x action).1,
      (step (sqlite sha256) sign x action).2⟩ := by
  intro caller rows here answered
  simp only at here
  subst here
  have outcome := deletes_cases (SQLite.lawful sha256) current
  simp only [step] at answered ⊢
  generalize x.deletes (sqlite sha256) caller = result at outcome answered
  cases outcome with
  | idle => cases answered
  | kept e => cases answered
  | deleted anchor head waits current =>
    refine ⟨anchor, head.1, head.2, waits, rfl, rfl, ?_⟩
    intro signingKey document k sequence later passed
    exact delete_keeps sound waits current sequence later passed

omit sound in
theorem step_refuses :
    Refuses sha256 sign ⟨x, action, (step (sqlite sha256) sign x action).1,
      (step (sqlite sha256) sign x action).2⟩ := by
  constructor
  · intro raised answered
    cases action with
    | append call =>
      simp only [step, Keeper.appends] at answered ⊢
      cases run : (sqlite sha256).append call x.chain with
      | mk answer t =>
        rw [run] at answered
        cases answer with
        | ok n => cases answered
        | error e => exact SQLite.append_raised run
    | check caller signingKey document => exact check_chain x caller signingKey document
    | confirm caller => exact confirm_chain x caller
    | delete caller =>
      have outcome := deletes_cases (SQLite.lawful sha256) current
      simp only [step] at answered ⊢
      generalize x.deletes (sqlite sha256) caller = result at outcome answered
      cases outcome with
      | idle => rfl
      | kept e => rfl
      | deleted => cases answered
  · intro caller signingKey document here unverified
    subst here
    simp only [step, Keeper.checks]
    cases checked : checkPrune ((sqlite sha256).verifyAnchor sign signingKey document x.chain) with
    | ok head => exact absurd (checkPrune_returned checked).1 unverified
    | error e => exact ⟨e, rfl⟩
  · intro caller anchor n h here waits outdated
    simp only at here waits outdated
    subst here
    have outcome := confirms_cases (sqlite sha256) x caller
    simp only [step]
    generalize x.confirms (sqlite sha256) caller = result at outcome
    cases outcome with
    | idle nothing =>
      rw [waits] at nothing
      cases nothing
    | refused e => exact ⟨e, rfl⟩
    | confirmed anchor' head waits' done =>
      rw [waits] at waits'
      cases waits'
      exact absurd ((checkBase_iff x.chain n).mp done) (Nat.not_le.mpr outdated)

end Steps

theorem nonpositive_of_refused {signingKey : String} {e : AuditExc}
    (passed : Passes sha256 sign signingKey document c)
    (refused : checkPrune (SQLite.verifyAnchor sha256 sign signingKey document c) = .error e) :
    ∃ k, document.anchor.sequence = some k ∧ k < 1 := by
  obtain ⟨-, matched, -⟩ := passes_iff.mp passed
  rw [Chain.headMatches] at matched
  have passes : (SQLite.verifyAnchor sha256 sign signingKey document c).passes = true := passed
  rw [checkPrune, if_pos passes] at refused
  have same : (SQLite.verifyAnchor sha256 sign signingKey document c).anchor = document.anchor := rfl
  rw [same] at refused
  cases sequence : document.anchor.sequence with
  | none =>
    rw [sequence] at matched
    cases matched
  | some k =>
    refine ⟨k, rfl, ?_⟩
    rw [sequence] at matched refused
    cases hash : document.anchor.entryHash with
    | some h =>
      rw [hash] at refused
      by_contra positive
      simp only [if_neg positive] at refused
      cases refused
    | none =>
      rw [hash] at matched
      simp only at matched
      split at matched
      next => exact absurd (of_decide_eq_true matched) (Option.some_ne_none _).symm
      next =>
        have zero : k = 0 := of_decide_eq_true matched
        omega

theorem pruneToAnchor_pruned (sound : SoundKeeper sha256 x) (signingKey : String)
    (document : Document) :
    Pruned (Passes sha256 sign signingKey document x.chain) document.anchor x.chain
      (SQLite.pruneToAnchor sha256 sign signingKey document x.chain) := by
  unfold SQLite.pruneToAnchor
  rw [Txn.run_bind_read]
  cases checked : checkPrune (SQLite.verifyAnchor sha256 sign signingKey document x.chain) with
  | error e =>
    refine .refused e ?_
    by_cases passed : Passes sha256 sign signingKey document x.chain
    · obtain ⟨k, sequence, small⟩ := nonpositive_of_refused passed checked
      exact .inr ⟨k, sequence, by omega⟩
    · exact .inl passed
  | ok head =>
    obtain ⟨passed, sequence, hash, positive⟩ := checkPrune_returned checked
    rw [Txn.run_bind_ok (Txn.run_ofExcept _ _), Txn.run_bind_read]
    cases based : x.chain.checkBase head.1 with
    | error e =>
      refine .refused e (.inr ⟨head.1, sequence, ?_⟩)
      have outdated : ¬ x.chain.floor ≤ head.1 := by
        rw [← checkBase_iff, based]
        exact nofun
      omega
    | ok confirmed =>
      have current : x.chain.floor ≤ head.1 := (checkBase_iff x.chain head.1).mp based
      obtain ⟨-, matched, -⟩ := passes_iff.mp passed
      have found : x.chain.recorded head.1 = some head.2 :=
        recorded_of_matched matched sequence hash positive
      have deleted : SQLite.deleteThrough head x.chain =
          (.ok (x.chain.deleted head.1), x.chain.pruned head.1 head.2) := rfl
      rw [Txn.run_bind_ok (Txn.run_ofExcept _ _), Txn.run_bind_ok deleted, Txn.run_bind_read,
        verify_pruned sound found]
      exact .done head.1 head.2 passed positive current sequence hash

/-- In every run of appends and prunes of which no prune is overtaken the chain is valid; a prune
keeps the rows after its anchor and the anchors from its own on, or it is refused and changes nothing. -/
theorem audit_chain_valid (sha256 : String → String) (sign : String → Anchor → String)
    (run : List Action)
    (current : ∀ e ∈ history (step (sqlite sha256) sign) start run, Current (sqlite sha256) e) :
    ∀ e ∈ history (step (sqlite sha256) sign) start run,
      ChainValid sha256 e.before.chain ∧ ChainValid sha256 e.after.chain ∧
        PruneKeeps sha256 sign e ∧ Refuses sha256 sign e ∧
        ∀ signingKey document, Pruned (Passes sha256 sign signingKey document e.after.chain)
          document.anchor e.after.chain
          (SQLite.pruneToAnchor sha256 sign signingKey document e.after.chain) := by
  have keeps : ∀ x action, SoundKeeper sha256 x →
      Current (sqlite sha256) ⟨x, action, (step (sqlite sha256) sign x action).1,
        (step (sqlite sha256) sign x action).2⟩ →
      SoundKeeper sha256 (step (sqlite sha256) sign x action).2 := by
    intro x action sound current
    exact step_sound (SQLite.lawful sha256) x action current sound (fun _ _ _ _ => trivial)
  intro e member
  obtain ⟨before, after⟩ :=
    (invariant_of_meets _ keeps (start_sound (SQLite.lawful sha256)) current).1 e member
  have shape : e = ⟨e.before, e.action, (step (sqlite sha256) sign e.before e.action).1,
      (step (sqlite sha256) sign e.before e.action).2⟩ := by rw [step_of_mem member]
  have here := current e member
  rw [shape] at here
  refine ⟨chainValid_of_sound before, chainValid_of_sound after, ?_, ?_, ?_⟩
  · rw [shape]
    exact step_pruneKeeps before e.action here
  · rw [shape]
    exact step_refuses e.action here
  · intro signingKey document
    exact pruneToAnchor_pruned after signingKey document

def created : AppendCall :=
  ⟨⟨2026, 1, 2, 3, 4, 5, 0, by decide⟩, "ada", "job.create", "j", "success", .null, .ok (), false⟩

def createdDigest : String := "eb6d4a086f47da5a36baa8e8675179b89cd84a439fdf6fb0525a4ad9a2aa016d"

def createdRow : Fields Cell Cell Cell :=
  ⟨.text "2026-01-02T03:04:05+00:00", .text "ada", .text "job.create", .text "j", .text "success",
    .text "\x7b\x7d"⟩

/-- SHA-256 on the text of that row. -/
def sampleSha (text : String) : String :=
  if text = canonical SQLite.columns ZERO createdRow then createdDigest else Json.quote text

def signingKey : String := String.ofList (List.replicate 32 'k')

def createdSignature : String := "594e58330e51e1ff9692ea64cfea4a8f13df8880011ac9cb9b40b9d1d056f528"

def createdAnchor : Document :=
  ⟨newAnchor 1 createdDigest (some "2026-01-02T03:04:05+00:00") ⟨2026, 1, 2, 4, 0, 0, 0, by decide⟩,
    createdSignature⟩

/-- The anchor that is created when that row has been pruned. -/
def emptiedAnchor : Anchor := newAnchor 0 ZERO none ⟨2026, 1, 2, 5, 0, 0, 0, by decide⟩

def emptiedSignature : String := "963f51cdd496742224bce0b683bc161961d902c8753db3487d27fe5d1506197a"

/-- The signatures of the two anchors under the key. -/
def sampleSign (_ : String) (anchor : Anchor) : String :=
  if anchor = emptiedAnchor then emptiedSignature else createdSignature

/-- The anchor of the row is checked, and the chain pruned to it. -/
def prune : List Action :=
  [.check "operator" signingKey createdAnchor, .confirm "operator", .delete "operator"]

def pruning : List Action := .append created :: prune

def lastPrune : Step :=
  (history (step (sqlite sampleSha) sampleSign) start pruning).getLast
    (List.cons_ne_nil _ _)

example : lastPrune.after.chain.base = some ⟨1, createdDigest⟩ := by decide +kernel

/-- No deletion of a run overtakes another when all of them find the base that was there first. -/
theorem current_of_floor {run : List Action} {x : TextKeeper}
    (fresh : ∀ e ∈ history (step (sqlite sha256) sign) x run,
      ∀ caller, e.action = .delete caller → e.before.chain.floor = 0) :
    ∀ e ∈ history (step (sqlite sha256) sign) x run, Current (sqlite sha256) e := by
  intro e member guarded caller anchor head deletes confirmed waits
  rw [fresh e member caller deletes]
  exact Nat.zero_le _

theorem pruning_current :
    ∀ e ∈ history (step (sqlite sampleSha) sampleSign) start pruning,
      Current (sqlite sampleSha) e := by
  apply current_of_floor
  intro e member caller deletes
  simp only [pruning, prune, history_cons, history_nil, List.mem_cons, List.not_mem_nil, or_false] at member
  rcases member with here | here | here | here
  · rw [here] at deletes
    cases deletes
  · rw [here] at deletes
    cases deletes
  · rw [here] at deletes
    cases deletes
  · rw [here]
    decide +kernel

theorem lastPrune_valid :
    ChainValid sampleSha lastPrune.before.chain ∧ ChainValid sampleSha lastPrune.after.chain ∧
      PruneKeeps sampleSha sampleSign lastPrune ∧
      Refuses sampleSha sampleSign lastPrune ∧
      ∀ key document, Pruned (Passes sampleSha sampleSign key document
          lastPrune.after.chain) document.anchor lastPrune.after.chain
        (SQLite.pruneToAnchor sampleSha sampleSign key document
          lastPrune.after.chain) :=
  audit_chain_valid sampleSha sampleSign pruning pruning_current lastPrune
    (List.getLast_mem _)

/-- The hash of the row of a number when that row is written again and again. -/
def createdHash : Nat → String
  | 0 => ZERO
  | n + 1 => hash id SQLite.columns (createdHash n) createdRow

def unsignedAnchor (n : Nat) : Document :=
  ⟨newAnchor n (createdHash n) (some created.now.isoformat) created.now, ""⟩

/-- Two connections prune three rows; the one that goes further deletes between the other's read
of the base and its deletion. -/
def overtaking : List Action :=
  [.append created, .append created, .append created, .check "first" signingKey (unsignedAnchor 1),
    .confirm "first", .check "second" signingKey (unsignedAnchor 2), .confirm "second",
    .delete "second", .delete "first"]

def lastOvertaking : Step :=
  (history (step (sqlite id) (fun _ _ => "")) start overtaking).getLast (List.cons_ne_nil _ _)

/-- The base goes back to row 1, whose successor is gone. -/
theorem overtaken_prune_breaks :
    ¬ ∀ sha256 sign run, ∀ e ∈ history (step (sqlite sha256) sign) start run,
      ChainValid sha256 e.before.chain ∧ ChainValid sha256 e.after.chain ∧
        PruneKeeps sha256 sign e ∧ Refuses sha256 sign e ∧
        ∀ signingKey document, Pruned (Passes sha256 sign signingKey document e.after.chain)
          document.anchor e.after.chain
          (SQLite.pruneToAnchor sha256 sign signingKey document e.after.chain) := by
  intro claimed
  have broken : SQLite.verify id lastOvertaking.after.chain = (false, some 2) := by decide +kernel
  have valid := (claimed id (fun _ _ => "") overtaking lastOvertaking (List.getLast_mem _)).2.1.verifies
  rw [broken] at valid
  cases valid

end Meemee.Guarantees.AuditPruning
