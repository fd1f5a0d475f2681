import Mathlib.Logic.Function.Basic
import Meemee.Guarantees.AuditChain
import Meemee.Library.History

/-!
# Runs of appends and prunes

A prune checks its anchor, on SQLite then reads the base, and deletes in a transaction of its own
later, so other calls come between; `written` remembers the entry that was written last. A chain
stays linked, each prune that has been checked finds its anchor recorded or out of date, and the head
is what was written last, as long as no deletion moves the base back.
-/
namespace Meemee.Guarantees.AuditRuns
open Library Library.History Source Source.Audit Library.Txn Function List
open Source.Audit.SQLite (Cell)
open Guarantees.AuditText Guarantees.AuditChain

/-- What a caller of `append` passes, the time, and what the database does. -/
structure AppendCall where
  now : Datetime
  actor : String
  action : String
  resource : String
  outcome : String
  metadata : Json
  fault : Except Exc Unit
  drawn : Bool

structure Store (χ τ μ : Type) where
  columns : Columns χ τ μ
  verify : Chain χ τ μ → Bool × Option Nat
  append : AppendCall → ChainTxn χ τ μ Nat
  createAnchor : (String → Anchor → String) → String → Bool → Datetime → Chain χ τ μ →
    Except AuditExc Document
  verifyAnchor : (String → Anchor → String) → String → Document → Chain χ τ μ → Report
  /-- The base that a prune reads before its transaction begins. -/
  confirm : Chain χ τ μ → Nat → Except AuditExc Unit
  /-- The transaction of a prune reads the base itself. -/
  guards : Bool
  /-- The transaction of `prune_to_anchor`; what is verified after it changes nothing. -/
  delete : Anchor → Nat × String → ChainTxn χ τ μ Nat

theorem Postgres.verifyAnchor_anchor (sha256 : String → String) (sign : String → Anchor → String)
    (signingKey : String) (document : Document) (c : Postgres.TypedChain) :
    (Postgres.verifyAnchor sha256 sign signingKey document c).anchor = document.anchor := by
  unfold Postgres.verifyAnchor
  cases document.anchor.sequence <;> rfl

def sqlite (sha256 : String → String) : Store Cell Cell Cell where
  columns := SQLite.columns
  verify := SQLite.verify sha256
  append call := SQLite.append sha256 call.now call.actor call.action call.resource call.outcome
    call.metadata call.fault
  createAnchor := SQLite.createAnchor sha256
  verifyAnchor := SQLite.verifyAnchor sha256
  confirm := Chain.checkBase
  guards := false
  delete _ := SQLite.deleteThrough

def postgres (jsonb : Json → Except Exc Postgres.Jsonb) (sha256 : String → String) :
    Store String Datetime Postgres.Jsonb where
  columns := Postgres.columns
  verify := Postgres.verify sha256
  append call := Postgres.append jsonb sha256 call.now call.actor call.action call.resource
    call.outcome call.metadata call.fault call.drawn
  createAnchor := Postgres.createAnchor sha256
  verifyAnchor := Postgres.verifyAnchor sha256
  confirm _ _ := .ok ()
  guards := true
  delete := Postgres.deleteAnchored sha256

section Laws

variable {χ τ μ : Type}

def skipped (c : Chain χ τ μ) : Chain χ τ μ := { c with log := c.log.skip }

/-- A row after the last, which verifies exactly when the call is `faithful`, or nothing. -/
inductive AppendOutcome (sha256 : String → String) (columns : Columns χ τ μ) (faithful : Prop)
    (c : Chain χ τ μ) : Except AuditExc Nat × Chain χ τ μ → Prop
  | appended (row : Entry χ τ μ) (named : row.previousHash = c.last)
      (carries : row.entryHash = hash sha256 columns c.last row.fields ↔ faithful) :
      AppendOutcome sha256 columns faithful c (.ok c.log.next, extended c row)
  | refused (e : AuditExc) : AppendOutcome sha256 columns faithful c (.error e, c)
  | skipped (e : AuditExc) : AppendOutcome sha256 columns faithful c (.error e, skipped c)

/-- The rows through a number go and its head becomes the base; or nothing. -/
inductive DeleteOutcome (head : Nat × String) (c : Chain χ τ μ) :
    Except AuditExc Nat × Chain χ τ μ → Prop
  | deleted (current : c.floor ≤ head.1) :
      DeleteOutcome head c (.ok (c.deleted head.1), c.pruned head.1 head.2)
  | kept (e : AuditExc) : DeleteOutcome head c (.error e, c)

structure Lawful (sha256 : String → String) (store : Store χ τ μ) (Numbered : Chain χ τ μ → Prop)
    (faithful : AppendCall → Prop) : Prop where
  empty : Numbered Chain.empty
  above : ∀ c, Numbered c → Above c
  drawn : ∀ c, Numbered c → c.floor < c.log.next
  append : ∀ call c, AppendOutcome sha256 store.columns (faithful call) c (store.append call c)
  appends : ∀ call c, Numbered c → Numbered (store.append call c).2
  delete : ∀ anchor head c, store.guards = true ∨ c.floor ≤ head.1 →
    DeleteOutcome head c (store.delete anchor head c)
  prunes : ∀ c (n : Nat) h, Numbered c → c.recorded n = some h → Numbered (c.pruned n h)
  verify : ∀ c, Numbered c → (store.verify c = (true, none) ↔
    (format sha256 store.columns).Linked c.start c.log.entries)
  anchor : ∀ sign key document c, (store.verifyAnchor sign key document c).anchor = document.anchor
  passes : ∀ sign key document c, (store.verifyAnchor sign key document c).passes = true ↔
    document.signature = sign key document.anchor ∧ c.headMatches document.anchor = true ∧
      store.verify c = (true, none)

theorem of_mapError {ε ε' α : Type} {f : ε → ε'} {result : Except ε α} {a : α}
    (returned : result.mapError f = .ok a) : result = .ok a := by
  cases result with
  | ok b =>
    cases returned
    rfl
  | error e => cases returned

theorem checkBase_iff (c : Chain χ τ μ) (n : Nat) : c.checkBase n = .ok () ↔ c.floor ≤ n := by
  unfold Chain.checkBase Chain.floor
  cases c.base with
  | none => simp
  | some base =>
    rcases Nat.lt_or_ge n base.sequence with low | current
    · simp [low]
    · simp [current, Nat.not_lt.mpr current]

theorem checkRetained_run (verdict : Bool × Option Nat) (c : Chain χ τ μ) :
    checkRetained verdict c = if verdict.1 then (.ok (), c) else
      (.error (.runtimeError ("audit chain invalid after prune at " ++ brokenText verdict.2)), c) := by
  unfold checkRetained Txn.require
  cases verdict.1 <;> rfl

theorem checkPrune_returned {r : Report} {head : Nat × String} (passed : checkPrune r = .ok head) :
    r.passes = true ∧ r.anchor.sequence = some (head.1 : Int) ∧ r.anchor.entryHash = some head.2 ∧
      1 ≤ head.1 := by
  unfold checkPrune at passed
  split at passed
  next passes =>
    split at passed
    next sequence entryHash numbered hash =>
      split at passed
      next => cases passed
      next positive =>
        cases passed
        have same : (sequence.toNat : Int) = sequence := Int.toNat_of_nonneg (by omega)
        refine ⟨passes, ?_, hash, ?_⟩
        · rw [same]
          exact numbered
        · omega
    next => cases passed
    next => cases passed
  next => cases passed

theorem report_passes (sign : String → Anchor → String) (key : String) (document : Document)
    (matched : Bool) (verdict : Bool × Option Nat) :
    (report sign key document matched verdict).passes = true ↔
      document.signature = sign key document.anchor ∧ matched = true ∧ verdict.1 = true := by
  simp only [report, Report.passes, Bool.and_eq_true, decide_eq_true_eq, and_assoc]

end Laws

namespace SQLite

/-- The numbers follow each other, the next one too. -/
structure Numbered (c : SQLite.TextChain) : Prop where
  consecutive : Consecutive (c.floor + 1) c.log.entries
  next : c.log.next = c.floor + 1 + c.log.entries.length

theorem numbered_extended {c : SQLite.TextChain} (numbered : Numbered c) (row : Entry Cell Cell Cell) :
    Numbered (extended c row) := by
  have shape : (extended c row).log.entries = c.log.entries ++ [(c.log.next, row)] := rfl
  constructor
  · rw [shape, consecutive_append]
    exact ⟨numbered.consecutive, numbered.next, trivial⟩
  · rw [shape, length_append]
    show c.log.next + 1 = c.floor + 1 + (c.log.entries.length + 1)
    rw [numbered.next]
    omega

theorem length_through {c : SQLite.TextChain} (consecutive : Consecutive (c.floor + 1) c.log.entries)
    {n : Nat} {h : String} (found : c.recorded n = some h) : c.floor + (through c n).length = n := by
  have above : Above c := le_of_consecutive consecutive
  obtain ⟨split, -, shape⟩ := cut_at id SQLite.columns above found
  rw [split, consecutive_append] at consecutive
  rcases shape with ⟨empty, floor⟩ | ⟨front, e, ends, number⟩
  · rw [empty, floor]
    rfl
  · rw [ends, consecutive_append] at consecutive
    have last := consecutive.1.2.1
    rw [ends, length_append, length_singleton]
    omega

theorem numbered_pruned {c : SQLite.TextChain} (numbered : Numbered c) {n : Nat} {h : String}
    (found : c.recorded n = some h) : Numbered (c.pruned n h) := by
  have above : Above c := le_of_consecutive numbered.consecutive
  have length := length_through numbered.consecutive found
  obtain ⟨split, -, -⟩ := cut_at id SQLite.columns above found
  have consecutive := numbered.consecutive
  have next := numbered.next
  rw [split] at consecutive next
  rw [consecutive_append] at consecutive
  rw [length_append] at next
  have first : c.floor + 1 + (through c n).length = n + 1 := by omega
  constructor
  · have rest := consecutive.2
    rw [first] at rest
    exact rest
  · show c.log.next = n + 1 + (c.log.deleteThrough n).entries.length
    omega

theorem append_outcome (sha256 : String → String) (call : AppendCall) (c : SQLite.TextChain) :
    AppendOutcome sha256 SQLite.columns True c ((sqlite sha256).append call c) := by
  show AppendOutcome sha256 SQLite.columns True c (SQLite.append sha256 call.now call.actor
    call.action call.resource call.outcome call.metadata call.fault c)
  unfold SQLite.append
  cases encodeMetadata call.metadata with
  | error e => exact .refused _
  | ok encoded =>
    have returned : (Except.ok encoded : Except Exc String).mapError AuditExc.database = .ok encoded := rfl
    rw [returned, run_bind_ok (run_ofExcept _ _)]
    rcases atomically_cases (do
        Txn.ofExcept (call.fault.mapError .database)
        appendRow sha256 SQLite.columns ⟨.text call.now.isoformat, .text call.actor,
          .text call.action, .text call.resource, .text call.outcome, .text encoded⟩) c with ⟨n, t, run, done⟩ | ⟨e, t, -, done⟩
    · rw [done]
      obtain ⟨-, -, run⟩ := ofExcept_bind_returned run
      obtain ⟨-, run⟩ := require_bind_returned run
      cases run
      exact .appended _ rfl (iff_of_true rfl trivial)
    · rw [done]
      exact .refused e

theorem append_raised {sha256 : String → String} {call : AppendCall} {c t : SQLite.TextChain}
    {e : AuditExc} (run : (sqlite sha256).append call c = (.error e, t)) : t = c := by
  change SQLite.append sha256 call.now call.actor call.action call.resource call.outcome
    call.metadata call.fault c = (.error e, t) at run
  unfold SQLite.append at run
  cases written : encodeMetadata call.metadata with
  | error raised =>
    rw [written] at run
    cases run
    rfl
  | ok encoded =>
    rw [written] at run
    exact atomically_error run

theorem lawful (sha256 : String → String) :
    Lawful sha256 (sqlite sha256) Numbered (fun _ => True) where
  empty := ⟨trivial, rfl⟩
  above c numbered := le_of_consecutive numbered.consecutive
  drawn c numbered := by
    have next := numbered.next
    omega
  append := append_outcome sha256
  appends call c numbered := by
    have outcome := append_outcome sha256 call c
    cases run : (sqlite sha256).append call c with
    | mk answer t =>
      rw [run] at outcome
      cases outcome with
      | appended row => exact numbered_extended numbered row
      | refused e => exact numbered
      | skipped e =>
        rw [append_raised run]
        exact numbered
  delete _ _ _ allowed := .deleted (allowed.resolve_left Bool.false_ne_true)
  prunes c n h numbered found := numbered_pruned numbered found
  verify c numbered := by
    rw [show (sqlite sha256).verify = SQLite.verify sha256 from rfl, verify_iff]
    exact and_iff_left numbered.consecutive
  anchor sign key document c := rfl
  passes sign key document c := by
    refine (report_passes sign key document _ _).trans ?_
    rw [verified]
    rfl

end SQLite

namespace Postgres

/-- The numbers lie above the base, the next one too. -/
structure Numbered (c : Postgres.TypedChain) : Prop where
  above : Above c
  next : c.floor < c.log.next

/-- The stored metadata are encoded as the text that was hashed. -/
def Reencodes (jsonb : Json → Except Exc Postgres.Jsonb) (call : AppendCall) : Prop :=
  ∀ encoded stored, encodeMetadata call.metadata = .ok encoded →
    jsonb (orEmpty call.metadata) = .ok stored → stored.encoded = encoded

theorem canonical_metadata (previous : String) (now : Datetime)
    (actor action resource outcome encoded : String) (stored : Postgres.Jsonb) :
    canonical ⟨id, Datetime.isoformat, id⟩ previous ⟨now, actor, action, resource, outcome, encoded⟩ =
        canonical Postgres.columns previous ⟨now, actor, action, resource, outcome, stored⟩ ↔
      stored.encoded = encoded := by
  constructor
  · intro same
    have texts := congrArg String.toList same
    simp only [canonical, String.toList_append] at texts
    exact (String.toList_inj.mp (append_cancel_left texts)).symm
  · intro same
    simp only [canonical, Postgres.columns, same, id_eq]

theorem outcome_of_body {sha256 : String → String} {faithful : Prop} {c : Postgres.TypedChain}
    {body : ChainTxn String Datetime Postgres.Jsonb Nat} {drawn : Bool}
    (returned : ∀ n t, body c = (.ok n, t) → AppendOutcome sha256 Postgres.columns faithful c (.ok n, t)) :
    AppendOutcome sha256 Postgres.columns faithful c
      (match Txn.atomically body c with
      | (.ok n, t) => (.ok n, t)
      | (.error e, t) => (.error e, if drawn then skipped t else t)) := by
  rcases atomically_cases body c with ⟨n, t, run, done⟩ | ⟨e, t, -, done⟩
  · rw [done]
    exact returned n t run
  · rw [done]
    cases drawn with
    | true => exact .skipped e
    | false => exact .refused e

theorem append_outcome {sha256 : String → String} (injective : Function.Injective sha256)
    (jsonb : Json → Except Exc Postgres.Jsonb) (call : AppendCall) (c : Postgres.TypedChain) :
    AppendOutcome sha256 Postgres.columns (Reencodes jsonb call) c
      ((postgres jsonb sha256).append call c) := by
  refine outcome_of_body (fun n t run => ?_)
  obtain ⟨encoded, wrote, run⟩ := ofExcept_bind_returned run
  obtain ⟨stored, kept, run⟩ := ofExcept_bind_returned run
  obtain ⟨-, -, run⟩ := ofExcept_bind_returned run
  obtain ⟨-, run⟩ := require_bind_returned run
  cases run
  have written : encodeMetadata call.metadata = .ok encoded := of_mapError wrote
  have value : jsonb (orEmpty call.metadata) = .ok stored := of_mapError kept
  refine .appended _ rfl (injective.eq_iff.trans ((canonical_metadata _ _ _ _ _ _ _ _).trans ?_))
  constructor
  · intro same encoded' stored' written' value'
    rw [written] at written'
    rw [value] at value'
    cases written'
    cases value'
    exact same
  · intro reencodes
    exact reencodes encoded stored written value

theorem delete_outcome (sha256 : String → String) (anchor : Anchor) (head : Nat × String)
    (c : Postgres.TypedChain) : DeleteOutcome head c (Postgres.deleteAnchored sha256 anchor head c) := by
  unfold Postgres.deleteAnchored
  rcases atomically_cases (do
      let based ← Txn.read (fun c => c.checkBase head.1)
      Txn.ofExcept based
      let same ← Txn.read (fun c => c.headMatches anchor)
      Txn.require same (.valueError "anchored entry changed before prune")
      let deleted ← Txn.read (fun c => c.deleted head.1)
      Txn.write (fun c => c.pruned head.1 head.2)
      let verdict ← Txn.read (Postgres.verify sha256)
      checkRetained verdict
      return deleted) c with ⟨n, t, run, done⟩ | ⟨e, t, -, done⟩
  · rw [done]
    obtain ⟨⟨⟩, based, run⟩ := ofExcept_bind_returned run
    obtain ⟨-, run⟩ := require_bind_returned run
    rw [run_bind_read, run_bind_write, run_bind_read] at run
    obtain ⟨⟨⟩, s, retained, run⟩ := bind_returned run
    rw [checkRetained_run] at retained
    split at retained
    next =>
      cases retained
      cases run
      exact .deleted ((checkBase_iff c head.1).mp based)
    next => cases retained
  · rw [done]
    exact .kept e

theorem lawful {sha256 : String → String} (injective : Function.Injective sha256)
    (jsonb : Json → Except Exc Postgres.Jsonb) :
    Lawful sha256 (postgres jsonb sha256) Numbered (Reencodes jsonb) where
  empty := ⟨nofun, Nat.one_pos⟩
  above c numbered := numbered.above
  drawn c numbered := numbered.next
  append := append_outcome injective jsonb
  appends call c numbered := by
    have outcome := append_outcome injective jsonb call c
    generalize (postgres jsonb sha256).append call c = result at outcome
    have next := numbered.next
    cases outcome with
    | appended row =>
      refine ⟨fun e mem => ?_, Nat.lt_succ_of_lt next⟩
      rcases mem_append.mp mem with old | new
      · exact numbered.above e old
      · rw [mem_singleton.mp new]
        exact next
    | refused e => exact numbered
    | skipped e => exact ⟨numbered.above, Nat.lt_succ_of_lt next⟩
  delete anchor head c _ := delete_outcome sha256 anchor head c
  prunes c n h numbered found := by
    refine ⟨above_pruned c n h, ?_⟩
    show n < c.log.next
    rcases (recorded_iff numbered.above).mp found with ⟨e, stored, number, -⟩ | ⟨b, base, number, -⟩
    · have drawn := c.log.drawn e stored
      omega
    · have next := numbered.next
      rw [Chain.floor, base] at next
      simp only at next
      omega
  verify c numbered := by
    refine verifyTyped_iff.trans ?_
    exact and_iff_left numbered.above
  anchor sign key document c := verifyAnchor_anchor sha256 sign key document c
  passes sign key document c := by
    change (Postgres.verifyAnchor sha256 sign key document c).passes = true ↔ _
    unfold Postgres.verifyAnchor
    cases sequence : document.anchor.sequence with
    | none =>
      have unmatched : c.headMatches document.anchor = false := by
        rw [Chain.headMatches, sequence]
      simp [Report.passes, unmatched]
    | some k =>
      refine (report_passes sign key document _ _).trans ?_
      rw [verifiedTyped]
      rfl

end Postgres

section System

variable {χ τ μ : Type}

structure Keeper (χ τ μ : Type) where
  chain : Chain χ τ μ
  /-- The anchors that prunes have checked and not yet used, by caller. -/
  waiting : String → Option (Anchor × Nat × String)
  /-- Which of them have read the base since. -/
  confirmed : String → Bool
  /-- The number and the hash of the entry written last. -/
  written : Nat × String

inductive Action where
  | append (call : AppendCall)
  | check (caller signingKey : String) (document : Document)
  | confirm (caller : String)
  | delete (caller : String)

inductive Value where
  | appended (sequence : Nat)
  | checked
  | confirmed
  | deleted (rows : Nat)
  | idle

def Keeper.appends (store : Store χ τ μ) (x : Keeper χ τ μ) (call : AppendCall) :
    Except AuditExc Value × Keeper χ τ μ :=
  match store.append call x.chain with
  | (.ok n, t) => (.ok (.appended n), { x with chain := t, written := (n, t.last) })
  | (.error e, t) => (.error e, { x with chain := t })

def Keeper.checks (store : Store χ τ μ) (sign : String → Anchor → String) (x : Keeper χ τ μ)
    (caller signingKey : String) (document : Document) : Except AuditExc Value × Keeper χ τ μ :=
  match checkPrune (store.verifyAnchor sign signingKey document x.chain) with
  | .ok head =>
    (.ok .checked, { x with
      waiting := update x.waiting caller (some (document.anchor, head))
      confirmed := update x.confirmed caller false })
  | .error e => (.error e, x)

/-- A prune that has ended. -/
def Keeper.settled (x : Keeper χ τ μ) (caller : String) : Keeper χ τ μ :=
  { x with waiting := update x.waiting caller none }

def Keeper.confirms (store : Store χ τ μ) (x : Keeper χ τ μ) (caller : String) :
    Except AuditExc Value × Keeper χ τ μ :=
  match x.waiting caller with
  | none => (.ok .idle, x)
  | some (_, head) =>
    match store.confirm x.chain head.1 with
    | .ok _ => (.ok .confirmed, { x with confirmed := update x.confirmed caller true })
    | .error e => (.error e, x.settled caller)

def Keeper.deletes (store : Store χ τ μ) (x : Keeper χ τ μ) (caller : String) :
    Except AuditExc Value × Keeper χ τ μ :=
  match x.waiting caller with
  | none => (.ok .idle, x)
  | some (anchor, head) =>
    if x.confirmed caller then
      match store.delete anchor head x.chain with
      | (.ok rows, t) => (.ok (.deleted rows), { x.settled caller with chain := t })
      | (.error e, t) => (.error e, { x.settled caller with chain := t })
    else (.ok .idle, x)

def step (store : Store χ τ μ) (sign : String → Anchor → String) (x : Keeper χ τ μ) (action : Action) :
    Except AuditExc Value × Keeper χ τ μ :=
  match action with
  | .append call => x.appends store call
  | .check caller signingKey document => x.checks store sign caller signingKey document
  | .confirm caller => x.confirms store caller
  | .delete caller => x.deletes store caller

def start : Keeper χ τ μ := ⟨Chain.empty, fun _ => none, fun _ => false, (0, ZERO)⟩

/-- No deletion goes behind the base: its own transaction reads it, or no other prune came between. -/
def Current (store : Store χ τ μ) (e : Event (Keeper χ τ μ) Action (Except AuditExc Value)) : Prop :=
  store.guards = false → ∀ caller anchor head, e.action = .delete caller →
    e.before.confirmed caller = true → e.before.waiting caller = some (anchor, head) →
      e.before.chain.floor ≤ head.1

theorem Postgres.current (jsonb : Json → Except Exc Postgres.Jsonb) (sha256 : String → String)
    (e : Event (Keeper String Datetime Postgres.Jsonb) Action (Except AuditExc Value)) :
    Current (postgres jsonb sha256) e := by
  intro guarded
  cases guarded

/-- A prune that nothing comes between is `prune_to_anchor`. -/
theorem Postgres.pruneToAnchor_steps (jsonb : Json → Except Exc Postgres.Jsonb) (sha256 : String → String)
    (sign : String → Anchor → String) (signingKey : String) (document : Document) {caller : String}
    {x : Keeper String Datetime Postgres.Jsonb} (free : x.waiting caller = none) :
    (Postgres.pruneToAnchor sha256 sign signingKey document x.chain).2 =
      (final (step (postgres jsonb sha256) sign) x
        [.check caller signingKey document, .confirm caller, .delete caller]).chain := by
  have read : (postgres jsonb sha256).verifyAnchor = Postgres.verifyAnchor sha256 := rfl
  simp only [final_cons, final_nil, step, Keeper.checks, read]
  rw [Postgres.pruneToAnchor, run_bind_read]
  cases checked : checkPrune (Postgres.verifyAnchor sha256 sign signingKey document x.chain) with
  | error e =>
    simp only [Keeper.confirms, Keeper.deletes, free]
    rfl
  | ok head =>
    rw [run_bind_ok (run_ofExcept _ _), verifyAnchor_anchor]
    simp only [Keeper.confirms, Keeper.deletes, update_self, postgres, if_true]
    generalize Postgres.deleteAnchored sha256 document.anchor head x.chain = result
    cases result with
    | mk answer t => cases answer <;> rfl

theorem waiting_of_settled {x : Keeper χ τ μ} {caller other : String} {w : Anchor × Nat × String}
    (waits : (x.settled caller).waiting other = some w) : x.waiting other = some w := by
  unfold Keeper.settled at waits
  by_cases here : other = caller
  · subst here
    simp only [update_self] at waits
    cases waits
  · simpa only [update_of_ne here] using waits

/-- What reading the base can do. -/
inductive ConfirmOutcome (store : Store χ τ μ) (x : Keeper χ τ μ) (caller : String) :
    Except AuditExc Value × Keeper χ τ μ → Prop
  | idle (nothing : x.waiting caller = none) : ConfirmOutcome store x caller (.ok .idle, x)
  | confirmed (anchor : Anchor) (head : Nat × String) (waits : x.waiting caller = some (anchor, head))
      (done : store.confirm x.chain head.1 = .ok ()) : ConfirmOutcome store x caller
        (.ok .confirmed, { x with confirmed := update x.confirmed caller true })
  | refused (e : AuditExc) : ConfirmOutcome store x caller (.error e, x.settled caller)

theorem confirms_cases (store : Store χ τ μ) (x : Keeper χ τ μ) (caller : String) :
    ConfirmOutcome store x caller (x.confirms store caller) := by
  unfold Keeper.confirms
  split
  next nothing => exact .idle nothing
  next anchor head waits =>
    split
    next done => exact .confirmed anchor head waits done
    next e _ => exact .refused e

/-- What a deletion can do. -/
inductive Deletion (x : Keeper χ τ μ) (caller : String) : Except AuditExc Value × Keeper χ τ μ → Prop
  | idle : Deletion x caller (.ok .idle, x)
  | kept (e : AuditExc) : Deletion x caller (.error e, x.settled caller)
  | deleted (anchor : Anchor) (head : Nat × String) (waits : x.waiting caller = some (anchor, head))
      (current : x.chain.floor ≤ head.1) : Deletion x caller (.ok (.deleted (x.chain.deleted head.1)),
        { x.settled caller with chain := x.chain.pruned head.1 head.2 })

/-- What holds also where a row does not verify. -/
structure Kept (Numbered : Chain χ τ μ → Prop) (x : Keeper χ τ μ) : Prop where
  numbered : Numbered x.chain
  base : ∀ b, x.chain.base = some b → 1 ≤ b.sequence
  written : x.written = headOf x.chain
  waiting : ∀ caller anchor n h, x.waiting caller = some (anchor, n, h) →
    1 ≤ n ∧ (n < x.chain.floor ∨ x.chain.recorded n = some h)

variable {sha256 : String → String} {store : Store χ τ μ} {Numbered : Chain χ τ μ → Prop}
  {faithful : AppendCall → Prop} (lawful : Lawful sha256 store Numbered faithful)
  {sign : String → Anchor → String}

include lawful

theorem start_kept : Kept Numbered (start : Keeper χ τ μ) where
  numbered := lawful.empty
  base _ none_there := by cases none_there
  written := rfl
  waiting _ _ _ _ none_waits := by cases none_waits

theorem lt_next_of_recorded {c : Chain χ τ μ} (numbered : Numbered c) {n : Nat} {h : String}
    (found : c.recorded n = some h) : n < c.log.next := by
  have drawn := lawful.drawn c numbered
  rcases (recorded_iff (lawful.above c numbered)).mp found with ⟨e, stored, number, -⟩ | ⟨b, base, number, -⟩
  · have below := c.log.drawn e stored
    omega
  · rw [Chain.floor, base] at drawn
    simp only at drawn
    omega

variable {x : Keeper χ τ μ}

theorem appends_kept (kept : Kept Numbered x) (call : AppendCall) :
    Kept Numbered (x.appends store call).2 := by
  have numbered := lawful.appends call x.chain kept.numbered
  have above := lawful.above _ kept.numbered
  have outcome := lawful.append call x.chain
  unfold Keeper.appends
  generalize store.append call x.chain = result at outcome numbered
  cases outcome with
  | appended row =>
    refine ⟨numbered, kept.base, ?_, ?_⟩
    · show (x.chain.log.next, (extended x.chain row).last) = headOf (extended x.chain row)
      rw [← headOf_last, headOf_extended]
    · intro caller anchor n h waits
      obtain ⟨positive, below | found⟩ := kept.waiting caller anchor n h waits
      · exact ⟨positive, .inl below⟩
      · exact ⟨positive, .inr (recorded_extended above (lawful.above _ numbered) found)⟩
  | refused e => exact kept
  | skipped e => exact ⟨numbered, kept.base, kept.written, kept.waiting⟩

theorem deletes_cases {caller : String}
    (current : Current store ⟨x, .delete caller, (x.deletes store caller).1, (x.deletes store caller).2⟩) :
    Deletion x caller (x.deletes store caller) := by
  unfold Current at current
  unfold Keeper.deletes
  cases waits : x.waiting caller with
  | none => exact .idle
  | some checked =>
    obtain ⟨anchor, head⟩ := checked
    simp only
    split
    next confirmed =>
      have allowed : store.guards = true ∨ x.chain.floor ≤ head.1 := by
        cases guarded : store.guards with
        | true => exact .inl rfl
        | false => exact .inr (current guarded caller anchor head rfl confirmed waits)
      have outcome := lawful.delete anchor head x.chain allowed
      generalize store.delete anchor head x.chain = result at outcome
      cases outcome with
      | deleted current => exact .deleted anchor head waits current
      | kept e => exact .kept e
    next => exact .idle

omit lawful in
theorem settled_kept (kept : Kept Numbered x) (caller : String) : Kept Numbered (x.settled caller) :=
  ⟨kept.numbered, kept.base, kept.written, fun other anchor n h waits =>
    kept.waiting other anchor n h (waiting_of_settled waits)⟩

theorem checks_kept (kept : Kept Numbered x) (caller signingKey : String)
    (document : Document) : Kept Numbered (x.checks store sign caller signingKey document).2 := by
  unfold Keeper.checks
  cases checked : checkPrune (store.verifyAnchor sign signingKey document x.chain) with
  | error e => exact kept
  | ok head =>
    refine ⟨kept.numbered, kept.base, kept.written, ?_⟩
    intro other anchor n h waits
    by_cases here : other = caller
    · subst here
      simp only [update_self] at waits
      obtain ⟨-, rfl⟩ := waits
      obtain ⟨passes, sequence, hash, positive⟩ := checkPrune_returned checked
      obtain ⟨-, matched, -⟩ := (lawful.passes sign signingKey document x.chain).mp passes
      rw [lawful.anchor] at sequence hash
      exact ⟨positive, .inr (recorded_of_matched matched sequence hash positive)⟩
    · simp only [update_of_ne here] at waits
      exact kept.waiting other anchor n h waits

omit lawful in
theorem confirms_kept (kept : Kept Numbered x) (caller : String) :
    Kept Numbered (x.confirms store caller).2 := by
  have outcome := confirms_cases store x caller
  generalize x.confirms store caller = result at outcome
  cases outcome with
  | idle => exact kept
  | confirmed => exact ⟨kept.numbered, kept.base, kept.written, kept.waiting⟩
  | refused e => exact settled_kept kept caller

omit lawful in
theorem found_of_waiting (kept : Kept Numbered x) {caller : String}
    {anchor : Anchor} {head : Nat × String} (waits : x.waiting caller = some (anchor, head))
    (current : x.chain.floor ≤ head.1) : x.chain.recorded head.1 = some head.2 := by
  obtain ⟨-, below | found⟩ := kept.waiting caller anchor head.1 head.2 waits
  · omega
  · exact found

theorem pruned_kept (kept : Kept Numbered x) (caller : String) {n : Nat} {h : String}
    (found : x.chain.recorded n = some h) (positive : 1 ≤ n) :
    Kept Numbered { x.settled caller with chain := x.chain.pruned n h } := by
  have above := lawful.above _ kept.numbered
  refine ⟨lawful.prunes _ n h kept.numbered found, ?_, ?_, ?_⟩
  · intro b base
    cases base
    exact positive
  · rw [headOf_pruned above found]
    exact kept.written
  · intro other anchor k g waits
    obtain ⟨positive, earlier | found'⟩ := kept.waiting other anchor k g (waiting_of_settled waits)
    · have current := floor_le_of_recorded above found
      refine ⟨positive, .inl ?_⟩
      show k < n
      omega
    · refine ⟨positive, ?_⟩
      rcases Nat.lt_or_ge k n with lower | later
      · exact .inl lower
      · exact .inr (recorded_pruned above found (by omega) found')

theorem deletes_kept (kept : Kept Numbered x) (caller : String)
    (current : Current store ⟨x, .delete caller, (x.deletes store caller).1, (x.deletes store caller).2⟩) :
    Kept Numbered (x.deletes store caller).2 := by
  have outcome := deletes_cases lawful current
  generalize x.deletes store caller = result at outcome
  cases outcome with
  | idle => exact kept
  | kept e => exact settled_kept kept caller
  | deleted anchor head waits current =>
    exact pruned_kept lawful kept caller (found_of_waiting kept waits current)
      (kept.waiting caller anchor head.1 head.2 waits).1

theorem step_kept (x : Keeper χ τ μ) (action : Action) (kept : Kept Numbered x)
    (current : Current store ⟨x, action, (step store sign x action).1, (step store sign x action).2⟩) :
    Kept Numbered (step store sign x action).2 := by
  cases action with
  | append call => exact appends_kept lawful kept call
  | check caller signingKey document => exact checks_kept lawful kept caller signingKey document
  | confirm caller => exact confirms_kept kept caller
  | delete caller => exact deletes_kept lawful kept caller current

omit lawful in
theorem digest_of_linked {start : String} {rows : List (Nat × Entry χ τ μ)}
    (linked : (format sha256 store.columns).Linked start rows) :
    ∀ e ∈ rows, e.2.entryHash = hash sha256 store.columns e.2.previousHash e.2.fields := by
  induction rows generalizing start with
  | nil =>
    intro e mem
    cases mem
  | cons r rest ih =>
    intro e mem
    obtain ⟨⟨named, carries⟩, later⟩ := linked
    rcases mem_cons.mp mem with here | there
    · subst here
      exact carries.trans (congrArg (fun link => hash sha256 store.columns link e.2.fields) named.symm)
    · exact ih later e there

omit lawful in
/-- A keeper whose chain verifies. -/
def Sound (sha256 : String → String) (store : Store χ τ μ) (Numbered : Chain χ τ μ → Prop)
    (x : Keeper χ τ μ) : Prop :=
  Kept Numbered x ∧ (format sha256 store.columns).Linked x.chain.start x.chain.log.entries

omit lawful in
/-- A row whose hash is not that of its own text, which no prune can reach. -/
def Doomed (sha256 : String → String) (store : Store χ τ μ) (Numbered : Chain χ τ μ → Prop)
    (x : Keeper χ τ μ) : Prop :=
  Kept Numbered x ∧ ∃ e ∈ x.chain.log.entries,
    e.2.entryHash ≠ hash sha256 store.columns e.2.previousHash e.2.fields ∧
      ∀ caller anchor n h, x.waiting caller = some (anchor, n, h) → n < e.1

omit lawful in
/-- An append that returned was faithful. -/
def Faithful (faithful : AppendCall → Prop)
    (e : Event (Keeper χ τ μ) Action (Except AuditExc Value)) : Prop :=
  ∀ call n, e.action = .append call → e.answer = .ok (.appended n) → faithful call

theorem verify_of_sound (sound : Sound sha256 store Numbered x) :
    store.verify x.chain = (true, none) := (lawful.verify _ sound.1.numbered).mpr sound.2

theorem not_verify_of_doomed (doomed : Doomed sha256 store Numbered x) :
    store.verify x.chain ≠ (true, none) := by
  intro valid
  obtain ⟨kept, e, stored, bad, -⟩ := doomed
  exact bad (digest_of_linked ((lawful.verify _ kept.numbered).mp valid) e stored)

theorem deletes_sound (sound : Sound sha256 store Numbered x) (caller : String)
    (current : Current store ⟨x, .delete caller, (x.deletes store caller).1, (x.deletes store caller).2⟩) :
    (format sha256 store.columns).Linked (x.deletes store caller).2.chain.start
      (x.deletes store caller).2.chain.log.entries := by
  obtain ⟨kept, linked⟩ := sound
  have above := lawful.above _ kept.numbered
  have outcome := deletes_cases lawful current
  generalize x.deletes store caller = result at outcome
  cases outcome with
  | idle => exact linked
  | kept e => exact linked
  | deleted anchor head waits current =>
    exact linked_pruned linked above (found_of_waiting kept waits current)

omit lawful in
/-- Only appends and deletions change the chain. -/
theorem check_chain (x : Keeper χ τ μ) (caller signingKey : String) (document : Document) :
    (x.checks store sign caller signingKey document).2.chain = x.chain := by
  unfold Keeper.checks
  split <;> rfl

omit lawful in
theorem confirm_chain (x : Keeper χ τ μ) (caller : String) :
    (x.confirms store caller).2.chain = x.chain := by
  have outcome := confirms_cases store x caller
  generalize x.confirms store caller = result at outcome
  cases outcome <;> rfl

theorem step_sound (x : Keeper χ τ μ) (action : Action)
    (current : Current store ⟨x, action, (step store sign x action).1, (step store sign x action).2⟩)
    (sound : Sound sha256 store Numbered x)
    (meets : Faithful faithful ⟨x, action, (step store sign x action).1, (step store sign x action).2⟩) :
    Sound sha256 store Numbered (step store sign x action).2 := by
  refine ⟨step_kept lawful x action sound.1 current, ?_⟩
  cases action with
  | check caller signingKey document =>
    rw [step, check_chain]
    exact sound.2
  | confirm caller =>
    rw [step, confirm_chain]
    exact sound.2
  | delete caller => exact deletes_sound lawful sound caller current
  | append call =>
    have outcome := lawful.append call x.chain
    simp only [step, Keeper.appends] at meets ⊢
    generalize store.append call x.chain = result at outcome meets
    cases outcome with
    | appended row named carries =>
      exact linked_extended sound.2 named (carries.mpr (meets call _ rfl rfl))
    | refused e => exact sound.2
    | skipped e => exact sound.2

theorem step_broken (x : Keeper χ τ μ) (action : Action)
    (current : Current store ⟨x, action, (step store sign x action).1, (step store sign x action).2⟩)
    (sound : Sound sha256 store Numbered x)
    (breaks : ¬ Faithful faithful
      ⟨x, action, (step store sign x action).1, (step store sign x action).2⟩) :
    Doomed sha256 store Numbered (step store sign x action).2 := by
  refine ⟨step_kept lawful x action sound.1 current, ?_⟩
  simp only [Faithful, not_forall] at breaks
  obtain ⟨call, n, rfl, answered, unfaithful⟩ := breaks
  have outcome := lawful.append call x.chain
  simp only [step, Keeper.appends] at answered ⊢
  generalize store.append call x.chain = result at outcome answered
  cases outcome with
  | appended row named carries =>
    refine ⟨(x.chain.log.next, row), mem_append_right _ mem_cons_self, ?_, ?_⟩
    · rw [named]
      exact fun same => unfaithful (carries.mp same)
    · intro caller anchor k g waits
      obtain ⟨-, below | found⟩ := sound.1.waiting caller anchor k g waits
      · have drawn := lawful.drawn _ sound.1.numbered
        omega
      · exact lt_next_of_recorded lawful sound.1.numbered found
  | refused e => cases answered
  | skipped e => cases answered

theorem deletes_doomed (caller : String)
    (current : Current store ⟨x, .delete caller, (x.deletes store caller).1, (x.deletes store caller).2⟩)
    {e : Nat × Entry χ τ μ} (stored : e ∈ x.chain.log.entries)
    (beyond : ∀ caller anchor n h, x.waiting caller = some (anchor, n, h) → n < e.1) :
    e ∈ (x.deletes store caller).2.chain.log.entries ∧
      ∀ other anchor n h, (x.deletes store caller).2.waiting other = some (anchor, n, h) → n < e.1 := by
  have others : ∀ other anchor n h, (x.settled caller).waiting other = some (anchor, n, h) → n < e.1 :=
    fun other anchor n h waits => beyond other anchor n h (waiting_of_settled waits)
  have outcome := deletes_cases lawful current
  generalize x.deletes store caller = result at outcome
  cases outcome with
  | idle => exact ⟨stored, beyond⟩
  | kept raised => exact ⟨stored, others⟩
  | deleted anchor head waits =>
    exact ⟨mem_filter.mpr ⟨stored, decide_eq_true (beyond caller anchor _ _ waits)⟩, others⟩

/-- A chain that does not verify is not pruned up to the row that breaks it. -/
theorem step_doomed (x : Keeper χ τ μ) (action : Action)
    (current : Current store ⟨x, action, (step store sign x action).1, (step store sign x action).2⟩)
    (doomed : Doomed sha256 store Numbered x) :
    Doomed sha256 store Numbered (step store sign x action).2 := by
  refine ⟨step_kept lawful x action doomed.1 current, ?_⟩
  have invalid := not_verify_of_doomed lawful doomed
  obtain ⟨kept, e, stored, bad, beyond⟩ := doomed
  cases action with
  | delete caller =>
    obtain ⟨stays, others⟩ := deletes_doomed lawful caller current stored beyond
    exact ⟨e, stays, bad, others⟩
  | confirm caller =>
    have outcome := confirms_cases store x caller
    rw [step]
    generalize x.confirms store caller = result at outcome
    cases outcome with
    | idle => exact ⟨e, stored, bad, beyond⟩
    | confirmed => exact ⟨e, stored, bad, beyond⟩
    | refused raised =>
      exact ⟨e, stored, bad, fun other anchor n h waits =>
        beyond other anchor n h (waiting_of_settled waits)⟩
  | check caller signingKey document =>
    simp only [step, Keeper.checks]
    cases checked : checkPrune (store.verifyAnchor sign signingKey document x.chain) with
    | error raised => exact ⟨e, stored, bad, beyond⟩
    | ok head =>
      have passes := (checkPrune_returned checked).1
      exact absurd ((lawful.passes sign signingKey document x.chain).mp passes).2.2 invalid
  | append call =>
    have outcome := lawful.append call x.chain
    simp only [step, Keeper.appends]
    generalize store.append call x.chain = result at outcome
    cases outcome with
    | appended row => exact ⟨e, mem_append_left _ stored, bad, beyond⟩
    | refused => exact ⟨e, stored, bad, beyond⟩
    | skipped => exact ⟨e, stored, bad, beyond⟩

theorem start_sound : Sound sha256 store Numbered (start : Keeper χ τ μ) :=
  ⟨start_kept lawful, trivial⟩

end System

end Meemee.Guarantees.AuditRuns
