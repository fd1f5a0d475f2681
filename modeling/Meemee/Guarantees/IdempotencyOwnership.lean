import Mathlib.Logic.Function.Basic
import Meemee.Library.History
import Meemee.Source.Idempotency

/-!
# Who is told that it owns an idempotency key

`claim` inserts in one transaction and, when the key was taken, reads in a second one that first
drops the expired rows. Between the two the row that stood in the way can be released or expire, and
a caller that inserted nothing is told that it owns the key. `insertedBy` is a ghost: the call whose
INSERT put the stored row there.
-/
namespace Meemee.Guarantees.IdempotencyOwnership
open Library Library.History Source Source.Idempotency

inductive Backend where
  | sqlite | postgres
  deriving DecidableEq

/-- One `claim` call. -/
abbrev CallId := Nat

structure ClaimCall (Payload : Type) where
  id : Key
  payload : Payload
  claimToken : Option String

structure State (Payload : Type) where
  records : Records
  /-- Calls between their INSERT, which put nothing in, and their `get`. -/
  inFlight : CallId → Option (ClaimCall Payload)
  insertedBy : Key → Option CallId

inductive Action (Payload : Type) where
  | claim (caller : CallId) (call : ClaimCall Payload) (now inserted : Instant)
  | get (caller : CallId) (now : Instant)
  | put (now checked : Instant) (id : Key) (payload : Payload) (status : Int) (response : Json)
      (claimToken : Option String)
  | release (id : Key) (claimToken : Option String)

inductive Answer where
  /-- `claim` returned `None`: the caller is told that it owns the key. -/
  | owns (caller : CallId) (id : Key)
  /-- The first transaction inserted nothing; `get` is still to come. -/
  | continues
  | replay (status : Int) (response : Json)
  | raised (e : Exc)
  | done
  | idle

section System

variable {Payload : Type} (requestHash : Payload → Except Exc String) (ttl : Int)

def claimTxn (backend : Backend) (call : ClaimCall Payload) (now inserted : Instant) :
    Txn Records Exc Bool :=
  match backend with
  | .sqlite => SQLite.claim requestHash now call.id call.payload call.claimToken
  | .postgres => Postgres.claim requestHash now inserted call.id call.payload call.claimToken

def putTxn (backend : Backend) (now checked : Instant) (id : Key) (payload : Payload)
    (status : Int) (response : Json) (claimToken : Option String) : Txn Records Exc Unit :=
  match backend with
  | .sqlite => SQLite.put requestHash now checked ttl id payload status response claimToken
  | .postgres => Postgres.put requestHash now ttl id payload status response claimToken

/-- A ghost entry lives as long as the row it is about. -/
def settle (s : State Payload) : State Payload :=
  { s with insertedBy := fun k => if (s.records.find k).isSome then s.insertedBy k else none }

def step (backend : Backend) (s : State Payload) : Action Payload → Answer × State Payload
  | .claim caller call now inserted =>
    match s.inFlight caller with
    | some _ => (.idle, s)
    | none =>
      match claimTxn requestHash backend call now inserted s.records with
      | (.ok true, t) =>
        (.owns caller call.id,
          settle { s with records := t, insertedBy := Function.update s.insertedBy call.id (some caller) })
      | (.ok false, t) =>
        (.continues,
          settle { s with records := t, inFlight := Function.update s.inFlight caller (some call) })
      | (.error e, t) => (.raised e, settle { s with records := t })
  | .get caller now =>
    match s.inFlight caller with
    | none => (.idle, s)
    | some call =>
      let left := Function.update s.inFlight caller none
      match get requestHash now call.id call.payload s.records with
      | (.ok none, t) => (.owns caller call.id, settle { s with records := t, inFlight := left })
      | (.ok (some (status, response)), t) =>
        (.replay status response, settle { s with records := t, inFlight := left })
      | (.error e, t) => (.raised e, settle { s with records := t, inFlight := left })
  | .put now checked id payload status response claimToken =>
    match putTxn requestHash ttl backend now checked id payload status response claimToken s.records with
    | (.ok (), t) => (.done, settle { s with records := t })
    | (.error e, t) => (.raised e, settle { s with records := t })
  | .release id claimToken =>
    match release id claimToken s.records with
    | (.ok (), t) => (.done, settle { s with records := t })
    | (.error e, t) => (.raised e, settle { s with records := t })

/-- Any stored records, no call under way. -/
def start (records : Records) : State Payload := ⟨records, fun _ => none, fun _ => none⟩

end System

/-- An INSERT that may conflict puts the row in exactly when its key is free. -/
theorem insertRow_cases (row : Row) (s : Records) :
    (s.find row.id = none ∧ ∃ t, insertRow row s = (.ok true, t) ∧ t.find row.id = some row) ∨
      ((∃ other, s.find row.id = some other) ∧ insertRow row s = (.ok false, s)) := by
  cases found : s.find row.id with
  | none =>
    refine .inl ⟨rfl, (s.insert row found), ?_, ?_⟩
    · simp [insertRow, Table.insertOrIgnore_fresh found]
    · rw [Table.find_insert, if_pos rfl]
  | some other =>
    simp [insertRow, Table.insertOrIgnore_conflict found]

variable {Payload : Type} {requestHash : Payload → Except Exc String} {ttl : Int}

/-- The first transaction inserted under a free key, or only dropped the expired rows. -/
theorem claimTxn_returned {backend : Backend} {call : ClaimCall Payload} {now inserted : Instant}
    {s t : Records} {fresh : Bool}
    (run : claimTxn requestHash backend call now inserted s = (.ok fresh, t)) :
    (∃ digest, requestHash call.payload = .ok digest) ∧
      (fresh = true → (dropExpired now s).find call.id = none ∧
        ∃ row, t.find call.id = some row ∧ row.status = PENDING) := by
  cases backend with
  | sqlite =>
    obtain ⟨-, run⟩ := Txn.require_bind_returned run
    obtain ⟨digest, hashed, run⟩ := Txn.ofExcept_bind_returned run
    refine ⟨⟨digest, hashed⟩, ?_⟩
    rw [Txn.atomically_ok, Txn.run_bind_write] at run
    rintro rfl
    rcases insertRow_cases (pendingRow call.id digest now (now + CLAIM_LEASE) call.claimToken)
      (dropExpired now s) with ⟨free, t', inserts, stored⟩ | ⟨_, conflict⟩
    · rw [inserts] at run
      obtain rfl := (Prod.mk.inj run).2
      exact ⟨free, pendingRow _ _ _ _ _, stored, rfl⟩
    · rw [conflict] at run
      cases run
  | postgres =>
    obtain ⟨-, run⟩ := Txn.require_bind_returned run
    obtain ⟨digest, hashed, run⟩ := Txn.ofExcept_bind_returned run
    refine ⟨⟨digest, hashed⟩, ?_⟩
    rw [Txn.atomically_ok, Txn.run_bind_write] at run
    rintro rfl
    rcases insertRow_cases (pendingRow call.id digest now (now + CLAIM_LEASE) call.claimToken)
      (dropExpired now s) with ⟨free, t', inserts, stored⟩ | ⟨_, conflict⟩
    · rw [Txn.run_bind_ok inserts] at run
      obtain ⟨-, rfl⟩ := run
      have keyed : t'.find call.id = _ := stored
      refine ⟨free, (pendingRow call.id digest inserted (inserted + CLAIM_LEASE) call.claimToken),
        ?_, rfl⟩
      rw [Table.find_update, keyed]
      simp [pendingRow]
    · rw [Txn.run_bind_ok conflict] at run
      simp at run

theorem get_run {digest : String} {id : Key} {payload : Payload} {now : Instant} {s : Records}
    (hashed : requestHash payload = .ok digest) :
    get requestHash now id payload s =
      (answer digest ((dropExpired now s).find id), dropExpired now s) := by
  have ran : Txn.atomically (ε := Exc) (do
      Txn.write (dropExpired now)
      Txn.read (fun t : Records => t.find id)) s =
        (.ok ((dropExpired now s).find id), dropExpired now s) :=
    Txn.atomically_of_ok rfl
  rw [Idempotency.get, hashed, Txn.run_bind_ok (Txn.run_ofExcept _ _)]
  exact Txn.run_bind_ok ran

/-- The row that stood in the way is still there, and still within its lease. -/
def LiveRow (s : Records) (id : Key) (now : Instant) : Prop :=
  ∃ row, s.find id = some row ∧ now < row.expiresAt

theorem find_dropExpired_none {s : Records} {id : Key} {now : Instant} :
    (dropExpired now s).find id = none ↔ ¬ LiveRow s id now := by
  rw [dropExpired, Table.find_delete]
  cases found : s.find id with
  | none => simp [LiveRow, found]
  | some row => simp [LiveRow, found, Option.filter_some]

theorem answer_none_iff {digest : String} {row : Option Row} :
    answer digest row = .ok none ↔ row = none := by
  cases row with
  | none => simp [answer]
  | some r =>
    simp only [answer, reduceCtorEq, iff_false]
    split
    · simp
    · split <;> simp

/-- A caller told that it owns the key inserted the pending row the table holds for it. -/
def OwnerHolds (e : Event (State Payload) (Action Payload) Answer) : Prop :=
  ∀ caller id, e.answer = .owns caller id →
    (∃ row, e.after.records.find id = some row ∧ row.status = PENDING) ∧
      e.after.insertedBy id = some caller

/-- The reading an action takes of the clock before it decides. -/
def Action.now : Action Payload → Instant
  | .claim _ _ now _ | .get _ now | .put now _ _ _ _ _ _ => now
  | .release _ _ => 0

/-- Nobody is told that it owns a key while a reservation of the key is live. -/
def ToldWhenFree (e : Event (State Payload) (Action Payload) Answer) : Prop :=
  ∀ caller id, e.answer = .owns caller id → ¬ LiveRow e.before.records id e.action.now

/-- At a `claim`'s second transaction the row that blocked its INSERT is still in force. -/
def BlockerStays (e : Event (State Payload) (Action Payload) Answer) : Prop :=
  ∀ caller now call, e.action = .get caller now → e.before.inFlight caller = some call →
    LiveRow e.before.records call.id now

/-- Calls under way have hashed their payload. -/
def Hashed (requestHash : Payload → Except Exc String) (s : State Payload) : Prop :=
  ∀ caller call, s.inFlight caller = some call → ∃ digest, requestHash call.payload = .ok digest

theorem step_keeps_hashed (backend : Backend) (s : State Payload) (a : Action Payload)
    (before : Hashed requestHash s) : Hashed requestHash (step requestHash ttl backend s a).2 := by
  cases a with
  | claim caller call now inserted =>
    simp only [step]
    split
    · exact before
    · split
      · exact before
      next t run =>
        intro other stored there
        by_cases same : other = caller
        · subst same
          simp only [settle, Function.update_self, Option.some.injEq] at there
          subst there
          exact (claimTxn_returned run).1
        · simp only [settle, Function.update_of_ne same] at there
          exact before other stored there
      · exact before
  | get caller now =>
    have cleared : ∀ other stored, Function.update s.inFlight caller none other = some stored →
        s.inFlight other = some stored := by
      intro other stored there
      by_cases same : other = caller
      · subst same
        simp at there
      · rwa [Function.update_of_ne same] at there
    simp only [step]
    split
    · exact before
    · split <;> exact fun other stored there => before other stored (cleared other stored there)
  | put now checked id payload status response claimToken =>
    simp only [step]
    split <;> exact before
  | release id claimToken =>
    simp only [step]
    split <;> exact before

/-- No step tells of owning a key whose row is live; one told by its INSERT holds the key. -/
theorem step_toldWhenFree (backend : Backend) (s : State Payload) (a : Action Payload)
    (hashed : Hashed requestHash s) :
    ToldWhenFree ⟨s, a, (step requestHash ttl backend s a).1, (step requestHash ttl backend s a).2⟩ := by
  intro caller id told
  cases a with
  | claim other call now inserted =>
    simp only [step] at told
    split at told
    · cases told
    · split at told
      next t run =>
        cases told
        exact find_dropExpired_none.mp ((claimTxn_returned run).2 rfl).1
      · cases told
      · cases told
  | get other now =>
    simp only [step] at told
    split at told
    · cases told
    next call flying =>
      obtain ⟨digest, hash⟩ := hashed other call flying
      rw [get_run hash] at told
      split at told
      next run =>
        cases told
        exact find_dropExpired_none.mp (answer_none_iff.mp (Prod.mk.inj run).1)
      · cases told
      · cases told
  | put now checked id payload status response claimToken =>
    simp only [step] at told
    split at told <;> cases told
  | release id claimToken =>
    simp only [step] at told
    split at told <;> cases told

theorem step_ownerHolds_iff (backend : Backend) (s : State Payload) (a : Action Payload)
    (hashed : Hashed requestHash s) :
    OwnerHolds ⟨s, a, (step requestHash ttl backend s a).1, (step requestHash ttl backend s a).2⟩ ↔
      BlockerStays
        ⟨s, a, (step requestHash ttl backend s a).1, (step requestHash ttl backend s a).2⟩ := by
  cases a with
  | claim other call now inserted =>
    refine ⟨fun _ _ _ _ impossible => (by cases impossible), fun _ caller id told => ?_⟩
    simp only [step] at told ⊢
    split at told
    · cases told
    next idle =>
      split at told
      next t run =>
        cases told
        obtain ⟨row, stored, pending⟩ := ((claimTxn_returned run).2 rfl).2
        simp only [settle]
        exact ⟨⟨row, stored, pending⟩, by simp [stored]⟩
      · cases told
      · cases told
  | get other now =>
    constructor
    · intro holds caller reading call same flying
      cases same
      change s.inFlight other = some call at flying
      by_contra gone
      obtain ⟨digest, hash⟩ := hashed other call flying
      have absent := find_dropExpired_none.mpr gone
      have reads : get requestHash now call.id call.payload s.records =
          (.ok none, dropExpired now s.records) := by
        rw [get_run hash, absent]
        rfl
      have told := holds other call.id (by simp only [step, flying, reads])
      simp only [step, flying, reads, settle, absent] at told
      obtain ⟨⟨row, stored, -⟩, -⟩ := told
      cases stored
    · intro stays caller id told
      simp only [step] at told
      split at told
      · cases told
      next call flying =>
        obtain ⟨digest, hash⟩ := hashed other call flying
        rw [get_run hash] at told
        split at told
        next run =>
          have absent := answer_none_iff.mp (Prod.mk.inj run).1
          exact absurd (stays other now call rfl flying) (find_dropExpired_none.mp absent)
        · cases told
        · cases told
  | put now checked id payload status response claimToken =>
    refine ⟨fun _ _ _ _ impossible => (by cases impossible), fun _ caller id told => ?_⟩
    simp only [step] at told
    split at told <;> cases told
  | release id claimToken =>
    refine ⟨fun _ _ _ _ impossible => (by cases impossible), fun _ caller id told => ?_⟩
    simp only [step] at told
    split at told <;> cases told

/-- In every run, over either store: nobody is told that it owns a key while a
reservation of it is live; and every caller told so holds the pending row it
inserted if and only if each `get` of a `claim` still finds the live row that
blocked its INSERT. -/
theorem claim_owner_iff_blocker_stays (requestHash : Payload → Except Exc String) (ttl : Int)
    (backend : Backend) (records : Records) (run : List (Action Payload)) :
    (∀ e ∈ history (step requestHash ttl backend) (start records) run, ToldWhenFree e) ∧
      ((∀ e ∈ history (step requestHash ttl backend) (start records) run, OwnerHolds e) ↔
        ∀ e ∈ history (step requestHash ttl backend) (start records) run, BlockerStays e) := by
  have keeps : ∀ s a, Hashed requestHash s → Hashed requestHash (step requestHash ttl backend s a).2 :=
    step_keeps_hashed backend
  have hashed := (invariant keeps (show Hashed requestHash (start records) from nofun) run).1
  have shape : ∀ e ∈ history (step requestHash ttl backend) (start records) run,
      e = ⟨e.before, e.action, (step requestHash ttl backend e.before e.action).1,
        (step requestHash ttl backend e.before e.action).2⟩ := by
    intro e member
    rw [step_of_mem member]
  refine ⟨?_, forall₂_congr ?_⟩
  · intro e member
    rw [shape e member]
    exact step_toldWhenFree backend _ _ (hashed e member).1
  · intro e member
    rw [shape e member]
    exact step_ownerHolds_iff backend _ _ (hashed e member).1

def sampleKey : Key := ⟨"owner", "/v1/jobs", "k"⟩

/-- Caller 1 reserves, caller 2 inserts nothing, 1's request fails and releases, 2 reads. -/
def releasedBetween : List (Action String) :=
  [.claim 1 ⟨sampleKey, "goal", some "token-1"⟩ 0 0,
   .claim 2 ⟨sampleKey, "goal", some "token-2"⟩ 1 1,
   .release sampleKey (some "token-1"),
   .get 2 2]

theorem claim_tells_non_owner (backend : Backend) :
    ∃ e ∈ history (step (fun p : String => .ok p) 86400000000 backend) (start Table.empty)
        releasedBetween, e.answer = .owns 2 sampleKey ∧ e.after.records.find sampleKey = none := by
  cases backend
  · exact ⟨_, List.mem_of_getLast? rfl, rfl, rfl⟩
  · exact ⟨_, List.mem_of_getLast? rfl, rfl, rfl⟩

/-- The contract as documented fails in both stores. -/
theorem claim_ownership_fails :
    ¬ ∀ (backend : Backend) (records : Records) (run : List (Action String)),
      ∀ e ∈ history (step (fun p : String => .ok p) 86400000000 backend) (start records) run,
        OwnerHolds e := by
  intro contract
  obtain ⟨e, member, told, absent⟩ := claim_tells_non_owner .sqlite
  obtain ⟨⟨row, stored, -⟩, -⟩ := contract .sqlite _ _ e member 2 sampleKey told
  rw [absent] at stored
  cases stored

end Meemee.Guarantees.IdempotencyOwnership
