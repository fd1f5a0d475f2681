import Meemee.Guarantees.IdempotencyOwnership
import Meemee.Guarantees.JsonbColumn

/-!
# Idempotency records are written once

A stored response stays until it expires, a put under a token answers to the reservation of
that token, and a claim replays what is stored. A release without a token drops whatever
reservation was made without one, whoever made it, and what a `jsonb` column stores of a large float
is another number.
-/
namespace Meemee.Guarantees.IdempotencyRecords
open Library Library.History Source Source.Idempotency Library.Table
open Guarantees.IdempotencyOwnership (CallId ClaimCall claimTxn claimTxn_returned get_run)
open Source.Approvals (equal)
open Guarantees.JsonbColumn

structure State (Payload : Type) where
  records : Records
  /-- Calls of `claim` between their INSERT, which put nothing in, and their `get`. -/
  inFlight : CallId → Option (ClaimCall Payload)
  /-- The caller whose `claim` inserted last under a key. -/
  reservedBy : Key → Option CallId

/-- What `put` is called with. -/
structure PutCall (Payload : Type) where
  id : Key
  payload : Payload
  status : Int
  response : Json
  claimToken : Option String

inductive Action (Payload : Type) where
  | claim (caller : CallId) (call : ClaimCall Payload) (now inserted : Instant)
  | get (caller : CallId) (now : Instant)
  | put (caller : CallId) (call : PutCall Payload) (now checked : Instant)
  | release (caller : CallId) (id : Key) (claimToken : Option String)

inductive Answer where
  | owns
  /-- The INSERT put nothing in; `get` is still to come. -/
  | continues
  | replay (status : Int) (response : Json)
  | raised (e : Exc)
  | done
  | idle

section System

variable {Payload : Type} (requestHash : Payload → Except Exc String) (ttl : Int)

def putTxn (backend : IdempotencyOwnership.Backend) (call : PutCall Payload) (now checked : Instant) :
    Txn Records Exc Unit :=
  match backend with
  | .sqlite => SQLite.putResponse requestHash now checked ttl call.id call.payload call.status
      call.response call.claimToken
  | .postgres => Postgres.putResponse requestHash now ttl call.id call.payload call.status
      call.response call.claimToken

def step (backend : IdempotencyOwnership.Backend) (s : State Payload) : Action Payload → Answer × State Payload
  | .claim caller call now inserted =>
    match s.inFlight caller with
    | some _ => (.idle, s)
    | none =>
      match claimTxn requestHash backend call now inserted s.records with
      | (.ok true, t) => (.owns,
          { s with records := t, reservedBy := Function.update s.reservedBy call.id (some caller) })
      | (.ok false, t) => (.continues,
          { s with records := t, inFlight := Function.update s.inFlight caller (some call) })
      | (.error e, t) => (.raised e, { s with records := t })
  | .get caller now =>
    match s.inFlight caller with
    | none => (.idle, s)
    | some call =>
      let left := Function.update s.inFlight caller none
      match get requestHash now call.id call.payload s.records with
      | (.ok none, t) => (.owns, { s with records := t, inFlight := left })
      | (.ok (some (status, response)), t) =>
        (.replay status response, { s with records := t, inFlight := left })
      | (.error e, t) => (.raised e, { s with records := t, inFlight := left })
  | .put _ call now checked =>
    match putTxn requestHash ttl backend call now checked s.records with
    | (.ok (), t) => (.done, { s with records := t })
    | (.error e, t) => (.raised e, { s with records := t })
  | .release _ id claimToken =>
    match release id claimToken s.records with
    | (.ok (), t) => (.done, { s with records := t })
    | (.error e, t) => (.raised e, { s with records := t })

/-- Any stored records, no call under way. -/
def start (records : Records) : State Payload := ⟨records, fun _ => none, fun _ => none⟩

end System

variable {Payload : Type} {requestHash : Payload → Except Exc String} {ttl : Int}
  {backend : IdempotencyOwnership.Backend}

mutual

theorem encode_readBack (options : Json.DumpOptions) (strings : options.defaultStr = true) :
    ∀ value, Json.encode options (readBack value) = Json.encode options value
  | .null => rfl
  | .bool _ => rfl
  | .int _ => rfl
  | .float _ => rfl
  | .str _ => rfl
  | .arr items => by
    simp only [readBack, Json.encode, encodeItems_readBack options strings items]
  | .obj fields => by
    simp only [readBack, Json.encode, encodeFields_readBack options strings fields]
  | .object text => by simp only [readBack, Json.encode, strings, if_true]

theorem encodeItems_readBack (options : Json.DumpOptions) (strings : options.defaultStr = true) :
    ∀ items, Json.encodeItems options (readBackItems items) = Json.encodeItems options items
  | [] => rfl
  | item :: rest => by
    simp only [readBackItems, Json.encodeItems, encode_readBack options strings item,
      encodeItems_readBack options strings rest]

theorem encodeFields_readBack (options : Json.DumpOptions) (strings : options.defaultStr = true) :
    ∀ fields, Json.encodeFields options (readBackFields fields) = Json.encodeFields options fields
  | [] => rfl
  | (name, value) :: rest => by
    simp only [readBackFields, Json.encodeFields, encode_readBack options strings value,
      encodeFields_readBack options strings rest]

end

theorem encodeResponse_readBack (response : Json) :
    encodeResponse (readBack response) = encodeResponse response :=
  encode_readBack _ rfl response

/-- What a store gives back of a response: the value its JSON text reads as, or what the `jsonb`
column makes of that, an equal value where each float without a fraction is that integer. -/
def GivesBack (backend : IdempotencyOwnership.Backend) (response stored : Json) : Prop :=
  match backend with
  | .sqlite => stored = readBack response ∧ encodeResponse stored = encodeResponse response
  | .postgres => JsonbColumn.jsonb (readBack response) = .ok stored ∧
      (Prints (readBack response) → ∀ right, equal stored right = equal (readBack response) right)

theorem sqlite_givesBack (response : Json) : GivesBack .sqlite response (readBack response) :=
  ⟨rfl, encodeResponse_readBack response⟩

theorem postgres_givesBack {response stored : Json}
    (column : JsonbColumn.jsonb (readBack response) = .ok stored) :
    GivesBack .postgres response stored :=
  ⟨column, fun prints => (jsonb_equal (readBack response) stored prints column).2⟩

/-- The unexpired records of a key are there afterwards. -/
def Keeps (s t : Records) (now : Instant) : Prop :=
  ∀ id row, s.find id = some row → now < row.expiresAt → t.find id = some row

theorem keeps_dropExpired (s : Records) (now : Instant) : Keeps s (dropExpired now s) now := by
  intro id row found live
  have unexpired : decide (row.expiresAt ≤ now) = false := decide_eq_false (Int.not_le.mpr live)
  rw [dropExpired, find_delete, found, Option.filter_some, unexpired]
  rfl

variable {row : Row} {s t : Records} {fresh : Bool} {id : Key} {now checked : Instant}
  {call : PutCall Payload} {claimToken : Option String}

theorem insertRow_keeps (run : insertRow row s = (.ok fresh, t)) {other : Row}
    (found : s.find id = some other) : t.find id = some other := by
  unfold insertRow at run
  rw [Txn.run_bind_read, Txn.run_bind_write] at run
  cases run
  cases free : s.find row.id with
  | none =>
    rw [insertOrIgnore_fresh free]
    exact find_insert_of_found free found
  | some taken =>
    rw [@insertOrIgnore_conflict _ _ _ _ s row taken free]
    exact found

theorem clean_claim (call : ClaimCall Payload) (now inserted : Instant) :
    Txn.RaisesClean (claimTxn requestHash backend call now inserted) := by
  cases backend with
  | sqlite =>
    apply Txn.raisesClean_require_bind
    apply Txn.raisesClean_ofExcept_bind
    intro digest _
    exact Txn.raisesClean_atomically _
  | postgres =>
    apply Txn.raisesClean_require_bind
    apply Txn.raisesClean_ofExcept_bind
    intro digest _
    exact Txn.raisesClean_atomically _

theorem claim_keeps {call : ClaimCall Payload} {inserted : Instant}
    (run : claimTxn requestHash backend call now inserted s = (.ok fresh, t)) : Keeps s t now := by
  intro id row found live
  have kept := keeps_dropExpired s now id row found live
  cases backend with
  | sqlite =>
    obtain ⟨-, run⟩ := Txn.require_bind_returned run
    obtain ⟨digest, -, run⟩ := Txn.ofExcept_bind_returned run
    exact insertRow_keeps run kept
  | postgres =>
    have free := (claimTxn_returned run).2
    obtain ⟨-, run⟩ := Txn.require_bind_returned run
    obtain ⟨digest, -, run⟩ := Txn.ofExcept_bind_returned run
    rw [Txn.atomically_ok, Txn.run_bind_write] at run
    obtain ⟨inserts, t', first, rest⟩ := Txn.bind_returned run
    have stored := insertRow_keeps first kept
    cases inserts with
    | false =>
      cases rest
      exact stored
    | true =>
      cases rest
      have other : id ≠ call.id := by
        rintro rfl
        rw [(free rfl).1] at kept
        cases kept
      rw [find_update_key, if_neg other]
      exact stored

theorem claim_blocked {call : ClaimCall Payload} {inserted : Instant}
    (run : claimTxn requestHash backend call now inserted s = (.ok fresh, t))
    (found : s.find call.id = some row) (live : now < row.expiresAt) : fresh = false := by
  cases fresh with
  | false => rfl
  | true =>
    have kept := keeps_dropExpired s now call.id row found live
    rw [((claimTxn_returned run).2 rfl).1] at kept
    cases kept

theorem claim_returns {call : ClaimCall Payload} {now inserted : Instant} (s : Records)
    {digest : String} (hashed : requestHash call.payload = .ok digest)
    (named : call.id.key ≠ "" ∧ call.id.key.length ≤ 200) :
    ∃ fresh t, claimTxn requestHash backend call now inserted s = (.ok fresh, t) := by
  have checked : checkKey call.id.key s = (.ok (), s) := by
    rw [checkKey, decide_eq_true named]
    rfl
  cases backend with
  | sqlite =>
    simp only [claimTxn, SQLite.claim]
    rw [Txn.run_bind_ok checked, hashed]
    exact ⟨_, _, rfl⟩
  | postgres =>
    simp only [claimTxn, Postgres.claim]
    rw [Txn.run_bind_ok checked, hashed]
    apply Txn.atomically_returns
    obtain ⟨fresh, t, inserts⟩ : ∃ fresh t,
        insertRow (pendingRow call.id digest now (now + CLAIM_LEASE) call.claimToken)
          (dropExpired now s) = (.ok fresh, t) := ⟨_, _, rfl⟩
    rw [Txn.run_bind_write, Txn.run_bind_ok inserts]
    cases fresh with
    | true => exact ⟨_, _, rfl⟩
    | false => exact ⟨_, _, rfl⟩

theorem get_keeps {payload : Payload} {result : Except Exc (Option (Int × Json))}
    (run : get requestHash now id payload s = (result, t)) : Keeps s t now := by
  cases hashed : requestHash payload with
  | error e =>
    rw [Idempotency.get, hashed] at run
    cases run
    exact fun _ _ found _ => found
  | ok digest =>
    rw [get_run hashed] at run
    cases run
    exact keeps_dropExpired s now

theorem clean_put (call : PutCall Payload) (now checked : Instant) :
    Txn.RaisesClean (putTxn requestHash ttl backend call now checked) := by
  cases backend with
  | sqlite =>
    apply Txn.raisesClean_require_bind
    apply Txn.raisesClean_require_bind
    apply Txn.raisesClean_ofExcept_bind
    intro _ _
    apply Txn.raisesClean_ofExcept_bind
    intro digest _
    exact Txn.raisesClean_atomically _
  | postgres =>
    apply Txn.raisesClean_require_bind
    apply Txn.raisesClean_require_bind
    apply Txn.raisesClean_ofExcept_bind
    intro _ _
    apply Txn.raisesClean_ofExcept_bind
    intro digest _
    exact Txn.raisesClean_atomically _

/-- The response is stored under the key: the one that was, or the one that is put. -/
structure Puts (requestHash : Payload → Except Exc String) (ttl : Int)
    (backend : IdempotencyOwnership.Backend) (call : PutCall Payload) (now : Instant)
    (s t : Records) (row : Row) : Prop where
  stored : t.find call.id = some row
  completed : row.status ≠ PENDING
  named : call.id.key ≠ "" ∧ call.id.key.length ≤ 200
  hashed : requestHash call.payload = .ok row.requestHash
  kept_or_put : s.find call.id = some row ∨
    row.status = call.status ∧ GivesBack backend call.response row.response ∧
      row.expiresAt = now + ttl
  once : ∀ old, s.find call.id = some old → old.status ≠ PENDING → row = old
  others : ∀ other, other ≠ call.id → t.find other = s.find other

theorem find_upsert {f : Row → Row} {keeps : ∀ r, (f r).id = r.id} (keyed : row.id = id) (k : Key) :
    ((s.update (fun r => decide (r.id = id ∧ r.status = PENDING)) f keeps).insertOrIgnore row).1.find k =
      if k = id then some (match s.find id with
        | none => row
        | some r => if r.status = PENDING then f r else r)
      else s.find k := by
  subst keyed
  have updated := find_update s (fun r => decide (r.id = row.id ∧ r.status = PENDING)) f keeps
  cases found : s.find row.id with
  | none =>
    have free := updated row.id
    rw [found] at free
    rw [insertOrIgnore_fresh free, find_insert]
    by_cases here : k = row.id
    · rw [if_pos here, if_pos here.symm]
    · rw [if_neg here, if_neg (Ne.symm here), updated]
      cases other : s.find k with
      | none => rfl
      | some r =>
        have apart : r.id ≠ row.id := by
          rw [key_of_find other]
          exact here
        simp [apart]
  | some r =>
    have keyed := key_of_find found
    have taken := updated row.id
    rw [found] at taken
    rw [insertOrIgnore_conflict taken, updated]
    by_cases here : k = row.id
    · rw [here, found]
      simp [keyed]
    · rw [if_neg here]
      cases other : s.find k with
      | none => rfl
      | some r' =>
        have apart : r'.id ≠ row.id := by
          rw [key_of_find other]
          exact here
        simp [apart]

theorem completed_of_valid {status : Int} (valid : 100 ≤ status ∧ status ≤ 599) : status ≠ PENDING := by
  unfold PENDING
  omega

/-- The row has what the put brings. -/
structure Brings (ttl : Int) (backend : IdempotencyOwnership.Backend) (call : PutCall Payload)
    (now : Instant) (digest : String) (row : Row) : Prop where
  status : row.status = call.status
  hash : row.requestHash = digest
  response : GivesBack backend call.response row.response
  expires : row.expiresAt = now + ttl

theorem puts_new {digest : String} (stored : t.find call.id = some row)
    (valid : 100 ≤ call.status ∧ call.status ≤ 599)
    (named : call.id.key ≠ "" ∧ call.id.key.length ≤ 200)
    (hashed : requestHash call.payload = .ok digest) (brings : Brings ttl backend call now digest row)
    (unfinished : ∀ old, s.find call.id = some old → old.status = PENDING)
    (others : ∀ other, other ≠ call.id → t.find other = s.find other) :
    Puts requestHash ttl backend call now s t row := by
  refine ⟨stored, ?_, named, ?_, .inr ⟨brings.status, brings.response, brings.expires⟩, ?_, others⟩
  · rw [brings.status]
    exact completed_of_valid valid
  · rw [brings.hash]
    exact hashed
  · intro old found final
    exact absurd (unfinished old found) final

theorem puts_kept {digest : String} (found : s.find call.id = some row)
    (final : row.status ≠ PENDING) (stored : t.find call.id = some row)
    (named : call.id.key ≠ "" ∧ call.id.key.length ≤ 200)
    (hashed : requestHash call.payload = .ok digest) (hash : row.requestHash = digest)
    (others : ∀ other, other ≠ call.id → t.find other = s.find other) :
    Puts requestHash ttl backend call now s t row := by
  refine ⟨stored, final, named, ?_, .inl found, ?_, others⟩
  · rw [hash]
    exact hashed
  · intro old there _
    rw [found] at there
    cases there
    rfl

theorem sqlite_puts (run : putTxn requestHash ttl .sqlite call now checked s = (.ok (), t)) :
    ∃ row, Puts requestHash ttl .sqlite call now s t row := by
  obtain ⟨valid, run⟩ := Txn.require_bind_returned run
  obtain ⟨named, run⟩ := Txn.require_bind_returned run
  obtain ⟨_, -, run⟩ := Txn.ofExcept_bind_returned run
  obtain ⟨digest, hashed, run⟩ := Txn.ofExcept_bind_returned run
  rw [Txn.atomically_ok, Txn.run_bind_read] at run
  obtain ⟨same, run⟩ := Txn.require_bind_returned run
  obtain ⟨-, run⟩ := Txn.require_bind_returned run
  have valid := of_decide_eq_true valid
  have named := of_decide_eq_true named
  have finds : ∀ k, t.find k = if k = call.id then some (match s.find call.id with
      | none => ⟨call.id, digest, readBack call.response, call.status, now, now + ttl, call.claimToken⟩
      | some r => if r.status = PENDING then
          { r with requestHash := digest, response := readBack call.response, status := call.status,
                   createdAt := now, expiresAt := now + ttl }
        else r)
      else s.find k := by
    cases run
    exact fun k => find_upsert rfl k
  have stored := (finds call.id).trans (if_pos rfl)
  have others := fun other apart => (finds other).trans (if_neg apart)
  cases found : s.find call.id with
  | none =>
    rw [found] at stored
    refine ⟨_, puts_new stored valid named hashed ⟨rfl, rfl, sqlite_givesBack _, rfl⟩ ?_ others⟩
    intro old there
    rw [found] at there
    cases there
  | some old =>
    rw [found] at stored same
    by_cases pending : old.status = PENDING
    · simp only [if_pos pending] at stored
      refine ⟨_, puts_new stored valid named hashed ⟨rfl, rfl, sqlite_givesBack _, rfl⟩ ?_ others⟩
      intro old' there
      rw [found] at there
      cases there
      exact pending
    · simp only [if_neg pending] at stored
      exact ⟨old, puts_kept found pending stored named hashed (of_decide_eq_true same) others⟩

theorem postgres_puts (run : putTxn requestHash ttl .postgres call now checked s = (.ok (), t)) :
    ∃ row, Puts requestHash ttl .postgres call now s t row := by
  obtain ⟨valid, run⟩ := Txn.require_bind_returned run
  obtain ⟨named, run⟩ := Txn.require_bind_returned run
  obtain ⟨_, -, run⟩ := Txn.ofExcept_bind_returned run
  obtain ⟨digest, hashed, run⟩ := Txn.ofExcept_bind_returned run
  rw [Txn.atomically_ok, Txn.run_bind_read] at run
  obtain ⟨fenced, run⟩ := Txn.require_bind_returned run
  obtain ⟨stored, column, run⟩ := Txn.ofExcept_bind_returned run
  have valid := of_decide_eq_true valid
  have named := of_decide_eq_true named
  cases found : s.find call.id with
  | none =>
    rw [found] at run
    cases run
    have finds := find_inserted (t := s)
      (r := ⟨call.id, digest, stored, call.status, now, now + ttl, none⟩) found
    refine ⟨_, puts_new ((finds call.id).trans (if_pos rfl)) valid named hashed ⟨rfl, rfl, postgres_givesBack column, rfl⟩ ?_
      (fun other apart => (finds other).trans (if_neg (Ne.symm apart)))⟩
    intro old there
    rw [found] at there
    cases there
  | some old =>
    rw [found] at run fenced
    simp only at run
    by_cases owned : old.status = PENDING ∧ old.requestHash = digest ∧ old.claimToken = call.claimToken
    · rw [if_pos owned] at run
      cases run
      have finds := find_update_key s call.id (fun r =>
        { r with response := stored, status := call.status, createdAt := now,
                 expiresAt := now + ttl }) (fun _ => rfl)
      have there := (finds call.id).trans (if_pos rfl)
      rw [found] at there
      refine ⟨_, puts_new there valid named hashed ⟨rfl, owned.2.1, postgres_givesBack column, rfl⟩ ?_
        (fun other apart => (finds other).trans (if_neg apart))⟩
      intro old' earlier
      rw [found] at earlier
      cases earlier
      exact owned.1
    · rw [if_neg owned] at run
      obtain ⟨untokened, run⟩ := Txn.require_bind_returned run
      cases same : decide (old.requestHash = digest) with
      | false =>
        rw [same] at run
        cases run
      | true =>
        rw [same] at run
        cases run
        have hash := of_decide_eq_true same
        have final : old.status ≠ PENDING := by
          intro pending
          have other : old.claimToken ≠ call.claimToken := fun token => owned ⟨pending, hash, token⟩
          rw [Option.isNone_iff_eq_none] at untokened
          rw [untokened] at other
          have given : call.claimToken.isSome = true := Option.isSome_iff_ne_none.mpr (Ne.symm other)
          simp [protectedKey, ownershipFails, given, untokened, other] at fenced
        exact ⟨old, puts_kept found final found named hashed hash (fun _ _ => rfl)⟩

theorem put_puts (run : putTxn requestHash ttl backend call now checked s = (.ok (), t)) :
    ∃ row, Puts requestHash ttl backend call now s t row := by
  cases backend with
  | sqlite => exact sqlite_puts run
  | postgres => exact postgres_puts run

/-- When a put compares the lease with the clock. -/
def compared (backend : IdempotencyOwnership.Backend) (now checked : Instant) : Instant :=
  match backend with
  | .sqlite => checked
  | .postgres => now

theorem put_owned (run : putTxn requestHash ttl backend call now checked s = (.ok (), t))
    (guarded : protectedKey (s.find call.id) call.claimToken = true) :
    ownershipFails (s.find call.id) call.claimToken (compared backend now checked) = false := by
  cases backend with
  | sqlite =>
    obtain ⟨-, run⟩ := Txn.require_bind_returned run
    obtain ⟨-, run⟩ := Txn.require_bind_returned run
    obtain ⟨_, -, run⟩ := Txn.ofExcept_bind_returned run
    obtain ⟨_, -, run⟩ := Txn.ofExcept_bind_returned run
    rw [Txn.atomically_ok] at run
    obtain ⟨-, run⟩ := Txn.require_bind_returned run
    obtain ⟨fenced, -⟩ := Txn.require_bind_returned run
    rw [guarded, Bool.not_eq_true'] at fenced
    exact fenced
  | postgres =>
    obtain ⟨-, run⟩ := Txn.require_bind_returned run
    obtain ⟨-, run⟩ := Txn.require_bind_returned run
    obtain ⟨_, -, run⟩ := Txn.ofExcept_bind_returned run
    obtain ⟨_, -, run⟩ := Txn.ofExcept_bind_returned run
    rw [Txn.atomically_ok] at run
    obtain ⟨fenced, -⟩ := Txn.require_bind_returned run
    rw [guarded, Bool.not_eq_true'] at fenced
    exact fenced

abbrev Step (Payload : Type) := Event (State Payload) (Action Payload) Answer

/-- The row is stored under its key, with a response. -/
def Stored (s : State Payload) (row : Row) : Prop :=
  s.records.find row.id = some row ∧ row.status ≠ PENDING

/-- The action reads the clock at or after the row's expiry, and drops what has expired. -/
def Action.expires (row : Row) : Action Payload → Bool
  | .claim _ _ now _ => decide (row.expiresAt ≤ now)
  | .get _ now => decide (row.expiresAt ≤ now)
  | _ => false

/-- A pending record of the key, under the token and in its lease. -/
def Reserved (s : Records) (id : Key) (claimToken : Option String) (now : Instant) : Prop :=
  ∃ row, s.find id = some row ∧ row.status = PENDING ∧ row.claimToken = claimToken ∧
    now < row.expiresAt

/-- The caller or the record carries a token. -/
def Tokened (s : Records) (id : Key) (claimToken : Option String) : Prop :=
  claimToken.isSome = true ∨ ∃ row, s.find id = some row ∧ row.claimToken.isSome = true

/-- A put under a token that is not the reservation's raises and changes nothing. -/
def PutFenced (backend : IdempotencyOwnership.Backend) (e : Step Payload) : Prop :=
  ∀ caller call now checked, e.action = .put caller call now checked →
    Tokened e.before.records call.id call.claimToken →
      ¬ Reserved e.before.records call.id call.claimToken (compared backend now checked) →
        (∃ error, e.answer = .raised error) ∧ e.after = e.before

/-- A release drops at most the reservation of its key that was made under its token. -/
def ReleaseKeeps (e : Step Payload) : Prop :=
  ∀ caller id claimToken, e.action = .release caller id claimToken →
    ∀ k row, e.before.records.find k = some row → e.after.records.find k = some row ∨
      k = id ∧ row.status = PENDING ∧ row.claimToken = claimToken

/-- The row stays, and each claim of its key replays it or refuses another request. -/
structure Fixed (requestHash : Payload → Except Exc String) (row : Row) (e : Step Payload) : Prop where
  before : Stored e.before row
  after : Stored e.after row
  blocked : ∀ caller call now inserted digest, e.action = .claim caller call now inserted →
    e.before.inFlight caller = none → call.id = row.id → requestHash call.payload = .ok digest →
      e.answer = .continues ∧ e.after.inFlight caller = some call
  replayed : ∀ caller call now digest, e.action = .get caller now →
    e.before.inFlight caller = some call → call.id = row.id → requestHash call.payload = .ok digest →
      e.answer = if digest = row.requestHash then .replay row.status row.response
        else .raised hashConflict

theorem ownershipFails_of_unreserved (unreserved : ¬ Reserved s id claimToken now) :
    ownershipFails (s.find id) claimToken now = true := by
  cases found : s.find id with
  | none => rfl
  | some row =>
    simp only [ownershipFails, decide_eq_true_eq]
    by_contra held
    simp only [not_or, not_not] at held
    exact unreserved ⟨row, found, held.2.1, held.1, Int.not_le.mp held.2.2⟩

theorem protectedKey_of_tokened (tokened : Tokened s id claimToken) :
    protectedKey (s.find id) claimToken = true := by
  rcases tokened with given | ⟨row, found, carried⟩
  · simp [protectedKey, given]
  · simp [protectedKey, found, carried]

theorem step_putFenced (s : State Payload) (a : Action Payload) :
    PutFenced backend ⟨s, a, (step requestHash ttl backend s a).1,
      (step requestHash ttl backend s a).2⟩ := by
  intro caller call now checked put_ tokened unreserved
  cases put_
  rcases run : putTxn requestHash ttl backend call now checked s.records with ⟨result, t⟩
  cases result with
  | ok _ =>
    have owned := put_owned run (protectedKey_of_tokened tokened)
    rw [ownershipFails_of_unreserved unreserved] at owned
    cases owned
  | error e =>
    have same : t = s.records := clean_put call now checked s.records e t run
    subst same
    simp only [step, run]
    exact ⟨⟨e, rfl⟩, trivial⟩

theorem find_released {k : Key} (found : s.find k = some row)
    (apart : ¬ (k = id ∧ row.status = PENDING ∧ row.claimToken = claimToken)) :
    (s.delete (fun r => decide (r.id = id ∧ r.status = PENDING ∧ r.claimToken = claimToken))).find k =
      some row := by
  rw [find_delete, found, Option.filter_some, key_of_find found, decide_eq_false apart]
  rfl

theorem step_releaseKeeps (s : State Payload) (a : Action Payload) :
    ReleaseKeeps ⟨s, a, (step requestHash ttl backend s a).1,
      (step requestHash ttl backend s a).2⟩ := by
  intro caller id claimToken released k row found
  cases released
  by_cases dropped : k = id ∧ row.status = PENDING ∧ row.claimToken = claimToken
  · exact .inr dropped
  · exact .inl (find_released found dropped)

theorem step_stored {s : State Payload} (stored : Stored s row) (a : Action Payload)
    (unexpired : a.expires row = false) : Stored (step requestHash ttl backend s a).2 row := by
  obtain ⟨found, completed⟩ := stored
  refine ⟨?_, completed⟩
  cases a with
  | claim caller call now inserted =>
    have live : now < row.expiresAt := Int.not_le.mp (of_decide_eq_false unexpired)
    simp only [step]
    cases flying : s.inFlight caller with
    | some _ => exact found
    | none =>
      rcases run : claimTxn requestHash backend call now inserted s.records with ⟨result, t⟩
      cases result with
      | ok fresh =>
        have kept := claim_keeps run row.id row found live
        cases fresh with
        | true => exact kept
        | false => exact kept
      | error e =>
        rw [clean_claim call now inserted s.records e t run]
        exact found
  | get caller now =>
    have live : now < row.expiresAt := Int.not_le.mp (of_decide_eq_false unexpired)
    simp only [step]
    cases flying : s.inFlight caller with
    | none => exact found
    | some call =>
      simp only
      rcases run : get requestHash now call.id call.payload s.records with ⟨result, t⟩
      have kept := get_keeps run row.id row found live
      rcases result with e | _ | ⟨status, response⟩
      · exact kept
      · exact kept
      · exact kept
  | put caller call now checked =>
    simp only [step]
    rcases run : putTxn requestHash ttl backend call now checked s.records with ⟨result, t⟩
    cases result with
    | ok _ =>
      obtain ⟨row', puts⟩ := put_puts run
      by_cases here : row.id = call.id
      · have same := puts.once row (here ▸ found) completed
        rw [here, ← same]
        exact puts.stored
      · exact (puts.others row.id here).trans found
    | error e =>
      rw [clean_put call now checked s.records e t run]
      exact found
  | release caller id claimToken =>
    exact find_released found (fun dropped => completed dropped.2.1)

theorem step_fixed {s : State Payload} {row : Row} (stored : Stored s row)
    (named : row.id.key ≠ "" ∧ row.id.key.length ≤ 200) (a : Action Payload)
    (unexpired : a.expires row = false) :
    Fixed requestHash row ⟨s, a, (step requestHash ttl backend s a).1,
      (step requestHash ttl backend s a).2⟩ := by
  refine ⟨stored, step_stored stored a unexpired, ?_, ?_⟩
  · intro caller call now inserted digest claimed idle same hashed
    cases claimed
    have live : now < row.expiresAt := Int.not_le.mp (of_decide_eq_false unexpired)
    rw [← same] at named
    obtain ⟨fresh, t, run⟩ :=
      @claim_returns Payload requestHash backend call now inserted s.records digest hashed named
    have found : s.records.find call.id = some row := by
      rw [same]
      exact stored.1
    cases claim_blocked run found live
    have unstarted : s.inFlight caller = none := idle
    simp only [step, unstarted, run]
    exact ⟨trivial, Function.update_self caller (some call) s.inFlight⟩
  · intro caller call now digest read_ flying same hashed
    cases read_
    have live : now < row.expiresAt := Int.not_le.mp (of_decide_eq_false unexpired)
    have started : s.inFlight caller = some call := flying
    have kept := keeps_dropExpired s.records now row.id row stored.1 live
    rw [← same] at kept
    simp only [step, started, get_run hashed, kept, answer]
    by_cases hash : row.requestHash = digest
    · simp [hash, stored.2]
    · simp [hash, Ne.symm hash]

theorem run_fixed {s : State Payload} (stored : Stored s row)
    (named : row.id.key ≠ "" ∧ row.id.key.length ≤ 200) {actions : List (Action Payload)}
    (unexpired : ∀ e ∈ history (step requestHash ttl backend) s actions,
      e.action.expires row = false) :
    ∀ e ∈ history (step requestHash ttl backend) s actions, Fixed requestHash row e := by
  intro e mem
  have keeps : ∀ s a, Stored s row → a.expires row = false →
      Stored (step requestHash ttl backend s a).2 row :=
    fun s a stored live => step_stored stored a live
  have states := (@invariant_of_meets _ _ _ (step requestHash ttl backend) (fun s => Stored s row)
    (fun e => e.action.expires row = false) keeps s stored actions unexpired).1 e mem
  have fixed := @step_fixed Payload requestHash ttl backend e.before row states.1 named e.action
    (unexpired e mem)
  rw [step_of_mem mem] at fixed
  exact fixed

/-- Over either store, in every run: a put under a token answers to the reservation of that token,
and a release drops at most a reservation made under its own. A put that returned leaves a
response under its key; from then on, until a call reads the clock past its expiry, the response
stays, no claim of the key inserts, and a claim replays it for the same request hash and raises
the conflict for another. -/
theorem records_fixed (requestHash : Payload → Except Exc String) (ttl : Int)
    (backend : IdempotencyOwnership.Backend) (records : Records) (run : List (Action Payload)) :
    (∀ e ∈ history (step requestHash ttl backend) (start records) run,
      PutFenced backend e ∧ ReleaseKeeps e) ∧
    ∀ pre put_ mid post,
      history (step requestHash ttl backend) (start records) run = pre ++ put_ :: (mid ++ post) →
      ∀ caller call now checked, put_.action = .put caller call now checked → put_.answer = .done →
        ∃ row, Puts requestHash ttl backend call now put_.before.records put_.after.records row ∧
          ((∀ e ∈ mid, e.action.expires row = false) → ∀ e ∈ mid, Fixed requestHash row e) := by
  constructor
  · intro e member
    have shape := step_of_mem member
    have fenced := @step_putFenced Payload requestHash ttl backend e.before e.action
    have keeps := @step_releaseKeeps Payload requestHash ttl backend e.before e.action
    rw [shape] at fenced keeps
    exact ⟨fenced, keeps⟩
  · intro pre put_ mid post split caller call now checked put_eq done
    obtain ⟨first, second, -, -, tail⟩ := history_prefix split
    cases second with
    | nil => cases tail
    | cons a rest =>
      obtain ⟨head, later⟩ := List.cons.inj tail
      subst head
      cases put_eq
      obtain ⟨between, _, -, midEq, -⟩ := history_prefix later
      generalize final (step requestHash ttl backend) (start records) first = s at done midEq
      rcases ran : putTxn requestHash ttl backend call now checked s.records with ⟨result, t⟩
      cases result with
      | error e =>
        simp only [step, ran] at done
        cases done
      | ok _ =>
        obtain ⟨row, puts⟩ := put_puts ran
        have keyed := key_of_find puts.stored
        simp only [step, ran] at midEq ⊢
        refine ⟨row, puts, ?_⟩
        rw [← midEq]
        intro unexpired
        apply run_fixed _ _ unexpired
        · refine ⟨?_, puts.completed⟩
          rw [keyed]
          exact puts.stored
        · rw [keyed]
          exact puts.named

/-- A release leaves the stored responses and the reservations of other callers. -/
def SparesOthers (e : Step Payload) : Prop :=
  ∀ caller id claimToken, e.action = .release caller id claimToken →
    ∀ k row, e.before.records.find k = some row →
      row.status ≠ PENDING ∨ e.before.reservedBy k ≠ some caller →
        e.after.records.find k = some row

/-- Caller 1's lease runs out, caller 2 reserves the key, and caller 1 releases it. -/
def releasedLate : List (Action String) :=
  [.claim 1 ⟨IdempotencyOwnership.sampleKey, "goal", none⟩ 0 0,
   .claim 2 ⟨IdempotencyOwnership.sampleKey, "goal", none⟩ (minutes 6) (minutes 6),
   .release 1 IdempotencyOwnership.sampleKey none]

theorem reservation_released (backend : IdempotencyOwnership.Backend) :
    ∃ e ∈ history (step (fun p : String => .ok p) (minutes 1440) backend) (start Table.empty)
        releasedLate,
      e.action = .release 1 IdempotencyOwnership.sampleKey none ∧
      e.before.reservedBy IdempotencyOwnership.sampleKey = some 2 ∧
      (e.before.records.find IdempotencyOwnership.sampleKey).isSome = true ∧
      e.after.records.find IdempotencyOwnership.sampleKey = none := by
  cases backend
  · exact ⟨_, List.mem_of_getLast? rfl, rfl, rfl, rfl, rfl⟩
  · exact ⟨_, List.mem_of_getLast? rfl, rfl, rfl, rfl, rfl⟩

theorem releases_spare_fails :
    ¬ ∀ (backend : IdempotencyOwnership.Backend) (records : Records) (run : List (Action String)),
      ∀ e ∈ history (step (fun p : String => .ok p) (minutes 1440) backend) (start records) run,
        SparesOthers e := by
  intro spares
  obtain ⟨e, member, released, other, there, gone⟩ := reservation_released .sqlite
  obtain ⟨row, found⟩ := Option.isSome_iff_exists.mp there
  have apart : e.before.reservedBy IdempotencyOwnership.sampleKey ≠ some 1 := by
    rw [other]
    decide
  have stays := spares .sqlite _ _ e member 1 _ none released _ row found (Or.inr apart)
  rw [gone] at stays
  cases stays

/-- A response that is the float 1e23, and a claim of its key. -/
def largeFloat : List (Action String) :=
  [.claim 1 ⟨IdempotencyOwnership.sampleKey, "goal", none⟩ 0 0,
   .put 1 ⟨IdempotencyOwnership.sampleKey, "goal", 200, .float (.finite "1e+23"), none⟩ 0 0,
   .claim 2 ⟨IdempotencyOwnership.sampleKey, "goal", none⟩ 1 1, .get 2 1]

theorem largeFloat_replayed : ∃ e ∈ history (step (fun p : String => .ok p) (minutes 1440) .postgres)
      (start Table.empty) largeFloat,
    e.action = .get 2 1 ∧ ∃ stored, e.answer = .replay 200 stored ∧
      equal stored (.float (.finite "1e+23")) = false :=
  ⟨_, List.mem_of_getLast? rfl, rfl, .int (10 ^ 23), rfl, by decide +kernel⟩

/-- A release may drop another caller's reservation, and a `jsonb` column may give back a response
that is not equal to the one that was put. -/
theorem claimed_records_fail :
    (¬ ∀ (backend : IdempotencyOwnership.Backend) (records : Records) (run : List (Action String)),
      ∀ e ∈ history (step (fun p : String => .ok p) (minutes 1440) backend) (start records) run,
        SparesOthers e) ∧
    ∃ e ∈ history (step (fun p : String => .ok p) (minutes 1440) .postgres) (start Table.empty)
        largeFloat,
      e.action = .get 2 1 ∧ ∃ stored, e.answer = .replay 200 stored ∧
        equal stored (.float (.finite "1e+23")) = false :=
  ⟨releases_spare_fails, largeFloat_replayed⟩

end Meemee.Guarantees.IdempotencyRecords
