import Meemee.Library.History
import Meemee.Source.Checkins

/-!
# What one operation can do to one check-in row

`RowStep` is the machine of a single row. `step_row` says that every operation moves every stored row
by at most one `RowStep`, and what the caller was told when the step is a claim or a proven failure;
the guarantees about rows are read off `RowStep` and never open an operation again.
-/
namespace Meemee.Guarantees.CheckinRows
open Library Library.History Source Source.Checkins Library.Txn Library.Table List

inductive Action where
  | recover (clock : Clock)
  | claimFenced (clock : Clock) (leaseSeconds : Int) (token : String)
  | renew (claim : Claim) (clock : Clock) (leaseSeconds : Int)
  | startDelivery (claim : Claim) (clock : Clock)
  | finishClaim (claim : Claim) (message : String) (clock : Clock)
  | failClaim (claim : Claim) (error : String) (clock : Clock) (provenNotDelivered : Bool)
  | unknownClaim (claim : Claim) (error : String) (clock : Clock)
  | cancelClaim (claim : Claim) (clock : Clock)
  | finishLocal (checkinId conversationId message : String) (claim : Option Claim) (clock : Clock)
  | schedule (userId : String) (dueAt : Instant) (slot channel : String) (address : Option String)
      (maxAttempts : Int) (reusePending : Bool) (ident : String) (now : Instant)
  | claimLegacy (moment now : Instant)
  | finishLegacy (id message : String) (now : Instant)
  | failLegacy (id error : String) (now : Instant)
  | markUnknown (id error : String) (now : Instant)
  | cancelClaimed (id : String) (now : Instant)
  | cancelPending (userId : String) (now : Instant)
  /-- Anything else that writes the other tables. -/
  | elsewhere (users : Table UserProfile.userId) (conversations : Table Conversation.id)
      (messages : Log Message) (destinationGrants : Table DestinationGrant.id)

inductive Value where
  | nothing
  | told (value : Bool)
  | status (value : CheckinStatus)
  | number (value : Nat)
  | counts (value : RecoveryCounts)
  | claimed (row : Option CheckinRow)
  | scheduled (row : CheckinRow) (created : Bool)
  deriving DecidableEq

/-- Run an operation and wrap what it returns. -/
def call {α : Type} (wrap : α → Value) (m : CompanionTxn α) (s : CompanionStore) :
    Except Exc Value × CompanionStore :=
  match m s with
  | (.ok a, t) => (.ok (wrap a), t)
  | (.error e, t) => (.error e, t)

section System

variable (scrubText : String → String) (wallClock : String → Instant → Nat)

def step (s : CompanionStore) : Action → Except Exc Value × CompanionStore
  | .recover clock => call .counts (recoverCheckinClaims clock) s
  | .claimFenced clock leaseSeconds token =>
    call .claimed (claimCheckinFenced clock leaseSeconds token) s
  | .renew claim clock leaseSeconds => call .told (renewCheckinClaim claim clock leaseSeconds) s
  | .startDelivery claim clock => call .told (startCheckinDelivery wallClock claim clock) s
  | .finishClaim claim message clock =>
    call (fun _ => .nothing) (finishCheckinClaim scrubText claim message clock) s
  | .failClaim claim error clock proven =>
    call .status (failCheckinClaim scrubText claim error clock proven) s
  | .unknownClaim claim error clock => call .told (unknownCheckinClaim scrubText claim error clock) s
  | .cancelClaim claim clock => call .told (cancelCheckinClaim claim clock) s
  | .finishLocal checkinId conversationId message claim clock =>
    call .told (finishLocalCheckin scrubText wallClock checkinId conversationId message claim clock) s
  | .schedule userId dueAt slot channel address maxAttempts reusePending ident now =>
    call (fun r => .scheduled r.1 r.2)
      (scheduleCheckin userId dueAt slot channel address maxAttempts reusePending ident now) s
  | .claimLegacy moment now => call .claimed (claimCheckin moment now) s
  | .finishLegacy id message now => call (fun _ => .nothing) (finishCheckin scrubText id message now) s
  | .failLegacy id error now => call .status (failCheckin id error now) s
  | .markUnknown id error now => call .told (markCheckinUnknown id error now) s
  | .cancelClaimed id now => call .told (cancelClaimedCheckin id now) s
  | .cancelPending userId now => call .number (cancelPendingCheckins userId now) s
  | .elsewhere users conversations messages destinationGrants =>
    (.ok .nothing, { s with users, conversations, messages, destinationGrants })

end System

variable {s t : CompanionStore} {value : Value} {row : CheckinRow} {f : CheckinRow → CheckinRow}
  {clock : Clock} {told : Bool} {scrubText : String → String}
  {message error checkinId conversationId : String} {wallClock : String → Instant → Nat}
  {presented : Option Claim} {now : Instant} {action : Action}

theorem call_ok {α : Type} {wrap : α → Value} {m : CompanionTxn α}
    (run : call wrap m s = (.ok value, t)) : ∃ a, m s = (.ok a, t) ∧ value = wrap a := by
  unfold call at run
  split at run
  next a t' done =>
    cases run
    exact ⟨a, done, rfl⟩
  next => cases run

variable {e : Exc} {instant : Instant} {claim : Claim} {after : CheckinRow} {leaseSeconds : Int}
  {result : Option CheckinRow} {status : CheckinStatus} {userId : String}

theorem call_error {α : Type} {wrap : α → Value} {m : CompanionTxn α} (clean : m.RaisesClean)
    (run : call wrap m s = (.error e, t)) : t = s := by
  unfold call at run
  split at run
  next => cases run
  next e' t' raised =>
    cases run
    exact clean s e t raised

inductive Label where
  | recovered | exhausted | fencedClaim | legacyClaim | renewed | sendStarted
  | finished | localDone | failed (provenNotDelivered : Bool) | abandoned | stopped | unleased
  deriving DecidableEq

inductive RowStep (r : CheckinRow) : Label → CheckinRow → Prop where
  | recovered (clock : Instant) (running : r.status = .running) :
      RowStep r .recovered (r.recovered clock)
  | exhausted (clock : Instant) (queued : r.status = .queued) :
      RowStep r .exhausted (r.exhausted clock)
  | fencedClaim (token : String) (instant : Instant) (leaseSeconds : Int)
      (queued : r.status = .queued) (left : r.attempts < r.maxAttempts) :
      RowStep r .fencedClaim (r.leased token instant leaseSeconds)
  | legacyClaim (updatedAt : Instant) (queued : r.status = .queued) (untouched : r.claimToken = none)
      (left : r.attempts < r.maxAttempts) :
      RowStep r .legacyClaim { r with status := .running, attempts := r.attempts + 1, updatedAt }
  | renewed (until_ : Option Instant) (updatedAt : Instant) (running : r.status = .running) :
      RowStep r .renewed { r with leaseUntil := until_, updatedAt }
  | sendStarted (updatedAt : Instant) (running : r.status = .running)
      (held : r.claimToken.isSome) (unsent : r.deliveryState = .notStarted) :
      RowStep r .sendStarted { r with deliveryState := .started, updatedAt }
  | finished (message : Option String) (updatedAt : Instant) (running : r.status = .running)
      (sent : r.deliveryState = .started) :
      RowStep r .finished { r with
        status := .done, deliveryState := .accepted, message, lastError := none, updatedAt }
  | localDone (message : Option String) (updatedAt : Instant) (running : r.status = .running) :
      RowStep r .localDone { r with
        status := .done, deliveryState := .accepted, message, lastError := none, updatedAt }
  | failed (proven : Bool) (lastError : Option String) (updatedAt : Instant)
      (running : r.status = .running) :
      RowStep r (.failed proven) { r with
        status := if (r.deliveryState = .notStarted ∨ proven) ∧ r.attempts < r.maxAttempts
          then .queued else .failed
        deliveryState := if r.deliveryState = .notStarted ∨ proven then .notStarted else .unknown
        lastError, updatedAt }
  | abandoned (lastError : Option String) (updatedAt : Instant) (running : r.status = .running) :
      RowStep r .abandoned { r with
        status := .failed, deliveryState := .unknown, lastError, updatedAt }
  | stopped (updatedAt : Instant) (live : r.status = .queued ∨ r.status = .running) :
      RowStep r .stopped { r with status := .cancelled, updatedAt }
  | unleased (status : CheckinStatus) (message lastError : Option String) (updatedAt : Instant)
      (running : r.status = .running) (untouched : r.claimToken = none)  :
      RowStep r .unleased { r with status, message, lastError, updatedAt }

/-- The claim carries the id, owner, token and generation of this running row. -/
def Holds (claim : Claim) (row : CheckinRow) : Prop :=
  row.status = .running ∧ ∃ token, row.claimToken = some token ∧
    boundClaim claim = .ok (some row.id, some row.userId, token, row.claimGeneration)

/-- The instant lies within the row's lease. -/
def WithinLease (row : CheckinRow) (instant : Instant) : Prop :=
  ∃ claimed expiry, row.claimedAt = some claimed ∧ row.leaseUntil = some expiry ∧
    claimed ≤ instant ∧ instant < expiry

/-- A stored row that the claim holds at every one of the readings. -/
structure Guarded (s : CompanionStore) (claim : Claim) (readings : List Instant)
    (row : CheckinRow) : Prop where
  found : s.checkins.find row.id = some row
  held : Holds claim row
  within : ∀ instant ∈ readings, WithinLease row instant

theorem boundClaim_id {text : String} {id : Option String} {userId token generation}
    {claimUser claimToken claimGeneration : Option PyValue}
    (bound : boundClaim (.dict (some (.str text)) claimUser claimToken claimGeneration) =
      .ok (id, userId, token, generation)) : id = some text := by
  unfold boundClaim at bound
  split at bound
  next _ _ _ _ same =>
    cases same
    split at bound
    next => cases bound
    next =>
      obtain ⟨first, here, bound⟩ := except_bind_returned bound
      obtain ⟨_, -, bound⟩ := except_bind_returned bound
      obtain ⟨_, -, bound⟩ := except_bind_returned bound
      cases here
      cases bound
      rfl
  next => cases bound

variable {because : Label → CheckinRow → CheckinRow → Prop} {label : Label}

theorem validateClaimTime_returned {result : Instant}
    (run : validateClaimTime row instant s = (.ok result, t)) :
    WithinLease row instant ∧ result = instant ∧ t = s := by
  unfold validateClaimTime at run
  cases lease : row.leaseUntil with
  | none => simp [lease] at run
  | some expiry =>
    cases since : row.claimedAt with
    | none => simp [since] at run
    | some claimed =>
      simp only [lease, since] at run
      split at run
      next inside =>
        cases run
        exact ⟨⟨claimed, expiry, since, lease, inside⟩, rfl, rfl⟩
      next => cases run

theorem ownedClaim_returned (run : ownedClaim claim instant s = (.ok row, t)) :
    s.checkins.find row.id = some row ∧ Holds claim row ∧ WithinLease row instant ∧ t = s := by
  obtain ⟨⟨id, userId, token, generation⟩, bound, run⟩ := ofExcept_bind_returned run
  simp only [selectCheckins, run_bind_read] at run
  cases head : (s.checkins.select (fun r => decide (some r.id = id ∧ some r.userId = userId ∧
    r.claimToken = some token ∧ r.claimGeneration = generation ∧ r.status = .running))).head? with
  | none =>
    rw [head] at run
    cases run
  | some first =>
    rw [head] at run
    obtain ⟨result, s', timed, done⟩ := bind_returned run
    obtain ⟨inside, -, rfl⟩ := validateClaimTime_returned timed
    cases done
    obtain ⟨mem, keyed⟩ := mem_filter.mp (mem_of_mem_head? head)
    obtain ⟨sameId, sameUser, sameToken, sameGeneration, running⟩ := of_decide_eq_true keyed
    refine ⟨find_of_mem mem, ⟨running, token, sameToken, ?_⟩, inside, rfl⟩
    rw [bound, sameId, sameUser, sameGeneration]

/-- A fenced operation takes the claimed row, checks its lease twice, and acts on that row. -/
theorem guarded_returned {α : Type} {first second : Instant}
    {rest : CheckinRow → Instant → CompanionTxn α} {a : α}
    (run : (do
      let row ← ownedClaim claim first
      let instant ← validateClaimTime row second
      rest row instant) s = (.ok a, t)) :
    ∃ row, Guarded s claim [first, second] row ∧ rest row second s = (.ok a, t) := by
  obtain ⟨row, s₁, owned, rest_run⟩ := bind_returned run
  obtain ⟨found, held, inside, rfl⟩ := ownedClaim_returned owned
  obtain ⟨instant, s₂, timed, done⟩ := bind_returned rest_run
  obtain ⟨still, rfl, rfl⟩ := validateClaimTime_returned timed
  refine ⟨row, ⟨found, held, ?_⟩, done⟩
  intro reading mem
  simp only [mem_cons, not_mem_nil, or_false] at mem
  rcases mem with rfl | rfl
  · exact inside
  · exact still

/-- Every row is kept or one row step further, which `because` explains; new rows are fresh. -/
structure Moves (s t : CompanionStore) (because : Label → CheckinRow → CheckinRow → Prop) :
    Prop where
  rows : ∀ id row, s.checkins.find id = some row → ∃ after, t.checkins.find id = some after ∧
    (after = row ∨ ∃ label, RowStep row label after ∧ because label row after)
  fresh : ∀ id after, s.checkins.find id = none → t.checkins.find id = some after →
    after.attempts = 0 ∧ 1 ≤ after.maxAttempts

theorem Moves.of_same (same : t.checkins = s.checkins) : Moves s t because where
  rows _ row found := ⟨row, by rw [same]; exact found, .inl rfl⟩
  fresh _ _ absent found := by
    rw [same, absent] at found
    cases found

theorem Moves.imp {why : Label → CheckinRow → CheckinRow → Prop} (moves : Moves s t because)
    (weaker : ∀ label row after, because label row after → why label row after) :
    Moves s t why where
  rows id row found := by
    obtain ⟨after, stored, same | ⟨label, step, reason⟩⟩ := moves.rows id row found
    · exact ⟨after, stored, .inl same⟩
    · exact ⟨after, stored, .inr ⟨label, step, weaker _ _ _ reason⟩⟩
  fresh := moves.fresh

theorem moves_update {p : CheckinRow → Bool}
    (written : t.checkins.rows = s.checkins.rows.map (fun r => if p r then f r else r))
    (keeps : ∀ r, (f r).id = r.id)
    (moves : ∀ row ∈ s.checkins, p row = true →
      ∃ label, RowStep row label (f row) ∧ because label row (f row)) : Moves s t because := by
  have updated : t.checkins = s.checkins.update p f keeps := ext_rows written
  refine ⟨?_, ?_⟩
  · intro id row found
    refine ⟨if p row then f row else row, by rw [updated, find_update, found]; rfl, ?_⟩
    cases met : p row with
    | true => exact .inr (moves row (mem_of_find found) met)
    | false => exact .inl rfl
  · intro id after absent found
    rw [updated, find_update, absent] at found
    cases found

/-- The table differs from before in `row` alone, which is one step on. -/
structure OneRowStep (s t : CompanionStore) (row : CheckinRow) (label : Label)
    (after : CheckinRow) : Prop where
  found : s.checkins.find row.id = some row
  moves : RowStep row label after
  others : ∀ id, t.checkins.find id = if id = row.id then some after else s.checkins.find id

theorem OneRowStep.stored (one : OneRowStep s t row label after) :
    t.checkins.find row.id = some after := by
  rw [one.others, if_pos rfl]

theorem OneRowStep.all (one : OneRowStep s t row label after) (why : because label row after) :
    Moves s t because := by
  refine ⟨?_, ?_⟩
  · intro id other there
    rw [one.others]
    by_cases here : id = row.id
    · subst here
      obtain rfl := Option.some.inj (one.found.symm.trans there)
      exact ⟨after, if_pos rfl, .inr ⟨label, one.moves, why⟩⟩
    · exact ⟨other, by rw [if_neg here, there], .inl rfl⟩
  · intro id other absent there
    rw [one.others, if_neg, absent] at there
    · cases there
    · rintro rfl
      rw [one.found] at absent
      cases absent

theorem OneRowStep.of_update (found : s.checkins.find row.id = some row)
    (written : t.checkins.rows =
      s.checkins.rows.map (fun r => if decide (r.id = row.id) then f r else r))
    (keeps : ∀ r, (f r).id = r.id) (moves : RowStep row label (f row)) :
    OneRowStep s t row label (f row) := by
  have updated : t.checkins = s.checkins.update (fun r => decide (r.id = row.id)) f keeps :=
    ext_rows written
  refine ⟨found, moves, ?_⟩
  intro id
  rw [updated, find_update]
  by_cases here : id = row.id
  · subst here
    simp [found]
  · rw [if_neg here]
    cases there : s.checkins.find id with
    | none => rfl
    | some other => simp [key_of_find there, here]

theorem recovered_not_running (row : CheckinRow) (clock : Instant) :
    (row.recovered clock).status ≠ .running := by
  simp only [CheckinRow.recovered]
  split <;> simp

/-- A row as the recovery SELECT found it, or recovered from there. -/
def RecoveredFrom (row after : CheckinRow) : Prop :=
  after = row ∨ row.status = .running ∧ ∃ clock, after = row.recovered clock

theorem recoverRows_related (origin : Table CheckinRow.id) :
    ∀ (rows : List CheckinRow) (reading : Nat) (counts result : RecoveryCounts)
      (s t : CompanionStore), (∀ row ∈ rows, row ∈ origin ∧ row.status = .running) →
      (∀ id, Option.Rel RecoveredFrom (origin.find id) (s.checkins.find id)) →
      recoverRows clock reading rows counts s = (.ok result, t) →
      ∀ id, Option.Rel RecoveredFrom (origin.find id) (t.checkins.find id) := by
  intro rows
  induction rows with
  | nil =>
    intro reading counts result s t _ before run
    cases run
    exact before
  | cons head rest ih =>
    intro reading counts result s t selected before run
    have later : ∀ row ∈ rest, row ∈ origin ∧ row.status = .running :=
      fun row mem => selected row (mem_cons_of_mem _ mem)
    simp only [recoverRows] at run
    split at run
    next => exact ih _ _ _ _ _ later before run
    next =>
      refine ih _ _ _ _ _ later ?_ run
      intro id
      rw [find_update]
      refine rel_map (before id) ?_
      intro row after found moved
      split
      next here =>
        obtain ⟨keyed, running⟩ := of_decide_eq_true here
        obtain ⟨mem, headRunning⟩ := selected head mem_cons_self
        rcases moved with rfl | ⟨-, at_, rfl⟩
        · have same : after = head := by
            have first := find_of_mem mem
            rw [← keyed, key_of_find found, found] at first
            exact Option.some.inj first
          subst same
          exact .inr ⟨headRunning, _, rfl⟩
        · exact absurd running (recovered_not_running row at_)
      next => exact moved

theorem recoverCheckinClaims_moves {counts : RecoveryCounts}
    (why : ∀ row after, because .recovered row after)
    (run : recoverCheckinClaims clock s = (.ok counts, t)) : Moves s t because := by
  rw [recoverCheckinClaims, atomically_ok] at run
  have selected : ∀ row ∈ (s.checkins.select (fun r => decide (r.status = .running) &&
      leaseOver (clock 0) r)).mergeSort (fun a b => decide (a.id ≤ b.id)),
      row ∈ s.checkins ∧ row.status = .running := by
    intro row mem
    obtain ⟨stored, met⟩ := mem_filter.mp (mem_mergeSort.mp mem)
    simp only [Bool.and_eq_true, decide_eq_true_eq] at met
    exact ⟨stored, met.1⟩
  have start : ∀ id, Option.Rel RecoveredFrom (s.checkins.find id) (s.checkins.find id) :=
    fun id => rel_refl (R := RecoveredFrom) (fun _ => .inl rfl) _
  have related := recoverRows_related s.checkins _ _ _ _ _ _ selected start run
  refine ⟨?_, ?_⟩
  · intro id row found
    obtain ⟨after, stored, same | ⟨running, at_, rfl⟩⟩ := rel_some (related id) found
    · exact ⟨after, stored, .inl same⟩
    · exact ⟨_, stored, .inr ⟨.recovered, .recovered at_ running, why _ _⟩⟩
  · intro id after absent found
    rw [rel_none (related id) absent] at found
    cases found

/-- A fenced claim gives its caller a queued row with budget left, one step on. -/
theorem claimCheckinFenced_returned {token : String}
    (run : claimCheckinFenced clock leaseSeconds token s = (.ok result, t)) :
    Moves s t (fun label _ after => label = .exhausted ∨ label = .fencedClaim ∧ result = some after) ∧
      ∀ after, result = some after → ∃ row, s.checkins.find after.id = some row ∧
        t.checkins.find after.id = some after ∧ RowStep row .fencedClaim after := by
  obtain ⟨-, run⟩ := require_bind_returned run
  rw [atomically_ok] at run
  simp only [updateCheckins, findCheckin, run_bind_write, run_bind_read] at run
  generalize swept : s.checkins.update (fun r => decide (r.status = .queued ∧ r.maxAttempts ≤ r.attempts))
    (fun r => r.exhausted (clock 1)) (fun r => r.exhausted_id _) = rows at run
  have sweep : ∀ u : CompanionStore, u.checkins = rows →
      Moves s u (fun label _ _ => label = .exhausted) := by
    intro u same
    refine moves_update (congrArg Table.rows (same.trans swept.symm)) (fun r => r.exhausted_id _) ?_
    intro row _ met
    exact ⟨.exhausted, .exhausted _ (of_decide_eq_true met).1, rfl⟩
  cases picked : rows.first (fun r => decide (r.status = .queued ∧ r.dueAt ≤ clock 1 ∧
      r.attempts < r.maxAttempts)) dueBefore with
  | none =>
    rw [picked] at run
    cases run
    exact ⟨(sweep _ rfl).imp (fun _ _ _ => .inl), fun _ other => by cases other⟩
  | some chosen =>
    rw [picked] at run
    simp only [run_ite] at run
    split at run
    next =>
      cases run
      exact ⟨(sweep _ rfl).imp (fun _ _ _ => .inl), fun _ other => by cases other⟩
    next =>
      obtain ⟨mem, met⟩ := first_some picked
      obtain ⟨queued, -, left⟩ := of_decide_eq_true met
      have stored : rows.find chosen.id = some chosen := find_of_mem mem
      -- The sweep left the chosen row alone: it is still queued.
      have origin : s.checkins.find chosen.id = some chosen := by
        rw [← swept, find_update] at stored
        cases found : s.checkins.find chosen.id with
        | none => simp [found] at stored
        | some row =>
          rw [found, Option.map_some, Option.some.injEq] at stored
          split at stored
          next =>
            rw [← stored] at queued
            cases queued
          next => rw [stored]
      have claimed := RowStep.fencedClaim token (clock 2) leaseSeconds queued left
      simp only [run_bind_write, run_read, find_update, stored, Option.map_some,
        queued] at run
      obtain ⟨rfl, rfl⟩ := run
      have after : (rows.update (fun r => decide (r.id = chosen.id ∧ r.status = .queued))
          (fun r => r.leased token (clock 2) leaseSeconds) (fun r => r.leased_id _ _ _)).find chosen.id =
            some (chosen.leased token (clock 2) leaseSeconds) := by
        rw [find_update, stored]
        simp [queued]
      have sweeps := sweep ⟨rows, s.users, s.conversations, s.messages, s.destinationGrants⟩ rfl
      refine ⟨⟨?_, ?_⟩, ?_⟩
      · intro id row found
        by_cases here : id = chosen.id
        · subst here
          obtain rfl := Option.some.inj (origin.symm.trans found)
          exact ⟨_, after, .inr ⟨.fencedClaim, claimed, .inr ⟨rfl, rfl⟩⟩⟩
        · obtain ⟨moved, there, how⟩ := sweeps.rows id row found
          refine ⟨moved, ?_, ?_⟩
          · rw [find_update, there, Option.map_some]
            rw [key_of_find there]
            simp [here]
          · rcases how with same | ⟨label, moves, why⟩
            · exact .inl same
            · exact .inr ⟨label, moves, .inl why⟩
      · intro id row absent there
        rw [find_update] at there
        cases found : rows.find id with
        | none =>
          rw [found] at there
          cases there
        | some other =>
          rw [← swept, find_update, absent] at found
          cases found
      · intro result same
        obtain rfl := Option.some.inj same
        exact ⟨chosen, origin, after, claimed⟩

/-! ### Operations that present a claim -/

section Fenced

variable {claim : Claim} {clock : Clock} {s t : CompanionStore}

theorem renewCheckinClaim_returned
    (run : renewCheckinClaim claim clock leaseSeconds s = (.ok told, t)) :
    ∃ row after, Guarded s claim [clock 0, clock 1] row ∧ OneRowStep s t row .renewed after := by
  obtain ⟨-, run⟩ := require_bind_returned run
  obtain ⟨row, guard, done⟩ := guarded_returned (atomically_ok.mp run)
  cases done
  exact ⟨row, _, guard, .of_update guard.found rfl (fun _ => rfl) (.renewed _ _ guard.held.1)⟩

theorem finishCheckinClaim_returned {u : Unit}
    (run : finishCheckinClaim scrubText claim message clock s = (.ok u, t)) :
    ∃ row after, Guarded s claim [clock 0, clock 1] row ∧ OneRowStep s t row .finished after := by
  obtain ⟨row, guard, done⟩ := guarded_returned (atomically_ok.mp run)
  obtain ⟨sent, done⟩ := require_bind_returned done
  cases done
  exact ⟨row, _, guard, .of_update guard.found rfl (fun _ => rfl) (.finished _ _ guard.held.1 (of_decide_eq_true sent))⟩

theorem failCheckinClaim_returned {proven : Bool}
    (run : failCheckinClaim scrubText claim error clock proven s = (.ok status, t)) :
    ∃ row after, Guarded s claim [clock 0, clock 1] row ∧ OneRowStep s t row (.failed proven) after := by
  obtain ⟨row, guard, done⟩ := guarded_returned (atomically_ok.mp run)
  cases done
  refine ⟨row, _, guard, .of_update guard.found rfl (fun _ => rfl) ?_⟩
  have moves := RowStep.failed proven (some (clip 500 (scrubText error))) (clock 1) guard.held.1
  simpa using moves

theorem unknownCheckinClaim_returned
    (run : unknownCheckinClaim scrubText claim error clock s = (.ok told, t)) :
    ∃ row after, Guarded s claim [clock 0, clock 1] row ∧ OneRowStep s t row .abandoned after := by
  obtain ⟨row, guard, done⟩ := guarded_returned (atomically_ok.mp run)
  cases done
  exact ⟨row, _, guard, .of_update guard.found rfl (fun _ => rfl) (.abandoned _ _ guard.held.1)⟩

theorem cancelCheckinClaim_returned (run : cancelCheckinClaim claim clock s = (.ok told, t)) :
    ∃ row after, Guarded s claim [clock 0, clock 1] row ∧ OneRowStep s t row .stopped after := by
  obtain ⟨row, guard, done⟩ := guarded_returned (atomically_ok.mp run)
  cases done
  exact ⟨row, _, guard, .of_update guard.found rfl (fun _ => rfl) (.stopped _ (.inr guard.held.1))⟩

/-- The send intent: `True` exactly when the row's delivery is now started. -/
theorem startCheckinDelivery_returned
    (run : startCheckinDelivery wallClock claim clock s = (.ok told, t)) :
    ∃ row after, Guarded s claim [clock 0, clock 1] row ∧
      OneRowStep s t row (if told then .sendStarted else .stopped) after := by
  rw [startCheckinDelivery, atomically_ok] at run
  obtain ⟨row, s₁, owned, opened⟩ := bind_returned run
  obtain ⟨found, held, inside, rfl⟩ := ownedClaim_returned owned
  obtain ⟨unsent, reads⟩ := require_bind_returned opened
  simp only [run_bind_read] at reads
  obtain ⟨instant, s₂, timed, done⟩ := bind_returned reads
  obtain ⟨still, rfl, rfl⟩ := validateClaimTime_returned timed
  have guard : Guarded s₂ claim [clock 0, clock 1] row := by
    refine ⟨found, held, ?_⟩
    intro reading mem
    simp only [mem_cons, not_mem_nil, or_false] at mem
    rcases mem with rfl | rfl
    · exact inside
    · exact still
  obtain ⟨running, token, carried, -⟩ := held
  split at done
  next =>
    cases done
    exact ⟨row, _, guard, .of_update guard.found rfl (fun _ => rfl)
      (.sendStarted _ running (by simp [carried]) (of_decide_eq_true unsent))⟩
  next =>
    cases done
    exact ⟨row, _, guard, .of_update guard.found rfl (fun _ => rfl) (.stopped _ (.inr running))⟩

theorem ownedLocalClaim_returned {owned : Option CheckinRow}
    (run : ownedLocalClaim presented checkinId clock s = (.ok owned, t)) :
    t = s ∧ match presented with
      | none => owned = none
      | some claim => ∃ row, owned = some row ∧ row.id = checkinId ∧
          s.checkins.find row.id = some row ∧ Holds claim row ∧ WithinLease row (clock 1) := by
  cases presented with
  | none =>
    cases run
    exact ⟨rfl, rfl⟩
  | some claim =>
    obtain ⟨row, s₁, taken, tested⟩ := bind_returned run
    obtain ⟨found, held, inside, rfl⟩ := ownedClaim_returned taken
    obtain ⟨-, matching⟩ := require_bind_returned tested
    obtain ⟨same, done⟩ := require_bind_returned matching
    cases done
    refine ⟨rfl, row, rfl, ?_, found, held, inside⟩
    -- The claim's id is the text the caller names, and it is what the lookup bound.
    obtain ⟨-, token, -, bound⟩ := held
    cases claim with
    | notDict => cases same
    | dict id userId claimToken claimGeneration =>
      obtain rfl := of_decide_eq_true same
      exact Option.some.inj (boundClaim_id bound)

theorem conversation_of_eligible {row : Option CheckinRow} {conversation : Option Conversation}
    (eligible : localEligible row conversation conversationId = true) : conversation.isSome := by
  cases conversation with
  | none => cases row <;> cases eligible
  | some conversation => rfl

/-- An accepted completion adds its message; another leaves messages and conversations. -/
structure LocalEffect (s t : CompanionStore) (conversationId clean : String) (told : Bool)
    (instant : Instant) (after : CheckinRow) : Prop where
  written : told = true → after.message = some clean ∧
    (s.conversations.find conversationId).isSome ∧
    t.messages = s.messages.append ⟨conversationId, "assistant", clean, instant⟩
  silent : told = false → t.messages = s.messages ∧ t.conversations = s.conversations

/-- Local completion: a running row, held at both readings by a claim, is done or cancelled. -/
theorem finishLocalCheckin_effect
    (run : finishLocalCheckin scrubText wallClock checkinId conversationId message presented clock s =
      (.ok told, t)) :
    ∃ row after, row.id = checkinId ∧
      (∀ claim, presented = some claim → Guarded s claim [clock 1, clock 2] row) ∧
      OneRowStep s t row (if told then .localDone else .stopped) after ∧
      LocalEffect s t conversationId (scrubText message) told (clock 3) after := by
  rw [finishLocalCheckin, atomically_ok] at run
  obtain ⟨owned, s₁, taken, opened⟩ := bind_returned run
  obtain ⟨rfl, held⟩ := ownedLocalClaim_returned taken
  obtain ⟨joined, eligible⟩ := require_bind_returned opened
  cases selected : (s₁.checkins.find checkinId).filter (fun r => decide (r.status = .running) &&
      (presented.isSome || decide (r.claimToken = none))) with
  | none =>
    rw [selected] at eligible
    cases eligible
  | some row =>
    rw [selected] at eligible joined
    have named := conversation_of_eligible joined
    obtain ⟨there, met⟩ := Option.filter_eq_some_iff.mp selected
    simp only [Bool.and_eq_true, decide_eq_true_eq] at met
    have keyed : row.id = checkinId := key_of_find there
    have found : s₁.checkins.find row.id = some row := by rw [keyed]; exact there
    simp only [run_bind_read] at eligible
    obtain ⟨_, s₂, timed, done⟩ := bind_returned eligible
    have guard : s₂ = s₁ ∧
        ∀ claim, presented = some claim → Guarded s₁ claim [clock 1, clock 2] row := by
      cases presented with
      | none =>
        obtain rfl : owned = none := held
        cases timed
        exact ⟨rfl, fun _ other => by cases other⟩
      | some claim =>
        obtain ⟨first, rfl, sameId, firstFound, holds, inside⟩ := held
        obtain ⟨_, s₃, still, rest⟩ := bind_returned timed
        cases rest
        obtain ⟨within, -, rfl⟩ := validateClaimTime_returned still
        obtain rfl : first = row := by
          rw [sameId, there] at firstFound
          exact (Option.some.inj firstFound).symm
        refine ⟨rfl, ?_⟩
        intro other same
        cases same
        refine ⟨found, holds, ?_⟩
        intro reading mem
        simp only [mem_cons, not_mem_nil, or_false] at mem
        rcases mem with rfl | rfl
        · exact inside
        · exact within
    obtain ⟨rfl, guarded⟩ := guard
    subst keyed
    split at done
    next =>
      cases done
      exact ⟨row, _, rfl, guarded, .of_update found rfl (fun _ => rfl) (.localDone _ _ met.1),
        ⟨fun _ => ⟨rfl, named, rfl⟩, fun other => absurd other (by decide)⟩⟩
    next =>
      cases done
      exact ⟨row, _, rfl, guarded, .of_update found rfl (fun _ => rfl) (.stopped _ (.inr met.1)),
        ⟨fun other => absurd other (by decide), fun _ => ⟨rfl, rfl⟩⟩⟩

theorem finishLocalCheckin_returned
    (run : finishLocalCheckin scrubText wallClock checkinId conversationId message presented clock s =
      (.ok told, t)) :
    ∃ row after, row.id = checkinId ∧
      (∀ claim, presented = some claim → Guarded s claim [clock 1, clock 2] row) ∧
      OneRowStep s t row (if told then .localDone else .stopped) after := by
  obtain ⟨row, after, same, guarded, one, -⟩ := finishLocalCheckin_effect run
  exact ⟨row, after, same, guarded, one⟩

end Fenced

/-! ### Operations without a claim -/

section Unfenced

variable {s t : CompanionStore} {because : Label → CheckinRow → CheckinRow → Prop}

theorem updateUnleased_moves {id : String} {keeps : ∀ r, (f r).id = r.id} {changed : Bool}
    (shape : ∀ r, ∃ status message lastError updatedAt,
      f r = { r with status, message, lastError, updatedAt })
    (why : ∀ row, because .unleased row (f row))
    (run : updateUnleased id f keeps s = (.ok changed, t)) : Moves s t because := by
  cases run
  refine moves_update rfl keeps ?_
  intro row _ met
  simp only [CheckinRow.unleased, Bool.and_eq_true, decide_eq_true_eq] at met
  obtain ⟨status, message, lastError, updatedAt, same⟩ := shape row
  refine ⟨.unleased, ?_, why row⟩
  rw [same]
  exact .unleased status message lastError updatedAt met.2.1 met.2.2

theorem claimCheckin_moves {moment : Instant} (why : ∀ row after, because .legacyClaim row after)
    (run : claimCheckin moment now s = (.ok result, t)) : Moves s t because := by
  rw [claimCheckin, atomically_ok] at run
  simp only [run_bind_read] at run
  cases picked : s.checkins.first (fun r => decide (r.status = .queued ∧ r.claimToken = none ∧
      r.attempts < r.maxAttempts ∧ r.dueAt ≤ moment)) dueBefore with
  | none =>
    rw [picked] at run
    cases run
    exact Moves.of_same rfl
  | some chosen =>
    rw [picked] at run
    cases run
    obtain ⟨mem, met⟩ := first_some picked
    obtain ⟨queued, untouched, left, -⟩ := of_decide_eq_true met
    refine moves_update rfl (fun _ => rfl) ?_
    intro row stored here
    obtain ⟨keyed, -⟩ := of_decide_eq_true here
    obtain rfl : chosen = row := by
      have first := find_of_mem mem
      rw [← keyed, find_of_mem stored] at first
      exact (Option.some.inj first).symm
    exact ⟨.legacyClaim, .legacyClaim now queued untouched left, why _ _⟩

theorem cancelPendingCheckins_moves {count : Nat} (why : ∀ row after, because .stopped row after)
    (run : cancelPendingCheckins userId now s = (.ok count, t)) : Moves s t because := by
  cases run
  refine moves_update rfl (fun _ => rfl) ?_
  intro row _ met
  exact ⟨.stopped, .stopped now (.inl (of_decide_eq_true met).2), why _ _⟩

theorem failCheckin_moves {id : String}
    (why : ∀ row after, after.status ≠ .done → because .unleased row after)
    (run : failCheckin id error now s = (.ok status, t)) : Moves s t because := by
  rw [failCheckin, atomically_ok] at run
  obtain ⟨changed, s₁, updated, read⟩ := bind_returned run
  have undone : ∀ row : CheckinRow,
      (if row.attempts < row.maxAttempts then CheckinStatus.queued else .failed) ≠ .done := by
    intro row
    split <;> decide
  have moved : Moves s s₁ because := updateUnleased_moves
    (fun r => ⟨_, r.message, _, _, rfl⟩) (fun row => why row _ (undone row)) updated
  simp only [findCheckin, run_bind_read] at read
  cases found : s₁.checkins.find id with
  | none =>
    rw [found] at read
    cases read
  | some row =>
    rw [found] at read
    cases read
    exact moved

/-- The row that scheduling stores. -/
def scheduledRow (userId : String) (dueAt : Instant) (slot channel : String)
    (address : Option String) (maxAttempts : Int) (ident : String) (now : Instant) : CheckinRow :=
  { id := ident, userId := userId, slot := slot, dueAt := dueAt, status := .queued,
    attempts := 0, maxAttempts := maxAttempts, channel := channel, address := address,
    message := none, lastError := none, createdAt := now, updatedAt := now,
    claimToken := none, claimGeneration := 0, claimedAt := none, leaseUntil := none,
    deliveryState := .unknown }

theorem scheduleCheckin_cases {dueAt : Instant} {slot channel : String} {address : Option String}
    {maxAttempts : Int} {reusePending : Bool} {ident : String} {result : CheckinRow × Bool}
    (run : scheduleCheckin userId dueAt slot channel address maxAttempts reusePending ident now s =
      (.ok result, t)) :
    t = s ∨ 1 ≤ maxAttempts ∧ (if reusePending then pendingCheckin userId s else none) = none ∧
      slotCheckin userId slot s = none ∧
      ∃ fresh : s.checkins.find (scheduledRow userId dueAt slot channel address maxAttempts ident
          now).id = none,
        t = { s with checkins := s.checkins.insert _ fresh } := by
  obtain ⟨positive, opened⟩ := require_bind_returned run
  rw [atomically_ok] at opened
  simp only [run_bind_read] at opened
  cases pending : (if reusePending then pendingCheckin userId s else none) with
  | some row =>
    rw [pending] at opened
    cases opened
    exact .inl rfl
  | none =>
    rw [pending] at opened
    simp only [run_bind_read] at opened
    cases held : slotCheckin userId slot s with
    | some row =>
      rw [held] at opened
      cases opened
      exact .inl rfl
    | none =>
      rw [held] at opened
      obtain ⟨inserted, done⟩ := require_bind_returned opened
      have fresh := fresh_of_inserted inserted
      rw [run_bind_write, insertOrIgnore_fresh fresh] at done
      cases done
      exact .inr ⟨of_decide_eq_true positive, rfl, rfl, fresh, rfl⟩

theorem scheduleCheckin_moves {dueAt : Instant} {slot channel : String} {address : Option String}
    {maxAttempts : Int} {reusePending : Bool} {ident : String} {result : CheckinRow × Bool}
    (run : scheduleCheckin userId dueAt slot channel address maxAttempts reusePending ident now s =
      (.ok result, t)) : Moves s t because := by
  rcases scheduleCheckin_cases run with rfl | ⟨positive, -, -, fresh, rfl⟩
  · exact Moves.of_same rfl
  · refine ⟨?_, ?_⟩
    · intro id row found
      exact ⟨row, find_insert_of_found fresh found, .inl rfl⟩
    · intro id after absent found
      rw [find_insert] at found
      split at found
      next =>
        cases found
        exact ⟨rfl, positive⟩
      next =>
        rw [absent] at found
        cases found

end Unfenced

/-- What the caller was told when a row took the step. -/
def Reported (action : Action) (answer : Except Exc Value) :
    Label → CheckinRow → CheckinRow → Prop
  | .fencedClaim, _, after => (∃ clock leaseSeconds token,
      action = .claimFenced clock leaseSeconds token) ∧ answer = .ok (.claimed (some after))
  | .failed true, row, _ => ∃ claim error clock status,
      action = .failClaim claim error clock true ∧ answer = .ok (.status status) ∧ Holds claim row
  | _, _, _ => True

variable {scrubText : String → String} {wallClock : String → Instant → Nat}

/-- The operation that completes a row when the row takes the step. -/
def CompletedBy (action : Action) (answer : Except Exc Value) :
    Label → CheckinRow → CheckinRow → Prop
  | .finished, _, _ => ∃ claim message clock, action = .finishClaim claim message clock
  | .localDone, row, _ => ∃ conversationId message claim clock,
      action = .finishLocal row.id conversationId message claim clock ∧ answer = .ok (.told true)
  | .unleased, _, after => after.status = .done → ∃ id message now,
      action = .finishLegacy id message now
  | _, _, _ => True

/-- Every operation moves every row by at most one row step, and only three of them complete one. -/
theorem step_taken (run : step scrubText wallClock s action = (.ok value, t)) :
    Moves s t (fun label row after => Reported action (.ok value) label row after ∧
      CompletedBy action (.ok value) label row after) := by
  cases action with
  | elsewhere users conversations messages destinationGrants =>
    cases run
    exact Moves.of_same rfl
  | recover clock =>
    obtain ⟨counts, done, rfl⟩ := call_ok run
    exact recoverCheckinClaims_moves (fun _ _ => ⟨trivial, trivial⟩) done
  | claimFenced clock leaseSeconds token =>
    obtain ⟨result, done, rfl⟩ := call_ok run
    refine (claimCheckinFenced_returned done).1.imp ?_
    rintro label row after (rfl | ⟨rfl, rfl⟩)
    · exact ⟨trivial, trivial⟩
    · exact ⟨⟨⟨clock, leaseSeconds, token, rfl⟩, rfl⟩, trivial⟩
  | renew claim clock leaseSeconds =>
    obtain ⟨told, done, rfl⟩ := call_ok run
    obtain ⟨row, after, -, one⟩ := renewCheckinClaim_returned done
    exact one.all ⟨trivial, trivial⟩
  | startDelivery claim clock =>
    obtain ⟨told, done, rfl⟩ := call_ok run
    obtain ⟨row, after, -, one⟩ := startCheckinDelivery_returned done
    refine one.all ?_
    cases told <;> exact ⟨trivial, trivial⟩
  | finishClaim claim message clock =>
    obtain ⟨_, done, rfl⟩ := call_ok run
    obtain ⟨row, after, -, one⟩ := finishCheckinClaim_returned done
    exact one.all ⟨trivial, claim, message, clock, rfl⟩
  | failClaim claim error clock proven =>
    obtain ⟨status, done, rfl⟩ := call_ok run
    obtain ⟨row, after, guard, one⟩ := failCheckinClaim_returned done
    refine one.all ?_
    cases proven with
    | true => exact ⟨⟨claim, error, clock, status, rfl, rfl, guard.held⟩, trivial⟩
    | false => exact ⟨trivial, trivial⟩
  | unknownClaim claim error clock =>
    obtain ⟨told, done, rfl⟩ := call_ok run
    obtain ⟨row, after, -, one⟩ := unknownCheckinClaim_returned done
    exact one.all ⟨trivial, trivial⟩
  | cancelClaim claim clock =>
    obtain ⟨told, done, rfl⟩ := call_ok run
    obtain ⟨row, after, -, one⟩ := cancelCheckinClaim_returned done
    exact one.all ⟨trivial, trivial⟩
  | finishLocal checkinId conversationId message claim clock =>
    obtain ⟨told, done, rfl⟩ := call_ok run
    obtain ⟨row, after, rfl, -, one⟩ := finishLocalCheckin_returned done
    refine one.all ?_
    cases told with
    | true => exact ⟨trivial, conversationId, message, claim, clock, rfl, rfl⟩
    | false => exact ⟨trivial, trivial⟩
  | schedule userId dueAt slot channel address maxAttempts reusePending ident now =>
    obtain ⟨result, done, rfl⟩ := call_ok run
    exact scheduleCheckin_moves done
  | claimLegacy moment now =>
    obtain ⟨result, done, rfl⟩ := call_ok run
    exact claimCheckin_moves (fun _ _ => ⟨trivial, trivial⟩) done
  | finishLegacy id message now =>
    rw [step] at run
    obtain ⟨_, done, rfl⟩ := call_ok run
    have done := atomically_ok.mp done
    obtain ⟨changed, s₁, updated, done⟩ := bind_returned done
    cases done
    exact updateUnleased_moves (fun r => ⟨_, _, _, _, rfl⟩)
      (fun _ => ⟨trivial, fun _ => ⟨id, message, now, rfl⟩⟩) updated
  | failLegacy id error now =>
    obtain ⟨status, done, rfl⟩ := call_ok run
    exact failCheckin_moves (fun _ _ undone => ⟨trivial, fun completed => absurd completed undone⟩)
      done
  | markUnknown id error now =>
    rw [step] at run
    obtain ⟨changed, done, rfl⟩ := call_ok run
    exact updateUnleased_moves (fun r => ⟨_, r.message, _, _, rfl⟩)
      (fun _ => ⟨trivial, fun completed => by cases completed⟩) (atomically_ok.mp done)
  | cancelClaimed id now =>
    rw [step] at run
    obtain ⟨changed, done, rfl⟩ := call_ok run
    exact updateUnleased_moves (fun r => ⟨_, r.message, r.lastError, _, rfl⟩)
      (fun _ => ⟨trivial, fun completed => by cases completed⟩) (atomically_ok.mp done)
  | cancelPending userId now =>
    rw [step] at run
    obtain ⟨count, done, rfl⟩ := call_ok run
    exact cancelPendingCheckins_moves (fun _ _ => ⟨trivial, trivial⟩) done

theorem step_moves (run : step scrubText wallClock s action = (.ok value, t)) :
    Moves s t (Reported action (.ok value)) :=
  (step_taken run).imp (fun _ _ _ both => both.1)

theorem step_raised (run : step scrubText wallClock s action = (.error e, t)) : t = s := by
  cases action with
  | elsewhere => cases run
  | claimFenced clock leaseSeconds token =>
    exact call_error (raisesClean_require_bind (raisesClean_atomically _)) run
  | renew claim clock leaseSeconds =>
    exact call_error (raisesClean_require_bind (raisesClean_atomically _)) run
  | schedule userId dueAt slot channel address maxAttempts reusePending ident now =>
    exact call_error (raisesClean_require_bind (raisesClean_atomically _)) run
  | _ =>
    rw [step] at run
    exact call_error (raisesClean_atomically _) run

end Meemee.Guarantees.CheckinRows
