import Meemee.Guarantees.IdempotencyOwnership
import Meemee.Guarantees.BackendRefinement
import Meemee.Source.JobCreation

/-!
# What each store does for POST /v1/jobs

One request's calls of the stores: which of them are taken, and what they leave behind. A
deployment is told by five terms: when the quota has room, which jobs the queue accepts, how
many jobs it holds of a principal and a day, and the two readings that a response can only be
stored between.
-/
namespace Meemee.Guarantees.CreationSteps
open Library Source Source.Jobs Source.Idempotency Source.Quotas Library.Txn
open Source.JobCreation Guarantees.IdempotencyOwnership

/-- What a deployment is told by. -/
structure Terms (σ : Type) where
  /-- The quota takes one more job. -/
  room : Int → String → Int → QuotaStore → Prop
  /-- The queue takes a job of this id, goal, time and principal. -/
  accepts : String → String → Option RunAt → String → σ → Prop
  /-- The jobs of a principal that were created on a day. -/
  created : String → Int → σ → Int
  /-- When the claim of a key ends. -/
  leaseEnd : JobCreation.Clock → Instant
  /-- The reading that `put` compares it with. -/
  checked : JobCreation.Clock → Instant

section Quotas

variable {default : Int} {principal : String} {day : Int} {now : Instant} {s : QuotaStore}

theorem used_counted (s : QuotaStore) (principal : String) (day : Int) (other : String)
    (otherDay : Int) : (s.counted principal day).used other otherDay =
      s.used other otherDay + if other = principal ∧ otherDay = day then 1 else 0 := by
  have same : (other = principal ∧ otherDay = day) ↔ (principal, day) = (other, otherDay) := by
    rw [Prod.mk.injEq, eq_comm (a := principal), eq_comm (a := day)]
  simp only [same, QuotaStore.used, QuotaStore.counted, upsert]
  cases found : s.usage.find (principal, day) with
  | none =>
    have fresh : s.usage.find (Usage.id ⟨principal, day, 1⟩) = none := found
    simp only [Table.insertOrIgnore_fresh fresh, Table.find_insert, Usage.id]
    by_cases here : (principal, day) = (other, otherDay)
    · simp [← here, found]
    · simp [here]
  | some row =>
    simp only [Table.find_update_key]
    by_cases here : (principal, day) = (other, otherDay)
    · simp [← here, found, Usage.counted]
    · simp [here, Ne.symm here]

/-- One more job is within the limit. -/
def HasRoom (default : Int) (principal : String) (day : Int) (s : QuotaStore) : Prop :=
  s.used principal day + 1 ≤ s.limit default principal

def chargedQuota (default : Int) (principal : String) (day : Int) (s : QuotaStore) : Quota :=
  ⟨day, s.used principal day + 1, s.limit default principal,
    s.limit default principal - (s.used principal day + 1)⟩

theorem countJob_counted (room : HasRoom default principal day s) :
    countJob default principal day s =
      (.ok (chargedQuota default principal day s), s.counted principal day) := by
  have used : (s.counted principal day).used principal day = s.used principal day + 1 := by
    rw [used_counted, if_pos ⟨rfl, rfl⟩]
  have fits : s.used principal day + 1 ≤ s.limit default principal := room
  simp only [countJob, run_bind_read, run_bind_write, run_require_bind, used]
  rw [if_pos (decide_eq_true fits)]
  rfl

theorem countJob_full (full : ¬ HasRoom default principal day s) :
    ∃ e, countJob default principal day s = (.error e, s.counted principal day) := by
  have used : (s.counted principal day).used principal day = s.used principal day + 1 := by
    rw [used_counted, if_pos ⟨rfl, rfl⟩]
  simp only [countJob, run_bind_read, run_bind_write, run_require_bind, used]
  rw [decide_eq_false (show ¬ s.used principal day + 1 ≤ s.limit default principal from full)]
  exact ⟨_, rfl⟩

end Quotas

theorem length_insert {κ ρ : Type} [DecidableEq κ] {key : ρ → κ} {t : Table key} {r : ρ}
    (fresh : t.find (key r) = none) (p : ρ → Prop) [DecidablePred p] :
    (((t.insert r fresh).select (fun row => decide (p row))).length : Int) =
      (t.select (fun row => decide (p row))).length + if p r then 1 else 0 := by
  rw [Table.select_insert]
  by_cases met : p r <;> simp [met]

variable {ttl : Int} {leaseEnd inserted : Instant} {ident goal principal : String}
  {runAt : Option RunAt} {clock : Nat → Instant}

variable {dated checked serverNow now : Instant} {s : JobStore} {default : Int}

section Keys

variable {hash : Json → Except Exc String} {payload response : Json} {digest token : String}
  {key : Key} {t : Records} {now expires : Instant}

theorem checkKey_named (named : key.key ≠ "" ∧ key.key.length ≤ 200) (t : Records) :
    checkKey key.key t = (.ok (), t) := by
  rw [checkKey, decide_eq_true named]
  rfl

theorem checkKey_misnamed (misnamed : ¬ (key.key ≠ "" ∧ key.key.length ≤ 200)) (t : Records) :
    checkKey key.key t =
      (.error (.valueError "idempotency key must contain 1-200 characters"), t) := by
  rw [checkKey, decide_eq_false misnamed]
  rfl

theorem insertRow_free (row : Row) (free : t.find row.id = none) :
    ∃ u, insertRow row t = (.ok true, u) ∧ u.find row.id = some row := by
  rcases insertRow_cases row t with ⟨-, inserted⟩ | ⟨⟨other, taken⟩, -⟩
  · exact inserted
  · rw [free] at taken
    cases taken

theorem insertRow_taken (row : Row) (taken : t.find row.id ≠ none) :
    insertRow row t = (.ok false, t) := by
  rcases insertRow_cases row t with ⟨free, -⟩ | ⟨-, conflict⟩
  · exact absurd free taken
  · exact conflict

/-- The row a claim leaves behind, by the end of its lease. -/
def claimedRow (key : Key) (digest : String) (leaseEnd : Instant) (token : String) : Row :=
  pendingRow key digest (leaseEnd - CLAIM_LEASE) leaseEnd (some token)

theorem ownershipFails_claimed (leaseEnd : Instant) : ownershipFails
    (some (claimedRow key digest leaseEnd token)) (some token) now = decide (leaseEnd ≤ now) := by
  simp [ownershipFails, claimedRow, pendingRow]

theorem sqlite_claimed (named : key.key ≠ "" ∧ key.key.length ≤ 200)
    (hashed : hash payload = .ok digest) (free : ¬ LiveRow t key now) :
    ∃ u, Idempotency.SQLite.claim hash now key payload (some token) t = (.ok true, u) ∧
      u.find key = some (claimedRow key digest (now + CLAIM_LEASE) token) := by
  obtain ⟨u, inserted, stored⟩ := insertRow_free
    (pendingRow key digest now (now + CLAIM_LEASE) (some token)) (find_dropExpired_none.mpr free)
  refine ⟨u, ?_, ?_⟩
  · rw [Idempotency.SQLite.claim, hashed, run_bind_ok (checkKey_named named t)]
    exact atomically_of_ok inserted
  · rw [claimedRow, Int.add_sub_cancel]
    exact stored

theorem sqlite_blocked (named : key.key ≠ "" ∧ key.key.length ≤ 200)
    (hashed : hash payload = .ok digest) (live : LiveRow t key now) :
    Idempotency.SQLite.claim hash now key payload (some token) t =
      (.ok false, dropExpired now t) := by
  have taken : (dropExpired now t).find key ≠ none := fun free => find_dropExpired_none.mp free live
  rw [Idempotency.SQLite.claim, hashed, run_bind_ok (checkKey_named named t)]
  exact atomically_of_ok (insertRow_taken _ taken)

theorem sqlite_misnamed (misnamed : ¬ (key.key ≠ "" ∧ key.key.length ≤ 200)) :
    ∃ e, Idempotency.SQLite.claim hash now key payload (some token) t = (.error e, t) :=
  ⟨_, run_bind_error (checkKey_misnamed misnamed t)⟩

theorem checkStatus_ok (t : Records) : checkStatus 200 t = (.ok (), t) := rfl

theorem put_checked {body : String → Txn Records Exc Unit}
    (named : key.key ≠ "" ∧ key.key.length ≤ 200) (hashed : hash payload = .ok digest)
    (encoded : (encodeResponse response).isOk = true) :
    (do
      checkStatus 200
      checkKey key.key
      let _ ← Txn.ofExcept (encodeResponse response)
      let digest ← Txn.ofExcept (hash payload)
      body digest) t = body digest t := by
  rw [run_bind_ok (checkStatus_ok t), run_bind_ok (checkKey_named named t)]
  cases written : encodeResponse response with
  | ok text => rw [hashed, run_bind_ok (run_ofExcept _ _), run_bind_ok (run_ofExcept _ _)]
  | error e =>
    rw [written] at encoded
    cases encoded

theorem ownership_tested (leaseEnd : Instant) :
    (protectedKey (some (claimedRow key digest leaseEnd token)) (some token) &&
      ownershipFails (some (claimedRow key digest leaseEnd token)) (some token) now) =
        decide (leaseEnd ≤ now) := by
  rw [ownershipFails_claimed]
  rfl

theorem sqlite_published (named : key.key ≠ "" ∧ key.key.length ≤ 200)
    (hashed : hash payload = .ok digest) (encoded : (encodeResponse response).isOk = true)
    (stored : t.find key = some (claimedRow key digest leaseEnd token))
    (inTime : checked < leaseEnd) :
    ∃ u, Idempotency.SQLite.put hash dated checked ttl key payload 200 response (some token) t =
      (.ok (), u) := by
  refine ⟨?after, (put_checked named hashed encoded).trans (atomically_of_ok ?body)⟩
  case body =>
    simp only [run_bind_read, stored, run_require_bind, ownership_tested]
    rw [if_pos (by simp [claimedRow, pendingRow]), if_pos (by simpa using inTime)]
    exact run_write _ _

theorem sqlite_lost (named : key.key ≠ "" ∧ key.key.length ≤ 200)
    (hashed : hash payload = .ok digest) (encoded : (encodeResponse response).isOk = true)
    (gone : t.find key = none ∨
      (t.find key = some (claimedRow key digest leaseEnd token) ∧ leaseEnd ≤ checked)) :
    Idempotency.SQLite.put hash dated checked ttl key payload 200 response (some token) t =
      (.error ownershipLost, t) := by
  refine (put_checked named hashed encoded).trans (atomically_of_error (t := t) ?_)
  rcases gone with absent | ⟨stored, late⟩
  · simp only [run_bind_read, absent, run_require_bind, protectedKey, ownershipFails]
    rfl
  · simp only [run_bind_read, stored, run_require_bind, ownership_tested]
    rw [if_pos (by simp [claimedRow, pendingRow]), if_neg (by simpa using late)]

theorem postgres_claimed (named : key.key ≠ "" ∧ key.key.length ≤ 200)
    (hashed : hash payload = .ok digest) (free : ¬ LiveRow t key now) :
    ∃ u, Idempotency.Postgres.claim hash now inserted key payload (some token) t = (.ok true, u) ∧
      u.find key = some (claimedRow key digest (inserted + CLAIM_LEASE) token) := by
  obtain ⟨u, wrote, stored⟩ := insertRow_free
    (pendingRow key digest now (now + CLAIM_LEASE) (some token)) (find_dropExpired_none.mpr free)
  have keyed : u.find key = _ := stored
  refine ⟨?after, ?run, ?row⟩
  case run =>
    rw [Idempotency.Postgres.claim, hashed, run_bind_ok (checkKey_named named t)]
    refine atomically_of_ok ?_
    rw [run_bind_write, run_bind_ok wrote, if_pos rfl, run_bind_write, run_pure]
  case row =>
    rw [Table.find_update_key, if_pos rfl, keyed, claimedRow, Int.add_sub_cancel]
    rfl

theorem postgres_blocked (named : key.key ≠ "" ∧ key.key.length ≤ 200)
    (hashed : hash payload = .ok digest) (live : LiveRow t key now) :
    Idempotency.Postgres.claim hash now inserted key payload (some token) t =
      (.ok false, dropExpired now t) := by
  have taken : (dropExpired now t).find key ≠ none := fun free => find_dropExpired_none.mp free live
  rw [Idempotency.Postgres.claim, hashed, run_bind_ok (checkKey_named named t)]
  refine atomically_of_ok ?_
  rw [run_bind_write, run_bind_ok (insertRow_taken (pendingRow _ _ _ _ _) taken)]
  rfl

theorem postgres_misnamed (misnamed : ¬ (key.key ≠ "" ∧ key.key.length ≤ 200)) :
    ∃ e, Idempotency.Postgres.claim hash now inserted key payload (some token) t = (.error e, t) :=
  ⟨_, run_bind_error (checkKey_misnamed misnamed t)⟩

theorem postgres_published (named : key.key ≠ "" ∧ key.key.length ≤ 200)
    (hashed : hash payload = .ok digest) (encoded : (encodeResponse response).isOk = true)
    (stored : t.find key = some (claimedRow key digest leaseEnd token))
    (inTime : serverNow < leaseEnd) :
    ∃ u, Idempotency.Postgres.put hash serverNow ttl key payload 200 response (some token) t =
      (.ok (), u) := by
  refine ⟨?after, (put_checked named hashed encoded).trans (atomically_of_ok ?body)⟩
  case body =>
    simp only [run_bind_read, stored, run_require_bind, ownership_tested]
    rw [if_pos (by simpa using inTime), run_bind_ok (run_ofExcept _ t),
      if_pos (by simp [claimedRow, pendingRow])]
    exact run_write _ _

theorem postgres_lost (named : key.key ≠ "" ∧ key.key.length ≤ 200)
    (hashed : hash payload = .ok digest) (encoded : (encodeResponse response).isOk = true)
    (gone : t.find key = none ∨
      (t.find key = some (claimedRow key digest leaseEnd token) ∧ leaseEnd ≤ serverNow)) :
    Idempotency.Postgres.put hash serverNow ttl key payload 200 response (some token) t =
      (.error ownershipLost, t) := by
  refine (put_checked named hashed encoded).trans (atomically_of_error (t := t) ?_)
  rcases gone with absent | ⟨stored, late⟩
  · simp only [run_bind_read, absent, run_require_bind, protectedKey, ownershipFails]
    rfl
  · simp only [run_bind_read, stored, run_require_bind, ownership_tested]
    rw [if_neg (by simpa using late)]

end Keys

/-- The calls of a deployment are what its terms say. -/
structure Lawful {σ : Type} (d : Persistence σ) (terms : Terms σ) : Prop where
  counted : ∀ {default principal now s}, terms.room default principal (quotaDay now) s →
    d.consumeJob default principal now s =
      (.ok (chargedQuota default principal (quotaDay now) s), s.counted principal (quotaDay now))
  full : ∀ {default principal now s}, ¬ terms.room default principal (quotaDay now) s →
    ∃ e, d.consumeJob default principal now s = (.error e, s)
  accepted : ∀ {ident goal runAt principal} {clock : Nat → Instant} {s}, runAt ≠ some .naive →
    terms.accepts ident goal runAt principal s →
    ∃ t, d.enqueue ident goal runAt 3 (some principal) clock s = (.ok ident, t) ∧
      ∀ other day, terms.created other day t = terms.created other day s +
        if other = principal ∧ day = quotaDay (clock 0) then 1 else 0
  refused : ∀ {ident goal runAt principal} {clock : Nat → Instant} {s}, runAt ≠ some .naive →
    ¬ terms.accepts ident goal runAt principal s →
    ∃ e, d.enqueue ident goal runAt 3 (some principal) clock s = (.error e, s)
  /-- A key of 1 to 200 characters that no unexpired row holds is claimed. -/
  claimed : ∀ {hash : Json → Except Exc String} {clock key payload digest token t},
    (key.key ≠ "" ∧ key.key.length ≤ 200) → hash payload = .ok digest →
    ¬ LiveRow t key clock.claimed →
    ∃ u, d.claim hash clock key payload (some token) t = (.ok true, u) ∧
      u.find key = some (claimedRow key digest (terms.leaseEnd clock) token)
  blocked : ∀ {hash : Json → Except Exc String} {clock key payload digest token t},
    (key.key ≠ "" ∧ key.key.length ≤ 200) → hash payload = .ok digest →
    LiveRow t key clock.claimed →
    d.claim hash clock key payload (some token) t = (.ok false, dropExpired clock.claimed t)
  misnamed : ∀ {hash : Json → Except Exc String} {clock key payload token t},
    ¬ (key.key ≠ "" ∧ key.key.length ≤ 200) →
    ∃ e, d.claim hash clock key payload (some token) t = (.error e, t)
  /-- A response is stored over the caller's own pending row, before its claim ends. -/
  published : ∀ {hash : Json → Except Exc String} {clock ttl key payload digest token t response},
    (key.key ≠ "" ∧ key.key.length ≤ 200) → hash payload = .ok digest →
    (encodeResponse response).isOk = true →
    t.find key = some (claimedRow key digest (terms.leaseEnd clock) token) →
    terms.checked clock < terms.leaseEnd clock →
    ∃ u, d.put hash clock ttl key payload 200 response (some token) t = (.ok (), u)
  lost : ∀ {hash : Json → Except Exc String} {clock ttl key payload digest token t response},
    (key.key ≠ "" ∧ key.key.length ≤ 200) → hash payload = .ok digest →
    (encodeResponse response).isOk = true →
    t.find key = none ∨ (t.find key = some (claimedRow key digest (terms.leaseEnd clock) token) ∧ terms.leaseEnd clock ≤ terms.checked clock) →
    d.put hash clock ttl key payload 200 response (some token) t = (.error ownershipLost, t)

def sqliteTerms : Terms JobStore where
  room := HasRoom
  accepts ident _ runAt _ s := RunAt.converts runAt = true ∧ s.jobs.find ident = none
  created principal day s := (s.jobs.select (fun j =>
    decide (j.principal = some principal ∧ quotaDay j.createdAt = day))).length
  leaseEnd clock := clock.claimed + CLAIM_LEASE
  checked clock := clock.checked

theorem sqlite_accepted (aware : runAt ≠ some .naive)
    (accepts : sqliteTerms.accepts ident goal runAt principal s) :
    ∃ t, JobCreation.sqlite.enqueue ident goal runAt 3 (some principal) clock s = (.ok ident, t) ∧
      ∀ other day, sqliteTerms.created other day t = sqliteTerms.created other day s +
        if other = principal ∧ day = quotaDay (clock 0) then 1 else 0 := by
  have fresh : s.jobs.find (Jobs.newJob ident goal ((RunAt.given runAt).getD (clock 1)) 3
      (some principal) (clock 0)).id = none := accepts.2
  have small : (Jobs.newJob ident goal ((RunAt.given runAt).getD (clock 1)) 3
      (some principal) (clock 0)).maxAttempts ≤ Jobs.maxInteger := show (3 : Int) ≤ _ by decide
  refine ⟨_, (JobMoves.enqueue_aware ident goal 3 (some principal) (clock 0) (clock 1) s aware
    accepts.1).trans (JobMoves.insertJob_stored small fresh), ?_⟩
  intro other day
  simp only [sqliteTerms, JobMoves.inserted, length_insert, Jobs.newJob, Option.some.injEq,
    eq_comm (a := principal), eq_comm (a := quotaDay (clock 0))]

theorem sqlite_refused (refuses : ¬ sqliteTerms.accepts ident goal runAt principal s) :
    ∃ e, JobCreation.sqlite.enqueue ident goal runAt 3 (some principal) clock s = (.error e, s) := by
  cases converts : RunAt.converts runAt with
  | false => exact ⟨_, JobMoves.enqueue_unconverted _ _ _ _ _ _ _ converts⟩
  | true =>
    have taken : ∃ other, s.jobs.find ident = some other :=
      Option.ne_none_iff_exists'.mp (fun fresh => refuses ⟨converts, fresh⟩)
    rcases JobMoves.enqueue_cases ident goal runAt 3 (some principal) (clock 0) (clock 1) s with
      inserts | refused
    · obtain ⟨e, raised⟩ := JobMoves.insertJob_refused (Jobs.newJob ident goal
        ((RunAt.given runAt).getD (clock 1)) 3 (some principal) (clock 0)) (clock 0) s (.inr taken)
      exact ⟨e, inserts.trans raised⟩
    · exact refused

theorem sqlite_lawful : Lawful JobCreation.sqlite sqliteTerms where
  counted room := atomically_of_ok (countJob_counted room)
  full full := by
    obtain ⟨e, raised⟩ := countJob_full full
    exact ⟨e, atomically_of_error raised⟩
  accepted aware accepts := sqlite_accepted aware accepts
  refused _ refuses := sqlite_refused refuses
  claimed named hashed free := sqlite_claimed named hashed free
  blocked named hashed live := sqlite_blocked named hashed live
  misnamed misnamed := sqlite_misnamed misnamed
  published named hashed encoded stored inTime := sqlite_published named hashed encoded stored inTime
  lost named hashed encoded gone := sqlite_lost named hashed encoded gone

def postgresTerms : Terms PgJobs.PgStore where
  room default principal day s :=
    Quotas.Postgres.fits s principal day = true ∧ HasRoom default principal day s
  accepts ident goal _ principal s := PgJobs.blank goal = false ∧ PgJobs.storesText goal = true ∧
    PgJobs.storesText principal = true ∧ s.jobs.find ident = none
  created principal day s := (s.jobs.select (fun j =>
    decide (j.principal = some principal ∧ quotaDay j.createdAt = day))).length
  leaseEnd clock := clock.inserted + CLAIM_LEASE
  checked clock := clock.published

theorem postgres_counted {s : QuotaStore}
    (room : postgresTerms.room default principal (quotaDay now) s) :
    Quotas.Postgres.consumeJob default principal now s =
      (.ok (chargedQuota default principal (quotaDay now) s), s.counted principal (quotaDay now)) := by
  refine atomically_of_ok ?_
  rw [run_bind_read, room.1, run_require_bind]
  exact countJob_counted room.2

theorem postgres_full {s : QuotaStore}
    (full : ¬ postgresTerms.room default principal (quotaDay now) s) :
    ∃ e, Quotas.Postgres.consumeJob default principal now s = (.error e, s) := by
  cases fits : Quotas.Postgres.fits s principal (quotaDay now) with
  | true =>
    obtain ⟨e, raised⟩ := countJob_full (fun room => full ⟨fits, room⟩)
    refine ⟨e, atomically_of_error (t := s.counted principal (quotaDay now)) ?_⟩
    rw [run_bind_read, fits, run_require_bind]
    exact raised
  | false =>
    refine ⟨.database PgJobs.outOfRange, atomically_of_error (t := s) ?_⟩
    rw [run_bind_read, fits, run_require_bind, if_neg Bool.false_ne_true]

theorem postgres_accepted {s : PgJobs.PgStore} (aware : runAt ≠ some .naive)
    (accepts : postgresTerms.accepts ident goal runAt principal s) :
    ∃ t, PgJobs.enqueue ident goal runAt 3 (some principal) clock s = (.ok ident, t) ∧
      ∀ other day, postgresTerms.created other day t = postgresTerms.created other day s +
        if other = principal ∧ day = quotaDay (clock 0) then 1 else 0 := by
  obtain ⟨visible, goalStored, principalStored, free⟩ := accepts
  have fresh : s.jobs.find (PgJobs.newJob ident goal ((RunAt.given runAt).getD (clock 0)) 3
      (some principal) (clock 0)).id = none := free
  have stored : LeaseCalls.stores (PgJobs.newJob ident goal ((RunAt.given runAt).getD (clock 0)) 3
      (some principal) (clock 0)) = true := by
    simp only [LeaseCalls.stores, PgJobs.newJob, goalStored, principalStored, Option.all_some]
    exact decide_eq_true (show (3 : Int) ≤ PgJobs.maxInteger by decide)
  have run := LeaseCalls.enqueue_aware ident goal 3 (some principal) clock s aware
  rw [visible, Bool.not_false] at run
  refine ⟨_, run.trans (LeaseCalls.insertJob_stored stored fresh), ?_⟩
  intro other day
  simp only [postgresTerms, LeaseCalls.inserted, length_insert, PgJobs.newJob, Option.some.injEq,
    eq_comm (a := principal), eq_comm (a := quotaDay (clock 0))]

theorem postgres_refused {s : PgJobs.PgStore} (aware : runAt ≠ some .naive)
    (refuses : ¬ postgresTerms.accepts ident goal runAt principal s) :
    ∃ e, PgJobs.enqueue ident goal runAt 3 (some principal) clock s = (.error e, s) := by
  have run := LeaseCalls.enqueue_aware ident goal 3 (some principal) clock s aware
  cases visible : PgJobs.blank goal with
  | true =>
    rw [visible, Bool.not_true, Bool.false_and] at run
    exact ⟨_, run⟩
  | false =>
    rw [visible, Bool.not_false, if_pos (by decide)] at run
    obtain ⟨e, raised⟩ := LeaseCalls.insertJob_refused (PgJobs.newJob ident goal
      ((RunAt.given runAt).getD (clock 0)) 3 (some principal) (clock 0)) (RunAt.given runAt) (clock 1)
      s (by
        by_cases taken : ∃ other, s.jobs.find ident = some other
        · exact .inr taken
        · refine .inl (Bool.eq_false_iff.mpr (fun stored => refuses ?_))
          have parts := Bool.and_eq_true_iff.mp (Bool.and_eq_true_iff.mp stored).1
          exact ⟨visible, parts.1, parts.2,
            Option.eq_none_iff_forall_ne_some.mpr (fun other there => taken ⟨other, there⟩)⟩)
    exact ⟨e, run.trans raised⟩

theorem postgres_lawful : Lawful JobCreation.postgres postgresTerms where
  counted room := postgres_counted room
  full full := postgres_full full
  accepted aware accepts := postgres_accepted aware accepts
  refused aware refuses := postgres_refused aware refuses
  claimed named hashed free := postgres_claimed named hashed free
  blocked named hashed live := postgres_blocked named hashed live
  misnamed misnamed := postgres_misnamed misnamed
  published named hashed encoded stored inTime :=
    postgres_published named hashed encoded stored inTime
  lost named hashed encoded gone := postgres_lost named hashed encoded gone

end Meemee.Guarantees.CreationSteps
