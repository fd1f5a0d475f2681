import Meemee.Guarantees.CreationSteps
import Meemee.Guarantees.JsonText

/-!
# A created job is a counted job

The route counts a job before it enqueues it, and nothing takes the count back. A request
that comes as far as the quota leaves all three stores consistent exactly when everything
after the count succeeds.
-/
namespace Meemee.Guarantees.JobBooking
open Library Library.History Source Source.Jobs Source.Idempotency Library.Txn
open Source.Quotas Source.JobCreation Guarantees.IdempotencyOwnership
open Guarantees.CreationSteps

section Route

variable {σ : Type} (d : Persistence σ) (terms : Terms σ) (settings : Settings)
  (sha256 : String → String) (fromisoformat : String → Option RunAt)

/-- One request is one step. -/
def step (api : Api σ) (call : Call) : Except Failure Json × Api σ :=
  createJob d settings sha256 fromisoformat call api

abbrev Step (σ : Type) := Event (Api σ) Call (Except Failure Json)

/-- The route up to the count: `none` when a stored response is answered instead. -/
def untilCounted (call : Call) : ApiTxn σ (Option (Option RunAt × Quota)) := do
  let cached ← claimKey d sha256 call
  match cached with
  | some _ => return none
  | none => do
    let charged ← charge d settings fromisoformat call
    return some charged

/-- An error that the route raises after the count leaves the stores as they were. -/
def AllOrNothing (e : Step σ) : Prop :=
  ∀ charged at_, untilCounted d settings sha256 fromisoformat e.action e.before =
      (.ok (some charged), at_) →
    ∀ failure, e.answer = .error failure →
      e.after.quotas.used e.action.principal (quotaDay e.action.clock.charged) =
          e.before.quotas.used e.action.principal (quotaDay e.action.clock.charged) ∧
        e.after.jobs = e.before.jobs ∧ e.after.idempotency = e.before.idempotency

/-- Between two states every principal's usage of every day grew by the jobs created. -/
def Counted (from_ to_ : Api σ) : Prop :=
  ∀ principal day, to_.quotas.used principal day - from_.quotas.used principal day =
    terms.created principal day to_.jobs - terms.created principal day from_.jobs

/-- The request reaches the quota, with a free key and a readable time, and has room there. -/
structure Reaches (api : Api σ) (call : Call) : Prop where
  keyFree : ∀ key, call.key = some key → key.key.length ≤ 200 ∧
    ∀ row, api.idempotency.find key = some row →
      row.expiresAt ≤ call.clock.claimed ∨ row.expiresAt ≤ call.clock.read
  timed : (parseRunAt fromisoformat call.request.runAt).isOk = true
  room : terms.room settings.defaultDailyJobs call.principal (quotaDay call.clock.charged) api.quotas

/-- What comes after the count succeeds, on the same day. -/
structure Completes (api : Api σ) (call : Call) : Prop where
  accepted : ∀ runAt, parseRunAt fromisoformat call.request.runAt = .ok runAt →
    terms.accepts call.ident call.request.goal runAt call.principal api.jobs
  enqueued : call.enqueueFault = .ok ()
  sameDay : quotaDay (call.clock.queued 0) = quotaDay call.clock.charged
  /-- The claim took the key, and lasts until the response is stored. -/
  keyKept : ∀ key, call.key = some key →
    (∀ row, api.idempotency.find key = some row → row.expiresAt ≤ call.clock.claimed) ∧
      terms.checked call.clock < terms.leaseEnd call.clock ∧ call.putFault = .ok ()
  audited : call.audit = .ok ()

/-- A request that is counted is completed. -/
def Meets (e : Step σ) : Prop :=
  Reaches terms settings fromisoformat e.before e.action →
    Completes terms fromisoformat e.before e.action

end Route

variable {key : Key} {runAt : Option RunAt} {t : Records}

section Steps

variable {σ : Type} {d : Persistence σ} {terms : Terms σ} {settings : Settings}
  {sha256 : String → String} {fromisoformat : String → Option RunAt} {api : Api σ} {call : Call}

theorem requestHash_dump (sha256 : String → String) (r : JobRequest) :
    ∃ digest, requestHash sha256 r.modelDump = .ok digest := by
  have answers := JsonText.dumps_answers hashOptions r.modelDump
  have encodes : JsonText.encodable hashOptions r.modelDump = true := by
    cases given : r.runAt <;>
      simp [JobRequest.modelDump, given, JsonText.encodable, JsonText.fieldsEncodable]
  rw [encodes] at answers
  unfold requestHash
  cases written : Json.dumps hashOptions r.modelDump with
  | ok text => exact ⟨sha256 text, rfl⟩
  | error e =>
    rw [written] at answers
    cases answers.1

theorem encodeResponse_job (ident : String) (quota : Quota) :
    (encodeResponse (responseOf ident quota)).isOk = true := by
  have answers := JsonText.dumps_answers { defaultStr := true, allowNan := false }
    (responseOf ident quota)
  cases written : Json.dumps { defaultStr := true, allowNan := false } (responseOf ident quota) with
  | ok text => rfl
  | error e =>
    rw [written] at answers
    cases answers.1

theorem key_named (keyed : call.key = some key) : key.key ≠ "" := by
  obtain ⟨text, kept, rfl⟩ := Option.map_eq_some_iff.mp keyed
  exact of_decide_eq_true (Option.filter_eq_some_iff.mp kept).2

theorem parsed_aware {text : Option String} (parsed : parseRunAt fromisoformat text = .ok runAt) :
    runAt ≠ some .naive := by
  unfold parseRunAt at parsed
  rintro rfl
  split at parsed
  · cases parsed
  · split at parsed
    · cases parsed
    · split at parsed <;> cases parsed

theorem not_live_iff {now : Instant} :
    ¬ LiveRow t key now ↔ ∀ row, t.find key = some row → row.expiresAt ≤ now := by
  simp only [LiveRow, not_exists, not_and, Int.not_lt]

/-- `get` after a claim that inserted nothing drops the expired rows twice. -/
theorem find_dropped {claimed : Instant} (read : Instant) {row : Row}
    (found : t.find key = some row) (live : claimed < row.expiresAt) :
    (dropExpired read (dropExpired claimed t)).find key =
      if row.expiresAt ≤ read then none else some row := by
  have kept : (dropExpired claimed t).find key = some row := by
    rw [dropExpired, Table.find_delete, found]
    simpa using live
  rw [dropExpired, Table.find_delete, kept]
  by_cases late : row.expiresAt ≤ read <;> simp [late]

variable (sha256) in
/-- A free key: the claim answers `None`, and the table holds the claim or nothing. -/
theorem claimKey_free (lawful : Lawful d terms)
    (free : ∀ key, call.key = some key → key.key.length ≤ 200 ∧
      ∀ row, api.idempotency.find key = some row →
        row.expiresAt ≤ call.clock.claimed ∨ row.expiresAt ≤ call.clock.read) :
    ∃ t, claimKey d sha256 call api = (.ok none, { api with idempotency := t }) ∧
      ∀ key digest, call.key = some key →
        requestHash sha256 call.request.modelDump = .ok digest →
        (LiveRow api.idempotency key call.clock.claimed → t.find key = none) ∧
        (¬ LiveRow api.idempotency key call.clock.claimed →
          t.find key = some (claimedRow key digest (terms.leaseEnd call.clock) call.claimToken)) := by
  cases keyed : call.key with
  | none =>
    refine ⟨api.idempotency, ?_, fun _ _ absent => absurd absent (by simp)⟩
    simp only [claimKey, keyed]
    rfl
  | some key =>
    obtain ⟨short, expired⟩ := free key keyed
    have named : key.key ≠ "" ∧ key.key.length ≤ 200 := ⟨key_named keyed, short⟩
    obtain ⟨digest, hashed⟩ := requestHash_dump sha256 call.request
    simp only [claimKey, keyed, Option.some.injEq, hashed, Except.ok.injEq]
    by_cases live : LiveRow api.idempotency key call.clock.claimed
    · obtain ⟨row, found, unexpired⟩ := live
      have late : row.expiresAt ≤ call.clock.read :=
        (expired row found).resolve_left (Int.not_le.mpr unexpired)
      have gone := find_dropped call.clock.read found unexpired
      rw [if_pos late] at gone
      refine ⟨dropExpired call.clock.read (dropExpired call.clock.claimed api.idempotency),
        within_returned ?_, ?_⟩
      · rw [JobCreation.claim, run_bind_ok (lawful.blocked named hashed ⟨row, found, unexpired⟩),
          if_neg Bool.false_ne_true, get_run hashed, gone]
        rfl
      · rintro _ _ rfl rfl
        exact ⟨fun _ => gone, fun dead => absurd ⟨row, found, unexpired⟩ dead⟩
    · obtain ⟨u, claimed, stored⟩ := lawful.claimed named hashed live
      refine ⟨_, within_returned (t := u) ?_, ?_⟩
      · rw [JobCreation.claim, run_bind_ok claimed, if_pos rfl]
        rfl
      · rintro _ _ rfl rfl
        exact ⟨fun alive => absurd alive live, fun _ => stored⟩

variable (sha256) in
theorem claimKey_taken (lawful : Lawful d terms) (keyed : call.key = some key)
    (taken : ¬ (key.key.length ≤ 200 ∧ ∀ row, api.idempotency.find key = some row →
        row.expiresAt ≤ call.clock.claimed ∨ row.expiresAt ≤ call.clock.read)) :
    ∃ answer t, claimKey d sha256 call api = (answer, { api with idempotency := t }) ∧
      answer ≠ .ok none := by
  simp only [claimKey, keyed]
  by_cases short : key.key.length ≤ 200
  · have named : key.key ≠ "" ∧ key.key.length ≤ 200 := ⟨key_named keyed, short⟩
    obtain ⟨digest, hashed⟩ := requestHash_dump sha256 call.request
    obtain ⟨row, standing⟩ := not_forall.mp (fun expired => taken ⟨short, expired⟩)
    obtain ⟨found, standing⟩ := Classical.not_imp.mp standing
    obtain ⟨unclaimed, unread⟩ := not_or.mp standing
    have unexpired := Int.not_le.mp unclaimed
    have kept := find_dropped call.clock.read found unexpired
    rw [if_neg unread] at kept
    have run : JobCreation.claim d sha256 call.clock key call.request.modelDump call.claimToken
        api.idempotency = (answer digest (some row),
          dropExpired call.clock.read (dropExpired call.clock.claimed api.idempotency)) := by
      rw [JobCreation.claim, run_bind_ok (lawful.blocked named hashed ⟨row, found, unexpired⟩),
        if_neg Bool.false_ne_true, get_run hashed, kept]
    cases told : answer digest (some row) with
    | error e =>
      rw [told] at run
      exact ⟨_, _, within_raised run, nofun⟩
    | ok cached =>
      rw [told] at run
      refine ⟨_, _, within_returned run, ?_⟩
      intro none_
      cases none_
      cases answer_none_iff.mp told
  · obtain ⟨e, raised⟩ := lawful.misnamed
      (t := api.idempotency) (fun named => short named.2)
    exact ⟨_, _, within_raised (run_bind_error raised), nofun⟩

variable (api) in
theorem charge_counted (lawful : Lawful d terms)
    (parsed : parseRunAt fromisoformat call.request.runAt = .ok runAt)
    (room : terms.room settings.defaultDailyJobs call.principal (quotaDay call.clock.charged)
      api.quotas) :
    ∃ quota, charge d settings fromisoformat call api = (.ok (runAt, quota),
      { api with quotas := api.quotas.counted call.principal (quotaDay call.clock.charged) }) := by
  refine ⟨chargedQuota settings.defaultDailyJobs call.principal (quotaDay call.clock.charged)
    api.quotas, ?_⟩
  rw [charge, parsed, run_bind_ok (run_ofExcept _ _)]
  exact run_bind_ok (within_returned (lawful.counted room))

variable (api) in
theorem charge_refused (lawful : Lawful d terms)
    (refused : ¬ ((parseRunAt fromisoformat call.request.runAt).isOk = true ∧
      terms.room settings.defaultDailyJobs call.principal (quotaDay call.clock.charged)
        api.quotas)) : ∃ e, charge d settings fromisoformat call api = (.error e, api) := by
  unfold charge
  cases parsed : parseRunAt fromisoformat call.request.runAt with
  | error e => exact ⟨e, run_bind_error (run_ofExcept _ _)⟩
  | ok runAt =>
    rw [parsed] at refused
    obtain ⟨e, full⟩ := lawful.full (fun room => refused ⟨rfl, room⟩)
    refine ⟨quotaFailure e, ?_⟩
    rw [run_bind_ok (run_ofExcept _ _)]
    exact run_bind_error (within_raised full)

/-- The queue holds one more job of the principal and the day. -/
def Created (terms : Terms σ) (call : Call) (before after : σ) : Prop :=
  ∀ other day, terms.created other day after = terms.created other day before +
    if other = call.principal ∧ day = quotaDay (call.clock.queued 0) then 1 else 0

variable (api) in
theorem enqueueJob_accepted (lawful : Lawful d terms) (aware : runAt ≠ some .naive)
    (accepts : terms.accepts call.ident call.request.goal runAt call.principal api.jobs)
    (sound : call.enqueueFault = .ok ()) :
    ∃ t, enqueueJob d call runAt api = (.ok call.ident, { api with jobs := t }) ∧
      Created terms call api.jobs t := by
  obtain ⟨t, stored, created⟩ := lawful.accepted aware accepts
  refine ⟨t, ?_, created⟩
  unfold enqueueJob onJobs
  rw [sound]
  exact within_returned ((run_bind_ok (run_ofExcept _ _)).trans stored)

variable (api) in
theorem enqueueJob_refused (lawful : Lawful d terms) (aware : runAt ≠ some .naive)
    (refuses : ¬ (terms.accepts call.ident call.request.goal runAt call.principal api.jobs ∧
      call.enqueueFault = .ok ())) : ∃ e, enqueueJob d call runAt api = (.error e, api) := by
  unfold enqueueJob onJobs
  cases fault : call.enqueueFault with
  | error e =>
    exact ⟨.raised e, within_raised (t := api.jobs) (run_bind_error (run_ofExcept _ _))⟩
  | ok =>
    obtain ⟨e, raised⟩ := lawful.refused aware
      (fun accepts => refuses ⟨accepts, fault⟩)
    exact ⟨.raised e, within_raised ((run_bind_ok (run_ofExcept _ _)).trans raised)⟩

theorem releaseKey_returns (call : Call) (api : Api σ) :
    ∃ t, releaseKey call api = (.ok (), { api with idempotency := t }) := by
  unfold releaseKey
  cases call.key with
  | none => exact ⟨api.idempotency, rfl⟩
  | some key => exact ⟨_, within_returned (atomically_of_ok (run_write _ _))⟩

variable (api) in
theorem putResponse_stored (lawful : Lawful d terms) (ident : String) (quota : Quota)
    (kept : ∀ key digest, call.key = some key →
      requestHash sha256 call.request.modelDump = .ok digest → key.key.length ≤ 200 ∧
      api.idempotency.find key =
          some (claimedRow key digest (terms.leaseEnd call.clock) call.claimToken) ∧
        terms.checked call.clock < terms.leaseEnd call.clock ∧ call.putFault = .ok ()) :
    ∃ t, putResponse d settings sha256 call (responseOf ident quota) api =
      (.ok (), { api with idempotency := t }) := by
  unfold putResponse
  cases keyed : call.key with
  | none => exact ⟨api.idempotency, rfl⟩
  | some key =>
    obtain ⟨digest, hashed⟩ := requestHash_dump sha256 call.request
    obtain ⟨short, stored, inTime, sound⟩ := kept key digest keyed hashed
    obtain ⟨t, published⟩ := lawful.published ⟨key_named keyed, short⟩ hashed
      (encodeResponse_job ident quota) stored inTime
    refine ⟨t, within_returned ?_⟩
    rw [sound, run_bind_ok (run_ofExcept _ _)]
    exact published

variable (api) in
theorem putResponse_lost (lawful : Lawful d terms) (ident : String) (quota : Quota)
    {digest : String} (keyed : call.key = some key) (short : key.key.length ≤ 200)
    (hashed : requestHash sha256 call.request.modelDump = .ok digest)
    (lost : call.putFault ≠ .ok () ∨ api.idempotency.find key = none ∨
      (api.idempotency.find key =
          some (claimedRow key digest (terms.leaseEnd call.clock) call.claimToken) ∧
        terms.leaseEnd call.clock ≤ terms.checked call.clock)) :
    ∃ e t, putResponse d settings sha256 call (responseOf ident quota) api =
      (.error e, { api with idempotency := t }) := by
  simp only [putResponse, keyed]
  cases fault : call.putFault with
  | error e =>
    refine ⟨_, _, within_raised (t := api.idempotency) (e := e) ?_⟩
    exact run_bind_error (run_ofExcept _ _)
  | ok =>
    have gone := @Lawful.lost _ _ _ lawful _ _ settings.ttl _ _ _ _ _ _ ⟨key_named keyed, short⟩ hashed
      (encodeResponse_job ident quota) (lost.resolve_left (fun bad => bad fault))
    refine ⟨_, _, within_raised (t := api.idempotency) (e := ownershipLost) ?_⟩
    rw [run_bind_ok (run_ofExcept _ _)]
    exact gone

variable (reaches : Reaches terms settings fromisoformat api call)

/-- The state once the job is counted. -/
def counted (api : Api σ) (call : Call) (t : Records) : Api σ :=
  { api with
    idempotency := t
    quotas := api.quotas.counted call.principal (quotaDay call.clock.charged) }

variable (sha256) in
include reaches in
theorem reaches_counted (lawful : Lawful d terms) :
    ∃ runAt quota t, parseRunAt fromisoformat call.request.runAt = .ok runAt ∧
      claimKey d sha256 call api = (.ok none, { api with idempotency := t }) ∧
      charge d settings fromisoformat call { api with idempotency := t } =
        (.ok (runAt, quota), counted api call t) ∧
      ∀ key digest, call.key = some key →
        requestHash sha256 call.request.modelDump = .ok digest →
        (LiveRow api.idempotency key call.clock.claimed → t.find key = none) ∧
        (¬ LiveRow api.idempotency key call.clock.claimed →
          t.find key = some (claimedRow key digest (terms.leaseEnd call.clock) call.claimToken)) := by
  obtain ⟨t, claimed, standing⟩ := claimKey_free sha256 lawful reaches.keyFree
  cases parsed : parseRunAt fromisoformat call.request.runAt with
  | error e =>
    have timed := reaches.timed
    rw [parsed] at timed
    cases timed
  | ok runAt =>
    obtain ⟨quota, charged⟩ := charge_counted { api with idempotency := t }
      lawful parsed reaches.room
    exact ⟨runAt, quota, t, rfl, claimed, charged, standing⟩

/-- Everything after the count succeeds. -/
structure Succeeds (terms : Terms σ) (fromisoformat : String → Option RunAt) (api : Api σ)
    (call : Call) : Prop where
  accepted : ∀ runAt, parseRunAt fromisoformat call.request.runAt = .ok runAt →
    terms.accepts call.ident call.request.goal runAt call.principal api.jobs
  enqueued : call.enqueueFault = .ok ()
  keyKept : ∀ key, call.key = some key →
    (∀ row, api.idempotency.find key = some row → row.expiresAt ≤ call.clock.claimed) ∧
      terms.checked call.clock < terms.leaseEnd call.clock ∧ call.putFault = .ok ()
  audited : call.audit = .ok ()

theorem step_claimed
    (claimed : claimKey d sha256 call api = (.ok none, { api with idempotency := t })) :
    step d settings sha256 fromisoformat api call =
      (bookJob d settings fromisoformat call >>= finishJob d settings sha256 call)
        { api with idempotency := t } := by
  rw [step, createJob, run_bind_ok claimed]

theorem bookJob_accepted {quota : Quota} {jobs : σ}
    (charged : charge d settings fromisoformat call { api with idempotency := t } =
      (.ok (runAt, quota), counted api call t))
    (stored : enqueueJob d call runAt (counted api call t) =
      (.ok call.ident, { counted api call t with jobs := jobs })) :
    bookJob d settings fromisoformat call { api with idempotency := t } =
      (.ok (call.ident, quota), { counted api call t with jobs := jobs }) := by
  apply onRaise_returned
  rw [run_bind_ok charged]
  exact run_bind_ok stored

theorem finishJob_stored {at_ : Api σ} {ident : String} {quota : Quota} {u : Records}
    (put : putResponse d settings sha256 call (responseOf ident quota) at_ =
      (.ok (), { at_ with idempotency := u })) :
    finishJob d settings sha256 call (ident, quota) at_ =
      ((call.audit.mapError .raised).map (fun _ => responseOf ident quota),
        { at_ with idempotency := u }) := by
  rw [finishJob, run_bind_ok put]
  cases call.audit <;> rfl

variable (sha256) in
include reaches in
theorem step_succeeds (lawful : Lawful d terms) (succeeds : Succeeds terms fromisoformat api call) :
    ∃ response after, step d settings sha256 fromisoformat api call = (.ok response, after) ∧
      after.quotas = api.quotas.counted call.principal (quotaDay call.clock.charged) ∧
      Created terms call api.jobs after.jobs := by
  obtain ⟨runAt, quota, t, parsed, claimed, charged, standing⟩ :=
    reaches_counted sha256 reaches lawful
  obtain ⟨jobs, stored, created⟩ := enqueueJob_accepted (counted api call t) lawful
    (parsed_aware parsed) (succeeds.accepted runAt parsed) succeeds.enqueued
  obtain ⟨u, put⟩ := putResponse_stored { counted api call t with jobs := jobs } lawful
    call.ident quota (by
      intro key digest keyed hashed
      obtain ⟨expired, inTime, sound⟩ := succeeds.keyKept key keyed
      exact ⟨(reaches.keyFree key keyed).1,
        (standing key digest keyed hashed).2 (not_live_iff.mpr expired), inTime, sound⟩)
  have finished := finishJob_stored put
  rw [succeeds.audited] at finished
  refine ⟨responseOf call.ident quota, { counted api call t with jobs := jobs, idempotency := u },
    ?_, rfl, created⟩
  rw [step_claimed claimed, run_bind_ok (bookJob_accepted charged stored)]
  exact finished

variable (sha256) in
include reaches in
theorem step_fails (lawful : Lawful d terms) (fails : ¬ Succeeds terms fromisoformat api call) :
    ∃ failure after, step d settings sha256 fromisoformat api call = (.error failure, after) ∧
      after.quotas = api.quotas.counted call.principal (quotaDay call.clock.charged) := by
  obtain ⟨runAt, quota, t, parsed, claimed, charged, standing⟩ :=
    reaches_counted sha256 reaches lawful
  by_cases accepts : terms.accepts call.ident call.request.goal runAt call.principal api.jobs ∧
      call.enqueueFault = .ok ()
  · obtain ⟨jobs, stored, created⟩ := enqueueJob_accepted (counted api call t) lawful
      (parsed_aware parsed) accepts.1 accepts.2
    have booked := bookJob_accepted charged stored
    by_cases kept : ∀ key, call.key = some key →
        (∀ row, api.idempotency.find key = some row → row.expiresAt ≤ call.clock.claimed) ∧
          terms.checked call.clock < terms.leaseEnd call.clock ∧ call.putFault = .ok ()
    · cases audited : call.audit with
      | ok =>
        refine absurd ⟨?_, accepts.2, kept, audited⟩ fails
        intro other again
        rw [parsed] at again
        cases again
        exact accepts.1
      | error e =>
        obtain ⟨u, put⟩ := putResponse_stored { counted api call t with jobs := jobs } lawful
          call.ident quota (by
            intro key digest keyed hashed
            obtain ⟨expired, inTime, sound⟩ := kept key keyed
            exact ⟨(reaches.keyFree key keyed).1,
              (standing key digest keyed hashed).2 (not_live_iff.mpr expired), inTime, sound⟩)
        have finished := finishJob_stored put
        rw [audited] at finished
        refine ⟨.raised e, { counted api call t with jobs := jobs, idempotency := u }, ?_, rfl⟩
        rw [step_claimed claimed, run_bind_ok booked]
        exact finished
    · obtain ⟨key, broken⟩ := not_forall.mp kept
      obtain ⟨keyed, broken⟩ := Classical.not_imp.mp broken
      obtain ⟨digest, hashed⟩ := requestHash_dump sha256 call.request
      obtain ⟨gone, there⟩ := standing key digest keyed hashed
      obtain ⟨e, u, lost⟩ := putResponse_lost { counted api call t with jobs := jobs } lawful
        call.ident quota keyed
        (reaches.keyFree key keyed).1 hashed (by
          by_cases sound : call.putFault = .ok ()
          · refine .inr ?_
            by_cases live : LiveRow api.idempotency key call.clock.claimed
            · exact .inl (gone live)
            · refine .inr ⟨there live, ?_⟩
              exact Int.not_lt.mp (fun inTime => broken ⟨not_live_iff.mp live, inTime, sound⟩)
          · exact .inl sound)
      refine ⟨e, { counted api call t with jobs := jobs, idempotency := u }, ?_, rfl⟩
      rw [step_claimed claimed, run_bind_ok booked]
      exact run_bind_error lost
  · obtain ⟨e, refused⟩ := enqueueJob_refused (counted api call t) lawful
      (parsed_aware parsed) accepts
    obtain ⟨u, released⟩ := releaseKey_returns call (counted api call t)
    refine ⟨e, { counted api call t with idempotency := u }, ?_, rfl⟩
    rw [step_claimed claimed]
    apply run_bind_error
    refine onRaise_raised (t := counted api call t) ?_ released
    rw [run_bind_ok charged]
    exact run_bind_error refused

variable (sha256) in
theorem step_unreached (lawful : Lawful d terms)
    (short : ¬ Reaches terms settings fromisoformat api call) :
    (∀ charged at_, untilCounted d settings sha256 fromisoformat call api ≠
      (.ok (some charged), at_)) ∧
    (step d settings sha256 fromisoformat api call).2.quotas = api.quotas ∧
      (step d settings sha256 fromisoformat api call).2.jobs = api.jobs := by
  by_cases free : ∀ key, call.key = some key → key.key.length ≤ 200 ∧
      ∀ row, api.idempotency.find key = some row →
        row.expiresAt ≤ call.clock.claimed ∨ row.expiresAt ≤ call.clock.read
  · obtain ⟨t, claimed, -⟩ := claimKey_free sha256 lawful free
    obtain ⟨e, refused⟩ := charge_refused { api with idempotency := t } lawful
      (fun ready => short ⟨free, ready.1, ready.2⟩)
    obtain ⟨u, released⟩ := releaseKey_returns call { api with idempotency := t }
    constructor
    · intro charged at_ run
      rw [untilCounted, run_bind_ok claimed] at run
      have stopped := (run_bind_error refused).symm.trans run
      cases stopped
    · have booked : bookJob d settings fromisoformat call { api with idempotency := t } =
          (.error e, { api with idempotency := u }) :=
        onRaise_raised (run_bind_error refused) released
      rw [step_claimed claimed, run_bind_error booked]
      exact ⟨rfl, rfl⟩
  · obtain ⟨key, taken⟩ := not_forall.mp free
    obtain ⟨keyed, taken⟩ := Classical.not_imp.mp taken
    obtain ⟨answer, t, claimed, told⟩ := claimKey_taken sha256 lawful keyed taken
    cases answer with
    | error e =>
      constructor
      · intro charged at_ run
        rw [untilCounted, run_bind_error claimed] at run
        cases run
      · rw [step, createJob, run_bind_error claimed]
        exact ⟨rfl, rfl⟩
    | ok cached =>
      cases cached with
      | none => exact absurd rfl told
      | some response =>
        constructor
        · intro charged at_ run
          rw [untilCounted, run_bind_ok claimed] at run
          cases run
        · rw [step, createJob, run_bind_ok claimed]
          exact ⟨rfl, rfl⟩

theorem used_after (call : Call) (before : QuotaStore) (other : String) (day : Int) :
    (before.counted call.principal (quotaDay call.clock.charged)).used other day -
      before.used other day =
        if other = call.principal ∧ day = quotaDay call.clock.charged then 1 else 0 := by
  rw [used_counted]
  omega

variable (settings sha256 fromisoformat call) in
theorem request_iff (lawful : Lawful d terms) {start : Api σ} (sofar : Counted terms start api) :
    (AllOrNothing d settings sha256 fromisoformat
        ⟨api, call, (step d settings sha256 fromisoformat api call).1,
          (step d settings sha256 fromisoformat api call).2⟩ ∧
      Counted terms start (step d settings sha256 fromisoformat api call).2) ↔
    Meets terms settings fromisoformat
      (⟨api, call, (step d settings sha256 fromisoformat api call).1,
        (step d settings sha256 fromisoformat api call).2⟩ : Step σ) := by
  by_cases reaches : Reaches terms settings fromisoformat api call
  · by_cases succeeds : Succeeds terms fromisoformat api call
    · obtain ⟨response, after, run, quotas, created⟩ :=
        step_succeeds sha256 reaches lawful succeeds
      rw [run]
      have grown : Counted terms start after ↔
          quotaDay (call.clock.queued 0) = quotaDay call.clock.charged := by
        constructor
        · intro balanced
          have here := balanced call.principal (quotaDay call.clock.charged)
          have before := sofar call.principal (quotaDay call.clock.charged)
          have used := used_after call api.quotas call.principal (quotaDay call.clock.charged)
          rw [quotas, created] at here
          by_contra other
          rw [if_pos ⟨rfl, rfl⟩] at used
          rw [if_neg (fun same => other same.2.symm)] at here
          omega
        · intro sameDay principal day
          have before := sofar principal day
          have used := used_after call api.quotas principal day
          rw [quotas, created, sameDay]
          omega
      rw [grown]
      constructor
      · rintro ⟨-, sameDay⟩ -
        exact ⟨succeeds.accepted, succeeds.enqueued, sameDay, succeeds.keyKept, succeeds.audited⟩
      · intro meets
        refine ⟨?_, (meets reaches).sameDay⟩
        intro charged at_ _ failure answered
        cases answered
    · obtain ⟨failure, after, run, quotas⟩ :=
        step_fails sha256 reaches lawful succeeds
      obtain ⟨runAt, quota, t, -, claimed, charged, -⟩ :=
        reaches_counted sha256 reaches lawful
      rw [run]
      constructor
      · rintro ⟨whole, -⟩
        have reached : untilCounted d settings sha256 fromisoformat call api =
            (.ok (some (runAt, quota)), counted api call t) := by
          rw [untilCounted, run_bind_ok claimed]
          exact run_bind_ok charged
        have kept := (whole _ _ reached failure rfl).1
        have used := used_after call api.quotas call.principal (quotaDay call.clock.charged)
        rw [if_pos ⟨rfl, rfl⟩, ← quotas] at used
        simp only at kept
        omega
      · intro meets
        have done := meets reaches
        exact absurd ⟨done.accepted, done.enqueued, done.keyKept, done.audited⟩ succeeds
  · obtain ⟨uncounted, quotas, jobs⟩ :=
      step_unreached sha256 lawful reaches
    refine iff_of_true ⟨?_, ?_⟩ (fun reached => absurd reached reaches)
    · intro charged at_ run
      exact absurd run (uncounted charged at_)
    · intro principal day
      rw [quotas, jobs]
      exact sofar principal day

theorem requests_iff (lawful : Lawful d terms) {start : Api σ} {api : Api σ}
    (sofar : Counted terms start api) (calls : List Call) :
    (∀ e ∈ history (step d settings sha256 fromisoformat) api calls,
        AllOrNothing d settings sha256 fromisoformat e ∧ Counted terms start e.after) ↔
      ∀ e ∈ history (step d settings sha256 fromisoformat) api calls,
        Meets terms settings fromisoformat e := by
  induction calls generalizing api with
  | nil => simp
  | cons call rest ih =>
    have one := request_iff settings sha256 fromisoformat call lawful sofar
    rw [history_cons, List.forall_mem_cons, List.forall_mem_cons, one]
    constructor
    · rintro ⟨first, others⟩
      exact ⟨first, (ih (one.mpr first).2).mp others⟩
    · rintro ⟨first, others⟩
      exact ⟨first, (ih (one.mpr first).2).mpr others⟩

end Steps

theorem counted_refl {σ : Type} (terms : Terms σ) (api : Api σ) : Counted terms api api :=
  fun _ _ => by omega

/-- Over every run of requests, from every state: an error after the count leaves the stores as
they were, and usage grows with the jobs created, exactly when every request that is counted
completes. -/
theorem job_creation_iff (settings : Settings) (sha256 : String → String)
    (fromisoformat : String → Option RunAt) (calls : List Call) :
    (∀ api : Api JobStore,
      (∀ e ∈ history (step sqlite settings sha256 fromisoformat) api calls,
          AllOrNothing sqlite settings sha256 fromisoformat e ∧ Counted sqliteTerms api e.after) ↔
        ∀ e ∈ history (step sqlite settings sha256 fromisoformat) api calls,
          Meets sqliteTerms settings fromisoformat e) ∧
    (∀ api : Api PgJobs.PgStore,
      (∀ e ∈ history (step postgres settings sha256 fromisoformat) api calls,
          AllOrNothing postgres settings sha256 fromisoformat e ∧
            Counted postgresTerms api e.after) ↔
        ∀ e ∈ history (step postgres settings sha256 fromisoformat) api calls,
          Meets postgresTerms settings fromisoformat e) :=
  ⟨fun api => requests_iff sqlite_lawful (counted_refl _ api) calls,
    fun api => requests_iff postgres_lawful (counted_refl _ api) calls⟩

def noon : JobCreation.Clock := ⟨0, 0, 0, 0, fun _ => 0, 0, 0⟩

def adasCall (request : JobRequest) : Call :=
  ⟨request, "ada", none, "token", "j", noon, .ok (), .ok (), .ok ()⟩

/-- Two blanks are a goal to the request model and none to the PostgreSQL queue. -/
def blankGoal : Call := adasCall ⟨"  ", none, by decide⟩

/-- One in the morning of the first day, an hour east of Greenwich. -/
def firstMorning : Call := adasCall ⟨"plan", some "0001-01-01T00:00:00+01:00", by decide⟩

/-- `datetime.fromisoformat` on that text. -/
def parseMorning (text : String) : Option RunAt :=
  if text = "0001-01-01T00:00:00+01:00" then some (.aware (firstInstant - 3600000000)) else none

def empty {σ : Type} (jobs : σ) : Api σ := ⟨Table.empty, QuotaStore.empty, jobs⟩

/-- Both requests are refused, and both stay counted. -/
theorem refused_stays_counted :
    ¬ AllOrNothing postgres ⟨100, 0⟩ id parseMorning
        ⟨empty PgJobs.PgStore.empty, blankGoal,
          (step postgres ⟨100, 0⟩ id parseMorning (empty PgJobs.PgStore.empty) blankGoal).1,
          (step postgres ⟨100, 0⟩ id parseMorning (empty PgJobs.PgStore.empty) blankGoal).2⟩ ∧
      ¬ AllOrNothing sqlite ⟨100, 0⟩ id parseMorning
        ⟨empty JobStore.empty, firstMorning,
          (step sqlite ⟨100, 0⟩ id parseMorning (empty JobStore.empty) firstMorning).1,
          (step sqlite ⟨100, 0⟩ id parseMorning (empty JobStore.empty) firstMorning).2⟩ := by
  constructor
  · intro whole
    have kept := (whole (none, ⟨0, 1, 100, 99⟩) _ rfl
      (.raised (.valueError "goal and positive max_attempts required")) rfl).1
    exact absurd kept (by decide)
  · intro whole
    have kept := (whole (some (.aware (firstInstant - 3600000000)), ⟨0, 1, 100, 99⟩) _ rfl
      (.raised (.overflowError "date value out of range")) rfl).1
    exact absurd kept (by decide)

end Meemee.Guarantees.JobBooking
