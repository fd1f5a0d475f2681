import Meemee.Guarantees.CreationSteps
import Meemee.Source.QuotaCalls

/-!
# Accounting of quotas

The stored count of a principal's day is the number of `consume_job` calls that succeeded, whatever
calls are interleaved. On PostgreSQL a session that has counted holds the row until it ends, so its
count is the next one and nobody else's; on a rollback the count was never there.
-/
namespace Meemee.Guarantees.QuotaAccounting
open Library Library.History Source Source.Quotas Source.QuotaCalls Option
open Guarantees.CreationSteps (HasRoom chargedQuota used_counted countJob_counted countJob_full)

section Local

variable (default : Int)

def localStep (s : QuotaStore) (c : Call) : Except Fault SQLite.Reply × QuotaStore :=
  SQLite.call default c s

abbrev LocalEvent := Event QuotaStore Call (Except Fault SQLite.Reply)

/-- A `consume_job` of the principal succeeded for the day. -/
def grantedLocally (principal : String) (day : Int) (e : LocalEvent) : Bool :=
  match e.action, e.answer with
  | .consumeJob caller _, .ok (.consumed q) => decide (caller = principal) && decide (q.day = day)
  | _, _ => false

/-- What a call answers, and that a call that raises changes nothing. -/
structure LocallyFair (e : LocalEvent) : Prop where
  granted : ∀ principal now q, e.action = .consumeJob principal now → e.answer = .ok (.consumed q) →
    q.limit = e.before.limit default principal ∧ q.used ≤ q.limit ∧
      q.remaining = q.limit - q.used ∧ 0 ≤ q.remaining ∧ e.after.used principal q.day = q.used
  raised : ∀ fault, e.answer = .error fault → e.after = e.before

theorem local_quiet (fault : Fault) {s : QuotaStore} {c : Call}
    (same : localStep default s c = (.error fault, s)) :
    LocallyFair default ⟨s, c, (localStep default s c).1, (localStep default s c).2⟩ ∧
      ∀ principal day, (localStep default s c).2.used principal day = s.used principal day +
        if grantedLocally principal day
          ⟨s, c, (localStep default s c).1, (localStep default s c).2⟩ then 1 else 0 := by
  rw [same]
  refine ⟨⟨nofun, fun _ _ => rfl⟩, fun principal day => ?_⟩
  cases c <;> simp [grantedLocally]

theorem local_step (s : QuotaStore) (c : Call) :
    LocallyFair default ⟨s, c, (localStep default s c).1, (localStep default s c).2⟩ ∧
      ∀ principal day, (localStep default s c).2.used principal day = s.used principal day +
        if grantedLocally principal day
          ⟨s, c, (localStep default s c).1, (localStep default s c).2⟩ then 1 else 0 := by
  cases c with
  | consumeJob caller now =>
    cases now with
    | none => exact local_quiet default _ rfl
    | some now =>
      by_cases room : HasRoom default caller (quotaDay now) s
      · have consumed := Txn.atomically_of_ok (countJob_counted room)
        have run : localStep default s (.consumeJob caller (some now)) =
            (.ok (.consumed (chargedQuota default caller (quotaDay now) s)),
              s.counted caller (quotaDay now)) := by
          simp only [localStep, SQLite.call, Quotas.SQLite.consumeJob, consumed]
          rfl
        rw [run]
        constructor
        · constructor
          · intro principal clock q action answer
            cases action
            cases answer
            have room : s.used caller (quotaDay now) + 1 ≤ s.limit default caller := room
            have after := used_counted s caller (quotaDay now) caller (quotaDay now)
            rw [if_pos ⟨rfl, rfl⟩] at after
            exact ⟨rfl, room, rfl, by simp only [chargedQuota]; omega, after⟩
          · intro fault raised
            cases raised
        · intro principal day
          rw [used_counted]
          by_cases mine : principal = caller ∧ day = quotaDay now
          · simp [grantedLocally, chargedQuota, mine]
          · simp [grantedLocally, chargedQuota, eq_comm (a := caller),
              eq_comm (a := quotaDay now)]
      · obtain ⟨e, full⟩ := countJob_full room
        have refused := Txn.atomically_of_error full
        refine local_quiet default (.quota e) ?_
        simp only [localStep, SQLite.call, Quotas.SQLite.consumeJob, refused]
        rfl
  | setLimit principal dailyJobs =>
    cases checked : checkedLimit dailyJobs with
    | error fault =>
      refine local_quiet default fault ?_
      simp only [localStep, SQLite.call, checked]
    | ok n =>
      cases fits : SQLite.fitsInteger n with
      | false =>
        refine local_quiet default (.quota (.database (.overflowError
          "Python int too large to convert to SQLite INTEGER"))) ?_
        simp only [localStep, SQLite.call, checked, SQLite.setLimit, fits]
        rfl
      | true =>
        have run : localStep default s (.setLimit principal dailyJobs) =
            (.ok .limitSet, { s with limits := s.limits.replace ⟨principal, n⟩ }) := by
          simp only [localStep, SQLite.call, checked, SQLite.setLimit, fits]
          rfl
        rw [run]
        refine ⟨⟨nofun, nofun⟩, ?_⟩
        simp [grantedLocally, QuotaStore.used]

theorem local_run (calls : List Call) (s : QuotaStore) :
    (∀ e ∈ history (localStep default) s calls, LocallyFair default e) ∧
      ∀ principal day, (final (localStep default) s calls).used principal day =
        s.used principal day +
          (history (localStep default) s calls).countP (grantedLocally principal day) := by
  induction calls generalizing s with
  | nil => exact ⟨nofun, fun _ _ => by simp⟩
  | cons c rest ih =>
    obtain ⟨fair, count⟩ := local_step default s c
    obtain ⟨later, counts⟩ := ih (localStep default s c).2
    rw [history_cons, List.forall_mem_cons]
    refine ⟨⟨fair, later⟩, fun principal day => ?_⟩
    rw [final_cons, counts, count, List.countP_cons]
    split <;> push_cast <;> omega

end Local

variable {principal : String} {day : Int} {usage : Usage}

section Hosts

open Postgres

variable {default : Int} {d : Deployment} {i : Nat}

/-- The row that a session has written and not committed. -/
def held : Session → Option Usage
  | .counted usage | .granting usage _ | .refusing usage _ => some usage
  | _ => none

/-- The limit that a session has written and not committed. -/
def pending : Session → Option Limit
  | .set limit => some limit
  | _ => none

/-- Uncommitted rows are one above the committed count; who commits is within its limit. -/
structure Sound (d : Deployment) : Prop where
  locked : RowVersions.Locked d.usage
  usage : ∀ i k, (d.usage.writes i).find k =
    (held (d.sessions i)).filter (fun u => decide (u.id = k))
  limits : ∀ i k, (d.limits.writes i).find k =
    (pending (d.sessions i)).filter (fun l => decide (l.principal = k))
  next : ∀ i u, held (d.sessions i) = some u →
    u.jobs = jobsIn d.usage.committed u.principal u.day + 1
  within : ∀ i u maximum, d.sessions i = .granting u maximum → u.jobs ≤ maximum

theorem start_sound : Sound Deployment.start where
  locked := RowVersions.locked_start _
  usage _ _ := rfl
  limits _ _ := rfl
  next _ _ other := by cases other
  within _ _ _ other := by cases other

theorem resumed (d : Deployment) (i j : Nat) (session : Session) :
    (d.resume i session).sessions j = if j = i then session else d.sessions j := by
  simp only [Deployment.resume, Function.update_apply]

theorem sound_resume (sound : Sound d) (session : Session)
    (usage : held session = held (d.sessions i)) (limit : pending session = pending (d.sessions i))
    (within : ∀ u maximum, session = .granting u maximum → u.jobs ≤ maximum) :
    Sound (d.resume i session) := by
  have same : ∀ j, held ((d.resume i session).sessions j) = held (d.sessions j) ∧
      pending ((d.resume i session).sessions j) = pending (d.sessions j) := by
    intro j
    rw [resumed]
    split
    next here => rw [here]; exact ⟨usage, limit⟩
    next => exact ⟨rfl, rfl⟩
  refine ⟨sound.locked, fun j k => ?_, fun j k => ?_, fun j u holds => ?_, fun j u maximum at_ => ?_⟩
  · rw [(same j).1]
    exact sound.usage j k
  · rw [(same j).2]
    exact sound.limits j k
  · rw [(same j).1] at holds
    exact sound.next j u holds
  · rw [resumed] at at_
    split at at_
    next => exact within u maximum at_
    next => exact sound.within j u maximum at_

theorem sound_rollback (sound : Sound d) (i : Nat) : Sound (d.rollback i) := by
  have sessions : ∀ j, (d.rollback i).sessions j = if j = i then .idle else d.sessions j :=
    fun j => resumed d i j .idle
  refine ⟨RowVersions.locked_rollback sound.locked i, fun j k => ?_, fun j k => ?_,
    fun j u holds => ?_, fun j u maximum at_ => ?_⟩
  · rw [sessions, Deployment.rollback, RowVersions.find_writes_rollback]
    split
    next => rfl
    next => exact sound.usage j k
  · rw [sessions, Deployment.rollback, RowVersions.find_writes_rollback]
    split
    next => rfl
    next => exact sound.limits j k
  · rw [sessions] at holds
    split at holds
    next => cases holds
    next => exact sound.next j u holds
  · rw [sessions] at at_
    split at at_
    next => cases at_
    next => exact sound.within j u maximum at_

theorem held_apart (sound : Sound d) {j : Nat} {u v : Usage} (mine : held (d.sessions i) = some u)
    (other : held (d.sessions j) = some v) (same : v.id = u.id) : j = i := by
  have first := sound.locked i u.id u (by rw [sound.usage, mine]; simp)
  have second := sound.locked j v.id v (by rw [sound.usage, other]; simp)
  rw [same, first] at second
  exact (Option.some.inj second).symm

theorem jobsIn_of_find {rows rows' : Table Usage.id}
    (same : rows.find (principal, day) = rows'.find (principal, day)) :
    jobsIn rows principal day = jobsIn rows' principal day := by
  rw [jobsIn, jobsIn, same]

theorem jobsIn_commit (sound : Sound d) (i : Nat) (principal : String) (day : Int) :
    jobsIn (d.commit i).usage.committed principal day = jobsIn d.usage.committed principal day +
      if (held (d.sessions i)).any (fun u => decide (u.id = (principal, day))) then 1 else 0 := by
  have found := RowVersions.find_committed_commit d.usage i (principal, day)
  have rows : (d.commit i).usage.committed = (d.usage.commit i).committed := rfl
  rw [sound.usage] at found
  rw [rows]
  cases mine : held (d.sessions i) with
  | none =>
    rw [mine] at found
    simpa using jobsIn_of_find found
  | some u =>
    rw [mine] at found
    by_cases here : u.id = (principal, day)
    · rw [filter_some] at found
      obtain ⟨rfl, rfl⟩ := Prod.mk.inj here
      rw [jobsIn, found, any_some, decide_eq_true here]
      exact sound.next i u mine
    · rw [filter_some, if_neg (by simpa using here)] at found
      simpa [here] using jobsIn_of_find found

theorem sound_commit (sound : Sound d) (i : Nat) : Sound (d.commit i) := by
  have sessions : ∀ j, (d.commit i).sessions j = if j = i then .idle else d.sessions j :=
    fun j => resumed d i j .idle
  refine ⟨RowVersions.locked_commit sound.locked i, fun j k => ?_, fun j k => ?_,
    fun j u holds => ?_, fun j u maximum at_ => ?_⟩
  · have writes := RowVersions.find_writes_rollback d.usage i j k
    rw [sessions]
    refine writes.trans ?_
    split
    next => rfl
    next => exact sound.usage j k
  · have writes := RowVersions.find_writes_rollback d.limits i j k
    rw [sessions]
    refine writes.trans ?_
    split
    next => rfl
    next => exact sound.limits j k
  · rw [sessions] at holds
    split at holds
    next => cases holds
    next other =>
      have apart : (held (d.sessions i)).any (fun v => decide (v.id = (u.principal, u.day))) = false := by
        cases mine : held (d.sessions i) with
        | none => rfl
        | some v =>
          refine decide_eq_false (fun same => other ?_)
          exact held_apart sound mine holds same.symm
      rw [jobsIn_commit sound, apart, if_neg Bool.false_ne_true, Int.add_zero]
      exact sound.next j u holds
  · rw [sessions] at at_
    split at at_
    next => cases at_
    next => exact sound.within j u maximum at_

theorem sound_count (sound : Sound d)
    (idle : held (d.sessions i) = none ∧ pending (d.sessions i) = none)
    (free : d.usage.free i (principal, day) = true)
    (counted : usage = ⟨principal, day, jobsIn (d.usage.visible i) principal day + 1⟩) :
    Sound ({ d with usage := d.usage.put i usage }.resume i (.counted usage)) := by
  have id : usage.id = (principal, day) := by rw [counted]; rfl
  have available : d.usage.free i usage.id = true := by rw [id]; exact free
  have unseen : jobsIn (d.usage.visible i) principal day = jobsIn d.usage.committed principal day := by
    refine jobsIn_of_find ?_
    rw [RowVersions.find_visible, sound.usage, idle.1]
    rfl
  refine ⟨RowVersions.locked_put sound.locked available, fun j k => ?_, fun j k => ?_,
    fun j u holds => ?_, fun j u maximum at_ => ?_⟩
  · rw [resumed]
    refine (RowVersions.find_writes_put d.usage i usage j k).trans ?_
    by_cases here : j = i
    · subst here
      rw [if_pos rfl, held, filter_some, sound.usage, idle.1]
      by_cases key : usage.id = k <;> simp [key]
    · rw [if_neg here, if_neg (fun both => here both.1)]
      exact sound.usage j k
  · rw [resumed]
    refine (sound.limits j k).trans ?_
    split
    next here => rw [here, idle.2]; rfl
    next => rfl
  · rw [resumed] at holds
    split at holds
    next =>
      cases holds
      rw [counted, unseen]
      rfl
    next => exact sound.next j u holds
  · rw [resumed] at at_
    split at at_
    next => cases at_
    next => exact sound.within j u maximum at_

theorem sound_setLimit (sound : Sound d) (limit : Limit)
    (idle : held (d.sessions i) = none ∧ pending (d.sessions i) = none) :
    Sound ({ d with limits := d.limits.put i limit }.resume i (.set limit)) := by
  refine ⟨sound.locked, fun j k => ?_, fun j k => ?_, fun j u holds => ?_, fun j u maximum at_ => ?_⟩
  · rw [resumed]
    refine (sound.usage j k).trans ?_
    split
    next here => rw [here, idle.1]; rfl
    next => rfl
  · rw [resumed]
    refine (RowVersions.find_writes_put d.limits i limit j k).trans ?_
    by_cases here : j = i
    · subst here
      rw [if_pos rfl, pending, filter_some, sound.limits, idle.2]
      by_cases key : limit.principal = k <;> simp [key]
    · rw [if_neg here, if_neg (fun both => here both.1)]
      exact sound.limits j k
  · rw [resumed] at holds
    split at holds
    next => cases holds
    next => exact sound.next j u holds
  · rw [resumed] at at_
    split at at_
    next => cases at_
    next => exact sound.within j u maximum at_

/-- A `consume_job` of the principal succeeds for the day. -/
def granted (principal : String) (day : Int) : Answer → Bool
  | .consumed caller q => decide (caller = principal) && decide (q.day = day)
  | _ => false

/-- What a step keeps, what it counts, and what a success reports. -/
structure Steps (default : Int) (d : Deployment) (answer : Answer) (after : Deployment) : Prop where
  sound : Sound after
  counts : ∀ principal day, jobsIn after.usage.committed principal day =
    jobsIn d.usage.committed principal day + if granted principal day answer then 1 else 0
  reports : ∀ principal q, answer = .consumed principal q →
    ∃ i u, d.sessions i = .granting u q.limit ∧ u.principal = principal ∧ q.used ≤ q.limit ∧
      q.remaining = q.limit - q.used ∧ 0 ≤ q.remaining ∧
      jobsIn after.usage.committed principal q.day = q.used
  /-- The limit in force is read before the commit. -/
  reads : ∀ j u maximum, after.sessions j = .granting u maximum → d.sessions j = .granting u maximum ∨
    maximum = limitIn default d.limits.committed u.principal

theorem steps_quiet {answer : Answer} {after : Deployment} (sound : Sound after)
    (same : after.usage.committed = d.usage.committed)
    (quiet : ∀ principal q, answer ≠ .consumed principal q)
    (still : ∀ j u maximum, after.sessions j = .granting u maximum →
      d.sessions j = .granting u maximum) : Steps default d answer after := by
  refine ⟨sound, fun principal day => ?_, fun principal q other => absurd other (quiet principal q),
    fun j u maximum at_ => .inl (still j u maximum at_)⟩
  rw [same]
  cases answer with
  | consumed caller q => exact absurd rfl (quiet caller q)
  | _ => simp [granted]

theorem still_resume (session : Session) (other : ∀ u maximum, session ≠ .granting u maximum)
    (j : Nat) (u : Usage) (maximum : Int)
    (at_ : (d.resume i session).sessions j = .granting u maximum) :
    d.sessions j = .granting u maximum := by
  rw [resumed] at at_
  split at at_
  next => exact absurd at_ (other u maximum)
  next => exact at_

theorem steps_rollback (sound : Sound d) {answer : Answer}
    (quiet : ∀ principal q, answer ≠ .consumed principal q) :
    Steps default d answer (d.rollback i) :=
  steps_quiet (sound_rollback sound i) rfl quiet
    (still_resume (d := d) (i := i) .idle nofun)

theorem countRow_steps (sound : Sound d) (at_ : d.sessions i = .counting principal day) :
    Steps default d (countRow d i principal day).1 (countRow d i principal day).2 := by
  have idle : held (d.sessions i) = none ∧ pending (d.sessions i) = none := by
    rw [at_]
    exact ⟨rfl, rfl⟩
  have refused : Steps default d (.raised outOfRange) (d.rollback i) :=
    steps_rollback sound nofun
  unfold countRow
  split
  next => exact refused
  next =>
    split
    next => exact steps_quiet sound rfl nofun (fun _ _ _ same => same)
    next taken =>
      have free : d.usage.free i (principal, day) = true := by simpa using taken
      dsimp only
      split
      next => exact refused
      next =>
        exact steps_quiet (sound_count sound idle free rfl) rfl nofun
          (still_resume _ nofun)

theorem limitRow_steps (sound : Sound d) {limit : Limit} (at_ : d.sessions i = .setting limit) :
    Steps default d (limitRow d i limit).1 (limitRow d i limit).2 := by
  have idle : held (d.sessions i) = none ∧ pending (d.sessions i) = none := by
    rw [at_]
    exact ⟨rfl, rfl⟩
  unfold limitRow
  split
  next => exact steps_rollback sound nofun
  next =>
    split
    next => exact steps_quiet sound rfl nofun (fun _ _ _ same => same)
    next =>
      exact steps_quiet (sound_setLimit sound limit idle) rfl nofun
        (still_resume _ nofun)

theorem limitIn_visible (sound : Sound d) (free : pending (d.sessions i) = none) (principal : String) :
    limitIn default (d.limits.visible i) principal = limitIn default d.limits.committed principal := by
  have found := RowVersions.find_visible d.limits i principal
  rw [sound.limits, free, filter_none, none_or] at found
  rw [limitIn, limitIn, found]

theorem judge_steps (sound : Sound d) (at_ : d.sessions i = .counted usage) :
    Steps default d .running (d.resume i
      (if limitIn default (d.limits.visible i) usage.principal < usage.jobs then
        .refusing usage (limitIn default (d.limits.visible i) usage.principal)
      else .granting usage (limitIn default (d.limits.visible i) usage.principal))) := by
  split
  next =>
    exact steps_quiet (sound_resume sound _ (by rw [at_]; rfl) (by rw [at_]; rfl)
      nofun) rfl nofun
      (still_resume _ nofun)
  next within =>
    refine ⟨sound_resume sound _ (by rw [at_]; rfl) (by rw [at_]; rfl) ?_, fun principal day => ?_,
      nofun, fun j u maximum now => ?_⟩
    · intro u maximum same
      cases same
      exact Int.not_lt.mp within
    · simp [granted, Deployment.resume]
    · rw [resumed] at now
      split at now
      next =>
        cases now
        exact .inr (limitIn_visible sound (by rw [at_]; rfl) _)
      next => exact .inl now

theorem grant_steps (sound : Sound d) {maximum : Int}
    (at_ : d.sessions i = .granting usage maximum) :
    Steps default d (.consumed usage.principal (quotaOf usage maximum)) (d.commit i) := by
  have fits := sound.within i usage maximum at_
  have counts := jobsIn_commit sound i
  have holds : held (d.sessions i) = some usage := by rw [at_]; rfl
  rw [holds] at counts
  refine ⟨sound_commit sound i, fun principal day => ?_, fun principal q same => ?_,
    fun j u most now => ?_⟩
  · have mine : granted principal day (.consumed usage.principal (quotaOf usage maximum)) =
        decide (usage.id = (principal, day)) := by
      simp only [Usage.id, Prod.mk.injEq, Bool.decide_and]
      rfl
    rw [counts, mine, any_some]
  · cases same
    refine ⟨i, usage, at_, rfl, fits, rfl, ?_, ?_⟩
    · simp only [quotaOf]
      omega
    · rw [counts]
      simp [quotaOf, Usage.id, sound.next i usage holds]
  · left
    exact still_resume (d := d) (i := i) .idle (fun _ _ other => by cases other) j u most now

theorem set_steps (sound : Sound d) {limit : Limit} (at_ : d.sessions i = .set limit) :
    Steps default d .limitSet (d.commit i) := by
  have counts := jobsIn_commit sound i
  rw [at_] at counts
  refine ⟨sound_commit sound i, fun principal day => ?_, nofun,
    fun j u most now => ?_⟩
  · rw [counts]
    rfl
  · left
    exact still_resume (d := d) (i := i) .idle nofun j u most now

theorem begun_fresh {call : Call} {session : Session} (made : begun call = .ok session) :
    held session = none ∧ pending session = none ∧ ∀ u maximum, session ≠ .granting u maximum := by
  cases call with
  | consumeJob principal now =>
    cases now with
    | none => cases made
    | some now =>
      cases made
      exact ⟨rfl, rfl, nofun⟩
  | setLimit principal dailyJobs =>
    simp only [begun] at made
    cases checked : checkedLimit dailyJobs with
    | error fault => rw [checked] at made; cases made
    | ok n =>
      rw [checked] at made
      cases made
      exact ⟨rfl, rfl, nofun⟩

theorem step_steps (sound : Sound d) (action : Action) :
    Steps default d (Postgres.step default d action).1 (Postgres.step default d action).2 := by
  have unchanged : ∀ answer : Answer, (∀ principal q, answer ≠ .consumed principal q) →
      Steps default d answer d :=
    fun answer quiet => steps_quiet sound rfl quiet (fun _ _ _ same => same)
  cases action with
  | begin i call =>
    simp only [Postgres.step]
    by_cases idle : d.sessions i = .idle
    · rw [if_pos idle]
      cases made : begun call with
      | error fault => exact unchanged _ nofun
      | ok session =>
        obtain ⟨holds, pends, other⟩ := begun_fresh made
        have fresh : held session = held (d.sessions i) ∧ pending session = pending (d.sessions i) := by
          rw [idle]
          exact ⟨holds, pends⟩
        exact steps_quiet (sound_resume sound session fresh.1 fresh.2
            (fun u maximum same => absurd same (other u maximum))) rfl
          nofun (still_resume _ other)
    · rw [if_neg idle]
      exact unchanged _ nofun
  | go i =>
    simp only [Postgres.step, advance]
    cases at_ : d.sessions i with
    | idle => exact unchanged _ nofun
    | counting principal day => exact countRow_steps sound at_
    | counted usage => exact judge_steps sound at_
    | granting usage maximum => exact grant_steps sound at_
    | refusing usage maximum => exact steps_rollback sound nofun
    | setting limit => exact limitRow_steps sound at_
    | set limit => exact set_steps sound at_
  | abort i => exact steps_rollback sound nofun

theorem hosts_run (default : Int) (actions : List Action) {d : Deployment} (sound : Sound d) :
    (∀ e ∈ history (Postgres.step default) d actions, Steps default e.before e.answer e.after) ∧
      ∀ principal day,
        jobsIn (final (Postgres.step default) d actions).usage.committed principal day =
          jobsIn d.usage.committed principal day +
            (history (Postgres.step default) d actions).countP
              (fun e => granted principal day e.answer) := by
  induction actions generalizing d with
  | nil => exact ⟨nofun, fun _ _ => by simp⟩
  | cons action rest ih =>
    have steps : Steps default d _ _ := step_steps sound action
    obtain ⟨later, counts⟩ := ih steps.sound
    rw [history_cons, List.forall_mem_cons]
    refine ⟨⟨steps, later⟩, fun principal day => ?_⟩
    rw [final_cons, counts, steps.counts, List.countP_cons]
    split <;> push_cast <;> omega

/-- What one step of the hosts shows. -/
structure Fair (default : Int) (e : Event Deployment Action Answer) : Prop where
  /-- A success reports the count it leaves, within the limit that its session had read. -/
  granted : ∀ principal q, e.answer = .consumed principal q →
    (∃ i u, e.before.sessions i = .granting u q.limit ∧ u.principal = principal) ∧
      q.used ≤ q.limit ∧ q.remaining = q.limit - q.used ∧ 0 ≤ q.remaining ∧
      jobsIn e.after.usage.committed principal q.day = q.used
  /-- The limit of a session that goes on to commit was in force when it read it. -/
  inForce : ∀ i u maximum, e.after.sessions i = .granting u maximum →
    e.before.sessions i = .granting u maximum ∨
      maximum = limitIn default e.before.limits.committed u.principal
  /-- Nothing but a success changes a stored count. -/
  unchanged : (∀ principal q, e.answer ≠ .consumed principal q) → ∀ principal day,
    jobsIn e.after.usage.committed principal day = jobsIn e.before.usage.committed principal day

theorem fair_of_steps {e : Event Deployment Action Answer}
    (steps : Steps default e.before e.answer e.after) : Fair default e where
  granted principal q same := by
    obtain ⟨i, u, at_, mine, fits, remaining, left, stored⟩ := steps.reports principal q same
    exact ⟨⟨i, u, at_, mine⟩, fits, remaining, left, stored⟩
  inForce := steps.reads
  unchanged quiet principal day := by
    rw [steps.counts]
    cases answer : e.answer with
    | consumed caller q => exact absurd answer (quiet caller q)
    | _ => simp [QuotaAccounting.granted]

end Hosts

/-- On both stores, whatever calls run or interleave: the stored count is the number of successes,
each success is within the limit in force, and no other outcome changes a count. -/
theorem usage_counts_successes (default : Int) :
    (∀ calls : List Call,
      (∀ e ∈ history (localStep default) QuotaStore.empty calls, LocallyFair default e) ∧
        ∀ principal day, (final (localStep default) QuotaStore.empty calls).used principal day =
          (history (localStep default) QuotaStore.empty calls).countP (grantedLocally principal day)) ∧
    ∀ actions : List Postgres.Action,
      (∀ e ∈ history (Postgres.step default) Postgres.Deployment.start actions, Fair default e) ∧
        ∀ principal day, Postgres.jobsIn
            (final (Postgres.step default) Postgres.Deployment.start actions).usage.committed
            principal day =
          (history (Postgres.step default) Postgres.Deployment.start actions).countP
            (fun e => granted principal day e.answer) := by
  refine ⟨fun calls => ?_, fun actions => ?_⟩
  · obtain ⟨fair, counts⟩ := local_run default calls QuotaStore.empty
    refine ⟨fair, fun principal day => (counts principal day).trans ?_⟩
    exact Int.zero_add _
  · obtain ⟨steps, counts⟩ := hosts_run default actions start_sound
    refine ⟨fun e member => fair_of_steps (steps e member), fun principal day =>
      (counts principal day).trans ?_⟩
    exact Int.zero_add _

open Postgres in
/-- Two hosts ask for the last unit: one waits for the other's row and is then refused. -/
example : (history (Postgres.step 1) Deployment.start
    [.begin 0 (.consumeJob "ada" (some 0)), .begin 1 (.consumeJob "ada" (some 0)), .go 0, .go 1,
      .go 0, .go 0, .go 1, .go 1, .go 1]).map (fun e => e.answer) =
    [.running, .running, .running, .waiting, .running, .consumed "ada" ⟨0, 1, 1, 0⟩, .running,
      .running, .raised (.quota (exceeded 1))] := by decide +kernel

end Meemee.Guarantees.QuotaAccounting
