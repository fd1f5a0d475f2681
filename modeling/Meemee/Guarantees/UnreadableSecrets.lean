import Meemee.Guarantees.DeliveryFencing
import Meemee.Source.Dispatch

/-!
# Claims of deliveries whose secret is unreadable

The row is committed as `sending` before its secret is decrypted. SQLite hands such a delivery back
without a secret, and the dispatcher reports it as failed until its attempts are spent. PostgreSQL
raises, and leaves the row as it is.
-/
namespace Meemee.Guarantees.UnreadableSecrets
open Library Library.History Source Source.Deliveries Source.Dispatch Library.Table Function List
open Guarantees.DeliveryFencing (claim_some retryFrom_run retry_found succeed_deliveries)

/-- The row was queued, is being sent now, and has one attempt more. -/
structure Moved (s t : Outbox) (row : Delivery) (now startedAt : Instant) : Prop where
  found : s.deliveries.find row.id = some row
  queued : row.status = .queued
  deliveries : t.deliveries = s.deliveries.update (fun d => decide (d.id = row.id))
    (fun d => d.claimed now) (fun d => d.claimed_id now)
  attempts : t.attempts = s.attempts.append (newAttempt row startedAt)

/-- A claim returns a delivery that it moved, or changes nothing. -/
def Sound (s : Outbox) (now startedAt : Instant) (run : Except Exc (Option Claimed) × Outbox) : Prop :=
  match run.1 with
  | .ok (some claimed) => Moved s run.2 claimed.row now startedAt
  | _ => run.2 = s

/-- The row that a PostgreSQL claim picks has a secret that decrypts. -/
def Readable (backend : Backend) (secret : String → Option String) (skipped : List String)
    (now : Instant) (s : Outbox) : Prop :=
  backend = .sqlite ∨ ∀ row, nextDue backend skipped now s = some row →
    (secret row.subscriptionId).isSome = true

variable {now startedAt : Instant} {row : Delivery} {number : Nat} {after : Outbox}

variable {skipped : List String}

theorem picked_none {s : Outbox}
    (none_ : s.deliveries.first (fun d => due s now d && !skipped.contains d.id) dueBefore = none) :
    Deliveries.claim skipped now startedAt s = (.ok none, s) := by
  rw [Deliveries.claim, Txn.atomically_of_ok]
  rw [Txn.run_bind_read, none_]
  rfl

theorem picked_some {now startedAt : Instant} {s : Outbox} {row : Delivery}
    (picked : s.deliveries.first (fun d => due s now d && !skipped.contains d.id) dueBefore = some row) :
    ∃ t, Deliveries.claim skipped now startedAt s = (.ok (some row), t) ∧ Moved s t row now startedAt := by
  have run : ∃ t, Deliveries.claim skipped now startedAt s = (.ok (some row), t) := by
    unfold Deliveries.claim
    rw [Txn.atomically_of_ok (by rw [Txn.run_bind_read, picked]; rfl)]
    exact ⟨_, rfl⟩
  obtain ⟨t, run⟩ := run
  obtain ⟨found, queued, deliveries, attempts⟩ := claim_some run
  exact ⟨t, run, found, queued, deliveries, attempts⟩

theorem moved_changes {s t : Outbox} (moved : Moved s t row now startedAt) : t ≠ s := by
  intro same
  have next := congrArg Log.next moved.attempts
  rw [same] at next
  simp only [Log.append] at next
  omega

theorem claim_cases (backend : Backend) (secret : String → Option String) (skipped : List String)
    (now startedAt : Instant) (s : Outbox) :
    nextDue backend skipped now s = none ∧
        claim backend secret skipped now startedAt s = (.ok none, s) ∨
      ∃ row t, nextDue backend skipped now s = some row ∧ Moved s t row now startedAt ∧
        ((backend = .sqlite ∨ (secret row.subscriptionId).isSome = true) ∧
            claim backend secret skipped now startedAt s =
              (.ok (some ⟨row, secret row.subscriptionId⟩), t) ∨
          backend = .postgres ∧ secret row.subscriptionId = none ∧
            ∃ e, claim backend secret skipped now startedAt s = (.error e, t)) := by
  cases picked : nextDue backend skipped now s with
  | none =>
    refine .inl ⟨rfl, ?_⟩
    cases backend with
    | sqlite =>
      have run : Deliveries.claim [] now startedAt s = (.ok none, s) := picked_none picked
      change SQLite.claim secret now startedAt s = _
      rw [SQLite.claim, Txn.run_bind_ok run]
      rfl
    | postgres =>
      have run : Deliveries.claim skipped now startedAt s = (.ok none, s) := picked_none picked
      change Postgres.claim secret skipped now startedAt s = _
      rw [Postgres.claim, Txn.run_bind_ok run]
      rfl
  | some row =>
    cases backend with
    | sqlite =>
      obtain ⟨t, run, moved⟩ := @picked_some [] now startedAt s row picked
      refine .inr ⟨row, t, rfl, moved, .inl ⟨.inl rfl, ?_⟩⟩
      change SQLite.claim secret now startedAt s = _
      rw [SQLite.claim, Txn.run_bind_ok run]
      rfl
    | postgres =>
      obtain ⟨t, run, moved⟩ := @picked_some skipped now startedAt s row picked
      refine .inr ⟨row, t, rfl, moved, ?_⟩
      change _ ∧ Postgres.claim secret skipped now startedAt s = _ ∨
        _ ∧ _ ∧ ∃ e, Postgres.claim secret skipped now startedAt s = _
      rw [Postgres.claim, Txn.run_bind_ok run]
      dsimp only
      cases secret row.subscriptionId with
      | some text => exact .inl ⟨.inr rfl, rfl⟩
      | none => exact .inr ⟨rfl, rfl, _, rfl⟩

theorem claim_sound_iff (backend : Backend) (secret : String → Option String) (skipped : List String)
    (now startedAt : Instant) (s : Outbox) :
    Sound s now startedAt (claim backend secret skipped now startedAt s) ↔
      Readable backend secret skipped now s := by
  rcases claim_cases backend secret skipped now startedAt s with
    ⟨none_, run⟩ | ⟨row, t, picked, moved, ⟨readable, run⟩ | ⟨rfl, unreadable, e, run⟩⟩
  · rw [run]
    refine ⟨fun _ => .inr ?_, fun _ => rfl⟩
    intro row picked
    rw [none_] at picked
    cases picked
  · rw [run]
    refine ⟨fun _ => readable.imp_right ?_, fun _ => moved⟩
    intro reads other same
    rw [picked] at same
    rw [← Option.some.inj same]
    exact reads
  · rw [run]
    refine ⟨fun same => absurd same (moved_changes moved), ?_⟩
    rintro (sqlite | readable)
    · cases sqlite
    · have reads := readable row picked
      rw [unreadable] at reads
      cases reads

abbrev Step := Event Desk Action Answer

/-- No claim finds the secret of the subscription readable. -/
def Unreadable (keys : Keys) (subscription : String) : Action → Prop
  | .claim _ column _ _ _ => keys.secret column subscription = none
  | _ => True

/-- A claim is readable on PostgreSQL, and the delivery is neither recovered nor replayed. -/
def Meets (backend : Backend) (keys : Keys) (ident : String) (e : Step) : Prop :=
  match e.action with
  | .claim _ column skipped now _ => Readable backend (keys.secret column) skipped now e.before.outbox
  | .recover staleBefore _ => ∀ row, e.before.outbox.deliveries.find ident = some row →
      row.stale staleBefore = false
  | .replay _ other _ => other ≠ ident
  | _ => True

/-- How often a run claims the delivery. -/
def claimCount (ident : String) (run : List Step) : Nat :=
  run.countP (fun e => decide (e.answer = .claimed ident))

/-- A call of `deliver_one` holds the delivery, without a secret, and no other call does. -/
structure Holds (ident : String) (attempts number : Nat) (s : Desk) : Prop where
  claimed : ∃ row, row.id = ident ∧ s.held number = some ⟨row, none⟩
  only : ∀ other c, s.held other = some c → c.row.id = ident → other = number
  seen : ∀ read, s.seen number = some read → read = attempts

/-- No call of `deliver_one` holds the delivery. -/
def Free (ident : String) (s : Desk) : Prop := ∀ number c, s.held number = some c → c.row.id ≠ ident

/-- Sent by one call, waiting, or failed with its attempts spent. -/
def Stands (ident : String) (attempts : Nat) (s : Desk) (row : Delivery) : Prop :=
  row.status = .sending ∧ (∃ number, Holds ident attempts number s) ∨
    row.status = retryStatus attempts maxAttempts ∧ Free ident s

structure Progress (ident subscription : String) (attempts : Nat) (s : Desk) : Prop where
  row : ∃ row, s.outbox.deliveries.find ident = some row ∧ row.subscriptionId = subscription ∧
    row.attempts = attempts ∧ Stands ident attempts s row
  within : attempts ≤ maxAttempts

theorem left_held (s : Desk) (number : Nat) (after : Outbox) :
    (s.left number after).held = Function.update s.held number none := rfl

theorem left_seen (s : Desk) (number : Nat) (after : Outbox) :
    (s.left number after).seen = Function.update s.seen number none := rfl

theorem held_before {s : Desk} {n : Nat} {c : Claimed}
    (holding : (s.left number after).held n = some c) : n ≠ number ∧ s.held n = some c := by
  rw [left_held] at holding
  by_cases same : n = number
  · rw [same, update_self] at holding
    cases holding
  · rw [update_of_ne same] at holding
    exact ⟨same, holding⟩

section Steps

variable {backend : Backend} {keys : Keys} {ident subscription : String} {attempts : Nat} {s t : Desk}

theorem progress_same (progress : Progress ident subscription attempts s)
    (row : t.outbox.deliveries.find ident = s.outbox.deliveries.find ident) (held : t.held = s.held)
    (seen : t.seen = s.seen) : Progress ident subscription attempts t := by
  obtain ⟨⟨found, there, named, counted, stands⟩, within⟩ := progress
  refine ⟨⟨found, row.trans there, named, counted, ?_⟩, within⟩
  rcases stands with ⟨sending, number, holds⟩ | ⟨rests, free⟩
  · refine .inl ⟨sending, number, ?_⟩
    constructor
    · rw [held]
      exact holds.claimed
    · rw [held]
      exact holds.only
    · rw [seen]
      exact holds.seen
  · refine .inr ⟨rests, ?_⟩
    unfold Free
    rw [held]
    exact free

theorem progress_left (progress : Progress ident subscription attempts s) {claimed : Claimed}
    (held : s.held number = some claimed) (other : claimed.row.id ≠ ident)
    (row : after.deliveries.find ident = s.outbox.deliveries.find ident) :
    Progress ident subscription attempts (s.left number after) := by
  obtain ⟨⟨found, there, named, counted, stands⟩, within⟩ := progress
  refine ⟨⟨found, row.trans there, named, counted, ?_⟩, within⟩
  rcases stands with ⟨sending, holder, holds⟩ | ⟨rests, free⟩
  · obtain ⟨own, named', holding⟩ := holds.claimed
    have apart : holder ≠ number := by
      rintro rfl
      rw [held] at holding
      obtain rfl := Option.some.inj holding
      exact other named'
    refine .inl ⟨sending, holder, ?_⟩
    constructor
    · exact ⟨own, named', by rwa [left_held, update_of_ne apart]⟩
    · exact fun n c holding => holds.only n c (held_before holding).2
    · intro read
      rw [left_seen, update_of_ne apart]
      exact holds.seen read
  · exact .inr ⟨rests, fun n c holding => free n c (held_before holding).2⟩

theorem progress_failed (progress : Progress ident subscription attempts s)
    (holds : Holds ident attempts number s) (error : String) (now finished : Instant) :
    Progress ident subscription attempts
      (s.left number (retryFrom ident attempts error maxAttempts now finished s.outbox).2) := by
  obtain ⟨⟨row, there, named, counted, -⟩, within⟩ := progress
  obtain ⟨deliveries, -⟩ := retryFrom_run ident attempts error maxAttempts now finished s.outbox
  have found : (retryFrom ident attempts error maxAttempts now finished s.outbox).2.deliveries.find ident =
      some (row.retried (retryStatus attempts maxAttempts) (now + delay attempts) error) := by
    have key := key_of_find there
    rw [deliveries, find_update, there, Option.map_some, if_pos (by simpa using key)]
  refine ⟨⟨_, found, named, counted, .inr ⟨rfl, ?_⟩⟩, within⟩
  intro n c holding same
  obtain ⟨other, before⟩ := held_before holding
  exact other (holds.only n c before same)

theorem queue_find (ident other : String) (there : s.outbox.deliveries.find ident = some row)
    (subscriptionId : String) (now : Instant) :
    (queue other subscriptionId now s.outbox).2.deliveries.find ident = some row := by
  obtain ⟨mem, key⟩ := find_some_iff.mp there
  exact find_some_iff.mpr ⟨mem_insertOrIgnore mem, key⟩

theorem updated_other {p : Delivery → Bool} {f : Delivery → Delivery} (keeps : ∀ d, (f d).id = d.id)
    (deliveries : after.deliveries = s.outbox.deliveries.update p f keeps)
    (unmatched : ∀ d, d.id = ident → s.outbox.deliveries.find ident = some d → p d = false) :
    after.deliveries.find ident = s.outbox.deliveries.find ident := by
  rw [deliveries, find_update]
  cases found : s.outbox.deliveries.find ident with
  | none => rfl
  | some row =>
    rw [Option.map_some, unmatched row (key_of_find found) found]
    rfl

theorem report_progress (progress : Progress ident subscription attempts s) (number : Nat) (sent : Outcome)
    (now finished : Instant) :
    Progress ident subscription attempts (step backend keys s (.report number sent now finished)).2 := by
  simp only [step]
  cases held : s.held number with
  | none => exact progress
  | some claimed =>
    dsimp only
    by_cases own : claimed.row.id = ident
    · obtain ⟨row, there, named, counted, stands⟩ := progress.row
      rcases stands with ⟨-, holder, holds⟩ | ⟨-, free⟩
      · obtain rfl := holds.only number claimed held own
        obtain ⟨row', -, holding⟩ := holds.claimed
        rw [held] at holding
        obtain rfl := Option.some.inj holding
        have failed := progress_failed progress holds "secret unreadable" now finished
        unfold file reported
        cases backend with
        | postgres =>
          dsimp only
          rw [own, retry_found there, counted]
          exact failed
        | sqlite =>
          cases read : s.seen number with
          | none => exact progress
          | some seen =>
            rw [own, holds.seen seen read]
            exact failed
      · exact absurd own (free number claimed held)
    · unfold file
      cases reported claimed sent with
      | delivered status =>
        refine progress_left progress held own (updated_other (fun d => d.delivered_id status)
          (succeed_deliveries _ _ _ _) ?_)
        intro d key _
        simp [key, Ne.symm own]
      | failed error =>
        have others : ∀ count, (retryFrom claimed.row.id count error maxAttempts now finished
            s.outbox).2.deliveries.find ident = s.outbox.deliveries.find ident := by
          intro count
          refine updated_other (fun d => d.retried_id _ _ _) (retryFrom_run _ _ _ _ _ _ _).1 ?_
          intro d key _
          simp [key, Ne.symm own]
        cases backend with
        | postgres =>
          refine progress_left progress held own ?_
          cases found : s.outbox.deliveries.find claimed.row.id with
          | none => rw [DeliveryFencing.retry_absent found]
          | some row =>
            rw [retry_found found]
            exact others row.attempts
        | sqlite =>
          cases s.seen number with
          | none => exact progress
          | some seen => exact progress_left progress held own (others seen)

theorem look_progress (progress : Progress ident subscription attempts s) (number : Nat) :
    Progress ident subscription attempts (step backend keys s (.look number)).2 := by
  simp only [step]
  cases looked : (s.held number).bind (fun claimed => s.outbox.deliveries.find claimed.row.id) with
  | none => exact progress
  | some found =>
    obtain ⟨⟨row, there, named, counted, stands⟩, within⟩ := progress
    refine ⟨⟨row, there, named, counted, ?_⟩, within⟩
    rcases stands with ⟨sending, holder, holds⟩ | rests
    · refine .inl ⟨sending, holder, holds.claimed, holds.only, ?_⟩
      intro read seen
      dsimp only at seen
      by_cases same : holder = number
      · subst same
        rw [update_self] at seen
        obtain ⟨own, key, holding⟩ := holds.claimed
        rw [holding, Option.bind_some, key, there] at looked
        rw [← Option.some.inj seen, ← Option.some.inj looked, counted]
      · rw [update_of_ne same] at seen
        exact holds.seen read seen
    · exact .inr rests

theorem progress_claimed (progress : Progress ident subscription attempts s)
    (idle : s.held number = none) {claimed : Claimed} (other : claimed.row.id ≠ ident)
    (row : after.deliveries.find ident = s.outbox.deliveries.find ident) :
    Progress ident subscription attempts
      ⟨after, Function.update s.held number (some claimed), Function.update s.seen number none⟩ := by
  obtain ⟨⟨found, there, named, counted, stands⟩, within⟩ := progress
  refine ⟨⟨found, row.trans there, named, counted, ?_⟩, within⟩
  have before : ∀ n c, Function.update s.held number (some claimed) n = some c → c.row.id = ident →
      s.held n = some c := by
    intro n c holding key
    by_cases same : n = number
    · rw [same, update_self] at holding
      obtain rfl := Option.some.inj holding
      exact absurd key other
    · rwa [update_of_ne same] at holding
  rcases stands with ⟨sending, holder, holds⟩ | ⟨rests, free⟩
  · obtain ⟨own, key, holding⟩ := holds.claimed
    have apart : holder ≠ number := by
      rintro rfl
      rw [idle] at holding
      cases holding
    refine .inl ⟨sending, holder, ?_⟩
    constructor
    · exact ⟨own, key, by dsimp only; rwa [update_of_ne apart]⟩
    · exact fun n c held same => holds.only n c (before n c held same) same
    · intro read
      dsimp only
      rw [update_of_ne apart]
      exact holds.seen read
  · exact .inr ⟨rests, fun n c held same => free n c (before n c held same) same⟩

theorem progress_own (progress : Progress ident subscription attempts s)
    (moved : Moved s.outbox after row now startedAt) (own : row.id = ident) :
    Progress ident subscription (attempts + 1)
      ⟨after, Function.update s.held number (some ⟨row, none⟩), Function.update s.seen number none⟩ := by
  obtain ⟨⟨found, there, named, counted, stands⟩, within⟩ := progress
  have here := moved.found
  rw [own, there] at here
  obtain rfl := Option.some.inj here
  have waits := moved.queued
  rcases stands with ⟨sending, -⟩ | ⟨rests, free⟩
  · rw [waits] at sending
    cases sending
  · have left : attempts < maxAttempts := by
      rw [waits, retryStatus] at rests
      split at rests
      next => cases rests
      next room => exact Nat.lt_of_not_le room
    refine ⟨⟨found.claimed now, ?_, named, ?_, .inl ⟨rfl, number, ?_⟩⟩, left⟩
    · rw [moved.deliveries, find_update, there, Option.map_some, if_pos (by simp)]
    · rw [Delivery.claimed, counted]
    · constructor
      · exact ⟨found, own, update_self number _ s.held⟩
      · intro n c held same
        by_cases equal : n = number
        · exact equal
        · dsimp only at held
          rw [update_of_ne equal] at held
          exact absurd same (free n c held)
      · intro read seen
        dsimp only at seen
        rw [update_self] at seen
        cases seen

/-- A step that counts as an attempt if it claims the delivery. -/
def Counted (ident subscription : String) (attempts : Nat) (run : Answer × Desk) : Prop :=
  Progress ident subscription (attempts + if run.1 = .claimed ident then 1 else 0) run.2

theorem counted_own {answer : Answer} (own : answer = .claimed ident)
    (progress : Progress ident subscription (attempts + 1) t) :
    Counted ident subscription attempts (answer, t) := by
  unfold Counted
  rw [if_pos own]
  exact progress

theorem counted_other {answer : Answer} (other : answer ≠ .claimed ident)
    (progress : Progress ident subscription attempts t) :
    Counted ident subscription attempts (answer, t) := by
  unfold Counted
  rw [if_neg other]
  exact progress

theorem claim_counted (progress : Progress ident subscription attempts s) {column : String → String}
    (readable : Readable backend (keys.secret column) skipped now s.outbox)
    (unreadable : keys.secret column subscription = none) :
    Counted ident subscription attempts
      (step backend keys s (.claim number column skipped now startedAt)) := by
  simp only [step]
  split
  next => exact progress
  next idle =>
    rcases claim_cases backend (keys.secret column) skipped now startedAt s.outbox with
      ⟨-, run⟩ | ⟨row, after, picked, moved, ⟨reads, run⟩ | ⟨rfl, fails, e, run⟩⟩
    · rw [run]
      exact progress
    · rw [run]
      by_cases own : row.id = ident
      · obtain ⟨found, there, named, -⟩ := progress.row
        have here := moved.found
        rw [own, there] at here
        obtain rfl := Option.some.inj here
        rw [named, unreadable]
        exact counted_own (congrArg Answer.claimed own) (progress_own progress moved own)
      · refine counted_other (fun same => own (Answer.claimed.inj same)) ?_
        refine progress_claimed progress idle own (updated_other (fun d => d.claimed_id now)
          moved.deliveries ?_)
        intro d key _
        simp [key, Ne.symm own]
    · rcases readable with sqlite | reads
      · cases sqlite
      · have some_ := reads row picked
        rw [fails] at some_
        cases some_

theorem step_counted (progress : Progress ident subscription attempts s) (a : Action)
    (unreadable : Unreadable keys subscription a)
    (meets : Meets backend keys ident ⟨s, a, (step backend keys s a).1, (step backend keys s a).2⟩) :
    Counted ident subscription attempts (step backend keys s a) := by
  obtain ⟨row, there, -⟩ := progress.row
  cases a with
  | queue other subscriptionId now =>
    exact progress_same progress (by rw [there]; exact queue_find ident other there subscriptionId now) rfl rfl
  | claim number column skipped now startedAt => exact claim_counted progress meets unreadable
  | look number =>
    have answer : (step backend keys s (.look number)).1 = .done := by
      simp only [step]
      split <;> rfl
    unfold Counted
    rw [answer]
    exact look_progress progress number
  | report number sent now finished =>
    have answer : (step backend keys s (.report number sent now finished)).1 = .done := by
      simp only [step]
      split <;> rfl
    unfold Counted
    rw [answer]
    exact report_progress progress number sent now finished
  | recover staleBefore now =>
    refine progress_same progress (updated_other (fun d => d.recovered_id now) rfl ?_) rfl rfl
    intro d _ found
    exact meets d found
  | replay principal other now =>
    refine progress_same progress (updated_other (fun d => d.replayed_id now) rfl ?_) rfl rfl
    intro d key _
    have apart : ident ≠ other := Ne.symm meets
    simp [replayable, key, apart]
  | resubscribe subscriptions => exact progress_same progress rfl rfl rfl

end Steps

theorem run_progress {backend : Backend} {keys : Keys} {ident subscription : String} {attempts : Nat}
    {s : Desk} (progress : Progress ident subscription attempts s) (actions : List Action)
    (unreadable : ∀ a ∈ actions, Unreadable keys subscription a)
    (meets : ∀ e ∈ history (step backend keys) s actions, Meets backend keys ident e) :
    Progress ident subscription
      (attempts + claimCount ident (history (step backend keys) s actions))
      (final (step backend keys) s actions) := by
  induction actions generalizing s attempts with
  | nil => exact progress
  | cons a rest ih =>
    have first := step_counted progress a (unreadable a mem_cons_self)
      (meets _ mem_cons_self)
    have later := ih first (fun b mem => unreadable b (mem_cons_of_mem a mem))
      (fun e mem => meets e (mem_cons_of_mem _ mem))
    have count : claimCount ident (history (step backend keys) s (a :: rest)) =
        (if (step backend keys s a).1 = .claimed ident then 1 else 0) +
          claimCount ident (history (step backend keys) (step backend keys s a).2 rest) := by
      unfold claimCount
      rw [history_cons, countP_cons, Nat.add_comm]
      simp only [decide_eq_true_eq]
    rw [count, ← Nat.add_assoc]
    exact later

/-- A claim is sound exactly when, on PostgreSQL, the secret it has to read decrypts. And in every run
whose claims are so, a delivery that waits with attempts left, and whose secret no claim can read,
counts its claims: it is being sent by one call that holds it without a secret, or waits, or has
failed with its attempts spent. -/
theorem claims_strand_nothing (backend : Backend) (keys : Keys) :
    (∀ column skipped now startedAt s,
      Sound s now startedAt (Dispatch.claim backend (keys.secret column) skipped now startedAt s) ↔
        Readable backend (keys.secret column) skipped now s) ∧
    ∀ (s : Desk) (actions : List Action) (ident : String) (row : Delivery),
      s.outbox.deliveries.find ident = some row → row.status = .queued → row.attempts < maxAttempts →
      Free ident s → (∀ a ∈ actions, Unreadable keys row.subscriptionId a) →
      (∀ e ∈ history (step backend keys) s actions, Meets backend keys ident e) →
      Progress ident row.subscriptionId
          (row.attempts + claimCount ident (history (step backend keys) s actions))
          (final (step backend keys) s actions) ∧
        (Free ident (final (step backend keys) s actions) →
          row.attempts + claimCount ident (history (step backend keys) s actions) = maxAttempts →
          ∃ after, (final (step backend keys) s actions).outbox.deliveries.find ident = some after ∧
            after.status = .failed) := by
  refine ⟨fun column skipped now startedAt s =>
    claim_sound_iff backend (keys.secret column) skipped now startedAt s, ?_⟩
  intro s actions ident row there waits left free unreadable meets
  have rests : row.status = retryStatus row.attempts maxAttempts := by
    rw [waits, retryStatus, if_neg (Nat.not_le.mpr left)]
  have start : Progress ident row.subscriptionId row.attempts s :=
    ⟨⟨row, there, rfl, rfl, Or.inr ⟨rests, free⟩⟩, Nat.le_of_lt left⟩
  have progress := run_progress start actions unreadable meets
  refine ⟨progress, ?_⟩
  intro freed spent
  obtain ⟨after, found, -, -, stands⟩ := progress.row
  refine ⟨after, found, ?_⟩
  rcases stands with ⟨-, number, holds⟩ | ⟨rested, -⟩
  · obtain ⟨own, key, holding⟩ := holds.claimed
    exact absurd key (freed number _ holding)
  · rw [rested, spent]
    rfl

/-- Texts as bytes, and no ciphertext that decrypts. -/
def plainKeys : Keys := ⟨⟨fun _ => "", fun _ => none, fun _ _ _ _ => [], fun _ _ _ _ => none⟩, []⟩

/-- One delivery waits. -/
def waiting (attempts : Nat) : Outbox where
  subscriptions := (Table.empty.insertOrIgnore ⟨"s1", "ana", true⟩).1
  deliveries := (Table.empty.insertOrIgnore ⟨"d1", "s1", .queued, attempts, 0, none, none, none⟩).1
  attempts := Log.empty

/-- PostgreSQL raises, and the row stays `sending`. -/
theorem claim_raises_after_moving :
    ((waiting 0).deliveries.find "d1").map Delivery.status = some .queued ∧
      (Dispatch.claim .postgres (plainKeys.secret (fun _ => "plain")) [] 10 10 (waiting 0)).1 =
        .error (.valueError "secret does not decrypt") ∧
      ((Dispatch.claim .postgres (plainKeys.secret (fun _ => "plain")) [] 10 10
        (waiting 0)).2.deliveries.find "d1").map Delivery.status = some .sending := by
  decide +kernel

/-- The last of its attempts, on SQLite. -/
def lastTry : List Action :=
  [.claim 0 (fun _ => "plain") [] 10 10, .look 0, .report 0 (.delivered 204) 11 11]

theorem last_try_fails :
    Progress "d1" "s1" 8 (final (step .sqlite plainKeys) ⟨waiting 7, fun _ => none, fun _ => none⟩ lastTry) := by
  obtain ⟨-, runs⟩ := claims_strand_nothing .sqlite plainKeys
  have counted : claimCount "d1" (history (step .sqlite plainKeys)
      ⟨waiting 7, fun _ => none, fun _ => none⟩ lastTry) = 1 := by decide +kernel
  have ran := (runs ⟨waiting 7, fun _ => none, fun _ => none⟩ lastTry "d1"
    ⟨"d1", "s1", .queued, 7, 0, none, none, none⟩ (by decide +kernel) rfl (by decide)
    nofun ?_ ?_).1
  · exact ran
  · intro a member
    simp only [lastTry, mem_cons, not_mem_nil, or_false] at member
    rcases member with rfl | rfl | rfl
    · exact show plainKeys.secret (fun _ => "plain") "s1" = none by decide +kernel
    · trivial
    · trivial
  · intro e member
    have taken := action_of_mem member
    simp only [lastTry, mem_cons, not_mem_nil, or_false] at taken
    unfold Meets
    rcases taken with same | same | same <;> rw [same]
    · exact Or.inl rfl
    · trivial
    · trivial

end Meemee.Guarantees.UnreadableSecrets
