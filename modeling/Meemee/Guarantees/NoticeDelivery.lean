import Meemee.Library.History
import Meemee.Source.Notices

/-!
# Takeover notices over many passes

A claim leases rows for five minutes and leaves no token, and what a pass writes afterwards names the
row by its id alone. The statuses are final, the attempts bounded and the sends single in every run in
which a pass sends and writes only while its claim is the latest, and nobody claims a notice whose
accepted send or last failure has still to be written.
-/
namespace Meemee.Guarantees.NoticeDelivery
open Library Library.History Source Source.Notices Library.Table Option

variable {maxAttempts : Nat} {s : Hosts} {p : Pass} {ident : String}

abbrev HostEvent := Event Hosts Action (Option (Except Exc String))

/-- The notices a pass claimed. -/
def ids (p : Pass) : List String := p.claimed.map NoticeRow.id

/-- The pass is at the notice. -/
def At (p : Pass) (ident : String) : Prop := p.here.map NoticeRow.id = some ident

/-- No later pass has claimed the notice. -/
def LatestClaim (s : Hosts) (index : Nat) (ident : String) : Prop :=
  ∀ later p, index < later → s.passes[later]? = some p → ident ∉ ids p

/-- The send was accepted and is not written yet. -/
def accepted : Stage → Bool
  | .publishing _ _ | .republishing _ _ => true
  | _ => false

/-- The last failure is recorded and the notice not finished yet. -/
def spent : Stage → Bool
  | .exhausted _ => true
  | _ => false

/-- The uuid that `enqueue` draws names no notice a pass has claimed. -/
def FreshId (e : HostEvent) : Prop :=
  match e.action with
  | .enqueue _ _ _ ident _ => ∀ p ∈ e.before.passes, ident ∉ ids p
  | _ => True

/-- Claims pass over unwritten outcomes; a pass sends and writes under the latest claim. -/
def Held (e : HostEvent) : Prop :=
  match e.action with
  | .claim limit now => ∀ row ∈ claimedRows e.before.queue limit now, ∀ p ∈ e.before.passes,
      At p row.id → accepted p.stage = false ∧ spent p.stage = false
  | .look index (.sent _ _) => ∀ p row, e.before.running index = some (p, row) → p.stage = .looking →
      LatestClaim e.before index row.id
  | .write index _ _ => ∀ p row, e.before.running index = some (p, row) → p.stage ≠ .looking →
      LatestClaim e.before index row.id
  | _ => True

/-- What the database call of a pass at a notice does to the pass and to the queue. -/
inductive Written (maxAttempts : Nat) (p : Pass) (ident : String) (s : Queue) (now : Instant) :
    Pass × Queue → Prop where
  | idle : p.stage = .looking → Written maxAttempts p ident s now (p, s)
  | republishing {detail channel text : String} : p.stage = .publishing detail channel →
      Written maxAttempts p ident s now (p.withStage (.republishing text channel), s)
  | raised : Written maxAttempts p ident s now (p.stop, s)
  | settled {status : NoticeStatus} {detail : String} {channel : Option String} {p' : Pass} :
      p.stage ≠ .looking → (∀ detail channel raises, p.stage ≠ .finishing .queued detail channel raises) →
      status ≠ .queued → (p' = p.next ∨ p' = p.stop) →
      Written maxAttempts p ident s now (p', finish s ident status detail channel now)
  | lost {detail channel : String} : p.stage = .recording detail channel → s.find ident = none →
      Written maxAttempts p ident s now (p.stop, (recordFailure s ident detail channel now).2)
  | failed {detail channel : String} {row : NoticeRow} {p' : Pass} : p.stage = .recording detail channel →
      s.find ident = some row →
      ((maxAttempts ≤ row.attempts + 1 ∧ p' = p.withStage (.exhausted detail)) ∨
        (row.attempts + 1 < maxAttempts ∧ p' = p.next)) →
      Written maxAttempts p ident s now (p', (recordFailure s ident detail channel now).2)

theorem recorded_find (s : Queue) (detail channel : String) (now : Instant) (k : String) :
    (recordFailure s ident detail channel now).2.find k =
      if k = ident then (s.find k).map (failedOnce detail channel now) else s.find k :=
  s.find_update_key ident _ (failedOnce_id detail channel now) k

theorem finished_find (s : Queue) (status : NoticeStatus) (detail : String) (channel : Option String)
    (now : Instant) (k : String) : (finish s ident status detail channel now).find k =
      if k = ident then (s.find k).map (finished status detail channel now) else s.find k :=
  s.find_update_key ident _ (finished_id status detail channel now) k

theorem recorded_attempts (s : Queue) (detail channel : String) (now : Instant) :
    (recordFailure s ident detail channel now).1 = (s.find ident).map (fun row => row.attempts + 1) := by
  change ((recordFailure s ident detail channel now).2.find ident).map NoticeRow.attempts = _
  rw [recorded_find, if_pos rfl, map_map]
  rfl

theorem write_cases (final : ∀ detail channel raises, p.stage ≠ .finishing .queued detail channel raises)
    (s : Queue) (fault : Option String) (now : Instant) :
    Written maxAttempts p ident s now (p.write maxAttempts ident s fault now) := by
  unfold Pass.write
  split
  next stage => exact .idle stage
  next stage => exact .settled (by simp [stage]) final (by decide) (.inl rfl)
  next stage => exact .republishing stage
  next stage => exact .settled (by simp [stage]) final (by decide) (.inl rfl)
  next status detail channel raises stage =>
    have terminal : status ≠ .queued := by
      rintro rfl
      exact final _ _ _ stage
    refine .settled (by simp [stage]) final terminal ?_
    split
    · exact .inr rfl
    · exact .inl rfl
  next detail channel stage =>
    rw [recorded_attempts]
    cases found : s.find ident with
    | none => exact .lost stage found
    | some row =>
      refine .failed stage found ?_
      rw [map_some, Pass.afterFailure]
      split
      next enough => exact .inl ⟨enough, rfl⟩
      next fewer => exact .inr ⟨Nat.lt_of_not_le fewer, rfl⟩
  next stage => exact .settled (by simp [stage]) final (by decide) (.inl rfl)
  next => exact .raised

/-- The row under an id after a step, by the row before it. -/
inductive Becomes (s : Hosts) (action : Action) : Option NoticeRow → NoticeRow → Prop where
  | kept {row row' : NoticeRow} : row'.status = row.status → row'.text = row.text →
      row'.attempts = row.attempts → Becomes s action (some row) row'
  | added {t : Takeover} {sessionId userId ident : String} {now : Instant} :
      action = .enqueue t sessionId userId ident now →
      Becomes s action none (newNotice t sessionId userId ident now)
  | settled {index : Nat} {fault : Option String} {now : Instant} {p : Pass} {c row : NoticeRow}
      {status : NoticeStatus} {detail : String} {channel : Option String} :
      action = .write index fault now → s.running index = some (p, c) → c.id = row.id →
      p.stage ≠ .looking → status ≠ .queued →
      Becomes s action (some row) (finished status detail channel now row)
  | failed {index : Nat} {fault : Option String} {now : Instant} {p : Pass} {c row : NoticeRow}
      {detail channel : String} : action = .write index fault now → s.running index = some (p, c) →
      c.id = row.id → p.stage = .recording detail channel →
      Becomes s action (some row) (failedOnce detail channel now row)

variable {action : Action} {index place : Nat} {c row' : NoticeRow} {k : String} {p p' q : Pass}
  {now : Instant}

theorem becomes_same (row : NoticeRow) : Becomes s action (some row) row :=
  .kept rfl rfl rfl

theorem insertNotice_find (s : Queue) (new : NoticeRow) (k : String) :
    (insertNotice s new).find k = s.find k ∨
      (s.find k = none ∧ (insertNotice s new).find k = some new) := by
  unfold insertNotice
  split
  next =>
    cases fresh : s.find new.id with
    | some row => exact .inl (by rw [insertOrIgnore_conflict fresh])
    | none =>
      rw [insertOrIgnore_fresh fresh, find_insert]
      split
      next here => exact .inr ⟨by rw [← here, fresh], rfl⟩
      next => exact .inl rfl
  next => exact .inl rfl

theorem enqueue_find (s : Queue) (t : Takeover) (sessionId userId ident : String) (now : Instant)
    (k : String) : (enqueue s t sessionId userId ident now).2.find k = s.find k ∨
      (s.find k = none ∧ (enqueue s t sessionId userId ident now).2.find k =
        some (newNotice t sessionId userId ident now)) := by
  have inserted := insertNotice_find s (newNotice t sessionId userId ident now) k
  unfold enqueue
  dsimp only
  split
  next => exact .inl rfl
  next row found =>
    split
    · exact inserted
    · exact .inl rfl

theorem lease_find (s : Queue) (rows : List NoticeRow) (now : Instant) (k : String) :
    (lease s rows now).find k = (s.find k).map (fun row =>
      if rows.any (fun claimed => decide (claimed.id = row.id)) then leased (now + minutes 5) row else row) :=
  s.find_update _ _ (leased_id (now + minutes 5)) k

theorem running_pass (run : s.running index = some (p, c)) :
    s.passes[index]? = some p ∧ p.stopped = false ∧ p.here = some c := by
  obtain ⟨q, there, rest⟩ := bind_eq_some_iff.mp run
  split at rest
  next => cases rest
  next running =>
    obtain ⟨row, here, same⟩ := map_eq_some_iff.mp rest
    cases same
    exact ⟨there, by simpa using running, here⟩

/-- No stage finishes a notice as queued. -/
def Final (s : Hosts) : Prop :=
  ∀ p ∈ s.passes, ∀ detail channel raises, p.stage ≠ .finishing .queued detail channel raises

theorem row_step (final : Final s) (action : Action)
    (after : (s.step maxAttempts action).2.queue.find k = some row') :
    Becomes s action (s.queue.find k) row' := by
  cases action with
  | enqueue t sessionId userId ident now =>
    rcases enqueue_find s.queue t sessionId userId ident now k with same | ⟨absent, added⟩
    · rw [← same, show (enqueue s.queue t sessionId userId ident now).2.find k = some row' from after]
      exact becomes_same row'
    · rw [absent]
      rw [show (s.step maxAttempts (.enqueue t sessionId userId ident now)).2.queue.find k = _ from added]
        at after
      cases after
      exact .added rfl
  | claim limit now =>
    have found := lease_find s.queue (claimedRows s.queue limit now) now k
    rw [show (lease s.queue (claimedRows s.queue limit now) now).find k = some row' from after] at found
    obtain ⟨row, before, changed⟩ := map_eq_some_iff.mp found.symm
    rw [before]
    split at changed <;> (subst changed; exact .kept rfl rfl rfl)
  | look index found =>
    have same : (s.step maxAttempts (.look index found)).2.queue = s.queue := by
      unfold Hosts.step
      dsimp only
      split
      · split <;> rfl
      · rfl
    rw [same] at after
    rw [after]
    exact becomes_same row'
  | stop index =>
    have same : (s.step maxAttempts (.stop index)).2.queue = s.queue := by
      unfold Hosts.step
      dsimp only
      split <;> rfl
    rw [same] at after
    rw [after]
    exact becomes_same row'
  | deleteUser userId =>
    have found := s.queue.find_delete (fun row => decide (row.userId = userId)) k
    rw [show (s.queue.delete _).find k = some row' from after] at found
    rw [(filter_eq_some_iff.mp found.symm).1]
    exact becomes_same row'
  | write index fault now =>
    unfold Hosts.step at after
    dsimp only at after
    split at after
    next p c run =>
      obtain ⟨there, running, here⟩ := running_pass run
      have written := @write_cases maxAttempts p c.id (final p (List.mem_of_getElem? there)) s.queue
        fault now
      generalize p.write maxAttempts c.id s.queue fault now = result at after written
      cases written with
      | idle stage | republishing stage | raised => rw [after]; exact becomes_same row'
      | settled acting _ terminal _ =>
        rw [finished_find] at after
        split at after
        next same =>
          obtain ⟨row, before, changed⟩ := map_eq_some_iff.mp after
          rw [before, ← changed]
          exact .settled rfl run (by rw [← same, key_of_find before]) acting terminal
        next => rw [after]; exact becomes_same row'
      | lost stage gone =>
        rw [recorded_find] at after
        split at after
        next same => rw [same, gone] at after; cases after
        next => rw [after]; exact becomes_same row'
      | failed stage before _ =>
        rw [recorded_find] at after
        split at after
        next same =>
          subst same
          rw [before] at after
          cases after
          rw [before]
          exact .failed rfl run (key_of_find before).symm stage
        next => rw [after]; exact becomes_same row'
    next => rw [after]; exact becomes_same row'

/-- The pass at an index after a step. -/
inductive Moves (maxAttempts : Nat) (s : Hosts) (index : Nat) : Action → Pass → Prop where
  | idle {action : Action} {p : Pass} : s.passes[index]? = some p →
      (∀ fault now q c, action = .write index fault now → s.running index = some (q, c) →
        q.stage = .looking) → Moves maxAttempts s index action p
  | claimed {limit : Int} {now : Instant} : index = s.passes.length →
      Moves maxAttempts s index (.claim limit now) ⟨claimedRows s.queue limit now, 0, .looking, false⟩
  | stopped {p : Pass} : s.passes[index]? = some p → Moves maxAttempts s index (.stop index) p.stop
  | looked {p : Pass} {c : NoticeRow} {found : Look} : s.running index = some (p, c) →
      p.stage = .looking →
      Moves maxAttempts s index (.look index found) (p.withStage (found.stage c.userId))
  | wrote {p : Pass} {c : NoticeRow} {fault : Option String} {now : Instant} :
      s.running index = some (p, c) → p.stage ≠ .looking → Moves maxAttempts s index
        (.write index fault now) (p.write maxAttempts c.id s.queue fault now).1

theorem set_cases {passes : List Pass} {other : Nat} (there : passes[index]? = some p)
    (found : (passes.set index q)[other]? = some p') :
    (other = index ∧ p' = q) ∨ (other ≠ index ∧ passes[other]? = some p') := by
  by_cases same : index = other
  · subst same
    rw [List.getElem?_set_self' , there] at found
    cases found
    exact .inl ⟨rfl, rfl⟩
  · rw [List.getElem?_set_ne same] at found
    exact .inr ⟨fun here => same here.symm, found⟩

theorem moves_idle (there : s.passes[index]? = some p)
    (other : ∀ fault now, action ≠ .write index fault now) : Moves maxAttempts s index action p :=
  .idle there (fun fault now _ _ same => absurd same (other fault now))

theorem pass_step (action : Action)
    (after : (s.step maxAttempts action).2.passes[index]? = some p') :
    Moves maxAttempts s index action p' := by
  cases action with
  | enqueue | deleteUser => exact moves_idle after (by simp)
  | claim limit now =>
    rw [show (s.step maxAttempts (.claim limit now)).2.passes =
      s.passes ++ [⟨claimedRows s.queue limit now, 0, .looking, false⟩] from rfl,
      List.getElem?_append] at after
    split at after
    next => exact moves_idle after (by simp)
    next past =>
      rw [List.getElem?_singleton] at after
      split at after
      next first =>
        cases after
        exact .claimed (by omega)
      next => cases after
  | look other found =>
    unfold Hosts.step at after
    dsimp only at after
    split at after
    next p c run =>
      split at after
      next stage =>
        rcases set_cases (running_pass run).1 after with ⟨rfl, rfl⟩ | ⟨-, same⟩
        · exact .looked run stage
        · exact moves_idle same (by simp)
      next => exact moves_idle after (by simp)
    next => exact moves_idle after (by simp)
  | write other fault now =>
    unfold Hosts.step at after
    dsimp only at after
    split at after
    next p c run =>
      rcases set_cases (running_pass run).1 after with ⟨rfl, rfl⟩ | ⟨different, same⟩
      · by_cases stage : p.stage = .looking
        · have idle : p.write maxAttempts c.id s.queue fault now = (p, s.queue) := by
            unfold Pass.write
            rw [stage]
          rw [idle]
          refine .idle (running_pass run).1 (fun _ _ q d _ again => ?_)
          rw [run] at again
          cases again
          exact stage
        · exact .wrote run stage
      · refine moves_idle same (fun fault now here => ?_)
        cases here
        exact different rfl
    next none =>
      refine .idle after (fun _ _ q c here run => ?_)
      cases here
      rw [run] at none
      cases none
  | stop other =>
    unfold Hosts.step at after
    dsimp only at after
    split at after
    next p there =>
      rcases set_cases there after with ⟨rfl, rfl⟩ | ⟨-, same⟩
      · exact .stopped there
      · exact moves_idle same (by simp)
    next => exact moves_idle after (by simp)

theorem write_claimed (p : Pass) (ident : String) (queue : Queue) (fault : Option String) (now : Instant) :
    (p.write maxAttempts ident queue fault now).1.claimed = p.claimed := by
  unfold Pass.write
  split
  case h_6 => unfold Pass.afterFailure; split <;> (try split) <;> rfl
  case h_5 => split <;> rfl
  all_goals rfl

theorem set_stays {passes : List Pass} {other : Nat} {q' : Pass} (at_ : passes[other]? = some q)
    (same : q'.claimed = q.claimed) (there : passes[index]? = some p) :
    ∃ p', (passes.set other q')[index]? = some p' ∧ p'.claimed = p.claimed := by
  by_cases here : other = index
  · subst here
    rw [at_] at there
    cases there
    exact ⟨q', by rw [List.getElem?_set_self', at_]; rfl, same⟩
  · exact ⟨p, by rw [List.getElem?_set_ne here, there], rfl⟩

theorem pass_stays (action : Action) {index : Nat} (there : s.passes[index]? = some p) :
    ∃ p', (s.step maxAttempts action).2.passes[index]? = some p' ∧ p'.claimed = p.claimed := by
  cases action with
  | enqueue | deleteUser => exact ⟨p, there, rfl⟩
  | claim limit now =>
    refine ⟨p, ?_, rfl⟩
    rw [show (s.step maxAttempts (.claim limit now)).2.passes =
      s.passes ++ [⟨claimedRows s.queue limit now, 0, .looking, false⟩] from rfl,
      List.getElem?_append_left (List.getElem?_eq_some_iff.mp there).1]
    exact there
  | look other found =>
    unfold Hosts.step
    dsimp only
    split
    next q c run =>
      split
      · exact set_stays (running_pass run).1 rfl there
      · exact ⟨p, there, rfl⟩
    next => exact ⟨p, there, rfl⟩
  | write other fault now =>
    unfold Hosts.step
    dsimp only
    split
    next q c run => exact set_stays (running_pass run).1 (write_claimed q c.id s.queue fault now) there
    next => exact ⟨p, there, rfl⟩
  | stop other =>
    unfold Hosts.step
    dsimp only
    split
    next q at_ => exact set_stays at_ rfl there
    next => exact ⟨p, there, rfl⟩

theorem latest_before (latest : LatestClaim (s.step maxAttempts action).2 index ident) :
    LatestClaim s index ident := by
  intro later p after there
  obtain ⟨p', found, same⟩ := @pass_stays maxAttempts s p action later there
  have none := latest later p' after found
  rw [ids, same] at none
  exact none

/-- A notice that a running pass has still to settle, under the latest claim. -/
structure Ahead (s : Hosts) (index : Nat) (p : Pass) (place : Nat) (c : NoticeRow) : Prop where
  there : s.passes[index]? = some p
  running : p.stopped = false
  reached : p.position ≤ place
  claimed : p.claimed[place]? = some c
  latest : LatestClaim s index c.id

/-- What holds of the hosts in a run whose steps are held. -/
structure Sound (maxAttempts : Nat) (s : Hosts) : Prop where
  apart : ∀ p ∈ s.passes, (ids p).Nodup
  final : Final s
  rows : ∀ k row, s.queue.find k = some row →
    (row.text ≠ none ↔ row.status = .queued) ∧ row.attempts ≤ maxAttempts
  room : ∀ k row, s.queue.find k = some row → row.status = .queued →
    row.attempts < maxAttempts ∨ ∃ p ∈ s.passes, At p k ∧ spent p.stage = true
  ahead : ∀ index p place c, Ahead s index p place c → ∀ row, s.queue.find c.id = some row →
    row.status = .queued ∧ (row.attempts < maxAttempts ∨ (place = p.position ∧ spent p.stage = true))
  known : ∀ k row, s.queue.find k = some row → row.status ≠ .queued → ∃ p ∈ s.passes, k ∈ ids p

theorem claimedRows_mem {queue : Queue} {limit : Int} (mem : c ∈ claimedRows queue limit now) :
    c ∈ queue ∧ c.status = .queued := by
  have selected := (List.mem_insertionSort _).mp (List.mem_of_mem_take mem)
  obtain ⟨stored, met⟩ := List.mem_filter.mp selected
  simp only [claimable, Bool.and_eq_true, decide_eq_true_eq] at met
  exact ⟨stored, met.1⟩

theorem claimedRows_apart (queue : Queue) (limit : Int) (now : Instant) :
    ((claimedRows queue limit now).map NoticeRow.id).Nodup := by
  have distinct : ((queue.select (claimable now)).map NoticeRow.id).Nodup :=
    (List.filter_sublist.map NoticeRow.id).nodup queue.unique
  have sorted := ((List.perm_insertionSort (fun a b : NoticeRow => a.createdAt ≤ b.createdAt)
    (queue.select (claimable now))).map NoticeRow.id).nodup_iff.mpr distinct
  exact ((List.take_sublist _ _).map NoticeRow.id).nodup sorted

theorem look_final (found : Look) (userId detail : String) (channel : Option String) (raises : Bool) :
    found.stage userId ≠ .finishing .queued detail channel raises := by
  intro same
  cases found with
  | sent reply => cases reply <;> simp [Look.stage] at same
  | ended | unknownUser | unsent => simp [Look.stage] at same

theorem step_apart {s : Hosts} (apart : ∀ p ∈ s.passes, (ids p).Nodup) (action : Action) :
    ∀ p ∈ (s.step maxAttempts action).2.passes, (ids p).Nodup := by
  intro p' mem
  obtain ⟨index, after⟩ := List.mem_iff_getElem?.mp mem
  cases pass_step action after with
  | idle there => exact apart p' (List.mem_of_getElem? there)
  | claimed => exact claimedRows_apart s.queue _ _
  | @stopped p there => exact apart p (List.mem_of_getElem? there)
  | @looked p c found run => exact apart p (List.mem_of_getElem? (running_pass run).1)
  | @wrote p c fault now run =>
    rw [ids, write_claimed]
    exact apart p (List.mem_of_getElem? (running_pass run).1)

theorem step_final {s : Hosts} (final : Final s) (action : Action) :
    Final (s.step maxAttempts action).2 := by
  intro p' mem detail channel raises
  obtain ⟨index, after⟩ := List.mem_iff_getElem?.mp mem
  cases pass_step action after with
  | idle there => exact final p' (List.mem_of_getElem? there) detail channel raises
  | claimed => exact nofun
  | stopped there => exact final _ (List.mem_of_getElem? there) detail channel raises
  | looked run => exact look_final _ _ detail channel raises
  | @wrote p c fault now run stage =>
    have here := final p (List.mem_of_getElem? (running_pass run).1)
    have written := @write_cases maxAttempts p c.id here s.queue fault now
    generalize p.write maxAttempts c.id s.queue fault now = result at written
    cases written with
    | idle => exact here detail channel raises
    | republishing => exact nofun
    | raised => exact here detail channel raises
    | settled _ _ _ next =>
      rcases next with rfl | rfl
      · exact nofun
      · exact here detail channel raises
    | lost => exact here detail channel raises
    | failed _ _ next =>
      rcases next with ⟨-, rfl⟩ | ⟨-, rfl⟩ <;> exact nofun

theorem ahead_here (run : s.running index = some (p, c)) (latest : LatestClaim s index c.id) :
    Ahead s index p p.position c :=
  ⟨(running_pass run).1, (running_pass run).2.1, Nat.le_refl _, (running_pass run).2.2, latest⟩

theorem ids_mem (claimed : p.claimed[place]? = some c) : c.id ∈ ids p :=
  List.mem_map_of_mem (List.mem_of_getElem? claimed)

theorem here_mem (here : p.here = some c) : c.id ∈ ids p := ids_mem here

theorem latest_one {i j : Nat} (first : s.passes[i]? = some p) (mine : ident ∈ ids p)
    (latest : LatestClaim s i ident) (second : s.passes[j]? = some q) (other : ident ∈ ids q)
    (last : LatestClaim s j ident) : i = j := by
  rcases Nat.lt_trichotomy i j with before | same | after
  · exact absurd other (latest j q before second)
  · exact same
  · exact absurd mine (last i p after first)

theorem place_one (apart : (ids p).Nodup) {i j : Nat} {d : NoticeRow}
    (first : p.claimed[i]? = some c) (second : p.claimed[j]? = some d) (same : c.id = d.id) :
    i = j := by
  have left : (ids p)[i]? = some c.id := by rw [ids, List.getElem?_map, first]; rfl
  have right : (ids p)[j]? = some c.id := by rw [ids, List.getElem?_map, second, same]; rfl
  obtain ⟨bound, -⟩ := List.getElem?_eq_some_iff.mp left
  exact (List.getElem?_inj bound apart).mp (left.trans right.symm)

theorem at_here (here : p.here = some c) : At p ident ↔ c.id = ident := by
  rw [At, here, map_some, some_inj]

theorem marked_stays {mark : Stage → Bool} (there : s.passes[index]? = some p)
    (kept : At p k → mark p.stage = true → At p' k ∧ mark p'.stage = true)
    (marked : ∃ q ∈ s.passes, At q k ∧ mark q.stage = true) :
    ∃ q ∈ s.passes.set index p', At q k ∧ mark q.stage = true := by
  obtain ⟨q, mem, here, spent⟩ := marked
  obtain ⟨j, found⟩ := List.mem_iff_getElem?.mp mem
  by_cases same : index = j
  · subst same
    rw [there] at found
    cases found
    refine ⟨p', ?_, kept here spent⟩
    exact List.mem_of_getElem? (by rw [List.getElem?_set_self', there]; rfl)
  · exact ⟨q, List.mem_of_getElem? (by rw [List.getElem?_set_ne same, found]), here, spent⟩

theorem marked_other {mark : Stage → Bool} (looking : mark .looking = false)
    (other : ∀ index fault now, action ≠ .write index fault now)
    (marked : ∃ q ∈ s.passes, At q k ∧ mark q.stage = true) :
    ∃ q ∈ (s.step maxAttempts action).2.passes, At q k ∧ mark q.stage = true := by
  obtain ⟨q, mem, here, spent⟩ := marked
  obtain ⟨j, found⟩ := List.mem_iff_getElem?.mp mem
  obtain ⟨q', after, -⟩ := @pass_stays maxAttempts s q action j found
  have stays : q' ∈ (s.step maxAttempts action).2.passes := List.mem_of_getElem? after
  cases pass_step action after with
  | idle there =>
    rw [found] at there
    cases there
    exact ⟨q, stays, here, spent⟩
  | claimed last =>
    have bound := (List.getElem?_eq_some_iff.mp found).1
    omega
  | @stopped p there =>
    rw [found] at there
    cases there
    exact ⟨q.stop, stays, here, spent⟩
  | looked run stage =>
    rw [(running_pass run).1] at found
    cases found
    rw [stage, looking] at spent
    cases spent
  | wrote => exact absurd rfl (other _ _ _)

theorem write_step (run : s.running index = some (p, c)) (fault : Option String) (now : Instant) :
    (s.step maxAttempts (.write index fault now)).2 =
      ⟨(p.write maxAttempts c.id s.queue fault now).2,
        s.passes.set index (p.write maxAttempts c.id s.queue fault now).1⟩ := by
  unfold Hosts.step
  dsimp only
  rw [run]

theorem write_none (run : s.running index = none) (fault : Option String) (now : Instant) :
    (s.step maxAttempts (.write index fault now)).2 = s := by
  unfold Hosts.step
  dsimp only
  rw [run]

theorem set_mem (there : s.passes[index]? = some p) (p' : Pass) : p' ∈ s.passes.set index p' :=
  List.mem_of_getElem? (by rw [List.getElem?_set_self', there]; rfl)

/-- A queued row that has no room for a further attempt is held by the pass that spent the last. -/
theorem write_room (sound : Sound maxAttempts s) (run : s.running index = some (p, c))
    (fault : Option String) (now : Instant)
    (after : (p.write maxAttempts c.id s.queue fault now).2.find k = some row')
    (queued : row'.status = .queued) : row'.attempts < maxAttempts ∨
      ∃ q ∈ s.passes.set index (p.write maxAttempts c.id s.queue fault now).1,
        At q k ∧ spent q.stage = true := by
  obtain ⟨there, running, here⟩ := running_pass run
  have written := @write_cases maxAttempts p c.id (sound.final p (List.mem_of_getElem? there)) s.queue
    fault now
  generalize p.write maxAttempts c.id s.queue fault now = result at after written
  have kept : ∀ p', s.queue.find k = some row' →
      (At p k → spent p.stage = true → At p' k ∧ spent p'.stage = true) →
      row'.attempts < maxAttempts ∨ ∃ q ∈ s.passes.set index p', At q k ∧ spent q.stage = true := by
    intro p' before stays
    rcases sound.room k row' before queued with room | marked
    · exact .inl room
    · exact .inr (marked_stays there stays marked)
  have elsewhere : ∀ p', ¬ k = c.id → s.queue.find k = some row' →
      row'.attempts < maxAttempts ∨ ∃ q ∈ s.passes.set index p', At q k ∧ spent q.stage = true :=
    fun p' other before => kept p' before (fun at_ _ => absurd ((at_here here).mp at_).symm other)
  cases written with
  | idle => exact kept p after (fun at_ spent => ⟨at_, spent⟩)
  | republishing stage =>
    refine kept _ after (fun _ spent => ?_)
    rw [stage] at spent
    cases spent
  | raised => exact kept p.stop after (fun at_ spent => ⟨at_, spent⟩)
  | settled _ _ terminal _ =>
    rw [finished_find] at after
    split at after
    next =>
      obtain ⟨row, -, changed⟩ := map_eq_some_iff.mp after
      rw [← changed] at queued
      exact absurd queued terminal
    next other => exact elsewhere _ other after
  | lost _ gone =>
    rw [recorded_find] at after
    split at after
    next same => rw [same, gone] at after; cases after
    next other => exact elsewhere _ other after
  | failed _ before next =>
    rw [recorded_find] at after
    split at after
    next same =>
      subst same
      rw [before] at after
      cases after
      rcases next with ⟨-, rfl⟩ | ⟨room, -⟩
      · exact .inr ⟨_, set_mem there _, (at_here here).mpr rfl, rfl⟩
      · exact .inl room
    next other => exact elsewhere _ other after

/-- What a write leaves of the notices its pass has still to settle. -/
inductive Acted (s : Hosts) (p : Pass) (place : Nat) (c : NoticeRow) : Pass → Queue → Prop where
  | again {detail channel text other : String} : p.stage = .publishing detail channel →
      Acted s p place c (p.withStage (.republishing text other)) s.queue
  | spent {detail channel text : String} {queue : Queue} : p.stage = .recording detail channel →
      (∀ row', queue.find c.id = some row' → ∃ row, s.queue.find c.id = some row ∧
        row'.status = row.status ∧ (place ≠ p.position → row'.attempts = row.attempts)) →
      Acted s p place c (p.withStage (.exhausted text)) queue
  | later {p' : Pass} {queue : Queue} : place ≠ p.position → queue.find c.id = s.queue.find c.id →
      Acted s p place c p' queue

theorem ahead_write (final : Final s) (apart : ∀ p ∈ s.passes, (ids p).Nodup) {here : NoticeRow}
    {fault : Option String} (run : s.running index = some (p, here)) (stage : p.stage ≠ .looking)
    (ahead : Ahead (s.step maxAttempts (.write index fault now)).2 index
      (p.write maxAttempts here.id s.queue fault now).1 place c) :
    Ahead s index p place c ∧ Acted s p place c (p.write maxAttempts here.id s.queue fault now).1
      (p.write maxAttempts here.id s.queue fault now).2 := by
  obtain ⟨there, running, at_⟩ := running_pass run
  have distinct := apart p (List.mem_of_getElem? there)
  have claimed := ahead.claimed
  rw [write_claimed] at claimed
  have before : p.position ≤ place → Ahead s index p place c :=
    fun reached => ⟨there, running, reached, claimed, latest_before ahead.latest⟩
  -- a notice further on is another one
  have other : p.position + 1 ≤ place → c.id ≠ here.id := by
    intro further same
    have one := place_one distinct claimed at_ same
    omega
  have goes := ahead.running
  have reached := ahead.reached
  have written := @write_cases maxAttempts p here.id (final p (List.mem_of_getElem? there)) s.queue
    fault now
  generalize p.write maxAttempts here.id s.queue fault now = result at goes reached written ⊢
  cases written with
  | idle looking => exact absurd looking stage
  | republishing publishing => exact ⟨before reached, .again publishing⟩
  | raised => cases goes
  | settled _ _ _ next =>
    rcases next with rfl | rfl
    · have further : p.position + 1 ≤ place := reached
      refine ⟨before (by omega), .later (by omega) ?_⟩
      rw [finished_find, if_neg (other further)]
    · cases goes
  | lost => cases goes
  | failed recording found next =>
    rcases next with ⟨-, rfl⟩ | ⟨-, rfl⟩
    · refine ⟨before reached, .spent recording ?_⟩
      intro row' after
      rw [recorded_find] at after
      split at after
      next same =>
        obtain ⟨row, stored, changed⟩ := map_eq_some_iff.mp after
        subst changed
        exact ⟨row, stored, rfl, fun apart => absurd (place_one distinct claimed at_ same) apart⟩
      next => exact ⟨row', after, rfl, fun _ => rfl⟩
    · have further : p.position + 1 ≤ place := reached
      refine ⟨before (by omega), .later (by omega) ?_⟩
      rw [recorded_find, if_neg (other further)]

/-- The event of an action. -/
abbrev eventOf (maxAttempts : Nat) (s : Hosts) (action : Action) : HostEvent :=
  ⟨s, action, (s.step maxAttempts action).1, (s.step maxAttempts action).2⟩

theorem held_write {fault : Option String}
    (held : Held (eventOf maxAttempts s (.write index fault now)))
    (run : s.running index = some (p, c)) (stage : p.stage ≠ .looking) : LatestClaim s index c.id :=
  held p c run stage

theorem known_stays (action : Action) (known : ∃ p ∈ s.passes, k ∈ ids p) :
    ∃ p ∈ (s.step maxAttempts action).2.passes, k ∈ ids p := by
  obtain ⟨p, mem, claimed⟩ := known
  obtain ⟨index, there⟩ := List.mem_iff_getElem?.mp mem
  obtain ⟨p', after, same⟩ := @pass_stays maxAttempts s p action index there
  refine ⟨p', List.mem_of_getElem? after, ?_⟩
  rw [ids, same]
  exact claimed

theorem other_row (final : Final s) (other : ∀ index fault now, action ≠ .write index fault now)
    (after : (s.step maxAttempts action).2.queue.find k = some row') :
    (∃ row, s.queue.find k = some row ∧ row'.status = row.status ∧ row'.attempts = row.attempts) ∨
      (s.queue.find k = none ∧ row'.status = .queued ∧ row'.attempts = 0) := by
  have became := row_step final action after
  generalize s.queue.find k = found at became
  cases became with
  | kept status _ attempts => exact .inl ⟨_, rfl, status, attempts⟩
  | added => exact .inr ⟨rfl, rfl, rfl⟩
  | settled acts => exact absurd acts (other _ _ _)
  | failed acts => exact absurd acts (other _ _ _)

section Step

variable {action : Action} (sound : Sound maxAttempts s)
include sound

theorem step_rows (held : Held (eventOf maxAttempts s action))
    (after : (s.step maxAttempts action).2.queue.find k = some row') :
    (row'.text ≠ none ↔ row'.status = .queued) ∧ row'.attempts ≤ maxAttempts := by
  have became := row_step sound.final action after
  generalize before : s.queue.find k = found at became
  cases became with
  | kept status text attempts =>
    rw [status, text, attempts]
    exact sound.rows k _ before
  | added => exact ⟨⟨fun _ => rfl, fun _ => by simp [newNotice]⟩, Nat.zero_le _⟩
  | @settled _ _ _ _ _ row status _ _ _ _ _ _ terminal =>
    refine ⟨⟨fun present => absurd rfl present, fun queued => absurd queued terminal⟩, ?_⟩
    exact (sound.rows k row before).2
  | @failed index fault now p c row _ _ acts run same stage =>
    subst acts
    have latest := held_write held run (by simp [stage])
    have unsettled := sound.ahead index p p.position c (ahead_here run latest) row
      (by rw [same, key_of_find before, before])
    refine ⟨(sound.rows k row before).1, ?_⟩
    rcases unsettled.2 with room | ⟨-, last⟩
    · exact room
    · rw [stage] at last
      cases last

theorem step_known (after : (s.step maxAttempts action).2.queue.find k = some row')
    (terminal : row'.status ≠ .queued) : ∃ p ∈ (s.step maxAttempts action).2.passes, k ∈ ids p := by
  apply known_stays
  have became := row_step sound.final action after
  generalize before : s.queue.find k = found at became
  cases became with
  | kept status =>
    rw [status] at terminal
    exact sound.known k _ before terminal
  | added => exact absurd rfl terminal
  | @settled index _ _ p c row _ _ _ _ run same =>
    obtain ⟨there, -, here⟩ := running_pass run
    refine ⟨p, List.mem_of_getElem? there, ?_⟩
    rw [← key_of_find before, ← same]
    exact here_mem here
  | failed => exact sound.known k _ before terminal

theorem step_room (positive : 0 < maxAttempts)
    (after : (s.step maxAttempts action).2.queue.find k = some row')
    (queued : row'.status = .queued) :
    row'.attempts < maxAttempts ∨
      ∃ q ∈ (s.step maxAttempts action).2.passes, At q k ∧ spent q.stage = true := by
  by_cases write : ∃ index fault now, action = .write index fault now
  · obtain ⟨index, fault, now, rfl⟩ := write
    cases run : s.running index with
    | none =>
      rw [write_none run] at after ⊢
      exact sound.room k row' after queued
    | some found =>
      rw [write_step run] at after ⊢
      exact write_room sound run fault now after queued
  · have other : ∀ index fault now, action ≠ .write index fault now :=
      fun index fault now same => write ⟨index, fault, now, same⟩
    rcases other_row sound.final other after with ⟨row, before, status, attempts⟩ | ⟨-, -, none⟩
    · rcases sound.room k row before (by rw [← status, queued]) with room | marked
      · exact .inl (by rw [attempts]; exact room)
      · exact .inr (marked_other rfl other marked)
    · exact .inl (by rw [none]; exact positive)

/-- A row that the pass at an index has still to settle, after a step that acts on no pass there. -/
theorem step_apart_row (held : Held (eventOf maxAttempts s action))
    (ahead : Ahead s index p place c)
    (idle : ∀ fault now q d, action = .write index fault now → s.running index = some (q, d) →
      q.stage = .looking) (after : (s.step maxAttempts action).2.queue.find c.id = some row') :
    (∃ row, s.queue.find c.id = some row ∧ row'.status = row.status ∧ row'.attempts = row.attempts) ∨
      (s.queue.find c.id = none ∧ row'.status = .queued ∧ row'.attempts = 0) := by
  have elsewhere : ∀ other fault now q d, action = .write other fault now →
      s.running other = some (q, d) → q.stage ≠ .looking → d.id ≠ c.id := by
    rintro other fault now q d rfl run stage same
    obtain ⟨there, -, here⟩ := running_pass run
    have latest := held_write held run stage
    have mine := here_mem here
    rw [same] at latest mine
    have one := latest_one ahead.there (ids_mem ahead.claimed) ahead.latest there mine latest
    subst one
    exact stage (idle fault now q d rfl run)
  have became := row_step sound.final action after
  generalize before : s.queue.find c.id = found at became
  cases became with
  | kept status _ attempts => exact .inl ⟨_, rfl, status, attempts⟩
  | added => exact .inr ⟨rfl, rfl, rfl⟩
  | settled acts run same stage =>
    rw [key_of_find before] at same
    exact absurd same (elsewhere _ _ _ _ _ acts run stage)
  | failed acts run same stage =>
    rw [key_of_find before] at same
    exact absurd same (elsewhere _ _ _ _ _ acts run (by simp [stage]))

theorem step_ahead (positive : 0 < maxAttempts) (held : Held (eventOf maxAttempts s action))
    (ahead : Ahead (s.step maxAttempts action).2 index p' place c)
    (after : (s.step maxAttempts action).2.queue.find c.id = some row') :
    row'.status = .queued ∧
      (row'.attempts < maxAttempts ∨ (place = p'.position ∧ spent p'.stage = true)) := by
  cases pass_step action ahead.there with
  | idle there idle =>
    have before : Ahead s index p' place c :=
      ⟨there, ahead.running, ahead.reached, ahead.claimed, latest_before ahead.latest⟩
    rcases step_apart_row sound held before idle after with
      ⟨row, stored, status, attempts⟩ | ⟨-, queued, none⟩
    · rw [status, attempts]
      exact sound.ahead index p' place c before row stored
    · exact ⟨queued, .inl (by rw [none]; exact positive)⟩
  | @claimed limit now last =>
    have mem := List.mem_of_getElem? ahead.claimed
    obtain ⟨stored, queued⟩ := claimedRows_mem mem
    have before := find_of_mem stored
    rcases other_row sound.final (by simp) after with ⟨row, found, status, attempts⟩ | ⟨none, -⟩
    · rw [before] at found
      cases found
      refine ⟨status.trans queued, .inl ?_⟩
      rw [attempts]
      rcases sound.room c.id c before queued with room | ⟨p, passing, at_, last⟩
      · exact room
      · have open_ := (held c mem p passing at_).2
        rw [last] at open_
        cases open_
    · rw [before] at none
      cases none
  | stopped => cases ahead.running
  | @looked p d found run stage =>
    have before : Ahead s index p place c := ⟨(running_pass run).1, (running_pass run).2.1,
      ahead.reached, ahead.claimed, latest_before ahead.latest⟩
    rcases other_row sound.final (by simp) after with ⟨row, stored, status, attempts⟩ | ⟨-, queued, none⟩
    · obtain ⟨queued, room⟩ := sound.ahead index p place c before row stored
      rw [status, attempts]
      rcases room with room | ⟨-, last⟩
      · exact ⟨queued, .inl room⟩
      · rw [stage] at last
        cases last
    · exact ⟨queued, .inl (by rw [none]; exact positive)⟩
  | @wrote p d fault now run stage =>
    obtain ⟨before, acted⟩ := ahead_write sound.final sound.apart run stage ahead
    rw [write_step run] at after
    generalize p.write maxAttempts d.id s.queue fault now = result at after acted ⊢
    obtain ⟨p', queue⟩ := result
    cases acted with
    | again publishing =>
      obtain ⟨queued, room | ⟨-, last⟩⟩ := sound.ahead index p place c before row' after
      · exact ⟨queued, .inl room⟩
      · rw [publishing] at last
        cases last
    | spent recording rows =>
      obtain ⟨row, stored, status, attempts⟩ := rows row' after
      obtain ⟨queued, room | ⟨-, last⟩⟩ := sound.ahead index p place c before row stored
      · refine ⟨status.trans queued, ?_⟩
        by_cases here : place = p.position
        · exact .inr ⟨here, rfl⟩
        · exact .inl (by rw [attempts here]; exact room)
      · rw [recording] at last
        cases last
    | later further same =>
      rw [same] at after
      obtain ⟨queued, room | ⟨here, -⟩⟩ := sound.ahead index p place c before row' after
      · exact ⟨queued, .inl room⟩
      · exact absurd here further

theorem sound_step (positive : 0 < maxAttempts) (held : Held (eventOf maxAttempts s action)) :
    Sound maxAttempts (s.step maxAttempts action).2 where
  apart := step_apart sound.apart action
  final := step_final sound.final action
  rows := fun _ _ after => step_rows sound held after
  room := fun _ _ after queued => step_room sound positive after queued
  ahead := fun _ _ _ _ ahead _ after => step_ahead sound positive held ahead after
  known := fun _ _ after terminal => step_known sound after terminal

end Step

/-- A notice that a pass has settled: where its row still is, its status is the one it got. -/
structure Ended (status : NoticeStatus) (k : String) (s : Hosts) : Prop where
  known : ∃ p ∈ s.passes, k ∈ ids p
  rows : ∀ row, s.queue.find k = some row → row.status = status

theorem not_added {t : Takeover} {sessionId userId ident : String}
    (fresh : FreshId (eventOf maxAttempts s action)) (known : ∃ p ∈ s.passes, k ∈ ids p)
    (acts : action = .enqueue t sessionId userId ident now) (here : ident = k) : False := by
  subst acts here
  obtain ⟨p, mem, claimed⟩ := known
  exact fresh p mem claimed

theorem ended_step {status : NoticeStatus} (terminal : status ≠ .queued)
    (sound : Sound maxAttempts s) (fresh : FreshId (eventOf maxAttempts s action))
    (held : Held (eventOf maxAttempts s action)) (ended : Ended status k s) :
    Ended status k (s.step maxAttempts action).2 := by
  refine ⟨known_stays action ended.known, fun row' after => ?_⟩
  have became := row_step sound.final action after
  have key := key_of_find after
  generalize before : s.queue.find k = found at became
  cases became with
  | kept same => rw [same]; exact ended.rows _ before
  | added acts => exact (not_added fresh ended.known acts key).elim
  | @settled index _ _ p c row _ _ _ acts run same stage =>
    subst acts
    have unsettled := sound.ahead index p p.position c (ahead_here run (held_write held run stage)) row
      (by rw [same, key_of_find before, before])
    exact absurd (unsettled.1.symm.trans (ended.rows row before)).symm terminal
  | @failed _ _ _ _ _ row => exact ended.rows row before

/-- The event sends the notice. -/
def Sends (e : HostEvent) (ident : String) : Prop :=
  ∃ index reply channel p row, e.action = .look index (.sent reply channel) ∧
    e.before.running index = some (p, row) ∧ p.stage = .looking ∧ row.id = ident

/-- The event sends the notice, and the send is accepted. -/
def SendsAccepted (e : HostEvent) (ident : String) : Prop :=
  ∃ index detail channel p row, e.action = .look index (.sent (.accepted detail) channel) ∧
    e.before.running index = some (p, row) ∧ p.stage = .looking ∧ row.id = ident

/-- A notice whose send was accepted: what is left of it is to write that. -/
structure Taken (k : String) (s : Hosts) : Prop where
  known : ∃ p ∈ s.passes, k ∈ ids p
  rows : ∀ row, s.queue.find k = some row → row.status = .queued →
    ∃ p ∈ s.passes, At p k ∧ accepted p.stage = true
  ahead : ∀ index p place c, Ahead s index p place c → c.id = k →
    place = p.position ∧ accepted p.stage = true

theorem taken_unsent (held : Held (eventOf maxAttempts s action)) (taken : Taken k s) :
    ¬ Sends (eventOf maxAttempts s action) k := by
  rintro ⟨index, reply, channel, p, row, acts, run, stage, rfl⟩
  subst acts
  have latest : LatestClaim s index row.id := held p row run stage
  have accepted := (taken.ahead index p p.position row (ahead_here run latest) rfl).2
  rw [stage] at accepted
  cases accepted

/-- After a write a taken, queued notice is held by a pass that owes the acceptance. -/
theorem write_taken (final : Final s) (taken : Taken k s) (run : s.running index = some (p, c))
    (latest : p.stage ≠ .looking → LatestClaim s index c.id) (fault : Option String) (now : Instant)
    (after : (p.write maxAttempts c.id s.queue fault now).2.find k = some row')
    (queued : row'.status = .queued) :
    ∃ q ∈ s.passes.set index (p.write maxAttempts c.id s.queue fault now).1,
      At q k ∧ accepted q.stage = true := by
  obtain ⟨there, running, here⟩ := running_pass run
  have written := @write_cases maxAttempts p c.id (final p (List.mem_of_getElem? there)) s.queue
    fault now
  generalize p.write maxAttempts c.id s.queue fault now = result at after written
  have elsewhere : ∀ p', ¬ k = c.id → s.queue.find k = some row' →
      ∃ q ∈ s.passes.set index p', At q k ∧ accepted q.stage = true :=
    fun p' other before => marked_stays there
      (fun at_ _ => absurd ((at_here here).mp at_).symm other) (taken.rows row' before queued)
  cases written with
  | idle => exact marked_stays there (fun at_ done => ⟨at_, done⟩) (taken.rows row' after queued)
  | republishing =>
    exact marked_stays there (fun at_ _ => ⟨at_, rfl⟩) (taken.rows row' after queued)
  | raised =>
    have stays : At p k → accepted p.stage = true → At p.stop k ∧ accepted p.stop.stage = true :=
      fun at_ done => ⟨at_, done⟩
    exact marked_stays there stays (taken.rows row' after queued)
  | settled _ _ terminal _ =>
    rw [finished_find] at after
    split at after
    next =>
      obtain ⟨row, -, changed⟩ := map_eq_some_iff.mp after
      rw [← changed] at queued
      exact absurd queued terminal
    next other => exact elsewhere _ other after
  | lost _ gone =>
    rw [recorded_find] at after
    split at after
    next same => rw [same, gone] at after; cases after
    next other => exact elsewhere _ other after
  | failed recording =>
    rw [recorded_find] at after
    split at after
    next same =>
      have ahead := ahead_here run (latest (by simp [recording]))
      have done := (taken.ahead index p p.position c ahead same.symm).2
      rw [recording] at done
      cases done
    next other => exact elsewhere _ other after

theorem taken_rows (sound : Sound maxAttempts s) (fresh : FreshId (eventOf maxAttempts s action))
    (held : Held (eventOf maxAttempts s action)) (taken : Taken k s)
    (after : (s.step maxAttempts action).2.queue.find k = some row')
    (queued : row'.status = .queued) :
    ∃ p ∈ (s.step maxAttempts action).2.passes, At p k ∧ accepted p.stage = true := by
  by_cases write : ∃ index fault now, action = .write index fault now
  · obtain ⟨index, fault, now, rfl⟩ := write
    cases run : s.running index with
    | none =>
      rw [write_none run] at after ⊢
      exact taken.rows row' after queued
    | some found =>
      rw [write_step run] at after ⊢
      exact write_taken sound.final taken run (held_write held run) fault now after queued
  · have other : ∀ index fault now, action ≠ .write index fault now :=
      fun index fault now same => write ⟨index, fault, now, same⟩
    have became := row_step sound.final action after
    have key := key_of_find after
    generalize before : s.queue.find k = found at became
    cases became with
    | kept status => exact marked_other rfl other (taken.rows _ before (by rw [← status, queued]))
    | added acts => exact (not_added fresh taken.known acts key).elim
    | settled acts => exact absurd acts (other _ _ _)
    | failed acts => exact absurd acts (other _ _ _)

theorem taken_ahead (sound : Sound maxAttempts s) (held : Held (eventOf maxAttempts s action))
    (taken : Taken k s) (ahead : Ahead (s.step maxAttempts action).2 index p' place c)
    (same : c.id = k) : place = p'.position ∧ accepted p'.stage = true := by
  cases pass_step action ahead.there with
  | idle there =>
    exact taken.ahead index p' place c
      ⟨there, ahead.running, ahead.reached, ahead.claimed, latest_before ahead.latest⟩ same
  | claimed =>
    have mem := List.mem_of_getElem? ahead.claimed
    obtain ⟨stored, queued⟩ := claimedRows_mem mem
    have before := find_of_mem stored
    rw [same] at before
    obtain ⟨p, passing, at_, done⟩ := taken.rows c before queued
    rw [← same] at at_
    have open_ := (held c mem p passing at_).1
    rw [done] at open_
    cases open_
  | stopped => cases ahead.running
  | @looked p d found run stage =>
    have before : Ahead s index p place c := ⟨(running_pass run).1, (running_pass run).2.1,
      ahead.reached, ahead.claimed, latest_before ahead.latest⟩
    have done := (taken.ahead index p place c before same).2
    rw [stage] at done
    cases done
  | @wrote p d fault now run stage =>
    obtain ⟨before, acted⟩ := ahead_write sound.final sound.apart run stage ahead
    obtain ⟨here, done⟩ := taken.ahead index p place c before same
    generalize p.write maxAttempts d.id s.queue fault now = result at acted ⊢
    obtain ⟨p', queue⟩ := result
    cases acted with
    | again => exact ⟨here, rfl⟩
    | spent recording =>
      rw [recording] at done
      cases done
    | later further => exact absurd here further

theorem taken_step (sound : Sound maxAttempts s) (fresh : FreshId (eventOf maxAttempts s action))
    (held : Held (eventOf maxAttempts s action)) (taken : Taken k s) :
    Taken k (s.step maxAttempts action).2 where
  known := known_stays action taken.known
  rows := fun _ after queued => taken_rows sound fresh held taken after queued
  ahead := fun _ _ _ _ ahead same => taken_ahead sound held taken ahead same

theorem taken_start (sound : Sound maxAttempts s) (held : Held (eventOf maxAttempts s action))
    (sent : SendsAccepted (eventOf maxAttempts s action) k) :
    Taken k (s.step maxAttempts action).2 := by
  obtain ⟨index, detail, channel, p, row, acts, run, stage, same⟩ := sent
  subst acts same
  obtain ⟨there, running, here⟩ := running_pass run
  have latest : LatestClaim s index row.id := held p row run stage
  have after : (s.step maxAttempts (.look index (.sent (.accepted detail) channel))).2 =
      { s with passes := s.passes.set index (p.withStage (.publishing detail channel)) } := by
    unfold Hosts.step
    dsimp only
    rw [run]
    dsimp only
    rw [if_pos stage]
    rfl
  rw [after]
  refine ⟨⟨_, set_mem there _, here_mem here⟩,
    fun _ _ _ => ⟨_, set_mem there _, (at_here here).mpr rfl, rfl⟩, ?_⟩
  intro i q place c ahead same
  have before : LatestClaim s i c.id := by
    have last := ahead.latest
    rw [← after] at last
    exact latest_before last
  rcases set_cases there ahead.there with ⟨rfl, rfl⟩ | ⟨other, found⟩
  · exact ⟨place_one (sound.apart p (List.mem_of_getElem? there)) ahead.claimed here same, rfl⟩
  · have claimed := ids_mem ahead.claimed
    rw [same] at before claimed
    exact absurd (latest_one found claimed before there (here_mem here) latest) other

/-- Nothing is enqueued, and no pass has begun. -/
def atFirst : Hosts := ⟨Table.empty, []⟩

theorem sound_first : Sound maxAttempts atFirst where
  apart := nofun
  final := nofun
  rows := nofun
  room := nofun
  ahead := fun _ _ _ _ ahead => by cases ahead.there
  known := nofun

theorem event_of {actions : List Action} {e : HostEvent}
    (mem : e ∈ history (Hosts.step maxAttempts) s actions) :
    e = eventOf maxAttempts e.before e.action := by
  have step := step_of_mem mem
  simp only [eventOf, step]

/-- What holds after an event of a held run, and each held step keeps, holds before a later one. -/
theorem kept_between {Q : Hosts → Prop} (positive : 0 < maxAttempts)
    (keeps : ∀ s action, Sound maxAttempts s → FreshId (eventOf maxAttempts s action) →
      Held (eventOf maxAttempts s action) → Q s → Q (s.step maxAttempts action).2)
    {actions : List Action} {pre mid post : List HostEvent} {e₁ e₂ : HostEvent}
    (split : history (Hosts.step maxAttempts) s actions = pre ++ e₁ :: (mid ++ e₂ :: post))
    (meets : ∀ e ∈ history (Hosts.step maxAttempts) s actions, FreshId e ∧ Held e)
    (sound : Sound maxAttempts e₁.after) (start : Q e₁.after) : Q e₂.before := by
  have stays := @holds_between _ _ _ (Hosts.step maxAttempts) (fun s => Sound maxAttempts s ∧ Q s)
    (fun e => ¬ (FreshId e ∧ Held e))
    (fun s action both => by
      by_cases met : FreshId (eventOf maxAttempts s action) ∧ Held (eventOf maxAttempts s action)
      · exact .inl ⟨sound_step both.1 positive met.2, keeps s action both.1 met.1 met.2 both.2⟩
      · exact .inr met)
    s actions pre mid post e₁ e₂ split ⟨sound, start⟩
  rcases stays with both | ⟨e, mem, broken⟩
  · exact both.2
  · exact absurd (meets e (by rw [split]; simp [mem])) broken

/-- In a run from an empty queue in which nobody claims a notice whose accepted send or last failure
is unwritten, and a pass sends and writes only under the latest claim: the text is there while the
notice is queued, the attempts are bounded, a final status stays, and an accepted send is the last. -/
theorem notices_kept (positive : 0 < maxAttempts) (actions : List Action)
    (fresh : ∀ e ∈ history (Hosts.step maxAttempts) atFirst actions, FreshId e)
    (held : ∀ e ∈ history (Hosts.step maxAttempts) atFirst actions, Held e) :
    (∀ e ∈ history (Hosts.step maxAttempts) atFirst actions, ∀ k row,
      e.after.queue.find k = some row →
        (row.text ≠ none ↔ row.status = .queued) ∧ row.attempts ≤ maxAttempts) ∧
    ∀ pre mid post e₁ e₂,
      history (Hosts.step maxAttempts) atFirst actions = pre ++ e₁ :: (mid ++ e₂ :: post) →
      (∀ k row row', e₁.after.queue.find k = some row → row.status ≠ .queued →
        e₂.after.queue.find k = some row' → row'.status = row.status) ∧
      ∀ k, SendsAccepted e₁ k → ¬ Sends e₂ k := by
  have meets : ∀ e ∈ history (Hosts.step maxAttempts) atFirst actions, FreshId e ∧ Held e :=
    fun e member => ⟨fresh e member, held e member⟩
  have sound := (@invariant_of_meets _ _ _ (Hosts.step maxAttempts) (Sound maxAttempts)
    (fun e => FreshId e ∧ Held e) (fun _ _ sound met => sound_step sound positive met.2)
    atFirst sound_first actions meets).1
  refine ⟨fun e member k row found => (sound e member).2.rows k row found, ?_⟩
  intro pre mid post e₁ e₂ split
  have first : e₁ ∈ history (Hosts.step maxAttempts) atFirst actions := by rw [split]; simp
  have second : e₂ ∈ history (Hosts.step maxAttempts) atFirst actions := by rw [split]; simp
  constructor
  · intro k row row' found terminal found'
    have ended : Ended row.status k e₁.after :=
      ⟨(sound e₁ first).2.known k row found terminal,
        fun again same => by rw [found] at same; cases same; rfl⟩
    have before := kept_between positive
      (fun _ _ sound fresh held => ended_step terminal sound fresh held) split meets (sound e₁ first).2 ended
    have met := meets e₂ second
    rw [event_of second] at met found'
    exact (ended_step terminal (sound e₂ second).1 met.1 met.2 before).rows row' found'
  · intro k sent
    have met := meets e₁ first
    have taken := taken_start (sound e₁ first).1 met.2 sent
    rw [show (e₁.before.step maxAttempts e₁.action).2 = e₁.after from
      congrArg Prod.snd (step_of_mem first)] at taken
    have before := kept_between positive (fun _ _ sound fresh held => taken_step sound fresh held)
      split meets (sound e₁ first).2 taken
    have later := (meets e₂ second).2
    rw [event_of second] at later ⊢
    exact taken_unsent later before

section Slow

def handOver : Takeover := ⟨"t1", "captcha", "2024-05-01T12:00:00", "https://x"⟩

/-- A notice is enqueued, a pass claims it, and its send is accepted. -/
def firstPass : List Action :=
  [.enqueue handOver "s1" "ana" "bn_1" 0, .claim 20 1, .look 0 (.sent (.accepted "sent") "sms")]

/-- The send outlives its lease: another pass sends again and fails after the acceptance. -/
def slowRun : List Action :=
  firstPass ++ [.claim 20 (minutes 6), .look 1 (.sent (.unknown "timeout") "sms"),
    .write 0 none (minutes 6), .write 1 none (minutes 7)]

theorem slow_fresh : ∀ e ∈ history (Hosts.step 3) atFirst slowRun, FreshId e := by
  intro e mem
  simp only [slowRun, firstPass, List.cons_append, List.nil_append, history_cons, history_nil,
    List.mem_cons, List.not_mem_nil, or_false] at mem
  rcases mem with rfl | rfl | rfl | rfl | rfl | rfl | rfl
  · exact nofun
  all_goals trivial

/-- The hosts before the action at a place of the run. -/
def slowAt (place : Nat) : Hosts := final (Hosts.step 3) atFirst (slowRun.take place)

theorem two_events (first between : List Action) {actions second : List Action} {a b : Action}
    (split : actions = first ++ a :: (between ++ b :: second)) :
    ∃ pre mid post, history (Hosts.step maxAttempts) s actions =
      pre ++ eventOf maxAttempts (final (Hosts.step maxAttempts) s first) a ::
        (mid ++ eventOf maxAttempts (final (Hosts.step maxAttempts) s (first ++ a :: between)) b ::
          post) := by
  refine ⟨history (Hosts.step maxAttempts) s first,
    history (Hosts.step maxAttempts) (final (Hosts.step maxAttempts) s (first ++ [a])) between,
    history (Hosts.step maxAttempts)
      (final (Hosts.step maxAttempts) s (first ++ a :: (between ++ [b]))) second, ?_⟩
  simp only [split, history_split, final_append, final_cons, final_nil]

/-- The stage and the notice a pass is at. -/
def atWork (s : Hosts) (index : Nat) : Option (Stage × String) :=
  (s.running index).map (fun found => (found.1.stage, found.2.id))

theorem running_of {stage : Stage} (work : atWork s index = some (stage, k)) :
    ∃ p row, s.running index = some (p, row) ∧ p.stage = stage ∧ row.id = k := by
  obtain ⟨⟨p, row⟩, run, same⟩ := map_eq_some_iff.mp work
  cases same
  exact ⟨p, row, run, rfl, rfl⟩

theorem slow_sends : atWork (slowAt 2) 0 = some (.looking, "bn_1") ∧
    atWork (slowAt 4) 1 = some (.looking, "bn_1") := by decide +kernel

theorem slow_ends : ((slowAt 6).queue.find "bn_1").map NoticeRow.status = some .delivered ∧
    ((slowAt 7).queue.find "bn_1").map NoticeRow.status = some .failed := by decide +kernel

/-- A notice whose send was accepted is sent again by a later pass, and one that was delivered
becomes failed. -/
theorem notice_sent_twice : (∀ e ∈ history (Hosts.step 3) atFirst slowRun, FreshId e) ∧
    (∃ pre mid post e₁ e₂, history (Hosts.step 3) atFirst slowRun = pre ++ e₁ :: (mid ++ e₂ :: post) ∧
      SendsAccepted e₁ "bn_1" ∧ Sends e₂ "bn_1") ∧
    ∃ pre mid post e₁ e₂, history (Hosts.step 3) atFirst slowRun = pre ++ e₁ :: (mid ++ e₂ :: post) ∧
      (e₁.after.queue.find "bn_1").map NoticeRow.status = some .delivered ∧
      (e₂.after.queue.find "bn_1").map NoticeRow.status = some .failed := by
  refine ⟨slow_fresh, ?_, ?_⟩
  · obtain ⟨p, row, run, stage, same⟩ := running_of slow_sends.1
    obtain ⟨q, row', run', stage', same'⟩ := running_of slow_sends.2
    obtain ⟨pre, mid, post, split⟩ := @two_events 3 atFirst (slowRun.take 2) [.claim 20 (minutes 6)]
      slowRun (slowRun.drop 5) (.look 0 (.sent (.accepted "sent") "sms"))
      (.look 1 (.sent (.unknown "timeout") "sms")) rfl
    exact ⟨pre, mid, post, _, _, split, ⟨0, "sent", "sms", p, row, rfl, run, stage, same⟩,
      1, .unknown "timeout", "sms", q, row', rfl, run', stage', same'⟩
  · obtain ⟨pre, mid, post, split⟩ := @two_events 3 atFirst (slowRun.take 5) [] slowRun []
      (.write 0 none (minutes 6)) (.write 1 none (minutes 7)) rfl
    exact ⟨pre, mid, post, _, _, split, slow_ends⟩

/-- One pass that claims, sends and writes. -/
def plainRun : List Action := firstPass ++ [.write 0 none 2]

theorem latest_last (last : s.passes.length = index + 1) : LatestClaim s index ident := by
  intro later p after there
  have bound := (List.getElem?_eq_some_iff.mp there).1
  omega

theorem plain_held : ∀ e ∈ history (Hosts.step 3) atFirst plainRun, FreshId e ∧ Held e := by
  intro e mem
  simp only [plainRun, firstPass, List.cons_append, List.nil_append, history_cons, history_nil,
    List.mem_cons, List.not_mem_nil, or_false] at mem
  rcases mem with rfl | rfl | rfl | rfl
  · exact ⟨fun p passing => (by cases passing), trivial⟩
  · exact ⟨trivial, fun row _ p passing => by cases passing⟩
  · exact ⟨trivial, fun p row _ _ => latest_last rfl⟩
  · exact ⟨trivial, fun p row _ _ => latest_last rfl⟩

theorem plain_kept : (history (Hosts.step 3) atFirst plainRun).length = 4 ∧
    ((∀ e ∈ history (Hosts.step 3) atFirst plainRun, ∀ k row, e.after.queue.find k = some row →
        (row.text ≠ none ↔ row.status = .queued) ∧ row.attempts ≤ 3) ∧
      ∀ pre mid post e₁ e₂,
        history (Hosts.step 3) atFirst plainRun = pre ++ e₁ :: (mid ++ e₂ :: post) →
        (∀ k row row', e₁.after.queue.find k = some row → row.status ≠ .queued →
          e₂.after.queue.find k = some row' → row'.status = row.status) ∧
        ∀ k, SendsAccepted e₁ k → ¬ Sends e₂ k) :=
  ⟨rfl, notices_kept (by decide) plainRun (fun e member => (plain_held e member).1)
    (fun e member => (plain_held e member).2)⟩

end Slow

end Meemee.Guarantees.NoticeDelivery
