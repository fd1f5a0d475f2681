import Meemee.Guarantees.JobMoves

/-!
# Tombstones of deleted accounts

A job a worker holds when its owner's account is deleted stays without its owner and what the owner
wrote, until its worker settles it or a sweep takes it. `sweep_purges` spares a tombstone a worker
may still hold, unless it was last touched before `stale_before`.
-/
namespace Meemee.Guarantees.JobTombstones
open Library Library.History Source Source.Jobs Guarantees.JobMoves

/-- A job without its owner's data; only a cancellation under way may still be settled. -/
structure Tombstone (v : JobView) : Prop where
  owner : v.job.principal = none
  goal : v.job.goal = "[deleted]"
  result : v.job.result = none
  pending : v.job.purgePending = true
  state : (v.job.status = .cancelRequested ∧ v.log = []) ∨
    (v.job.status = .cancelled ∧ ∃ entry : Nat × JobEvent, v.log = [entry] ∧
      entry.2.kind = .cancelled)

theorem tombstone_tombstoned (job : Job) (now : Instant) : Tombstone ⟨job.tombstoned now, []⟩ :=
  ⟨rfl, rfl, rfl, rfl, .inl ⟨rfl, rfl⟩⟩

theorem tombstone_move {v : JobView} {after : Option JobView} (tombstone : Tombstone v)
    (move : JobMove (some v) after) : after = none ∨ ∃ v', after = some v' ∧ Tombstone v' := by
  have idle : v.job.status ≠ .queued ∧ v.job.status ≠ .running := by
    rcases tombstone.state with ⟨status, -⟩ | ⟨status, -⟩ <;> simp [status]
  cases move with
  | stays => exact .inr ⟨v, rfl, tombstone⟩
  | dropped => exact .inl rfl
  | tombstoned job log now held => exact .inr ⟨_, rfl, tombstone_tombstoned job now⟩
  | published job after log number event edge =>
    generalize kind : event.kind = k at edge
    cases edge with
    | claim now queued => exact absurd queued idle.1
    | finish text now running live => exact absurd running idle.2
    | fail error now running live => exact absurd running idle.2
    | cancelQueued now queued => exact absurd queued idle.1
    | requestCancel now running => exact absurd running idle.2
    | cancelRequested now requested =>
      refine .inr ⟨_, rfl, tombstone.owner, tombstone.goal, tombstone.result, tombstone.pending,
        .inr ⟨rfl, (number, event), ?_, kind⟩⟩
      rcases tombstone.state with ⟨-, empty⟩ | ⟨status, -⟩
      · have bare : log = [] := empty
        rw [bare]
        rfl
      · have cancelled : job.status = .cancelled := status
        rw [requested] at cancelled
        cases cancelled

theorem tombstone_run {s : JobStore} {ident : String} (orphans : NoOrphans s)
    (tombstone : ∃ v, view s ident = some v ∧ Tombstone v) (calls : List StoreCall) :
    (∃ v, view (final step s calls) ident = some v ∧ Tombstone v) ∨
      ∃ e ∈ history step s calls, view e.after ident = none := by
  have kept := @holds_until _ _ _ step
    (fun s => NoOrphans s ∧ ∃ v, view s ident = some v ∧ Tombstone v)
    (fun e => view e.after ident = none) ?_ s ⟨orphans, tombstone⟩ calls
  · rcases kept with ⟨-, stays⟩ | ended
    · exact .inl stays
    · exact .inr ended
  · rintro s call ⟨orphans, v, seen, tombstone⟩
    have orphans' := step_noOrphans s call orphans
    rcases run : step s call with ⟨result, t⟩
    rw [run] at orphans'
    cases result with
    | error e =>
      obtain rfl := call_raised run
      exact .inl ⟨orphans, v, seen, tombstone⟩
    | ok value =>
      have move := (call_moves orphans run).moves ident
      rw [seen] at move
      rcases tombstone_move tombstone move with gone | ⟨v', stays, still⟩
      · exact .inr gone
      · exact .inl ⟨orphans', v', stays, still⟩

section Removal

variable {s : JobStore} {ident : String} {v : JobView}

theorem view_dropped {p : Job → Bool} (seen : view s ident = some v) (met : p v.job = true) :
    view (s.drop p) ident = none := by
  rw [view_drop, seen, Option.filter_some, met]
  rfl

theorem view_spared {p : Job → Bool} (seen : view s ident = some v) (unmet : p v.job = false) :
    view (s.drop p) ident = some v := by
  rw [view_drop, seen, Option.filter_some, unmet]
  rfl

theorem found_of_view (seen : view s ident = some v) :
    s.jobs.find ident = some v.job ∧ v.job.id = ident := by
  obtain ⟨job, found, same⟩ := Option.map_eq_some_iff.mp seen
  subst same
  exact ⟨found, Table.key_of_find found⟩

theorem publishTerminal_removes (result : Option Json) (error : Option PyStr) (now : Instant)
    (seen : view s ident = some v) (pending : v.job.purgePending = true) :
    view (publishTerminal ident result error now s).2 ident = none := by
  obtain ⟨found, named⟩ := found_of_view seen
  rw [publishTerminal_purged result error found pending]
  exact view_dropped seen (decide_eq_true named)

theorem settlePurge_removes (seen : view s ident = some v) (pending : v.job.purgePending = true) :
    view (settlePurge ident s).2 ident = none := by
  refine view_dropped seen ?_
  rw [pending, decide_eq_true (found_of_view seen).2]
  rfl

theorem sweepPurges_removes {stale : Option Instant} (seen : view s ident = some v)
    (pending : v.job.purgePending = true)
    (due : v.job.held = false ∨ ∃ before, stale = some before ∧ v.job.updatedAt < before) :
    view (sweepPurges stale s).2 ident = none := by
  refine view_dropped seen ?_
  rw [Job.sweepable, pending]
  rcases due with free | ⟨before, rfl, old⟩
  · simp [free]
  · simp [old]

theorem sweepPurges_spares {stale : Option Instant} (seen : view s ident = some v)
    (held : v.job.held = true) (recent : ∀ before, stale = some before → before ≤ v.job.updatedAt) :
    view (sweepPurges stale s).2 ident = some v := by
  refine view_spared seen ?_
  rw [Job.sweepable, held]
  cases stale with
  | none => simp
  | some before => simp [recent before rfl]

end Removal

end Meemee.Guarantees.JobTombstones
