import Meemee.Guarantees.JobMoves
import Meemee.Source.Runs

/-!
# What a run writes and deletes

`MemoryStore.add` brings one memory, of its owner and its run; `delete_runs` leaves none of them;
the calls of a worker give no job another owner.
-/
namespace Meemee.Guarantees.RunWrites
open Library Library.Ownership Source Source.PurgeTargets Source.Runs Library.Txn
open Guarantees.JobMoves

/-- What an access of a run leaves of the rows it does not write. -/
structure Frame (s t : Stores) : Prop where
  runs : t.tables .runs = s.tables .runs
  jobs : t.jobs = s.jobs

section Rows

variable {s t : Stores} {ownerId runId : String}

theorem insertRow_returned {table : TableName} {away : apart table = true} {r : StoredRow}
    (run : insertRow table away r s = (.ok (), t)) :
    (∀ other ∈ t.tables table, other ∈ s.tables table ∨ other = r) ∧
      (∀ u, u ≠ table → t.tables u = s.tables u) ∧ t.jobs = s.jobs := by
  unfold insertRow at run
  obtain ⟨inserted, run⟩ := require_bind_returned run
  cases run
  have fresh := Table.fresh_of_inserted inserted
  refine ⟨?_, ?_, rfl⟩
  · intro other stored
    simp only [if_true, Table.insertOrIgnore_fresh fresh] at stored
    exact (Table.mem_insert fresh).mp stored
  · intro u other
    exact if_neg other

theorem memoryAdd_returned {remembered embedding : List Cell} {ident : Int}
    (run : memoryAdd runId remembered embedding ownerId s = (.ok ident, t)) :
    PgJobs.blank ownerId = false ∧ Frame s t ∧
      ∀ r ∈ t.tables .memories, r ∈ s.tables .memories ∨ ofRun ownerId runId r = true := by
  obtain ⟨given, run⟩ := require_bind_returned run
  rw [atomically_ok, run_bind_read] at run
  obtain ⟨_, s₁, first, run⟩ := bind_returned run
  obtain ⟨_, s₂, second, run⟩ := bind_returned run
  cases run
  obtain ⟨memories, others, jobs⟩ := insertRow_returned first
  obtain ⟨-, others', jobs'⟩ := insertRow_returned second
  refine ⟨by simpa using given, ⟨?_, jobs'.trans jobs⟩, ?_⟩
  · rw [others' _ (by simp), others _ (by simp)]
  · intro r stored
    rw [others' _ (by simp)] at stored
    rcases memories r stored with before | rfl
    · exact .inl before
    · exact .inr (decide_eq_true ⟨rfl, rfl⟩)

theorem memoryAdd_raised {remembered embedding : List Cell} {e : Exc}
    (run : memoryAdd runId remembered embedding ownerId s = (.error e, t)) : t = s :=
  raisesClean_require_bind (raisesClean_atomically _) _ _ _ run

theorem memoryDeleteRuns_blank (blank : PgJobs.blank ownerId = true) (runIds : List String) :
    memoryDeleteRuns runIds ownerId s = (.error (.valueError "owner_id is required"), s) := by
  unfold memoryDeleteRuns
  rw [blank]
  rfl

theorem memoryDeleteRuns_one (given : PgJobs.blank ownerId = false) :
    Frame s (memoryDeleteRuns [runId] ownerId s).2 ∧
      ∀ r ∈ (memoryDeleteRuns [runId] ownerId s).2.tables .memories,
        r ∈ s.tables .memories ∧ ofRun ownerId runId r = false := by
  unfold memoryDeleteRuns
  rw [given]
  constructor
  · exact ⟨rfl, rfl⟩
  · intro r stored
    exact Table.mem_delete.mp stored

theorem runsAdd_after (report : RunReport) (now : Instant) :
    (runsAdd ownerId report now s).2.tables .memories = s.tables .memories ∧
      (runsAdd ownerId report now s).2.jobs = s.jobs ∧
      ∀ r ∈ (runsAdd ownerId report now s).2.tables .runs,
        r ∈ s.tables .runs ∨ r.owner = some ownerId := by
  unfold runsAdd
  cases Json.dumps { allowNan := false } report.toolResults with
  | error e => exact ⟨rfl, rfl, fun _ stored => .inl stored⟩
  | ok results =>
    cases Json.dumps { allowNan := false } report.approvalsRequired with
    | error e => exact ⟨rfl, rfl, fun _ stored => .inl stored⟩
    | ok approvals =>
      simp only [run_bind, run_ofExcept]
      rcases run : (Txn.atomically _ : StoreTxn Unit) s with ⟨result, t⟩
      cases result with
      | error e =>
        rw [atomically_error run]
        exact ⟨rfl, rfl, fun _ stored => .inl stored⟩
      | ok u =>
        rw [atomically_ok] at run
        obtain ⟨reports, others, jobs⟩ := insertRow_returned run
        refine ⟨others _ (by simp), jobs, ?_⟩
        intro r stored
        rcases reports r stored with before | rfl
        · exact .inl before
        · exact .inr rfl

end Rows

/-- No job is new, and none has changed its owner. -/
def OwnersKept (s t : Jobs.JobStore) : Prop :=
  ∀ job ∈ t.jobs, ∃ old ∈ s.jobs, old.id = job.id ∧ old.principal = job.principal

section Owners

open Source.Jobs

variable {s : JobStore} {ident : String} {now : Instant}

theorem ownersKept_refl (s : JobStore) : OwnersKept s s :=
  fun job stored => ⟨job, stored, rfl, rfl⟩

theorem ownersKept_of_eq {t : JobStore} (same : t = s) : OwnersKept s t := by
  rw [same]
  exact ownersKept_refl s

theorem ownersKept_drop (s : JobStore) (p : Job → Bool) : OwnersKept s (s.drop p) :=
  fun job stored => ⟨job, (Table.mem_delete.mp stored).1, rfl, rfl⟩

theorem ownersKept_publish (s : JobStore) (ident : String) {f : Job → Job}
    {keeps : ∀ j, (f j).id = j.id} {event : JobEvent} (same : ∀ j, (f j).principal = j.principal) :
    OwnersKept s (publish s ident f keeps event) := by
  intro job stored
  simp only [publish, Table.mem_update] at stored
  obtain ⟨old, there, rfl⟩ := stored
  refine ⟨old, there, ?_, ?_⟩
  · split
    · exact (keeps old).symm
    · rfl
  · split
    · exact (same old).symm
    · rfl

theorem claim_owners (now : Instant) (s : JobStore) : OwnersKept s (claim now s).2 := by
  rw [claim_run]
  split
  · exact ownersKept_refl s
  · exact ownersKept_publish s _ (fun _ => rfl)

theorem publishTerminal_owners (result : Option Json) (error : Option PyStr) :
    OwnersKept s (publishTerminal ident result error now s).2 := by
  obtain ⟨e, -, kept⟩ | ⟨job, -, ⟨-, -, gone⟩ | ⟨-, -, -, ended⟩⟩ :=
    publishTerminal_cases (Prod.eta (publishTerminal ident result error now s)).symm
  · rw [kept]
    exact ownersKept_refl s
  · rw [gone]
    exact ownersKept_drop s _
  · obtain ⟨value, text, bound, -, -, -, done⟩ | ⟨bound, -, failed⟩ := ended
    · rw [done]
      exact ownersKept_publish s _ (fun _ => rfl)
    · rw [failed]
      exact ownersKept_publish s _ (fun _ => rfl)

theorem cancelFrom_owners (source : JobStatus) : OwnersKept s (cancelFrom source ident now s).2 := by
  by_cases matched : ∃ job, s.jobs.find ident = some job ∧ job.status = source
  · obtain ⟨job, found, same⟩ := matched
    rw [cancelFrom_matched found same]
    exact ownersKept_publish s _ (fun _ => rfl)
  · rw [cancelFrom_unmatched (fun job found same => matched ⟨job, found, same⟩)]
    exact ownersKept_refl s

theorem requestCancel_owners : OwnersKept s (requestCancel ident now s).2 := by
  cases found : s.jobs.find ident with
  | none =>
    rw [requestCancel_unknown found]
    exact ownersKept_refl s
  | some job =>
    by_cases queued : job.status = .queued
    · rw [requestCancel_queued found queued]
      exact ownersKept_publish s _ (fun _ => rfl)
    · by_cases running : job.status = .running
      · rw [requestCancel_running found running]
        exact ownersKept_publish s _ (fun _ => rfl)
      · rw [requestCancel_settled found queued running]
        exact ownersKept_refl s

theorem advance_owners {ω : Type} (enqueue : Webhooks.WebhookEvent → Instant → Txn ω Exc Nat)
    (it : Worker.Iteration) (turn : Worker.Turn) (jobs : JobStore) (outbox : ω) :
    OwnersKept jobs (it.advance Worker.sqlite enqueue turn ⟨jobs, outbox⟩).2.jobs := by
  unfold Worker.Iteration.advance Worker.Iteration.next
  cases it.phase with
  | refuses => exact publishTerminal_owners none (some Worker.unownedText)
  | finishes report => exact publishTerminal_owners (given report.dump) none
  | fails failure => exact publishTerminal_owners none (some failure.text)
  | cancels k =>
    match k with
    | 0 => exact ownersKept_drop jobs _
    | 1 => exact cancelFrom_owners .cancelRequested
    | _ + 2 => exact ownersKept_refl jobs
  | _ => exact ownersKept_refl jobs

end Owners

end Meemee.Guarantees.RunWrites
