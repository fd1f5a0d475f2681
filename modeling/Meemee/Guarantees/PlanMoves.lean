import Meemee.Guarantees.PlanSteps

/-!
# What the plan stores do

A store is consistent when the history of each plan holds the versions from 1 to the
plan's own, the last of them with its document. There a replacement either is refused and
changes nothing, or raises the version by one and appends one row to the history.
-/
namespace Meemee.Guarantees.PlanMoves
open Library Source Source.Plans Library.Txn Library.Table List

/-- The history of a plan in the order it was written. -/
def rowsOf (s : PlanStore) (ident : String) : List HistoryRow :=
  s.history.select (fun row => decide (row.planId = ident))

/-- The history of a stored plan: every version, the newest with the plan's document. -/
structure Recorded (s : PlanStore) (row : PlanRow) : Prop where
  versions : (rowsOf s row.id).map (fun entry => entry.version) = List.range' 1 row.version
  newest : (rowsOf s row.id).getLast?.map (fun entry => entry.plan) = some row.plan

structure Consistent (s : PlanStore) : Prop where
  recorded : ∀ row ∈ s.plans, Recorded s row
  absent : ∀ ident, s.plans.find ident = none → rowsOf s ident = []

variable {s : PlanStore} {row : PlanRow} {e : PlanExc}

theorem mem_rowsOf {ident : String} {entry : HistoryRow} :
    entry ∈ rowsOf s ident ↔ entry ∈ s.history ∧ entry.planId = ident := by
  simp [rowsOf, Table.select, mem_rows]

theorem empty_consistent : Consistent PlanStore.empty where
  recorded row mem := by cases mem
  absent _ _ := rfl

theorem historyOf_recorded (recorded : Recorded s row) : s.historyOf row.id = rowsOf s row.id := by
  have versions := recorded.versions
  have sorted : (rowsOf s row.id).Pairwise (fun a b => a.version ≤ b.version) := by
    have increasing : (List.range' 1 row.version).Pairwise (fun a b => a ≤ b) :=
      List.Pairwise.imp (fun less => Nat.le_of_lt less) pairwise_lt_range'
    rw [← versions, pairwise_map] at increasing
    exact increasing
  exact List.Pairwise.insertionSort_eq sorted

theorem historyOf_consistent (consistent : Consistent s) (ident : String) :
    s.historyOf ident = rowsOf s ident := by
  cases found : s.plans.find ident with
  | none =>
    have nothing := consistent.absent ident found
    change (rowsOf s ident).insertionSort _ = _
    rw [nothing]
    rfl
  | some row =>
    obtain ⟨mem, rfl⟩ := find_some_iff.mp found
    exact historyOf_recorded (consistent.recorded row mem)

/-- The row that a replacement appends to the history. -/
def nextRow (row : PlanRow) (plan : Plan) (reason : String) (now : Instant) : HistoryRow :=
  ⟨row.id, row.version + 1, plan, reason, now⟩

/-- The store after a replacement of a row's plan. -/
def advanced (s : PlanStore) (row : PlanRow) (plan : Plan) (reason : String) (now : Instant) :
    PlanStore :=
  ⟨s.plans.update (PlanRow.at row.id row.version) (PlanRow.replaced plan now)
    (PlanRow.replaced_id plan now), (s.history.insertOrIgnore (nextRow row plan reason now)).1⟩

section Advanced

variable {s : PlanStore} {row : PlanRow} (consistent : Consistent s)
  (found : s.plans.find row.id = some row) (plan : Plan) (reason : String) (now : Instant)

include consistent found

theorem next_fresh : s.history.find (nextRow row plan reason now).key = none := by
  rw [find_none_iff]
  intro entry stored same
  obtain ⟨planId, version⟩ := Prod.mk.inj same
  have recorded := (consistent.recorded row (mem_of_find found)).versions
  have listed : entry.version ∈ (rowsOf s row.id).map (fun entry => entry.version) :=
    mem_map_of_mem (mem_rowsOf.mpr ⟨stored, planId⟩)
  rw [recorded, mem_range'_1] at listed
  change entry.version = row.version + 1 at version
  omega

theorem rowsOf_advanced (other : String) :
    rowsOf (advanced s row plan reason now) other =
      rowsOf s other ++ if row.id = other then [nextRow row plan reason now] else [] := by
  have fresh := next_fresh consistent found plan reason now
  unfold rowsOf advanced
  rw [insertOrIgnore_fresh fresh]
  simp only [select_insert]
  by_cases same : row.id = other <;> simp [same, nextRow]

omit consistent in
theorem find_advanced (other : String) :
    (advanced s row plan reason now).plans.find other =
      if other = row.id then some (row.replaced plan now) else s.plans.find other := by
  unfold advanced
  rw [find_update]
  by_cases same : other = row.id
  · rw [if_pos same, same, found]
    simp [PlanRow.at]
  · rw [if_neg same]
    cases stored : s.plans.find other with
    | none => rfl
    | some entry =>
      have keyed := key_of_find stored
      have elsewhere : PlanRow.at row.id row.version entry = false := by
        simp [PlanRow.at, keyed, same]
      rw [Option.map_some, elsewhere]
      rfl

theorem advanced_consistent : Consistent (advanced s row plan reason now) := by
  constructor
  · intro entry mem
    have stored := find_of_mem mem
    rw [find_advanced found] at stored
    by_cases same : entry.id = row.id
    · rw [if_pos same] at stored
      obtain rfl := Option.some.inj stored
      have recorded := consistent.recorded row (mem_of_find found)
      have rows := rowsOf_advanced consistent found plan reason now row.id
      rw [if_pos rfl] at rows
      constructor
      · show (rowsOf (advanced s row plan reason now) row.id).map _ = List.range' 1 (row.version + 1)
        rw [rows, map_append, recorded.versions, range'_1_concat]
        simp [nextRow, Nat.add_comm]
      · show (rowsOf (advanced s row plan reason now) row.id).getLast?.map _ = some plan
        rw [rows, List.getLast?_concat]
        rfl
    · rw [if_neg same] at stored
      have recorded := consistent.recorded entry (mem_of_find stored)
      have rows := rowsOf_advanced consistent found plan reason now entry.id
      rw [if_neg (Ne.symm same), append_nil] at rows
      exact ⟨by rw [rows]; exact recorded.versions, by rw [rows]; exact recorded.newest⟩
  · intro ident missing
    rw [find_advanced found] at missing
    by_cases same : ident = row.id
    · rw [if_pos same] at missing
      cases missing
    · rw [if_neg same] at missing
      rw [rowsOf_advanced consistent found, if_neg (Ne.symm same), append_nil]
      exact consistent.absent ident missing

end Advanced

section Replace

variable {storable fits : Except PlanExc Unit} {ident : String} {plan : Plan} {expected : Int}
  {reason : String} {now : Instant} {s : PlanStore}

theorem select_at (s : PlanStore) (ident : String) (expected : Int) :
    s.plans.select (PlanRow.at ident expected) =
      ((s.plans.find ident).filter (fun row => decide ((row.version : Int) = expected))).toList :=
  select_keyed s.plans ident (fun row => decide ((row.version : Int) = expected))

theorem updatePlan_unmatched (unmatched : ∀ row, s.plans.find ident = some row →
    (row.version : Int) ≠ expected) : updatePlan ident plan expected now s = (.ok [], s) := by
  have nothing : s.plans.select (PlanRow.at ident expected) = [] := by
    rw [select_at]
    cases found : s.plans.find ident with
    | none => rfl
    | some row => simp [unmatched row found]
  have same : s.plans.update (PlanRow.at ident expected) (PlanRow.replaced plan now)
      (PlanRow.replaced_id plan now) = s.plans := by
    apply update_none
    intro row mem
    exact Bool.eq_false_iff.mpr (filter_eq_nil_iff.mp nothing row mem)
  unfold updatePlan
  simp only [run_bind_read, run_bind_write, run_pure, nothing, same]

theorem replaceWith_unstorable (refused : storable = .error e) :
    replaceWith storable fits ident plan expected reason now s = (.error e, s) := by
  rw [refused]
  rfl

theorem replaceWith_absent (stored : storable = .ok ()) (absent : s.plans.find ident = none) :
    replaceWith storable fits ident plan expected reason now s = (.error (.keyError ident), s) := by
  have unmatched := @updatePlan_unmatched ident plan expected now s
    (fun row found => by rw [absent] at found; cases found)
  apply atomically_of_error
  · rw [stored, run_bind_ok (run_ofExcept _ _), run_bind_ok unmatched]
    simp only [isEmpty_nil, if_true, refuseUpdate, absent]
    rfl

theorem replaceWith_stale (stored : storable = .ok ()) (found : s.plans.find ident = some row)
    (stale : (row.version : Int) ≠ expected) :
    replaceWith storable fits ident plan expected reason now s =
      (.error (conflict expected row.version), s) := by
  have unmatched := @updatePlan_unmatched ident plan expected now s
    (fun other there => by rw [found] at there; cases there; exact stale)
  apply atomically_of_error
  · rw [stored, run_bind_ok (run_ofExcept _ _), run_bind_ok unmatched]
    simp only [isEmpty_nil, if_true, refuseUpdate, found]
    rfl

theorem updatePlan_matched (found : s.plans.find row.id = some row) :
    updatePlan row.id plan row.version now s = (.ok [row], ⟨s.plans.update
      (PlanRow.at row.id row.version) (PlanRow.replaced plan now) (PlanRow.replaced_id plan now),
      s.history⟩) := by
  have one : s.plans.select (PlanRow.at row.id row.version) = [row] := by
    rw [select_at, found]
    simp
  unfold updatePlan
  simp only [run_bind_read, run_bind_write, run_pure, one]

theorem replaceWith_unfit (stored : storable = .ok ()) (found : s.plans.find row.id = some row)
    (unfit : fits = .error e) :
    replaceWith storable fits row.id plan row.version reason now s = (.error e, s) := by
  apply atomically_of_error
  · rw [stored, run_bind_ok (run_ofExcept _ _), run_bind_ok (updatePlan_matched found), unfit]
    exact run_bind_error rfl

theorem replaceWith_done (consistent : Consistent s) (stored : storable = .ok ())
    (fit : fits = .ok ()) (found : s.plans.find row.id = some row) :
    replaceWith storable fits row.id plan row.version reason now s =
      (.ok (), advanced s row plan reason now) := by
  have fresh := next_fresh consistent found plan reason now
  have next : (⟨row.id, ((row.version : Int) + 1).toNat, plan, reason, now⟩ : HistoryRow) =
      nextRow row plan reason now := rfl
  apply atomically_of_ok
  rw [stored, run_bind_ok (run_ofExcept _ _), run_bind_ok (updatePlan_matched found), fit]
  simp only [isEmpty_cons, Bool.false_eq_true, if_false, next]
  rw [run_bind_ok (run_ofExcept _ _)]
  unfold insertHistory advanced
  rw [run_bind_read, run_require_bind, insertOrIgnore_fresh fresh]
  rw [if_pos rfl, run_write, insertOrIgnore_fresh fresh]

/-- A replacement is refused and changes nothing, or it found the version it expected. -/
theorem replaceWith_outcome (consistent : Consistent s) :
    (∃ e, replaceWith storable fits ident plan expected reason now s = (.error e, s)) ∨
      ∃ row, s.plans.find ident = some row ∧ (row.version : Int) = expected ∧
        replaceWith storable fits ident plan expected reason now s =
          (.ok (), advanced s row plan reason now) := by
  cases stored : storable with
  | error e => exact .inl ⟨e, replaceWith_unstorable rfl⟩
  | ok =>
    cases found : s.plans.find ident with
    | none => exact .inl ⟨_, replaceWith_absent rfl found⟩
    | some row =>
      by_cases stale : (row.version : Int) ≠ expected
      · exact .inl ⟨_, replaceWith_stale rfl found stale⟩
      · rw [not_not] at stale
        obtain rfl := key_of_find found
        subst stale
        cases fit : fits with
        | error e => exact .inl ⟨e, replaceWith_unfit rfl found rfl⟩
        | ok => exact .inr ⟨row, rfl, rfl, replaceWith_done consistent rfl rfl found⟩

end Replace

/-- The store after a plan was created. -/
def created (s : PlanStore) (ident : String) (plan : Plan) (now : Instant) : PlanStore :=
  ⟨(s.plans.insertOrIgnore ⟨ident, plan.goal, 1, plan, now, now⟩).1,
    (s.history.insertOrIgnore ⟨ident, 1, plan, "created", now⟩).1⟩

section Create

variable {s : PlanStore} {ident : String} (consistent : Consistent s)
  (fresh : s.plans.find ident = none) (plan : Plan) (now : Instant)

include consistent fresh

theorem first_fresh : s.history.find (HistoryRow.key ⟨ident, 1, plan, "created", now⟩) = none := by
  rw [find_none_iff]
  intro entry stored same
  have listed := mem_rowsOf.mpr ⟨stored, (Prod.mk.inj same).1⟩
  rw [consistent.absent ident fresh] at listed
  cases listed

omit consistent in
theorem find_created (other : String) :
    (created s ident plan now).plans.find other =
      if ident = other then some ⟨ident, plan.goal, 1, plan, now, now⟩ else s.plans.find other := by
  have fresh' : s.plans.find (PlanRow.id ⟨ident, plan.goal, 1, plan, now, now⟩) = none := fresh
  unfold created
  rw [insertOrIgnore_fresh fresh']
  exact find_insert _ _ fresh' other

theorem rowsOf_created (other : String) :
    rowsOf (created s ident plan now) other =
      rowsOf s other ++ if ident = other then [⟨ident, 1, plan, "created", now⟩] else [] := by
  have first := first_fresh consistent fresh plan now
  unfold rowsOf created
  rw [insertOrIgnore_fresh first]
  simp only [select_insert, decide_eq_true_eq]

theorem createRow_done : createRow ident plan now s = (.ok (), created s ident plan now) := by
  have fresh' : s.plans.find (PlanRow.id ⟨ident, plan.goal, 1, plan, now, now⟩) = none := fresh
  have first := first_fresh consistent fresh plan now
  apply atomically_of_ok
  unfold insertPlan insertHistory created
  simp only [run_bind, run_read, run_write, insertOrIgnore_fresh fresh',
    insertOrIgnore_fresh first, Txn.require, if_true, run_pure]

theorem created_consistent : Consistent (created s ident plan now) := by
  constructor
  · intro entry mem
    have stored := find_of_mem mem
    rw [find_created fresh] at stored
    by_cases same : ident = entry.id
    · rw [if_pos same] at stored
      obtain rfl := Option.some.inj stored
      have rows := rowsOf_created consistent fresh plan now ident
      rw [if_pos rfl, consistent.absent ident fresh] at rows
      constructor
      · rw [rows]
        rfl
      · rw [rows]
        rfl
    · rw [if_neg same] at stored
      have recorded := consistent.recorded entry (mem_of_find stored)
      have rows := rowsOf_created consistent fresh plan now entry.id
      rw [if_neg same, append_nil] at rows
      exact ⟨by rw [rows]; exact recorded.versions, by rw [rows]; exact recorded.newest⟩
  · intro other missing
    rw [find_created fresh] at missing
    by_cases same : ident = other
    · rw [if_pos same] at missing
      cases missing
    · rw [if_neg same] at missing
      rw [rowsOf_created consistent fresh, if_neg same, append_nil]
      exact consistent.absent other missing

end Create

theorem createRow_outcome (consistent : Consistent s) (ident : String) (plan : Plan)
    (now : Instant) : (∃ e, createRow ident plan now s = (.error e, s)) ∨
      (s.plans.find ident = none ∧ createRow ident plan now s = (.ok (), created s ident plan now)) := by
  cases found : s.plans.find ident with
  | none => exact .inr ⟨rfl, createRow_done consistent found plan now⟩
  | some row =>
    have taken : s.plans.insertOrIgnore ⟨ident, plan.goal, 1, plan, now, now⟩ = (s.plans, false) :=
      insertOrIgnore_conflict found
    have refused : insertPlan ⟨ident, plan.goal, 1, plan, now, now⟩ s = (.error uniqueViolation, s) := by
      unfold insertPlan
      rw [run_bind_read, taken]
      rfl
    exact .inl ⟨uniqueViolation, atomically_of_error (run_bind_error refused)⟩

theorem checkReason_status (stepId status : String) (s : PlanStore) :
    checkReason (statusReason stepId status) s = (.ok (), s) := by
  have nonblank : PgJobs.blank (statusReason stepId status) = false := by
    have starts : (statusReason stepId status).toList =
        's' :: ("tatus ".toList ++ stepId.toList ++ " -> ".toList ++ status.toList) := by
      simp only [statusReason, String.toList_append]
      rfl
    rw [PgJobs.blank, starts, all_cons]
    have letter : PgJobs.isSpace 's' = false := by decide
    rw [letter, Bool.false_and]
  unfold checkReason
  rw [nonblank]
  rfl

section Update

variable {s : PlanStore} {ident stepId text : String} {expected : Int} {now : Instant}

theorem get_found (found : s.plans.find ident = some row) : Plans.get ident s = (.ok row, s) := by
  unfold Plans.get
  rw [found]

theorem get_absent (absent : s.plans.find ident = none) :
    Plans.get ident s = (.error (.keyError ident), s) := by
  unfold Plans.get
  rw [absent]

theorem replace_done {run : PlanTxn Unit} {plan : Plan} {reason : String}
    (found : s.plans.find row.id = some row)
    (done : run s = (.ok (), advanced s row plan reason now)) :
    (do run; Plans.get row.id) s = (.ok (row.replaced plan now), advanced s row plan reason now) := by
  have returned := find_advanced found plan reason now row.id
  rw [if_pos rfl] at returned
  rw [run_bind_ok done, get_found returned]

theorem sqlite_absent (absent : s.plans.find ident = none) :
    SQLite.updateStatus ident stepId text expected now s = (.error (.keyError ident), s) :=
  run_bind_error (get_absent absent)

theorem sqlite_refused (found : s.plans.find ident = some row)
    (refused : SQLite.checkStatus row stepId text expected = .error e) :
    SQLite.updateStatus ident stepId text expected now s = (.error e, s) := by
  unfold SQLite.updateStatus
  rw [run_bind_ok (get_found found), refused]
  exact run_bind_error rfl

theorem sqlite_unchanged (found : s.plans.find ident = some row)
    (kept : SQLite.checkStatus row stepId text expected = .ok none) :
    SQLite.updateStatus ident stepId text expected now s = (.ok row, s) := by
  unfold SQLite.updateStatus
  rw [run_bind_ok (get_found found), kept]
  rfl

theorem sqlite_replaces {plan : Plan} (found : s.plans.find ident = some row)
    (built : SQLite.checkStatus row stepId text expected = .ok (some plan)) :
    SQLite.updateStatus ident stepId text expected now s =
      (do SQLite.replaceRow ident plan expected (statusReason stepId text) now; Plans.get ident) s := by
  unfold SQLite.updateStatus
  rw [run_bind_ok (get_found found), built, run_bind_ok (run_ofExcept _ _)]
  simp only
  unfold SQLite.replace
  rw [run_bind_ok (checkReason_status stepId text s)]

end Update

end Meemee.Guarantees.PlanMoves
