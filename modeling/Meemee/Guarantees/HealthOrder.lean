import Meemee.Guarantees.HealthStreak

/-!
# The order in which checks arrive

Every column of a source's row but one depends on the checks and not on the order of their arrival.
The cursor is the one: a check that arrives late never sets it, so it is the same in every order
exactly when the latest check has a cursor, or none has.
-/
namespace Meemee.Guarantees.HealthOrder
open Library Library.History Library.Chronology Source Source.SourceHealth Option List
open Source.Expiry (Moment)
open Guarantees.HealthStreak

variable {ownerId sourceId : String}

theorem merge_cursor (row : HealthRow) (k : Check) :
    (row.merge (k.excluded ownerId sourceId)).lastCursor =
      if k.cursor.isSome && !row.late (k.excluded ownerId sourceId) then k.cursor
      else row.lastCursor := rfl

theorem merge_attempt {row : HealthRow} {latest k : Check}
    (attempt : row.lastAttemptAt = latest.moment.isoformat)
    (older : k.moment.rank < latest.moment.rank) :
    row.late (k.excluded ownerId sourceId) = true ∧
      (row.merge (k.excluded ownerId sourceId)).lastAttemptAt = latest.moment.isoformat := by
  have late := @late_excluded row latest k ownerId sourceId attempt
  rw [decide_eq_true older] at late
  refine ⟨late, ?_⟩
  simp only [HealthRow.merge, late, if_true, attempt]

variable {checks : List Check} {row : HealthRow}

theorem folded_cursorless (cursorless : ∀ k ∈ checks, k.cursor = none)
    (found : folded ownerId sourceId checks = some row) : row.lastCursor = none := by
  induction checks using List.reverseRecOn generalizing row with
  | nil => cases found
  | append_singleton first k ih =>
    obtain ⟨before, last⟩ := forall_mem_append.mp cursorless
    have bare := last k (mem_singleton_self k)
    rw [folded_append] at found
    cases stored : folded ownerId sourceId first with
    | none =>
      rw [stored] at found
      cases found
      exact bare
    | some old =>
      rw [stored] at found
      obtain rfl := Option.some.inj found
      rw [upsert, merge_cursor, bare, isSome_none, Bool.false_and]
      exact ih before stored

/-- A first check that is the latest: those after it are late and leave the cursor as it is. -/
theorem folded_latestFirst {latest : Check} {rest : List Check}
    (older : ∀ k ∈ rest, k.moment.rank < latest.moment.rank) :
    ∃ row, folded ownerId sourceId (latest :: rest) = some row ∧
      row.lastAttemptAt = latest.moment.isoformat ∧ row.lastCursor = latest.cursor := by
  induction rest using List.reverseRecOn with
  | nil => exact ⟨_, rfl, rfl, rfl⟩
  | append_singleton first k ih =>
    obtain ⟨before, last⟩ := forall_mem_append.mp older
    obtain ⟨row, found, attempt, cursor⟩ := ih before
    obtain ⟨late, kept⟩ := @merge_attempt ownerId sourceId _ _ _ attempt
      (last k (mem_singleton_self k))
    rw [← cons_append, folded_append, found]
    refine ⟨_, rfl, kept, ?_⟩
    rw [upsert, merge_cursor, late, Bool.not_true, Bool.and_false, if_neg Bool.false_ne_true, cursor]

theorem folded_cursorFirst {first : Check} (given : first.cursor.isSome = true) (rest : List Check) :
    ∃ row, folded ownerId sourceId (first :: rest) = some row ∧ row.lastCursor.isSome = true := by
  induction rest using List.reverseRecOn with
  | nil => exact ⟨_, rfl, given⟩
  | append_singleton rest k ih =>
    obtain ⟨row, found, cursor⟩ := ih
    rw [← cons_append, folded_append, found]
    refine ⟨_, rfl, ?_⟩
    rw [upsert, merge_cursor]
    split
    next both => exact (Bool.and_eq_true_iff.mp both).1
    next => exact cursor

theorem rank_inj {t u : Datetime} (same : t.rank = u.rank) : t = u := by
  obtain ⟨year, month, day, hour, minute, second, microsecond, valid⟩ := t
  obtain ⟨year', month', day', hour', minute', second', microsecond', valid'⟩ := u
  simp only [Datetime.rank] at same
  simp only [Datetime.mk.injEq]
  omega

/-- No two checks at one time. -/
def Distinct (checks : List Check) : Prop := (checks.map Check.moment).Nodup

theorem distinct_inj (distinct : Distinct checks) {a b : Check} (first : a ∈ checks)
    (second : b ∈ checks) (low : a.moment ≤ b.moment) (high : b.moment ≤ a.moment) : a = b :=
  List.inj_on_of_nodup_map distinct first second (rank_inj (Nat.le_antisymm low high))

theorem distinct_ranks (distinct : Distinct checks) :
    (checks.map (fun k => k.moment.rank)).Nodup := by
  have ranks := distinct.map (f := Datetime.rank) (fun _ _ => rank_inj)
  rwa [List.map_map] at ranks

variable {first second : List Check} {other : HealthRow} {calls : List Call}

theorem sums_unique (perm : first.Perm second) (distinct : Distinct first)
    (sums : Sums ownerId sourceId first row) (sums' : Sums ownerId sourceId second other)
    (cursor : row.lastCursor = other.lastCursor) (failures : Nat) :
    row.withStreak failures = other.withStreak failures := by
  obtain ⟨m, mem, greatest, attempt, latency, error, metadata, -⟩ := sums.latest
  obtain ⟨m', member', greatest', attempt', latency', error', metadata', -⟩ := sums'.latest
  obtain rfl : m = m' := distinct_inj distinct mem (perm.mem_iff.mpr member')
    (greatest' m (perm.mem_iff.mp mem)) (greatest m' (perm.mem_iff.mpr member'))
  have success : row.lastSuccessAt = other.lastSuccessAt := by
    rcases sums.success with ⟨never, none⟩ | ⟨good, inside, ok, stamp, top⟩
    · rcases sums'.success with ⟨never', -⟩ | ⟨good', inside', ok', -, -⟩
      · rw [never, never']
      · cases (none good' (perm.mem_iff.mpr inside')).symm.trans ok'
    · rcases sums'.success with ⟨-, none'⟩ | ⟨good', inside', ok', stamp', top'⟩
      · cases (none' good (perm.mem_iff.mp inside)).symm.trans ok
      · obtain rfl : good = good' := distinct_inj distinct inside (perm.mem_iff.mpr inside')
          (top' good (perm.mem_iff.mp inside) ok) (top good' (perm.mem_iff.mpr inside') ok')
        rw [stamp, stamp']
  have successes := sums.successes.trans ((perm.countP_eq _).trans sums'.successes.symm)
  have fails := sums.failures.trans ((perm.countP_eq _).trans sums'.failures.symm)
  simp only [HealthRow.withStreak, HealthRow.mk.injEq, true_and]
  exact ⟨sums.key.1.trans sums'.key.1.symm, sums.key.2.trans sums'.key.2.symm,
    attempt.trans attempt'.symm, success, cursor, successes, fails, latency.trans latency'.symm,
    error.trans error'.symm, metadata.trans metadata'.symm⟩

/-- The latest check has a cursor, or none has. -/
def CursorSettled (checks : List Check) : Prop :=
  (∀ k ∈ checks, k.cursor = none) ∨
    ∃ k ∈ checks, k.cursor.isSome = true ∧ ∀ other ∈ checks, other.moment ≤ k.moment

/-- The row of a source after some checks. -/
def told (ownerId sourceId : String) (checks : List Check) : Option HealthRow :=
  (folded ownerId sourceId checks).map (fun row => row.withStreak (failuresSince checks))

theorem settled_cursor (perm : first.Perm second) (distinct : Distinct first)
    (settled : CursorSettled first) (found : folded ownerId sourceId first = some row)
    (sums : Sums ownerId sourceId first row) (found' : folded ownerId sourceId second = some other)
    (sums' : Sums ownerId sourceId second other) : row.lastCursor = other.lastCursor := by
  rcases settled with bare | ⟨k, inside, given, top⟩
  · rw [folded_cursorless bare found,
      folded_cursorless (fun k mem => bare k (perm.mem_iff.mpr mem)) found']
  · obtain ⟨m, mem, greatest, -, -, -, -, cursor⟩ := sums.latest
    obtain ⟨m', member', greatest', -, -, -, -, cursor'⟩ := sums'.latest
    obtain rfl : k = m := distinct_inj distinct inside mem (greatest k inside) (top m mem)
    obtain rfl : k = m' := distinct_inj distinct inside (perm.mem_iff.mpr member')
      (greatest' k (perm.mem_iff.mp inside)) (top m' (perm.mem_iff.mpr member'))
    rw [cursor given, cursor' given]

theorem told_settled {first second : List Check} (perm : first.Perm second)
    (distinct : Distinct first) (settled : CursorSettled first) :
    told ownerId sourceId first = told ownerId sourceId second := by
  cases first with
  | nil => rw [perm.nil_eq]
  | cons head rest =>
    have filled : second ≠ [] := by
      rintro rfl
      exact cons_ne_nil head rest perm.eq_nil
    obtain ⟨row, found, sums⟩ := folded_sums ownerId sourceId (cons_ne_nil head rest)
    obtain ⟨other, found', sums'⟩ := folded_sums ownerId sourceId filled
    have streak : failuresSince (head :: rest) = failuresSince second := by
      rw [failuresSince, failuresSince, chronological_unique _ perm (distinct_ranks distinct)]
    have cursor := settled_cursor perm distinct settled found sums found' sums'
    rw [told, told, found, found', map_some, map_some, ← streak,
      sums_unique perm distinct sums sums' cursor]

theorem exists_latest (filled : checks ≠ []) :
    ∃ k ∈ checks, ∀ other ∈ checks, other.moment ≤ k.moment := by
  obtain ⟨row, -, sums⟩ := folded_sums "" "" filled
  obtain ⟨latest, mem, greatest, -⟩ := sums.latest
  exact ⟨latest, mem, greatest⟩

/-- Where it is not settled, one order loses the cursor and another one keeps it. -/
theorem unsettled_orders {checks : List Check} (distinct : Distinct checks)
    (unsettled : ¬ CursorSettled checks) :
    ∃ latest ∈ checks, ∃ given ∈ checks, ∀ rest rest', (latest :: rest).Perm checks →
      (given :: rest').Perm checks →
      told ownerId sourceId (latest :: rest) ≠ told ownerId sourceId (given :: rest') := by
  unfold CursorSettled at unsettled
  push Not at unsettled
  obtain ⟨⟨given, inside, cursor⟩, covered⟩ := unsettled
  obtain ⟨latest, mem, greatest⟩ := exists_latest (ne_nil_of_mem inside)
  have bare : latest.cursor = none := by
    cases held : latest.cursor with
    | none => rfl
    | some text =>
      obtain ⟨other, among, later⟩ := covered latest mem (by rw [held]; rfl)
      exact absurd (greatest other among) later
  refine ⟨latest, mem, given, inside, fun rest rest' perm perm' same => ?_⟩
  have older : ∀ k ∈ rest, k.moment.rank < latest.moment.rank := by
    intro k among
    have low := greatest k (perm.mem_iff.mp (mem_cons_of_mem _ among))
    have distinct' : Distinct (latest :: rest) := (perm.map Check.moment).nodup_iff.mpr distinct
    have apart : latest.moment ∉ rest.map Check.moment := (nodup_cons.mp distinct').1
    refine Nat.lt_of_le_of_ne low (fun equal => apart ?_)
    rw [← rank_inj equal]
    exact mem_map_of_mem among
  obtain ⟨row, found, -, lost⟩ := @folded_latestFirst ownerId sourceId _ _ older
  obtain ⟨other, found', kept⟩ := @folded_cursorFirst ownerId sourceId given
    (isSome_iff_ne_none.mpr cursor) rest'
  rw [told, told, found, found', map_some, map_some, Option.some.injEq] at same
  have cursors := congrArg HealthRow.lastCursor same
  change row.lastCursor = other.lastCursor at cursors
  rw [lost, bare] at cursors
  rw [← cursors] at kept
  cases kept

section Recording

variable {fromisoformat : String → Except Exc Moment}

/-- The row of a source after some calls. -/
def rowAfter (fromisoformat : String → Except Exc Moment) (calls : List Call)
    (ownerId sourceId : String) : Option HealthRow :=
  (final (step fromisoformat) HealthStore.empty calls).health.find (ownerId, sourceId)

theorem rowAfter_told (inverse : Inverse fromisoformat) (genuine : ∀ c ∈ calls, Genuine c)
    (ownerId sourceId : String) :
    rowAfter fromisoformat calls ownerId sourceId =
      told ownerId sourceId (recorded fromisoformat calls ownerId sourceId) := by
  have kept := (run_kept inverse calls genuine empty_kept nofun).2
  exact kept.rows ownerId sourceId

theorem recorded_perm {first second : List Call} (perm : first.Perm second) (ownerId sourceId : String) :
    (recorded fromisoformat first ownerId sourceId).Perm
      (recorded fromisoformat second ownerId sourceId) :=
  ((perm.filterMap _).filter _).map _

theorem recorded_first {k : Check} (mem : k ∈ recorded fromisoformat calls ownerId sourceId) :
    ∃ order rest, order.Perm calls ∧
      recorded fromisoformat order ownerId sourceId = k :: rest := by
  obtain ⟨e, kept, rfl⟩ := mem_map.mp mem
  obtain ⟨inside, mine⟩ := mem_filter.mp kept
  obtain ⟨c, among, made⟩ := mem_filterMap.mp inside
  obtain ⟨before, after, rfl⟩ := append_of_mem among
  refine ⟨c :: (before ++ after), recorded fromisoformat (before ++ after) ownerId sourceId,
    perm_middle.symm, ?_⟩
  rw [recorded, filterMap_cons_some made, checksOf, filter_cons_of_pos mine]
  rfl

/-- For checks of one source at different times, every order of recording them leads to the same row
if and only if the latest one has a cursor or none has. -/
theorem order_immaterial_iff (inverse : Inverse fromisoformat) (ownerId sourceId : String)
    (calls : List Call) (genuine : ∀ c ∈ calls, Genuine c)
    (distinct : Distinct (recorded fromisoformat calls ownerId sourceId)) :
    (∀ first second : List Call, first.Perm calls → second.Perm calls →
        rowAfter fromisoformat first ownerId sourceId =
          rowAfter fromisoformat second ownerId sourceId) ↔
      CursorSettled (recorded fromisoformat calls ownerId sourceId) := by
  have genuine' : ∀ {order : List Call}, order.Perm calls → ∀ c ∈ order, Genuine c :=
    fun perm c member => genuine c (perm.mem_iff.mp member)
  constructor
  · intro same
    by_contra unsettled
    obtain ⟨latest, member, given, inside, differ⟩ := @unsettled_orders ownerId sourceId _ distinct
      unsettled
    obtain ⟨first, rest, perm, order⟩ := recorded_first member
    obtain ⟨second, rest', perm', order'⟩ := recorded_first inside
    have rows := same first second perm perm'
    rw [rowAfter_told inverse (genuine' perm), rowAfter_told inverse (genuine' perm'), order,
      order'] at rows
    refine differ rest rest' ?_ ?_ rows
    · rw [← order]
      exact recorded_perm perm ownerId sourceId
    · rw [← order']
      exact recorded_perm perm' ownerId sourceId
  · intro settled first second perm perm'
    have one := @told_settled ownerId sourceId _ _
      (recorded_perm perm ownerId sourceId).symm distinct settled
    have two := @told_settled ownerId sourceId _ _
      (recorded_perm perm' ownerId sourceId).symm distinct settled
    rw [rowAfter_told inverse (genuine' perm), rowAfter_told inverse (genuine' perm'), ← one, ← two]

end Recording

/-- A success with a cursor, and a later one without. -/
def early : Call := checkAt true (some "a") "2026-10-07T10:00:00+00:00"

def late : Call := checkAt true none "2026-10-07T10:01:00+00:00"

/-- In order the cursor stays, in the other order it is lost. -/
theorem cursor_depends_on_order :
    ¬ ∀ first second : List Call, first.Perm [early, late] → second.Perm [early, late] →
      rowAfter parseIso first "u" "mail" = rowAfter parseIso second "u" "mail" := by
  intro same
  have rows := congrArg (Option.map HealthRow.lastCursor)
    (same [early, late] [late, early] (List.Perm.refl _) (List.Perm.swap _ _ _))
  revert rows
  decide +kernel

/-- A later check with a cursor of its own. -/
def later : Call := checkAt true (some "b") "2026-10-07T10:02:00+00:00"

theorem later_cursor_wins :
    (rowAfter parseIso [later, late, early] "u" "mail").map HealthRow.lastCursor = some (some "b") ∧
      ((∀ first second : List Call, first.Perm [early, late, later] → second.Perm [early, late, later] →
        rowAfter parseIso first "u" "mail" = rowAfter parseIso second "u" "mail") ↔
      CursorSettled (recorded parseIso [early, late, later] "u" "mail")) := by
  have distinct : Distinct (recorded parseIso [early, late, later] "u" "mail") := by
    unfold Distinct
    decide +kernel
  refine ⟨by decide +kernel, order_immaterial_iff parseIso_inverse "u" "mail" _ ?_ distinct⟩
  simp only [forall_mem_cons, not_mem_nil, false_imp_iff, implies_true, and_true]
  exact ⟨checkAt_genuine _ _ _, checkAt_genuine _ _ _, checkAt_genuine _ _ _⟩

end Meemee.Guarantees.HealthOrder
