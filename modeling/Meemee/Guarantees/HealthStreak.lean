import Meemee.Guarantees.ExpiryText
import Meemee.Guarantees.JsonText
import Meemee.Library.Chronology
import Meemee.Source.SourceHealth

/-!
# The streak of a source

Whatever order the checks arrive in, the row of a source tells of them in the order of time: how many
failures there are after the last success, how many checks of each kind, and the latest of each. The
texts in the store compare as the instants do, and writing them again in UTC changes nothing.
-/
namespace Meemee.Guarantees.HealthStreak
open Library Library.History Library.Chronology Source Source.SourceHealth Option
open Source.Expiry (Moment utcMoment compose dateOf dayTime dayLength)
open Guarantees.ExpiryText (Real Inverts dayTime_lt utcMoment_ok)
open Guarantees.TimeText (isoformat_lt)
open Guarantees.JsonLoading (Loadable sorted_loaded)
open Guarantees.JsonText (encodable dumps_answers)

theorem compose_self (t : Datetime) : compose (dateOf t) (dayTime t) = .ok t := by
  obtain ⟨year, month, day, hour, minute, second, microsecond, valid⟩ := t
  unfold compose
  split
  next =>
    simp only [Except.ok.injEq, Datetime.mk.injEq, dateOf, dayTime, true_and]
    omega
  next invalid =>
    refine absurd ?_ invalid
    simp only [dateOf, dayTime]
    omega

theorem utcMoment_self {m : Moment} (utc : m.offset = some 0) : utcMoment m = .ok m.wall := by
  have time := dayTime_lt m.wall
  simp only [utcMoment, utc, getD_some, Int.sub_zero]
  rw [if_neg (by omega), if_neg (by simp only [dayLength] at time ⊢; omega), Int.toNat_natCast,
    compose_self]

variable {t : Datetime} {ownerId sourceId : String} {checks : List Check} {k : Check}
  {s : HealthStore} {c : Call}

theorem isoformat_inj {u : Datetime} : t.isoformat = u.isoformat ↔ t.rank = u.rank := by
  have less := @isoformat_lt t u
  have more := @isoformat_lt u t
  rw [Datetime.lt_iff] at less more
  constructor
  · intro same
    rw [same] at less more
    have first := mt less.mpr (String.lt_irrefl _)
    have second := mt more.mpr (String.lt_irrefl _)
    omega
  · intro same
    refine String.le_antisymm (String.not_lt.mp ?_) (String.not_lt.mp ?_)
    · rw [more]; omega
    · rw [less]; omega

theorem later_text (t u : Datetime) :
    decide (t.isoformat < u.isoformat) = decide (t.rank < u.rank) :=
  decide_eq_decide.mpr isoformat_lt

theorem same_text (t u : Datetime) :
    decide (t.isoformat = u.isoformat) = decide (t.rank = u.rank) :=
  decide_eq_decide.mpr isoformat_inj

variable {entries : List Entry}

section Recording

variable {fromisoformat : String → Except Exc Moment}

/-- What `datetime.fromisoformat` and `isoformat` do to each other. -/
def Inverse (fromisoformat : String → Except Exc Moment) : Prop :=
  Inverts (fun text => (fromisoformat text).toOption)

theorem healthUtc_written (inverse : Inverse fromisoformat) (real : Real t) :
    healthUtc fromisoformat t.isoformat = .ok t.isoformat := by
  obtain ⟨moment, parsed, wall, utc⟩ := inverse t real
  cases read : fromisoformat t.isoformat with
  | error e => simp [read, Except.toOption] at parsed
  | ok other =>
    obtain rfl : other = moment := by simpa [read, Except.toOption] using parsed
    have moved : aware other "stored health timestamp must include a timezone" = .ok t := by
      rw [← wall, ← utcMoment_self utc]
      simp [aware, utc]
    simp only [healthUtc, read, bind, Except.bind, moved]

theorem aware_real {moment : Moment} {refusal : String} (moved : aware moment refusal = .ok t) :
    Real t := by
  unfold aware at moved
  split at moved
  · cases moved
  · exact (utcMoment_ok moved).1

/-- A check with its source. -/
structure Entry where
  ownerId : String
  sourceId : String
  check : Check

def Entry.row (e : Entry) : CheckRow := e.check.ledger e.ownerId e.sourceId

def Entry.isOf (ownerId sourceId : String) (e : Entry) : Bool :=
  decide (e.ownerId = ownerId) && decide (e.sourceId = sourceId)

/-- The checks of one source, in order of arrival. -/
def checksOf (ownerId sourceId : String) (entries : List Entry) : List Check :=
  (entries.filter (Entry.isOf ownerId sourceId)).map Entry.check

/-- The upserts of a source's checks. -/
def folded (ownerId sourceId : String) (checks : List Check) : Option HealthRow :=
  checks.foldl (fun row k => some (upsert row (k.excluded ownerId sourceId))) none

/-- The failures after the last success, in the order of time. -/
def failuresSince (checks : List Check) : Nat :=
  trailing Check.ok (chronological (fun k => k.moment.rank) checks)

/-- The ledger in order of arrival, and each source's upserts with the streak of its checks. -/
structure Kept (s : HealthStore) (entries : List Entry) : Prop where
  ledger : s.checks = entries.map Entry.row
  rows : ∀ ownerId sourceId, s.health.find (ownerId, sourceId) =
    (folded ownerId sourceId (checksOf ownerId sourceId entries)).map
      (fun row => row.withStreak (failuresSince (checksOf ownerId sourceId entries)))
  real : ∀ e ∈ entries, Real e.check.moment

theorem folded_append (ownerId sourceId : String) (checks : List Check) (k : Check) :
    folded ownerId sourceId (checks ++ [k]) =
      some (upsert (folded ownerId sourceId checks) (k.excluded ownerId sourceId)) := by
  rw [folded, List.foldl_append]
  rfl

theorem checksOf_append (ownerId sourceId : String) (entries : List Entry) (e : Entry) :
    checksOf ownerId sourceId (entries ++ [e]) =
      checksOf ownerId sourceId entries ++ if e.isOf ownerId sourceId then [e.check] else [] := by
  rw [checksOf, checksOf]
  cases mine : e.isOf ownerId sourceId <;> simp [mine]

theorem merge_withStreak (row excluded : HealthRow) (before after : Nat) :
    ((row.withStreak before).merge excluded).withStreak after =
      (row.merge excluded).withStreak after := rfl

theorem upsert_withStreak (row : Option HealthRow) (excluded : HealthRow) (before after : Nat) :
    (upsert (row.map (fun r => r.withStreak before)) excluded).withStreak after =
      (upsert row excluded).withStreak after := by
  cases row with
  | none => rfl
  | some row => exact merge_withStreak row excluded before after

/-- What a row holds: the latest check but its cursor, the latest success, and the counts. -/
structure Sums (ownerId sourceId : String) (checks : List Check) (row : HealthRow) : Prop where
  key : row.ownerId = ownerId ∧ row.sourceId = sourceId
  latest : ∃ k ∈ checks, (∀ other ∈ checks, other.moment ≤ k.moment) ∧
    row.lastAttemptAt = k.moment.isoformat ∧ row.latencyMs = k.latencyMs ∧
    row.lastError = k.errorText ∧ row.metadata = k.metadata ∧
    (k.cursor.isSome = true → row.lastCursor = k.cursor)
  success : (row.lastSuccessAt = none ∧ ∀ k ∈ checks, k.ok = false) ∨
    ∃ k ∈ checks, k.ok = true ∧ row.lastSuccessAt = some k.moment.isoformat ∧
      ∀ other ∈ checks, other.ok = true → other.moment ≤ k.moment
  successes : row.totalSuccesses = checks.countP Check.ok
  failures : row.totalFailures = checks.countP (fun k => !k.ok)

theorem sums_first (ownerId sourceId : String) (k : Check) :
    Sums ownerId sourceId [k] (k.excluded ownerId sourceId) where
  key := ⟨rfl, rfl⟩
  latest := ⟨k, List.mem_singleton_self k, by simp [Datetime.le_iff], rfl, rfl, rfl, rfl, fun _ => rfl⟩
  success := by
    cases fine : k.ok with
    | true => exact .inr ⟨k, by simp, fine, by simp [Check.excluded, fine], by simp [Datetime.le_iff]⟩
    | false => exact .inl ⟨by simp [Check.excluded, fine], by simp [fine]⟩
  successes := by cases fine : k.ok <;> simp [Check.excluded]
  failures := by cases fine : k.ok <;> simp [Check.excluded, fine]

variable {row : HealthRow}

theorem late_excluded {latest k : Check} (ownerId sourceId : String)
    (attempt : row.lastAttemptAt = latest.moment.isoformat) :
    row.late (k.excluded ownerId sourceId) = decide (k.moment.rank < latest.moment.rank) := by
  rw [HealthRow.late, attempt]
  exact later_text k.moment latest.moment

theorem merge_success (ownerId sourceId : String) (k : Check) :
    (row.merge (k.excluded ownerId sourceId)).lastSuccessAt =
      if k.ok then some (match row.lastSuccessAt with
        | some before => if k.moment.isoformat < before then before else k.moment.isoformat
        | none => k.moment.isoformat)
      else row.lastSuccessAt := by
  cases fine : k.ok <;> cases before : row.lastSuccessAt <;>
    simp [HealthRow.merge, Check.excluded, fine, before]

theorem sums_merge (sums : Sums ownerId sourceId checks row) (k : Check) :
    Sums ownerId sourceId (checks ++ [k]) (row.merge (k.excluded ownerId sourceId)) := by
  obtain ⟨latest, mem, greatest, attempt, latency, error, metadata, cursor⟩ := sums.latest
  have late := @late_excluded row latest k ownerId sourceId attempt
  refine ⟨by simpa only [HealthRow.merge] using sums.key, ?_, ?_, ?_, ?_⟩
  · by_cases older : k.moment.rank < latest.moment.rank
    · rw [decide_eq_true older] at late
      refine ⟨latest, List.mem_append_left _ mem, ?_, ?_⟩
      · intro other inside
        rcases List.mem_append.mp inside with old | new
        · exact greatest other old
        · obtain rfl := List.mem_singleton.mp new
          exact Nat.le_of_lt older
      · simp only [HealthRow.merge, late, Bool.not_true, Bool.and_false]
        exact ⟨attempt, latency, error, metadata, cursor⟩
    · rw [decide_eq_false older] at late
      refine ⟨k, by simp, ?_, ?_⟩
      · intro other inside
        rcases List.mem_append.mp inside with old | new
        · exact Datetime.le_trans (greatest other old) (Nat.le_of_not_lt older)
        · obtain rfl := List.mem_singleton.mp new
          exact Nat.le_refl _
      · simp only [HealthRow.merge, late, Bool.not_false, Bool.and_true]
        refine ⟨rfl, rfl, rfl, rfl, fun given => ?_⟩
        exact if_pos given
  · rw [merge_success]
    cases fine : k.ok with
    | false =>
      rcases sums.success with ⟨never, none⟩ | ⟨good, inside, ok, stamp, top⟩
      · exact .inl ⟨never, List.forall_mem_append.mpr ⟨none, List.forall_mem_singleton.mpr fine⟩⟩
      · refine .inr ⟨good, List.mem_append_left _ inside, ok, stamp,
          List.forall_mem_append.mpr ⟨top, List.forall_mem_singleton.mpr (fun ok => ?_)⟩⟩
        cases fine.symm.trans ok
    | true =>
      right
      simp only [if_true, List.forall_mem_append, List.forall_mem_singleton]
      rcases sums.success with ⟨never, none⟩ | ⟨good, inside, ok, stamp, top⟩
      · refine ⟨k, by simp, fine, by rw [never], fun other inside ok => ?_, fun _ => Nat.le_refl _⟩
        cases (none other inside).symm.trans ok
      · by_cases older : k.moment.rank < good.moment.rank
        · refine ⟨good, List.mem_append_left _ inside, ok, ?_, top, fun _ => Nat.le_of_lt older⟩
          simp only [stamp, if_pos (isoformat_lt.mpr older)]
        · have older' : ¬ k.moment.isoformat < good.moment.isoformat := fun less =>
            older (isoformat_lt.mp less)
          refine ⟨k, by simp, fine, ?_, fun other inside ok => ?_, fun _ => Nat.le_refl _⟩
          · simp only [stamp, if_neg older']
          · exact Datetime.le_trans (top other inside ok) (Nat.le_of_not_lt older)
  · simp only [HealthRow.merge, sums.successes, Check.excluded, List.countP_append,
      List.countP_singleton]
  · simp only [HealthRow.merge, sums.failures, Check.excluded, List.countP_append,
      List.countP_singleton]
    cases k.ok <;> rfl

theorem folded_sums (ownerId sourceId : String) (some_ : checks ≠ []) :
    ∃ row, folded ownerId sourceId checks = some row ∧ Sums ownerId sourceId checks row := by
  induction checks using List.reverseRecOn with
  | nil => exact absurd rfl some_
  | append_singleton first k ih =>
    rw [folded_append]
    cases first with
    | nil => exact ⟨_, rfl, sums_first ownerId sourceId k⟩
    | cons head rest =>
      obtain ⟨row, found, sums⟩ := ih (List.cons_ne_nil _ _)
      rw [found]
      exact ⟨_, rfl, sums_merge sums k⟩

/-- The ledger's rows with their ids, for one source. -/
def numbered (ownerId sourceId : String) (entries : List Entry) : List (Check × Nat) :=
  (entries.zipIdx.filter (fun e => e.1.isOf ownerId sourceId)).map (fun e => (e.1.check, e.2))

theorem row_isOf (ownerId sourceId : String) (e : Entry) :
    e.row.isOf ownerId sourceId = e.isOf ownerId sourceId := rfl

theorem numbered_checks (ownerId sourceId : String) (entries : List Entry) :
    (numbered ownerId sourceId entries).map Prod.fst = checksOf ownerId sourceId entries := by
  have all : entries.zipIdx.map Prod.fst = entries := List.zipIdx_map_fst 0 entries
  rw [numbered, List.map_map, checksOf]
  conv => rhs; rw [← all, List.filter_map, List.map_map]
  rfl

theorem numbered_increasing (ownerId sourceId : String) (entries : List Entry) :
    (numbered ownerId sourceId entries).Pairwise (fun a b => a.2 < b.2) := by
  have places : (entries.zipIdx.map Prod.snd).Pairwise (· < ·) := by
    rw [List.zipIdx_map_snd]
    exact List.pairwise_lt_range'
  exact List.pairwise_map.mpr ((List.pairwise_map.mp places).filter _)

theorem after_ledger (ownerId sourceId : String) (s c : Check × Nat) :
    after (s.1.ledger ownerId sourceId, s.2) (c.1.ledger ownerId sourceId, c.2) =
      follows (fun k : Check => k.moment.rank) s c := by
  unfold after follows
  exact congrArg₂ _ (later_text _ _) (congrArg (· && decide (c.2 < s.2)) (same_text _ _))

theorem streak_eq (ownerId sourceId : String) (entries : List Entry) :
    streak (entries.map Entry.row) ownerId sourceId =
      failuresSince (checksOf ownerId sourceId entries) := by
  have rows : (entries.map Entry.row).zipIdx.filter (fun c => c.1.isOf ownerId sourceId) =
      (numbered ownerId sourceId entries).map (fun k => (k.1.ledger ownerId sourceId, k.2)) := by
    rw [List.zipIdx_map, List.filter_map, numbered, List.map_map]
    refine List.map_congr_left (fun e mem => ?_)
    obtain ⟨-, mine⟩ := List.mem_filter.mp mem
    simp only [Function.comp_apply, Prod.map_fst, row_isOf, Entry.isOf, Bool.and_eq_true,
      decide_eq_true_eq] at mine
    simp only [Function.comp_apply, Prod.map, Entry.row, mine, id_eq]
  have count := count_numbered (fun k : Check => k.moment.rank) Check.ok
    (numbered_increasing ownerId sourceId entries)
  rw [numbered_checks] at count
  rw [failuresSince, ← count, streak]
  simp only [rows]
  rw [List.filter_map, List.length_map]
  refine congrArg List.length (List.filter_congr (fun c mem => ?_))
  rw [Function.comp_apply, List.any_map]
  have later : ∀ s, ((fun s : CheckRow × Nat => s.1.ok && after s (c.1.ledger ownerId sourceId, c.2)) ∘
      fun k : Check × Nat => (k.1.ledger ownerId sourceId, k.2)) s =
        (s.1.ok && follows (fun k : Check => k.moment.rank) s c) := fun s =>
    congrArg (s.1.ok && ·) (after_ledger ownerId sourceId s c)
  exact congrArg (fun b => !c.1.ok && !b) (List.any_congr rfl later)

theorem checksOf_mem (mem : k ∈ checksOf ownerId sourceId entries) :
    ∃ e ∈ entries, e.check = k := by
  obtain ⟨e, inside, same⟩ := List.mem_map.mp mem
  exact ⟨e, List.mem_of_mem_filter inside, same⟩

theorem normalized_written (inverse : Inverse fromisoformat)
    (sums : Sums ownerId sourceId checks row)
    (real : ∀ k ∈ checks, Real k.moment) (failures : Nat) :
    (row.withStreak failures).normalized fromisoformat = .ok (row.withStreak failures) := by
  obtain ⟨latest, mem, -, attempt, -⟩ := sums.latest
  have first := healthUtc_written inverse (real latest mem)
  rw [← attempt] at first
  rcases sums.success with ⟨never, -⟩ | ⟨good, inside, -, stamp, -⟩
  · simp [HealthRow.normalized, HealthRow.withStreak, first, never, bind, Except.bind, pure, Except.pure]
  · have second := healthUtc_written inverse (real good inside)
    simp [HealthRow.normalized, HealthRow.withStreak, first, stamp, second, bind, Except.bind, pure,
      Except.pure, Except.map]

theorem normalizedChecks_written (inverse : Inverse fromisoformat) (ownerId sourceId : String)
    (real : ∀ e ∈ entries, Real e.check.moment) :
    normalizedChecks fromisoformat ownerId sourceId (entries.map Entry.row) =
      .ok (entries.map Entry.row) := by
  induction entries with
  | nil => rfl
  | cons e rest ih =>
    obtain ⟨here, later⟩ := List.forall_mem_cons.mp real
    have normal : e.row.normalized fromisoformat = .ok e.row := by
      have text : healthUtc fromisoformat e.row.checkedAt = .ok e.row.checkedAt :=
        healthUtc_written inverse here
      rw [CheckRow.normalized, text]
      rfl
    simp only [List.map_cons, normalizedChecks, normal, ih later]
    exact ite_self _

theorem publish_kept (inverse : Inverse fromisoformat) (kept : Kept s entries)
    (ownerId sourceId : String) (real : Real k.moment) :
    ∃ t, publish fromisoformat ownerId sourceId k s = (.ok (), t) ∧
      Kept t (entries ++ [⟨ownerId, sourceId, k⟩]) := by
  have all : ∀ e ∈ entries ++ [(⟨ownerId, sourceId, k⟩ : Entry)], Real e.check.moment :=
    List.forall_mem_append.mpr ⟨kept.real, List.forall_mem_singleton.mpr real⟩
  have ledger : s.checks ++ [k.ledger ownerId sourceId] =
      (entries ++ [(⟨ownerId, sourceId, k⟩ : Entry)]).map Entry.row := by
    rw [kept.ledger, List.map_append]
    rfl
  have stored : (s.health.find (ownerId, sourceId)).mapM (HealthRow.normalized fromisoformat) =
      .ok (s.health.find (ownerId, sourceId)) := by
    rw [kept.rows]
    cases checks : checksOf ownerId sourceId entries with
    | nil => rfl
    | cons head rest =>
      have some_ : checksOf ownerId sourceId entries ≠ [] := by
        rw [checks]
        exact List.cons_ne_nil head rest
      obtain ⟨row, found, sums⟩ := folded_sums ownerId sourceId some_
      rw [← checks, found, map_some]
      have normal := normalized_written inverse sums (fun k mem => by
        obtain ⟨e, inside, rfl⟩ := checksOf_mem mem
        exact kept.real e inside) (failuresSince (checksOf ownerId sourceId entries))
      simp only [mapM_some, normal]
      rfl
  have written : publish fromisoformat ownerId sourceId k s = (.ok (),
      ⟨s.health.replace ((upsert (s.health.find (ownerId, sourceId))
        (k.excluded ownerId sourceId)).withStreak
          (streak (s.checks ++ [k.ledger ownerId sourceId]) ownerId sourceId)),
        s.checks ++ [k.ledger ownerId sourceId]⟩) := by
    have checks := normalizedChecks_written inverse ownerId sourceId kept.real
    rw [← kept.ledger] at checks
    simp only [publish, Txn.run_bind, Txn.run_read, Txn.run_ofExcept, stored, checks, Txn.run_write]
  obtain ⟨row, found, sums⟩ := folded_sums ownerId sourceId
    (List.concat_ne_nil k (checksOf ownerId sourceId entries))
  rw [folded_append, Option.some.injEq] at found
  refine ⟨_, written, ledger, fun owner source => ?_, all⟩
  have key : (row.withStreak (failuresSince
      (checksOf ownerId sourceId (entries ++ [⟨ownerId, sourceId, k⟩])))).id = (ownerId, sourceId) :=
    Prod.ext sums.key.1 sums.key.2
  rw [Table.find_replace, ledger, streak_eq, kept.rows ownerId sourceId, upsert_withStreak, found, key,
    checksOf_append owner source]
  by_cases same : (ownerId, sourceId) = (owner, source)
  · obtain ⟨rfl, rfl⟩ := Prod.mk.inj same
    have mine : Entry.isOf ownerId sourceId ⟨ownerId, sourceId, k⟩ = true := by simp [Entry.isOf]
    rw [if_pos rfl, checksOf_append, mine, if_pos rfl, folded_append, found, map_some]
  · have other : Entry.isOf owner source ⟨ownerId, sourceId, k⟩ = false := by
      simpa [Entry.isOf] using same
    rw [if_neg same, kept.rows owner source, other, if_neg Bool.false_ne_true, List.append_nil]

/-- The metadata is what Python holds: floats have their text, no dictionary a name twice. -/
def Genuine (c : Call) : Prop :=
  encodable { sortKeys := true, allowNan := false } (.obj (c.metadata.getD [])) = true →
    Loadable (.obj (c.metadata.getD []))

/-- The metadata of a check can be read. -/
def Legible (k : Check) : Prop := (JsonLoads.loads k.metadata).isSome = true

theorem check_ok (checked : c.check fromisoformat = .ok k) :
    Real k.moment ∧ Json.dumps { sortKeys := true, allowNan := false } (.obj (c.metadata.getD [])) =
      .ok k.metadata := by
  unfold Call.check at checked
  split at checked
  · cases checked
  · split at checked
    · cases checked
    · split at checked
      · cases checked
      · split at checked
        · cases checked
        · obtain ⟨given, -, checked⟩ := except_bind_returned checked
          obtain ⟨moment, moved, checked⟩ := except_bind_returned checked
          obtain ⟨encoded, written, checked⟩ := except_bind_returned checked
          cases checked
          exact ⟨aware_real moved, written⟩

theorem check_legible (genuine : Genuine c) (checked : c.check fromisoformat = .ok k) :
    Legible k := by
  have written := (check_ok checked).2
  have answers := dumps_answers { sortKeys := true, allowNan := false } (.obj (c.metadata.getD []))
  rw [written] at answers
  rw [Legible, sorted_loaded (genuine answers) rfl written]
  rfl

theorem get_kept (kept : Kept s entries) (legible : ∀ e ∈ entries, Legible e.check)
    (ownerId sourceId : String) : ∃ answer, SourceHealth.get s ownerId sourceId = .ok answer := by
  unfold SourceHealth.get
  rw [kept.rows]
  cases checks : checksOf ownerId sourceId entries with
  | nil => exact ⟨none, rfl⟩
  | cons head rest =>
    obtain ⟨row, found, sums⟩ := folded_sums ownerId sourceId (List.cons_ne_nil head rest)
    obtain ⟨latest, mem, -, -, -, -, metadata, -⟩ := sums.latest
    rw [← checks] at mem
    obtain ⟨e, inside, rfl⟩ := checksOf_mem mem
    obtain ⟨value, loaded⟩ := isSome_iff_exists.mp (legible e inside)
    have text : JsonLoads.loads (row.withStreak (failuresSince (head :: rest))).metadata = some value := by
      rw [← loaded, ← metadata]
      rfl
    simp only [found, map_some, text]
    exact ⟨_, rfl⟩

theorem record_refused {e : Exc} (refused : c.check fromisoformat = .error e) (s : HealthStore) :
    record fromisoformat c s = (.error (.raised e), s) := by
  rw [record, refused]
  rfl

theorem record_kept (inverse : Inverse fromisoformat) (kept : Kept s entries)
    (legible : ∀ e ∈ entries, Legible e.check) (genuine : Genuine c)
    (checked : c.check fromisoformat = .ok k) :
    ∃ answer t, record fromisoformat c s = (.ok answer, t) ∧
      Kept t (entries ++ [⟨c.ownerId, c.sourceId, k⟩]) := by
  obtain ⟨t, published, next⟩ := publish_kept inverse kept c.ownerId c.sourceId (check_ok checked).1
  have all : ∀ e ∈ entries ++ [(⟨c.ownerId, c.sourceId, k⟩ : Entry)], Legible e.check :=
    List.forall_mem_append.mpr ⟨legible, List.forall_mem_singleton.mpr (check_legible genuine checked)⟩
  obtain ⟨answer, read⟩ := get_kept next all c.ownerId c.sourceId
  refine ⟨answer, t, ?_, next⟩
  have committed : Txn.atomically (publish fromisoformat c.ownerId c.sourceId k) s = (.ok (), t) := by
    rw [Txn.atomically, published]
  rw [record, checked]
  simp only [Except.mapError, Txn.run_bind, Txn.run_ofExcept, committed, Txn.run_read, read]

/-- What a call records, where its arguments pass. -/
def entryOf (fromisoformat : String → Except Exc Moment) (c : Call) : Option Entry :=
  (c.check fromisoformat).toOption.map (fun k => ⟨c.ownerId, c.sourceId, k⟩)

/-- A step of the store. -/
def step (fromisoformat : String → Except Exc Moment) (s : HealthStore) (c : Call) :
    Except HealthExc (Option (HealthRow × Json)) × HealthStore := record fromisoformat c s

/-- A call raises exactly when its arguments do not pass, and then changes nothing. -/
def Faithful (fromisoformat : String → Except Exc Moment)
    (e : Event HealthStore Call (Except HealthExc (Option (HealthRow × Json)))) : Prop :=
  (∀ raised, e.answer = .error raised → e.after = e.before) ∧
    (e.answer.isOk = (e.action.check fromisoformat).isOk)

theorem run_kept (inverse : Inverse fromisoformat) (calls : List Call)
    (genuine : ∀ c ∈ calls, Genuine c) (kept : Kept s entries)
    (legible : ∀ e ∈ entries, Legible e.check) :
    (∀ e ∈ history (step fromisoformat) s calls, Faithful fromisoformat e) ∧
      Kept (final (step fromisoformat) s calls)
        (entries ++ calls.filterMap (entryOf fromisoformat)) := by
  induction calls generalizing s entries with
  | nil => exact ⟨by simp, by simpa using kept⟩
  | cons c rest ih =>
    obtain ⟨here, later⟩ := List.forall_mem_cons.mp genuine
    rw [history_cons, List.forall_mem_cons, final_cons]
    cases checked : c.check fromisoformat with
    | error e =>
      have refused : step fromisoformat s c = (.error (.raised e), s) := record_refused checked s
      have none : entryOf fromisoformat c = none := by rw [entryOf, checked]; rfl
      rw [refused, List.filterMap_cons_none none]
      obtain ⟨faithful, next⟩ := ih later kept legible
      refine ⟨⟨⟨fun _ _ => rfl, ?_⟩, faithful⟩, next⟩
      rw [checked]
      rfl
    | ok k =>
      obtain ⟨answer, t, recorded, next⟩ := record_kept inverse kept legible here checked
      have done : step fromisoformat s c = (.ok answer, t) := recorded
      have some_ : entryOf fromisoformat c = some ⟨c.ownerId, c.sourceId, k⟩ := by
        rw [entryOf, checked]
        rfl
      obtain ⟨faithful, last⟩ := ih later next (List.forall_mem_append.mpr
        ⟨legible, List.forall_mem_singleton.mpr (check_legible here checked)⟩)
      rw [done, List.filterMap_cons_some some_, List.append_cons]
      refine ⟨⟨⟨nofun, ?_⟩, faithful⟩, last⟩
      rw [checked]
      rfl

end Recording

/-- The checks of a source that some calls record, in order of arrival. -/
def recorded (fromisoformat : String → Except Exc Moment) (calls : List Call)
    (ownerId sourceId : String) : List Check :=
  checksOf ownerId sourceId (calls.filterMap (entryOf fromisoformat))

/-- What the row of a source tells of its checks. -/
structure Tells (checks : List Check) (row : HealthRow) : Prop where
  /-- The failures after the last success, by time and then arrival. -/
  streak : row.consecutiveFailures =
    trailing Check.ok (chronological (fun k => k.moment.rank) checks)
  successes : row.totalSuccesses = checks.countP Check.ok
  failures : row.totalFailures = checks.countP (fun k => !k.ok)
  attempt : ∃ k ∈ checks, row.lastAttemptAt = k.moment.isoformat ∧
    ∀ other ∈ checks, other.moment ≤ k.moment
  success : (row.lastSuccessAt = none ∧ ∀ k ∈ checks, k.ok = false) ∨
    ∃ k ∈ checks, k.ok = true ∧ row.lastSuccessAt = some k.moment.isoformat ∧
      ∀ other ∈ checks, other.ok = true → other.moment ≤ k.moment

theorem empty_kept : Kept HealthStore.empty [] where
  ledger := rfl
  rows _ _ := rfl
  real _ mem := by cases mem

theorem kept_tells (kept : Kept s entries) (ownerId sourceId : String) :
    (checksOf ownerId sourceId entries = [] ∧ s.health.find (ownerId, sourceId) = none) ∨
      ∃ row, s.health.find (ownerId, sourceId) = some row ∧
        Tells (checksOf ownerId sourceId entries) row := by
  rw [kept.rows]
  cases checks : checksOf ownerId sourceId entries with
  | nil => exact .inl ⟨rfl, rfl⟩
  | cons head rest =>
    obtain ⟨row, found, sums⟩ := folded_sums ownerId sourceId (List.cons_ne_nil head rest)
    obtain ⟨latest, mem, greatest, attempt, -⟩ := sums.latest
    rw [found]
    exact .inr ⟨_, rfl, rfl, sums.successes, sums.failures, ⟨latest, mem, attempt, greatest⟩,
      sums.success⟩

/-- After any calls, the row of every source tells of its checks in the order of time; a call that
raises changes nothing. -/
theorem rows_tell {fromisoformat : String → Except Exc Moment} (inverse : Inverse fromisoformat)
    (calls : List Call) (genuine : ∀ c ∈ calls, Genuine c) :
    (∀ e ∈ history (step fromisoformat) HealthStore.empty calls, Faithful fromisoformat e) ∧
      ∀ ownerId sourceId,
        (recorded fromisoformat calls ownerId sourceId = [] ∧
          (final (step fromisoformat) HealthStore.empty calls).health.find (ownerId, sourceId) =
            none) ∨
        ∃ row, (final (step fromisoformat) HealthStore.empty calls).health.find (ownerId, sourceId) =
            some row ∧ Tells (recorded fromisoformat calls ownerId sourceId) row := by
  obtain ⟨faithful, kept⟩ := run_kept inverse calls genuine empty_kept nofun
  exact ⟨faithful, fun ownerId sourceId => kept_tells kept ownerId sourceId⟩

/-- `fromisoformat` on the texts that `isoformat` writes. -/
def parseIso (text : String) : Except Exc Moment :=
  match ExpiryText.readIso text with
  | some moment => .ok moment
  | none => .error (.valueError "Invalid isoformat string")

theorem parseIso_inverse : Inverse parseIso := by
  have same : (fun text => (parseIso text).toOption) = ExpiryText.readIso := by
    funext text
    unfold parseIso
    cases ExpiryText.readIso text <;> rfl
  rw [Inverse, same]
  exact ExpiryText.readIso_inverts

theorem morning_real : Real ExpiryText.morning := by decide

/-- A check of one source at a minute of an hour, with nothing else given. -/
def checkAt (ok : Bool) (cursor : Option String) (stamp : String) : Call where
  ownerId := "u"
  sourceId := "mail"
  ok := some ok
  latencyMs := none
  cursor := cursor
  error := none
  metadata := none
  checkedAt := some stamp
  now := ⟨ExpiryText.morning, some 0, morning_real, ExpiryText.utc_bounded⟩

theorem checkAt_genuine (ok : Bool) (cursor : Option String) (stamp : String) :
    Genuine (checkAt ok cursor stamp) := by
  intro _
  exact ⟨List.nodup_nil, trivial⟩

/-- A failure, the success before it, and a failure before that. -/
def lateFailure : List Call :=
  [checkAt false none "2026-10-07T10:02:00+00:00", checkAt true none "2026-10-07T10:01:00+00:00",
    checkAt false none "2026-10-07T10:00:00+00:00"]

theorem late_failure_told :
    ((final (step parseIso) HealthStore.empty lateFailure).health.find ("u", "mail")).map
        (fun row => (row.consecutiveFailures, row.totalFailures, row.lastSuccessAt)) =
      some (1, 2, some "2026-10-07T10:01:00+00:00") ∧
    (∀ e ∈ history (step parseIso) HealthStore.empty lateFailure, Faithful parseIso e) ∧
      ∀ ownerId sourceId,
        (recorded parseIso lateFailure ownerId sourceId = [] ∧
          (final (step parseIso) HealthStore.empty lateFailure).health.find (ownerId, sourceId) =
            none) ∨
        ∃ row, (final (step parseIso) HealthStore.empty lateFailure).health.find (ownerId, sourceId) =
            some row ∧ Tells (recorded parseIso lateFailure ownerId sourceId) row := by
  refine ⟨by decide +kernel, rows_tell parseIso_inverse lateFailure ?_⟩
  simp only [lateFailure, List.forall_mem_cons, List.not_mem_nil, false_imp_iff, implies_true,
    and_true]
  exact ⟨checkAt_genuine _ _ _, checkAt_genuine _ _ _, checkAt_genuine _ _ _⟩

end Meemee.Guarantees.HealthStreak
