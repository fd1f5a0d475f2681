import Meemee.Guarantees.SendPermission
import Meemee.Library.Circle
import Meemee.Source.NextDue

/-!
# Where the search for a check-in stops

`next_due` looks at a quarter of an hour after another for two weeks, so it returns an allowed
instant if and only if one of these quarters is outside the quiet window. Where the zone keeps its
offset they stand at the same minutes of every hour, and an open part of the day shorter than a
quarter can lie between them for ever.
-/
namespace Meemee.Guarantees.QuietSlots
open Library Library.Circle Source Source.Checkins Source.NextDue

theorem day_quarters : days 1 = minutes 15 * (96 : Nat) := by decide

theorem day_positive : 0 < days 1 := by decide

theorem hhmm_within (value : HourMinute) : 0 ≤ (hhmm value : Int) ∧ (hhmm value : Int) < days 1 := by
  simp only [hhmm, days, minutes, seconds]
  omega

/-- How long the day is open. -/
def opening (quiet : QuietHours) : Int := past (days 1) (hhmm quiet.stop) (hhmm quiet.start)

/-- What a clock of the zone shows at an instant, as the time since midnight. -/
def timeAt (zone : Zone) (t : Instant) : Nat := ((t + zone.ahead t) % days 1).toNat

theorem timeAt_within (zone : Zone) (t : Instant) :
    0 ≤ (timeAt zone t : Int) ∧ (timeAt zone t : Int) < days 1 := by
  have nonnegative := Int.emod_nonneg (t + zone.ahead t) (Int.ne_of_gt day_positive)
  have bounded := Int.emod_lt_of_pos (t + zone.ahead t) day_positive
  unfold timeAt
  omega

theorem not_quiet_iff {moment : Nat} (within : (moment : Int) < days 1) (quiet : QuietHours) :
    inQuietHours moment quiet = false ↔
      OnArc (days 1) (hhmm quiet.stop) (hhmm quiet.start) moment := by
  rw [onArc_iff (hhmm_within _) (hhmm_within _) ⟨by omega, within⟩, ← Bool.not_eq_true,
    SendPermission.inQuietHours_iff]
  unfold SendPermission.InWindow
  split <;> omega

/-- The quiet window, if there is one, is not open at the instant. -/
def Allowed (prefs : Preferences) (zone : Zone) (t : Instant) : Prop :=
  ∀ quiet, prefs.quietHours = some quiet → inQuietHours (timeAt zone t) quiet = false

theorem allowed_none {prefs : Preferences} (absent : prefs.quietHours = none) (zone : Zone)
    (t : Instant) : Allowed prefs zone t := by
  intro quiet present
  cases absent.symm.trans present

variable {quiet : QuietHours} {t : Instant} {zone : Zone} {delta : Int} {budget k : Nat}
  {found : Aware}

theorem allowed_some {prefs : Preferences} (present : prefs.quietHours = some quiet) (zone : Zone)
    (t : Instant) : Allowed prefs zone t ↔ inQuietHours (timeAt zone t) quiet = false := by
  constructor
  · intro allowed
    exact allowed quiet present
  · intro clear other same
    cases present.symm.trans same
    exact clear

def Representable (wall : Instant) : Prop := Jobs.firstInstant ≤ wall ∧ wall ≤ Jobs.lastInstant

/-- An instant and the zone's clock at it are times of the years 1 to 9999. -/
def Stands (zone : Zone) (t : Instant) : Prop := Representable t ∧ Representable (t + zone.ahead t)

/-- The time in the zone. -/
def clock (zone : Zone) (t : Instant) : Aware := ⟨t + zone.ahead t, zone.ahead t⟩

theorem representable_ok {wall : Instant} (holds : Representable wall) :
    representable wall = .ok wall := if_pos holds

theorem representable_cases {wall : Instant} (returned : representable wall = .ok t) :
    Representable wall ∧ t = wall := by
  unfold representable at returned
  split at returned
  next holds =>
    cases returned
    exact ⟨holds, rfl⟩
  next => cases returned

theorem time_clock (zone : Zone) (t : Instant) : (clock zone t).time = timeAt zone t := rfl

theorem utc_clock (stands : Stands zone t) : (clock zone t).utc = .ok t := by
  rw [clock, Aware.utc, Int.add_sub_cancel]
  exact representable_ok stands.1

theorem later_ok {moment : Aware} (read : moment.utc = .ok t)
    (stands : Stands zone (t + minutes delta)) :
    zone.later delta moment = .ok (clock zone (t + minutes delta)) := by
  rw [Zone.later, read]
  change (representable (t + minutes delta) >>= _) = _
  rw [representable_ok stands.1]
  change (representable (t + minutes delta + zone.ahead _) >>= _) = _
  rw [representable_ok stands.2]
  rfl

theorem later_cases {moment next : Aware} (moved : zone.later delta moment = .ok next) :
    ∃ t, moment.utc = .ok t ∧ Stands zone (t + minutes delta) ∧
      next = clock zone (t + minutes delta) := by
  obtain ⟨t, read, rest⟩ := except_bind_returned moved
  obtain ⟨sum, held, shown⟩ := except_bind_returned rest
  obtain ⟨whole, rfl⟩ := representable_cases held
  obtain ⟨wall, wallHeld, made⟩ := except_bind_returned shown
  obtain ⟨local', rfl⟩ := representable_cases wallHeld
  cases made
  exact ⟨t, read, ⟨whole, local'⟩, rfl⟩

/-- The instant that many quarters of an hour later. -/
def quarter (t : Instant) (k : Nat) : Instant := t + minutes 15 * k

theorem quarter_zero (t : Instant) : quarter t 0 = t := by
  simp [quarter]

theorem quarter_succ (t : Instant) (k : Nat) : quarter (t + minutes 15) k = quarter t (k + 1) := by
  rw [quarter, quarter, Int.natCast_succ, Int.mul_add, Int.mul_one, Int.add_assoc,
    Int.add_comm (minutes 15)]

section Search

variable {zone : Zone} {quiet : QuietHours}

/-- The search may stop at `found`: a quarter is open there, every one before it read. -/
def Stops (zone : Zone) (quiet : QuietHours) (budget : Nat) (t : Instant) (found : Aware) : Prop :=
  ∃ k ≤ budget, (∀ j ≤ k, Stands zone (quarter t j)) ∧
    inQuietHours (timeAt zone (quarter t k)) quiet = false ∧ found = clock zone (quarter t k)

theorem stops_here (stands : Stands zone t) (clear : inQuietHours (timeAt zone t) quiet = false) :
    Stops zone quiet budget t (clock zone t) := by
  refine ⟨0, Nat.zero_le _, ?_, ?_, ?_⟩
  · intro j start
    rw [Nat.le_zero.mp start, quarter_zero]
    exact stands
  · rw [quarter_zero]
    exact clear
  · rw [quarter_zero]

theorem stops_later (stands : Stands zone t)
    (stops : Stops zone quiet budget (t + minutes 15) found) :
    Stops zone quiet (budget + 1) t found := by
  obtain ⟨k, within, passed, clear, stopped⟩ := stops
  rw [quarter_succ] at clear stopped
  refine ⟨k + 1, Nat.succ_le_succ within, ?_, clear, stopped⟩
  intro j upTo
  cases j with
  | zero =>
    rw [quarter_zero]
    exact stands
  | succ j =>
    rw [← quarter_succ]
    exact passed j (Nat.le_of_succ_le_succ upTo)

theorem search_returned (stands : Stands zone t)
    (returned : search zone quiet budget (clock zone t) = .ok found) :
    Stops zone quiet budget t found := by
  induction budget generalizing t with
  | zero =>
    unfold search at returned
    split at returned
    next =>
      obtain ⟨next, -, raised⟩ := except_bind_returned returned
      cases raised
    next clear =>
      cases returned
      exact stops_here stands (Bool.eq_false_iff.mpr clear)
  | succ left ih =>
    unfold search at returned
    split at returned
    next =>
      obtain ⟨next, moved, rest⟩ := except_bind_returned returned
      obtain ⟨u, read, further, rfl⟩ := later_cases moved
      cases (utc_clock stands).symm.trans read
      exact stops_later stands (ih further rest)
    next clear =>
      cases returned
      exact stops_here stands (Bool.eq_false_iff.mpr clear)

theorem search_finds (within : k ≤ budget) (stands : ∀ j ≤ k, Stands zone (quarter t j))
    (clear : inQuietHours (timeAt zone (quarter t k)) quiet = false) :
    ∃ found, search zone quiet budget (clock zone t) = .ok found := by
  induction k generalizing budget t with
  | zero =>
    rw [quarter_zero] at clear
    unfold search
    rw [time_clock, clear]
    exact ⟨_, rfl⟩
  | succ k ih =>
    unfold search
    split
    next =>
      have here := stands 0 (Nat.zero_le _)
      have soon := stands 1 (Nat.succ_le_succ (Nat.zero_le k))
      rw [quarter_zero] at here
      rw [← quarter_succ, quarter_zero] at soon
      rw [later_ok (utc_clock here) soon]
      obtain ⟨left, rfl⟩ : ∃ left, budget = left + 1 := ⟨budget - 1, by omega⟩
      refine ih (by omega) ?_ ?_
      · intro j upTo
        rw [quarter_succ]
        exact stands (j + 1) (Nat.succ_le_succ upTo)
      · rw [quarter_succ]
        exact clear
    next => exact ⟨_, rfl⟩

end Search

/-- The instant a cadence after the clock. -/
def first (prefs : Preferences) (after : Aware) : Instant :=
  after.wall - after.ahead + minutes prefs.cadenceMinutes

/-- `next_due` returns an allowed instant, a cadence or more after the clock. -/
def Delivers (prefs : Preferences) (zone : Zone) (after : Aware) : Prop :=
  ∃ due, nextDue prefs zone after.wall (some after.ahead) = .ok due ∧ first prefs after ≤ due ∧
    Allowed prefs zone due

/-- A quarter of two weeks is allowed, and `datetime` holds each one up to it. -/
def Reaches (prefs : Preferences) (zone : Zone) (after : Aware) : Prop :=
  Representable (after.wall - after.ahead) ∧ ∃ k ≤ guardLimit,
    (∀ j ≤ k, Stands zone (quarter (first prefs after) j)) ∧
      Allowed prefs zone (quarter (first prefs after) k)

theorem le_quarter (t : Instant) (k : Nat) : t ≤ quarter t k := by
  have ahead : 0 ≤ minutes 15 * (k : Int) := Int.mul_nonneg (by decide) (Int.natCast_nonneg k)
  exact Int.le_add_of_nonneg_right ahead

section Delivery

variable {prefs : Preferences} {zone : Zone} {after : Aware}

theorem ok_bind {α β : Type} (a : α) (next : α → Except Exc β) : (.ok a >>= next) = next a := rfl

theorem nextDue_started (held : Representable (after.wall - after.ahead))
    (stands : Stands zone (first prefs after)) :
    zone.later prefs.cadenceMinutes ⟨after.wall, after.ahead⟩ = .ok (clock zone (first prefs after)) :=
  later_ok (representable_ok held) stands

theorem delivers_of_reaches (reaches : Reaches prefs zone after) : Delivers prefs zone after := by
  obtain ⟨held, k, within, stands, allowed⟩ := reaches
  have here := stands 0 (Nat.zero_le k)
  rw [quarter_zero] at here
  unfold Delivers nextDue
  simp only [nextDue_started held here, ok_bind]
  cases window : prefs.quietHours with
  | none =>
    exact ⟨_, utc_clock here, Int.le_refl _, allowed_none window zone _⟩
  | some quiet =>
    obtain ⟨found, returned⟩ := search_finds within stands (allowed quiet window)
    obtain ⟨m, -, passed, clear, rfl⟩ := search_returned here returned
    refine ⟨quarter (first prefs after) m, ?_, le_quarter _ m, (allowed_some window zone _).mpr clear⟩
    simp only [returned, ok_bind]
    exact utc_clock (passed m (Nat.le_refl m))

theorem reaches_of_delivers (delivers : Delivers prefs zone after) : Reaches prefs zone after := by
  obtain ⟨due, returned, -, -⟩ := delivers
  obtain ⟨candidate, moved, rest⟩ := except_bind_returned returned
  obtain ⟨t, read, stands, rfl⟩ := later_cases moved
  obtain ⟨held, rfl⟩ := representable_cases read
  refine ⟨held, ?_⟩
  cases window : prefs.quietHours with
  | none =>
    refine ⟨0, Nat.zero_le _, ?_, allowed_none window zone _⟩
    intro j start
    rw [Nat.le_zero.mp start, quarter_zero]
    exact stands
  | some quiet =>
    rw [window] at rest
    obtain ⟨found, searched, -⟩ := except_bind_returned rest
    obtain ⟨k, within, passed, clear, -⟩ := search_returned stands searched
    exact ⟨k, within, passed, (allowed_some window zone _).mpr clear⟩

/-- The zone has the same offset at that many quarters to come. -/
def Steady (zone : Zone) (t : Instant) (count : Nat) : Prop :=
  ∀ k ≤ count, zone.ahead (quarter t k) = zone.ahead t

/-- How far the clock stands past the end of the quiet window, in a round of one quarter. -/
def phase (zone : Zone) (quiet : QuietHours) (t : Instant) : Int :=
  past (minutes 15) (hhmm quiet.stop) (t + zone.ahead t)

theorem allowed_steady (window : prefs.quietHours = some quiet)
    (same : zone.ahead (quarter t k) = zone.ahead t) :
    Allowed prefs zone (quarter t k) ↔ OnArc (days 1) (hhmm quiet.stop) (hhmm quiet.start)
      (t + zone.ahead t + minutes 15 * k) := by
  have shown : ((timeAt zone (quarter t k) : Nat) : Int) % days 1 =
      (t + zone.ahead t + minutes 15 * k) % days 1 := by
    unfold timeAt
    rw [Int.toNat_of_nonneg (Int.emod_nonneg _ (Int.ne_of_gt day_positive)), Int.emod_emod, same,
      quarter, Int.add_assoc, Int.add_assoc, Int.add_comm (minutes 15 * _)]
  rw [allowed_some window, not_quiet_iff (timeAt_within zone _).2, OnArc, past_congr shown, OnArc]

theorem meets_of_phase (window : prefs.quietHours = some quiet) (steady : Steady zone t 95)
    (reached : phase zone quiet t < opening quiet) :
    ∃ k ≤ 95, Allowed prefs zone (quarter t k) := by
  obtain ⟨k, below, met⟩ := met_of_phase (by decide) (by decide) day_quarters reached
  exact ⟨k, by omega, (allowed_steady window (steady k (by omega))).mpr met⟩

theorem phase_of_allowed (window : prefs.quietHours = some quiet)
    (same : zone.ahead (quarter t k) = zone.ahead t) (allowed : Allowed prefs zone (quarter t k)) :
    phase zone quiet t < opening quiet :=
  phase_of_met (by decide) (by decide) day_quarters k ((allowed_steady window same).mp allowed)

theorem quarter_quarter (t : Instant) (j k : Nat) : quarter (quarter t j) k = quarter t (j + k) := by
  rw [quarter, quarter, quarter, Int.natCast_add, Int.mul_add, Int.add_assoc]

/-- `datetime` holds the clock in UTC and every quarter of the two weeks. -/
structure Lasts (prefs : Preferences) (zone : Zone) (after : Aware) : Prop where
  held : Representable (after.wall - after.ahead)
  stands : ∀ j ≤ guardLimit, Stands zone (quarter (first prefs after) j)

theorem delivers_of_phase (window : prefs.quietHours = some quiet) (lasts : Lasts prefs zone after)
    {j : Nat} (within : j + 95 ≤ guardLimit)
    (steady : Steady zone (quarter (first prefs after) j) 95)
    (reached : phase zone quiet (quarter (first prefs after) j) < opening quiet) :
    Delivers prefs zone after := by
  obtain ⟨k, below, allowed⟩ := meets_of_phase window steady reached
  rw [quarter_quarter] at allowed
  refine delivers_of_reaches ⟨lasts.held, j + k, by omega, ?_, allowed⟩
  intro i upTo
  exact lasts.stands i (by omega)

theorem shifted_within {low high t early late : Int} (below : low + early ≤ t)
    (above : t + late ≤ high) (back : -early ≤ delta) (forth : delta ≤ late) :
    low ≤ t + delta ∧ t + delta ≤ high := by omega

/-- The search lasts where it stays away from the ends of the years 1 and 9999. -/
theorem lasts_of_within (zone : Zone) (early : Jobs.firstInstant + days 7 ≤ first prefs after)
    (late : first prefs after + days 15 ≤ Jobs.lastInstant) : Lasts prefs zone after := by
  constructor
  · have back : after.wall - after.ahead = first prefs after + -minutes prefs.cadenceMinutes :=
      (Int.add_neg_cancel_right _ _).symm
    have cadence := prefs.accepted
    rw [back]
    refine shifted_within early late ?_ ?_ <;>
      · simp only [days, minutes, seconds]
        omega
  · intro j within
    have upTo : j ≤ 1344 := within
    have bounds := zone.bounded (quarter (first prefs after) j)
    have far : 0 ≤ minutes 15 * (j : Int) ∧ minutes 15 * (j : Int) ≤ days 14 := by
      simp only [days, minutes, seconds]
      omega
    have week : days 7 = 7 * days 1 ∧ days 14 = 14 * days 1 ∧ days 15 = 15 * days 1 := by decide
    refine ⟨shifted_within early late (by omega) (by omega), ?_⟩
    change Representable (first prefs after + minutes 15 * j + _)
    rw [Int.add_assoc]
    exact shifted_within early late (by omega) (by omega)

/-- `next_due` delivers if and only if a quarter of the two weeks is allowed. Where the zone keeps
its offset, that is told from the phase at which the quarters pass the end of the quiet window; a
day with one offset is enough where a quarter of an hour or more of it is open. -/
theorem next_due_iff (prefs : Preferences) (zone : Zone) (after : Aware) :
    (Delivers prefs zone after ↔ Reaches prefs zone after) ∧
      ∀ quiet, prefs.quietHours = some quiet → Lasts prefs zone after →
        (Steady zone (first prefs after) guardLimit →
          (Delivers prefs zone after ↔ phase zone quiet (first prefs after) < opening quiet)) ∧
        ∀ j, j + 95 ≤ guardLimit → Steady zone (quarter (first prefs after) j) 95 →
          minutes 15 ≤ opening quiet → Delivers prefs zone after := by
  refine ⟨⟨reaches_of_delivers, delivers_of_reaches⟩, ?_⟩
  intro quiet window lasts
  refine ⟨?_, ?_⟩
  · intro steady
    constructor
    · intro delivers
      obtain ⟨-, k, within, -, allowed⟩ := reaches_of_delivers delivers
      exact phase_of_allowed window (steady k within) allowed
    · intro reached
      refine delivers_of_phase window lasts (j := 0) (by decide) ?_ ?_
      · intro k below
        rw [quarter_zero]
        exact steady k (Nat.le_trans below (by decide))
      · rw [quarter_zero]
        exact reached
  · intro j within steady long
    exact delivers_of_phase window lasts within steady
      (Int.lt_of_lt_of_le (Int.emod_lt_of_pos _ (by decide)) long)

end Delivery

theorem utc_bounded : -days 1 < 0 ∧ 0 < days 1 := by decide

def utc : Zone := ⟨fun _ => 0, fun _ => utc_bounded⟩

theorem cadence_accepted : 15 ≤ (360 : Int) ∧ (360 : Int) ≤ 10080 := by decide

/-- Every six hours, in the first minute of a day. -/
def firstMinute : Preferences := ⟨360, some ⟨⟨0, 1⟩, ⟨0, 0⟩⟩, cadence_accepted⟩

/-- Every six hours, from eight in the morning to ten in the evening. -/
def daytime : Preferences := ⟨360, some ⟨⟨22, 0⟩, ⟨8, 0⟩⟩, cadence_accepted⟩

/-- 2026-01-05T20:07:00+00:00. -/
def evening : Aware := ⟨1767643620000000, 0⟩

/-- At a preference for the first minute of the day, the search of an evening passes over that of
each of the fourteen days. -/
theorem first_minute_missed :
    nextDue firstMinute utc evening.wall (some evening.ahead) =
        .error (.valueError "quiet hours leave no deliverable slot in two weeks") ∧
      Allowed firstMinute utc (evening.wall + minutes 1673) ∧
      ¬ ∀ prefs zone after, (∀ quiet, prefs.quietHours = some quiet → quiet.start ≠ quiet.stop) →
        Delivers prefs zone after := by
  have raised : nextDue firstMinute utc evening.wall (some evening.ahead) =
      .error (.valueError "quiet hours leave no deliverable slot in two weeks") := by decide +kernel
  refine ⟨raised, (allowed_some rfl utc _).mpr (by decide), ?_⟩
  intro delivers
  have apart : ∀ quiet, firstMinute.quietHours = some quiet → quiet.start ≠ quiet.stop := by
    intro quiet window
    cases window
    decide
  obtain ⟨due, returned, -, -⟩ := delivers firstMinute utc evening apart
  rw [raised] at returned
  cases returned

/-- An evening's search for a time of the day stops. -/
theorem evening_delivered : Delivers daytime utc evening :=
  ((next_due_iff daytime utc evening).2 _ rfl (lasts_of_within utc (by decide) (by decide))).1
    (fun _ _ => rfl) |>.mpr (by decide)

end Meemee.Guarantees.QuietSlots
