import Mathlib.Data.Nat.Basic

/-!
# The Gregorian calendar

Days are counted from the first of January of year 1. The count grows by one from a day to the
next, and it orders dates as their years, months and days do.
-/
namespace Library.Gregorian

def Leap (year : Nat) : Prop := year % 4 = 0 ∧ (year % 100 ≠ 0 ∨ year % 400 = 0)

instance (year : Nat) : Decidable (Leap year) := by unfold Leap; infer_instance

/-- The days of a month; there is no month 0. -/
def monthLength (year : Nat) : Nat → Nat
  | 0 => 0
  | 2 => if Leap year then 29 else 28
  | 4 | 6 | 9 | 11 => 30
  | _ => 31

structure Date where
  year : Nat
  month : Nat
  day : Nat
  deriving DecidableEq, Repr

/-- A date of the calendar. -/
structure Date.Real (d : Date) : Prop where
  year : 1 ≤ d.year
  month : 1 ≤ d.month ∧ d.month ≤ 12
  day : 1 ≤ d.day ∧ d.day ≤ monthLength d.year d.month

/-- The days before the first of January. -/
def daysBeforeYear (year : Nat) : Nat :=
  365 * (year - 1) + (year - 1) / 4 - (year - 1) / 100 + (year - 1) / 400

/-- The days of the year before the first of the month. -/
def daysBeforeMonth (year : Nat) : Nat → Nat
  | 0 => 0
  | month + 1 => daysBeforeMonth year month + monthLength year month

def Date.ordinal (d : Date) : Nat := daysBeforeYear d.year + daysBeforeMonth d.year d.month + d.day

/-- The next day. -/
def Date.next (d : Date) : Date :=
  if d.day < monthLength d.year d.month then { d with day := d.day + 1 }
  else if d.month < 12 then ⟨d.year, d.month + 1, 1⟩
  else ⟨d.year + 1, 1, 1⟩

/-- The day before; the first day has none, and gets the year 0. -/
def Date.previous (d : Date) : Date :=
  if 1 < d.day then { d with day := d.day - 1 }
  else if 1 < d.month then ⟨d.year, d.month - 1, monthLength d.year (d.month - 1)⟩
  else ⟨d.year - 1, 12, 31⟩

theorem monthLength_bounds (year : Nat) {month : Nat} (first : 1 ≤ month) :
    28 ≤ monthLength year month ∧ monthLength year month ≤ 31 := by
  unfold monthLength
  split
  next => omega
  next => split <;> omega
  all_goals omega

theorem daysBeforeMonth_year (year : Nat) :
    daysBeforeMonth year 13 = if Leap year then 366 else 365 := by
  simp only [daysBeforeMonth, monthLength]
  split <;> rfl

theorem quotient_succ (n k : Nat) : (n + 1) / k = n / k + if (n + 1) % k = 0 then 1 else 0 := by
  simp only [Nat.succ_div, Nat.dvd_iff_mod_eq_zero]

theorem daysBeforeYear_succ {year : Nat} (first : 1 ≤ year) :
    daysBeforeYear (year + 1) = daysBeforeYear year + daysBeforeMonth year 13 := by
  obtain ⟨n, rfl⟩ : ∃ n, year = n + 1 := ⟨year - 1, by omega⟩
  have both : (n + 1) % 400 = 0 → (n + 1) % 100 = 0 := by omega
  have fourth : (n + 1) % 100 = 0 → (n + 1) % 4 = 0 := by omega
  rw [daysBeforeMonth_year]
  simp only [daysBeforeYear, Leap, Nat.add_sub_cancel, quotient_succ n]
  by_cases four : (n + 1) % 4 = 0
  · by_cases century : (n + 1) % 100 = 0
    · by_cases round : (n + 1) % 400 = 0
      · simp only [four, century, round, if_true, ne_eq, not_true_eq_false, false_or, and_self]
        omega
      · simp only [four, century, round, if_true, if_false, ne_eq, not_true_eq_false, or_self, and_false]
        omega
    · have plain : (n + 1) % 400 ≠ 0 := fun round => century (both round)
      simp only [four, century, plain, if_true, if_false, ne_eq, not_false_eq_true, true_or, and_self]
      omega
  · have century : (n + 1) % 100 ≠ 0 := fun round => four (fourth round)
    have plain : (n + 1) % 400 ≠ 0 := fun round => century (both round)
    simp only [four, century, plain, if_false, false_and]
    omega

theorem daysBeforeMonth_mono (year : Nat) {month later : Nat} (ordered : month ≤ later) :
    daysBeforeMonth year month ≤ daysBeforeMonth year later := by
  induction ordered with
  | refl => exact Nat.le_refl _
  | step _ ih =>
    rw [daysBeforeMonth]
    omega

theorem daysBeforeYear_mono {year later : Nat} (first : 1 ≤ year) (ordered : year ≤ later) :
    daysBeforeYear year ≤ daysBeforeYear later := by
  induction ordered with
  | refl => exact Nat.le_refl _
  | @step earlier up ih =>
    have next := daysBeforeYear_succ (Nat.le_trans first up)
    rw [next]
    omega

variable {d e : Date}

theorem month_within (real : d.Real) {later : Nat} (ordered : d.month < later) :
    daysBeforeMonth d.year d.month + d.day ≤ daysBeforeMonth d.year later := by
  have next := daysBeforeMonth_mono d.year (Nat.succ_le_of_lt ordered)
  have within := real.day.2
  rw [daysBeforeMonth] at next
  omega

/-- Years come first, then months, then days. -/
def Date.Before (d e : Date) : Prop :=
  d.year < e.year ∨ d.year = e.year ∧ (d.month < e.month ∨ d.month = e.month ∧ d.day < e.day)

theorem ordinal_lt_of_before (real : d.Real) (realNext : e.Real) (before : d.Before e) :
    d.ordinal < e.ordinal := by
  have later := realNext.day.1
  unfold Date.ordinal
  rcases before with years | ⟨year, months | ⟨month, days⟩⟩
  · have start := daysBeforeYear_mono (Nat.le_add_left 1 d.year) (Nat.succ_le_of_lt years)
    have length := daysBeforeYear_succ real.year
    have within : daysBeforeMonth d.year d.month + d.day ≤ daysBeforeMonth d.year 13 :=
      month_within real (Nat.lt_succ_of_le real.month.2)
    omega
  · have within := month_within real months
    rw [← year]
    omega
  · rw [← year, ← month]
    omega

theorem before_trichotomy (d e : Date) : d.Before e ∨ d = e ∨ e.Before d := by
  obtain ⟨year, month, day⟩ := d
  obtain ⟨year', month', day'⟩ := e
  simp only [Date.Before, Date.mk.injEq]
  omega

theorem before_iff (real : d.Real) (realNext : e.Real) : d.Before e ↔ d.ordinal < e.ordinal := by
  constructor
  · exact ordinal_lt_of_before real realNext
  · intro smaller
    rcases before_trichotomy d e with before | same | after
    · exact before
    · rw [same] at smaller
      omega
    · have larger := ordinal_lt_of_before realNext real after
      omega

theorem eq_of_ordinal (real : d.Real) (realNext : e.Real) (same : d.ordinal = e.ordinal) : d = e := by
  rcases before_trichotomy d e with before | equal | after
  · have smaller := ordinal_lt_of_before real realNext before
    omega
  · exact equal
  · have larger := ordinal_lt_of_before realNext real after
    omega

theorem next_real (real : d.Real) : d.next.Real := by
  have length := monthLength_bounds (d.year + 1) (Nat.le_refl 1)
  unfold Date.next
  split
  next within => exact ⟨real.year, real.month, ⟨Nat.le_add_left 1 d.day, within⟩⟩
  next =>
    split
    next month =>
      have lengthNext := monthLength_bounds d.year (Nat.le_add_left 1 d.month)
      exact ⟨real.year, ⟨Nat.le_add_left 1 d.month, month⟩,
        ⟨Nat.le_refl 1, Nat.le_trans (show 1 ≤ 28 by decide) lengthNext.1⟩⟩
    next =>
      exact ⟨Nat.le_add_left 1 d.year, ⟨Nat.le_refl 1, show 1 ≤ 12 by decide⟩,
        ⟨Nat.le_refl 1, Nat.le_trans (show 1 ≤ 28 by decide) length.1⟩⟩

theorem next_ordinal (real : d.Real) : d.next.ordinal = d.ordinal + 1 := by
  have days := real.day
  have months := real.month
  unfold Date.next
  split
  next =>
    simp only [Date.ordinal]
    omega
  next last =>
    split
    next =>
      simp only [Date.ordinal, daysBeforeMonth]
      omega
    next final =>
      have december : d.month = 12 := by omega
      have year := daysBeforeYear_succ real.year
      have start : daysBeforeMonth (d.year + 1) 1 = 0 := rfl
      have length : daysBeforeMonth d.year 13 = daysBeforeMonth d.year 12 + monthLength d.year 12 := rfl
      rw [december] at last days
      simp only [Date.ordinal, december, start, year]
      omega

theorem next_previous (real : d.Real) (later : d.previous.year ≠ 0) : d.previous.next = d := by
  have days := real.day
  have months := real.month
  unfold Date.previous at later ⊢
  split
  next within =>
    have shorter : d.day - 1 < monthLength d.year d.month := by omega
    simp only [Date.next, shorter, if_true]
    rw [Nat.sub_add_cancel (Nat.le_of_lt within)]
  next first =>
    split
    next month =>
      have earlier : d.month - 1 < 12 := by omega
      simp only [Date.next, Nat.lt_irrefl, if_false, earlier, if_true]
      rw [Nat.sub_add_cancel (Nat.le_of_lt month)]
      obtain ⟨year, month, day⟩ := d
      simp only [Date.mk.injEq, true_and]
      simp only at days first
      omega
    next january =>
      rw [if_neg first, if_neg january] at later
      have length : monthLength (d.year - 1) 12 = 31 := rfl
      simp only [Date.next, length, Nat.lt_irrefl, if_false]
      obtain ⟨year, month, day⟩ := d
      simp only [Date.mk.injEq]
      simp only at days first later january months
      omega

theorem previous_real (real : d.Real) (later : d.previous.year ≠ 0) : d.previous.Real := by
  have days := real.day
  have months := real.month
  unfold Date.previous at later ⊢
  split
  next within => exact ⟨real.year, real.month, by simp only; omega, by simp only; omega⟩
  next first =>
    split
    next month =>
      have length := monthLength_bounds d.year (show 1 ≤ d.month - 1 by omega)
      exact ⟨real.year, by simp only; omega, by simp only; omega, Nat.le_refl _⟩
    next january =>
      rw [if_neg first, if_neg january] at later
      refine ⟨Nat.pos_of_ne_zero later, ?_, ?_⟩
      · exact ⟨show 1 ≤ 12 by decide, show 12 ≤ 12 by decide⟩
      · exact ⟨show 1 ≤ 31 by decide, Nat.le_refl 31⟩

theorem previous_ordinal (real : d.Real) (later : d.previous.year ≠ 0) :
    d.previous.ordinal + 1 = d.ordinal := by
  rw [← next_ordinal (previous_real real later), next_previous real later]

example : (Date.mk 2024 2 28).next = ⟨2024, 2, 29⟩ ∧ (Date.mk 2023 3 1).previous = ⟨2023, 2, 28⟩ := by
  decide

end Library.Gregorian
