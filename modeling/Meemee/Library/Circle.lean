import Mathlib.Data.Int.Init

/-!
# Arcs and steps on a circle

Positions on a circle are integers, and equal modulo its length. An arc runs forward from its start
up to its end and may pass through zero. Equal steps that divide the circle come back after one
round, and the arcs they meet are told from where they stand between two steps.
-/
namespace Library.Circle

/-- How far `position` lies past `start`. -/
def past (length start position : Int) : Int := (position - start) % length

/-- `position` lies on the arc from `start` up to but not at `stop`. -/
def OnArc (length start stop position : Int) : Prop :=
  past length start position < past length start stop

instance (length start stop position : Int) : Decidable (OnArc length start stop position) :=
  inferInstanceAs (Decidable (_ < _))

variable {length start stop position step : Int} {rounds : Nat}

theorem past_congr {x y : Int} (same : x % length = y % length) :
    past length start x = past length start y :=
  Int.emod_sub_cancel_right start |>.mpr same

theorem onArc_iff (startWithin : 0 ≤ start ∧ start < length) (stopWithin : 0 ≤ stop ∧ stop < length)
    (within : 0 ≤ position ∧ position < length) :
    OnArc length start stop position ↔
      if start ≤ stop then start ≤ position ∧ position < stop
      else start ≤ position ∨ position < stop := by
  have ahead : ∀ x, 0 ≤ x ∧ x < length →
      past length start x = if start ≤ x then x - start else x - start + length := by
    intro x bounds
    unfold past
    split
    next below => exact Int.emod_eq_of_lt (by omega) (by omega)
    next above =>
      rw [← Int.add_emod_right]
      exact Int.emod_eq_of_lt (by omega) (by omega)
  rw [OnArc, ahead position within, ahead stop stopWithin]
  by_cases ordered : start ≤ stop
  · split <;> omega
  · split <;> omega

/-- A round's step that passes an arc's start is as far past it as the first position. -/
theorem passing (positive : 0 < step) (some : 0 < rounds) (divides : length = step * rounds)
    (start position : Int) :
    past length start (position + step * ((-((position - start) / step)) % rounds)) =
      past step start position := by
  have landed : position + step * ((-((position - start) / step)) % rounds) - start =
      (position - start) % step + length * (-((-((position - start) / step)) / rounds)) := by
    rw [Int.emod_def (-_), divides, Int.mul_sub, Int.mul_neg, Int.mul_neg, Int.mul_assoc]
    have split := Int.mul_ediv_add_emod (position - start) step
    omega
  have within : 0 ≤ (position - start) % step ∧ (position - start) % step < step :=
    ⟨Int.emod_nonneg _ (by omega), Int.emod_lt_of_pos _ positive⟩
  have longer : step ≤ length := by
    have rest : 0 ≤ step * ((rounds : Int) - 1) := Int.mul_nonneg (Int.le_of_lt positive) (by omega)
    rw [Int.mul_sub] at rest
    omega
  unfold past
  rw [landed, Int.add_mul_emod_self_left]
  exact Int.emod_eq_of_lt within.1 (by omega)

/-- Equal steps meet only the arcs that reach past their start at such steps. -/
theorem phase_of_met (positive : 0 < step) (some : 0 < rounds) (divides : length = step * rounds)
    (k : Int) (met : OnArc length start stop (position + step * k)) :
    past step start position < past length start stop := by
  have between : past step start position = past length start (position + step * k) % step := by
    have shifted : position + step * k - start = position - start + step * k := by omega
    unfold past
    rw [divides, Int.emod_emod_of_dvd _ (Int.dvd_mul_right step rounds), shifted,
      Int.add_mul_emod_self_left]
  have nonnegative : 0 ≤ past length start (position + step * k) := by
    refine Int.emod_nonneg _ ?_
    rw [divides]
    exact Int.mul_ne_zero (by omega) (by omega)
  have least : past length start (position + step * k) % step ≤
      past length start (position + step * k) := by
    rw [Int.emod_def]
    have quotient := Int.mul_nonneg (Int.le_of_lt positive)
      (Int.ediv_nonneg nonnegative (Int.le_of_lt positive))
    omega
  rw [between]
  exact Int.lt_of_le_of_lt least met

theorem met_of_phase (positive : 0 < step) (some : 0 < rounds) (divides : length = step * rounds)
    (phase : past step start position < past length start stop) :
    ∃ k : Nat, k < rounds ∧ OnArc length start stop (position + step * k) := by
  -- the step at which the round passes the arc's start
  let k := (-((position - start) / step)) % rounds
  have bounds : 0 ≤ k ∧ k < rounds :=
    ⟨Int.emod_nonneg _ (by omega), Int.emod_lt_of_pos _ (by omega)⟩
  refine ⟨k.toNat, by omega, ?_⟩
  rw [OnArc, Int.toNat_of_nonneg bounds.1, passing positive some divides]
  exact phase

end Library.Circle
