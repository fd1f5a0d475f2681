import Meemee.Source.Jobs
import Meemee.Source.Planning

/-!
# The next check-in

`next_due` of `meemee/companion/checkins.py`, with the faults of `datetime`: an instant or a wall
clock before the year 1 or after the year 9999 raises `OverflowError`. A zone is how far its clocks
are ahead of UTC at each instant. `_hhmm`, `in_quiet_hours` and the bounds of a quiet window are
those of the check-in rows.
-/
namespace Meemee.Source.NextDue
open Library Source Source.Checkins

/-- A time zone: how far ahead of UTC its clocks are, less than a day either way. -/
structure Zone where
  ahead : Instant → Int
  bounded : ∀ t, -days 1 < ahead t ∧ ahead t < days 1

/-- An aware `datetime`: what its clock shows, and its `utcoffset()`. -/
structure Aware where
  wall : Instant
  ahead : Int
  deriving DecidableEq, Repr

/-- A `datetime` with a clock of the years 1 to 9999. -/
def representable (wall : Instant) : Except Exc Instant :=
  if Jobs.firstInstant ≤ wall ∧ wall ≤ Jobs.lastInstant then .ok wall
  else .error (.overflowError "date value out of range")

def Aware.utc (moment : Aware) : Except Exc Instant := representable (moment.wall - moment.ahead)

/-- `.astimezone(tz)` of a UTC time. -/
def Zone.astimezone (zone : Zone) (t : Instant) : Except Exc Aware := do
  let wall ← representable (t + zone.ahead t)
  return ⟨wall, zone.ahead t⟩

/-- `.timetz().replace(tzinfo=None)`. -/
def Aware.time (moment : Aware) : Nat := (moment.wall % days 1).toNat

/-- `(moment.astimezone(timezone.utc) + timedelta(minutes=delta)).astimezone(tz)`. -/
def Zone.later (zone : Zone) (delta : Int) (moment : Aware) : Except Exc Aware := do
  let t ← moment.utc
  let sum ← representable (t + minutes delta)
  zone.astimezone sum

/-- What `next_due` reads of accepted preferences. -/
structure Preferences where
  cadenceMinutes : Int
  quietHours : Option QuietHours
  accepted : 15 ≤ cadenceMinutes ∧ cadenceMinutes ≤ 10080

/-- The loop: the candidate moves while it is quiet, and the guard allows `budget` more moves. -/
def search (zone : Zone) (quiet : QuietHours) : Nat → Aware → Except Exc Aware
  | budget, candidate =>
    if inQuietHours candidate.time quiet then do
      let next ← zone.later 15 candidate
      match budget with
      | 0 => .error (.valueError "quiet hours leave no deliverable slot in two weeks")
      | left + 1 => search zone quiet left next
    else .ok candidate

/-- The guard's bound on the moves. -/
def guardLimit : Nat := 4 * 24 * 14

def nextDue (prefs : Preferences) (zone : Zone) (wall : Instant) (utcoffset : Option Int) :
    Except Exc Instant :=
  match utcoffset with
  | none => .error (.valueError "planning clock must include a timezone")
  | some ahead => do
    let candidate ← zone.later prefs.cadenceMinutes ⟨wall, ahead⟩
    match prefs.quietHours with
    | none => candidate.utc
    | some quiet => do
      let found ← search zone quiet guardLimit candidate
      found.utc

end Meemee.Source.NextDue
