import Mathlib.Data.List.Basic

/-!
# UTC datetimes and their ISO text

A UTC `datetime` as its civil fields. `isoformat` writes the date and the time, the
fraction when there is one, and the offset of UTC.
-/
namespace Meemee.Source

structure Datetime where
  year : Nat
  month : Nat
  day : Nat
  hour : Nat
  minute : Nat
  second : Nat
  microsecond : Nat
  valid : (1 ≤ year ∧ year ≤ 9999) ∧ (1 ≤ month ∧ month ≤ 12) ∧ (1 ≤ day ∧ day ≤ 31) ∧
    hour ≤ 23 ∧ minute ≤ 59 ∧ second ≤ 59 ∧ microsecond ≤ 999999
  deriving DecidableEq, Repr

/-- A number that grows with the fields, the year first. -/
def Datetime.rank (t : Datetime) : Nat :=
  (((((t.year * 13 + t.month) * 32 + t.day) * 24 + t.hour) * 60 + t.minute) * 60 + t.second) * 1000000 +
    t.microsecond

/-- UTC datetimes in the order of time. -/
instance : LT Datetime := ⟨fun t u => t.rank < u.rank⟩

instance : LE Datetime := ⟨fun t u => t.rank ≤ u.rank⟩

instance : DecidableLT Datetime := fun t u => inferInstanceAs (Decidable (t.rank < u.rank))

theorem Datetime.lt_iff {t u : Datetime} : t < u ↔ t.rank < u.rank := Iff.rfl

theorem Datetime.le_iff {t u : Datetime} : t ≤ u ↔ t.rank ≤ u.rank := Iff.rfl

theorem Datetime.le_trans {t u v : Datetime} (first : t ≤ u) (second : u ≤ v) : t ≤ v := by
  exact Nat.le_trans first second

theorem Datetime.lt_of_le_of_lt {t u v : Datetime} (first : t ≤ u) (second : u < v) : t < v := by
  exact Nat.lt_of_le_of_lt first second

def digit (n : Nat) : Char := Char.ofNat (48 + n % 10)

/-- The last `width` decimal digits of a number. -/
def pad : Nat → Nat → List Char
  | 0, _ => []
  | width + 1, n => pad width (n / 10) ++ [digit n]

/-- The fraction, which a whole second does not have. -/
def fraction (microsecond : Nat) : List Char :=
  if microsecond = 0 then [] else '.' :: pad 6 microsecond

def Datetime.isoformat (t : Datetime) : String :=
  String.ofList (pad 4 t.year ++ '-' :: pad 2 t.month ++ '-' :: pad 2 t.day ++ 'T' :: pad 2 t.hour ++
    ':' :: pad 2 t.minute ++ ':' :: pad 2 t.second ++ fraction t.microsecond ++
    ['+', '0', '0', ':', '0', '0'])

example : (Datetime.mk 2024 5 1 9 30 0 120 (by decide)).isoformat =
    "2024-05-01T09:30:00.000120+00:00" := by decide

end Meemee.Source
