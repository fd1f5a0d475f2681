import Mathlib.Algebra.Group.Nat.Defs
import Mathlib.Data.Rat.Defs
import Meemee.Source.Datetime
import Meemee.Source.Values

/-!
# The numbers of JSON values

What `float` makes of the text of a number, and what a `jsonb` column makes of it: a `numeric`
keeps the decimal exactly, with the digits after its point and no sign on a zero, and is printed
without an exponent.
-/
namespace Meemee.Source.Numbers

/-- The text of a number, taken apart. -/
structure Decimal where
  negative : Bool
  whole : List Char
  fraction : List Char
  exponent : Int
  deriving DecidableEq, Repr

/-- A sign, if there is one, and what follows it. -/
def signed : List Char → Bool × List Char
  | [] => (false, [])
  | c :: rest =>
    if c = '-' then (true, rest) else if c = '+' then (false, rest) else (false, c :: rest)

def digitsValue (digits : List Char) : Nat := Nat.ofDigitChars 10 digits 0

/-- The digits after a point, and what follows them. -/
def pointPart : List Char → List Char × List Char
  | [] => ([], [])
  | c :: rest =>
    if c = '.' then (rest.takeWhile Char.isDigit, rest.dropWhile Char.isDigit) else ([], c :: rest)

/-- The exponent after its mark. -/
def exponentOf : List Char → Int
  | [] => 0
  | c :: rest =>
    if c = 'e' ∨ c = 'E' then
      if (signed rest).1 then -(digitsValue (signed rest).2 : Int) else digitsValue (signed rest).2
    else 0

/-- The parts of a number's text. -/
def decimal (text : List Char) : Decimal :=
  let unsigned := (signed text).2
  let point := pointPart (unsigned.dropWhile Char.isDigit)
  ⟨(signed text).1, unsigned.takeWhile Char.isDigit, point.1, exponentOf point.2⟩

/-- A PostgreSQL `numeric`: the number without its point, and the digits after the point. -/
structure Numeric where
  unscaled : Int
  scale : Nat
  deriving DecidableEq, Repr

def Numeric.value (n : Numeric) : ℚ := mkRat n.unscaled (10 ^ n.scale)

def Decimal.digits (d : Decimal) : Nat := digitsValue (d.whole ++ d.fraction)

/-- The digits of a decimal, with the zeros a positive exponent puts behind them. -/
def Decimal.shifted (d : Decimal) : Nat := d.digits * 10 ^ (d.exponent - d.fraction.length).toNat

/-- `numeric_in`. -/
def Decimal.numeric (d : Decimal) : Numeric :=
  ⟨if d.negative then -(d.shifted : Int) else d.shifted, (d.fraction.length - d.exponent).toNat⟩

/-- `numeric_out`. -/
def Numeric.text (n : Numeric) : List Char :=
  (if n.unscaled < 0 then ['-'] else []) ++ Nat.toDigits 10 (n.unscaled.natAbs / 10 ^ n.scale) ++
    '.' :: pad n.scale n.unscaled.natAbs

/-- What `json.loads` makes of a printed `numeric`. -/
def Numeric.json (n : Numeric) : Json :=
  if n.scale = 0 then .int n.unscaled else .float (.finite (String.ofList n.text))

/-- A quotient rounded to an integer, a half to the even one. -/
def halfEven (a b : Nat) : Nat :=
  if 2 * (a % b) < b ∨ (2 * (a % b) = b ∧ a / b % 2 = 0) then a / b else a / b + 1

/-- `a / b` in units of a power of two, rounded. -/
def inUnits (a b : Nat) (unit : Int) : Nat :=
  if 0 ≤ unit then halfEven a (b * 2 ^ unit.toNat) else halfEven (a * 2 ^ (-unit).toNat) b

/-- The exponent of the power of two at or below `a / b`. -/
def binaryExponent (a b : Nat) : Int :=
  let guess : Int := (a.log2 : Int) - b.log2
  if (if 0 ≤ guess then b * 2 ^ guess.toNat ≤ a else b ≤ a * 2 ^ (-guess).toNat) then guess
  else guess - 1

/-- The double nearest to `a / b`: 53 binary digits, none below `2 ^ -1074`. -/
def nearest (a b : Nat) : ℚ :=
  let unit := max (binaryExponent a b - 52) (-1074)
  if 0 ≤ unit then ((inUnits a b unit * 2 ^ unit.toNat : Nat) : ℚ)
  else mkRat (inUnits a b unit) (2 ^ (-unit).toNat)

/-- The double nearest to a number within their range. -/
def binary64 (q : ℚ) : ℚ := if q.num < 0 then -nearest q.num.natAbs q.den else nearest q.num.natAbs q.den

/-- `float(text)`. -/
def floatValue (text : String) : ℚ := binary64 (decimal text.toList).numeric.value

example : floatValue "0.1" = mkRat 3602879701896397 (2 ^ 55) := by decide +kernel

end Meemee.Source.Numbers
