import Meemee.Source.Approvals
import Meemee.Source.Audit

/-!
# The metadata column of the PostgreSQL audit log

`AuditLog.append` of `meemee_persist_pg/audit.py` binds the loaded metadata as `jsonb`, and
`AuditLog.verify` encodes what it reads back. A number comes back as an exact decimal without an
exponent: without a point it is an integer to `json.loads`, else a float, which `json.dumps` writes
with `float.__repr__`. That is a parameter.
-/
namespace Meemee.Source.AuditColumns
open Source.Numbers (Numeric Decimal decimal binary64)

/-- The magnitude of the double that a number's text reads as. -/
def magnitude (text : String) : ℚ :=
  binary64 (Numeric.value ⟨(decimal text.toList).numeric.unscaled.natAbs,
    (decimal text.toList).numeric.scale⟩)

/-- `float.__repr__` of a sign and a magnitude, as it is documented: a number of JSON with a point or
an exponent, and a zero with its sign. -/
structure Floats where
  repr : Bool → ℚ → String
  reads : ∀ negative q,
    JsonLoads.readNumber (repr negative q).toList = some (.float (.finite (repr negative q)), [])
  zero : repr false 0 = "0.0"
  minusZero : repr true 0 = "-0.0"

/-- `repr(float(text))`. -/
def Floats.reprOf (floats : Floats) (text : String) : String :=
  floats.repr (decimal text.toList).negative (magnitude text)

mutual

/-- What `json.loads` makes of the printed column, each float with its `repr`. -/
def Floats.loaded (floats : Floats) : Json → Json
  | .float (.finite text) => .float (.finite (floats.reprOf text))
  | .arr items => .arr (floats.loadedItems items)
  | .obj fields => .obj (JsonLoads.dict (floats.loadedFields fields))
  | other => other

def Floats.loadedItems (floats : Floats) : List Json → List Json
  | [] => []
  | item :: rest => floats.loaded item :: floats.loadedItems rest

def Floats.loadedFields (floats : Floats) : List (String × Json) → List (String × Json)
  | [] => []
  | (name, value) :: rest => (name, floats.loaded value) :: floats.loadedFields rest

end

end Meemee.Source.AuditColumns
