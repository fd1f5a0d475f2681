import Meemee.Source.Numbers
import Meemee.Source.PgJobs

/-!
# What a `jsonb` column gives back

The value is bound as JSON text and read back with `json.loads`. A number is a `numeric` in between,
which keeps the decimal, and a text with a NUL is refused.
-/
namespace Meemee.Source.JsonbColumn
open Source.Numbers
open Source.PgJobs (storesText)

mutual

/-- What is read back from a `jsonb` column. -/
def jsonb : Json → Except Exc Json
  | .float (.finite repr) => .ok (decimal repr.toList).numeric.json
  | .float _ => .error (.dataError "invalid input syntax for type json")
  | .str text =>
    if storesText text then .ok (.str text)
    else .error (.dataError "unsupported Unicode escape sequence")
  | .arr items => do
    let stored ← jsonbItems items
    return .arr stored
  | .obj fields => do
    let stored ← jsonbFields fields
    return .obj stored
  | .object _ => .error (.typeError "Object is not JSON serializable")
  | other => .ok other

def jsonbItems : List Json → Except Exc (List Json)
  | [] => .ok []
  | item :: rest => do
    let stored ← jsonb item
    let others ← jsonbItems rest
    return stored :: others

def jsonbFields : List (String × Json) → Except Exc (List (String × Json))
  | [] => .ok []
  | (name, value) :: rest => do
    if !storesText name then .error (.dataError "unsupported Unicode escape sequence")
    let stored ← jsonb value
    let others ← jsonbFields rest
    return (name, stored) :: others

end

end Meemee.Source.JsonbColumn
