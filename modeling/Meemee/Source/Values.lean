import Mathlib.Data.List.Sort

/-!
# Values shared by the stores

Instants, Python exceptions and JSON values. A `datetime` is modelled by its
instant: every store normalises to UTC before it writes, and the ISO text of two
UTC instants compares like the instants (a missing fraction sorts first because
"+" precedes "."). JSON floats keep their `repr` text; nothing computes with them.
-/
namespace Meemee.Source

/-- Microseconds since the epoch, the resolution of `datetime`. -/
abbrev Instant := Int

def seconds (n : Int) : Int := n * 1000000

def minutes (n : Int) : Int := seconds (60 * n)

def days (n : Int) : Int := minutes (1440 * n)

/-- Which database a deployment keeps its stores in. -/
inductive Backend where
  | sqlite | postgres
  deriving DecidableEq, Repr

/-- The exceptions the stores raise, with the text they carry. -/
inductive Exc where
  | valueError (text : String)
  | unicodeEncodeError (text : String)
  | typeError (text : String)
  | overflowError (text : String)
  | programmingError (text : String)
  | dataError (text : String)
  | integrityError (text : String)
  | idempotencyConflict (text : String)
  | idempotencyInProgress (text : String)
  | leaseLost (text : String)
  | lostCheckinClaim (text : String)
  deriving DecidableEq, Repr

def Exc.text : Exc → String
  | .valueError text | .unicodeEncodeError text | .typeError text | .overflowError text
  | .programmingError text | .dataError text | .integrityError text | .idempotencyConflict text
  | .idempotencyInProgress text | .leaseLost text | .lostCheckinClaim text => text

/-- A Python `str`. One with a lone surrogate has no UTF-8 text. -/
inductive PyStr where
  | text (value : String)
  | unencodable
  deriving DecidableEq, Repr

instance : Coe String PyStr := ⟨.text⟩

/-- The text that a database driver binds. -/
def PyStr.bound : PyStr → Except Exc String
  | .text value => .ok value
  | .unencodable => .error (.unicodeEncodeError "surrogates not allowed")

inductive JsonFloat where
  | finite (repr : String)
  | nan
  | infinity (negative : Bool)
  deriving DecidableEq, Repr

/-- A value handed to `json.dumps`. `object` stands for a Python object that is
not JSON; its text is what `default=str` would write. -/
inductive Json where
  | null
  | bool (value : Bool)
  | int (value : Int)
  | float (value : JsonFloat)
  | str (value : String)
  | arr (items : List Json)
  | obj (fields : List (String × Json))
  | object (text : String)
  deriving Repr

namespace Json

/-- The keyword arguments of `json.dumps` the stores use. -/
structure DumpOptions where
  sortKeys : Bool := false
  compact : Bool := false
  allowNan : Bool := true
  defaultStr : Bool := false

def hexDigit (n : Nat) : Char :=
  if n < 10 then Char.ofNat (48 + n) else Char.ofNat (87 + n)

def unicodeEscape (n : Nat) : List Char :=
  ['\\', 'u', hexDigit (n / 4096 % 16), hexDigit (n / 256 % 16), hexDigit (n / 16 % 16),
    hexDigit (n % 16)]

/-- `ensure_ascii`: everything outside printable ASCII is escaped, above the basic
plane as a surrogate pair. -/
def escapeChar (c : Char) : List Char :=
  if c = '"' then ['\\', '"']
  else if c = '\\' then ['\\', '\\']
  else if c = '\n' then ['\\', 'n']
  else if c = '\r' then ['\\', 'r']
  else if c = '\t' then ['\\', 't']
  else if c.toNat = 8 then ['\\', 'b']
  else if c.toNat = 12 then ['\\', 'f']
  else if 32 ≤ c.toNat ∧ c.toNat < 127 then [c]
  else if c.toNat < 65536 then unicodeEscape c.toNat
  else unicodeEscape (55296 + (c.toNat - 65536) / 1024) ++
    unicodeEscape (56320 + (c.toNat - 65536) % 1024)

def quote (s : String) : String :=
  String.ofList ('"' :: s.toList.flatMap escapeChar ++ ['"'])

mutual

/-- `sort_keys`: every object in the value with its fields in key order. -/
def sortKeys : Json → Json
  | .arr items => .arr (sortItems items)
  | .obj fields => .obj ((sortFields fields).insertionSort (fun a b => a.1 ≤ b.1))
  | other => other

def sortItems : List Json → List Json
  | [] => []
  | item :: rest => sortKeys item :: sortItems rest

def sortFields : List (String × Json) → List (String × Json)
  | [] => []
  | (name, value) :: rest => (name, sortKeys value) :: sortFields rest

end

def floatText (allowNan : Bool) : JsonFloat → Except Exc String
  | .finite repr => .ok repr
  | .nan => if allowNan then .ok "NaN" else
      .error (.valueError "Out of range float values are not JSON compliant")
  | .infinity negative =>
      if allowNan then .ok (if negative then "-Infinity" else "Infinity") else
        .error (.valueError "Out of range float values are not JSON compliant")

mutual

def encode (options : DumpOptions) : Json → Except Exc String
  | .null => .ok "null"
  | .bool value => .ok (if value then "true" else "false")
  | .int value => .ok (toString value)
  | .float value => floatText options.allowNan value
  | .str value => .ok (quote value)
  | .arr items => do
      let texts ← encodeItems options items
      return "[" ++ (if options.compact then "," else ", ").intercalate texts ++ "]"
  | .obj fields => do
      let texts ← encodeFields options fields
      return "\x7b" ++ (if options.compact then "," else ", ").intercalate texts ++ "\x7d"
  | .object text =>
      if options.defaultStr then .ok (quote text)
      else .error (.typeError "Object is not JSON serializable")

def encodeItems (options : DumpOptions) : List Json → Except Exc (List String)
  | [] => .ok []
  | item :: rest => do
      let text ← encode options item
      let texts ← encodeItems options rest
      return text :: texts

def encodeFields (options : DumpOptions) : List (String × Json) → Except Exc (List String)
  | [] => .ok []
  | (name, value) :: rest => do
      let text ← encode options value
      let texts ← encodeFields options rest
      return (quote name ++ (if options.compact then ":" else ": ") ++ text) :: texts

end

/-- `json.dumps(value, ...)`. -/
def dumps (options : DumpOptions) (value : Json) : Except Exc String :=
  encode options (if options.sortKeys then value.sortKeys else value)

/-- `payload.get(name)` of an object. -/
def field? (name : String) : Json → Option Json
  | .obj fields => (fields.find? (fun f => f.1 = name)).map (·.2)
  | _ => none

example : dumps { sortKeys := true, compact := true, allowNan := false }
    (.obj [("b", .arr [.int 1, .null]), ("a", .str "x\"y")]) =
      .ok "\x7b\"a\":\"x\\\"y\",\"b\":[1,null]\x7d" := by decide +kernel

end Json

end Meemee.Source
