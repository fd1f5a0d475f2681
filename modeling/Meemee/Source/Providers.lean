import Meemee.Source.JsonLoads
import Meemee.Source.ModelClient

/-!
# The JSON object in a model's answer

`extract_json_object` of `meemee/providers.py`. Only whether `json.loads` accepts a text matters
here, so its decoder is followed without the value it makes, and an escaped lone surrogate is
accepted as Python's decoder accepts it.
-/
namespace Meemee.Source.Providers
open JsonLoads ModelClient

/-- Where in a string the decoder is: before a character, after a backslash, or before the
hexadecimal digits that are left of `\uXXXX`. -/
inductive StringState where
  | plain
  | escape
  | hex (left : Nat)

/-- `scanstring`, after the opening quote: the text behind the closing one. -/
def passString : StringState → List Char → Option (List Char)
  | _, [] => none
  | .plain, c :: rest =>
    if c = '"' then some rest
    else if c = '\\' then passString .escape rest
    else if c.toNat < 32 then none
    else passString .plain rest
  | .escape, c :: rest =>
    if c = 'u' then passString (.hex 3) rest
    else if (backslash.lookup c).isSome then passString .plain rest
    else none
  | .hex left, c :: rest =>
    if (hexValue c).isSome then
      passString (match left with | 0 => .plain | left + 1 => .hex left) rest
    else none

mutual

/-- `scan_once`. -/
def passValue : Nat → List Char → Option (List Char)
  | 0, _ => none
  | _ + 1, [] => none
  | fuel + 1, c :: rest =>
    if c = '"' then passString .plain rest
    else if c = '[' then
      if (skip rest).head? = some ']' then some (skip rest).tail else passItems fuel (skip rest)
    else if c = '\x7b' then
      if (skip rest).head? = some '\x7d' then some (skip rest).tail else passFields fuel (skip rest)
    else (readWord (c :: rest)).map Prod.snd

/-- `JSONArray`, from its first value on. -/
def passItems : Nat → List Char → Option (List Char)
  | 0, _ => none
  | fuel + 1, text =>
    (passValue fuel text).bind fun rest =>
      match continuation ']' rest with
      | .closed rest => some rest
      | .more text => passItems fuel text
      | .bad => none

/-- `JSONObject`, from its first name on. -/
def passFields : Nat → List Char → Option (List Char)
  | 0, _ => none
  | fuel + 1, text =>
    if text.head? = some '"' then
      (passString .plain text.tail).bind fun rest =>
        if (skip rest).head? = some ':' then
          (passValue fuel (skip (skip rest).tail)).bind fun rest =>
            match continuation '\x7d' rest with
            | .closed rest => some rest
            | .more text => passFields fuel text
            | .bad => none
        else none
    else none

end

/-- Whether `json.loads` returns. -/
def accepts (text : List Char) : Bool :=
  match passValue (text.length + 1) (skip text) with
  | some rest => (skip rest).isEmpty
  | none => false

structure Scan where
  depth : Int
  inStr : Bool
  escape : Bool

/-- What one character makes of the scanner's variables. -/
def Scan.next (s : Scan) (ch : Char) : Scan :=
  if s.inStr then
    if s.escape then { s with escape := false }
    else if ch = '\\' then { s with escape := true }
    else if ch = '"' then { s with inStr := false }
    else s
  else if ch = '"' then { s with inStr := true }
  else if ch = '\x7b' then { s with depth := s.depth + 1 }
  else if ch = '\x7d' then { s with depth := s.depth - 1 }
  else s

/-- `elif ch == "}": depth -= 1; if depth == 0`. -/
def Scan.closes (s : Scan) (ch : Char) : Bool :=
  !s.inStr && decide (ch = '\x7d' ∧ s.depth - 1 = 0)

/-- The inner loop: how many characters the candidate has, if the braces are ever balanced. -/
def candidate : Scan → List Char → Option Nat
  | _, [] => none
  | s, ch :: rest =>
    if s.closes ch then some 1 else (candidate (s.next ch) rest).map (· + 1)

/-- `text.find("{", start)`. -/
def find (text : List Char) (start : Nat) : Option Nat :=
  if start ≤ text.length then ((text.drop start).findIdx? (· = '\x7b')).map (start + ·) else none

/-- `text[start:end]`. -/
def slice (text : List Char) (start stop : Nat) : List Char := (text.drop start).take (stop - start)

/-- The candidate at a brace, if `json.loads` accepts it. -/
def tried (text : List Char) (start : Nat) : Option (List Char) :=
  match candidate ⟨0, false, false⟩ (text.drop start) with
  | none => none
  | some count =>
    if accepts (slice text start (start + count)) then some (slice text start (start + count))
    else none

/-- The outer loop. Each round begins behind the brace of the round before. -/
def extractFrom (text : List Char) : Nat → Nat → Except PyExc (List Char)
  | 0, _ => .error (.modelError "model output contains no JSON object")
  | rounds + 1, start =>
    match find text start with
    | none => .error (.modelError "model output contains no JSON object")
    | some brace =>
      match tried text brace with
      | some found => .ok found
      | none => extractFrom text rounds (brace + 1)

/-- `extract_json_object`. A text has no more braces than characters. -/
def extractJsonObject (text : String) : Except PyExc String :=
  (extractFrom text.toList (text.toList.length + 1) 0).map String.ofList

end Meemee.Source.Providers
