import Meemee.Source.Values

/-!
# json.loads

The decoder of the standard library, on the characters of a text. Numbers are matched as
`NUMBER_RE` does; a float keeps its text. Strings are strict. A lone surrogate is no character
and is refused here. The decoder recurses once for each level of the value; the fuel is the
length of the text, which is never less.
-/
namespace Meemee.Source.JsonLoads

/-- `WHITESPACE`. -/
def blank (c : Char) : Bool := decide (c ∈ [' ', '\t', '\n', '\r'])

def skip (text : List Char) : List Char := text.dropWhile blank

def hexValue (c : Char) : Option Nat :=
  if c.isDigit then some (c.toNat - 48)
  else if 97 ≤ c.toNat ∧ c.toNat ≤ 102 then some (c.toNat - 87)
  else if 65 ≤ c.toNat ∧ c.toNat ≤ 70 then some (c.toNat - 55)
  else none

/-- `_decode_uXXXX`. -/
def codeUnit : List Char → Option (Nat × List Char)
  | a :: b :: c :: d :: rest => do
    let a ← hexValue a
    let b ← hexValue b
    let c ← hexValue c
    let d ← hexValue d
    return (((a * 16 + b) * 16 + c) * 16 + d, rest)
  | _ => none

/-- After `\u`: a code unit, or two that make a pair. -/
def readUnicode (text : List Char) : Option (Char × List Char) := do
  let (high, rest) ← codeUnit text
  if 56320 ≤ high ∧ high < 57344 then none
  else if 55296 ≤ high ∧ high < 56320 then
    match rest with
    | '\\' :: 'u' :: more =>
      let (low, rest) ← codeUnit more
      if 56320 ≤ low ∧ low < 57344 then
        return (Char.ofNat (65536 + (high - 55296) * 1024 + (low - 56320)), rest)
      else none
    | _ => none
  else return (Char.ofNat high, rest)

def backslash : List (Char × Char) :=
  [('"', '"'), ('\\', '\\'), ('/', '/'), ('b', Char.ofNat 8), ('f', Char.ofNat 12), ('n', '\n'),
    ('r', '\r'), ('t', '\t')]

/-- One character of a string's text, escaped or not. -/
def readChar : List Char → Option (Char × List Char)
  | [] => none
  | c :: rest =>
    if c = '\\' then
      match rest with
      | [] => none
      | d :: more => if d = 'u' then readUnicode more else (backslash.lookup d).map (·, more)
    else if c.toNat < 32 then none
    else some (c, rest)

/-- `scanstring`, after the opening quote. -/
def readChars : Nat → List Char → Option (List Char × List Char)
  | 0, _ => none
  | fuel + 1, text =>
    if text.head? = some '"' then some ([], text.tail)
    else do
      let (c, rest) ← readChar text
      let (cs, rest) ← readChars fuel rest
      return (c :: cs, rest)

def readString (text : List Char) : Option (String × List Char) :=
  (readChars text.length text).map (fun read => (String.ofList read.1, read.2))

/-- `0|[1-9][0-9]*`. -/
def wholePart : List Char → Option (List Char × List Char)
  | [] => none
  | c :: rest =>
    if c = '0' then some (['0'], rest)
    else if c.isDigit then some (c :: rest.takeWhile Char.isDigit, rest.dropWhile Char.isDigit)
    else none

/-- The marks of an optional part, if digits follow them, with the digits. -/
def digitsAfter (marks text rest : List Char) : List Char × List Char :=
  if (rest.takeWhile Char.isDigit).isEmpty then ([], text)
  else (marks ++ rest.takeWhile Char.isDigit, rest.dropWhile Char.isDigit)

/-- `(\.[0-9]+)?`. -/
def fractionPart (text : List Char) : List Char × List Char :=
  match text with
  | [] => ([], text)
  | c :: rest => if c = '.' then digitsAfter ['.'] text rest else ([], text)

/-- `([eE][-+]?[0-9]+)?`. -/
def exponentPart (text : List Char) : List Char × List Char :=
  match text with
  | [] => ([], text)
  | c :: rest =>
    if c = 'e' ∨ c = 'E' then
      match rest with
      | [] => ([], text)
      | sign :: more =>
        if sign = '+' ∨ sign = '-' then digitsAfter [c, sign] text more
        else digitsAfter [c] text rest
    else ([], text)

/-- A number without its sign: an integer, or the text of a float. -/
def readUnsigned (sign text : List Char) : Option (Json × List Char) := do
  let (whole, rest) ← wholePart text
  let (fraction, rest) := fractionPart rest
  let (exponent, rest) := exponentPart rest
  if fraction.isEmpty && exponent.isEmpty then
    let value : Int := Nat.ofDigitChars 10 whole 0
    return (.int (if sign.isEmpty then value else -value), rest)
  else return (.float (.finite (String.ofList (sign ++ whole ++ fraction ++ exponent))), rest)

/-- `NUMBER_RE`. -/
def readNumber : List Char → Option (Json × List Char)
  | [] => none
  | c :: rest => if c = '-' then readUnsigned ['-'] rest else readUnsigned [] (c :: rest)

def names : List (List Char × Json) :=
  [("null".toList, .null), ("true".toList, .bool true), ("false".toList, .bool false),
    ("NaN".toList, .float .nan), ("Infinity".toList, .float (.infinity false)),
    ("-Infinity".toList, .float (.infinity true))]

def readWord (text : List Char) : Option (Json × List Char) :=
  match names.find? (fun name => name.1.isPrefixOf text) with
  | some name => some (name.2, text.drop name.1.length)
  | none => readNumber text

/-- `d[name] = value`. -/
def put (fields : List (String × Json)) (field : String × Json) : List (String × Json) :=
  if fields.any (fun f => decide (f.1 = field.1)) then
    fields.map (fun f => if f.1 = field.1 then field else f)
  else fields ++ [field]

/-- `dict(pairs)`. -/
def dict (pairs : List (String × Json)) : List (String × Json) := pairs.foldl put []

/-- What follows a value in an array or an object: the closing character, or a comma and the
text of another. -/
inductive Continuation where
  | closed (rest : List Char)
  | more (text : List Char)
  | bad

def continuation (close : Char) (text : List Char) : Continuation :=
  match skip text with
  | [] => .bad
  | c :: rest => if c = close then .closed rest else if c = ',' then .more (skip rest) else .bad

mutual

/-- `scan_once`. -/
def readValue : Nat → List Char → Option (Json × List Char)
  | 0, _ => none
  | _ + 1, [] => none
  | fuel + 1, c :: rest =>
    if c = '"' then (readString rest).map (fun read => (.str read.1, read.2))
    else if c = '[' then
      if (skip rest).head? = some ']' then some (.arr [], (skip rest).tail)
      else (readItems fuel (skip rest)).map (fun read => (.arr read.1, read.2))
    else if c = '\x7b' then
      if (skip rest).head? = some '\x7d' then some (.obj [], (skip rest).tail)
      else (readFields fuel (skip rest)).map (fun read => (.obj (dict read.1), read.2))
    else readWord (c :: rest)

/-- `JSONArray`, from its first value on. -/
def readItems : Nat → List Char → Option (List Json × List Char)
  | 0, _ => none
  | fuel + 1, text => do
    let (item, rest) ← readValue fuel text
    match continuation ']' rest with
    | .closed rest => return ([item], rest)
    | .more text =>
      let (items, rest) ← readItems fuel text
      return (item :: items, rest)
    | .bad => none

/-- `JSONObject`, from its first name on. -/
def readFields : Nat → List Char → Option (List (String × Json) × List Char)
  | 0, _ => none
  | fuel + 1, text =>
    if text.head? = some '"' then do
      let (name, rest) ← readString text.tail
      if (skip rest).head? = some ':' then
        let (value, rest) ← readValue fuel (skip (skip rest).tail)
        match continuation '\x7d' rest with
        | .closed rest => return ([(name, value)], rest)
        | .more text =>
          let (fields, rest) ← readFields fuel text
          return ((name, value) :: fields, rest)
        | .bad => none
      else none
    else none

end

/-- `json.loads`: the value, unless it raises. -/
def loads (text : String) : Option Json := do
  let (value, rest) ← readValue (text.length + 1) (skip text.toList)
  if (skip rest).isEmpty then return value else none

end Meemee.Source.JsonLoads
