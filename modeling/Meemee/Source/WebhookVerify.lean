import Meemee.Source.Numbers
import Meemee.Source.PgJobs
import Meemee.Source.Sse

/-!
# Webhook signatures

`WebhookDispatcher.signature` of `meemee/webhooks.py` and `verify_signature` of
`meemee/webhook_verify.py`. HMAC-SHA256 is the parameter `hmac`, which takes a key and a message, and
`decimal` is `unicodedata.decimal` of the characters outside ASCII.
-/
namespace Meemee.Source.WebhookVerify
open Source.Sse (Bytes utf8)

def hexdigest (bytes : Bytes) : String :=
  String.ofList (bytes.flatMap (fun b => [Json.hexDigit (b.toNat / 16), Json.hexDigit (b.toNat % 16)]))

section Int

variable (decimal : Char → Option Nat)

/-- `int` reads whitespace and decimals outside ASCII as those of ASCII, and anything else as `?`. -/
def transformed (c : Char) : Char :=
  if c.toNat < 127 then c
  else if PgJobs.isSpace c then ' '
  else match decimal c with
    | some value => digit value
    | none => '?'

/-- `Py_ISSPACE`. -/
def isAsciiSpace (c : Char) : Bool := decide (c = ' ') || decide (9 ≤ c.toNat) && decide (c.toNat ≤ 13)

def trimmed (text : List Char) : List Char :=
  ((text.dropWhile isAsciiSpace).reverse.dropWhile isAsciiSpace).reverse

/-- Digits with single underscores between them. -/
def isNumeral : List Char → Bool
  | [] => false
  | [c] => c.isDigit
  | c :: next :: rest =>
    c.isDigit && if next = '_' then isNumeral rest else isNumeral (next :: rest)

/-- `sys.get_int_max_str_digits()`. -/
def maxDigits : Nat := 4300

/-- `int(text)`, none where it raises ValueError. -/
def int (text : String) : Option Int :=
  let signed := Numbers.signed (trimmed (text.toList.map (transformed decimal)))
  let digits := signed.2.filter (fun c => decide (c ≠ '_'))
  if isNumeral signed.2 && decide (digits.length ≤ maxDigits) then
    some (if signed.1 then -(Numbers.digitsValue digits : Int) else Numbers.digitsValue digits)
  else none

end Int

section Signatures

variable (hmac : Bytes → Bytes → Bytes)

def signature (secret timestamp body : String) : String :=
  "sha256=" ++ hexdigest (hmac (utf8 secret) (utf8 (timestamp ++ "." ++ body)))

/-- `signature.isascii() and signature.startswith("sha256=")`. -/
def wellFormed (signature : String) : Bool :=
  signature.toList.all (fun c => decide (c.toNat < 128)) && "sha256=".toList.isPrefixOf signature.toList

/-- `verify_signature`; a signature that is no str is none. -/
def verifySignature (decimal : Char → Option Nat) (secret timestamp : String) (body : Bytes)
    (signature : Option String) (toleranceSeconds now : Int) : Bool :=
  match signature with
  | none => false
  | some signature =>
    if decide (toleranceSeconds < 0) || !wellFormed signature then false
    else
      match int decimal timestamp with
      | none => false
      | some observed =>
        if toleranceSeconds < ((now - observed).natAbs : Int) then false
        else
          let expected := "sha256=" ++ hexdigest (hmac (utf8 secret) (utf8 timestamp ++ 46 :: body))
          decide (expected = signature)

end Signatures

example : int (fun _ => none) " -1_700\n" = some (-1700) := by decide

end Meemee.Source.WebhookVerify
