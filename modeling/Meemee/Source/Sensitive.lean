import Meemee.Library.Patterns
import Meemee.Source.WebhookVerify

/-!
# Sensitive texts

`meemee/sensitive.py`. SHA-256 is the parameter `sha256`. Which characters outside ASCII belong to
words is a parameter with what `re` documents of it; white space and the case-insensitive classes
are written out.
-/
namespace Meemee.Source.Sensitive
open Library.Patterns
open Source.PgJobs (isSpace)
open Source.Sse (Bytes utf8)
open Source.WebhookVerify (hexdigest)

/-- The four letters outside ASCII that match ASCII letters when case is ignored: the dotted and the
dotless I, the long S and the Kelvin sign. -/
def dottedI : Char := Char.ofNat 0x130
def dotlessI : Char := Char.ofNat 0x131
def longS : Char := Char.ofNat 0x17F
def kelvin : Char := Char.ofNat 0x212A

/-- `\w` of `re`. -/
structure Words where
  word : Char → Bool
  ascii : ∀ c, c.toNat < 128 → word c = (c.isAlphanum || c == '_')
  cased : ∀ c ∈ [dottedI, dotlessI, longS, kelvin], word c = true
  space : ∀ c, isSpace c = true → word c = false

/-- A character as `re.IGNORECASE` compares it with ASCII characters. -/
def fold (c : Char) : Char :=
  if c = dottedI ∨ c = dotlessI then 'i'
  else if c = longS then 's'
  else if c = kelvin then 'k'
  else c.toLower

def all (parts : List (Pattern Char)) : Pattern Char := parts.foldr .sequence .nothing

def literal (text : String) : Pattern Char := all (text.toList.map (fun c => .set (· == c)))

def ignoringCase (text : String) : Pattern Char :=
  all (text.toList.map (fun c => .set (fun d => fold d == c)))

def maybe (holds : Char → Bool) : Pattern Char := .either (.set holds) .nothing

/-- What stands between two `\b`. -/
def bounded (inner : Pattern Char) : Pattern Char := .sequence .boundary (.sequence inner .boundary)

def wordChar (c : Char) : Bool := c.isAlphanum || c == '_'

/-- A character of a bearer token, with case ignored. -/
def bearerChar (c : Char) : Bool := (fold c).isAlphanum || (fold c) ∈ ['.', '_', '~', '+', '/', '-']

/-- `[^\s,;]` -/
def valueChar (c : Char) : Bool := !(isSpace c || c == ',' || c == ';')

def githubPat : Pattern Char := all [literal "github_pat_", .many wordChar 20]

def githubToken : Pattern Char :=
  all [literal "gh", .set (fun c => c ∈ ['o', 'p', 's', 'u']), literal "_", .many Char.isAlphanum 20]

def secretKey : Pattern Char := all [literal "sk-", .many (fun c => wordChar c || c == '-') 20]

def bearer : Pattern Char :=
  all [ignoringCase "bearer", .many isSpace 1, .many bearerChar 16, .many (· == '=') 0]

/-- `password|passwd|api[_-]?key|access[_-]?token|secret` -/
def keyName : Pattern Char :=
  .either (ignoringCase "password") (.either (ignoringCase "passwd")
    (.either (all [ignoringCase "api", maybe (fun c => c ∈ ['_', '-']), ignoringCase "key"])
      (.either (all [ignoringCase "access", maybe (fun c => c ∈ ['_', '-']), ignoringCase "token"])
        (ignoringCase "secret"))))

/-- `\s*[:=]\s*` -/
def assigns : Pattern Char :=
  all [.many isSpace 0, .set (fun c => c ∈ [':', '=']), .many isSpace 0]

def assignment : Pattern Char :=
  .sequence .boundary (.sequence (.group keyName)
    (.sequence assigns (.group (.many valueChar 8))))

def patterns : List (Pattern Char) :=
  [bounded githubPat, bounded githubToken, bounded secretKey, bounded bearer, assignment]

section Scrub

variable (words : Words) (sha256 : Bytes → Bytes)

def marker (value : List Char) : List Char :=
  "[REDACTED:".toList ++ (hexdigest (sha256 (utf8 (String.ofList value)))).toList.take 16 ++
    ':' :: (toString value.length).toList ++ [']']

/-- `match.group(number)` -/
def groupOf (found : Found Char) (number : Nat) : List Char := found.groups.getD (number - 1) []

/-- The replacement of a token, and of the value of an assignment. -/
def putMarker (found : Found Char) : List Char := marker sha256 found.text

def putAssignment (found : Found Char) : List Char :=
  groupOf found 1 ++ '=' :: marker sha256 (groupOf found 2)

def pass (result : List Char) (numbered : Pattern Char × Nat) : List Char :=
  if numbered.2 = patterns.length - 1 then
    numbered.1.sub words.word (putAssignment sha256) result
  else numbered.1.sub words.word (putMarker sha256) result

def scrub (text : List Char) : List Char := patterns.zipIdx.foldl (pass words sha256) text

def scrubText (text : String) : String := String.ofList (scrub words sha256 text.toList)

end Scrub

end Meemee.Source.Sensitive
