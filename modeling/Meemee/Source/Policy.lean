import Meemee.Source.Values

/-!
# The tool policy

`meemee/policy.py` and the values of `meemee/types.py` that it reads. `fnmatch`, `str.lower` and
`urlparse(...).hostname` are parameters.
-/
namespace Meemee.Source.Policy

inductive Risk where
  | read | write | execute
  deriving DecidableEq, Repr

def Risk.value : Risk → String
  | .read => "read"
  | .write => "write"
  | .execute => "execute"

/-- The keyword arguments of a call: `dict[str, Any]`. -/
abbrev Arguments := List (String × Json)

/-- `arguments.get(key)`. -/
def Arguments.get? (arguments : Arguments) (key : String) : Option Json :=
  (arguments.find? (fun entry => decide (entry.1 = key))).map (fun entry => entry.2)

/-- What `evaluate` uses of the standard library. -/
structure Matching where
  /-- `fnmatch(name, pattern)`; on POSIX `fnmatchcase` is the same. -/
  fnmatch : String → String → Bool
  lower : String → String
  /-- `urlparse(url).hostname or ""`; none where it raises ValueError. -/
  hostname : String → Option String

/-- `path.split("/")`. -/
def components (path : String) : List (List Char) := path.toList.splitOnP (fun c => decide (c = '/'))

/-- One round of the loop of `posixpath.normpath`; the components kept are reversed. -/
def normalize (rooted : Bool) (kept : List (List Char)) (component : List Char) :
    List (List Char) :=
  if component = [] ∨ component = ['.'] then kept
  else if component ≠ ['.', '.'] then component :: kept
  else match kept with
    | [] => if rooted then [] else [component]
    | last :: rest => if last = ['.', '.'] then component :: kept else rest

/-- One slash, or exactly two. -/
def initialSlashes : List Char → Nat
  | '/' :: '/' :: '/' :: _ => 1
  | '/' :: '/' :: _ => 2
  | '/' :: _ => 1
  | _ => 0

def normpath (path : String) : String :=
  let slashes := initialSlashes path.toList
  let kept := ((components path).foldl (normalize (decide (0 < slashes))) []).reverse
  let text := List.replicate slashes '/' ++ List.intercalate ['/'] kept
  if text = [] then "." else String.ofList text

example : (normpath "a/./b/../c", normpath "//x/../..", normpath "../a", normpath "") =
    ("a/c", "//", "../a", ".") := by decide +kernel

/-- `text.rstrip(".")`. -/
def rstripDots (text : String) : String :=
  String.ofList (text.toList.reverse.dropWhile (fun c => decide (c = '.'))).reverse

structure PolicyDecision where
  allowed : Bool
  reason : String
  requireApproval : Bool
  deriving DecidableEq, Repr

/-- The document, with its defaults filled in. -/
structure PolicyEngine where
  deniedTools : List String := []
  allowedTools : List String := []
  deniedPaths : List String := []
  deniedHosts : List String := []
  maxArgumentBytes : Nat := 1000000
  autoApprove : List Risk := [.read]
  positive : 0 < maxArgumentBytes := by decide

theorem default_positive : 0 < 1000000 := by decide

def denied (reason : String) : PolicyDecision := ⟨false, reason, false⟩

def pathDenied (m : Matching) (patterns : List String) : Json → Bool
  | .str raw => patterns.any (fun pattern => m.fnmatch raw pattern || m.fnmatch (normpath raw) pattern)
  | _ => false

/-- The argument that names a denied path, if one does. -/
def deniedPathKey (m : Matching) (engine : PolicyEngine) (arguments : Arguments) : Option String :=
  ["path", "screenshot_path", "download_dir"].find? (fun key =>
    (arguments.get? key).any (fun value => pathDenied m engine.deniedPaths value))

def pathsDenied (m : Matching) (engine : PolicyEngine) (arguments : Arguments) : Bool :=
  match arguments.get? "paths" with
  | some (.arr items) => items.any (fun item => pathDenied m engine.deniedPaths item)
  | _ => false

/-- The verdict on the argument `url`; none where there is nothing to object to. -/
def urlDenied (m : Matching) (engine : PolicyEngine) (arguments : Arguments) :
    Option PolicyDecision :=
  match arguments.get? "url" with
  | some (.str raw) =>
    match m.hostname raw with
    | none => some (denied "URL is invalid")
    | some hostname =>
      let host := m.lower (rstripDots hostname)
      if engine.deniedHosts.any (fun pattern => m.fnmatch host (m.lower (rstripDots pattern))) then
        some (denied "URL host is denied")
      else none
  | _ => none

def PolicyEngine.evaluate (m : Matching) (engine : PolicyEngine) (tool : String)
    (arguments : Arguments) (risk : Risk) : PolicyDecision :=
  if tool ∈ engine.deniedTools then denied "tool is explicitly denied"
  else if engine.allowedTools ≠ [] ∧ tool ∉ engine.allowedTools then
    denied "tool is not in the allowlist"
  else
    match Json.dumps { sortKeys := true, allowNan := false, defaultStr := true } (.obj arguments) with
    | .error _ => denied "arguments must contain finite JSON numbers"
    | .ok encoded =>
      if engine.maxArgumentBytes < encoded.utf8ByteSize then
        denied "arguments exceed policy size limit"
      else match deniedPathKey m engine arguments with
        | some key => denied (key ++ " matches a denied pattern")
        | none =>
          if pathsDenied m engine arguments then denied "paths match a denied pattern"
          else match urlDenied m engine arguments with
            | some verdict => verdict
            | none => ⟨true, "allowed", decide (risk ∉ engine.autoApprove)⟩

end Meemee.Source.Policy
