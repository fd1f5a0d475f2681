import Meemee.Source.MonitorIdentity
import Meemee.Source.JsonLoads

/-!
# Event payloads as Python objects

`_payload` and `identify_event` of `meemee/monitor_event_identity.py`, on objects that refer to each
other. The depth bound of the preflight is the recursion's own argument. Strings with a lone surrogate
keep their length only, and subclasses are `other` objects, as exact types are asked for.
`float.__repr__` has written the floats, and SHA-256 is a parameter.
-/
namespace Meemee.Source.EventPayload
open MonitorIdentity (EventIdentity ReplayStatus checkText bitLength checkCap identifier classify)

abbrev Ref := Nat

/-- What an object is, and which objects it holds. -/
inductive Node where
  | none
  | bool (value : Bool)
  | int (value : Int)
  | float (value : JsonFloat)
  | str (value : String)
  | surrogates (length : Nat)
  | list (items : List Ref)
  | dict (fields : List (Ref × Ref))
  | other

/-- The name that a key object is, if it is a string. -/
def Node.name : Node → Option String
  | .str value => some value
  | _ => Option.none

/-- The objects of the interpreter. A dictionary holds no two equal keys, and a finite float has
the text of a number. -/
structure Heap where
  node : Ref → Node
  names : ∀ ref fields, node ref = .dict fields →
    (fields.filterMap (fun field => (node field.1).name)).Nodup
  floats : ∀ ref repr, node ref = .float (.finite repr) →
    JsonLoads.readNumber repr.toList = some (.float (.finite repr), [])

variable (heap : Heap) (maxBytes : Nat)

def structural : Exc := .valueError "payload structural limit exceeded"

/-- The checks of one object that holds no others. -/
def checkNode : Node → Except Exc Unit
  | .str item => checkText maxBytes item
  | .surrogates length =>
    if maxBytes < length then .error (.valueError "payload string limit exceeded")
    else .error (.valueError "payload must encode as UTF-8")
  | .int item =>
    if 256 < bitLength item then .error (.valueError "payload integer limit exceeded") else .ok ()
  | .float (.finite _) => .ok ()
  | .float _ => .error (.valueError "finite JSON values required")
  | .bool _ | .none => .ok ()
  | .list items =>
    if 4096 < items.length then .error (.valueError "payload list limit exceeded") else .ok ()
  | .dict fields =>
    if 100 < fields.length then .error (.valueError "payload object field limit exceeded")
    else .ok ()
  | .other => .error (.typeError "exact JSON types required")

/-- `for child in item`: how many items remain. -/
def visitItems (visit : Nat → Ref → Except Exc Nat) : Nat → List Ref → Except Exc Nat
  | remaining, [] => .ok remaining
  | remaining, child :: rest => do
    let remaining ← visit remaining child
    visitItems visit remaining rest

/-- `type(key) is not str`. -/
def checkKey : Node → Except Exc Unit
  | .str _ | .surrogates _ => .ok ()
  | _ => .error (.typeError "exact string JSON keys required")

/-- `for key, child in item.items()`. -/
def visitFields (visit : Nat → Ref → Except Exc Nat) : Nat → List (Ref × Ref) → Except Exc Nat
  | remaining, [] => .ok remaining
  | remaining, (key, child) :: rest => do
    checkKey (heap.node key)
    let remaining ← visit remaining key
    let remaining ← visit remaining child
    visitFields visit remaining rest

/-- `visit`: how many items remain after it, with as many levels of depth left. -/
def visit : Nat → Nat → Ref → Except Exc Nat
  | 0, _, _ => .error structural
  | levels + 1, remaining, ref => do
    if remaining = 0 then .error structural
    checkNode maxBytes (heap.node ref)
    match heap.node ref with
    | .list items => visitItems (visit levels) (remaining - 1) items
    | .dict fields => visitFields heap (visit levels) (remaining - 1) fields
    | _ => .ok (remaining - 1)

/-- What the encoder finds below an object, as far down as the levels go. -/
def value : Nat → Ref → Option Json
  | 0, _ => none
  | levels + 1, ref =>
    match heap.node ref with
    | .none => some .null
    | .bool b => some (.bool b)
    | .int n => some (.int n)
    | .float f => some (.float f)
    | .str s => some (.str s)
    | .list items => (items.mapM (value levels)).map .arr
    | .dict fields =>
      (fields.mapM (fun field =>
        (heap.node field.1).name.bind fun name => (value levels field.2).map (name, ·))).map .obj
    | .surrogates _ | .other => none

/-- The depths that `visit` lets pass. -/
def depths : Nat := 17

/-- `_payload`. The chunks' sizes are added up before the text is joined; the encoder never sees
a payload that is deeper than the levels, which `visit` refuses. -/
def payload (ref : Ref) : Except Exc String :=
  match heap.node ref with
  | .dict _ => do
    let _ ← visit heap maxBytes depths 4096 ref
    match value heap depths ref with
    | none => .error structural
    | some found =>
      let canonical := MonitorIdentity.text found.sortKeys
      if maxBytes < canonical.utf8ByteSize then .error (.valueError "payload byte limit exceeded")
      else .ok canonical
  | _ => .error (.typeError "exact payload object required")

structure ReplayDecision where
  status : ReplayStatus
  identity : EventIdentity
  canonicalPayload : String
  deriving DecidableEq

def identifyEvent (sha256 : String → String) (ownerId sourceId eventId : String) (ref : Ref)
    (prior : Option EventIdentity) : Except Exc ReplayDecision := do
  checkCap maxBytes
  let ownerId ← identifier ownerId
  let sourceId ← identifier sourceId
  let eventId ← identifier eventId
  let text ← payload heap maxBytes ref
  let identity : EventIdentity := ⟨ownerId, sourceId, eventId, sha256 text⟩
  let status ← classify identity prior
  return ⟨status, identity, text⟩

end Meemee.Source.EventPayload
