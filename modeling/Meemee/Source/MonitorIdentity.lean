import Meemee.Source.Goals

/-!
# Identities of supplied monitor events

`meemee/monitor_event_identity.py`. The payload is bounded before it is written as canonical
text, and the digest of that text tells a replay from a conflict. SHA-256 is a parameter.
-/
namespace Meemee.Source.MonitorIdentity
open Source.PgJobs (strip)

structure EventIdentity where
  ownerId : String
  sourceId : String
  eventId : String
  payloadSha256 : String
  deriving DecidableEq, Repr

def EventIdentity.key (identity : EventIdentity) : String × String × String :=
  (identity.ownerId, identity.sourceId, identity.eventId)

inductive ReplayStatus where
  | new | replay | conflict
  deriving DecidableEq, Repr

structure ReplayDecision where
  status : ReplayStatus
  identity : EventIdentity
  /-- The payload that the canonical text reads back as. -/
  payload : Json

def maxPayloadBytes : Nat := 32768

def identifier (value : String) : Except Exc String :=
  if value = "" ∨ 240 < value.length then
    .error (.valueError "bounded exact string identity required")
  else if value ≠ strip value ∨ value.toList.any (fun c => decide (c.toNat < 32 ∨ c.toNat = 127)) then
    .error (.valueError "identity whitespace or controls refused")
  else if 960 < value.utf8ByteSize then .error (.valueError "identity byte limit exceeded")
  else .ok value

/-- One item is taken off those that remain, at a depth. -/
def takeItem (remaining depth : Nat) : Except Exc Nat :=
  if remaining = 0 ∨ 16 < depth then .error (.valueError "payload structural limit exceeded")
  else .ok (remaining - 1)

def checkText (maxBytes : Nat) (item : String) : Except Exc Unit :=
  if maxBytes < item.length then .error (.valueError "payload string limit exceeded")
  else if maxBytes < item.utf8ByteSize then .error (.valueError "payload string byte limit exceeded")
  else .ok ()

def bitLength (item : Int) : Nat := if item = 0 then 0 else item.natAbs.log2 + 1

mutual

/-- `visit`: how many items remain after it. -/
def visit (maxBytes : Nat) (remaining depth : Nat) : Json → Except Exc Nat
  | .str item => do
    let remaining ← takeItem remaining depth
    checkText maxBytes item
    return remaining
  | .int item => do
    let remaining ← takeItem remaining depth
    if 256 < bitLength item then .error (.valueError "payload integer limit exceeded")
    return remaining
  | .float item => do
    let remaining ← takeItem remaining depth
    match item with
    | .finite _ => return remaining
    | _ => .error (.valueError "finite JSON values required")
  | .bool _ => takeItem remaining depth
  | .null => takeItem remaining depth
  | .arr items => do
    let remaining ← takeItem remaining depth
    if 4096 < items.length then .error (.valueError "payload list limit exceeded")
    visitItems maxBytes remaining (depth + 1) items
  | .obj fields => do
    let remaining ← takeItem remaining depth
    if 100 < fields.length then .error (.valueError "payload object field limit exceeded")
    visitFields maxBytes remaining (depth + 1) fields
  | .object _ => do
    let _ ← takeItem remaining depth
    .error (.typeError "exact JSON types required")

def visitItems (maxBytes : Nat) (remaining depth : Nat) : List Json → Except Exc Nat
  | [] => return remaining
  | child :: rest => do
    let remaining ← visit maxBytes remaining depth child
    visitItems maxBytes remaining depth rest

def visitFields (maxBytes : Nat) (remaining depth : Nat) : List (String × Json) → Except Exc Nat
  | [] => return remaining
  | (key, child) :: rest => do
    let remaining ← takeItem remaining depth
    checkText maxBytes key
    let remaining ← visit maxBytes remaining depth child
    visitFields maxBytes remaining depth rest

end

/-- With `ensure_ascii=False` only quotes, backslashes and controls are escaped. -/
def escapeChar (c : Char) : List Char :=
  if c.toNat < 127 then Json.escapeChar c else [c]

def quote (s : String) : String := String.ofList ('"' :: s.toList.flatMap escapeChar ++ ['"'])

mutual

/-- What the encoder writes of a value that `visit` let pass. -/
def text : Json → String
  | .null => "null"
  | .bool value => if value then "true" else "false"
  | .int value => toString value
  | .float (.finite repr) => repr
  | .float _ => ""
  | .str value => quote value
  | .arr items => "[" ++ ",".intercalate (textItems items) ++ "]"
  | .obj fields => "\x7b" ++ ",".intercalate (textFields fields) ++ "\x7d"
  | .object _ => ""

def textItems : List Json → List String
  | [] => []
  | item :: rest => text item :: textItems rest

def textFields : List (String × Json) → List String
  | [] => []
  | (name, value) :: rest => (quote name ++ ":" ++ text value) :: textFields rest

end

/-- `_payload`: the canonical text. -/
def payloadText (value : Json) (maxBytes : Nat) : Except Exc String :=
  match value with
  | .obj _ => do
    let _ ← visit maxBytes 4096 0 value
    let canonical := text value.sortKeys
    if maxBytes < canonical.utf8ByteSize then .error (.valueError "payload byte limit exceeded")
    else .ok canonical
  | _ => .error (.typeError "exact payload object required")

def lowerHex (c : Char) : Bool := "0123456789abcdef".toList.contains c

/-- What a prior record makes of an identity. -/
def classify (identity : EventIdentity) : Option EventIdentity → Except Exc ReplayStatus
  | none => return .new
  | some prior => do
    let ownerId ← identifier prior.ownerId
    let sourceId ← identifier prior.sourceId
    let eventId ← identifier prior.eventId
    if identity.key ≠ (ownerId, sourceId, eventId) then
      .error (.valueError "prior identity key mismatch")
    else if prior.payloadSha256.length ≠ 64 ∨ !prior.payloadSha256.toList.all lowerHex then
      .error (.valueError "prior lowercase SHA256 required")
    else if prior.payloadSha256 = identity.payloadSha256 then return .replay
    else return .conflict

/-- The check of `max_payload_bytes`. -/
def checkCap (maxBytes : Nat) : Except Exc Unit :=
  if 1 ≤ maxBytes ∧ maxBytes ≤ maxPayloadBytes then .ok ()
  else .error (.valueError "exact payload byte cap between1 and32768 required")

def identifyEvent (sha256 : String → String) (ownerId sourceId eventId : String) (payload : Json)
    (prior : Option EventIdentity) (maxBytes : Nat) : Except Exc ReplayDecision := do
  checkCap maxBytes
  let ownerId ← identifier ownerId
  let sourceId ← identifier sourceId
  let eventId ← identifier eventId
  let canonical ← payloadText payload maxBytes
  let identity : EventIdentity := ⟨ownerId, sourceId, eventId, sha256 canonical⟩
  let status ← classify identity prior
  return ⟨status, identity, payload.sortKeys⟩

theorem identifier_same {value value' : String} (checked : identifier value = .ok value') :
    value' = value := by
  unfold identifier at checked
  split at checked
  · cases checked
  · split at checked
    · cases checked
    · split at checked
      · cases checked
      · cases checked
        rfl

theorem identifyEvent_key {sha256 : String → String} {ownerId sourceId eventId : String}
    {payload : Json} {prior : Option EventIdentity} {maxBytes : Nat} {decision : ReplayDecision}
    (identified : identifyEvent sha256 ownerId sourceId eventId payload prior maxBytes = .ok decision) :
    decision.identity.key = (ownerId, sourceId, eventId) := by
  obtain ⟨_, -, rest⟩ := Library.except_bind_returned identified
  obtain ⟨owner, first, rest⟩ := Library.except_bind_returned rest
  obtain ⟨source, second, rest⟩ := Library.except_bind_returned rest
  obtain ⟨event, third, rest⟩ := Library.except_bind_returned rest
  obtain ⟨canonical, -, rest⟩ := Library.except_bind_returned rest
  obtain ⟨status, -, rest⟩ := Library.except_bind_returned rest
  cases rest
  simp only [EventIdentity.key, identifier_same first, identifier_same second, identifier_same third]

example : (payloadText (.obj [("level", .int 3), ("at", .arr [.null, .str "é\n"])]) 64).toOption =
    some "\x7b\"at\":[null,\"é\\n\"],\"level\":3\x7d" := by decide +kernel

end Meemee.Source.MonitorIdentity
