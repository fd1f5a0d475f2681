import Mathlib.Algebra.Order.Floor.Ring
import Mathlib.Data.Rat.Floor
import Meemee.Library.Table
import Meemee.Library.Txn
import Meemee.Source.Values

/-!
# Signed device commands

`meemee/device_protocol.py`. An envelope is a JSON object; HMAC-SHA256 is a parameter that
takes a secret and bytes to the hexdigest. Clock readings are exact rationals, which the
sums and comparisons of the guards need; `int(time.time())` is the floor of a reading.
-/
namespace Meemee.Source.DeviceProtocol
open Library Source

/-- The exceptions of the protocol and of the registry. -/
inductive DeviceExc where
  | raised (e : Exc)
  | keyError (text : String)
  | permissionError (text : String)
  deriving DecidableEq, Repr

def valueError (text : String) : DeviceExc := .raised (.valueError text)

mutual

/-- The check inside `validate_constraints`: a finite JSON value. -/
def finiteJson : Json → Bool
  | .null | .bool _ | .int _ | .str _ => true
  | .float (.finite _) => true
  | .arr items => finiteItems items
  | .obj fields => finiteFields fields
  | _ => false

def finiteItems : List Json → Bool
  | [] => true
  | item :: rest => finiteJson item && finiteItems rest

def finiteFields : List (String × Json) → Bool
  | [] => true
  | (_, value) :: rest => finiteJson value && finiteFields rest

end

def validateConstraints : Json → Except Exc Unit
  | .null => .ok ()
  | .obj fields =>
    if finiteJson (.obj fields) then .ok ()
    else .error (.valueError "argument_constraints must contain finite JSON values")
  | _ => .error (.valueError "argument_constraints must be an object")

/-- `ensure_ascii=False`: only the quote, the backslash and control characters are escaped. -/
def escapeControl (c : Char) : List Char :=
  if c = '"' then ['\\', '"']
  else if c = '\\' then ['\\', '\\']
  else if c = '\n' then ['\\', 'n']
  else if c = '\r' then ['\\', 'r']
  else if c = '\t' then ['\\', 't']
  else if c.toNat = 8 then ['\\', 'b']
  else if c.toNat = 12 then ['\\', 'f']
  else if c.toNat < 32 then Json.unicodeEscape c.toNat
  else [c]

def quoteControl (s : String) : String :=
  String.ofList ('"' :: s.toList.flatMap escapeControl ++ ['"'])

mutual

/-- `json.dumps(value, separators=(",", ":"), ensure_ascii=False, allow_nan=False)`. -/
def compactText : Json → Except Exc String
  | .null => .ok "null"
  | .bool value => .ok (if value then "true" else "false")
  | .int value => .ok (toString value)
  | .float value => Json.floatText false value
  | .str value => .ok (quoteControl value)
  | .arr items => do
      let texts ← compactItems items
      return "[" ++ ",".intercalate texts ++ "]"
  | .obj fields => do
      let texts ← compactFields fields
      return "\x7b" ++ ",".intercalate texts ++ "\x7d"
  | .object _ => .error (.typeError "Object is not JSON serializable")

def compactItems : List Json → Except Exc (List String)
  | [] => .ok []
  | item :: rest => do
      let text ← compactText item
      let texts ← compactItems rest
      return text :: texts

def compactFields : List (String × Json) → Except Exc (List String)
  | [] => .ok []
  | (name, value) :: rest => do
      let text ← compactText value
      let texts ← compactFields rest
      return (quoteControl name ++ ":" ++ text) :: texts

end

def canonicalJson (value : Json) : Except Exc ByteArray := do
  validateConstraints value
  let text ← compactText value.sortKeys
  return text.toUTF8

section Signing

variable (hmac : ByteArray → ByteArray → String)

abbrev Envelope := List (String × Json)

def unsigned (envelope : Envelope) : Envelope := envelope.filter (fun f => decide (f.1 ≠ "signature"))

def sign (secret : ByteArray) (envelope : Envelope) : Except Exc String := do
  let bytes ← canonicalJson (.obj (unsigned envelope))
  return hmac secret bytes

/-- The fields of `make_command` but for its signature. -/
def envelopeOf (commandId deviceId capability : String) (arguments : Envelope) (issuedAt : Int)
    (nonce : String) : Envelope :=
  [("version", .int 1), ("command_id", .str commandId), ("device_id", .str deviceId),
    ("capability", .str capability), ("arguments", .obj arguments), ("issued_at", .int issuedAt),
    ("nonce", .str nonce)]

/-- What a call of `make_command` draws: `int(time.time())` and two `token_hex`. -/
structure CommandDraw where
  time : ℚ
  commandId : String
  nonce : String

def makeCommand (deviceId capability : String) (arguments : Envelope) (secret : ByteArray)
    (issuedAt : Option Int) (nonce commandId : Option String) (draw : CommandDraw) :
    Except Exc Envelope := do
  if deviceId = "" ∨ capability = "" ∨ nonce = some "" ∨ commandId = some "" then
    .error (.valueError "invalid command fields")
  else
    let envelope := envelopeOf (commandId.getD draw.commandId) deviceId capability arguments
      (issuedAt.getD ⌊draw.time⌋) (nonce.getD draw.nonce)
    let signature ← sign hmac secret envelope
    return envelope ++ [("signature", .str signature)]

end Signing

/-- A row of `device_replay`; the guard in memory keeps its nonces under one namespace. -/
structure ReplayRow where
  peer : String
  nonce : String
  expiresAt : ℚ
  deriving DecidableEq

def ReplayRow.key (r : ReplayRow) : String × String := (r.peer, r.nonce)

/-- `ReplayGuard`: the dictionary of the nonces it has seen. -/
structure MemoryGuard where
  ttl : ℚ
  seen : List (String × ℚ)

/-- `SQLiteReplayGuard`: the ledger, and the namespace of this guard. -/
structure LedgerGuard where
  ttl : ℚ
  peer : String
  ledger : Table ReplayRow.key

inductive ReplayGuard where
  | memory (guard : MemoryGuard)
  | ledger (guard : LedgerGuard)

/-- `now + max(self.ttl, retain_seconds or 0)`. -/
def retention (ttl now : ℚ) (retainSeconds : Int) : ℚ := now + max ttl retainSeconds

def MemoryGuard.claim (g : MemoryGuard) (nonce : String) (retainSeconds : Int) (now : ℚ) :
    Bool × MemoryGuard :=
  let seen := g.seen.filter (fun entry => decide (now < entry.2))
  if seen.any (fun entry => decide (entry.1 = nonce)) then (false, { g with seen := seen })
  else (true, { g with seen := seen ++ [(nonce, retention g.ttl now retainSeconds)] })

def LedgerGuard.claim (g : LedgerGuard) (nonce : String) (retainSeconds : Int) (now : ℚ) :
    Bool × LedgerGuard :=
  let kept := g.ledger.delete (fun r => decide (r.peer = g.peer ∧ r.expiresAt ≤ now))
  let (rows, fresh) := kept.insertOrIgnore ⟨g.peer, nonce, retention g.ttl now retainSeconds⟩
  (fresh, { g with ledger := rows })

def ReplayGuard.claim (g : ReplayGuard) (nonce : String) (retainSeconds : Int) (now : ℚ) :
    Bool × ReplayGuard :=
  match g with
  | .memory guard =>
    let (fresh, after) := guard.claim nonce retainSeconds now
    (fresh, .memory after)
  | .ledger guard =>
    let (fresh, after) := guard.claim nonce retainSeconds now
    (fresh, .ledger after)

structure VerifiedCommand where
  commandId : String
  deviceId : String
  capability : String
  arguments : Envelope
  issuedAt : Int
  nonce : String

def requiredFields : List String :=
  ["version", "command_id", "device_id", "capability", "arguments", "issued_at", "nonce", "signature"]

def textField (name : String) (envelope : Envelope) : Option String :=
  match envelope.lookup name with
  | some (.str value) => if value = "" then none else some value
  | _ => none

/-- The checks of the envelope's form: its fields, and their types. -/
def readEnvelope (envelope : Envelope) : Option VerifiedCommand :=
  if (envelope.map Prod.fst).isPerm requiredFields then
    match envelope.lookup "version", envelope.lookup "issued_at", envelope.lookup "arguments",
        textField "command_id" envelope, textField "device_id" envelope,
        textField "capability" envelope, textField "nonce" envelope with
    | some (.int version), some (.int issuedAt), some (.obj arguments), some commandId,
        some deviceId, some capability, some nonce =>
      if version = 1 then some ⟨commandId, deviceId, capability, arguments, issuedAt, nonce⟩
      else none
    | _, _, _, _, _, _, _ => none
  else none

/-- What is passed as an envelope. -/
inductive Presented where
  | dict (envelope : Envelope)
  | other

/-- The arguments of `verify_command` but for the envelope, the secret and the guard. -/
structure Verification where
  expectedDeviceId : Option String
  allowedCapabilities : Option (List String)
  now : Option Int
  tolerance : Int

def isAscii (text : String) : Bool := text.toList.all (fun c => decide (c.toNat < 128))

section Verify

variable (hmac : ByteArray → ByteArray → String)

/-- The form of an envelope and its signature: everything before the clock is read. -/
def authenticate (presented : Presented) (secret : ByteArray) : Except DeviceExc VerifiedCommand :=
  match presented with
  | .other => .error (valueError "invalid command envelope")
  | .dict envelope =>
    match readEnvelope envelope with
    | none => .error (valueError "invalid command envelope")
    | some command =>
      match envelope.lookup "signature" with
      | some (.str supplied) =>
        if isAscii supplied then
          match sign hmac secret envelope with
          | .error e => .error (.raised e)
          | .ok signature =>
            if signature = supplied then .ok command
            else .error (valueError "invalid command signature")
        else .error (valueError "invalid command signature")
      | _ => .error (valueError "invalid command signature")

/-- The checks between the signature and the guard, at the verification clock. -/
def admissible (v : Verification) (command : VerifiedCommand) (clock : Int) :
    Except DeviceExc Unit :=
  if v.tolerance < |clock - command.issuedAt| then .error (valueError "stale command")
  else if v.expectedDeviceId.any (fun id => decide (command.deviceId ≠ id)) then
    .error (valueError "command addressed to another device")
  else if v.allowedCapabilities.any (fun allowed => !allowed.contains command.capability) then
    .error (.permissionError "capability not declared by device")
  else .ok ()

def clockOf (v : Verification) (time : ℚ) : Int := v.now.getD ⌊time⌋

/-- `verify_command` with a guard. `time` is the reading of `time.time()`, `reading` that of the
guard's clock. -/
def verifyCommand (presented : Presented) (secret : ByteArray) (v : Verification) (time reading : ℚ)
    (guard : ReplayGuard) : Except DeviceExc VerifiedCommand × ReplayGuard :=
  match authenticate hmac presented secret with
  | .error e => (.error e, guard)
  | .ok command =>
    let clock := clockOf v time
    match admissible v command clock with
    | .error e => (.error e, guard)
    | .ok _ =>
      let (fresh, after) := guard.claim command.nonce (command.issuedAt + v.tolerance - clock + 1)
        reading
      if fresh then (.ok command, after) else (.error (valueError "replayed command"), after)

end Verify

end Meemee.Source.DeviceProtocol
