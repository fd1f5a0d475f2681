import Meemee.Source.DeviceProtocol
import Meemee.Source.Jobs

/-!
# The device registry

`DeviceRegistry` of `meemee/devices.py`. Every method is one transaction: a `BEGIN IMMEDIATE`
block or a single statement under `with self.db`. SHA-256 is a parameter, the columns
`manifest` and `envelope` keep the fields that `json.loads` reads back from their text, and
`secret_hex` keeps the bytes. What `update_manifest` returns is what `get` reads afterwards.
-/
namespace Meemee.Source.Devices
open Library Source Source.DeviceProtocol

/-- A row of `device_pairings`. -/
structure PairingRow where
  id : String
  ownerId : String
  codeHash : String
  expiresAt : Instant
  usedAt : Option Instant

/-- A row of `devices`. -/
structure DeviceRow where
  deviceId : String
  ownerId : String
  name : String
  secret : ByteArray
  manifest : Envelope
  pairedAt : Instant
  lastSeenAt : Instant
  revokedAt : Option Instant

inductive CommandStatus where
  | issued | completed | failed
  deriving DecidableEq, Repr

/-- A row of `device_commands`, in the order of its INTEGER key. -/
structure CommandRow where
  commandId : String
  deviceId : String
  capability : String
  envelope : Envelope
  status : CommandStatus
  createdAt : Instant
  completedAt : Option Instant
  result : Option String
  error : Option String

def PairingRow.use (now : Instant) (r : PairingRow) : PairingRow := { r with usedAt := some now }

def DeviceRow.declare (capabilities : Envelope) (now : Instant) (d : DeviceRow) : DeviceRow :=
  { d with manifest := capabilities, lastSeenAt := now }

def DeviceRow.retire (now : Instant) (d : DeviceRow) : DeviceRow := { d with revokedAt := some now }

/-- `"failed" if error else "completed"`. -/
def statusOf (error : Option String) : CommandStatus :=
  if error.any (fun text => decide (text ≠ "")) then .failed else .completed

def CommandRow.settle (result error : Option String) (now : Instant) (c : CommandRow) : CommandRow :=
  { c with status := statusOf error, completedAt := some now, result := result, error := error }

@[simp] theorem PairingRow.use_id (now : Instant) (r : PairingRow) : (r.use now).id = r.id := rfl

@[simp] theorem DeviceRow.declare_deviceId (capabilities : Envelope) (now : Instant) (d : DeviceRow) :
    (d.declare capabilities now).deviceId = d.deviceId := rfl

@[simp] theorem DeviceRow.retire_deviceId (now : Instant) (d : DeviceRow) :
    (d.retire now).deviceId = d.deviceId := rfl

@[simp] theorem CommandRow.settle_commandId (result error : Option String) (now : Instant)
    (c : CommandRow) : (c.settle result error now).commandId = c.commandId := rfl

structure DeviceStore where
  pairings : Table PairingRow.id
  devices : Table DeviceRow.deviceId
  commands : Table CommandRow.commandId

def DeviceStore.empty : DeviceStore := ⟨Table.empty, Table.empty, Table.empty⟩

abbrev DeviceTxn := Txn DeviceStore DeviceExc

/-- `json.dumps(value, sort_keys=True)`, for a column. -/
def columnText (value : Json) : DeviceTxn String :=
  Txn.ofExcept ((Json.dumps { sortKeys := true } value).mapError .raised)

def uniqueFailed (column : String) : DeviceExc :=
  .raised (.integrityError ("UNIQUE constraint failed: " ++ column))

/-- What a call of `create_pairing` draws, and its clock. -/
structure PairingDraw where
  pairingId : String
  code : String
  now : Instant

section Registry

-- `_hash`, and the HMAC of the protocol.
variable (codeHash : String → String) (hmac : ByteArray → ByteArray → String)

/-- `create_pairing`; it returns the id, the code and the expiry. -/
def createPairing (ownerId : String) (ttlSeconds : Int) (draw : PairingDraw) :
    DeviceTxn (String × String × Instant) := do
  Txn.require (decide (0 < ttlSeconds)) (valueError "ttl_seconds must be positive")
  let expires := draw.now + seconds ttlSeconds
  Txn.require (decide (expires ≤ Jobs.lastInstant)) (.raised (.overflowError "date value out of range"))
  let row : PairingRow := ⟨draw.pairingId, ownerId, codeHash draw.code, expires, none⟩
  let fresh ← Txn.read (fun s => (s.pairings.insertOrIgnore row).2)
  Txn.require fresh (uniqueFailed "device_pairings.id")
  Txn.write (fun s => { s with pairings := (s.pairings.insertOrIgnore row).1 })
  return (draw.pairingId, draw.code, expires)

/-- A pairing that this code may use now. -/
def PairingRow.admits (row : PairingRow) (code : String) (now : Instant) : Bool :=
  row.usedAt.isNone && !decide (row.expiresAt < now) && decide (row.codeHash = codeHash code)

/-- What `pair` returns: the device, its owner, its secret and its capabilities. -/
structure Paired where
  deviceId : String
  ownerId : String
  secret : ByteArray
  capabilities : Envelope

/-- `INSERT INTO devices` and the mark on the pairing. -/
def enroll (pairing : PairingRow) (device : DeviceRow) (now : Instant) : DeviceTxn Unit := do
  let fresh ← Txn.read (fun s => (s.devices.insertOrIgnore device).2)
  Txn.require fresh (uniqueFailed "devices.device_id")
  Txn.write (fun s => { s with devices := (s.devices.insertOrIgnore device).1 })
  Txn.write (fun s => { s with pairings := s.pairings.update (fun r => decide (r.id = pairing.id))
                                (PairingRow.use now) (PairingRow.use_id now) })

/-- `pair`; `secret` is the draw of `token_bytes`. -/
def pair (pairingId code deviceId name : String) (capabilities : Presented) (secret : ByteArray)
    (now : Instant) : DeviceTxn Paired :=
  Txn.atomically do
    let row ← Txn.read (fun s => s.pairings.find pairingId)
    match row with
    | none => Txn.raise (valueError "invalid or expired pairing")
    | some pairing =>
      Txn.require (pairing.admits codeHash code now) (valueError "invalid or expired pairing")
      match capabilities with
      | .other => Txn.raise (valueError "device id and capabilities are required")
      | .dict fields =>
        Txn.require (!decide (deviceId = "") && !fields.isEmpty)
          (valueError "device id and capabilities are required")
        let _ ← columnText (.obj fields)
        enroll pairing ⟨deviceId, pairing.ownerId, name, secret, fields, now, now, none⟩ now
        return ⟨deviceId, pairing.ownerId, secret, fields⟩

/-- `WHERE owner_id=? AND device_id=? AND revoked_at IS NULL`. -/
def current (ownerId deviceId : String) (d : DeviceRow) : Bool :=
  decide (d.ownerId = ownerId ∧ d.deviceId = deviceId) && d.revokedAt.isNone

/-- The statement of `update_manifest`; the rows it changed. -/
def assignManifest (ownerId deviceId : String) (capabilities : Envelope) (now : Instant) :
    DeviceTxn Nat :=
  Txn.atomically do
    let _ ← columnText (.obj capabilities)
    let changed ← Txn.read (fun s => (s.devices.select (current ownerId deviceId)).length)
    Txn.write (fun s => { s with devices := s.devices.update (current ownerId deviceId)
                                  (DeviceRow.declare capabilities now)
                                  (DeviceRow.declare_deviceId capabilities now) })
    return changed

def updateManifest (ownerId deviceId : String) (capabilities : Envelope) (now : Instant) :
    DeviceTxn Unit := do
  Txn.require (!capabilities.isEmpty) (valueError "capabilities cannot be empty")
  let changed ← assignManifest ownerId deviceId capabilities now
  Txn.require (decide (changed ≠ 0)) (.keyError deviceId)

/-- The command that `make_command` built. -/
def commandIdOf (envelope : Envelope) : String := (textField "command_id" envelope).getD ""

/-- `issue`; it returns the envelope. -/
def issue (ownerId deviceId capability : String) (arguments : Envelope) (draw : CommandDraw)
    (now : Instant) : DeviceTxn Envelope :=
  Txn.atomically do
    let row ← Txn.read (fun s => (s.devices.find deviceId).filter (current ownerId deviceId))
    match row with
    | none => Txn.raise (.keyError deviceId)
    | some device =>
      Txn.require (device.manifest.any (fun f => decide (f.1 = capability)))
        (.permissionError "capability not declared by device")
      let envelope ← Txn.ofExcept ((makeCommand hmac deviceId capability arguments device.secret
        none none none draw).mapError .raised)
      let command : CommandRow :=
        ⟨commandIdOf envelope, deviceId, capability, envelope, .issued, now, none, none, none⟩
      let fresh ← Txn.read (fun s => (s.commands.insertOrIgnore command).2)
      Txn.require fresh (uniqueFailed "device_commands.command_id")
      Txn.write (fun s => { s with commands := (s.commands.insertOrIgnore command).1 })
      return envelope

/-- `status='issued'` of the one command. -/
def outstanding (commandId : String) (c : CommandRow) : Bool :=
  decide (c.commandId = commandId ∧ c.status = .issued)

/-- `json.dumps(result, sort_keys=True) if error is None else None`. -/
def resultColumn (result : Json) : Option String → DeviceTxn (Option String)
  | some _ => pure none
  | none => do
    let text ← columnText result
    return some text

/-- The statement of `complete`; the rows it changed. -/
def assignResult (commandId : String) (result : Json) (error : Option String) (now : Instant) :
    DeviceTxn Nat :=
  Txn.atomically do
    let text ← resultColumn result error
    let changed ← Txn.read (fun s => (s.commands.select (outstanding commandId)).length)
    Txn.write (fun s => { s with commands := s.commands.update (outstanding commandId)
                                  (CommandRow.settle text error now)
                                  (CommandRow.settle_commandId text error now) })
    return changed

def complete (commandId : String) (result : Json) (error : Option String) (now : Instant) :
    DeviceTxn Unit := do
  let changed ← assignResult commandId result error now
  Txn.require (decide (changed ≠ 0)) (valueError "unknown or already completed command")

/-- `revoke`; whether a device was revoked. -/
def revoke (ownerId deviceId : String) (now : Instant) : DeviceTxn Bool :=
  Txn.atomically do
    let changed ← Txn.read (fun s => s.devices.select (current ownerId deviceId))
    Txn.write (fun s => { s with devices := s.devices.update (current ownerId deviceId)
                                  (DeviceRow.retire now) (DeviceRow.retire_deviceId now) })
    return !changed.isEmpty

end Registry

end Meemee.Source.Devices
