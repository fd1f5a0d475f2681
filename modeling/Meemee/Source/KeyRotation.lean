import Meemee.Library.Table
import Meemee.Library.Txn

/-!
# Rotation of the vault key

`rotate_keys` of `meemee/key_rotation.py`, with `SecretCipher` of `meemee/secret_cipher.py`. Each call of
the function may raise, before or after it has done its work, an `Exception` or something that is none; a
plan says which calls do. A loop of decryptions or encryptions is one call. AES-GCM and URL-safe base64
are parameters, and `_restore` is assumed to succeed.
-/
namespace Meemee.Source.KeyRotation
open Library

abbrev Bytes := List UInt8

/-- URL-safe base64, and AES-GCM of UTF-8 texts: the key, the nonce, what is encrypted or
decrypted, and the associated text. -/
structure Crypto where
  b64encode : Bytes → String
  b64decode : String → Option Bytes
  encrypt : Bytes → Bytes → String → String → Bytes
  decrypt : Bytes → Bytes → Bytes → String → Option String

/-- A drawn nonce: `os.urandom(12)`. -/
abbrev Nonce := { bytes : Bytes // bytes.length = 12 }

/-- What is raised: an `Exception`, or something that `except Exception` lets through. -/
inductive Raised where
  | exception (text : String)
  | interrupt
  deriving DecidableEq, Repr

section Ciphers

variable (crypto : Crypto)

def material (key : String) : Except Raised Bytes :=
  match crypto.b64decode key with
  | none => .error (.exception "key must be URL-safe base64")
  | some bytes =>
    if bytes.length = 32 then .ok bytes else .error (.exception "key must decode to 32 bytes")

def PREFIX : String := "enc:v1:"

def SecretCipher.encrypt (key : Bytes) (nonce : Nonce) (value context : String) : String :=
  PREFIX ++ crypto.b64encode (nonce.val ++ crypto.encrypt key nonce.val value context)

/-- `SecretCipher.decrypt`; every way in which it raises is `none`. -/
def SecretCipher.decrypt (key : Bytes) (value context : String) : Option String :=
  if PREFIX.toList.isPrefixOf value.toList then do
    let payload ← crypto.b64decode (String.ofList (value.toList.drop PREFIX.length))
    crypto.decrypt key (payload.take 12) (payload.drop 12) context
  else none

end Ciphers

/-- A row of `secrets`. -/
structure VaultRow where
  name : String
  nonce : Bytes
  ciphertext : Bytes
  deriving DecidableEq

/-- A row of `webhook_subscriptions`; its other columns are left alone. -/
structure HookRow where
  id : String
  secret : String
  deriving DecidableEq

/-- The files: the two databases, when they exist, and the marker. -/
structure Disk where
  vault : Option (Table VaultRow.name)
  hooks : Option (Table HookRow.id)
  marker : Bool

/-- A connection: `None`, without a transaction, or with what its transaction has written. -/
inductive Connection (τ : Type) where
  | none
  | idle
  | writing (content : τ)

def Connection.connected {τ : Type} : Connection τ → Bool
  | .none => false
  | _ => true

/-- The files, the temporary backups and the local variables. -/
structure Rotation where
  disk : Disk
  backups : Disk
  vault : Connection (Table VaultRow.name)
  hooks : Connection (Table HookRow.id)
  mutated : Bool

def Rotation.start (disk : Disk) : Rotation := ⟨disk, ⟨none, none, false⟩, .none, .none, false⟩

abbrev RotationTxn := Txn Rotation Raised

/-- The calls of `rotate_keys`, in order; from `rollbackVault` on those of the handler and of the
`finally` blocks. -/
inductive Call where
  | readKeys | prepare | checkMarker | makeBackups | publishMarker
  | writeMarker | connectVault | connectHooks | selectVault | selectHooks
  | decodeVault | decodeHooks | sealVault | sealHooks
  | beginVault | updateVault | beginHooks | updateHooks
  | commitHooks | commitVault | unlinkMarker
  | rollbackVault | rollbackHooks | quitVault | quitHooks | unlinkMarkerAgain
  | closeVault | closeHooks | removeBackups
  deriving DecidableEq, Repr

/-- What a call raises, and whether it has done its work by then. -/
structure Fault where
  raised : Raised
  applied : Bool

section Rotate

variable (plan : Call → Option Fault)

def perform (c : Call) (effect : Rotation → Rotation) : RotationTxn Unit := fun s =>
  match plan c with
  | none => (.ok (), effect s)
  | some fault => (.error fault.raised, if fault.applied then effect s else s)

/-- A call under an `if`. -/
def performIf (condition : Rotation → Bool) (c : Call) (effect : Rotation → Rotation) :
    RotationTxn Unit := fun s =>
  if condition s then perform plan c effect s else (.ok (), s)

/-- A call that computes something, or raises by itself. -/
def attempt {α : Type} (c : Call) (result : Except Raised α) : RotationTxn α := do
  perform plan c id
  Txn.ofExcept result

/-- `rollback_quietly` and `close_quietly` contain what they raise. -/
def quietly (c : Call) (effect : Rotation → Rotation) : RotationTxn Unit := fun s =>
  (.ok (), (perform plan c effect s).2)

/-- `try: ... except Exception: handler; raise`. -/
def guarded {α : Type} (m : RotationTxn α) (handler : RotationTxn Unit) : RotationTxn α := fun s =>
  match m s with
  | (.error (.exception text), t) =>
    match handler t with
    | (.ok _, u) => (.error (.exception text), u)
    | (.error e, u) => (.error e, u)
  | other => other

/-- `try: ... finally: cleanup`. -/
def finally_ {α : Type} (m : RotationTxn α) (cleanup : RotationTxn Unit) : RotationTxn α := fun s =>
  let (result, t) := m s
  match cleanup t with
  | (.ok _, u) => (result, u)
  | (.error e, u) => (.error e, u)

def Rotation.mark (marked : Bool) (s : Rotation) : Rotation :=
  { s with disk := { s.disk with marker := marked } }

def Rotation.backup (s : Rotation) : Rotation := { s with backups := s.disk }

def Rotation.beginVault (s : Rotation) : Rotation :=
  { s with vault := (s.disk.vault.map Connection.writing).getD s.vault }

def Rotation.beginHooks (s : Rotation) : Rotation :=
  { s with hooks := (s.disk.hooks.map Connection.writing).getD s.hooks }

/-- `UPDATE secrets SET nonce=?,ciphertext=? WHERE name=?`. -/
def VaultRow.assign (update : VaultRow) (r : VaultRow) : VaultRow :=
  { r with nonce := update.nonce, ciphertext := update.ciphertext }

theorem VaultRow.assign_name (update r : VaultRow) : (update.assign r).name = r.name := rfl

/-- `UPDATE webhook_subscriptions SET secret=? WHERE id=?`. -/
def HookRow.assign (update : HookRow) (r : HookRow) : HookRow := { r with secret := update.secret }

theorem HookRow.assign_id (update r : HookRow) : (update.assign r).id = r.id := rfl

def rewriteVault (updates : List VaultRow) (t : Table VaultRow.name) : Table VaultRow.name :=
  t.updateMany VaultRow.name VaultRow.assign VaultRow.assign_name updates

def rewriteHooks (updates : List HookRow) (t : Table HookRow.id) : Table HookRow.id :=
  t.updateMany HookRow.id HookRow.assign HookRow.assign_id updates

def Rotation.updateVault (updates : List VaultRow) (s : Rotation) : Rotation :=
  match s.vault with
  | .writing content => { s with vault := .writing (rewriteVault updates content) }
  | _ => s

def Rotation.updateHooks (updates : List HookRow) (s : Rotation) : Rotation :=
  match s.hooks with
  | .writing content => { s with hooks := .writing (rewriteHooks updates content) }
  | _ => s

def Rotation.commitVault (s : Rotation) : Rotation :=
  match s.vault with
  | .writing content => { s with disk := { s.disk with vault := some content }, vault := .idle }
  | _ => s

def Rotation.commitHooks (s : Rotation) : Rotation :=
  match s.hooks with
  | .writing content => { s with disk := { s.disk with hooks := some content }, hooks := .idle }
  | _ => s

/-- `_restore` of every backup. -/
def Rotation.restore (s : Rotation) : Rotation :=
  if s.mutated then
    { s with disk := { s.disk with vault := s.backups.vault, hooks := s.backups.hooks } }
  else s

variable (crypto : Crypto)

def context (ident : String) : String := "webhook-subscription:" ++ ident

/-- The decryption of the vault under the old key; `InvalidTag` and `UnicodeDecodeError` are
exceptions. -/
def decodeVault (key : Bytes) : List VaultRow → Except Raised (List (String × String))
  | [] => .ok []
  | r :: rest =>
    match crypto.decrypt key r.nonce r.ciphertext r.name with
    | none => .error (.exception "InvalidTag")
    | some value => (decodeVault key rest).map ((r.name, value) :: ·)

def decodeHooks (key : Bytes) : List HookRow → Except Raised (List (String × String))
  | [] => .ok []
  | r :: rest =>
    if PREFIX.toList.isPrefixOf r.secret.toList then
      match SecretCipher.decrypt crypto key r.secret (context r.id) with
      | none => .error (.exception "InvalidTag")
      | some value => (decodeHooks key rest).map ((r.id, value) :: ·)
    else .error (.exception
      "plaintext webhook secret found; start Meemee once with the old key first")

/-- The nonces that the encryptions draw, by the name or the id of their row. -/
structure Draws where
  vault : String → Nonce
  hooks : String → Nonce

def sealVault (key : Bytes) (draws : Draws) (values : List (String × String)) : List VaultRow :=
  values.map (fun v => ⟨v.1, (draws.vault v.1).val,
    crypto.encrypt key (draws.vault v.1).val v.2 v.1⟩)

def sealHooks (key : Bytes) (draws : Draws) (values : List (String × String)) : List HookRow :=
  values.map (fun v => ⟨v.1, SecretCipher.encrypt crypto key (draws.hooks v.1) v.2 (context v.1)⟩)

def rowsOf {κ ρ : Type} {key : ρ → κ} : Option (Table key) → List ρ
  | none => []
  | some t => t.rows

/-- The body of the `try`, before the commits. -/
def writeUpdates (oldKey newKey : Bytes) (draws : Draws) : RotationTxn (Nat × Nat) := do
  perform plan .writeMarker id
  performIf plan (fun s => s.disk.vault.isSome) .connectVault (fun s => { s with vault := .idle })
  performIf plan (fun s => s.disk.hooks.isSome) .connectHooks (fun s => { s with hooks := .idle })
  performIf plan (fun s => s.vault.connected) .selectVault id
  let vaultRows ← Txn.read (fun s => rowsOf s.disk.vault)
  performIf plan (fun s => s.hooks.connected) .selectHooks id
  let hookRows ← Txn.read (fun s => rowsOf s.disk.hooks)
  let decodedVault ← attempt plan .decodeVault (decodeVault crypto oldKey vaultRows)
  let decodedHooks ← attempt plan .decodeHooks (decodeHooks crypto oldKey hookRows)
  let vaultUpdates ← attempt plan .sealVault (.ok (sealVault crypto newKey draws decodedVault))
  let hookUpdates ← attempt plan .sealHooks (.ok (sealHooks crypto newKey draws decodedHooks))
  Txn.write (fun s => { s with mutated := true })
  performIf plan (fun s => s.vault.connected) .beginVault Rotation.beginVault
  performIf plan (fun s => s.vault.connected) .updateVault (Rotation.updateVault vaultUpdates)
  performIf plan (fun s => s.hooks.connected) .beginHooks Rotation.beginHooks
  performIf plan (fun s => s.hooks.connected) .updateHooks (Rotation.updateHooks hookUpdates)
  return (vaultUpdates.length, hookUpdates.length)

/-- The commits and the removal of the marker. -/
def commit : RotationTxn Unit := do
  performIf plan (fun s => s.hooks.connected) .commitHooks Rotation.commitHooks
  performIf plan (fun s => s.vault.connected) .commitVault Rotation.commitVault
  perform plan .unlinkMarker (Rotation.mark false)

/-- `except Exception`. -/
def recover : RotationTxn Unit := do
  quietly plan .rollbackVault id
  quietly plan .rollbackHooks id
  quietly plan .quitVault id
  quietly plan .quitHooks id
  Txn.write (fun s => { s with vault := .none, hooks := .none })
  Txn.write Rotation.restore
  perform plan .unlinkMarkerAgain (Rotation.mark false)

/-- `finally`: a connection that closes drops its transaction. -/
def closeConnections : RotationTxn Unit := do
  performIf plan (fun s => s.vault.connected) .closeVault (fun s => { s with vault := .none })
  performIf plan (fun s => s.hooks.connected) .closeHooks (fun s => { s with hooks := .none })

def readKeys (old new : String) : Except Raised (Bytes × Bytes) := do
  let oldKey ← material crypto old
  let newKey ← material crypto new
  return (oldKey, newKey)

def refuseMarked (marked : Bool) : Except Raised Unit :=
  if marked then .error (.exception
    "an earlier key rotation was interrupted; restore the pre-rotation backup")
  else .ok ()

/-- `rotate_keys`; it returns how many secrets of either kind it rotated. -/
def rotateKeys (old new : String) (draws : Draws) : RotationTxn (Nat × Nat) := do
  let keys ← attempt plan .readKeys (readKeys crypto old new)
  perform plan .prepare id
  let marked ← Txn.read (fun s => s.disk.marker)
  attempt plan .checkMarker (refuseMarked marked)
  finally_ (do
      perform plan .makeBackups Rotation.backup
      perform plan .publishMarker (Rotation.mark true)
      finally_ (guarded (do
          let counts ← writeUpdates plan crypto keys.1 keys.2 draws
          commit plan
          return counts)
        (recover plan)) (closeConnections plan))
    (perform plan .removeBackups id)

end Rotate

end Meemee.Source.KeyRotation
