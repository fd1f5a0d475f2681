import Meemee.Source.Checkins
import Meemee.Source.Goals

/-!
# Control of a webhook destination

`DestinationControlMixin` of `meemee/companion/destination_control.py`, over the companion
store with its challenges. Every call is one transaction: `BEGIN IMMEDIATE` on SQLite, the
lock of the owner's row or of the grants on PostgreSQL. SHA-256 and the reading of an address
by `urlsplit` are parameters; clocks are aware, and `None` stands for a reading the caller
passes.
-/
namespace Meemee.Source.Destinations
open Library Source Source.Checkins
open Source.PgJobs (strip)

/-- A row of `companion_destination_challenges`. -/
structure ChallengeRow where
  id : String
  ownerId : String
  destination : String
  nonceSha256 : String
  createdAt : Instant
  expiresAt : Instant
  consumedAt : Option Instant
  deriving DecidableEq, Repr

structure DestinationStore where
  companion : CompanionStore
  challenges : Table ChallengeRow.id

def DestinationStore.withGrants (s : DestinationStore) (grants : Table DestinationGrant.id) :
    DestinationStore :=
  { s with companion := { s.companion with destinationGrants := grants } }

abbrev DestinationTxn := Txn DestinationStore Exc

/-- `DestinationVerificationError`, a `ValueError` with one text. -/
def refused : Exc := .valueError "destination verification refused"

/-- `clock + timedelta(...)`. -/
def addTime (clock : Instant) (time : Int) : DestinationTxn Instant := do
  Txn.require (decide (clock + time ≤ Jobs.lastInstant)) (.overflowError "date value out of range")
  return clock + time

def ChallengeRow.consume (clock : Instant) (r : ChallengeRow) : ChallengeRow :=
  { r with consumedAt := some clock }

@[simp] theorem ChallengeRow.consume_id (clock : Instant) (r : ChallengeRow) :
    (r.consume clock).id = r.id := rfl

def revokeGrant (clock : Instant) (g : DestinationGrant) : DestinationGrant :=
  { g with revokedAt := some clock }

@[simp] theorem revokeGrant_id (clock : Instant) (g : DestinationGrant) :
    (revokeGrant clock g).id = g.id := rfl

/-- What `token_urlsafe` and `uuid4` draw. -/
structure ChallengeDraw where
  nonce : String
  ident : String

def setChallenges (f : Table ChallengeRow.id → Table ChallengeRow.id) : DestinationTxn Unit :=
  Txn.write (fun s => { s with challenges := f s.challenges })

def setGrants (f : Table DestinationGrant.id → Table DestinationGrant.id) : DestinationTxn Unit :=
  Txn.write (fun s => s.withGrants (f s.companion.destinationGrants))

section Control

-- `hashlib.sha256(...).hexdigest()`, and the part of `exact_webhook` that reads the address.
variable (sha256 : String → String) (splits : String → Bool)

def exactWebhook (destination : String) : Bool :=
  decide (destination ≠ "") && decide (destination.length ≤ 500) &&
    decide (destination = strip destination) &&
    destination.toList.all (fun c => decide (33 ≤ c.toNat ∧ c.toNat ≠ 127 ∧ c ≠ '\\')) &&
    splits destination

/-- The challenges of the owner that have not expired. -/
def pruned (owner : String) (clock : Instant) (challenges : Table ChallengeRow.id) :
    Table ChallengeRow.id :=
  challenges.delete (fun r => decide (r.ownerId = owner ∧ r.expiresAt ≤ clock))

/-- Ten challenges, or one in the last two seconds. -/
def limited (rows : List ChallengeRow) (clock : Instant) : Bool :=
  decide (10 ≤ rows.length) || rows.any (fun r => decide (clock < r.createdAt + seconds 2))

/-- `create_destination_challenge`; it returns the row and the nonce. -/
def createChallenge (owner destination : String) (draw : ChallengeDraw) (clock : Instant) :
    DestinationTxn (ChallengeRow × String) := do
  Txn.require (exactWebhook splits destination) refused
  Txn.require (decide (owner ≠ "" ∧ owner.length ≤ 240)) refused
  Txn.atomically do
    let user ← Txn.read (fun s => s.companion.users.find owner)
    let expires ← addTime clock (seconds 60)
    Txn.require user.isSome refused
    setChallenges (pruned owner clock)
    let rows ← Txn.read (fun s => s.challenges.select (fun r => decide (r.ownerId = owner)))
    Txn.require (!limited rows clock) refused
    let row : ChallengeRow :=
      ⟨draw.ident, owner, destination, sha256 draw.nonce, clock, expires, none⟩
    let fresh ← Txn.read (fun s => (s.challenges.insertOrIgnore row).2)
    Txn.require fresh (.integrityError "UNIQUE constraint failed: companion_destination_challenges.id")
    setChallenges (fun challenges => (challenges.insertOrIgnore row).1)
    return (row, draw.nonce)

/-- An open challenge, answered with its nonce. -/
def ChallengeRow.answers (row : ChallengeRow) (nonce : String) (clock : Instant) : Bool :=
  row.consumedAt.isNone && decide (row.createdAt ≤ clock ∧ clock < row.expiresAt) &&
    decide (nonce.length ≤ 100) && decide (sha256 nonce = row.nonceSha256)

/-- `consume_destination_challenge`; it returns the grant. -/
def consumeChallenge (owner ident nonce grantId : String) (clock : Instant) :
    DestinationTxn DestinationGrant :=
  Txn.atomically do
    let user ← Txn.read (fun s => s.companion.users.find owner)
    Txn.require user.isSome refused
    let row ← Txn.read (fun s =>
      (s.challenges.find ident).filter (fun r => decide (r.ownerId = owner)))
    match row with
    | none => Txn.raise refused
    | some challenge =>
      Txn.require (challenge.answers sha256 nonce clock) refused
      setChallenges (fun challenges => challenges.update (fun r => decide (r.id = ident))
        (ChallengeRow.consume clock) (ChallengeRow.consume_id clock))
      let expires ← addTime clock (days 7)
      let grant : DestinationGrant := ⟨grantId, owner, challenge.destination, clock, expires, none⟩
      let fresh ← Txn.read (fun s => (s.companion.destinationGrants.insertOrIgnore grant).2)
      Txn.require fresh (.integrityError "UNIQUE constraint failed: companion_destination_grants.id")
      setGrants (fun grants => (grants.insertOrIgnore grant).1)
      return grant

def destinationIsVerified (owner channel destination : String) (clock : Instant) :
    DestinationTxn Bool := do
  let rows ← Txn.read (fun s => destinationGrantsLocked owner channel (some destination) s.companion)
  return destinationGrantsValid channel rows clock

/-- The grant under an id, when it is the owner's. -/
def ownGrant (owner grantId : String) (g : DestinationGrant) : Bool :=
  decide (g.id = grantId ∧ g.ownerId = owner)

/-- `revoke_destination`; whether there was a grant to revoke. -/
def revokeDestination (owner grantId : String) (clock : Instant) : DestinationTxn Bool :=
  Txn.atomically do
    let row ← Txn.read (fun s =>
      (s.companion.destinationGrants.find grantId).filter (ownGrant owner grantId))
    match row with
    | none => return false
    | some _ =>
      setGrants (fun grants => grants.update (fun g => decide (g.id = grantId))
        (revokeGrant clock) (revokeGrant_id clock))
      return true

end Control

end Meemee.Source.Destinations
