import Meemee.Source.JsonbColumn

/-!
# IdempotencyStore, SQLite and PostgreSQL

`meemee/idempotency.py` and `meemee_persist_pg/idempotency.py`. Each operation is
the transaction the store runs; `claim` is two of them, the INSERT and, when
nothing was inserted, `get`. SHA-256 is a parameter: `requestHash` is what
`request_hash` answers, or the exception `json.dumps` raises on the payload.
-/
namespace Meemee.Source.Idempotency
open Library

/-- `PRIMARY KEY(principal, route, key)`. -/
structure Key where
  principal : String
  route : String
  key : String
  deriving DecidableEq, Repr

structure Row where
  id : Key
  requestHash : String
  response : Json
  status : Int
  createdAt : Instant
  expiresAt : Instant
  claimToken : Option String

abbrev Records := Table Row.id

/-- Status of a claimed key whose response is not stored yet. -/
def PENDING : Int := 0

/-- A crashed claimant frees its key after this. -/
def CLAIM_LEASE : Int := minutes 5

def IN_PROGRESS : String := "a request with this idempotency key is still in progress; retry shortly"

def hashConflict : Exc :=
  .idempotencyConflict "idempotency key was already used with a different request"

def ownershipLost : Exc := .idempotencyConflict "idempotency claim ownership was lost"

/-- `DELETE FROM idempotency WHERE expires_at<=?`. -/
def dropExpired (now : Instant) (t : Records) : Records :=
  t.delete (fun r => decide (r.expiresAt ≤ now))

def checkKey (key : String) : Txn Records Exc Unit :=
  Txn.require (decide (key ≠ "" ∧ key.length ≤ 200))
    (.valueError "idempotency key must contain 1-200 characters")

def checkStatus (status : Int) : Txn Records Exc Unit :=
  Txn.require (decide (100 ≤ status ∧ status ≤ 599))
    (.valueError "response status must be an HTTP status integer (100-599)")

/-- What `get` answers about the row its transaction selected. -/
def answer (digest : String) (row : Option Row) : Except Exc (Option (Int × Json)) :=
  match row with
  | none => .ok none
  | some row =>
    if row.requestHash ≠ digest then .error hashConflict
    else if row.status = PENDING then .error (.idempotencyInProgress IN_PROGRESS)
    else .ok (some (row.status, row.response))

section Store

variable {Payload : Type} (requestHash : Payload → Except Exc String)

/-- `get`, the same in both stores: drop the expired rows, then read. -/
def get (now : Instant) (id : Key) (payload : Payload) :
    Txn Records Exc (Option (Int × Json)) := do
  let digest ← Txn.ofExcept (requestHash payload)
  let row ← Txn.atomically (do
    Txn.write (dropExpired now)
    Txn.read (fun t => t.find id))
  Txn.ofExcept (answer digest row)

/-- The row `claim` inserts. -/
def pendingRow (id : Key) (digest : String) (createdAt expiresAt : Instant)
    (claimToken : Option String) : Row :=
  ⟨id, digest, .null, PENDING, createdAt, expiresAt, claimToken⟩

/-- `INSERT OR IGNORE` / `ON CONFLICT DO NOTHING`: the rowcount. -/
def insertRow (row : Row) : Txn Records Exc Bool := do
  let inserted ← Txn.read (fun t => (t.insertOrIgnore row).2)
  Txn.write (fun t => (t.insertOrIgnore row).1)
  return inserted

/-- `release`, the same in both stores: drop an unfinished claim. -/
def release (id : Key) (claimToken : Option String) : Txn Records Exc Unit :=
  Txn.atomically (Txn.write (fun t => t.delete (fun r =>
    decide (r.id = id ∧ r.status = PENDING ∧ r.claimToken = claimToken))))

/-- The ownership test `put` makes on a protected key. -/
def ownershipFails (reserved : Option Row) (claimToken : Option String) (now : Instant) : Bool :=
  match reserved with
  | none => true
  | some r => decide (r.claimToken ≠ claimToken ∨ r.status ≠ PENDING ∨ r.expiresAt ≤ now)

/-- A key is protected when the caller or the stored row carries a claim token. -/
def protectedKey (reserved : Option Row) (claimToken : Option String) : Bool :=
  claimToken.isSome || match reserved with
    | none => false
    | some r => r.claimToken.isSome

/-- `json.dumps(response, default=str, allow_nan=False)`. -/
def encodeResponse (response : Json) : Except Exc String :=
  Json.dumps { defaultStr := true, allowNan := false } response

namespace SQLite

/-- The first transaction of `claim`: whether this call inserted the row. -/
def claim (now : Instant) (id : Key) (payload : Payload) (claimToken : Option String) :
    Txn Records Exc Bool := do
  checkKey id.key
  let digest ← Txn.ofExcept (requestHash payload)
  Txn.atomically (do
    Txn.write (dropExpired now)
    insertRow (pendingRow id digest now (now + CLAIM_LEASE) claimToken))

/-- `put`. `now` is read before the transaction and dates the row; `checked` is
the reading the ownership test compares the lease with. -/
def put (now checked : Instant) (ttl : Int) (id : Key) (payload : Payload) (status : Int)
    (response : Json) (claimToken : Option String) : Txn Records Exc Unit := do
  checkStatus status
  checkKey id.key
  let _ ← Txn.ofExcept (encodeResponse response)
  let digest ← Txn.ofExcept (requestHash payload)
  Txn.atomically (do
    let reserved ← Txn.read (fun t => t.find id)
    Txn.require (match reserved with
      | none => true
      | some r => decide (r.requestHash = digest)) hashConflict
    Txn.require (!(protectedKey reserved claimToken && ownershipFails reserved claimToken checked))
      ownershipLost
    Txn.write (fun t =>
      ((t.update (fun r => decide (r.id = id ∧ r.status = PENDING))
        (fun r => { r with requestHash := digest, response := response, status := status,
                           createdAt := now, expiresAt := now + ttl }) (fun _ => rfl)).insertOrIgnore
        ⟨id, digest, response, status, now, now + ttl, claimToken⟩).1))

end SQLite

namespace Postgres

/-- The first transaction of `claim`. The DELETE reads the clock at `now`; the row
is dated again after the insert, at `inserted`, while it is still private to the
transaction. -/
def claim (now inserted : Instant) (id : Key) (payload : Payload) (claimToken : Option String) :
    Txn Records Exc Bool := do
  checkKey id.key
  let digest ← Txn.ofExcept (requestHash payload)
  Txn.atomically (do
    Txn.write (dropExpired now)
    let fresh ← insertRow (pendingRow id digest now (now + CLAIM_LEASE) claimToken)
    if fresh then
      Txn.write (fun t => t.update (fun r => decide (r.id = id))
        (fun r => { r with createdAt := inserted, expiresAt := inserted + CLAIM_LEASE })
        (fun _ => rfl))
      return true
    else return false)

/-- `put`. `serverNow` is read under the row lock; the conflict clause updates only
a pending row of the same request and token, and what it did not publish is
explained from the row that stands in the way. `column` is what the `jsonb` column makes of the
response, which the INSERT binds. -/
def putColumn (serverNow : Instant) (ttl : Int) (id : Key) (payload : Payload) (status : Int)
    (response : Json) (column : Except Exc Json) (claimToken : Option String) :
    Txn Records Exc Unit := do
  checkStatus status
  checkKey id.key
  let _ ← Txn.ofExcept (encodeResponse response)
  let digest ← Txn.ofExcept (requestHash payload)
  Txn.atomically (do
    let reserved ← Txn.read (fun t => t.find id)
    Txn.require (!(protectedKey reserved claimToken && ownershipFails reserved claimToken serverNow))
      ownershipLost
    let stored ← Txn.ofExcept column
    match reserved with
    | none =>
      Txn.write (fun t =>
        (t.insertOrIgnore ⟨id, digest, stored, status, serverNow, serverNow + ttl, none⟩).1)
    | some r =>
      if r.status = PENDING ∧ r.requestHash = digest ∧ r.claimToken = claimToken then
        Txn.write (fun t => t.update (fun r => decide (r.id = id))
          (fun r => { r with response := stored, status := status, createdAt := serverNow,
                             expiresAt := serverNow + ttl }) (fun _ => rfl))
      else do
        Txn.require r.claimToken.isNone ownershipLost
        Txn.require (decide (r.requestHash = digest)) hashConflict)

/-- `put` of a response that the column gives back as it is. -/
def put (serverNow : Instant) (ttl : Int) (id : Key) (payload : Payload) (status : Int)
    (response : Json) (claimToken : Option String) : Txn Records Exc Unit :=
  putColumn requestHash serverNow ttl id payload status response (.ok response) claimToken

end Postgres

end Store

mutual

/-- `json.loads` of what `json.dumps(value, default=str)` writes. -/
def readBack : Json → Json
  | .object text => .str text
  | .arr items => .arr (readBackItems items)
  | .obj fields => .obj (readBackFields fields)
  | other => other

def readBackItems : List Json → List Json
  | [] => []
  | item :: rest => readBack item :: readBackItems rest

def readBackFields : List (String × Json) → List (String × Json)
  | [] => []
  | (name, value) :: rest => (name, readBack value) :: readBackFields rest

end

section Responses

variable {Payload : Type} (requestHash : Payload → Except Exc String)

/-- `put` with the response as it reads back. -/
def SQLite.putResponse (now checked : Instant) (ttl : Int) (id : Key) (payload : Payload)
    (status : Int) (response : Json) (claimToken : Option String) : Txn Records Exc Unit :=
  SQLite.put requestHash now checked ttl id payload status (readBack response) claimToken

/-- `put` with the response as it reads back from the column, which may refuse it. -/
def Postgres.putResponse (serverNow : Instant) (ttl : Int) (id : Key) (payload : Payload)
    (status : Int) (response : Json) (claimToken : Option String) : Txn Records Exc Unit :=
  Postgres.putColumn requestHash serverNow ttl id payload status response
    (JsonbColumn.jsonb (readBack response)) claimToken

end Responses

end Meemee.Source.Idempotency
