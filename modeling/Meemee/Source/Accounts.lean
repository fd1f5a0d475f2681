import Meemee.Source.PgJobs

/-!
# API tokens and customer accounts

`meemee/auth.py` and `meemee_persist_pg/tokens.py`. The two stores run the same
statements except for `login_account`: on PostgreSQL it is one transaction that holds
the row's lock, on SQLite it is a read, an UPDATE and an INSERT in three lock
sections, with the password hashed between the first two. Password hashing, token
digests and `str.lower` are parameters.
-/
namespace Meemee.Source.Accounts
open Library

structure Account where
  id : String
  email : String
  displayName : String
  passwordHash : String
  passwordSalt : String
  createdAt : Instant
  disabledAt : Option Instant
  failedLogins : Nat
  lockedUntil : Option Instant
  deriving DecidableEq, Repr

structure Token where
  id : String
  name : String
  digest : String
  scopes : List String
  createdAt : Instant
  lastUsedAt : Option Instant
  expiresAt : Option Instant
  revokedAt : Option Instant
  ownerId : Option String
  tokenKind : String
  deriving DecidableEq, Repr

structure TokenStore where
  accounts : Table Account.id
  tokens : Table Token.id

abbrev StoreTxn := Txn TokenStore Exc

structure Principal where
  id : String
  name : String
  scopes : List String
  deriving DecidableEq, Repr

/-- What the interpreter and `hashlib` compute. -/
structure Primitives where
  /-- `_password(password, salt)`: PBKDF2. -/
  password : String → String → String
  /-- `digest(token)`: SHA-256. -/
  digest : String → String
  /-- `str.lower`. -/
  lower : String → String

/-- `email.strip().lower()`. -/
def Primitives.normalized (prim : Primitives) (email : String) : String := prim.lower (PgJobs.strip email)

def updateAccount (p : Account → Bool) (f : Account → Account) (keeps : ∀ a, (f a).id = a.id) :
    StoreTxn Bool := do
  let matched ← Txn.read (fun s => s.accounts.select p)
  Txn.write (fun s => { s with accounts := s.accounts.update p f keeps })
  return !matched.isEmpty

def updateTokens (p : Token → Bool) (f : Token → Token) (keeps : ∀ t, (f t).id = t.id) :
    StoreTxn Bool := do
  let matched ← Txn.read (fun s => s.tokens.select p)
  Txn.write (fun s => { s with tokens := s.tokens.update p f keeps })
  return !matched.isEmpty

/-- An `expires_at` argument: text that is no ISO 8601 timestamp, or the instant of one. -/
inductive Expiry where
  | malformed
  | moment (instant : Instant)
  deriving DecidableEq, Repr

/-- `normalize_expiry` / `_expiry`. -/
def normalizeExpiry : Option Expiry → Except Exc (Option Instant)
  | none => .ok none
  | some .malformed => .error (.valueError "expires_at must be an ISO 8601 timestamp")
  | some (.moment instant) => .ok (some instant)

/-- Neither the primary key nor the digest of a new token is taken. -/
def TokenStore.fits (s : TokenStore) (token : Token) : Bool :=
  (s.tokens.find token.id).isNone && (s.tokens.select (fun t => decide (t.digest = token.digest))).isEmpty

def insertToken (token : Token) : StoreTxn Unit := do
  let fits ← Txn.read (fun s => s.fits token)
  Txn.require fits (.integrityError "UNIQUE constraint failed: api_tokens")
  Txn.write (fun s => { s with tokens := (s.tokens.insertOrIgnore token).1 })

/-- What a creation draws: the token's id and secret, and its clock readings. -/
structure Drawn where
  ident : String
  secret : String
  issued : Instant
  now : Instant
  deriving DecidableEq, Repr

def checkName (name : String) (scopes : List String) : StoreTxn Unit :=
  Txn.require (!PgJobs.blank name && !scopes.isEmpty)
    (.valueError "token name and at least one scope are required")

def newToken (prim : Primitives) (name : String) (scopes : List String) (expiresAt : Option Instant)
    (ownerId : Option String) (tokenKind : String) (drawn : Drawn) : Token :=
  { id := drawn.ident, name := name, digest := prim.digest drawn.secret, scopes := scopes,
    createdAt := drawn.now, lastUsedAt := none, expiresAt := expiresAt, revokedAt := none,
    ownerId := ownerId, tokenKind := tokenKind }

/-- PostgreSQL refuses a NUL in the name, and its CHECK a name of spaces. -/
def checkColumns (name : String) : Backend → StoreTxn Unit
  | .sqlite => pure ()
  | .postgres => do
    Txn.require (PgJobs.storesText name) PgJobs.outOfRange
    Txn.require (name.toList.any (fun c => c ≠ ' '))
      (.integrityError "new row violates check constraint")

/-- `create`, in its own transaction. -/
def create (prim : Primitives) (backend : Backend) (name : String) (scopes : List String)
    (expiresAt : Option Expiry) (ownerId : Option String) (tokenKind : String) (drawn : Drawn) :
    StoreTxn Unit := do
  checkName name scopes
  let expiry ← Txn.ofExcept (normalizeExpiry expiresAt)
  Txn.atomically do
    checkColumns name backend
    insertToken (newToken prim name scopes expiry ownerId tokenKind drawn)

def Token.live (token : Token) (digest : String) (now : Instant) : Bool :=
  decide (token.digest = digest ∧ token.revokedAt = none) &&
    token.expiresAt.all (fun expires => decide (now < expires))

/-- The row `authenticate` selects. -/
def TokenStore.liveToken (s : TokenStore) (digest : String) (now : Instant) : Option Token :=
  (s.tokens.select (fun t => t.live digest now)).head?

/-- `row["owner_id"] or row["id"]`: the empty string is no owner. -/
def Token.principalId (token : Token) : String :=
  match token.ownerId with
  | none => token.id
  | some owner => if owner = "" then token.id else owner

def Token.principal (token : Token) : Principal := ⟨token.principalId, token.name, token.scopes⟩

def Token.used (token : Token) (now : Instant) : Token := { token with lastUsedAt := some now }

def authenticate (digest : String) (now : Instant) : StoreTxn (Option Principal) :=
  Txn.atomically do
    let row ← Txn.read (fun s => s.liveToken digest now)
    match row with
    | none => return none
    | some row =>
      let _ ← updateTokens (fun t => decide (t.id = row.id)) (fun t => t.used now) (fun _ => rfl)
      return some row.principal

def Token.revoked (token : Token) (now : Instant) : Token := { token with revokedAt := some now }

/-- `UPDATE api_tokens SET revoked_at WHERE p AND revoked_at IS NULL`. -/
def revokeWhere (p : Token → Bool) (now : Instant) : StoreTxn Bool :=
  updateTokens (fun t => p t && decide (t.revokedAt = none)) (fun t => t.revoked now) (fun _ => rfl)

def revoke (ident : String) (ownerId : Option String) (now : Instant) : StoreTxn Bool :=
  Txn.atomically (revokeWhere
    (fun t => decide (t.id = ident) && ownerId.all (fun owner => decide (t.ownerId = some owner))) now)

/-- `SELECT * FROM accounts WHERE email=? AND disabled_at IS NULL`. -/
def TokenStore.enabledAccount (s : TokenStore) (email : String) : Option Account :=
  (s.accounts.select (fun a => decide (a.email = email ∧ a.disabledAt = none))).head?

/-- What a login decides from the row it read. -/
inductive Verdict where
  | unknown
  | locked (row : Account)
  | wrong (row : Account)
  | right (row : Account)
  deriving DecidableEq, Repr

/-- The branches of `login_account`, on the row and the reading `now`. -/
def verdict (prim : Primitives) (password : String) (now : Instant) : Option Account → Verdict
  | none => .unknown
  | some row =>
    if row.lockedUntil.any (fun until_ => decide (now < until_)) then .locked row
    else if prim.password password row.passwordSalt ≠ row.passwordHash then .wrong row
    else .right row

/-- The lock a wrong guess sets: `None` below five failures. -/
def lockFor (failures : Nat) (now : Instant) : Option Instant :=
  if 5 ≤ failures then some (now + minutes 15) else none

def Account.counted (account : Account) (failures : Nat) (lockedUntil : Option Instant) : Account :=
  { account with failedLogins := failures, lockedUntil := lockedUntil }

/-- The largest number the column holds. -/
def maxFailures : Backend → Nat
  | .sqlite => Jobs.maxInteger.toNat
  | .postgres => PgJobs.maxInteger.toNat

/-- What a number that does not fit raises. -/
def tooManyFailures : Backend → Exc
  | .sqlite => .overflowError "Python int too large to convert to SQLite INTEGER"
  | .postgres => PgJobs.outOfRange

/-- `UPDATE accounts SET failed_logins=?,locked_until=? WHERE id=?`. -/
def setFailures (backend : Backend) (ident : String) (failures : Nat) (lockedUntil : Option Instant) :
    StoreTxn Unit := do
  Txn.require (decide (failures ≤ maxFailures backend)) (tooManyFailures backend)
  let _ ← updateAccount (fun a => decide (a.id = ident)) (fun a => a.counted failures lockedUntil)
    (fun _ => rfl)

/-- The scopes of a session, sorted. -/
def SESSION_SCOPES : List String :=
  ["companion:read", "companion:write", "jobs:read", "jobs:write", "runs:write"]

def SESSION_LIFE : Int := days 30

/-- The last transaction of a login on SQLite: the session token. -/
def createSession (prim : Primitives) (row : Account) (drawn : Drawn) : StoreTxn Unit :=
  create prim .sqlite row.displayName SESSION_SCOPES (some (.moment (drawn.issued + SESSION_LIFE)))
    (some row.id) "session" drawn

/-- `login_account` on PostgreSQL. `now` is read before the transaction. -/
def loginPostgres (prim : Primitives) (email password : String) (now : Instant) (drawn : Drawn) :
    StoreTxn Verdict :=
  Txn.atomically do
    Txn.require (PgJobs.storesText (prim.normalized email)) PgJobs.outOfRange
    let row ← Txn.read (fun s => s.enabledAccount (prim.normalized email))
    match verdict prim password now row with
    | .wrong row =>
      setFailures .postgres row.id (row.failedLogins + 1) (lockFor (row.failedLogins + 1) now)
      return .wrong row
    | .right row =>
      setFailures .postgres row.id 0 none
      checkColumns row.displayName .postgres
      insertToken (newToken prim row.displayName SESSION_SCOPES (some (drawn.issued + SESSION_LIFE))
        (some row.id) "session" drawn)
      return .right row
    | other => return other

/-- Revoke every token of an account. -/
def revokeOwned (accountId : String) (now : Instant) : StoreTxn Bool :=
  revokeWhere (fun t => decide (t.ownerId = some accountId)) now

/-- An UPDATE of an enabled account that also revokes its tokens: whether it matched. -/
def invalidate (accountId : String) (f : Account → Account) (keeps : ∀ a, (f a).id = a.id)
    (now : Instant) : StoreTxn Bool :=
  Txn.atomically do
    let changed ← updateAccount (fun a => decide (a.id = accountId ∧ a.disabledAt = none)) f keeps
    if changed then
      let _ ← revokeOwned accountId now
      return true
    else return false

def Account.rekeyed (account : Account) (passwordHash passwordSalt : String) : Account :=
  { account with passwordHash := passwordHash, passwordSalt := passwordSalt, failedLogins := 0,
                 lockedUntil := none }

def resetPassword (prim : Primitives) (accountId password salt : String) (now : Instant) :
    StoreTxn Bool := do
  Txn.require (decide (12 ≤ password.length ∧ password.length ≤ 200))
    (.valueError "password must be 12-200 characters")
  invalidate accountId (fun a => a.rekeyed (prim.password password salt) salt) (fun _ => rfl) now

def disableAccount (accountId : String) (now : Instant) : StoreTxn Bool :=
  invalidate accountId (fun a => { a with disabledAt := some now }) (fun _ => rfl) now

structure AccountTokenRequest where
  name : String
  scopes : List String
  expiresAt : Option Expiry
  deriving DecidableEq, Repr

/-- The answers of the route and its dependency that are not a token. -/
inductive Refusal where
  | unauthenticated
  | missingScope (scope : String)
  | unknownScopes (scopes : List String)
  | scopesExceedCaller
  deriving DecidableEq, Repr

def Refusal.status : Refusal → Nat
  | .unauthenticated => 401
  | .missingScope _ => 403
  | .unknownScopes _ => 422
  | .scopesExceedCaller => 403

/-- The dependency's test of a required scope. -/
def Principal.holds (principal : Principal) (required : String) : Bool :=
  principal.scopes.contains required || principal.scopes.contains "admin"

/-- `create_account_api_key` up to its `create`, on the principal the dependency found. -/
def checkApiKeyRequest (request : AccountTokenRequest) : Option Principal → Except Refusal Principal
  | none => .error .unauthenticated
  | some principal =>
    if !principal.holds "jobs:write" then .error (.missingScope "jobs:write")
    else if request.scopes.any (fun s => !SESSION_SCOPES.contains s) then
      .error (.unknownScopes (request.scopes.filter (fun s => !SESSION_SCOPES.contains s)))
    else if request.scopes.any (fun s => !principal.scopes.contains s) then
      .error .scopesExceedCaller
    else .ok principal

/-- The `create` of the route. -/
def createApiKey (prim : Primitives) (backend : Backend) (principal : Principal)
    (request : AccountTokenRequest) (drawn : Drawn) : StoreTxn Unit :=
  create prim backend request.name request.scopes request.expiresAt (some principal.id) "api" drawn

end Meemee.Source.Accounts
