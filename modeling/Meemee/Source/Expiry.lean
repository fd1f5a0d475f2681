import Meemee.Library.Gregorian
import Meemee.Source.Approvals

/-!
# Expiries of grants and API tokens

`normalize_expiry` and `utc_moment` of `meemee/approvals.py`, with the shift to UTC, and the tokens
of `meemee/auth.py`: `TokenStore.create`, `authenticate`, `introspect`, `revoke`, `token_state` and
`token_introspection`. A column holds a time as its ISO text. `datetime.fromisoformat` is the
parameter `fromisoformat`, none where it raises ValueError, and SHA-256 is the parameter `sha256`.
-/
namespace Meemee.Source.Expiry
open Library Library.Gregorian
open Source.Approvals (SQLite.TextGrants)

def dateOf (t : Datetime) : Date := ⟨t.year, t.month, t.day⟩

/-- The microseconds since midnight. -/
def dayTime (t : Datetime) : Nat :=
  ((t.hour * 60 + t.minute) * 60 + t.second) * 1000000 + t.microsecond

def dayLength : Nat := 86400000000

/-- A `datetime`: its fields, and its UTC offset in microseconds, which a naive one does not
have. -/
structure Moment where
  wall : Datetime
  offset : Option Int
  real : (dateOf wall).Real
  bounded : -(dayLength : Int) < offset.getD 0 ∧ offset.getD 0 < dayLength

/-- The instant of a UTC datetime, in microseconds. -/
def instantOf (t : Datetime) : Int := (dateOf t).ordinal * dayLength + dayTime t

/-- The instant of a datetime; a naive one is read as UTC. -/
def Moment.instant (m : Moment) : Int := instantOf m.wall - m.offset.getD 0

/-- The datetime of a date and the microseconds since its midnight. -/
def compose (d : Date) (time : Nat) : Except Exc Datetime :=
  if valid : (1 ≤ d.year ∧ d.year ≤ 9999) ∧ (1 ≤ d.month ∧ d.month ≤ 12) ∧ (1 ≤ d.day ∧ d.day ≤ 31) ∧
      time / 3600000000 ≤ 23 ∧ time / 60000000 % 60 ≤ 59 ∧ time / 1000000 % 60 ≤ 59 ∧
        time % 1000000 ≤ 999999 then
    .ok ⟨d.year, d.month, d.day, time / 3600000000, time / 60000000 % 60, time / 1000000 % 60,
      time % 1000000, valid⟩
  else .error (.overflowError "date value out of range")

/-- `utc_moment`, and the last steps of `normalize_expiry`: `astimezone(timezone.utc)`, after a naive
datetime was given the offset of UTC. -/
def utcMoment (m : Moment) : Except Exc Datetime :=
  let time := (dayTime m.wall : Int) - m.offset.getD 0
  if time < 0 then compose (dateOf m.wall).previous (time + dayLength).toNat
  else if (dayLength : Int) ≤ time then compose (dateOf m.wall).next (time - dayLength).toNat
  else compose (dateOf m.wall) time.toNat

/-- The text `normalize_expiry` parses. -/
def cleaned (value : String) : String :=
  let text := (PgJobs.strip value).toList
  if text.getLast? = some 'Z' ∨ text.getLast? = some 'z' then
    String.ofList (text.dropLast ++ "+00:00".toList)
  else String.ofList text

/-- `normalize_expiry` of a text, before the result is written. -/
def normalized (fromisoformat : String → Option Moment) (value : String) : Except Exc Datetime :=
  match fromisoformat (cleaned value) with
  | none => .error (.valueError "expires_at must be an ISO 8601 timestamp")
  | some moment => utcMoment moment

/-- `ApprovalStore.allows` with a `now` of the caller's. -/
def allows (s : SQLite.TextGrants) (principal tool : String) (now : Moment) (arguments : Json) :
    Except Exc Bool := do
  let current ← utcMoment now
  Approvals.SQLite.allows s principal tool current arguments

/-- `ApprovalStore.active_count` with a `now` of the caller's. -/
def activeCount (s : SQLite.TextGrants) (principal : String) (now : Moment) : Except Exc Nat := do
  let current ← utcMoment now
  return Approvals.countActive s principal current.isoformat

/-- A row of `api_tokens`. -/
structure TokenRow where
  id : String
  name : String
  digest : String
  scopes : List String
  createdAt : String
  lastUsedAt : Option String
  expiresAt : Option String
  revokedAt : Option String
  ownerId : Option String
  tokenKind : String

/-- `digest BLOB NOT NULL UNIQUE`. -/
abbrev Tokens := Table TokenRow.digest

abbrev TokenTxn := Txn Tokens Exc

/-- The arguments of `create`, the name and the secret it draws, and the clock it reads. -/
structure CreateCall where
  name : String
  scopes : List String
  expiresAt : Option String
  ownerId : Option String
  tokenKind : String
  ident : String
  secret : String
  now : Datetime

def create (fromisoformat : String → Option Moment) (sha256 : String → String) (c : CreateCall) :
    TokenTxn (String × String) := do
  Txn.require (!PgJobs.blank c.name && !c.scopes.isEmpty)
    (.valueError "token name and at least one scope are required")
  let expiry ← Txn.ofExcept (Approvals.normalizeExpiry (normalized fromisoformat) c.expiresAt)
  let taken ← Txn.read (fun s => (s.find (sha256 ("mee_" ++ c.secret))).isSome ||
    !(s.select (fun row => decide (row.id = c.ident))).isEmpty)
  Txn.require (!taken) (.integrityError "UNIQUE constraint failed")
  Txn.write (fun s => s.replace ⟨c.ident, c.name, sha256 ("mee_" ++ c.secret), c.scopes,
    c.now.isoformat, none, expiry.map Datetime.isoformat, none, c.ownerId, c.tokenKind⟩)
  return (c.ident, "mee_" ++ c.secret)

/-- `revoked_at IS NULL AND (expires_at IS NULL OR expires_at > now)`. -/
def TokenRow.live (now : String) (row : TokenRow) : Bool :=
  row.revokedAt.isNone && row.expiresAt.all (fun expiry => decide (now < expiry))

/-- `left or right` of a column that may be NULL. -/
def orElse (left : Option String) (right : String) : String :=
  match left with
  | none => right
  | some text => if text = "" then right else text

structure Principal where
  id : String
  name : String
  scopes : List String

def TokenRow.used (now : String) (row : TokenRow) : TokenRow := { row with lastUsedAt := some now }

theorem used_digest (now : String) (row : TokenRow) : (row.used now).digest = row.digest := rfl

def authenticate (sha256 : String → String) (token : String) (now : Datetime) :
    TokenTxn (Option Principal) := do
  let found ← Txn.read (fun s => (s.find (sha256 token)).filter (TokenRow.live now.isoformat))
  match found with
  | none => return none
  | some row =>
    Txn.write (fun s => s.update (fun other => decide (other.id = row.id)) (TokenRow.used now.isoformat)
      (used_digest now.isoformat))
    return some ⟨orElse row.ownerId row.id, row.name, row.scopes⟩

inductive TokenState where
  | active | revoked | expired
  deriving DecidableEq, Repr

/-- `text.replace("Z", "+00:00")`. -/
def replaceZ (text : String) : String :=
  String.ofList (text.toList.flatMap (fun c => if c = 'Z' then "+00:00".toList else [c]))

def tokenState (fromisoformat : String → Option Moment) (revokedAt expiresAt : Option String)
    (now : Datetime) : TokenState :=
  if revokedAt.any (fun text => decide (text ≠ "")) then .revoked
  else
    match expiresAt.filter (fun text => decide (text ≠ "")) with
    | none => .active
    | some text =>
      match fromisoformat (replaceZ text) with
      | none => .expired
      | some expiry => if expiry.instant ≤ instantOf now then .expired else .active

/-- What `token_introspection` returns. -/
structure Introspection where
  active : Bool
  state : TokenState
  credential : String
  id : String
  name : String
  scopes : List String
  principal : String
  tokenKind : String
  createdAt : String
  lastUsedAt : Option String
  expiresAt : Option String
  revokedAt : Option String

def tokenIntrospection (fromisoformat : String → Option Moment) (row : TokenRow) (now : Datetime) :
    Introspection :=
  let state := tokenState fromisoformat row.revokedAt row.expiresAt now
  { active := decide (state = .active), state, credential := "api_token", id := row.id
    name := row.name, scopes := row.scopes, principal := orElse row.ownerId row.id
    tokenKind := orElse (some row.tokenKind) "api", createdAt := row.createdAt
    lastUsedAt := row.lastUsedAt, expiresAt := row.expiresAt, revokedAt := row.revokedAt }

def introspect (fromisoformat : String → Option Moment) (sha256 : String → String) (s : Tokens)
    (token : String) (now : Datetime) : Option Introspection :=
  (s.find (sha256 token)).map (fun row => tokenIntrospection fromisoformat row now)

def TokenRow.revoke (now : String) (row : TokenRow) : TokenRow := { row with revokedAt := some now }

theorem revoke_digest (now : String) (row : TokenRow) : (row.revoke now).digest = row.digest := rfl

/-- The UPDATE of `revoke`, `reset_password` and `disable_account`: tokens that are not revoked. -/
def revokeWhere (p : TokenRow → Bool) (now : Datetime) : TokenTxn Unit :=
  Txn.write (fun s => s.update (fun row => p row && row.revokedAt.isNone) (TokenRow.revoke now.isoformat)
    (revoke_digest now.isoformat))

def revoke (ident : String) (ownerId : Option String) (now : Datetime) : TokenTxn Unit :=
  revokeWhere (fun row => decide (row.id = ident) && ownerId.all (fun owner =>
    decide (row.ownerId = some owner))) now

/-- What changes the table of tokens. -/
inductive Call where
  | create (c : CreateCall)
  | authenticate (token : String) (now : Datetime)
  | revoke (ident : String) (ownerId : Option String) (now : Datetime)
  /-- The end of `reset_password` and `disable_account`. -/
  | revokeOwned (ownerId : String) (now : Datetime)

inductive Answer where
  | created (ident token : String)
  | authenticated (principal : Option Principal)
  | done

def call (fromisoformat : String → Option Moment) (sha256 : String → String) (s : Tokens) :
    Call → Except Exc Answer × Tokens
  | .create c => (create fromisoformat sha256 c).answer (fun pair => .created pair.1 pair.2) s
  | .authenticate token now => (authenticate sha256 token now).answer .authenticated s
  | .revoke ident ownerId now => (revoke ident ownerId now).answer (fun _ => .done) s
  | .revokeOwned ownerId now =>
    (revokeWhere (fun row => decide (row.ownerId = some ownerId)) now).answer (fun _ => .done) s

end Meemee.Source.Expiry
