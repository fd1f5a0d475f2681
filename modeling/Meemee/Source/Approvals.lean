import Meemee.Source.DeviceProtocol
import Meemee.Source.JsonbColumn
import Meemee.Source.JsonLoads
import Meemee.Source.WebhookRoutes

/-!
# ApprovalStore and the approval routes

`meemee/approvals.py`, its PostgreSQL sibling `meemee_persist_pg/approvals.py`, and
`grant_tool_approval` and `revoke_tool_approval` of `meemee/api.py`. SQLite keeps constraints as
JSON text and times as ISO text, PostgreSQL as `jsonb` and timestamps. `datetime.fromisoformat`, with
the shift to UTC, is a parameter. `None` for constraints or arguments is the JSON null.
-/
namespace Meemee.Source.Approvals
open Library Source.DeviceProtocol Source.JsonbColumn Source.Numbers
open Source.Entitlements (EntitlementStore)
open Source.JobCreation (Failure)
open Source.WebhookRoutes (valueErrorAs found)

/-- The number of a finite value, compared exactly. -/
def number : Json → Option ℚ
  | .int value => some value
  | .float (.finite repr) => some (floatValue repr)
  | _ => none

/-- `left.keys() == right.keys()`. -/
def sameNames (left right : List (String × Json)) : Bool :=
  left.all (fun field => right.any (fun other => decide (other.1 = field.1))) &&
    right.all (fun field => left.any (fun other => decide (other.1 = field.1)))

/-- `left is None and right is None`, or equal booleans, or equal strings. -/
def sameScalar : Json → Json → Bool
  | .null, .null => true
  | .bool a, .bool b => decide (a = b)
  | .str a, .str b => decide (a = b)
  | _, _ => false

mutual

/-- `equal` of `constraints_match`: booleans are no numbers. -/
def equal : Json → Json → Bool
  | .int value, right => decide (number right = some (value : ℚ))
  | .float (.finite repr), right => decide (number right = some (floatValue repr))
  | .arr items, right =>
    match right with
    | .arr others => equalItems items others
    | _ => false
  | .obj fields, right =>
    match right with
    | .obj others => sameNames fields others && equalFields fields others
    | _ => false
  | left, right => sameScalar left right

def equalItems : List Json → List Json → Bool
  | [], others => others.isEmpty
  | item :: rest, others =>
    match others with
    | other :: more => equal item other && equalItems rest more
    | [] => false

/-- Each name is there, with an equal value. -/
def equalFields : List (String × Json) → List (String × Json) → Bool
  | [], _ => true
  | (name, value) :: rest, others =>
    (match others.lookup name with
    | some other => equal value other
    | none => false) && equalFields rest others

end

/-- `{} if arguments is None else arguments`, if that is a dictionary. -/
def suppliedFields : Json → Option (List (String × Json))
  | .null => some []
  | .obj fields => some fields
  | _ => none

def constraintsMatch (constraints arguments : Json) : Bool :=
  match constraints with
  | .null => true
  | .obj fields => finiteFields fields && (suppliedFields arguments).any (equalFields fields)
  | _ => false

/-- A row of the grants; a time is a `τ` and constraints are a `χ`. -/
structure Grant (τ χ : Type) where
  principal : String
  tool : String
  grantedAt : τ
  expiresAt : Option τ
  revokedAt : Option τ
  grantedBy : String
  argumentConstraints : Option χ

section Grants

variable {τ χ : Type}

/-- `PRIMARY KEY(principal, tool)`. -/
def Grant.place (g : Grant τ χ) : String × String := (g.principal, g.tool)

abbrev Grants (τ χ : Type) := Table (Grant.place (τ := τ) (χ := χ))

variable [LT τ] [DecidableLT τ]

/-- `revoked_at IS NULL AND (expires_at IS NULL OR expires_at > current)`. -/
def Grant.active (current : τ) (g : Grant τ χ) : Bool :=
  g.revokedAt.isNone && g.expiresAt.all (fun expiry => decide (current < expiry))

def activeOf (principal : String) (current : τ) (g : Grant τ χ) : Bool :=
  decide (g.principal = principal) && g.active current

/-- `SELECT count(*) ...`. -/
def countActive (s : Grants τ χ) (principal : String) (current : τ) : Nat :=
  s.tally (activeOf principal current)

/-- The active grant of a tool. -/
def activeGrant (s : Grants τ χ) (principal tool : String) (current : τ) : Option (Grant τ χ) :=
  (s.find (principal, tool)).filter (Grant.active current)

omit [LT τ] [DecidableLT τ] in
def withRevoked (at_ : τ) (g : Grant τ χ) : Grant τ χ := { g with revokedAt := some at_ }

omit [LT τ] [DecidableLT τ] in
theorem withRevoked_place (at_ : τ) (g : Grant τ χ) : (withRevoked at_ g).place = g.place := rfl

def standing (principal tool : String) (g : Grant τ χ) : Bool :=
  decide (g.place = (principal, tool)) && g.revokedAt.isNone

/-- The UPDATE of `revoke`, and whether it matched. -/
def revokeGrant (principal tool : String) (at_ : τ) (s : Grants τ χ) : Bool × Grants τ χ :=
  (!(s.select (standing principal tool)).isEmpty,
    s.update (standing principal tool) (withRevoked at_) (withRevoked_place at_))

end Grants

/-- The arguments of `grant`, and the clock it reads. -/
structure GrantCall where
  principal : String
  tool : String
  grantedBy : String
  expiresAt : Option String
  argumentConstraints : Json
  now : Datetime

/-- `normalize_expiry`, before its text is written. -/
def normalizeExpiry (moment : String → Except Exc Datetime) :
    Option String → Except Exc (Option Datetime)
  | none => .ok none
  | some text => (moment text).map some

/-- What both stores check: the expiry in UTC. -/
def checkGrant (moment : String → Except Exc Datetime) (c : GrantCall) :
    Except Exc (Option Datetime) := do
  if c.principal = "" ∨ c.tool = "" ∨ c.grantedBy = "" then
    .error (.valueError "principal, tool and granted_by are required")
  validateConstraints c.argumentConstraints
  normalizeExpiry moment c.expiresAt

/-- A call on a store, with the clock it reads. -/
inductive Call where
  | grant (c : GrantCall)
  | revoke (principal tool : String) (now : Datetime)
  | allows (principal tool : String) (now : Datetime) (arguments : Json)
  | activeCount (principal : String) (now : Datetime)

inductive Answer where
  | done
  | flag (value : Bool)
  | count (n : Nat)
  deriving DecidableEq, Repr

namespace SQLite

abbrev TextGrants := Grants String String

abbrev GrantTxn := Txn TextGrants Exc

/-- `json.dumps(argument_constraints, sort_keys=True)`, of constraints that are not None. -/
def constraintText : Json → Except Exc (Option String)
  | .null => .ok none
  | constraints => (Json.dumps { sortKeys := true } constraints).map some

def grant (moment : String → Except Exc Datetime) (c : GrantCall) : GrantTxn Unit := do
  let expiry ← Txn.ofExcept (checkGrant moment c)
  let text ← Txn.ofExcept (constraintText c.argumentConstraints)
  Txn.write (fun s => s.replace ⟨c.principal, c.tool, c.now.isoformat,
    expiry.map Datetime.isoformat, none, c.grantedBy, text⟩)

/-- `json.loads(text) if text else None`. -/
def readConstraints : Option String → Except Exc Json
  | none => .ok .null
  | some text =>
    if text = "" then .ok .null
    else match JsonLoads.loads text with
      | some constraints => .ok constraints
      | none => .error (.valueError "Expecting value")

def allows (s : TextGrants) (principal tool : String) (now : Datetime) (arguments : Json) :
    Except Exc Bool :=
  match activeGrant s principal tool now.isoformat with
  | none => .ok false
  | some row => (readConstraints row.argumentConstraints).map (fun constraints =>
      constraintsMatch constraints arguments)

def revoke (principal tool : String) (now : Datetime) : GrantTxn Bool := fun s =>
  (.ok (revokeGrant principal tool now.isoformat s).1, (revokeGrant principal tool now.isoformat s).2)

def call (moment : String → Except Exc Datetime) (s : TextGrants) :
    Call → Except Exc Answer × TextGrants
  | .grant c => (grant moment c).answer (fun _ => .done) s
  | .revoke principal tool now => (revoke principal tool now).answer .flag s
  | .allows principal tool now arguments => ((allows s principal tool now arguments).map .flag, s)
  | .activeCount principal now => (.ok (.count (countActive s principal now.isoformat)), s)

end SQLite

namespace Postgres

abbrev TypedGrants := Grants Datetime Json

abbrev GrantTxn := Txn TypedGrants Exc

def nul : Exc := .dataError "PostgreSQL text fields cannot contain NUL (0x00) bytes"

/-- A parameter that is bound as text. -/
def bindText (text : String) : Except Exc Unit :=
  if PgJobs.storesText text then .ok () else .error nul

/-- The column of constraints that are not None. -/
def constraintColumn : Json → Except Exc (Option Json)
  | .null => .ok none
  | constraints => (jsonb constraints).map some

def grant (moment : String → Except Exc Datetime) (c : GrantCall) : GrantTxn Unit := do
  let expiry ← Txn.ofExcept (checkGrant moment c)
  Txn.ofExcept (bindText c.principal)
  Txn.ofExcept (bindText c.tool)
  Txn.ofExcept (bindText c.grantedBy)
  let column ← Txn.ofExcept (constraintColumn c.argumentConstraints)
  Txn.write (fun s => s.replace ⟨c.principal, c.tool, c.now, expiry, none, c.grantedBy, column⟩)

def allows (s : TypedGrants) (principal tool : String) (now : Datetime) (arguments : Json) :
    Except Exc Bool := do
  bindText principal
  bindText tool
  match activeGrant s principal tool now with
  | none => .ok false
  | some row => .ok (constraintsMatch (row.argumentConstraints.getD .null) arguments)

def revoke (principal tool : String) (now : Datetime) : GrantTxn Bool := do
  Txn.ofExcept (bindText principal)
  Txn.ofExcept (bindText tool)
  fun s => (.ok (revokeGrant principal tool now s).1, (revokeGrant principal tool now s).2)

def activeCount (s : TypedGrants) (principal : String) (now : Datetime) : Except Exc Nat := do
  bindText principal
  return countActive s principal now

def call (moment : String → Except Exc Datetime) (s : TypedGrants) :
    Call → Except Exc Answer × TypedGrants
  | .grant c => (grant moment c).answer (fun _ => .done) s
  | .revoke principal tool now => (revoke principal tool now).answer .flag s
  | .allows principal tool now arguments => ((allows s principal tool now arguments).map .flag, s)
  | .activeCount principal now => ((activeCount s principal now).map .count, s)

end Postgres

/-- The API process: its plans, its tools, and what it makes of an ISO text. -/
structure Deployment where
  entitlements : EntitlementStore
  /-- The names of `agent.tools.schemas()`. -/
  tools : List String
  moment : String → Except Exc Datetime

/-- `PUT /v1/approvals/{principal_id}`, with the clock readings of `allows`, `active_count` and
`grant`. -/
structure GrantRequest where
  principal : String
  tool : String
  expiresAt : Option String
  argumentConstraints : Json
  asked : Datetime
  counted : Datetime
  granted : Datetime

def GrantRequest.call (r : GrantRequest) : GrantCall :=
  ⟨r.principal, r.tool, "api-admin", r.expiresAt, r.argumentConstraints, r.granted⟩

/-- The plan has room for one more grant. -/
def Deployment.room (d : Deployment) (s : SQLite.TextGrants) (r : GrantRequest) : Bool :=
  d.entitlements.allows r.principal .persistentApprovals
    (countActive s r.principal r.counted.isoformat)

def Deployment.grantToolApproval (d : Deployment) (s : SQLite.TextGrants) (r : GrantRequest) :
    Except Failure Unit × SQLite.TextGrants :=
  if !d.tools.contains r.tool then (.error (.http 422 "unknown tool"), s)
  else match SQLite.allows s r.principal r.tool r.asked .null with
    | .error e => (.error (.raised e), s)
    | .ok alreadyActive =>
      if !alreadyActive && !d.room s r then
        (.error (.http 403 "plan persistent approval limit reached"), s)
      else
        let run := SQLite.grant d.moment r.call s
        (run.1.mapError (valueErrorAs 422), run.2)

def revokeToolApproval (s : SQLite.TextGrants) (principal tool : String) (now : Datetime) :
    Except Failure Unit × SQLite.TextGrants :=
  let run := revokeGrant principal tool now.isoformat s
  (found "active approval not found" run.1, run.2)

end Meemee.Source.Approvals
