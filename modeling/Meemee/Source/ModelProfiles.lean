import Meemee.Source.Accounts
import Meemee.Source.Audit
import Meemee.Source.JsonLoads

/-!
# Model profiles and routes

`meemee/model_profiles.py`: the profiles, the routes of the roles, and `RoutedModel._run`, which calls
the usable profiles of a route in order. What a call comes to is given; the environment, the file of a
document, the missing reason of the two transports inside the process and Python's texts of values are
parameters. Descriptions, source URLs and custom profiles whose name is no text are left out.
-/
namespace Meemee.Source.ModelProfiles
open Source.Audit (truthy)

inductive ProfileKind where
  | onHost | selfHosted | hostedPaid | hostedFree
  deriving DecidableEq, Repr

/-- `TRANSPORTS`. -/
inductive Transport where
  | openai | transformers | instinct
  deriving DecidableEq, Repr

structure ModelProfile where
  name : String
  baseUrl : String
  model : Json
  kind : ProfileKind
  apiKey : Json
  requiresKey : Bool
  transport : Transport
  instinctReason : Option String

/-- What the interpreter, the environment and the machine answer. -/
structure Host where
  env : String → Option String
  /-- The text of the file a path names, if it is one. -/
  readFile : String → Option (Except Exc String)
  /-- `str` and `repr` of a value. -/
  str : Json → String
  repr : Json → String
  /-- `str` of the JSONDecodeError for a text. -/
  decodeError : String → String
  transformersMissing : Option String
  /-- `_shared_reason(settings)`. -/
  sharedReason : Option String

structure Settings where
  modelBaseUrl : String
  modelName : String
  modelApiKey : String
  hfRouterBaseUrl : String
  hfInklingModel : String
  hfToken : Option String
  hfFallback : Bool
  inklingBaseUrl : String
  inklingSelfHostedModel : String
  inklingApiKey : Option String
  fuguModel : String
  fuguApiKey : Option String
  transformersModel : String
  modelProfiles : Option String
  modelRoutes : Option String
  allowPaidModels : Bool

def ModelProfile.paid (profile : ModelProfile) : Bool := decide (profile.kind = .hostedPaid)

def ModelProfile.unavailableReason (host : Host) (profile : ModelProfile) (allowPaid : Bool) :
    Option String :=
  if profile.transport = .transformers then host.transformersMissing
  else if profile.transport = .instinct then profile.instinctReason
  else if profile.requiresKey && !truthy profile.apiKey then some "no API key configured"
  else if profile.paid && !allowPaid then
    some "paid profile; set MEEMEE_ALLOW_PAID_MODELS=true to enable"
  else none

/-- `value or other`, of texts. -/
def orText (value : Option String) (other : Json) : Json :=
  match value with
  | some text => if text = "" then other else .str text
  | none => other

def textOrNone : Option String → Json
  | some text => .str text
  | none => .null

/-- A profile of the OpenAI transport. -/
def endpoint (name baseUrl model : String) (kind : ProfileKind) (apiKey : Json) (requiresKey : Bool) :
    ModelProfile :=
  { name := name, baseUrl := baseUrl, model := .str model, kind := kind, apiKey := apiKey,
    requiresKey := requiresKey, transport := .openai, instinctReason := none }

/-- A profile that runs inside the process. -/
def inProcess (name : String) (model : String) (transport : Transport) (reason : Option String) :
    ModelProfile :=
  { name := name, baseUrl := "", model := .str model, kind := .onHost, apiKey := .null,
    requiresKey := false, transport := transport, instinctReason := reason }

def builtinProfiles (host : Host) (settings : Settings) : List ModelProfile :=
  [endpoint "local" settings.modelBaseUrl settings.modelName .onHost
      (orText (some settings.modelApiKey) (.str "local")) false,
    endpoint "inkling" settings.hfRouterBaseUrl settings.hfInklingModel .hostedFree
      (textOrNone settings.hfToken) true,
    endpoint "inkling-large" settings.hfRouterBaseUrl "thinkingmachines/Inkling" .hostedFree
      (textOrNone settings.hfToken) true,
    endpoint "inkling-vllm" settings.inklingBaseUrl settings.inklingSelfHostedModel .selfHosted
      (orText settings.inklingApiKey (.str "local")) false,
    endpoint "fugu" "https://api.sakana.ai/v1" settings.fuguModel .hostedPaid
      (orText settings.fuguApiKey (textOrNone (host.env "SAKANA_API_KEY"))) true,
    inProcess "local-transformers" settings.transformersModel .transformers none,
    inProcess "shared" "instinct_models" .instinct host.sharedReason]

/-- `profiles[profile.name] = profile`. -/
def putProfile (profiles : List ModelProfile) (profile : ModelProfile) : List ModelProfile :=
  if profiles.any (fun p => decide (p.name = profile.name)) then
    profiles.map (fun p => if p.name = profile.name then profile else p)
  else profiles ++ [profile]

def kindOf : Json → Option ProfileKind
  | .str text =>
    if text = "local" then some .onHost
    else if text = "self_hosted" then some .selfHosted
    else if text = "hosted_paid" then some .hostedPaid
    else if text = "hosted_free" then some .hostedFree
    else none
  | _ => none

def transportOf : Json → Option Transport
  | .str text =>
    if text = "openai" then some .openai
    else if text = "transformers" then some .transformers
    else if text = "instinct" then some .instinct
    else none
  | _ => none

/-- `item.get(key, default)`. -/
def getOr (item : List (String × Json)) (key : String) (other : Json) : Json :=
  (item.lookup key).getD other

/-- `rstrip("/")`. -/
def stripSlashes (text : String) : String :=
  String.ofList (text.toList.reverse.dropWhile (fun c => decide (c = '/'))).reverse

/-- The key of a custom profile: of the environment, else of the document. -/
def customKey (host : Host) (item : List (String × Json)) : Except Exc Json :=
  let key := getOr item "api_key" .null
  match getOr item "api_key_env" .null with
  | .str keyEnv => .ok (if keyEnv = "" then key else orText (host.env keyEnv) key)
  | other => if truthy other then .error (.typeError "str expected") else .ok key

/-- `kind.startswith("hosted")`. -/
def ProfileKind.hosted : ProfileKind → Bool
  | .hostedPaid | .hostedFree => true
  | .onHost | .selfHosted => false

def requiredFields (transport : Transport) : List String :=
  if transport = .transformers then ["name", "model"] else ["name", "base_url", "model"]

/-- The profile of one item whose name is a text. -/
def customProfile (host : Host) (item : List (String × Json)) (name : String) (kind : ProfileKind)
    (transport : Transport) (apiKey : Json) : ModelProfile :=
  { name := name, baseUrl := stripSlashes (host.str (getOr item "base_url" (.str ""))),
    model := getOr item "model" .null, kind := kind, apiKey := apiKey,
    requiresKey := truthy
      (getOr item "requires_key" (.bool (kind.hosted && decide (transport = .openai)))),
    transport := transport, instinctReason := none }

/-- One item of the list, after its checks. -/
def addItem (host : Host) (out : List ModelProfile) (item : List (String × Json)) :
    Except Exc (List ModelProfile) :=
  match transportOf (getOr item "transport" (.str "openai")) with
  | none => .error (.valueError ("model profile " ++ host.repr (getOr item "name" .null) ++
      " has unknown transport " ++ host.repr (getOr item "transport" (.str "openai"))))
  | some transport =>
    let missing := (requiredFields transport).filter (fun key => !truthy (getOr item key .null))
    if !missing.isEmpty then
      .error (.valueError ("model profile missing fields: " ++ ", ".intercalate missing))
    else
      match kindOf (getOr item "kind" (.str "self_hosted")) with
      | none => .error (.valueError ("model profile " ++ host.repr (getOr item "name" .null) ++
          " has unknown kind " ++ host.repr (getOr item "kind" (.str "self_hosted"))))
      | some kind => do
        let apiKey ← customKey host item
        match getOr item "name" .null with
        | .str name => .ok (putProfile out (customProfile host item name kind transport apiKey))
        | .arr _ => .error (.typeError "unhashable type: 'list'")
        | .obj _ => .error (.typeError "unhashable type: 'dict'")
        | _ => .ok out

def addItems (host : Host) (out : List ModelProfile) : List Json → Except Exc (List ModelProfile)
  | [] => .ok out
  | .obj item :: rest => do
    let next ← addItem host out item
    addItems host next rest
  | _ :: _ => .error (.typeError "each model profile must be an object")

/-- The text of the document: the setting itself, or the file that it names. -/
def documentText (host : Host) (raw : String) : Except Exc String :=
  if (raw.toList.dropWhile PgJobs.isSpace).head? = some '[' then .ok raw
  else (host.readFile raw).getD (.ok raw)

def customProfiles (host : Host) (raw : Option String) : Except Exc (List ModelProfile) :=
  match raw with
  | none => .ok []
  | some raw =>
    if raw = "" then .ok []
    else do
      let text ← documentText host raw
      match JsonLoads.loads text with
      | none => .error (.valueError
          ("model profiles must be a JSON list or a path to one: " ++ host.decodeError text))
      | some (.arr items) => addItems host [] items
      | some _ => .error (.typeError "model profiles must be a JSON list")

def ROLES : List String := ["agent", "chat", "reflection"]

abbrev Routes := List (String × List String)

/-- `text.split(mark)`. -/
def splitAt (mark : Char) (text : String) : List String :=
  (text.toList.splitOnP (fun c => decide (c = mark))).map String.ofList

def defaultChain (settings : Settings) : List String :=
  if (settings.hfToken.getD "") ≠ "" ∧ settings.hfFallback then ["local", "inkling"] else ["local"]

/-- `routes[role] = chain`, of a role that is there. -/
def setRoute (routes : Routes) (role : String) (chain : List String) : Routes :=
  routes.map (fun route => if route.1 = role then (role, chain) else route)

/-- One part of the setting. -/
def addRoute (repr : Json → String) (routes : Routes) (part : String) : Except Exc Routes :=
  let text := PgJobs.strip part
  if text = "" then .ok routes
  else if !text.toList.contains '=' then
    .error (.valueError ("bad route " ++ repr (.str text) ++ "; expected role=profile[,profile]"))
  else
    let role := PgJobs.strip (String.ofList (text.toList.takeWhile (fun c => decide (c ≠ '='))))
    let names := String.ofList ((text.toList.dropWhile (fun c => decide (c ≠ '='))).drop 1)
    let chain := ((splitAt ',' (PgJobs.strip names)).map PgJobs.strip).filter
      (fun name => decide (name ≠ ""))
    if !ROLES.contains role then
      .error (.valueError ("unknown route role " ++ repr (.str role) ++ "; roles are " ++
        ", ".intercalate ROLES))
    else if chain.isEmpty then .error (.valueError ("route " ++ repr (.str role) ++ " has no profiles"))
    else .ok (setRoute routes role chain)

def addRoutes (repr : Json → String) (routes : Routes) : List String → Except Exc Routes
  | [] => .ok routes
  | part :: rest => do
    let next ← addRoute repr routes part
    addRoutes repr next rest

def parseRoutes (repr : Json → String) (raw : Option String) (chain : List String) : Except Exc Routes :=
  let routes := ROLES.map (fun role => (role, chain))
  match raw with
  | none => .ok routes
  | some raw => if raw = "" then .ok routes else addRoutes repr routes (splitAt ';' raw)

structure ModelCatalog where
  profiles : List ModelProfile
  routes : Routes
  allowPaid : Bool

def named (profiles : List ModelProfile) (name : String) : Option ModelProfile :=
  profiles.find? (fun profile => decide (profile.name = name))

/-- The check of the routes: the names of a route that are no profile's. -/
def checkRoutes (repr : Json → String) (profiles : List ModelProfile) : Routes → Except Exc Unit
  | [] => .ok ()
  | (role, chain) :: rest =>
    let unknown := chain.filter (fun name => (named profiles name).isNone)
    if unknown.isEmpty then checkRoutes repr profiles rest
    else .error (.valueError ("route " ++ repr (.str role) ++ " references unknown profiles: " ++
      ", ".intercalate unknown))

def ModelCatalog.fromSettings (host : Host) (settings : Settings) : Except Exc ModelCatalog := do
  let custom ← customProfiles host settings.modelProfiles
  let profiles := custom.foldl putProfile (builtinProfiles host settings)
  let routes ← parseRoutes host.repr settings.modelRoutes (defaultChain settings)
  checkRoutes host.repr profiles routes
  return ⟨profiles, routes, settings.allowPaidModels⟩

/-- The profiles of a role's route, in its order. -/
def ModelCatalog.route (catalog : ModelCatalog) (role : String) : List ModelProfile :=
  ((catalog.routes.lookup role).getD []).filterMap (named catalog.profiles)

/-- `if reason`: the reason a profile is skipped for. -/
def ModelCatalog.skips (host : Host) (catalog : ModelCatalog) (profile : ModelProfile) : Option String :=
  (profile.unavailableReason host catalog.allowPaid).filter (fun reason => decide (reason ≠ ""))

/-- `skipped[name] = reason`. -/
def putReason (skipped : List (String × String)) (entry : String × String) : List (String × String) :=
  if skipped.any (fun s => decide (s.1 = entry.1)) then
    skipped.map (fun s => if s.1 = entry.1 then entry else s)
  else skipped ++ [entry]

/-- `chain`: the usable profiles, and the reasons of the others. -/
def ModelCatalog.chain (host : Host) (catalog : ModelCatalog) (role : String) :
    List ModelProfile × List (String × String) :=
  let route := catalog.route role
  (route.filter (fun profile => (catalog.skips host profile).isNone),
    (route.filterMap (fun profile => (catalog.skips host profile).map (fun reason =>
      (profile.name, reason)))).foldl putReason [])

/-- What a call of a profile comes to: a value, a `ModelError`, or anything else it raises. -/
inductive Called (ρ ε : Type) where
  | value (v : ρ)
  | modelError (text : String)
  | raised (e : ε)

structure Attempt where
  profile : String
  outcome : String
  deriving DecidableEq, Repr

structure Trace where
  role : String
  profile : Option String
  model : Option Json
  attempts : List Attempt

/-- How a run ends. -/
inductive Result (ρ ε : Type) where
  | value (v : ρ)
  | modelError (text : String)
  | raised (e : ε)

/-- A run: its result, its trace, and the profiles it called. -/
structure Routed (ρ ε : Type) where
  result : Result ρ ε
  trace : Trace
  called : List ModelProfile

variable {ρ ε : Type}

/-- `str(exc)[:300]`. -/
def shortened (text : String) : String := String.ofList (text.toList.take 300)

/-- The loop over the usable profiles; `world` is what the calls come to, in their order. -/
def tryProfiles (role : String) (attempts : List Attempt) (errors : List String)
    (world : Nat → Called ρ ε) (repr : Json → String) : Nat → List ModelProfile → Routed ρ ε
  | _, [] =>
    ⟨.modelError ("all model profiles failed for role " ++ repr (.str role) ++ ": " ++
      " | ".intercalate errors), ⟨role, none, none, attempts⟩, []⟩
  | k, profile :: rest =>
    match world k with
    | .value v =>
      ⟨.value v, ⟨role, some profile.name, some profile.model,
        attempts ++ [⟨profile.name, "ok"⟩]⟩, [profile]⟩
    | .raised e => ⟨.raised e, ⟨role, none, none, attempts⟩, [profile]⟩
    | .modelError text =>
      let routed := tryProfiles role (attempts ++ [⟨profile.name, "failed: " ++ shortened text⟩])
        (errors ++ [profile.name ++ ": " ++ text]) world repr (k + 1) rest
      { routed with called := profile :: routed.called }

def run (host : Host) (catalog : ModelCatalog) (role : String) (world : Nat → Called ρ ε) :
    Routed ρ ε :=
  let chain := catalog.chain host role
  let attempts := chain.2.map (fun s => ⟨s.1, "skipped: " ++ s.2⟩)
  if chain.1.isEmpty then
    ⟨.modelError ("no usable model profile for role " ++ host.repr (.str role) ++ ": " ++
      host.repr (.obj (chain.2.map (fun s => (s.1, .str s.2))))), ⟨role, none, none, attempts⟩, []⟩
  else tryProfiles role attempts [] world host.repr 0 chain.1

end Meemee.Source.ModelProfiles
