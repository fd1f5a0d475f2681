import Meemee.Source.Goals
import Meemee.Source.Rows

/-!
# Companion replies

The store methods that `CompanionEngine.reply` writes with (`meemee/companion/store.py`) and the
reply itself (`meemee/companion/engine.py`), one access at a time. What it recalls for the prompt is
left out, as the model may answer anything. `scrub_text` is a parameter.
-/
namespace Meemee.Source.Companion
open Library Library.Ownership Source.PurgeTargets Source.Rows
open Source.PgJobs (strip)
open Source.Runs (nextId insertRow deleteIf)

def userColumns : List String :=
  ["display_name", "timezone", "persona", "checkins", "created_at", "updated_at"]

/-- A profile; `persona` and `checkins` are their JSON texts. -/
structure UserProfile where
  userId : String
  displayName : String
  timezone : String
  persona : String
  checkins : String

/-- `PersonaConfig().model_dump_json()`. -/
def defaultPersona : String :=
  "\x7b\"display_name\":\"Meemee\",\"tone\":\"warm, direct and honest\",\"style_rules\":[]," ++
    "\"language\":\"en\",\"use_emoji\":false,\"custom_instructions\":\"\"\x7d"

/-- `CheckInPreferences().model_dump_json()`. -/
def defaultCheckins : String :=
  "\x7b\"enabled\":false,\"cadence_minutes\":360,\"quiet_hours\":null,\"channel\":\"local\"," ++
    "\"address\":null\x7d"

def idStart (c : Char) : Bool := c.isAlphanum

def idPart (c : Char) : Bool := c.isAlphanum || c = '_' || c = '.' || c = '-'

/-- `USER_ID`: `[a-zA-Z0-9][a-zA-Z0-9_.-]{0,79}`. -/
def safeId (userId : String) : Bool :=
  match userId.toList with
  | [] => false
  | first :: rest => idStart first && rest.all idPart && decide (rest.length ≤ 79)

/-- `UserProfile(user_id=..., display_name=...)`. -/
def makeProfile (userId displayName : String) : Except Exc UserProfile :=
  if safeId userId then .ok ⟨userId, displayName, "UTC", defaultPersona, defaultCheckins⟩
  else .error (.valueError
    "user_id must be 1-80 characters of letters, digits, dot, dash or underscore")

def UserProfile.row (profile : UserProfile) (now : Instant) : StoredRow :=
  ⟨[.text profile.userId], some profile.userId, none, [.text profile.displayName,
    .text profile.timezone, .text profile.persona, .text profile.checkins, .integer now,
    .integer now]⟩

def hasProfile (userId : String) (s : Stores) : Bool :=
  ((s.tables .companionUsers).find [.text userId]).isSome

def upsertUser (profile : UserProfile) (now : Instant) : StoreTxn Unit := do
  let known ← Txn.read (hasProfile profile.userId)
  if known then
    updateRows .companionUsers userColumns (fun r => decide (r.key = [.text profile.userId]))
      [("display_name", .text profile.displayName), ("timezone", .text profile.timezone),
        ("persona", .text profile.persona), ("checkins", .text profile.checkins),
        ("updated_at", .integer now)]
  else insertOrIgnoreRow .companionUsers rfl (profile.row now)

def factColumns : List String :=
  ["category", "text", "confidence", "source", "superseded_by", "created_at", "updated_at"]

/-- A fact that pydantic took; `confidence` is a number of some fixed unit. -/
structure FactInput where
  category : String
  text : String
  confidence : Int
  deriving DecidableEq, Repr

variable (scrubText : String → String)

def sameFact (userId text : String) (r : StoredRow) : Bool :=
  decide (r.owner = some userId ∧ column factColumns "text" r = .text (scrubText text) ∧
    column factColumns "superseded_by" r = .null)

/-- `find_fact_text(...) is not None`. -/
def knowsFact (userId text : String) (s : Stores) : Bool :=
  (s.tables .companionFacts).rows.any (sameFact scrubText userId text)

def addFact (userId : String) (fact : FactInput) (source : String) (now : Instant) :
    StoreTxn Unit := do
  let ident ← Txn.read (fun s => nextId (s.tables .companionFacts).rows)
  insertRow .companionFacts rfl ⟨[.integer ident], some userId, none,
    [.text (strip fact.category), .text (scrubText fact.text), .integer fact.confidence,
      .text source, .null, .integer now, .integer now]⟩

def conversationColumns : List String := ["channel", "created_at", "last_message_at"]

/-- `ORDER BY last_message_at DESC, id DESC`. -/
def laterConversation (a b : StoredRow) : Bool :=
  let at_ (r : StoredRow) := integerOf (column conversationColumns "last_message_at" r)
  let ident (r : StoredRow) := (textOf (r.key.headD .null)).getD ""
  decide (at_ b < at_ a ∨ (at_ a = at_ b ∧ ident b < ident a))

def latestConversation (userId channel : String) (s : Stores) : Option String :=
  ((s.tables .companionConversations).first
    (fun r => decide (r.owner = some userId ∧
      column conversationColumns "channel" r = .text channel)) laterConversation).bind
    (fun r => textOf (r.key.headD .null))

def newConversation (ident userId channel : String) (now : Instant) : StoredRow :=
  ⟨[.text ident], some userId, none, [.text channel, .integer now, .integer now]⟩

/-- `start_conversation` under the id `uuid4` drew. -/
def startConversation (userId channel ident : String) (now : Instant) : StoreTxn String :=
  Txn.atomically do
    insertOrIgnoreRow .companionConversations rfl (newConversation ident userId channel now)
    let row ← Txn.read (fun s => (s.tables .companionConversations).find [.text ident])
    Txn.require (row.any (fun r => decide (r.owner = some userId ∧
      column conversationColumns "channel" r = .text channel)))
      (.valueError "conversation ID already belongs to another owner or channel")
    return ident

inductive MessageRole where
  | user | assistant | system
  deriving DecidableEq, Repr

def MessageRole.text : MessageRole → String
  | .user => "user"
  | .assistant => "assistant"
  | .system => "system"

def hasConversation (conversation : String) (s : Stores) : Bool :=
  ((s.tables .companionConversations).find [.text conversation]).isSome

/-- `add_message`: the id of the message. -/
def addMessage (conversation : String) (role : MessageRole) (content : String) (now : Instant) :
    StoreTxn Int :=
  Txn.atomically do
    let known ← Txn.read (hasConversation conversation)
    Txn.require known (.valueError ("unknown conversation: " ++ conversation))
    let ident ← Txn.read (fun s => nextId (s.tables .companionMessages).rows)
    insertRow .companionMessages rfl ⟨[.integer ident], none, some [.text conversation],
      [.text role.text, .text (scrubText content), .integer now]⟩
    updateRows .companionConversations conversationColumns
      (fun r => decide (r.key = [.text conversation])) [("last_message_at", .integer now)]
    return ident

/-- What a model says of how it came to its answer. -/
structure ModelTrace where
  role : Option String
  profile : Option String
  model : Option String
  attempts : Json

def recordModelTrace (message : Int) (conversation : String) (trace : ModelTrace)
    (now : Instant) : StoreTxn Unit :=
  Txn.atomically do
    let row ← Txn.read (fun s => (s.tables .companionMessages).find [.integer message])
    Txn.require row.isSome (.valueError "Unknown message for model trace")
    Txn.require (row.any (fun r => decide (r.of = some [.text conversation])))
      (.valueError "Model trace conversation does not match message")
    let attempts ← Txn.ofExcept (Json.dumps { sortKeys := true } trace.attempts)
    Txn.write (fun s => deleteIf s .companionMessageModels
      (fun r => decide (r.key = [.integer message])))
    insertRow .companionMessageModels rfl ⟨[.integer message], none, some [.text conversation],
      [nullable trace.role, nullable trace.profile, nullable trace.model, .text attempts,
        .integer now]⟩

structure ChatReply where
  conversationId : String
  reply : String
  factsLearned : Nat
  deriving DecidableEq, Repr

/-- How a reply ended: with its answer, an exception of a store or a check, or one of the model (or
its process died). -/
inductive ReplyEnd where
  | replied (reply : ChatReply)
  | raised (e : Exc)
  | stopped
  deriving DecidableEq

/-- Where a reply stands; the name says what comes next. -/
inductive ReplyPhase where
  | starting
  | enrolling (profile : UserProfile)
  | finding
  | opening
  | asking (conversation : String)
  | thinking (conversation : String)
  | answering (conversation reply : String)
  | tracing (conversation reply : String) (message : Int)
  | extracting (conversation reply : String)
  | learning (conversation reply : String) (facts : List FactInput) (learned : Nat)
  | adding (conversation reply : String) (fact : FactInput) (facts : List FactInput) (learned : Nat)
  | ended (result : ReplyEnd)

structure Reply where
  userId : String
  text : String
  channel : String
  conversationId : Option String
  phase : ReplyPhase

def Reply.at (r : Reply) (phase : ReplyPhase) : Reply := { r with phase := phase }

/-- What is up to others: the clock, the id `uuid4` draws, what the model says (`none`: it raised),
its trace, and the facts read off its second answer (none if that failed). -/
structure ReplyTurn where
  now : Instant
  ident : String
  answer : Option String
  trace : ModelTrace
  facts : List FactInput

/-- On with the reply, or out of it with what a store raised. -/
def Reply.after {α : Type} (r : Reply) (next : α → ReplyPhase) : Except Exc α → Reply
  | .ok a => r.at (next a)
  | .error e => r.at (.ended (.raised e))

/-- `ensure_profile`, once the profile was looked for. -/
def Reply.looked (r : Reply) (known : Bool) : Reply :=
  if known then r.at .finding
  else r.after ReplyPhase.enrolling (makeProfile r.userId r.userId)

/-- `_conversation`, up to `start_conversation`. -/
def Reply.found (r : Reply) (s : Stores) : Reply :=
  match r.conversationId.filter (fun ident => decide (ident ≠ "")) with
  | some ident =>
    if ((s.tables .companionConversations).find [.text ident]).any
        (fun row => decide (row.owner = some r.userId)) then r.at (.asking ident)
    else r.at (.ended (.raised (.valueError
      ("unknown conversation for user " ++ r.userId ++ ": " ++ ident))))
  | none =>
    match latestConversation r.userId r.channel s with
    | some ident => r.at (.asking ident)
    | none => r.at .opening

/-- The next access of a reply. -/
def Reply.next (r : Reply) (turn : ReplyTurn) (s : Stores) : Reply × Stores :=
  match r.phase with
  | .starting => (r.looked (hasProfile r.userId s), s)
  | .enrolling profile =>
    let (result, t) := upsertUser profile turn.now s
    (r.after (fun _ => .finding) result, t)
  | .finding => (r.found s, s)
  | .opening =>
    let (result, t) := startConversation r.userId r.channel turn.ident turn.now s
    (r.after .asking result, t)
  | .asking conversation =>
    let (result, t) := addMessage scrubText conversation .user r.text turn.now s
    (r.after (fun _ => .thinking conversation) result, t)
  | .thinking conversation =>
    match turn.answer with
    | some reply => (r.at (.answering conversation reply), s)
    | none => (r.at (.ended .stopped), s)
  | .answering conversation reply =>
    let (result, t) := addMessage scrubText conversation .assistant reply turn.now s
    (r.after (.tracing conversation reply) result, t)
  | .tracing conversation reply message =>
    let (result, t) := recordModelTrace message conversation turn.trace turn.now s
    (r.after (fun _ => .extracting conversation reply) result, t)
  | .extracting conversation reply => (r.at (.learning conversation reply turn.facts 0), s)
  | .learning conversation reply [] learned =>
    (r.at (.ended (.replied ⟨conversation, reply, learned⟩)), s)
  | .learning conversation reply (fact :: facts) learned =>
    (r.at (if knowsFact scrubText r.userId fact.text s then .learning conversation reply facts learned
      else .adding conversation reply fact facts learned), s)
  | .adding conversation reply fact facts learned =>
    let (result, t) := addFact scrubText r.userId fact ("conversation:" ++ conversation) turn.now s
    (r.after (fun _ => .learning conversation reply facts (learned + 1)) result, t)
  | .ended _ => (r, s)

end Meemee.Source.Companion
