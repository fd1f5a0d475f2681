import Meemee.Library.Ownership
import Meemee.Source.PgJobs

/-!
# The stores an account deletion empties

The delete methods of the stores in `PurgeTargets` (`meemee/account_deletion.py`), on SQLite. A row
is kept as its primary key, its owner column, the key of the row it belongs to, and its other
columns. Full-text indexes follow their tables by trigger and are left out.
-/
namespace Meemee.Source.PurgeTargets
open Library Library.Ownership

inductive TableName where
  | memories | memoryEmbeddings | runs | idempotency | quotaUsage | quotaLimits | principalPlans
  | toolApprovals | monitorSourceEvents | monitorEvents | monitors | personalItems | personalEvidence
  | contextRecords | contextSources | webhookSubscriptions | webhookDeliveries | webhookAttempts
  | companionDestinationChallenges | companionDestinationGrants | companionMessages
  | companionMessageModels | companionConversations | companionFacts | companionCheckins
  | companionUsers | browserSessionEvents | browserTakeovers | browserSessions
  | browserTakeoverNotices | reflectionRuns
  deriving DecidableEq, Repr

/-- The value of a column. -/
inductive Cell where
  | null
  | integer (value : Int)
  | text (value : String)
  deriving DecidableEq, Repr

abbrev Key := List Cell

abbrev StoredRow := Row Key String (List Cell)

abbrev Tables := Database TableName Key String (List Cell)

/-- The tables through which a row without an owner column has its owner. -/
def ownerPath : TableName → List TableName
  | .memoryEmbeddings => [.memories]
  | .webhookDeliveries => [.webhookSubscriptions]
  | .webhookAttempts => [.webhookDeliveries, .webhookSubscriptions]
  | .companionMessages | .companionMessageModels => [.companionConversations]
  | .browserSessionEvents | .browserTakeovers => [.browserSessions]
  | _ => []

/-- Evidence carries the owner of the item it is about, as `_upsert_locked` writes it. -/
def EvidenceOwned (tables : Tables) : Prop :=
  ∀ e ∈ tables .personalEvidence, ∀ k item, e.of = some k →
    (tables .personalItems).find k = some item → e.owner = item.owner

theorem evidenceOwned_of_sub {before after : Tables} (owned : EvidenceOwned before)
    (sub : ∀ t, ∀ r ∈ after t, r ∈ before t) : EvidenceOwned after := by
  intro e stored k item names found
  apply owned e (sub _ e stored) k item names
  exact Table.find_some_iff.mpr ⟨sub _ item (Table.mem_of_find found), Table.key_of_find found⟩

theorem mem_of_deleteOwned {tables : Tables} {w : String} {t u : TableName} {path : List TableName}
    {r : StoredRow} (stored : r ∈ deleteOwned tables w t path u) : r ∈ tables u := by
  by_cases here : u = t
  · subst here
    rw [deleteOwned_self] at stored
    exact (Table.mem_delete.mp stored).1
  · rw [deleteOwned_other here] at stored
    exact stored

theorem evidenceOwned_deleteOwned {tables : Tables} (owned : EvidenceOwned tables) (w : String)
    (t : TableName) (path : List TableName) : EvidenceOwned (deleteOwned tables w t path) :=
  evidenceOwned_of_sub owned (fun _ _ stored => mem_of_deleteOwned stored)

/-- The target stores. -/
structure Stores where
  tables : Tables
  evidenceOwned : EvidenceOwned tables
  jobs : Jobs.JobStore

abbrev StoreTxn := Txn Stores Exc

abbrev Counts := List (String × Nat)

/-- `DELETE FROM t WHERE` a row is the principal's, by the path of its owner. -/
def Stores.delete (s : Stores) (principal : String) (t : TableName) (path : List TableName) :
    Stores where
  tables := deleteOwned s.tables principal t path
  evidenceOwned := evidenceOwned_deleteOwned s.evidenceOwned principal t path
  jobs := s.jobs

/-- The statement and its `rowcount`. -/
def deleteWhere (principal : String) (t : TableName) (path : List TableName) : StoreTxn Nat := do
  let matched ← Txn.read (fun s => (s.tables t).select (belongs s.tables principal path))
  Txn.write (fun s => s.delete principal t path)
  return matched.length

def deleteRows (principal : String) (t : TableName) : StoreTxn Nat :=
  deleteWhere principal t (ownerPath t)

/-- `MemoryStore.purge_owner`. -/
def memoryPurgeOwner (ownerId : String) : StoreTxn Nat := do
  Txn.require (!PgJobs.blank ownerId) (.valueError "owner_id is required")
  Txn.atomically do
    let _ ← deleteRows ownerId .memoryEmbeddings
    deleteRows ownerId .memories

def Stores.runIds (s : Stores) (principal : String) : List Key :=
  ((s.tables .runs).select (fun r => decide (r.owner = some principal))).map Row.key

/-- `JobStore.run_ids_for_principal`; `runId` reads a run id off a stored result. -/
def Stores.runIdsForPrincipal (s : Stores) (runId : String → Option String) (principal : String) :
    List Key :=
  (s.jobs.jobs.select (Jobs.ownedBy principal)).filterMap
    (fun job => (job.result.bind runId).map (fun ident => [.text ident]))

/-- `RunStore.delete_principal`. -/
def runsDeletePrincipal (principal : String) : StoreTxn Nat := do
  Txn.require (decide (principal ≠ "")) (.valueError "principal is required")
  Txn.atomically (deleteRows principal .runs)

/-- `JobStore.purge_principal`. -/
def jobsPurgePrincipal (principal : String) (now : Instant) : StoreTxn Counts := do
  let counts ← Txn.within Stores.jobs (fun s jobs => { s with jobs := jobs })
    (Jobs.purgePrincipal principal now)
  return [("jobs_deleted", counts.jobsDeleted), ("job_events_deleted", counts.jobEventsDeleted),
    ("running_tombstoned", counts.runningTombstoned)]

/-- `IdempotencyStore.delete_principal`. -/
def idempotencyDeletePrincipal (principal : String) : StoreTxn Nat :=
  Txn.atomically (deleteRows principal .idempotency)

/-- `EntitlementStore.delete_principal`. -/
def entitlementsDeletePrincipal (principal : String) : StoreTxn Nat :=
  Txn.atomically (deleteRows principal .principalPlans)

/-- `ApprovalStore.delete_principal`. -/
def approvalsDeletePrincipal (principal : String) : StoreTxn Nat :=
  Txn.atomically (deleteRows principal .toolApprovals)

/-- `ReflectionSchedule.delete_owner`. -/
def reflectionScheduleDeleteOwner (ownerId : String) : StoreTxn Nat :=
  Txn.atomically (deleteRows ownerId .reflectionRuns)

/-- `TakeoverNoticeQueue.delete_user`. -/
def browserNoticesDeleteUser (userId : String) : StoreTxn Counts :=
  Txn.atomically do
    let count ← deleteRows userId .browserTakeoverNotices
    return [("browser_notices", count)]

/-- `QuotaStore.delete_principal`. -/
def quotasDeletePrincipal (principal : String) : StoreTxn Counts :=
  Txn.atomically do
    let usage ← deleteRows principal .quotaUsage
    let limits ← deleteRows principal .quotaLimits
    return [("quota_usage", usage), ("quota_limits", limits)]

/-- `MonitorStore.delete_owner`. -/
def monitorsDeleteOwner (ownerId : String) : StoreTxn Counts := do
  Txn.require (decide (ownerId ≠ "")) (.valueError "owner is required")
  Txn.atomically do
    let _ ← deleteRows ownerId .monitorSourceEvents
    let events ← deleteRows ownerId .monitorEvents
    let monitors ← deleteRows ownerId .monitors
    return [("monitors", monitors), ("monitor_events", events)]

/-- `PersonalModelStore.purge_owner`: evidence by its owner, then by the owner of its item. -/
def personalModelPurgeOwner (ownerId : String) : StoreTxn Counts := do
  Txn.require (decide (ownerId ≠ "")) (.valueError "owner is required")
  Txn.atomically do
    let own ← deleteRows ownerId .personalEvidence
    let about ← deleteWhere ownerId .personalEvidence [.personalItems]
    let items ← deleteRows ownerId .personalItems
    return [("personal_items", items), ("personal_evidence", own + about)]

/-- `ContextStore.purge_owner`. -/
def contextPurgeOwner (ownerId : String) : StoreTxn Counts := do
  Txn.require (decide (ownerId ≠ "")) (.valueError "owner is required")
  Txn.atomically do
    let records ← deleteRows ownerId .contextRecords
    let sources ← deleteRows ownerId .contextSources
    return [("context_records", records), ("context_sources", sources)]

/-- `WebhookStore.delete_principal`: the attempts of its deliveries, these, then the
subscriptions. -/
def webhooksDeletePrincipal (principal : String) : StoreTxn Counts := do
  Txn.require (decide (principal ≠ "")) (.valueError "principal is required")
  Txn.atomically do
    let attempts ← deleteRows principal .webhookAttempts
    let deliveries ← deleteRows principal .webhookDeliveries
    let removed ← deleteRows principal .webhookSubscriptions
    return [("webhook_subscriptions", removed), ("webhook_deliveries", deliveries),
      ("webhook_attempts", attempts)]

/-- `CompanionStore.delete_user_data`. -/
def companionDeleteUserData (userId : String) : StoreTxn Counts :=
  Txn.atomically do
    let messages ← deleteRows userId .companionMessages
    let traces ← deleteRows userId .companionMessageModels
    let challenges ← deleteRows userId .companionDestinationChallenges
    let grants ← deleteRows userId .companionDestinationGrants
    let conversations ← deleteRows userId .companionConversations
    let facts ← deleteRows userId .companionFacts
    let checkins ← deleteRows userId .companionCheckins
    let profiles ← deleteRows userId .companionUsers
    return [("destination_challenges", challenges), ("destination_grants", grants),
      ("messages", messages), ("model_traces", traces), ("conversations", conversations),
      ("facts", facts), ("checkins", checkins), ("profiles", profiles)]

/-- `BrowserSessionStore.delete_owner`. -/
def browserSessionsDeleteOwner (ownerId : String) : StoreTxn Counts :=
  Txn.atomically do
    let events ← deleteRows ownerId .browserSessionEvents
    let takeovers ← deleteRows ownerId .browserTakeovers
    let sessions ← deleteRows ownerId .browserSessions
    return [("browser_sessions", sessions), ("browser_takeovers", takeovers),
      ("browser_events", events)]

end Meemee.Source.PurgeTargets
