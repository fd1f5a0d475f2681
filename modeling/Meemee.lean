import Meemee.Guarantees.LeaseFencing
import Meemee.Guarantees.WorkerSurvival
import Meemee.Guarantees.TerminalWebhook
import Meemee.Guarantees.SessionInvalidation
import Meemee.Guarantees.LoginLockout
import Meemee.Guarantees.JobBooking
import Meemee.Guarantees.PlanBackends
import Meemee.Guarantees.PlanConcurrency
import Meemee.Guarantees.MonitorFiring
import Meemee.Guarantees.IdempotencyRecords
import Meemee.Guarantees.GoalIsolation
import Meemee.Guarantees.AgentGating
import Meemee.Guarantees.DeliveryBudget
import Meemee.Guarantees.LateWrites
import Meemee.Guarantees.LateBackground
import Meemee.Guarantees.MemoryVectors
import Meemee.Guarantees.CommandReplay
import Meemee.Guarantees.DeviceRegistry
import Meemee.Guarantees.DestinationControl
import Meemee.Guarantees.KeyRotation
import Meemee.Guarantees.PgPersonal
import Meemee.Guarantees.WebhookLimit
import Meemee.Guarantees.Pagination
import Meemee.Guarantees.CheckpointJournal
import Meemee.Guarantees.ApprovalLimit
import Meemee.Guarantees.ApprovalBackends
import Meemee.Guarantees.NoticeDelivery
import Meemee.Guarantees.EmailLinks
import Meemee.Guarantees.ReflectionBound
import Meemee.Guarantees.MigrationLedger
import Meemee.Guarantees.SuggestedGrant
import Meemee.Guarantees.AgentReports
import Meemee.Guarantees.UnreadableSecrets
import Meemee.Guarantees.PathPolicy
import Meemee.Guarantees.QuietSlots
import Meemee.Guarantees.LocalCompletion
import Meemee.Guarantees.StreamResume
import Meemee.Guarantees.SseStream
import Meemee.Guarantees.SseRoundTrip
import Meemee.Guarantees.HealthOrder
import Meemee.Guarantees.QuotaAccounting
import Meemee.Guarantees.WebhookSignature
import Meemee.Guarantees.WebhookEnqueue
import Meemee.Guarantees.AuditMetadata
import Meemee.Guarantees.ModelRetries
import Meemee.Guarantees.ModelRouting
import Meemee.Guarantees.ScrubMarkers
import Meemee.Guarantees.RateLimiting
import Meemee.Guarantees.PlanGraph
import Meemee.Guarantees.SearchPhrases
import Meemee.Guarantees.ObjectExtraction
import Meemee.Guarantees.PayloadIdentity
import Meemee.Guarantees.ContextAssembly
import Meemee.Guarantees.RedactionAlike
import Meemee.Guarantees.RetrySafety
import Meemee.Guarantees.CommandTransport
import Meemee.Guarantees.MemoryReindex
