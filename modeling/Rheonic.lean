import Rheonic.Lib.Program
import Rheonic.Lib.Interleave
import Rheonic.Lib.TtlStore
import Rheonic.Lib.SortedSet
import Rheonic.Lib.Tally
import Rheonic.Lib.PyText
import Rheonic.Keys
import Rheonic.Redis
import Rheonic.ProtectActionStore
import Rheonic.Finalize
import Rheonic.Lib.PriorityRegister
import Rheonic.OutcomeLedger
import Rheonic.OutcomeConservation
import Rheonic.FinalizeFootprint
import Rheonic.ConcurrentFinalize
import Rheonic.Lib.SlidingWindow
import Rheonic.RollingWindow
import Rheonic.IngestEvent
import Rheonic.IngestIdempotency
import Rheonic.ProtectService
import Rheonic.ProtectApi
import Rheonic.ProtectFootprint
import Rheonic.ProtectRuns
import Rheonic.Cooldown
import Rheonic.CapBound
import Rheonic.Lib.Pool
import Rheonic.Lib.RowTable
import Rheonic.RefreshSessionRepository
import Rheonic.AuthService
import Rheonic.TransportOutbox
import Rheonic.TransportService
import Rheonic.EnqueueRuns
import Rheonic.OutboxRuns
import Rheonic.ClaimRace
import Rheonic.IncidentManager
import Rheonic.IncidentServices
import Rheonic.IncidentEpisodes
import Rheonic.IncidentLifecycle
import Rheonic.IncidentRace
import Rheonic.SdkClient
import Rheonic.FinalizeAnswer
import Rheonic.ProtectBackend
import Rheonic.FallbackRace
import Rheonic.DuplicateReport
import Rheonic.IncidentAttribution
import Rheonic.FinalizeCounters
import Rheonic.WholeCalls
import Rheonic.ArrivalOrder
import Rheonic.Detectors
import Rheonic.KeyFamilies
import Rheonic.DetectionOrder
import Rheonic.IngestDetection
import Rheonic.StorageBounds
import Rheonic.Lib.Double
import Rheonic.ProtectEngine
import Rheonic.EngineBisimulation
import Rheonic.EngineCooldown
import Rheonic.Lib.FixedWindow
import Rheonic.ProtectMetrics
import Rheonic.CounterWindow
import Rheonic.TruncatedHistory
import Rheonic.MetricsService
import Rheonic.ProviderTotals
import Rheonic.Lib.TableView
import Rheonic.Lib.Unwinding
import Rheonic.UserApi
import Rheonic.TenantView
import Rheonic.ForeignCalls
import Rheonic.OutboxView
import Rheonic.OwnCalls
import Rheonic.TenantIsolation
import Rheonic.IngestKeys
import Rheonic.DecisionBounds
import Rheonic.EventQueue
import Rheonic.NodeQueue
import Rheonic.ClampContract
import Rheonic.Lib.JsNumber
import Rheonic.NodeAdapters
import Rheonic.PythonAdapters
import Rheonic.AdapterClamps
import Rheonic.PythonGoogle
import Rheonic.NodeGoogle
import Rheonic.GoogleClamps
import Rheonic.Lib.Effect
import Rheonic.PythonWrappers
import Rheonic.NodeWrappers
import Rheonic.Lib.Coupling
import Rheonic.ServiceSteps
import Rheonic.IncidentNames
import Rheonic.ProviderPadding
import Rheonic.GrowthWarnings
import Rheonic.EpisodeNames
import Rheonic.TokenUsage
import Rheonic.CooldownOwner
import Rheonic.KeyRotation
import Rheonic.OutcomeFaults
import Rheonic.WebhookDelivery
import Rheonic.EventBuilder
import Rheonic.NodeEventBuilder
import Rheonic.Lib.Json
import Rheonic.TransportDedupe
import Rheonic.LatencyRank
import Rheonic.RetryAfter
import Rheonic.Lib.FirstSeen
import Rheonic.PolicyGap
import Rheonic.LastDecision
import Rheonic.LogRedaction
import Rheonic.RateLimitRuns
import Rheonic.FrontendClient
import Rheonic.FrontendRuns
import Rheonic.EmailTemplates
import Rheonic.EmailMarkup
import Rheonic.Lib.Descent
import Rheonic.WorkerDrain
import Rheonic.Lib.JsonReader
import Rheonic.WebhookChain
import Rheonic.Lib.Frame
import Rheonic.FailModePolicy
import Rheonic.EmailRegistry
import Rheonic.EmailDelivery
import Rheonic.SessionAuth
import Rheonic.Lib.QuietGate
import Rheonic.ProtectAlerts
import Rheonic.AlertRuns
import Rheonic.AlertBudget
