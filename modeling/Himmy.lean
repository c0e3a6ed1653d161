import Himmy.Storage.Holder
import Himmy.Storage.DedupOwner
import Himmy.Storage.DedupProbe
import Himmy.Application.RetryDecision
import Himmy.Application.LeaseFencing
import Himmy.Application.LeaseRenewal
import Himmy.Application.RetryBudget
import Himmy.Application.Quota
import Himmy.Runtime.ExactlyOnce
import Himmy.Orchestrators.GraphPause
import Himmy.Entities.ChainTampering
import Himmy.Storage.KeyRotation
import Himmy.Governance.Reregistration
import Himmy.Memory.Confinement
import Himmy.Memory.History
import Himmy.Memory.VersionChain
import Himmy.Governance.ConsentRaces
import Himmy.Governance.Shredding
import Himmy.Governance.KeyGrowth
import Himmy.Governance.Erasure
import Himmy.Inference.Accounting
import Himmy.Inference.CacheScope
import Himmy.Knowledge.Isolation
import Himmy.Runtime.TurnBudget
import Himmy.Runtime.ToolRetry
import Himmy.Runtime.OutputGuard
import Himmy.Runtime.StreamedLoop
import Himmy.Tools.Ambient
import Himmy.Toolkit.Egress
import Himmy.Tools.Pagination
import Himmy.Tools.Validation
import Himmy.Tools.LenientArgs
import Himmy.Tools.EndpointShape
import Himmy.Guardrails.Enforcement
import Himmy.Knowledge.CacheCoherence
import Himmy.Knowledge.Upsert
import Himmy.Routines.Isolation
import Himmy.Routines.Quota
import Himmy.Connectors.Idempotency
import Himmy.Connectors.Deliveries
import Himmy.Connectors.Callback
import Himmy.Application.Refusal
import Himmy.Application.RunThreads
import Himmy.Orchestrators.Members
import Himmy.Application.ResumeSettlement
import Himmy.Application.WorkflowRuns
import Himmy.Orchestrators.WorkflowResume
import Himmy.Orchestrators.TeamSpend
import Himmy.Storage.Retention
import Himmy.Storage.EventLog
import Himmy.Entities.ChainAudit
import Himmy.Memory.Graph
import Himmy.Memory.PointInTime
import Himmy.Orchestrators.GraphBounds
import Himmy.Entities.RegistryTwins
import Himmy.Storage.ConversationIsolation
import Himmy.Knowledge.MarkdownChunker
import Himmy.Inference.GemmaCalls
import Himmy.Knowledge.HybridOrder
import Himmy.Guardrails.TokenVaultTwins
import Himmy.Runtime.CompactionRuns
import Himmy.Connectors.RateLimits
import Himmy.Inference.Replay
import Himmy.Orchestrators.Discussion
import Himmy.Orchestrators.WorkflowReports
import Himmy.Routines.Leadership
import Himmy.Runtime.Missions
import Himmy.Auth.Revocation
