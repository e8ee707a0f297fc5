import AiPlatform.Foundation.Runs
import AiPlatform.Foundation.KeyedLists
import AiPlatform.Foundation.Keyspace
import AiPlatform.Foundation.Pattern
import AiPlatform.Kernel.Identifiers
import AiPlatform.Kernel.Unicode
import AiPlatform.Kernel.SecretQuotes
import AiPlatform.Queue.Store
import AiPlatform.Queue.Admission
import AiPlatform.Queue.Lease
import AiPlatform.Queue.Fence
import AiPlatform.Queue.Reclaim
import AiPlatform.Queue.System
import AiPlatform.Queue.LeaseLoop
import AiPlatform.Queue.Effects
import AiPlatform.Queue.Rows
import AiPlatform.Queue.Removal
import AiPlatform.Queue.WellFormed
import AiPlatform.Queue.Quota
import AiPlatform.Queue.FenceExclusion
import AiPlatform.Queue.Slots
import AiPlatform.Queue.Consistency
import AiPlatform.Queue.History
import AiPlatform.Queue.Ownership
import AiPlatform.Queue.Expiry
import AiPlatform.Queue.AdmissionSafety
import AiPlatform.Queue.Deliveries
import AiPlatform.Queue.Helpers
import AiPlatform.Queue.HelperRaces
import AiPlatform.Queue.MessageKeys
import AiPlatform.Queue.FieldRuns
import AiPlatform.Queue.QueueOrder
import AiPlatform.Queue.RunRemoval
import AiPlatform.Queue.RunView
import AiPlatform.Queue.Isolation
import AiPlatform.Foundation.Json
import AiPlatform.Foundation.Decimals
import AiPlatform.Foundation.JsonText
import AiPlatform.Foundation.JsonParse
import AiPlatform.Foundation.JsonRoundTrip
import AiPlatform.Foundation.Outcome
import AiPlatform.Foundation.JsonPath
import AiPlatform.Foundation.AppendStream
import AiPlatform.Runs.TokenUsage
import AiPlatform.Runs.UsageAccounting
import AiPlatform.Runs.UsageRanges
import AiPlatform.Execution.ResultUsage
import AiPlatform.Execution.UsageSystem
import AiPlatform.Streaming.Envelope
import AiPlatform.Streaming.AssistantTextParts
import AiPlatform.Execution.AgentEvents
import AiPlatform.Execution.AgentEffects
import AiPlatform.Streaming.Replay
import AiPlatform.Streaming.ReplayContinuity
import AiPlatform.Streaming.AppendScripts
import AiPlatform.Streaming.StreamForm
import AiPlatform.Streaming.Publication
import AiPlatform.Streaming.PublicationOrder
import AiPlatform.Context.ProviderSessions
import AiPlatform.Context.ProviderMedia
import AiPlatform.Context.ProviderEpochs
import AiPlatform.Context.ProviderLedger
import AiPlatform.Context.ProviderAppends
import AiPlatform.Context.ProviderResume
import AiPlatform.Context.ProviderContinuity
import AiPlatform.Context.ImageSplit
import AiPlatform.Execution.SessionStore
import AiPlatform.Execution.SessionDelivery
import AiPlatform.Execution.RecoveryOperations
import AiPlatform.Execution.RecoveryStarts
import AiPlatform.Runs.RunInputs
import AiPlatform.Runs.Terminalization
import AiPlatform.Runs.InputSessions
import AiPlatform.Foundation.Claims
import AiPlatform.Foundation.Transactions
import AiPlatform.Sandbox.Leases
import AiPlatform.Sandbox.LeaseClaims
import AiPlatform.Sandbox.LeaseSelection
import AiPlatform.Sandbox.CallbackTokens
import AiPlatform.Foundation.ScriptStore
import AiPlatform.Foundation.Fencing
import AiPlatform.Auth.SessionScripts
import AiPlatform.Auth.Sessions
import AiPlatform.Auth.SessionFencing
import AiPlatform.Auth.PrincipalSnapshots
import AiPlatform.Foundation.Separators
import AiPlatform.Mcp.ToolReferences
import AiPlatform.Mcp.ToolPolicy
import AiPlatform.Execution.SessionChunks
import AiPlatform.Execution.TypedBlocks
import AiPlatform.Execution.TextCheckpoints
import AiPlatform.Execution.StreamOwnership
import AiPlatform.Execution.AgentAnswers
import AiPlatform.Foundation.Bytes
import AiPlatform.Foundation.CodePoints
import AiPlatform.Context.ConversationAuthority
import AiPlatform.Streaming.Cursors
import AiPlatform.Web.HistoryOrder
import AiPlatform.Execution.ModelEvidence
import AiPlatform.Runs.QuestionReads
import AiPlatform.Runs.NativeAnswers
