import AgentC.Workflow.CancelSticky
import AgentC.Workflow.Dependencies
import AgentC.Workflow.SingleWorker
import AgentC.Workflow.FairPolicies
import AgentC.EdgeTasks.Attestation
import AgentC.EdgeTasks.TerminalTasks
import AgentC.EdgeTasks.ResourceLocks
import AgentC.EdgeTasks.StepRetries
import AgentC.Broker.RelayStreams
import AgentC.Broker.LiveConnections
import AgentC.Broker.IdempotentReplays
import AgentC.Broker.TeamRunStatus
import AgentC.Broker.RevisionHistory
import AgentC.ToolLoop.CallIds
import AgentC.Jobs.JobRuns
import AgentC.Jobs.JobEvents
import AgentC.HttpAllowlist.UrlCheck
import AgentC.Umbmp.SigningInput
import AgentC.Umbmp.EnvelopeAgreement
import AgentC.Base64.RoundTrip
import AgentC.Base64.AcceptedText
import AgentC.EdgeTasks.SigningInput
import AgentC.Cbor.SortedMaps
import AgentC.Cbor.ValueRoundTrip
import AgentC.Cbor.DecoderNesting
import AgentC.Json.StringWriters
import AgentC.EdgeConsensus.IdentifyingFrames
import AgentC.Sha256.Hmac
import AgentC.Sessions.CodecRoundTrip
import AgentC.Sessions.AllocationFailures
import AgentC.Sessions.Compaction
import AgentC.ToolLoop.SummaryPlace
import AgentC.ToolLoop.RetryProgress
import AgentC.ToolLoop.RepeatedCalls
import AgentC.Cron.NextTick
import AgentC.Cron.Meaning
import AgentC.Workflow.TemplateRounds
import AgentC.Workflow.CountedResults
import AgentC.Workflow.DelegateBudget
import AgentC.Workflow.AttemptCaps
import AgentC.Json.PointerMeaning
import AgentC.Broker.MemberAllocation
import AgentC.Broker.Handoffs
import AgentC.Broker.PersistedQuorum
import AgentC.Broker.TasksOnce
import AgentC.EdgeTasks.TaskProgress
import AgentC.EdgeTasks.EnqueueOnce
import AgentC.Json.NumberArithmetic
import AgentC.Streaming.ToolCallTable
import AgentC.Cron.Arithmetic
import AgentC.Broker.AuditScrubbing
import AgentC.Workflow.Schedules
import AgentC.ToolLoop.Approvals
