import CopilotFleet.Auth.Channel
import CopilotFleet.Auth.NodeProofNonces
import CopilotFleet.Auth.EnrollmentAgreement
import CopilotFleet.Auth.EnrollmentRuns
import CopilotFleet.Auth.NodeEnrollment
import CopilotFleet.Auth.Transcripts
import CopilotFleet.Browser.TranscriptCache
import CopilotFleet.Browser.TranscriptSync
import CopilotFleet.Host.Administrators
import CopilotFleet.Host.CommandDelivery
import CopilotFleet.Host.CommandPages
import CopilotFleet.Host.CommandVerification
import CopilotFleet.Host.LocalAgentEnvelope
import CopilotFleet.Host.ProjectionRuns
import CopilotFleet.Host.ProjectionRetention
import CopilotFleet.Host.ProjectionUpdates
import CopilotFleet.Host.SessionPolicy
import CopilotFleet.Host.TranscriptProjection
import CopilotFleet.Host.TranscriptProjections
import CopilotFleet.Lib.Aead
import CopilotFleet.Lib.Calendar
import CopilotFleet.Lib.Dealt
import CopilotFleet.Lib.Glob
import CopilotFleet.Lib.Joined
import CopilotFleet.Lib.JsonString
import CopilotFleet.Lib.Once
import CopilotFleet.Lib.OrderedLog
import CopilotFleet.Lib.Pattern
import CopilotFleet.Lib.Ranges
import CopilotFleet.Lib.Replica
import CopilotFleet.Lib.Run
import CopilotFleet.Lib.Splice
import CopilotFleet.Lib.Split
import CopilotFleet.Lib.Table
import CopilotFleet.Lib.Utf16
import CopilotFleet.Node.CheckoutLocks
import CopilotFleet.Node.CommandIdentity
import CopilotFleet.Node.CommandOutput
import CopilotFleet.Node.CommandPermissionRules
import CopilotFleet.Node.CommandPermissions
import CopilotFleet.Node.CommandStart
import CopilotFleet.Node.CommandWildcards
import CopilotFleet.Node.EventOutbox
import CopilotFleet.Node.JournalOperations
import CopilotFleet.Node.JournalStorage
import CopilotFleet.Node.LeadPromptDelivery
import CopilotFleet.Node.OutputRecovery
import CopilotFleet.Node.PermissionRuns
import CopilotFleet.Node.QuiescenceFilter
import CopilotFleet.Node.RepositoryParticipation
import CopilotFleet.Orchestrator.Capacity
import CopilotFleet.Orchestrator.CheckoutWriters
import CopilotFleet.Orchestrator.Decisions
import CopilotFleet.Orchestrator.Destinations
import CopilotFleet.Orchestrator.OwedPrompts
import CopilotFleet.Orchestrator.WorkerResume
import CopilotFleet.Orchestrator.WorkerResumeService
import CopilotFleet.Orchestrator.WorkerResumeRuns
import CopilotFleet.Orchestrator.Placement
import CopilotFleet.Orchestrator.Schedule
import CopilotFleet.Orchestrator.StepHolds
import CopilotFleet.Orchestrator.StepStates
import CopilotFleet.PrMaintenance.Accounts
import CopilotFleet.PrMaintenance.Acts
import CopilotFleet.PrMaintenance.Evidence
import CopilotFleet.PrMaintenance.HostReadiness
import CopilotFleet.PrMaintenance.ReceiptClocks
import CopilotFleet.PrMaintenance.Settlements
import CopilotFleet.PrMaintenance.Stops
import CopilotFleet.PrMaintenance.Wakes
import CopilotFleet.PrmSkill.Contracts
import CopilotFleet.PrmSkill.Engine
import CopilotFleet.PrmSkill.JobIds
import CopilotFleet.PrmSkill.Passes
import CopilotFleet.PrmSkill.Readiness
import CopilotFleet.PrmSkill.Registry
import CopilotFleet.PrmSkill.Reports
import CopilotFleet.Protocol.CanonicalJson
import CopilotFleet.Protocol.CronSearch
import CopilotFleet.Protocol.Fleet
import CopilotFleet.Protocol.FleetWake
import CopilotFleet.Protocol.HeartbeatSchedule
import CopilotFleet.Protocol.NodeAuth
import CopilotFleet.Protocol.PullRequestUrl
import CopilotFleet.Protocol.QuietWindow
import CopilotFleet.Protocol.States
import CopilotFleet.Protocol.Transcript
import CopilotFleet.Usage.Store
import CopilotFleet.Usage.Report
import CopilotFleet.Usage.Rows
import CopilotFleet.Usage.Backups
