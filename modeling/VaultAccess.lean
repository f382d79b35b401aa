import VaultAccess.Library.Base64
import VaultAccess.Library.Json
import VaultAccess.Library.Text
import VaultAccess.Library.Lists
import VaultAccess.Library.Documents
import VaultAccess.Library.Runs
import VaultAccess.Library.Programs
import VaultAccess.Library.Concurrency
import VaultAccess.Library.IpAddr
import VaultAccess.Library.Frames
import VaultAccess.Library.Encoding
import VaultAccess.Library.Unambiguous
import VaultAccess.Library.Canonical
import VaultAccess.Model.Access
import VaultAccess.Model.Records
import VaultAccess.Model.Policy
import VaultAccess.Model.DirectRequest
import VaultAccess.Model.ProviderState
import VaultAccess.Model.Protocol
import VaultAccess.Model.Approval
import VaultAccess.Model.Provider
import VaultAccess.Model.Store
import VaultAccess.Model.Machine
import VaultAccess.Model.Application
import VaultAccess.Model.Bridge
import VaultAccess.Model.Identity
import VaultAccess.Model.Companion
import VaultAccess.Model.Session
import VaultAccess.Model.Management
import VaultAccess.Analysis.Bridge
import VaultAccess.Analysis.Sessions
import VaultAccess.Analysis.Decisions
import VaultAccess.Analysis.Managements
import VaultAccess.Analysis.Policy
import VaultAccess.Analysis.Review
import VaultAccess.Analysis.Envelopes
import VaultAccess.Analysis.Approvals
import VaultAccess.Analysis.Projections
import VaultAccess.Analysis.Record
import VaultAccess.Analysis.History
import VaultAccess.Analysis.RecordValid
import VaultAccess.Analysis.Operations
import VaultAccess.Analysis.Inversion
import VaultAccess.Analysis.Stored
import VaultAccess.Analysis.Registry
import VaultAccess.Analysis.Lifecycle
import VaultAccess.Analysis.Validation
import VaultAccess.Analysis.Submissions
import VaultAccess.Analysis.Launches
import VaultAccess.Analysis.Receipts
import VaultAccess.Analysis.Calls
import VaultAccess.Analysis.Discipline
import VaultAccess.Analysis.Atomic
import VaultAccess.Analysis.Rules
import VaultAccess.Analysis.Facts
import VaultAccess.Analysis.Orderly
import VaultAccess.Analysis.Agents
import VaultAccess.Analysis.Execution
import VaultAccess.Analysis.Claiming
import VaultAccess.Analysis.Handover
import VaultAccess.Analysis.Cancelling
import VaultAccess.Analysis.Messages
import VaultAccess.Analysis.Reachable
import VaultAccess.Analysis.Interleavings
import VaultAccess.Analysis.Alone
import VaultAccess.Analysis.Scenario
import VaultAccess.Analysis.Rehearsal
import VaultAccess.Analysis.Revocation
import VaultAccess.Analysis.Replays
import VaultAccess.Model.Serial
import VaultAccess.Analysis.Persistence
import VaultAccess.Analysis.Identities
import VaultAccess.Analysis.Enrollments
import VaultAccess.Analysis.Serial
import VaultAccess.Analysis.Authority
import VaultAccess.Analysis.Commits
import VaultAccess.Analysis.Admission
import VaultAccess.Analysis.Revisions
import VaultAccess.Analysis.Deliveries
import VaultAccess.Library.Restriction
import VaultAccess.Model.Denials
import VaultAccess.Analysis.Within
import VaultAccess.Analysis.Denials
import VaultAccess.Library.Locking
import VaultAccess.Model.Locking
import VaultAccess.Analysis.Locking
import VaultAccess.Model.Lifecycle
import VaultAccess.Analysis.Attribution
import VaultAccess.Analysis.Migration
import VaultAccess.Analysis.Signatures
import VaultAccess.Analysis.Biometrics
import VaultAccess.Analysis.Canonical
import VaultAccess.Analysis.Leases
import VaultAccess.Analysis.Mappings
import VaultAccess.Analysis.Recent
import VaultAccess.Analysis.Slices
import VaultAccess.Library.Attempts
import VaultAccess.Analysis.Resumption
import VaultAccess.Analysis.Journaling
import VaultAccess.Analysis.Written
import VaultAccess.Model.AgentSocket
import VaultAccess.Analysis.AgentFrames
import VaultAccess.Analysis.AgentAnswers
import VaultAccess.Analysis.AttemptLimits
import VaultAccess.Analysis.ExecutionQueues
import VaultAccess.Analysis.Totps
import VaultAccess.Analysis.SshAgents
import VaultAccess.Analysis.Inventories
import VaultAccess.Analysis.Sealed
import VaultAccess.Analysis.Created
import VaultAccess.Analysis.Expiry
import VaultAccess.Analysis.Rounds
import VaultAccess.Analysis.Shown
import VaultAccess.Analysis.TextCodecs
import VaultAccess.Analysis.AgentWaits
import VaultAccess.Analysis.HistorySizes
import VaultAccess.Analysis.Recording
import VaultAccess.Analysis.Supervising
import VaultAccess.Analysis.Signing
