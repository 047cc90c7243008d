import Operant.Graph.Interleaving
import Operant.Graph.Callers
import Operant.Graph.Finality
import Operant.Graph.Attempts
import Operant.Graph.UnknownWrites
import Operant.Calls.Phases
import Operant.Graph.Sequential
import Operant.Graph.Compiled
import Operant.Graph.Saves
import Operant.Graph.Subworkflow
import Operant.Graph.Occurrences
import Operant.Graph.Keys
import Operant.Graph.Usage
import Operant.Scheduler.Domain
import Operant.Scheduler.Store
import Operant.Scheduler.Jobs
import Operant.Scheduler.Lifecycle
import Operant.Scheduler.Steps
import Operant.Scheduler.Moves
import Operant.Scheduler.Invariant
import Operant.Scheduler.Cancellation
import Operant.Scheduler.Fencing
import Operant.Calls.Owners
import Operant.Scheduler.Outcomes
import Operant.Dispatch.System
import Operant.Dispatch.Worker
import Operant.Dispatch.Invariant
import Operant.Dispatch.Steps
import Operant.Dispatch.Once
import Operant.MultiWriter.Paths
import Operant.MultiWriter.Domain
import Operant.MultiWriter.System
import Operant.MultiWriter.Runtime
import Operant.MultiWriter.History
import Operant.MultiWriter.Invariant
import Operant.MultiWriter.Steps
import Operant.MultiWriter.Programs
import Operant.MultiWriter.Noticed
import Operant.MultiWriter.Leases
import Operant.RemoteControl.Domain
import Operant.RemoteControl.Runtime
import Operant.RemoteControl.Invariant
import Operant.RemoteControl.Steps
import Operant.RemoteControl.Claims
import Operant.RemoteControl.Programs
import Operant.RemoteControl.Executions
import Operant.RemoteControl.Pairing
import Operant.RemoteControl.PairingProofs
import Operant.RemoteControl.Relay
import Operant.RemoteControl.RelayProofs
import Operant.RemoteControl.RelayProgress
import Operant.RemoteExecution.Domain
import Operant.RemoteExecution.Store
import Operant.RemoteExecution.Invariant
import Operant.RemoteExecution.Preserved
import Operant.RemoteExecution.Controller
import Operant.RemoteExecution.RunsOnce
import Operant.RemoteExecution.Unknown
import Operant.Security.Redaction
import Operant.Security.Policy
import Operant.Security.Normalizer
import Operant.Security.Kept
import Operant.Security.Repository
import Operant.Security.Decides
import Operant.Security.Evaluated
import Operant.Security.Plain
import Operant.Context.Domain
import Operant.Security.Bounded
import Operant.Context.Compact
import Operant.Context.Exchanges
import Operant.Context.Summary
import Operant.Context.Threads
import Operant.Context.Requirements
import Operant.Context.Histories
import Operant.Text.Growth
import Operant.Context.ThreadHistories
import Operant.Context.KeepsLines
import Operant.Context.Delivered
import Operant.Context.Composed
import Operant.Plugins.Domain
import Operant.Plugins.Registry
import Operant.Plugins.History
import Operant.Leases.Ledger
import Operant.Plugins.Ledger
import Operant.Plugins.Steps
import Operant.Plugins.StdioEngine
import Operant.Plugins.Leases
import Operant.Ownership.Ledger
import Operant.Plugins.Ownership
import Operant.Plugins.Lifecycle
import Operant.Graph.Analysis
import Operant.Graph.Writers
import Operant.Graph.Inputs
import Operant.Graph.Denotation
import Operant.Scheduler.Conserving
import Operant.Graph.Retries
import Operant.Graph.Alone
import Operant.Graph.LoopBody
import Operant.Graph.Propagation
import Operant.Graph.Escapes
import Operant.Graph.Subgraph
import Operant.Mcp.Sse
import Operant.Mcp.Transports
import Operant.Security.Monotone
import Operant.Approvals.Gateway
import Operant.Security.CapabilityLeases
import Operant.Security.Binding
import Operant.RemoteExecution.Observations
import Operant.RemoteExecution.Recorded
import Operant.RemoteExecution.Usable
import Operant.Mcp.Arguments
import Operant.Mcp.Meaning
import Operant.Mcp.Keys
import Operant.Mcp.Precise
import Operant.Mcp.Vocabulary
import Operant.Python.Str
import Operant.Security.Secrets
import Operant.Text.Occurrences
import Operant.Workspace.Files
import Operant.Workspace.Patch
import Operant.Context.Folding
import Operant.Sessions.Runs
import Operant.Sessions.Status
import Operant.Configuration.Domain
import Operant.Configuration.Effective
import Operant.Configuration.Narrowing
import Operant.Configuration.Inheritance
import Operant.Calls.Transaction
import Operant.Memory.Contracts
import Operant.Memory.Ledger
import Operant.Memory.Lifecycle
import Operant.Memory.Sound
import Operant.Memory.Kept
import Operant.Memory.Runs
import Operant.Memory.Corrections
import Operant.Plugins.Package
import Operant.Security.PrivateKeys
import Operant.Time.Utc
import Operant.Plugins.PackageDigest
import Operant.Plugins.PackageIdentity
import Operant.Plugins.PackageInventory
import Operant.Plugins.PackageCache
import Operant.Plugins.Resources
import Operant.Plugins.PrivateIndex
import Operant.Tables.Feed
import Operant.Tables.Revisions
import Operant.Team.Domain
import Operant.Team.Store
import Operant.Team.Steps
import Operant.Team.Mailbox
import Operant.Team.Reading
import Operant.Team.Boards
import Operant.Memory.Moves
import Operant.Memory.Transactions
import Operant.Memory.Linear
import Operant.Memory.Changes
import Operant.Memory.Deleted
import Operant.Tables.Frozen
import Operant.Recall.Publications
import Operant.Recall.History
