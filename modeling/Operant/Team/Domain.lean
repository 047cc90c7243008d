import Operant.Memory.Contracts
import Operant.Sessions.Runs
import Operant.Tables.Pages
import Operant.Tables.Revisions

/-! Teams: the agents of a run, the messages between them, and the boards they write on.

What no function here looks at (a message's payload, a task's title) is the type `Content`. -/
namespace Operant.Team
open Operant.Memory (Instant isBlank)
open Operant.Sessions (AgentStatus)
open Operant.Tables

/-! ### Members -/

inductive RosterMemberStatus where
  | invited
  | active
  | idle
  | completed
  | failed
  | cancelled
  deriving DecidableEq

def RosterMemberStatus.isTerminal : RosterMemberStatus → Bool
  | .completed | .failed | .cancelled => true
  | .invited | .active | .idle => false

structure RosterEntry where
  teamRunId : String
  memberId : String
  agentInstanceId : String
  threadId : String
  status : RosterMemberStatus := .invited
  joinedAt : Option Instant := none
  leftAt : Option Instant := none
  terminal_left : status.isTerminal = true → leftAt.isSome = true
  left_joined : leftAt.isSome = true → joinedAt.isSome = true

/-- What `_json` writes of an entry. -/
def RosterEntry.fields (entry : RosterEntry) :
    (String × String × String × String) × RosterMemberStatus × Option Instant × Option Instant :=
  ((entry.teamRunId, entry.memberId, entry.agentInstanceId, entry.threadId),
    entry.status, entry.joinedAt, entry.leftAt)

/-- `team_roster.status`. -/
inductive RosterStatus where
  | active
  | completed
  | failed
  | left
  deriving DecidableEq

def topStatus : RosterMemberStatus → RosterStatus
  | .invited | .active | .idle => .active
  | .completed => .completed
  | .failed => .failed
  | .cancelled => .left

/-- A row of `team_roster`. -/
structure RosterRow where
  body : RosterEntry
  status : RosterStatus
  joinedAt : Instant

/-- A row of `agents`. -/
structure AgentRow where
  agentId : String
  sessionId : String
  status : AgentStatus

/-! ### Messages -/

inductive MessageAudience where
  | direct
  | team
  deriving DecidableEq

inductive MessageVisibility where
  | hidden
  | recipients
  | team
  | ownerAudit
  deriving DecidableEq

inductive ModelDelivery where
  | none
  | nextTurn
  deriving DecidableEq

inductive ContextEffect where
  | none
  | appendUntrusted
  deriving DecidableEq

structure MessageEnvelope (Content : Type) where
  messageId : String
  workflowRunId : String
  teamRunId : String
  senderId : String
  recipientIds : List String
  audience : MessageAudience := .direct
  uiVisibility : MessageVisibility := .recipients
  modelDelivery : ModelDelivery := .nextTurn
  contextEffect : ContextEffect := .appendUntrusted
  content : Content
  recipients_some : recipientIds ≠ []
  recipients_named : ∀ recipient ∈ recipientIds, isBlank recipient = false
  recipients_unique : recipientIds.Nodup
  outside_context : modelDelivery = .none → contextEffect = .none

namespace MessageEnvelope
variable {Content : Type} (message : MessageEnvelope Content)

def isRecipient (agentInstanceId : String) : Bool := message.recipientIds.contains agentInstanceId

/-- It may take part in its recipients' next turn. -/
def forModel : Bool := message.modelDelivery = .nextTurn && message.contextEffect = .appendUntrusted

end MessageEnvelope

/-- A row of `team_messages`. -/
structure MessageRow (Content Digest : Type) where
  sequence : Nat
  message : MessageEnvelope Content
  commandKey : String
  commandHash : Digest

structure MessageAck where
  ackId : String
  deliveryId : String
  messageId : String
  teamRunId : String
  recipientId : String
  idempotencyKey : String
  cursor : Nat
  ackedAt : Instant

/-- A row of `mailbox_deliveries`. -/
structure DeliveryRow where
  sequence : Nat
  deliveryId : String
  messageId : String
  teamRunId : String
  recipientId : String
  ack : Option MessageAck := none

/-- Who gets what. -/
def DeliveryRow.address (row : DeliveryRow) : String × String × String := (row.teamRunId, row.messageId, row.recipientId)

/-! ### Boards -/

inductive TeamTaskStatus where
  | open
  | inProgress
  | blocked
  | completed
  | cancelled
  deriving DecidableEq

structure TeamTask (Content : Type) where
  taskId : String
  teamRunId : String
  assigneeIds : List String := []
  status : TeamTaskStatus := .open
  revision : Nat := 1
  updatedAt : Instant
  content : Content
  assignees_unique : assigneeIds.Nodup
  revision_pos : 1 ≤ revision

structure TeamArtifact (Content : Type) where
  artifactId : String
  teamRunId : String
  publisherId : String
  visibility : MessageVisibility := .team
  recipientIds : List String := []
  sourceMessageId : Option String := none
  revision : Nat := 1
  content : Content
  recipients_some : visibility = .recipients → recipientIds ≠ []
  recipients_unique : recipientIds.Nodup
  revision_pos : 1 ≤ revision

/-- `TaskBoardUpdate`. -/
abbrev TaskBoardUpdate (Content : Type) := Write String (TeamTask Content)

/-- `ArtifactBoardUpdate`. -/
abbrev ArtifactBoardUpdate (Content : Type) := Write String (TeamArtifact Content)

/-! ### Events -/

inductive TeamRunStatus where
  | created
  | active
  | completed
  | failed
  | cancelled
  deriving DecidableEq

/-- The body of a row of `team_run_events`. -/
inductive EventBody where
  | runCreated (status : TeamRunStatus)
  | messageProjected (messageId : String) (recipients : List String)
  | mailboxAcknowledged (deliveryId recipientId : String)
  | taskUpdated (taskId : String) (revision : Nat)
  | artifactPublished (artifactId : String) (revision : Nat)

structure TeamEvent where
  teamRunId : String
  runSequence : Nat
  body : EventBody

end Operant.Team
