import Operant.Team.Domain

/-! The operations of `SQLiteTeamRepository`. Each is one transaction: an exception leaves the store as it was. -/
namespace Operant.Team
open Operant.Memory (Instant isBlank)
open Operant.Tables

/-- Rows of other stores, that foreign keys and the functions here look up. -/
structure Others where
  agents : List AgentRow := []
  threads : List String := []
  workflowRuns : List String := []
  teamDefinitions : List (String × Nat) := []
  artifacts : List String := []

namespace Others
variable (others : Others)

def agent (agentId : String) : Option AgentRow := others.agents.find? fun row => row.agentId = agentId

def hasAgent (agentId : String) : Bool := (others.agent agentId).isSome

end Others

structure TeamRun where
  teamRunId : String
  teamId : String
  teamVersion : Nat
  workflowRunId : String
  status : TeamRunStatus := .created
  createdAt : Instant
  updatedAt : Instant
  deriving DecidableEq

/-- A row of `team_tasks`. -/
structure TaskRow (Content Digest : Type) where
  taskId : String
  teamRunId : String
  kept : Kept String Digest (TeamTask Content)

/-- A row of `artifact_board_items`. -/
structure ArtifactRow (Content Digest : Type) where
  id : String
  teamRunId : String
  artifactId : String
  kept : Kept String Digest (TeamArtifact Content)

structure Store (Content Digest : Type) where
  others : Others := {}
  runs : List TeamRun := []
  roster : List RosterRow := []
  messages : List (MessageRow Content Digest) := []
  nextMessage : Nat := 1
  deliveries : List DeliveryRow := []
  nextDelivery : Nat := 1
  tasks : List (TaskRow Content Digest) := []
  artifacts : List (ArtifactRow Content Digest) := []
  events : List TeamEvent := []

inductive Error where
  | value (message : String)
  | graphConflict (message : String)
  | keyError (id : String)
  /-- A constraint of the database. -/
  | integrity

namespace Store
variable {Content Digest : Type} [DecidableEq Digest] (store : Store Content Digest)

def hasRun (teamRunId : String) : Bool := store.runs.any fun run => run.teamRunId = teamRunId

/-- `_append_event`. -/
def appendEvent (teamRunId : String) (body : EventBody) : Store Content Digest :=
  { store with events := store.events ++ [{
      teamRunId
      runSequence := (((store.events.filter fun event => event.teamRunId = teamRunId).map
        TeamEvent.runSequence).max?.getD 0) + 1
      body }] }

/-! ### Runs and their roster -/

def putTeamRun (run : TeamRun) : Except Error (Store Content Digest × TeamRun) :=
  match store.runs.find? fun stored => stored.teamRunId = run.teamRunId with
  | some stored =>
    if stored ≠ run then .error (.value "Team Run already exists with different content") else .ok (store, stored)
  | none =>
    if !store.others.teamDefinitions.contains (run.teamId, run.teamVersion) ||
        !store.others.workflowRuns.contains run.workflowRunId then .error .integrity
    else .ok (appendEvent { store with runs := store.runs ++ [run] } run.teamRunId (.runCreated run.status), run)

def rosterRow (teamRunId agentId : String) : Option RosterRow :=
  store.roster.find? fun row => row.body.teamRunId = teamRunId && row.body.agentInstanceId = agentId

/-- The foreign keys of `team_roster`. -/
def rosterKeys (entry : RosterEntry) : Bool :=
  store.hasRun entry.teamRunId && store.others.hasAgent entry.agentInstanceId &&
    store.others.threads.contains entry.threadId

def putRosterEntry (entry : RosterEntry) (now : Instant) : Except Error (Store Content Digest × RosterEntry) :=
  let row : RosterRow := ⟨entry, topStatus entry.status, entry.joinedAt.getD now⟩
  if !store.rosterKeys entry then .error .integrity
  else match store.rosterRow entry.teamRunId entry.agentInstanceId with
    | some _ =>
      let same (old : RosterRow) : Bool :=
        old.body.teamRunId = entry.teamRunId && old.body.agentInstanceId = entry.agentInstanceId
      .ok ({ store with roster := update store.roster same fun _ => row }, entry)
    | none => .ok ({ store with roster := store.roster ++ [row] }, entry)

/-! ### Messages -/

/-- Agents of a run that messages can be sent to. -/
def activeRecipients (teamRunId : String) : List String :=
  (store.roster.filter fun row => row.body.teamRunId = teamRunId && row.status = .active).map
    fun row => row.body.agentInstanceId

structure ProjectionApplyResult (Content : Type) where
  message : MessageEnvelope Content
  deliveries : List DeliveryRow
  created : Bool

def message? (messageId : String) : Option (MessageEnvelope Content) :=
  (store.messages.find? fun row => row.message.messageId = messageId).map MessageRow.message

/-- The deliveries of a message, under fresh ids. -/
def newDeliveries (message : MessageEnvelope Content) (deliveryId : String → String) : List DeliveryRow :=
  (message.recipientIds.zipIdx store.nextDelivery).map fun recipient =>
    { sequence := recipient.2, deliveryId := deliveryId recipient.1, messageId := message.messageId,
      teamRunId := message.teamRunId, recipientId := recipient.1 }

/-- The constraints of `team_messages` and `mailbox_deliveries`. -/
def messageKeys (message : MessageEnvelope Content) (deliveryId : String → String) : Bool :=
  (store.message? message.messageId).isNone && store.hasRun message.teamRunId &&
    store.others.workflowRuns.contains message.workflowRunId && store.others.hasAgent message.senderId &&
    decide ((message.recipientIds.map deliveryId).Nodup) &&
    message.recipientIds.all fun recipient => store.others.hasAgent recipient &&
      store.deliveries.all fun row => row.deliveryId ≠ deliveryId recipient

/-- `project_message`, of the projection that `build_message_projection` makes. -/
def projectMessage (hash : MessageEnvelope Content → Digest) (message : MessageEnvelope Content)
    (idempotencyKey : String) (deliveryId : String → String) :
    Except Error (Store Content Digest × ProjectionApplyResult Content) :=
  match store.messages.find? fun row => row.commandKey = idempotencyKey with
  | some existing =>
    if existing.commandHash ≠ hash message then
      .error (.value "message idempotency key was reused with different input")
    else .ok (store, ⟨existing.message,
      store.deliveries.filter fun row => row.messageId = existing.message.messageId, false⟩)
  | none =>
    if !message.recipientIds.all fun recipient => (store.activeRecipients message.teamRunId).contains recipient then
      .error (.value "message recipients must be active Team members")
    else if !store.messageKeys message deliveryId then .error .integrity
    else
      let projected : Store Content Digest := { store with
        messages := store.messages ++ [{
          sequence := store.nextMessage, message, commandKey := idempotencyKey, commandHash := hash message }]
        nextMessage := store.nextMessage + 1
        deliveries := store.deliveries ++ store.newDeliveries message deliveryId
        nextDelivery := store.nextDelivery + message.recipientIds.length }
      .ok (projected.appendEvent message.teamRunId (.messageProjected message.messageId message.recipientIds),
        ⟨message, store.newDeliveries message deliveryId, true⟩)

/-- `send_message`. -/
def sendMessage (hash : MessageEnvelope Content → Digest) (message : MessageEnvelope Content)
    (idempotencyKey : String) (deliveryId : String → String) :
    Except Error (Store Content Digest × ProjectionApplyResult Content) :=
  if isBlank idempotencyKey then .error (.value "message idempotency key must not be blank")
  else store.projectMessage hash message idempotencyKey deliveryId

/-- `_validate_page`. -/
def pageInvalid (limit : Nat) : Bool := limit = 0 || 1000 < limit

/-- `mailbox_deliveries AS d JOIN team_messages AS m ON m.id = d.message_id` -/
def joined : List (DeliveryRow × MessageEnvelope Content) :=
  store.deliveries.filterMap fun row => (store.message? row.messageId).map fun message => (row, message)

def listInbox (teamRunId recipientId : String) (afterCursor limit : Nat) :
    Except Error (List (DeliveryRow × MessageEnvelope Content)) :=
  if pageInvalid limit then .error (.value "invalid cursor or limit")
  else .ok (page (fun row => row.1.sequence)
    (fun row => row.1.teamRunId = teamRunId && row.1.recipientId = recipientId && afterCursor < row.1.sequence)
    store.joined limit)

/-- What a viewer may see of a message. -/
def visible (viewerId : String) (row : MessageRow Content Digest) : Bool :=
  row.message.uiVisibility ≠ .hidden && row.message.uiVisibility ≠ .ownerAudit &&
    (row.message.senderId = viewerId || row.message.audience = .team || row.message.uiVisibility = .team ||
      (row.message.uiVisibility = .recipients && store.deliveries.any fun delivery =>
        delivery.messageId = row.message.messageId && delivery.teamRunId = row.message.teamRunId &&
          delivery.recipientId = viewerId))

def listMessagesForViewer (teamRunId viewerId : String) (afterCursor limit : Nat) :
    Except Error (List (Nat × MessageEnvelope Content)) :=
  if pageInvalid limit then .error (.value "invalid cursor or limit")
  else .ok ((page MessageRow.sequence
    (fun row => row.message.teamRunId = teamRunId && afterCursor < row.sequence && store.visible viewerId row)
    store.messages limit).map fun row => (row.sequence, row.message))

/-- `ack_delivery`. -/
def ackDelivery (ack : MessageAck) : Except Error (Store Content Digest × MessageAck) :=
  match store.deliveries.find? fun row => row.deliveryId = ack.deliveryId with
  | none => .error (.keyError ack.deliveryId)
  | some row =>
    if row.messageId ≠ ack.messageId ∨ row.teamRunId ≠ ack.teamRunId ∨ row.recipientId ≠ ack.recipientId ∨
        row.sequence ≠ ack.cursor then
      .error (.value "Ack scope or cursor does not match the delivery")
    else if store.deliveries.any fun other => other.recipientId = ack.recipientId &&
        other.ack.any (fun stored => stored.idempotencyKey = ack.idempotencyKey) && other.deliveryId ≠ ack.deliveryId then
      .error (.value "Ack idempotency key was reused for another delivery")
    else match row.ack with
      | some stored =>
        if stored.idempotencyKey ≠ ack.idempotencyKey then
          .error (.value "delivery was already acknowledged with another key")
        else .ok (store, stored)
      | none =>
        let deliveries := update store.deliveries (fun other => other.deliveryId = ack.deliveryId)
          fun other => { other with ack := some ack }
        .ok (appendEvent { store with deliveries } ack.teamRunId (.mailboxAcknowledged ack.deliveryId ack.recipientId),
          ack)

/-! ### Boards -/

def task? (taskId : String) : Option (TaskRow Content Digest) := store.tasks.find? fun row => row.taskId = taskId

/-- The foreign keys of `team_tasks`. -/
def taskKeys (task : TeamTask Content) : Bool :=
  match task.assigneeIds with
  | [assignee] => store.others.hasAgent assignee
  | _ => true

/-- `_apply_task_update_with_connection`. -/
def applyTaskUpdate (digest : TaskBoardUpdate Content → Digest) (write : TaskBoardUpdate Content) :
    Except Error (Store Content Digest × BoardApplyResult) :=
  match applyWrite TeamTask.revision digest ((store.task? write.item.taskId).map TaskRow.kept) write with
  | .error .revisionConflict => .error (.value "Task Board revision conflict")
  | .error .keyConflict => .error (.value "Task Board idempotency key conflict")
  | .ok (none, result) => .ok (store, result)
  | .ok (some kept, result) =>
    if !store.taskKeys write.item then .error .integrity
    else match store.task? write.item.taskId with
      | none =>
        if !store.hasRun write.item.teamRunId then .error .integrity
        else
          let tasks := store.tasks ++ [⟨write.item.taskId, write.item.teamRunId, kept⟩]
          .ok (appendEvent { store with tasks } write.item.teamRunId
            (.taskUpdated write.item.taskId write.item.revision), result)
      | some _ =>
        let tasks := update store.tasks (fun row => row.taskId = write.item.taskId) fun row => { row with kept }
        .ok (appendEvent { store with tasks } write.item.teamRunId
          (.taskUpdated write.item.taskId write.item.revision), result)

def artifact? (teamRunId artifactId : String) : Option (ArtifactRow Content Digest) :=
  store.artifacts.find? fun row => row.teamRunId = teamRunId && row.artifactId = artifactId

/-- The foreign keys of `artifact_board_items`. -/
def artifactKeys (artifact : TeamArtifact Content) : Bool :=
  store.others.hasAgent artifact.publisherId &&
    artifact.sourceMessageId.all fun messageId => (store.message? messageId).isSome

/-- `id` of a row of `artifact_board_items`. -/
def boardId (teamRunId artifactId : String) : String := "board_" ++ teamRunId ++ "_" ++ artifactId

def applyArtifactUpdate (digest : ArtifactBoardUpdate Content → Digest) (write : ArtifactBoardUpdate Content) :
    Except Error (Store Content Digest × BoardApplyResult) :=
  match applyWrite TeamArtifact.revision digest
      ((store.artifact? write.item.teamRunId write.item.artifactId).map ArtifactRow.kept) write with
  | .error .revisionConflict => .error (.value "Artifact Board revision conflict")
  | .error .keyConflict => .error (.value "Artifact Board idempotency key conflict")
  | .ok (none, result) => .ok (store, result)
  | .ok (some kept, result) =>
    if !store.artifactKeys write.item then .error .integrity
    else match store.artifact? write.item.teamRunId write.item.artifactId with
      | none =>
        let id := boardId write.item.teamRunId write.item.artifactId
        if !store.hasRun write.item.teamRunId || !store.others.artifacts.contains write.item.artifactId ||
            store.artifacts.any (fun row => row.id = id) then .error .integrity
        else
          let artifacts := store.artifacts ++ [⟨id, write.item.teamRunId, write.item.artifactId, kept⟩]
          .ok (appendEvent { store with artifacts } write.item.teamRunId
            (.artifactPublished write.item.artifactId write.item.revision), result)
      | some old =>
        let artifacts := update store.artifacts (fun row => row.id = old.id) fun row => { row with kept }
        .ok (appendEvent { store with artifacts } write.item.teamRunId
          (.artifactPublished write.item.artifactId write.item.revision), result)

/-! ### A member is replaced -/

/-- The write that hands a task to the agent that takes over. -/
def retryWrite (taskId : String) (task : TeamTask Content) (agentId : String) (now : Instant) :
    TaskBoardUpdate Content where
  idempotencyKey := "retry:" ++ taskId ++ ":" ++ agentId
  item := { task with
    assigneeIds := [agentId]
    status := .inProgress
    revision := task.revision + 1
    updatedAt := now
    assignees_unique := List.nodup_singleton agentId
    revision_pos := Nat.le_add_left 1 task.revision }
  expectedRevision := some task.revision

/-- The entry of an agent that is replaced. -/
def retired (entry : RosterEntry) (joinedAt now : Instant) : RosterEntry :=
  { entry with
    status := .cancelled
    joinedAt := some (entry.joinedAt.getD joinedAt)
    leftAt := some now
    terminal_left := fun _ => rfl
    left_joined := fun _ => rfl }

def replaceable (allowCompleted : Bool) : Sessions.AgentStatus → Bool
  | .failed | .cancelled | .timedOut => true
  | .completed => allowCompleted
  | .created | .running => false

def replaceRosterAgent (digest : TaskBoardUpdate Content → Digest) (old new : RosterEntry) (allowCompleted : Bool)
    (now : Instant) : Except Error (Store Content Digest × RosterEntry) :=
  if (old.teamRunId, old.memberId, old.threadId) ≠ (new.teamRunId, new.memberId, new.threadId) then
    .error (.value "retry must preserve Team member and Session Thread")
  else match store.others.agent old.agentInstanceId, store.others.agent new.agentInstanceId with
    | some previous, some replacement =>
      if previous.sessionId ≠ replacement.sessionId ∨ replaceable allowCompleted previous.status = false ∨
          replacement.status ≠ .created then
        .error (.value "retry Agent must be new and preserve the failed Session")
      else match store.rosterRow old.teamRunId old.agentInstanceId with
        | none => .error (.graphConflict "retry Roster disappeared")
        | some row =>
          if row.body.fields ≠ old.fields then .error (.graphConflict "retry Roster changed")
          else if (store.rosterRow new.teamRunId new.agentInstanceId).isSome || !store.rosterKeys new then
            .error .integrity
          else
            let same (row : RosterRow) : Bool :=
              row.body.teamRunId = old.teamRunId && row.body.agentInstanceId = old.agentInstanceId
            let leave (row : RosterRow) : RosterRow := ⟨retired old row.joinedAt now, .left, row.joinedAt⟩
            let roster := update store.roster same leave ++ [⟨new, .active, new.joinedAt.getD now⟩]
            let replaced : Store Content Digest := { store with roster }
            let taskId := "graph-task:" ++ new.teamRunId ++ ":" ++ new.memberId
            match replaced.task? taskId with
            | none => .ok (replaced, new)
            | some task =>
              (replaced.applyTaskUpdate digest (retryWrite taskId task.kept.item new.agentInstanceId now)).map
                fun applied => (applied.1, new)
    | _, _ => .error (.value "retry Agent must be new and preserve the failed Session")

end Store

/-! ### The whole repository -/

/-- `_hash`. -/
structure Hashes (Content Digest : Type) where
  message : MessageEnvelope Content → Digest
  task : TaskBoardUpdate Content → Digest
  artifact : ArtifactBoardUpdate Content → Digest

inductive Op (Content : Type) where
  /-- What other stores hold changes. -/
  | others (others : Others)
  | putTeamRun (run : TeamRun)
  | putRosterEntry (entry : RosterEntry) (now : Instant)
  | replaceRosterAgent (old new : RosterEntry) (allowCompleted : Bool) (now : Instant)
  | sendMessage (message : MessageEnvelope Content) (idempotencyKey : String) (deliveryId : String → String)
  | ackDelivery (ack : MessageAck)
  | applyTaskUpdate (write : TaskBoardUpdate Content)
  | applyArtifactUpdate (write : ArtifactBoardUpdate Content)

section
variable {Content Digest : Type} [DecidableEq Digest] (hashes : Hashes Content Digest)

/-- The store after a transaction. -/
def Store.after {α : Type} (store : Store Content Digest) : Except Error (Store Content Digest × α) → Store Content Digest
  | .ok result => result.1
  | .error _ => store

def Store.step (store : Store Content Digest) : Op Content → Store Content Digest
  | .others others => { store with others }
  | .putTeamRun run => store.after (store.putTeamRun run)
  | .putRosterEntry entry now => store.after (store.putRosterEntry entry now)
  | .replaceRosterAgent old new allowCompleted now =>
    store.after (store.replaceRosterAgent hashes.task old new allowCompleted now)
  | .sendMessage message key deliveryId => store.after (store.sendMessage hashes.message message key deliveryId)
  | .ackDelivery ack => store.after (store.ackDelivery ack)
  | .applyTaskUpdate write => store.after (store.applyTaskUpdate hashes.task write)
  | .applyArtifactUpdate write => store.after (store.applyArtifactUpdate hashes.artifact write)

end

/-! ### Readers -/

/-- What is put into a model's context of a delivery to the recipient. -/
def contextMessage {Content : Type} (recipientId : String) (row : DeliveryRow × MessageEnvelope Content) :
    Option (MessageEnvelope Content) :=
  if row.1.recipientId = recipientId && row.2.isRecipient recipientId && row.2.forModel then some row.2 else none

structure AgentContextProjection (Content : Type) where
  messages : List (MessageEnvelope Content)
  cursor : Nat

/-- `project_context`. -/
def projectContext {Content Digest : Type} (store : Store Content Digest) (teamRunId recipientId : String)
    (afterCursor limit : Nat) : Except Error (AgentContextProjection Content) :=
  (store.listInbox teamRunId recipientId afterCursor limit).map fun inbox =>
    { messages := inbox.filterMap (contextMessage recipientId)
      cursor := ((inbox.map fun row => row.1.sequence).max?).getD afterCursor }

end Operant.Team
