import Operant.Scheduler.Domain
import Operant.Security.Domain

/-! Hosts, the devices that are paired with them, their sessions and their commands. -/
namespace Operant.RemoteControl
open Operant.Scheduler (Instant)
open Operant.Security

inductive RemoteScope where
  | observe
  | command
  | approve
  | browser
  | computer
  | settings
  deriving DecidableEq

inductive RemoteHostOnlineState where
  | offline
  | online
  | degraded
  deriving DecidableEq

inductive RemoteSessionState where
  | connecting
  | connected
  | disconnected
  | closed
  deriving DecidableEq

inductive RemoteCommandStatus where
  | received
  | accepted
  | rejected
  | completed
  | outcomeUnknown
  deriving DecidableEq

/-- An execution is due or under way. -/
def RemoteCommandStatus.isOpen : RemoteCommandStatus → Bool
  | .received | .accepted => true
  | .rejected | .completed | .outcomeUnknown => false

structure HostInstance where
  hostId : String
  protocolVersion : String
  enabled : Bool := false
  onlineState : RemoteHostOnlineState := .offline
  deriving DecidableEq

/-- What `_active_host` asks of a host. -/
def HostInstance.isActive (host : HostInstance) : Bool :=
  host.enabled && host.onlineState ≠ .offline

structure RemoteDevice where
  deviceId : String
  hostId : String
  displayName : String := ""
  signingPublicKey : String
  exchangePublicKey : String
  scopes : List RemoteScope := [.observe]
  version : Nat := 1
  pairedAt : Instant := 0
  revokedAt : Option Instant := none
  deriving DecidableEq

structure RemoteSession where
  remoteSessionId : String
  hostId : String
  deviceId : String
  protocolVersion : String
  connectionState : RemoteSessionState := .connecting
  sessionKeyRef : String
  expiresAt : Instant

structure EncryptedRemoteCommand where
  commandId : String
  idempotencyKey : String
  hostId : String
  deviceId : String
  remoteSessionId : String
  protocolVersion : String
  issuedAt : Instant
  expiresAt : Instant
  nonce : String
  ciphertext : String
  signature : String
  expires : issuedAt < expiresAt := by decide

structure RemoteActionPayload where
  tool : String
  operation : String
  targetId : String
  arguments : Operant.Python.Value
  capabilities : List Capability
  workspace : Option String := none
  secretRefs : List String := []

structure RemoteCommandReceipt where
  commandId : String
  idempotencyKey : String
  actionHash : String
  status : RemoteCommandStatus
  hostAcknowledgedAt : Option Instant
  resultRef : Option String
  errorCode : Option String
  deriving DecidableEq

/-- A row of `remote_command_receipts`: one that is open, and no other, has an owner and a
lease. -/
structure ReceiptRow where
  commandId : String
  idempotencyKey : String
  actionHash : String
  hostId : String
  deviceId : String
  remoteSessionId : String
  /-- The digest of the ciphertext stands for the ciphertext. -/
  payloadHash : String
  nonce : String
  status : RemoteCommandStatus
  execution : Option (String × Instant)
  hostAcknowledgedAt : Option Instant := none
  resultRef : Option String := none
  errorCode : Option String := none
  held : execution.isSome = status.isOpen

namespace ReceiptRow

/-- `execution_owner_id = ?` -/
def ownedBy (row : ReceiptRow) (ownerId : String) : Bool :=
  row.execution.any fun held => held.1 = ownerId

/-- `execution_lease_expires_at IS NULL OR execution_lease_expires_at <= ?` -/
def expired (row : ReceiptRow) (now : Instant) : Bool :=
  row.execution.all fun held => held.2 ≤ now

/-- `status='rejected' AND error_code='remote.approval_required'` -/
def awaitsApproval (row : ReceiptRow) : Bool :=
  row.status = .rejected && row.errorCode = "remote.approval_required"

/-- What `claim_command_execution` asks of a row. -/
def claimableBy (row : ReceiptRow) (ownerId : String) : Bool :=
  (row.status = .received && row.ownedBy ownerId) || row.awaitsApproval

/-- `_receipt`: a `RemoteCommandReceipt` has a result reference of at most 500 characters. -/
def receipt (row : ReceiptRow) : RemoteCommandReceipt :=
  { commandId := row.commandId
    idempotencyKey := row.idempotencyKey
    actionHash := row.actionHash
    status := row.status
    hostAcknowledgedAt := row.hostAcknowledgedAt
    resultRef := row.resultRef
    errorCode := row.errorCode }

/-- The result reference fits a receipt. -/
def readable (row : ReceiptRow) : Bool := row.resultRef.all fun ref => ref.length ≤ 500

/-- The statement of `claim_command_execution`. -/
def claimed (row : ReceiptRow) (ownerId : String) (leaseExpiresAt now : Instant) : ReceiptRow :=
  { row with
    status := .accepted
    execution := some (ownerId, leaseExpiresAt)
    hostAcknowledgedAt := some (row.hostAcknowledgedAt.getD now)
    resultRef := none
    errorCode := none
    held := rfl }

/-- A new lease, where there is one. -/
def renewed (row : ReceiptRow) (leaseExpiresAt : Instant) : ReceiptRow :=
  { row with
    execution := row.execution.map fun held => (held.1, leaseExpiresAt)
    held := by rw [Option.isSome_map]; exact row.held }

/-- A status that ends the execution, with its owner and lease. -/
def ended (row : ReceiptRow) (status : RemoteCommandStatus) (closed : status.isOpen = false)
    (resultRef errorCode : Option String) (hostAcknowledgedAt : Option Instant) : ReceiptRow :=
  { row with
    status := status
    execution := none
    hostAcknowledgedAt := hostAcknowledgedAt
    resultRef := resultRef
    errorCode := errorCode
    held := closed.symm }

end ReceiptRow
end Operant.RemoteControl
