import Operant.RemoteControl.Domain
import Operant.Calls.Owners
import Operant.Tables.Rows

/-! What the callers of `RemoteControlService` share: the tables of
`SQLiteRemoteControlRepository` that commands need, and the keys of sessions.

Each call is one transaction, one read, or one use of the gateway, of the key store or of the
executor. What these answer, and the clock, is `Outside`. Two lists are for us only:
`history`, which every write to a receipt goes into, and `starts` of the executor; and two
arguments of calls, of what the submission they belong to has read. -/
namespace Operant.RemoteControl
open Operant.Tables Operant.Calls Operant.Security
open Operant.Scheduler (Instant seconds)

/-- Exceptions, as far as they are told apart. -/
inductive Raised where
  /-- `RemoteControlError`. -/
  | remote (code message : String) (statusCode : Nat)
  /-- `ConflictError`. -/
  | conflict (message : String)
  /-- `IdempotencyConflictError`, which is a `ConflictError`. -/
  | idempotencyConflict (message : String)
  | key
  /-- `McpError`. -/
  | mcp (code : String)
  /-- pydantic's `ValidationError`. -/
  | validation
  | other (typeName : String)
  deriving DecidableEq

/-- What `_finish_owned_command` handles. -/
def Raised.isConflict : Raised → Bool
  | .conflict _ | .idempotencyConflict _ => true
  | .remote .. | .key | .mcp _ | .validation | .other _ => false

/-- What `Phase45ActionGateway.guard` returns, as far as `submit_command` reads it. -/
structure Guarded where
  actionHash : String
  idempotencyLevel : IdempotencyLevel
  decision : GatewayDecision
  hasLease : Bool
  approvalId : Option String

/-- What may be otherwise at any moment. -/
structure Outside where
  clock : Instant := 0
  /-- The exception that calls on the store raise, if any, by the name of its type. -/
  fault : Option String := none
  guard : Except Raised Guarded :=
    .ok ⟨"", .unknown, .allow, true, none⟩
  /-- The leases can be consumed. -/
  leasesValid : Bool := true
  execute : Except Raised (Option String) := .ok none

/-- What a submission has read, and whether it is not the one that reserved its receipt. -/
structure Claimant where
  host : HostInstance
  device : RemoteDevice
  resubmitted : Bool

/-- Which statement wrote a receipt. -/
inductive Writer where
  | reserve
  | claim (claimant : Claimant)
  | status (expected : RemoteCommandStatus)
  | renew
  | sweep (now : Instant)
  | reconcile

/-- A write, what it made of a receipt, and whether its device and its host were active then. -/
structure ReceiptWrite where
  writer : Writer
  before : Option ReceiptRow
  after : ReceiptRow
  deviceActive : Bool
  hostActive : Bool

/-- A use of the executor, with the key of the receipt. -/
structure Start where
  commandId : String
  deviceId : String
  idempotencyKey : Option String
  deviceActive : Bool
  hostActive : Bool

/-- A submission that has ended: whether it found its receipt reserved, and how it ended. -/
structure Submission where
  commandId : String
  resubmitted : Bool
  result : Except Raised RemoteCommandReceipt

structure World where
  outside : Outside := {}
  hosts : List HostInstance := []
  devices : List RemoteDevice := []
  sessions : List RemoteSession := []
  keys : List String := []
  receipts : List ReceiptRow := []
  history : List ReceiptWrite := []
  starts : List Start := []
  submissions : List Submission := []

/-! ### Calls -/

/-- What others do. -/
inductive Change where
  | outside (f : Outside → Outside)
  /-- The last statement of `pair_device`. -/
  | putDevice (device : RemoteDevice)
  /-- The last statement of `create_session`, whose key is stored by then. -/
  | putSession (session : RemoteSession)

/-- The arguments of `reserve_command`. -/
structure Reservation where
  command : EncryptedRemoteCommand
  actionHash : String
  ownerId : String
  leaseExpiresAt : Instant

inductive Call where
  | change (change : Change)
  | now
  | getHost (id : String)
  | putHost (host : HostInstance)
  | getDevice (id : String)
  | revokeDevice (id : String) (now : Instant)
  | getSession (id : String)
  | listSessions (hostId : String)
  | closeSession (id : String)
  | getKey (ref : String)
  | deleteKey (ref : String)
  | guard (device : RemoteDevice) (payload : RemoteActionPayload) (idempotencyKey : String)
  | consume
  | reserveCommand (reservation : Reservation)
  | claimCommandExecution (id ownerId : String) (leaseExpiresAt now : Instant) (claimant : Claimant)
  | execute (id : String) (payload : RemoteActionPayload) (claimant : Claimant)
  | renewCommandExecutionLease (id ownerId : String) (leaseExpiresAt : Instant)
  | setCommandStatus (id : String) (status expected : RemoteCommandStatus) (ownerId : String)
      (now : Instant) (resultRef errorCode : Option String) (hostAck : Bool)
  | getCommand (id : String)
  | reconcileIncompleteCommands (now : Instant)
  | reconcileCommand (id : String) (status : RemoteCommandStatus)
      (resultRef errorCode : Option String)

/-- The call opens the database. -/
def Call.onStore : Call → Bool
  | .change _ | .now | .getKey _ | .deleteKey _ | .guard .. | .consume | .execute .. => false
  | _ => true

abbrev Reply : Call → Type
  | .change _ => Unit
  | .now => Instant
  | .getHost _ => HostInstance
  | .putHost _ => Unit
  | .getDevice _ => RemoteDevice
  | .revokeDevice .. => RemoteDevice
  | .getSession _ => RemoteSession
  | .listSessions _ => List RemoteSession
  | .closeSession _ => RemoteSession
  | .getKey _ => Unit
  | .deleteKey _ => Unit
  | .guard .. => Guarded
  | .consume => Unit
  | .reserveCommand _ => Option RemoteCommandReceipt
  | .claimCommandExecution .. => Unit
  | .execute .. => Option String
  | .renewCommandExecutionLease .. => Unit
  | .setCommandStatus .. => Unit
  | .getCommand _ => RemoteCommandReceipt
  | .reconcileIncompleteCommands _ => Unit
  | .reconcileCommand .. => Unit

abbrev Answer (c : Call) : Type := Except Raised (Reply c)

namespace World

/-! ### Hosts, devices and sessions -/

def host? (w : World) (id : String) : Option HostInstance := w.hosts.find? fun row => row.hostId = id

def device? (w : World) (id : String) : Option RemoteDevice :=
  w.devices.find? fun row => row.deviceId = id

def session? (w : World) (id : String) : Option RemoteSession :=
  w.sessions.find? fun row => row.remoteSessionId = id

/-- `put_host`. -/
def putHost (w : World) (host : HostInstance) : World :=
  if (w.host? host.hostId).isSome then
    { w with hosts := update w.hosts (fun row => row.hostId = host.hostId) fun _ => host }
  else { w with hosts := w.hosts ++ [host] }

/-- `put_device`, of a device that is not revoked. -/
def putDevice (w : World) (device : RemoteDevice) : World :=
  if w.devices.any (fun row => row.deviceId = device.deviceId || (row.hostId = device.hostId &&
        (row.signingPublicKey = device.signingPublicKey ||
          row.exchangePublicKey = device.exchangePublicKey))) ∨
      (w.host? device.hostId).isNone ∨ device.revokedAt.isSome then w
  else { w with devices := w.devices ++ [device] }

/-- `put_session`, and its key. -/
def putSession (w : World) (session : RemoteSession) : World :=
  if (w.session? session.remoteSessionId).isSome ∨
      !(w.devices.any fun row => row.deviceId = session.deviceId && row.hostId = session.hostId) then w
  else { w with
    sessions := w.sessions ++ [session]
    keys := w.keys ++ [session.sessionKeyRef] }

/-- `revoke_device`. -/
def revokeDevice (w : World) (id : String) (now : Instant) : Except Raised RemoteDevice × World :=
  let revoked (row : RemoteDevice) : RemoteDevice :=
    { row with revokedAt := some now, version := row.version + 1 }
  let w' := { w with
    devices := update w.devices (fun row => row.deviceId = id && row.revokedAt.isNone) revoked
    sessions := update w.sessions (fun row => row.deviceId = id) fun row =>
      { row with connectionState := .closed } }
  match w'.device? id with
  | none => (.error .key, w')
  | some device => (.ok device, w')

/-- `close_session`. -/
def closeSession (w : World) (id : String) : Except Raised RemoteSession × World :=
  let w' := { w with
    sessions := update w.sessions (fun row => row.remoteSessionId = id) fun row =>
      { row with connectionState := .closed } }
  match w'.session? id with
  | none => (.error .key, w')
  | some session => (.ok session, w')

/-! ### Receipts -/

def receipt? (w : World) (id : String) : Option ReceiptRow :=
  w.receipts.find? fun row => row.commandId = id

def deviceActive (w : World) (id : String) : Bool :=
  (w.device? id).any fun row => row.revokedAt.isNone

def hostActive (w : World) (id : String) : Bool := (w.host? id).any HostInstance.isActive

/-- A write, as we note it. -/
def noted (w : World) (writer : Writer) (before : Option ReceiptRow) (after : ReceiptRow) :
    ReceiptWrite :=
  ⟨writer, before, after, w.deviceActive after.deviceId, w.hostActive after.hostId⟩

/-- `UPDATE remote_command_receipts SET f WHERE p`, and what we note of it. -/
def write (w : World) (writer : Writer) (p : ReceiptRow → Bool) (f : ReceiptRow → ReceiptRow) :
    World :=
  { w with
    receipts := update w.receipts p f
    history := w.history ++ (w.receipts.filter p).map fun row => w.noted writer (some row) (f row) }

/-- The same, where `rowcount != 1` is a conflict, which rolls back. -/
def writeOne (w : World) (writer : Writer) (p : ReceiptRow → Bool) (f : ReceiptRow → ReceiptRow)
    (message : String) : Except Raised Unit × World :=
  if (w.receipts.filter p).length ≠ 1 then (.error (.conflict message), w)
  else (.ok (), w.write writer p f)

/-- `CHECK (error_code IS NULL OR length(error_code) BETWEEN 1 AND 200)` -/
def codeFits (errorCode : Option String) : Bool :=
  errorCode.all fun code => 1 ≤ code.length && code.length ≤ 200

/-- The same for a status that ends the execution; where a row matches, the table checks the
error code and that the row has no owner. -/
def endOne (w : World) (writer : Writer) (p : ReceiptRow → Bool) (status : RemoteCommandStatus)
    (resultRef errorCode : Option String) (hostAck : Option Instant) (message : String) :
    Except Raised Unit × World :=
  if h : status.isOpen = false ∧ codeFits errorCode then
    w.writeOne writer p
      (fun row => row.ended status h.1 resultRef errorCode (row.hostAcknowledgedAt <|> hostAck)) message
  else if w.receipts.any p then (.error (.other "IntegrityError"), w)
  else (.error (.conflict message), w)

def received (reservation : Reservation) : ReceiptRow :=
  { commandId := reservation.command.commandId
    idempotencyKey := reservation.command.idempotencyKey
    actionHash := reservation.actionHash
    hostId := reservation.command.hostId
    deviceId := reservation.command.deviceId
    remoteSessionId := reservation.command.remoteSessionId
    payloadHash := reservation.command.ciphertext
    nonce := reservation.command.nonce
    status := .received
    execution := some (reservation.ownerId, reservation.leaseExpiresAt)
    held := rfl }

/-- A constraint of the table does not take the row. -/
def refuses (w : World) (row : ReceiptRow) (ownerId : String) : Bool :=
  (w.receipts.any fun other => other.actionHash = row.actionHash ||
    (other.deviceId = row.deviceId && other.nonce = row.nonce)) ||
  ownerId.length < 1 || 300 < ownerId.length || (w.host? row.hostId).isNone ||
  (w.device? row.deviceId).isNone || (w.session? row.remoteSessionId).isNone

/-- `reserve_command`, up to the read that ends it: the receipt where there is one, nothing
where it has just been inserted. Of two rows that match, the one inserted first is fetched. -/
def reserveCommand (w : World) (reservation : Reservation) :
    Except Raised (Option RemoteCommandReceipt) × World :=
  let row := received reservation
  match w.receipts.find? fun old =>
      old.commandId = row.commandId || old.idempotencyKey = row.idempotencyKey with
  | some existing =>
    if existing.commandId ≠ row.commandId ∨ existing.payloadHash ≠ row.payloadHash ∨
        existing.deviceId ≠ row.deviceId then
      (.error (.idempotencyConflict "remote command key is already bound"), w)
    else if existing.readable then (.ok (some existing.receipt), w)
    else (.error .validation, w)
  | none =>
    if w.refuses row reservation.ownerId then
      (.error (.conflict "remote command replay or binding conflict"), w)
    else (.ok none, { w with
      receipts := w.receipts ++ [row]
      history := w.history ++ [w.noted .reserve none row] })

def claimCommandExecution (w : World) (id ownerId : String) (leaseExpiresAt now : Instant)
    (claimant : Claimant) : Except Raised Unit × World :=
  let p (row : ReceiptRow) : Bool := row.commandId = id && row.claimableBy ownerId
  if w.receipts.any p ∧ (ownerId.length < 1 ∨ 300 < ownerId.length) then
    (.error (.other "IntegrityError"), w)
  else
    w.writeOne (.claim claimant) p (fun row => row.claimed ownerId leaseExpiresAt now)
      "remote command execution claim conflicts"

def renewCommandExecutionLease (w : World) (id ownerId : String) (leaseExpiresAt : Instant) :
    Except Raised Unit × World :=
  w.writeOne .renew
    (fun row => row.commandId = id && row.status = .accepted && row.ownedBy ownerId)
    (fun row => row.renewed leaseExpiresAt) "remote command execution lease was lost"

/-- The transaction of `set_command_status`. -/
def setCommandStatus (w : World) (id : String) (status expected : RemoteCommandStatus)
    (ownerId : String) (now : Instant) (resultRef errorCode : Option String) (hostAck : Bool) :
    Except Raised Unit × World :=
  w.endOne (.status expected)
    (fun row => row.commandId = id && row.status = expected && row.ownedBy ownerId)
    status resultRef errorCode (if hostAck then some now else none)
    "remote command status transition conflicts"

/-- `get_command`. -/
def getCommand (w : World) (id : String) : Except Raised RemoteCommandReceipt :=
  match w.receipt? id with
  | none => .error .key
  | some row => if row.readable then .ok row.receipt else .error .validation

/-- `reconcile_incomplete_commands`. -/
def reconcileIncompleteCommands (w : World) (now : Instant) : World :=
  let accepted := w.write (.sweep now) (fun row => row.status = .accepted && row.expired now) fun row =>
    row.ended .outcomeUnknown rfl row.resultRef "remote.manual_reconcile_required"
      row.hostAcknowledgedAt
  accepted.write (.sweep now) (fun row => row.status = .received && row.expired now) fun row =>
    row.ended .rejected rfl row.resultRef "remote.interrupted_before_execution" row.hostAcknowledgedAt

/-- The transaction of `reconcile_command`. -/
def reconcileCommand (w : World) (id : String) (status : RemoteCommandStatus)
    (resultRef errorCode : Option String) : Except Raised Unit × World :=
  w.endOne .reconcile (fun row => row.commandId = id && row.status = .outcomeUnknown) status resultRef
    errorCode none "remote command cannot be reconciled from its current state"

/-- The executor is started. -/
def started (w : World) (id : String) (claimant : Claimant) : World :=
  { w with starts := w.starts ++ [⟨id, claimant.device.deviceId,
      (w.receipt? id).map ReceiptRow.idempotencyKey, w.deviceActive claimant.device.deviceId,
      w.hostActive claimant.host.hostId⟩] }

/-! ### Everything -/

def found {α : Type} (row : Option α) : Except Raised α :=
  match row with
  | none => .error .key
  | some row => .ok row

def change (w : World) : Change → World
  | .outside f => { w with outside := f w.outside }
  | .putDevice device => w.putDevice device
  | .putSession session => w.putSession session

/-- What a call replies and leaves, where nothing is at fault. -/
def answer (w : World) : (c : Call) → Answer c × World
  | .change change => (.ok (), w.change change)
  | .now => (.ok w.outside.clock, w)
  | .getHost id => (found (w.host? id), w)
  | .putHost host => (.ok (), w.putHost host)
  | .getDevice id => (found (w.device? id), w)
  | .revokeDevice id now => w.revokeDevice id now
  | .getSession id => (found (w.session? id), w)
  | .listSessions hostId => (.ok (w.sessions.filter fun row => row.hostId = hostId), w)
  | .closeSession id => w.closeSession id
  | .getKey ref => (if ref ∈ w.keys then .ok () else .error .key, w)
  | .deleteKey ref => (.ok (), { w with keys := w.keys.filter fun key => key ≠ ref })
  | .guard .. => (w.outside.guard, w)
  | .consume => (if w.outside.leasesValid then .ok () else .error (.mcp "mcp.capability_lease_invalid"), w)
  | .reserveCommand reservation => w.reserveCommand reservation
  | .claimCommandExecution id ownerId leaseExpiresAt now claimant =>
    w.claimCommandExecution id ownerId leaseExpiresAt now claimant
  | .execute id _ claimant => (w.outside.execute, w.started id claimant)
  | .renewCommandExecutionLease id ownerId leaseExpiresAt =>
    w.renewCommandExecutionLease id ownerId leaseExpiresAt
  | .setCommandStatus id status expected ownerId now resultRef errorCode hostAck =>
    w.setCommandStatus id status expected ownerId now resultRef errorCode hostAck
  | .getCommand id => (w.getCommand id, w)
  | .reconcileIncompleteCommands now => (.ok (), w.reconcileIncompleteCommands now)
  | .reconcileCommand id status resultRef errorCode => w.reconcileCommand id status resultRef errorCode

def exec (w : World) (c : Call) : Answer c × World :=
  match w.outside.fault with
  | none => w.answer c
  | some typeName => if c.onStore then (.error (.other typeName), w) else w.answer c

end World
end Operant.RemoteControl
