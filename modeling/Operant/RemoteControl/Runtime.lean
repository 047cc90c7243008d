import Operant.RemoteControl.System

/-! `RemoteControlService`, call by call. -/
namespace Operant.RemoteControl
open Operant.Calls Operant.Security
open Operant.Scheduler (Instant seconds)

abbrev Action (α : Type) := Prog Call Answer Raised α

/-- A call whose exception is raised. -/
def ask (c : Call) : Action (Reply c) := Prog.request c >>= Prog.lift

/-- A service: its owner id and lease, the capabilities of its operations, and what its
cryptography makes of a command: nothing where it does not authenticate, and a payload where
that is one. -/
structure Service where
  ownerId : String
  leaseSeconds : ℤ := 30
  operationCapabilities : List ((String × String) × List Capability)
  decrypt : EncryptedRemoteCommand → RemoteDevice → RemoteSession → Option (Option RemoteActionPayload)

/-! ### The checks of a submission -/

/-- `_active_host`. -/
def activeHost (id : String) : Action HostInstance := do
  match ← (ask (.getHost id)).attempt with
  | .error .key => throw (.remote "remote.host_not_found" "remote host was not found" 404)
  | .error e => throw e
  | .ok host =>
    if !host.isActive then
      throw (.remote "remote.host_offline" "remote host is disabled or offline" 409)
    else return host

/-- `_active_device`. -/
def activeDevice (id hostId : String) : Action RemoteDevice := do
  match ← (ask (.getDevice id)).attempt with
  | .error .key => throw (.remote "remote.device_not_found" "remote device was not found" 404)
  | .error e => throw e
  | .ok device =>
    if device.hostId ≠ hostId ∨ device.revokedAt ≠ none then
      throw (.remote "remote.device_revoked" "remote device is revoked" 403)
    else return device

/-- `_active_session`. -/
def activeSession (id : String) (now : Instant) : Action RemoteSession := do
  match ← (ask (.getSession id)).attempt with
  | .error .key => throw (.remote "remote.session_not_found" "remote session was not found" 404)
  | .error e => throw e
  | .ok session =>
    if session.connectionState ≠ .connected ∨ session.expiresAt ≤ now then
      throw (.remote "remote.session_inactive" "remote session is not active" 409)
    else return session

/-- `_validate_command_time`. -/
def validateCommandTime (command : EncryptedRemoteCommand) (now : Instant) : Except Raised Unit := do
  if command.issuedAt > now + seconds 60 then
    throw (.remote "remote.command_from_future" "remote command issue time is invalid" 400)
  if command.expiresAt ≤ now then
    throw (.remote "remote.command_expired" "remote command has expired" 400)
  if command.expiresAt - command.issuedAt > seconds 300 then
    throw (.remote "remote.command_ttl_exceeded" "remote command TTL is too long" 400)

/-- The capabilities of a remote control operation, of which it has one. -/
def remoteMarkers : List Capability :=
  [.remoteControlObserve, .remoteControlCommand, .remoteControlApprove]

/-- What an observation must not be mixed with. -/
def sideEffects : List Capability :=
  [.workspaceWrite, .workspaceDelete, .processExec, .processExecNoNetwork, .networkEgress,
    .secretUse, .gitCommit, .gitPush, .browserNavigate, .browserSubmit, .computerInput,
    .computerClipboardWrite, .externalMessageSend, .productionMutate, .policyModify]

def browserCapabilities : List Capability := [.browserObserve, .browserNavigate, .browserSubmit]

def computerCapabilities : List Capability :=
  [.computerObserve, .computerInput, .computerClipboardRead, .computerClipboardWrite]

/-- Some capability of the payload is among these. -/
def RemoteActionPayload.hasAny (payload : RemoteActionPayload) (capabilities : List Capability) : Bool :=
  payload.capabilities.any fun capability => capability ∈ capabilities

/-- `_require_scope`. -/
def requireScope (s : Service) (device : RemoteDevice) (payload : RemoteActionPayload) :
    Except Raised Unit := do
  match s.operationCapabilities.lookup (payload.tool, payload.operation) with
  | none => throw (.remote "remote.operation_not_registered"
      "remote operation has no trusted capability registration" 403)
  | some expected =>
    if !(payload.capabilities.all (· ∈ expected) && expected.all (· ∈ payload.capabilities)) then
      throw (.remote "remote.capability_mismatch"
        "remote capabilities do not match the trusted operation registration" 403)
    if (remoteMarkers.filter (· ∈ payload.capabilities)).length ≠ 1 then
      throw (.remote "remote.capability_mismatch"
        "remote operation must have exactly one trusted remote capability" 403)
    if .remoteControlObserve ∈ payload.capabilities ∧ payload.hasAny sideEffects then
      throw (.remote "remote.observe_side_effect_mixed"
        "observe scope cannot be mixed with side-effect capabilities" 403)
    if .remoteControlObserve ∈ payload.capabilities ∧ .observe ∉ device.scopes then
      throw (.remote "remote.scope_denied" "device lacks observe scope" 403)
    if .remoteControlCommand ∈ payload.capabilities ∧ .command ∉ device.scopes then
      throw (.remote "remote.scope_denied" "device lacks command scope" 403)
    if .remoteControlApprove ∈ payload.capabilities ∧ .approve ∉ device.scopes then
      throw (.remote "remote.scope_denied" "device lacks approval scope" 403)
    if payload.hasAny browserCapabilities ∧ .browser ∉ device.scopes then
      throw (.remote "remote.scope_denied" "device lacks browser scope" 403)
    if payload.hasAny computerCapabilities ∧ .computer ∉ device.scopes then
      throw (.remote "remote.scope_denied" "device lacks computer scope" 403)
    if payload.tool = "settings" ∧ .settings ∉ device.scopes then
      throw (.remote "remote.scope_denied" "device lacks settings scope" 403)

/-- `verify_command`, `decrypt_command` with the key of the session, and the payload. -/
def openCommand (s : Service) (command : EncryptedRemoteCommand) (device : RemoteDevice)
    (session : RemoteSession) : Action RemoteActionPayload := do
  match ← (ask (.getKey session.sessionKeyRef)).attempt with
  | .error _ => throw (.remote "remote.command_authentication_failed"
      "remote command authentication failed" 403)
  | .ok () => match s.decrypt command device session with
    | none => throw (.remote "remote.command_authentication_failed"
        "remote command authentication failed" 403)
    | some none => throw .validation
    | some (some payload) => return payload

/-! ### Submissions -/

/-- What a submission has checked and asked for by the time it reserves its receipt. -/
structure Prepared where
  now : Instant
  host : HostInstance
  device : RemoteDevice
  payload : RemoteActionPayload
  guarded : Guarded

/-- `submit_command`, up to the guard. -/
def prepare (s : Service) (command : EncryptedRemoteCommand) : Action Prepared := do
  let now ← ask .now
  ask (.reconcileIncompleteCommands now)
  Prog.lift (validateCommandTime command now)
  let host ← activeHost command.hostId
  let device ← activeDevice command.deviceId command.hostId
  let session ← activeSession command.remoteSessionId now
  if session.deviceId ≠ device.deviceId ∨ session.hostId ≠ host.hostId then
    throw (.remote "remote.command_binding_invalid" "remote command binding is invalid" 400)
  else if command.protocolVersion ≠ session.protocolVersion then
    throw (.remote "remote.protocol_mismatch" "remote protocol version does not match" 400)
  else
    let payload ← openCommand s command device session
    Prog.lift (requireScope s device payload)
    let guarded ← ask (.guard device payload command.idempotencyKey)
    return ⟨now, host, device, payload, guarded⟩

/-- `reserve_command`: the receipt, and whether it has just been inserted. -/
def reserve (s : Service) (command : EncryptedRemoteCommand) (p : Prepared) :
    Action (RemoteCommandReceipt × Bool) := do
  match ← ask (.reserveCommand ⟨command, p.guarded.actionHash, s.ownerId,
      p.now + seconds s.leaseSeconds⟩) with
  | some receipt => return (receipt, false)
  | none =>
    let receipt ← ask (.getCommand command.commandId)
    return (receipt, true)

/-- `set_command_status`: the transaction, then what it left. -/
def setCommandStatus (id : String) (status expected : RemoteCommandStatus) (ownerId : String)
    (now : Instant) (resultRef errorCode : Option String) (hostAck : Bool) :
    Action RemoteCommandReceipt := do
  ask (.setCommandStatus id status expected ownerId now resultRef errorCode hostAck)
  ask (.getCommand id)

/-- `_finish_owned_command`. -/
def finishOwnedCommand (s : Service) (id : String) (status : RemoteCommandStatus)
    (resultRef errorCode : Option String) : Action RemoteCommandReceipt := do
  let now ← ask .now
  match ← (setCommandStatus id status .accepted s.ownerId now resultRef errorCode false).attempt with
  | .ok receipt => return receipt
  | .error e =>
    -- An expired owner may have been closed and reconciled.
    if e.isConflict then ask (.getCommand id) else throw e

/-- What becomes of a command that is claimed. -/
def executeCommand (s : Service) (command : EncryptedRemoteCommand) (p : Prepared)
    (claimant : Claimant) : Action RemoteCommandReceipt := do
  match ← (ask (.execute command.commandId p.payload claimant)).attempt with
  | .ok resultRef => finishOwnedCommand s command.commandId .completed resultRef none
  | .error (.remote code _ _) => finishOwnedCommand s command.commandId .rejected none code
  | .error _ =>
    if p.guarded.idempotencyLevel = .readOnly then
      finishOwnedCommand s command.commandId .rejected none "remote.execution_failed"
    else finishOwnedCommand s command.commandId .outcomeUnknown none "remote.outcome_unknown"

/-- `submit_command`, from its receipt on; the heartbeat is a task of its own. -/
def respond (s : Service) (command : EncryptedRemoteCommand) (p : Prepared)
    (receipt : RemoteCommandReceipt) (created : Bool) : Action RemoteCommandReceipt := do
  if !created ∧ (receipt.status ≠ .rejected ∨ receipt.errorCode ≠ "remote.approval_required") then
    return receipt
  else if p.guarded.decision ≠ .allow ∨ p.guarded.hasLease = false then
    if !created then return receipt
    else
      setCommandStatus command.commandId .rejected .received s.ownerId p.now p.guarded.approvalId
        (if p.guarded.decision = .ask then "remote.approval_required" else "remote.policy_denied") true
  else
    ask .consume
    let claimant : Claimant := ⟨p.host, p.device, !created⟩
    ask (.claimCommandExecution command.commandId s.ownerId (p.now + seconds s.leaseSeconds) p.now
      claimant)
    let _ ← ask (.getCommand command.commandId)
    executeCommand s command p claimant

/-- `submit_command`. -/
def submitCommand (s : Service) (command : EncryptedRemoteCommand) : Action RemoteCommandReceipt := do
  let p ← prepare s command
  let (receipt, created) ← reserve s command p
  respond s command p receipt created

/-- The same, with what we want to know of its end. A receipt that cannot be read is there as
well. -/
def submission (s : Service) (command : EncryptedRemoteCommand) : Action Submission := do
  let p ← prepare s command
  match ← (reserve s command p).attempt with
  | .error .validation => return ⟨command.commandId, true, .error .validation⟩
  | .error e => throw e
  | .ok (receipt, created) =>
    let result ← (respond s command p receipt created).attempt
    return ⟨command.commandId, !created, result⟩

/-- It is `submit_command` that we note. -/
theorem submission_result (s : Service) (command : EncryptedRemoteCommand) :
    (submission s command >>= fun noted => Prog.lift noted.result) = submitCommand s command := by
  unfold submission submitCommand
  rw [Prog.bind_assoc]
  congr 1
  funext p
  conv_rhs => rw [← Prog.attempt_lift (reserve s command p), Prog.bind_assoc]
  rw [Prog.bind_assoc]
  congr 1
  funext reserved
  match reserved with
  | .error e => cases e <;> rfl
  | .ok (receipt, created) =>
    show (respond s command p receipt created).attempt >>= _ >>= _ = respond s command p receipt created
    rw [Prog.bind_assoc]
    exact Prog.attempt_lift _

/-! ### The other operations -/

/-- `reconcile_command`. -/
def reconcileCommand (id : String) (status : RemoteCommandStatus)
    (resultRef errorCode : Option String) : Action RemoteCommandReceipt := do
  if status ≠ .completed ∧ status ≠ .rejected then
    throw (.remote "remote.invalid_reconciliation"
      "manual reconciliation requires a known terminal outcome" 400)
  else
    let reconciled : Action RemoteCommandReceipt := do
      ask (.reconcileCommand id status resultRef errorCode)
      ask (.getCommand id)
    match ← reconciled.attempt with
    | .ok receipt => return receipt
    | .error e =>
      if e.isConflict then
        throw (.remote "remote.reconciliation_conflict"
          "only outcome-unknown commands can be reconciled" 409)
      else throw e

/-- One round of `_command_execution_heartbeat`. -/
def heartbeat (s : Service) (id : String) : Action Unit := do
  let now ← ask .now
  ask (.renewCommandExecutionLease id s.ownerId (now + seconds s.leaseSeconds))

/-- What the constructor of a service does. -/
def construct : Action Unit := do
  let now ← ask .now
  ask (.reconcileIncompleteCommands now)

/-- `revoke_device`. -/
def revokeDevice (id : String) : Action RemoteDevice := do
  let now ← ask .now
  let device ← ask (.revokeDevice id now)
  let sessions ← ask (.listSessions device.hostId)
  let _ ← (sessions.filter fun session => session.deviceId = id).mapM fun session =>
    ask (.deleteKey session.sessionKeyRef)
  return device

/-- `close_session`. -/
def closeSession (id : String) : Action RemoteSession := do
  let session ← ask (.closeSession id)
  ask (.deleteKey session.sessionKeyRef)
  return session

/-- `enable_host`, of a host that there is. -/
def enableHost (id protocolVersion : String) (enabled : Bool) : Action HostInstance := do
  match ← (ask (.getHost id)).attempt with
  | .error .key => throw (.remote "remote.host_not_found" "remote host was not found" 404)
  | .error e => throw e
  | .ok existing =>
    let host : HostInstance := { existing with
      protocolVersion := protocolVersion
      enabled := enabled
      onlineState := if enabled then .online else .offline }
    ask (.putHost host)
    if enabled then return host
    else
      let sessions ← ask (.listSessions id)
      let _ ← (sessions.filter fun session => session.connectionState ≠ .closed).mapM fun session =>
        closeSession session.remoteSessionId
      return host

/-! ### Everybody -/

inductive Task where
  | submit (service : Service) (command : EncryptedRemoteCommand)
  | reconcile (id : String) (status : RemoteCommandStatus) (resultRef errorCode : Option String)
  | heartbeat (service : Service) (id : String)
  | construct
  | revoke (deviceId : String)
  | closeSession (id : String)
  | enableHost (id protocolVersion : String) (enabled : Bool)
  /-- `enable_host`, of a new host, whose keys are stored by then. -/
  | createHost (host : HostInstance)
  | other (change : Change)

def Task.code : Task → Action (Option Submission)
  | .submit service command => do
    let noted ← submission service command
    return some noted
  | .reconcile id status resultRef errorCode => do
    let _ ← reconcileCommand id status resultRef errorCode
    return none
  | .heartbeat service id => do
    RemoteControl.heartbeat service id
    return none
  | .construct => do
    RemoteControl.construct
    return none
  | .revoke deviceId => do
    let _ ← revokeDevice deviceId
    return none
  | .closeSession id => do
    let _ ← RemoteControl.closeSession id
    return none
  | .enableHost id protocolVersion enabled => do
    let _ ← RemoteControl.enableHost id protocolVersion enabled
    return none
  | .createHost host => do
    ask (.putHost host)
    return none
  | .other change => do
    ask (.change change)
    return none

/-- Any number of services and callers. -/
def system : System Call Answer Raised World Task (Option Submission) where
  exec c w := .ok (w.exec c)
  code := Task.code
  note _ ending w := { w with submissions := w.submissions ++ ending.toList }

/-- The pool in which nothing has happened yet. -/
def start : Pool Call Answer Raised World Task (Option Submission) := { world := {} }

/-- What a run of the system leaves. -/
def reached (moves : List (Move Task)) : World := (start.play system moves).world

end Operant.RemoteControl
