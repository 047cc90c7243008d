import Operant.RemoteExecution.Domain
import Operant.Calls.Pool
import Operant.Tables.Pages

/-! What the callers of `RemoteExecutionController` share: the tables of
`SQLiteRemoteExecutionRepository` that leases and jobs need.

Each call is one transaction, one read, or one use of the gateway or of a connector. What these
answer, the monotonic clock, and what a transaction may fail with for other reasons is `Outside`.
`history`, which every write to a job goes into, is for us only, and so are two arguments of
calls: what the check before a poll has seen, and whether a result stands for an outcome that is
lost. -/
namespace Operant.RemoteExecution
open Operant.Python Operant.Tables
open Operant.Scheduler (Instant)

/-- Exceptions, as far as they are told apart. -/
inductive Raised where
  /-- `ConflictError`. -/
  | conflict (message : String)
  /-- `IdempotencyConflictError`, which is a `ConflictError`. -/
  | idempotencyConflict (message : String)
  | key
  | value (message : String)
  /-- `sqlite3.IntegrityError`. -/
  | integrity
  /-- `RemoteOutcomeUnknown`. -/
  | outcomeUnknown
  | other (typeName : String)
  deriving DecidableEq

/-- What `except ConflictError` handles. -/
def Raised.isConflict : Raised → Bool
  | .conflict _ | .idempotencyConflict _ => true
  | .key | .value _ | .integrity | .outcomeUnknown | .other _ => false

/-- Bytes, as far as they are checked. -/
structure Artifact where
  size : Nat
  sha256 : String

structure ConnectorOutcome where
  result : RemoteExecutionResult
  artifact : Option Artifact := none

/-- What may be otherwise at any moment. -/
structure Outside where
  /-- The exception that calls on the store raise, if any. -/
  fault : Option Raised := none
  monotonic : Instant := 0
  authorize : Except Raised Unit := .ok ()
  execute : RemoteExecutionJob → Except Raised ConnectorOutcome := fun _ => .error .outcomeUnknown

/-- A write to a job, and whether an outcome that is lost was its cause. -/
structure JobWrite where
  before : RemoteExecutionJob
  after : RemoteExecutionJob
  lost : Bool
  deriving DecidableEq

structure World where
  outside : Outside := {}
  /-- `action_hash` of `security_action_requests`. -/
  actionRequests : List String := []
  targets : List RemoteTargetRegistration := []
  leases : List RemoteTargetLease := []
  jobs : List RemoteExecutionJob := []
  results : List RemoteExecutionResult := []
  history : List JobWrite := []

/-- The arguments that name a lease. -/
structure LeaseRef where
  targetId : String
  leaseId : String
  token : String
  fencing : Nat
  deriving DecidableEq

namespace World

def target? (w : World) (targetId : String) : Option RemoteTargetRegistration :=
  w.targets.find? fun row => row.targetId = targetId

def job? (w : World) (jobId : String) : Option RemoteExecutionJob :=
  w.jobs.find? fun row => row.jobId = jobId

def result? (w : World) (jobId : String) : Option RemoteExecutionResult :=
  w.results.find? fun row => row.jobId = jobId

/-- `UPDATE remote_execution_jobs SET f WHERE p`. -/
def updateJobs (w : World) (lost : Bool) (p : RemoteExecutionJob → Bool)
    (f : RemoteExecutionJob → RemoteExecutionJob) : World :=
  { w with
    jobs := update w.jobs p f
    history := w.history ++ (w.jobs.filter p).map fun job => ⟨job, f job, lost⟩ }

/-! ### Targets -/

/-- `register_target`. -/
def registerTarget (w : World) (target : RemoteTargetRegistration) :
    Except Raised (RemoteTargetRegistration × World) :=
  match w.target? target.targetId with
  | some current =>
    if current.sameAs target then .ok (current, w)
    else throw (.conflict "remote target registration is immutable")
  | none => .ok (target, { w with targets := w.targets ++ [target] })

/-- `heartbeat_target`. -/
def heartbeatTarget (w : World) (targetId identityPublicKey : String) :
    Except Raised (RemoteTargetRegistration × World) :=
  match w.target? targetId with
  | none => throw .key
  | some row =>
    if row.identityPublicKey ≠ identityPublicKey then
      throw (.conflict "remote target identity does not match")
    else if row.status = .revoked then throw (.conflict "remote target is revoked")
    else .ok ({ row with status := .online }, { w with
      targets := update w.targets (fun row => row.targetId = targetId) fun row =>
        { row with status := .online } })

/-! ### Leases -/

/-- `acquire_lease`: the lease is stored with the next fencing number of its target. -/
def acquireLease (w : World) (lease : RemoteTargetLease) (now : Instant) :
    Except Raised (RemoteTargetLease × World) :=
  match w.target? lease.targetId with
  | none => throw .key
  | some target =>
    if target.status ≠ .online then throw (.conflict "remote target must be online before leasing")
    else if w.leases.any fun row => row.targetId = lease.targetId && row.isLive now then
      throw (.conflict "remote target already has an active lease")
    else if w.leases.any fun row => row.leaseId = lease.leaseId || row.token = lease.token then
      throw .integrity
    else
      let persisted := { lease with fencing := target.fencing + 1, releasedAt := none }
      .ok (persisted, { w with
        targets := update w.targets (fun row => row.targetId = lease.targetId) fun row =>
          { row with fencing := target.fencing + 1 }
        leases := w.leases ++ [persisted] })

/-- `_require_live_lease`. -/
def requireLiveLease (w : World) (ref : LeaseRef) (now : Instant) : Except Raised RemoteTargetLease :=
  match w.leases.find? fun row => row.leaseId = ref.leaseId && row.targetId = ref.targetId with
  | none => throw (.conflict "remote target lease is stale or mismatched")
  | some row =>
    if row.token ≠ ref.token ∨ row.fencing ≠ ref.fencing ∨ row.releasedAt ≠ none ∨
        row.expiresAt ≤ now then
      throw (.conflict "remote target lease is stale or mismatched")
    else match w.target? ref.targetId with
      | none => throw (.conflict "remote target fencing is stale")
      | some target =>
        if target.fencing ≠ ref.fencing ∨ target.status ≠ .online then
          throw (.conflict "remote target fencing is stale")
        else .ok row

/-- `renew_lease`. -/
def renewLease (w : World) (ref : LeaseRef) (now expiresAt : Instant) :
    Except Raised (RemoteTargetLease × World) :=
  if expiresAt ≤ now then throw (.value "lease expiry must follow renewal time")
  else do
    let row ← w.requireLiveLease ref now
    return ({ row with expiresAt := expiresAt }, { w with
      leases := update w.leases (fun row => row.leaseId = ref.leaseId) fun row =>
        { row with expiresAt := expiresAt } })

/-- `release_lease`. -/
def releaseLease (w : World) (ref : LeaseRef) (now : Instant) :
    Except Raised (RemoteTargetLease × World) := do
  let row ← w.requireLiveLease ref now
  return ({ row with releasedAt := some now }, { w with
    leases := update w.leases (fun row => row.leaseId = ref.leaseId) fun row =>
      { row with releasedAt := some now } })

/-! ### Jobs -/

/-- The jobs of a target that count against its limit. -/
def activeCount (w : World) (targetId : String) : Nat :=
  w.jobs.countP fun job => job.targetId = targetId && job.status.isActive

/-- The constraints of `remote_execution_jobs` that an insertion can break. -/
def refusesJob (w : World) (job : RemoteExecutionJob) : Bool :=
  (w.jobs.any fun row => row.jobId = job.jobId || row.actionHash = job.actionHash) ||
    job.actionHash ∉ w.actionRequests

/-- `create_job`. -/
def createJob (w : World) (job : RemoteExecutionJob) (leaseToken : String) (now : Instant) :
    Except Raised (RemoteExecutionJob × World) := do
  let _ ← w.requireLiveLease ⟨job.targetId, job.leaseId, leaseToken, job.leaseFencing⟩ now
  match w.jobs.find? fun row =>
      row.targetId = job.targetId && row.idempotencyKey = job.idempotencyKey with
  | some current =>
    if current.actionHash ≠ job.actionHash then
      throw (.idempotencyConflict "remote job idempotency key is bound to another action")
    else return (current, w)
  | none => match w.target? job.targetId with
    | none => throw (.other "AssertionError")
    | some target =>
      let manifest := target.capabilityManifest
      if job.capability ∉ manifest.capabilities then
        throw (.conflict "remote target does not advertise the requested capability")
      else if job.operation ∉ manifest.supportedOperations then
        throw (.conflict "remote target does not advertise the requested operation")
      else if job.payloadBytes > manifest.maxPayloadBytes then
        throw (.conflict "remote job payload exceeds the target manifest limit")
      else if w.activeCount job.targetId ≥ manifest.maxConcurrentJobs then
        throw (.conflict "remote target concurrency limit reached")
      else if w.refusesJob job then throw (.conflict "unable to persist remote execution job")
      else return (job, { w with
        jobs := w.jobs ++ [{ job with startedAt := none, finishedAt := none }] })

/-- What a poll may claim. -/
def claimable (ref : LeaseRef) (job : RemoteExecutionJob) : Bool :=
  job.targetId = ref.targetId && job.leaseId = ref.leaseId && job.leaseFencing = ref.fencing &&
    job.status = .queued

/-- `poll_jobs`. -/
def pollJobs (w : World) (ref : LeaseRef) (now : Instant) (limit : Nat) :
    Except Raised (List RemoteExecutionJob × World) :=
  if ¬(1 ≤ limit ∧ limit ≤ 32) then throw (.value "invalid remote job poll limit")
  else do
    let _ ← w.requireLiveLease ref now
    let ids := (page RemoteExecutionJob.key (claimable ref) w.jobs limit).map RemoteExecutionJob.jobId
    let w' := w.updateJobs false (fun job => job.jobId ∈ ids && job.status = .queued) fun job =>
      { job with status := .running, startedAt := some now }
    return (page RemoteExecutionJob.key (fun job => job.jobId ∈ ids) w'.jobs w'.jobs.length, w')

/-- `INSERT INTO remote_execution_results`. -/
def insertResult (w : World) (result : RemoteExecutionResult) : Except Raised World :=
  if w.results.any fun row =>
      row.jobId = result.jobId || row.resultIdempotencyKey = result.resultIdempotencyKey then
    throw .integrity
  else return { w with results := w.results ++ [result] }

/-- The observation is not of the job and the lease that the result is of. -/
def unbound (result : RemoteExecutionResult) (ref : LeaseRef)
    (observation : CapabilityObservation × ObservationSource) : Bool :=
  result.status ≠ .succeeded || observation.1.targetId ≠ ref.targetId ||
    observation.1.createdAt ≠ result.completedAt || observation.2.sourceJobId ≠ result.jobId ||
    observation.2.leaseId ≠ ref.leaseId || observation.2.leaseFencing ≠ ref.fencing

/-- `complete_job`. -/
def completeJob (w : World) (result : RemoteExecutionResult) (ref : LeaseRef) (now : Instant)
    (observation : Option (CapabilityObservation × ObservationSource)) (lost : Bool) :
    Except Raised (RemoteExecutionResult × World) :=
  if observation.any (unbound result ref) then
    throw (.conflict "completed observation is not bound to the successful Job")
  else do
    let _ ← w.requireLiveLease ref now
    match w.job? result.jobId with
    | none => throw .key
    | some job =>
      if job.targetId ≠ ref.targetId ∨ job.leaseId ≠ ref.leaseId ∨ job.leaseFencing ≠ ref.fencing then
        throw (.conflict "remote result is bound to another target lease")
      else match w.result? result.jobId with
        | some current =>
          if !current.sameAs result then
            throw (.idempotencyConflict "remote result is already bound")
          else return (current, w)
        | none =>
          if job.status ≠ .running ∧ job.status ≠ .leased then
            throw (.conflict "remote job is not running")
          else
            let w' ← w.insertResult result
            return (result, w'.updateJobs lost (fun row => row.jobId = result.jobId) fun row =>
              { row with status := result.status, finishedAt := some result.completedAt })

/-- `cancel_job`. -/
def cancelJob (w : World) (jobId : String) (now : Instant) : Except Raised (RemoteExecutionJob × World) :=
  match w.job? jobId with
  | none => throw .key
  | some job =>
    let w' := match job.status with
      | .queued => w.updateJobs false (fun row => row.jobId = jobId) fun row =>
          { row with status := .cancelled, cancellationRequested := true, finishedAt := some now }
      | .leased | .running => w.updateJobs false (fun row => row.jobId = jobId) fun row =>
          { row with cancellationRequested := true }
      | .succeeded | .failed | .cancelled | .manualReconcileRequired => w
    match w'.job? jobId with
    | none => throw (.other "AssertionError")
    | some updated => .ok (updated, w')

/-! ### Reconciliation -/

/-- The job is active and its lease has ended. -/
def isStranded (w : World) (now : Instant) (job : RemoteExecutionJob) : Bool :=
  job.status.isActive && w.leases.any fun lease =>
    lease.leaseId = job.leaseId && (lease.releasedAt.isSome || lease.expiresAt ≤ now)

/-- What a job whose lease has ended is closed with. -/
def closing (job : RemoteExecutionJob) (now : Instant) : RemoteExecutionResult :=
  if job.status = .running ∧ (job.idempotency = .nonIdempotent ∨ job.capability = .targetExec) then
    { jobId := job.jobId
      resultIdempotencyKey := "core-lease-invalidated:" ++ job.jobId
      status := .manualReconcileRequired
      errorCode := some "remote.lease_invalidated_outcome_unknown"
      completedAt := now
      terminal := rfl }
  else
    { jobId := job.jobId
      resultIdempotencyKey := "core-lease-invalidated:" ++ job.jobId
      status := .failed
      errorCode := some "remote.lease_invalidated"
      completedAt := now
      terminal := rfl }

def closeJobs (now : Instant) : List RemoteExecutionJob → World → Except Raised World
  | [], w => return w
  | job :: rest, w => do
    let w' ← w.insertResult (closing job now)
    closeJobs now rest (w'.updateJobs true (fun row => row.jobId = job.jobId) fun row =>
      { row with status := (closing job now).status, finishedAt := some now })

/-- `reconcile_expired`. -/
def reconcileExpired (w : World) (now : Instant) : Except Raised (List RemoteExecutionJob × World) := do
  let rows := page RemoteExecutionJob.key (w.isStranded now) w.jobs w.jobs.length
  let w' ← closeJobs now rows w
  return (rows.map fun job => { job with status := (closing job now).status, finishedAt := some now }, w')

/-- The jobs that `_require_no_unknown_on_lease` looks for. -/
def unknownsOnLease (w : World) (targetId leaseId : String) : List String :=
  (w.jobs.filter fun job => job.targetId = targetId && job.leaseId = leaseId &&
    job.status = .manualReconcileRequired).map RemoteExecutionJob.jobId

end World

/-! ### Calls -/

inductive Call where
  | outside (f : Outside → Outside)
  /-- The gateway records an action. -/
  | recordAction (actionHash : String)
  | registerTarget (target : RemoteTargetRegistration)
  | heartbeatTarget (targetId identityPublicKey : String)
  | getTarget (targetId : String)
  | acquireLease (lease : RemoteTargetLease) (now : Instant)
  | renewLease (ref : LeaseRef) (now expiresAt : Instant)
  | releaseLease (ref : LeaseRef) (now : Instant)
  | createJob (job : RemoteExecutionJob) (leaseToken : String) (now : Instant)
  | pollJobs (ref : LeaseRef) (now : Instant) (limit : Nat) (seen : List String)
  | getJob (jobId : String)
  | getResult (jobId : String)
  | completeJob (result : RemoteExecutionResult) (ref : LeaseRef) (now : Instant)
      (observation : Option (CapabilityObservation × ObservationSource)) (lost : Bool)
  | cancelJob (jobId : String) (now : Instant)
  | reconcileExpired (now : Instant)
  | unknownsOnLease (targetId leaseId : String)
  | recordObservation
  | completeActionReceipt
  | authorize
  | execute (job : RemoteExecutionJob)
  | monotonic

/-- The call opens the database. -/
def Call.onStore : Call → Bool
  | .outside _ | .authorize | .execute _ | .monotonic => false
  | _ => true

abbrev Reply : Call → Type
  | .outside _ | .recordAction _ | .recordObservation | .completeActionReceipt | .authorize => Unit
  | .registerTarget _ | .heartbeatTarget .. | .getTarget _ => RemoteTargetRegistration
  | .acquireLease .. | .renewLease .. | .releaseLease .. => RemoteTargetLease
  | .createJob .. | .getJob _ | .cancelJob .. => RemoteExecutionJob
  | .pollJobs .. | .reconcileExpired _ => List RemoteExecutionJob
  | .getResult _ => Option RemoteExecutionResult
  | .completeJob .. => RemoteExecutionResult
  | .unknownsOnLease .. => List String
  | .execute _ => ConnectorOutcome
  | .monotonic => Instant

abbrev Answer (c : Call) : Type := Except Raised (Reply c)

namespace World

/-- A row that is read, or `KeyError`. -/
def found {α : Type} (w : World) : Option α → Except Raised (α × World)
  | none => throw .key
  | some row => .ok (row, w)

def answer (w : World) : (c : Call) → Except Raised (Reply c × World)
  | .outside f => .ok ((), { w with outside := f w.outside })
  | .recordAction actionHash => .ok ((), { w with actionRequests := w.actionRequests ++ [actionHash] })
  | .registerTarget target => w.registerTarget target
  | .heartbeatTarget targetId identityPublicKey => w.heartbeatTarget targetId identityPublicKey
  | .getTarget targetId => w.found (w.target? targetId)
  | .acquireLease lease now => w.acquireLease lease now
  | .renewLease ref now expiresAt => w.renewLease ref now expiresAt
  | .releaseLease ref now => w.releaseLease ref now
  | .createJob job leaseToken now => w.createJob job leaseToken now
  | .pollJobs ref now limit _ => w.pollJobs ref now limit
  | .getJob jobId => w.found (w.job? jobId)
  | .getResult jobId => .ok (w.result? jobId, w)
  | .completeJob result ref now observation lost => w.completeJob result ref now observation lost
  | .cancelJob jobId now => w.cancelJob jobId now
  | .reconcileExpired now => w.reconcileExpired now
  | .unknownsOnLease targetId leaseId => .ok (w.unknownsOnLease targetId leaseId, w)
  | .recordObservation => .ok ((), w)
  | .completeActionReceipt => .ok ((), w)
  | .authorize => w.outside.authorize.map fun _ => ((), w)
  | .execute job => (w.outside.execute job).map fun outcome => (outcome, w)
  | .monotonic => .ok (w.outside.monotonic, w)

/-- A call that fails leaves everything as it was. -/
def exec (w : World) (c : Call) : Answer c × World :=
  match if c.onStore then w.outside.fault else none with
  | some e => (.error e, w)
  | none => match w.answer c with
    | .ok (reply, w') => (.ok reply, w')
    | .error e => (.error e, w)

end World

/-- The world after calls by whomever, in this order. -/
def called (calls : List Call) : World := calls.foldl (fun w c => (w.exec c).2) {}

end Operant.RemoteExecution
