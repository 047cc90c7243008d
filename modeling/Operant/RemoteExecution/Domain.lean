import Mathlib.Data.String.Basic
import Mathlib.Data.Prod.Lex
import Operant.Scheduler.Domain

/-! Targets, their leases, and the jobs they run. -/
namespace Operant.RemoteExecution
open Operant.Python
open Operant.Scheduler (Instant)

inductive RemoteTargetStatus where
  | registered
  | online
  | offline
  | draining
  | revoked
  deriving DecidableEq

inductive RemoteJobStatus where
  | queued
  | leased
  | running
  | succeeded
  | failed
  | cancelled
  | manualReconcileRequired
  deriving DecidableEq

/-- `status IN ('queued','leased','running')`. -/
def RemoteJobStatus.isActive : RemoteJobStatus → Bool
  | .queued | .leased | .running => true
  | .succeeded | .failed | .cancelled | .manualReconcileRequired => false

/-- What the status of a result must be. -/
def RemoteJobStatus.isTerminal : RemoteJobStatus → Bool
  | .succeeded | .failed | .cancelled | .manualReconcileRequired => true
  | .queued | .leased | .running => false

theorem succeeded_terminal : RemoteJobStatus.succeeded.isTerminal = true := rfl
theorem failed_terminal : RemoteJobStatus.failed.isTerminal = true := rfl
theorem manualReconcileRequired_terminal : RemoteJobStatus.manualReconcileRequired.isTerminal = true := rfl

inductive RemoteCapability where
  | targetRead
  | targetExec
  | browserObserve
  | browserNavigate
  | browserSubmit
  | browserScreenshot
  | computerObserve
  | computerInput
  | computerScreenshot
  | clipboardRead
  | clipboardWrite
  deriving DecidableEq

inductive RemoteActionIdempotency where
  | idempotent
  | nonIdempotent
  deriving DecidableEq

theorem one_job : 1 ≤ 1 ∧ 1 ≤ 256 := by decide
theorem two_jobs : 1 ≤ 2 ∧ 2 ≤ 256 := by decide
theorem one_megabyte : 1 ≤ 1048576 ∧ 1048576 ≤ 16777216 := by decide

structure CapabilityManifest where
  capabilities : List RemoteCapability
  supportedOperations : List String
  maxConcurrentJobs : Nat := 1
  maxPayloadBytes : Nat := 1048576
  concurrency : 1 ≤ maxConcurrentJobs ∧ maxConcurrentJobs ≤ 256 := by
    first | exact Operant.RemoteExecution.one_job | exact Operant.RemoteExecution.two_jobs | decide
  payload : 1 ≤ maxPayloadBytes ∧ maxPayloadBytes ≤ 16777216 := by
    first | exact Operant.RemoteExecution.one_megabyte | decide

instance : DecidableEq CapabilityManifest := fun a b =>
  decidable_of_iff (a.capabilities = b.capabilities ∧ a.supportedOperations = b.supportedOperations ∧
      a.maxConcurrentJobs = b.maxConcurrentJobs ∧ a.maxPayloadBytes = b.maxPayloadBytes)
    ⟨fun h => by cases a; cases b; simp_all, fun h => by simp [h]⟩

structure RemoteTargetRegistration where
  targetId : String
  displayName : String := ""
  endpointRef : String := ""
  identityPublicKey : String
  credentialRef : String := ""
  policyRef : String := ""
  artifactNamespace : String := ""
  capabilityManifest : CapabilityManifest
  status : RemoteTargetStatus := .registered
  fencing : Nat := 0
  deriving DecidableEq

/-- What a registration may not change: `immutable`. -/
def RemoteTargetRegistration.sameAs (a b : RemoteTargetRegistration) : Bool :=
  a.displayName = b.displayName && a.endpointRef = b.endpointRef &&
    a.identityPublicKey = b.identityPublicKey && a.credentialRef = b.credentialRef &&
    a.policyRef = b.policyRef && a.artifactNamespace = b.artifactNamespace &&
    a.capabilityManifest = b.capabilityManifest

/-- `policy_ref.startswith("local-control:")`. -/
def RemoteTargetRegistration.isLocal (target : RemoteTargetRegistration) : Bool :=
  "local-control:".toList.isPrefixOf target.policyRef.toList

structure RemoteTargetLease where
  leaseId : String
  targetId : String
  /-- It stands for its digest. -/
  token : String
  fencing : Nat := 1
  expiresAt : Instant
  releasedAt : Option Instant := none
  deriving DecidableEq

/-- Neither released nor expired. -/
def RemoteTargetLease.isLive (lease : RemoteTargetLease) (now : Instant) : Bool :=
  lease.releasedAt.isNone && now < lease.expiresAt

structure RemoteExecutionJob where
  jobId : String
  targetId : String
  leaseId : String
  leaseFencing : Nat
  capability : RemoteCapability
  operation : String
  arguments : Refs := []
  /-- The length of the arguments as JSON. -/
  payloadBytes : Nat := 2
  actionHash : String
  idempotencyKey : String
  idempotency : RemoteActionIdempotency
  status : RemoteJobStatus := .queued
  cancellationRequested : Bool := false
  createdAt : Instant
  startedAt : Option Instant := none
  finishedAt : Option Instant := none
  deriving DecidableEq

/-- `ORDER BY created_at, job_id`. -/
def RemoteExecutionJob.key (job : RemoteExecutionJob) : Lex (ℤ × String) :=
  toLex (job.createdAt, job.jobId)

structure RemoteExecutionResult where
  jobId : String
  resultIdempotencyKey : String
  status : RemoteJobStatus
  artifactRef : Option String := none
  artifactSha256 : Option String := none
  postcondition : Refs := []
  errorCode : Option String := none
  completedAt : Instant
  terminal : status.isTerminal = true
  deriving DecidableEq

namespace RemoteExecutionResult

/-- What a repeated result must have in common with the recorded one. -/
def sameAs (a b : RemoteExecutionResult) : Bool :=
  a.resultIdempotencyKey = b.resultIdempotencyKey && a.status = b.status &&
    a.artifactRef = b.artifactRef && a.artifactSha256 = b.artifactSha256 &&
    a.postcondition.pyEq b.postcondition && a.errorCode = b.errorCode

/-- `model_copy(update={"completed_at": now})`. -/
def completed (result : RemoteExecutionResult) (now : Instant) : RemoteExecutionResult :=
  { result with completedAt := now }

end RemoteExecutionResult

/-- What an observation says of the job it comes from. -/
structure ObservationSource where
  sourceJobId : String
  leaseId : String
  leaseFencing : Nat
  deriving DecidableEq

structure CapabilityObservation where
  targetId : String
  createdAt : Instant
  deriving DecidableEq

end Operant.RemoteExecution
