import Operant.Python.Value

/-! Schedules, run requests, leases and attempts.

Instants are whole numbers of microseconds. The store keeps them as text in one format,
whose alphabetical order is their order. -/
namespace Operant.Scheduler
open Operant.Python

abbrev Instant := ℤ

/-- A number of seconds, as a distance between instants. -/
def seconds (n : ℤ) : Instant := n * 1000000

inductive MisfirePolicy where
  | skip
  | fireOnce
  | catchUp
  deriving DecidableEq

inductive ScheduleStatus where
  | enabled
  | paused
  | cancelled
  deriving DecidableEq

inductive RunRequestStatus where
  | queued
  | leased
  | retryWait
  | succeeded
  | cancelled
  | deadLetter
  | manualReconcileRequired
  deriving DecidableEq

/-- `status IN ('queued','retry_wait')`. -/
def RunRequestStatus.isWaiting : RunRequestStatus → Bool
  | .queued | .retryWait => true
  | .leased | .succeeded | .cancelled | .deadLetter | .manualReconcileRequired => false

def RunRequestStatus.isTerminal : RunRequestStatus → Bool
  | .succeeded | .cancelled | .deadLetter | .manualReconcileRequired => true
  | .queued | .leased | .retryWait => false

inductive AttemptStatus where
  | running
  | succeeded
  | failed
  | outcomeUnknown
  deriving DecidableEq

inductive DispatchIdempotency where
  | idempotent
  | nonIdempotent
  deriving DecidableEq

inductive HookEvent where
  | applicationSignal
  | fileChanged (watchPath : String)
  | gitHeadChanged (watchPath : String)
  deriving DecidableEq

/-- `trigger_kind`, with the fields `validate_trigger` asks for and no others. -/
inductive Trigger where
  | cron (expression : String)
  | timer (timerAt : Instant)
  | hook (event : HookEvent)
  deriving DecidableEq

structure ScheduleDefinition where
  id : String
  version : Nat := 1
  name : String
  trigger : Trigger
  timezoneName : String
  misfirePolicy : MisfirePolicy := .fireOnce
  maxCatchUp : Nat := 10
  workflowId : String
  workflowVersion : Nat
  workflowInput : Refs := []
  concurrencyLimit : Nat := 1
  maxAttempts : Nat := 3
  retryBaseSeconds : Nat := 5
  retryMaxSeconds : Nat := 300
  dispatchIdempotency : DispatchIdempotency := .idempotent
  status : ScheduleStatus := .enabled
  createdAt : Instant
  version_pos : 1 ≤ version := by first | exact Nat.one_pos | decide
  maxCatchUp_range : 1 ≤ maxCatchUp ∧ maxCatchUp ≤ 1000 := by decide
  concurrencyLimit_range : 1 ≤ concurrencyLimit ∧ concurrencyLimit ≤ 256 := by decide
  maxAttempts_range : 1 ≤ maxAttempts ∧ maxAttempts ≤ 20 := by decide
  retry_range : 1 ≤ retryBaseSeconds ∧ retryBaseSeconds ≤ retryMaxSeconds := by decide
  deriving DecidableEq

structure RunRequest where
  id : String
  scheduleId : String
  scheduleVersion : Nat
  occurrenceAt : Instant
  availableAt : Instant
  idempotencyKey : String
  workflowId : String
  workflowVersion : Nat
  workflowInput : Refs := []
  replayOfRequestId : Option String := none
  dispatchIdempotency : DispatchIdempotency
  maxAttempts : Nat
  attemptCount : Nat := 0
  status : RunRequestStatus := .queued
  workflowRunId : Option String := none
  cancelRequested : Bool := false
  lastErrorCode : Option String := none
  createdAt : Instant
  deriving DecidableEq

inductive AuthorityKind where
  | schedulerLeader
  | runtimeWriter
  deriving DecidableEq

/-- The name of a kind of authority, as the store's messages have it. -/
def AuthorityKind.text : AuthorityKind → String
  | .schedulerLeader => "scheduler_leader"
  | .runtimeWriter => "runtime_writer"

structure SchedulerLease where
  kind : AuthorityKind
  owner : String
  token : String
  fencing : Nat
  expiresAt : Instant
  deriving DecidableEq

structure JobLease where
  runRequestId : String
  owner : String
  token : String
  fencing : Nat
  expiresAt : Instant
  attemptNumber : Nat
  deriving DecidableEq

structure JobAttempt where
  runRequestId : String
  attemptNumber : Nat
  leaseOwner : String
  leaseToken : String
  leaseFencing : Nat
  status : AttemptStatus := .running
  sideEffectStarted : Bool := false
  workflowRunId : Option String := none
  errorCode : Option String := none
  deriving DecidableEq

inductive SchedulerError where
  /-- `SchedulerConflictError`. -/
  | conflict (message : String)
  /-- `ValueError`, pydantic's included. -/
  | invalidValue (message : String)
  /-- `KeyError`. -/
  | notFound
  /-- `sqlite3.IntegrityError`. -/
  | integrity
  deriving DecidableEq

end Operant.Scheduler
