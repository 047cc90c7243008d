import Operant.Scheduler.Store

/-! Jobs: how requests are claimed, renewed, ended and recovered.

Every way to end a job rewrites the running attempt and the leased request, and deletes
the lease. -/
namespace Operant.Scheduler
open Operant.Python Operant.Tables

namespace SchedulerStore

/-- `_assert_job_lease`. -/
def assertJobLease (s : SchedulerStore) (lease : JobLease) (now : Instant) : Checked Unit :=
  match s.lease? lease.runRequestId with
  | none => .error (.conflict "job lease was lost or expired")
  | some row =>
    if row.owner ≠ lease.owner ∨ row.token ≠ lease.token ∨ row.fencing ≠ lease.fencing ∨
        row.attemptNumber ≠ lease.attemptNumber ∨ row.expiresAt ≤ now then
      .error (.conflict "job lease was lost or expired")
    else .ok ()

/-- How a job ends: the statuses of its attempt and of its request, and what else changes. -/
structure JobEnd where
  attempt : AttemptStatus
  request : RunRequestStatus
  availableAt : Option Instant := none
  errorCode : Option String := none
  workflowRunId : Option String := none
  deriving DecidableEq

/-- The three statements that end a job. -/
def endJob (s : SchedulerStore) (id : String) (number : Nat) (ending : JobEnd) : SchedulerStore :=
  let s := s.updateAttempt id number (fun row => row.status = .running) fun row => { row with
    status := ending.attempt
    errorCode := ending.errorCode.or row.errorCode
    workflowRunId := ending.workflowRunId.or row.workflowRunId }
  let s := s.updateRequest id (fun row => row.status = .leased) fun row => { row with
    status := ending.request
    availableAt := ending.availableAt.getD row.availableAt
    lastErrorCode := ending.errorCode.or row.lastErrorCode
    workflowRunId := ending.workflowRunId.or row.workflowRunId }
  s.deleteLease id

/-- A request after a transaction that cannot have removed it. -/
def reply (s : SchedulerStore) (id : String) : Checked (RunRequest × SchedulerStore) :=
  match s.request? id with
  | none => .error .notFound
  | some row => .ok (row, s)

/-! ### Expired leases -/

/-- How `_recover_expired_jobs` ends the job of an expired lease; a job whose workflow run
is known goes on. -/
def expiredEnd (request : RunRequest) (attempt : JobAttempt) (now : Instant) : Option JobEnd :=
  if request.workflowRunId.isSome then none
  else
    let unsafeToRepeat := request.dispatchIdempotency = .nonIdempotent && attempt.sideEffectStarted
    some
      { attempt := if unsafeToRepeat then .outcomeUnknown else .failed
        request :=
          if unsafeToRepeat then .manualReconcileRequired
          else if request.maxAttempts ≤ request.attemptCount then .deadLetter else .retryWait
        availableAt := now
        errorCode := "lease_expired" }

/-- The expired leases, with their requests and attempts. -/
def expiredJobs (s : SchedulerStore) (now : Instant) : List (RunRequest × JobAttempt) :=
  s.leases.filterMap fun lease =>
    if lease.expiresAt ≤ now then do
      let request ← s.request? lease.runRequestId
      let attempt ← s.attempt? lease.runRequestId lease.attemptNumber
      return (request, attempt)
    else none

def recoverJob (now : Instant) (s : SchedulerStore) (job : RunRequest × JobAttempt) :
    SchedulerStore :=
  match expiredEnd job.1 job.2 now with
  | none => s
  | some ending => s.endJob job.1.id job.2.attemptNumber ending

/-- `_recover_expired_jobs`. -/
def recoverExpiredJobs (s : SchedulerStore) (now : Instant) : SchedulerStore :=
  (s.expiredJobs now).foldl (recoverJob now) s

/-! ### Claiming -/

/-- `ORDER BY available_at, created_at, request_id`. -/
def dueBefore (a b : RunRequest) : Prop :=
  a.availableAt < b.availableAt ∨ a.availableAt = b.availableAt ∧
    (a.createdAt < b.createdAt ∨ a.createdAt = b.createdAt ∧ a.id ≤ b.id)

instance (a b : RunRequest) : Decidable (dueBefore a b) := by
  unfold dueBefore
  infer_instance

/-- The requests that may be claimed, with the revisions of their schedules. -/
def candidates (s : SchedulerStore) (now : Instant) : List (RunRequest × ScheduleDefinition) :=
  let due := s.requests.filter fun row =>
    row.status.isWaiting && row.availableAt ≤ now && !row.cancelRequested &&
      (s.head? row.scheduleId).any fun head => head.status = .enabled
  ((due.insertionSort dueBefore).filterMap fun row =>
    (s.definition? row.scheduleId row.scheduleVersion).map fun schedule => (row, schedule)).take 100

/-- `MAX(lease_fencing)` and one, or one. -/
def nextJobFencing (s : SchedulerStore) (id : String) : Nat :=
  match ((s.attemptsOf id).map JobAttempt.leaseFencing).max? with
  | none => 1
  | some prior => prior + 1

def requireWriter (writerLease : SchedulerLease) (owner : String) : Checked Unit :=
  if writerLease.kind ≠ .runtimeWriter ∨ writerLease.owner ≠ owner then
    .error (.conflict "a matching runtime writer lease is required")
  else .ok ()

/-- The rows `claim_due` writes: the request is leased for one more attempt. -/
def grantJob (s : SchedulerStore) (lease : JobLease) : SchedulerStore :=
  let claimed := s.updateRequest lease.runRequestId (fun row => row.status.isWaiting) fun row =>
    { row with status := .leased, attemptCount := lease.attemptNumber }
  { claimed with
    leases := s.leases ++ [lease]
    attempts := s.attempts ++ [{
      runRequestId := lease.runRequestId
      attemptNumber := lease.attemptNumber
      leaseOwner := lease.owner
      leaseToken := lease.token
      leaseFencing := lease.fencing }] }

def claimDue (writerLease : SchedulerLease) (owner : String) (ttlSeconds : ℤ) (token : String)
    (now : Instant) (s : SchedulerStore) :
    Checked (Option (RunRequest × JobLease) × SchedulerStore) := do
  checkOwner owner
  checkTtl ttlSeconds
  requireWriter writerLease owner
  s.assertAuthority writerLease now
  let s := s.recoverExpiredJobs now
  match (s.candidates now).find? fun candidate =>
      s.leasedCount candidate.1.scheduleId < candidate.2.concurrencyLimit with
  | none => return (none, s)
  | some (request, _) =>
    let lease : JobLease :=
      { runRequestId := request.id
        owner, token
        fencing := s.nextJobFencing request.id
        expiresAt := min (now + seconds ttlSeconds) writerLease.expiresAt
        attemptNumber := request.attemptCount + 1 }
    -- The constraints of the tables on the rows that are written.
    if 20 < lease.attemptNumber ∨ (s.lease? request.id).isSome ∨
        (s.attempt? request.id lease.attemptNumber).isSome then throw .integrity
    return (some ({ request with status := .leased, attemptCount := lease.attemptNumber }, lease),
      s.grantJob lease)

/-- The row of this very lease, still live. -/
def liveJob (lease : JobLease) (now : Instant) (row : JobLease) : Bool :=
  row.owner = lease.owner && row.token = lease.token && row.fencing = lease.fencing &&
    now < row.expiresAt

def renewJob (lease : JobLease) (writerLease : SchedulerLease) (ttlSeconds : ℤ) (now : Instant)
    (s : SchedulerStore) : Checked (JobLease × SchedulerStore) := do
  checkTtl ttlSeconds
  requireWriter writerLease lease.owner
  s.assertAuthority writerLease now
  let expiresAt := min (now + seconds ttlSeconds) writerLease.expiresAt
  if !(s.leasesOf lease.runRequestId).any (liveJob lease now) then
    throw (.conflict "job lease was lost or expired")
  return ({ lease with expiresAt := expiresAt },
    s.updateLease lease.runRequestId (liveJob lease now) fun row => { row with expiresAt := expiresAt })

/-! ### Dispatching -/

def markSideEffectStarted (lease : JobLease) (now : Instant) (s : SchedulerStore) :
    Checked (Unit × SchedulerStore) := do
  s.assertJobLease lease now
  let running (row : JobAttempt) : Bool := row.status = .running
  if !((s.attempt? lease.runRequestId lease.attemptNumber).any running &&
      (s.request? lease.runRequestId).any fun row => row.status = .leased && !row.cancelRequested) then
    throw (.conflict "attempt is cancelled or no longer running")
  return ((), s.updateAttempt lease.runRequestId lease.attemptNumber running fun row =>
    { row with sideEffectStarted := true })

def markWorkflowDispatched (lease : JobLease) (workflowRunId : String) (now : Instant)
    (s : SchedulerStore) : Checked (RunRequest × SchedulerStore) := do
  if workflowRunId = "" then throw (.invalidValue "workflow_run_id must not be empty")
  s.assertJobLease lease now
  let bindable (bound : Option String) : Bool := bound.all (· = workflowRunId)
  let dispatched (row : JobAttempt) : Bool :=
    row.status = .running && row.sideEffectStarted && bindable row.workflowRunId
  if !(s.attempt? lease.runRequestId lease.attemptNumber).any dispatched then
    throw (.conflict "workflow dispatch binding conflict")
  let s := s.updateAttempt lease.runRequestId lease.attemptNumber dispatched fun row =>
    { row with workflowRunId := workflowRunId }
  let leased (row : RunRequest) : Bool := row.status = .leased && bindable row.workflowRunId
  if !(s.request? lease.runRequestId).any leased then
    throw (.conflict "run request dispatch binding conflict")
  (s.updateRequest lease.runRequestId leased fun row =>
    { row with workflowRunId := workflowRunId }).reply lease.runRequestId

/-- A leased request whose workflow run is known. -/
def isDispatched (s : SchedulerStore) (id : String) : Bool :=
  (s.request? id).any fun row => row.status = .leased && row.workflowRunId.isSome

/-- The expired leases of dispatched jobs go to a new owner. -/
def takeOver (s : SchedulerStore) (owner : String) (token : String → String)
    (now expiresAt : Instant) : SchedulerStore :=
  { s with
    leases := update s.leases (fun row => row.expiresAt ≤ now && s.isDispatched row.runRequestId)
      fun row => { row with
        owner := owner
        token := token row.runRequestId
        fencing := row.fencing + 1
        expiresAt := expiresAt } }

def renewDispatchedJobs (writerLease : SchedulerLease) (owner : String) (ttlSeconds : ℤ)
    (token : String → String) (now : Instant) (s : SchedulerStore) :
    Checked (List (RunRequest × JobLease) × SchedulerStore) := do
  checkTtl ttlSeconds
  requireWriter writerLease owner
  let expiresAt := min (now + seconds ttlSeconds) writerLease.expiresAt
  s.assertAuthority writerLease now
  let s := (s.recoverExpiredJobs now).takeOver owner token now expiresAt
  let ours (row : JobLease) : Bool :=
    row.owner = owner && now < row.expiresAt && s.isDispatched row.runRequestId
  let jobs := (s.leases.filter ours).filterMap fun row =>
    (s.request? row.runRequestId).map fun request =>
      (request, { row with expiresAt := expiresAt })
  return (jobs.insertionSort fun a b =>
      a.1.createdAt < b.1.createdAt ∨ a.1.createdAt = b.1.createdAt ∧ a.1.id ≤ b.1.id,
    { s with leases := update s.leases ours fun row => { row with expiresAt := expiresAt } })

/-! ### Ending -/

def cancelClaimedJob (lease : JobLease) (now : Instant) (s : SchedulerStore) :
    Checked (RunRequest × SchedulerStore) := do
  s.assertJobLease lease now
  if !(s.attempt? lease.runRequestId lease.attemptNumber).any
      fun row => row.status = .running && !row.sideEffectStarted then
    throw (.conflict "a started side effect cannot be reported as cancelled")
  let s := s.updateAttempt lease.runRequestId lease.attemptNumber (fun _ => true) fun row =>
    { row with status := .failed, errorCode := "cancelled" }
  let s := s.updateRequest lease.runRequestId (fun row => row.status = .leased) fun row =>
    { row with status := .cancelled, cancelRequested := true, lastErrorCode := "cancelled" }
  (s.deleteLease lease.runRequestId).reply lease.runRequestId

def completeJob (lease : JobLease) (workflowRunId : String) (now : Instant) (s : SchedulerStore) :
    Checked (RunRequest × SchedulerStore) := do
  s.assertJobLease lease now
  (s.endJob lease.runRequestId lease.attemptNumber
    { attempt := .succeeded, request := .succeeded, workflowRunId := workflowRunId }).reply
      lease.runRequestId

def finishDispatchedJob (lease : JobLease) (requestStatus : RunRequestStatus) (errorCode : String)
    (now : Instant) (s : SchedulerStore) : Checked (RunRequest × SchedulerStore) := do
  if requestStatus ≠ .cancelled ∧ requestStatus ≠ .deadLetter ∧
      requestStatus ≠ .manualReconcileRequired then
    throw (.invalidValue "invalid dispatched terminal status")
  s.assertJobLease lease now
  (s.endJob lease.runRequestId lease.attemptNumber
    { attempt := if requestStatus = .manualReconcileRequired then .outcomeUnknown else .failed
      request := requestStatus
      errorCode := errorCode }).reply lease.runRequestId

structure Failure where
  errorCode : String
  outcomeUnknown : Bool
  retryBaseSeconds : ℤ
  retryMaxSeconds : ℤ
  deriving DecidableEq

/-- How `fail_job` ends the job of a request. -/
def failedEnd (request : RunRequest) (failure : Failure) (now : Instant) : JobEnd :=
  if request.dispatchIdempotency = .nonIdempotent ∧ failure.outcomeUnknown then
    { attempt := .outcomeUnknown, request := .manualReconcileRequired, availableAt := now,
      errorCode := failure.errorCode }
  else if request.maxAttempts ≤ request.attemptCount then
    { attempt := .failed, request := .deadLetter, availableAt := now, errorCode := failure.errorCode }
  else
    let delay := min failure.retryMaxSeconds (failure.retryBaseSeconds * 2 ^ (request.attemptCount - 1))
    { attempt := .failed, request := .retryWait, availableAt := now + seconds delay,
      errorCode := failure.errorCode }

def failJob (lease : JobLease) (failure : Failure) (now : Instant) (s : SchedulerStore) :
    Checked (RunRequest × SchedulerStore) := do
  s.assertJobLease lease now
  match s.request? lease.runRequestId, s.attempt? lease.runRequestId lease.attemptNumber with
  | some request, some _ =>
    (s.endJob lease.runRequestId lease.attemptNumber (failedEnd request failure now)).reply
      lease.runRequestId
  | _, _ => throw (.conflict "request attempt is missing")

def requestCancel (requestId : String) (s : SchedulerStore) : Checked (RunRequest × SchedulerStore) :=
  match s.request? requestId with
  | none => .error .notFound
  | some row =>
    if row.status.isWaiting then
      (s.updateRequest requestId (fun _ => true) fun row =>
        { row with status := .cancelled, cancelRequested := true }).reply requestId
    else if row.status = .leased then
      (s.updateRequest requestId (fun _ => true) fun row =>
        { row with cancelRequested := true }).reply requestId
    else s.reply requestId

end SchedulerStore

/-! ### One type for all of them -/

/-- The operations that write, with whatever the caller passes. -/
inductive StoreOp where
  | putSchedule (schedule : ScheduleDefinition)
  | updateScheduleStatus (scheduleId : String) (status : ScheduleStatus) (expectedVersion : Nat)
  | enqueueOccurrences (schedule : ScheduleDefinition) (occurrences : List Instant)
      (leaderLease : SchedulerLease) (advanceCursorTo availableAt : Instant)
      (new : Instant → SchedulerStore.NewRow)
  | enqueueManual (schedule : ScheduleDefinition) (idempotencyKey : String) (requestedAt : Instant)
      (new : SchedulerStore.NewRow)
  | enqueueHook (schedule : ScheduleDefinition) (idempotencyKey : String) (requestedAt : Instant)
      (new : SchedulerStore.NewRow)
  | observeWatch (schedule : ScheduleDefinition) (observed : SchedulerStore.Observation)
      (leaderLease : SchedulerLease) (observedAt : Instant) (new : SchedulerStore.NewRow)
  | replayDeadLetter (requestId idempotencyKey : String) (requestedAt : Instant)
      (new : SchedulerStore.NewRow)
  | acquireAuthority (kind : AuthorityKind) (owner : String) (ttlSeconds : ℤ) (token : String)
      (now : Instant)
  | renewAuthority (lease : SchedulerLease) (ttlSeconds : ℤ) (now : Instant)
  | releaseLease (lease : SchedulerLease)
  | claimDue (writerLease : SchedulerLease) (owner : String) (ttlSeconds : ℤ) (token : String)
      (now : Instant)
  | renewJob (lease : JobLease) (writerLease : SchedulerLease) (ttlSeconds : ℤ) (now : Instant)
  | markSideEffectStarted (lease : JobLease) (now : Instant)
  | markWorkflowDispatched (lease : JobLease) (workflowRunId : String) (now : Instant)
  | renewDispatchedJobs (writerLease : SchedulerLease) (owner : String) (ttlSeconds : ℤ)
      (token : String → String) (now : Instant)
  | cancelClaimedJob (lease : JobLease) (now : Instant)
  | completeJob (lease : JobLease) (workflowRunId : String) (now : Instant)
  | finishDispatchedJob (lease : JobLease) (requestStatus : RunRequestStatus) (errorCode : String)
      (now : Instant)
  | failJob (lease : JobLease) (failure : SchedulerStore.Failure) (now : Instant)
  | requestCancel (requestId : String)

/-- The tables a transaction commits. -/
def commits {α : Type} (result : Checked (α × SchedulerStore)) : Checked SchedulerStore :=
  result.map Prod.snd

namespace StoreOp

def exec (s : SchedulerStore) : StoreOp → Checked SchedulerStore
  | .putSchedule schedule => commits (s.putSchedule schedule)
  | .updateScheduleStatus scheduleId status expectedVersion =>
    commits (s.updateScheduleStatus scheduleId status expectedVersion)
  | .enqueueOccurrences schedule occurrences leaderLease advanceCursorTo availableAt new =>
    commits (s.enqueueOccurrences schedule occurrences leaderLease advanceCursorTo availableAt new)
  | .enqueueManual schedule idempotencyKey requestedAt new =>
    commits (s.enqueueManual schedule idempotencyKey requestedAt new)
  | .enqueueHook schedule idempotencyKey requestedAt new =>
    commits (s.enqueueHook schedule idempotencyKey requestedAt new)
  | .observeWatch schedule observed leaderLease observedAt new =>
    commits (s.observeWatch schedule observed leaderLease observedAt new)
  | .replayDeadLetter requestId idempotencyKey requestedAt new =>
    commits (s.replayDeadLetter requestId idempotencyKey requestedAt new)
  | .acquireAuthority kind owner ttlSeconds token now =>
    commits (s.acquireAuthority kind owner ttlSeconds token now)
  | .renewAuthority lease ttlSeconds now => commits (s.renewAuthority lease ttlSeconds now)
  | .releaseLease lease => .ok (s.releaseLease lease)
  | .claimDue writerLease owner ttlSeconds token now =>
    commits (s.claimDue writerLease owner ttlSeconds token now)
  | .renewJob lease writerLease ttlSeconds now =>
    commits (s.renewJob lease writerLease ttlSeconds now)
  | .markSideEffectStarted lease now => commits (s.markSideEffectStarted lease now)
  | .markWorkflowDispatched lease workflowRunId now =>
    commits (s.markWorkflowDispatched lease workflowRunId now)
  | .renewDispatchedJobs writerLease owner ttlSeconds token now =>
    commits (s.renewDispatchedJobs writerLease owner ttlSeconds token now)
  | .cancelClaimedJob lease now => commits (s.cancelClaimedJob lease now)
  | .completeJob lease workflowRunId now => commits (s.completeJob lease workflowRunId now)
  | .finishDispatchedJob lease requestStatus errorCode now =>
    commits (s.finishDispatchedJob lease requestStatus errorCode now)
  | .failJob lease failure now => commits (s.failJob lease failure now)
  | .requestCancel requestId => commits (s.requestCancel requestId)

/-- A transaction that fails is rolled back. -/
def apply (s : SchedulerStore) (op : StoreOp) : SchedulerStore :=
  match op.exec s with
  | .ok s' => s'
  | .error _ => s

end StoreOp

namespace SchedulerStore

/-- The tables after a sequence of operations on an empty store. -/
def run (ops : List StoreOp) : SchedulerStore := ops.foldl StoreOp.apply {}

end SchedulerStore
end Operant.Scheduler
