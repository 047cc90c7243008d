import Operant.Dispatch.System

/-! `SchedulerWorker` and `GraphSchedulerActionGateway`, call by call.

Python's `try` is `attempt`: the exceptions of the calls inside are told apart where the
source tells them apart. -/
namespace Operant.Dispatch
open Operant.Calls Operant.Scheduler
open Operant.Graph (GraphRunStatus WorkflowDefinitionStatus)

abbrev Action (α : Type) := Prog Call Answer Raised α

/-- A call whose exception is raised. -/
def ask (c : Call) : Action (Reply c) := Prog.request c >>= Prog.lift

/-! ### The gateway -/

/-- `resolver(..)` under `except (OSError, ValueError, TypeError)`. -/
def workspaceError : Raised → Raised
  | .other "OSError" | .other "ValueError" | .other "TypeError" =>
    .dispatch "scheduler.workspace_invalid" false
  | e => e

def definitionError : Raised → Raised
  | .other "KeyError" => .dispatch "scheduler.workflow_not_found" false
  | e => e

def validationError (e : Raised) : Raised :=
  .dispatch s!"scheduler.workflow_invalid.{e.typeName}" false

/-- `try: .. except .. as exc: raise .. from exc`. -/
def orRaise {α : Type} (p : Action α) (handler : Raised → Raised) : Action α := do
  match ← p.attempt with
  | .ok a => return a
  | .error e => throw (handler e)

/-- `completed.graph_run_id`, which is asserted. -/
def completedRun (completed : DispatchBinding) : Action String :=
  match completed.graphRunId with
  | none => throw (.other "AssertionError")
  | some id => return id

/-- The run that an earlier dispatch has created. -/
def recoverRun (action : WorkflowDispatch) (binding : DispatchBinding) (recovered : GraphRun) :
    Action String := do
  if recovered.workflowDefinitionId ≠ action.workflowId ∨
      recovered.workflowDefinitionVersion ≠ action.workflowVersion ∨
      !recovered.input.pyEq action.workflowInput then
    throw (.dispatch "scheduler.graph_dispatch_binding_conflict" true)
  else if recovered.status = .created ∨ recovered.status = .queued ∨ recovered.status = .interrupted then
    let started ← ask (.startRun recovered.id)
    completedRun (← ask (.complete binding started.id))
  else completedRun (← ask (.complete binding recovered.id))

/-- `except DispatchError: raise`, `except Exception`: the outcome is unknown. -/
def creationError (e : Raised) : Action String :=
  match e with
  | .dispatch .. => throw e
  | e => do
    ask .appendAudit
    throw (.dispatch s!"graph.{e.typeName}" true)

/-- A run is created, started and bound. -/
def createRun (source : AttemptId) (action : WorkflowDispatch) (binding : DispatchBinding)
    (id : String) : Action String := do
  let outcome ← Prog.attempt do
    let run ← ask (.createRun source action id)
    let started ← ask (.startRun run.id)
    ask (.complete binding started.id)
  match outcome with
  | .ok completed =>
    ask .appendAudit
    completedRun completed
  | .error e => creationError e

/-- The checks that leave nothing behind: the hash of the action. -/
def checkDispatch (action : WorkflowDispatch) : Action String := do
  let status ← orRaise (ask (.getDefinition action.workflowId action.workflowVersion)) definitionError
  if status ≠ .published then throw (.dispatch "scheduler.workflow_not_published" false)
  else
    orRaise (ask (.validateRun action)) validationError
    let actionHash ← ask (.authorize action)
    let _ ← orRaise (ask (.resolveWorkspace action)) workspaceError
    return actionHash

/-- `except KeyError: recovered = None`. -/
def getRecovered (id : String) : Action (Option GraphRun) := do
  match ← (ask (.getRun id)).attempt with
  | .ok run => return some run
  | .error (.other "KeyError") => return none
  | .error e => throw e

/-- A dispatch that is bound already. -/
def dispatchBound (source : AttemptId) (action : WorkflowDispatch) (binding : DispatchBinding)
    (id : String) : Action String := do
  match ← getRecovered id with
  | some recovered => recoverRun action binding recovered
  | none => createRun source action binding id

/-- `GraphSchedulerActionGateway.dispatch_workflow`, in the name of an attempt. -/
def dispatchWorkflow (H : Hashes) (source : AttemptId) (action : WorkflowDispatch) :
    Action String := do
  let actionHash ← checkDispatch action
  let id := graphRunId H action.sourceRunRequestId actionHash
  let (binding, created) ←
    ask (.reserve action.sourceRunRequestId action.idempotencyKey actionHash)
  if created then createRun source action binding id
  else
    match binding.status, binding.graphRunId with
    | .completed, some bound =>
      if bound ≠ "" then
        let _ ← ask (.getRun bound)
        return bound
      else dispatchBound source action binding id
    | _, _ => dispatchBound source action binding id

/-! ### The worker -/

def finishIfTerminal (request : RunRequest) (lease : JobLease) (workflowRunId : String)
    (status : GraphRunStatus) : Action RunRequest :=
  match status with
  | .completed => ask (.completeJob lease workflowRunId)
  | .cancelled => ask (.finishDispatchedJob lease .cancelled "graph.cancelled")
  | .failed => ask (.finishDispatchedJob lease .deadLetter "graph.failed")
  | .manualReconcileRequired =>
    ask (.finishDispatchedJob lease .manualReconcileRequired "graph.manual_reconcile_required")
  | _ => return request

/-- The status of the run, after it was told to stop or to go on. -/
def followRun (cancelRequested : Bool) (workflowRunId : String) : Action GraphRunStatus := do
  let run ← ask (.getRun workflowRunId)
  if cancelRequested && !run.status.isTerminal then
    ask (.cancelWorkflow workflowRunId)
    let cancelled ← ask (.getRun workflowRunId)
    return cancelled.status
  else if run.status = .created ∨ run.status = .queued ∨ run.status = .running ∨
      run.status = .interrupted then
    ask (.ensureExecution workflowRunId)
    return run.status
  else return run.status

/-- `_reconcile_one`. -/
def reconcileOne (request : RunRequest) (lease : JobLease) : Action RunRequest :=
  match request.workflowRunId with
  | none => throw (.other "AssertionError")
  | some workflowRunId => do
    let status ← followRun request.cancelRequested workflowRunId
    finishIfTerminal request lease workflowRunId status

def reconcileJobs : List (RunRequest × JobLease) → Action (Option RunRequest)
  | [] => return none
  | (request, lease) :: rest => do
    let result ← reconcileOne request lease
    if result.status ≠ .leased then return some result else reconcileJobs rest

/-- `_reconcile_dispatched`. -/
def reconcileDispatched (writerLease : SchedulerLease) (owner : String) (ttlSeconds : ℤ) :
    Action (Option RunRequest) := do
  let jobs ← ask (.renewDispatchedJobs writerLease owner ttlSeconds)
  reconcileJobs jobs

def failure (schedule : ScheduleDefinition) (errorCode : String) (outcomeUnknown : Bool) :
    SchedulerStore.Failure :=
  { errorCode
    outcomeUnknown
    retryBaseSeconds := schedule.retryBaseSeconds
    retryMaxSeconds := schedule.retryMaxSeconds }

/-- The side effect is marked, and dispatched. -/
def startDispatch (H : Hashes) (request : RunRequest) (lease : JobLease) : Action String := do
  ask (.markSideEffectStarted lease)
  dispatchWorkflow H (attemptOf lease)
    { workflowId := request.workflowId
      workflowVersion := request.workflowVersion
      workflowInput := request.workflowInput
      idempotencyKey := request.idempotencyKey
      sourceRunRequestId := request.id }

/-- What becomes of a dispatch. -/
def concludeDispatch (schedule : ScheduleDefinition) (lease : JobLease) :
    Except Raised String → Action RunRequest
  | .error .conflict => throw .conflict
  | .error (.dispatch errorCode outcomeUnknown) =>
    ask (.failJob lease (failure schedule errorCode outcomeUnknown))
  | .error e => ask (.failJob lease (failure schedule s!"gateway.{e.typeName}" true))
  | .ok workflowRunId => do
    if workflowRunId = "" then
      ask (.failJob lease (failure schedule "gateway.missing_workflow_run_id" true))
    else
      let dispatched ← ask (.markWorkflowDispatched lease workflowRunId)
      reconcileOne dispatched lease

def runClaimed (H : Hashes) (request : RunRequest) (lease : JobLease) : Action RunRequest := do
  let current ← ask (.getRequest request.id)
  if current.cancelRequested then ask (.cancelClaimedJob lease)
  else
    let schedule ← ask (.getScheduleRevision request.scheduleId request.scheduleVersion)
    let outcome ← (startDispatch H request lease).attempt
    concludeDispatch schedule lease outcome

/-- `SchedulerWorker.run_one`. -/
def runOne (H : Hashes) (writerLease : SchedulerLease) (owner : String) (ttlSeconds : ℤ) :
    Action (Option RunRequest) := do
  match ← reconcileDispatched writerLease owner ttlSeconds with
  | some terminal => return some terminal
  | none =>
    match ← ask (.claimDue writerLease owner ttlSeconds) with
    | none => return none
    | some (request, lease) =>
      let ended ← runClaimed H request lease
      return some ended

/-! ### Everybody -/

inductive Task where
  | worker (writerLease : SchedulerLease) (owner : String) (ttlSeconds : ℤ)
  | other (change : Change)

def Task.code (H : Hashes) : Task → Action Unit
  | .worker writerLease owner ttlSeconds => do
    let _ ← runOne H writerLease owner ttlSeconds
  | .other change => ask (.change change)

/-- Any number of workers, and everybody else. -/
def system (H : Hashes) : System Call Answer Raised World Task Unit where
  exec c w := .ok (w.exec H c)
  code := Task.code H
  note _ _ w := w

/-- What a run of the system leaves. -/
def reached (H : Hashes) (moves : List (Move Task)) : World :=
  (({ world := {} } : Pool Call Answer Raised World Task Unit).play (system H) moves).world

end Operant.Dispatch
