import Operant.Calls.Owners
import Operant.Graph.Domain
import Operant.Scheduler.Outcomes

/-! What scheduler workers share: the scheduler's store, the registry of dispatches and the
graph runs.

Each call is one transaction or one read. What the model does not follow (the clock,
the published definitions, the policy, exceptions from below) is `Outside`, and changes
between any two calls. -/
namespace Operant.Dispatch
open Operant.Python Operant.Tables Operant.Calls Operant.Scheduler
open Operant.Graph (GraphRunStatus WorkflowDefinitionStatus)

structure WorkflowDispatch where
  workflowId : String
  workflowVersion : Nat
  workflowInput : Refs
  idempotencyKey : String
  sourceRunRequestId : String
  deriving DecidableEq

/-- `hashlib.sha256(..).hexdigest()`, and the hash of the action a dispatch is normalized to
under a policy version. -/
structure Hashes where
  digest : String → String
  actionHash : WorkflowDispatch → String → String

/-- `_graph_run_id`. -/
def graphRunId (H : Hashes) (sourceRunRequestId actionHash : String) : String :=
  "graph_run_scheduler_" ++ H.digest (sourceRunRequestId ++ "\x00" ++ actionHash)

/-! ### The registry -/

inductive DispatchBindingStatus where
  | pending
  | completed
  deriving DecidableEq

structure DispatchBinding where
  sourceRunRequestId : String
  idempotencyKey : String
  actionHash : String
  status : DispatchBindingStatus := .pending
  graphRunId : Option String := none
  deriving DecidableEq

/-- `SQLiteGraphDispatchRegistry.reserve`. -/
def reserve (sourceRunRequestId idempotencyKey actionHash : String) (rows : List DispatchBinding) :
    Checked ((DispatchBinding × Bool) × List DispatchBinding) :=
  match rows.find? fun row => row.sourceRunRequestId = sourceRunRequestId ||
      row.idempotencyKey = idempotencyKey || row.actionHash = actionHash with
  | some binding =>
    if binding.sourceRunRequestId ≠ sourceRunRequestId ∨ binding.idempotencyKey ≠ idempotencyKey ∨
        binding.actionHash ≠ actionHash then
      .error (.conflict "scheduler graph dispatch idempotency binding conflict")
    else .ok ((binding, false), rows)
  | none =>
    let binding := { sourceRunRequestId, idempotencyKey, actionHash }
    .ok ((binding, true), rows ++ [binding])

/-- `SQLiteGraphDispatchRegistry.complete`. -/
def complete (binding : DispatchBinding) (graphRunId : String) (rows : List DispatchBinding) :
    Checked (DispatchBinding × List DispatchBinding) :=
  let pending (row : DispatchBinding) : Bool :=
    row.sourceRunRequestId = binding.sourceRunRequestId &&
      row.idempotencyKey = binding.idempotencyKey && row.actionHash = binding.actionHash &&
      row.status = .pending
  let changed := rows.any pending
  -- `graph_run_id TEXT UNIQUE`
  if changed && rows.any (fun row => row.graphRunId = some graphRunId) then .error .integrity
  else
    let rows := update rows pending fun row =>
      { row with status := .completed, graphRunId := graphRunId }
    match rows.find? fun row => row.sourceRunRequestId = binding.sourceRunRequestId with
    | none => .error (.conflict "scheduler graph dispatch binding disappeared")
    | some completed =>
      if changed = false ∧ (completed.status ≠ .completed ∨ completed.graphRunId ≠ some graphRunId) then
        .error (.conflict "scheduler graph dispatch completion conflict")
      else .ok (completed, rows)

/-! ### The world -/

/-- One attempt at one run request. -/
structure AttemptId where
  request : String
  attempt : Nat
  deriving DecidableEq

/-- The attempt that a lease is for. -/
def attemptOf (lease : JobLease) : AttemptId := ⟨lease.runRequestId, lease.attemptNumber⟩

/-- What a dispatch needs to know of a graph run. `source` is the attempt whose dispatch
created it: the program never reads it. -/
structure GraphRun where
  id : String
  workflowDefinitionId : String
  workflowDefinitionVersion : Nat
  input : Refs
  status : GraphRunStatus := .created
  source : Option AttemptId := none
  deriving DecidableEq

/-- A dispatch that has begun, and whether it is known to have failed; again, for us only. -/
structure DispatchRecord where
  attempt : AttemptId
  failed : Bool := false
  deriving DecidableEq

def DispatchRecord.fail (row : DispatchRecord) : DispatchRecord := { row with failed := true }

/-- The record of an attempt, unless its outcome is unknown. -/
def fails (t : AttemptId) (outcomeUnknown : Bool) (row : DispatchRecord) : Bool :=
  row.attempt = t && !outcomeUnknown

inductive PolicyDecision where
  | deny
  | ask
  | allow
  deriving DecidableEq

def PolicyDecision.text : PolicyDecision → String
  | .deny => "deny"
  | .ask => "ask"
  | .allow => "allow"

/-- What may be otherwise at any moment. -/
structure Outside where
  clock : Instant := 0
  token : String := ""
  tokens : String → String := fun _ => ""
  /-- The exception that calls raise, if any, by the name of its type. -/
  fault : Option String := none
  definitionStatus : String → Nat → Option WorkflowDefinitionStatus := fun _ _ => none
  /-- The exception of `validate_run`. -/
  invalid : WorkflowDispatch → Option String := fun _ => none
  policyVersion : String := ""
  decision : WorkflowDispatch → PolicyDecision := fun _ => .deny
  /-- The workspace that is resolved, or the exception. -/
  workspace : WorkflowDispatch → Except String (Option String) := fun _ => .ok none

structure World where
  outside : Outside := {}
  store : SchedulerStore := {}
  bindings : List DispatchBinding := []
  graphRuns : List GraphRun := []
  dispatches : List DispatchRecord := []

/-! ### Calls -/

/-- Exceptions, as far as they are told apart. -/
inductive Raised where
  /-- `SchedulerConflictError`. -/
  | conflict
  /-- `DispatchError`. -/
  | dispatch (errorCode : String) (outcomeUnknown : Bool)
  | other (typeName : String)
  deriving DecidableEq

/-- `type(exc).__name__`. -/
def Raised.typeName : Raised → String
  | .conflict => "SchedulerConflictError"
  | .dispatch .. => "DispatchError"
  | .other typeName => typeName

/-- The exception says that nothing was done. -/
def Raised.isKnown : Raised → Bool
  | .dispatch _ outcomeUnknown => !outcomeUnknown
  | .conflict | .other _ => false

def raisedBy : SchedulerError → Raised
  | .conflict _ => .conflict
  | .invalidValue _ => .other "ValueError"
  | .notFound => .other "KeyError"
  | .integrity => .other "IntegrityError"

/-- The operations of others than workers. -/
def ofClient : StoreOp → Bool
  | .claimDue .. | .markSideEffectStarted .. | .markWorkflowDispatched .. | .renewDispatchedJobs ..
  | .cancelClaimedJob .. | .completeJob .. | .finishDispatchedJob .. | .failJob .. => false
  | .putSchedule .. | .updateScheduleStatus .. | .enqueueOccurrences .. | .enqueueManual ..
  | .enqueueHook .. | .observeWatch .. | .replayDeadLetter .. | .acquireAuthority ..
  | .renewAuthority .. | .releaseLease .. | .renewJob .. | .requestCancel .. => true

/-- What others do. -/
inductive Change where
  | outside (f : Outside → Outside)
  | store (op : StoreOp) (client : ofClient op = true)
  /-- A graph run that is not dispatched by the scheduler. -/
  | graphRun (id workflowDefinitionId : String) (workflowDefinitionVersion : Nat) (input : Refs)
  | graphStatus (id : String) (status : GraphRunStatus)

inductive Call where
  | change (change : Change)
  | renewDispatchedJobs (writerLease : SchedulerLease) (owner : String) (ttlSeconds : ℤ)
  | claimDue (writerLease : SchedulerLease) (owner : String) (ttlSeconds : ℤ)
  | getRequest (id : String)
  | getScheduleRevision (scheduleId : String) (version : Nat)
  | cancelClaimedJob (lease : JobLease)
  | markSideEffectStarted (lease : JobLease)
  | markWorkflowDispatched (lease : JobLease) (workflowRunId : String)
  | completeJob (lease : JobLease) (workflowRunId : String)
  | finishDispatchedJob (lease : JobLease) (requestStatus : RunRequestStatus) (errorCode : String)
  | failJob (lease : JobLease) (failure : SchedulerStore.Failure)
  | getDefinition (workflowId : String) (version : Nat)
  | validateRun (action : WorkflowDispatch)
  | authorize (action : WorkflowDispatch)
  | resolveWorkspace (action : WorkflowDispatch)
  | reserve (sourceRunRequestId idempotencyKey actionHash : String)
  | complete (binding : DispatchBinding) (graphRunId : String)
  | getRun (id : String)
  | createRun (source : AttemptId) (action : WorkflowDispatch) (id : String)
  | startRun (id : String)
  | ensureExecution (id : String)
  | cancelWorkflow (id : String)
  | appendAudit

/-- Not a call of a worker. -/
def Call.isChange : Call → Bool
  | .change _ => true
  | _ => false

abbrev Reply : Call → Type
  | .change _ => Unit
  | .renewDispatchedJobs .. => List (RunRequest × JobLease)
  | .claimDue .. => Option (RunRequest × JobLease)
  | .getRequest _ => RunRequest
  | .getScheduleRevision .. => ScheduleDefinition
  | .cancelClaimedJob _ => RunRequest
  | .markSideEffectStarted _ => Unit
  | .markWorkflowDispatched .. => RunRequest
  | .completeJob .. => RunRequest
  | .finishDispatchedJob .. => RunRequest
  | .failJob .. => RunRequest
  | .getDefinition .. => WorkflowDefinitionStatus
  | .validateRun _ => Unit
  | .authorize _ => String
  | .resolveWorkspace _ => Option String
  | .reserve .. => DispatchBinding × Bool
  | .complete .. => DispatchBinding
  | .getRun _ => GraphRun
  | .createRun .. => GraphRun
  | .startRun _ => GraphRun
  | .ensureExecution _ => Unit
  | .cancelWorkflow _ => Unit
  | .appendAudit => Unit

abbrev Answer (c : Call) : Type := Except Raised (Reply c)

namespace World
variable (H : Hashes)

def graphRun? (w : World) (id : String) : Option GraphRun := w.graphRuns.find? fun run => run.id = id

/-- A transaction on the scheduler's store. -/
def transact {α : Type} (w : World) (f : SchedulerStore → Checked (α × SchedulerStore)) :
    Except Raised α × World :=
  match f w.store with
  | .ok (a, store) => (.ok a, { w with store := store })
  | .error e => (.error (raisedBy e), w)

/-- A transaction on the registry. -/
def register {α : Type} (w : World)
    (f : List DispatchBinding → Checked (α × List DispatchBinding)) : Except Raised α × World :=
  match f w.bindings with
  | .ok (a, bindings) => (.ok a, { w with bindings := bindings })
  | .error e => (.error (raisedBy e), w)

def change (w : World) : Change → World
  | .outside f => { w with outside := f w.outside }
  | .store op _ => { w with store := op.apply w.store }
  | .graphRun id workflowDefinitionId workflowDefinitionVersion input =>
    if (w.graphRun? id).isSome then w
    else { w with graphRuns := w.graphRuns ++
      [{ id, workflowDefinitionId, workflowDefinitionVersion, input }] }
  | .graphStatus id status =>
    { w with graphRuns := update w.graphRuns (fun run => run.id = id) fun run =>
      { run with status := status } }

/-- `mark_side_effect_started`; the dispatch has begun. -/
def markSideEffectStarted (w : World) (lease : JobLease) : Except Raised Unit × World :=
  match SchedulerStore.markSideEffectStarted lease w.outside.clock w.store with
  | .ok (_, store) => (.ok (), { w with
      store := store
      dispatches := w.dispatches ++ [⟨attemptOf lease, false⟩] })
  | .error e => (.error (raisedBy e), w)

/-- `fail_job`; unless its outcome is unknown, the dispatch has failed. -/
def failJob (w : World) (lease : JobLease) (failure : SchedulerStore.Failure) :
    Except Raised RunRequest × World :=
  match SchedulerStore.failJob lease failure w.outside.clock w.store with
  | .ok (request, store) => (.ok request, { w with
      store := store
      dispatches := update w.dispatches (fails (attemptOf lease) failure.outcomeUnknown)
        DispatchRecord.fail })
  | .error e => (.error (raisedBy e), w)

/-- `SchedulerSecurityService.authorize`, without the audit it keeps. -/
def authorize (w : World) (action : WorkflowDispatch) : Except Raised String :=
  if w.outside.decision action ≠ .allow then
    .error (.dispatch s!"scheduler.policy_{(w.outside.decision action).text}" false)
  else .ok (H.actionHash action w.outside.policyVersion)

/-- `GraphRuntime.create_run`: the input is validated again, and the table takes an id
once. -/
def createRun (w : World) (source : AttemptId) (action : WorkflowDispatch) (id : String) :
    Except Raised GraphRun × World :=
  match w.outside.invalid action with
  | some typeName => (.error (.other typeName), w)
  | none =>
    if (w.graphRun? id).isSome then (.error (.other "GraphConflictError"), w)
    else
      let run : GraphRun :=
        { id
          workflowDefinitionId := action.workflowId
          workflowDefinitionVersion := action.workflowVersion
          input := action.workflowInput
          source := source }
      (.ok run, { w with graphRuns := w.graphRuns ++ [run] })

/-- `GraphRuntime.start_run`. -/
def startRun (w : World) (id : String) : Except Raised GraphRun × World :=
  match w.graphRun? id with
  | none => (.error (.other "KeyError"), w)
  | some run =>
    if run.status ≠ .created ∧ run.status ≠ .queued ∧ run.status ≠ .interrupted then
      (.error (.other "GraphStateError"), w)
    else (.ok { run with status := .running }, { w with
      graphRuns := update w.graphRuns (fun run => run.id = id) fun run => { run with status := .running } })

def found {α : Type} (row : Option α) : Except Raised α :=
  match row with
  | none => .error (.other "KeyError")
  | some row => .ok row

/-- What a call replies and leaves, where nothing is at fault. -/
def answer (w : World) : (c : Call) → Answer c × World
  | .change change => (.ok (), w.change change)
  | .renewDispatchedJobs writerLease owner ttlSeconds =>
    w.transact
      (SchedulerStore.renewDispatchedJobs writerLease owner ttlSeconds w.outside.tokens w.outside.clock)
  | .claimDue writerLease owner ttlSeconds =>
    w.transact (SchedulerStore.claimDue writerLease owner ttlSeconds w.outside.token w.outside.clock)
  | .getRequest id => (found (w.store.request? id), w)
  | .getScheduleRevision scheduleId version => (found (w.store.definition? scheduleId version), w)
  | .cancelClaimedJob lease => w.transact (SchedulerStore.cancelClaimedJob lease w.outside.clock)
  | .markSideEffectStarted lease => w.markSideEffectStarted lease
  | .markWorkflowDispatched lease workflowRunId =>
    w.transact (SchedulerStore.markWorkflowDispatched lease workflowRunId w.outside.clock)
  | .completeJob lease workflowRunId =>
    w.transact (SchedulerStore.completeJob lease workflowRunId w.outside.clock)
  | .finishDispatchedJob lease requestStatus errorCode =>
    w.transact (SchedulerStore.finishDispatchedJob lease requestStatus errorCode w.outside.clock)
  | .failJob lease failure => w.failJob lease failure
  | .getDefinition workflowId version => (found (w.outside.definitionStatus workflowId version), w)
  | .validateRun action => (match w.outside.invalid action with
      | some typeName => .error (.other typeName)
      | none => .ok (), w)
  | .authorize action => (w.authorize H action, w)
  | .resolveWorkspace action => (match w.outside.workspace action with
      | .error typeName => .error (.other typeName)
      | .ok workspace => .ok workspace, w)
  | .reserve sourceRunRequestId idempotencyKey actionHash =>
    w.register (Dispatch.reserve sourceRunRequestId idempotencyKey actionHash)
  | .complete binding graphRunId => w.register (Dispatch.complete binding graphRunId)
  | .getRun id => (found (w.graphRun? id), w)
  | .createRun source action id => w.createRun source action id
  | .startRun id => w.startRun id
  -- The executor is told, and changes the run when it likes.
  | .ensureExecution _ | .cancelWorkflow _ | .appendAudit => (.ok (), w)

def exec (w : World) (c : Call) : Answer c × World :=
  match c, w.outside.fault with
  | .change change, _ => (.ok (), w.change change)
  | c, none => w.answer H c
  | _, some typeName => (.error (.other typeName), w)

end World
end Operant.Dispatch
