import Operant.Graph.Repository
import Operant.Graph.Routing

/-! `GraphRuntime`: the operations on one run.

Each method of the source is a program over repository calls, in the source's order. Ids,
wait tokens and times a method draws itself are arguments. `rounds` bounds the passes
`_propagate_dependencies` may make. -/
namespace Operant.Graph
open Operant.Python Operant.Calls

abbrev GraphProg := Prog RepoCall RepoCall.Reply GraphError

/-! ### Saving rows -/

/-- `_save_node`. -/
def saveNode (site : Site) (node updates : NodeRun) (via : List (EdgeSpec × NodeRun) := []) :
    GraphProg NodeRun := do
  let updated := { updates with revision := node.revision + 1 }
  let _ ← Prog.request (RepoCall.updateNodeRun site via updated node.revision)
  return updated

/-- `_finish_node_attempt`. -/
def finishNodeAttempt (node updates : NodeRun) (attempt : NodeAttempt) : GraphProg NodeRun := do
  let updated := { updates with revision := node.revision + 1 }
  let _ ← Prog.request (RepoCall.finishNodeAttempt updated attempt node.revision)
  return updated

/-- `_save_run`. -/
def saveRun (site : Site) (scan : List NodeRun) (run updates : GraphWorkflowRun) :
    GraphProg GraphWorkflowRun := do
  let updated := { updates with revision := run.revision + 1 }
  let _ ← Prog.request (RepoCall.updateRun site scan updated run.revision)
  return updated

/-! ### Reading rows -/

def getRun (site : Site) : GraphProg GraphWorkflowRun := Prog.request (RepoCall.getRun site)
def getNodeRun (id : String) : GraphProg NodeRun := Prog.request (RepoCall.getNodeRun id)
def getAttempt (site : Site) (id : String) : GraphProg NodeAttempt :=
  Prog.request (RepoCall.getAttempt site id)
def listNodeRuns (site : Site) : GraphProg (List NodeRun) := Prog.request (RepoCall.listNodeRuns site)
def listAttempts (nodeRunId : String) : GraphProg (List NodeAttempt) :=
  Prog.request (RepoCall.listAttempts nodeRunId)

def getDefinition (workflowId : String) (version : Nat) : GraphProg WorkflowDefinition :=
  Prog.request (RepoCall.getDefinition workflowId version)

/-- `update_attempt`, with the attempt the new one was computed from. -/
def updateAttempt (site : Site) (seen attempt : NodeAttempt) : GraphProg Unit :=
  Prog.request (RepoCall.updateAttempt site seen attempt)

/-- `_definition_and_node`. -/
def definitionAndNode (node : NodeRun) : GraphProg (WorkflowDefinition × NodeSpec) := do
  let run ← getRun .definitionAndNode
  let definition ← getDefinition run.workflowDefinitionId run.workflowDefinitionVersion
  match definition.node? node.nodeId with
  | some spec => return (definition, spec)
  | none => throw (.python .stopIteration)

/-- `_require_running_run`. -/
def requireRunningRun : GraphProg Unit := do
  let run ← getRun .requireRunningRun
  if run.status ≠ .running then throw (.state (.runNotRunning run.status))

/-! ### Stopping and interrupting nodes -/

/-- `_unknown_non_idempotent_write`. -/
def unknownNonIdempotentWrite (spec : NodeSpec) (attempt : Option NodeAttempt) : Bool :=
  spec.idempotencyClass = .nonIdempotent && match attempt with
    | none => true
    | some attempt => attempt.sideEffectState = .started || attempt.sideEffectState = .unknown

/-- An attempt stopped from outside: `result` says how, unless its write is unknown. -/
def NodeAttempt.stopped (attempt : NodeAttempt) (result : AttemptResult) (unknownWrite : Bool) :
    NodeAttempt :=
  { attempt with
    result := if unknownWrite then .interrupted else result
    sideEffectState := if unknownWrite then .unknown else attempt.sideEffectState }

/-- A node that nothing runs any more. -/
def NodeRun.released (node : NodeRun) (status : NodeRunStatus) : NodeRun :=
  { node with status := status, activeAttemptId := none, workerId := none, leaseId := none }

/-- The end of the loop body of `_terminalize_active_nodes`. -/
def stopNode (safeStatus : NodeRunStatus) (node : NodeRun) (unknownWrite : Bool) :
    GraphProg (Bool × NodeRun) := do
  let left ← saveNode .terminalizeActiveNodes node
    (node.released (if unknownWrite then .manualReconcileRequired else safeStatus))
  return (unknownWrite, left)

/-- The loop body of `_terminalize_active_nodes`: whether it found an unknown write, and the
row as it leaves it. -/
def terminalizeNode (safeStatus : NodeRunStatus) (node : NodeRun) : GraphProg (Bool × NodeRun) := do
  if !node.status.isNonterminal then return (false, node)
  match node.activeAttemptId with
  | some attemptId =>
    let attempt ← getAttempt .terminalizeActiveNodes attemptId
    match attempt.result with
    | .running =>
      let (_, spec) ← definitionAndNode node
      let unknownWrite := unknownNonIdempotentWrite spec attempt
      updateAttempt .terminalizeActiveNodes attempt (attempt.stopped .cancelled unknownWrite)
      stopNode safeStatus node unknownWrite
    | .succeeded =>
      let left ← saveNode .terminalizeActiveNodes node
        { node.released .succeeded with outputRefs := attempt.resultPayload }
      return (false, left)
    | .failed | .cancelled | .interrupted => stopNode safeStatus node false
  | none =>
    if node.status = .running then
      let (_, spec) ← definitionAndNode node
      stopNode safeStatus node (unknownNonIdempotentWrite spec none)
    else stopNode safeStatus node false

def terminalizeNodes (safeStatus : NodeRunStatus) : List NodeRun → GraphProg (Bool × List NodeRun)
  | [] => return (false, [])
  | node :: rest => do
    let (unknownWrite, left) ← terminalizeNode safeStatus node
    let (manual, others) ← terminalizeNodes safeStatus rest
    return (unknownWrite || manual, left :: others)

/-- `_terminalize_active_nodes`, with the rows as it leaves them. -/
def terminalizeActiveNodes (safeStatus : NodeRunStatus) : GraphProg (Bool × List NodeRun) := do
  let rows ← listNodeRuns .terminalizeActiveNodes
  terminalizeNodes safeStatus rows

/-- What follows `_terminalize_active_nodes` wherever it is called: the run, read again, is
saved with `status`, or for reconciliation where an unknown write was found. -/
def stopRun (site : Site) (status : GraphRunStatus)
    (usage : GraphWorkflowRun → GraphWorkflowRun := id) : GraphProg GraphWorkflowRun := do
  let (manual, left) ← terminalizeActiveNodes .cancelled
  let run ← getRun .saveRun
  saveRun site left run
    { usage run with status := if manual then .manualReconcileRequired else status }

/-- The loop body of `_reset_interrupted_nodes`: whether the node needs reconciliation. -/
def resetInterruptedNode (node : NodeRun) : GraphProg Bool := do
  match node.status with
  | .manualReconcileRequired => return true
  | .running =>
    let (_, spec) ← definitionAndNode node
    let attempts ← listAttempts node.id
    let attempt := attempts.getLast?
    let unknownWrite := unknownNonIdempotentWrite spec attempt
    let interrupted := node.released (if unknownWrite then .manualReconcileRequired else .ready)
    match attempt with
    | some last => match last.result with
      | .succeeded =>
        let _ ← saveNode .resetInterruptedNodes node
          { node.released .succeeded with outputRefs := last.resultPayload }
        return false
      | .running =>
        updateAttempt .resetInterruptedNodes last (last.stopped .interrupted unknownWrite)
        let _ ← saveNode .resetInterruptedNodes node interrupted
        return unknownWrite
      | .failed | .cancelled | .interrupted =>
        let _ ← saveNode .resetInterruptedNodes node interrupted
        return unknownWrite
    | none =>
      let _ ← saveNode .resetInterruptedNodes node interrupted
      return unknownWrite
  | .pending | .ready | .waitingApproval | .waitingInput | .waiting | .retryWait | .succeeded
  | .failed | .cancelled | .skipped => return false

def resetInterruptedRows : List NodeRun → GraphProg Bool
  | [] => return false
  | node :: rest => do
    let manual ← resetInterruptedNode node
    let others ← resetInterruptedRows rest
    return manual || others

/-- `_reset_interrupted_nodes`. -/
def resetInterruptedNodes : GraphProg Bool := do
  let rows ← listNodeRuns .resetInterruptedNodes
  resetInterruptedRows rows

/-! ### The status of the run -/

/-- The status the rows call for. -/
def activityStatus (current : GraphRunStatus) (statuses : List NodeRunStatus) : GraphRunStatus :=
  if .manualReconcileRequired ∈ statuses then .manualReconcileRequired
  else if .failed ∈ statuses then .failed
  else if statuses.any NodeRunStatus.isActive then .running
  else if .waitingApproval ∈ statuses then .waitingApproval
  else if .waitingInput ∈ statuses || .waiting ∈ statuses then .waitingInput
  else if !statuses.isEmpty && statuses.all NodeRunStatus.isDone then .completed
  else current

/-- `_refresh_run_activity_status`. -/
def refreshRunActivityStatus : GraphProg GraphWorkflowRun := do
  let run ← getRun .refreshRunActivityStatus
  if run.status.isTerminal then return run
  if run.startedAt.isNone then
    if run.status = .created then return run
    saveRun .refreshRunActivityStatus [] run { run with status := .created }
  else
    let rows ← listNodeRuns .refreshRunActivityStatus
    let desired := activityStatus run.status (rows.map NodeRun.status)
    if desired = run.status then return run
    saveRun .refreshRunActivityStatus rows run { run with status := desired }

/-- `_finish_if_terminal`. -/
def finishIfTerminal : GraphProg Unit := do
  let run ← getRun .finishIfTerminal
  let rows ← listNodeRuns .finishIfTerminal
  if !rows.isEmpty && rows.all (fun node => node.status.isDone) then
    let _ ← saveRun .finishIfTerminal rows run { run with status := .completed }

/-- `_mark_run_manual_reconcile`. -/
def markRunManualReconcile : GraphProg Unit := do
  let run ← getRun .saveRun
  let _ ← saveRun .markRunManualReconcile [] run { run with status := .manualReconcileRequired }

/-! ### Propagation -/

/-- The loop body of `_propagate_dependencies`: whether it saved the node, and the appends
so far. -/
def propagateNode (definition : WorkflowDefinition) (input : Refs) (rows : List NodeRun)
    (appends : Appends) (node : NodeRun) : GraphProg (Bool × Appends) := do
  match node.status, definition.incoming node.nodeId with
  | .pending, first :: others =>
    let edges := first :: others
    let states ← Prog.lift
      ((edges.mapM (edgeState definition input rows appends)).mapError GraphError.python)
    let active := ((edges.zip states).filter fun pair => pair.2 = .active).map Prod.fst
    match definition.node? node.nodeId with
    | none => throw (.python .stopIteration)
    | some spec => match joinDecision spec first.joinMode states with
      | .undecided => return (false, appends)
      | .skipped =>
        let _ ← saveNode .propagateDependencies node { node with status := .skipped, inputRefs := [] }
        return (true, appends)
      | .ready =>
        let (refs, appends) ← Prog.lift
          ((inputRefs rows active appends).mapError GraphError.python)
        let via := active.filterMap fun edge =>
          (bySpec rows edge.sourceNode).map fun source => (edge, source)
        let _ ← saveNode .propagateDependencies node { node with status := .ready, inputRefs := refs }
          via
        return (true, appends)
  | _, _ => return (false, appends)

/-- One pass over the rows it has listed: whether it saved anything. -/
def propagatePass (definition : WorkflowDefinition) (input : Refs) (rows : List NodeRun) :
    List NodeRun → Appends → GraphProg Bool
  | [], _ => return false
  | node :: rest, appends => do
    let (changed, appends) ← propagateNode definition input rows appends node
    let others ← propagatePass definition input rows rest appends
    return changed || others

/-- Passes until one saves nothing. -/
def propagatePasses (definition : WorkflowDefinition) (input : Refs) : Nat → GraphProg Unit
  | 0 => throw .cutOff
  | rounds + 1 => do
    let rows ← listNodeRuns .propagateDependencies
    let changed ← propagatePass definition input rows rows []
    if changed then propagatePasses definition input rounds

/-- `_propagate_dependencies`; every caller excludes loop-back edges. -/
def propagateDependencies (rounds : Nat) : GraphProg Unit := do
  let run ← getRun .propagateDependencies
  let definition ← getDefinition run.workflowDefinitionId run.workflowDefinitionVersion
  propagatePasses definition run.input rounds

/-- What follows every step that settles a node. -/
def settle (rounds : Nat) : GraphProg Unit := do
  propagateDependencies rounds
  finishIfTerminal
  let _ ← refreshRunActivityStatus

/-- Skipped by a timeout, a limit or a failed attempt, and so for good. -/
def persistedSkip (node : NodeRun) (latest : Option NodeAttempt) : Bool :=
  node.status = .skipped && (timedOut node.outputRefs || node.outputRefs.has "limit_reasons" ||
    match latest with
    | some attempt => attempt.result = .failed
    | none => false)

/-- A timer that is ready: its row's timestamp is when it started, so it is left alone. -/
def readyTimer (definition : WorkflowDefinition) (node : NodeRun) : Except GraphError Bool :=
  if node.status ≠ .ready then .ok false
  else match definition.node? node.nodeId with
    | some spec => .ok (spec.nodeKind = .timer)
    | none => .error (.python .keyError)

/-- The loop body of `_reset_derived_dependency_states`. -/
def resetDerivedNode (definition : WorkflowDefinition) (node : NodeRun) : GraphProg Unit := do
  if (definition.incoming node.nodeId).isEmpty then return ()
  let timer ← Prog.lift (readyTimer definition node)
  if timer then return ()
  let attempts ← listAttempts node.id
  if node.status = .ready || (node.status = .skipped && !persistedSkip node attempts.getLast?) then
    let _ ← saveNode .resetDerivedDependencyStates node
      { node with status := .pending, inputRefs := [] }

def resetDerivedNodes (definition : WorkflowDefinition) : List NodeRun → GraphProg Unit
  | [] => return ()
  | node :: rest => do
    resetDerivedNode definition node
    resetDerivedNodes definition rest

/-- `_reset_derived_dependency_states`. -/
def resetDerivedDependencyStates : GraphProg Unit := do
  let run ← getRun .resetDerivedDependencyStates
  let definition ← getDefinition run.workflowDefinitionId run.workflowDefinitionVersion
  let rows ← listNodeRuns .resetDerivedDependencyStates
  resetDerivedNodes definition rows

/-! ### Loops -/

/-- The row `_reset_loop_occurrence` saves. -/
def NodeRun.nextOccurrence (node : NodeRun) (status : NodeRunStatus) : NodeRun :=
  { node with
    status := status
    iteration := node.iteration + 1
    retryCount := 0
    activeAttemptId := none
    outputRefs := []
    waitToken := none
    workerId := none
    leaseId := none }

/-- A node that a loop may start over. -/
def NodeRunStatus.isFinished : NodeRunStatus → Bool
  | .succeeded | .skipped | .failed => true
  | .pending | .ready | .running | .waitingApproval | .waitingInput | .waiting | .retryWait
  | .cancelled | .manualReconcileRequired => false

/-- `_ready_node_by_spec_id(..., allow_reset=True)`. -/
def readyNodeBySpecId (nodeId : String) : GraphProg Unit := do
  let rows ← listNodeRuns .readyNodeBySpecId
  match bySpec rows nodeId with
  | none => throw (.python .stopIteration)
  | some node =>
    if node.status = .pending then
      let _ ← saveNode .readyNodeBySpecId node { node with status := .ready, activeAttemptId := none }
    else if node.status.isFinished then
      let _ ← saveNode .readyNodeBySpecId node (node.nextOccurrence .ready)

/-- The first loop of `_unlock_loop_body`. -/
def resetLoopNodes (rows : List NodeRun) : List String → GraphProg Unit
  | [] => return ()
  | nodeId :: rest => do
    match bySpec rows nodeId with
    | some node =>
      if node.status.isFinished then
        let _ ← saveNode .unlockLoopBody node (node.nextOccurrence .pending)
    | none => pure ()
    resetLoopNodes rows rest

/-- The inputs of a target with what the loop-back edges deliver to it. -/
def loopInputs (definition : WorkflowDefinition) (loopId target : String) (outputs inputs : Refs) :
    Refs :=
  (definition.edges.filter fun edge =>
    edge.sourceNode = loopId && edge.targetNode = target && edge.loopBack).foldl
    (fun refs edge => match outputs.lookup edge.sourcePort with
      | some v => refs.set edge.targetPort v
      | none => refs) inputs

/-- The second loop of `_unlock_loop_body`. -/
def unlockTargets (definition : WorkflowDefinition) (loop : NodeRun) : List String → GraphProg Unit
  | [] => return ()
  | target :: rest => do
    readyNodeBySpecId target
    let rows ← listNodeRuns .unlockLoopBody
    match bySpec rows target with
    | none => throw (.python .stopIteration)
    | some node =>
      let refs := loopInputs definition loop.nodeId target loop.outputRefs node.inputRefs
      if !refs.pyEq node.inputRefs then
        let _ ← saveNode .unlockLoopBody node { node with inputRefs := refs }
    unlockTargets definition loop rest

/-- `_unlock_loop_body`. The source goes through its set of targets in any order. -/
def unlockLoopBody (loopId : String) : GraphProg Unit := do
  let run ← getRun .unlockLoopBody
  let definition ← getDefinition run.workflowDefinitionId run.workflowDefinitionVersion
  let rows ← listNodeRuns .unlockLoopBody
  resetLoopNodes rows (definition.resetNodes loopId)
  match bySpec rows loopId with
  | none => throw (.python .keyError)
  | some loop => unlockTargets definition loop (definition.loopTargets loopId)

/-! ### Measurements -/

/-- A time or a cost: a finite number, not below zero. -/
def finiteUsage : Value → Except GraphError ℚ
  | .int n => match (Value.int n).isFinite with
    | .error e => .error (.python e)
    | .ok _ => if n < 0 then .error .invalidValue else .ok n
  | .float (.finite q) => if q < 0 then .error .invalidValue else .ok q
  | _ => .error .invalidValue

/-- A count: an integer, not below zero. -/
def countUsage : Value → Except GraphError Nat
  | .int n => if n < 0 then .error .invalidValue else .ok n.toNat
  | _ => .error .invalidValue

structure LoopUsage where
  elapsedSeconds : Value := .int 0
  outputTokens : Value := .int 0
  costUsd : Value := .int 0
  subagents : Value := .int 0
  recursionDepth : Value := .int 1
  deriving DecidableEq

structure CheckedLoopUsage where
  elapsedSeconds : ℚ
  outputTokens : Nat
  costUsd : ℚ
  subagents : Nat
  recursionDepth : Nat

/-- The checks `advance_loop` makes first. -/
def LoopUsage.check (usage : LoopUsage) : Except GraphError CheckedLoopUsage := do
  let elapsedSeconds ← finiteUsage usage.elapsedSeconds
  let costUsd ← finiteUsage usage.costUsd
  let outputTokens ← countUsage usage.outputTokens
  let subagents ← countUsage usage.subagents
  let recursionDepth ← countUsage usage.recursionDepth
  return { elapsedSeconds, outputTokens, costUsd, subagents, recursionDepth }

/-- `limit_reasons`. -/
def limitReasons (policy : LoopPolicy) (usage : CheckedLoopUsage) (continueLoop : Bool)
    (iteration repeats : Nat) : List String :=
  (if policy.maxIterations < iteration || (continueLoop && policy.maxIterations ≤ iteration) then
    ["max_iterations"] else []) ++
  (if policy.maxNoProgressRepeats ≤ repeats then ["no_progress"] else []) ++
  (if policy.maxWallSeconds < usage.elapsedSeconds then ["max_wall_seconds"] else []) ++
  (if policy.maxOutputTokens < usage.outputTokens then ["max_output_tokens"] else []) ++
  (if policy.maxCostUsd < usage.costUsd then ["max_cost_usd"] else []) ++
  (if policy.maxSubagents < usage.subagents then ["max_subagents"] else []) ++
  (if policy.maxRecursionDepth < usage.recursionDepth then ["max_recursion_depth"] else [])

structure BudgetUsage where
  outputTokens : Value := .int 0
  costUsd : Value := .int 0
  toolCalls : Value := .int 0
  deriving DecidableEq

structure CheckedBudgetUsage where
  outputTokens : Nat
  costUsd : ℚ
  toolCalls : Nat

/-- The checks `record_budget` makes first; a cost below zero is found before one that
overflows. -/
def BudgetUsage.check (usage : BudgetUsage) : Except GraphError CheckedBudgetUsage := do
  let outputTokens ← countUsage usage.outputTokens
  let toolCalls ← countUsage usage.toolCalls
  match usage.costUsd with
  | .int n => if n < 0 then throw .invalidValue
  | _ => pure ()
  let costUsd ← finiteUsage usage.costUsd
  return { outputTokens, costUsd, toolCalls }

/-! ### Operations -/

/-- `_attempt_idempotency_key`, given the attempts it lists. -/
def attemptIdempotencyKey (attempts : List NodeAttempt) (node : NodeRun) (spec : NodeSpec)
    (sideEffect : AttemptSideEffectState) (requested : Option String) : Option String :=
  let fresh := if requested.isSome || sideEffect = .none then requested
    else some s!"{node.workflowRunId}:{node.nodeId}:{node.retryCount}"
  if spec.idempotencyClass = .idempotent then
    match attempts.getLast?.bind NodeAttempt.idempotencyKey with
    | some key => if key = "" then fresh else some key
    | none => fresh
  else fresh

def startRun (now : Nat) : GraphProg GraphWorkflowRun := do
  let run ← getRun .startRun
  match run.status with
  | .created | .queued | .interrupted =>
    saveRun .startRun [] run
      { run with status := .running, startedAt := some (run.startedAt.getD now) }
  | status => throw (.state (.cannotStartRun status))

structure StartRequest where
  nodeRunId : String
  attemptId : String
  workerId : Option String := none
  leaseId : Option String := none
  agentInstanceId : Option String := none
  idempotencyKey : Option String := none
  deriving DecidableEq

def startAttempt (args : StartRequest) : GraphProg NodeAttempt := do
  let node ← getNodeRun args.nodeRunId
  requireRunningRun
  if node.status ≠ .ready ∧ node.status ≠ .retryWait then
    throw (.state (.cannotStartNode node.status))
  let (definition, spec) ← definitionAndNode node
  Prog.lift (validatePortValues spec.inputPorts node.inputRefs)
  let rows ← listNodeRuns .startAttempt
  let activeNodes := (rows.filter fun row => row.status = .running).length
  if definition.graphLimits.maxParallelNodes ≤ activeNodes then throw (.state .parallelLimit)
  let sideEffect := if spec.idempotencyClass = .pure then .none else .notStarted
  let earlier ← listAttempts node.id
  let attempts ← listAttempts node.id
  let attempt : NodeAttempt :=
    { id := args.attemptId
      nodeRunId := node.id
      attemptNumber := earlier.length + 1
      agentInstanceId := args.agentInstanceId
      sideEffectState := sideEffect
      idempotencyKey := attemptIdempotencyKey attempts node spec sideEffect args.idempotencyKey }
  if !attempt.hasKeyForSideEffect then throw .invalidValue
  let updated := { node with
    status := .running
    activeAttemptId := some args.attemptId
    workerId := args.workerId
    leaseId := args.leaseId
    revision := node.revision + 1 }
  let _ ← Prog.request (RepoCall.startNodeAttempt args.idempotencyKey updated attempt node.revision)
  return attempt

structure Outcome where
  attemptId : String
  succeeded : Bool
  outputRefs : Refs := []
  failureClass : Option String := none
  sideEffectState : Option AttemptSideEffectState := none
  deriving DecidableEq

def completeAttempt (rounds : Nat) (outcome : Outcome) : GraphProg NodeRun := do
  let stored ← getAttempt .completeAttempt outcome.attemptId
  if stored.result ≠ .running then throw (.state .attemptTerminal)
  let node ← getNodeRun stored.nodeRunId
  requireRunningRun
  if node.activeAttemptId ≠ some stored.id ∨ node.status ≠ .running then
    throw (.state .attemptNotActive)
  let (_, spec) ← definitionAndNode node
  let effect := outcome.sideEffectState.getD stored.sideEffectState
  let payload := outcome.outputRefs
  Prog.lift (validatePortValues spec.outputPorts payload
    (outcome.succeeded && effect ≠ .unknown))
  let terminal := { stored with
    result := if outcome.succeeded then .succeeded else .failed
    resultPayload := payload
    failureClass := outcome.failureClass
    sideEffectState := effect }
  if effect = .unknown ∧ spec.idempotencyClass = .nonIdempotent then
    let updated ← finishNodeAttempt node
      { node with
        status := .manualReconcileRequired, activeAttemptId := none, outputRefs := payload } terminal
    markRunManualReconcile
    return updated
  if effect = .unknown then
    finishNodeAttempt node (node.released .ready)
      { terminal with
        result := .interrupted
        failureClass := match outcome.failureClass with
          | none | some "" => some "side_effect_outcome_unknown"
          | some failureClass => some failureClass }
  else if outcome.succeeded then
    let updated ← finishNodeAttempt node { node.released .succeeded with outputRefs := payload }
      terminal
    settle rounds
    return updated
  else if stored.attemptNumber < spec.retryPolicy.maxAttempts ∧
      spec.idempotencyClass ≠ .nonIdempotent then
    finishNodeAttempt node { node.released .retryWait with retryCount := node.retryCount + 1 }
      terminal
  else match spec.failurePolicy with
    | .skip =>
      let updated ← finishNodeAttempt node { node.released .skipped with outputRefs := payload }
        terminal
      settle rounds
      return updated
    | .manualReconcile =>
      let updated ← finishNodeAttempt node
        { node with
          status := .manualReconcileRequired, activeAttemptId := none, outputRefs := payload }
        { terminal with sideEffectState := .unknown }
      markRunManualReconcile
      return updated
    | .failWorkflow =>
      let updated ← finishNodeAttempt node (node.released .failed) terminal
      let _ ← stopRun .completeAttempt .failed
      return updated

def markSideEffectStarted (attemptId : String) : GraphProg NodeAttempt := do
  let attempt ← getAttempt .markSideEffectStarted attemptId
  if attempt.result ≠ .running then throw (.state .attemptTerminal)
  if attempt.sideEffectState = .none then throw (.state .pureAttempt)
  let _ ← getNodeRun attempt.nodeRunId
  requireRunningRun
  let updated := { attempt with sideEffectState := .started }
  updateAttempt .markSideEffectStarted attempt updated
  return updated

def selectCondition (rounds : Nat) (nodeRunId selectedPort : String) (outputRefs : Refs) :
    GraphProg NodeRun := do
  let node ← getNodeRun nodeRunId
  requireRunningRun
  let (_, spec) ← definitionAndNode node
  if spec.nodeKind ≠ .condition ∨ node.status ≠ .ready then throw (.state .conditionNotReady)
  Prog.lift (validatePortValues spec.inputPorts node.inputRefs)
  if selectedPort ∉ spec.outputPorts.map PortSpec.name then throw (.state .unknownOutputPort)
  let selectedOutput := outputRefs.setDefault selectedPort (.bool true)
  Prog.lift (validatePortValues spec.outputPorts selectedOutput false)
  let updated ← saveNode .selectCondition node
    { node with
      status := .succeeded, outputRefs := selectedOutput.set "selected_port" (.str selectedPort) }
  settle rounds
  return updated

/-- The node a boundary belongs to. -/
def BoundaryKind.nodeKind : BoundaryKind → NodeKind
  | .approval => .approval
  | .humanInput => .humanInput
  | .wait => .wait
  | .subworkflow => .subworkflow
  | .merge => .merge

/-- The status a node has while it waits there. -/
def BoundaryKind.status : BoundaryKind → NodeRunStatus
  | .approval => .waitingApproval
  | .humanInput => .waitingInput
  | .wait | .subworkflow | .merge => .waiting

def enterBoundary (nodeRunId : String) (boundary : BoundaryKind) (waitToken : String) :
    GraphProg NodeRun := do
  let node ← getNodeRun nodeRunId
  requireRunningRun
  if node.status ≠ .ready then throw (.state .nodeNotReady)
  let (_, spec) ← definitionAndNode node
  Prog.lift (validatePortValues spec.inputPorts node.inputRefs)
  if spec.nodeKind ≠ boundary.nodeKind then throw (.state (.wrongBoundary boundary.nodeKind))
  let updated ← saveNode .enterBoundary node
    { node with status := boundary.status, waitToken := waitToken }
  let _ ← refreshRunActivityStatus
  return updated

def resolveBoundary (rounds : Nat) (nodeRunId : String) (resolution : BoundaryResolution) :
    GraphProg NodeRun := do
  let node ← getNodeRun nodeRunId
  if node.status = .succeeded ∨ node.status = .failed then
    if node.waitToken = some resolution.waitToken then return node
    throw .conflict
  if !node.status.isWaiting then throw (.state .nodeNotWaiting)
  let run ← getRun .resolveBoundary
  if run.status.isTerminal then throw (.state (.terminalRun run.status))
  if run.status ≠ .running ∧ run.status ≠ .waitingApproval ∧ run.status ≠ .waitingInput then
    throw (.state (.cannotResolve run.status))
  if node.waitToken ≠ some resolution.waitToken then throw .conflict
  let (_, spec) ← definitionAndNode node
  Prog.lift (validatePortValues spec.outputPorts resolution.payload resolution.accepted)
  let updated ← saveNode .resolveBoundary node
    { node with
      status := if resolution.accepted then .succeeded else .failed
      outputRefs := resolution.payload }
  if resolution.accepted then settle rounds
  else
    let _ ← stopRun .resolveBoundary .failed
  return updated

def timeoutBoundary (rounds : Nat) (nodeRunId waitToken : String) : GraphProg NodeRun := do
  let node ← getNodeRun nodeRunId
  if !node.status.isWaiting then throw (.state .nodeNotWaiting)
  let run ← getRun .timeoutBoundary
  if run.status.isTerminal then throw (.state (.terminalRun run.status))
  if node.waitToken ≠ some waitToken then throw .conflict
  let (_, spec) ← definitionAndNode node
  if spec.timeoutTarget.isNone then throw (.state .noTimeoutBranch)
  let updated ← saveNode .timeoutBoundary node
    { node with status := .skipped, outputRefs := [("timeout", .bool true)] }
  settle rounds
  return updated

structure LoopStep where
  nodeRunId : String
  continueLoop : Bool
  progressSignature : String
  outputRefs : Refs := []
  usage : LoopUsage := {}
  deriving DecidableEq

/-- The row `advance_loop` saves, up to its status and outputs. -/
def NodeRun.advanced (node : NodeRun) (step : LoopStep) (repeats : Nat) (status : NodeRunStatus)
    (outputs : Refs) : NodeRun :=
  { node with
    status := status
    iteration := node.iteration + 1
    noProgressSignature := step.progressSignature
    noProgressRepeats := repeats
    outputRefs := outputs }

def advanceLoop (rounds : Nat) (step : LoopStep) : GraphProg NodeRun := do
  let usage ← Prog.lift step.usage.check
  let node ← getNodeRun step.nodeRunId
  requireRunningRun
  let (_, spec) ← definitionAndNode node
  match spec.loopPolicy with
  | none => throw (.state .notALoop)
  | some policy =>
    if node.status ≠ .ready ∧ node.status ≠ .running then throw (.state .loopNotActive)
    Prog.lift (validatePortValues spec.inputPorts node.inputRefs)
    let repeats := if node.noProgressSignature = some step.progressSignature then
      node.noProgressRepeats + 1 else 0
    let reasons := limitReasons policy usage step.continueLoop (node.iteration + 1) repeats
    Prog.lift (validatePortValues spec.outputPorts step.outputRefs
      (!step.continueLoop && reasons.isEmpty))
    if !reasons.isEmpty then
      let updated ← saveNode .advanceLoop node
        (node.advanced step repeats .skipped
          (step.outputRefs.set "limit_reasons" (.list (reasons.map Value.str))))
      settle rounds
      return updated
    else if !step.continueLoop then
      let updated ← saveNode .advanceLoop node
        (node.advanced step repeats .succeeded step.outputRefs)
      settle rounds
      return updated
    else
      let run ← getRun .advanceLoop
      let again ← getRun .advanceLoop
      let definition ← getDefinition run.workflowDefinitionId again.workflowDefinitionVersion
      let updated ← saveNode .advanceLoop node
        (node.advanced step repeats
          (if definition.hasBackEdge spec.nodeId then .pending else .ready) step.outputRefs)
      unlockLoopBody spec.nodeId
      return updated

/-- A limit that is set and passed. -/
def exceeds {α : Type} [LT α] [DecidableLT α] (limit : Option α) (used : α) : Bool :=
  match limit with
  | some limit => limit < used
  | none => false

/-- A limit of the run's own budget is passed. -/
def GraphWorkflowRun.overBudget (run : GraphWorkflowRun) : Bool :=
  exceeds (run.budgetSnapshot.maxOutputTokens.map Int.ofNat) run.consumedOutputTokens ||
    exceeds run.budgetSnapshot.maxCostUsd run.consumedCostUsd ||
    exceeds (run.budgetSnapshot.maxToolCalls.map Int.ofNat) run.consumedToolCalls

def recordBudget (usage : BudgetUsage) (observedAfterStop : Bool) : GraphProg GraphWorkflowRun := do
  let usage ← Prog.lift usage.check
  let run ← getRun .recordBudget
  if run.consumedOutputTokens < 0 ∨ run.consumedToolCalls < 0 ∨ run.consumedCostUsd < 0 then
    throw (.state .invalidUsage)
  let active := run.status = .running ∨ run.status = .waitingApproval ∨ run.status = .waitingInput
  let stopped := run.status = .failed ∨ run.status = .cancelled ∨ run.status = .interrupted ∨
    run.status = .manualReconcileRequired
  if ¬active ∧ ¬(observedAfterStop = true ∧ stopped) then
    throw (.state (.cannotRecord run.status))
  let tokens := run.consumedOutputTokens + usage.outputTokens
  let cost := run.consumedCostUsd + usage.costUsd
  let calls := run.consumedToolCalls + usage.toolCalls
  let consumed (row : GraphWorkflowRun) : GraphWorkflowRun := { row with
    consumedOutputTokens := tokens, consumedCostUsd := cost, consumedToolCalls := calls }
  if active ∧ (exceeds (run.budgetSnapshot.maxOutputTokens.map Int.ofNat) tokens ||
      exceeds run.budgetSnapshot.maxCostUsd cost ||
      exceeds (run.budgetSnapshot.maxToolCalls.map Int.ofNat) calls) then
    stopRun (.accounted run.consumption) .failed consumed
  else saveRun (.accounted run.consumption) [] run (consumed run)

def cancelRun : GraphProg GraphWorkflowRun := do
  let run ← getRun .cancelRun
  if run.status.isTerminal then return run
  stopRun .cancelRun .cancelled

def interruptRun : GraphProg GraphWorkflowRun := do
  let run ← getRun .interruptRun
  if run.status.isTerminal then return run
  let manual ← resetInterruptedNodes
  let current ← getRun .saveRun
  saveRun .interruptRun [] current
    { current with status := if manual then .manualReconcileRequired else .interrupted }

def failRun : GraphProg GraphWorkflowRun := do
  let run ← getRun .failRun
  if run.status.isTerminal then return run
  stopRun .failRun .failed

def recover (rounds : Nat) : GraphProg GraphWorkflowRun := do
  let run ← getRun .recover
  if run.status.isTerminal then return run
  let manual ← resetInterruptedNodes
  if manual then
    let current ← getRun .saveRun
    saveRun .recover [] current { current with status := .manualReconcileRequired }
  else
    resetDerivedDependencyStates
    propagateDependencies rounds
    finishIfTerminal
    let current ← getRun .recover
    if current.status = .completed then return current
    refreshRunActivityStatus

/-! ### Creating a run -/

/-- The check of `validate_run` on one entry node. -/
def validateEntry (definition : WorkflowDefinition) (input : Refs) (nodeId : String) :
    Except GraphError Unit :=
  match definition.node? nodeId with
  | some spec => validatePortValues spec.inputPorts input
  | none => .error (.python .keyError)

def validateRun (definition : WorkflowDefinition) (input : Refs) :
    Except GraphError CompiledWorkflow := do
  let compiled ← (compile definition).mapError GraphError.compilation
  if definition.status ≠ .published then throw (.state .unpublished)
  compiled.entryNodeIds.forM (validateEntry definition input)
  return compiled

structure RunRequest where
  definition : WorkflowDefinition
  input : Refs := []
  runId : String
  budgetSnapshot : Option Budget := none
  parentRunId : Option String := none
  /-- The fresh id of the row of each node. -/
  nodeRunId : String → String

def initialNodeRun (args : RunRequest) (entries : List String) (spec : NodeSpec) : NodeRun :=
  { id := args.nodeRunId spec.nodeId
    workflowRunId := args.runId
    nodeId := spec.nodeId
    status := if spec.nodeId ∈ entries then .ready else .pending
    inputRefs := if spec.nodeId ∈ entries then args.input else [] }

/-- `create_run`, without the checks that bind a child run to its parent. Rows whose ids
clash cannot be stored. -/
def createRun (args : RunRequest) : Except GraphError GraphStore := do
  let compiled ← validateRun args.definition args.input
  let nodeRuns := args.definition.nodes.map (initialNodeRun args compiled.entryNodeIds)
  if ¬(nodeRuns.map NodeRun.id).Nodup then throw .conflict
  return {
    definition := args.definition
    run :=
      { id := args.runId
        workflowDefinitionId := args.definition.workflowId
        workflowDefinitionVersion := args.definition.version
        input := args.input
        parentRunId := args.parentRunId
        budgetSnapshot := args.budgetSnapshot.getD args.definition.defaultBudget }
    nodeRuns := nodeRuns }

/-! ### One type for all of them -/

inductive Op where
  | startRun (now : Nat)
  | startAttempt (args : StartRequest)
  | completeAttempt (outcome : Outcome)
  | markSideEffectStarted (attemptId : String)
  | selectCondition (nodeRunId selectedPort : String) (outputRefs : Refs)
  | enterBoundary (nodeRunId : String) (boundary : BoundaryKind) (waitToken : String)
  | resolveBoundary (nodeRunId : String) (resolution : BoundaryResolution)
  | timeoutBoundary (nodeRunId waitToken : String)
  | advanceLoop (step : LoopStep)
  | recordBudget (usage : BudgetUsage) (observedAfterStop : Bool)
  | cancelRun
  | interruptRun
  | failRun
  | recover
  deriving DecidableEq

/-- The operation as a program, its result dropped. -/
def Op.code (rounds : Nat) : Op → GraphProg Unit
  | .startRun now => do let _ ← Graph.startRun now
  | .startAttempt args => do let _ ← Graph.startAttempt args
  | .completeAttempt outcome => do let _ ← Graph.completeAttempt rounds outcome
  | .markSideEffectStarted attemptId => do let _ ← Graph.markSideEffectStarted attemptId
  | .selectCondition nodeRunId selectedPort outputRefs => do
    let _ ← Graph.selectCondition rounds nodeRunId selectedPort outputRefs
  | .enterBoundary nodeRunId boundary waitToken => do
    let _ ← Graph.enterBoundary nodeRunId boundary waitToken
  | .resolveBoundary nodeRunId resolution => do
    let _ ← Graph.resolveBoundary rounds nodeRunId resolution
  | .timeoutBoundary nodeRunId waitToken => do
    let _ ← Graph.timeoutBoundary rounds nodeRunId waitToken
  | .advanceLoop step => do let _ ← Graph.advanceLoop rounds step
  | .recordBudget usage observedAfterStop => do
    let _ ← Graph.recordBudget usage observedAfterStop
  | .cancelRun => do let _ ← Graph.cancelRun
  | .interruptRun => do let _ ← Graph.interruptRun
  | .failRun => do let _ ← Graph.failRun
  | .recover => do let _ ← Graph.recover rounds

end Operant.Graph
