import Operant.Python.Operand

/-! The graph's data: what a definition says and what a run stores.

A `WorkflowDefinition` is nodes with typed ports and edges between them. A run of it
is one `GraphWorkflowRun` row, one `NodeRun` row for each node and one `NodeAttempt`
row for each time a node was started. Field names, enumerations and defaults are the
source's; what its validators promise about a value is a field of the structure. -/
namespace Operant.Graph
open Operant.Python

/-! ### Enumerations -/

inductive WorkflowDefinitionStatus where
  | draft
  | published
  | deprecated
  deriving DecidableEq

inductive NodeKind where
  | agent
  | tool
  | script
  | condition
  | fanOut
  | join
  | loop
  | humanInput
  | approval
  | wait
  | timer
  | subworkflow
  | artifact
  | merge
  deriving DecidableEq

inductive IdempotencyClass where
  | pure
  | idempotent
  | nonIdempotent
  deriving DecidableEq

inductive FailurePolicy where
  | failWorkflow
  | skip
  | manualReconcile
  deriving DecidableEq

inductive JoinMode where
  | all
  | any
  deriving DecidableEq

inductive WriterIsolationKind where
  | worktree
  | container
  deriving DecidableEq

inductive MergeStrategy where
  | threeWay
  | cherryPick
  | applyPatch
  deriving DecidableEq

inductive GraphRunStatus where
  | created
  | queued
  | running
  | waitingInput
  | waitingApproval
  | interrupted
  | manualReconcileRequired
  | completed
  | failed
  | cancelled
  deriving DecidableEq

inductive NodeRunStatus where
  | pending
  | ready
  | running
  | waitingApproval
  | waitingInput
  | waiting
  | retryWait
  | succeeded
  | failed
  | cancelled
  | skipped
  | manualReconcileRequired
  deriving DecidableEq

inductive AttemptSideEffectState where
  | none
  | notStarted
  | started
  | committed
  | unknown
  deriving DecidableEq

inductive AttemptResult where
  | running
  | succeeded
  | failed
  | cancelled
  | interrupted
  deriving DecidableEq

inductive BoundaryKind where
  | approval
  | humanInput
  | wait
  | subworkflow
  | merge
  deriving DecidableEq

/-- `_TERMINAL_GRAPH_STATUSES`. -/
def GraphRunStatus.isTerminal : GraphRunStatus → Bool
  | .completed | .failed | .cancelled | .manualReconcileRequired => true
  | .created | .queued | .running | .waitingInput | .waitingApproval | .interrupted => false

/-- `_ACTIVE_NODE_STATUSES`. -/
def NodeRunStatus.isActive : NodeRunStatus → Bool
  | .ready | .running | .retryWait => true
  | .pending | .waitingApproval | .waitingInput | .waiting | .succeeded | .failed | .cancelled
  | .skipped | .manualReconcileRequired => false

/-- `_NONTERMINAL_NODE_STATUSES`. -/
def NodeRunStatus.isNonterminal : NodeRunStatus → Bool
  | .pending | .ready | .running | .waitingApproval | .waitingInput | .waiting | .retryWait => true
  | .succeeded | .failed | .cancelled | .skipped | .manualReconcileRequired => false

/-- The three statuses of a node at a durable boundary. -/
def NodeRunStatus.isWaiting : NodeRunStatus → Bool
  | .waitingApproval | .waitingInput | .waiting => true
  | .pending | .ready | .running | .retryWait | .succeeded | .failed | .cancelled | .skipped
  | .manualReconcileRequired => false

/-- What an edge out of the node treats as decided and a loop may start over. -/
def NodeRunStatus.isDone : NodeRunStatus → Bool
  | .succeeded | .skipped => true
  | .pending | .ready | .running | .waitingApproval | .waitingInput | .waiting | .retryWait
  | .failed | .cancelled | .manualReconcileRequired => false

/-! ### Policies -/

structure PortSpec where
  name : String
  valueType : String := "any"
  required : Bool := true
  deriving DecidableEq

structure RetryPolicy where
  maxAttempts : Nat := 1
  maxAttempts_pos : 1 ≤ maxAttempts := by decide

instance : DecidableEq RetryPolicy := fun a b =>
  decidable_of_iff (a.maxAttempts = b.maxAttempts) ⟨fun h => by cases a; cases b; simp_all, fun h => by rw [h]⟩

/-- The policy of a node that names none. -/
def RetryPolicy.once : RetryPolicy := { maxAttempts_pos := Nat.one_pos }

structure TimeoutPolicy where
  onTimeoutNodeId : Option String := none
  deriving DecidableEq

/-- Expressions of the condition language, as `ast.parse` returns them. A node type
the language does not have is `unsupported`. -/
inductive CmpOp where
  | eq
  | notEq
  | order (op : Value.Order)
  | isIn
  | notIn
  deriving DecidableEq

inductive Expr where
  | constant (value : Operand)
  | name (id : String)
  | subscript (value slice : Expr)
  | not (operand : Expr)
  | and (values : List Expr)
  | or (values : List Expr)
  | compare (left : Expr) (rest : List (CmpOp × Expr))
  | unsupported

/-- A condition's text, as far as it matters: what it parses to, if it parses. -/
structure Condition where
  parsed : Option Expr

structure LoopPolicy where
  maxIterations : Nat
  maxWallSeconds : Nat
  maxOutputTokens : Nat
  maxCostUsd : ℚ
  maxSubagents : Nat
  maxRecursionDepth : Nat
  maxNoProgressRepeats : Nat := 2
  exitExpression : Condition
  onLimitNodeId : String
  onManualReconcileNodeId : Option String := none
  maxIterations_pos : 1 ≤ maxIterations := by decide

structure GraphLimits where
  maxNodes : Nat := 256
  maxEdges : Nat := 1024
  maxParallelNodes : Nat := 8
  maxSubagents : Nat := 8
  maxRecursionDepth : Nat := 4
  deriving DecidableEq

/-- The limits a run may consume; `none` is unlimited. -/
structure Budget where
  maxTurns : Nat := 12
  maxConsecutiveTestFailures : Nat := 2
  timeoutSeconds : Nat := 300
  maxOutputTokens : Option Nat := none
  maxCostUsd : Option ℚ := none
  maxToolCalls : Option Nat := none
  deriving DecidableEq

structure WriterNodePolicy where
  writerKey : String
  isolationKind : WriterIsolationKind
  isolationRef : String
  ownershipPaths : List String
  deriving DecidableEq

structure MergeNodePolicy where
  strategy : MergeStrategy := .threeWay
  sourceWriterKeys : List String
  requireReview : Bool := true
  rollbackOnFailure : Bool := true
  deriving DecidableEq

/-! ### Definitions -/

theorem agent_loopless : (none : Option LoopPolicy).isSome = true ↔ NodeKind.agent = .loop := by decide

theorem merge_loopless : (none : Option LoopPolicy).isSome = true ↔ NodeKind.merge = .loop := by decide

structure NodeSpec where
  nodeId : String
  nodeKind : NodeKind
  inputPorts : List PortSpec := []
  outputPorts : List PortSpec := []
  modelOverride : Option String := none
  capabilityRequirements : List String := []
  retryPolicy : RetryPolicy := .once
  timeoutPolicy : Option TimeoutPolicy := none
  budget : Option Budget := none
  idempotencyClass : IdempotencyClass := .pure
  failurePolicy : FailurePolicy := .failWorkflow
  writesWorkspace : Bool := false
  writerPolicy : Option WriterNodePolicy := none
  mergePolicy : Option MergeNodePolicy := none
  loopPolicy : Option LoopPolicy := none
  subworkflowId : Option String := none
  subworkflowVersion : Option Nat := none
  metadata : Refs := []
  /-- `validate_kind_specific_fields`: only loops have a loop policy, and all of them do. -/
  loopPolicy_kind : loopPolicy.isSome = true ↔ nodeKind = .loop := by
    first | exact Operant.Graph.agent_loopless | exact Operant.Graph.merge_loopless | decide
  inputPorts_nodup : (inputPorts.map PortSpec.name).Nodup := by first | exact List.nodup_nil | decide
  outputPorts_nodup : (outputPorts.map PortSpec.name).Nodup := by first | exact List.nodup_nil | decide

structure EdgeSpec where
  edgeId : String
  sourceNode : String
  sourcePort : String
  targetNode : String
  targetPort : String
  condition : Option Condition := none
  joinMode : JoinMode := .all
  loopBack : Bool := false

structure WorkflowDefinition where
  workflowId : String
  version : Nat := 1
  nodes : List NodeSpec
  edges : List EdgeSpec := []
  graphLimits : GraphLimits := {}
  defaultBudget : Budget := {}
  defaultPolicy : Refs := []
  requiredPlugins : List String := []
  requiredCapabilities : List String := []
  lockedRoleVersions : List (String × Nat) := []
  lockedProviderVersions : List (String × String) := []
  status : WorkflowDefinitionStatus := .draft

/-- `next(node for node in definition.nodes if node.node_id == node_id)`. -/
def WorkflowDefinition.node? (definition : WorkflowDefinition) (nodeId : String) : Option NodeSpec :=
  definition.nodes.find? fun node => node.nodeId = nodeId

/-! ### Rows of a run -/

structure GraphWorkflowRun where
  id : String
  workflowDefinitionId : String
  workflowDefinitionVersion : Nat
  input : Refs := []
  parentRunId : Option String := none
  status : GraphRunStatus := .created
  budgetSnapshot : Budget
  consumedOutputTokens : Int := 0
  consumedCostUsd : ℚ := 0
  consumedToolCalls : Int := 0
  revision : Nat := 1
  startedAt : Option Nat := none
  deriving DecidableEq

/-- `record_budget` counts on a run like this one. -/
def GraphRunStatus.isActive : GraphRunStatus → Bool
  | .running | .waitingApproval | .waitingInput => true
  | .created | .queued | .interrupted | .manualReconcileRequired | .completed | .failed
  | .cancelled => false

/-- The output tokens, the cost and the tool calls a run has used. -/
abbrev Consumption := ℤ × ℚ × ℤ

def GraphWorkflowRun.consumption (run : GraphWorkflowRun) : Consumption :=
  (run.consumedOutputTokens, run.consumedCostUsd, run.consumedToolCalls)

structure NodeRun where
  id : String
  workflowRunId : String
  nodeId : String
  status : NodeRunStatus := .pending
  inputRefs : Refs := []
  outputRefs : Refs := []
  activeAttemptId : Option String := none
  retryCount : Nat := 0
  iteration : Nat := 0
  noProgressSignature : Option String := none
  noProgressRepeats : Nat := 0
  workerId : Option String := none
  leaseId : Option String := none
  waitToken : Option String := none
  revision : Nat := 1
  deriving DecidableEq

structure NodeAttempt where
  id : String
  nodeRunId : String
  attemptNumber : Nat
  agentInstanceId : Option String := none
  result : AttemptResult := .running
  resultPayload : Refs := []
  failureClass : Option String := none
  sideEffectState : AttemptSideEffectState := .none
  idempotencyKey : Option String := none
  deriving DecidableEq

/-- `require_idempotency_key_for_side_effect`. -/
def NodeAttempt.hasKeyForSideEffect (attempt : NodeAttempt) : Bool :=
  attempt.sideEffectState = .none || attempt.idempotencyKey.any (· ≠ "")

structure BoundaryResolution where
  waitToken : String
  accepted : Bool := true
  payload : Refs := []
  deriving DecidableEq

end Operant.Graph
