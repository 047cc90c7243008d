import Operant.Graph.Condition
import Operant.Graph.Ports
import Operant.Search.Worklist

/-! How a run routes: which edges are active, what a join decides, what a node receives,
and which nodes a loop starts over.

These are the pure parts of `_propagate_dependencies` and `_unlock_loop_body`. They read
`by_spec`, the rows one pass has listed. -/
namespace Operant.Graph
open Operant.Python Operant.Search

/-- `by_spec[node_id]`. -/
def bySpec (rows : List NodeRun) (nodeId : String) : Option NodeRun :=
  rows.find? fun row => row.nodeId = nodeId

/-! ### Lists that grow in place

`_input_refs` appends to a list it was handed. Where that list is a source's own output,
the row the pass has listed grows with it, and so does every input that shares it. -/

/-- A port of a listed row, which is where a delivered list lives. -/
abbrev Cell := String × String

/-- Each append so far: the cell whose list has grown, and the cell it has grown by. -/
abbrev Appends := List (Cell × Cell)

/-- `by_spec[node].output_refs.get(port)`, as the pass has listed it. -/
def listedOutput (rows : List NodeRun) (cell : Cell) : Value :=
  match bySpec rows cell.1 with
  | some row => (row.outputRefs.lookup cell.2).getD .null
  | none => .null

/-- The value of a cell after the appends. A list that has come to contain itself cannot
be stored. -/
def grown (rows : List NodeRun) (appends : Appends) : Nat → Cell → Except PyError Value
  | 0, _ => .error .valueError
  | depth + 1, cell => match listedOutput rows cell with
    | .list xs => do
      let added ← (appends.filter fun append => append.1 = cell).mapM fun append =>
        grown rows appends depth append.2
      return .list (xs ++ added)
    | v => .ok v

def outputAfter (rows : List NodeRun) (appends : Appends) (cell : Cell) : Except PyError Value :=
  grown rows appends (appends.length + 1) cell

/-- `output_refs` of a listed row after the appends. -/
def outputsAfter (rows : List NodeRun) (appends : Appends) (source : NodeRun) :
    Except PyError Refs :=
  if appends.isEmpty then .ok source.outputRefs
  else source.outputRefs.mapM fun item => do
    let v ← outputAfter rows appends (source.nodeId, item.1)
    return (item.1, v)

/-- One value `_input_refs` collects: a source's output itself, or a list of its own. -/
inductive Slot where
  | output (cell : Cell)
  | collected (cells : List Cell)
  deriving DecidableEq

/-- `_input_refs`, up to reading the values. -/
def collectInputs (rows : List NodeRun) :
    List EdgeSpec → Dict Slot → Appends → Dict Slot × Appends
  | [], refs, appends => (refs, appends)
  | edge :: rest, refs, appends =>
    let value : Cell := (edge.sourceNode, edge.sourcePort)
    match refs.lookup edge.targetPort with
    | none => collectInputs rows rest (refs.set edge.targetPort (.output value)) appends
    | some (.collected cells) =>
      collectInputs rows rest (refs.set edge.targetPort (.collected (cells ++ [value]))) appends
    | some (.output existing) => match listedOutput rows existing with
      | .list _ => collectInputs rows rest refs (appends ++ [(existing, value)])
      | _ =>
        collectInputs rows rest (refs.set edge.targetPort (.collected [existing, value])) appends

def Slot.read (rows : List NodeRun) (appends : Appends) : Slot → Except PyError Value
  | .output cell => outputAfter rows appends cell
  | .collected cells => do
    let values ← cells.mapM (outputAfter rows appends)
    return .list values

/-- `_input_refs`, and the appends it leaves. -/
def inputRefs (rows : List NodeRun) (active : List EdgeSpec) (appends : Appends) :
    Except PyError (Refs × Appends) := do
  let collected := collectInputs rows active [] appends
  let refs ← collected.1.mapM fun slot => do
    let v ← slot.2.read rows collected.2
    return (slot.1, v)
  return (refs, collected.2)

/-! ### Edges -/

inductive EdgeState where
  | active
  | disabled
  | unresolved
  deriving DecidableEq

/-- The state of an edge that only its own condition still decides. -/
def EdgeSpec.taken (edge : EdgeSpec) (values : Refs) : Except PyError EdgeState :=
  match edge.condition with
  | none => .ok .active
  | some condition => (evaluateCondition condition values).map fun holds =>
      if holds then .active else .disabled

def NodeSpec.timeoutTarget (spec : NodeSpec) : Option String :=
  spec.timeoutPolicy.bind TimeoutPolicy.onTimeoutNodeId

def NodeSpec.limitTarget (spec : NodeSpec) : Option String :=
  spec.loopPolicy.map LoopPolicy.onLimitNodeId

/-- `output_refs.get("timeout") is True`. -/
def timedOut (outputs : Refs) : Bool := outputs.lookup "timeout" = some (.bool true)

/-- `_edge_state` for a source that succeeded with these outputs. -/
def succeededState (spec : NodeSpec) (outputs values : Refs) (edge : EdgeSpec) :
    Except PyError EdgeState :=
  let selected := (outputs.lookup "selected_port").getD .null
  if spec.nodeKind = .loop && spec.limitTarget = some edge.targetNode then .ok .disabled
  else if spec.nodeKind = .condition && selected ≠ .null && selected ≠ .str edge.sourcePort then
    .ok .disabled
  else if outputs.has edge.sourcePort then edge.taken values
  else .ok .disabled

/-- `_edge_state` for a source that was skipped with these outputs. -/
def skippedState (spec : NodeSpec) (outputs values : Refs) (edge : EdgeSpec) :
    Except PyError EdgeState :=
  if (timedOut outputs && spec.timeoutTarget = some edge.targetNode) ||
      (outputs.has "limit_reasons" && spec.limitTarget = some edge.targetNode) then
    edge.taken values
  else .ok .disabled

/-- `_edge_state`. -/
def edgeState (definition : WorkflowDefinition) (input : Refs) (rows : List NodeRun)
    (appends : Appends) (edge : EdgeSpec) : Except PyError EdgeState :=
  match bySpec rows edge.sourceNode with
  | none => .error .keyError
  | some source => do
    let outputs ← outputsAfter rows appends source
    match source.status with
    | .succeeded => match definition.node? edge.sourceNode with
      | none => .error .stopIteration
      | some spec => succeededState spec outputs (input.merge outputs) edge
    | .skipped => match definition.node? edge.sourceNode with
      | none => .error .stopIteration
      | some spec => skippedState spec outputs (input.merge outputs) edge
    | .failed | .cancelled | .manualReconcileRequired => .ok .disabled
    | .pending | .ready | .running | .waitingApproval | .waitingInput | .waiting | .retryWait =>
      .ok .unresolved

/-! ### Joins -/

inductive JoinDecision where
  | ready
  | skipped
  | undecided
  deriving DecidableEq

/-- The rule of `_propagate_dependencies` for a node whose edges are in these states. -/
def joinDecision (spec : NodeSpec) (mode : JoinMode) (states : List EdgeState) : JoinDecision :=
  match mode with
  | .any =>
    if .active ∈ states then .ready else if .unresolved ∈ states then .undecided else .skipped
  | .all =>
    if spec.nodeKind = .join then
      if .unresolved ∈ states then .undecided
      -- Without a required input a join may run though no branch did.
      else if .active ∈ states || spec.inputPorts.all (fun port => !port.required) then .ready
      else .skipped
    else if .disabled ∈ states then .skipped
    else if .unresolved ∈ states then .undecided
    else .ready

/-- `incoming[node_id]`, without loop-back edges. -/
def WorkflowDefinition.incoming (definition : WorkflowDefinition) (nodeId : String) :
    List EdgeSpec :=
  definition.edges.filter fun edge => !edge.loopBack && edge.targetNode = nodeId

/-! ### Loops -/

/-- The nodes a continuing loop makes ready, each once: the targets of its loop-back edges,
or of all its edges where it has none of these. The source keeps them in a set. -/
def WorkflowDefinition.loopTargets (definition : WorkflowDefinition) (loopId : String) :
    List String :=
  let back := definition.edges.filter fun edge => edge.sourceNode = loopId && edge.loopBack
  if back.isEmpty then
    ((definition.edges.filter fun edge => edge.sourceNode = loopId).map EdgeSpec.targetNode).dedup
  else (back.map EdgeSpec.targetNode).dedup

def WorkflowDefinition.hasBackEdge (definition : WorkflowDefinition) (loopId : String) : Bool :=
  definition.edges.any fun edge => edge.sourceNode = loopId && edge.loopBack

/-- `outgoing`, over all edges. -/
def WorkflowDefinition.successors (definition : WorkflowDefinition) (nodeId : String) :
    List String :=
  (definition.edges.filter fun edge => edge.sourceNode = nodeId).map EdgeSpec.targetNode

/-- `incoming`, over all edges. -/
def WorkflowDefinition.predecessors (definition : WorkflowDefinition) (nodeId : String) :
    List String :=
  (definition.edges.filter fun edge => edge.targetNode = nodeId).map EdgeSpec.sourceNode

/-- `_loop_cycle_nodes`: what the targets reach and the loop is reached from, other loops'
loop-back edges included. An edge puts at most one node on the list. -/
def WorkflowDefinition.loopCycleNodes (definition : WorkflowDefinition) (loopId : String)
    (targets : List String) : List String :=
  let reachable := spread definition.successors
    (targets.length + definition.edges.length) targets targets
  let reachesLoop := spread definition.predecessors (1 + definition.edges.length) [loopId] [loopId]
  reachable.filter (· ∈ reachesLoop)

/-- `branch_targets`: one edge away from the cycle. -/
def WorkflowDefinition.branchTargets (definition : WorkflowDefinition) (cycle : List String) :
    List String :=
  ((definition.edges.filter fun edge => edge.sourceNode ∈ cycle && edge.targetNode ∉ cycle).map
    EdgeSpec.targetNode).dedup

/-- `sorted((cycle_nodes - targets).union(branch_targets))`. -/
def WorkflowDefinition.resetNodes (definition : WorkflowDefinition) (loopId : String) :
    List String :=
  let targets := definition.loopTargets loopId
  let cycle := definition.loopCycleNodes loopId targets
  ((cycle.filter (· ∉ targets)) ++ definition.branchTargets cycle).dedup.insertionSort (· ≤ ·)

/-- `_loop_body_settled`: the executor's rule for advancing a loop. -/
def loopBodySettled (definition : WorkflowDefinition) (rows : List NodeRun) (loopId : String) :
    Bool :=
  if !definition.hasBackEdge loopId then true
  else (definition.loopCycleNodes loopId (definition.loopTargets loopId)).all fun nodeId =>
    nodeId = loopId || match bySpec rows nodeId with
      | some row => row.status.isDone
      | none => false

end Operant.Graph
