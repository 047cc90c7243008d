import Operant.Graph.Condition
import Operant.Graph.Ports
import Operant.Search.Worklist
import Operant.Search.Topological
import Mathlib.Data.List.Sort

/-! `GraphCompiler.compile`: which definitions may run.

Every check of the source is here, in the order in which the source makes them; a
definition compiles when none of them finds an issue. Issues carry their code and the
node or edge they name. -/
namespace Operant.Graph
open Operant.Python Operant.Search

structure CompiledWorkflow where
  definition : WorkflowDefinition
  entryNodeIds : List String
  topologicalNodeIds : List String
  terminalNodeIds : List String
  incomingEdgeIds : Dict (List String)
  outgoingEdgeIds : Dict (List String)

/-- One issue if the check fails. -/
def issueIf (found : Bool) (issue : CompilationIssue) : List CompilationIssue :=
  if found then [issue] else []

/-- The ids that came up before, one for each time they come up again. -/
def repeated : List String → List String → List String
  | _, [] => []
  | seen, id :: rest => if id ∈ seen then id :: repeated seen rest else repeated (id :: seen) rest

/-! ### The graph the checks look at -/

/-- `nodes`, `edges`, `incoming` and `outgoing` of `compile`. -/
structure GraphIndex where
  nodes : Dict NodeSpec
  edges : List EdgeSpec
  kept : List EdgeSpec

def GraphIndex.incoming (index : GraphIndex) (nodeId : String) : List EdgeSpec :=
  index.kept.filter fun edge => edge.targetNode = nodeId

def GraphIndex.outgoing (index : GraphIndex) (nodeId : String) : List EdgeSpec :=
  index.kept.filter fun edge => edge.sourceNode = nodeId

/-- Targets of the edges out of a node that are no loop-back edges. -/
def GraphIndex.forward (index : GraphIndex) (nodeId : String) : List String :=
  ((index.outgoing nodeId).filter fun edge => !edge.loopBack).map EdgeSpec.targetNode

def indexGraph (definition : WorkflowDefinition) : GraphIndex :=
  let nodes : Dict NodeSpec := Dict.ofList (definition.nodes.map fun node => (node.nodeId, node))
  let edges := (Dict.ofList (definition.edges.map fun edge => (edge.edgeId, edge))).map Prod.snd
  { nodes := nodes
    edges := edges
    kept := edges.filter fun edge => nodes.has edge.sourceNode && nodes.has edge.targetNode }

/-! ### Writers and merges -/

/-- `_valid_ownership_path`. -/
def validOwnershipPath (path : String) : Bool :=
  let chars := path.toList
  !(chars = [] ∨ path = "." ∨ path = ".." ∨ '\\' ∈ chars ∨ chars.head? = some '/') &&
    (chars.splitOn '/').all fun part => !(part = [] ∨ part = ['.'] ∨ part = ['.', '.'])

/-- `_ownership_overlap` finds something. -/
def ownershipOverlap (left right : List String) : Bool :=
  left.any fun l => right.any fun r =>
    l = r || (r.toList ++ ['/']).isPrefixOf l.toList || (l.toList ++ ['/']).isPrefixOf r.toList

/-- `_node_reaches`: a path of edges that are no loop-back edges. -/
def nodeReaches (index : GraphIndex) (source target : String) : Bool :=
  target ∈ visit index.forward (1 + index.kept.length) [source] []

/-- `_validate_merge_sources`. -/
def validateMergeSources (writers : List NodeSpec) (index : GraphIndex) : List CompilationIssue :=
  let byKey (key : String) : List NodeSpec := writers.filter fun writer =>
    match writer.writerPolicy with
    | some policy => policy.writerKey = key
    | none => false
  (index.nodes.map Prod.snd).flatMap fun merge => match merge.nodeKind, merge.mergePolicy with
    | .merge, some policy =>
      let keys := policy.sourceWriterKeys
      issueIf (keys.length < 2 || !decide keys.Nodup)
        { code := .invalidMergeSources, nodeId := merge.nodeId } ++
      (keys.dedup.insertionSort (· ≤ ·)).flatMap fun key => match byKey key with
        | [] => [{ code := .mergeSourceWriterMissing, nodeId := merge.nodeId }]
        | [writer] => issueIf (!nodeReaches index writer.nodeId merge.nodeId)
            { code := .writerNotConnectedToMerge, nodeId := writer.nodeId }
        | _ :: _ :: _ => [{ code := .mergeSourceWriterAmbiguous, nodeId := merge.nodeId }]
    | _, _ => []

/-- Every two members of the list, in order. -/
def pairs {α : Type} : List α → List (α × α)
  | [] => []
  | a :: rest => rest.map (fun b => (a, b)) ++ pairs rest

/-- `_validate_multi_writer`. -/
def validateMultiWriter (writers : List NodeSpec) (index : GraphIndex) : List CompilationIssue :=
  let typed : List WriterNodePolicy := writers.filterMap NodeSpec.writerPolicy
  let keys := typed.map WriterNodePolicy.writerKey
  let isolation := typed.map WriterNodePolicy.isolationRef
  let candidates := (index.nodes.map Prod.snd).filter fun node =>
    node.nodeKind = .merge && match node.mergePolicy with
      | some policy => policy.sourceWriterKeys.all (· ∈ keys) && keys.all (· ∈ policy.sourceWriterKeys)
      | none => false
  (writers.flatMap fun node => match node.writerPolicy with
    | none => [{ code := .writerPolicyRequired, nodeId := node.nodeId }]
    | some policy => policy.ownershipPaths.flatMap fun path =>
        issueIf (!validOwnershipPath path)
          { code := .invalidWriterOwnershipPath, nodeId := node.nodeId }) ++
  issueIf (!decide keys.Nodup) { code := .duplicateWriterKey } ++
  issueIf (!decide isolation.Nodup) { code := .sharedWriterIsolation } ++
  ((pairs typed).flatMap fun pair =>
    issueIf (ownershipOverlap pair.1.ownershipPaths pair.2.ownershipPaths)
      { code := .writerOwnershipOverlap }) ++
  issueIf (candidates.length ≠ 1 || keys.dedup.length ≠ writers.length)
    { code := .explicitMergeRequired }

/-! ### Edges -/

/-- Which source port types a target port takes. -/
def compatiblePortTypes (source target : Option PortType) : Bool :=
  match source, target with
  | none, _ | _, none => true
  | some s, some t =>
    s = .any || t = .any || s = t || (s = .integer && (t = .number || t = .json)) || t = .json

def findPort (ports : List PortSpec) (name : String) : Option PortSpec :=
  ports.find? fun port => port.name = name

/-- The issues of one edge between existing nodes. -/
def portIssues (source target : NodeSpec) (edge : EdgeSpec) : List CompilationIssue :=
  let sourcePort := findPort source.outputPorts edge.sourcePort
  let targetPort := findPort target.inputPorts edge.targetPort
  issueIf sourcePort.isNone { code := .missingSourcePort, edgeId := edge.edgeId } ++
  issueIf targetPort.isNone { code := .missingTargetPort, edgeId := edge.edgeId } ++
  (match sourcePort, targetPort with
    | some s, some t =>
      issueIf (!compatiblePortTypes (portType? s.valueType) (portType? t.valueType))
        { code := .portTypeMismatch, edgeId := edge.edgeId }
    | _, _ => []) ++
  issueIf (edge.loopBack && source.nodeKind ≠ .loop)
    { code := .invalidLoopBack, edgeId := edge.edgeId } ++
  (match edge.condition with
    | some condition => issueIf (!isSafeExpression condition)
        { code := .invalidCondition, edgeId := edge.edgeId }
    | none => [])

def edgeIssues (index : GraphIndex) (edge : EdgeSpec) : List CompilationIssue :=
  match index.nodes.lookup edge.sourceNode, index.nodes.lookup edge.targetNode with
  | some source, some target => portIssues source target edge
  | source, target =>
    issueIf source.isNone { code := .missingSource, edgeId := edge.edgeId } ++
    issueIf target.isNone { code := .missingTarget, edgeId := edge.edgeId }

/-! ### Nodes -/

/-- Required inputs no edge delivers; loop-back edges do not count. -/
def unboundInputs (index : GraphIndex) (node : NodeSpec) : List String :=
  (node.inputPorts.filter fun port => port.required && !(index.incoming node.nodeId).any fun edge =>
    !edge.loopBack && edge.targetPort = port.name).map PortSpec.name

def timeoutIssues (index : GraphIndex) (node : NodeSpec) : List CompilationIssue :=
  if node.nodeKind = .approval || node.nodeKind = .humanInput then
    match node.timeoutPolicy.bind TimeoutPolicy.onTimeoutNodeId with
    | none => [{ code := .missingTimeoutBranch, nodeId := node.nodeId }]
    | some target =>
      if !index.nodes.has target then [{ code := .missingTimeoutTarget, nodeId := node.nodeId }]
      else issueIf (!(index.outgoing node.nodeId).any fun edge => edge.targetNode = target)
        { code := .missingTimeoutEdge, nodeId := node.nodeId }
  else []

/-- A branch target of a loop needs an edge that is no loop-back edge. -/
def loopBranchIssues (index : GraphIndex) (node : NodeSpec) (target : String) :
    List CompilationIssue :=
  if !index.nodes.has target then [{ code := .missingLoopBranch, nodeId := node.nodeId }]
  else issueIf
    (!(index.outgoing node.nodeId).any fun edge => edge.targetNode = target && !edge.loopBack)
    { code := .missingLoopBranchEdge, nodeId := node.nodeId }

def loopIssues (limits : GraphLimits) (index : GraphIndex) (node : NodeSpec) :
    List CompilationIssue :=
  match node.loopPolicy with
  | none => []
  | some policy =>
    issueIf (!isSafeExpression policy.exitExpression)
      { code := .invalidLoopExit, nodeId := node.nodeId } ++
    loopBranchIssues index node policy.onLimitNodeId ++
    (match policy.onManualReconcileNodeId with
      | some target => loopBranchIssues index node target
      | none => []) ++
    issueIf (limits.maxSubagents < policy.maxSubagents ||
        limits.maxRecursionDepth < policy.maxRecursionDepth)
      { code := .loopLimitEscalation, nodeId := node.nodeId }

/-- `set(node.metadata.get("required_capabilities", ()))`. -/
def requestedCapabilities (metadata : Refs) : Except PyError (List Value) :=
  match metadata.lookup "required_capabilities" with
  | none => .ok []
  | some (.list xs) => if xs.all Value.hashable then .ok xs else .error .typeError
  | some (.str s) => .ok (s.toList.map fun c => .str (String.singleton c))
  | some (.dict items) => .ok (items.map fun item => .str item.1)
  | some _ => .error .typeError

def capabilityIssues (node : NodeSpec) : Except PyError (List CompilationIssue) :=
  if node.nodeKind = .subworkflow then do
    let requested ← requestedCapabilities node.metadata
    return issueIf (!requested.all fun v => v ∈ node.capabilityRequirements.map Value.str)
      { code := .subworkflowPermissionEscalation, nodeId := node.nodeId }
  else .ok []

def nodeIssues (definition : WorkflowDefinition) (index : GraphIndex) (node : NodeSpec) :
    Except PyError (List CompilationIssue) := do
  let capability ← capabilityIssues node
  return ((node.inputPorts ++ node.outputPorts).flatMap fun port =>
      issueIf (portType? port.valueType).isNone
        { code := .unsupportedPortType, nodeId := node.nodeId }) ++
    issueIf (!(index.incoming node.nodeId).isEmpty && !(unboundInputs index node).isEmpty)
      { code := .missingRequiredInput, nodeId := node.nodeId } ++
    issueIf (node.writesWorkspace && node.idempotencyClass = .pure)
      { code := .writerMarkedPure, nodeId := node.nodeId } ++
    issueIf (1 < node.retryPolicy.maxAttempts && node.idempotencyClass = .nonIdempotent)
      { code := .unsafeRetry, nodeId := node.nodeId } ++
    timeoutIssues index node ++
    loopIssues definition.graphLimits index node ++
    capability ++
    (match node.modelOverride with
      | some model => issueIf (!Dict.has definition.lockedProviderVersions model)
          { code := .unlockedProviderVersion, nodeId := node.nodeId }
      | none => [])

/-- The edges into one node that are no loop-back edges agree on the join mode. -/
def joinModeIssues (index : GraphIndex) (nodeId : String) : List CompilationIssue :=
  let modes := ((index.incoming nodeId).filter fun edge => !edge.loopBack).map EdgeSpec.joinMode
  issueIf (decide (.all ∈ modes) && decide (.any ∈ modes)) { code := .mixedJoinMode, nodeId := nodeId }

def writerIssues (index : GraphIndex) : List CompilationIssue :=
  let writers := (index.nodes.map Prod.snd).filter fun node =>
    node.writesWorkspace && node.nodeKind ≠ .merge
  validateMergeSources writers index ++
  if 1 < writers.length then
    issueIf (writers.any fun node => node.writerPolicy.isNone) { code := .multipleWriters } ++
    validateMultiWriter writers index
  else []

/-! ### Order and reachability -/

/-- `indegree`. -/
def GraphIndex.indegree (index : GraphIndex) (nodeId : String) : Int :=
  (((index.incoming nodeId).filter fun edge => !edge.loopBack).length : Nat)

def GraphIndex.nodeIds (index : GraphIndex) : List String := index.nodes.map Prod.fst

def GraphIndex.entries (index : GraphIndex) : List String :=
  (index.nodeIds.filter fun id => index.indegree id = 0).insertionSort (· ≤ ·)

/-- `order`: each node leaves the queue once, so a round for each node is enough. -/
def GraphIndex.order (index : GraphIndex) : List String :=
  kahn index.forward index.nodeIds.length index.entries index.indegree

/-- `reachable`, over all edges. -/
def GraphIndex.reachable (index : GraphIndex) : List String :=
  visit (fun id => (index.outgoing id).map EdgeSpec.targetNode)
    (index.entries.length + index.kept.length) index.entries []

def orderIssues (index : GraphIndex) : List CompilationIssue :=
  issueIf (index.order.length ≠ index.nodeIds.length) { code := .illegalCycle } ++
  if index.entries = [] then []
  else ((index.nodeIds.filter fun id => id ∉ index.reachable).insertionSort (· ≤ ·)).map fun id =>
    { code := .unreachableNode, nodeId := some id }

/-! ### The compiler -/

/-- The checks on the definition as a whole that come first. -/
def definitionIssues (definition : WorkflowDefinition) (index : GraphIndex) :
    List CompilationIssue :=
  issueIf (definition.defaultPolicy.any fun item => "__operant_".toList.isPrefixOf item.1.toList)
    { code := .reservedRuntimePolicy } ++
  (repeated [] (definition.nodes.map NodeSpec.nodeId)).map (fun id =>
    { code := .duplicateNode, nodeId := some id }) ++
  (repeated [] (definition.edges.map EdgeSpec.edgeId)).map (fun id =>
    { code := .duplicateEdge, edgeId := some id }) ++
  issueIf index.nodes.isEmpty { code := .emptyGraph } ++
  issueIf (definition.graphLimits.maxNodes < index.nodes.length) { code := .nodeLimit } ++
  issueIf (definition.graphLimits.maxEdges < index.edges.length) { code := .edgeLimit } ++
  issueIf (!definition.requiredPlugins.isEmpty) { code := .pluginsOutOfScope }

/-- All issues, in the order in which the source finds them. -/
def compilationIssues (definition : WorkflowDefinition) (index : GraphIndex) :
    Except PyError (List CompilationIssue) := do
  let nodes ← (index.nodes.map Prod.snd).mapM (nodeIssues definition index)
  return definitionIssues definition index ++ index.edges.flatMap (edgeIssues index) ++
    nodes.flatten ++ index.nodeIds.flatMap (joinModeIssues index) ++ writerIssues index ++
    orderIssues index

/-- `GraphCompiler.compile`. -/
def compile (definition : WorkflowDefinition) : Except CompileError CompiledWorkflow :=
  let index := indexGraph definition
  match compilationIssues definition index with
  | .error e => .error (.python e)
  | .ok [] => .ok
      { definition := definition
        entryNodeIds := index.entries
        topologicalNodeIds := index.order
        terminalNodeIds := (index.nodeIds.filter fun id => (index.outgoing id).isEmpty).insertionSort (· ≤ ·)
        incomingEdgeIds := index.nodeIds.map fun id => (id, (index.incoming id).map EdgeSpec.edgeId)
        outgoingEdgeIds := index.nodeIds.map fun id => (id, (index.outgoing id).map EdgeSpec.edgeId) }
  | .ok (issue :: issues) => .error (.issues (issue :: issues))

end Operant.Graph
