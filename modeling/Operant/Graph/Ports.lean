import Operant.Graph.Domain

/-! Port types, errors, and the check every input and output passes. -/
namespace Operant.Graph
open Operant.Python

/-- The types `_PORT_TYPE_ALIASES` maps to. -/
inductive PortType where
  | any
  | json
  | string
  | integer
  | number
  | boolean
  | object
  | array
  | null
  deriving DecidableEq

/-- `_PORT_TYPE_ALIASES`. -/
def portTypeAliases : List (String × PortType) :=
  [("any", .any), ("json", .json), ("string", .string), ("str", .string), ("integer", .integer),
    ("int", .integer), ("number", .number), ("float", .number), ("boolean", .boolean),
    ("bool", .boolean), ("object", .object), ("dict", .object), ("array", .array),
    ("list", .array), ("null", .null), ("none", .null)]

/-- `_PORT_TYPE_ALIASES.get(value_type.lower())`. -/
def portType? (valueType : String) : Option PortType :=
  portTypeAliases.lookup (String.ofList (valueType.toList.map Char.toLower))

/-! ### What can go wrong -/

inductive IssueCode where
  | reservedRuntimePolicy
  | duplicateNode
  | duplicateEdge
  | emptyGraph
  | nodeLimit
  | edgeLimit
  | pluginsOutOfScope
  | missingSource
  | missingTarget
  | missingSourcePort
  | missingTargetPort
  | portTypeMismatch
  | invalidLoopBack
  | invalidCondition
  | unsupportedPortType
  | missingRequiredInput
  | writerMarkedPure
  | unsafeRetry
  | missingTimeoutBranch
  | missingTimeoutTarget
  | missingTimeoutEdge
  | invalidLoopExit
  | missingLoopBranch
  | missingLoopBranchEdge
  | loopLimitEscalation
  | subworkflowPermissionEscalation
  | unlockedProviderVersion
  | mixedJoinMode
  | multipleWriters
  | illegalCycle
  | unreachableNode
  | invalidMergeSources
  | mergeSourceWriterMissing
  | mergeSourceWriterAmbiguous
  | writerNotConnectedToMerge
  | writerPolicyRequired
  | invalidWriterOwnershipPath
  | duplicateWriterKey
  | sharedWriterIsolation
  | writerOwnershipOverlap
  | explicitMergeRequired
  deriving DecidableEq

structure CompilationIssue where
  code : IssueCode
  nodeId : Option String := none
  edgeId : Option String := none
  deriving DecidableEq

inductive CompileError where
  /-- `GraphCompilationError`. -/
  | issues (issues : List CompilationIssue)
  /-- A malformed `required_capabilities`. -/
  | python (error : PyError)
  deriving DecidableEq

/-- The texts of `GraphStateError`, without the port checks'. -/
inductive StateReason where
  | cannotStartRun (status : GraphRunStatus)
  | cannotStartNode (status : NodeRunStatus)
  | parallelLimit
  | attemptTerminal
  | attemptNotActive
  | pureAttempt
  | runNotRunning (status : GraphRunStatus)
  | conditionNotReady
  | unknownOutputPort
  | nodeNotReady
  | wrongBoundary (expected : NodeKind)
  | nodeNotWaiting
  | terminalRun (status : GraphRunStatus)
  | cannotResolve (status : GraphRunStatus)
  | noTimeoutBranch
  | notALoop
  | loopNotActive
  | invalidUsage
  | cannotRecord (status : GraphRunStatus)
  | unpublished
  deriving DecidableEq

/-- What a graph operation raises. -/
inductive GraphError where
  /-- `GraphConflictError`: another writer was first, or a token is stale. -/
  | conflict
  /-- `KeyError`: no such row. -/
  | missingRow
  | state (reason : StateReason)
  /-- `GraphStateError`: port values are not finite JSON. -/
  | notJson
  /-- `GraphStateError`: required ports without a value. -/
  | missingPorts (names : List String)
  /-- `GraphStateError`: a port's value has another type. -/
  | portType (name : String)
  /-- `ValueError` on a measurement, or on an attempt without its key. -/
  | invalidValue
  | compilation (error : CompileError)
  /-- An exception of the language that nothing catches. -/
  | python (error : PyError)
  /-- Not the source's: the operation was cut off in a loop. -/
  | cutOff
  deriving DecidableEq

/-! ### Port values -/

/-- The branch of `_matches_port_type` for one type. -/
def matchesType (value : Value) : PortType → Except PyError Bool
  | .any | .json => .ok value.isJsonValue
  | .string => .ok (match value with
    | .str _ => true
    | _ => false)
  | .integer => .ok (match value with
    | .int _ => true
    | _ => false)
  | .number => match value with
    | .int n => (Value.int n).isFinite
    | .float x => (Value.float x).isFinite
    | _ => .ok false
  | .boolean => .ok (match value with
    | .bool _ => true
    | _ => false)
  | .object => .ok (match value with
    | .dict items => (Value.dict items).isJsonValue
    | _ => false)
  | .array => .ok (match value with
    | .list xs => (Value.list xs).isJsonValue
    | _ => false)
  | .null => .ok (match value with
    | .null => true
    | _ => false)

/-- `_matches_port_type`. -/
def matchesPortType (value : Value) (valueType : String) : Except PyError Bool :=
  match portType? valueType with
  | some t => matchesType value t
  | none => .ok false

/-- The last loop of `_validate_port_values`. -/
def checkPortTypes (values : Refs) : List PortSpec → Except GraphError Unit
  | [] => .ok ()
  | port :: rest => match values.lookup port.name with
    | none => checkPortTypes values rest
    | some v => match matchesPortType v port.valueType with
      | .ok true => checkPortTypes values rest
      | .ok false => .error (.portType port.name)
      | .error e => .error (.python e)

/-- The required ports `values` has nothing for. -/
def missingPorts (ports : List PortSpec) (values : Refs) : List String :=
  (ports.filter fun port => port.required && !values.has port.name).map PortSpec.name

/-- `_validate_port_values`. -/
def validatePortValues (ports : List PortSpec) (values : Refs) (requireRequired : Bool := true) :
    Except GraphError Unit :=
  if !values.isJson then .error .notJson
  else if requireRequired && !(missingPorts ports values).isEmpty then
    .error (.missingPorts (missingPorts ports values))
  else checkPortTypes values ports

end Operant.Graph
