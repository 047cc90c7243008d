import Operant.Graph.Compiler
import Operant.Calls.Program

/-! The repository: the rows of one run, and the calls that read and write them.

Every call is one transaction: it replies and commits, or it fails and leaves
everything as it was. A write of the run or of a node names the revision it was
computed from and fails if the stored row has another one; a write of an attempt only
asks that the stored attempt is still running.

A call also says which method of the runtime makes it (`Site`), and a write says what it
was computed from (`scan`, `via`, `requested`, `seen`). The repository ignores both: they are there
to speak about runs. -/
namespace Operant.Graph
open Operant.Python

/-- The method a call is made from. `saveRun` is the `get_run` whose row `_save_run` is
given without another look at its status; `accounted` is `record_budget`'s save, with the
consumption it has added to. -/
inductive Site where
  | startRun
  | startAttempt
  | completeAttempt
  | markSideEffectStarted
  | selectCondition
  | enterBoundary
  | resolveBoundary
  | timeoutBoundary
  | advanceLoop
  | recordBudget
  | accounted (seen : Consumption)
  | cancelRun
  | interruptRun
  | failRun
  | recover
  | resetInterruptedNodes
  | definitionAndNode
  | requireRunningRun
  | refreshRunActivityStatus
  | terminalizeActiveNodes
  | saveRun
  | markRunManualReconcile
  | resetDerivedDependencyStates
  | propagateDependencies
  | unlockLoopBody
  | readyNodeBySpecId
  | finishIfTerminal
  deriving DecidableEq

/-- `GraphRepository`, the methods an operation on an existing run calls. -/
inductive RepoCall where
  | getDefinition (workflowId : String) (version : Nat)
  | getRun (site : Site)
  | updateRun (site : Site) (scan : List NodeRun) (run : GraphWorkflowRun) (expectedRevision : Nat)
  | listNodeRuns (site : Site)
  | getNodeRun (nodeRunId : String)
  | updateNodeRun (site : Site) (via : List (EdgeSpec × NodeRun)) (nodeRun : NodeRun)
      (expectedRevision : Nat)
  | startNodeAttempt (requested : Option String) (nodeRun : NodeRun) (attempt : NodeAttempt)
      (expectedNodeRevision : Nat)
  | getAttempt (site : Site) (attemptId : String)
  | finishNodeAttempt (nodeRun : NodeRun) (attempt : NodeAttempt) (expectedNodeRevision : Nat)
  | updateAttempt (site : Site) (seen attempt : NodeAttempt)
  | listAttempts (nodeRunId : String)

def RepoCall.Reply : RepoCall → Type
  | .getDefinition .. => WorkflowDefinition
  | .getRun .. => GraphWorkflowRun
  | .listNodeRuns .. => List NodeRun
  | .getNodeRun .. => NodeRun
  | .getAttempt .. => NodeAttempt
  | .listAttempts .. => List NodeAttempt
  | .updateRun .. | .updateNodeRun .. | .startNodeAttempt .. | .finishNodeAttempt ..
  | .updateAttempt .. => Unit

/-- The calls that only read. -/
def RepoCall.isRead : RepoCall → Bool
  | .getDefinition .. | .getRun .. | .listNodeRuns .. | .getNodeRun .. | .getAttempt ..
  | .listAttempts .. => true
  | .updateRun .. | .updateNodeRun .. | .startNodeAttempt .. | .finishNodeAttempt ..
  | .updateAttempt .. => false

/-- The node row a call writes. -/
def RepoCall.node? : RepoCall → Option NodeRun
  | .updateNodeRun _ _ node _ | .startNodeAttempt _ node _ _ | .finishNodeAttempt node _ _ => some node
  | .getDefinition .. | .getRun .. | .listNodeRuns .. | .getNodeRun .. | .getAttempt ..
  | .listAttempts .. | .updateRun .. | .updateAttempt .. => none

/-- The attempt row a call writes. -/
def RepoCall.attempt? : RepoCall → Option NodeAttempt
  | .startNodeAttempt _ _ attempt _ | .finishNodeAttempt _ attempt _ | .updateAttempt _ _ attempt =>
    some attempt
  | .getDefinition .. | .getRun .. | .listNodeRuns .. | .getNodeRun .. | .getAttempt ..
  | .listAttempts .. | .updateRun .. | .updateNodeRun .. => none

theorem RepoCall.node?_of_isRead {c : RepoCall} (h : c.isRead = true) : c.node? = none := by
  cases c <;> first | rfl | cases h

theorem RepoCall.attempt?_of_isRead {c : RepoCall} (h : c.isRead = true) : c.attempt? = none := by
  cases c <;> first | rfl | cases h

/-- The rows of one run, and the definition it pins. -/
structure GraphStore where
  definition : WorkflowDefinition
  run : GraphWorkflowRun
  nodeRuns : List NodeRun
  attempts : List NodeAttempt := []

namespace GraphStore

def nodeRun? (s : GraphStore) (id : String) : Option NodeRun := s.nodeRuns.find? fun row => row.id = id

def attempt? (s : GraphStore) (id : String) : Option NodeAttempt :=
  s.attempts.find? fun row => row.id = id

def putNode (s : GraphStore) (node : NodeRun) : GraphStore :=
  { s with nodeRuns := s.nodeRuns.map fun row => if row.id = node.id then node else row }

def putAttempt (s : GraphStore) (attempt : NodeAttempt) : GraphStore :=
  { s with attempts := s.attempts.map fun row => if row.id = attempt.id then attempt else row }

/-- `list_attempts`: by attempt number. -/
def attemptsOf (s : GraphStore) (nodeRunId : String) : List NodeAttempt :=
  (s.attempts.filter fun row => row.nodeRunId = nodeRunId).insertionSort
    fun a b => a.attemptNumber ≤ b.attemptNumber

/-- `_update_node`. -/
def updateNode (s : GraphStore) (node : NodeRun) (expectedRevision : Nat) :
    Except GraphError GraphStore :=
  match s.nodeRun? node.id with
  | none => .error .missingRow
  | some stored =>
    if stored.revision ≠ expectedRevision ∨ node.revision ≠ expectedRevision + 1 then .error .conflict
    else .ok (s.putNode node)

end GraphStore

/-! ### The two repositories -/

/-- What the `idempotency_key` column of `node_attempts` holds. -/
def NodeAttempt.keyColumn (attempt : NodeAttempt) : String :=
  match attempt.idempotencyKey with
  | some key => if key = "" then attempt.id else key
  | none => attempt.id

/-- `CHECK (length(idempotency_key) BETWEEN 1 AND 300)`; SQL counts up to the first NUL. -/
def keyLengthOk (key : String) : Bool :=
  let length := (key.toList.takeWhile (· ≠ '\x00')).length
  1 ≤ length && length ≤ 300

/-- The constraints of the v9 `node_attempts` table on a new row. -/
def insertable (s : GraphStore) (attempt : NodeAttempt) : Bool :=
  keyLengthOk attempt.keyColumn && 1 ≤ attempt.attemptNumber &&
    s.attempts.all fun row => row.id ≠ attempt.id &&
      !(row.nodeRunId = attempt.nodeRunId && row.attemptNumber = attempt.attemptNumber) &&
      !(row.nodeRunId = attempt.nodeRunId && row.keyColumn = attempt.keyColumn)

/-- `SQLiteGraphRepository.start_node_attempt`. -/
def startInSQLite (s : GraphStore) (node : NodeRun) (attempt : NodeAttempt) (expected : Nat) :
    Except GraphError GraphStore :=
  if !insertable s attempt then .error .conflict
  else { s with attempts := s.attempts ++ [attempt] }.updateNode node expected

/-- `InMemoryGraphRepository.start_node_attempt`. -/
def startInMemory (s : GraphStore) (node : NodeRun) (attempt : NodeAttempt) (expected : Nat) :
    Except GraphError GraphStore :=
  if s.attempts.any fun row => row.id = attempt.id then
    if (s.nodeRun? node.id).isNone then .error .missingRow else .error .conflict
  else { s with attempts := s.attempts ++ [attempt] }.updateNode node expected

/-- A repository, given its `start_node_attempt`; the other methods agree. -/
def execWith (start : GraphStore → NodeRun → NodeAttempt → Nat → Except GraphError GraphStore) :
    (c : RepoCall) → GraphStore → Except GraphError (c.Reply × GraphStore)
  | .getDefinition workflowId version, s =>
    if s.definition.workflowId = workflowId ∧ s.definition.version = version then .ok (s.definition, s)
    else .error .missingRow
  | .getRun _, s => .ok (s.run, s)
  | .updateRun _ _ run expected, s =>
    if s.run.revision ≠ expected ∨ run.revision ≠ expected + 1 then .error .conflict
    else .ok ((), { s with run := run })
  | .listNodeRuns _, s => .ok (s.nodeRuns, s)
  | .getNodeRun id, s => match s.nodeRun? id with
    | some row => .ok (row, s)
    | none => .error .missingRow
  | .updateNodeRun _ _ node expected, s => (s.updateNode node expected).map fun s' => ((), s')
  | .startNodeAttempt _ node attempt expected, s =>
    (start s node attempt expected).map fun s' => ((), s')
  | .getAttempt _ id, s => match s.attempt? id with
    | some row => .ok (row, s)
    | none => .error .missingRow
  | .finishNodeAttempt node attempt expected, s => match s.attempt? attempt.id with
    | none => .error .missingRow
    | some stored =>
      if stored.result ≠ .running then .error .conflict
      else ((s.putAttempt attempt).updateNode node expected).map fun s' => ((), s')
  | .updateAttempt _ _ attempt, s => match s.attempt? attempt.id with
    | none => .error .missingRow
    | some stored =>
      if stored.result ≠ .running then .error .conflict else .ok ((), s.putAttempt attempt)
  | .listAttempts nodeRunId, s => .ok (s.attemptsOf nodeRunId, s)

inductive Backend where
  | sqlite
  | memory
  deriving DecidableEq

def Backend.startNodeAttempt : Backend → GraphStore → NodeRun → NodeAttempt → Nat →
    Except GraphError GraphStore
  | .sqlite => startInSQLite
  | .memory => startInMemory

def Backend.exec (backend : Backend) :
    (c : RepoCall) → GraphStore → Except GraphError (c.Reply × GraphStore) :=
  execWith backend.startNodeAttempt

end Operant.Graph
