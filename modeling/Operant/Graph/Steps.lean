import Operant.Graph.Runtime

/-! What each method makes of a node's row.

`start_node_attempt` and `finish_node_attempt` aside, a node's row is saved by the
methods below, each of which makes one kind of row out of the one it has read. -/
namespace Operant.Graph
open Operant.Python

/-- The row `updates` that a method saves over `x`, up to its revision. -/
inductive NodeStep (definition : WorkflowDefinition) (x : NodeRun) : Site → NodeRun → Prop where
  | stopped {status : NodeRunStatus} {outputs : Refs} (was : x.status.isNonterminal = true)
    (kept : status = .succeeded ∨ outputs = x.outputRefs) :
    NodeStep definition x .terminalizeActiveNodes { x.released status with outputRefs := outputs }
  | interrupted {status : NodeRunStatus} {outputs : Refs} (was : x.status = .running)
    (kept : status = .succeeded ∨ outputs = x.outputRefs) :
    NodeStep definition x .resetInterruptedNodes { x.released status with outputRefs := outputs }
  /-- A loop leaves through its limit or its exit. -/
  | exited {step : LoopStep} {repeats : Nat} {status : NodeRunStatus} {outputs : Refs}
    (was : x.status = .ready ∨ x.status = .running)
    (left : status = .succeeded ∨ status = .skipped ∧ outputs.has "limit_reasons" = true) :
    NodeStep definition x .advanceLoop (x.advanced step repeats status outputs)
  /-- A loop goes on, within its bound. -/
  | continued {step : LoopStep} {repeats : Nat} {status : NodeRunStatus} {spec : NodeSpec}
    {policy : LoopPolicy} (was : x.status = .ready ∨ x.status = .running)
    (next : status = .pending ∨ status = .ready) (isSpec : definition.node? x.nodeId = some spec)
    (hasPolicy : spec.loopPolicy = some policy)
    (bound : x.iteration + 1 < policy.maxIterations) :
    NodeStep definition x .advanceLoop (x.advanced step repeats status step.outputRefs)
  | skipped (was : x.status = .pending) :
    NodeStep definition x .propagateDependencies { x with status := .skipped, inputRefs := [] }
  | readied {refs : Refs} (was : x.status = .pending) :
    NodeStep definition x .propagateDependencies { x with status := .ready, inputRefs := refs }
  /-- Recovery takes back what propagation can derive again. -/
  | rewound (was : x.status = .ready ∨ x.status = .skipped ∧ timedOut x.outputRefs = false ∧
      x.outputRefs.has "limit_reasons" = false) :
    NodeStep definition x .resetDerivedDependencyStates { x with status := .pending, inputRefs := [] }
  | unlocked (was : x.status = .pending) :
    NodeStep definition x .readyNodeBySpecId { x with status := .ready, activeAttemptId := none }
  /-- A loop starts a finished node over. -/
  | again {site : Site} {status : NodeRunStatus} (was : x.status.isFinished = true)
    (next : site = .readyNodeBySpecId ∧ status = .ready ∨
      site = .unlockLoopBody ∧ status = .pending) :
    NodeStep definition x site (x.nextOccurrence status)
  /-- A target of a loop receives what the loop hands back. -/
  | delivered {refs : Refs} : NodeStep definition x .unlockLoopBody { x with inputRefs := refs }
  | selected {outputs : Refs} (was : x.status = .ready) :
    NodeStep definition x .selectCondition { x with status := .succeeded, outputRefs := outputs }
  | entered {boundary : BoundaryKind} {token : String} (was : x.status = .ready) :
    NodeStep definition x .enterBoundary { x with status := boundary.status, waitToken := token }
  | resolved {accepted : Bool} {payload : Refs} (was : x.status.isWaiting = true) :
    NodeStep definition x .resolveBoundary
      { x with status := if accepted then .succeeded else .failed, outputRefs := payload }
  | timedOut (was : x.status.isWaiting = true) :
    NodeStep definition x .timeoutBoundary
      { x with status := .skipped, outputRefs := [("timeout", .bool true)] }

/-- The calls by which a continuing loop unlocks its body. -/
def RepoCall.isUnlock : RepoCall → Bool
  | .updateNodeRun .readyNodeBySpecId _ _ _ | .updateNodeRun .unlockLoopBody _ _ _ => true
  | _ => false

/-- The call by which a loop takes its "continue" outcome. -/
def RepoCall.isContinue : RepoCall → Bool
  | .updateNodeRun .advanceLoop _ node _ => node.status = .pending || node.status = .ready
  | _ => false

theorem RepoCall.isContinue_inv {c : RepoCall} (h : c.isContinue = true) :
    ∃ via node revision, c = .updateNodeRun .advanceLoop via node revision ∧
      (node.status = .pending ∨ node.status = .ready) := by
  unfold isContinue at h
  split at h
  · exact ⟨_, _, _, rfl, by simpa using h⟩
  · cases h

/-- Nothing but the next occurrence makes a row of this kind anything else. -/
def NodeRun.rests (node : NodeRun) : Bool :=
  node.status = .succeeded || node.status = .skipped && node.outputRefs.has "limit_reasons"

namespace NodeStep
variable {definition : WorkflowDefinition} {x updates : NodeRun} {site : Site}

theorem id (h : NodeStep definition x site updates) : updates.id = x.id := by cases h <;> rfl

theorem nodeId (h : NodeStep definition x site updates) : updates.nodeId = x.nodeId := by
  cases h <;> rfl

/-- Iterations never go down. -/
theorem iteration (h : NodeStep definition x site updates) :
    updates.iteration = x.iteration ∨ updates.iteration = x.iteration + 1 := by
  cases h with
  | exited | continued | again => exact .inr rfl
  | stopped | interrupted | skipped | readied | rewound | unlocked | delivered | selected | entered
  | resolved | timedOut => exact .inl rfl

/-- Only a failed attempt counts a retry. -/
theorem retryCount (h : NodeStep definition x site updates) :
    updates.retryCount = x.retryCount ∨ updates.retryCount = 0 := by
  cases h with
  | again => exact .inr rfl
  | exited | continued | stopped | interrupted | skipped | readied | rewound | unlocked | delivered
  | selected | entered | resolved | timedOut => exact .inl rfl

end NodeStep
end Operant.Graph
