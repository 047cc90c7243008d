import Operant.Graph.Runtime
import Operant.Calls.Phases

/-! Which methods save a node's row or the accounts of the run, operation by operation. -/
namespace Operant.Graph
open Operant.Python Operant.Calls

/-- The method a node's row is saved from, or the accounts of the run. -/
def RepoCall.savedFrom? : RepoCall → Option Site
  | .updateNodeRun site _ _ _ => some site
  | .startNodeAttempt .. => some .startAttempt
  | .finishNodeAttempt .. => some .completeAttempt
  | .updateRun (.accounted _) .. => some .recordBudget
  | .getDefinition .. | .getRun .. | .updateRun .. | .listNodeRuns .. | .getNodeRun ..
  | .getAttempt .. | .updateAttempt .. | .listAttempts .. => none

/-- The program saves node rows and accounts from these methods only. -/
def SavesFrom {α : Type} (sites : List Site) (p : GraphProg α) : Prop :=
  p.All fun c => ∀ site, c.savedFrom? = some site → site ∈ sites

namespace SavesFrom
variable {α β : Type} {sites more : List Site}

theorem mono (h : sites ⊆ more) {p : GraphProg α} (hp : SavesFrom sites p) : SavesFrom more p :=
  Prog.All.mono (fun _ hc site hs => h (hc site hs)) hp

theorem ret {a : α} : SavesFrom sites (.ret a : GraphProg α) := trivial

theorem fail {e : GraphError} : SavesFrom sites (.fail e : GraphProg α) := trivial

theorem seq {p : GraphProg α} {f : α → GraphProg β} (hp : SavesFrom sites p)
    (hf : ∀ a, SavesFrom sites (f a)) : SavesFrom sites (p >>= f) :=
  Prog.All.bind hp hf

theorem ite {c : Prop} [Decidable c] {p q : GraphProg α} (hp : SavesFrom sites p)
    (hq : SavesFrom sites q) : SavesFrom sites (if c then p else q) :=
  Prog.All.ite hp hq

theorem lift {x : Except GraphError β} {f : β → GraphProg α} (h : ∀ a, SavesFrom sites (f a)) :
    SavesFrom sites (Prog.lift x >>= f) :=
  Prog.All.lift h

/-- A call that saves neither. -/
theorem request {c : RepoCall} (hc : c.savedFrom? = none) :
    SavesFrom sites (Prog.request c : GraphProg c.Reply) := by
  refine ⟨fun _ h => ?_, fun _ => trivial⟩
  rw [hc] at h
  cases h

theorem save {site : Site} {x updates : NodeRun} {via : List (EdgeSpec × NodeRun)}
    (h : site ∈ sites) : SavesFrom sites (saveNode site x updates via) :=
  ⟨fun _ hs => Option.some.inj hs ▸ h, fun _ => trivial⟩

theorem saveRun {site : Site} {scan : List NodeRun} {run updates : GraphWorkflowRun}
    (h : ∀ seen, site = .accounted seen → .recordBudget ∈ sites) :
    SavesFrom sites (saveRun site scan run updates) := by
  refine ⟨fun s hs => ?_, fun _ => trivial⟩
  cases site with
  | accounted seen =>
    cases hs
    exact h seen rfl
  | _ => cases hs

end SavesFrom

variable {sites : List Site}

theorem definitionAndNode_saves (node : NodeRun) : SavesFrom sites (definitionAndNode node) := by
  refine .seq (.request rfl) fun _ => .seq (.request rfl) fun definition => ?_
  split
  · exact .ret
  · exact .fail

theorem requireRunningRun_saves : SavesFrom sites requireRunningRun :=
  .seq (.request rfl) fun _ => .ite .fail .ret

theorem terminalizeNode_saves (safeStatus : NodeRunStatus) (node : NodeRun) :
    SavesFrom [.terminalizeActiveNodes] (terminalizeNode safeStatus node) := by
  have stop (unknownWrite : Bool) :
      SavesFrom [.terminalizeActiveNodes] (stopNode safeStatus node unknownWrite) :=
    .seq (.save (List.mem_singleton_self _)) fun _ => .ret
  unfold terminalizeNode
  refine .ite .ret ?_
  split
  · refine .seq (.request rfl) fun attempt => ?_
    split
    · exact .seq (definitionAndNode_saves node) fun _ => .seq (.request rfl) fun _ => stop _
    · exact .seq (.save (List.mem_singleton_self _)) fun _ => .ret
    · exact stop false
    · exact stop false
    · exact stop false
  · exact .ite (.seq (definitionAndNode_saves node) fun _ => stop _) (stop false)

theorem terminalizeNodes_saves (safeStatus : NodeRunStatus) (rows : List NodeRun) :
    SavesFrom [.terminalizeActiveNodes] (terminalizeNodes safeStatus rows) := by
  induction rows with
  | nil => exact .ret
  | cons node rest ih =>
    exact .seq (terminalizeNode_saves safeStatus node) fun _ => .seq ih fun _ => .ret

theorem stopRun_saves (hstop : .terminalizeActiveNodes ∈ sites) {site : Site}
    (h : ∀ seen, site = .accounted seen → .recordBudget ∈ sites) (status : GraphRunStatus)
    (usage : GraphWorkflowRun → GraphWorkflowRun) :
    SavesFrom sites (stopRun site status usage) := by
  refine .seq (.seq (.request rfl) fun rows => ?_) fun _ => ?_
  · exact (terminalizeNodes_saves _ rows).mono (by simpa using hstop)
  · exact .seq (.request rfl) fun _ => .saveRun h

theorem resetInterruptedNode_saves (node : NodeRun) :
    SavesFrom [.resetInterruptedNodes] (resetInterruptedNode node) := by
  have save {updates : NodeRun} {b : Bool} : SavesFrom [.resetInterruptedNodes] (do
      let _ ← saveNode .resetInterruptedNodes node updates
      return b) :=
    .seq (.save (List.mem_singleton_self _)) fun _ => .ret
  unfold resetInterruptedNode
  split
  · exact .ret
  · refine .seq (definitionAndNode_saves node) fun _ => .seq (.request rfl) fun attempts => ?_
    dsimp only
    split
    · split
      · exact save
      · exact .seq (.request rfl) fun _ => save
      · exact save
      · exact save
      · exact save
    · exact save
  all_goals exact .ret

theorem resetInterruptedNodes_saves : SavesFrom [.resetInterruptedNodes] resetInterruptedNodes := by
  refine .seq (.request rfl) fun rows => ?_
  show SavesFrom _ (resetInterruptedRows rows)
  induction (show List NodeRun from rows) with
  | nil => exact .ret
  | cons node rest ih =>
    exact .seq (resetInterruptedNode_saves node) fun _ => .seq ih fun _ => .ret

theorem refreshRunActivityStatus_saves : SavesFrom sites refreshRunActivityStatus := by
  refine .seq (.request rfl) fun _ => .ite .ret (.ite (.ite .ret (.seq (.request rfl) fun _ => .ret)) ?_)
  exact .seq (.request rfl) fun _ => .ite .ret (.seq (.request rfl) fun _ => .ret)

theorem finishIfTerminal_saves : SavesFrom sites finishIfTerminal :=
  .seq (.request rfl) fun _ => .seq (.request rfl) fun _ => .ite (.seq (.request rfl) fun _ => .ret) .ret

theorem propagateNode_saves (definition : WorkflowDefinition) (input : Refs) (rows : List NodeRun)
    (appends : Appends) (node : NodeRun) :
    SavesFrom [.propagateDependencies] (propagateNode definition input rows appends node) := by
  unfold propagateNode
  split
  · refine .lift fun _ => ?_
    dsimp only
    split
    · exact .fail
    · split
      · exact .ret
      · exact .seq (.save (List.mem_singleton_self _)) fun _ => .ret
      · exact .lift fun _ => .seq (.save (List.mem_singleton_self _)) fun _ => .ret
  · exact .ret

theorem propagatePass_saves (definition : WorkflowDefinition) (input : Refs)
    (rows todo : List NodeRun) (appends : Appends) :
    SavesFrom [.propagateDependencies] (propagatePass definition input rows todo appends) := by
  induction todo generalizing appends with
  | nil => exact .ret
  | cons node rest ih =>
    exact .seq (propagateNode_saves definition input rows appends node)
      fun _ => .seq (ih _) fun _ => .ret

theorem propagateDependencies_saves (rounds : Nat) :
    SavesFrom [.propagateDependencies] (propagateDependencies rounds) := by
  refine .seq (.request rfl) fun run => .seq (.request rfl) fun definition => ?_
  show SavesFrom _ (propagatePasses definition run.input rounds)
  induction rounds with
  | zero => exact .fail
  | succ rounds ih =>
    refine .seq (.request rfl) fun rows => .seq (propagatePass_saves definition _ rows rows []) fun _ => ?_
    exact .ite ih .ret

theorem settle_saves (rounds : Nat) : SavesFrom [.propagateDependencies] (settle rounds) :=
  .seq (propagateDependencies_saves rounds) fun _ => .seq finishIfTerminal_saves fun _ =>
    .seq refreshRunActivityStatus_saves fun _ => .ret

theorem resetDerivedDependencyStates_saves :
    SavesFrom [.resetDerivedDependencyStates] resetDerivedDependencyStates := by
  refine .seq (.request rfl) fun _ => .seq (.request rfl) fun definition => .seq (.request rfl) fun rows => ?_
  show SavesFrom _ (resetDerivedNodes definition rows)
  induction (show List NodeRun from rows) with
  | nil => exact .ret
  | cons node rest ih =>
    refine .seq ?_ fun _ => ih
    refine .ite .ret (.lift fun _ => .ite .ret (.seq (.request rfl) fun _ => .ite ?_ .ret))
    exact .seq (.save (List.mem_singleton_self _)) fun _ => .ret

theorem readyNodeBySpecId_saves (nodeId : String) :
    SavesFrom [.readyNodeBySpecId] (readyNodeBySpecId nodeId) := by
  refine .seq (.request rfl) fun rows => ?_
  split
  · exact .fail
  · exact .ite (.seq (.save (List.mem_singleton_self _)) fun _ => .ret)
      (.ite (.seq (.save (List.mem_singleton_self _)) fun _ => .ret) .ret)

theorem resetLoopNodes_saves (rows : List NodeRun) (ids : List String) :
    SavesFrom [.unlockLoopBody] (resetLoopNodes rows ids) := by
  induction ids with
  | nil => exact .ret
  | cons id rest ih =>
    unfold resetLoopNodes
    split
    · exact .ite (.seq (.save (List.mem_singleton_self _)) fun _ => ih) ih
    · exact ih

theorem unlockTargets_saves (definition : WorkflowDefinition) (loop : NodeRun)
    (targets : List String) :
    SavesFrom [.readyNodeBySpecId, .unlockLoopBody] (unlockTargets definition loop targets) := by
  induction targets with
  | nil => exact .ret
  | cons target rest ih =>
    refine .seq ((readyNodeBySpecId_saves target).mono (by simp)) fun _ => .seq (.request rfl) fun rows => ?_
    dsimp only
    split
    · exact .fail
    · exact .ite (.seq (.save (by simp)) fun _ => ih) ih

theorem unlockLoopBody_saves (loopId : String) :
    SavesFrom [.readyNodeBySpecId, .unlockLoopBody] (unlockLoopBody loopId) := by
  refine .seq (.request rfl) fun _ => .seq (.request rfl) fun definition => .seq (.request rfl) fun rows => ?_
  refine .seq ((resetLoopNodes_saves rows _).mono (by simp)) fun _ => ?_
  split
  · exact .fail
  · exact unlockTargets_saves _ _ _

/-! ### Operations -/

/-- The methods an operation saves node rows from. -/
def Op.nodeSites : Op → List Site
  | .startRun _ | .markSideEffectStarted _ => []
  | .startAttempt _ => [.startAttempt]
  | .completeAttempt _ => [.completeAttempt, .propagateDependencies, .terminalizeActiveNodes]
  | .selectCondition .. => [.selectCondition, .propagateDependencies]
  | .enterBoundary .. => [.enterBoundary]
  | .resolveBoundary .. => [.resolveBoundary, .propagateDependencies, .terminalizeActiveNodes]
  | .timeoutBoundary .. => [.timeoutBoundary, .propagateDependencies]
  | .advanceLoop _ => [.advanceLoop, .propagateDependencies, .readyNodeBySpecId, .unlockLoopBody]
  | .recordBudget .. => [.terminalizeActiveNodes, .recordBudget]
  | .cancelRun | .failRun => [.terminalizeActiveNodes]
  | .interruptRun => [.resetInterruptedNodes]
  | .recover => [.resetInterruptedNodes, .resetDerivedDependencyStates, .propagateDependencies]

theorem finishNodeAttempt_saves (h : .completeAttempt ∈ sites) (node updates : NodeRun)
    (attempt : NodeAttempt) : SavesFrom sites (finishNodeAttempt node updates attempt) :=
  ⟨fun _ hs => Option.some.inj hs ▸ h, fun _ => trivial⟩

theorem completeAttempt_saves (rounds : Nat) (outcome : Outcome) :
    SavesFrom (Op.completeAttempt outcome).nodeSites (completeAttempt rounds outcome) := by
  have reconcile : SavesFrom (Op.completeAttempt outcome).nodeSites markRunManualReconcile :=
    .seq (.request rfl) fun _ => .seq (.request rfl) fun _ => .ret
  have settled : SavesFrom (Op.completeAttempt outcome).nodeSites (settle rounds) :=
    (settle_saves rounds).mono (by simp [Op.nodeSites])
  have finish (node updates : NodeRun) (attempt : NodeAttempt) :
      SavesFrom (Op.completeAttempt outcome).nodeSites (finishNodeAttempt node updates attempt) :=
    finishNodeAttempt_saves (by simp [Op.nodeSites]) node updates attempt
  unfold completeAttempt
  refine .seq (.request rfl) fun stored => .ite .fail (.seq (.request rfl) fun node => ?_)
  refine .seq requireRunningRun_saves fun _ => .ite .fail ?_
  refine .seq (definitionAndNode_saves node) fun pair => .lift fun _ => ?_
  refine .ite (.seq (finish ..) fun _ => .seq reconcile fun _ => .ret) ?_
  refine .ite (finish ..) (.ite ?_ (.ite (finish ..) ?_))
  · exact .seq (finish ..) fun _ => .seq settled fun _ => .ret
  · split
    · exact .seq (finish ..) fun _ => .seq settled fun _ => .ret
    · exact .seq (finish ..) fun _ => .seq reconcile fun _ => .ret
    · exact .seq (finish ..) fun _ =>
        .seq (stopRun_saves (by simp [Op.nodeSites]) (by simp) ..) fun _ => .ret

theorem startAttempt_saves (args : StartRequest) :
    SavesFrom [.startAttempt] (startAttempt args) := by
  refine .seq (.request rfl) fun node => .seq requireRunningRun_saves fun _ => .ite .fail ?_
  refine .seq (definitionAndNode_saves node) fun pair => .lift fun _ => ?_
  refine .seq (.request rfl) fun _ => .ite .fail ?_
  refine .seq (.request rfl) fun _ => .seq (.request rfl) fun _ => .ite .fail ?_
  exact ⟨fun _ hs => Option.some.inj hs ▸ List.mem_singleton_self _, fun _ => trivial⟩

theorem selectCondition_saves (rounds : Nat) (nodeRunId selectedPort : String) (outputRefs : Refs) :
    SavesFrom [.selectCondition, .propagateDependencies]
      (selectCondition rounds nodeRunId selectedPort outputRefs) := by
  refine .seq (.request rfl) fun node => .seq requireRunningRun_saves fun _ => ?_
  refine .seq (definitionAndNode_saves node) fun pair => .ite .fail (.lift fun _ => .ite .fail ?_)
  refine .lift fun _ => .seq (.save (by simp)) fun _ => ?_
  exact .seq ((settle_saves rounds).mono (by simp)) fun _ => .ret

theorem enterBoundary_saves (nodeRunId : String) (boundary : BoundaryKind) (waitToken : String) :
    SavesFrom [.enterBoundary] (enterBoundary nodeRunId boundary waitToken) := by
  refine .seq (.request rfl) fun node => .seq requireRunningRun_saves fun _ => .ite .fail ?_
  refine .seq (definitionAndNode_saves node) fun pair => .lift fun _ => .ite .fail ?_
  exact .seq (.save (by simp)) fun _ => .seq refreshRunActivityStatus_saves fun _ => .ret

theorem resolveBoundary_saves (rounds : Nat) (nodeRunId : String) (resolution : BoundaryResolution) :
    SavesFrom [.resolveBoundary, .propagateDependencies, .terminalizeActiveNodes]
      (resolveBoundary rounds nodeRunId resolution) := by
  refine .seq (.request rfl) fun node => .ite (.ite .ret .fail) (.ite .fail ?_)
  refine .seq (.request rfl) fun run => .ite .fail (.ite .fail (.ite .fail ?_))
  refine .seq (definitionAndNode_saves node) fun pair => .lift fun _ => ?_
  refine .seq (.save (by simp)) fun _ => .ite ?_ ?_
  · exact .seq ((settle_saves rounds).mono (by simp)) fun _ => .ret
  · exact .seq (stopRun_saves (by simp) (by simp) ..) fun _ => .ret

theorem timeoutBoundary_saves (rounds : Nat) (nodeRunId waitToken : String) :
    SavesFrom [.timeoutBoundary, .propagateDependencies]
      (timeoutBoundary rounds nodeRunId waitToken) := by
  refine .seq (.request rfl) fun node => .ite .fail (.seq (.request rfl) fun run => ?_)
  refine .ite .fail (.ite .fail (.seq (definitionAndNode_saves node) fun pair => .ite .fail ?_))
  refine .seq (.save (by simp)) fun _ => ?_
  exact .seq ((settle_saves rounds).mono (by simp)) fun _ => .ret

theorem advanceLoop_saves (rounds : Nat) (step : LoopStep) :
    SavesFrom (Op.advanceLoop step).nodeSites (advanceLoop rounds step) := by
  have settled : SavesFrom (Op.advanceLoop step).nodeSites (settle rounds) :=
    (settle_saves rounds).mono (by simp [Op.nodeSites])
  unfold advanceLoop
  refine .lift fun usage => .seq (.request rfl) fun node => .seq requireRunningRun_saves fun _ => ?_
  refine .seq (definitionAndNode_saves node) fun pair => ?_
  dsimp only
  split
  · exact .fail
  · refine .ite .fail (.lift fun _ => .lift fun _ => .ite ?_ (.ite ?_ ?_))
    · exact .seq (.save (by simp [Op.nodeSites])) fun _ => .seq settled fun _ => .ret
    · exact .seq (.save (by simp [Op.nodeSites])) fun _ => .seq settled fun _ => .ret
    · refine .seq (.request rfl) fun _ => .seq (.request rfl) fun _ => .seq (.request rfl) fun _ => ?_
      refine .seq (.save (by simp [Op.nodeSites])) fun _ => ?_
      exact .seq ((unlockLoopBody_saves _).mono (by simp [Op.nodeSites])) fun _ => .ret

theorem Op.saves (rounds : Nat) (op : Op) : SavesFrom op.nodeSites (op.code rounds) := by
  have drop {α : Type} {sites : List Site} {p : GraphProg α} (h : SavesFrom sites p) :
      SavesFrom sites (p >>= fun _ => .ret ()) := .seq h fun _ => .ret
  have stop {site : Site} (h : ∀ seen, site ≠ .accounted seen) (status : GraphRunStatus) :
      SavesFrom [.terminalizeActiveNodes] (stopRun site status) :=
    stopRun_saves (List.mem_singleton_self _) (fun seen hs => absurd hs (h seen)) status id
  cases op with
  | startRun now =>
    refine drop (.seq (.request rfl) fun run => ?_)
    split
    · exact .seq (.request rfl) fun _ => .ret
    · exact .seq (.request rfl) fun _ => .ret
    · exact .seq (.request rfl) fun _ => .ret
    · exact .fail
  | startAttempt args => exact drop (startAttempt_saves args)
  | completeAttempt outcome => exact drop (completeAttempt_saves rounds outcome)
  | markSideEffectStarted attemptId =>
    refine drop (.seq (.request rfl) fun _ => .ite .fail (.ite .fail (.seq (.request rfl) fun _ => ?_)))
    exact .seq requireRunningRun_saves fun _ => .seq (.request rfl) fun _ => .ret
  | selectCondition nodeRunId selectedPort outputRefs =>
    exact drop (selectCondition_saves rounds nodeRunId selectedPort outputRefs)
  | enterBoundary nodeRunId boundary waitToken =>
    exact drop (enterBoundary_saves nodeRunId boundary waitToken)
  | resolveBoundary nodeRunId resolution =>
    exact drop (resolveBoundary_saves rounds nodeRunId resolution)
  | timeoutBoundary nodeRunId waitToken =>
    exact drop (timeoutBoundary_saves rounds nodeRunId waitToken)
  | advanceLoop step => exact drop (advanceLoop_saves rounds step)
  | recordBudget usage observedAfterStop =>
    refine drop (.lift fun _ => .seq (.request rfl) fun _ => .ite .fail (.ite .fail (.ite ?_ ?_)))
    · exact stopRun_saves (by simp [Op.nodeSites]) (by simp [Op.nodeSites]) ..
    · exact .saveRun (by simp [Op.nodeSites])
  | cancelRun => exact drop (.seq (.request rfl) fun _ => .ite .ret (stop (by simp) _))
  | interruptRun =>
    refine drop (.seq (.request rfl) fun _ => .ite .ret (.seq resetInterruptedNodes_saves fun _ => ?_))
    exact .seq (.request rfl) fun _ => .seq (.request rfl) fun _ => .ret
  | failRun => exact drop (.seq (.request rfl) fun _ => .ite .ret (stop (by simp) _))
  | recover =>
    refine drop (.seq (.request rfl) fun _ => .ite .ret ?_)
    refine .seq (resetInterruptedNodes_saves.mono (by simp [Op.nodeSites])) fun _ => .ite ?_ ?_
    · exact .seq (.request rfl) fun _ => .seq (.request rfl) fun _ => .ret
    · refine .seq (resetDerivedDependencyStates_saves.mono (by simp [Op.nodeSites])) fun _ => ?_
      refine .seq ((propagateDependencies_saves rounds).mono (by simp [Op.nodeSites])) fun _ => ?_
      refine .seq finishIfTerminal_saves fun _ => .seq (.request rfl) fun _ => .ite .ret ?_
      exact refreshRunActivityStatus_saves

end Operant.Graph
