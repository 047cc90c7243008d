import Operant.MultiWriter.System

/-! `MultiWriterRuntime`, call by call. -/
namespace Operant.MultiWriter
open Operant.Python Operant.Calls Operant.Graph

abbrev Action (α : Type) := Prog Call Answer Raised α

/-- A call whose exception is raised. -/
def ask (c : Call) : Action (Reply c) := Prog.request c >>= Prog.lift

/-- `execution_owner_id` and `execution_lease_seconds` of a runtime. -/
structure Owner where
  id : String
  leaseSeconds : ℤ := 30

/-! ### Artifacts and conflicts -/

/-- `publish_artifact`. -/
def publishArtifact (artifact : PatchCommitArtifact) (lease : WriterLease) :
    Action PatchCommitArtifact := do
  let workspace ← ask (.getWorkspace artifact.writerWorkspaceId)
  ask (.verify workspace artifact)
  ask (.publishArtifact artifact lease)

/-- `_ownership_overlap`: of two paths that overlap, the shorter one. -/
def ownershipOverlap (left right : List String) : List String :=
  left.flatMap fun l => (right.filter fun r => pathsOverlap l r).map fun r =>
    if l.length ≤ r.length then l else r

/-- `sorted` of a set. -/
def sortedSet (paths : List String) : List String := paths.dedup.insertionSort (· ≤ ·)

/-- The paths that two artifacts have in common, by what they changed or by what their
writers own. -/
def commonPaths (left right : PatchCommitArtifact) (leftWorkspace rightWorkspace : WriterWorkspace) :
    List String :=
  left.changedPaths.filter (· ∈ right.changedPaths) ++
    ownershipOverlap leftWorkspace.ownershipPaths rightWorkspace.ownershipPaths

/-- What `detect_conflicts` finds between two artifacts. -/
def conflictReason (left right : PatchCommitArtifact)
    (leftWorkspace rightWorkspace : WriterWorkspace) : Option ConflictReason :=
  let staleBase := decide (left.baseRevision ≠ right.baseRevision)
  let common := commonPaths left right leftWorkspace rightWorkspace
  let paths := if staleBase ∧ common = [] then left.changedPaths ++ right.changedPaths else common
  let first := left.writerArtifactId ≤ right.writerArtifactId
  if leftWorkspace.writerKey = rightWorkspace.writerKey then none
  else if paths = [] ∧ ¬staleBase then none
  else some {
    left := if first then left.writerArtifactId else right.writerArtifactId
    right := if first then right.writerArtifactId else left.writerArtifactId
    paths := sortedSet paths
    staleBase := staleBase
    ownershipOverlap :=
      sortedSet (ownershipOverlap leftWorkspace.ownershipPaths rightWorkspace.ownershipPaths) }

/-- `WriterConflict(..)`, which validates the sizes. -/
def newConflict (graphRunId : String) (reason : ConflictReason) : Except Raised WriterConflict :=
  if h : ConflictSizes reason.left reason.right reason.paths then
    .ok { graphRunId
          leftArtifactId := reason.left
          rightArtifactId := reason.right
          conflictHash := reason
          paths := reason.paths
          sizes := h }
  else .error .validation

/-- `workspaces[..]`, of a dict by id. -/
def workspaceOf (workspaces : List WriterWorkspace) (artifact : PatchCommitArtifact) :
    Except Raised WriterWorkspace :=
  match (Dict.ofList (workspaces.map fun row => (row.writerWorkspaceId, row))).lookup
      artifact.writerWorkspaceId with
  | none => .error .key
  | some workspace => .ok workspace

/-- One round of the loop of `detect_conflicts`. -/
def detectPair (graphRunId : String) (workspaces : List WriterWorkspace)
    (left right : PatchCommitArtifact) : Action (List WriterConflict) := do
  let leftWorkspace ← Prog.lift (workspaceOf workspaces left)
  let rightWorkspace ← Prog.lift (workspaceOf workspaces right)
  match conflictReason left right leftWorkspace rightWorkspace with
  | none => return []
  | some reason =>
    let conflict ← Prog.lift (newConflict graphRunId reason)
    let row ← ask (.putConflict conflict)
    return [row]

def detectPairs (graphRunId : String) (workspaces : List WriterWorkspace) :
    List (PatchCommitArtifact × PatchCommitArtifact) → Action (List WriterConflict)
  | [] => return []
  | (left, right) :: rest => do
    let found ← detectPair graphRunId workspaces left right
    let others ← detectPairs graphRunId workspaces rest
    return found ++ others

/-- `detect_conflicts`, with the artifacts it listed. -/
def detectConflicts (graphRunId : String) :
    Action (List PatchCommitArtifact × List WriterConflict) := do
  let artifacts ← ask (.listArtifacts graphRunId)
  let workspaces ← ask (.listWorkspaces graphRunId)
  let detected ← detectPairs graphRunId workspaces (pairs artifacts)
  return (artifacts, detected)

/-! ### Merge inputs -/

/-- `_merge_policy`. -/
def mergePolicy (definition : WorkflowDefinition) (nodeId : String) : Except Raised MergeNodePolicy :=
  match definition.node? nodeId with
  | none => .error (.conflict "merge run does not reference a frozen Merge node")
  | some node =>
    match node.nodeKind, node.mergePolicy with
    | .merge, some policy => .ok policy
    | _, _ => .error (.conflict "merge run does not reference a frozen Merge node")

/-- The frozen node binds this workspace, as the writer it is. -/
def isBound (merge : MergeRun) (workspace : WriterWorkspace) (nodeRun : NodeBinding)
    (spec : Option NodeSpec) : Bool :=
  nodeRun.workflowRunId = merge.graphRunId && match spec with
    | none => false
    | some spec => spec.nodeKind ≠ .merge && spec.writesWorkspace && match spec.writerPolicy with
      | none => false
      | some writer => writer.writerKey = workspace.writerKey &&
          writer.isolationKind = workspace.isolationKind &&
          writer.isolationRef = workspace.isolationRef &&
          writer.ownershipPaths = workspace.ownershipPaths

/-- One round of the last loop of `_merge_inputs`. -/
def checkBinding (merge : MergeRun) (frozen : WorkflowDefinition) (workspace : WriterWorkspace) :
    Action Unit := do
  if workspace.graphRunId ≠ merge.graphRunId then
    throw (.conflict "merge artifact belongs to another Graph Run")
  else
    match ← (ask (.getNodeRun workspace.nodeRunId)).attempt with
    | .error .key => throw (.conflict "merge writer node binding is missing")
    | .error e => throw e
    | .ok nodeRun =>
      let specs := Dict.ofList (frozen.nodes.map fun node => (node.nodeId, node))
      if isBound merge workspace nodeRun (specs.lookup nodeRun.nodeId) then return ()
      else throw (.conflict "merge writer node binding differs from the frozen Graph")

/-- What a merge is made of. -/
structure MergeInputs where
  policy : MergeNodePolicy
  artifacts : List PatchCommitArtifact
  workspaces : List WriterWorkspace

/-- The workspaces are those of the writers of the policy, one for each. -/
def coversWriters (policy : MergeNodePolicy) (workspaces : List WriterWorkspace) : Bool :=
  workspaces.length = policy.sourceWriterKeys.length &&
    (workspaces.all fun row => row.writerKey ∈ policy.sourceWriterKeys) &&
    policy.sourceWriterKeys.all fun key => key ∈ workspaces.map WriterWorkspace.writerKey

/-- `_merge_inputs`. -/
def mergeInputs (merge : MergeRun) (definition : Option (String × Nat)) : Action MergeInputs := do
  let run ← ask (.getRun merge.graphRunId)
  let frozen ← ask (.getDefinition run.workflowDefinitionId run.workflowDefinitionVersion)
  if definition.any fun d => d.1 ≠ frozen.workflowId || d.2 ≠ frozen.version then
    throw (.conflict "merge definition differs from the Graph Run")
  else
    let policy ← Prog.lift (mergePolicy frozen merge.mergeNodeId)
    let artifacts ← merge.artifactIds.mapM fun id => ask (.getArtifact id)
    if (artifacts.map PatchCommitArtifact.writerWorkspaceId).dedup.length ≠ artifacts.length then
      throw (.conflict "merge requires artifacts from distinct writer workspaces")
    else
      let workspaces ← artifacts.mapM fun artifact => ask (.getWorkspace artifact.writerWorkspaceId)
      if !coversWriters policy workspaces then
        throw (.conflict "merge artifacts do not cover the Merge node writer set")
      else
        let _ ← workspaces.mapM (checkBinding merge frozen)
        return ⟨policy, artifacts, workspaces⟩

/-- `_assert_workspace_leases`. -/
def assertWorkspaceLeases (workspaces : List WriterWorkspace) (leases : List WriterLease) :
    Action Unit := do
  let byWorkspace := Dict.ofList (leases.map fun lease => (lease.writerWorkspaceId, lease))
  if !((byWorkspace.all fun item => item.1 ∈ workspaces.map WriterWorkspace.writerWorkspaceId) &&
      workspaces.all fun row => byWorkspace.has row.writerWorkspaceId) then
    throw (.conflict "one current writer lease is required per merge artifact")
  else
    let _ ← byWorkspace.mapM fun item => ask (.assertLease item.2)
    return ()

/-! ### Merge runs -/

/-- `create_merge_run`. -/
def createMergeRun (merge : MergeRun) (definition : String × Nat) (leases : List WriterLease) :
    Action MergeRun := do
  let inputs ← mergeInputs merge (some definition)
  if merge.strategy ≠ inputs.policy.strategy then
    throw (.conflict "merge strategy does not match the frozen Merge node")
  else if inputs.artifacts.any fun artifact => artifact.baseRevision ≠ merge.baseRevision then
    throw (.conflict "merge contains an artifact with a stale base revision")
  else if merge.targetIsolationRef ∈ inputs.workspaces.map WriterWorkspace.isolationRef then
    throw (.conflict "merge target must use a separate isolated workspace")
  else
    assertWorkspaceLeases inputs.workspaces leases
    let conflicts ← ask (.listConflicts merge.graphRunId)
    if conflicts.any fun row => row.status = .opened then
      ask (.createMergeRun { merge with status := .conflicted })
    else ask (.createMergeRun merge)

/-- `merge.model_copy(update=..)` of a transition. -/
def MergeRun.updated (merge : MergeRun) (status : MergeRunStatus)
    (resultArtifactRef errorCode : Option String) : MergeRun :=
  { merge with
    status := status
    expectedRevision := merge.expectedRevision + 1
    resultArtifactRef := resultArtifactRef
    errorCode := errorCode }

/-- `_transition`. -/
def transition (merge : MergeRun) (status : MergeRunStatus)
    (resultArtifactRef errorCode : Option String) : Action MergeRun :=
  ask (.updateMergeRun (merge.updated status resultArtifactRef errorCode) merge.expectedRevision)

/-- `_transition_owned`. -/
def transitionOwned (owner : Owner) (merge : MergeRun) (status : MergeRunStatus)
    (resultArtifactRef errorCode : Option String) : Action MergeRun :=
  ask (.completeOwnedMergeRun (merge.updated status resultArtifactRef errorCode)
    merge.expectedRevision owner.id)

/-- `f"merge_adapter_{type(exc).__name__.lower()}"[:200]`. -/
def adapterErrorCode (e : Raised) : String :=
  String.ofList (("merge_adapter_" ++ e.typeName.toLower).toList.take 200)

/-- What becomes of a merge whose adapter raised. -/
def mergeFailed (owner : Owner) (rollbackOnFailure : Bool) (running : MergeRun) (e : Raised) :
    Action MergeRun := do
  if rollbackOnFailure then
    match ← (ask (.rollback running)).attempt with
    | .error _ => transitionOwned owner running .failed none (adapterErrorCode e)
    | .ok () => transitionOwned owner running .rolledBack none (adapterErrorCode e)
  else transitionOwned owner running .failed none (adapterErrorCode e)

/-- The claimed merge is run. -/
def runMerge (owner : Owner) (inputs : MergeInputs) (conflicts : List WriterConflict)
    (running : MergeRun) : Action MergeRun := do
  match ← (ask (.merge running inputs.artifacts inputs.workspaces conflicts)).attempt with
  | .ok resultRef => transitionOwned owner running .succeeded resultRef none
  | .error .outcomeUnknown =>
    transitionOwned owner running .outcomeUnknown none "merge.manual_reconcile_required"
  | .error e => mergeFailed owner inputs.policy.rollbackOnFailure running e

/-- `finalize_merge_run`; the heartbeat is a task of its own. -/
def finalizeMergeRun (owner : Owner) (mergeRunId : String) (definition : String × Nat)
    (leases : List WriterLease) (reviewApproved : Bool) : Action MergeRun := do
  let merge ← ask (.getMergeRun mergeRunId)
  if merge.status.isTerminal then
    throw (.conflict "terminal merge runs cannot be finalized again")
  else if merge.status = .running then
    throw (.conflict "running merge result is unknown and requires reconciliation")
  else
    let inputs ← mergeInputs merge (some definition)
    assertWorkspaceLeases inputs.workspaces leases
    let conflicts ← ask (.listConflicts merge.graphRunId)
    if conflicts.any fun row => row.status = .opened then
      if merge.status = .conflicted then return merge
      else transition merge .conflicted none "conflict_open"
    else if inputs.policy.requireReview && !reviewApproved then
      if merge.status = .reviewRequired then return merge
      else transition merge .reviewRequired none none
    else
      let claimedAt ← ask .now
      let running ← ask (.claimMergeRun merge owner.id (claimedAt + owner.leaseSeconds))
      runMerge owner inputs conflicts running

/-- One round of the heartbeat of `_merge_execution_heartbeat`. -/
def heartbeat (owner : Owner) (mergeRunId : String) : Action Unit := do
  let now ← ask .now
  ask (.renewMergeRunLease mergeRunId owner.id (now + owner.leaseSeconds))

/-- What the constructor of a runtime does. -/
def construct : Action Unit := do
  let now ← ask .now
  let _ ← ask (.reconcileIncompleteMergeRuns now)
  return ()

/-- `reconcile_merge_run`. -/
def reconcileMergeRun (mergeRunId : String) (expectedRevision : Nat) (status : MergeRunStatus)
    (resultArtifactRef errorCode : Option String) : Action MergeRun := do
  if status = .succeeded ∧ resultArtifactRef = none then
    throw (.conflict "successful merge reconciliation requires a result ref")
  else
    let merge ← ask (.getMergeRun mergeRunId)
    let _ ← mergeInputs merge none
    ask (.reconcileMergeRun mergeRunId expectedRevision status resultArtifactRef errorCode)
    ask (.getMergeRun mergeRunId)

/-! ### Everybody -/

inductive Task where
  | publish (artifact : PatchCommitArtifact) (lease : WriterLease)
  | detect (graphRunId : String)
  | create (merge : MergeRun) (definition : String × Nat) (leases : List WriterLease)
  | finalize (owner : Owner) (mergeRunId : String) (definition : String × Nat)
      (leases : List WriterLease) (reviewApproved : Bool)
  | heartbeat (owner : Owner) (mergeRunId : String)
  | construct
  | reconcile (mergeRunId : String) (expectedRevision : Nat) (status : MergeRunStatus)
      (resultArtifactRef errorCode : Option String)
  | other (change : Change)

/-- What a task that ends may leave behind for us. -/
abbrev Ending := Option Detection

def Task.code : Task → Action Ending
  | .publish artifact lease => do
    let _ ← publishArtifact artifact lease
    return none
  | .detect graphRunId => do
    let result ← (detectConflicts graphRunId).attempt
    return some ⟨graphRunId, result⟩
  | .create merge definition leases => do
    let _ ← createMergeRun merge definition leases
    return none
  | .finalize owner mergeRunId definition leases reviewApproved => do
    let _ ← finalizeMergeRun owner mergeRunId definition leases reviewApproved
    return none
  | .heartbeat owner mergeRunId => do
    MultiWriter.heartbeat owner mergeRunId
    return none
  | .construct => do
    MultiWriter.construct
    return none
  | .reconcile mergeRunId expectedRevision status resultArtifactRef errorCode => do
    let _ ← reconcileMergeRun mergeRunId expectedRevision status resultArtifactRef errorCode
    return none
  | .other change => do
    ask (.change change)
    return none

/-- Any number of runtimes and callers. -/
def system : System Call Answer Raised World Task Ending where
  exec c w := .ok (w.exec c)
  code := Task.code
  note _ ending w := { w with detections := w.detections ++ ending.toList }

/-- The pool in which nothing has happened yet. -/
def start : Pool Call Answer Raised World Task Ending := { world := {} }

/-- What a run of the system leaves. -/
def reached (moves : List (Move Task)) : World := (start.play system moves).world

end Operant.MultiWriter
