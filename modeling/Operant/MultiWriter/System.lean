import Operant.MultiWriter.Domain
import Operant.Calls.Owners

/-! What the callers of the multi-writer runtime share: the tables of
`SQLiteMultiWriterRepository`, the graph runs they belong to, and the adapters.

Each call is one transaction, one read, or one use of an adapter. What the model does not
follow (the clock, what adapters answer, exceptions from below) is `Outside`, and
changes between any two calls. Three lists are for us only, no program reads them:
`history`, which every write to `merge_runs` goes into, `invocations` of the merge adapter,
and `detections` that have ended. -/
namespace Operant.MultiWriter
open Operant.Python Operant.Tables Operant.Calls Operant.Graph

/-- Exceptions, as far as they are told apart. -/
inductive Raised where
  /-- `GraphConflictError`. -/
  | conflict (message : String)
  | notFound
  | key
  | value (message : String)
  /-- pydantic's `ValidationError`. -/
  | validation
  /-- `MergeOutcomeUnknownError`. -/
  | outcomeUnknown
  | other (typeName : String)
  deriving DecidableEq

/-- `type(exc).__name__`. -/
def Raised.typeName : Raised → String
  | .conflict _ => "GraphConflictError"
  | .notFound => "NotFoundError"
  | .key => "KeyError"
  | .value _ => "ValueError"
  | .validation => "ValidationError"
  | .outcomeUnknown => "MergeOutcomeUnknownError"
  | .other typeName => typeName

/-- The exception came from below. -/
def Raised.isFault : Raised → Bool
  | .other _ => true
  | .conflict _ | .notFound | .key | .value _ | .validation | .outcomeUnknown => false

/-! ### The world -/

structure GraphRun where
  id : String
  workflowDefinitionId : String
  workflowDefinitionVersion : Nat

/-- What a node run says about its node. -/
structure NodeBinding where
  id : String
  workflowRunId : String
  nodeId : String

/-- What may be otherwise at any moment. -/
structure Outside where
  clock : Instant := 0
  /-- The exception that calls on the store raise, if any, by the name of its type. -/
  fault : Option String := none
  verify : Except Raised Unit := .ok ()
  merge : Except Raised String := .ok ""
  rollback : Except Raised Unit := .ok ()

/-- Which statement wrote a row of `merge_runs`. -/
inductive Writer where
  | update
  | claim (ownerId : String)
  | renew (ownerId : String)
  | complete (ownerId : String) (expectedRevision : Nat)
  | sweep (now : Instant)
  | reconcile

/-- A write, when it was made, and what it made of a row. -/
structure MergeWrite where
  writer : Writer
  clock : Instant
  before : MergeRow
  after : MergeRow

/-- A use of the merge adapter. -/
structure Invocation where
  merge : MergeRun
  artifacts : List PatchCommitArtifact

/-- A `detect_conflicts` that has ended: the artifacts it listed and the conflicts it returned,
or its exception. -/
structure Detection where
  graphRunId : String
  result : Except Raised (List PatchCommitArtifact × List WriterConflict)

structure World where
  outside : Outside := {}
  definitions : List WorkflowDefinition := []
  runs : List GraphRun := []
  nodeRuns : List NodeBinding := []
  workspaces : List WriterWorkspace := []
  leases : List WriterLease := []
  artifacts : List PatchCommitArtifact := []
  conflicts : List WriterConflict := []
  merges : List MergeRow := []
  history : List MergeWrite := []
  invocations : List Invocation := []
  detections : List Detection := []

/-! ### Calls -/

/-- What others do. -/
inductive Change where
  | outside (f : Outside → Outside)
  | putDefinition (definition : WorkflowDefinition)
  /-- `GraphRuntime.create_run` of a stored definition; the ids of the node runs. -/
  | createRun (id workflowId : String) (version : Nat) (nodeRunId : String → String)
  | createWorkspace (workspace : WriterWorkspace)
  | acquireLease (workspaceId owner token : String) (expiresAt : Instant)
  | renewLease (lease : WriterLease) (expiresAt : Instant)
  | releaseLease (lease : WriterLease)
  | resolveConflict (conflictId : Nat) (resolutionArtifactRef : String) (rejected : Bool)

inductive Call where
  | change (change : Change)
  | now
  | getRun (id : String)
  | getDefinition (workflowId : String) (version : Nat)
  | getNodeRun (id : String)
  | getWorkspace (id : String)
  | listWorkspaces (graphRunId : String)
  | assertLease (lease : WriterLease)
  | verify (workspace : WriterWorkspace) (artifact : PatchCommitArtifact)
  | publishArtifact (artifact : PatchCommitArtifact) (lease : WriterLease)
  | getArtifact (id : String)
  | listArtifacts (graphRunId : String)
  | putConflict (conflict : WriterConflict)
  | listConflicts (graphRunId : String)
  | createMergeRun (merge : MergeRun)
  | getMergeRun (id : String)
  | updateMergeRun (merge : MergeRun) (expectedRevision : Nat)
  | claimMergeRun (merge : MergeRun) (ownerId : String) (leaseExpiresAt : Instant)
  | renewMergeRunLease (id ownerId : String) (leaseExpiresAt : Instant)
  | completeOwnedMergeRun (merge : MergeRun) (expectedRevision : Nat) (ownerId : String)
  | reconcileIncompleteMergeRuns (now : Instant)
  | reconcileMergeRun (id : String) (expectedRevision : Nat) (status : MergeRunStatus)
      (resultArtifactRef errorCode : Option String)
  | merge (merge : MergeRun) (artifacts : List PatchCommitArtifact)
      (workspaces : List WriterWorkspace) (resolutions : List WriterConflict)
  | rollback (merge : MergeRun)

/-- The call opens the database. -/
def Call.onStore : Call → Bool
  | .change _ | .now | .verify .. | .merge .. | .rollback _ => false
  | _ => true

abbrev Reply : Call → Type
  | .change _ => Unit
  | .now => Instant
  | .getRun _ => GraphRun
  | .getDefinition .. => WorkflowDefinition
  | .getNodeRun _ => NodeBinding
  | .getWorkspace _ => WriterWorkspace
  | .listWorkspaces _ => List WriterWorkspace
  | .assertLease _ => Unit
  | .verify .. => Unit
  | .publishArtifact .. => PatchCommitArtifact
  | .getArtifact _ => PatchCommitArtifact
  | .listArtifacts _ => List PatchCommitArtifact
  | .putConflict _ => WriterConflict
  | .listConflicts _ => List WriterConflict
  | .createMergeRun _ => MergeRun
  | .getMergeRun _ => MergeRun
  | .updateMergeRun .. => MergeRun
  | .claimMergeRun .. => MergeRun
  | .renewMergeRunLease .. => Unit
  | .completeOwnedMergeRun .. => MergeRun
  | .reconcileIncompleteMergeRuns _ => Nat
  | .reconcileMergeRun .. => Unit
  | .merge .. => String
  | .rollback _ => Unit

abbrev Answer (c : Call) : Type := Except Raised (Reply c)

namespace World

/-! ### Graph runs -/

def definition? (w : World) (workflowId : String) (version : Nat) : Option WorkflowDefinition :=
  w.definitions.find? fun d => d.workflowId = workflowId && d.version = version

/-- `put_definition`: a revision is stored once. -/
def putDefinition (w : World) (definition : WorkflowDefinition) : World :=
  if (w.definition? definition.workflowId definition.version).isSome then w
  else { w with definitions := w.definitions ++ [definition] }

/-- `create_run`: the definition compiles, and the tables take an id once. -/
def createRun (w : World) (id workflowId : String) (version : Nat) (nodeRunId : String → String) :
    World :=
  match w.definition? workflowId version with
  | none => w
  | some definition =>
    match compile definition with
    | .error _ => w
    | .ok _ =>
      let bindings := definition.nodes.map fun node => { id := nodeRunId node.nodeId,
                                                         workflowRunId := id,
                                                         nodeId := node.nodeId : NodeBinding }
      if (w.runs.map GraphRun.id).contains id ∨
          ¬((w.nodeRuns ++ bindings).map NodeBinding.id).Nodup then w
      else { w with
        runs := w.runs ++ [⟨id, workflowId, version⟩]
        nodeRuns := w.nodeRuns ++ bindings }

/-! ### Workspaces and leases -/

def workspace? (w : World) (id : String) : Option WriterWorkspace :=
  w.workspaces.find? fun row => row.writerWorkspaceId = id

/-- `create_workspace`. -/
def createWorkspace (w : World) (workspace : WriterWorkspace) : World :=
  if workspace.isolationRef = workspace.graphRunId ∨
      w.workspaces.any (fun row => row.writerWorkspaceId = workspace.writerWorkspaceId ||
        row.isolationRef = workspace.isolationRef ||
        (row.graphRunId = workspace.graphRunId && row.writerKey = workspace.writerKey)) ∨
      !(w.runs.any fun run => run.id = workspace.graphRunId) ∨
      !(w.nodeRuns.any fun node => node.id = workspace.nodeRunId) then w
  else { w with workspaces := w.workspaces ++ [{ workspace with closed := false }] }

def lease? (w : World) (workspaceId : String) : Option WriterLease :=
  w.leases.find? fun row => row.writerWorkspaceId = workspaceId

/-- The transaction of `acquire_lease`. The digest of a token stands in one row only, and an
owner's id has 1 to 300 characters. -/
def acquire (w : World) (workspaceId owner token : String) (expiresAt : Instant) :
    Except Raised WriterLease × World :=
  match w.workspace? workspaceId with
  | none => (.error .notFound, w)
  | some workspace =>
    if workspace.closed then (.error (.conflict "writer workspace is closed"), w)
    else
      let refused := owner.length < 1 || 300 < owner.length || w.leases.any fun row =>
        row.token = token && row.writerWorkspaceId ≠ workspaceId
      match w.lease? workspaceId with
      | none =>
        if refused then (.error (.other "IntegrityError"), w)
        else
          let lease : WriterLease := ⟨workspaceId, owner, token, 1, expiresAt, none⟩
          (.ok lease, { w with leases := w.leases ++ [lease] })
      | some current =>
        if current.releasedAt = none ∧ w.outside.clock < current.expiresAt then
          (.error (.conflict "writer workspace already has an active lease"), w)
        else if refused then (.error (.other "IntegrityError"), w)
        else
          let lease : WriterLease :=
            ⟨workspaceId, owner, token, current.fencing + 1, expiresAt, none⟩
          (.ok lease, { w with
            leases := update w.leases (fun row => row.writerWorkspaceId = workspaceId) fun _ => lease })

/-- `acquire_lease`: what it returns is a `WriterLease`, whose token has 16 to 300 characters. -/
def acquireLease (w : World) (workspaceId owner token : String) (expiresAt : Instant) :
    Except Raised WriterLease × World :=
  if expiresAt ≤ w.outside.clock then
    (.error (.value "writer lease expiry must be in the future"), w)
  else match w.acquire workspaceId owner token expiresAt with
    | (.error e, w') => (.error e, w')
    | (.ok lease, w') =>
      if 16 ≤ token.length ∧ token.length ≤ 300 then (.ok lease, w') else (.error .validation, w')

/-- `writer_workspace_id = ? AND owner = ? AND token_hash = ? AND fencing = ? AND
released_at IS NULL`; digests of tokens are equal for equal tokens only. -/
def holds (lease row : WriterLease) : Bool :=
  row.writerWorkspaceId = lease.writerWorkspaceId && row.owner = lease.owner &&
    row.token = lease.token && row.fencing = lease.fencing && row.releasedAt.isNone

/-- `renew_lease`. -/
def renewLease (w : World) (lease : WriterLease) (expiresAt : Instant) :
    Except Raised WriterLease × World :=
  let p (row : WriterLease) : Bool := holds lease row && w.outside.clock < row.expiresAt
  if expiresAt ≤ w.outside.clock then
    (.error (.value "writer lease expiry must be in the future"), w)
  else if (w.leases.filter p).length ≠ 1 then
    (.error (.conflict "writer lease is expired, released, or fenced"), w)
  else (.ok { lease with expiresAt := expiresAt }, { w with
    leases := update w.leases p fun row => { row with expiresAt := expiresAt } })

/-- `release_lease`. -/
def releaseLease (w : World) (lease : WriterLease) : Except Raised WriterLease × World :=
  let released (row : WriterLease) : WriterLease :=
    { row with releasedAt := some w.outside.clock, expiresAt := w.outside.clock }
  if (w.leases.filter (holds lease)).length ≠ 1 then
    (.error (.conflict "writer lease is released or fenced"), w)
  else (.ok (released lease), { w with leases := update w.leases (holds lease) released })

/-- `assert_lease`. -/
def assertLease (w : World) (lease : WriterLease) : Except Raised Unit :=
  if w.leases.any fun row => holds lease row && w.outside.clock < row.expiresAt then .ok ()
  else .error (.conflict "writer lease is expired, released, or fenced")

/-! ### Artifacts -/

def artifact? (w : World) (id : String) : Option PatchCommitArtifact :=
  w.artifacts.find? fun row => row.writerArtifactId = id

/-- The checks of `publish_artifact`, in its order. -/
def checkArtifact (w : World) (artifact : PatchCommitArtifact) (lease : WriterLease) :
    Except Raised Unit := do
  if artifact.writerWorkspaceId ≠ lease.writerWorkspaceId then
    throw (.conflict "writer lease belongs to another workspace")
  w.assertLease lease
  match w.workspace? artifact.writerWorkspaceId with
  | none => throw (.other "TypeError")
  | some workspace =>
    if artifact.baseRevision ≠ workspace.baseRevision then
      throw (.conflict "writer artifact has a stale base revision")
    if artifact.changedPaths.any fun path => !decide (ownedBy workspace.ownershipPaths path) then
      throw (.conflict "writer artifact changes paths outside ownership")
    if artifact.changedPaths = [] ∨ artifact.testEvidenceRefs = [] then
      throw (.conflict "writer artifact requires changed paths and test evidence")
    if w.artifacts.any fun row => row.writerArtifactId = artifact.writerArtifactId ||
        row.artifactRef = artifact.artifactRef then
      throw (.conflict "writer artifact already exists or is invalid")

def publishArtifact (w : World) (artifact : PatchCommitArtifact) (lease : WriterLease) :
    Except Raised PatchCommitArtifact × World :=
  match w.checkArtifact artifact lease with
  | .error e => (.error e, w)
  | .ok () => (.ok artifact, { w with artifacts := w.artifacts ++ [artifact] })

/-- The artifact belongs to a workspace of the graph run. -/
def ofRun (w : World) (graphRunId : String) (artifact : PatchCommitArtifact) : Bool :=
  w.workspaces.any fun row =>
    row.writerWorkspaceId = artifact.writerWorkspaceId && row.graphRunId = graphRunId

/-- `list_artifacts`. -/
def listArtifacts (w : World) (graphRunId : String) : List PatchCommitArtifact :=
  (w.artifacts.filter (w.ofRun graphRunId)).insertionSort fun a b => a.createdAt ≤ b.createdAt

/-- `list_workspaces`. -/
def listWorkspaces (w : World) (graphRunId : String) : List WriterWorkspace :=
  (w.workspaces.filter fun row => row.graphRunId = graphRunId).insertionSort fun a b =>
    a.createdAt ≤ b.createdAt

/-! ### Conflicts -/

/-- `put_conflict`: `INSERT OR IGNORE`, then the row with this hash. -/
def putConflict (w : World) (conflict : WriterConflict) : WriterConflict × World :=
  match w.conflicts.find? fun row => row.graphRunId = conflict.graphRunId &&
      row.conflictHash = conflict.conflictHash with
  | some row => (row, w)
  | none =>
    let row := { conflict with conflictId := w.conflicts.length }
    (row, { w with conflicts := w.conflicts ++ [row] })

def listConflicts (w : World) (graphRunId : String) : List WriterConflict :=
  w.conflicts.filter fun row => row.graphRunId = graphRunId

/-- `resolve_conflict`. -/
def resolveConflict (w : World) (conflictId : Nat) (resolutionArtifactRef : String)
    (rejected : Bool) : World :=
  { w with
    conflicts := update w.conflicts (fun row => row.conflictId = conflictId && row.status = .opened)
      fun row => { row with
        status := if rejected then .rejected else .resolved
        resolutionArtifactRef := resolutionArtifactRef } }

/-! ### Merge runs -/

def merge? (w : World) (id : String) : Option MergeRow :=
  w.merges.find? fun row => row.merge.mergeRunId = id

/-- `create_merge_run`. -/
def createMergeRun (w : World) (merge : MergeRun) : Except Raised MergeRun × World :=
  if h : merge.status = .running then
    (.error (.conflict "merge run already exists or is invalid"), w)
  else if (w.merge? merge.mergeRunId).isSome ∨ !(w.runs.any fun run => run.id = merge.graphRunId) then
    (.error (.conflict "merge run already exists or is invalid"), w)
  else (.ok merge, { w with merges := w.merges ++ [⟨merge, none, by simp [h]⟩] })

/-- `UPDATE merge_runs SET f WHERE p`, and what we note of it. -/
def write (w : World) (writer : Writer) (p : MergeRow → Bool) (f : MergeRow → MergeRow) : World :=
  { w with
    merges := update w.merges p f
    history := w.history ++ (w.merges.filter p).map fun row => ⟨writer, w.outside.clock, row, f row⟩ }

/-- The same, where `rowcount != 1` is a conflict, which rolls back. -/
def writeOne {α : Type} (w : World) (writer : Writer) (p : MergeRow → Bool)
    (f : MergeRow → MergeRow) (message : String) (reply : α) : Except Raised α × World :=
  if (w.merges.filter p).length ≠ 1 then (.error (.conflict message), w)
  else (.ok reply, w.write writer p f)

/-- `merge_run_id = ? AND expected_revision = ?`. -/
def atRevision (id : String) (expectedRevision : Nat) (row : MergeRow) : Bool :=
  row.merge.mergeRunId = id && row.merge.expectedRevision = expectedRevision

def updateMergeRun (w : World) (merge : MergeRun) (expectedRevision : Nat) :
    Except Raised MergeRun × World :=
  if merge.expectedRevision ≠ expectedRevision + 1 then
    (.error (.conflict "merge run revision conflict"), w)
  else if h : merge.status = .running then
    (.error (.conflict "running merge runs require an execution owner lease"), w)
  else
    w.writeOne .update (atRevision merge.mergeRunId expectedRevision)
      (fun row => row.withStatus merge.status h merge.resultArtifactRef merge.errorCode)
      "merge run revision conflict" merge

def claimMergeRun (w : World) (merge : MergeRun) (ownerId : String) (leaseExpiresAt : Instant) :
    Except Raised MergeRun × World :=
  let claimable (row : MergeRow) : Bool :=
    atRevision merge.mergeRunId merge.expectedRevision row && row.merge.status.isClaimable
  -- `uq_merge_runs_running_target`, and the length of an owner's id
  if w.merges.any fun row => claimable row && (ownerId.length < 1 || 300 < ownerId.length ||
      w.merges.any fun other => other.merge.status = .running &&
        other.merge.targetIsolationRef = row.merge.targetIsolationRef) then
    (.error (.conflict "merge target already has an exclusive running merge"), w)
  else
    w.writeOne (.claim ownerId) claimable (fun row => row.claimed ownerId leaseExpiresAt)
      "merge run execution claim conflicts" { merge with
        status := .running
        expectedRevision := merge.expectedRevision + 1
        resultArtifactRef := none
        errorCode := none }

def renewMergeRunLease (w : World) (id ownerId : String) (leaseExpiresAt : Instant) :
    Except Raised Unit × World :=
  w.writeOne (.renew ownerId)
    (fun row => row.merge.mergeRunId = id && row.merge.status = .running && row.ownedBy ownerId)
    (fun row => row.renewed leaseExpiresAt) "merge run execution lease was lost" ()

def completeOwnedMergeRun (w : World) (merge : MergeRun) (expectedRevision : Nat)
    (ownerId : String) : Except Raised MergeRun × World :=
  if merge.expectedRevision ≠ expectedRevision + 1 then
    (.error (.conflict "merge run revision conflict"), w)
  else if h : merge.status = .running then
    (.error (.conflict "owned merge completion requires a known terminal status"), w)
  else
    w.writeOne (.complete ownerId expectedRevision)
      (fun row => atRevision merge.mergeRunId expectedRevision row && row.merge.status = .running &&
        row.ownedBy ownerId)
      (fun row => row.withStatus merge.status h merge.resultArtifactRef merge.errorCode)
      "merge run owned completion conflicts" merge

/-- `reconcile_incomplete_merge_runs`. -/
def reconcileIncompleteMergeRuns (w : World) (now : Instant) : Nat × World :=
  let p (row : MergeRow) : Bool := row.merge.status = .running && row.expired now
  ((w.merges.filter p).length, w.write (.sweep now) p fun row =>
    row.withStatus .outcomeUnknown (by decide) none "merge.manual_reconcile_required")

/-- The transaction of `reconcile_merge_run`. -/
def reconcileMergeRun (w : World) (id : String) (expectedRevision : Nat) (status : MergeRunStatus)
    (resultArtifactRef errorCode : Option String) : Except Raised Unit × World :=
  if h : status = .succeeded ∨ status = .failed ∨ status = .rolledBack then
    w.writeOne .reconcile
      (fun row => atRevision id expectedRevision row && row.merge.status = .outcomeUnknown)
      -- A row whose outcome is unknown has no owner.
      (fun row => row.withStatus status (by rcases h with h | h | h <;> rw [h] <;> decide)
        resultArtifactRef errorCode)
      "merge reconciliation state conflicts" ()
  else (.error (.conflict "merge reconciliation requires a known terminal status"), w)

/-! ### Everything -/

def found {α : Type} (e : Raised) (row : Option α) : Except Raised α :=
  match row with
  | none => .error e
  | some row => .ok row

def change (w : World) : Change → World
  | .outside f => { w with outside := f w.outside }
  | .putDefinition definition => w.putDefinition definition
  | .createRun id workflowId version nodeRunId => w.createRun id workflowId version nodeRunId
  | .createWorkspace workspace => w.createWorkspace workspace
  | .acquireLease workspaceId owner token expiresAt =>
    (w.acquireLease workspaceId owner token expiresAt).2
  | .renewLease lease expiresAt => (w.renewLease lease expiresAt).2
  | .releaseLease lease => (w.releaseLease lease).2
  | .resolveConflict conflictId resolutionArtifactRef rejected =>
    w.resolveConflict conflictId resolutionArtifactRef rejected

/-- What a call replies and leaves, where nothing is at fault. -/
def answer (w : World) : (c : Call) → Answer c × World
  | .change change => (.ok (), w.change change)
  | .now => (.ok w.outside.clock, w)
  | .getRun id => (found .key (w.runs.find? fun run => run.id = id), w)
  | .getDefinition workflowId version => (found .key (w.definition? workflowId version), w)
  | .getNodeRun id => (found .key (w.nodeRuns.find? fun node => node.id = id), w)
  | .getWorkspace id => (found .notFound (w.workspace? id), w)
  | .listWorkspaces graphRunId => (.ok (w.listWorkspaces graphRunId), w)
  | .assertLease lease => (w.assertLease lease, w)
  | .verify _ _ => (w.outside.verify, w)
  | .publishArtifact artifact lease => w.publishArtifact artifact lease
  | .getArtifact id => (found .notFound (w.artifact? id), w)
  | .listArtifacts graphRunId => (.ok (w.listArtifacts graphRunId), w)
  | .putConflict conflict => (.ok (w.putConflict conflict).1, (w.putConflict conflict).2)
  | .listConflicts graphRunId => (.ok (w.listConflicts graphRunId), w)
  | .createMergeRun merge => w.createMergeRun merge
  | .getMergeRun id => (found .notFound ((w.merge? id).map MergeRow.merge), w)
  | .updateMergeRun merge expectedRevision => w.updateMergeRun merge expectedRevision
  | .claimMergeRun merge ownerId leaseExpiresAt => w.claimMergeRun merge ownerId leaseExpiresAt
  | .renewMergeRunLease id ownerId leaseExpiresAt => w.renewMergeRunLease id ownerId leaseExpiresAt
  | .completeOwnedMergeRun merge expectedRevision ownerId =>
    w.completeOwnedMergeRun merge expectedRevision ownerId
  | .reconcileIncompleteMergeRuns now =>
    (.ok (w.reconcileIncompleteMergeRuns now).1, (w.reconcileIncompleteMergeRuns now).2)
  | .reconcileMergeRun id expectedRevision status resultArtifactRef errorCode =>
    w.reconcileMergeRun id expectedRevision status resultArtifactRef errorCode
  | .merge merge artifacts _ _ =>
    (w.outside.merge, { w with invocations := w.invocations ++ [⟨merge, artifacts⟩] })
  | .rollback _ => (w.outside.rollback, w)

def exec (w : World) (c : Call) : Answer c × World :=
  match w.outside.fault with
  | none => w.answer c
  | some typeName => if c.onStore then (.error (.other typeName), w) else w.answer c

end World
end Operant.MultiWriter
