import Operant.MultiWriter.Paths
import Operant.Tables.Rows

/-! Writers, what they publish, the conflicts between them, and merge runs.

What the source's validators and the tables' `CHECK`s promise about a value is a field of
its structure: a conflict outside its size limits, or a merge run that is running without
an owner, cannot be built. -/
namespace Operant.MultiWriter
open Operant.Graph (WriterIsolationKind MergeStrategy)

abbrev Instant := ℤ

/-! ### Enumerations -/

inductive WriterArtifactKind where
  | patch
  | commit
  deriving DecidableEq

inductive WriterConflictStatus where
  | opened
  | resolved
  | rejected
  deriving DecidableEq

inductive MergeRunStatus where
  | created
  | running
  | conflicted
  | reviewRequired
  | succeeded
  | failed
  | rolledBack
  | outcomeUnknown
  deriving DecidableEq

/-- The outcomes that `reconcile_merge_run` takes. -/
def MergeRunStatus.isKnown : MergeRunStatus → Bool
  | .succeeded | .failed | .rolledBack => true
  | .created | .running | .conflicted | .reviewRequired | .outcomeUnknown => false

/-- The merge run is over. -/
def MergeRunStatus.isTerminal : MergeRunStatus → Bool
  | .succeeded | .failed | .rolledBack | .outcomeUnknown => true
  | .created | .running | .conflicted | .reviewRequired => false

/-- `status NOT IN ('running', 'succeeded', 'failed', 'rolled_back', 'outcome_unknown')`. -/
def MergeRunStatus.isClaimable (status : MergeRunStatus) : Bool :=
  !(status = .running || status.isTerminal)

/-! ### Writers -/

structure WriterWorkspace where
  writerWorkspaceId : String
  graphRunId : String
  nodeRunId : String
  writerKey : String
  isolationKind : WriterIsolationKind
  isolationRef : String
  baseRevision : String
  ownershipPaths : List String
  closed : Bool := false
  createdAt : String := ""

structure WriterLease where
  writerWorkspaceId : String
  owner : String
  token : String
  fencing : Nat
  expiresAt : Instant
  releasedAt : Option Instant := none

structure PatchCommitArtifact where
  writerArtifactId : String
  writerWorkspaceId : String
  artifactKind : WriterArtifactKind := .patch
  artifactRef : String
  artifactSha256 : String := ""
  baseRevision : String
  resultRevision : Option String := none
  changedPaths : List String
  testEvidenceRefs : List String := []
  createdAt : String := ""
  changedPaths_length : changedPaths.length ≤ 5000 := by decide
  testEvidenceRefs_length : testEvidenceRefs.length ≤ 200 := by decide
  /-- `validate_commit_revision`. -/
  commit_result : artifactKind = .commit → resultRevision.isSome = true := by decide

/-! ### Conflicts -/

/-- What `conflict_hash` is the digest of. -/
structure ConflictReason where
  left : String
  right : String
  paths : List String
  staleBase : Bool
  ownershipOverlap : List String
  deriving DecidableEq

/-- The sizes that a conflict record takes: the ids of its artifacts and its paths. -/
structure ConflictSizes (left right : String) (paths : List String) : Prop where
  left : 1 ≤ left.length ∧ left.length ≤ 300
  right : 1 ≤ right.length ∧ right.length ≤ 300
  paths : 1 ≤ paths.length ∧ paths.length ≤ 5000

instance (left right : String) (paths : List String) : Decidable (ConflictSizes left right paths) :=
  decidable_of_iff ((1 ≤ left.length ∧ left.length ≤ 300) ∧ (1 ≤ right.length ∧ right.length ≤ 300) ∧
      1 ≤ paths.length ∧ paths.length ≤ 5000)
    ⟨fun h => ⟨h.1, h.2.1, h.2.2⟩, fun h => ⟨h.left, h.right, h.paths⟩⟩

/-- A conflict. `conflictHash` stands for the digest of the reason: digests are equal for
equal reasons only. The id is a new one for every row, its number. -/
structure WriterConflict where
  conflictId : Nat := 0
  graphRunId : String
  leftArtifactId : String
  rightArtifactId : String
  conflictHash : ConflictReason
  paths : List String
  status : WriterConflictStatus := .opened
  resolutionArtifactRef : Option String := none
  sizes : ConflictSizes leftArtifactId rightArtifactId paths

/-! ### Merge runs -/

structure MergeRun where
  mergeRunId : String
  graphRunId : String
  mergeNodeId : String
  artifactIds : List String
  strategy : MergeStrategy := .threeWay
  targetIsolationRef : String
  baseRevision : String
  status : MergeRunStatus := .created
  expectedRevision : Nat := 0
  resultArtifactRef : Option String := none
  errorCode : Option String := none
  deriving DecidableEq

/-- `execution_owner_id` and `execution_lease_expires_at`. -/
structure Execution where
  ownerId : String
  leaseExpiresAt : Instant
  deriving DecidableEq

/-- A row of `merge_runs`. -/
structure MergeRow where
  merge : MergeRun
  execution : Option Execution := none
  /-- `CHECK ((status = 'running') = (.. IS NOT NULL AND .. IS NOT NULL))`. -/
  running_iff : merge.status = .running ↔ execution.isSome = true
  deriving DecidableEq

namespace MergeRow

/-- What every statement that ends or returns a merge run writes. -/
def withStatus (row : MergeRow) (status : MergeRunStatus) (h : status ≠ .running)
    (resultArtifactRef errorCode : Option String) : MergeRow where
  merge := { row.merge with
    status := status
    expectedRevision := row.merge.expectedRevision + 1
    resultArtifactRef := resultArtifactRef
    errorCode := errorCode }
  execution := none
  running_iff := by simp [h]

def claimed (row : MergeRow) (ownerId : String) (leaseExpiresAt : Instant) : MergeRow where
  merge := { row.merge with
    status := .running
    expectedRevision := row.merge.expectedRevision + 1
    resultArtifactRef := none
    errorCode := none }
  execution := some ⟨ownerId, leaseExpiresAt⟩
  running_iff := by simp

/-- A new expiry, for a row that has one. -/
def renewed (row : MergeRow) (leaseExpiresAt : Instant) : MergeRow where
  merge := row.merge
  execution := row.execution.map fun e => { e with leaseExpiresAt := leaseExpiresAt }
  running_iff := by rw [row.running_iff, Option.isSome_map]

/-- `execution_owner_id = ?`. -/
def ownedBy (row : MergeRow) (ownerId : String) : Bool :=
  row.execution.any fun e => e.ownerId = ownerId

/-- `execution_lease_expires_at IS NULL OR execution_lease_expires_at <= ?`. -/
def expired (row : MergeRow) (now : Instant) : Bool :=
  row.execution.all fun e => e.leaseExpiresAt ≤ now

end MergeRow
end Operant.MultiWriter
