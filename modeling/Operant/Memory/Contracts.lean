import Mathlib.Data.List.Lex
import Mathlib.Data.String.Basic
import Mathlib.Tactic

/-! What a memory is made of: `contracts/b2_1.py`.

Ids, digests and reasons are what their patterns admit. Instants are aware, and count microseconds. Of a
version and a head some conditions can be broken, since they are also made by `model_copy`, which does not
validate: `readable` is what the validation of a stored body still asks. Dicts are in the order of their keys. -/
namespace Operant.Memory

/-! ### Ids and numbers -/

def isIdStart (c : Char) : Bool := ('A' ≤ c && c ≤ 'Z') || ('a' ≤ c && c ≤ 'z') || ('0' ≤ c && c ≤ '9')

/-- `^[A-Za-z0-9][A-Za-z0-9_.:-]*$`, of at most 200 characters. -/
def isId (s : String) : Bool :=
  match s.toList with
  | [] => false
  | c :: rest => isIdStart c && rest.length ≤ 199 && rest.all fun d => isIdStart d || d ∈ ['_', '.', ':', '-']

abbrev Id := {s : String // isId s = true}

/-- 64 hexadecimal digits. -/
abbrev Digest := {cs : List Char // cs.length = 64 ∧ cs.all (fun c => ('0' ≤ c && c ≤ '9') || ('a' ≤ c && c ≤ 'f'))}

abbrev Instant := Int

/-- The largest revision and version number. -/
def maxRevision : Nat := 2 ^ 53 - 1

/-- The largest cursor. -/
def maxCursor : Nat := 2 ^ 63 - 1

/-- `str.isspace`. -/
def isSpace (c : Char) : Bool :=
  let n := c.toNat
  (0x09 ≤ n && n ≤ 0x0d) || (0x1c ≤ n && n ≤ 0x20) || n = 0x85 || n = 0xa0 || n = 0x1680 ||
    (0x2000 ≤ n && n ≤ 0x200a) || n = 0x2028 || n = 0x2029 || n = 0x202f || n = 0x205f || n = 0x3000

/-- `not s.strip()`. -/
def isBlank (s : String) : Bool := s.toList.all isSpace

/-! ### Scopes and sources -/

/-- `Scope`. -/
inductive Scope where
  | workspace (projectId workspaceId : Id)
  | session (projectId workspaceId sessionId : Id)
  | run (projectId workspaceId runId : Id) (writerId : Option Id)
  | personal (principalId optInGrantId : Id)
  deriving DecidableEq

inductive SourceType where
  | item
  | artifact
  | memoryVersion
  | mailboxMessage
  | workflowEvent
  deriving DecidableEq

inductive Availability where
  | available
  | deleted
  | revoked
  | unavailable
  deriving DecidableEq

/-- `SourceRef`. -/
structure SourceRef where
  sourceType : SourceType
  sourceId : Id
  revision : Nat
  contentDigest : Digest
  scope : Scope
  permissionEpoch : Nat
  availability : Availability
  deriving DecidableEq

/-- `DatasetOwner`; its namespace is `dataset:` and the dataset. -/
structure DatasetOwner where
  datasetId : Id
  principalId : Id
  deriving DecidableEq

/-! ### Versions -/

/-- `MemoryVersionRef`. -/
structure MemoryVersionRef where
  datasetId : Id
  recordId : Id
  version : Nat
  contentDigest : Digest
  deriving DecidableEq

/-- `MemoryConditions`. -/
structure MemoryConditions where
  commitRef : Option String := none
  treeDigest : Option Digest := none
  fileFingerprints : List (Id × Digest) := []
  environmentDigest : Option Digest := none
  toolVersions : List (Id × Id) := []
  verifiedAt : Option Instant := none
  validFrom : Instant
  validUntil : Option Instant := none
  deriving DecidableEq

inductive MemoryKind where
  | working
  | episodic
  | project
  deriving DecidableEq

inductive ContentType where
  | fact
  | preference
  | episode
  | procedure
  deriving DecidableEq

inductive Evidence where
  | userAsserted
  | observed
  | tested
  | inferred
  | legacyUnverified
  deriving DecidableEq

inductive Sensitivity where
  | isPublic
  | internal
  | sensitive
  deriving DecidableEq

/-- `MemoryVersion`. -/
structure MemoryVersion where
  ref : MemoryVersionRef
  owner : DatasetOwner
  kind : MemoryKind := .project
  contentType : ContentType := .fact
  scope : Scope
  roleIds : List Id := []
  agentIds : List Id := []
  content : String
  sources : List SourceRef
  evidence : Evidence
  sensitivity : Sensitivity := .internal
  retentionPolicyId : Id
  conditions : MemoryConditions
  recordedAt : Instant
  deriving DecidableEq

def Scope.isSession : Scope → Bool
  | .session .. => true
  | _ => false

def Scope.isRun : Scope → Bool
  | .run .. => true
  | _ => false

def Scope.isWorkspace : Scope → Bool
  | .workspace .. => true
  | _ => false

/-- A content that a version may have. -/
def contentAllowed (content : String) : Bool := content.toList.length ≤ 100000 && !isBlank content

/-- The validation of a version's body. -/
def MemoryVersion.readable (version : MemoryVersion) : Bool :=
  1 ≤ version.ref.version && version.ref.version ≤ maxRevision &&
    version.ref.datasetId = version.owner.datasetId &&
    (version.kind ≠ .working || version.scope.isSession) &&
    (version.kind ≠ .project || version.scope.isWorkspace || version.scope.isRun) &&
    contentAllowed version.content &&
    (version.sources ≠ [] || version.evidence = .legacyUnverified) &&
    version.conditions.commitRef.all isId

/-! ### Heads, proposals, tombstones -/

inductive HeadState where
  | unpublished
  | published
  | inactive
  | revoked
  | deleted
  deriving DecidableEq

/-- `MemoryHead`. -/
structure MemoryHead where
  datasetId : Id
  recordId : Id
  publishedVersion : Option MemoryVersionRef
  revision : Nat
  publicationCursor : Nat
  state : HeadState
  permissionEpoch : Nat
  deriving DecidableEq

/-- The validation of a head's body. -/
def MemoryHead.readable (head : MemoryHead) : Bool :=
  head.revision ≤ maxRevision && head.permissionEpoch ≤ maxRevision && head.publicationCursor ≤ maxCursor &&
    head.publishedVersion.all (fun ref => ref.datasetId = head.datasetId && ref.recordId = head.recordId &&
      1 ≤ ref.version && ref.version ≤ maxRevision) &&
    (head.state ≠ .published || head.publishedVersion.isSome)

inductive Operation where
  | create
  | modify
  | merge
  | supersede
  | revoke
  deriving DecidableEq

inductive ProposalState where
  | pending
  | accepted
  | rejected
  | conflict
  | cancelled
  deriving DecidableEq

abbrev Reason := {s : String // 1 ≤ s.toList.length ∧ s.toList.length ≤ 2000}

/-- `MemoryProposal`: its head and its target are of one record that its owner has. -/
structure MemoryProposal where
  proposalId : Id
  proposalRevision : Nat := 0
  owner : DatasetOwner
  operation : Operation
  baseHead : MemoryHead
  proposedVersion : MemoryVersionRef
  sourceRefs : List SourceRef
  extractorVersion : Id
  reason : Reason
  state : ProposalState := .pending
  target : owner.datasetId = proposedVersion.datasetId ∧ baseHead.datasetId = proposedVersion.datasetId ∧
    baseHead.recordId = proposedVersion.recordId
  deriving DecidableEq

/-- The validation of a proposal's body. -/
def MemoryProposal.readable (proposal : MemoryProposal) : Bool :=
  proposal.proposalRevision ≤ maxRevision && proposal.baseHead.readable &&
    1 ≤ proposal.proposedVersion.version && proposal.proposedVersion.version ≤ maxRevision

inductive TombstoneState where
  | deleted
  | revoked
  | sourceDeleted
  deriving DecidableEq

/-- `Tombstone`, of a record or of its whole dataset. -/
structure Tombstone where
  datasetId : Id
  recordId : Option Id
  state : TombstoneState
  revision : Nat
  cursor : Nat
  deriving DecidableEq

end Operant.Memory
