import Operant.Calls.Transaction
import Operant.Memory.Contracts
import Operant.Tables.Keyed

/-! The memory ledger: `memory_plugins/ledger.py`.

Versions are only appended, each record has one head that says which of them is published, and a proposal
moves the head when it is confirmed. A call that brings the key of an earlier one returns what that one
returned and writes nothing; such calls are left out. What a call would make an id, a reason or an operation
of that the contracts refuse is not a call here. -/
namespace Operant.Memory
open Operant.Calls Operant.Calls.Transaction Operant.Tables

/-! ### Tables -/

/-- A row of `memory_ledger_legacy_imports`. -/
structure LegacyImport where
  datasetId : Id
  sourceKey : String
  recordId : Id
  version : Nat
  bodyHash : Digest

def versionKey (version : MemoryVersion) : Id × Id × Nat :=
  (version.ref.datasetId, version.ref.recordId, version.ref.version)

def headKey (head : MemoryHead) : Id × Id := (head.datasetId, head.recordId)

structure Ledger where
  versions : Keyed MemoryVersion (Id × Id × Nat) versionKey := {}
  heads : Keyed MemoryHead (Id × Id) headKey := {}
  proposals : Keyed MemoryProposal Id (·.proposalId) := {}
  tombstones : Keyed Tombstone (Id × Option Id) (fun row => (row.datasetId, row.recordId)) := {}
  legacyImports : Keyed LegacyImport (Id × String) (fun row => (row.datasetId, row.sourceKey)) := {}
  publicationCursor : Nat := 0

def Ledger.empty : Ledger := {}

/-- `LedgerNotFoundError`, `LedgerConflictError`, `LedgerValidationError`, what a contract's validation raises,
and what SQLite raises. -/
inductive Failure where
  | notFound (text : String)
  | conflict (text : String)
  | validation (text : String)
  | contract
  | integrity
  deriving DecidableEq

abbrev Txn (α : Type) := Transaction Ledger Failure α

/-- `MAX(version)` of a record. -/
def Ledger.maxVersion (ledger : Ledger) (datasetId recordId : Id) : Nat :=
  ((ledger.versions.rows.filter fun row => row.ref.datasetId = datasetId ∧ row.ref.recordId = recordId).map
    (·.ref.version)).foldr max 0

/-! ### Reading -/

/-- `model_validate_json` of a row that may not be there. -/
def parsed {α : Type} (readable : α → Bool) : Option α → Txn (Option α)
  | none => pure none
  | some row => if readable row then pure (some row) else throw .contract

/-- `_stored_version`. -/
def storedVersion (datasetId recordId : Id) (version : Nat) : Txn (Option MemoryVersion) := do
  parsed MemoryVersion.readable ((← get).versions.find (datasetId, recordId, version))

/-- `_stored_head`. -/
def storedHead (datasetId recordId : Id) : Txn (Option MemoryHead) := do
  parsed MemoryHead.readable ((← get).heads.find (datasetId, recordId))

/-- `_stored_proposal`. -/
def storedProposal (proposalId : Id) : Txn (Option MemoryProposal) := do
  parsed MemoryProposal.readable ((← get).proposals.find proposalId)

/-- `_stored_tombstone`. -/
def storedTombstone (datasetId : Id) (recordId : Option Id) : Txn (Option Tombstone) := do
  pure ((← get).tombstones.find (datasetId, recordId))

/-- What is there, or `LedgerNotFoundError`. -/
def found {α : Type} (text : String) : Option α → Txn α
  | none => throw (.notFound text)
  | some row => pure row

/-- `_check_expected`. -/
def checkExpected (expected : Option Nat) (actual : Nat) : Txn PUnit :=
  raiseIf (expected.any (· ≠ actual)) (.conflict ("head revision conflict: expected " ++
    toString (expected.getD 0) ++ ", got " ++ toString actual))

/-- `_check_owner`: of a valid owner the namespace names the dataset. -/
def checkOwner (version : MemoryVersion) (datasetId : Option Id) : Txn PUnit :=
  raiseIf (datasetId.any (· ≠ version.owner.datasetId))
    (.conflict "unknown_owner: version is outside the requested dataset")

/-! ### Writing -/

/-- `_next_cursor`. -/
def nextCursor : Txn Nat := do
  let ledger ← get
  raiseIf (maxCursor ≤ ledger.publicationCursor) (.conflict "publication cursor exhausted")
  set { ledger with publicationCursor := ledger.publicationCursor + 1 }
  pure (ledger.publicationCursor + 1)

/-- `_head_for_create`. -/
def headForCreate (datasetId recordId : Id) (permissionEpoch : Nat) : Txn MemoryHead := do
  raiseIf (maxRevision < permissionEpoch) .contract
  pure { datasetId, recordId, publishedVersion := none, revision := 0, publicationCursor := 0,
         state := .unpublished, permissionEpoch }

/-- `_insert_head`. -/
def insertHead (head : MemoryHead) : Txn PUnit := do
  let ledger ← get
  match ledger.heads.insert head with
  | none => throw .integrity
  | some heads => set { ledger with heads }

/-- `_insert_version`. -/
def insertVersion (sha256 : String → Digest) (version : MemoryVersion) : Txn PUnit := do
  raiseIf (sha256 version.content ≠ version.ref.contentDigest)
    (.validation "memory version content digest does not match its immutable reference")
  let ledger ← get
  match ledger.versions.insert version with
  | none => throw (.conflict "memory version already exists or violates its immutable identity")
  | some versions => set { ledger with versions }

/-- `INSERT INTO memory_ledger_proposals`; whether there was no such proposal. -/
def insertProposal (proposal : MemoryProposal) : Txn Bool := do
  let ledger ← get
  match ledger.proposals.insert proposal with
  | none => pure false
  | some proposals => do
    set { ledger with proposals }
    pure true

/-- `UPDATE memory_ledger_heads`, of a head that has that revision; whether there was one. -/
def updateHead (next : MemoryHead) (revision : Nat) : Txn Bool := do
  let ledger ← get
  if (ledger.heads.find (headKey next)).any (·.revision = revision) then do
    set { ledger with heads := ledger.heads.set next }
    pure true
  else pure false

/-- `_mark_proposal_state`. -/
def markProposalState (proposal : MemoryProposal) (state : ProposalState) : Txn MemoryProposal := do
  let updated := { proposal with proposalRevision := proposal.proposalRevision + 1, state := state }
  let ledger ← get
  if (ledger.proposals.find proposal.proposalId).any (·.proposalRevision = proposal.proposalRevision) then
    set { ledger with proposals := ledger.proposals.set updated }
  pure updated

/-- `_upsert_tombstone`. -/
def upsertTombstone (tombstone : Tombstone) : Txn PUnit := do
  raiseIf (maxRevision < tombstone.revision) .contract
  let ledger ← get
  set { ledger with tombstones := ledger.tombstones.put tombstone }

/-- `MemoryProposal(..)`. -/
def makeProposal (proposalId : Id) (owner : DatasetOwner) (operation : Operation) (baseHead : MemoryHead)
    (proposedVersion : MemoryVersionRef) (sourceRefs : List SourceRef) (extractorVersion : Id)
    (reason : Reason) : Txn MemoryProposal :=
  if target : owner.datasetId = proposedVersion.datasetId ∧ baseHead.datasetId = proposedVersion.datasetId ∧
      baseHead.recordId = proposedVersion.recordId then
    pure { proposalId, owner, operation, baseHead, proposedVersion, sourceRefs, extractorVersion, reason, target }
  else throw .contract

/-! ### Versions and proposals -/

/-- Whether a head is tombstoned: `head.state in {"deleted", "revoked"}`. -/
def HeadState.isTombstoned (state : HeadState) : Bool := state = .deleted || state = .revoked

/-- `save_version`. -/
def saveVersion (sha256 : String → Digest) (version : MemoryVersion) (datasetId : Option Id)
    (expectedHeadRevision : Option Nat) (permissionEpoch : Nat) (allowVersionGap : Bool) : Txn MemoryVersion := do
  let dataset := version.ref.datasetId
  let record := version.ref.recordId
  checkOwner version datasetId
  let ofRecord ← storedTombstone dataset (some record)
  let ofDataset ← storedTombstone dataset none
  raiseIf (ofRecord.isSome ∨ ofDataset.isSome) (.conflict "record is tombstoned and cannot receive a late version")
  match ← storedVersion dataset record version.ref.version with
  | some existing => do
    raiseIf (existing ≠ version) (.conflict "immutable memory version identity has different content")
    match ← storedHead dataset record with
    | some _ => pure existing
    | none => do
      checkExpected expectedHeadRevision 0
      insertHead (← headForCreate dataset record permissionEpoch)
      pure existing
  | none => do
    match ← storedHead dataset record with
    | none => do
      checkExpected expectedHeadRevision 0
      raiseIf (version.ref.version ≠ 1 ∧ !allowVersionGap) (.conflict "a new memory record must start at version 1")
      insertHead (← headForCreate dataset record permissionEpoch)
      insertVersion sha256 version
      pure version
    | some head => do
      raiseIf head.state.isTombstoned (.conflict "record is tombstoned and cannot receive a late version")
      checkExpected expectedHeadRevision head.revision
      raiseIf (!allowVersionGap ∧ version.ref.version ≠ (← get).maxVersion dataset record + 1)
        (.conflict "memory version must advance")
      insertVersion sha256 version
      pure version

theorem user_id : isId "user" = true := by decide

/-- The arguments of `propose`. The id is the one given, or a new one. -/
structure ProposeRequest where
  version : Option MemoryVersion := none
  proposal : Option MemoryProposal := none
  operation : Option Operation := none
  sourceRefs : Option (List SourceRef) := none
  extractorVersion : Id := ⟨"user", user_id⟩
  reason : Reason := ⟨"explicit user save", by decide⟩
  expectedHeadRevision : Option Nat := none
  proposalId : Id
  permissionEpoch : Nat := 0

/-- The head that a proposal is based on. A record without one gets one. -/
def proposalHead (datasetId recordId : Id) (create : Txn MemoryHead) : Txn MemoryHead := do
  match ← storedHead datasetId recordId with
  | some head => pure head
  | none => do
    let ofRecord ← storedTombstone datasetId (some recordId)
    let ofDataset ← storedTombstone datasetId none
    raiseIf (ofRecord.isSome ∨ ofDataset.isSome) (.conflict "record is tombstoned and cannot receive a proposal")
    let head ← create
    insertHead head
    pure head

/-- The proposal's row, unless it is there already. -/
def submitProposal (built : MemoryProposal) : Txn MemoryProposal := do
  if ← insertProposal built then pure built
  else do
    let existing ← storedProposal built.proposalId
    raiseIf (existing ≠ some built) (.conflict "proposal identity or idempotency key already exists")
    pure built

/-- `propose`, for a version. -/
def proposeVersion (sha256 : String → Digest) (request : ProposeRequest) (version : MemoryVersion) :
    Txn MemoryProposal := do
  let dataset := version.ref.datasetId
  let record := version.ref.recordId
  raiseIf (request.proposal.any fun proposal => proposal.proposedVersion ≠ version.ref)
    (.conflict "proposal target does not match supplied version")
  checkOwner version none
  raiseIf (request.sourceRefs.any (· ≠ version.sources))
    (.conflict "proposal source references must match target memory version")
  raiseIf (request.proposal.any fun proposal =>
      proposal.owner ≠ version.owner || proposal.sourceRefs ≠ version.sources)
    (.conflict "proposal owner or source references do not match target memory version")
  let head ← proposalHead dataset record (headForCreate dataset record request.permissionEpoch)
  raiseIf head.state.isTombstoned (.conflict "record is tombstoned and cannot receive a proposal")
  checkExpected request.expectedHeadRevision head.revision
  match ← storedVersion dataset record version.ref.version with
  | none => do
    raiseIf (version.ref.version ≠ (← get).maxVersion dataset record + 1)
      (.conflict "proposal version must advance")
    insertVersion sha256 version
  | some stored => raiseIf (stored ≠ version) (.conflict "proposal version identity has different immutable content")
  let operation := request.operation.getD (if head.revision = 0 then .create else .modify)
  let built ← makeProposal request.proposalId version.owner operation head version.ref version.sources
    request.extractorVersion request.reason
  submitProposal built

/-- A proposal that is given, for a record that has that head. -/
def proposeAt (request : ProposeRequest) (proposal : MemoryProposal) (head : MemoryHead) : Txn MemoryProposal := do
  raiseIf head.state.isTombstoned (.conflict "record is tombstoned and cannot receive a proposal")
  checkExpected request.expectedHeadRevision head.revision
  raiseIf (proposal.baseHead ≠ head) (.conflict "proposal base head is stale")
  let target ← storedVersion proposal.owner.datasetId proposal.baseHead.recordId proposal.proposedVersion.version
  match target.filter (·.ref = proposal.proposedVersion) with
  | none => throw (.notFound "proposal target version is not stored")
  | some target => do
    raiseIf (proposal.owner ≠ target.owner) (.conflict "proposal owner does not match target memory version")
    raiseIf (proposal.sourceRefs ≠ target.sources)
      (.conflict "proposal source references must match target memory version")
    raiseIf (proposal.state ≠ .pending) (.conflict "only pending proposals can be submitted")
    submitProposal proposal

/-- `propose`, for a proposal whose version is stored. -/
def proposeStored (request : ProposeRequest) (proposal : MemoryProposal) : Txn MemoryProposal := do
  let head ← proposalHead proposal.owner.datasetId proposal.baseHead.recordId (pure proposal.baseHead)
  proposeAt request proposal head

/-- `propose`. -/
def propose (sha256 : String → Digest) (request : ProposeRequest) : Txn MemoryProposal :=
  match request.version, request.proposal with
  | some version, _ => proposeVersion sha256 request version
  | none, some proposal => proposeStored request proposal
  | none, none => throw (.validation "propose requires a memory version or a complete proposal")

/-- What `confirm_proposal` refuses after it has marked the proposal: the mark is committed. -/
def refuseProposal (stored : MemoryProposal) (text : String) : Txn (Except Failure MemoryHead) := do
  let _ ← markProposalState stored .conflict
  pure (.error (.conflict text))

/-- The head that publishes a version. -/
def MemoryHead.publishing (head : MemoryHead) (ref : MemoryVersionRef) (cursor : Nat) : MemoryHead :=
  { head with publishedVersion := some ref, revision := head.revision + 1, publicationCursor := cursor,
              state := .published }

/-- A head that leaves publication. -/
def MemoryHead.ending (head : MemoryHead) (state : HeadState) (cursor : Nat) : MemoryHead :=
  { head with revision := head.revision + 1, publicationCursor := cursor, state := state }

/-- `confirm_proposal`. -/
def confirmProposal (proposalId : Id) (datasetId : Option Id) (expectedHeadRevision permissionEpoch : Option Nat) :
    Txn (Except Failure MemoryHead) := do
  let stored ← found "memory proposal not found" (← storedProposal proposalId)
  raiseIf (datasetId.any (· ≠ stored.owner.datasetId))
    (.conflict "unknown_owner: proposal is outside the requested dataset")
  let head ← found "proposal record head is missing"
    (← storedHead stored.owner.datasetId stored.baseHead.recordId)
  if stored.state = .accepted then do
    raiseIf (head.publishedVersion ≠ some stored.proposedVersion ∨ head.state ≠ .published)
      (.conflict "accepted proposal no longer matches its publication head")
    pure (.ok head)
  else do
    raiseIf (stored.state ≠ .pending) (.conflict "proposal is not pending")
    let expected := expectedHeadRevision.getD stored.baseHead.revision
    if head.revision ≠ expected ∨ head.revision ≠ stored.baseHead.revision then
      refuseProposal stored "head revision conflict"
    else if head.state.isTombstoned then refuseProposal stored "record is tombstoned and cannot be published"
    else do
      let target ← storedVersion stored.owner.datasetId stored.proposedVersion.recordId
        stored.proposedVersion.version
      raiseIf (target.map (·.ref) ≠ some stored.proposedVersion)
        (.notFound "proposal target version is missing or changed")
      if permissionEpoch.any (· ≠ head.permissionEpoch) then refuseProposal stored "permission epoch conflict"
      else do
        let cursor ← nextCursor
        let next := head.publishing stored.proposedVersion cursor
        if ← updateHead next expected then do
          let _ ← markProposalState stored .accepted
          pure (.ok next)
        else refuseProposal stored "head changed during publication"

/-- `reject_proposal`. -/
def rejectProposal (proposalId : Id) (datasetId : Option Id) : Txn MemoryProposal := do
  let stored ← found "memory proposal not found" (← storedProposal proposalId)
  raiseIf (datasetId.any (· ≠ stored.owner.datasetId))
    (.conflict "unknown_owner: proposal is outside the requested dataset")
  if stored.state = .rejected then pure stored
  else do
    raiseIf (stored.state ≠ .pending) (.conflict "proposal is not pending")
    markProposalState stored .rejected

/-- The published version with another content. -/
def MemoryVersion.corrected (current : MemoryVersion) (sha256 : String → Digest) (content : String)
    (sources : Option (List SourceRef)) (now : Instant) : MemoryVersion :=
  { current with
    ref := ⟨current.ref.datasetId, current.ref.recordId, current.ref.version + 1, sha256 content⟩
    content := content
    sources := sources.getD current.sources
    evidence := .userAsserted
    recordedAt := now }

/-- The arguments of `correct`. -/
structure CorrectRequest where
  content : Option String := none
  replacement : Option MemoryVersion := none
  sources : Option (List SourceRef) := none
  reason : Reason := ⟨"explicit user correction", by decide⟩
  expectedHeadRevision : Option Nat := none
  proposalId : Id

/-- `correct`: what it reads and what it proposes are two transactions, with nothing in between here. -/
def correct (sha256 : String → Digest) (now : Instant) (datasetId recordId : Id) (request : CorrectRequest) :
    Txn MemoryProposal := do
  raiseIf (request.content = none ∧ request.replacement = none)
    (.validation "correct requires content or replacement")
  let head ← found "memory head not found" (← storedHead datasetId recordId)
  match head.publishedVersion with
  | none => throw (.conflict "cannot correct a record without a published version")
  | some ref => do
    let current ← found "memory version not found" (← storedVersion datasetId recordId ref.version)
    raiseIf (request.expectedHeadRevision.any (· ≠ head.revision)) (.conflict "head revision conflict before correction")
    let next ← match request.replacement, request.content with
      | some replacement, _ => do
        raiseIf (replacement.owner.datasetId ≠ datasetId ∨ replacement.ref.recordId ≠ recordId)
          (.conflict "replacement is outside the requested dataset record")
        raiseIf (replacement.ref.version ≠ current.ref.version + 1)
          (.conflict "replacement version must immediately follow the published version")
        pure replacement
      | none, some content => do
        raiseIf (isBlank content) (.validation "correction content is blank")
        let corrected := current.corrected sha256 content request.sources now
        raiseIf (!corrected.readable) (.validation "invalid memory version")
        pure corrected
      | none, none => throw (.validation "correct requires content or replacement")
    propose sha256 {
      version := some next
      operation := some .modify
      sourceRefs := request.sources
      reason := request.reason
      expectedHeadRevision := some head.revision
      proposalId := request.proposalId
      permissionEpoch := head.permissionEpoch }

end Operant.Memory
