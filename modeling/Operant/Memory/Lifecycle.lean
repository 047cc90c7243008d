import Operant.Memory.Ledger

/-! The rest of what writes a ledger: verified promotion, copies of a dataset, reviews, the end of records and
datasets, legacy imports, and the two callers that write the ledger's rows themselves.

`Reachable` is what any sequence of them comes to, whatever they are called with. -/
namespace Operant.Memory
open Operant.Calls Operant.Calls.Transaction Operant.Tables

variable (sha256 : String → Digest)

/-! ### Promotion -/

/-- The arguments of `promote_verified`; the proposal's id is made of the request's fingerprint. -/
structure PromoteRequest where
  candidateRef : MemoryVersionRef
  targetScope : Scope
  targetCommitRef : String
  targetTreeDigest : Digest
  verificationArtifactRefs : List String
  expectedHeadRevision : Option Nat := none
  permissionEpoch : Option Nat := none
  reason : Reason
  proposalId : Id

/-- `target_commit_ref` without `git:`. -/
def commitOf (targetCommitRef : String) : List Char :=
  let text := targetCommitRef.toList
  if ['g', 'i', 't', ':'].isPrefixOf text then text.drop 4 else text

/-- A candidate as the next version of its record. -/
def MemoryVersion.promoted (candidate : MemoryVersion) (request : PromoteRequest) (version : Nat) (now : Instant) :
    MemoryVersion :=
  { candidate with
    ref := { request.candidateRef with version }
    kind := .project
    scope := request.targetScope
    conditions := { candidate.conditions with
      commitRef := some (.ofList ("git:".toList ++ commitOf request.targetCommitRef))
      treeDigest := some request.targetTreeDigest
      verifiedAt := some now }
    recordedAt := now }

/-- The publication of a candidate, in `promote_verified`. -/
def promoteCandidate (now : Instant) (request : PromoteRequest) (candidate : MemoryVersion) (head : MemoryHead) :
    Txn (MemoryVersion × MemoryHead) := do
  let ref := request.candidateRef
  raiseIf head.state.isTombstoned (.conflict "record is tombstoned and cannot be promoted")
  checkExpected request.expectedHeadRevision head.revision
  raiseIf (request.permissionEpoch.any (· ≠ head.permissionEpoch))
    (.conflict "permission epoch conflict during promotion")
  raiseIf (head.publishedVersion = some ref) (.conflict "Writer candidate is already the publication head")
  let promoted := candidate.promoted request ((← get).maxVersion ref.datasetId ref.recordId + 1) now
  insertVersion sha256 promoted
  let proposal ← makeProposal request.proposalId promoted.owner .merge head promoted.ref promoted.sources
    ⟨"b2-6-sharing", by decide⟩ request.reason
  let isNew ← insertProposal proposal
  raiseIf (!isNew) .integrity
  let next := head.publishing promoted.ref (← nextCursor)
  let updated ← updateHead next head.revision
  raiseIf (!updated) (.conflict "head changed during verified promotion")
  let _ ← markProposalState proposal .accepted
  pure (promoted, next)

/-- `promote_verified`. -/
def promoteVerified (now : Instant) (request : PromoteRequest) : Txn (MemoryVersion × MemoryHead) := do
  let ref := request.candidateRef
  let commit := commitOf request.targetCommitRef
  raiseIf (request.verificationArtifactRefs.all (· = "")) (.validation "verified promotion requires evidence references")
  raiseIf (commit.length < 7 ∨ 128 < commit.length ∨ commit.any isSpace)
    (.validation "verified promotion commit identity is invalid")
  let candidate ← storedVersion ref.datasetId ref.recordId ref.version
  match candidate.filter (·.ref = ref) with
  | none => throw (.notFound "Writer memory candidate is unavailable")
  | some candidate => do
    raiseIf (!candidate.scope.isRun) (.conflict "only a Run-scoped Writer candidate can be promoted")
    raiseIf (!(request.targetScope.isWorkspace || request.targetScope.isRun))
      (.validation "project promotion requires Workspace or Run scope")
    match ← storedHead ref.datasetId ref.recordId with
    | some head => promoteCandidate sha256 now request candidate head
    | none => do
      let head ← headForCreate ref.datasetId ref.recordId (request.permissionEpoch.getD 0)
      insertHead head
      promoteCandidate sha256 now request candidate head

/-! ### Copies -/

/-- A version as the destination has it. -/
def MemoryVersion.copied (source : MemoryVersion) (owner : DatasetOwner) (targetScope : Option Scope) :
    MemoryVersion :=
  { source with
    ref := { source.ref with datasetId := owner.datasetId }
    owner := owner
    scope := targetScope.getD source.scope }

def copyVersion (owner : DatasetOwner) (targetScope : Option Scope) (row : MemoryVersion) : Txn MemoryVersionRef := do
  raiseIf (!row.readable) .contract
  let copied := row.copied owner targetScope
  match ← storedVersion owner.datasetId copied.ref.recordId copied.ref.version with
  | some existing => do
    raiseIf (existing ≠ copied) (.conflict "destination memory version identity differs")
    pure copied.ref
  | none => do
    insertVersion sha256 copied
    pure copied.ref

/-- A head as the destination has it. -/
def MemoryHead.copied (source : MemoryHead) (datasetId : Id) (cursor : Nat) : MemoryHead :=
  { source with
    datasetId := datasetId
    publishedVersion := source.publishedVersion.map fun ref => { ref with datasetId := datasetId }
    publicationCursor := cursor }

/-- A head that is copied gets a cursor of its own if it publishes. -/
def copiedCursor (row : MemoryHead) : Txn Nat :=
  if row.state = .published then nextCursor else pure row.publicationCursor

/-- The copy of a head, unless it is there. -/
def placeHead (owner : DatasetOwner) (row : MemoryHead) (cursor : Nat) : Txn PUnit := do
  let copied := row.copied owner.datasetId cursor
  match ← storedHead owner.datasetId row.recordId with
  | none => insertHead copied
  | some existing => raiseIf (existing ≠ copied) (.conflict "destination memory head identity differs")

/-- The head of a record some of whose versions were copied. -/
def copyHead (owner : DatasetOwner) (versions : List MemoryVersion) (row : MemoryHead) : Txn PUnit := do
  raiseIf (!row.readable) .contract
  if versions.all (·.ref.recordId ≠ row.recordId) then pure ⟨⟩
  else placeHead owner row (← copiedCursor row)

def copyTombstone (owner : DatasetOwner) (row : Tombstone) : Txn PUnit := do
  let copied := { row with datasetId := owner.datasetId }
  match ← storedTombstone owner.datasetId row.recordId with
  | none => upsertTombstone copied
  | some existing => raiseIf (existing ≠ copied) (.conflict "destination dataset tombstone identity differs")

/-- `ORDER BY record_id, version`. -/
def beforeVersion (a b : MemoryVersion) : Prop :=
  a.ref.recordId < b.ref.recordId ∨ (a.ref.recordId = b.ref.recordId ∧ a.ref.version ≤ b.ref.version)

instance : DecidableRel beforeVersion := fun _ _ => inferInstanceAs (Decidable (_ ∨ _))

/-- `copy_dataset`. -/
def copyDataset (source : Id) (owner : DatasetOwner) (targetScope : Option Scope) :
    Txn (List MemoryVersionRef) := do
  raiseIf (source = owner.datasetId) (.validation "dataset copy requires distinct source and destination IDs")
  let ledger ← get
  let versions := (ledger.versions.rows.filter (·.ref.datasetId = source)).insertionSort beforeVersion
  let refs ← versions.mapM (copyVersion sha256 owner targetScope)
  let heads := (ledger.heads.rows.filter (·.datasetId = source)).insertionSort (·.recordId ≤ ·.recordId)
  heads.forM (copyHead owner versions)
  (ledger.tombstones.rows.filter (·.datasetId = source)).forM (copyTombstone owner)
  pure refs

/-! ### Reviews -/

/-- An entry of a review: `ExactProposal`. -/
structure ExactProposal where
  proposalId : Id
  proposalRevision : Nat
  proposedVersion : MemoryVersionRef
  baseHeadRevision : Nat
  deriving DecidableEq

/-- The check of one entry, after those before it. -/
def reviewEntry (accept : Bool) (datasetId : Option Id) (permissionEpoch : Option Nat)
    (before : List (MemoryProposal × MemoryHead)) (entry : ExactProposal) :
    Txn (List (MemoryProposal × MemoryHead)) := do
  let stored ← found "memory proposal not found" (← storedProposal entry.proposalId)
  raiseIf (before.head?.any fun first => first.1.owner.datasetId ≠ stored.owner.datasetId)
    (.conflict "proposal review batch must use one dataset")
  raiseIf (datasetId.any (· ≠ stored.owner.datasetId))
    (.conflict "unknown_owner: proposal is outside the requested dataset")
  raiseIf (stored.proposalRevision ≠ entry.proposalRevision) (.conflict "proposal revision conflict")
  raiseIf (stored.proposedVersion ≠ entry.proposedVersion) (.conflict "proposed version reference conflict")
  raiseIf (stored.baseHead.revision ≠ entry.baseHeadRevision) (.conflict "base head revision conflict")
  raiseIf (stored.state ≠ .pending) (.conflict "proposal is not pending")
  raiseIf (before.any fun other => other.1.baseHead.recordId = stored.baseHead.recordId)
    (.conflict "proposal review batch contains multiple proposals for one record")
  let head ← found "proposal record head is missing"
    (← storedHead stored.owner.datasetId stored.baseHead.recordId)
  raiseIf (accept ∧ head.revision ≠ entry.baseHeadRevision) (.conflict "head revision conflict")
  raiseIf (accept ∧ head.state.isTombstoned) (.conflict "record is tombstoned and cannot be reviewed")
  raiseIf (permissionEpoch.any (· ≠ head.permissionEpoch)) (.conflict "permission epoch conflict")
  let target ← storedVersion stored.proposedVersion.datasetId stored.proposedVersion.recordId
    stored.proposedVersion.version
  raiseIf (target.map (·.ref) ≠ some stored.proposedVersion) (.notFound "proposal target version is missing or changed")
  pure (before ++ [(stored, head)])

/-- The acceptance of a checked entry. -/
def acceptEntry (entry : MemoryProposal × MemoryHead) : Txn PUnit := do
  let next := entry.2.publishing entry.1.proposedVersion (← nextCursor)
  let updated ← updateHead next entry.2.revision
  raiseIf (!updated) (.conflict "head changed during proposal review")
  let _ ← markProposalState entry.1 .accepted
  pure ⟨⟩

/-- `review_proposals_batch`, and what its guard writes of the ledger, if it has one. -/
def reviewProposalsBatch (accept : Bool) (datasetId : Option Id) (permissionEpoch : Option Nat)
    (guard : List MemoryProposal → Txn PUnit) (entries : List ExactProposal) : Txn PUnit := do
  raiseIf (entries = []) (.validation "proposal review batch cannot be empty")
  raiseIf (¬(entries.map (·.proposalId)).Nodup) (.conflict "proposal review batch contains a duplicate proposal")
  let checked ← entries.foldlM (reviewEntry accept datasetId permissionEpoch) []
  raiseIf (checked.head?.map (·.1.owner.datasetId) ≠ datasetId.or (entries.head?.map (·.proposedVersion.datasetId)))
    (.conflict "proposal review dataset does not match its target")
  guard (checked.map (·.1))
  checked.forM fun entry =>
    if accept then acceptEntry entry
    else do
      let _ ← markProposalState entry.1 .rejected
      pure ⟨⟩

/-- What the guard of a governance review writes: the heads that are replaced become inactive. -/
def retireHeads (heads : List MemoryHead) : Txn PUnit :=
  heads.forM fun head => do
    let _ ← updateHead (head.ending .inactive (← nextCursor)) head.revision
    pure ⟨⟩

/-- The guard of `GovernanceService.review`: heads that publish what a relation names. -/
def retireRelated (targets : List MemoryVersionRef) (_ : List MemoryProposal) : Txn PUnit := do
  let heads ← targets.mapM fun target => do
    let head ← storedHead target.datasetId target.recordId
    match head.filter fun head => head.publishedVersion = some target && head.state = .published with
    | none => throw (.conflict "relationship target changed")
    | some head => pure head
  retireHeads heads

/-! ### The end of records -/

/-- `deactivate`. -/
def deactivate (datasetId recordId : Id) (expectedHeadRevision permissionEpoch : Option Nat) (revoke : Bool) :
    Txn MemoryHead := do
  let state : HeadState := if revoke then .revoked else .inactive
  let head ← found "memory head not found" (← storedHead datasetId recordId)
  if head.state = state then pure head
  else do
    raiseIf (head.state = .deleted) (.conflict "deleted record cannot be reactivated or revoked")
    checkExpected expectedHeadRevision head.revision
    raiseIf (permissionEpoch.any (· ≠ head.permissionEpoch)) (.conflict "permission epoch conflict")
    let cursor ← nextCursor
    let next := head.ending state cursor
    let updated ← updateHead next head.revision
    raiseIf (!updated) (.conflict "head changed during deactivation")
    if revoke then do
      upsertTombstone ⟨datasetId, some recordId, .revoked, next.revision, cursor⟩
      pure next
    else pure next

/-- A record's pending proposals are cancelled. -/
def cancelPending (datasetId recordId : Id) : Txn PUnit := do
  let pending := (← get).proposals.rows.filter fun proposal =>
    proposal.owner.datasetId = datasetId && proposal.baseHead.recordId = recordId && proposal.state = .pending
  pending.forM fun proposal => do
    raiseIf (!proposal.readable) .contract
    let _ ← markProposalState proposal .cancelled
    pure ⟨⟩

/-- A head and its record's proposals and tombstone, when the record is deleted. -/
def deleteHead (head : MemoryHead) : Txn Tombstone := do
  let cursor ← nextCursor
  let next := head.ending .deleted cursor
  let updated ← updateHead next head.revision
  raiseIf (!updated) (.conflict "head changed during deletion")
  cancelPending head.datasetId head.recordId
  let tombstone : Tombstone := ⟨head.datasetId, some head.recordId, .deleted, next.revision, cursor⟩
  upsertTombstone tombstone
  pure tombstone

/-- `delete_record`. -/
def deleteRecord (datasetId recordId : Id) (expectedHeadRevision permissionEpoch : Option Nat) : Txn Tombstone := do
  match ← storedHead datasetId recordId with
  | none => found "memory head not found" (← storedTombstone datasetId (some recordId))
  | some head => do
    checkExpected expectedHeadRevision head.revision
    raiseIf (permissionEpoch.any (· ≠ head.permissionEpoch)) (.conflict "permission epoch conflict")
    deleteHead head

/-- `delete_dataset`: its heads, and a marker for the dataset. -/
def deleteDataset (datasetId : Id) : Txn PUnit := do
  let heads := ((← get).heads.rows.filter (·.datasetId = datasetId)).insertionSort (·.recordId ≤ ·.recordId)
  heads.forM fun head => do
    raiseIf (!head.readable) .contract
    if head.state = .deleted then pure ⟨⟩
    else do
      let _ ← deleteHead head
      pure ⟨⟩
  match ← storedTombstone datasetId none with
  | some _ => pure ⟨⟩
  | none => do
    let rows := (← get).tombstones.rows.filter (·.datasetId = datasetId)
    let revision := (rows.map (·.revision)).foldr max 0 + 1
    upsertTombstone ⟨datasetId, none, .deleted, revision, ← nextCursor⟩

/-- The purge of a dataset, in `_finish_delete`. -/
def purge (datasetId : Id) : Txn PUnit := do
  let ledger ← get
  set { ledger with
    versions := ledger.versions.delete (·.ref.datasetId = datasetId)
    heads := ledger.heads.delete (·.datasetId = datasetId)
    proposals := ledger.proposals.delete (·.owner.datasetId = datasetId)
    legacyImports := ledger.legacyImports.delete (·.datasetId = datasetId) }

/-! ### Legacy imports -/

/-- What is read of an old record. -/
structure LegacyRecord where
  recordId : Id
  version : Nat
  sourceKey : String
  bodyHash : Digest
  kind : MemoryKind
  scope : Scope
  roleIds : List Id
  content : String
  recordedAt : Instant

def LegacyRecord.toVersion (record : LegacyRecord) (owner : DatasetOwner) : MemoryVersion where
  ref := ⟨owner.datasetId, record.recordId, record.version, sha256 record.content⟩
  owner := owner
  kind := record.kind
  contentType := if record.kind = .episodic then .episode else .fact
  scope := record.scope
  roleIds := record.roleIds
  content := record.content
  sources := []
  evidence := .legacyUnverified
  retentionPolicyId := ⟨"legacy", by decide⟩
  conditions := { validFrom := record.recordedAt }
  recordedAt := record.recordedAt

/-- A head for an imported record that has none. -/
def importHead (owner : DatasetOwner) (permissionEpoch : Nat) (recordId : Id) : Txn PUnit := do
  match ← storedHead owner.datasetId recordId with
  | some _ => pure ⟨⟩
  | none => insertHead (← headForCreate owner.datasetId recordId permissionEpoch)

/-- An imported version, unless it is there. -/
def importVersion (version : MemoryVersion) : Txn PUnit := do
  match ← storedVersion version.ref.datasetId version.ref.recordId version.ref.version with
  | none => insertVersion sha256 version
  | some existing => raiseIf (existing ≠ version) (.conflict "legacy record/version has different immutable content")

/-- `INSERT INTO memory_ledger_legacy_imports`. -/
def noteImport (row : LegacyImport) : Txn PUnit := do
  let ledger ← get
  match ledger.legacyImports.insert row with
  | none => throw .integrity
  | some legacyImports => set { ledger with legacyImports }

/-- One old record: the record's id, when a version of it is there now. -/
def importRecord (owner : DatasetOwner) (permissionEpoch : Nat) (record : LegacyRecord) : Txn (Option Id) := do
  match (← get).legacyImports.find (owner.datasetId, record.sourceKey) with
  | some row => do
    raiseIf (row.bodyHash ≠ record.bodyHash) (.conflict "legacy source key was reused for different content")
    let stored ← storedVersion owner.datasetId row.recordId row.version
    pure (stored.map (·.ref.recordId))
  | none => do
    let version := record.toVersion sha256 owner
    raiseIf (isBlank record.content) (.validation "legacy memory content is blank")
    raiseIf (!version.readable) .contract
    importHead owner permissionEpoch record.recordId
    importVersion sha256 version
    noteImport ⟨owner.datasetId, record.sourceKey, record.recordId, record.version, record.bodyHash⟩
    pure (some record.recordId)

/-- The latest version of an imported record is proposed, unless something is. -/
def proposeImported (owner : DatasetOwner) (newId : Id → Id) (recordId : Id) : Txn PUnit := do
  match ← storedHead owner.datasetId recordId with
  | none => pure ⟨⟩
  | some head => do
    let ledger ← get
    match ← storedVersion owner.datasetId recordId (ledger.maxVersion owner.datasetId recordId) with
    | none => pure ⟨⟩
    | some latest =>
      if ledger.proposals.rows.any fun proposal => proposal.owner.datasetId = owner.datasetId &&
          proposal.baseHead.recordId = recordId && proposal.state = .pending then pure ⟨⟩
      else do
        let proposal ← makeProposal (newId recordId) owner .create head latest.ref [] ⟨"legacy", by decide⟩
          ⟨"legacy migration requires explicit user review", by decide⟩
        let isNew ← insertProposal proposal
        raiseIf (!isNew) .integrity

/-- `migrate_legacy`. -/
def migrateLegacy (owner : DatasetOwner) (permissionEpoch : Nat) (newId : Id → Id) (records : List LegacyRecord) :
    Txn PUnit := do
  let ofDataset ← storedTombstone owner.datasetId none
  raiseIf ofDataset.isSome (.conflict "dataset is tombstoned and cannot receive legacy data")
  let imported ← records.mapM (importRecord sha256 owner permissionEpoch)
  (imported.reduceOption.dedup.insertionSort (· ≤ ·)).forM (proposeImported owner newId)

/-! ### Rows that callers write -/

/-- A candidate of a record that has that head. -/
def storeCandidateAt (version : MemoryVersion) (maintenance : Bool) (operation : Operation) (extractorVersion : Id)
    (reason : Reason) (proposalId : Id) (head : MemoryHead) : Txn MemoryProposal := do
  match ← storedVersion version.ref.datasetId version.ref.recordId version.ref.version with
  | none => insertVersion sha256 version
  | some stored =>
    raiseIf (maintenance ∨ stored ≠ version) (.conflict "immutable memory version identity has different content")
  let proposal ← makeProposal proposalId version.owner operation head version.ref version.sources extractorVersion reason
  let isNew ← insertProposal proposal
  raiseIf (!isNew) (.conflict "proposal identity or idempotency key already exists")
  pure proposal

/-- A candidate of a bounded extraction, in `GovernanceService`'s maintenance commit, or of a remote upload. -/
def storeCandidate (maintenance : Bool) (version : MemoryVersion) (expectedHeadRevision : Option Nat)
    (permissionEpoch : Nat) (operation : Operation) (extractorVersion : Id) (reason : Reason) (proposalId : Id) :
    Txn MemoryProposal := do
  let dataset := version.ref.datasetId
  let record := version.ref.recordId
  match ← storedHead dataset record with
  | some head => do
    raiseIf head.state.isTombstoned (.conflict "record is tombstoned and cannot receive a late version")
    let latest := (← get).maxVersion dataset record
    raiseIf (maintenance ∧ head.revision ≠ 0) (.conflict "maintenance target head changed")
    raiseIf (!maintenance ∧ expectedHeadRevision.any (· ≠ head.revision)) (.conflict "head revision conflict")
    raiseIf (!maintenance ∧ version.ref.version ≠ latest + 1) (.conflict "memory version must advance")
    storeCandidateAt sha256 version maintenance operation extractorVersion reason proposalId head
  | none => do
    let ofRecord ← storedTombstone dataset (some record)
    let ofDataset ← storedTombstone dataset none
    -- only an upload asks for tombstones
    raiseIf (!maintenance ∧ (ofRecord.isSome ∨ ofDataset.isSome))
      (.conflict "record is tombstoned and cannot receive a late version")
    raiseIf (version.ref.version ≠ 1) (.conflict "a new memory record must start at version 1")
    let head ← headForCreate dataset record permissionEpoch
    insertHead head
    storeCandidateAt sha256 version maintenance operation extractorVersion reason proposalId head

/-! ### Runs -/

/-- A transaction that commits. -/
inductive Step : Ledger → Ledger → Prop
  | save {s t v} (version dataset expected epoch gap)
      (h : (saveVersion sha256 version dataset expected epoch gap).run s = .ok (v, t)) : Step s t
  | propose {s t p} (request) (h : (propose sha256 request).run s = .ok (p, t)) : Step s t
  | correct {s t p} (now dataset record request) (h : (correct sha256 now dataset record request).run s = .ok (p, t)) :
      Step s t
  | confirm {s t r} (id dataset expected epoch) (h : (confirmProposal id dataset expected epoch).run s = .ok (r, t)) :
      Step s t
  | reject {s t p} (id dataset) (h : (rejectProposal id dataset).run s = .ok (p, t)) : Step s t
  | promote {s t r} (now request) (h : (promoteVerified sha256 now request).run s = .ok (r, t)) : Step s t
  | copy {s t r} (source owner scope) (h : (copyDataset sha256 source owner scope).run s = .ok (r, t)) : Step s t
  | review {s t r} (accept dataset epoch targets entries)
      (h : (reviewProposalsBatch accept dataset epoch (retireRelated targets) entries).run s = .ok (r, t)) : Step s t
  | deactivate {s t r} (dataset record expected epoch revoke)
      (h : (deactivate dataset record expected epoch revoke).run s = .ok (r, t)) : Step s t
  | delete {s t r} (dataset record expected epoch) (h : (deleteRecord dataset record expected epoch).run s = .ok (r, t)) :
      Step s t
  | deleteDataset {s t r} (dataset) (h : (deleteDataset dataset).run s = .ok (r, t)) : Step s t
  | purge {s t r} (dataset) (h : (purge dataset).run s = .ok (r, t)) : Step s t
  | migrate {s t r} (owner epoch newId records) (h : (migrateLegacy sha256 owner epoch newId records).run s = .ok (r, t)) :
      Step s t
  | candidate {s t p} (maintenance version expected epoch operation extractor reason id)
      (h : (storeCandidate sha256 maintenance version expected epoch operation extractor reason id).run s = .ok (p, t)) :
      Step s t

/-- What a new ledger can come to. -/
def Reachable : Ledger → Prop := Relation.ReflTransGen (Step sha256) .empty

end Operant.Memory
