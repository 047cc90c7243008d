import Operant.Context.References

/-! Large tool results become artifacts: `PersistentContextComposer._fold_large_tool_results`.

The messages that are sent are those of the history, made safe, with others put in between. A tool
result is paired with the last message of the history that has its id, and the artifact holds that
one's body. -/
namespace Operant.Context
open Operant.Python Operant.Security

/-! ### Artifacts -/

/-- The rows of `artifacts`, and the blobs by their hashes. Blobs are the texts they hold. -/
structure ArtifactStore where
  rows : List Artifact := []
  blobs : Dict String := []
  maxSizeBytes : Nat
  ids_nodup : (rows.map (·.id)).Nodup := by decide

inductive FoldError where
  /-- `ArtifactStoreError`. -/
  | artifact (message : String)
  | permission (message : String)
  | composition (message : String)
  /-- `ValidationError`. -/
  | validation
  deriving DecidableEq

/-- The libraries, and new names of artifacts. -/
structure Writer extends Libraries where
  newId : List String → String
  newId_fresh : ∀ ids, newId ids ∉ ids

namespace ArtifactStore
variable (store : ArtifactStore)

/-- What an artifact holds. -/
def bytes? (id : String) : Option String :=
  (store.rows.find? (·.id = id)).bind fun row => store.blobs.lookup row.contentHash

def ids : List String := store.rows.map (·.id)

end ArtifactStore

namespace Writer
variable (writer : Writer) (store : ArtifactStore)

/-- `verify`. -/
def verifies (hash : String) (size : Nat) : Bool :=
  (store.blobs.lookup hash).any fun blob => writer.sha256 blob = hash && blob.utf8ByteSize = size

/-- `put_bytes`: a blob that is there is inspected, and stays. -/
def putBytes (content : String) : Except FoldError (Dict String) :=
  if store.maxSizeBytes < content.utf8ByteSize then
    .error (.artifact "artifact exceeds configured size limit")
  else if store.blobs.has (writer.sha256 content) then
    if writer.verifies store (writer.sha256 content) content.utf8ByteSize then .ok store.blobs
    else .error (.artifact "artifact content does not match its metadata")
  else .ok (store.blobs.set (writer.sha256 content) content)

/-- The row of a new artifact. -/
def newArtifact (content : String) : Artifact where
  id := writer.newId store.ids
  cursor := some (store.rows.length + 1)
  contentHash := writer.sha256 content
  mediaType := "text/plain; charset=utf-8"
  sizeBytes := content.utf8ByteSize
  sensitivity := .normal

def register (content : String) (blobs : Dict String) : ArtifactStore where
  rows := store.rows ++ [writer.newArtifact store content]
  blobs := blobs
  maxSizeBytes := store.maxSizeBytes
  ids_nodup := by
    rw [List.map_append, List.map_singleton, List.nodup_append]
    refine ⟨store.ids_nodup, List.nodup_singleton _, fun id hid other hother heq => ?_⟩
    have hnew : id = writer.newId store.ids := heq.trans (List.mem_singleton.mp hother)
    exact writer.newId_fresh store.ids (hnew ▸ hid)

/-- `_write_tool_result_artifact`. -/
def writeToolResultArtifact (content : String) : Except FoldError (Artifact × ArtifactStore) :=
  match store.rows.find? (·.contentHash = writer.sha256 content) with
  | some existing =>
    if existing.sensitivity ≠ .normal then
      .error (.permission "existing sensitive Artifact cannot be reused as a normal Tool Result Stub")
    else if writer.verifies store existing.contentHash existing.sizeBytes then .ok (existing, store)
    else .error (.artifact "artifact content does not match its metadata")
  | none => do
    let blobs ← writer.putBytes store content
    return (writer.newArtifact store content, writer.register store content blobs)

end Writer

/-! ### Messages -/

namespace Libraries
variable (lib : Libraries)

/-- `_safe_arguments_json`. -/
def safeArgumentsJson (arguments : String) : String :=
  match lib.loads arguments with
  | none => lib.redactPublicText 200000 arguments
  | some parsed =>
    lib.sortedJson (lib.redactPublicData { maxChars := 200000, maxBytes := 200000, maxItems := 10000 } parsed)

/-- `_safe_message`. -/
def safeMessage (message : Message) : Message :=
  { message with
    content := message.content.map (lib.redactPublicText 200000)
    toolCalls := message.toolCalls.map fun call =>
      { call with argumentsJson := lib.safeArgumentsJson call.argumentsJson }
    calls := fun h => by rw [message.calls h, List.map_nil] }

end Libraries

/-- A message that is sent: one of the history, or one that was put in between. -/
inductive Slot where
  | history (message : Message)
  | inserted (message : Message) (user : message.role = .user)

namespace Slot

def safe (lib : Libraries) : Slot → Message
  | .history message => lib.safeMessage message
  | .inserted message _ => message

def original : Slot → Option Message
  | .history message => some message
  | .inserted _ _ => none

end Slot

/-- `ToolResultStub`. -/
structure ToolResultStub where
  artifactId : String
  toolCallId : String
  contentHash : String
  originalSize : Nat
  storedSize : Nat
  summary : String

namespace ToolResultStub

def dump (stub : ToolResultStub) : Value :=
  .dict [("artifact_id", .str stub.artifactId), ("tool_call_id", .str stub.toolCallId),
    ("content_hash", .str stub.contentHash), ("original_size", .int stub.originalSize),
    ("stored_size", .int stub.storedSize), ("summary", .str stub.summary),
    ("fetch_capability", .str "context_reference_inline")]

/-- The limits of the fields. -/
def isValid (stub : ToolResultStub) : Bool :=
  [stub.artifactId, stub.toolCallId].all (fun id => 1 ≤ id.toList.length && id.toList.length ≤ 300) &&
    isHash stub.contentHash && stub.summary.toList.length ≤ 500

end ToolResultStub

/-- A reference to an artifact. -/
structure ArtifactSource where
  sourceId : String
  cursor : Nat
  contentHash : String
  deriving DecidableEq

/-- The policy of the composer: `ceil(tokens * ratio)` is computed in floats. -/
structure FoldPolicy where
  minimumToolResultArtifactTokens : Nat
  share : Int → Int

def FoldPolicy.threshold (policy : FoldPolicy) (available : Int) : Int :=
  max policy.minimumToolResultArtifactTokens (policy.share available)

/-- What becomes of a message, and what is recorded of it. -/
structure Folded where
  message : Message
  stub : Option (ToolResultStub × ArtifactSource) := none

namespace Writer
variable (writer : Writer) (originals : List Message) (threshold : Int)

/-- `redact_public_text(content, max_chars=2_000_000)`. -/
def storedContent (message : Message) : String := writer.redactPublicText 2000000 (message.content.getD "")

/-- A message whose body becomes an artifact. -/
def isLarge (message : Message) : Bool :=
  message.role = .tool && message.content.getD "" ≠ "" &&
    decide (threshold ≤ ceilDiv4 (writer.storedContent message).utf8ByteSize)

/-- `original_tools[tool_call_id]`: of the messages with one id the last stays in the dict. -/
def originalTool (toolCallId : Option String) : Option Message :=
  originals.reverse.find? fun message => message.role = .tool && message.toolCallId = toolCallId

/-- The message that a safe one is paired with. -/
def paired (safe : Message) : Message :=
  if safe.role = .tool then (originalTool originals safe.toolCallId).getD safe else safe

def stub (original : Message) (artifact : Artifact) : ToolResultStub where
  artifactId := artifact.id
  toolCallId := original.toolCallId.getD ""
  contentHash := artifact.contentHash
  originalSize := (original.content.getD "").utf8ByteSize
  storedSize := artifact.sizeBytes
  summary := writer.redactPublicText 240 (writer.storedContent original)

def stubText (stub : ToolResultStub) : String :=
  "Large Tool Result stored as a recoverable Artifact. The omitted body is not present in this message.\n" ++
    .ofList ((writer.dumps stub.dump).getD [])

/-- One round of the loop. -/
def foldOne (store : ArtifactStore) (safe : Message) : Except FoldError (Folded × ArtifactStore) :=
  let original := paired originals safe
  if !writer.isLarge threshold original then .ok ({ message := safe }, store)
  else do
    let stored := writer.storedContent original
    let (artifact, after) ← writer.writeToolResultArtifact store stored
    match artifact.cursor with
    | none => .error (.composition "Tool Result Artifact writer returned inconsistent safe metadata")
    | some cursor =>
      if artifact.sensitivity ≠ .normal ∨ artifact.contentHash ≠ writer.sha256 stored ∨
          artifact.sizeBytes ≠ stored.utf8ByteSize then
        .error (.composition "Tool Result Artifact writer returned inconsistent safe metadata")
      else
        let stub := writer.stub original artifact
        if !stub.isValid then .error .validation
        else .ok ({
          message := { safe with content := some (writer.stubText stub) }
          stub := some (stub, ⟨artifact.id, cursor, artifact.contentHash⟩) }, after)

def foldFrom : ArtifactStore → List Message → Except FoldError (List Folded × ArtifactStore)
  | store, [] => .ok ([], store)
  | store, safe :: rest => do
    let (folded, after) ← writer.foldOne originals threshold store safe
    let (others, last) ← foldFrom after rest
    return (folded :: others, last)

/-- `_fold_large_tool_results`: the messages, and a stub and a source for each that was folded. -/
def foldLargeToolResults (policy : FoldPolicy) (slots : List Slot) (available : Option Int) (store : ArtifactStore) :
    Except FoldError (List Folded × ArtifactStore) :=
  let safe := slots.map (·.safe writer.toLibraries)
  match available with
  | none => .ok (safe.map fun message => { message }, store)
  | some tokens => writer.foldFrom (slots.filterMap Slot.original) (policy.threshold tokens) store safe

end Writer
end Operant.Context
