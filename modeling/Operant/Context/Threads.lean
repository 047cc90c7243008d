import Operant.Context.Compact
import Operant.Tables.Pages

/-! `_resolve_thread_inline_reference`: the items of a thread, or a compaction of them. -/
namespace Operant.Context
open Operant.Python Operant.Security

/-! ### Items and baselines -/

/-- `ItemType`. -/
inductive ItemType where
  | userMessage
  | agentMessage
  | toolCall
  | toolResultRef
  | artifactRef
  | approvalLink
  | steering
  | systemEvent
  deriving DecidableEq

def ItemType.value : ItemType → String
  | .userMessage => "user_message"
  | .agentMessage => "agent_message"
  | .toolCall => "tool_call"
  | .toolResultRef => "tool_result_ref"
  | .artifactRef => "artifact_ref"
  | .approvalLink => "approval_link"
  | .steering => "steering"
  | .systemEvent => "system_event"

/-- An `Item` as it is stored. -/
structure Item where
  id : String
  turnId : String
  cursor : Nat
  itemType : ItemType
  /-- `payload.model_dump(mode="json")`. -/
  payload : Refs
  /-- The item as JSON, before it has a cursor. -/
  body : String

/-- `ContextBaselineOperation`. -/
inductive BaselineOperation where
  | clear
  | compact
  deriving DecidableEq

/-- A `ContextBaseline`, and the compaction it names. -/
structure Baseline where
  operation : BaselineOperation
  itemCursorEnd : Nat
  compaction : Option Compaction

/-- `list_items`. -/
def listItems (items : List Item) (afterCursor : Option Nat) (limit : Nat) : List Item :=
  Tables.page (·.cursor) (fun item => afterCursor.getD 0 < item.cursor) items limit

/-! ### References -/

/-- `ReferenceIncludeMode`. -/
inductive IncludeMode where
  | inline
  | metadata
  deriving DecidableEq

/-- `ReferenceRequest`. -/
structure ReferenceRequest extends Requested where
  includeMode : IncludeMode := .inline
  maxTokens : Option Nat := none
  userText : Option String := none

/-- `_ResolvedReference`. -/
structure Resolved where
  request : ReferenceRequest
  rendered : Refs
  sourceRefs : List ContextSourceRef
  snapshotHash : String
  cursorStart : Option Nat := none
  cursorEnd : Option Nat := none
  compaction : Option Compaction := none

/-- A thread, and the composer that reads it. -/
structure ThreadReader where
  workspace : String
  sessionId : String
  agentId : String
  threadId : String
  threadCursor : Option Nat
  threadStatus : String
  workspaceRef : Option String
  threadBodyHash : String
  items : List Item
  /-- `get_active_context_baseline`. -/
  baseline : Option Baseline
  threadItemCursorEnd : Option Nat
  countProviderTokens : Bool
  referenceTokenBudget : Nat

def threadPageSize : Nat := 25
def threadItemHardLimit : Nat := 10000
def threadSourceHardBytes : Nat := 32000000
def threadSourceHardTokens : Nat := threadSourceHardBytes / 4
def referenceRenderHardTokens : Nat := 50000
def threadRecentItemLimit : Nat := 20

/-- What has been read of a thread. -/
structure Selection where
  fullItems : List Value := []
  recentItems : List Value := []
  exactItemRefs : List ContextSourceRef := []
  sourceBytes : Nat := 0
  sourceTokens : Nat := 0
  selectedTokens : Nat := 0
  semanticEntries : List Entry := []
  compactRequired : Bool := false

/-- `_item_payload`. -/
def itemPayload (item : Item) : Refs :=
  [("type", .str "item"), ("id", .str item.id), ("cursor", .int item.cursor),
    ("item_type", .str item.itemType.value), ("turn_id", .str item.turnId), ("payload", .dict item.payload)]

/-- What an item says, and who says it. -/
def semanticEntry (item : Item) : Option Entry :=
  if item.itemType ∈ [ItemType.userMessage, .steering, .agentMessage] then
    match item.payload.lookup "text" with
    | some (.str text) =>
      some ⟨item.id, if item.itemType = .agentMessage then "assistant" else "user", text⟩
    | _ => none
  else none

namespace ThreadReader
variable (reader : ThreadReader)

def header : Refs :=
  [("type", .str "thread"), ("id", .str reader.threadId), ("status", .str reader.threadStatus),
    ("workspace_ref", optional reader.workspaceRef)]

def inlineLimit : Nat := min reader.referenceTokenBudget referenceRenderHardTokens

def threadRef : ContextSourceRef where
  sourceType := .thread
  sourceId := reader.threadId
  cursor := reader.threadCursor
  contentHash := reader.threadBodyHash

/-- The compaction of the baseline, where it is one and fits. -/
def baselineCompaction : Except ContextError (Option Compaction) :=
  match reader.baseline with
  | none => .ok none
  | some baseline => match baseline.operation with
    | .clear => .ok none
    | .compact => match baseline.compaction with
      | none => .error .type
      | some compaction =>
        if compaction.sessionId ≠ reader.sessionId ∨ compaction.threadId ≠ some reader.threadId ∨
            compaction.sourceType ≠ .threadItems ∨
            compaction.sourceCursorEnd ≠ baseline.itemCursorEnd then
          .error (.composition "active Context baseline evidence is inconsistent")
        else .ok (some compaction)

end ThreadReader

namespace Libraries
variable (lib : Libraries) (reader : ThreadReader) (request : ReferenceRequest)

/-- `len(_json(value).encode())`; the order of the keys is no matter. -/
def valueBytes (value : Value) : Nat := (lib.jsonBytes value).getD 0

/-- `_reference_tokens(_json(value))`. -/
def referenceTokens (value : Value) : Nat :=
  if reader.countProviderTokens then lib.valueBytes value else ceilDiv4 (lib.valueBytes value)

/-- The JSON of a value with its keys sorted: `_json`. -/
def sortedJson (value : Value) : String :=
  .ofList (((canonical value).bind lib.dumps).getD [])

def sourceTypeValue : CompactionSourceType → String
  | .threadItems => "thread_items"
  | .contextRevisions => "context_revisions"

def contextSourceTypeValue : ContextSourceType → String
  | .session => "session"
  | .agent => "agent"
  | .thread => "thread"
  | .item => "item"
  | .artifact => "artifact"
  | .memory => "memory"
  | .toolSchema => "tool_schema"
  | .compaction => "compaction"

def optionalCursor : Option Nat → Value
  | none => .null
  | some n => .int n

def dumpRef (ref : ContextSourceRef) : Value :=
  .dict [("source_type", .str (contextSourceTypeValue ref.sourceType)), ("source_id", .str ref.sourceId),
    ("cursor", optionalCursor ref.cursor), ("content_hash", .str ref.contentHash)]

/-- `deterministic_compaction_id`. -/
def compactionId (compaction : Compaction) : String :=
  "compaction_" ++ lib.sha256 (lib.sortedJson (.dict [
    ("session_id", .str compaction.sessionId), ("agent_id", .str compaction.agentId),
    ("thread_id", optional compaction.threadId), ("source_type", .str (sourceTypeValue compaction.sourceType)),
    ("source_cursor_start", .int compaction.sourceCursorStart),
    ("source_cursor_end", .int compaction.sourceCursorEnd),
    ("source_snapshot_hash", .str compaction.sourceSnapshotHash), ("summary", compaction.summary.dump),
    ("content_hash", .str compaction.contentHash),
    ("covered_item_refs", .list (compaction.coveredItemRefs.map dumpRef))]))

/-- `_rendered_compaction`. -/
def renderedCompaction (compaction : Compaction) : Value :=
  .dict [("id", .str (lib.compactionId compaction)),
    ("source_type", .str (sourceTypeValue compaction.sourceType)),
    ("source_cursor_start", .int compaction.sourceCursorStart),
    ("source_cursor_end", .int compaction.sourceCursorEnd),
    ("source_snapshot_hash", .str compaction.sourceSnapshotHash), ("summary", compaction.summary.dump)]

def compactionRef (compaction : Compaction) : ContextSourceRef where
  sourceType := .compaction
  sourceId := lib.compactionId compaction
  contentHash := compaction.contentHash

def exceedsRequest : ContextError := .limit "referenced Context exceeds its explicit max_tokens"

/-- `_checked_reference`. -/
def checkedReference (rendered : Refs) (sourceRefs : List ContextSourceRef)
    (cursorStart cursorEnd : Option Nat) (compaction : Option Compaction) : Except ContextError Resolved :=
  if request.maxTokens.any (· < lib.estimateTokens (.dict rendered)) then .error exceedsRequest
  else .ok {
    request := request
    rendered := rendered
    sourceRefs := sourceRefs
    snapshotHash := lib.sha256 (lib.sortedJson (.dict rendered))
    cursorStart := cursorStart
    cursorEnd := cursorEnd
    compaction := compaction }

/-! ### The items -/

/-- `_stored_item_body_hash` and the reference. -/
def itemRef (item : Item) : ContextSourceRef where
  sourceType := .item
  sourceId := item.id
  cursor := some item.cursor
  contentHash := lib.sha256 item.body

/-- The last twenty. -/
def recent (items : List Value) (payload : Value) : List Value :=
  if threadRecentItemLimit < items.length + 1 then (items ++ [payload]).drop 1 else items ++ [payload]

/-- The body of the loop. -/
def addItem (selection : Selection) (item : Item) : Except ContextError Selection :=
  if threadItemHardLimit ≤ selection.exactItemRefs.length then
    .error (.limit "thread Context exceeds the Phase 1B item safety limit")
  else
    let payload := Value.dict (itemPayload item)
    let bytes := selection.sourceBytes + lib.valueBytes payload
    let tokens := selection.sourceTokens + ceilDiv4 (lib.valueBytes payload)
    let selected := selection.selectedTokens + lib.referenceTokens reader payload
    if threadSourceHardBytes < bytes ∨ threadSourceHardTokens < tokens then
      .error (.limit "thread Context exceeds the Phase 1B source byte safety limit")
    else
      let header := lib.referenceTokens reader (.dict (reader.header ++ [("items", .list [])]))
      let estimated := header + selected + selection.exactItemRefs.length + 1
      if request.maxTokens.any (· < estimated) then .error exceedsRequest
      else
        let inline := !selection.compactRequired && decide (estimated ≤ reader.inlineLimit)
        .ok {
          fullItems := if inline then selection.fullItems ++ [payload] else []
          recentItems := recent selection.recentItems payload
          exactItemRefs := selection.exactItemRefs ++ [lib.itemRef item]
          sourceBytes := bytes
          sourceTokens := tokens
          selectedTokens := selected
          semanticEntries := selection.semanticEntries ++ (semanticEntry item).toList
          compactRequired := !inline }

/-- A page; whether an item beyond the end was met. -/
def readPage : List Item → Selection → Except ContextError (Selection × Bool)
  | [], selection => .ok (selection, false)
  | item :: rest, selection =>
    if reader.threadItemCursorEnd.any (· < item.cursor) then .ok (selection, true)
    else do
      let selection ← lib.addItem reader request selection item
      readPage rest selection

/-- The pages behind the cursor, at most so many. -/
def readPages : Nat → Option Nat → Selection → Except ContextError Selection
  | 0, _, selection => .ok selection
  | n + 1, cursor, selection => do
    let page := listItems reader.items cursor threadPageSize
    let read ← lib.readPage reader request page selection
    if read.2 ∨ page.length < threadPageSize then return read.1
    else readPages n ((page.getLast?).map (·.cursor)) read.1

/-! ### The compaction -/

/-- What `source_digest` has been fed. -/
def sourceDigest (refs : List ContextSourceRef) : String :=
  lib.sha256 (.ofList (refs.flatMap fun ref => (lib.sortedJson (.dict [("id", .str ref.sourceId),
    ("cursor", optionalCursor ref.cursor), ("content_hash", .str ref.contentHash)])).toList ++ ['\n']))

def threadSummaryValue (facts : Facts) (count : Nat) : Value :=
  .dict [("active_goal", .str facts.activeGoal), ("constraints", strings facts.constraints),
    ("decisions", strings facts.decisions), ("open_tasks", strings facts.openTasks),
    ("completed_steps", strings ["Canonical Thread contains " ++ toString count ++ " committed Items."]),
    ("workspace_state", .dict [("workspace", .str reader.workspace),
      ("source_notes", strings facts.sourceNotes), ("user_requirements", strings facts.userRequirements)]),
    ("next_actions", strings ["Continue from the bounded recent canonical Item selection."])]

/-- The compaction of a thread that is too large. -/
def threadCompaction (baseline : Option Compaction) (selection : Selection) : Except ContextError Compaction := do
  let refs := ((baseline.map (·.coveredItemRefs)).getD []) ++ selection.exactItemRefs
  let facts ← lib.compactionFacts selection.semanticEntries (baseline.map (·.summary))
  let summary ← lib.safeCompactionSummary (threadSummaryValue reader facts refs.length)
    (min summaryMaxTokens reader.inlineLimit)
  let start := ((refs.head?).bind (·.cursor)).getD 1
  let last := ((refs.getLast?).bind (·.cursor)).getD 1
  if 1 ≤ start ∧ start ≤ last then
    return {
      sessionId := reader.sessionId
      agentId := reader.agentId
      threadId := some reader.threadId
      sourceType := .threadItems
      sourceCursorStart := start
      sourceCursorEnd := last
      sourceSnapshotHash := lib.sourceDigest refs
      summary := summary
      contentHash := lib.sha256 (lib.summaryJson summary)
      coveredItemRefs := refs }
  else throw .validation

def renderedThread (compaction : Compaction) (items : List Value) : Refs :=
  reader.header ++ [("item_count", .int compaction.coveredItemRefs.length),
    ("compaction", lib.renderedCompaction compaction), ("items", .list items)]

/-- The recent items, the oldest left out until they fit. -/
def fittingItems (compaction : Compaction) : List Value → List Value
  | [] => []
  | item :: rest =>
    if reader.inlineLimit < lib.referenceTokens reader (.dict (lib.renderedThread reader compaction (item :: rest))) then
      fittingItems compaction rest
    else item :: rest

/-- A thread of which nothing is left to read. -/
def emptyThread (baseline : Option Compaction) : Except ContextError Resolved :=
  match baseline with
  | none => lib.checkedReference request (reader.header ++ [("items", .list [])]) [reader.threadRef]
      none none none
  | some compaction => lib.checkedReference request
      (reader.header ++ [("items", .list []), ("compaction", lib.renderedCompaction compaction)])
      [reader.threadRef, lib.compactionRef compaction] (some compaction.sourceCursorStart)
      (some compaction.sourceCursorEnd) (some compaction)

/-- A thread that is rendered with all its items. -/
def fullThread (baseline : Option Compaction) (selection : Selection) : Except ContextError Resolved :=
  let first := (selection.exactItemRefs.head?).bind (·.cursor)
  let last := (selection.exactItemRefs.getLast?).bind (·.cursor)
  match baseline with
  | none => lib.checkedReference request (reader.header ++ [("items", .list selection.fullItems)])
      (reader.threadRef :: selection.exactItemRefs) first last none
  | some compaction => lib.checkedReference request
      (reader.header ++ [("items", .list selection.fullItems), ("compaction", lib.renderedCompaction compaction)])
      (reader.threadRef :: lib.compactionRef compaction :: selection.exactItemRefs)
      (some compaction.sourceCursorStart) last (some compaction)

/-- A thread that is rendered as a compaction and its recent items. -/
def compactedThread (baseline : Option Compaction) (selection : Selection) : Except ContextError Resolved := do
  let compaction ← lib.threadCompaction reader baseline selection
  lib.checkedReference request
    (lib.renderedThread reader compaction (lib.fittingItems reader compaction selection.recentItems))
    [reader.threadRef, lib.compactionRef compaction] (some compaction.sourceCursorStart)
    (some compaction.sourceCursorEnd) (some compaction)

/-- `_resolve_thread_inline_reference`. -/
def resolveThreadInline : Except ContextError Resolved := do
  let baseline ← reader.baselineCompaction
  let selection ← lib.readPages reader request (reader.items.length + 1)
    (reader.baseline.map (·.itemCursorEnd)) {}
  if selection.exactItemRefs = [] then lib.emptyThread reader request baseline
  else if selection.compactRequired then lib.compactedThread reader request baseline selection
  else lib.fullThread reader request baseline selection

/-! ### Compactions that are asked for: `application/service.py` -/

/-- Where the last clearing left the thread. -/
def startAfter (baselines : List Baseline) : Nat :=
  baselines.foldl (fun start baseline =>
    if baseline.operation = .clear then baseline.itemCursorEnd else start) 0

/-- The items up to the end, page after page, at most so many pages. -/
def explicitItems (items : List Item) (itemCursorEnd : Nat) : Nat → Nat → List Item
  | 0, _ => []
  | n + 1, cursor =>
    let page := listItems items (some cursor) 1000
    let selected := page.filter (·.cursor ≤ itemCursorEnd)
    match page.getLast? with
    | none => selected
    | some last =>
      if page.length < 1000 ∨ last.cursor = itemCursorEnd ∨ itemCursorEnd < last.cursor then selected
      else selected ++ explicitItems items itemCursorEnd n last.cursor

def explicitSummary (facts : Facts) (count : Nat) : CompactionSummary where
  activeGoal := facts.activeGoal
  constraints := facts.constraints
  decisions := facts.decisions
  openTasks := facts.openTasks
  completedSteps := ["Compacted " ++ toString count ++ " committed Canonical Thread Items."]
  workspaceState := [("source_notes", strings facts.sourceNotes),
    ("user_requirements", strings facts.userRequirements)]
  nextActions := ["Continue from Items appended after the explicit baseline."]

/-- `_build_explicit_thread_compaction`. -/
def explicitCompaction (sessionId agentId threadId : String) (items : List Item) (baselines : List Baseline)
    (itemCursorEnd : Nat) : Except ContextError Compaction :=
  let covered := explicitItems items itemCursorEnd (items.length + 1) (startAfter baselines)
  if covered = [] then .error (.conflict "there are no active Thread Items to compact")
  else do
    let refs := covered.map lib.itemRef
    let facts ← lib.compactionFacts (covered.filterMap semanticEntry) none
    let summary := explicitSummary facts refs.length
    let start := ((refs.head?).bind (·.cursor)).getD 1
    let last := ((refs.getLast?).bind (·.cursor)).getD 1
    if 12000 < (lib.summaryJson summary).utf8ByteSize then
      throw (.limit ("manual Compaction would omit required facts; explicitly clear Context " ++
        "or start a new Thread"))
    else if 1 ≤ start ∧ start ≤ last then
      return {
        sessionId := sessionId
        agentId := agentId
        threadId := some threadId
        sourceType := .threadItems
        sourceCursorStart := start
        sourceCursorEnd := last
        sourceSnapshotHash := lib.sourceDigest refs
        summary := summary
        contentHash := lib.sha256 (lib.summaryJson summary)
        coveredItemRefs := refs }
    else throw .validation

end Libraries
end Operant.Context
