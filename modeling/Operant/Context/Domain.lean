import Operant.Security.Normalizer
import Operant.Security.Plain

/-! Messages, and what a compaction records of them: `domain/messages.py`, `domain/context.py`. -/
namespace Operant.Context
open Operant.Python Operant.Security

/-- 64 small hexadecimal digits. -/
def isHash (s : String) : Bool :=
  s.toList.length = 64 && s.toList.all fun c => Security.isDigit c || ('a' ≤ c && c ≤ 'f')

/-- The tables of the interpreter, and the libraries that the composer calls. -/
structure Libraries extends Interpreter where
  ascii : toInterpreter.Ascii
  casefold : Char → List Char
  /-- `sha256(..).hexdigest()` of a text. -/
  sha256 : String → String
  sha256_hex : ∀ s, isHash (sha256 s) = true
  /-- `json.loads`: what a text is as JSON. -/
  loads : String → Option Value

/-- `MessageRole`. -/
inductive MessageRole where
  | system
  | user
  | assistant
  | tool
  deriving DecidableEq

def MessageRole.value : MessageRole → String
  | .system => "system"
  | .user => "user"
  | .assistant => "assistant"
  | .tool => "tool"

def MessageRole.ofValue (s : String) : Option MessageRole :=
  [MessageRole.system, .user, .assistant, .tool].find? fun role => role.value = s

/-- `ToolCall`. -/
structure ToolCall where
  id : String
  name : String
  argumentsJson : String := "{}"
  id_ne : id ≠ "" := by decide
  name_ne : name ≠ "" := by decide
  deriving DecidableEq

theorem system_tool : MessageRole.system = .tool → (none : Option String).any (· ≠ "") = true := by decide
theorem user_tool : MessageRole.user = .tool → (none : Option String).any (· ≠ "") = true := by decide
theorem assistant_tool : MessageRole.assistant = .tool → (none : Option String).any (· ≠ "") = true := by decide

theorem system_calls : MessageRole.system ≠ .assistant → ([] : List ToolCall) = [] := fun _ => rfl
theorem user_calls : MessageRole.user ≠ .assistant → ([] : List ToolCall) = [] := fun _ => rfl
theorem assistant_calls : MessageRole.assistant ≠ .assistant → ([] : List ToolCall) = [] := fun _ => rfl
theorem tool_calls : MessageRole.tool ≠ .assistant → ([] : List ToolCall) = [] := fun _ => rfl

/-- `Message`. -/
structure Message where
  role : MessageRole
  content : Option String := none
  toolCalls : List ToolCall := []
  toolCallId : Option String := none
  name : Option String := none
  tool_id : role = .tool → toolCallId.any (· ≠ "") = true := by
    first | exact Operant.Context.system_tool | exact Operant.Context.user_tool | exact Operant.Context.assistant_tool | decide
  calls : role ≠ .assistant → toolCalls = [] := by
    first | exact Operant.Context.system_calls | exact Operant.Context.user_calls | exact Operant.Context.assistant_calls |
      exact Operant.Context.tool_calls | decide
  deriving DecidableEq

def optional : Option String → Value
  | none => .null
  | some s => .str s

/-- `message.model_dump(mode="json")`. -/
def Message.dump (message : Message) : Value :=
  .dict [("role", .str message.role.value), ("content", optional message.content),
    ("tool_calls", .list (message.toolCalls.map fun call => .dict [("id", .str call.id),
      ("name", .str call.name), ("arguments_json", .str call.argumentsJson)])),
    ("tool_call_id", optional message.toolCallId), ("name", optional message.name)]

theorem excerpt_empty : "".toList.length ≤ 240 := by decide

/-- `CompactionMessageCoverage`. -/
structure CompactionMessageCoverage where
  role : MessageRole
  contentHash : String
  excerpt : String := ""
  content_hash_ok : isHash contentHash = true
  excerpt_ok : excerpt.toList.length ≤ 240 := by first | exact Operant.Context.excerpt_empty | decide

def CompactionMessageCoverage.dump (coverage : CompactionMessageCoverage) : Value :=
  .dict [("role", .str coverage.role.value), ("content_hash", .str coverage.contentHash),
    ("excerpt", .str coverage.excerpt)]

/-- `CompactionSummary`. -/
structure CompactionSummary where
  activeGoal : String := ""
  constraints : List String := []
  decisions : List String := []
  completedSteps : List String := []
  openTasks : List String := []
  failedAttempts : List String := []
  workspaceState : Refs := []
  artifactRefs : List String := []
  memoryRefs : List String := []
  approvalState : List String := []
  externalSideEffects : List String := []
  manualReconcileItems : List String := []
  nextActions : List String := []
  coveredMessages : List CompactionMessageCoverage := []

def strings (xs : List String) : Value := .list (xs.map .str)

/-- `summary.model_dump(mode="json")`. -/
def CompactionSummary.dump (summary : CompactionSummary) : Value :=
  .dict [("active_goal", .str summary.activeGoal), ("constraints", strings summary.constraints),
    ("decisions", strings summary.decisions), ("completed_steps", strings summary.completedSteps),
    ("open_tasks", strings summary.openTasks), ("failed_attempts", strings summary.failedAttempts),
    ("workspace_state", .dict summary.workspaceState), ("artifact_refs", strings summary.artifactRefs),
    ("memory_refs", strings summary.memoryRefs), ("approval_state", strings summary.approvalState),
    ("external_side_effects", strings summary.externalSideEffects),
    ("manual_reconcile_items", strings summary.manualReconcileItems),
    ("next_actions", strings summary.nextActions),
    ("covered_messages", .list (summary.coveredMessages.map (·.dump)))]

/-! ### Validation -/

/-- A field of a model: its default where it is missing. -/
def field {α : Type} (entries : Refs) (key : String) (read : Value → Option α) (default : α) : Option α :=
  match entries.lookup key with
  | none => some default
  | some value => read value

def readText : Value → Option String
  | .str s => some s
  | _ => none

/-- `tuple[str, ...]`. -/
def readTexts : Value → Option (List String)
  | .list xs => xs.mapM readText
  | _ => none

def readDict : Value → Option Refs
  | .dict entries => some entries
  | _ => none

/-- `extra="forbid"`. -/
def onlyKeys (entries : Refs) (known : List String) : Bool := entries.all fun entry => entry.1 ∈ known

/-- `CompactionMessageCoverage.model_validate`. -/
def CompactionMessageCoverage.validate : Value → Option CompactionMessageCoverage
  | .dict entries => do
    if !onlyKeys entries ["role", "content_hash", "excerpt"] then none else
    let role ← (entries.lookup "role").bind readText
    let role ← MessageRole.ofValue role
    let contentHash ← (entries.lookup "content_hash").bind readText
    let excerpt ← field entries "excerpt" readText ""
    if h : isHash contentHash = true ∧ excerpt.toList.length ≤ 240 then
      some ⟨role, contentHash, excerpt, h.1, h.2⟩
    else none
  | _ => none

def readCoverage : Value → Option (List CompactionMessageCoverage)
  | .list xs => xs.mapM CompactionMessageCoverage.validate
  | _ => none

def summaryFields : List String :=
  ["active_goal", "constraints", "decisions", "completed_steps", "open_tasks", "failed_attempts",
    "workspace_state", "artifact_refs", "memory_refs", "approval_state", "external_side_effects",
    "manual_reconcile_items", "next_actions", "covered_messages"]

/-- `CompactionSummary.model_validate`. -/
def CompactionSummary.validate : Value → Option CompactionSummary
  | .dict entries => do
    if !onlyKeys entries summaryFields then none else
    return {
      activeGoal := ← field entries "active_goal" readText ""
      constraints := ← field entries "constraints" readTexts []
      decisions := ← field entries "decisions" readTexts []
      completedSteps := ← field entries "completed_steps" readTexts []
      openTasks := ← field entries "open_tasks" readTexts []
      failedAttempts := ← field entries "failed_attempts" readTexts []
      workspaceState := ← field entries "workspace_state" readDict []
      artifactRefs := ← field entries "artifact_refs" readTexts []
      memoryRefs := ← field entries "memory_refs" readTexts []
      approvalState := ← field entries "approval_state" readTexts []
      externalSideEffects := ← field entries "external_side_effects" readTexts []
      manualReconcileItems := ← field entries "manual_reconcile_items" readTexts []
      nextActions := ← field entries "next_actions" readTexts []
      coveredMessages := ← field entries "covered_messages" readCoverage [] }
  | _ => none

/-! ### Compactions -/

/-- `CompactionSourceType`. -/
inductive CompactionSourceType where
  | threadItems
  | contextRevisions
  deriving DecidableEq

/-- `ContextSourceType`. -/
inductive ContextSourceType where
  | session
  | agent
  | thread
  | item
  | artifact
  | memory
  | toolSchema
  | compaction
  deriving DecidableEq

/-- `ContextSourceRef`. -/
structure ContextSourceRef where
  sourceType : ContextSourceType
  sourceId : String
  cursor : Option Nat := none
  contentHash : String
  deriving DecidableEq

/-- `Compaction`, but for its `id`, a digest of the rest. -/
structure Compaction where
  sessionId : String
  agentId : String
  threadId : Option String
  sourceType : CompactionSourceType
  sourceCursorStart : Nat
  sourceCursorEnd : Nat
  sourceSnapshotHash : String
  summary : CompactionSummary
  contentHash : String
  coveredItemRefs : List ContextSourceRef := []

end Operant.Context
