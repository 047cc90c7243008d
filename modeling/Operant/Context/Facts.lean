import Operant.Context.Domain

/-! `compaction_facts`: what a compaction keeps of what the user wrote. -/
namespace Operant.Context
open Operant.Python Operant.Security

/-- What composing and compacting raise, or let through. -/
inductive ContextError where
  /-- `ContextCompositionError`. -/
  | composition (message : String)
  /-- `ContextLimitExceeded`. -/
  | limit (message : String)
  /-- `ValidationError`. -/
  | validation
  /-- `TypeError` or `AttributeError`. -/
  | type
  /-- `ConflictError`. -/
  | conflict (message : String)
  deriving DecidableEq

/-! ### Lines -/

/-- What `str.splitlines` ends a line at. -/
def isLineBreak (c : Char) : Bool :=
  c.toNat ∈ [0x0a, 0x0b, 0x0c, 0x0d, 0x1c, 0x1d, 0x1e, 0x85, 0x2028, 0x2029]

/-- `str.splitlines`, with the line so far. -/
def splitlinesFrom (line : List Char) : List Char → List (List Char)
  | [] => if line = [] then [] else [line]
  | '\r' :: '\n' :: rest => line :: splitlinesFrom [] rest
  | c :: rest =>
    if isLineBreak c then line :: splitlinesFrom [] rest else splitlinesFrom (line ++ [c]) rest

def splitlines (s : String) : List (List Char) := splitlinesFrom [] s.toList

/-- The two parts around the first `"] "`, if there is one: `partition`. -/
def partitionTag : List Char → Option (List Char × List Char)
  | [] => none
  | [_] => none
  | c :: d :: rest =>
    if c = ']' ∧ d = ' ' then some ([], rest)
    else (partitionTag (d :: rest)).map fun parts => (c :: parts.1, parts.2)

/-- `word in line`. -/
def hasWord (word : String) (line : List Char) : Bool := decide (word.toList <:+: line)

/-! ### Facts -/

/-- What `compaction_facts` returns. -/
structure Facts where
  activeGoal : String
  constraints : List String
  decisions : List String
  openTasks : List String
  sourceNotes : List String
  userRequirements : List String

/-- Who wrote something, where, and what it was. -/
structure Entry where
  source : String
  role : String
  body : String

/-- A body, with the first and the last tag it has been found under. -/
structure Tagged where
  body : List Char
  first : List Char
  last : List Char

def tagOf (tagged : String) : List Char × List Char :=
  (partitionTag tagged.toList).getD ("[prior".toList, tagged.toList)

def Tagged.insert : List Tagged → List Char × List Char → List Tagged
  | [], parts => [⟨parts.2, parts.1, parts.1⟩]
  | entry :: rest, parts =>
    if entry.body = parts.2 then { entry with last := parts.1 } :: rest
    else entry :: Tagged.insert rest parts

def Tagged.text (entry : Tagged) : String :=
  if entry.first = entry.last then .ofList (entry.first ++ "] ".toList ++ entry.body)
  else .ofList (entry.first ++ "; ".toList ++ entry.last.drop 1 ++ "] ".toList ++ entry.body)

/-- `unique`. -/
def unique (values : List String) : List String :=
  (values.foldl (fun found tagged => Tagged.insert found (tagOf tagged)) []).map Tagged.text

/-- `list(value)`. -/
def listOf : Value → Option (List Value)
  | .list xs => some xs
  | .str s => some (s.toList.map fun c => .str (String.singleton c))
  | .dict entries => some (entries.map fun entry => .str entry.1)
  | .null | .bool _ | .int _ | .float _ | .foreign => none

namespace Libraries
variable (lib : Libraries)

/-- `s.strip()`. -/
def strip (s : List Char) : List Char :=
  ((s.dropWhile lib.isSpace).reverse.dropWhile lib.isSpace).reverse

/-- `re.search(r"(^|\W)(..)(\W|$)", s)`, for one of the words; `before` is what comes before. -/
def hasWholeWord (words : List String) : Option Char → List Char → Bool
  | _, [] => false
  | before, c :: rest =>
    (!before.any lib.isWord && words.any fun word => word.toList <+: c :: rest &&
      !((c :: rest).drop word.toList.length).head?.any lib.isWord) ||
    hasWholeWord words (some c) rest

/-- The facts of the lines so far. -/
structure Draft where
  constraints : List String
  decisions : List String
  openTasks : List String
  sources : List String
  userRequirements : List String
  goals : List String := []
  firstUser : String := ""

/-- The rest of a previous summary's lists, if they are lists of texts. -/
def noted (previous : CompactionSummary) (key : String) : Except ContextError (List String) :=
  match previous.workspaceState.lookup key with
  | none => .ok []
  | some value => match listOf value with
    | none => .error .type
    | some xs => match xs.mapM readText with
      | none => .error .type
      | some texts => .ok texts

/-- What was noted before, if anything was. -/
def notedBefore (previous : Option CompactionSummary) (key : String) : Except ContextError (List String) :=
  match previous with
  | some summary => noted summary key
  | none => .ok []

/-- The body of the loop, for a line that is not blank. -/
def addLine (draft : Draft) (source : String) (line : List Char) : Draft :=
  let line := (lib.redactPublicText 100000 (.ofList line)).toList
  let tagged := "[" ++ source ++ "] " ++ String.ofList line
  let lower := line.flatMap lib.casefold
  { userRequirements := draft.userRequirements ++ [tagged]
    firstUser := if draft.firstUser = "" then .ofList line else draft.firstUser
    goals := if lib.hasWholeWord ["goal", "objective"] none lower || hasWord "目标" line
      then draft.goals ++ [tagged] else draft.goals
    constraints := if ["must", "never", "only", "constraint", "should", "please keep"].any (hasWord · lower) ||
        ["必须", "不得", "不能", "不要", "仅限", "约束", "请保持"].any (hasWord · line)
      then draft.constraints ++ [tagged] else draft.constraints
    decisions := if ["decided", "decision", "agreed"].any (hasWord · lower) ||
        ["决定", "已选", "采用"].any (hasWord · line)
      then draft.decisions ++ [tagged] else draft.decisions
    openTasks := if ["todo", "pending", "unfinished", "next step"].any (hasWord · lower) ||
        ["待办", "未完成", "下一步", "继续处理"].any (hasWord · line)
      then draft.openTasks ++ [tagged] else draft.openTasks
    sources := if ["source:", "reference:", "see "].any (hasWord · lower) ||
        ["来源：", "参考：", "依据："].any (hasWord · line)
      then draft.sources ++ [tagged] else draft.sources }

/-- The lines of a text that are not blank, stripped. -/
def written (body : String) : List (List Char) := ((splitlines body).map lib.strip).filter (· ≠ [])

def addEntry (draft : Draft) (entry : Entry) : Draft :=
  if entry.role ∈ ["user", "steering"] then
    (lib.written entry.body).foldl (fun draft line => lib.addLine draft entry.source line) draft
  else draft

/-- `compaction_facts`. -/
def compactionFacts (entries : List Entry) (previous : Option CompactionSummary) :
    Except ContextError Facts := do
  let sources ← notedBefore previous "source_notes"
  let userRequirements ← notedBefore previous "user_requirements"
  let draft := entries.foldl lib.addEntry {
    constraints := (previous.map (·.constraints)).getD []
    decisions := (previous.map (·.decisions)).getD []
    openTasks := (previous.map (·.openTasks)).getD []
    sources := sources
    userRequirements := userRequirements }
  return {
    activeGoal := (draft.goals.getLast?).getD ((previous.map (·.activeGoal)).getD draft.firstUser)
    constraints := unique draft.constraints
    decisions := unique draft.decisions
    openTasks := unique draft.openTasks
    sourceNotes := unique draft.sources
    userRequirements := unique draft.userRequirements }

end Libraries
end Operant.Context
