import Mathlib.Data.List.Sort
import Mathlib.Data.String.Basic
import Mathlib.Data.Rat.Defs
import Mathlib.Algebra.Order.Ring.Rat
import Mathlib.Algebra.Order.Ring.Star
import Mathlib.Data.Rat.Star
import Mathlib.Tactic

/-! Policies, budgets, and the patches that scopes hold of them: `domain/models.py`,
`application/configuration.py`.

Values are subtypes of what the fields may be, so what is put together from them is valid. Floats are
exact. -/
namespace Operant.Configuration

/-! ### Sets of names -/

section
variable {α : Type} [LinearOrder α]

/-- `tuple(sorted(set(xs)))`. -/
def sortedSet (xs : List α) : List α := xs.dedup.insertionSort (· ≤ ·)

@[simp] theorem mem_sortedSet {xs : List α} {x : α} : x ∈ sortedSet xs ↔ x ∈ xs := by
  rw [sortedSet, List.mem_insertionSort, List.mem_dedup]

theorem sortedSet_nodup (xs : List α) : (sortedSet xs).Nodup :=
  (List.perm_insertionSort _ _).nodup_iff.mpr (List.nodup_dedup xs)

/-- A sorted set is a matter of its members. -/
theorem sortedSet_congr {xs ys : List α} (h : ∀ x, x ∈ xs ↔ x ∈ ys) : sortedSet xs = sortedSet ys := by
  have hperm : (sortedSet xs).Perm (sortedSet ys) :=
    (List.perm_ext_iff_of_nodup (sortedSet_nodup xs) (sortedSet_nodup ys)).mpr fun x => by simp [h]
  exact hperm.eq_of_pairwise' (List.pairwise_insertionSort _ _) (List.pairwise_insertionSort _ _)

end

/-! ### Policies -/

/-- `CommandRunnerType`. -/
inductive CommandRunnerType where
  | host
  | docker
  deriving DecidableEq

abbrev Image := {image : String // 1 ≤ image.toList.length ∧ image.toList.length ≤ 300}
abbrev CpuLimit := {q : ℚ // 0 < q ∧ q ≤ 64}
abbrev MemoryLimit := {n : Nat // 64 ≤ n ∧ n ≤ 262144}
abbrev PidsLimit := {n : Nat // 16 ≤ n ∧ n ≤ 65536}

/-- `CommandExecutionPolicy`. -/
structure CommandExecutionPolicy where
  runner : CommandRunnerType := .host
  dockerImage : Image := ⟨"python:3.13-slim", by decide⟩
  cpuLimit : CpuLimit := ⟨1, by norm_num⟩
  memoryLimitMb : MemoryLimit := ⟨512, by decide⟩
  pidsLimit : PidsLimit := ⟨256, by decide⟩

def knownTools : List String :=
  ["read_file", "search_files", "apply_patch", "run_command", "git_diff", "delegate_agent",
    "send_agent_message", "wait_for_agent"]

def isLower (c : Char) : Bool := 'a' ≤ c && c ≤ 'z'

/-- `ext_[a-z][a-z0-9_]{1,98}`, the whole name. -/
def isExtensionName (name : String) : Bool :=
  match name.toList with
  | 'e' :: 'x' :: 't' :: '_' :: first :: rest =>
    isLower first && 1 ≤ rest.length && rest.length ≤ 98 &&
      rest.all fun c => isLower c || ('0' ≤ c && c ≤ '9') || c = '_'
  | _ => false

/-- Known tools and tools of extensions, none twice. -/
abbrev Tools := {names : List String // (∀ name ∈ names, (knownTools.contains name || isExtensionName name) = true) ∧
  names.Nodup}

def defaultApprovals : List String := ["git_write", "destructive", "network", "privileged", "shell"]

/-- `ToolPolicy`. -/
structure ToolPolicy where
  allowedTools : Tools := ⟨[], by simp⟩
  workspaceWrite : Bool := false
  commandExecution : Bool := false
  approvalRequired : List String := defaultApprovals
  commandExecutionPolicy : CommandExecutionPolicy := {}

/-- The policy of a role that names none. -/
def ToolPolicy.unset : ToolPolicy := {}

/-! ### Budgets -/

abbrev TurnLimit := {n : Nat // 1 ≤ n ∧ n ≤ 100}
abbrev TestFailureLimit := {n : Nat // 2 ≤ n ∧ n ≤ 10}
abbrev TimeoutSeconds := {n : Nat // 1 ≤ n ∧ n ≤ 3600}
abbrev TokenLimit := {n : Nat // 1 ≤ n}
abbrev CostLimit := {q : ℚ // 0 < q}

/-- `Budget`. -/
structure Budget where
  maxTurns : TurnLimit := ⟨12, by decide⟩
  maxConsecutiveTestFailures : TestFailureLimit := ⟨2, by decide⟩
  timeoutSeconds : TimeoutSeconds := ⟨300, by decide⟩
  maxOutputTokens : Option TokenLimit := none
  maxCostUsd : Option CostLimit := none
  maxToolCalls : Option Nat := none

/-! ### Patches -/

/-- The fields of a `CommandExecutionPolicy` that were set. -/
structure CommandPatch where
  runner : Option CommandRunnerType := none
  dockerImage : Option Image := none
  cpuLimit : Option CpuLimit := none
  memoryLimitMb : Option MemoryLimit := none
  pidsLimit : Option PidsLimit := none

/-- The fields of a `ToolPolicy` that were set. -/
structure PolicyPatch where
  allowedTools : Option Tools := none
  workspaceWrite : Option Bool := none
  commandExecution : Option Bool := none
  approvalRequired : Option (List String) := none
  commandExecutionPolicy : Option CommandPatch := none

/-- The keys of a budget that are there. Only the last three may be null. -/
structure BudgetPatch where
  maxTurns : Option TurnLimit := none
  maxConsecutiveTestFailures : Option TestFailureLimit := none
  timeoutSeconds : Option TimeoutSeconds := none
  maxOutputTokens : Option (Option TokenLimit) := none
  maxCostUsd : Option (Option CostLimit) := none
  maxToolCalls : Option (Option Nat) := none

/-- `CommandExecutionPolicy.model_validate`: the defaults of what was not set. -/
def CommandPatch.validated (patch : CommandPatch) : CommandExecutionPolicy where
  runner := patch.runner.getD ({} : CommandExecutionPolicy).runner
  dockerImage := patch.dockerImage.getD ({} : CommandExecutionPolicy).dockerImage
  cpuLimit := patch.cpuLimit.getD ({} : CommandExecutionPolicy).cpuLimit
  memoryLimitMb := patch.memoryLimitMb.getD ({} : CommandExecutionPolicy).memoryLimitMb
  pidsLimit := patch.pidsLimit.getD ({} : CommandExecutionPolicy).pidsLimit

/-- `ToolPolicy.model_validate`. -/
def PolicyPatch.validated (patch : PolicyPatch) : ToolPolicy where
  allowedTools := patch.allowedTools.getD ({} : ToolPolicy).allowedTools
  workspaceWrite := patch.workspaceWrite.getD ({} : ToolPolicy).workspaceWrite
  commandExecution := patch.commandExecution.getD ({} : ToolPolicy).commandExecution
  approvalRequired := patch.approvalRequired.getD ({} : ToolPolicy).approvalRequired
  commandExecutionPolicy := (patch.commandExecutionPolicy.getD {}).validated

/-! ### Narrowing -/

/-- The tools of both. -/
def commonTools (current chosen : Tools) : Tools :=
  ⟨sortedSet (current.val.filter fun name => chosen.val.contains name), by
    refine ⟨fun name hname => ?_, sortedSet_nodup _⟩
    rw [mem_sortedSet, List.mem_filter] at hname
    exact current.property.1 name hname.1⟩

/-- What a scope may choose of a command policy. -/
def narrowCommand (current chosen : CommandExecutionPolicy) : CommandExecutionPolicy where
  runner := if current.runner = .docker then .docker else chosen.runner
  dockerImage := if current.runner = .docker then current.dockerImage else chosen.dockerImage
  cpuLimit := min current.cpuLimit chosen.cpuLimit
  memoryLimitMb := min current.memoryLimitMb chosen.memoryLimitMb
  pidsLimit := min current.pidsLimit chosen.pidsLimit

/-- `_narrow_policy`. -/
def narrowPolicy (base requested : ToolPolicy) : ToolPolicy where
  allowedTools := commonTools base.allowedTools requested.allowedTools
  workspaceWrite := base.workspaceWrite && requested.workspaceWrite
  commandExecution := base.commandExecution && requested.commandExecution
  approvalRequired := sortedSet (base.approvalRequired ++ requested.approvalRequired)
  commandExecutionPolicy := narrowCommand base.commandExecutionPolicy requested.commandExecutionPolicy

/-- A limit that a scope names, or leaves. -/
def narrowLimit {α : Type} [LinearOrder α] (previous : α) : Option α → α
  | none => previous
  | some value => min previous value

/-- A limit that may be missing. -/
def narrowOptional {α : Type} [LinearOrder α] : Option α → Option (Option α) → Option α
  | previous, none => previous
  | none, some value => value
  | some previous, some none => some previous
  | some previous, some (some value) => some (min previous value)

/-- `_narrow_budget`. -/
def narrowBudget (base : Budget) (requested : BudgetPatch) : Budget where
  maxTurns := narrowLimit base.maxTurns requested.maxTurns
  maxConsecutiveTestFailures := narrowLimit base.maxConsecutiveTestFailures requested.maxConsecutiveTestFailures
  timeoutSeconds := narrowLimit base.timeoutSeconds requested.timeoutSeconds
  maxOutputTokens := narrowOptional base.maxOutputTokens requested.maxOutputTokens
  maxCostUsd := narrowOptional base.maxCostUsd requested.maxCostUsd
  maxToolCalls := narrowOptional base.maxToolCalls requested.maxToolCalls

/-- `current is None or current > previous`, where there is a limit. -/
def raises {α : Type} [LinearOrder α] (previous current : Option α) : Bool :=
  match previous, current with
  | none, _ => false
  | some _, none => true
  | some previous, some current => decide (previous < current)

/-- The budget with what the overrides name. -/
def Budget.selected (base : Budget) (overrides : BudgetPatch) : Budget where
  maxTurns := overrides.maxTurns.getD base.maxTurns
  maxConsecutiveTestFailures := overrides.maxConsecutiveTestFailures.getD base.maxConsecutiveTestFailures
  timeoutSeconds := overrides.timeoutSeconds.getD base.timeoutSeconds
  maxOutputTokens := overrides.maxOutputTokens.getD base.maxOutputTokens
  maxCostUsd := overrides.maxCostUsd.getD base.maxCostUsd
  maxToolCalls := overrides.maxToolCalls.getD base.maxToolCalls

/-- `Budget.narrowed`: the key of the first limit that it cannot increase. -/
def Budget.narrowed (base : Budget) (overrides : BudgetPatch) : Except String Budget :=
  let selected := base.selected overrides
  if raises (some base.maxTurns) (some selected.maxTurns) then .error "max_turns"
  else if raises (some base.maxConsecutiveTestFailures) (some selected.maxConsecutiveTestFailures) then
    .error "max_consecutive_test_failures"
  else if raises (some base.timeoutSeconds) (some selected.timeoutSeconds) then .error "timeout_seconds"
  else if raises base.maxOutputTokens selected.maxOutputTokens then .error "max_output_tokens"
  else if raises base.maxCostUsd selected.maxCostUsd then .error "max_cost_usd"
  else if raises base.maxToolCalls selected.maxToolCalls then .error "max_tool_calls"
  else .ok selected

end Operant.Configuration
