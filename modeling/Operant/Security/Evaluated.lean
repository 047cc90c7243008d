import Operant.Security.Decides
import Operant.Security.Growth

/-! Whether a policy decides on the action that will run. -/
namespace Operant.Security
open Operant.Python

namespace Platform
variable {platform : Platform} {host : Host} {repository : Repository} {action stored : ActionRequest}

/-- Rows hold what their actions are without what is redacted. -/
def Sound (platform : Platform) (repository : Repository) : Prop :=
  ∀ row ∈ repository.actions, row.original.Bound ∧ WellFormed row.original.normalizedArguments ∧
    row.body = platform.safeBody row.original

theorem safeBody_some (h : platform.safeBody action = some stored) :
    ∃ safe, platform.safeArguments action.normalizedArguments = some safe ∧
      stored = { action with normalizedArguments := safe } := by
  unfold safeBody at h
  rw [Option.map_eq_some_iff] at h
  obtain ⟨safe, hsafe, heq⟩ := h
  exact ⟨safe, hsafe, heq.symm⟩

theorem sound_record (h : Sound platform repository) (hbound : action.Bound)
    (hwf : WellFormed action.normalizedArguments) :
    Sound platform (repository.recordSecurityAction platform action).2 := by
  unfold Repository.recordSecurityAction
  split
  · split
    · exact h
    · split
      · exact h
      · exact h
  · intro row hrow
    cases List.mem_append.mp hrow with
    | inl hold => exact h row hold
    | inr hnew =>
      rw [List.mem_singleton] at hnew
      subst hnew
      exact ⟨hbound, hwf, rfl⟩

theorem recorded_sound (platform : Platform) (host : Host) (proposals : List Proposal) :
    Sound platform (platform.recorded host proposals) := by
  unfold Platform.recorded
  apply List.foldlRecOn
  · exact fun row hrow => absurd hrow List.not_mem_nil
  · intro repository h p _
    cases hp : p.normalize host with
    | error e => exact h
    | ok action => exact sound_record h (normalize_ok hp).1 (normalize_ok hp).2

/-- What is returned is the body of the first action that was recorded. -/
theorem record_ok (h : Sound platform repository) (hbound : action.Bound)
    (hwf : WellFormed action.normalizedArguments)
    (hok : (repository.recordSecurityAction platform action).1 = .ok stored) :
    stored.Like action ∧
      executable stored.normalizedArguments =
        platform.seen (repository.original action).normalizedArguments := by
  have body {original : ActionRequest} (ho : original.Bound) (hw : WellFormed original.normalizedArguments)
      (hbody : platform.safeBody original = some stored) (hhash : stored.actionHash = action.actionHash) :
      stored.Like action ∧
        executable stored.normalizedArguments = platform.seen original.normalizedArguments := by
    obtain ⟨safe, hsafe, rfl⟩ := safeBody_some hbody
    have hlike := ho.like hbound hhash
    exact ⟨⟨hlike.tool, hlike.operation, hlike.target, hlike.capabilities, hhash⟩, executable_safe hw hsafe⟩
  unfold Repository.recordSecurityAction at hok
  unfold Repository.original
  cases hfound : repository.found action.principal action.idempotencyKey with
  | none =>
    simp only [hfound] at hok
    rw [Option.map_none, Option.getD_none]
    cases hsafe : platform.safeBody action with
    | none =>
      rw [hsafe] at hok
      exact nomatch hok
    | some kept =>
      rw [hsafe] at hok
      cases hok
      obtain ⟨safe, -, heq⟩ := safeBody_some hsafe
      exact body hbound hwf hsafe (by rw [heq])
  | some row =>
    simp only [hfound] at hok
    rw [Option.map_some, Option.getD_some]
    obtain ⟨ho, hw, hrow⟩ := h row (List.mem_of_find?_eq_some hfound)
    split at hok
    · exact nomatch hok
    · rename_i existing hexisting
      split at hok
      · exact nomatch hok
      · rename_i hsame
        cases hok
        exact body ho hw (hrow ▸ hexisting) (not_not.mp hsame)

end Platform

/-- For every proposal that is normalized, whatever was recorded before: all policies decide on what
`record_security_action` returns as they decide on the action itself if and only if the executable
that is left of the arguments as they were first recorded tells no rule apart from the one in `argv`. -/
theorem decides_on_action (platform : Platform) (host : Host) (proposals : List Proposal) (p : Proposal)
    (action stored : ActionRequest) (hp : p.normalize host = .ok action)
    (hstored : ((platform.recorded host proposals).recordSecurityAction platform action).1 = .ok stored) :
    (∀ bundle : PolicyBundle, bundle.evaluate stored = bundle.evaluate action) ↔
      SameTools action.tool (executable action.normalizedArguments)
        (platform.seen ((platform.recorded host proposals).original action).normalizedArguments) := by
  obtain ⟨hbound, hwf⟩ := normalize_ok hp
  obtain ⟨hlike, hexecutable⟩ :=
    Platform.record_ok (platform.recorded_sound host proposals) hbound hwf hstored
  rw [evaluate_same_iff hlike, hexecutable]

/-! ### A command that asks for other rights -/

/-- A platform whose texts are ASCII. -/
def asciiPlatform : Platform where
  isWord c := c.isAlphanum || c = '_'
  isSpace := Char.isWhitespace
  fold := Char.toLower
  lower c := [if 'a' ≤ c ∧ c ≤ 'z' then c else c.toLower]
  floatRepr q := toString q
  lower_letter c h h' := by rw [if_pos ⟨h, h'⟩]
  asNull := true

/-- A host without files and without addresses. -/
def bareHost : Host where
  resolve _ := none
  resolveUnder root path := root ++ "/" ++ path
  str _ := ""
  urlsplit _ := none

/-- What a target is asked to run. -/
def command (arguments : Refs) : Proposal where
  principal := "core:phase45"
  tool := "run_command"
  operation := "run"
  arguments := arguments
  requestedCapabilities := [.processExecNoNetwork]
  idempotencyKey := "command"
  policyVersion := "phase45.v1"
  workspaceId := some "box"

def sudoId : Value := .list [.str "sudo", .str "id"]

/-- The action of a command. -/
def commandAction (arguments : Refs) (hashed : Value) : ActionRequest where
  principal := "core:phase45"
  tool := "run_command"
  operation := "run"
  normalizedTarget := { targetType := "workspace", targetId := "box" }
  normalizedArguments := arguments
  workspaceId := some "box"
  requestedCapabilities := [.processExecNoNetwork]
  sandboxProfile := "isolated"
  networkProfile := "none"
  secretRefs := []
  dryRun := false
  idempotencyKey := "command"
  actionHash := ⟨"core:phase45", "run_command", "run", { targetType := "workspace", targetId := "box" }, hashed,
    some "box", [.processExecNoNetwork], "isolated", "none", [], false, "command", "phase45.v1", .unknown⟩
  policyVersion := "phase45.v1"
  idempotencyLevel := .unknown

def plain : Refs := [("argv", sudoId)]

/-- A list of as many items as are kept, before the command. -/
def padded : Refs := [("items", .list (List.replicate 200 .null)), ("argv", sudoId)]

/-- What is left of it. -/
def unpadded : Refs := [("items", .list (List.replicate 199 .null ++ [.str "[truncated items]"])),
  ("_truncated_items", .bool true)]

def recordedCommand (arguments : Refs) (hashed : Value) : Except Raised ActionRequest :=
  ((asciiPlatform.recorded bareHost []).recordSecurityAction asciiPlatform (commandAction arguments hashed)).1

/-- What is recorded of a command that is new, when what is left of it fits. -/
theorem recordedCommand_fits {arguments safe : Refs} {hashed : Value}
    (hbounded : (asciiPlatform.boundedPublicData Platform.bounds (.dict (asciiPlatform.items arguments)) 0 200).1 =
      .dict safe)
    (hfits : (asciiPlatform.dumps (.dict safe)).any (fun s => Text.total Char.utf8Size s ≤ 100000) = true) :
    recordedCommand arguments hashed = .ok (commandAction safe hashed) := by
  have hsafe : asciiPlatform.safeArguments arguments = some safe := by
    rw [Platform.safeArguments, Interpreter.redactPublicData_fits hbounded hfits]
  show validated (asciiPlatform.safeBody (commandAction arguments hashed)) = .ok (commandAction safe hashed)
  rw [Platform.safeBody, show (commandAction arguments hashed).normalizedArguments = arguments from rfl, hsafe]
  rfl

theorem decides_on_action_plain :
    (command plain).normalize bareHost = .ok (commandAction plain (.dict plain)) ∧
      recordedCommand plain (.dict plain) = .ok (commandAction plain (.dict plain)) ∧
      ((balancedPolicyBundle "phase45.v1").evaluate (commandAction plain (.dict plain))).hardDeny = true ∧
      SameTools "run_command" (some "sudo") (asciiPlatform.seen plain) := by
  have hp : (command plain).normalize bareHost = .ok (commandAction plain (.dict plain)) := by decide +kernel
  have hstored : recordedCommand plain (.dict plain) = .ok (commandAction plain (.dict plain)) :=
    recordedCommand_fits (by decide +kernel) (by decide +kernel)
  exact ⟨hp, hstored, by decide +kernel,
    (decides_on_action asciiPlatform bareHost [] (command plain) _ _ hp hstored).mp fun _ => rfl⟩

/-- With a list before it the same command is denied, and what is recorded of it is allowed. -/
theorem padded_command_allowed :
    (command padded).normalize bareHost = .ok (commandAction padded (.dict padded.reverse)) ∧
      recordedCommand padded (.dict padded.reverse) = .ok (commandAction unpadded (.dict padded.reverse)) ∧
      ((balancedPolicyBundle "phase45.v1").evaluate (commandAction padded (.dict padded.reverse))).hardDeny = true ∧
      ((balancedPolicyBundle "phase45.v1").evaluate (commandAction unpadded (.dict padded.reverse))).decision =
        .allow := by
  have hstored : recordedCommand padded (.dict padded.reverse) = .ok (commandAction unpadded (.dict padded.reverse)) :=
    recordedCommand_fits (by decide +kernel) (by decide +kernel)
  exact ⟨by decide +kernel, hstored, by decide +kernel, by decide +kernel⟩

end Operant.Security
