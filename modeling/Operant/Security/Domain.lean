import Operant.Python.Value

/-! What policies speak of. -/
namespace Operant.Security
open Operant.Python

inductive Capability where
  | workspaceRead
  | workspaceWrite
  | workspaceDelete
  | processExec
  | processExecNoNetwork
  | networkEgress
  | secretUse
  | gitCommit
  | gitPush
  | browserObserve
  | browserNavigate
  | browserSubmit
  | browserScreenshot
  | computerObserve
  | computerInput
  | computerScreenshot
  | computerClipboardRead
  | computerClipboardWrite
  | remoteControlObserve
  | remoteControlCommand
  | remoteControlApprove
  | remoteTargetRead
  | remoteTargetExec
  | externalMessageSend
  | productionMutate
  | policyModify
  deriving DecidableEq

inductive IdempotencyLevel where
  | readOnly
  | idempotent
  | nonIdempotent
  | unknown
  deriving DecidableEq

inductive GatewayDecision where
  | allow
  | deny
  | ask
  deriving DecidableEq

inductive PolicyDecision where
  | deny
  | ask
  | allow
  deriving DecidableEq

inductive PolicyLayer where
  | system
  | workspace
  | role
  | workflow
  | session
  | approval
  | default
  deriving DecidableEq

/-- The layers are an `IntEnum`. -/
def PolicyLayer.rank : PolicyLayer → Nat
  | .system => 0
  | .workspace => 10
  | .role => 20
  | .workflow => 30
  | .session => 40
  | .approval => 50
  | .default => 60

inductive RiskLevel where
  | low
  | medium
  | high
  | critical
  deriving DecidableEq

/-- The values of the capabilities, which they are sorted by. -/
def Capability.value : Capability → String
  | .workspaceRead => "workspace.read"
  | .workspaceWrite => "workspace.write"
  | .workspaceDelete => "workspace.delete"
  | .processExec => "process.exec"
  | .processExecNoNetwork => "process.exec.no_network"
  | .networkEgress => "network.egress"
  | .secretUse => "secret.use"
  | .gitCommit => "git.commit"
  | .gitPush => "git.push"
  | .browserObserve => "browser.observe"
  | .browserNavigate => "browser.navigate"
  | .browserSubmit => "browser.submit"
  | .browserScreenshot => "browser.screenshot"
  | .computerObserve => "computer.observe"
  | .computerInput => "computer.input"
  | .computerScreenshot => "computer.screenshot"
  | .computerClipboardRead => "computer.clipboard.read"
  | .computerClipboardWrite => "computer.clipboard.write"
  | .remoteControlObserve => "remote.control.observe"
  | .remoteControlCommand => "remote.control.command"
  | .remoteControlApprove => "remote.control.approve"
  | .remoteTargetRead => "remote.target.read"
  | .remoteTargetExec => "remote.target.exec"
  | .externalMessageSend => "external.message.send"
  | .productionMutate => "production.mutate"
  | .policyModify => "policy.modify"

/-- Exceptions, as far as they are told apart. -/
inductive Raised where
  /-- `ConflictError`. -/
  | conflict (message : String)
  /-- `IdempotencyConflictError`. -/
  | idempotencyConflict (message : String)
  | capabilityDenied (message : String)
  | key
  | value (message : String)
  /-- `McpError`. -/
  | mcp (code message : String)
  | other (typeName : String)
  deriving DecidableEq

structure NormalizedTarget where
  targetType : String
  targetId : String
  workspaceRef : Option String := none
  endpoint : Option String := none
  host : Option String := none
  port : Option Nat := none
  deriving DecidableEq

/-- What an action is hashed from, and what stands for the hash. Keys are sorted, so the order of
the arguments does not count. -/
structure ActionHash where
  principal : String
  tool : String
  operation : String
  target : NormalizedTarget
  arguments : Value
  workspaceId : Option String
  requestedCapabilities : List Capability
  sandboxProfile : String
  networkProfile : String
  secretRefs : List String
  dryRun : Bool
  idempotencyKey : String
  policyVersion : String
  idempotencyLevel : IdempotencyLevel
  deriving DecidableEq

structure ActionRequest where
  principal : String
  tool : String
  operation : String
  normalizedTarget : NormalizedTarget
  normalizedArguments : Refs
  workspaceId : Option String
  dataClassification : String := "internal"
  requestedCapabilities : List Capability
  sandboxProfile : String
  networkProfile : String
  secretRefs : List String
  dryRun : Bool
  idempotencyKey : String
  actionHash : ActionHash
  policyVersion : String
  idempotencyLevel : IdempotencyLevel
  deriving DecidableEq

theorem system_denial : true = true → PolicyLayer.system = .system ∧ PolicyDecision.deny = .deny := by decide

structure PolicyRule where
  ruleId : String
  layer : PolicyLayer
  decision : PolicyDecision
  capabilities : List Capability := []
  tools : List String := []
  operations : List String := []
  targetTypes : List String := []
  riskLevel : RiskLevel := .medium
  reason : String
  hard : Bool := false
  /-- Only system DENY rules may be hard. -/
  hard_denies : hard = true → layer = .system ∧ decision = .deny := by
    first | exact Operant.Security.system_denial | decide
  deriving DecidableEq

structure PolicyBundle where
  bundleId : String
  version : String
  defaultDecision : PolicyDecision := .deny
  rules : List PolicyRule
  deriving DecidableEq

structure PolicyEvaluation where
  actionHash : ActionHash
  decision : PolicyDecision
  riskLevel : RiskLevel
  policyVersion : String
  matchedRuleIds : List String
  decisiveRuleId : String
  reasonCode : String
  explanation : String
  hardDeny : Bool
  reviewerEligible : Bool
  deriving DecidableEq

end Operant.Security
