import Operant.Security.Domain
import Mathlib.Data.List.MinMax

/-! `PolicyEngine`: which rules match an action, and which of them decides. -/
namespace Operant.Security
open Operant.Python

/-- `Path(path).name`, as a string. -/
def pathName (path : String) : String :=
  .ofList (((path.toList.splitOn '/').filter fun part => part ≠ [] ∧ part ≠ ['.']).getLastD [])

/-- The executable that rules are compared with. -/
def executable (arguments : Refs) : Option String :=
  match arguments.lookup "argv" with
  | some (.list (.str first :: _)) => some (pathName first)
  | _ => none

/-- `PolicyEngine._matches`. -/
def PolicyRule.matches (rule : PolicyRule) (action : ActionRequest) : Bool :=
  (rule.capabilities.isEmpty || rule.capabilities.any (· ∈ action.requestedCapabilities)) &&
    (rule.tools.isEmpty || action.tool ∈ rule.tools ||
      (executable action.normalizedArguments).any (· ∈ rule.tools)) &&
    (rule.operations.isEmpty || action.operation ∈ rule.operations) &&
    (rule.targetTypes.isEmpty || action.normalizedTarget.targetType ∈ rule.targetTypes)

/-- `min(.., key=lambda rule: rule.layer)`: the first of the lowest layer. -/
def lowest (rules : List PolicyRule) : Option PolicyRule := rules.argmin fun rule => rule.layer.rank

/-- A denial goes before a question, and a question before a permission. -/
def decisive (rules : List PolicyRule) : Option PolicyRule :=
  (lowest (rules.filter fun rule => rule.decision = .deny)).or <|
    (lowest (rules.filter fun rule => rule.decision = .ask)).or <|
      lowest (rules.filter fun rule => rule.decision = .allow)

namespace PolicyBundle
variable (bundle : PolicyBundle) (action : ActionRequest)

/-- `_default_rule`. -/
def defaultRule : PolicyRule where
  ruleId := "bundle.default"
  layer := .default
  decision := bundle.defaultDecision
  reason := "no policy rule matched"
  riskLevel := .high
  hard := false
  hard_denies := fun h => Bool.noConfusion h

def matched : List PolicyRule := bundle.rules.filter fun rule => rule.matches action

/-- What decides about one capability. -/
def decisionFor (capability : Capability) : PolicyRule :=
  (decisive ((bundle.matched action).filter fun rule =>
    rule.capabilities.isEmpty || capability ∈ rule.capabilities)).getD bundle.defaultRule

/-- `_result`. -/
def result (rule : PolicyRule) (hardDeny : Bool) : PolicyEvaluation where
  actionHash := action.actionHash
  decision := rule.decision
  riskLevel := rule.riskLevel
  policyVersion := bundle.version
  matchedRuleIds := (bundle.matched action).map PolicyRule.ruleId
  decisiveRuleId := rule.ruleId
  reasonCode := rule.ruleId
  explanation := rule.reason
  hardDeny := hardDeny
  reviewerEligible := rule.decision = .ask

/-- `PolicyEngine.evaluate`. -/
def evaluate : PolicyEvaluation :=
  match (bundle.matched action).find? PolicyRule.hard with
  | some rule => bundle.result action rule true
  | none => bundle.result action
      ((decisive (action.requestedCapabilities.map (bundle.decisionFor action))).getD bundle.defaultRule) false

@[simp] theorem result_actionHash (rule : PolicyRule) (hardDeny : Bool) :
    (bundle.result action rule hardDeny).actionHash = action.actionHash := rfl
@[simp] theorem result_policyVersion (rule : PolicyRule) (hardDeny : Bool) :
    (bundle.result action rule hardDeny).policyVersion = bundle.version := rfl

@[simp] theorem evaluate_actionHash : (bundle.evaluate action).actionHash = action.actionHash := by
  unfold evaluate
  split <;> rfl

@[simp] theorem evaluate_policyVersion : (bundle.evaluate action).policyVersion = bundle.version := by
  unfold evaluate
  split <;> rfl

/-- A hard denial is a denial. -/
theorem evaluate_hardDeny (h : (bundle.evaluate action).hardDeny = true) :
    (bundle.evaluate action).decision = .deny := by
  unfold evaluate at h ⊢
  split at h
  · rename_i rule hrule
    exact (rule.hard_denies (List.find?_some hrule)).2
  · exact nomatch h

/-- What a hard rule matches is denied. -/
theorem evaluate_of_hard {rule : PolicyRule} (hrule : rule ∈ bundle.rules) (hhard : rule.hard = true)
    (hmatches : rule.matches action = true) : (bundle.evaluate action).hardDeny = true := by
  have hmatched : rule ∈ bundle.matched action := List.mem_filter.mpr ⟨hrule, hmatches⟩
  cases hfind : (bundle.matched action).find? PolicyRule.hard with
  | none => exact absurd hhard (List.find?_eq_none.mp hfind rule hmatched)
  | some found => simp only [evaluate, hfind, result]

/-- The evaluation is that of the rules that match. -/
theorem evaluate_congr {a b : ActionRequest} (hmatched : bundle.matched a = bundle.matched b)
    (hcapabilities : a.requestedCapabilities = b.requestedCapabilities) (hhash : a.actionHash = b.actionHash) :
    bundle.evaluate a = bundle.evaluate b := by
  have hdecision : bundle.decisionFor a = bundle.decisionFor b := by
    funext capability
    simp only [decisionFor, hmatched]
  simp only [evaluate, result, hmatched, hcapabilities, hhash, hdecision]

end PolicyBundle

/-- `balanced_policy_bundle`. -/
def balancedPolicyBundle (version : String) : PolicyBundle where
  bundleId := "balanced"
  version := version
  defaultDecision := .deny
  rules := [
    { ruleId := "system.hard.policy-modification"
      layer := .system
      decision := .deny
      capabilities := [.policyModify]
      reason := "runtime actions cannot modify the security policy"
      riskLevel := .critical
      hard := true },
    { ruleId := "system.hard.production-mutation"
      layer := .system
      decision := .deny
      capabilities := [.productionMutate]
      reason := "production mutation requires a separately governed flow"
      riskLevel := .critical
      hard := true },
    { ruleId := "system.hard.privilege-escalation"
      layer := .system
      decision := .deny
      tools := ["sudo", "doas"]
      reason := "privilege escalation is forbidden"
      riskLevel := .critical
      hard := true },
    { ruleId := "workspace.read"
      layer := .workspace
      decision := .allow
      capabilities := [.workspaceRead]
      reason := "workspace-scoped reads are allowed"
      riskLevel := .low },
    { ruleId := "remote.read-observe"
      layer := .workspace
      decision := .allow
      capabilities := [.remoteTargetRead, .browserObserve, .computerObserve, .computerClipboardRead]
      reason := "remote target reads and observations are allowed"
      riskLevel := .low },
    { ruleId := "workspace.isolated-write"
      layer := .workspace
      decision := .allow
      capabilities := [.workspaceWrite, .processExecNoNetwork]
      reason := "isolated workspace edits and no-network execution are allowed"
      riskLevel := .medium },
    { ruleId := "workspace.destructive"
      layer := .workspace
      decision := .ask
      capabilities := [.workspaceDelete]
      reason := "workspace deletion requires an exact approval"
      riskLevel := .high },
    { ruleId := "session.network-secret-external"
      layer := .session
      decision := .ask
      capabilities := [.networkEgress, .secretUse, .gitPush, .externalMessageSend, .processExec, .gitCommit,
        .remoteTargetExec, .browserNavigate, .browserSubmit, .browserScreenshot, .computerInput,
        .computerScreenshot, .computerClipboardWrite]
      reason := "network, secret, push, and external send actions require review"
      riskLevel := .high }]

end Operant.Security
