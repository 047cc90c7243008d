import Operant.Security.Policy
import Operant.Calls.Program
import Mathlib.Data.List.Sort

/-! `ActionNormalizer`: a proposed action becomes one request that its hash binds. -/
namespace Operant.Security
open Operant.Python

/-- `urlsplit(..)`. -/
structure SplitUrl where
  scheme : String
  hostname : Option String
  username : Option String
  /-- A port that is no number raises when it is asked for. -/
  port : Option (Option Nat)
  path : String
  query : String

/-- The file system, `str(..)` and `urlsplit(..)`. -/
structure Host where
  /-- `resolve(strict=True)`. -/
  resolve : String → Option String
  /-- `(root / path).resolve(strict=False)`. -/
  resolveUnder : String → String → String
  str : Value → String
  urlsplit : String → Option SplitUrl

/-- What an action is normalized from. -/
structure Proposal where
  principal : String
  tool : String
  operation : String
  arguments : Refs
  requestedCapabilities : List Capability
  idempotencyKey : String
  policyVersion : String
  workspace : Option String := none
  workspaceId : Option String := none
  secretRefs : List String := []
  dataClassification : String := "internal"
  sandboxProfile : String := "isolated"
  networkProfile : String := "none"
  dryRun : Bool := false

def pathParts (path : String) : List (List Char) := (path.toList.splitOn '/').filter (· ≠ [])

/-- `candidate == root or root in candidate.parents`, both resolved. -/
def isWithin (root candidate : String) : Bool := (pathParts root).isPrefixOf (pathParts candidate)

namespace Host
variable (host : Host)

/-- A non-empty array of strings without NUL. -/
def isArgv : Value → Bool
  | .list (part :: parts) => (part :: parts).all fun
    | .str s => '\x00' ∉ s.toList
    | _ => false
  | _ => false

def checkArgv (arguments : Refs) : Except Raised Refs :=
  match arguments.lookup "argv" with
  | some argv => if isArgv argv then return arguments
    else throw (.value "argv must be a non-empty string array")
  | none => return arguments

/-- A path of the workspace. -/
def normalizePath (root : Option String) (key : String) (arguments : Refs) : Except Raised Refs :=
  match arguments.lookup key with
  | none => return arguments
  | some path => match root with
    | none => throw (.value ("workspace is required to normalize " ++ key))
    | some root =>
      let candidate := host.resolveUnder root (host.str path)
      if isWithin root candidate then return arguments.set key (.str candidate)
      else throw (.value (key ++ " escapes the workspace"))

def invalidUrl : Raised := .value "url must be an http(s) endpoint without userinfo"

/-- `urlunsplit(..)` with a host, and without a fragment. -/
def urlunsplit (scheme netloc path query : String) : String :=
  scheme ++ "://" ++ netloc ++ path ++ (if query = "" then "" else "?" ++ query)

def normalizeUrl (arguments : Refs) : Except Raised Refs :=
  match arguments.lookup "url" with
  | none => return arguments
  | some url => match host.urlsplit (host.str url) with
    | none => throw (.value "urlsplit")
    | some parsed => match parsed.hostname with
      | none => throw invalidUrl
      | some hostname =>
        if parsed.scheme ∉ ["http", "https"] ∨ hostname = "" ∨ parsed.username.any (· ≠ "") then
          throw invalidUrl
        else match parsed.port with
          | none => throw (.value "port")
          | some port =>
            let netloc := match port with
              | some n => hostname.toLower ++ ":" ++ toString n
              | none => hostname.toLower
            let path := if parsed.path = "" then "/" else parsed.path
            return arguments.set "url" (.str (urlunsplit parsed.scheme.toLower netloc path parsed.query))

/-- `_normalize_arguments`, its root resolved. -/
def normalizeArguments (arguments : Refs) (root : Option String) : Except Raised Refs := do
  let arguments ← checkArgv (Dict.ofList arguments)
  let arguments ← host.normalizePath root "path" arguments
  let arguments ← host.normalizePath root "cwd" arguments
  host.normalizeUrl arguments

/-- `_normalize_target`. -/
def normalizeTarget (tool : String) (arguments : Refs) (root workspaceId : Option String) :
    Except Raised NormalizedTarget :=
  match arguments.lookup "url" with
  | some url => match host.urlsplit (host.str url) with
    | none => throw (.value "urlsplit")
    | some parsed => match parsed.port with
      | none => throw (.value "port")
      | some port =>
        let default := if parsed.scheme = "https" then 443 else 80
        let port := if port.any (· ≠ 0) then port.getD default else default
        return {
          targetType := "network_endpoint"
          targetId := parsed.scheme ++ "://" ++ parsed.hostname.getD "None" ++ ":" ++ toString port
          endpoint := some (host.str url)
          host := parsed.hostname
          port := some port }
  | none =>
    let given := ((arguments.lookup "path").filter Value.truthy).or ((arguments.lookup "cwd").filter Value.truthy)
    return {
      targetType := "workspace"
      targetId := ((workspaceId.filter (· ≠ "")).or (root.filter (· ≠ ""))).getD ("tool:" ++ tool)
      workspaceRef := (given.map host.str).or root }

end Host

/-- `_idempotency_level`. -/
def idempotencyLevel (tool operation : String) (arguments : Refs) : IdempotencyLevel :=
  let program := (executable arguments).getD ""
  if operation ∈ ["read", "list", "search", "diff", "check", "explain", "test"] then .readOnly
  else if tool = "run_command" ∧
      program ∈ ["curl", "wget", "ssh", "scp", "nc", "bash", "dash", "fish", "ksh", "pwsh", "sh", "zsh"] then
    .unknown
  else if tool = "run_command" ∧ program ∈ ["ruff", "mypy", "pytest", "git"] then .idempotent
  else if operation ∈ ["delete", "send", "submit", "push", "publish", "pay"] then .nonIdempotent
  else .unknown

/-- `_SECRET_REF`. -/
def isSecretRef (s : String) : Bool :=
  match s.toList with
  | [] => false
  | first :: rest => ('A' ≤ first && first ≤ 'Z') && rest.all (fun c =>
      ('A' ≤ c && c ≤ 'Z') || ('0' ≤ c && c ≤ '9') || c = '_') && 1 ≤ rest.length && rest.length ≤ 127

/-- `sorted(..)` of the values. -/
def sortedCapabilities (capabilities : List Capability) : List Capability :=
  capabilities.insertionSort fun a b => a.value ≤ b.value

mutual
/-- A value with its keys sorted, as it is hashed; what has no JSON has no hash. -/
def canonical : Value → Option Value
  | .null => some .null
  | .bool x => some (.bool x)
  | .int n => some (.int n)
  | .float x => some (.float x)
  | .str s => some (.str s)
  | .list xs => (canonicalList xs).map .list
  | .dict items => (canonicalItems items).map fun sorted => .dict (sorted.insertionSort fun a b => a.1 ≤ b.1)
  | .foreign => none

def canonicalList : List Value → Option (List Value)
  | [] => some []
  | x :: rest => (canonical x).bind fun y => (canonicalList rest).map (y :: ·)

def canonicalItems : List (String × Value) → Option (List (String × Value))
  | [] => some []
  | (key, x) :: rest => (canonical x).bind fun y => (canonicalItems rest).map ((key, y) :: ·)
end

def hasLength (s : String) (least most : Nat) : Bool := least ≤ s.toList.length && s.toList.length ≤ most

namespace ActionRequest

/-- The bounds of the fields of `NormalizedTarget` and of `ActionRequest`, and that secrets need
their capability. -/
def isValid (action : ActionRequest) : Bool :=
  hasLength action.normalizedTarget.targetId 1 500 &&
    action.normalizedTarget.workspaceRef.all (hasLength · 0 4096) &&
    action.normalizedTarget.endpoint.all (hasLength · 0 2048) &&
    action.normalizedTarget.host.all (hasLength · 0 253) &&
    action.normalizedTarget.port.all (fun n => 1 ≤ n && n ≤ 65535) &&
    hasLength action.principal 1 300 && hasLength action.tool 1 200 && hasLength action.operation 1 200 &&
    action.workspaceId.all (hasLength · 0 300) && hasLength action.dataClassification 0 100 &&
    1 ≤ action.requestedCapabilities.length && action.requestedCapabilities.length ≤ 32 &&
    hasLength action.sandboxProfile 0 100 && hasLength action.networkProfile 0 100 &&
    action.secretRefs.length ≤ 32 && hasLength action.idempotencyKey 1 300 &&
    hasLength action.policyVersion 1 100 &&
    (action.secretRefs.isEmpty || .secretUse ∈ action.requestedCapabilities)

/-- The hash binds the action: what is hashed is what the action says. -/
structure Bound (action : ActionRequest) : Prop where
  tool : action.actionHash.tool = action.tool
  operation : action.actionHash.operation = action.operation
  principal : action.actionHash.principal = action.principal
  target : action.actionHash.target = action.normalizedTarget
  arguments : canonical (.dict action.normalizedArguments) = some action.actionHash.arguments
  capabilities : action.actionHash.requestedCapabilities.dedup = action.requestedCapabilities
  idempotencyKey : action.actionHash.idempotencyKey = action.idempotencyKey
  policyVersion : action.actionHash.policyVersion = action.policyVersion

end ActionRequest

/-- `ActionNormalizer.normalize`, where the root is resolved. -/
def Proposal.normalizeIn (p : Proposal) (host : Host) (root : Option String) :
    Except Raised ActionRequest := do
  let arguments ← host.normalizeArguments p.arguments root
  let target ← host.normalizeTarget p.tool arguments root p.workspaceId
  let secretRefs := p.secretRefs.dedup.insertionSort fun a b => a ≤ b
  if !secretRefs.all isSecretRef then
    throw (.value "secret_ref must be an environment variable name")
  else match canonical (.dict arguments) with
    | none => throw (.other "TypeError")
    | some hashed =>
      let level := idempotencyLevel p.tool p.operation arguments
      let capabilities := sortedCapabilities p.requestedCapabilities
      let action : ActionRequest := {
        principal := p.principal
        tool := p.tool
        operation := p.operation
        normalizedTarget := target
        normalizedArguments := arguments
        workspaceId := p.workspaceId
        dataClassification := p.dataClassification
        requestedCapabilities := capabilities.dedup
        sandboxProfile := p.sandboxProfile
        networkProfile := p.networkProfile
        secretRefs := secretRefs
        dryRun := p.dryRun
        idempotencyKey := p.idempotencyKey
        actionHash := ⟨p.principal, p.tool, p.operation, target, hashed, p.workspaceId, capabilities,
          p.sandboxProfile, p.networkProfile, secretRefs, p.dryRun, p.idempotencyKey, p.policyVersion,
          level⟩
        policyVersion := p.policyVersion
        idempotencyLevel := level }
      if action.isValid then return action else throw (.value "ValidationError")

/-- `ActionNormalizer.normalize`. -/
def Proposal.normalize (p : Proposal) (host : Host) : Except Raised ActionRequest :=
  if p.requestedCapabilities = [] then throw (.value "at least one capability is required")
  else match p.workspace with
    | none => p.normalizeIn host none
    | some workspace => match host.resolve workspace with
      | none => throw (.other "OSError")
      | some root => p.normalizeIn host (some root)

end Operant.Security
