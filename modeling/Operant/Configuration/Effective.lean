import Operant.Configuration.Domain

/-! Scopes of configuration and what they come to for a role: `application/configuration.py`.

A row's `body_json` is the patch that it was dumped from. `ReviewerConfig` is a value that is only handed
on, and `sha256` stands for the digest of a workspace's reference. -/
namespace Operant.Configuration

/-- `Effort`. -/
inductive Effort where
  | low
  | medium
  | high
  deriving DecidableEq

inductive Failure where
  | value (text : String)
  | conflict (text : String)
  | notFound (text : String)
  deriving DecidableEq

/-! ### Patches and scopes -/

abbrev Prompt := {text : String // text.toList.length ≤ 20000}
abbrev ProfileId := {id : String // 1 ≤ id.toList.length ∧ id.toList.length ≤ 300}
abbrev Temperature := {q : ℚ // 0 ≤ q ∧ q ≤ 2}
abbrev Bindings := {ids : List String // ids.length ≤ 100 ∧ ids.Nodup ∧
  ∀ id ∈ ids, id ≠ "" ∧ id.toList.length ≤ 300}

/-- `ConfigPatch.explicit`: the fields that are set and not null. -/
structure ConfigPatch (Reviewer : Type) where
  systemPrompt : Option Prompt := none
  modelProfileId : Option ProfileId := none
  effort : Option Effort := none
  toolPolicy : Option PolicyPatch := none
  budget : Option BudgetPatch := none
  temperature : Option Temperature := none
  skillIds : Option Bindings := none
  mcpServerIds : Option Bindings := none
  approvalReviewer : Option Reviewer := none

inductive ScopeType where
  | global
  | project
  | workspace
  | role
  deriving DecidableEq

def ScopeType.ofString : String → Option ScopeType
  | "global" => some .global
  | "project" => some .project
  | "workspace" => some .workspace
  | "role" => some .role
  | _ => none

/-- `ScopeRecord`, and with a revision of at least one a row of `scope_configs`. -/
structure ScopeRecord (Reviewer : Type) where
  scopeType : ScopeType
  scopeId : String
  patch : ConfigPatch Reviewer := {}
  revision : Nat := 0
  updatedAt : Option String := none

/-- Of a `ModelProfile`, what a configuration is held against. -/
structure ModelProfile where
  id : String
  enabled : Bool := true
  supportedEfforts : List Effort := [.low, .medium, .high]
  supportsTemperature : Bool := false

structure Store (Reviewer : Type) where
  scopeConfigs : List (ScopeRecord Reviewer) := []
  modelProfiles : List ModelProfile := []
  mcpServers : List String := []

section
variable {Reviewer : Type}

/-- `_check_scope`. -/
def checkScope (scopeType scopeId : String) : Except Failure ScopeType :=
  match ScopeType.ofString scopeType with
  | none => .error (.value "invalid configuration scope")
  | some checked =>
    if scopeId = "" ∨ 300 < scopeId.toList.length then .error (.value "invalid configuration scope")
    else if checked = .global ∧ scopeId ≠ "default" then
      .error (.value "global configuration uses scope_id 'default'")
    else .ok checked

namespace Store
variable (store : Store Reviewer)

def row (scopeType : ScopeType) (scopeId : String) : Option (ScopeRecord Reviewer) :=
  store.scopeConfigs.find? fun row => row.scopeType = scopeType ∧ row.scopeId = scopeId

/-- `get_scope`. -/
def getScope (scopeType scopeId : String) : Except Failure (ScopeRecord Reviewer) := do
  let checked ← checkScope scopeType scopeId
  pure ((store.row checked scopeId).getD { scopeType := checked, scopeId := scopeId })

def revision (scopeType : ScopeType) (scopeId : String) : Nat :=
  ((store.row scopeType scopeId).map (·.revision)).getD 0

/-- The table without a scope. -/
def without (scopeType : ScopeType) (scopeId : String) : List (ScopeRecord Reviewer) :=
  store.scopeConfigs.filter fun row => ¬(row.scopeType = scopeType ∧ row.scopeId = scopeId)

/-- `put_scope`: it replaces what the scope held. -/
def putScope (scopeType scopeId : String) (patch : ConfigPatch Reviewer) (expectedRevision : Int)
    (stamp : String) : Except Failure (ScopeRecord Reviewer × Store Reviewer) := do
  let checked ← checkScope scopeType scopeId
  if expectedRevision < 0 then throw (.value "expected_revision must be nonnegative")
  if checked ≠ .global ∧ patch.approvalReviewer.isSome then
    throw (.value "approval reviewer is a global safety setting")
  let actual := store.revision checked scopeId
  if (actual : Int) ≠ expectedRevision then throw (.conflict "configuration revision changed")
  let record : ScopeRecord Reviewer := ⟨checked, scopeId, patch, actual + 1, some stamp⟩
  pure (record, { store with scopeConfigs := record :: store.without checked scopeId })

/-- `delete_scope`. -/
def deleteScope (scopeType scopeId : String) (expectedRevision : Int) :
    Except Failure (Store Reviewer) := do
  let checked ← checkScope scopeType scopeId
  if (store.revision checked scopeId : Int) ≠ expectedRevision then
    throw (.conflict "configuration revision changed")
  pure { store with scopeConfigs := store.without checked scopeId }

/-- What was put is what is got. -/
theorem getScope_putScope {scopeType scopeId stamp : String} {patch : ConfigPatch Reviewer} {expected : Int}
    {record : ScopeRecord Reviewer} {after : Store Reviewer}
    (h : store.putScope scopeType scopeId patch expected stamp = .ok (record, after)) :
    after.getScope scopeType scopeId = .ok record ∧ record.patch = patch := by
  unfold putScope at h
  cases hcheck : checkScope scopeType scopeId with
  | error failure => rw [hcheck] at h; cases h
  | ok checked =>
    simp only [hcheck, bind, Except.bind, pure, Except.pure, throw, throwThe, MonadExceptOf.throw] at h
    split at h
    · cases h
    · split at h
      · cases h
      · split at h
        · cases h
        · cases h
          refine ⟨?_, rfl⟩
          simp [getScope, hcheck, row, bind, Except.bind, pure, Except.pure]

end Store

/-! ### A workspace's scope -/

/-- The root of a path and the rest of it. -/
def splitroot : List Char → List Char × List Char
  | '/' :: '/' :: '/' :: rest => (['/'], '/' :: '/' :: rest)
  | '/' :: '/' :: rest => (['/', '/'], rest)
  | '/' :: rest => (['/'], rest)
  | path => ([], path)

/-- A component of a path, put behind the ones before it, the last of them first. -/
def normalized (rooted : Bool) (before : List (List Char)) (component : List Char) : List (List Char) :=
  if component = [] ∨ component = ['.'] then before
  else if component ≠ ['.', '.'] ∨ (!rooted ∧ before = []) ∨ before.head? = some ['.', '.'] then
    component :: before
  else before.tail

/-- `posixpath.normpath`. -/
def normpath (path : String) : String :=
  let (root, rest) := splitroot path.toList
  let components := (rest.splitOn '/').foldl (normalized (!root.isEmpty)) []
  let joined := root ++ ['/'].intercalate components.reverse
  if joined = [] then "." else .ofList joined

/-- `workspace_scope_id`. -/
def workspaceScopeId (sha256 : String → String) (workspaceRef : String) : Except Failure String :=
  if workspaceRef.toList.head? ≠ some '/' ∨ Char.ofNat 0 ∈ workspaceRef.toList ∨
      normpath workspaceRef ≠ workspaceRef then
    .error (.value "workspace_ref must be a canonical absolute path")
  else .ok (sha256 workspaceRef)

/-! ### Layers -/

/-- `RolePreset`. -/
structure RolePreset where
  id : String
  systemPrompt : {text : String // text ≠ ""}
  modelProfileId : {id : String // id ≠ ""}
  effort : Effort := .medium
  toolPolicy : ToolPolicy := .unset
  budget : Budget := {}

inductive SourceType where
  | roleBase
  | scope (scopeType : ScopeType)
  | run
  deriving DecidableEq

/-- `ConfigSource`. -/
structure ConfigSource where
  scopeType : SourceType
  scopeId : String
  deriving DecidableEq

/-- The keys of the values. -/
inductive Setting where
  | systemPrompt
  | modelProfileId
  | effort
  | toolPolicy
  | budget
  | temperature
  | skillIds
  | mcpServerIds
  | approvalReviewer
  deriving DecidableEq

/-- The values of a configuration. The temperature's key may be missing. -/
structure Values (Reviewer : Type) where
  systemPrompt : String
  modelProfileId : String
  effort : Effort
  toolPolicy : ToolPolicy
  budget : Budget
  temperature : Option (Option Temperature)
  skillIds : List String
  mcpServerIds : List String
  approvalReviewer : Reviewer

/-- Values, and where they are from. -/
structure Layered (Reviewer : Type) where
  values : Values Reviewer
  sources : Setting → Option ConfigSource
  promptSources : List ConfigSource

abbrev Layer (Reviewer : Type) := ConfigSource × ConfigPatch Reviewer

/-- What a patch sets. -/
def ConfigPatch.mentions (patch : ConfigPatch Reviewer) : Setting → Bool
  | .systemPrompt => patch.systemPrompt.isSome
  | .modelProfileId => patch.modelProfileId.isSome
  | .effort => patch.effort.isSome
  | .toolPolicy => patch.toolPolicy.isSome
  | .budget => patch.budget.isSome
  | .temperature => patch.temperature.isSome
  | .skillIds => patch.skillIds.isSome
  | .mcpServerIds => patch.mcpServerIds.isSome
  | .approvalReviewer => patch.approvalReviewer.isSome

/-- A run's budget must not raise a limit; a scope's is cut down to the limits there are. -/
def layBudget (source : ConfigSource) (current : Budget) : Option BudgetPatch → Except Failure Budget
  | none => .ok current
  | some requested =>
    if source.scopeType = .run then
      (current.narrowed requested).mapError fun key => .value ("Agent budget cannot increase " ++ key)
    else .ok (narrowBudget current requested)

def layPolicy (current : ToolPolicy) : Option PolicyPatch → ToolPolicy
  | none => current
  | some requested => narrowPolicy current requested.validated

def layPrompt (current : String) : Option Prompt → String
  | none => current
  | some addition => if addition.val = "" then current else current ++ "\n\n" ++ addition.val

/-- One round of the loop over the layers. -/
def lay (current : Layered Reviewer) (layer : Layer Reviewer) : Except Failure (Layered Reviewer) := do
  let (source, patch) := layer
  let values := current.values
  let budget ← layBudget source values.budget patch.budget
  pure {
    values := {
      systemPrompt := layPrompt values.systemPrompt patch.systemPrompt
      modelProfileId := (patch.modelProfileId.map (·.val)).getD values.modelProfileId
      effort := patch.effort.getD values.effort
      toolPolicy := layPolicy values.toolPolicy patch.toolPolicy
      budget := budget
      temperature := (patch.temperature.map fun value => some (some value)).getD values.temperature
      skillIds := (patch.skillIds.map (·.val)).getD values.skillIds
      mcpServerIds := (patch.mcpServerIds.map (·.val)).getD values.mcpServerIds
      approvalReviewer := patch.approvalReviewer.getD values.approvalReviewer }
    sources := fun setting => if patch.mentions setting then some source else current.sources setting
    promptSources := if patch.systemPrompt.isSome then current.promptSources ++ [source]
      else current.promptSources }

/-! ### The effective configuration -/

/-- Where a role begins. -/
def roleBase [Inhabited Reviewer] (role : RolePreset) : Layered Reviewer where
  values := {
    systemPrompt := role.systemPrompt.val
    modelProfileId := role.modelProfileId.val
    effort := role.effort
    toolPolicy := role.toolPolicy
    budget := role.budget
    temperature := some none
    skillIds := []
    mcpServerIds := []
    approvalReviewer := default }
  sources := fun _ => some ⟨.roleBase, role.id⟩
  promptSources := [⟨.roleBase, role.id⟩]

/-- What an execution is configured from. -/
structure Request (Reviewer : Type) where
  role : RolePreset
  projectId : Option String := none
  workspaceRef : Option String := none
  runOverrides : Option (ConfigPatch Reviewer) := none

/-- `EffectiveConfig`. -/
structure EffectiveConfig (Reviewer : Type) extends Layered Reviewer where
  scopes : List (ScopeRecord Reviewer)
  revisions : List (ScopeType × Nat)

/-- A scope that may not be asked for. -/
def optionalScope (name : Option String) (get : String → Except Failure (ScopeRecord Reviewer)) :
    Except Failure (List (ScopeRecord Reviewer)) :=
  match name with
  | none => .ok []
  | some name => if name = "" then .ok [] else (get name).map ([·])

/-- The scopes of a request, from the widest to the closest. -/
def Store.scopes (sha256 : String → String) (store : Store Reviewer) (request : Request Reviewer) :
    Except Failure (List (ScopeRecord Reviewer)) := do
  let global ← store.getScope "global" "default"
  let project ← optionalScope request.projectId (store.getScope "project")
  let workspace ← optionalScope request.workspaceRef fun ref =>
    do store.getScope "workspace" (← workspaceScopeId sha256 ref)
  let role ← store.getScope "role" request.role.id
  pure (global :: (project ++ workspace ++ [role]))

/-- `all_layers`: the scopes, and then the run. -/
def allLayers (scopes : List (ScopeRecord Reviewer)) (runOverrides : Option (ConfigPatch Reviewer)) :
    List (Layer Reviewer) :=
  (scopes.map fun item => (⟨.scope item.scopeType, item.scopeId⟩, item.patch)) ++
    (runOverrides.toList.map fun patch => (⟨.run, "new"⟩, patch))

/-- What the model that was chosen must support. -/
def checkModel (profile : ModelProfile) (values : Values Reviewer) : Except Failure Unit := do
  if !profile.enabled then throw (.value "effective model profile is inactive")
  if !profile.supportedEfforts.contains values.effort then
    throw (.value "effective effort is unsupported by the selected model")
  if values.temperature.join.isSome ∧ !profile.supportsTemperature then
    throw (.value "selected model profile does not support temperature")

/-- The temperature of a model that has none is taken out. -/
def dropTemperature (profile : ModelProfile) (layered : Layered Reviewer) : Layered Reviewer :=
  if profile.supportsTemperature then layered
  else { layered with
    values := { layered.values with temperature := none }
    sources := fun setting => if setting = .temperature then none else layered.sources setting }

/-- `effective`. -/
def effective [Inhabited Reviewer] (sha256 : String → String) (store : Store Reviewer)
    (request : Request Reviewer) : Except Failure (EffectiveConfig Reviewer) := do
  let scopes ← store.scopes sha256 request
  let layered ← (allLayers scopes request.runOverrides).foldlM lay (roleBase request.role)
  let profile ← match store.modelProfiles.find? (·.id = layered.values.modelProfileId) with
    | some profile => pure profile
    | none => throw (.notFound ("model profile not found: " ++ layered.values.modelProfileId))
  checkModel profile layered.values
  if layered.values.mcpServerIds.any fun id => !store.mcpServers.contains id then
    throw (.value "bound MCP server is not registered")
  pure { dropTemperature profile layered with
    scopes := scopes
    revisions := scopes.map fun item => (item.scopeType, item.revision) }

end

end Operant.Configuration
