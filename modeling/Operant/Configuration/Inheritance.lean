import Operant.Configuration.Narrowing

/-! What no scope mentions.

Top-level values and limits of a budget stay as they were. A tool policy is filled with defaults before
it is intersected, so that a field of it which nobody mentions is met with its default. -/
namespace Operant.Configuration

/-! ### A field of a policy under a stack of patches -/

section
variable {σ α β : Type} {step : σ → α → σ}

/-- A field that every step changes by one idempotent function is changed once. -/
theorem foldl_field {f : σ → β} {g : β → β} (idempotent : ∀ x, g (g x) = g x) {a : α} {rest : List α}
    (changes : ∀ b ∈ a :: rest, ∀ s, f (step s b) = g (f s)) (s : σ) :
    f ((a :: rest).foldl step s) = g (f s) := by
  induction rest generalizing a s with
  | nil => exact changes a List.mem_cons_self s
  | cons b rest ih =>
    have hlater : f ((b :: rest).foldl step (step s a)) = g (f (step s a)) :=
      ih (fun c hc => changes c (List.mem_cons_of_mem _ hc)) (step s a)
    rw [List.foldl_cons, hlater, changes a List.mem_cons_self s, idempotent]

theorem foldl_invariant {P : σ → Prop} {steps : List α} (keeps : ∀ a ∈ steps, ∀ s, P s → P (step s a)) {s : σ}
    (h : P s) : P (steps.foldl step s) := by
  induction steps generalizing s with
  | nil => exact h
  | cons a rest ih =>
    exact ih (fun b hb => keeps b (List.mem_cons_of_mem _ hb)) (keeps a List.mem_cons_self s h)

end

/-- The fields of the command policy that a patch sets. -/
def PolicyPatch.command (patch : PolicyPatch) : CommandPatch := patch.commandExecutionPolicy.getD {}

@[simp] theorem PolicyPatch.validated_command (patch : PolicyPatch) :
    patch.validated.commandExecutionPolicy = patch.command.validated := rfl

/-- The policy under patches, one by one. -/
def layPolicies (base : ToolPolicy) (patches : List PolicyPatch) : ToolPolicy :=
  patches.foldl (fun policy patch => narrowPolicy policy patch.validated) base

/-- A policy's fields that no patch sets are the same before and after. -/
structure PolicyInherited (patches : List PolicyPatch) (before after : ToolPolicy) : Prop where
  allowedTools : (∀ patch ∈ patches, patch.allowedTools = none) → after.allowedTools = before.allowedTools
  workspaceWrite : (∀ patch ∈ patches, patch.workspaceWrite = none) → after.workspaceWrite = before.workspaceWrite
  commandExecution : (∀ patch ∈ patches, patch.commandExecution = none) →
    after.commandExecution = before.commandExecution
  approvalRequired : (∀ patch ∈ patches, patch.approvalRequired = none) →
    after.approvalRequired = before.approvalRequired
  runner : (∀ patch ∈ patches, patch.command.runner = none) →
    after.commandExecutionPolicy.runner = before.commandExecutionPolicy.runner
  dockerImage : (∀ patch ∈ patches, patch.command.dockerImage = none) →
    after.commandExecutionPolicy.dockerImage = before.commandExecutionPolicy.dockerImage
  cpuLimit : (∀ patch ∈ patches, patch.command.cpuLimit = none) →
    after.commandExecutionPolicy.cpuLimit = before.commandExecutionPolicy.cpuLimit
  memoryLimitMb : (∀ patch ∈ patches, patch.command.memoryLimitMb = none) →
    after.commandExecutionPolicy.memoryLimitMb = before.commandExecutionPolicy.memoryLimitMb
  pidsLimit : (∀ patch ∈ patches, patch.command.pidsLimit = none) →
    after.commandExecutionPolicy.pidsLimit = before.commandExecutionPolicy.pidsLimit

/-- A policy's fields that no patch sets are within the defaults: nothing is allowed, the approvals are
sorted and hold the default ones, a host's image is the default one, the limits are no higher. -/
structure WithinDefaults (patches : List PolicyPatch) (base : ToolPolicy) : Prop where
  allowedTools : (∀ patch ∈ patches, patch.allowedTools = none) → base.allowedTools.val = []
  workspaceWrite : (∀ patch ∈ patches, patch.workspaceWrite = none) → base.workspaceWrite = false
  commandExecution : (∀ patch ∈ patches, patch.commandExecution = none) → base.commandExecution = false
  approvalRequired : (∀ patch ∈ patches, patch.approvalRequired = none) →
    base.approvalRequired = sortedSet (base.approvalRequired ++ defaultApprovals)
  dockerImage : (∀ patch ∈ patches, patch.command.dockerImage = none) →
    base.commandExecutionPolicy.runner = .docker ∨
      base.commandExecutionPolicy.dockerImage = ({} : CommandExecutionPolicy).dockerImage
  cpuLimit : (∀ patch ∈ patches, patch.command.cpuLimit = none) →
    base.commandExecutionPolicy.cpuLimit ≤ ({} : CommandExecutionPolicy).cpuLimit
  memoryLimitMb : (∀ patch ∈ patches, patch.command.memoryLimitMb = none) →
    base.commandExecutionPolicy.memoryLimitMb ≤ ({} : CommandExecutionPolicy).memoryLimitMb
  pidsLimit : (∀ patch ∈ patches, patch.command.pidsLimit = none) →
    base.commandExecutionPolicy.pidsLimit ≤ ({} : CommandExecutionPolicy).pidsLimit

section
variable {base : ToolPolicy} {first : PolicyPatch} {rest : List PolicyPatch}

/-- A field that no patch sets is met with its default once. -/
theorem policy_field {β : Type} {f : ToolPolicy → β} {g : β → β} (idempotent : ∀ x, g (g x) = g x)
    (changes : ∀ patch ∈ first :: rest, ∀ policy, f (narrowPolicy policy patch.validated) = g (f policy)) :
    f (layPolicies base (first :: rest)) = g (f base) :=
  foldl_field idempotent changes base

theorem tools_met (h : ∀ patch ∈ first :: rest, patch.allowedTools = none) :
    (layPolicies base (first :: rest)).allowedTools = ⟨[], by simp⟩ :=
  policy_field (f := ToolPolicy.allowedTools) (g := fun _ => ⟨[], by simp⟩) (fun _ => rfl) fun patch hpatch policy => by
    have hnone : (patch.validated).allowedTools.val = [] := by simp [PolicyPatch.validated, h patch hpatch]
    have hempty : (commonTools policy.allowedTools patch.validated.allowedTools).val = [] :=
      List.eq_nil_iff_forall_not_mem.mpr fun name hname => by
        simpa [hnone] using (mem_commonTools.mp hname).2
    exact Subtype.ext hempty

theorem write_met (h : ∀ patch ∈ first :: rest, patch.workspaceWrite = none) :
    (layPolicies base (first :: rest)).workspaceWrite = false :=
  policy_field (f := ToolPolicy.workspaceWrite) (g := fun _ => false) (fun _ => rfl) fun patch hpatch policy => by
    simp [narrowPolicy, PolicyPatch.validated, h patch hpatch]

theorem command_met (h : ∀ patch ∈ first :: rest, patch.commandExecution = none) :
    (layPolicies base (first :: rest)).commandExecution = false :=
  policy_field (f := ToolPolicy.commandExecution) (g := fun _ => false) (fun _ => rfl) fun patch hpatch policy => by
    simp [narrowPolicy, PolicyPatch.validated, h patch hpatch]

theorem approvals_met (h : ∀ patch ∈ first :: rest, patch.approvalRequired = none) :
    (layPolicies base (first :: rest)).approvalRequired =
      sortedSet (base.approvalRequired ++ defaultApprovals) :=
  policy_field (f := ToolPolicy.approvalRequired) (g := fun xs => sortedSet (xs ++ defaultApprovals))
    (fun xs => sortedSet_congr fun x => by simp)
    fun patch hpatch policy => by simp [narrowPolicy, PolicyPatch.validated, h patch hpatch]

theorem runner_met (h : ∀ patch ∈ first :: rest, patch.command.runner = none) :
    (layPolicies base (first :: rest)).commandExecutionPolicy.runner = base.commandExecutionPolicy.runner :=
  policy_field (f := fun policy => policy.commandExecutionPolicy.runner) (g := id) (fun _ => rfl)
    fun patch hpatch policy => by
      have hhost : (patch.validated).commandExecutionPolicy.runner = .host := by
        simp [CommandPatch.validated, h patch hpatch]
      simp only [narrowPolicy, narrowCommand, hhost, id]
      cases policy.commandExecutionPolicy.runner <;> rfl

theorem cpu_met (h : ∀ patch ∈ first :: rest, patch.command.cpuLimit = none) :
    (layPolicies base (first :: rest)).commandExecutionPolicy.cpuLimit =
      min base.commandExecutionPolicy.cpuLimit ({} : CommandExecutionPolicy).cpuLimit :=
  policy_field (f := fun policy => policy.commandExecutionPolicy.cpuLimit) (g := fun limit => min limit _)
    (fun limit => by rw [min_assoc, min_self]) fun patch hpatch policy => by
      simp [narrowPolicy, narrowCommand, CommandPatch.validated, h patch hpatch]

theorem memory_met (h : ∀ patch ∈ first :: rest, patch.command.memoryLimitMb = none) :
    (layPolicies base (first :: rest)).commandExecutionPolicy.memoryLimitMb =
      min base.commandExecutionPolicy.memoryLimitMb ({} : CommandExecutionPolicy).memoryLimitMb :=
  policy_field (f := fun policy => policy.commandExecutionPolicy.memoryLimitMb) (g := fun limit => min limit _)
    (fun limit => by rw [min_assoc, min_self]) fun patch hpatch policy => by
      simp [narrowPolicy, narrowCommand, CommandPatch.validated, h patch hpatch]

theorem pids_met (h : ∀ patch ∈ first :: rest, patch.command.pidsLimit = none) :
    (layPolicies base (first :: rest)).commandExecutionPolicy.pidsLimit =
      min base.commandExecutionPolicy.pidsLimit ({} : CommandExecutionPolicy).pidsLimit :=
  policy_field (f := fun policy => policy.commandExecutionPolicy.pidsLimit) (g := fun limit => min limit _)
    (fun limit => by rw [min_assoc, min_self]) fun patch hpatch policy => by
      simp [narrowPolicy, narrowCommand, CommandPatch.validated, h patch hpatch]

theorem layPolicies_docker (patches : List PolicyPatch) (h : base.commandExecutionPolicy.runner = .docker) :
    (layPolicies base patches).commandExecutionPolicy.dockerImage = base.commandExecutionPolicy.dockerImage := by
  have hkept : (layPolicies base patches).commandExecutionPolicy.runner = .docker ∧
      (layPolicies base patches).commandExecutionPolicy.dockerImage = base.commandExecutionPolicy.dockerImage :=
    foldl_invariant (P := fun policy => policy.commandExecutionPolicy.runner = .docker ∧
        policy.commandExecutionPolicy.dockerImage = base.commandExecutionPolicy.dockerImage)
      (fun patch _ policy hpolicy => ⟨(narrowPolicy_tighter policy _).docker hpolicy.1,
        (narrowPolicy_image _ hpolicy.1).trans hpolicy.2⟩) ⟨h, rfl⟩
  exact hkept.2

theorem narrowPolicy_dockerImage (policy requested : ToolPolicy) :
    (narrowPolicy policy requested).commandExecutionPolicy.dockerImage =
      if policy.commandExecutionPolicy.runner = .docker then policy.commandExecutionPolicy.dockerImage
      else requested.commandExecutionPolicy.dockerImage := rfl

/-- A host's image is replaced by the default one. -/
theorem image_met (h : ∀ patch ∈ first :: rest, patch.command.dockerImage = none)
    (hhost : base.commandExecutionPolicy.runner ≠ .docker) :
    (layPolicies base (first :: rest)).commandExecutionPolicy.dockerImage =
      ({} : CommandExecutionPolicy).dockerImage := by
  have hdefault : ∀ patch ∈ first :: rest,
      patch.validated.commandExecutionPolicy.dockerImage = ({} : CommandExecutionPolicy).dockerImage :=
    fun patch hpatch => by
      simp [CommandPatch.validated, h patch hpatch]
  have hfirst : (narrowPolicy base first.validated).commandExecutionPolicy.dockerImage =
      ({} : CommandExecutionPolicy).dockerImage := by
    rw [narrowPolicy_dockerImage, if_neg hhost, hdefault first List.mem_cons_self]
  show (layPolicies (narrowPolicy base first.validated) rest).commandExecutionPolicy.dockerImage = _
  refine foldl_invariant
    (P := fun policy : ToolPolicy => policy.commandExecutionPolicy.dockerImage = ({} : CommandExecutionPolicy).dockerImage)
    (fun patch hpatch policy hpolicy => ?_) hfirst
  rw [narrowPolicy_dockerImage, hpolicy, hdefault patch (List.mem_cons_of_mem _ hpatch), ite_self]

/-- Under patches a policy keeps what they do not set exactly where that is within the defaults. -/
theorem policyInherited_iff :
    PolicyInherited (first :: rest) base (layPolicies base (first :: rest)) ↔
      WithinDefaults (first :: rest) base := by
  constructor
  · intro h
    refine { allowedTools := fun hnone => ?_, workspaceWrite := fun hnone => ?_, commandExecution := fun hnone => ?_,
             approvalRequired := fun hnone => ?_, dockerImage := fun hnone => ?_, cpuLimit := fun hnone => ?_,
             memoryLimitMb := fun hnone => ?_, pidsLimit := fun hnone => ?_ }
    · rw [← h.allowedTools hnone, tools_met hnone]
    · rw [← h.workspaceWrite hnone, write_met hnone]
    · rw [← h.commandExecution hnone, command_met hnone]
    · exact (h.approvalRequired hnone).symm.trans (approvals_met hnone)
    · by_cases hdocker : base.commandExecutionPolicy.runner = .docker
      · exact .inl hdocker
      · exact .inr ((h.dockerImage hnone).symm.trans (image_met hnone hdocker))
    · exact min_eq_left_iff.mp ((cpu_met hnone).symm.trans (h.cpuLimit hnone))
    · exact min_eq_left_iff.mp ((memory_met hnone).symm.trans (h.memoryLimitMb hnone))
    · exact min_eq_left_iff.mp ((pids_met hnone).symm.trans (h.pidsLimit hnone))
  · intro h
    refine { allowedTools := fun hnone => ?_, workspaceWrite := fun hnone => ?_, commandExecution := fun hnone => ?_,
             approvalRequired := fun hnone => ?_, runner := runner_met, dockerImage := fun hnone => ?_,
             cpuLimit := fun hnone => ?_, memoryLimitMb := fun hnone => ?_, pidsLimit := fun hnone => ?_ }
    · exact (tools_met hnone).trans (Subtype.ext (h.allowedTools hnone).symm)
    · rw [write_met hnone, h.workspaceWrite hnone]
    · rw [command_met hnone, h.commandExecution hnone]
    · exact (approvals_met hnone).trans (h.approvalRequired hnone).symm
    · by_cases hdocker : base.commandExecutionPolicy.runner = .docker
      · exact layPolicies_docker _ hdocker
      · exact (image_met hnone hdocker).trans ((h.dockerImage hnone).resolve_left hdocker).symm
    · exact (cpu_met hnone).trans (min_eq_left (h.cpuLimit hnone))
    · exact (memory_met hnone).trans (min_eq_left (h.memoryLimitMb hnone))
    · exact (pids_met hnone).trans (min_eq_left (h.pidsLimit hnone))

theorem policyInherited_nil (policy : ToolPolicy) : PolicyInherited [] policy policy :=
  ⟨fun _ => rfl, fun _ => rfl, fun _ => rfl, fun _ => rfl, fun _ => rfl, fun _ => rfl, fun _ => rfl, fun _ => rfl,
    fun _ => rfl⟩

end

/-! ### Limits of a budget -/

/-- The limits that no patch names are the same before and after. -/
structure BudgetInherited (patches : List BudgetPatch) (before after : Budget) : Prop where
  maxTurns : (∀ patch ∈ patches, patch.maxTurns = none) → after.maxTurns = before.maxTurns
  maxConsecutiveTestFailures : (∀ patch ∈ patches, patch.maxConsecutiveTestFailures = none) →
    after.maxConsecutiveTestFailures = before.maxConsecutiveTestFailures
  timeoutSeconds : (∀ patch ∈ patches, patch.timeoutSeconds = none) → after.timeoutSeconds = before.timeoutSeconds
  maxOutputTokens : (∀ patch ∈ patches, patch.maxOutputTokens = none) →
    after.maxOutputTokens = before.maxOutputTokens
  maxCostUsd : (∀ patch ∈ patches, patch.maxCostUsd = none) → after.maxCostUsd = before.maxCostUsd
  maxToolCalls : (∀ patch ∈ patches, patch.maxToolCalls = none) → after.maxToolCalls = before.maxToolCalls

section
variable {Reviewer : Type}

def policyPatches (layers : List (Layer Reviewer)) : List PolicyPatch := layers.filterMap (·.2.toolPolicy)

def budgetPatches (layers : List (Layer Reviewer)) : List BudgetPatch := layers.filterMap (·.2.budget)

/-- What neither a cut nor a selection changes of a budget is what it was. -/
theorem layers_budget {β : Type} (f : Budget → β) {layers : List (Layer Reviewer)} {before after : Layered Reviewer}
    (h : layers.foldlM lay before = .ok after)
    (cut : ∀ patch ∈ budgetPatches layers, ∀ budget, f (narrowBudget budget patch) = f budget)
    (select : ∀ patch ∈ budgetPatches layers, ∀ budget : Budget, f (budget.selected patch) = f budget) :
    f after.values.budget = f before.values.budget :=
  foldlM_keeps (f := fun layered => f layered.values.budget) (fun layer hlayer s t hstep => by
    have hpatch : ∀ patch, layer.2.budget = some patch → patch ∈ budgetPatches layers :=
      fun patch hsome => List.mem_filterMap.mpr ⟨layer, hlayer, hsome⟩
    obtain ⟨-, hsame⟩ | ⟨patch, hsome, ⟨-, hselected, -⟩ | ⟨-, hcut⟩⟩ := layBudget_ok (lay_laid hstep).budget
    · rw [hsame]
    · rw [hselected, select patch (hpatch patch hsome)]
    · rw [hcut, cut patch (hpatch patch hsome)]) h

theorem layers_budgetInherited {layers : List (Layer Reviewer)} {before after : Layered Reviewer}
    (h : layers.foldlM lay before = .ok after) :
    BudgetInherited (budgetPatches layers) before.values.budget after.values.budget := by
  refine { maxTurns := fun hnone => layers_budget (·.maxTurns) h ?_ ?_
           maxConsecutiveTestFailures := fun hnone => layers_budget (·.maxConsecutiveTestFailures) h ?_ ?_
           timeoutSeconds := fun hnone => layers_budget (·.timeoutSeconds) h ?_ ?_
           maxOutputTokens := fun hnone => layers_budget (·.maxOutputTokens) h ?_ ?_
           maxCostUsd := fun hnone => layers_budget (·.maxCostUsd) h ?_ ?_
           maxToolCalls := fun hnone => layers_budget (·.maxToolCalls) h ?_ ?_ }
  all_goals
    intro patch hpatch budget
    simp [narrowBudget, Budget.selected, hnone patch hpatch, narrowLimit, narrowOptional]

/-! ### A configuration -/

/-- What no layer mentions is the same before and after. A temperature that is null and one that is
missing are both none. -/
structure Inherited (layers : List (Layer Reviewer)) (before after : Values Reviewer) : Prop where
  systemPrompt : (∀ layer ∈ layers, layer.2.systemPrompt = none) → after.systemPrompt = before.systemPrompt
  modelProfileId : (∀ layer ∈ layers, layer.2.modelProfileId = none) →
    after.modelProfileId = before.modelProfileId
  effort : (∀ layer ∈ layers, layer.2.effort = none) → after.effort = before.effort
  temperature : (∀ layer ∈ layers, layer.2.temperature = none) → after.temperature.join = before.temperature.join
  skillIds : (∀ layer ∈ layers, layer.2.skillIds = none) → after.skillIds = before.skillIds
  mcpServerIds : (∀ layer ∈ layers, layer.2.mcpServerIds = none) → after.mcpServerIds = before.mcpServerIds
  approvalReviewer : (∀ layer ∈ layers, layer.2.approvalReviewer = none) →
    after.approvalReviewer = before.approvalReviewer
  toolPolicy : PolicyInherited (policyPatches layers) before.toolPolicy after.toolPolicy
  budget : BudgetInherited (budgetPatches layers) before.budget after.budget

theorem layers_policy {layers : List (Layer Reviewer)} {before after : Layered Reviewer}
    (h : layers.foldlM lay before = .ok after) :
    after.values.toolPolicy = layPolicies before.values.toolPolicy (policyPatches layers) := by
  induction layers generalizing before with
  | nil => cases h; rfl
  | cons layer rest ih =>
    obtain ⟨middle, hfirst, hrest⟩ := foldlM_cons_ok.mp h
    rw [ih hrest, (lay_laid hfirst).toolPolicy]
    simp only [policyPatches, List.filterMap_cons]
    cases layer.2.toolPolicy with
    | none => rfl
    | some patch => rfl

theorem layers_inherited {layers : List (Layer Reviewer)} {before after : Layered Reviewer}
    (h : layers.foldlM lay before = .ok after) :
    Inherited layers before.values after.values ↔
      policyPatches layers = [] ∨ WithinDefaults (policyPatches layers) before.values.toolPolicy := by
  have hpolicy : PolicyInherited (policyPatches layers) before.values.toolPolicy after.values.toolPolicy ↔
      policyPatches layers = [] ∨ WithinDefaults (policyPatches layers) before.values.toolPolicy := by
    rw [layers_policy h]
    cases policyPatches layers with
    | nil => exact iff_of_true (policyInherited_nil _) (.inl rfl)
    | cons first rest => rw [policyInherited_iff, or_iff_right (List.cons_ne_nil _ _)]
  have hlaid : ∀ {layer : Layer Reviewer} {s t : Layered Reviewer}, lay s layer = .ok t →
      Laid s.values layer.1 layer.2 t.values := lay_laid
  constructor
  · exact fun hinherited => hpolicy.mp hinherited.toolPolicy
  · intro hwithin
    refine { systemPrompt := fun hnone => foldlM_keeps (f := (·.values.systemPrompt)) (fun a ha s t hst => ?_) h
             modelProfileId := fun hnone => foldlM_keeps (f := (·.values.modelProfileId)) (fun a ha s t hst => ?_) h
             effort := fun hnone => foldlM_keeps (f := (·.values.effort)) (fun a ha s t hst => ?_) h
             temperature := fun hnone => foldlM_keeps (f := (·.values.temperature.join)) (fun a ha s t hst => ?_) h
             skillIds := fun hnone => foldlM_keeps (f := (·.values.skillIds)) (fun a ha s t hst => ?_) h
             mcpServerIds := fun hnone => foldlM_keeps (f := (·.values.mcpServerIds)) (fun a ha s t hst => ?_) h
             approvalReviewer := fun hnone =>
               foldlM_keeps (f := (·.values.approvalReviewer)) (fun a ha s t hst => ?_) h
             toolPolicy := hpolicy.mpr hwithin
             budget := layers_budgetInherited h }
    · rw [(lay_laid hst).systemPrompt, hnone a ha, layPrompt]
    · rw [(lay_laid hst).modelProfileId, hnone a ha]; rfl
    · rw [(lay_laid hst).effort, hnone a ha]; rfl
    · rw [(lay_laid hst).temperature, hnone a ha]; rfl
    · rw [(lay_laid hst).skillIds, hnone a ha]; rfl
    · rw [(lay_laid hst).mcpServerIds, hnone a ha]; rfl
    · rw [(lay_laid hst).approvalReviewer, hnone a ha]; rfl

/-! ### The effective configuration -/

variable [Inhabited Reviewer] {sha256 : String → String}

/-- An effective configuration is what its layers come to, for a model that supports it. -/
theorem effective_layers {store : Store Reviewer} {request : Request Reviewer} {config : EffectiveConfig Reviewer}
    {scopes : List (ScopeRecord Reviewer)} (hscopes : store.scopes sha256 request = .ok scopes)
    (h : effective sha256 store request = .ok config) :
    ∃ layered profile, (allLayers scopes request.runOverrides).foldlM lay (roleBase request.role) = .ok layered ∧
      checkModel profile layered.values = .ok () ∧ config.toLayered = dropTemperature profile layered := by
  simp only [effective, hscopes, bind, Except.bind] at h
  cases hfold : (allLayers scopes request.runOverrides).foldlM lay (roleBase request.role) with
  | error failure => simp [hfold] at h
  | ok layered =>
    simp only [hfold] at h
    cases hprofile : store.modelProfiles.find? (·.id = layered.values.modelProfileId) with
    | none => simp [hprofile, throw, throwThe, MonadExceptOf.throw] at h
    | some profile =>
      simp only [hprofile, pure, Except.pure] at h
      cases hcheck : checkModel profile layered.values with
      | error failure => simp [hcheck] at h
      | ok _ =>
        simp only [hcheck] at h
        split at h
        · simp [throw, throwThe, MonadExceptOf.throw] at h
        · cases h
          exact ⟨layered, profile, rfl, hcheck, rfl⟩

/-- The layers that say something. -/
def spoken (layers : List (Layer Reviewer)) : List (Layer Reviewer) := layers.filter (·.2.speaks)

omit [Inhabited Reviewer] in
theorem dropTemperature_values (profile : ModelProfile) (layered : Layered Reviewer) :
    ∃ temperature, (dropTemperature profile layered).values = { layered.values with temperature } := by
  unfold dropTemperature
  split
  · exact ⟨layered.values.temperature, rfl⟩
  · exact ⟨none, rfl⟩

omit [Inhabited Reviewer] in
/-- A temperature is only taken out where there is none. -/
theorem dropTemperature_join {profile : ModelProfile} {layered : Layered Reviewer}
    (h : checkModel profile layered.values = .ok ()) :
    (dropTemperature profile layered).values.temperature.join = layered.values.temperature.join := by
  unfold dropTemperature
  cases hsupports : profile.supportsTemperature with
  | true => rfl
  | false =>
    cases hvalue : layered.values.temperature.join with
    | none => rfl
    | some value =>
      simp [checkModel, hsupports, hvalue, throw, throwThe, MonadExceptOf.throw, bind, Except.bind] at h
      repeat' split at h <;> try contradiction

def reader : RolePreset where
  id := "reader"
  systemPrompt := ⟨"Read.", by decide⟩
  modelProfileId := ⟨"model", by decide⟩

end

end Operant.Configuration
