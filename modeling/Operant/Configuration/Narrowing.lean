import Operant.Configuration.Effective

/-! What a stack of scopes may do to an authority: never more of it than there was, and with another
scope never more than without. -/
namespace Operant.Configuration

/-! ### Folds that may fail -/

section
variable {σ α ε : Type} {step : σ → α → Except ε σ}

theorem foldlM_cons_ok {s t : σ} {a : α} {rest : List α} :
    (a :: rest).foldlM step s = .ok t ↔ ∃ middle, step s a = .ok middle ∧ rest.foldlM step middle = .ok t := by
  rw [List.foldlM_cons]
  cases step s a with
  | error failure => simp [bind, Except.bind]
  | ok middle => simp [bind, Except.bind]

/-- What every step keeps, the fold keeps. -/
theorem foldlM_keeps {β : Type} {f : σ → β} {steps : List α}
    (keeps : ∀ a ∈ steps, ∀ s t, step s a = .ok t → f t = f s) {s t : σ} (h : steps.foldlM step s = .ok t) :
    f t = f s := by
  induction steps generalizing s with
  | nil => cases h; rfl
  | cons a rest ih =>
    obtain ⟨middle, hfirst, hrest⟩ := foldlM_cons_ok.mp h
    have hlater := ih (fun b hb => keeps b (List.mem_cons_of_mem _ hb)) hrest
    exact hlater.trans (keeps a List.mem_cons_self s middle hfirst)

/-- With more steps, each of which goes down and is monotone, a fold ends below. -/
theorem foldlM_below (below : σ → σ → Prop) (trans : ∀ a b c, below a b → below b c → below a c)
    (down : ∀ s a t, step s a = .ok t → below t s)
    (mono : ∀ s s' a t t', below s' s → step s a = .ok t → step s' a = .ok t' → below t' t)
    {few many : List α} (hsub : few.Sublist many) {s s' t t' : σ} (hbelow : below s' s)
    (hfew : few.foldlM step s = .ok t) (hmany : many.foldlM step s' = .ok t') : below t' t := by
  induction hsub generalizing s s' with
  | slnil => cases hfew; cases hmany; exact hbelow
  | cons a _ ih =>
    obtain ⟨middle, hfirst, hrest⟩ := foldlM_cons_ok.mp hmany
    exact ih (trans _ _ _ (down _ _ _ hfirst) hbelow) hfew hrest
  | cons_cons a _ ih =>
    obtain ⟨middle, hfirst, hrest⟩ := foldlM_cons_ok.mp hfew
    obtain ⟨middle', hfirst', hrest'⟩ := foldlM_cons_ok.mp hmany
    exact ih (mono _ _ _ _ _ hbelow hfirst hfirst') hrest hrest'

end

/-! ### Less authority -/

/-- A policy that allows no more. -/
structure PolicyTighter (after before : ToolPolicy) : Prop where
  tools : after.allowedTools.val ⊆ before.allowedTools.val
  write : after.workspaceWrite = true → before.workspaceWrite = true
  command : after.commandExecution = true → before.commandExecution = true
  approvals : before.approvalRequired ⊆ after.approvalRequired
  docker : before.commandExecutionPolicy.runner = .docker → after.commandExecutionPolicy.runner = .docker
  cpu : after.commandExecutionPolicy.cpuLimit ≤ before.commandExecutionPolicy.cpuLimit
  memory : after.commandExecutionPolicy.memoryLimitMb ≤ before.commandExecutionPolicy.memoryLimitMb
  pids : after.commandExecutionPolicy.pidsLimit ≤ before.commandExecutionPolicy.pidsLimit

/-- A limit that is there stays there, and is not raised. -/
def Limited {α : Type} [LE α] (after before : Option α) : Prop :=
  ∀ limit, before = some limit → ∃ lower, after = some lower ∧ lower ≤ limit

/-- A budget whose limits are no higher. -/
structure BudgetTighter (after before : Budget) : Prop where
  turns : after.maxTurns ≤ before.maxTurns
  failures : after.maxConsecutiveTestFailures ≤ before.maxConsecutiveTestFailures
  timeout : after.timeoutSeconds ≤ before.timeoutSeconds
  tokens : Limited after.maxOutputTokens before.maxOutputTokens
  cost : Limited after.maxCostUsd before.maxCostUsd
  calls : Limited after.maxToolCalls before.maxToolCalls

section
variable {Reviewer : Type}

structure Tighter (after before : Values Reviewer) : Prop where
  policy : PolicyTighter after.toolPolicy before.toolPolicy
  budget : BudgetTighter after.budget before.budget

/-- Tighter, and in the container that there was. -/
structure Narrower (after before : Values Reviewer) : Prop extends Tighter after before where
  image : before.toolPolicy.commandExecutionPolicy.runner = .docker →
    after.toolPolicy.commandExecutionPolicy.dockerImage = before.toolPolicy.commandExecutionPolicy.dockerImage

end

/-! #### Limits -/

section
variable {α : Type} [LinearOrder α]

theorem Limited.refl (limit : Option α) : Limited limit limit := fun value h => ⟨value, h, le_rfl⟩

theorem Limited.trans {a b c : Option α} (hab : Limited a b) (hbc : Limited b c) : Limited a c := by
  intro limit hc
  obtain ⟨middle, hb, hle⟩ := hbc limit hc
  obtain ⟨lower, ha, hle'⟩ := hab middle hb
  exact ⟨lower, ha, hle'.trans hle⟩

theorem limited_some {a b : α} : Limited (some a) (some b) ↔ a ≤ b := by simp [Limited]

theorem limited_none (after : Option α) : Limited after none := nofun

theorem not_limited_none {b : α} : ¬Limited none (some b) := by simp [Limited]

theorem not_raises {previous current : Option α} : raises previous current = false ↔ Limited current previous := by
  cases previous with
  | none => simp [raises, limited_none]
  | some previous =>
    cases current with
    | none => simp [raises, not_limited_none]
    | some current => simp [raises, limited_some]

theorem narrowLimit_le (previous : α) (requested : Option α) : narrowLimit previous requested ≤ previous := by
  cases requested with
  | none => exact le_rfl
  | some value => exact min_le_left _ _

theorem narrowLimit_mono {previous previous' : α} (h : previous' ≤ previous) (requested : Option α) :
    narrowLimit previous' requested ≤ narrowLimit previous requested := by
  cases requested with
  | none => exact h
  | some value => exact min_le_min_right _ h

theorem narrowOptional_limited (previous : Option α) (requested : Option (Option α)) :
    Limited (narrowOptional previous requested) previous := by
  cases previous with
  | none => exact limited_none _
  | some previous =>
    match requested with
    | none => exact Limited.refl _
    | some none => exact Limited.refl _
    | some (some value) => exact limited_some.mpr (min_le_left _ _)

theorem narrowOptional_mono {previous previous' : Option α} (h : Limited previous' previous)
    (requested : Option (Option α)) :
    Limited (narrowOptional previous' requested) (narrowOptional previous requested) := by
  match requested with
  | none => simpa [narrowOptional] using h
  | some none =>
    cases previous with
    | none => exact limited_none _
    | some limit =>
      obtain ⟨lower, rfl, hle⟩ := h limit rfl
      exact limited_some.mpr hle
  | some (some value) =>
    cases previous with
    | none =>
      cases previous' with
      | none => exact Limited.refl _
      | some lower => exact limited_some.mpr (min_le_right _ _)
    | some limit =>
      obtain ⟨lower, rfl, hle⟩ := h limit rfl
      exact limited_some.mpr (min_le_min_right _ hle)

end

theorem getD_mono {α : Type} [LinearOrder α] {previous previous' : α} (h : previous' ≤ previous)
    (named : Option α) : named.getD previous' ≤ named.getD previous := by
  cases named with
  | none => exact h
  | some value => exact le_rfl

theorem getD_limited {α : Type} [LinearOrder α] {previous previous' : Option α} (h : Limited previous' previous)
    (named : Option (Option α)) : Limited (named.getD previous') (named.getD previous) := by
  cases named with
  | none => exact h
  | some value => exact Limited.refl _

/-! #### Budgets -/

theorem BudgetTighter.refl (budget : Budget) : BudgetTighter budget budget :=
  ⟨le_rfl, le_rfl, le_rfl, .refl _, .refl _, .refl _⟩

theorem BudgetTighter.trans {a b c : Budget} (hab : BudgetTighter a b) (hbc : BudgetTighter b c) :
    BudgetTighter a c where
  turns := hab.turns.trans hbc.turns
  failures := hab.failures.trans hbc.failures
  timeout := hab.timeout.trans hbc.timeout
  tokens := hab.tokens.trans hbc.tokens
  cost := hab.cost.trans hbc.cost
  calls := hab.calls.trans hbc.calls

theorem narrowBudget_tighter (base : Budget) (requested : BudgetPatch) :
    BudgetTighter (narrowBudget base requested) base where
  turns := narrowLimit_le _ _
  failures := narrowLimit_le _ _
  timeout := narrowLimit_le _ _
  tokens := narrowOptional_limited _ _
  cost := narrowOptional_limited _ _
  calls := narrowOptional_limited _ _

theorem narrowBudget_mono {base base' : Budget} (h : BudgetTighter base' base) (requested : BudgetPatch) :
    BudgetTighter (narrowBudget base' requested) (narrowBudget base requested) where
  turns := narrowLimit_mono h.turns _
  failures := narrowLimit_mono h.failures _
  timeout := narrowLimit_mono h.timeout _
  tokens := narrowOptional_mono h.tokens _
  cost := narrowOptional_mono h.cost _
  calls := narrowOptional_mono h.calls _

/-- What is selected is granted when no limit is raised by it. -/
theorem narrowed_ok {base budget : Budget} {overrides : BudgetPatch} :
    base.narrowed overrides = .ok budget ↔
      budget = base.selected overrides ∧ BudgetTighter (base.selected overrides) base := by
  simp only [Budget.narrowed]
  constructor
  · intro h
    repeat' split at h <;> try contradiction
    rename_i hturns hfailures htimeout htokens hcost hcalls
    simp only [Bool.not_eq_true, not_raises, limited_some] at hturns hfailures htimeout htokens hcost hcalls
    cases h
    exact ⟨rfl, hturns, hfailures, htimeout, htokens, hcost, hcalls⟩
  · rintro ⟨rfl, h⟩
    simp only [not_raises.mpr (limited_some.mpr h.turns), not_raises.mpr (limited_some.mpr h.failures),
      not_raises.mpr (limited_some.mpr h.timeout), not_raises.mpr h.tokens, not_raises.mpr h.cost,
      not_raises.mpr h.calls, Bool.false_eq_true, if_false]

theorem selected_mono {base base' : Budget} (h : BudgetTighter base' base) (overrides : BudgetPatch) :
    BudgetTighter (base'.selected overrides) (base.selected overrides) where
  turns := getD_mono h.turns _
  failures := getD_mono h.failures _
  timeout := getD_mono h.timeout _
  tokens := getD_limited h.tokens _
  cost := getD_limited h.cost _
  calls := getD_limited h.calls _

/-- What becomes of a budget: it stays, or it is cut down, or what a run selects is granted. -/
theorem layBudget_ok {source : ConfigSource} {current budget : Budget} {requested : Option BudgetPatch}
    (h : layBudget source current requested = .ok budget) :
    (requested = none ∧ budget = current) ∨ ∃ patch, requested = some patch ∧
      ((source.scopeType = .run ∧ budget = current.selected patch ∧ BudgetTighter budget current) ∨
        (source.scopeType ≠ .run ∧ budget = narrowBudget current patch)) := by
  cases requested with
  | none => cases h; exact .inl ⟨rfl, rfl⟩
  | some patch =>
    refine .inr ⟨patch, rfl, ?_⟩
    simp only [layBudget] at h
    split at h
    · next hrun =>
      cases hnarrowed : current.narrowed patch with
      | error key => rw [hnarrowed] at h; cases h
      | ok selected =>
        rw [hnarrowed] at h
        cases h
        obtain ⟨rfl, htighter⟩ := narrowed_ok.mp hnarrowed
        exact .inl ⟨hrun, rfl, htighter⟩
    · next hrun => cases h; exact .inr ⟨hrun, rfl⟩

theorem layBudget_tighter {source : ConfigSource} {current budget : Budget} {requested : Option BudgetPatch}
    (h : layBudget source current requested = .ok budget) : BudgetTighter budget current := by
  obtain ⟨-, rfl⟩ | ⟨patch, -, ⟨-, -, htighter⟩ | ⟨-, rfl⟩⟩ := layBudget_ok h
  · exact .refl _
  · exact htighter
  · exact narrowBudget_tighter _ _

theorem layBudget_mono {source : ConfigSource} {current current' budget budget' : Budget}
    {requested : Option BudgetPatch} (hbelow : BudgetTighter current' current)
    (h : layBudget source current requested = .ok budget)
    (h' : layBudget source current' requested = .ok budget') : BudgetTighter budget' budget := by
  obtain ⟨rfl, rfl⟩ | ⟨patch, rfl, ⟨hrun, rfl, -⟩ | ⟨hrun, rfl⟩⟩ := layBudget_ok h
  · cases h'; exact hbelow
  · obtain ⟨hnone, -⟩ | ⟨_, hsame, ⟨-, rfl, -⟩ | ⟨hnot, -⟩⟩ := layBudget_ok h'
    · cases hnone
    · cases hsame; exact selected_mono hbelow patch
    · exact absurd hrun hnot
  · obtain ⟨hnone, -⟩ | ⟨_, hsame, ⟨hit, -⟩ | ⟨-, rfl⟩⟩ := layBudget_ok h'
    · cases hnone
    · exact absurd hit hrun
    · cases hsame; exact narrowBudget_mono hbelow patch

/-! #### Policies -/

theorem PolicyTighter.refl (policy : ToolPolicy) : PolicyTighter policy policy :=
  ⟨fun _ h => h, id, id, fun _ h => h, id, le_rfl, le_rfl, le_rfl⟩

theorem PolicyTighter.trans {a b c : ToolPolicy} (hab : PolicyTighter a b) (hbc : PolicyTighter b c) :
    PolicyTighter a c where
  tools := fun _ h => hbc.tools (hab.tools h)
  write := hbc.write ∘ hab.write
  command := hbc.command ∘ hab.command
  approvals := fun _ h => hab.approvals (hbc.approvals h)
  docker := hab.docker ∘ hbc.docker
  cpu := hab.cpu.trans hbc.cpu
  memory := hab.memory.trans hbc.memory
  pids := hab.pids.trans hbc.pids

theorem mem_commonTools {current chosen : Tools} {name : String} :
    name ∈ (commonTools current chosen).val ↔ name ∈ current.val ∧ name ∈ chosen.val := by
  simp [commonTools]

theorem narrowPolicy_tighter (base requested : ToolPolicy) : PolicyTighter (narrowPolicy base requested) base where
  tools := fun _ h => (mem_commonTools.mp h).1
  write := fun h => (Bool.and_eq_true_iff.mp h).1
  command := fun h => (Bool.and_eq_true_iff.mp h).1
  approvals := fun _ h => mem_sortedSet.mpr (List.mem_append_left _ h)
  docker := fun h => by simp [narrowPolicy, narrowCommand, h]
  cpu := min_le_left _ _
  memory := min_le_left _ _
  pids := min_le_left _ _

theorem narrowPolicy_image {base : ToolPolicy} (requested : ToolPolicy)
    (h : base.commandExecutionPolicy.runner = .docker) :
    (narrowPolicy base requested).commandExecutionPolicy.dockerImage =
      base.commandExecutionPolicy.dockerImage := by
  simp [narrowPolicy, narrowCommand, h]

theorem narrowPolicy_mono {base base' : ToolPolicy} (h : PolicyTighter base' base) (requested : ToolPolicy) :
    PolicyTighter (narrowPolicy base' requested) (narrowPolicy base requested) where
  tools := fun _ hname => by
    obtain ⟨hbase, hchosen⟩ := mem_commonTools.mp hname
    exact mem_commonTools.mpr ⟨h.tools hbase, hchosen⟩
  write := fun hwrite => by
    obtain ⟨hbase, hchosen⟩ := Bool.and_eq_true_iff.mp hwrite
    exact Bool.and_eq_true_iff.mpr ⟨h.write hbase, hchosen⟩
  command := fun hcommand => by
    obtain ⟨hbase, hchosen⟩ := Bool.and_eq_true_iff.mp hcommand
    exact Bool.and_eq_true_iff.mpr ⟨h.command hbase, hchosen⟩
  approvals := fun _ hcategory => by
    rw [narrowPolicy, mem_sortedSet, List.mem_append] at hcategory ⊢
    exact hcategory.imp_left (h.approvals ·)
  docker := fun hdocker => by
    simp only [narrowPolicy, narrowCommand] at hdocker ⊢
    by_cases hbase : base.commandExecutionPolicy.runner = .docker
    · rw [if_pos (h.docker hbase)]
    · rw [if_neg hbase] at hdocker
      rw [hdocker, ite_self]
  cpu := min_le_min_right _ h.cpu
  memory := min_le_min_right _ h.memory
  pids := min_le_min_right _ h.pids

/-! ### One layer, and a stack of them -/

section
variable {Reviewer : Type}

theorem Tighter.refl (values : Values Reviewer) : Tighter values values := ⟨.refl _, .refl _⟩

theorem Tighter.trans {a b c : Values Reviewer} (hab : Tighter a b) (hbc : Tighter b c) : Tighter a c :=
  ⟨hab.policy.trans hbc.policy, hab.budget.trans hbc.budget⟩

theorem Narrower.refl (values : Values Reviewer) : Narrower values values := ⟨.refl _, fun _ => rfl⟩

theorem Narrower.trans {a b c : Values Reviewer} (hab : Narrower a b) (hbc : Narrower b c) : Narrower a c where
  toTighter := hab.toTighter.trans hbc.toTighter
  image := fun h => (hab.image (hbc.policy.docker h)).trans (hbc.image h)

/-- What one layer makes of the values. -/
structure Laid (before : Values Reviewer) (source : ConfigSource) (patch : ConfigPatch Reviewer)
    (after : Values Reviewer) : Prop where
  systemPrompt : after.systemPrompt = layPrompt before.systemPrompt patch.systemPrompt
  modelProfileId : after.modelProfileId = (patch.modelProfileId.map (·.val)).getD before.modelProfileId
  effort : after.effort = patch.effort.getD before.effort
  toolPolicy : after.toolPolicy = layPolicy before.toolPolicy patch.toolPolicy
  budget : layBudget source before.budget patch.budget = .ok after.budget
  temperature : after.temperature = (patch.temperature.map fun value => some (some value)).getD before.temperature
  skillIds : after.skillIds = (patch.skillIds.map (·.val)).getD before.skillIds
  mcpServerIds : after.mcpServerIds = (patch.mcpServerIds.map (·.val)).getD before.mcpServerIds
  approvalReviewer : after.approvalReviewer = patch.approvalReviewer.getD before.approvalReviewer

theorem lay_laid {before after : Layered Reviewer} {layer : Layer Reviewer} (h : lay before layer = .ok after) :
    Laid before.values layer.1 layer.2 after.values := by
  cases hbudget : layBudget layer.1 before.values.budget layer.2.budget with
  | error failure => simp [lay, hbudget, bind, Except.bind] at h
  | ok budget =>
    simp only [lay, hbudget, bind, Except.bind, pure, Except.pure, Except.ok.injEq] at h
    subst h
    exact ⟨rfl, rfl, rfl, rfl, hbudget, rfl, rfl, rfl, rfl⟩

theorem lay_narrower {before after : Layered Reviewer} {layer : Layer Reviewer}
    (h : lay before layer = .ok after) : Narrower after.values before.values := by
  have hlaid := lay_laid h
  refine ⟨⟨?_, layBudget_tighter hlaid.budget⟩, fun hdocker => ?_⟩
  · rw [hlaid.toolPolicy]
    cases layer.2.toolPolicy with
    | none => exact .refl _
    | some requested => exact narrowPolicy_tighter _ _
  · rw [hlaid.toolPolicy]
    cases layer.2.toolPolicy with
    | none => rfl
    | some requested => exact narrowPolicy_image _ hdocker

theorem lay_mono {before before' after after' : Layered Reviewer} {layer : Layer Reviewer}
    (hbelow : Tighter before'.values before.values) (h : lay before layer = .ok after)
    (h' : lay before' layer = .ok after') : Tighter after'.values after.values := by
  have hlaid := lay_laid h
  have hlaid' := lay_laid h'
  refine ⟨?_, layBudget_mono hbelow.budget hlaid.budget hlaid'.budget⟩
  rw [hlaid.toolPolicy, hlaid'.toolPolicy]
  cases layer.2.toolPolicy with
  | none => exact hbelow.policy
  | some requested => exact narrowPolicy_mono hbelow.policy _

/-- Layers that are put on only narrow. -/
theorem layers_narrower {layers : List (Layer Reviewer)} {before after : Layered Reviewer}
    (h : layers.foldlM lay before = .ok after) : Narrower after.values before.values := by
  induction layers generalizing before with
  | nil => cases h; exact .refl _
  | cons layer rest ih =>
    obtain ⟨middle, hfirst, hrest⟩ := foldlM_cons_ok.mp h
    exact (ih hrest).trans (lay_narrower hfirst)

/-- A stack with more layers is no wider. -/
theorem layers_tighter {few many : List (Layer Reviewer)} (hsub : few.Sublist many)
    {base after after' : Layered Reviewer} (h : few.foldlM lay base = .ok after)
    (h' : many.foldlM lay base = .ok after') : Tighter after'.values after.values :=
  foldlM_below (fun after before => Tighter after.values before.values) (fun _ _ _ => Tighter.trans)
    (fun _ _ _ hstep => (lay_narrower hstep).toTighter)
    (fun _ _ _ _ _ => lay_mono) hsub (.refl _) h h'

/-! ### Patches that say nothing -/

/-- Whether a patch sets anything. -/
def ConfigPatch.speaks (patch : ConfigPatch Reviewer) : Bool :=
  patch.systemPrompt.isSome || patch.modelProfileId.isSome || patch.effort.isSome || patch.toolPolicy.isSome ||
    patch.budget.isSome || patch.temperature.isSome || patch.skillIds.isSome || patch.mcpServerIds.isSome ||
    patch.approvalReviewer.isSome

theorem speaks_false {patch : ConfigPatch Reviewer} (h : patch.speaks = false) : patch = {} := by
  obtain ⟨prompt, profile, effort, policy, budget, temperature, skills, servers, reviewer⟩ := patch
  simpa [ConfigPatch.speaks, and_assoc] using h

theorem lay_silent (current : Layered Reviewer) (source : ConfigSource) :
    lay current (source, {}) = .ok current := by
  have hsources : (fun setting => if (ConfigPatch.mentions ({} : ConfigPatch Reviewer) setting) then some source
      else current.sources setting) = current.sources := by
    funext setting
    cases setting <;> rfl
  simp [lay, layBudget, layPolicy, layPrompt, bind, Except.bind, pure, Except.pure, hsources]

theorem layers_speaking (layers : List (Layer Reviewer)) (base : Layered Reviewer) :
    (layers.filter (·.2.speaks)).foldlM lay base = layers.foldlM lay base := by
  induction layers generalizing base with
  | nil => rfl
  | cons layer rest ih =>
    cases hspeaks : layer.2.speaks with
    | true =>
      have hkept : (layer :: rest).filter (·.2.speaks) = layer :: rest.filter (·.2.speaks) :=
        List.filter_cons_of_pos hspeaks
      rw [hkept, List.foldlM_cons, List.foldlM_cons]
      exact congrArg (lay base layer >>= ·) (funext ih)
    | false =>
      obtain ⟨source, patch⟩ := layer
      have hempty : patch = {} := speaks_false hspeaks
      rw [List.filter_cons_of_neg (by simp [hspeaks]), List.foldlM_cons, hempty, lay_silent]
      exact ih base

end

end Operant.Configuration
