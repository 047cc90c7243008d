import Operant.MultiWriter.Steps

/-! The programs keep the rules.

A finalizer reads a merge run that nobody has claimed, checks what it is made of, and owns
it from its claim on. What `mergeInputs` has checked, with what the compiler has checked,
keeps the paths of its artifacts apart; their bases were compared when the merge run was
created. -/
namespace Operant.MultiWriter
open Operant.Python Operant.Tables Operant.Calls Operant.Graph

/-! ### What binds a merge -/

/-- Two writers that a compiled definition binds own nothing in common. -/
theorem bound_apart {merge : MergeRun} {frozen : WorkflowDefinition} {compiled : CompiledWorkflow}
    (hcompiled : compile frozen = .ok compiled) {a b : WriterWorkspace} {nodeA nodeB : NodeBinding}
    (ha : isBound merge a nodeA ((indexGraph frozen).nodes.lookup nodeA.nodeId) = true)
    (hb : isBound merge b nodeB ((indexGraph frozen).nodes.lookup nodeB.nodeId) = true)
    (hne : a.writerKey ≠ b.writerKey) :
    ¬∃ l ∈ a.ownershipPaths, ∃ r ∈ b.ownershipPaths, pathsOverlap l r := by
  have hspec : ∀ {workspace : WriterWorkspace} {node : NodeBinding},
      isBound merge workspace node ((indexGraph frozen).nodes.lookup node.nodeId) = true →
      ∃ spec ∈ (indexGraph frozen).nodes.map Prod.snd, (spec.writesWorkspace = true ∧
        spec.nodeKind ≠ .merge) ∧ ∃ policy, spec.writerPolicy = some policy ∧
          policy.writerKey = workspace.writerKey ∧
          policy.ownershipPaths = workspace.ownershipPaths := by
    intro workspace node h
    unfold isBound at h
    rw [Bool.and_eq_true] at h
    have hbound := h.2
    split at hbound
    · cases hbound
    · rename_i spec hlookup
      rw [Bool.and_eq_true, Bool.and_eq_true, decide_eq_true_eq] at hbound
      obtain ⟨⟨hkind, hwrites⟩, hpolicy⟩ := hbound
      split at hpolicy
      · cases hpolicy
      · rename_i policy hsome
        simp only [Bool.and_eq_true, decide_eq_true_eq] at hpolicy
        obtain ⟨before, after, heq, -⟩ := List.lookup_eq_some_iff.mp hlookup
        refine ⟨spec, ?_, ⟨hwrites, hkind⟩, policy, hsome, hpolicy.1.1.1, hpolicy.2⟩
        rw [heq]
        simp
  obtain ⟨specA, hmemA, hwriterA, policyA, hsomeA, hkeyA, hpathsA⟩ := hspec ha
  obtain ⟨specB, hmemB, hwriterB, policyB, hsomeB, hkeyB, hpathsB⟩ := hspec hb
  have hkeys : policyA.writerKey ≠ policyB.writerKey := by rwa [hkeyA, hkeyB]
  intro h
  obtain ⟨l, hl, r, hr, hoverlap⟩ := h
  rw [← hpathsA] at hl
  rw [← hpathsB] at hr
  cases writers_apart hcompiled hmemA hmemB hwriterA hwriterB hsomeA hsomeB hkeys with
  | inl h =>
    have hfound := ownershipOverlap_iff.mpr ⟨l, hl, r, hr, hoverlap⟩
    rw [h] at hfound
    cases hfound
  | inr h =>
    have hfound := ownershipOverlap_iff.mpr ⟨r, hr, l, hl, hoverlap.symm⟩
    rw [h] at hfound
    cases hfound

/-- Artifacts of writers that own nothing in common change nothing in common. -/
theorem Published.apart {a b : PatchCommitArtifact} {left right : WriterWorkspace}
    (ha : Published a left) (hb : Published b right)
    (h : ¬∃ l ∈ left.ownershipPaths, ∃ r ∈ right.ownershipPaths, pathsOverlap l r) :
    ¬PathsClash a b := by
  intro hclash
  obtain ⟨p, hp, q, hq, hoverlap⟩ := hclash
  obtain ⟨l, hl, hlp⟩ := ha.owned p hp
  obtain ⟨r, hr, hrq⟩ := hb.owned q hq
  exact h ⟨l, hl, r, hr, hoverlap.owners hlp hrq⟩

/-- The artifacts are those of the merge run, and none changes what another writer's does. -/
structure World.fits (w : World) (merge : MergeRun) (artifacts : List PatchCommitArtifact) :
    Prop where
  all : List.Forall₂ (fun id a => w.artifact? id = some a) merge.artifactIds artifacts
  apart : ∀ a ∈ artifacts, ∀ b ∈ artifacts, w.between a b fun left right =>
    left.writerKey ≠ right.writerKey → ¬PathsClash a b

theorem mem_of_forall₂ {α β : Type} {R : α → β → Prop} {xs : List α} {ys : List β}
    (h : List.Forall₂ R xs ys) {y : β} (hy : y ∈ ys) : ∃ x ∈ xs, R x y := by
  induction h with
  | nil => cases hy
  | cons hxy _ ih =>
    cases List.mem_cons.mp hy with
    | inl heq => exact ⟨_, List.mem_cons_self .., heq ▸ hxy⟩
    | inr hmem =>
      obtain ⟨x, hx, hR⟩ := ih hmem
      exact ⟨x, List.mem_cons_of_mem _ hx, hR⟩

theorem mem_of_forall₂' {α β : Type} {R : α → β → Prop} {xs : List α} {ys : List β}
    (h : List.Forall₂ R xs ys) {x : α} (hx : x ∈ xs) : ∃ y ∈ ys, R x y :=
  mem_of_forall₂ h.flip hx

/-- Artifacts of one base that fit do not clash. -/
theorem World.fits.no_clash {w : World} {merge : MergeRun} {artifacts : List PatchCommitArtifact}
    (hf : w.fits merge artifacts) (hbased : w.based merge) : w.apart artifacts := by
  have hbase : ∀ a ∈ artifacts, a.baseRevision = merge.baseRevision := by
    intro a ha
    obtain ⟨id, hid, hsome⟩ := mem_of_forall₂ hf.all ha
    obtain ⟨a', hsome', hbase⟩ := hbased id hid
    rw [hsome] at hsome'
    cases hsome'
    exact hbase
  intro a ha b hb
  obtain ⟨left, right, hleft, hright, hpaths⟩ := hf.apart a ha b hb
  refine ⟨left, right, hleft, hright, fun hne hclash => ?_⟩
  cases hclash with
  | inl hbases => exact hbases ((hbase a ha).trans (hbase b hb).symm)
  | inr hclash => exact hpaths hne hclash

/-- What the loops of `_merge_inputs` have checked. -/
theorem fits_of_checked {w : World} {merge : MergeRun} {frozen : WorkflowDefinition}
    {compiled : CompiledWorkflow} (hcompiled : compile frozen = .ok compiled)
    {artifacts : List PatchCommitArtifact} {workspaces : List WriterWorkspace}
    (hartifacts : List.Forall₂ (fun id a => w.artifact? id = some a ∧ ∃ workspace,
      w.workspace? a.writerWorkspaceId = some workspace ∧ Published a workspace)
      merge.artifactIds artifacts)
    (hworkspaces : List.Forall₂ (fun a ws => w.workspace? a.writerWorkspaceId = some ws)
      artifacts workspaces)
    (hbound : ∀ ws ∈ workspaces, ∃ nodeRun : NodeBinding, isBound merge ws nodeRun
      ((indexGraph frozen).nodes.lookup nodeRun.nodeId) = true) :
    w.fits merge artifacts := by
  have hall : ∀ a ∈ artifacts, ∃ ws ∈ workspaces,
      w.workspace? a.writerWorkspaceId = some ws ∧ Published a ws := by
    intro a ha
    obtain ⟨_, _, -, ws, hws, hpublished⟩ := mem_of_forall₂ hartifacts ha
    obtain ⟨ws', hmem, hws'⟩ := mem_of_forall₂' hworkspaces ha
    rw [hws] at hws'
    cases hws'
    exact ⟨ws, hmem, hws, hpublished⟩
  refine ⟨hartifacts.imp fun _ _ h => h.1, fun a ha b hb => ?_⟩
  obtain ⟨left, hmemLeft, hleft, hpublishedA⟩ := hall a ha
  obtain ⟨right, hmemRight, hright, hpublishedB⟩ := hall b hb
  obtain ⟨nodeA, hboundA⟩ := hbound left hmemLeft
  obtain ⟨nodeB, hboundB⟩ := hbound right hmemRight
  exact ⟨left, right, hleft, hright, fun hne =>
    hpublishedA.apart hpublishedB (bound_apart hcompiled hboundA hboundB hne)⟩

section Programs
variable {checked : Prop} {k : Option String} {w : World}

theorem rely_weak {k : Option String} {a b : World} (h : (rules checked).rely k a b) :
    (rules checked).rely none a b := Rely.weak h

theorem exec_ok (c : Call) (w : World) (e : Raised) : (rules checked).exec c w ≠ .error e :=
  fun h => nomatch h

/-- A read whose failure does not matter. -/
theorem ask_row {c : Call} {Q : Option String → Reply c → World → Prop}
    (hread : ∀ w' : World, (w'.answer c).2 = w')
    (hok : ∀ (w' : World) a, Rely k w w' → Inv checked w' → (w'.answer c).1 = .ok a → Q k a w') :
    (ask c).HoldsAs (rules checked) k Q Anyhow w :=
  ask_read hread (fun w' a hr hi _ => hok w' a hr hi) (fun _ _ _ _ => trivial) fun _ _ => trivial

theorem checkBinding_holds (merge : MergeRun) (frozen : WorkflowDefinition)
    (workspace : WriterWorkspace) :
    (checkBinding merge frozen workspace).HoldsAs (rules checked) k
      (fun k' _ _ => k' = k ∧ ∃ nodeRun : NodeBinding, isBound merge workspace nodeRun
        ((indexGraph frozen).nodes.lookup nodeRun.nodeId) = true) Anyhow w := by
  unfold checkBinding
  split
  · trivial
  · apply Prog.HoldsAs.bind
    apply Prog.HoldsAs.attempt exec_ok
    apply (ask_read (X := fun k' _ _ => k' = k) (Q := fun k' _ _ => k' = k) (fun _ => rfl)
      (fun _ _ _ _ _ _ => rfl) (fun _ _ _ _ => rfl) fun _ _ => rfl).mono
    · intro k' nodeRun w' hk
      show Prog.HoldsAs (rules checked) k' (if _ then _ else _) _ _ w'
      split
      · rename_i hbound
        exact ⟨hk, nodeRun, hbound⟩
      · trivial
    · intro k' e w' _
      cases e with
      | key => trivial
      | conflict | notFound | value | validation | outcomeUnknown | other => trivial

theorem getRun_holds (id : String) : (ask (.getRun id)).HoldsAs (rules checked) k
    (fun k' (run : GraphRun) w' => k' = k ∧ ∃ frozen, w'.definition? run.workflowDefinitionId
      run.workflowDefinitionVersion = some frozen ∧ ∃ compiled, compile frozen = .ok compiled)
    Anyhow w := by
  apply ask_row fun _ => rfl
  intro w' run _ hi ha
  exact ⟨rfl, hi.frozen run (List.mem_of_find?_eq_some (found_ok ha))⟩

theorem getDefinition_holds {workflowId : String} {version : Nat} {frozen : WorkflowDefinition}
    (h : w.definition? workflowId version = some frozen) :
    (ask (.getDefinition workflowId version)).HoldsAs (rules checked) k
      (fun k' (definition : WorkflowDefinition) _ => k' = k ∧ definition = frozen) Anyhow w := by
  apply ask_row fun _ => rfl
  intro w' definition hr _ ha
  have hfound := found_ok ha
  rw [hr.definitions _ _ _ h] at hfound
  exact ⟨rfl, (Option.some.inj hfound).symm⟩

theorem getArtifact_holds (id : String) : (ask (.getArtifact id)).HoldsAs (rules checked) k
    (fun k' (a : PatchCommitArtifact) w' => k' = k ∧ w'.artifact? id = some a ∧ ∃ workspace,
      w'.workspace? a.writerWorkspaceId = some workspace ∧ Published a workspace) Anyhow w := by
  apply ask_row fun _ => rfl
  intro w' a _ hi ha
  have hsome := found_ok ha
  exact ⟨rfl, hsome, hi.owned a (List.mem_of_find?_eq_some hsome)⟩

theorem getWorkspace_holds (id : String) : (ask (.getWorkspace id)).HoldsAs (rules checked) k
    (fun k' (workspace : WriterWorkspace) w' => k' = k ∧ w'.workspace? id = some workspace)
    Anyhow w := by
  apply ask_row fun _ => rfl
  exact fun w' workspace _ _ ha => ⟨rfl, found_ok ha⟩

/-- What `_merge_inputs` has checked. -/
theorem mergeInputs_holds (merge : MergeRun) (definition : Option (String × Nat)) :
    (mergeInputs merge definition).HoldsAs (rules checked) k
      (fun k' inputs w' => k' = k ∧ w'.fits merge inputs.artifacts) Anyhow w := by
  unfold mergeInputs
  apply Prog.HoldsAs.bind
  apply (getRun_holds merge.graphRunId).mono ?_ fun _ _ _ _ => trivial
  intro k' run w₁ h
  obtain ⟨rfl, frozen, hfrozen, compiled, hcompiled⟩ := h
  apply Prog.HoldsAs.bind
  apply (getDefinition_holds hfrozen).mono ?_ fun _ _ _ _ => trivial
  intro k'' d w₂ h
  obtain ⟨rfl, rfl⟩ := h
  split
  · trivial
  · apply Prog.HoldsAs.bind
    apply Prog.holdsAs_lift ?_ fun _ _ => trivial
    intro policy _
    -- Every artifact is one that a writer has published.
    apply Prog.HoldsAs.bind
    apply (Prog.HoldsAs.mapM rely_weak ?_ fun id _ w' _ => getArtifact_holds id).mono ?_
      fun _ _ _ _ => trivial
    · intro id a w' w'' hr h
      obtain ⟨ha, workspace, hworkspace, hpublished⟩ := h
      exact ⟨Rely.artifacts hr _ _ ha, workspace, Rely.workspaces hr _ _ hworkspace, hpublished⟩
    intro k₃ artifacts w₃ h
    obtain ⟨rfl, hartifacts⟩ := h
    split
    · trivial
    · apply Prog.HoldsAs.bind
      apply ((Prog.HoldsAs.mapM rely_weak (P := fun (a : PatchCommitArtifact) ws w' =>
        w'.workspace? a.writerWorkspaceId = some ws) ?_ fun a _ w' _ =>
          getWorkspace_holds a.writerWorkspaceId).later rely_weak).mono ?_ fun _ _ _ _ => trivial
      · exact fun a ws w' w'' hr h => Rely.workspaces hr _ _ h
      intro k₄ workspaces w₄ h
      obtain ⟨⟨rfl, hworkspaces⟩, hr₄⟩ := h
      split
      · trivial
      · apply Prog.HoldsAs.bind
        apply ((Prog.HoldsAs.mapM rely_weak (P := fun (ws : WriterWorkspace) (_ : Unit) _ =>
          ∃ nodeRun : NodeBinding, isBound merge ws nodeRun
            ((indexGraph d).nodes.lookup nodeRun.nodeId) = true) (fun _ _ _ _ _ h => h)
          fun ws _ w' _ => checkBinding_holds merge d ws).later rely_weak).mono ?_
          fun _ _ _ _ => trivial
        intro k₅ units w₅ h
        obtain ⟨⟨rfl, hbound⟩, hr₅⟩ := h
        have hr : Rely none w₃ w₅ := Rely.trans hr₄ hr₅
        refine ⟨rfl, ?_⟩
        have hbinds : ∀ ws ∈ workspaces, ∃ nodeRun : NodeBinding, isBound merge ws nodeRun
            ((indexGraph d).nodes.lookup nodeRun.nodeId) = true := by
          intro ws hws
          obtain ⟨_, -, h⟩ := mem_of_forall₂' hbound hws
          exact h
        apply fits_of_checked hcompiled ?_ (hworkspaces.imp fun a ws h => Rely.workspaces hr₅ _ _ h) hbinds
        apply hartifacts.imp
        intro id a h
        obtain ⟨ha, workspace, hworkspace, hpublished⟩ := h
        exact ⟨hr.artifacts _ _ ha, workspace, hr.workspaces _ _ hworkspace, hpublished⟩

theorem assertLease_holds (lease : WriterLease) : (ask (.assertLease lease)).HoldsAs (rules checked) k
    (fun k' _ _ => k' = k ∧ True) Anyhow w := by
  apply ask_row fun _ => rfl
  exact fun _ _ _ _ _ => ⟨rfl, trivial⟩

theorem assertWorkspaceLeases_holds (workspaces : List WriterWorkspace) (leases : List WriterLease) :
    (assertWorkspaceLeases workspaces leases).HoldsAs (rules checked) k (fun k' _ _ => k' = k) Anyhow
      w := by
  unfold assertWorkspaceLeases
  dsimp only
  split
  · trivial
  · apply Prog.HoldsAs.bind
    exact (Prog.HoldsAs.mapM rely_weak (P := fun _ _ _ => True) (fun _ _ _ _ _ _ => trivial)
      fun item _ w' _ => assertLease_holds item.2).mono (fun _ _ _ h => h.1) fun _ _ _ _ => trivial

theorem listConflicts_holds (graphRunId : String) :
    (ask (.listConflicts graphRunId)).HoldsAs (rules checked) k (fun k' _ _ => k' = k) Anyhow w := by
  apply ask_row fun _ => rfl
  exact fun _ _ _ _ _ => rfl

theorem now_holds : (ask .now).HoldsAs (rules checked) k (fun k' _ _ => k' = k) Anyhow w := by
  apply ask_row fun _ => rfl
  exact fun _ _ _ _ _ => rfl

/-! ### Merge runs -/

theorem createMergeRun_keeps (merge : MergeRun) (definition : String × Nat)
    (leases : List WriterLease) :
    (createMergeRun merge definition leases).HoldsAs (rules checked) k Anyhow Anyhow w := by
  unfold createMergeRun
  apply Prog.HoldsAs.bind
  apply (mergeInputs_holds merge definition).mono ?_ fun _ _ _ _ => trivial
  intro k' inputs w₁ h
  obtain ⟨rfl, hfits⟩ := h
  split
  · trivial
  · split
    · trivial
    · rename_i hbases
      have hbased : w₁.based merge := by
        intro id hid
        obtain ⟨a, ha, hsome⟩ := mem_of_forall₂' hfits.all hid
        refine ⟨a, hsome, ?_⟩
        by_contra hne
        apply hbases
        rw [List.any_eq_true]
        exact ⟨a, ha, decide_eq_true hne⟩
      split
      · trivial
      · apply Prog.HoldsAs.bind
        apply ((assertWorkspaceLeases_holds inputs.workspaces leases).later rely_weak).mono ?_
          fun _ _ _ _ => trivial
        intro k'' _ w₂ h
        obtain ⟨rfl, hr₂⟩ := h
        apply Prog.HoldsAs.bind
        apply ((listConflicts_holds merge.graphRunId).later rely_weak).mono ?_ fun _ _ _ _ => trivial
        intro k₃ conflicts w₃ h
        obtain ⟨rfl, hr₃⟩ := h
        have hbased₃ : w₃.based merge := Rely.based (Rely.trans hr₂ hr₃) hbased
        have hconflicted : w₃.based { merge with status := .conflicted } := hbased₃
        split
        · exact createMergeRun_holds hconflicted
        · exact createMergeRun_holds hbased₃

theorem rollback_holds (merge : MergeRun) :
    (ask (.rollback merge)).HoldsAs (rules checked) k Anyhow Anyhow w := by
  apply ask_row fun _ => rfl
  exact fun _ _ _ _ _ => trivial

/-- What becomes of a merge run whose adapter has raised. -/
theorem mergeFailed_holds {owner : Owner} {rollbackOnFailure : Bool} {running : MergeRun} {e : Raised}
    (hinvoked : w.invoked running.mergeRunId) :
    (mergeFailed owner rollbackOnFailure running e).HoldsAs (rules checked) k Anyhow Anyhow w := by
  unfold mergeFailed
  split
  · apply Prog.HoldsAs.bind
    apply Prog.HoldsAs.attempt exec_ok
    apply ((rollback_holds running).frame rely_weak (F := fun w' => w'.invoked running.mergeRunId)
      (fun _ _ hr h => Rely.invoked hr _ h) hinvoked).mono
    · exact fun _ _ _ h => transitionOwned_holds h.2 rfl _ _
    · exact fun _ _ _ h => transitionOwned_holds h.2 rfl _ _
  · exact transitionOwned_holds hinvoked rfl _ _

/-- A claimed merge run, as its owner goes on with it. -/
theorem runMerge_holds {owner : Owner} {inputs : MergeInputs} {conflicts : List WriterConflict}
    {running : MergeRun} (hbegun : w.begun running.mergeRunId) (hnot : ¬w.invoked running.mergeRunId)
    (hapart : w.apart inputs.artifacts) :
    (runMerge owner inputs conflicts running).HoldsAs (rules checked) (some running.mergeRunId)
      Anyhow Anyhow w := by
  unfold runMerge
  apply Prog.HoldsAs.bind
  apply Prog.HoldsAs.attempt exec_ok
  apply (merge_holds hbegun hnot hapart).mono
  · exact fun k' resultRef w' h => transitionOwned_holds h rfl _ _
  · intro k' e w' h
    cases e with
    | outcomeUnknown => exact transitionOwned_holds h rfl _ _
    | conflict | notFound | key | value | validation | other => exact mergeFailed_holds h

/-- A merge run as it was read from its row. -/
theorem getMergeRun_holds (id : String) : (ask (.getMergeRun id)).HoldsAs (rules checked) k
    (fun k' (merge : MergeRun) w' => k' = k ∧ w'.seen merge ∧ w'.based merge) Anyhow w := by
  apply ask_row fun _ => rfl
  intro w' merge _ hi ha
  obtain ⟨row, hrow, rfl⟩ := Option.map_eq_some_iff.mp (found_ok ha)
  have hmem := List.mem_of_find?_eq_some hrow
  exact ⟨rfl, ⟨row, hmem, rfl, Nat.le_refl _, fun _ => rfl⟩, hi.bases row hmem⟩

theorem finalizeMergeRun_keeps (owner : Owner) (mergeRunId : String) (definition : String × Nat)
    (leases : List WriterLease) (reviewApproved : Bool) :
    (finalizeMergeRun owner mergeRunId definition leases reviewApproved).HoldsAs (rules checked) none
      Anyhow Anyhow w := by
  unfold finalizeMergeRun
  apply Prog.HoldsAs.bind
  apply (getMergeRun_holds mergeRunId).mono ?_ fun _ _ _ _ => trivial
  intro k' merge w₁ h
  obtain ⟨rfl, hseen, hbased⟩ := h
  split
  · trivial
  · rename_i hterminal
    split
    · trivial
    · rename_i hrunning
      have hclaimable : merge.status.isClaimable = true := by
        simp [MergeRunStatus.isClaimable, hterminal, hrunning]
      apply Prog.HoldsAs.bind
      apply ((mergeInputs_holds merge definition).later rely_weak).mono ?_ fun _ _ _ _ => trivial
      intro k' inputs w₂ h
      obtain ⟨⟨rfl, hfits⟩, hr₂⟩ := h
      have hapart : w₂.apart inputs.artifacts := hfits.no_clash (Rely.based hr₂ hbased)
      apply Prog.HoldsAs.bind
      apply ((assertWorkspaceLeases_holds inputs.workspaces leases).later rely_weak).mono ?_
        fun _ _ _ _ => trivial
      intro k' _ w₃ h
      obtain ⟨rfl, hr₃⟩ := h
      apply Prog.HoldsAs.bind
      apply ((listConflicts_holds merge.graphRunId).later rely_weak).mono ?_ fun _ _ _ _ => trivial
      intro k' conflicts w₄ h
      obtain ⟨rfl, hr₄⟩ := h
      have hr : Rely none w₂ w₄ := Rely.trans hr₃ hr₄
      have hseen₄ : w₄.seen merge := hr.seen (Rely.seen hr₂ hseen)
      split
      · split
        · trivial
        · exact transition_holds hseen₄ hclaimable (.inl rfl) _ _
      · split
        · split
          · trivial
          · exact transition_holds hseen₄ hclaimable (.inr rfl) _ _
        · apply Prog.HoldsAs.bind
          apply (now_holds.later rely_weak).mono ?_ fun _ _ _ _ => trivial
          intro k' claimedAt w₅ h
          obtain ⟨rfl, hr₅⟩ := h
          apply Prog.HoldsAs.bind
          apply ((claimMergeRun_holds merge owner.id _).later rely_weak).mono ?_
            fun _ _ _ _ => trivial
          intro k' running w₆ h
          obtain ⟨⟨rfl, hid, hbegun, hnot⟩, hr₆⟩ := h
          rw [← hid] at hbegun hnot ⊢
          exact runMerge_holds hbegun hnot ((hr.trans (Rely.trans hr₅ hr₆)).apart hapart)

theorem heartbeat_keeps (owner : Owner) (mergeRunId : String) :
    (heartbeat owner mergeRunId).HoldsAs (rules checked) k Anyhow Anyhow w := by
  apply Prog.HoldsAs.bind
  exact now_holds.mono (fun _ _ _ _ => renewMergeRunLease_holds mergeRunId owner.id _)
    fun _ _ _ _ => trivial

theorem construct_keeps : construct.HoldsAs (rules checked) k Anyhow Anyhow w := by
  apply Prog.HoldsAs.bind
  apply now_holds.mono ?_ fun _ _ _ _ => trivial
  intro k' now w' _
  apply Prog.HoldsAs.bind
  exact (reconcileIncompleteMergeRuns_holds now).mono (fun _ _ _ _ => trivial) fun _ _ _ _ => trivial

theorem reconcileMergeRun_keeps (mergeRunId : String) (expectedRevision : Nat)
    (status : MergeRunStatus) (resultArtifactRef errorCode : Option String) :
    (reconcileMergeRun mergeRunId expectedRevision status resultArtifactRef errorCode).HoldsAs
      (rules checked) k Anyhow Anyhow w := by
  unfold reconcileMergeRun
  split
  · trivial
  · apply Prog.HoldsAs.bind
    apply (getMergeRun_holds mergeRunId).mono ?_ fun _ _ _ _ => trivial
    intro _ merge w₁ _
    apply Prog.HoldsAs.bind
    apply (mergeInputs_holds merge none).mono ?_ fun _ _ _ _ => trivial
    intro _ _ w₂ _
    apply Prog.HoldsAs.bind
    apply (reconcileMergeRun_holds mergeRunId expectedRevision status resultArtifactRef errorCode).mono
      ?_ fun _ _ _ _ => trivial
    intro _ _ w₃ _
    exact (getMergeRun_holds mergeRunId).mono (fun _ _ _ _ => trivial) fun _ _ _ _ => trivial

/-! ### Artifacts and conflicts -/

theorem publishArtifact_keeps (artifact : PatchCommitArtifact) (lease : WriterLease) :
    (publishArtifact artifact lease).HoldsAs (rules checked) k Anyhow Anyhow w := by
  unfold publishArtifact
  apply Prog.HoldsAs.bind
  apply (getWorkspace_holds artifact.writerWorkspaceId).mono ?_ fun _ _ _ _ => trivial
  intro k' workspace w₁ _
  have hverify : (ask (.verify workspace artifact)).HoldsAs (rules checked) k' Anyhow Anyhow w₁ := by
    apply ask_row fun _ => rfl
    exact fun _ _ _ _ _ => trivial
  apply Prog.HoldsAs.bind
  exact hverify.mono (fun _ _ _ _ => publishArtifact_holds artifact lease) fun _ _ _ _ => trivial

/-- A dict by id gives the row with the id. -/
theorem workspaceOf_ok {workspaces : List WriterWorkspace} {a : PatchCommitArtifact}
    {workspace : WriterWorkspace}
    (hids : (workspaces.map WriterWorkspace.writerWorkspaceId).Nodup) (hmem : workspace ∈ workspaces)
    (hid : workspace.writerWorkspaceId = a.writerWorkspaceId) :
    workspaceOf workspaces a = .ok workspace := by
  unfold workspaceOf
  rw [Dict.ofList_of_nodup (by rw [List.map_map]; exact hids), ← hid]
  have hlookup : (workspaces.map fun row => (row.writerWorkspaceId, row)).lookup
      workspace.writerWorkspaceId = some workspace := by
    obtain ⟨before, after, rfl⟩ := List.append_of_mem hmem
    rw [List.map_append, List.map_cons, List.nodup_append] at hids
    apply List.lookup_eq_some_iff.mpr
    refine ⟨before.map fun row => (row.writerWorkspaceId, row),
      after.map fun row => (row.writerWorkspaceId, row), by simp, ?_⟩
    intro item hitem
    obtain ⟨row, hrow, rfl⟩ := List.mem_map.mp hitem
    have hne := hids.2.2 _ (List.mem_map_of_mem hrow) _ (List.mem_cons_self ..)
    simpa using fun h => hne h.symm
  rw [hlookup]

theorem conflictReason_isOf {a b : PatchCommitArtifact} {left right : WriterWorkspace}
    {reason : ConflictReason} (h : conflictReason a b left right = some reason) : reason.isOf a b := by
  unfold conflictReason at h
  dsimp only at h
  generalize (if decide (a.baseRevision ≠ b.baseRevision) = true ∧ commonPaths a b left right = [] then
    a.changedPaths ++ b.changedPaths else commonPaths a b left right) = paths at h
  split at h
  · exact nomatch h
  · split at h
    · exact nomatch h
    · cases h
      unfold ConflictReason.isOf
      dsimp only
      by_cases hle : a.writerArtifactId ≤ b.writerArtifactId
      · rw [if_pos hle, if_pos hle]
        exact .inl ⟨rfl, rfl⟩
      · rw [if_neg hle, if_neg hle]
        exact .inr ⟨rfl, rfl⟩

/-- What clashes is found: paths of one writer under a path of another mean that what they
own overlaps. -/
theorem reason_of_clash {a b : PatchCommitArtifact} {left right : WriterWorkspace}
    (ha : Published a left) (hb : Published b right) (hne : left.writerKey ≠ right.writerKey)
    (hclash : Clash a b) : conflictReason a b left right ≠ none := by
  intro hnone
  unfold conflictReason at hnone
  dsimp only at hnone
  rw [if_neg hne] at hnone
  by_cases hstale : a.baseRevision = b.baseRevision
  · cases hclash with
    | inl hbase => exact hbase hstale
    | inr hclash =>
      have hfresh : ¬(decide (a.baseRevision ≠ b.baseRevision) = true ∧
          commonPaths a b left right = []) := fun h => of_decide_eq_true h.1 hstale
      rw [if_neg hfresh] at hnone
      have hcommon : commonPaths a b left right = [] := by
        by_contra hpaths
        have hfound : ¬(commonPaths a b left right = [] ∧
          ¬decide (a.baseRevision ≠ b.baseRevision) = true) := fun h => hpaths h.1
        rw [if_neg hfound] at hnone
        exact nomatch hnone
      obtain ⟨p, hp, q, hq, hoverlap⟩ := hclash
      obtain ⟨l, hl, hlp⟩ := ha.owned p hp
      obtain ⟨r, hr, hrq⟩ := hb.owned q hq
      obtain ⟨-, hnot⟩ := List.append_eq_nil_iff.mp hcommon
      have hmem := List.flatMap_eq_nil_iff.mp hnot l hl
      rw [List.map_eq_nil_iff, List.filter_eq_nil_iff] at hmem
      exact hmem r hr (decide_eq_true (hoverlap.owners hlp hrq))
  · have hdiffer : decide (a.baseRevision ≠ b.baseRevision) = true := decide_eq_true hstale
    rw [if_neg (not_and_of_not_right _ (not_not.mpr hdiffer))] at hnone
    exact nomatch hnone

/-- What a round of `detect_conflicts` starts from: the two workspaces, and conflicts that a
record takes. -/
def World.pairReady (checked : Prop) (w : World) (workspaces : List WriterWorkspace)
    (left right : PatchCommitArtifact) : Prop :=
  w.between left right fun l r => (workspaceOf workspaces left = .ok l ∧
    workspaceOf workspaces right = .ok r) ∧ (Published left l ∧ Published right r) ∧
      ∀ reason, conflictReason left right l r = some reason → checked →
        ConflictSizes reason.left reason.right reason.paths

theorem newConflict_ok {graphRunId : String} {reason : ConflictReason} {conflict : WriterConflict}
    (h : newConflict graphRunId reason = .ok conflict) : conflict.graphRunId = graphRunId ∧
      conflict.conflictHash = reason ∧ conflict.leftArtifactId = conflict.conflictHash.left ∧
      conflict.rightArtifactId = conflict.conflictHash.right := by
  unfold newConflict at h
  split at h
  · cases h
    exact ⟨rfl, rfl, rfl, rfl⟩
  · exact nomatch h

/-- A conflict is refused for its size only. -/
theorem newConflict_error {graphRunId : String} {reason : ConflictReason} {e : Raised}
    (h : newConflict graphRunId reason = .error e) :
    e = .validation ∧ ¬ConflictSizes reason.left reason.right reason.paths := by
  unfold newConflict at h
  split at h
  · exact nomatch h
  · rename_i hsizes
    cases h
    exact ⟨rfl, hsizes⟩

theorem detectPair_holds {graphRunId : String} {workspaces : List WriterWorkspace}
    {left right : PatchCommitArtifact} (h : w.pairReady checked workspaces left right) :
    (detectPair graphRunId workspaces left right).HoldsAs (rules checked) k
      (fun k' _ w' => k' = k ∧ w'.noticed graphRunId left right)
      (fun _ e _ => checked → e.isFault = true) w := by
  obtain ⟨l, r, hl, hr, ⟨hleft, hright⟩, ⟨ha, hb⟩, hsizes⟩ := h
  unfold detectPair
  rw [hleft, hright]
  dsimp only [Prog.lift, bind, Prog.bind]
  cases hreason : conflictReason left right l r with
  | none => exact ⟨rfl, l, r, hl, hr, fun hne hclash => absurd hreason (reason_of_clash ha hb hne hclash)⟩
  | some reason =>
    apply Prog.HoldsAs.bind
    apply Prog.holdsAs_lift
    · intro conflict hconflict
      obtain ⟨hrun, hhash, hids⟩ := newConflict_ok hconflict
      apply Prog.HoldsAs.bind
      apply ((putConflict_holds (X := fun _ e _ => checked → e.isFault = true) hids
        fun _ _ _ => rfl).later rely_weak).mono ?_ fun _ _ _ h => h.1
      intro k' row w' h
      obtain ⟨⟨rfl, hrecorded⟩, hrely⟩ := h
      rw [hrun, hhash] at hrecorded
      exact ⟨rfl, l, r, Rely.workspaces hrely _ _ hl, Rely.workspaces hrely _ _ hr,
        fun _ _ => ⟨reason, hrecorded, conflictReason_isOf hreason⟩⟩
    · exact fun e he hc => absurd (hsizes reason hreason hc) (newConflict_error he).2

theorem detectPairs_holds {graphRunId : String} {workspaces : List WriterWorkspace}
    {rounds : List (PatchCommitArtifact × PatchCommitArtifact)}
    (h : ∀ pair ∈ rounds, w.pairReady checked workspaces pair.1 pair.2) :
    (detectPairs graphRunId workspaces rounds).HoldsAs (rules checked) k
      (fun k' _ w' => k' = k ∧ ∀ pair ∈ rounds, w'.noticed graphRunId pair.1 pair.2)
      (fun _ e _ => checked → e.isFault = true) w := by
  induction rounds generalizing k w with
  | nil => exact ⟨rfl, fun _ h => (List.not_mem_nil h).elim⟩
  | cons pair rest ih =>
    obtain ⟨left, right⟩ := pair
    unfold detectPairs
    apply Prog.HoldsAs.bind
    apply ((detectPair_holds (h _ (List.mem_cons_self ..))).later rely_weak).mono ?_ fun _ _ _ h => h.1
    intro k' found w₁ hfirst
    obtain ⟨⟨rfl, hdetected⟩, hr₁⟩ := hfirst
    have hready : ∀ pair ∈ rest, w₁.pairReady checked workspaces pair.1 pair.2 := fun pair hpair =>
      Rely.between hr₁ (h pair (List.mem_cons_of_mem _ hpair)) fun _ _ h => h
    apply Prog.HoldsAs.bind
    apply ((ih hready).later rely_weak).mono ?_ fun _ _ _ h => h.1
    intro k'' others w₂ hothers
    obtain ⟨⟨rfl, hrest⟩, hr₂⟩ := hothers
    refine ⟨rfl, fun pair hpair => ?_⟩
    cases List.mem_cons.mp hpair with
    | inl heq => rw [heq]; exact Rely.noticed hr₂ hdetected
    | inr hmem => exact hrest pair hmem

theorem World.noticed.symm {graphRunId : String} {a b : PatchCommitArtifact}
    (h : w.noticed graphRunId a b) : w.noticed graphRunId b a := by
  obtain ⟨left, right, hleft, hright, hall⟩ := h
  refine ⟨right, left, hright, hleft, fun hne hclash => ?_⟩
  obtain ⟨reason, hrecorded, hof⟩ := hall hne.symm hclash.symm
  exact ⟨reason, hrecorded, Or.symm hof⟩

theorem mem_listArtifacts {graphRunId : String} {a : PatchCommitArtifact} :
    a ∈ w.listArtifacts graphRunId ↔ a ∈ w.artifacts ∧ w.ofRun graphRunId a = true := by
  unfold World.listArtifacts
  rw [List.mem_insertionSort, List.mem_filter]

/-- The workspace of a listed artifact is one of the graph run. -/
theorem workspace_of_listed (hi : Inv checked w) {graphRunId : String} {a : PatchCommitArtifact}
    (ha : a ∈ w.listArtifacts graphRunId) : ∃ workspace,
      w.workspace? a.writerWorkspaceId = some workspace ∧ Published a workspace ∧
        workspace.graphRunId = graphRunId := by
  obtain ⟨hmem, hof⟩ := mem_listArtifacts.mp ha
  obtain ⟨workspace, hsome, hpublished⟩ := hi.owned a hmem
  refine ⟨workspace, hsome, hpublished, ?_⟩
  obtain ⟨row, hrow, hsame⟩ := List.any_eq_true.mp hof
  rw [Bool.and_eq_true, decide_eq_true_eq, decide_eq_true_eq] at hsame
  have hid := List.find?_some hsome
  rw [decide_eq_true_eq] at hid
  rw [← eq_of_key hi.workspaceIds hrow (List.mem_of_find?_eq_some hsome) (hsame.1.trans hid.symm)]
  exact hsame.2

theorem mem_of_mem_pairs {α : Type} {xs : List α} {pair : α × α} (h : pair ∈ pairs xs) :
    pair.1 ∈ xs ∧ pair.2 ∈ xs := by
  induction xs with
  | nil => cases h
  | cons x rest ih =>
    unfold pairs at h
    cases List.mem_append.mp h with
    | inl hmem =>
      obtain ⟨y, hy, rfl⟩ := List.mem_map.mp hmem
      exact ⟨List.mem_cons_self .., List.mem_cons_of_mem _ hy⟩
    | inr hmem =>
      obtain ⟨hfst, hsnd⟩ := ih hmem
      exact ⟨List.mem_cons_of_mem _ hfst, List.mem_cons_of_mem _ hsnd⟩

/-- `detect_conflicts` records what it has listed; where conflicts have sizes that a record
takes, it fails for exceptions from below only. -/
theorem detectConflicts_holds (graphRunId : String) :
    (detectConflicts graphRunId).HoldsAs (rules checked) k
      (fun _ result w' => w'.detected graphRunId result.1)
      (fun _ e _ => checked → e.isFault = true) w := by
  unfold detectConflicts
  apply Prog.HoldsAs.bind
  have hlist : (ask (.listArtifacts graphRunId)).HoldsAs (rules checked) k
      (fun k' (artifacts : List PatchCommitArtifact) w' => k' = k ∧ ∀ pair ∈ pairs artifacts,
        w'.between pair.1 pair.2 fun l r => (l.graphRunId = graphRunId ∧ r.graphRunId = graphRunId) ∧
          (Published pair.1 l ∧ Published pair.2 r) ∧ ∀ reason, conflictReason pair.1 pair.2 l r = some reason → checked →
            ConflictSizes reason.left reason.right reason.paths)
      (fun _ e _ => checked → e.isFault = true) w := by
    apply ask_read (fun _ => rfl) ?_ (fun _ _ _ h => nomatch h) fun _ _ _ => rfl
    intro w' artifacts _ hi hc ha
    obtain rfl : w'.listArtifacts graphRunId = artifacts := Except.ok.inj ha
    refine ⟨rfl, fun pair hpair => ?_⟩
    obtain ⟨hfst, hsnd⟩ := mem_of_mem_pairs hpair
    obtain ⟨l, hl, ha, hlrun⟩ := workspace_of_listed hi hfst
    obtain ⟨r, hr, hb, hrrun⟩ := workspace_of_listed hi hsnd
    exact ⟨l, r, hl, hr, ⟨hlrun, hrrun⟩, ⟨ha, hb⟩, fun reason hreason hchecked =>
      hc hchecked pair hpair l hl r hr reason hreason⟩
  apply hlist.mono ?_ fun _ _ _ h => h
  intro k' artifacts w₁ h
  obtain ⟨rfl, hlisted⟩ := h
  apply Prog.HoldsAs.bind
  have hworkspaces : (ask (.listWorkspaces graphRunId)).HoldsAs (rules checked) k'
      (fun k'' (workspaces : List WriterWorkspace) w' => k'' = k' ∧
        ∀ pair ∈ pairs artifacts, w'.pairReady checked workspaces pair.1 pair.2)
      (fun _ e _ => checked → e.isFault = true) w₁ := by
    apply ask_read (fun _ => rfl) ?_ (fun _ _ _ h => nomatch h) fun _ _ _ => rfl
    intro w' workspaces hr hi _ ha
    obtain rfl : w'.listWorkspaces graphRunId = workspaces := Except.ok.inj ha
    have hids : ((w'.listWorkspaces graphRunId).map WriterWorkspace.writerWorkspaceId).Nodup := by
      have hperm := List.perm_insertionSort (fun a b : WriterWorkspace => a.createdAt ≤ b.createdAt)
        (w'.workspaces.filter fun row => row.graphRunId = graphRunId)
      apply (hperm.map WriterWorkspace.writerWorkspaceId).nodup_iff.mpr
      exact hi.workspaceIds.sublist (List.filter_sublist.map _)
    have hof : ∀ {a : PatchCommitArtifact} {workspace : WriterWorkspace},
        w'.workspace? a.writerWorkspaceId = some workspace → workspace.graphRunId = graphRunId →
        workspaceOf (w'.listWorkspaces graphRunId) a = .ok workspace := by
      intro a workspace hsome hrun
      have hid := List.find?_some hsome
      rw [decide_eq_true_eq] at hid
      apply workspaceOf_ok hids ?_ hid
      unfold World.listWorkspaces
      rw [List.mem_insertionSort, List.mem_filter]
      exact ⟨List.mem_of_find?_eq_some hsome, decide_eq_true hrun⟩
    refine ⟨rfl, fun pair hpair => ?_⟩
    obtain ⟨l, r, hl, hr', ⟨hlrun, hrrun⟩, hrest⟩ := hlisted pair hpair
    exact ⟨l, r, hr.workspaces _ _ hl, hr.workspaces _ _ hr', ⟨hof (hr.workspaces _ _ hl) hlrun,
      hof (hr.workspaces _ _ hr') hrrun⟩, hrest⟩
  apply hworkspaces.mono ?_ fun _ _ _ h => h
  intro k'' workspaces w₂ h
  obtain ⟨rfl, hready⟩ := h
  apply Prog.HoldsAs.bind
  apply (detectPairs_holds hready).mono ?_ fun _ _ _ h => h
  intro k₃ found w₃ h a ha b hb hne
  cases mem_pairs ha hb hne with
  | inl hpair => exact h.2 _ hpair
  | inr hpair => exact (h.2 _ hpair).symm

/-! ### Tasks -/

theorem code_holds (task : Task) : task.code.HoldsAs (rules checked) none
    (fun _ ending w' => checked → ∀ d ∈ ending.toList, d.Complete w') Anyhow w := by
  have hnone : ∀ {α : Type} {p : Action α}, p.HoldsAs (rules checked) none Anyhow Anyhow w →
      (p >>= fun _ => (return none : Action Ending)).HoldsAs (rules checked) none
        (fun _ ending w' => checked → ∀ d ∈ ending.toList, d.Complete w') Anyhow w := by
    intro α p hp
    apply Prog.HoldsAs.bind
    exact hp.mono (fun _ _ _ _ _ _ hd => (List.not_mem_nil hd).elim) fun _ _ _ _ => trivial
  cases task with
  | publish artifact lease => exact hnone (publishArtifact_keeps artifact lease)
  | create merge definition leases => exact hnone (createMergeRun_keeps merge definition leases)
  | finalize owner mergeRunId definition leases reviewApproved =>
    exact hnone (finalizeMergeRun_keeps owner mergeRunId definition leases reviewApproved)
  | heartbeat owner mergeRunId => exact hnone (heartbeat_keeps owner mergeRunId)
  | construct => exact hnone construct_keeps
  | reconcile mergeRunId expectedRevision status resultArtifactRef errorCode =>
    exact hnone (reconcileMergeRun_keeps mergeRunId expectedRevision status resultArtifactRef errorCode)
  | other change => exact hnone (change_holds change)
  | detect graphRunId =>
    apply Prog.HoldsAs.bind
    apply Prog.HoldsAs.attempt exec_ok
    apply (detectConflicts_holds graphRunId).mono
    · intro _ result w' h _ d hd
      rw [show d = ⟨graphRunId, .ok result⟩ from List.mem_singleton.mp hd]
      exact h
    · intro _ e w' h hc d hd
      rw [show d = ⟨graphRunId, .error e⟩ from List.mem_singleton.mp hd]
      exact h hc

theorem system_sound : Pool.OwnersSound (rules checked)
    (fun _ _ ending w => checked → ∀ d ∈ ending.toList, d.Complete w) system where
  exec := rfl
  code task _ _ := code_holds task
  note task k ending w w' hpost hr hi := by
    have hrely (other : Option String) : Rely other w' { w' with
        detections := w'.detections ++ ending.toList } := { Rely.refl other w' with }
    refine ⟨?_, fun _ _ => hrely _, .inr (.inl rfl)⟩
    apply hi.grow (hrely none) rfl rfl rfl (fun _ h => .inl h) hi.workspaceIds (fun _ h => .inl h)
      hi.conflicts
    intro hc d hd
    cases List.mem_append.mp hd with
    | inl hold => exact .inl hold
    | inr hnew => exact .inr ((hrely none).complete (Rely.complete hr (hpost hc d hnew)))

end Programs
end Operant.MultiWriter
