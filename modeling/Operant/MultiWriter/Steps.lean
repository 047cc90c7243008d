import Operant.MultiWriter.Invariant
import Operant.MultiWriter.Leases

/-! One rule for each call. -/
namespace Operant.MultiWriter
open Operant.Tables Operant.Calls Operant.Graph

namespace World

/-- The merge run was read from its row, which may have been written since. -/
def seen (w : World) (merge : MergeRun) : Prop :=
  ∃ row ∈ w.merges, row.merge.mergeRunId = merge.mergeRunId ∧
    merge.expectedRevision ≤ row.merge.expectedRevision ∧
    (row.merge.expectedRevision = merge.expectedRevision → row.merge = merge)

/-- The artifacts of the merge run are there, and have its base. -/
def based (w : World) (merge : MergeRun) : Prop :=
  ∀ id ∈ merge.artifactIds, ∃ a, w.artifact? id = some a ∧ a.baseRevision = merge.baseRevision

end World

theorem Rely.seen {k : Option String} {w w' : World} (h : Rely k w w') {merge : MergeRun}
    (hs : w.seen merge) : w'.seen merge := by
  obtain ⟨row, hrow, hid, hle, hsame⟩ := hs
  obtain ⟨more, -, hlawful, hpath⟩ := h.history
  obtain ⟨row', hrow', hp⟩ := hpath row hrow
  have hle' := hp.revision_le hlawful
  refine ⟨row', hrow', (hp.id_eq hlawful).trans hid, hle.trans hle', fun heq => ?_⟩
  have hrevision : row.merge.expectedRevision = merge.expectedRevision := by omega
  rw [hp.same hlawful (heq.trans hrevision.symm), hsame hrevision]

theorem Rely.based {k : Option String} {w w' : World} (h : Rely k w w') {merge : MergeRun}
    (hb : w.based merge) : w'.based merge := by
  intro id hid
  obtain ⟨a, ha, hbase⟩ := hb id hid
  exact ⟨a, h.artifacts id a ha, hbase⟩

/-- A task that may end in any way. -/
abbrev Anyhow {α : Type} (_ : Option String) (_ : α) (_ : World) : Prop := True

section Rules
variable {checked : Prop} {k : Option String} {w : World}
  {X : Option String → Raised → World → Prop}

/-! ### Calls in general -/

/-- A call that is answered, or at fault. -/
theorem ask_holds {c : Call} {Q : Option String → Reply c → World → Prop}
    (h : ∀ w', Rely k w w' → Inv checked w' → (checked → w'.allowsCall c) →
      ∃ k', (rules checked).Step k w' (w'.answer c).2 k' ∧
        (∀ a, (w'.answer c).1 = .ok a → Q k' a (w'.answer c).2) ∧
        ∀ e, (w'.answer c).1 = .error e → X k' e (w'.answer c).2)
    (hfault : ∀ w' typeName, X k (.other typeName) w') :
    (ask c).HoldsAs (rules checked) k Q X w := by
  show (Prog.call c Prog.lift : Action (Reply c)).HoldsAs (rules checked) k Q X w
  apply Prog.holdsAs_ask (fun w => w.exec c) fun _ => rfl
  intro w' hr hi ha
  unfold World.exec
  split
  · exact h w' hr hi ha
  · split
    · refine ⟨k, ⟨hi, fun _ _ => Rely.refl _ _, .inl rfl⟩, fun _ hok => (nomatch hok), ?_⟩
      intro e he
      cases he
      exact hfault w' _
    · exact h w' hr hi ha

/-- A call that reads. -/
theorem ask_read {c : Call} {Q : Option String → Reply c → World → Prop}
    (hread : ∀ w' : World, (w'.answer c).2 = w')
    (hok : ∀ (w' : World) a, Rely k w w' → Inv checked w' → (checked → w'.allowsCall c) →
      (w'.answer c).1 = .ok a → Q k a w')
    (herror : ∀ (w' : World) e, Rely k w w' → (w'.answer c).1 = .error e → X k e w')
    (hfault : ∀ w' typeName, X k (.other typeName) w') :
    (ask c).HoldsAs (rules checked) k Q X w := by
  apply ask_holds ?_ hfault
  intro w' hr hi hc
  rw [hread w']
  exact ⟨k, ⟨hi, fun _ _ => Rely.refl _ _, .inl rfl⟩, fun a => hok w' a hr hi hc,
    fun e => herror w' e hr⟩

/-- A row that is looked up. -/
theorem found_ok {α : Type} {e : Raised} {row : Option α} {a : α} (h : World.found e row = .ok a) :
    row = some a := by
  unfold World.found at h
  split at h
  · exact nomatch h
  · cases h
    rfl

/-! ### What others do -/

/-- What a change by others does. -/
inductive Changed (w : World) : World → Prop
  | leases (outside : Outside) (leases : List WriterLease) :
      Changed w { w with outside := outside, leases := leases }
  | definition (definition : WorkflowDefinition) :
      Changed w { w with definitions := w.definitions ++ [definition] }
  | run (run : GraphRun) (bindings : List NodeBinding) (definition : WorkflowDefinition)
      (found : w.definition? run.workflowDefinitionId run.workflowDefinitionVersion = some definition)
      (compiled : ∃ compiled, compile definition = .ok compiled) :
      Changed w { w with runs := w.runs ++ [run], nodeRuns := w.nodeRuns ++ bindings }
  | workspace (workspace : WriterWorkspace)
      (fresh : ∀ old ∈ w.workspaces, old.writerWorkspaceId ≠ workspace.writerWorkspaceId) :
      Changed w { w with workspaces := w.workspaces ++ [workspace] }
  | conflict (p : WriterConflict → Bool) (status : WriterConflictStatus)
      (resolutionArtifactRef : Option String) :
      Changed w { w with conflicts := update w.conflicts p fun c =>
        { c with status := status, resolutionArtifactRef := resolutionArtifactRef } }

theorem Changed.same : Changed w w := .leases w.outside w.leases

theorem change_changed (w : World) (c : Change) : Changed w (w.change c) := by
  cases c with
  | outside f => exact .leases _ _
  | putDefinition definition =>
    show Changed w (w.putDefinition definition)
    unfold World.putDefinition
    split
    · exact .same
    · exact .definition definition
  | createRun id workflowId version nodeRunId =>
    show Changed w (w.createRun id workflowId version nodeRunId)
    unfold World.createRun
    split
    · exact .same
    · rename_i definition hd
      split
      · exact .same
      · rename_i compiled hcompiled
        dsimp only
        split
        · exact .same
        · exact .run ⟨id, workflowId, version⟩ _ definition hd ⟨compiled, hcompiled⟩
  | createWorkspace workspace =>
    show Changed w (w.createWorkspace workspace)
    unfold World.createWorkspace
    split
    · exact .same
    · rename_i hguard
      apply Changed.workspace
      intro old hold heq
      apply hguard
      right
      left
      rw [List.any_eq_true]
      exact ⟨old, hold, by simp [show old.writerWorkspaceId = _ from heq]⟩
  | acquireLease workspaceId owner token expiresAt =>
    obtain ⟨rows, heq, -⟩ := acquireLease_moved w workspaceId owner token expiresAt
    show Changed w (w.acquireLease workspaceId owner token expiresAt).2
    rw [heq]
    exact .leases _ _
  | renewLease lease expiresAt =>
    obtain ⟨rows, heq, -⟩ := renewLease_moved w lease expiresAt
    show Changed w (w.renewLease lease expiresAt).2
    rw [heq]
    exact .leases _ _
  | releaseLease lease =>
    obtain ⟨rows, heq, -⟩ := releaseLease_moved w lease
    show Changed w (w.releaseLease lease).2
    rw [heq]
    exact .leases _ _
  | resolveConflict conflictId resolutionArtifactRef rejected => exact .conflict _ _ _

theorem Changed.rely {w' : World} (h : Changed w w') (k : Option String) : Rely k w w' := by
  cases h with
  | leases => exact { Rely.refl k w with }
  | definition => exact { Rely.refl k w with definitions := fun _ _ _ h => find?_append_some h }
  | run => exact { Rely.refl k w with }
  | workspace => exact { Rely.refl k w with workspaces := fun _ _ h => find?_append_some h }
  | conflict p status resolutionArtifactRef =>
    refine { Rely.refl k w with recorded := ?_ }
    intro graphRunId reason h
    obtain ⟨c, hc, hrun, hhash⟩ := h
    by_cases hp : p c = true
    · exact ⟨_, mem_update.mpr (.inl ⟨c, hc, hp, rfl⟩), hrun, hhash⟩
    · exact ⟨c, mem_update.mpr (.inr ⟨hc, by simpa using hp⟩), hrun, hhash⟩

theorem Changed.inv {w' : World} (h : Changed w w') (hi : Inv checked w) : Inv checked w' := by
  have hr := h.rely none
  cases h with
  | leases | definition =>
    exact hi.grow hr rfl rfl rfl (fun _ h => .inl h) hi.workspaceIds (fun _ h => .inl h) hi.conflicts
      fun _ _ h => .inl h
  | run run bindings definition found compiled =>
    apply hi.grow hr rfl rfl rfl ?_ hi.workspaceIds (fun _ h => .inl h) hi.conflicts
      fun _ _ h => .inl h
    intro other hother
    cases List.mem_append.mp hother with
    | inl hold => exact .inl hold
    | inr hnew =>
      rw [List.mem_singleton.mp hnew]
      exact .inr ⟨definition, found, compiled⟩
  | workspace workspace fresh =>
    apply hi.grow hr rfl rfl rfl (fun _ h => .inl h) ?_ (fun _ h => .inl h) hi.conflicts
      fun _ _ h => .inl h
    show ((w.workspaces ++ [workspace]).map WriterWorkspace.writerWorkspaceId).Nodup
    rw [List.map_append, List.map_singleton]
    apply List.Nodup.append hi.workspaceIds (List.nodup_singleton _)
    intro id hid hmem
    obtain ⟨old, hold, heq⟩ := List.mem_map.mp hid
    exact fresh old hold (heq.trans (List.mem_singleton.mp hmem))
  | conflict p status resolutionArtifactRef =>
    apply hi.grow hr rfl rfl rfl (fun _ h => .inl h) hi.workspaceIds (fun _ h => .inl h) ?_
      fun _ _ h => .inl h
    intro c hc
    rcases mem_update.mp hc with hnew | hold
    · obtain ⟨old, hmem, -, rfl⟩ := hnew
      exact hi.conflicts old hmem
    · exact hi.conflicts c hold.1

theorem change_holds (c : Change) :
    (ask (.change c)).HoldsAs (rules checked) k Anyhow Anyhow w := by
  apply ask_holds ?_ fun _ _ => trivial
  intro w' _ hi _
  have hchanged := change_changed w' c
  exact ⟨k, ⟨hchanged.inv hi, fun other _ => hchanged.rely other, .inl rfl⟩,
    fun _ _ => trivial, fun _ _ => trivial⟩

/-! ### Artifacts and conflicts -/

theorem checkArtifact_ok {artifact : PatchCommitArtifact} {lease : WriterLease}
    (h : w.checkArtifact artifact lease = .ok ()) :
    ∃ workspace, w.workspace? artifact.writerWorkspaceId = some workspace ∧
      Published artifact workspace := by
  unfold World.checkArtifact at h
  obtain ⟨-, h⟩ := ok_of_guard h
  obtain ⟨_, -, h⟩ := ok_of_bind h
  split at h
  · exact nomatch h
  · rename_i workspace hworkspace
    obtain ⟨hbase, h⟩ := ok_of_guard h
    obtain ⟨howned, h⟩ := ok_of_guard h
    obtain ⟨hempty, -⟩ := ok_of_guard h
    refine ⟨workspace, hworkspace, not_not.mp hbase, ?_, fun hnil => hempty (.inl hnil)⟩
    intro path hpath
    by_contra hnot
    apply howned
    rw [List.any_eq_true]
    exact ⟨path, hpath, by simp [hnot]⟩

theorem publishArtifact_holds (artifact : PatchCommitArtifact) (lease : WriterLease) :
    (ask (.publishArtifact artifact lease)).HoldsAs (rules checked) k Anyhow Anyhow w := by
  apply ask_holds ?_ fun _ _ => trivial
  intro w' _ hi _
  refine ⟨k, ?_, fun _ _ => trivial, fun _ _ => trivial⟩
  show (rules checked).Step k w' (w'.publishArtifact artifact lease).2 k
  unfold World.publishArtifact
  split
  · exact ⟨hi, fun _ _ => Rely.refl _ _, .inl rfl⟩
  · rename_i hcheck
    have hr (k : Option String) : Rely k w' { w' with artifacts := w'.artifacts ++ [artifact] } :=
      { Rely.refl k w' with artifacts := fun _ _ h => find?_append_some h }
    refine ⟨?_, fun _ _ => hr _, .inl rfl⟩
    apply hi.grow (hr none) rfl rfl rfl (fun _ h => .inl h) hi.workspaceIds ?_ hi.conflicts
      fun _ _ h => .inl h
    intro a ha
    cases List.mem_append.mp ha with
    | inl hold => exact .inl hold
    | inr hnew =>
      rw [List.mem_singleton.mp hnew]
      exact .inr (checkArtifact_ok (w := w') hcheck)

/-- A conflict that is put is recorded, whether it was before or not. -/
theorem putConflict_holds {conflict : WriterConflict}
    (hids : conflict.leftArtifactId = conflict.conflictHash.left ∧
      conflict.rightArtifactId = conflict.conflictHash.right)
    (hfault : ∀ w' typeName, X k (.other typeName) w') :
    (ask (.putConflict conflict)).HoldsAs (rules checked) k
      (fun k' _ w' => k' = k ∧ w'.recorded conflict.graphRunId conflict.conflictHash) X w := by
  apply ask_holds ?_ hfault
  intro w' _ hi _
  have hstep : (rules checked).Step k w' (w'.putConflict conflict).2 k ∧
      (w'.putConflict conflict).2.recorded conflict.graphRunId conflict.conflictHash := by
    unfold World.putConflict
    split
    · rename_i row hrow
      have hsame := List.find?_some hrow
      simp only [Bool.and_eq_true, decide_eq_true_eq] at hsame
      exact ⟨⟨hi, fun _ _ => Rely.refl _ _, .inl rfl⟩,
        row, List.mem_of_find?_eq_some hrow, hsame.1, hsame.2⟩
    · dsimp only
      have hr (k : Option String) : Rely k w' { w' with
          conflicts := w'.conflicts ++ [{ conflict with conflictId := w'.conflicts.length }] } :=
        { Rely.refl k w' with
          recorded := by
            intro graphRunId reason h
            obtain ⟨c, hc, hsame⟩ := h
            exact ⟨c, List.mem_append_left _ hc, hsame⟩ }
      refine ⟨⟨?_, fun _ _ => hr _, .inl rfl⟩, _, List.mem_append_right _ (List.mem_singleton.mpr rfl),
        rfl, rfl⟩
      apply hi.grow (hr none) rfl rfl rfl (fun _ h => .inl h) hi.workspaceIds (fun _ h => .inl h) ?_
        fun _ _ h => .inl h
      intro c hc
      cases List.mem_append.mp hc with
      | inl hold => exact hi.conflicts c hold
      | inr hnew =>
        rw [List.mem_singleton.mp hnew]
        exact hids
  exact ⟨k, hstep.1, fun _ _ => ⟨rfl, hstep.2⟩, fun e he => nomatch he⟩

/-! ### Writes to merge runs -/

theorem merge?_of_mem (hi : Inv checked w) {row : MergeRow} (hrow : row ∈ w.merges) :
    w.merge? row.merge.mergeRunId = some row := by
  cases hfind : w.merge? row.merge.mergeRunId with
  | none => exact absurd (decide_eq_true rfl) (List.find?_eq_none.mp hfind row hrow)
  | some other =>
    have hid := List.find?_some hfind
    simp only [decide_eq_true_eq] at hid
    rw [eq_of_key hi.mergeIds (List.mem_of_find?_eq_some hfind) hrow hid]

/-- The row of a merge run that was read, if it has not been written since. -/
theorem World.seen.merge_eq (hi : Inv checked w) {merge : MergeRun} (h : w.seen merge)
    {row : MergeRow} (hrow : row ∈ w.merges) (hid : row.merge.mergeRunId = merge.mergeRunId)
    (hrevision : row.merge.expectedRevision = merge.expectedRevision) : row.merge = merge := by
  obtain ⟨row', hrow', hid', -, hsame⟩ := h
  have heq : row' = row := eq_of_key hi.mergeIds hrow' hrow (hid'.trans hid.symm)
  rw [heq] at hsame
  exact hsame hrevision

/-- A statement that must match one row, where it is lawful. -/
theorem writeOne_step {α : Type} {writer : Writer} {p : MergeRow → Bool} {f : MergeRow → MergeRow}
    (h : Lawfully w writer p f) (hi : Inv checked w) (k : Option String) (message : String)
    (reply : α) : (rules checked).Step k w (w.writeOne writer p f message reply).2 k := by
  unfold World.writeOne
  split
  · exact ⟨hi, fun _ _ => Rely.refl _ _, .inl rfl⟩
  · exact h.step hi k

theorem atRevision_iff {id : String} {expectedRevision : Nat} {row : MergeRow} :
    World.atRevision id expectedRevision row = true ↔
      row.merge.mergeRunId = id ∧ row.merge.expectedRevision = expectedRevision := by
  unfold World.atRevision
  rw [Bool.and_eq_true, decide_eq_true_eq, decide_eq_true_eq]

theorem createMergeRun_holds {merge : MergeRun} (hbased : w.based merge) :
    (ask (.createMergeRun merge)).HoldsAs (rules checked) k Anyhow Anyhow w := by
  apply ask_holds ?_ fun _ _ => trivial
  intro w' hr hi _
  refine ⟨k, ?_, fun _ _ => trivial, fun _ _ => trivial⟩
  show (rules checked).Step k w' (w'.createMergeRun merge).2 k
  unfold World.createMergeRun
  split
  · exact ⟨hi, fun _ _ => Rely.refl _ _, .inl rfl⟩
  · rename_i hstatus
    split
    · exact ⟨hi, fun _ _ => Rely.refl _ _, .inl rfl⟩
    · rename_i hguard
      let row : MergeRow := ⟨merge, none, by simp [hstatus]⟩
      have hnew : ∀ old ∈ w'.merges, old.merge.mergeRunId ≠ merge.mergeRunId := by
        intro old hold heq
        apply hguard
        apply Or.inl
        rw [← heq, merge?_of_mem hi hold]
        rfl
      have hrely (k : Option String) : Rely k w' { w' with merges := w'.merges ++ [row] } :=
        { Rely.refl k w' with
          history := ⟨[], (List.append_nil _).symm, fun _ h => (List.not_mem_nil h).elim,
            fun old hold => ⟨old, List.mem_append_left _ hold, .nil⟩⟩ }
      refine ⟨?_, fun _ _ => hrely _, .inl rfl⟩
      exact { hi with
        mergeIds := by
          show ((w'.merges ++ [row]).map fun row => row.merge.mergeRunId).Nodup
          rw [List.map_append, List.map_singleton]
          apply List.Nodup.append hi.mergeIds (List.nodup_singleton _)
          intro id hid hmem
          obtain ⟨old, hold, heq⟩ := List.mem_map.mp hid
          exact hnew old hold (heq.trans (List.mem_singleton.mp hmem))
        bases := by
          intro r hr' id hid
          cases List.mem_append.mp hr' with
          | inl hold => exact hi.bases r hold id hid
          | inr hlast =>
            rw [List.mem_singleton.mp hlast] at hid ⊢
            exact hr.based hbased id hid
        invocations := by
          intro i hmem
          obtain ⟨hbegun, hapart⟩ := hi.invocations i hmem
          exact ⟨(hrely none).begun hbegun, (hrely none).apart hapart⟩ }

/-- A merge run that was read before it was claimed goes back to its writers. -/
theorem transition_holds {merge : MergeRun} (hseen : w.seen merge)
    (hclaimable : merge.status.isClaimable = true) {status : MergeRunStatus}
    (hstatus : status = .conflicted ∨ status = .reviewRequired)
    (resultArtifactRef errorCode : Option String) :
    (transition merge status resultArtifactRef errorCode).HoldsAs (rules checked) k Anyhow Anyhow w := by
  unfold transition
  apply ask_holds ?_ fun _ _ => trivial
  intro w' hr hi _
  refine ⟨k, ?_, fun _ _ => trivial, fun _ _ => trivial⟩
  let next := merge.updated status resultArtifactRef errorCode
  show (rules checked).Step k w' (w'.updateMergeRun next merge.expectedRevision).2 k
  unfold World.updateMergeRun
  split
  · exact ⟨hi, fun _ _ => Rely.refl _ _, .inl rfl⟩
  · split
    · exact ⟨hi, fun _ _ => Rely.refl _ _, .inl rfl⟩
    · apply writeOne_step ?_ hi
      refine ⟨fun _ => rfl, fun _ => rfl, fun _ => rfl, fun _ => .inr rfl, ?_, ?_⟩
      · intro row hrow hp
        obtain ⟨hid, hrevision⟩ := atRevision_iff.mp hp
        refine ⟨?_, hstatus⟩
        rw [(hr.seen hseen).merge_eq hi hrow hid hrevision]
        exact hclaimable
      · exact fun _ _ _ _ _ hwriter => by cases hwriter

/-- A claim, of a merge run that nobody has claimed before. -/
theorem claimMergeRun_holds (merge : MergeRun) (ownerId : String) (leaseExpiresAt : Instant) :
    (ask (.claimMergeRun merge ownerId leaseExpiresAt)).HoldsAs (rules checked) none
      (fun k running w' => k = some merge.mergeRunId ∧ running.mergeRunId = merge.mergeRunId ∧
        w'.begun merge.mergeRunId ∧ ¬w'.invoked merge.mergeRunId) Anyhow w := by
  apply ask_holds ?_ fun _ _ => trivial
  intro w' _ hi _
  show ∃ k', (rules checked).Step none w' (w'.claimMergeRun merge ownerId leaseExpiresAt).2 k' ∧ _
  unfold World.answer World.claimMergeRun
  dsimp only
  split
  · refine ⟨none, ⟨hi, fun _ _ => Rely.refl _ _, .inl rfl⟩, fun _ hok => (nomatch hok), ?_⟩
    exact fun _ _ => trivial
  · have hlawful : Lawfully w' (.claim ownerId)
        (fun row => World.atRevision merge.mergeRunId merge.expectedRevision row &&
          row.merge.status.isClaimable) (fun row => row.claimed ownerId leaseExpiresAt) := by
      refine ⟨fun _ => rfl, fun _ => rfl, fun _ => rfl, fun _ => .inr rfl, ?_, ?_⟩
      · intro row _ hp
        rw [Bool.and_eq_true] at hp
        exact ⟨hp.2, rfl, decide_eq_true rfl⟩
      · exact fun _ _ _ _ _ hwriter => nomatch hwriter
    by_cases hcount : (w'.merges.filter fun row =>
        World.atRevision merge.mergeRunId merge.expectedRevision row &&
          row.merge.status.isClaimable).length ≠ 1
    · unfold World.writeOne
      rw [if_pos hcount]
      refine ⟨none, ⟨hi, fun _ _ => Rely.refl _ _, .inl rfl⟩, fun _ hok => (nomatch hok), ?_⟩
      exact fun _ _ => trivial
    · obtain ⟨row, hrow⟩ := List.length_pos_iff_exists_mem.mp
        (by rw [not_not.mp hcount]; exact Nat.one_pos)
      obtain ⟨hmem, hp⟩ := List.mem_filter.mp hrow
      have hwas := hp
      rw [Bool.and_eq_true] at hp
      obtain ⟨hid, -⟩ := atRevision_iff.mp hp.1
      unfold World.writeOne
      rw [if_neg hcount]
      have hfresh : ¬w'.begun merge.mergeRunId := by
        intro hbegun
        obtain ⟨other, hother, hid', hstatus⟩ := hbegun
        rw [eq_of_key hi.mergeIds hother hmem (hid'.trans hid.symm), hp.2] at hstatus
        exact nomatch hstatus
      have hbegun : (w'.write (.claim ownerId) (fun row =>
          World.atRevision merge.mergeRunId merge.expectedRevision row &&
            row.merge.status.isClaimable) fun row => row.claimed ownerId leaseExpiresAt).begun
          merge.mergeRunId :=
        ⟨_, mem_update.mpr (.inl ⟨row, hmem, hwas, rfl⟩), hid, rfl⟩
      refine ⟨some merge.mergeRunId, ⟨hlawful.inv hi, fun other _ => hlawful.rely hi other, ?_⟩,
        ?_, fun _ herror => nomatch herror⟩
      · exact .inr (.inr ⟨_, rfl, hfresh, hbegun⟩)
      · intro running hrunning
        cases hrunning
        refine ⟨rfl, rfl, hbegun, fun hinvoked => hfresh ?_⟩
        obtain ⟨i, hi', heq⟩ := hinvoked
        rw [← heq]
        exact (hi.invocations i hi').1

/-- The owner of a merge run invokes the adapter, for artifacts that do not clash. -/
theorem merge_holds {merge : MergeRun} {artifacts : List PatchCommitArtifact}
    {workspaces : List WriterWorkspace} {resolutions : List WriterConflict}
    (hbegun : w.begun merge.mergeRunId) (hnot : ¬w.invoked merge.mergeRunId)
    (hapart : w.apart artifacts) :
    (ask (.merge merge artifacts workspaces resolutions)).HoldsAs (rules checked)
      (some merge.mergeRunId) (fun _ _ w' => w'.invoked merge.mergeRunId)
      (fun _ _ w' => w'.invoked merge.mergeRunId) w := by
  show (Prog.call (.merge merge artifacts workspaces resolutions) Prog.lift : Action String).HoldsAs
    _ _ _ _ _
  apply Prog.holdsAs_ask (fun w => w.exec (.merge merge artifacts workspaces resolutions)) fun _ => rfl
  intro w' hr hi _
  have hexec : w'.exec (.merge merge artifacts workspaces resolutions) =
      (w'.outside.merge, { w' with invocations := w'.invocations ++ [⟨merge, artifacts⟩] }) := by
    unfold World.exec
    split <;> rfl
  rw [hexec]
  have hnew : ¬w'.invoked merge.mergeRunId := fun h => hnot (hr.owned _ rfl h)
  have hrely (other : Option String) (hother : ∀ t, other = some t → t ≠ merge.mergeRunId) :
      Rely other w' { w' with invocations := w'.invocations ++ [⟨merge, artifacts⟩] } :=
    { Rely.refl other w' with
      invoked := by
        intro id h
        obtain ⟨i, hmem, hid⟩ := h
        exact ⟨i, List.mem_append_left _ hmem, hid⟩
      owned := by
        intro t ht h
        obtain ⟨i, hmem, hid⟩ := h
        cases List.mem_append.mp hmem with
        | inl hold => exact ⟨i, hold, hid⟩
        | inr hlast =>
          rw [List.mem_singleton.mp hlast] at hid
          exact absurd hid.symm (hother t ht) }
  have hdone : World.invoked { w' with invocations := w'.invocations ++ [⟨merge, artifacts⟩] }
      merge.mergeRunId := ⟨⟨merge, artifacts⟩, List.mem_append_right _ (List.mem_singleton.mpr rfl), rfl⟩
  refine ⟨some merge.mergeRunId, ⟨?_, ?_, .inl rfl⟩, fun _ _ => hdone, fun _ _ => hdone⟩
  · have hr' := hrely none fun _ hn => nomatch hn
    exact { hi with
      completed := fun e he ownerId expectedRevision hwriter =>
        hr'.invoked _ (hi.completed e he ownerId expectedRevision hwriter)
      once := by
        show ((w'.invocations ++ [(⟨merge, artifacts⟩ : Invocation)]).map fun i =>
          i.merge.mergeRunId).Nodup
        rw [List.map_append, List.map_singleton]
        apply List.Nodup.append hi.once (List.nodup_singleton _)
        intro id hid hmem
        obtain ⟨i, hi', heq⟩ := List.mem_map.mp hid
        exact hnew ⟨i, hi', heq.trans (List.mem_singleton.mp hmem)⟩
      invocations := by
        intro i hmem
        cases List.mem_append.mp hmem with
        | inl hold => exact hi.invocations i hold
        | inr hlast =>
          rw [List.mem_singleton.mp hlast]
          exact ⟨hr.begun hbegun, hr.apart hapart⟩ }
  · intro other hother
    apply hrely other
    intro t ht heq
    exact (hother t ht).1 (by rw [heq])

/-- The owner records an outcome, after it has invoked the adapter. -/
theorem transitionOwned_holds {owner : Owner} {merge : MergeRun}
    (hinvoked : w.invoked merge.mergeRunId) {status : MergeRunStatus}
    (hstatus : status.isTerminal = true) (resultArtifactRef errorCode : Option String) :
    (transitionOwned owner merge status resultArtifactRef errorCode).HoldsAs (rules checked) k Anyhow
      Anyhow w := by
  unfold transitionOwned
  apply ask_holds ?_ fun _ _ => trivial
  intro w' hr hi _
  refine ⟨k, ?_, fun _ _ => trivial, fun _ _ => trivial⟩
  let next := merge.updated status resultArtifactRef errorCode
  show (rules checked).Step k w' (w'.completeOwnedMergeRun next merge.expectedRevision owner.id).2 k
  unfold World.completeOwnedMergeRun
  split
  · exact ⟨hi, fun _ _ => Rely.refl _ _, .inl rfl⟩
  · split
    · exact ⟨hi, fun _ _ => Rely.refl _ _, .inl rfl⟩
    · apply writeOne_step ?_ hi
      refine ⟨fun _ => rfl, fun _ => rfl, fun _ => rfl, fun _ => .inr rfl, ?_, ?_⟩
      · intro row _ hp
        rw [Bool.and_eq_true, Bool.and_eq_true, decide_eq_true_eq] at hp
        exact ⟨hp.1.2, hp.2, (atRevision_iff.mp hp.1.1).2, hstatus⟩
      · intro row _ hp _ _ _
        rw [Bool.and_eq_true, Bool.and_eq_true] at hp
        rw [(atRevision_iff.mp hp.1.1).1]
        exact hr.invoked _ hinvoked

theorem ownedBy_renewed {row : MergeRow} {ownerId : String} (leaseExpiresAt : Instant)
    (h : row.ownedBy ownerId = true) : (row.renewed leaseExpiresAt).ownedBy ownerId = true := by
  show (row.execution.map fun e => { e with leaseExpiresAt := leaseExpiresAt }).any
    (fun e => e.ownerId = ownerId) = true
  rw [Option.any_map]
  exact h

theorem renewMergeRunLease_holds (id ownerId : String) (leaseExpiresAt : Instant) :
    (ask (.renewMergeRunLease id ownerId leaseExpiresAt)).HoldsAs (rules checked) k Anyhow Anyhow w := by
  apply ask_holds ?_ fun _ _ => trivial
  intro w' _ hi _
  refine ⟨k, ?_, fun _ _ => trivial, fun _ _ => trivial⟩
  apply writeOne_step ?_ hi
  refine ⟨fun _ => rfl, fun _ => rfl, fun _ => rfl, fun _ => .inl rfl, ?_, ?_⟩
  · intro row _ hp
    rw [Bool.and_eq_true, Bool.and_eq_true, decide_eq_true_eq, decide_eq_true_eq] at hp
    exact ⟨hp.1.2, hp.2, rfl, ownedBy_renewed leaseExpiresAt hp.2⟩
  · exact fun _ _ _ _ _ hwriter => nomatch hwriter

theorem reconcileIncompleteMergeRuns_holds (now : Instant) :
    (ask (.reconcileIncompleteMergeRuns now)).HoldsAs (rules checked) k Anyhow Anyhow w := by
  apply ask_holds ?_ fun _ _ => trivial
  intro w' _ hi _
  refine ⟨k, ?_, fun _ _ => trivial, fun _ _ => trivial⟩
  apply Lawfully.step ?_ hi
  refine ⟨fun _ => rfl, fun _ => rfl, fun _ => rfl, fun _ => .inr rfl, ?_, ?_⟩
  · intro row _ hp
    rw [Bool.and_eq_true, decide_eq_true_eq] at hp
    exact ⟨hp.1, hp.2, rfl⟩
  · exact fun _ _ _ _ _ hwriter => nomatch hwriter

theorem reconcileMergeRun_holds (id : String) (expectedRevision : Nat) (status : MergeRunStatus)
    (resultArtifactRef errorCode : Option String) :
    (ask (.reconcileMergeRun id expectedRevision status resultArtifactRef errorCode)).HoldsAs
      (rules checked) k Anyhow Anyhow w := by
  apply ask_holds ?_ fun _ _ => trivial
  intro w' _ hi _
  refine ⟨k, ?_, fun _ _ => trivial, fun _ _ => trivial⟩
  show (rules checked).Step k w'
    (w'.reconcileMergeRun id expectedRevision status resultArtifactRef errorCode).2 k
  unfold World.reconcileMergeRun
  split
  · rename_i hknown
    apply writeOne_step ?_ hi
    refine ⟨fun _ => rfl, fun _ => rfl, fun _ => rfl, fun _ => .inr rfl, ?_, ?_⟩
    · intro row _ hp
      rw [Bool.and_eq_true, decide_eq_true_eq] at hp
      refine ⟨hp.2, ?_⟩
      show status.isKnown = true
      rcases hknown with h | h | h <;> rw [h] <;> rfl
    · exact fun _ _ _ _ _ hwriter => by cases hwriter
  · exact ⟨hi, fun _ _ => Rely.refl _ _, .inl rfl⟩

end Rules
end Operant.MultiWriter
