import Operant.MultiWriter.History

/-! What is true between any two calls, and what every call leaves for others.

The ticket of a finalizer is the merge run it has claimed: only the owner of a merge run
invokes the adapter for it. -/
namespace Operant.MultiWriter
open Operant.Tables Operant.Calls Operant.Graph

/-- One changes a path that the other changes, or a directory above it. -/
def PathsClash (a b : PatchCommitArtifact) : Prop :=
  ∃ p ∈ a.changedPaths, ∃ q ∈ b.changedPaths, pathsOverlap p q

/-- Two artifacts that cannot be merged unnoticed. -/
def Clash (a b : PatchCommitArtifact) : Prop := a.baseRevision ≠ b.baseRevision ∨ PathsClash a b

theorem Clash.symm {a b : PatchCommitArtifact} (h : Clash a b) : Clash b a := by
  cases h with
  | inl hbase => exact .inl hbase.symm
  | inr hpaths =>
    obtain ⟨p, hp, q, hq, hoverlap⟩ := hpaths
    exact .inr ⟨q, hq, p, hp, hoverlap.symm⟩

/-- The reason is about these two, in the order of their ids. -/
def ConflictReason.isOf (reason : ConflictReason) (a b : PatchCommitArtifact) : Prop :=
  (reason.left = a.writerArtifactId ∧ reason.right = b.writerArtifactId) ∨
    (reason.left = b.writerArtifactId ∧ reason.right = a.writerArtifactId)

/-- What `publish_artifact` has checked. -/
structure Published (a : PatchCommitArtifact) (workspace : WriterWorkspace) : Prop where
  base : a.baseRevision = workspace.baseRevision
  owned : ∀ path ∈ a.changedPaths, ownedBy workspace.ownershipPaths path
  nonempty : a.changedPaths ≠ []

namespace World

/-- The merge run has been claimed, or was never to be. -/
def begun (w : World) (id : String) : Prop :=
  ∃ row ∈ w.merges, row.merge.mergeRunId = id ∧ row.merge.status.isClaimable = false

def invoked (w : World) (id : String) : Prop := ∃ i ∈ w.invocations, i.merge.mergeRunId = id

/-- The workspaces of two artifacts. -/
def between (w : World) (a b : PatchCommitArtifact) (R : WriterWorkspace → WriterWorkspace → Prop) :
    Prop :=
  ∃ left right, w.workspace? a.writerWorkspaceId = some left ∧
    w.workspace? b.writerWorkspaceId = some right ∧ R left right

/-- No two of the artifacts, of different writers, clash. -/
def apart (w : World) (artifacts : List PatchCommitArtifact) : Prop :=
  ∀ a ∈ artifacts, ∀ b ∈ artifacts, w.between a b fun left right =>
    left.writerKey ≠ right.writerKey → ¬Clash a b

def recorded (w : World) (graphRunId : String) (reason : ConflictReason) : Prop :=
  ∃ c ∈ w.conflicts, c.graphRunId = graphRunId ∧ c.conflictHash = reason

/-- If the two clash, a conflict between them is recorded. -/
def noticed (w : World) (graphRunId : String) (a b : PatchCommitArtifact) : Prop :=
  w.between a b fun left right => left.writerKey ≠ right.writerKey → Clash a b →
    ∃ reason : ConflictReason, w.recorded graphRunId reason ∧ reason.isOf a b

def detected (w : World) (graphRunId : String) (artifacts : List PatchCommitArtifact) : Prop :=
  ∀ a ∈ artifacts, ∀ b ∈ artifacts, a ≠ b → w.noticed graphRunId a b

/-- Every conflict between the artifacts of a graph run has a size that a record takes. -/
def detectable (w : World) (graphRunId : String) : Prop :=
  ∀ pair ∈ pairs (w.listArtifacts graphRunId),
    ∀ left ∈ w.workspace? pair.1.writerWorkspaceId,
    ∀ right ∈ w.workspace? pair.2.writerWorkspaceId,
    ∀ reason ∈ conflictReason pair.1 pair.2 left right,
      ConflictSizes reason.left reason.right reason.paths

instance (w : World) (graphRunId : String) : Decidable (w.detectable graphRunId) := by
  unfold detectable
  infer_instance

/-- The same, where `detect_conflicts` lists the artifacts. -/
def allowsCall (w : World) : Call → Prop
  | .listArtifacts graphRunId => w.detectable graphRunId
  | _ => True

instance (c : Call) (w : World) : Decidable (w.allowsCall c) := by
  unfold allowsCall
  split <;> infer_instance

end World

/-- What a `detect_conflicts` has done. -/
def Detection.Complete (d : Detection) (w : World) : Prop :=
  match d.result with
  | .error e => e.isFault = true
  | .ok (artifacts, _) => w.detected d.graphRunId artifacts

/-- The invariant; where the calls of `detect_conflicts` are `checked` for the sizes, also of
what it has done. -/
structure Inv (checked : Prop) (w : World) : Prop where
  frozen : ∀ run ∈ w.runs, ∃ definition,
    w.definition? run.workflowDefinitionId run.workflowDefinitionVersion = some definition ∧
      ∃ compiled, compile definition = .ok compiled
  workspaceIds : (w.workspaces.map WriterWorkspace.writerWorkspaceId).Nodup
  owned : ∀ a ∈ w.artifacts, ∃ workspace, w.workspace? a.writerWorkspaceId = some workspace ∧
    Published a workspace
  mergeIds : (w.merges.map fun row => row.merge.mergeRunId).Nodup
  bases : ∀ row ∈ w.merges, ∀ id ∈ row.merge.artifactIds,
    ∃ a, w.artifact? id = some a ∧ a.baseRevision = row.merge.baseRevision
  lawful : ∀ e ∈ w.history, e.Lawful
  completed : ∀ e ∈ w.history, ∀ ownerId expectedRevision,
    e.writer = .complete ownerId expectedRevision → w.invoked e.before.merge.mergeRunId
  once : (w.invocations.map fun i => i.merge.mergeRunId).Nodup
  invocations : ∀ i ∈ w.invocations, w.begun i.merge.mergeRunId ∧ w.apart i.artifacts
  conflicts : ∀ c ∈ w.conflicts, c.leftArtifactId = c.conflictHash.left ∧
    c.rightArtifactId = c.conflictHash.right
  detections : checked → ∀ d ∈ w.detections, d.Complete w

/-- What others leave as it is, for everybody and for the owner of a merge run. -/
structure Rely (k : Option String) (w w' : World) : Prop where
  definitions : ∀ id version d, w.definition? id version = some d → w'.definition? id version = some d
  workspaces : ∀ id workspace, w.workspace? id = some workspace → w'.workspace? id = some workspace
  artifacts : ∀ id a, w.artifact? id = some a → w'.artifact? id = some a
  recorded : ∀ graphRunId reason, w.recorded graphRunId reason → w'.recorded graphRunId reason
  history : ∃ more, w'.history = w.history ++ more ∧ (∀ e ∈ more, e.Lawful) ∧
    ∀ row ∈ w.merges, ∃ row' ∈ w'.merges, Path more row row'
  invoked : ∀ id, w.invoked id → w'.invoked id
  owned : ∀ t, k = some t → w'.invoked t → w.invoked t

namespace Rely
variable {k : Option String} {a b c w w' : World}

theorem refl (k : Option String) (w : World) : Rely k w w where
  definitions _ _ _ h := h
  workspaces _ _ h := h
  artifacts _ _ h := h
  recorded _ _ h := h
  history := ⟨[], (List.append_nil _).symm, fun _ h => (List.not_mem_nil h).elim,
    fun row h => ⟨row, h, .nil⟩⟩
  invoked _ h := h
  owned _ _ h := h

theorem trans (h : Rely k a b) (h' : Rely k b c) : Rely k a c where
  definitions id version d hd := h'.definitions id version d (h.definitions id version d hd)
  workspaces id workspace hw := h'.workspaces id workspace (h.workspaces id workspace hw)
  artifacts id artifact ha := h'.artifacts id artifact (h.artifacts id artifact ha)
  recorded graphRunId reason hr := h'.recorded graphRunId reason (h.recorded graphRunId reason hr)
  history := by
    obtain ⟨more, heq, hlawful, hpath⟩ := h.history
    obtain ⟨more', heq', hlawful', hpath'⟩ := h'.history
    refine ⟨more ++ more', by rw [heq', heq, List.append_assoc], ?_, ?_⟩
    · intro e he
      cases List.mem_append.mp he with
      | inl he => exact hlawful e he
      | inr he => exact hlawful' e he
    · intro row hrow
      obtain ⟨mid, hmid, hp⟩ := hpath row hrow
      obtain ⟨last, hlast, hp'⟩ := hpath' mid hmid
      exact ⟨last, hlast, hp.append hp' fun e he => (hlawful e he).id⟩
  invoked id hi := h'.invoked id (h.invoked id hi)
  owned t ht hi := h.owned t ht (h'.owned t ht hi)

theorem weak (h : Rely k w w') : Rely none w w' := { h with owned := fun _ hn => nomatch hn }

theorem begun (h : Rely k w w') {id : String} (hb : w.begun id) : w'.begun id := by
  obtain ⟨row, hrow, hid, hstatus⟩ := hb
  obtain ⟨more, -, hlawful, hpath⟩ := h.history
  obtain ⟨row', hrow', hp⟩ := hpath row hrow
  exact ⟨row', hrow', (hp.id_eq hlawful).trans hid, hp.begun hlawful hstatus⟩

theorem between (h : Rely k w w') {a b : PatchCommitArtifact}
    {R R' : WriterWorkspace → WriterWorkspace → Prop} (hb : w.between a b R)
    (hR : ∀ left right, R left right → R' left right) : w'.between a b R' := by
  obtain ⟨left, right, hleft, hright, hall⟩ := hb
  exact ⟨left, right, h.workspaces _ _ hleft, h.workspaces _ _ hright, hR left right hall⟩

theorem apart (h : Rely k w w') {artifacts : List PatchCommitArtifact} (ha : w.apart artifacts) :
    w'.apart artifacts := fun a hma b hmb => h.between (ha a hma b hmb) fun _ _ h => h

theorem noticed (h : Rely k w w') {graphRunId : String} {a b : PatchCommitArtifact}
    (hn : w.noticed graphRunId a b) : w'.noticed graphRunId a b := by
  apply h.between hn
  intro left right hall hne hclash
  obtain ⟨reason, hrecorded, hof⟩ := hall hne hclash
  exact ⟨reason, h.recorded _ _ hrecorded, hof⟩

theorem detected (h : Rely k w w') {graphRunId : String} {artifacts : List PatchCommitArtifact}
    (hd : w.detected graphRunId artifacts) : w'.detected graphRunId artifacts :=
  fun a ha b hb hne => h.noticed (hd a ha b hb hne)

theorem complete (h : Rely k w w') {d : Detection} (hd : d.Complete w) : d.Complete w' := by
  unfold Detection.Complete at hd ⊢
  split at hd
  · exact hd
  · exact h.detected hd

end Rely

/-- The rules of the system. -/
def rules (checked : Prop) : OwnerRules Call Answer Raised World String where
  exec c w := .ok (w.exec c)
  inv := Inv checked
  issued t w := w.begun t
  rely := Rely
  allowed c w := checked → w.allowsCall c
  refl := Rely.refl
  trans := Rely.trans
  keep h ht := h.begun ht

section Steps
variable {checked : Prop} {w : World}

/-! ### What does not touch the merge runs -/

/-- Tables may grow, as long as what was found in them still is. -/
theorem Inv.grow (hi : Inv checked w) {w' : World} (hr : Rely none w w')
    (hmerges : w'.merges = w.merges) (hhistory : w'.history = w.history)
    (hinvocations : w'.invocations = w.invocations)
    (hfrozen : ∀ run ∈ w'.runs, run ∈ w.runs ∨ ∃ definition,
      w'.definition? run.workflowDefinitionId run.workflowDefinitionVersion = some definition ∧
        ∃ compiled, compile definition = .ok compiled)
    (hworkspaces : (w'.workspaces.map WriterWorkspace.writerWorkspaceId).Nodup)
    (howned : ∀ a ∈ w'.artifacts, a ∈ w.artifacts ∨ ∃ workspace,
      w'.workspace? a.writerWorkspaceId = some workspace ∧ Published a workspace)
    (hconflicts : ∀ c ∈ w'.conflicts, c.leftArtifactId = c.conflictHash.left ∧
      c.rightArtifactId = c.conflictHash.right)
    (hdetections : checked → ∀ d ∈ w'.detections, d ∈ w.detections ∨ d.Complete w') :
    Inv checked w' where
  frozen run hrun := by
    cases hfrozen run hrun with
    | inr hnew => exact hnew
    | inl hold =>
      obtain ⟨definition, hd, hcompiled⟩ := hi.frozen run hold
      exact ⟨definition, hr.definitions _ _ _ hd, hcompiled⟩
  workspaceIds := hworkspaces
  owned a ha := by
    cases howned a ha with
    | inr hnew => exact hnew
    | inl hold =>
      obtain ⟨workspace, hw, hpublished⟩ := hi.owned a hold
      exact ⟨workspace, hr.workspaces _ _ hw, hpublished⟩
  mergeIds := by rw [hmerges]; exact hi.mergeIds
  bases row hrow id hid := by
    rw [hmerges] at hrow
    obtain ⟨a, ha, hbase⟩ := hi.bases row hrow id hid
    exact ⟨a, hr.artifacts _ _ ha, hbase⟩
  lawful := by rw [hhistory]; exact hi.lawful
  completed e he ownerId expectedRevision hwriter := by
    rw [hhistory] at he
    exact hr.invoked _ (hi.completed e he ownerId expectedRevision hwriter)
  once := by rw [hinvocations]; exact hi.once
  invocations i hmem := by
    rw [hinvocations] at hmem
    obtain ⟨hbegun, hapart⟩ := hi.invocations i hmem
    exact ⟨hr.begun hbegun, hr.apart hapart⟩
  conflicts := hconflicts
  detections hc d hd := by
    cases hdetections hc d hd with
    | inr hnew => exact hnew
    | inl hold => exact hr.complete (hi.detections hc d hold)

/-! ### Writes to merge runs -/

/-- A statement that is lawful on every row it matches. -/
structure Lawfully (w : World) (writer : Writer) (p : MergeRow → Bool)
    (f : MergeRow → MergeRow) : Prop where
  id : ∀ row, (f row).merge.mergeRunId = row.merge.mergeRunId
  artifactIds : ∀ row, (f row).merge.artifactIds = row.merge.artifactIds
  base : ∀ row, (f row).merge.baseRevision = row.merge.baseRevision
  revision : ∀ row, (f row).merge = row.merge ∨
    (f row).merge.expectedRevision = row.merge.expectedRevision + 1
  allowed : ∀ row ∈ w.merges, p row = true → writer.allows row (f row)
  completed : ∀ row ∈ w.merges, p row = true → ∀ ownerId expectedRevision,
    writer = .complete ownerId expectedRevision → w.invoked row.merge.mergeRunId

variable {writer : Writer} {p : MergeRow → Bool} {f : MergeRow → MergeRow}

theorem Lawfully.entries (h : Lawfully w writer p f) {e : MergeWrite}
    (he : e ∈ (w.merges.filter p).map fun row => ⟨writer, w.outside.clock, row, f row⟩) :
    e.Lawful ∧ ∀ ownerId expectedRevision, e.writer = .complete ownerId expectedRevision →
      w.invoked e.before.merge.mergeRunId := by
  obtain ⟨row, hrow, rfl⟩ := List.mem_map.mp he
  obtain ⟨hmem, hp⟩ := List.mem_filter.mp hrow
  exact ⟨⟨h.id row, h.revision row, h.allowed row hmem hp⟩, h.completed row hmem hp⟩

theorem Lawfully.rely (h : Lawfully w writer p f) (hi : Inv checked w) (k : Option String) :
    Rely k w (w.write writer p f) :=
  { Rely.refl k w with
    history := by
      refine ⟨_, rfl, fun e he => (h.entries he).1, fun row hrow => ?_⟩
      refine ⟨if p row then f row else row, ?_, .write hi.mergeIds h.id hrow⟩
      exact List.mem_map.mpr ⟨row, hrow, rfl⟩ }

theorem Lawfully.inv (h : Lawfully w writer p f) (hi : Inv checked w) :
    Inv checked (w.write writer p f) :=
  { hi with
    mergeIds := by
      show ((update w.merges p f).map fun row => row.merge.mergeRunId).Nodup
      rw [map_update _ fun row _ _ => h.id row]
      exact hi.mergeIds
    bases := by
      intro row hrow id hid
      rcases mem_update.mp hrow with hnew | hold
      · obtain ⟨old, hmem, -, rfl⟩ := hnew
        rw [h.artifactIds old] at hid
        rw [h.base old]
        exact hi.bases old hmem id hid
      · exact hi.bases row hold.1 id hid
    lawful := by
      intro e he
      rcases List.mem_append.mp he with he | he
      · exact hi.lawful e he
      · exact (h.entries he).1
    completed := by
      intro e he
      rcases List.mem_append.mp he with he | he
      · exact hi.completed e he
      · exact (h.entries he).2
    invocations := by
      intro i hmem
      obtain ⟨hbegun, hapart⟩ := hi.invocations i hmem
      have hr := h.rely hi none
      exact ⟨hr.begun hbegun, hr.apart hapart⟩ }

theorem Lawfully.step (h : Lawfully w writer p f) (hi : Inv checked w) (k : Option String) :
    (rules checked).Step k w (w.write writer p f) k :=
  ⟨h.inv hi, fun other _ => h.rely hi other, .inl rfl⟩

end Steps
end Operant.MultiWriter
