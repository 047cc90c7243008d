import Operant.Graph.Sequential

/-! Saves with nobody in between.

An operation that is alone finds the rows as it left them, so its saves do not fail, and
what they leave is the rows with a function applied to each. -/
namespace Operant.Graph
open Operant.Python Operant.Calls

/-- Another row for each row. -/
def GraphStore.mapRows (s : GraphStore) (f : NodeRun → NodeRun) : GraphStore :=
  { s with nodeRuns := s.nodeRuns.map f }

/-- A row of the same node. -/
def KeepsNode (f : NodeRun → NodeRun) : Prop := ∀ row, (f row).id = row.id ∧ (f row).nodeId = row.nodeId

/-- The rows of a run: one for each node of a definition that compiles. -/
structure GraphStore.Whole (s : GraphStore) : Prop where
  keyed : s.Keyed
  compiled : s.definition.Compiled
  nodeIds : (s.nodeRuns.map NodeRun.nodeId).Perm (s.definition.nodes.map NodeSpec.nodeId)

variable {s : GraphStore} {f g : NodeRun → NodeRun}

theorem Recorded.whole {start : GraphStore} {w : World} (hw : Recorded start Reason Done w)
    (hc : start.Created) : w.store.Whole :=
  ⟨hw.keyed hc.initial.keyed, hw.definition ▸ hc.compiled, .of_eq (hw.nodeIds hc)⟩

@[simp] theorem mapRows_nodeRuns : (s.mapRows f).nodeRuns = s.nodeRuns.map f := rfl
@[simp] theorem mapRows_definition : (s.mapRows f).definition = s.definition := rfl
@[simp] theorem mapRows_run : (s.mapRows f).run = s.run := rfl
@[simp] theorem mapRows_attempts : (s.mapRows f).attempts = s.attempts := rfl

theorem mapRows_mapRows : (s.mapRows f).mapRows g = s.mapRows fun row => g (f row) := by
  simp [GraphStore.mapRows]

theorem mapRows_congr (h : ∀ row ∈ s.nodeRuns, f row = g row) : s.mapRows f = s.mapRows g := by
  simp only [GraphStore.mapRows, List.map_congr_left h]

theorem mapRows_same (h : ∀ row ∈ s.nodeRuns, f row = row) : s.mapRows f = s := by
  rw [GraphStore.mapRows, List.map_congr_left h, List.map_id']

theorem bySpec_map (hf : KeepsNode f) (rows : List NodeRun) (nodeId : String) :
    bySpec (rows.map f) nodeId = (bySpec rows nodeId).map f := by
  rw [bySpec, bySpec, List.find?_map]
  congr 2
  funext row
  simp [(hf row).2]

namespace GraphStore.Whole

theorem nodup (h : s.Whole) : (s.nodeRuns.map NodeRun.nodeId).Nodup :=
  h.nodeIds.nodup_iff.mpr h.compiled.nodes_nodup

theorem row_eq (h : s.Whole) {x y : NodeRun} (hx : x ∈ s.nodeRuns) (hy : y ∈ s.nodeRuns)
    (hnode : x.nodeId = y.nodeId) : x = y :=
  List.inj_on_of_nodup_map h.nodup hx hy hnode

theorem id_iff (h : s.Whole) {x y : NodeRun} (hx : x ∈ s.nodeRuns) (hy : y ∈ s.nodeRuns) :
    x.id = y.id ↔ x.nodeId = y.nodeId := by
  constructor
  · intro hid
    rw [h.keyed.row_eq hx hy hid]
  · intro hnode
    rw [h.row_eq hx hy hnode]

theorem bySpec (h : s.Whole) {x : NodeRun} (hx : x ∈ s.nodeRuns) :
    bySpec s.nodeRuns x.nodeId = some x := by
  cases hfound : Graph.bySpec s.nodeRuns x.nodeId with
  | none => exact absurd (decide_eq_true rfl) (List.find?_eq_none.mp hfound x hx)
  | some y =>
    obtain ⟨hy, hnode⟩ := bySpec_some hfound
    rw [h.row_eq hy hx hnode]

/-- Every node has its row. -/
theorem row (h : s.Whole) {nodeId : String} (hnode : nodeId ∈ s.definition.nodes.map NodeSpec.nodeId) :
    ∃ x ∈ s.nodeRuns, x.nodeId = nodeId :=
  List.mem_map.mp (h.nodeIds.mem_iff.mpr hnode)

theorem mapRows (h : s.Whole) (hf : KeepsNode f) : (s.mapRows f).Whole := by
  have hids : (s.nodeRuns.map f).map NodeRun.id = s.nodeRuns.map NodeRun.id := by
    rw [List.map_map]
    exact List.map_congr_left fun row _ => (hf row).1
  have hnodes : (s.nodeRuns.map f).map NodeRun.nodeId = s.nodeRuns.map NodeRun.nodeId := by
    rw [List.map_map]
    exact List.map_congr_left fun row _ => (hf row).2
  exact ⟨⟨hids.symm ▸ h.keyed.nodeRuns, h.keyed.attempts⟩, h.compiled, hnodes.symm ▸ h.nodeIds⟩

end GraphStore.Whole

/-- `f` for the row of one node. -/
def onNode (nodeId : String) (f : NodeRun → NodeRun) (row : NodeRun) : NodeRun :=
  if row.nodeId = nodeId then f row else row

/-- The row that saving `f` of a row leaves. -/
def saved (f : NodeRun → NodeRun) (row : NodeRun) : NodeRun :=
  { f row with revision := row.revision + 1 }

theorem onNode_self {row : NodeRun} : onNode row.nodeId f row = f row := if_pos rfl

theorem onNode_other {row : NodeRun} {nodeId : String} (h : row.nodeId ≠ nodeId) :
    onNode nodeId f row = row := if_neg h

theorem KeepsNode.onNode (hf : KeepsNode f) (nodeId : String) : KeepsNode (onNode nodeId f) := by
  intro row
  by_cases h : row.nodeId = nodeId
  · rw [← h, onNode_self]
    exact hf row
  · rw [onNode_other h]
    exact ⟨rfl, rfl⟩

theorem KeepsNode.saved (hf : KeepsNode f) : KeepsNode (saved f) := fun row => hf row

theorem KeepsNode.comp (hg : KeepsNode g) (hf : KeepsNode f) : KeepsNode fun row => g (f row) :=
  fun row => ⟨(hg _).1.trans (hf row).1, (hg _).2.trans (hf row).2⟩

/-- A save of a row that is as it was read. -/
theorem saveNode_run (backend : Backend) (h : s.Whole) (hf : KeepsNode f) {x : NodeRun}
    (hx : x ∈ s.nodeRuns) (site : Site) (via : List (EdgeSpec × NodeRun)) :
    (saveNode site x (f x) via).run backend.exec s =
      (.ok (saved f x), s.mapRows (onNode x.nodeId (saved f))) := by
  have hstored : s.nodeRun? (f x).id = some x := by
    rw [(hf x).1]
    exact h.keyed.nodeRun? hx
  have hput : s.putNode (saved f x) = s.mapRows (onNode x.nodeId (saved f)) := by
    rw [GraphStore.putNode, GraphStore.mapRows]
    congr 1
    refine List.map_congr_left fun row hrow => ?_
    by_cases hnode : row.nodeId = x.nodeId
    · rw [h.row_eq hrow hx hnode, onNode_self, if_pos (hf.saved x).1.symm]
    · have hid : row.id ≠ (saved f x).id := by
        rw [(hf.saved x).1]
        exact fun heq => hnode ((h.id_iff hrow hx).mp heq)
      rw [onNode_other hnode, if_neg hid]
  show (saveNode site x (f x) via).run backend.exec s = (.ok (saved f x), _)
  rw [← hput]
  simp [saveNode, saved, Prog.run, Backend.exec, execWith, GraphStore.updateNode, hstored, Except.map]

/-- The definition a run pins is found. -/
theorem getDefinition_run (backend : Backend) (s : GraphStore) :
    (getDefinition s.definition.workflowId s.definition.version).run backend.exec s =
      (.ok s.definition, s) := by
  have hexec : backend.exec (.getDefinition s.definition.workflowId s.definition.version) s =
      .ok (s.definition, s) := if_pos ⟨rfl, rfl⟩
  exact Prog.run_request hexec

/-! ### What a read that returns has found -/

variable {backend : Backend} {s' : GraphStore}

theorem getRun_ok {site : Site} {run : GraphWorkflowRun}
    (h : (getRun site).run backend.exec s = (.ok run, s')) : run = s.run ∧ s' = s := by
  have hexec := Prog.run_request_ok h
  cases hexec
  exact ⟨rfl, rfl⟩

theorem getNodeRun_ok {id : String} {x : NodeRun}
    (h : (getNodeRun id).run backend.exec s = (.ok x, s')) : x ∈ s.nodeRuns ∧ s' = s := by
  have hexec : backend.exec (.getNodeRun id) s = .ok (x, s') := Prog.run_request_ok h
  simp only [Backend.exec, execWith] at hexec
  cases hfound : s.nodeRun? id with
  | none =>
    rw [hfound] at hexec
    cases hexec
  | some row =>
    rw [hfound] at hexec
    cases hexec
    exact ⟨(GraphStore.nodeRun?_some hfound).1, rfl⟩

theorem getDefinition_ok {id : String} {version : Nat} {definition : WorkflowDefinition}
    (h : (getDefinition id version).run backend.exec s = (.ok definition, s')) :
    id = s.definition.workflowId ∧ version = s.definition.version ∧ definition = s.definition ∧ s' = s := by
  have hexec : (if s.definition.workflowId = id ∧ s.definition.version = version then
      .ok (s.definition, s) else .error .missingRow : Except GraphError (WorkflowDefinition × GraphStore)) =
      .ok (definition, s') := Prog.run_request_ok h
  split at hexec
  · rename_i hpinned
    cases hexec
    exact ⟨hpinned.1.symm, hpinned.2.symm, rfl, rfl⟩
  · cases hexec

theorem requireRunningRun_ok (h : requireRunningRun.run backend.exec s = (.ok (), s')) : s' = s := by
  obtain ⟨run, s₁, hread, h⟩ := Prog.run_bind_ok h
  obtain ⟨rfl, rfl⟩ := getRun_ok hread
  split at h
  · cases h
  · cases h
    rfl

theorem definitionAndNode_ok {node : NodeRun} {found : WorkflowDefinition × NodeSpec}
    (h : (definitionAndNode node).run backend.exec s = (.ok found, s')) :
    s.run.workflowDefinitionId = s.definition.workflowId ∧
      s.run.workflowDefinitionVersion = s.definition.version ∧
      s.definition.node? node.nodeId = some found.2 ∧ s' = s := by
  obtain ⟨run, s₁, hread, h⟩ := Prog.run_bind_ok h
  obtain ⟨rfl, rfl⟩ := getRun_ok hread
  obtain ⟨definition, s₂, hread, h⟩ := Prog.run_bind_ok h
  obtain ⟨hid, hversion, rfl, rfl⟩ := getDefinition_ok hread
  split at h
  · rename_i spec hspec
    cases h
    exact ⟨hid, hversion, hspec, rfl⟩
  · cases h

end Operant.Graph
