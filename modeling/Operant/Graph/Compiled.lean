import Operant.Graph.Routing
import Operant.Graph.Compiler
import Operant.Calls.Program

/-! What a definition that compiles is known to be. -/
namespace Operant.Graph
open Operant.Python Operant.Search Operant.Calls

/-- What `GraphCompiler.compile` has checked, as far as a run relies on it. -/
structure WorkflowDefinition.Compiled (definition : WorkflowDefinition) : Prop where
  nodes_nodup : (definition.nodes.map NodeSpec.nodeId).Nodup
  edges_nodup : (definition.edges.map EdgeSpec.edgeId).Nodup
  /-- An edge connects ports of nodes that exist, of types that fit. -/
  edge : ∀ edge ∈ definition.edges, ∃ source target sourcePort targetPort,
    definition.node? edge.sourceNode = some source ∧
    definition.node? edge.targetNode = some target ∧
    findPort source.outputPorts edge.sourcePort = some sourcePort ∧
    findPort target.inputPorts edge.targetPort = some targetPort ∧
    compatiblePortTypes (portType? sourcePort.valueType) (portType? targetPort.valueType) = true ∧
    (edge.loopBack = true → source.nodeKind = .loop)
  /-- A required port of a node that edges go to has an edge that is no loop-back edge. -/
  bound : ∀ node ∈ definition.nodes,
    (∃ edge ∈ definition.edges, edge.targetNode = node.nodeId) →
    ∀ port ∈ node.inputPorts, port.required = true →
    ∃ edge ∈ definition.incoming node.nodeId, edge.targetPort = port.name
  /-- Edges that are no loop-back edges go up. -/
  ranked : ∃ rank : String → Nat, ∀ edge ∈ definition.edges, edge.loopBack = false →
    rank edge.sourceNode < rank edge.targetNode
  modes : ∀ nodeId, ∀ a ∈ definition.incoming nodeId, ∀ b ∈ definition.incoming nodeId,
    a.joinMode = b.joinMode

/-! ### The graph the checks look at -/

theorem issueIf_nil {found : Bool} {issue : CompilationIssue} :
    issueIf found issue = [] ↔ found = false := by
  cases found <;> simp [issueIf]

theorem repeated_nil {seen ids : List String} :
    repeated seen ids = [] ↔ ids.Nodup ∧ ∀ id ∈ ids, id ∉ seen := by
  induction ids generalizing seen with
  | nil => simp [repeated]
  | cons id rest ih =>
    by_cases h : id ∈ seen
    · simp [repeated, h]
    · rw [repeated, if_neg h, ih, List.nodup_cons]
      constructor
      · intro hrest
        refine ⟨⟨fun hmem => hrest.2 id hmem (List.mem_cons_self ..), hrest.1⟩, fun x hx => ?_⟩
        rcases List.mem_cons.mp hx with heq | hx
        · exact heq ▸ h
        · exact fun hseen => hrest.2 x hx (List.mem_cons_of_mem _ hseen)
      · intro hall
        refine ⟨hall.1.2, fun x hx hmem => ?_⟩
        rcases List.mem_cons.mp hmem with heq | hseen
        · exact hall.1.1 (heq ▸ hx)
        · exact hall.2 x (List.mem_cons_of_mem _ hx) hseen

section
variable {definition : WorkflowDefinition}

theorem indexGraph_nodes (h : (definition.nodes.map NodeSpec.nodeId).Nodup) :
    (indexGraph definition).nodes = definition.nodes.map fun node => (node.nodeId, node) := by
  refine Dict.ofList_of_nodup ?_
  rw [List.map_map]
  exact h

theorem indexGraph_edges (h : (definition.edges.map EdgeSpec.edgeId).Nodup) :
    (indexGraph definition).edges = definition.edges := by
  have heq : Dict.ofList (definition.edges.map fun edge => (edge.edgeId, edge)) =
      definition.edges.map fun edge => (edge.edgeId, edge) := by
    refine Dict.ofList_of_nodup ?_
    rw [List.map_map]
    exact h
  show (Dict.ofList (definition.edges.map fun edge => (edge.edgeId, edge))).map Prod.snd = _
  rw [heq, List.map_map]
  exact List.map_id _

theorem lookup_nodes (definition : WorkflowDefinition) (nodeId : String) :
    (definition.nodes.map fun node => (node.nodeId, node)).lookup nodeId =
      definition.node? nodeId := by
  unfold WorkflowDefinition.node?
  induction definition.nodes with
  | nil => rfl
  | cons node rest ih =>
    by_cases h : node.nodeId = nodeId
    · simp [h]
    · have hb : (nodeId == node.nodeId) = false := by simpa using fun h' => h h'.symm
      simp [List.lookup_cons, hb, h, ih]

theorem node?_some {nodeId : String} {spec : NodeSpec} (h : definition.node? nodeId = some spec) :
    spec ∈ definition.nodes ∧ spec.nodeId = nodeId := by
  unfold WorkflowDefinition.node? at h
  exact ⟨List.mem_of_find?_eq_some h, by simpa using List.find?_some h⟩

theorem node?_of_mem (h : (definition.nodes.map NodeSpec.nodeId).Nodup) {spec : NodeSpec}
    (hs : spec ∈ definition.nodes) : definition.node? spec.nodeId = some spec := by
  unfold WorkflowDefinition.node?
  cases hf : definition.nodes.find? fun node => node.nodeId = spec.nodeId with
  | none => exact absurd (decide_eq_true rfl) (List.find?_eq_none.mp hf spec hs)
  | some other =>
    have hmem := List.mem_of_find?_eq_some hf
    have hid : other.nodeId = spec.nodeId := by simpa using List.find?_some hf
    rw [List.inj_on_of_nodup_map h hmem hs hid]

theorem mem_incoming {edge : EdgeSpec} {nodeId : String} : edge ∈ definition.incoming nodeId ↔
    edge ∈ definition.edges ∧ edge.loopBack = false ∧ edge.targetNode = nodeId := by
  rw [WorkflowDefinition.incoming, List.mem_filter]
  simp

end

/-! ### Order -/

theorem sum_indicator {nodes : List String} (hn : nodes.Nodup) {source : String}
    (hs : source ∈ nodes) (n : Nat) :
    (nodes.map fun a => if source = a then n else 0).sum = n := by
  induction nodes with
  | nil => cases hs
  | cons a rest ih =>
    obtain ⟨ha, hrest⟩ := List.nodup_cons.mp hn
    rw [List.map_cons, List.sum_cons]
    by_cases heq : source = a
    · have hzero : rest.map (fun b => if source = b then n else 0) = rest.map fun _ => 0 := by
        refine List.map_congr_left fun b hb => if_neg fun h => ha ?_
        rw [← heq, h]
        exact hb
      rw [if_pos heq, hzero]
      simp
    · rw [if_neg heq, ih hrest ((List.mem_cons.mp hs).resolve_left heq), Nat.zero_add]

/-- Each edge comes out of one node. -/
theorem countP_sources {nodes : List String} (hn : nodes.Nodup) {edges : List EdgeSpec}
    (hs : ∀ edge ∈ edges, edge.sourceNode ∈ nodes) (p : EdgeSpec → Bool) :
    edges.countP p =
      (nodes.map fun a => edges.countP fun edge => edge.sourceNode = a && p edge).sum := by
  induction edges with
  | nil => simp
  | cons edge rest ih =>
    have hsource := hs edge (List.mem_cons_self ..)
    have hsplit : (nodes.map fun a => (edge :: rest).countP fun e => e.sourceNode = a && p e) =
        nodes.map fun a => (rest.countP fun e => e.sourceNode = a && p e) +
          if edge.sourceNode = a then (if p edge then 1 else 0) else 0 := by
      refine List.map_congr_left fun a _ => ?_
      rw [List.countP_cons]
      by_cases ha : edge.sourceNode = a <;> simp [ha]
    rw [hsplit, List.sum_map_add, sum_indicator hn hsource, List.countP_cons,
      ih fun e he => hs e (List.mem_cons_of_mem _ he)]

section
variable {index : GraphIndex}

theorem indegree_eq {nodes : List String} (hn : nodes.Nodup)
    (hs : ∀ edge ∈ index.kept, edge.sourceNode ∈ nodes) (x : String) :
    index.indegree x = (nodes.map fun a => ((index.forward a).count x : Int)).sum := by
  have hforward (a : String) : (index.forward a).count x =
      index.kept.countP fun edge => edge.sourceNode = a && (edge.targetNode = x && !edge.loopBack) := by
    rw [GraphIndex.forward, GraphIndex.outgoing, List.count_eq_countP, List.countP_map,
      List.countP_filter, List.countP_filter]
    refine List.countP_congr fun edge _ => ?_
    simp only [Function.comp_apply, Bool.and_eq_true, beq_iff_eq, decide_eq_true_eq]
    tauto
  have hin : index.indegree x =
      ((index.kept.countP fun edge => edge.targetNode = x && !edge.loopBack : Nat) : Int) := by
    rw [GraphIndex.indegree, GraphIndex.incoming, List.filter_filter, List.countP_eq_length_filter]
    congr 3
    funext edge
    rw [Bool.and_comm]
  rw [hin, countP_sources hn hs, Nat.cast_list_sum, List.map_map]
  congr 1
  refine List.map_congr_left fun a _ => ?_
  rw [hforward]
  rfl

/-- Every edge that is no loop-back edge goes up in a complete order. -/
theorem ranked_of_order (hn : index.nodeIds.Nodup)
    (hs : ∀ edge ∈ index.kept, edge.sourceNode ∈ index.nodeIds ∧ edge.targetNode ∈ index.nodeIds)
    (horder : index.order.length = index.nodeIds.length) :
    ∀ edge ∈ index.kept, edge.loopBack = false →
      index.order.idxOf edge.sourceNode < index.order.idxOf edge.targetNode := by
  have hordered : Ordered index.nodeIds index.forward index.order := by
    refine ordered_kahn_start hn ?_ _ (fun x _ => indegree_eq hn (fun e he => (hs e he).1) x) ?_ ?_
    · intro x _ y hy
      obtain ⟨edge, hedge, rfl⟩ := List.mem_map.mp hy
      exact (hs edge (List.mem_of_mem_filter (List.mem_of_mem_filter hedge))).2
    · exact ((List.perm_insertionSort _ _).nodup_iff).mpr (hn.filter _)
    · intro x hx
      obtain ⟨hmem, hzero⟩ := List.mem_filter.mp (List.mem_insertionSort _ |>.mp hx)
      exact ⟨hmem, of_decide_eq_true hzero⟩
  intro edge hedge hback
  refine hordered.rank horder (hs edge hedge).1 (hs edge hedge).2 ?_
  refine List.mem_map.mpr ⟨edge, List.mem_filter.mpr ⟨?_, by rw [hback]; rfl⟩, rfl⟩
  exact List.mem_filter.mpr ⟨hedge, decide_eq_true rfl⟩

end

/-! ### A definition that compiles -/

theorem compile_issues {definition : WorkflowDefinition} {compiled : CompiledWorkflow}
    (h : compile definition = .ok compiled) :
    compilationIssues definition (indexGraph definition) = .ok [] ∧
      compiled.entryNodeIds = (indexGraph definition).entries := by
  unfold compile at h
  dsimp only at h
  split at h
  · cases h
  · rename_i hissues
    cases h
    exact ⟨hissues, rfl⟩
  · cases h

theorem mem_pairs {α : Type} {xs : List α} {a b : α} (ha : a ∈ xs) (hb : b ∈ xs) (hne : a ≠ b) :
    (a, b) ∈ pairs xs ∨ (b, a) ∈ pairs xs := by
  induction xs with
  | nil => cases ha
  | cons x rest ih =>
    unfold pairs
    rw [List.mem_append, List.mem_append]
    cases List.mem_cons.mp ha with
    | inl hax =>
      cases List.mem_cons.mp hb with
      | inl hbx => exact absurd (hax.trans hbx.symm) hne
      | inr hb => exact .inl (.inl (List.mem_map.mpr ⟨b, hb, by rw [hax]⟩))
    | inr ha =>
      cases List.mem_cons.mp hb with
      | inl hbx => exact .inr (.inl (List.mem_map.mpr ⟨a, ha, by rw [hbx]⟩))
      | inr hb =>
        cases ih ha hb with
        | inl h => exact .inl (.inr h)
        | inr h => exact .inr (.inr h)

section
variable {definition : WorkflowDefinition}

/-- The issues an edge can have between nodes that exist. -/
theorem edgeIssues_nil {edge : EdgeSpec} (hn : (definition.nodes.map NodeSpec.nodeId).Nodup)
    (h : edgeIssues (indexGraph definition) edge = []) :
    ∃ source target sourcePort targetPort,
      definition.node? edge.sourceNode = some source ∧
      definition.node? edge.targetNode = some target ∧
      findPort source.outputPorts edge.sourcePort = some sourcePort ∧
      findPort target.inputPorts edge.targetPort = some targetPort ∧
      compatiblePortTypes (portType? sourcePort.valueType) (portType? targetPort.valueType) = true ∧
      (edge.loopBack = true → source.nodeKind = .loop) := by
  unfold edgeIssues at h
  rw [indexGraph_nodes hn, lookup_nodes, lookup_nodes] at h
  split at h
  · rename_i source target hsource htarget
    simp only [portIssues, List.append_eq_nil_iff, issueIf_nil, Option.isNone_eq_false_iff] at h
    obtain ⟨⟨⟨⟨hs, ht⟩, htypes⟩, hback⟩, -⟩ := h
    obtain ⟨sourcePort, hs⟩ := Option.isSome_iff_exists.mp hs
    obtain ⟨targetPort, ht⟩ := Option.isSome_iff_exists.mp ht
    rw [hs, ht] at htypes
    refine ⟨source, target, sourcePort, targetPort, hsource, htarget, hs, ht, ?_, fun hb => ?_⟩
    · simpa using issueIf_nil.mp htypes
    · rw [hb] at hback
      simpa using hback
  · rename_i hnone
    obtain ⟨hs, ht⟩ := List.append_eq_nil_iff.mp h
    cases hsource : definition.node? edge.sourceNode with
    | none =>
      rw [hsource] at hs
      cases hs
    | some source =>
      cases htarget : definition.node? edge.targetNode with
      | none =>
        rw [htarget] at ht
        cases ht
      | some target => exact absurd htarget (hnone source target hsource)

theorem joinModeIssues_nil {index : GraphIndex} {nodeId : String}
    (h : joinModeIssues index nodeId = []) {a b : EdgeSpec}
    (ha : a ∈ (index.incoming nodeId).filter fun edge => !edge.loopBack)
    (hb : b ∈ (index.incoming nodeId).filter fun edge => !edge.loopBack) :
    a.joinMode = b.joinMode := by
  have hmixed := issueIf_nil.mp h
  have ma := List.mem_map_of_mem (f := EdgeSpec.joinMode) ha
  have mb := List.mem_map_of_mem (f := EdgeSpec.joinMode) hb
  cases hma : a.joinMode <;> cases hmb : b.joinMode <;> rw [hma] at ma <;> rw [hmb] at mb
  · simp [ma, mb] at hmixed
  · simp [ma, mb] at hmixed

end

/-- None of the checks of a definition that compiles has found an issue. -/
structure WorkflowDefinition.Passes (definition : WorkflowDefinition) : Prop where
  nodes_nodup : (definition.nodes.map NodeSpec.nodeId).Nodup
  edges_nodup : (definition.edges.map EdgeSpec.edgeId).Nodup
  nonempty : definition.nodes ≠ []
  edge : ∀ edge ∈ definition.edges, edgeIssues (indexGraph definition) edge = []
  node : ∀ node ∈ definition.nodes, nodeIssues definition (indexGraph definition) node = .ok []
  modes : ∀ id ∈ (indexGraph definition).nodeIds, joinModeIssues (indexGraph definition) id = []
  writers : writerIssues (indexGraph definition) = []
  order : orderIssues (indexGraph definition) = []

theorem map_specs (definition : WorkflowDefinition) :
    (definition.nodes.map fun node => (node.nodeId, node)).map Prod.snd = definition.nodes := by
  rw [List.map_map]
  exact List.map_id _

theorem compile_passes {definition : WorkflowDefinition} {compiled : CompiledWorkflow}
    (h : compile definition = .ok compiled) : definition.Passes := by
  obtain ⟨hissues, -⟩ := compile_issues h
  unfold compilationIssues at hissues
  obtain ⟨nodes, hnodes, hissues⟩ := ok_of_bind hissues
  have hnil := Except.ok.inj hissues
  simp only [List.append_eq_nil_iff] at hnil
  obtain ⟨⟨⟨⟨⟨hdefinition, hedges⟩, hnodeIssues⟩, hmodes⟩, hwriters⟩, horder⟩ := hnil
  simp only [definitionIssues, List.append_eq_nil_iff, List.map_eq_nil_iff] at hdefinition
  obtain ⟨⟨⟨⟨⟨⟨-, hn⟩, he⟩, hempty⟩, -⟩, -⟩, -⟩ := hdefinition
  have hn := (repeated_nil.mp hn).1
  have he := (repeated_nil.mp he).1
  rw [indexGraph_edges he] at hedges
  rw [issueIf_nil, indexGraph_nodes hn] at hempty
  rw [indexGraph_nodes hn, map_specs] at hnodes
  refine ⟨hn, he, ?_, List.flatMap_eq_nil_iff.mp hedges, fun node hnode => ?_,
    List.flatMap_eq_nil_iff.mp hmodes, hwriters, horder⟩
  · rintro hnone
    rw [hnone] at hempty
    cases hempty
  · obtain ⟨issues, hmem, hok⟩ := mapM_ok_mem hnodes hnode
    rw [List.flatten_eq_nil_iff.mp hnodeIssues issues hmem] at hok
    exact hok

namespace WorkflowDefinition.Passes
variable {definition : WorkflowDefinition}

theorem nodes (h : definition.Passes) :
    (indexGraph definition).nodes = definition.nodes.map fun node => (node.nodeId, node) :=
  indexGraph_nodes h.nodes_nodup

theorem specs (h : definition.Passes) : (indexGraph definition).nodes.map Prod.snd = definition.nodes := by
  rw [h.nodes, map_specs]

theorem nodeIds (h : definition.Passes) :
    (indexGraph definition).nodeIds = definition.nodes.map NodeSpec.nodeId := by
  rw [GraphIndex.nodeIds, h.nodes, List.map_map]
  rfl

theorem nodeIds_nodup (h : definition.Passes) : (indexGraph definition).nodeIds.Nodup :=
  h.nodeIds ▸ h.nodes_nodup

theorem ports (h : definition.Passes) {edge : EdgeSpec} (he : edge ∈ definition.edges) :
    ∃ source target sourcePort targetPort,
      definition.node? edge.sourceNode = some source ∧
      definition.node? edge.targetNode = some target ∧
      findPort source.outputPorts edge.sourcePort = some sourcePort ∧
      findPort target.inputPorts edge.targetPort = some targetPort ∧
      compatiblePortTypes (portType? sourcePort.valueType) (portType? targetPort.valueType) = true ∧
      (edge.loopBack = true → source.nodeKind = .loop) :=
  edgeIssues_nil h.nodes_nodup (h.edge edge he)

theorem ends (h : definition.Passes) {edge : EdgeSpec} (he : edge ∈ definition.edges) :
    edge.sourceNode ∈ (indexGraph definition).nodeIds ∧
      edge.targetNode ∈ (indexGraph definition).nodeIds := by
  obtain ⟨source, target, _, _, hs, ht, -⟩ := h.ports he
  rw [h.nodeIds]
  exact ⟨(node?_some hs).2 ▸ List.mem_map_of_mem (node?_some hs).1,
    (node?_some ht).2 ▸ List.mem_map_of_mem (node?_some ht).1⟩

/-- No edge is left out. -/
theorem kept (h : definition.Passes) : (indexGraph definition).kept = definition.edges := by
  show (indexGraph definition).edges.filter (fun edge =>
    (indexGraph definition).nodes.has edge.sourceNode &&
      (indexGraph definition).nodes.has edge.targetNode) = _
  rw [indexGraph_edges h.edges_nodup, h.nodes, List.filter_eq_self]
  intro edge he
  obtain ⟨source, target, _, _, hs, ht, -⟩ := h.ports he
  rw [Dict.has, Dict.has, lookup_nodes, lookup_nodes, hs, ht]
  rfl

theorem incoming (h : definition.Passes) (id : String) :
    ((indexGraph definition).incoming id).filter (fun edge => !edge.loopBack) =
      definition.incoming id := by
  rw [GraphIndex.incoming, h.kept, List.filter_filter]
  rfl

theorem order_length (h : definition.Passes) :
    (indexGraph definition).order.length = (indexGraph definition).nodeIds.length := by
  simpa using issueIf_nil.mp (List.append_eq_nil_iff.mp h.order).1

theorem bound (h : definition.Passes) {node : NodeSpec} (hnode : node ∈ definition.nodes)
    (hin : ∃ edge ∈ definition.edges, edge.targetNode = node.nodeId) {port : PortSpec}
    (hport : port ∈ node.inputPorts) (hrequired : port.required = true) :
    ∃ edge ∈ definition.incoming node.nodeId, edge.targetPort = port.name := by
  have hnode := h.node node hnode
  unfold nodeIssues at hnode
  obtain ⟨capability, -, hnode⟩ := ok_of_bind hnode
  have hnil := Except.ok.inj hnode
  simp only [List.append_eq_nil_iff, issueIf_nil] at hnil
  obtain ⟨⟨⟨⟨⟨⟨⟨-, hunbound⟩, -⟩, -⟩, -⟩, -⟩, -⟩, -⟩ := hnil
  obtain ⟨edge, hedges, htarget⟩ := hin
  have hsome : ((indexGraph definition).incoming node.nodeId).isEmpty = false := by
    rw [List.isEmpty_eq_false_iff]
    refine List.ne_nil_of_mem (a := edge) (List.mem_filter.mpr ⟨h.kept.symm ▸ hedges, ?_⟩)
    exact decide_eq_true htarget
  simp only [hsome, Bool.not_false, Bool.true_and, Bool.not_eq_false', List.isEmpty_iff,
    unboundInputs, List.map_eq_nil_iff, List.filter_eq_nil_iff] at hunbound
  have hbound := hunbound port hport
  simp only [hrequired, Bool.true_and, Bool.not_eq_true', Bool.not_eq_false, List.any_eq_true]
    at hbound
  obtain ⟨e, he, hport⟩ := hbound
  obtain ⟨hback, hport⟩ := Bool.and_eq_true_iff.mp hport
  refine ⟨e, ?_, of_decide_eq_true hport⟩
  rw [← h.incoming]
  exact List.mem_filter.mpr ⟨he, hback⟩

end WorkflowDefinition.Passes

/-! ### Writers -/

/-- What was checked where there are two writers or more. -/
structure GraphIndex.Writers (index : GraphIndex) (writers : List NodeSpec) : Prop where
  policies : ∀ writer ∈ writers, writer.writerPolicy.isSome = true
  merges : validateMergeSources writers index = []
  multi : validateMultiWriter writers index = []

/-- `writer_nodes`. -/
def GraphIndex.writers (index : GraphIndex) : List NodeSpec :=
  (index.nodes.map Prod.snd).filter fun node => node.writesWorkspace && node.nodeKind ≠ .merge

theorem writerIssues_nil {index : GraphIndex} (h : writerIssues index = [])
    (htwo : 1 < index.writers.length) : index.Writers index.writers := by
  have h : validateMergeSources index.writers index ++ (if 1 < index.writers.length then
      issueIf (index.writers.any fun node => node.writerPolicy.isNone) { code := .multipleWriters } ++
        validateMultiWriter index.writers index else []) = [] := h
  obtain ⟨hmerges, hmulti⟩ := List.append_eq_nil_iff.mp h
  rw [if_pos htwo] at hmulti
  obtain ⟨hpolicies, hmulti⟩ := List.append_eq_nil_iff.mp hmulti
  refine ⟨fun writer hw => ?_, hmerges, hmulti⟩
  have hnone := List.any_eq_false.mp (issueIf_nil.mp hpolicies) writer hw
  exact Option.isSome_iff_ne_none.mpr (by simpa using hnone)

/-- Two members that differ make a list longer than one. -/
theorem one_lt_length {α : Type} {xs : List α} {a b : α} (ha : a ∈ xs) (hb : b ∈ xs) (hne : a ≠ b) :
    1 < xs.length := by
  by_contra hle
  cases xs with
  | nil => cases ha
  | cons x rest =>
    cases rest with
    | cons => simp at hle
    | nil => exact hne ((List.mem_singleton.mp ha).trans (List.mem_singleton.mp hb).symm)

theorem ownership_apart {writers : List NodeSpec} {index : GraphIndex}
    (h : validateMultiWriter writers index = []) {left right : WriterNodePolicy}
    (hmem : (left, right) ∈ pairs (writers.filterMap NodeSpec.writerPolicy)) :
    ownershipOverlap left.ownershipPaths right.ownershipPaths = false := by
  unfold validateMultiWriter at h
  dsimp only at h
  obtain ⟨h, -⟩ := List.append_eq_nil_iff.mp h
  obtain ⟨-, hpairs⟩ := List.append_eq_nil_iff.mp h
  exact issueIf_nil.mp (List.flatMap_eq_nil_iff.mp hpairs _ hmem)

/-- Two writers of a graph that compiles own nothing in common. -/
theorem writers_apart {definition : WorkflowDefinition} {compiled : CompiledWorkflow}
    (h : compile definition = .ok compiled) {a b : NodeSpec}
    (ha : a ∈ (indexGraph definition).nodes.map Prod.snd)
    (hb : b ∈ (indexGraph definition).nodes.map Prod.snd)
    (hwa : a.writesWorkspace = true ∧ a.nodeKind ≠ .merge)
    (hwb : b.writesWorkspace = true ∧ b.nodeKind ≠ .merge) {left right : WriterNodePolicy}
    (hl : a.writerPolicy = some left) (hr : b.writerPolicy = some right)
    (hne : left.writerKey ≠ right.writerKey) :
    ownershipOverlap left.ownershipPaths right.ownershipPaths = false ∨
      ownershipOverlap right.ownershipPaths left.ownershipPaths = false := by
  have hmem {n : NodeSpec} (hn : n ∈ (indexGraph definition).nodes.map Prod.snd)
      (hw : n.writesWorkspace = true ∧ n.nodeKind ≠ .merge) : n ∈ (indexGraph definition).writers :=
    List.mem_filter.mpr ⟨hn, by simp [hw.1, hw.2]⟩
  have hab : a ≠ b := by
    intro heq
    rw [heq, hr] at hl
    exact hne (congrArg WriterNodePolicy.writerKey (Option.some.inj hl)).symm
  have hwriters := writerIssues_nil (compile_passes h).writers (one_lt_length (hmem ha hwa) (hmem hb hwb) hab)
  have hleft := List.mem_filterMap.mpr ⟨a, hmem ha hwa, hl⟩
  have hright := List.mem_filterMap.mpr ⟨b, hmem hb hwb, hr⟩
  cases mem_pairs hleft hright (fun heq => hne (congrArg _ heq)) with
  | inl hmem => exact .inl (ownership_apart hwriters.multi hmem)
  | inr hmem => exact .inr (ownership_apart hwriters.multi hmem)

theorem compile_compiled {definition : WorkflowDefinition} {compiled : CompiledWorkflow}
    (h : compile definition = .ok compiled) : definition.Compiled := by
  have hp := compile_passes h
  refine ⟨hp.nodes_nodup, hp.edges_nodup, fun edge he => hp.ports he,
    fun node hnode hin port hport hrequired => hp.bound hnode hin hport hrequired, ?_,
    fun id a ha b hb => ?_⟩
  · exact ⟨(indexGraph definition).order.idxOf, fun edge h hback =>
      ranked_of_order hp.nodeIds_nodup (fun e he => hp.ends (hp.kept ▸ he)) hp.order_length edge
        (hp.kept.symm ▸ h) hback⟩
  · have hid : id ∈ (indexGraph definition).nodeIds := by
      obtain ⟨hedge, -, rfl⟩ := mem_incoming.mp ha
      exact (hp.ends hedge).2
    refine joinModeIssues_nil (hp.modes id hid) ?_ ?_
    · rw [hp.incoming]
      exact ha
    · rw [hp.incoming]
      exact hb

end Operant.Graph
