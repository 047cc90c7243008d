import Operant.Graph.Compiled

/-! What the compiler says about the graph is true.

Whether there is a cycle, and in which order the nodes come, is found by counting the edges
into each node down; which nodes are reached, by a walk. Both look at what is left of the
nodes and edges once ids that come up again and edges without ends are put aside, so the
verdict on a cycle is right for any definition. -/
namespace Operant.Graph
open Operant.Python Operant.Search Relation

/-- An edge that is no loop-back edge goes from `a` to `b`. -/
def WorkflowDefinition.Precedes (definition : WorkflowDefinition) (a b : String) : Prop :=
  ∃ edge ∈ definition.edges, edge.loopBack = false ∧ edge.sourceNode = a ∧ edge.targetNode = b

/-- An edge of any kind goes from `a` to `b`. -/
def WorkflowDefinition.Connects (definition : WorkflowDefinition) (a b : String) : Prop :=
  ∃ edge ∈ definition.edges, edge.sourceNode = a ∧ edge.targetNode = b

/-- A compiled workflow, and the graph it was made from. -/
structure CompiledWorkflow.Describes (compiled : CompiledWorkflow) (definition : WorkflowDefinition) :
    Prop where
  nodes_nodup : (definition.nodes.map NodeSpec.nodeId).Nodup
  edges_nodup : (definition.edges.map EdgeSpec.edgeId).Nodup
  ends : ∀ edge ∈ definition.edges, ∃ source ∈ definition.nodes, ∃ target ∈ definition.nodes,
    source.nodeId = edge.sourceNode ∧ target.nodeId = edge.targetNode ∧
    edge.sourcePort ∈ source.outputPorts.map PortSpec.name ∧
    edge.targetPort ∈ target.inputPorts.map PortSpec.name
  reached : ∀ node ∈ definition.nodes, ∃ entry ∈ compiled.entryNodeIds,
    ReflTransGen definition.Connects entry node.nodeId
  acyclic : ∀ id, ¬TransGen definition.Precedes id id
  order : compiled.topologicalNodeIds.Perm (definition.nodes.map NodeSpec.nodeId)
  forward : ∀ edge ∈ definition.edges, edge.loopBack = false →
    compiled.topologicalNodeIds.idxOf edge.sourceNode <
      compiled.topologicalNodeIds.idxOf edge.targetNode
  entries : ∀ id, id ∈ compiled.entryNodeIds ↔ id ∈ definition.nodes.map NodeSpec.nodeId ∧
    ∀ edge ∈ definition.edges, edge.targetNode = id → edge.loopBack = true
  terminals : ∀ id, id ∈ compiled.terminalNodeIds ↔ id ∈ definition.nodes.map NodeSpec.nodeId ∧
    ∀ edge ∈ definition.edges, edge.sourceNode ≠ id

/-! ### The graph of any definition -/

theorem nodeIds_nodup (definition : WorkflowDefinition) : (indexGraph definition).nodeIds.Nodup :=
  Dict.nodup_ofList _

section
variable {definition : WorkflowDefinition} {edge : EdgeSpec}

/-- What the checks look at are edges of the definition between nodes that are there. -/
theorem mem_kept (h : edge ∈ (indexGraph definition).kept) : edge ∈ definition.edges ∧
    edge.sourceNode ∈ (indexGraph definition).nodeIds ∧
    edge.targetNode ∈ (indexGraph definition).nodeIds := by
  obtain ⟨hedge, hends⟩ := List.mem_filter.mp h
  obtain ⟨hsource, htarget⟩ := Bool.and_eq_true_iff.mp hends
  refine ⟨?_, Dict.mem_keys hsource, Dict.mem_keys htarget⟩
  obtain ⟨entry, hentry, rfl⟩ := List.mem_map.mp hedge
  obtain ⟨e, he, rfl⟩ := List.mem_map.mp (Dict.mem_ofList hentry)
  exact he

theorem mem_forward {a b : String} : b ∈ (indexGraph definition).forward a ↔
    ∃ edge ∈ (indexGraph definition).kept, edge.loopBack = false ∧ edge.sourceNode = a ∧
      edge.targetNode = b := by
  simp only [GraphIndex.forward, GraphIndex.outgoing, List.mem_map, List.mem_filter,
    Bool.not_eq_true', decide_eq_true_eq]
  constructor
  · rintro ⟨edge, ⟨⟨hkept, hsource⟩, hback⟩, htarget⟩
    exact ⟨edge, hkept, hback, hsource, htarget⟩
  · rintro ⟨edge, hkept, hback, hsource, htarget⟩
    exact ⟨edge, ⟨⟨hkept, hsource⟩, hback⟩, htarget⟩

theorem forward_precedes {a b : String} (h : b ∈ (indexGraph definition).forward a) :
    definition.Precedes a b := by
  obtain ⟨edge, hkept, hedge⟩ := mem_forward.mp h
  exact ⟨edge, (mem_kept hkept).1, hedge⟩

theorem forward_mem {a b : String} (h : b ∈ (indexGraph definition).forward a) :
    b ∈ (indexGraph definition).nodeIds := by
  obtain ⟨edge, hkept, -, -, rfl⟩ := mem_forward.mp h
  exact (mem_kept hkept).2.2

theorem indegree_forward (id : String) : (indexGraph definition).indegree id =
    ((indexGraph definition).nodeIds.map fun a =>
      (((indexGraph definition).forward a).count id : Int)).sum :=
  indegree_eq (nodeIds_nodup definition) (fun _ he => (mem_kept he).2.1) id

theorem mem_entries {id : String} : id ∈ (indexGraph definition).entries ↔
    id ∈ (indexGraph definition).nodeIds ∧ (indexGraph definition).indegree id = 0 := by
  rw [GraphIndex.entries, List.mem_insertionSort, List.mem_filter, decide_eq_true_eq]

theorem entries_nodup (definition : WorkflowDefinition) : (indexGraph definition).entries.Nodup :=
  ((List.perm_insertionSort _ _).nodup_iff).mpr ((nodeIds_nodup definition).filter _)

/-- Nothing but a cycle keeps a node out of the order. -/
theorem cycle_of_order
    (h : (indexGraph definition).order.length ≠ (indexGraph definition).nodeIds.length) :
    ∃ id, TransGen definition.Precedes id id := by
  have ⟨id, hcycle⟩ := cycle_of_kahn (nodeIds_nodup definition) (fun _ _ _ hy => forward_mem hy)
    (fun id _ => indegree_forward id) (entries_nodup definition) (fun _ => mem_entries) h
  exact ⟨id, TransGen.mono (fun _ _ => forward_precedes) _ _ hcycle⟩

end

/-! ### Who reports a cycle -/

/-- None of the issues is an illegal cycle. -/
def NoCycle (issues : List CompilationIssue) : Prop := ∀ issue ∈ issues, issue.code ≠ .illegalCycle

@[simp] theorem noCycle_nil : NoCycle [] := fun _ h => nomatch h

@[simp] theorem noCycle_cons {issue : CompilationIssue} {rest : List CompilationIssue} :
    NoCycle (issue :: rest) ↔ issue.code ≠ .illegalCycle ∧ NoCycle rest := List.forall_mem_cons

@[simp] theorem noCycle_append {xs ys : List CompilationIssue} :
    NoCycle (xs ++ ys) ↔ NoCycle xs ∧ NoCycle ys := List.forall_mem_append

@[simp] theorem noCycle_issueIf {found : Bool} {issue : CompilationIssue} :
    NoCycle (issueIf found issue) ↔ found = true → issue.code ≠ .illegalCycle := by
  cases found <;> simp [issueIf]

@[simp] theorem noCycle_flatMap {α : Type} {xs : List α} {f : α → List CompilationIssue} :
    NoCycle (xs.flatMap f) ↔ ∀ x ∈ xs, NoCycle (f x) := by
  simp only [NoCycle, List.mem_flatMap]
  exact ⟨fun h x hx issue hi => h issue ⟨x, hx, hi⟩, fun h issue ⟨x, hx, hi⟩ => h x hx issue hi⟩

@[simp] theorem noCycle_map {α : Type} {xs : List α} {f : α → CompilationIssue} :
    NoCycle (xs.map f) ↔ ∀ x ∈ xs, (f x).code ≠ .illegalCycle := List.forall_mem_map

section
variable {definition : WorkflowDefinition} {index : GraphIndex}

theorem definitionIssues_noCycle : NoCycle (definitionIssues definition index) := by
  simp [definitionIssues]

theorem edgeIssues_noCycle (edge : EdgeSpec) : NoCycle (edgeIssues index edge) := by
  unfold edgeIssues portIssues
  split
  · simp only [noCycle_append]
    refine ⟨⟨⟨⟨by simp, by simp⟩, ?_⟩, by simp⟩, ?_⟩
    · split <;> simp
    · split <;> simp
  · simp

theorem timeoutIssues_noCycle (node : NodeSpec) : NoCycle (timeoutIssues index node) := by
  unfold timeoutIssues
  split
  · split
    · simp
    · split <;> simp
  · simp

theorem loopIssues_noCycle (limits : GraphLimits) (node : NodeSpec) :
    NoCycle (loopIssues limits index node) := by
  have branch (target : String) : NoCycle (loopBranchIssues index node target) := by
    unfold loopBranchIssues
    split <;> simp
  unfold loopIssues
  split
  · simp
  · simp only [noCycle_append]
    refine ⟨⟨⟨by simp, branch _⟩, ?_⟩, by simp⟩
    split
    · exact branch _
    · simp

theorem nodeIssues_noCycle {node : NodeSpec} {issues : List CompilationIssue}
    (h : nodeIssues definition index node = .ok issues) : NoCycle issues := by
  unfold nodeIssues at h
  obtain ⟨capability, hcapability, h⟩ := Calls.ok_of_bind h
  cases h
  have hfree : NoCycle capability := by
    unfold capabilityIssues at hcapability
    split at hcapability
    · obtain ⟨requested, -, h⟩ := Calls.ok_of_bind hcapability
      cases h
      simp
    · cases hcapability
      simp
  simp only [noCycle_append]
  refine ⟨⟨⟨⟨⟨⟨⟨by simp, by simp⟩, by simp⟩, by simp⟩, timeoutIssues_noCycle node⟩,
    loopIssues_noCycle _ node⟩, hfree⟩, ?_⟩
  split <;> simp

theorem writerIssues_noCycle : NoCycle (writerIssues index) := by
  have merges (writers : List NodeSpec) : NoCycle (validateMergeSources writers index) := by
    unfold validateMergeSources
    simp only [noCycle_flatMap]
    intro merge _
    split
    · simp only [noCycle_append, noCycle_flatMap]
      refine ⟨by simp, fun key _ => ?_⟩
      split <;> simp
    · simp
  have multi (writers : List NodeSpec) : NoCycle (validateMultiWriter writers index) := by
    unfold validateMultiWriter
    simp only [noCycle_append, noCycle_flatMap]
    refine ⟨⟨⟨⟨fun node _ => ?_, by simp⟩, by simp⟩, by simp⟩, by simp⟩
    split <;> simp
  unfold writerIssues
  simp only [noCycle_append]
  refine ⟨merges _, ?_⟩
  split
  · exact noCycle_append.mpr ⟨by simp, multi _⟩
  · simp

/-- An illegal cycle is reported for nodes that are missing from the order. -/
theorem order_of_illegalCycle {issues : List CompilationIssue}
    (h : compilationIssues definition index = .ok issues)
    (hcycle : .illegalCycle ∈ issues.map CompilationIssue.code) :
    index.order.length ≠ index.nodeIds.length := by
  unfold compilationIssues at h
  obtain ⟨nodes, hnodes, h⟩ := Calls.ok_of_bind h
  cases h
  obtain ⟨issue, hmem, hcode⟩ := List.mem_map.mp hcycle
  have hfree : NoCycle (definitionIssues definition index ++ index.edges.flatMap (edgeIssues index) ++
      nodes.flatten ++ index.nodeIds.flatMap (joinModeIssues index) ++ writerIssues index) := by
    simp only [noCycle_append, noCycle_flatMap]
    refine ⟨⟨⟨⟨definitionIssues_noCycle, fun edge _ => edgeIssues_noCycle edge⟩, ?_⟩, fun id _ => ?_⟩,
      writerIssues_noCycle⟩
    · intro issue hissue
      obtain ⟨issues, hissues, hissue⟩ := List.mem_flatten.mp hissue
      obtain ⟨node, -, hnode⟩ := Calls.mapM_ok_of_mem hnodes hissues
      exact nodeIssues_noCycle hnode issue hissue
    · simp [joinModeIssues]
  cases List.mem_append.mp hmem with
  | inl hmem => exact absurd hcode (hfree issue hmem)
  | inr hmem =>
    cases List.mem_append.mp hmem with
    | inl hmem =>
      by_contra heq
      simp [issueIf, heq] at hmem
    | inr hmem =>
      split at hmem
      · cases hmem
      · obtain ⟨id, -, rfl⟩ := List.mem_map.mp hmem
        cases hcode

end

/-! ### A definition that compiles -/

section
variable {definition : WorkflowDefinition} {compiled : CompiledWorkflow}

theorem compile_result (h : compile definition = .ok compiled) :
    compiled.entryNodeIds = (indexGraph definition).entries ∧
      compiled.topologicalNodeIds = (indexGraph definition).order ∧
      compiled.terminalNodeIds = ((indexGraph definition).nodeIds.filter fun id =>
        ((indexGraph definition).outgoing id).isEmpty).insertionSort (· ≤ ·) := by
  unfold compile at h
  dsimp only at h
  split at h
  · cases h
  · cases h
    exact ⟨rfl, rfl, rfl⟩
  · cases h

theorem WorkflowDefinition.Passes.precedes (h : definition.Passes) {a b : String}
    (hab : definition.Precedes a b) : a ∈ (indexGraph definition).nodeIds ∧
      b ∈ (indexGraph definition).nodeIds ∧ b ∈ (indexGraph definition).forward a := by
  obtain ⟨edge, hedge, hback, rfl, rfl⟩ := hab
  obtain ⟨hsource, htarget⟩ := h.ends hedge
  exact ⟨hsource, htarget, mem_forward.mpr ⟨edge, h.kept ▸ hedge, hback, rfl, rfl⟩⟩

theorem WorkflowDefinition.Passes.ordered (h : definition.Passes) :
    Ordered (indexGraph definition).nodeIds (indexGraph definition).forward
      (indexGraph definition).order :=
  ordered_kahn_start h.nodeIds_nodup (fun _ _ _ hy => forward_mem hy) _
    (fun id _ => indegree_forward id) (entries_nodup definition) fun _ hx => mem_entries.mp hx

/-- Edges go forward in the order. -/
theorem WorkflowDefinition.Passes.rank (h : definition.Passes) {a b : String}
    (hab : TransGen definition.Precedes a b) :
    (indexGraph definition).order.idxOf a < (indexGraph definition).order.idxOf b := by
  induction hab with
  | single hab =>
    obtain ⟨ha, hb, hforward⟩ := h.precedes hab
    exact h.ordered.rank h.order_length ha hb hforward
  | tail _ hbc ih =>
    obtain ⟨hb, hc, hforward⟩ := h.precedes hbc
    exact ih.trans (h.ordered.rank h.order_length hb hc hforward)

theorem WorkflowDefinition.Passes.indegree_zero (h : definition.Passes) (id : String) :
    (indexGraph definition).indegree id = 0 ↔
      ∀ edge ∈ definition.edges, edge.targetNode = id → edge.loopBack = true := by
  show (((indexGraph definition).incoming id).filter fun edge => !edge.loopBack).length = (0 : ℤ) ↔ _
  rw [h.incoming, Int.natCast_eq_zero, List.length_eq_zero_iff, WorkflowDefinition.incoming,
    List.filter_eq_nil_iff]
  constructor
  · intro hnone edge hedge htarget
    have := hnone edge hedge
    simpa [htarget] using this
  · intro hback edge hedge hin
    obtain ⟨hforward, htarget⟩ := Bool.and_eq_true_iff.mp hin
    rw [hback edge hedge (of_decide_eq_true htarget)] at hforward
    cases hforward

/-- Every node is one that `reachable` holds. -/
theorem WorkflowDefinition.Passes.reached (h : definition.Passes) {id : String}
    (hid : id ∈ (indexGraph definition).nodeIds) :
    ∃ entry ∈ (indexGraph definition).entries, ReflTransGen definition.Connects entry id := by
  have horder := (List.append_eq_nil_iff.mp h.order).2
  by_cases hentries : (indexGraph definition).entries = []
  · -- Without an entry the order is empty, and it is not shorter than the nodes.
    have hempty : (indexGraph definition).order = [] := by
      rw [GraphIndex.order, hentries]
      cases (indexGraph definition).nodeIds.length <;> rfl
    have hlength := h.order_length
    rw [hempty] at hlength
    rw [List.length_eq_zero_iff.mp hlength.symm] at hid
    exact absurd hid List.not_mem_nil
  · rw [if_neg hentries] at horder
    have hall : id ∈ (indexGraph definition).reachable := by
      by_contra hnot
      have hmem : id ∈ ((indexGraph definition).nodeIds.filter fun id =>
          id ∉ (indexGraph definition).reachable).insertionSort (· ≤ ·) :=
        (List.mem_insertionSort _).mpr (List.mem_filter.mpr ⟨hid, decide_eq_true hnot⟩)
      rw [List.map_eq_nil_iff.mp horder] at hmem
      exact nomatch hmem
    obtain ⟨entry, hentry, hreach⟩ := visit_sound _
      (fun x hx => ⟨x, hx.resolve_right List.not_mem_nil, .refl⟩) hall
    refine ⟨entry, hentry, ReflTransGen.mono (fun a b hab => ?_) _ _ hreach⟩
    obtain ⟨edge, hedge, rfl⟩ := List.mem_map.mp hab
    obtain ⟨hkept, hsource⟩ := List.mem_filter.mp hedge
    exact ⟨edge, (mem_kept hkept).1, of_decide_eq_true hsource, rfl⟩

end

theorem findPort_mem {ports : List PortSpec} {name : String} {port : PortSpec}
    (h : findPort ports name = some port) : name ∈ ports.map PortSpec.name :=
  List.mem_map.mpr ⟨port, List.mem_of_find?_eq_some h, by simpa using List.find?_some h⟩

/-- What the compiler says about the graph of a definition is true. -/
theorem compile_describes (definition : WorkflowDefinition) :
    (∀ compiled, compile definition = .ok compiled → compiled.Describes definition) ∧
      ∀ issues, compile definition = .error (.issues issues) →
        .illegalCycle ∈ issues.map CompilationIssue.code →
        ∃ id, TransGen definition.Precedes id id := by
  refine ⟨fun compiled h => ?_, fun issues h hcycle => ?_⟩
  · have hp := compile_passes h
    obtain ⟨hentries, horder, hterminals⟩ := compile_result h
    refine ⟨hp.nodes_nodup, hp.edges_nodup, fun edge hedge => ?_, fun node hnode => ?_, ?_, ?_, ?_, ?_, ?_⟩
    · obtain ⟨source, target, sourcePort, targetPort, hs, ht, hsp, htp, -⟩ := hp.ports hedge
      obtain ⟨hsmem, hsid⟩ := node?_some hs
      obtain ⟨htmem, htid⟩ := node?_some ht
      exact ⟨source, hsmem, target, htmem, hsid, htid, findPort_mem hsp, findPort_mem htp⟩
    · rw [hentries]
      exact hp.reached (hp.nodeIds ▸ List.mem_map_of_mem hnode)
    · intro id hcycle
      exact absurd (hp.rank hcycle) (Nat.lt_irrefl _)
    · rw [horder, ← hp.nodeIds]
      exact (List.subperm_of_subset hp.ordered.nodup hp.ordered.subset).perm_of_length_le
        (le_of_eq hp.order_length.symm)
    · intro edge hedge hback
      rw [horder]
      exact hp.rank (.single ⟨edge, hedge, hback, rfl, rfl⟩)
    · intro id
      rw [hentries, mem_entries, hp.nodeIds, hp.indegree_zero]
    · intro id
      rw [hterminals, List.mem_insertionSort, List.mem_filter, hp.nodeIds, List.isEmpty_iff,
        GraphIndex.outgoing, hp.kept, List.filter_eq_nil_iff]
      simp only [decide_eq_true_eq]
  · unfold compile at h
    dsimp only at h
    split at h
    · cases h
    · cases h
    · rename_i issue rest hissues
      cases h
      exact cycle_of_order (order_of_illegalCycle hissues hcycle)

end Operant.Graph
