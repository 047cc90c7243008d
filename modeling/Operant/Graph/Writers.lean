import Operant.Graph.Analysis
import Operant.MultiWriter.Paths

/-! Graphs with several writers keep them apart.

The compiler compares ownership paths as strings. What they own is files, and a file is
under a path when the components of the path come first among its own. -/
namespace Operant.Graph
open Operant.Search Operant.MultiWriter Relation

/-! ### Paths by their components -/

section
variable {α : Type} {sep : α}

theorem intercalate_append {xs ys : List (List α)} (hx : xs ≠ []) (hy : ys ≠ []) :
    [sep].intercalate (xs ++ ys) = [sep].intercalate xs ++ sep :: [sep].intercalate ys := by
  induction xs with
  | nil => exact absurd rfl hx
  | cons x rest ih =>
    by_cases hrest : rest = []
    · subst hrest
      rw [List.singleton_append, List.intercalate_cons_of_ne_nil hy, List.intercalate_singleton,
        List.append_assoc]
      rfl
    · have hne : rest ++ ys ≠ [] := by simp [hrest]
      rw [List.cons_append, List.intercalate_cons_of_ne_nil hne, List.intercalate_cons_of_ne_nil hrest,
        ih hrest]
      simp

/-- To come first among the components is to come first and be followed by a separator. -/
theorem under_iff [DecidableEq α] {p q : List α} :
    p.splitOn sep <+: q.splitOn sep ↔ Under sep p q := by
  constructor
  · rintro ⟨more, hmore⟩
    have hq : q = [sep].intercalate (p.splitOn sep ++ more) := by rw [hmore, List.intercalate_splitOn]
    by_cases hnone : more = []
    · rw [hnone, List.append_nil, List.intercalate_splitOn] at hq
      exact .inl hq.symm
    · rw [intercalate_append (List.splitOn_ne_nil _ _) hnone, List.intercalate_splitOn] at hq
      exact .inr ⟨[sep].intercalate more, by rw [hq]; simp⟩
  · rintro (rfl | ⟨rest, rfl⟩)
    · exact List.prefix_rfl
    · rw [List.append_assoc, List.singleton_append, List.splitOn_append_cons_self]
      exact List.prefix_append _ _

end

/-- The components of `owned` are the first ones of `path`. -/
def LiesUnder (path owned : String) : Prop := owned.toList.splitOn '/' <+: path.toList.splitOn '/'

/-- A path under two paths makes these overlap. -/
theorem LiesUnder.overlap {path left right : String} (hl : LiesUnder path left)
    (hr : LiesUnder path right) : pathsOverlap left right :=
  (under_iff.mp hl).overlap (under_iff.mp hr)

/-! ### Writers -/

/-- The nodes that write the workspace, merges aside. -/
def WorkflowDefinition.writers (definition : WorkflowDefinition) : List NodeSpec :=
  definition.nodes.filter fun node => node.writesWorkspace && node.nodeKind ≠ .merge

/-- A writer with this key. -/
def WorkflowDefinition.HasWriter (definition : WorkflowDefinition) (key : String) : Prop :=
  ∃ writer ∈ definition.writers, ∃ policy, writer.writerPolicy = some policy ∧ policy.writerKey = key

/-- A merge that lists the keys of all writers and no others. -/
def WorkflowDefinition.Merges (definition : WorkflowDefinition) (merge : NodeSpec) : Prop :=
  merge ∈ definition.nodes ∧ merge.nodeKind = .merge ∧ ∃ policy, merge.mergePolicy = some policy ∧
    ∀ key, key ∈ policy.sourceWriterKeys ↔ definition.HasWriter key

/-- Two writers with these policies have nothing in common. -/
structure WriterNodePolicy.Apart (left right : WriterNodePolicy) : Prop where
  writerKey : left.writerKey ≠ right.writerKey
  isolationRef : left.isolationRef ≠ right.isolationRef
  paths : ∀ l ∈ left.ownershipPaths, ∀ r ∈ right.ownershipPaths, ∀ path,
    ¬(LiesUnder path l ∧ LiesUnder path r)

/-- What several writers need. -/
structure WorkflowDefinition.Isolated (definition : WorkflowDefinition) : Prop where
  policy : ∀ writer ∈ definition.writers, writer.writerPolicy.isSome = true
  apart : ∀ a ∈ definition.writers, ∀ b ∈ definition.writers, a ≠ b →
    ∀ left, a.writerPolicy = some left → ∀ right, b.writerPolicy = some right → left.Apart right
  merge : ∃ merge, definition.Merges merge ∧ (∀ other, definition.Merges other → other = merge) ∧
    ∀ writer ∈ definition.writers, ReflTransGen definition.Precedes writer.nodeId merge.nodeId

/-- In a list without repetitions two members with the same image are the same. -/
theorem eq_of_filterMap_nodup {α β : Type} {f : α → Option β} {xs : List α}
    (h : (xs.filterMap f).Nodup) {a b : α} {c : β} (ha : a ∈ xs) (hb : b ∈ xs) (hfa : f a = some c)
    (hfb : f b = some c) : a = b := by
  induction xs with
  | nil => cases ha
  | cons x rest ih =>
    have hrest : (rest.filterMap f).Nodup := h.sublist ((List.sublist_cons_self x rest).filterMap f)
    have head {y : α} (hy : y ∈ rest) (hfy : f y = some c) (hfx : f x = some c) : False := by
      rw [List.filterMap_cons_some hfx, List.nodup_cons] at h
      exact h.1 (List.mem_filterMap.mpr ⟨y, hy, hfy⟩)
    rcases List.mem_cons.mp ha with rfl | harest
    · rcases List.mem_cons.mp hb with rfl | hbrest
      · rfl
      · exact (head hbrest hfb hfa).elim
    · rcases List.mem_cons.mp hb with rfl | hbrest
      · exact (head harest hfa hfb).elim
      · exact ih hrest harest hbrest

section
variable {definition : WorkflowDefinition} {index : GraphIndex} {writers : List NodeSpec}

theorem WorkflowDefinition.Passes.index_writers (h : definition.Passes) :
    (indexGraph definition).writers = definition.writers := by
  rw [GraphIndex.writers, h.specs]
  rfl

/-- The keys and the isolation references of several writers differ. -/
theorem distinct_of_multi (h : validateMultiWriter writers index = []) :
    ((writers.filterMap NodeSpec.writerPolicy).map WriterNodePolicy.writerKey).Nodup ∧
      ((writers.filterMap NodeSpec.writerPolicy).map WriterNodePolicy.isolationRef).Nodup := by
  unfold validateMultiWriter at h
  dsimp only at h
  simp only [List.append_eq_nil_iff, issueIf_nil, Bool.not_eq_false', decide_eq_true_eq] at h
  exact ⟨h.1.1.1.2, h.1.1.2⟩

theorem writers_differ {β : Type} {f : WriterNodePolicy → β}
    (h : ((writers.filterMap NodeSpec.writerPolicy).map f).Nodup) {a b : NodeSpec} (ha : a ∈ writers)
    (hb : b ∈ writers) (hne : a ≠ b) {left right : WriterNodePolicy} (hl : a.writerPolicy = some left)
    (hr : b.writerPolicy = some right) : f left ≠ f right := by
  intro heq
  rw [List.map_filterMap] at h
  refine hne (eq_of_filterMap_nodup h ha hb (c := f left) ?_ ?_)
  · rw [hl]
    rfl
  · rw [hr, heq]
    rfl

theorem nodeReaches_precedes {source target : String}
    (h : nodeReaches (indexGraph definition) source target = true) :
    ReflTransGen definition.Precedes source target := by
  obtain ⟨start, hstart, hreach⟩ : Reaches _ [source] target := visit_sound _
    (fun x hx => ⟨x, hx.resolve_right List.not_mem_nil, .refl⟩) (of_decide_eq_true h)
  rw [List.mem_singleton.mp hstart] at hreach
  exact ReflTransGen.mono (fun _ _ hab => forward_precedes hab) _ _ hreach

/-- A merge is reached from every writer whose key it lists. -/
theorem reaches_of_merges (h : validateMergeSources writers index = []) {merge writer : NodeSpec}
    (hmem : merge ∈ index.nodes.map Prod.snd) (hkind : merge.nodeKind = .merge)
    {policy : MergeNodePolicy} (hpolicy : merge.mergePolicy = some policy) (hwriter : writer ∈ writers)
    {own : WriterNodePolicy} (hown : writer.writerPolicy = some own)
    (hkey : own.writerKey ∈ policy.sourceWriterKeys) :
    nodeReaches index writer.nodeId merge.nodeId = true := by
  unfold validateMergeSources at h
  dsimp only at h
  have hmerge := List.flatMap_eq_nil_iff.mp h merge hmem
  rw [hkind, hpolicy] at hmerge
  have hsource := List.flatMap_eq_nil_iff.mp (List.append_eq_nil_iff.mp hmerge).2 own.writerKey
    ((List.mem_insertionSort _).mpr (List.mem_dedup.mpr hkey))
  split at hsource
  · rename_i hnone
    have hnot := List.filter_eq_nil_iff.mp hnone writer hwriter
    rw [hown] at hnot
    exact absurd (decide_eq_true rfl) hnot
  · rename_i only hone
    have hfound : writer ∈ [only] := by
      rw [← hone]
      exact List.mem_filter.mpr ⟨hwriter, by rw [hown]; exact decide_eq_true rfl⟩
    rw [List.mem_singleton.mp hfound]
    simpa using issueIf_nil.mp hsource
  · exact nomatch hsource

/-- Where there are several writers, one merge is for all of them. -/
theorem one_merge (h : validateMultiWriter writers index = []) : ∃ merge,
    (index.nodes.map Prod.snd).filter (fun node =>
      node.nodeKind = .merge && match node.mergePolicy with
        | some policy =>
          policy.sourceWriterKeys.all (· ∈ (writers.filterMap NodeSpec.writerPolicy).map
              WriterNodePolicy.writerKey) &&
            ((writers.filterMap NodeSpec.writerPolicy).map WriterNodePolicy.writerKey).all
              (· ∈ policy.sourceWriterKeys)
        | none => false) = [merge] := by
  unfold validateMultiWriter at h
  dsimp only at h
  have hone := issueIf_nil.mp (List.append_eq_nil_iff.mp h).2
  rw [Bool.or_eq_false_iff, decide_eq_false_iff_not, not_not] at hone
  exact List.length_eq_one_iff.mp hone.1

theorem mem_keys {key : String} :
    key ∈ (definition.writers.filterMap NodeSpec.writerPolicy).map WriterNodePolicy.writerKey ↔
      definition.HasWriter key := by
  simp only [List.mem_map, List.mem_filterMap, WorkflowDefinition.HasWriter]
  constructor
  · rintro ⟨policy, ⟨writer, hwriter, hpolicy⟩, hkey⟩
    exact ⟨writer, hwriter, policy, hpolicy, hkey⟩
  · rintro ⟨writer, hwriter, policy, hpolicy, hkey⟩
    exact ⟨policy, ⟨writer, hwriter, hpolicy⟩, hkey⟩

/-- The test for the one merge, said of the definition. -/
theorem WorkflowDefinition.Passes.merges_iff (h : definition.Passes) {merge : NodeSpec} :
    definition.Merges merge ↔ merge ∈ ((indexGraph definition).nodes.map Prod.snd).filter fun node =>
      node.nodeKind = .merge && match node.mergePolicy with
        | some policy =>
          policy.sourceWriterKeys.all (· ∈ (definition.writers.filterMap NodeSpec.writerPolicy).map
              WriterNodePolicy.writerKey) &&
            ((definition.writers.filterMap NodeSpec.writerPolicy).map WriterNodePolicy.writerKey).all
              (· ∈ policy.sourceWriterKeys)
        | none => false := by
  rw [List.mem_filter, h.specs, WorkflowDefinition.Merges, Bool.and_eq_true, decide_eq_true_eq]
  refine and_congr_right fun _ => and_congr_right fun _ => ?_
  cases merge.mergePolicy with
  | none => simp
  | some policy =>
    simp only [Option.some.injEq, exists_eq_left', Bool.and_eq_true, List.all_eq_true,
      decide_eq_true_eq, mem_keys]
    exact ⟨fun hall => ⟨fun key => (hall key).mp, fun key => (hall key).mpr⟩,
      fun hall key => ⟨hall.1 key, hall.2 key⟩⟩

end

/-- Several writers of a graph that compiles are kept apart, and come together in one merge. -/
theorem writers_isolated {definition : WorkflowDefinition} {compiled : CompiledWorkflow}
    (h : compile definition = .ok compiled) (htwo : 2 ≤ definition.writers.length) :
    definition.Isolated := by
  have hp := compile_passes h
  have hwriters := writerIssues_nil hp.writers (hp.index_writers.symm ▸ htwo)
  rw [hp.index_writers] at hwriters
  obtain ⟨hkeys, hrefs⟩ := distinct_of_multi hwriters.multi
  refine ⟨hwriters.policies, fun a ha b hb hne left hl right hr => ?_, ?_⟩
  · refine ⟨writers_differ hkeys ha hb hne hl hr, writers_differ hrefs ha hb hne hl hr, ?_⟩
    intro l hlmem r hrmem path hunder
    have hmem {n : NodeSpec} (hn : n ∈ definition.writers) :
        n ∈ (indexGraph definition).nodes.map Prod.snd ∧ n.writesWorkspace = true ∧
          n.nodeKind ≠ .merge := by
      obtain ⟨hnode, hwrites⟩ := List.mem_filter.mp hn
      rw [hp.specs]
      exact ⟨hnode, by simpa using hwrites⟩
    have hoverlap : pathsOverlap l r := hunder.1.overlap hunder.2
    cases writers_apart h (hmem ha).1 (hmem hb).1 (hmem ha).2 (hmem hb).2 hl hr
        (writers_differ hkeys ha hb hne hl hr) with
    | inl hnone =>
      have hfound := ownershipOverlap_iff.mpr ⟨l, hlmem, r, hrmem, hoverlap⟩
      rw [hnone] at hfound
      cases hfound
    | inr hnone =>
      have hfound := ownershipOverlap_iff.mpr ⟨r, hrmem, l, hlmem, hoverlap.symm⟩
      rw [hnone] at hfound
      cases hfound
  · obtain ⟨merge, hone⟩ := one_merge hwriters.multi
    have hmerge : definition.Merges merge := by
      rw [hp.merges_iff, hone]
      exact List.mem_singleton.mpr rfl
    refine ⟨merge, hmerge, fun other hother => ?_, fun writer hw => ?_⟩
    · rw [hp.merges_iff, hone] at hother
      exact List.mem_singleton.mp hother
    · obtain ⟨hmem, hkind, policy, hpolicy, hlists⟩ := hmerge
      obtain ⟨own, hown⟩ := Option.isSome_iff_exists.mp (hwriters.policies writer hw)
      refine nodeReaches_precedes (reaches_of_merges hwriters.merges (hp.specs.symm ▸ hmem) hkind
        hpolicy hw hown ?_)
      exact (hlists own.writerKey).mpr ⟨writer, hw, own, hown, rfl⟩

/-- A node that writes these paths. -/
def writerNode (id path : String) : NodeSpec :=
  { nodeId := id
    nodeKind := .agent
    idempotencyClass := .idempotent
    outputPorts := [{ name := "out" }]
    writesWorkspace := true
    writerPolicy := some
      { writerKey := id, isolationKind := .worktree, isolationRef := id, ownershipPaths := [path] }
    outputPorts_nodup := List.nodup_singleton _ }

/-- Two writers, and a merge for both. -/
def twoWriters : WorkflowDefinition :=
  { workflowId := "pair"
    nodes := [writerNode "a" "src/core", writerNode "b" "src/ui",
      { nodeId := "m"
        nodeKind := .merge
        inputPorts := [{ name := "in" }]
        mergePolicy := some { sourceWriterKeys := ["a", "b"] } }]
    edges := [
      { edgeId := "am", sourceNode := "a", sourcePort := "out", targetNode := "m", targetPort := "in" },
      { edgeId := "bm", sourceNode := "b", sourcePort := "out", targetNode := "m", targetPort := "in" }] }

theorem writers_isolated_two :
    (∃ compiled, compile twoWriters = .ok compiled) ∧ twoWriters.Isolated :=
  have hcompiled : compile twoWriters = .ok
      { definition := twoWriters
        entryNodeIds := ["a", "b"]
        topologicalNodeIds := ["a", "b", "m"]
        terminalNodeIds := ["m"]
        incomingEdgeIds := [("a", []), ("b", []), ("m", ["am", "bm"])]
        outgoingEdgeIds := [("a", ["am"]), ("b", ["bm"]), ("m", [])] } := rfl
  ⟨⟨_, hcompiled⟩, writers_isolated hcompiled (by decide)⟩

end Operant.Graph
