import Operant.Graph.Alone
import Operant.Graph.Analysis
import Operant.Graph.Keys

/-! What a loop starts over when it goes on.

Its body is what lies on the way from the targets of its loop-back edges to itself. The
source finds the way over all edges, the loop-back edges of other loops included, so a loop
inside the body of another one takes the outer body for its own.

`loop_touches_its_body`: a loop that goes on leaves every node outside its body alone,
exactly if no finished node outside lies on such a way or next to one, and the loop hands
nothing back to a node outside. -/
namespace Operant.Graph
open Operant.Python Operant.Calls Operant.Search Relation

variable {s : GraphStore} {backend : Backend}

/-! ### Going on, alone -/

/-- The first loop of `_unlock_loop_body`, for one row. -/
def restarted (nodeIds : List String) (row : NodeRun) : NodeRun :=
  if row.nodeId ∈ nodeIds ∧ row.status.isFinished = true then
    saved (fun row => row.nextOccurrence .pending) row
  else row

/-- `_ready_node_by_spec_id`, for the row of its node. -/
def readied (row : NodeRun) : NodeRun :=
  if row.status = .pending then
    saved (fun row => { row with status := .ready, activeAttemptId := none }) row
  else if row.status.isFinished = true then saved (fun row => row.nextOccurrence .ready) row
  else row

/-- What a target receives, for its row. -/
def handed (definition : WorkflowDefinition) (loop row : NodeRun) : NodeRun :=
  let refs := loopInputs definition loop.nodeId row.nodeId loop.outputRefs row.inputRefs
  if !refs.pyEq row.inputRefs then saved (fun row => { row with inputRefs := refs }) row else row

/-- The second loop of `_unlock_loop_body`, for one row. -/
def unlocked (definition : WorkflowDefinition) (loop : NodeRun) (targets : List String)
    (row : NodeRun) : NodeRun :=
  if row.nodeId ∈ targets then handed definition loop (readied row) else row

theorem restarted_keeps (nodeIds : List String) : KeepsNode (restarted nodeIds) := by
  intro row
  unfold restarted
  split <;> exact ⟨rfl, rfl⟩

theorem readied_keeps : KeepsNode readied := by
  intro row
  unfold readied
  split
  · exact ⟨rfl, rfl⟩
  · split <;> exact ⟨rfl, rfl⟩

theorem handed_keeps (definition : WorkflowDefinition) (loop : NodeRun) :
    KeepsNode (handed definition loop) := by
  intro row
  unfold handed
  dsimp only
  split <;> exact ⟨rfl, rfl⟩

theorem unlocked_keeps (definition : WorkflowDefinition) (loop : NodeRun) (targets : List String) :
    KeepsNode (unlocked definition loop targets) := by
  intro row
  unfold unlocked
  split
  · exact (handed_keeps definition loop).comp readied_keeps row
  · exact ⟨rfl, rfl⟩

theorem resetLoopNodes_run (h : s.Whole) {rows : List NodeRun} {nodeIds : List String}
    (hnodup : nodeIds.Nodup) (hrows : ∀ id ∈ nodeIds, bySpec rows id = bySpec s.nodeRuns id) :
    (resetLoopNodes rows nodeIds).run backend.exec s = (.ok (), s.mapRows (restarted nodeIds)) := by
  induction nodeIds generalizing s with
  | nil =>
    rw [mapRows_same fun row _ => by simp [restarted]]
    rfl
  | cons id rest ih =>
    obtain ⟨hid, hrest⟩ := List.nodup_cons.mp hnodup
    -- Whatever the row of `id` becomes, the rows of the rest are as they were.
    have hgo : ∀ {f : NodeRun → NodeRun}, KeepsNode f → (∀ row ∈ s.nodeRuns, row.nodeId ≠ id → f row = row) →
        (∀ row ∈ s.nodeRuns, restarted rest (f row) = restarted (id :: rest) row) →
        (resetLoopNodes rows rest).run backend.exec (s.mapRows f) =
          (.ok (), s.mapRows (restarted (id :: rest))) := by
      intro f hf hother hrow
      rw [ih (h.mapRows hf) hrest ?_, mapRows_mapRows, mapRows_congr hrow]
      intro other hmem
      rw [hrows other (List.mem_cons_of_mem _ hmem), mapRows_nodeRuns, bySpec_map hf]
      cases hfound : bySpec s.nodeRuns other with
      | none => rfl
      | some x =>
        obtain ⟨hx, hnode⟩ := bySpec_some hfound
        have hne : x.nodeId ≠ id := by
          rw [hnode]
          exact fun heq => hid (heq ▸ hmem)
        rw [Option.map_some, hother x hx hne]
    have hsame : (∀ row ∈ s.nodeRuns, row.nodeId = id → row.status.isFinished = false) →
        (resetLoopNodes rows rest).run backend.exec s =
          (.ok (), s.mapRows (restarted (id :: rest))) := by
      intro hleft
      have hmap : s.mapRows (fun row => row) = s := mapRows_same fun _ _ => rfl
      have hrun := hgo (f := fun row => row) (fun _ => ⟨rfl, rfl⟩) (fun _ _ _ => rfl) fun row hrow => by
        by_cases hnode : row.nodeId = id
        · simp [restarted, hleft row hrow hnode]
        · simp [restarted, hnode]
      rw [hmap] at hrun
      exact hrun
    rw [resetLoopNodes, hrows id (List.mem_cons_self ..)]
    cases hfound : bySpec s.nodeRuns id with
    | none =>
      refine hsame fun row hrow hnode => ?_
      rw [← hnode, h.bySpec hrow] at hfound
      cases hfound
    | some x =>
      obtain ⟨hx, hnode⟩ := bySpec_some hfound
      dsimp only
      by_cases hfinished : x.status.isFinished = true
      · have hf : KeepsNode fun row => row.nextOccurrence .pending := fun _ => ⟨rfl, rfl⟩
        have hsave := saveNode_run backend h hf hx .unlockLoopBody []
        rw [if_pos hfinished, Prog.run_of_bind hsave]
        show (resetLoopNodes rows rest).run backend.exec _ = _
        refine hgo (hf.saved.onNode x.nodeId) (fun row _ hne => onNode_other (hnode ▸ hne)) fun row hrow => ?_
        by_cases hself : row.nodeId = x.nodeId
        · have hrest' : x.nodeId ∉ rest := hnode ▸ hid
          rw [h.row_eq hrow hx hself, onNode_self]
          simp [restarted, hnode, hid, hfinished, saved, NodeRun.nextOccurrence]
        · rw [onNode_other hself]
          simp [restarted, hnode ▸ hself]
      · rw [if_neg hfinished]
        refine hsame fun row hrow hrowId => ?_
        rw [h.row_eq hrow hx (hrowId.trans hnode.symm)]
        exact Bool.not_eq_true _ ▸ hfinished

theorem listNodeRuns_run (backend : Backend) (s : GraphStore) {site : Site} :
    (listNodeRuns site).run backend.exec s = (.ok s.nodeRuns, s) := rfl

theorem readyNodeBySpecId_run (h : s.Whole) {x : NodeRun} (hx : x ∈ s.nodeRuns) :
    (readyNodeBySpecId x.nodeId).run backend.exec s = (.ok (), s.mapRows (onNode x.nodeId readied)) := by
  have hrow : ∀ {f : NodeRun → NodeRun}, f x = readied x →
      s.mapRows (onNode x.nodeId f) = s.mapRows (onNode x.nodeId readied) := by
    intro f hf
    refine mapRows_congr fun row hmem => ?_
    by_cases hself : row.nodeId = x.nodeId
    · rw [h.row_eq hmem hx hself, onNode_self, onNode_self, hf]
    · rw [onNode_other hself, onNode_other hself]
  rw [readyNodeBySpecId, Prog.run_of_bind (listNodeRuns_run backend s), h.bySpec hx]
  dsimp only
  by_cases hpending : x.status = .pending
  · have hf : KeepsNode fun row => { row with status := .ready, activeAttemptId := none } :=
      fun _ => ⟨rfl, rfl⟩
    rw [if_pos hpending, Prog.run_of_bind (saveNode_run backend h hf hx .readyNodeBySpecId []),
      hrow (by rw [readied, if_pos hpending])]
    rfl
  · rw [if_neg hpending]
    by_cases hfinished : x.status.isFinished = true
    · have hf : KeepsNode fun row => row.nextOccurrence .ready := fun _ => ⟨rfl, rfl⟩
      rw [if_pos hfinished, Prog.run_of_bind (saveNode_run backend h hf hx .readyNodeBySpecId []),
        hrow (by rw [readied, if_neg hpending, if_pos hfinished])]
      rfl
    · rw [if_neg hfinished, ← hrow (f := fun row => row)
        (by rw [readied, if_neg hpending, if_neg hfinished]), mapRows_same fun row _ => ?_]
      · rfl
      · unfold onNode
        split <;> rfl

theorem unlockTargets_run (h : s.Whole) {definition : WorkflowDefinition} {loop : NodeRun}
    {targets : List String} (hnodup : targets.Nodup)
    (hrows : ∀ target ∈ targets, ∃ x ∈ s.nodeRuns, x.nodeId = target) :
    (unlockTargets definition loop targets).run backend.exec s =
      (.ok (), s.mapRows (unlocked definition loop targets)) := by
  induction targets generalizing s with
  | nil =>
    rw [mapRows_same fun row _ => by simp [unlocked]]
    rfl
  | cons target rest ih =>
    obtain ⟨htarget, hrest⟩ := List.nodup_cons.mp hnodup
    obtain ⟨x, hx, rfl⟩ := hrows target (List.mem_cons_self ..)
    have hready : KeepsNode (onNode x.nodeId readied) := readied_keeps.onNode x.nodeId
    have hdeliver := (handed_keeps definition loop).onNode x.nodeId
    have hfound : bySpec (s.mapRows (onNode x.nodeId readied)).nodeRuns x.nodeId = some (readied x) := by
      rw [mapRows_nodeRuns, bySpec_map hready, h.bySpec hx, Option.map_some, onNode_self]
    have hnode : (readied x).nodeId = x.nodeId := (readied_keeps x).2
    -- What the target is handed, where it is handed anything new.
    have hgo : (unlockTargets definition loop rest).run backend.exec
        ((s.mapRows (onNode x.nodeId readied)).mapRows (onNode x.nodeId (handed definition loop))) =
          (.ok (), s.mapRows (unlocked definition loop (x.nodeId :: rest))) := by
      rw [ih ((h.mapRows hready).mapRows hdeliver) hrest ?_, mapRows_mapRows, mapRows_mapRows]
      · congr 1
        refine mapRows_congr fun row hmem => ?_
        by_cases hself : row.nodeId = x.nodeId
        · rw [h.row_eq hmem hx hself, onNode_self, ← hnode, onNode_self, unlocked,
            (handed_keeps definition loop _).2, hnode, if_neg htarget, unlocked,
            if_pos (List.mem_cons_self ..)]
        · rw [onNode_other hself, onNode_other hself]
          simp [unlocked, hself]
      · intro other hmem
        obtain ⟨y, hy, rfl⟩ := hrows other (List.mem_cons_of_mem _ hmem)
        refine ⟨_, List.mem_map_of_mem (List.mem_map_of_mem hy), ?_⟩
        rw [(hdeliver _).2, (hready _).2]
    rw [unlockTargets, Prog.run_of_bind (readyNodeBySpecId_run h hx),
      Prog.run_of_bind (listNodeRuns_run backend _), hfound]
    have hmem : readied x ∈ (s.mapRows (onNode x.nodeId readied)).nodeRuns := by
      rw [mapRows_nodeRuns]
      have hmapped := List.mem_map_of_mem (f := onNode x.nodeId readied) hx
      rw [onNode_self] at hmapped
      exact hmapped
    have hsaved : ∀ {f : NodeRun → NodeRun}, f (readied x) = handed definition loop (readied x) →
        (s.mapRows (onNode x.nodeId readied)).mapRows (onNode x.nodeId f) =
          (s.mapRows (onNode x.nodeId readied)).mapRows (onNode x.nodeId (handed definition loop)) := by
      intro f hf
      refine mapRows_congr fun row hrow => ?_
      by_cases hself : row.nodeId = x.nodeId
      · rw [(h.mapRows hready).row_eq hrow hmem (hself.trans hnode.symm), ← hnode, onNode_self,
          onNode_self, hf]
      · rw [onNode_other hself, onNode_other hself]
    dsimp only
    split
    · rename_i hnew
      have hf : KeepsNode fun row =>
          { row with inputRefs := loopInputs definition loop.nodeId x.nodeId loop.outputRefs (readied x).inputRefs } :=
        fun _ => ⟨rfl, rfl⟩
      have hsave := saveNode_run backend (h.mapRows hready) hf hmem .unlockLoopBody []
      rw [Prog.run_of_bind hsave, hnode, hsaved ?_]
      · exact hgo
      · simp [handed, hnode, hnew, saved]
    · rename_i hsame
      have hleft : s.mapRows (onNode x.nodeId readied) =
          (s.mapRows (onNode x.nodeId readied)).mapRows (onNode x.nodeId (handed definition loop)) := by
        rw [← hsaved (f := fun row => row) (by simp [handed, hnode, hsame])]
        refine (mapRows_same fun row _ => ?_).symm
        unfold onNode
        split <;> rfl
      show (unlockTargets definition loop rest).run backend.exec _ = _
      rw [hleft]
      exact hgo

/-! ### Targets -/

variable {definition : WorkflowDefinition} {loopId nodeId : String}

theorem loopTargets_nodup : (definition.loopTargets loopId).Nodup := by
  unfold WorkflowDefinition.loopTargets
  dsimp only
  split <;> exact List.nodup_dedup _

theorem edge_of_loopTargets (h : nodeId ∈ definition.loopTargets loopId) :
    ∃ edge ∈ definition.edges, edge.sourceNode = loopId ∧ edge.targetNode = nodeId := by
  unfold WorkflowDefinition.loopTargets at h
  dsimp only at h
  split at h
  · obtain ⟨edge, hedge, rfl⟩ := List.mem_map.mp (List.mem_dedup.mp h)
    obtain ⟨hmem, hsource⟩ := List.mem_filter.mp hedge
    exact ⟨edge, hmem, of_decide_eq_true hsource, rfl⟩
  · obtain ⟨edge, hedge, rfl⟩ := List.mem_map.mp (List.mem_dedup.mp h)
    obtain ⟨hmem, hsource⟩ := List.mem_filter.mp hedge
    exact ⟨edge, hmem, of_decide_eq_true (Bool.and_eq_true_iff.mp hsource).1, rfl⟩

/-- A loop-back edge goes from the loop to a node. -/
def WorkflowDefinition.HandsBack (definition : WorkflowDefinition) (loopId nodeId : String) : Prop :=
  ∃ edge ∈ definition.edges, edge.loopBack = true ∧ edge.sourceNode = loopId ∧ edge.targetNode = nodeId

theorem mem_loopTargets (h : definition.hasBackEdge loopId = true) :
    nodeId ∈ definition.loopTargets loopId ↔ definition.HandsBack loopId nodeId := by
  have hback : ¬(definition.edges.filter fun edge =>
      edge.sourceNode = loopId && edge.loopBack).isEmpty = true := by
    obtain ⟨edge, hedge, hloop⟩ := List.any_eq_true.mp h
    rw [List.isEmpty_iff]
    exact List.ne_nil_of_mem (List.mem_filter.mpr ⟨hedge, hloop⟩)
  unfold WorkflowDefinition.loopTargets WorkflowDefinition.HandsBack
  dsimp only
  rw [if_neg hback, List.mem_dedup, List.mem_map]
  constructor
  · rintro ⟨edge, hedge, rfl⟩
    obtain ⟨hmem, hloop⟩ := List.mem_filter.mp hedge
    obtain ⟨hsource, hloop⟩ := Bool.and_eq_true_iff.mp hloop
    exact ⟨edge, hmem, hloop, of_decide_eq_true hsource, rfl⟩
  · rintro ⟨edge, hmem, hloop, hsource, htarget⟩
    exact ⟨edge, List.mem_filter.mpr ⟨hmem, by simp [hloop, hsource]⟩, htarget⟩

/-- `_unlock_loop_body` does all it sets out to do. -/
theorem unlockLoopBody_run (backend : Backend) (h : s.Whole) (hid : s.run.workflowDefinitionId = s.definition.workflowId)
    (hversion : s.run.workflowDefinitionVersion = s.definition.version) {loop : NodeRun}
    (hloop : loop ∈ s.nodeRuns) :
    (unlockLoopBody loop.nodeId).run backend.exec s =
      (.ok (), (s.mapRows (restarted (s.definition.resetNodes loop.nodeId))).mapRows
        (unlocked s.definition loop (s.definition.loopTargets loop.nodeId))) := by
  have hresets : (s.definition.resetNodes loop.nodeId).Nodup :=
    (List.perm_insertionSort ..).nodup_iff.mpr (List.nodup_dedup _)
  have hkeeps := restarted_keeps (s.definition.resetNodes loop.nodeId)
  have hexists : ∀ target ∈ s.definition.loopTargets loop.nodeId,
      ∃ x ∈ (s.mapRows (restarted (s.definition.resetNodes loop.nodeId))).nodeRuns, x.nodeId = target := by
    intro target hmem
    obtain ⟨edge, hedge, -, rfl⟩ := edge_of_loopTargets hmem
    obtain ⟨_, node, _, _, _, hnode, _⟩ := h.compiled.edge edge hedge
    exact (h.mapRows hkeeps).row (List.mem_map.mpr ⟨node, node?_some hnode⟩)
  have hreset : (resetLoopNodes s.nodeRuns (s.definition.resetNodes loop.nodeId)).run backend.exec s =
      (.ok (), s.mapRows (restarted (s.definition.resetNodes loop.nodeId))) :=
    resetLoopNodes_run h hresets fun _ _ => rfl
  unfold unlockLoopBody
  show (getDefinition s.run.workflowDefinitionId s.run.workflowDefinitionVersion >>= _).run
    backend.exec s = _
  rw [hid, hversion, Prog.run_of_bind (getDefinition_run backend s)]
  show (resetLoopNodes s.nodeRuns (s.definition.resetNodes loop.nodeId) >>= _).run backend.exec s = _
  rw [Prog.run_of_bind hreset, h.bySpec hloop]
  exact unlockTargets_run (h.mapRows hkeeps) loopTargets_nodup hexists

/-- What is left when a loop with loop-back edges has gone on. -/
structure GoesOn (s s' : GraphStore) (node : NodeRun) (f : NodeRun → NodeRun) : Prop where
  row : node ∈ s.nodeRuns
  keeps : KeepsNode f
  pending : (f node).status = .pending
  back : s.definition.hasBackEdge node.nodeId = true
  left : s' = ((s.mapRows (onNode node.nodeId f)).mapRows
    (restarted (s.definition.resetNodes node.nodeId))).mapRows
      (unlocked s.definition (f node) (s.definition.loopTargets node.nodeId))

theorem saveAdvanced_run (h : s.Whole) {node : NodeRun} (hnode : node ∈ s.nodeRuns) {step : LoopStep}
    {repeats : Nat} {status : NodeRunStatus} {outputs : Refs} {k : NodeRun → GraphProg NodeRun}
    {left : Except GraphError NodeRun × GraphStore}
    (hrun : (saveNode .advanceLoop node (node.advanced step repeats status outputs) >>= k).run
      backend.exec s = left) :
    (k (saved (fun x => x.advanced step repeats status outputs) node)).run backend.exec
      (s.mapRows (onNode node.nodeId (saved fun x => x.advanced step repeats status outputs))) = left := by
  have hf : KeepsNode fun x => x.advanced step repeats status outputs := fun _ => ⟨rfl, rfl⟩
  rw [Prog.run_of_bind (saveNode_run backend h hf hnode .advanceLoop [])] at hrun
  exact hrun

theorem advanceLoop_goesOn (h : s.Whole) {rounds : Nat} {step : LoopStep} {row : NodeRun}
    {s' : GraphStore} (hrun : (advanceLoop rounds step).run backend.exec s = (.ok row, s'))
    (hpending : row.status = .pending) :
    ∃ node f, row = f node ∧ GoesOn s s' node f := by
  unfold advanceLoop at hrun
  obtain ⟨usage, s₁, hread, hafter⟩ := Prog.run_bind_ok hrun
  clear hrun
  obtain ⟨-, rfl⟩ := Prog.run_lift_ok hread
  obtain ⟨node, s₂, hread, hrun⟩ := Prog.run_bind_ok hafter
  clear hafter
  obtain ⟨hnode, rfl⟩ := getNodeRun_ok hread
  obtain ⟨_, s₃, hread, hafter⟩ := Prog.run_bind_ok hrun
  clear hrun
  obtain rfl := requireRunningRun_ok hread
  obtain ⟨⟨_, spec⟩, s₄, hread, hrun⟩ := Prog.run_bind_ok hafter
  clear hafter
  obtain ⟨hid, hversion, hspec, rfl⟩ := definitionAndNode_ok hread
  obtain ⟨-, hspecId⟩ := node?_some hspec
  dsimp only at hrun hspecId
  split at hrun
  · cases hrun
  · rename_i policy hpolicy
    split at hrun
    · cases hrun
    · obtain ⟨_, s₅, hread, hafter⟩ := Prog.run_bind_ok hrun
      clear hrun
      obtain ⟨-, rfl⟩ := Prog.run_lift_ok hread
      obtain ⟨_, s₆, hread, hrun⟩ := Prog.run_bind_ok hafter
      clear hafter
      obtain ⟨-, rfl⟩ := Prog.run_lift_ok hread
      generalize (if node.noProgressSignature = some step.progressSignature then
        node.noProgressRepeats + 1 else 0) = repeats at hrun
      generalize limitReasons policy usage step.continueLoop (node.iteration + 1) repeats = reasons at hrun
      -- A loop that leaves does not return a row that is pending.
      split at hrun
      · have hsettle := saveAdvanced_run h hnode hrun
        obtain ⟨_, s₇, -, hreturn⟩ := Prog.run_bind_ok hsettle
        cases hreturn
        cases hpending
      · split at hrun
        · have hsettle := saveAdvanced_run h hnode hrun
          obtain ⟨_, s₇, -, hreturn⟩ := Prog.run_bind_ok hsettle
          cases hreturn
          cases hpending
        · obtain ⟨_, s₇, hread, hafter⟩ := Prog.run_bind_ok hrun
          clear hrun
          obtain ⟨rfl, rfl⟩ := getRun_ok hread
          obtain ⟨_, s₈, hread, hrun⟩ := Prog.run_bind_ok hafter
          clear hafter
          obtain ⟨rfl, rfl⟩ := getRun_ok hread
          obtain ⟨definition, s₉, hread, hafter⟩ := Prog.run_bind_ok hrun
          clear hrun
          obtain ⟨-, -, rfl, rfl⟩ := getDefinition_ok hread
          have hunlock := saveAdvanced_run h hnode hafter
          clear hafter
          obtain ⟨_, s₁₀, hunlocked, hreturn⟩ := Prog.run_bind_ok hunlock
          clear hunlock
          have hback : s₉.definition.hasBackEdge spec.nodeId = true := by
            cases hreturn
            by_contra hnone
            rw [if_neg hnone] at hpending
            cases hpending
          rw [if_pos hback] at hunlocked hreturn
          have hf : KeepsNode (saved fun x => x.advanced step repeats .pending step.outputRefs) :=
            fun _ => ⟨rfl, rfl⟩
          have hloop := List.mem_map_of_mem
            (f := onNode node.nodeId (saved fun x => x.advanced step repeats .pending step.outputRefs)) hnode
          rw [onNode_self] at hloop
          rw [hspecId] at hback hunlocked
          have hrun := unlockLoopBody_run backend (h.mapRows (hf.onNode node.nodeId)) hid hversion hloop
          obtain rfl : _ = s₁₀ := (Prod.ext_iff.mp (hrun.symm.trans hunlocked)).2
          cases hreturn
          exact ⟨node, _, rfl, hnode, hf, rfl, hback, rfl⟩

/-! ### What is restarted -/

/-- On the way from a target of the loop back to the loop. -/
def WorkflowDefinition.InBody (definition : WorkflowDefinition) (loopId nodeId : String) : Prop :=
  ∃ target, definition.HandsBack loopId target ∧ ReflTransGen definition.Precedes target nodeId ∧
    ReflTransGen definition.Precedes nodeId loopId

/-- In the body of the loop, or behind it. -/
def WorkflowDefinition.FollowsBody (definition : WorkflowDefinition) (loopId nodeId : String) : Prop :=
  ∃ inner, definition.InBody loopId inner ∧ ReflTransGen definition.Precedes inner nodeId

/-- The same over all edges, which is where the source looks. -/
def WorkflowDefinition.OnCycle (definition : WorkflowDefinition) (loopId nodeId : String) : Prop :=
  ∃ target, definition.HandsBack loopId target ∧ ReflTransGen definition.Connects target nodeId ∧
    ReflTransGen definition.Connects nodeId loopId

/-- On such a way, one edge away from one, or a target. -/
def WorkflowDefinition.Restarts (definition : WorkflowDefinition) (loopId nodeId : String) : Prop :=
  definition.OnCycle loopId nodeId ∨ (∃ near, definition.OnCycle loopId near ∧ definition.Connects near nodeId) ∨
    definition.HandsBack loopId nodeId

theorem mem_successors {a b : String} : b ∈ definition.successors a ↔ definition.Connects a b := by
  simp [WorkflowDefinition.successors, WorkflowDefinition.Connects, and_assoc]

theorem mem_predecessors {a b : String} : a ∈ definition.predecessors b ↔ definition.Connects a b := by
  simp only [WorkflowDefinition.predecessors, WorkflowDefinition.Connects, List.mem_map, List.mem_filter,
    decide_eq_true_eq]
  constructor
  · rintro ⟨edge, ⟨hedge, htarget⟩, hsource⟩
    exact ⟨edge, hedge, hsource, htarget⟩
  · rintro ⟨edge, hedge, hsource, htarget⟩
    exact ⟨edge, ⟨hedge, htarget⟩, hsource⟩

theorem mem_loopCycleNodes (h : definition.hasBackEdge loopId = true) :
    nodeId ∈ definition.loopCycleNodes loopId (definition.loopTargets loopId) ↔
      definition.OnCycle loopId nodeId := by
  have hforth : ∀ a, ∀ b ∈ definition.successors a, b ∈ definition.edges.map EdgeSpec.targetNode := by
    intro a b hb
    obtain ⟨edge, hedge, -, rfl⟩ := mem_successors.mp hb
    exact List.mem_map_of_mem hedge
  have hback : ∀ b, ∀ a ∈ definition.predecessors b, a ∈ definition.edges.map EdgeSpec.sourceNode := by
    intro b a ha
    obtain ⟨edge, hedge, rfl, -⟩ := mem_predecessors.mp ha
    exact List.mem_map_of_mem hedge
  have hnext : Next definition.successors = definition.Connects := by
    funext a b
    exact propext mem_successors
  have hprevious : Next definition.predecessors = Function.swap definition.Connects := by
    funext b a
    exact propext mem_predecessors
  have hreached := mem_spread_start hforth (definition.loopTargets loopId)
    ((definition.loopTargets loopId).length + definition.edges.length) (by simp) nodeId
  have hreaches := mem_spread_start hback [loopId] (1 + definition.edges.length) (by simp) nodeId
  unfold WorkflowDefinition.loopCycleNodes
  dsimp only
  rw [List.mem_filter, decide_eq_true_eq, hreached, hreaches]
  unfold Reaches WorkflowDefinition.OnCycle
  rw [hnext, hprevious]
  constructor
  · rintro ⟨⟨target, htarget, hto⟩, _, hloop, hfrom⟩
    rw [List.mem_singleton] at hloop
    exact ⟨target, (mem_loopTargets h).mp htarget, hto, reflTransGen_swap.mp (hloop ▸ hfrom)⟩
  · rintro ⟨target, htarget, hto, hfrom⟩
    exact ⟨⟨target, (mem_loopTargets h).mpr htarget, hto⟩, loopId, List.mem_cons_self .., reflTransGen_swap.mpr hfrom⟩

theorem mem_resetNodes (h : definition.hasBackEdge loopId = true) :
    nodeId ∈ definition.resetNodes loopId ∨ nodeId ∈ definition.loopTargets loopId ↔
      definition.Restarts loopId nodeId := by
  have hbranch : nodeId ∈ definition.branchTargets
      (definition.loopCycleNodes loopId (definition.loopTargets loopId)) ↔
      (∃ near, definition.OnCycle loopId near ∧ definition.Connects near nodeId) ∧
        ¬definition.OnCycle loopId nodeId := by
    simp only [WorkflowDefinition.branchTargets, List.mem_dedup, List.mem_map, List.mem_filter,
      Bool.and_eq_true, decide_eq_true_eq, mem_loopCycleNodes h]
    constructor
    · rintro ⟨edge, ⟨hedge, hnear, hnot⟩, rfl⟩
      exact ⟨⟨edge.sourceNode, hnear, edge, hedge, rfl, rfl⟩, hnot⟩
    · rintro ⟨⟨near, hnear, edge, hedge, rfl, rfl⟩, hnot⟩
      exact ⟨edge, ⟨hedge, hnear, hnot⟩, rfl⟩
  unfold WorkflowDefinition.resetNodes WorkflowDefinition.Restarts
  simp only [List.mem_insertionSort, List.mem_dedup, List.mem_append, List.mem_filter,
    decide_eq_true_eq, hbranch, mem_loopCycleNodes h, mem_loopTargets h]
  by_cases hcycle : definition.OnCycle loopId nodeId
  · by_cases hhanded : definition.HandsBack loopId nodeId
    · simp [hhanded]
    · simp [hcycle, hhanded]
  · simp [hcycle]

/-! ### Which rows change -/

/-- A row that is as it was, up to what it receives. -/
def NodeRun.Keeps (x y : NodeRun) : Prop :=
  y.status = x.status ∧ y.outputRefs = x.outputRefs ∧ y.iteration = x.iteration

theorem handed_row (definition : WorkflowDefinition) (loop row : NodeRun) :
    row.Keeps (handed definition loop row) := by
  unfold handed
  dsimp only
  split <;> exact ⟨rfl, rfl, rfl⟩

theorem unlocked_row (loop : NodeRun) {x : NodeRun} {nodeIds targets : List String} :
    x.Keeps (unlocked definition loop targets (restarted nodeIds x)) ↔
      (x.status.isFinished = true → ¬(x.nodeId ∈ nodeIds ∨ x.nodeId ∈ targets)) ∧
        (x.status = .pending → x.nodeId ∉ targets) := by
  have hnode : (restarted nodeIds x).nodeId = x.nodeId := (restarted_keeps nodeIds x).2
  obtain ⟨hstatus, houtputs, hiteration⟩ := handed_row definition loop (readied (restarted nodeIds x))
  unfold unlocked NodeRun.Keeps
  rw [hnode]
  by_cases hfinished : x.status.isFinished = true
  · have hpending : x.status ≠ .pending := fun heq => by simp [heq, NodeRunStatus.isFinished] at hfinished
    by_cases hreset : x.nodeId ∈ nodeIds
    · have hrestarted : restarted nodeIds x = saved (fun row => row.nextOccurrence .pending) x :=
        if_pos ⟨hreset, hfinished⟩
      by_cases htarget : x.nodeId ∈ targets
      · rw [if_pos htarget, hiteration, hrestarted]
        simp [readied, saved, NodeRun.nextOccurrence, hfinished, hreset]
      · rw [if_neg htarget, hrestarted]
        simp [saved, NodeRun.nextOccurrence, hfinished, hreset]
    · have hsame : restarted nodeIds x = x := if_neg fun h => hreset h.1
      by_cases htarget : x.nodeId ∈ targets
      · rw [if_pos htarget, hiteration, hsame]
        simp [readied, saved, NodeRun.nextOccurrence, hfinished, hpending, htarget]
      · rw [if_neg htarget, hsame]
        simp [hreset, htarget]
  · have hsame : restarted nodeIds x = x := if_neg fun h => hfinished h.2
    by_cases htarget : x.nodeId ∈ targets
    · rw [if_pos htarget, hstatus, houtputs, hiteration, hsame]
      by_cases hpending : x.status = .pending
      · simp [readied, saved, hpending, htarget]
      · simp [readied, hpending, hfinished]
    · rw [if_neg htarget, hsame]
      simp [htarget, hfinished]

/-- A loop leaves alone all that is neither in its body nor behind it, and what is there is
only started over where it is finished, or made ready where it waits for the loop. -/
def GraphStore.KeepsOutside (s s' : GraphStore) (loopId : String) : Prop :=
  s'.attempts = s.attempts ∧ ∀ x ∈ s.nodeRuns, x.nodeId ≠ loopId →
    (s.definition.FollowsBody loopId x.nodeId ∧
      (x.status.isFinished = true ∨ x.status = .pending ∧ s.definition.HandsBack loopId x.nodeId)) ∨
    ∃ y ∈ s'.nodeRuns, y.id = x.id ∧ x.Keeps y

/-- Outside the body, no finished node lies where the source restarts nodes, and no pending
one is handed anything back. -/
def GraphStore.BodyApart (s : GraphStore) (loopId : String) : Prop :=
  ∀ x ∈ s.nodeRuns, x.nodeId ≠ loopId → ¬s.definition.FollowsBody loopId x.nodeId →
    (x.status.isFinished = true → ¬s.definition.Restarts loopId x.nodeId) ∧
      (x.status = .pending → ¬s.definition.HandsBack loopId x.nodeId)

theorem GoesOn.keepsOutside_iff {s s' : GraphStore} {node : NodeRun} {f : NodeRun → NodeRun}
    (h : GoesOn s s' node f) (hs : s.Whole) : s.KeepsOutside s' node.nodeId ↔ s.BodyApart node.nodeId := by
  -- What the loop leaves of the row of another node.
  let left (x : NodeRun) : NodeRun :=
    unlocked s.definition (f node) (s.definition.loopTargets node.nodeId)
      (restarted (s.definition.resetNodes node.nodeId) x)
  have hrow : ∀ x ∈ s.nodeRuns, x.nodeId ≠ node.nodeId → left x ∈ s'.nodeRuns ∧ (left x).id = x.id := by
    intro x hx hne
    have hmem := List.mem_map_of_mem
      (f := fun row => left (onNode node.nodeId f row)) hx
    rw [onNode_other hne] at hmem
    refine ⟨?_, ((unlocked_keeps _ _ _).comp (restarted_keeps _) x).1⟩
    rw [h.left, mapRows_mapRows, mapRows_mapRows]
    exact hmem
  have hwhole : s'.Whole := by
    rw [h.left]
    exact ((hs.mapRows (h.keeps.onNode _)).mapRows (restarted_keeps _)).mapRows (unlocked_keeps _ _ _)
  have hkept : ∀ x ∈ s.nodeRuns, x.nodeId ≠ node.nodeId →
      ((∃ y ∈ s'.nodeRuns, y.id = x.id ∧ x.Keeps y) ↔
        (x.status.isFinished = true → ¬s.definition.Restarts node.nodeId x.nodeId) ∧
          (x.status = .pending → ¬s.definition.HandsBack node.nodeId x.nodeId)) := by
    intro x hx hne
    obtain ⟨hmem, hid⟩ := hrow x hx hne
    rw [← mem_resetNodes h.back, ← mem_loopTargets h.back, ← unlocked_row (f node)]
    constructor
    · rintro ⟨y, hy, hyid, hkeeps⟩
      rw [hwhole.keyed.row_eq hy hmem (hyid.trans hid.symm)] at hkeeps
      exact hkeeps
    · intro hkeeps
      exact ⟨_, hmem, hid, hkeeps⟩
  have hattempts : s'.attempts = s.attempts := by rw [h.left]; rfl
  constructor
  · rintro ⟨-, hall⟩ x hx hne houtside
    cases hall x hx hne with
    | inl hinside => exact absurd hinside.1 houtside
    | inr hkeeps => exact (hkept x hx hne).mp hkeeps
  · intro hapart
    refine ⟨hattempts, fun x hx hne => ?_⟩
    by_cases hinside : s.definition.FollowsBody node.nodeId x.nodeId
    · by_cases hmay : x.status.isFinished = true ∨ x.status = .pending ∧ s.definition.HandsBack node.nodeId x.nodeId
      · exact .inl ⟨hinside, hmay⟩
      · refine .inr ((hkept x hx hne).mpr ⟨fun hfinished => ?_, fun hpending hhanded => ?_⟩)
        · exact absurd (.inl hfinished) hmay
        · exact hmay (.inr ⟨hpending, hhanded⟩)
    · exact .inr ((hkept x hx hne).mpr (hapart x hx hne hinside))

/-- What follows the body is closed under the edges that are no loop-back edges. -/
theorem follows_closed {S : String → Prop} (hback : ∀ target, definition.HandsBack loopId target → S target)
    (hforth : ∀ edge ∈ definition.edges, edge.loopBack = false → S edge.sourceNode → S edge.targetNode)
    (h : definition.FollowsBody loopId nodeId) : S nodeId := by
  obtain ⟨inner, ⟨target, htarget, hto, -⟩, hfrom⟩ := h
  have hall := hto.trans hfrom
  clear hto hfrom
  induction hall with
  | refl => exact hback target htarget
  | tail _ hstep ih =>
    obtain ⟨edge, hedge, hloop, rfl, rfl⟩ := hstep
    exact hforth edge hedge hloop ih

theorem after_definition {backend : Backend} {args : RunRequest} {start : GraphStore}
    (hcreate : createRun args = .ok start) (moves : List (Move (Nat × Op))) :
    (after backend start moves).definition = start.definition :=
  (played_recorded backend (createRun_keyed hcreate) moves).definition

/-- An action is started and done. -/
def actionDone (nodeRunId attemptId port : String) : List (Move (Nat × Op)) :=
  [.start (0, .startAttempt { nodeRunId, attemptId, idempotencyKey := some attemptId })] ++ steps 0 9 ++
    [.start (6, .completeAttempt
      { attemptId, succeeded := true, outputRefs := [(port, .bool true)] })] ++ steps 0 40

/-- The loop goes on. -/
def again (nodeRunId : String) : LoopStep :=
  { nodeRunId, continueLoop := true, progressSignature := "1" }

theorem loop_touches_its_body {backend : Backend} {args : RunRequest} {start : GraphStore}
    (hcreate : createRun args = .ok start) (moves : List (Move (Nat × Op))) {rounds : Nat}
    {step : LoopStep} {row : NodeRun}
    (hrun : ((advanceLoop rounds step).run backend.exec (after backend start moves)).1 = .ok row)
    (hpending : row.status = .pending) :
    (after backend start moves).KeepsOutside
        ((advanceLoop rounds step).run backend.exec (after backend start moves)).2 row.nodeId ↔
      (after backend start moves).BodyApart row.nodeId := by
  have hwhole : (after backend start moves).Whole :=
    (played_recorded backend (createRun_keyed hcreate) moves).whole (createRun_created hcreate)
  obtain ⟨node, f, rfl, hgoes⟩ := advanceLoop_goesOn hwhole (Prod.ext hrun rfl) hpending
  rw [(hgoes.keeps node).2]
  exact hgoes.keepsOutside_iff hwhole

theorem returned_row {r : Except GraphError NodeRun} {status : NodeRunStatus} {nodeId : String}
    (h : r.toOption.map (fun row => (row.status, row.nodeId)) = some (status, nodeId)) :
    ∃ row, r = .ok row ∧ row.status = status ∧ row.nodeId = nodeId := by
  cases r with
  | error e => cases h
  | ok row =>
    cases h
    exact ⟨row, rfl, rfl, rfl⟩

/-- The action of the loop is done. -/
def workDone : List (Move (Nat × Op)) :=
  [.start (0, .startRun 0)] ++ steps 0 3 ++ actionDone "work" "a" "done"

theorem redo_apart {s : GraphStore} (hdefinition : s.definition = redoWorkflow .idempotent)
    (hrows : ∀ x ∈ s.nodeRuns,
      x.nodeId = "check" ∨ x.nodeId = "work" ∨ x.nodeId = "stop" ∧ x.status = .pending) :
    s.BodyApart "check" := by
  intro x hx hne houtside
  rw [hdefinition] at houtside ⊢
  rcases hrows x hx with hself | hwork | ⟨hstop, hpend⟩
  · exact absurd hself hne
  · have hback : (redoWorkflow .idempotent).HandsBack "check" "work" :=
      ⟨_, .tail _ (.head _), rfl, rfl, rfl⟩
    have hforth : (redoWorkflow .idempotent).Precedes "work" "check" := ⟨_, .head _, rfl, rfl, rfl⟩
    rw [hwork] at houtside
    exact absurd ⟨"work", ⟨"work", hback, .refl, .single hforth⟩, .refl⟩ houtside
  · rw [hstop, hpend]
    refine ⟨fun hfinished => (nomatch hfinished), fun _ hback => ?_⟩
    obtain ⟨edge, hedge, hloop, -, htarget⟩ := hback
    have hnone : ∀ edge ∈ (redoWorkflow .idempotent).edges, edge.loopBack = true →
        edge.targetNode ≠ "stop" := by decide
    exact hnone edge hedge hloop htarget

/-- The loop takes back what it has to. -/
theorem loop_touches_its_body_redo :
    (after .sqlite (redoStore .idempotent) workDone).KeepsOutside
      ((advanceLoop 6 (again "check")).run Backend.sqlite.exec
        (after .sqlite (redoStore .idempotent) workDone)).2 "check" := by
  have hapart : (after .sqlite (redoStore .idempotent) workDone).BodyApart "check" :=
    redo_apart (after_definition redoStore_created.1 workDone) (by decide +kernel)
  obtain ⟨row, hrun, hpending, hcheck⟩ :
      ∃ row, ((advanceLoop 6 (again "check")).run Backend.sqlite.exec
        (after .sqlite (redoStore .idempotent) workDone)).1 = .ok row ∧ row.status = .pending ∧
          row.nodeId = "check" := returned_row (by decide +kernel)
  have htouches := loop_touches_its_body redoStore_created.1 workDone hrun hpending
  rw [hcheck] at htouches
  exact htouches.mpr hapart

/-! ### A loop around a loop -/

/-- `work` is done again until `inner` lets it be, and all of it until `outer` does. -/
def nestedWorkflow : WorkflowDefinition :=
  { workflowId := "nested"
    nodes :=
      [{ nodeId := "plan", nodeKind := .agent, inputPorts := [{ name := "again", required := false }],
         outputPorts := [{ name := "planned" }], inputPorts_nodup := again_nodup },
       { nodeId := "work", nodeKind := .agent,
         inputPorts := [{ name := "planned" }, { name := "again", required := false }],
         outputPorts := [{ name := "done" }], outputPorts_nodup := done_nodup },
       { nodeId := "inner", nodeKind := .loop, inputPorts := [{ name := "done" }],
         outputPorts :=
           [{ name := "again", required := false }, { name := "next", required := false },
            { name := "limit", required := false }],
         inputPorts_nodup := done_nodup, loopPolicy := some threeRounds, loopPolicy_kind := threeRounds_loops },
       { nodeId := "outer", nodeKind := .loop, inputPorts := [{ name := "next" }],
         outputPorts := [{ name := "again", required := false }, { name := "limit", required := false }]
         outputPorts_nodup := exits_nodup, loopPolicy := some threeRounds, loopPolicy_kind := threeRounds_loops },
       { nodeId := "stop", nodeKind := .agent,
         inputPorts := [{ name := "inner", required := false }, { name := "outer", required := false }] }]
    edges :=
      [{ edgeId := "planned", sourceNode := "plan", sourcePort := "planned", targetNode := "work",
         targetPort := "planned" },
       { edgeId := "done", sourceNode := "work", sourcePort := "done", targetNode := "inner",
         targetPort := "done" },
       { edgeId := "inner", sourceNode := "inner", sourcePort := "again", targetNode := "work",
         targetPort := "again", loopBack := true },
       { edgeId := "next", sourceNode := "inner", sourcePort := "next", targetNode := "outer",
         targetPort := "next" },
       { edgeId := "limit", sourceNode := "inner", sourcePort := "limit", targetNode := "stop",
         targetPort := "inner" },
       { edgeId := "outer", sourceNode := "outer", sourcePort := "again", targetNode := "plan",
         targetPort := "again", loopBack := true },
       { edgeId := "end", sourceNode := "outer", sourcePort := "limit", targetNode := "stop",
         targetPort := "outer" }]
    status := .published }

def nestedRequest : RunRequest := { definition := nestedWorkflow, runId := "run", nodeRunId := id }

def nestedStore : GraphStore :=
  { definition := nestedWorkflow
    run :=
      { id := "run", workflowDefinitionId := "nested", workflowDefinitionVersion := 1,
        budgetSnapshot := {} }
    nodeRuns :=
      [{ id := "plan", workflowRunId := "run", nodeId := "plan", status := .ready },
       { id := "work", workflowRunId := "run", nodeId := "work" },
       { id := "inner", workflowRunId := "run", nodeId := "inner" },
       { id := "outer", workflowRunId := "run", nodeId := "outer" },
       { id := "stop", workflowRunId := "run", nodeId := "stop" }] }

theorem nestedStore_created : createRun nestedRequest = .ok nestedStore := rfl

/-- Inside both loops the work is done. -/
def nestedDone : List (Move (Nat × Op)) :=
  [.start (0, .startRun 0)] ++ steps 0 3 ++ actionDone "plan" "a" "planned" ++ actionDone "work" "b" "done"

/-- The inner loop starts over what the outer loop has done before it. -/
theorem inner_loop_restarts_the_outer_body :
    ¬∀ (backend : Backend) (args : RunRequest) (start : GraphStore), createRun args = .ok start →
      ∀ (moves : List (Move (Nat × Op))) (rounds : Nat) (step : LoopStep) (row : NodeRun),
        ((advanceLoop rounds step).run backend.exec (after backend start moves)).1 = .ok row →
        row.status = .pending →
        (after backend start moves).KeepsOutside
          ((advanceLoop rounds step).run backend.exec (after backend start moves)).2 row.nodeId := by
  intro h
  obtain ⟨row, hrun, hpending, hinner⟩ :
      ∃ row, ((advanceLoop 6 (again "inner")).run Backend.sqlite.exec
        (after .sqlite nestedStore nestedDone)).1 = .ok row ∧ row.status = .pending ∧
          row.nodeId = "inner" := returned_row (by decide +kernel)
  obtain ⟨x, hx, hplan, hid, hdone⟩ : ∃ x ∈ (after .sqlite nestedStore nestedDone).nodeRuns,
      x.nodeId = "plan" ∧ x.id = "plan" ∧ x.status = .succeeded := by decide +kernel
  have hreset : ∀ y ∈ ((advanceLoop 6 (again "inner")).run Backend.sqlite.exec
      (after .sqlite nestedStore nestedDone)).2.nodeRuns, y.id = "plan" → y.status = .pending := by
    decide +kernel
  have hdefinition : (after .sqlite nestedStore nestedDone).definition = nestedWorkflow :=
    after_definition nestedStore_created nestedDone
  have hkeeps := (h .sqlite nestedRequest nestedStore nestedStore_created nestedDone 6 (again "inner") row
    hrun hpending).2 x hx (by rw [hplan, hinner]; decide)
  rw [hdefinition, hinner, hplan] at hkeeps
  rcases hkeeps with ⟨hfollows, -⟩ | ⟨y, hy, hyid, hstatus, -⟩
  · -- No edge but a loop-back edge of the outer loop goes to `plan`.
    have htargets : ∀ edge ∈ nestedWorkflow.edges, edge.targetNode = "plan" →
        edge.loopBack = true ∧ edge.sourceNode = "outer" := by decide
    refine follows_closed (S := fun id => id ≠ "plan") ?_ ?_ hfollows rfl
    · rintro target ⟨edge, hedge, -, hsource, rfl⟩ htarget
      rw [(htargets edge hedge htarget).2] at hsource
      exact absurd hsource (by decide)
    · intro edge hedge hloop _ htarget
      rw [(htargets edge hedge htarget).1] at hloop
      cases hloop
  · rw [hreset y hy (hyid.trans hid), hdone] at hstatus
    cases hstatus

end Operant.Graph
