import Operant.Graph.Alone
import Operant.Graph.Inputs
import Operant.Graph.Keys
import Operant.Search.Deciding

/-! Propagation decides what follows from the nodes that are settled.

A pass decides each pending node from the rows it has listed. That is a round of a steady
rule: an edge whose source is settled has its state for good, and no join takes back what it
has said. So the passes end with the least statuses that obey the rule, in whatever order the
rows are listed.

Two things spoil this. A condition that raises ends the propagation, and a list that grows
in place while inputs are collected changes what later conditions of the pass are about.
`propagation_settles`: without the two, propagation does all it should. -/
namespace Operant.Graph
open Operant.Python Operant.Calls Operant.Search

/-! ### The rule -/

/-- `_edge_state` for a source with this status and these outputs. -/
def sourceState (definition : WorkflowDefinition) (input : Refs) (status : NodeRunStatus)
    (outputs : Refs) (edge : EdgeSpec) : Except PyError EdgeState :=
  match status with
  | .succeeded => match definition.node? edge.sourceNode with
    | none => .error .stopIteration
    | some spec => succeededState spec outputs (input.merge outputs) edge
  | .skipped => match definition.node? edge.sourceNode with
    | none => .error .stopIteration
    | some spec => skippedState spec outputs (input.merge outputs) edge
  | .failed | .cancelled | .manualReconcileRequired => .ok .disabled
  | .pending | .ready | .running | .waitingApproval | .waitingInput | .waiting | .retryWait =>
    .ok .unresolved

/-- The state of an edge, where some nodes are not decided yet. -/
def edgeKnown (definition : WorkflowDefinition) (input : Refs) (outputs : String → Refs)
    (known : String → Option NodeRunStatus) (edge : EdgeSpec) : EdgeState :=
  match known edge.sourceNode with
  | none => .unresolved
  | some status => match sourceState definition input status (outputs edge.sourceNode) edge with
    | .ok state => state
    | .error _ => .unresolved

def JoinDecision.status? : JoinDecision → Option NodeRunStatus
  | .ready => some .ready
  | .skipped => some .skipped
  | .undecided => none

/-- What the states of its edges make of a node. -/
def propagationRule (definition : WorkflowDefinition) (input : Refs) (outputs : String → Refs)
    (known : String → Option NodeRunStatus) (nodeId : String) : Option NodeRunStatus :=
  match definition.incoming nodeId, definition.node? nodeId with
  | first :: others, some spec =>
    (joinDecision spec first.joinMode
      ((first :: others).map (edgeKnown definition input outputs known))).status?
  | _, _ => none

section
variable {definition : WorkflowDefinition} {input : Refs} {outputs : String → Refs}
  {known more : String → Option NodeRunStatus}

theorem edgeKnown_steady (h : Extends known more) (edge : EdgeSpec) :
    edgeKnown definition input outputs known edge = .unresolved ∨
      edgeKnown definition input outputs known edge = edgeKnown definition input outputs more edge := by
  unfold edgeKnown
  cases hk : known edge.sourceNode with
  | none => exact .inl rfl
  | some status =>
    rw [h _ _ hk]
    exact .inr rfl

/-- No join takes back what it has said. -/
theorem joinDecision_steady (spec : NodeSpec) (mode : JoinMode) {edges : List EdgeSpec}
    {before after : EdgeSpec → EdgeState}
    (h : ∀ edge, before edge = .unresolved ∨ before edge = after edge)
    (hdecided : joinDecision spec mode (edges.map before) ≠ .undecided) :
    joinDecision spec mode (edges.map after) = joinDecision spec mode (edges.map before) := by
  have hactive : .active ∈ edges.map before → .active ∈ edges.map after := by
    intro hmem
    obtain ⟨edge, hedge, heq⟩ := List.mem_map.mp hmem
    rcases h edge with hnone | hsame
    · rw [hnone] at heq
      cases heq
    · exact List.mem_map.mpr ⟨edge, hedge, hsame ▸ heq⟩
  have hdisabled : .disabled ∈ edges.map before → .disabled ∈ edges.map after := by
    intro hmem
    obtain ⟨edge, hedge, heq⟩ := List.mem_map.mp hmem
    rcases h edge with hnone | hsame
    · rw [hnone] at heq
      cases heq
    · exact List.mem_map.mpr ⟨edge, hedge, hsame ▸ heq⟩
  have hresolved : .unresolved ∉ edges.map before → edges.map after = edges.map before := by
    intro hnone
    refine List.map_congr_left fun edge hedge => ?_
    rcases h edge with hunresolved | hsame
    · exact absurd (List.mem_map.mpr ⟨edge, hedge, hunresolved⟩) hnone
    · exact hsame.symm
  by_cases hall : .unresolved ∈ edges.map before
  · -- While an edge is unresolved, only an active or a disabled one can have decided.
    cases mode with
    | any =>
      by_cases ha : .active ∈ edges.map before
      · simp [joinDecision, ha, hactive ha]
      · simp [joinDecision, ha, hall] at hdecided
    | all =>
      by_cases hjoin : spec.nodeKind = .join
      · simp [joinDecision, hjoin, hall] at hdecided
      · by_cases hd : .disabled ∈ edges.map before
        · simp [joinDecision, hjoin, hd, hdisabled hd]
        · simp [joinDecision, hjoin, hd, hall] at hdecided
  · rw [hresolved hall]

theorem propagationRule_steady (definition : WorkflowDefinition) (input : Refs) (outputs : String → Refs) :
    Steady (propagationRule definition input outputs) := by
  intro known more h nodeId status hrule
  unfold propagationRule at hrule ⊢
  split at hrule
  · rename_i first others spec hincoming hspec
    have hdecided : joinDecision spec first.joinMode
        ((first :: others).map (edgeKnown definition input outputs known)) ≠ .undecided := by
      intro hnone
      rw [hnone] at hrule
      cases hrule
    rw [joinDecision_steady spec first.joinMode (edgeKnown_steady h) hdecided]
    exact hrule
  · cases hrule

end

/-! ### The rows of a pass -/

/-- The statuses a pass counts with: a pending node has none yet. -/
def statusesOf (rows : List NodeRun) (nodeId : String) : Option NodeRunStatus :=
  (bySpec rows nodeId).bind fun row => if row.status = .pending then none else some row.status

def outputsOf (rows : List NodeRun) (nodeId : String) : Refs :=
  match bySpec rows nodeId with
  | some row => row.outputRefs
  | none => []

/-- The edges whose values a node receives. -/
def activeEdges (definition : WorkflowDefinition) (input : Refs) (outputs : String → Refs)
    (known : String → Option NodeRunStatus) (nodeId : String) : List EdgeSpec :=
  (definition.incoming nodeId).filter fun edge => edgeKnown definition input outputs known edge = .active

/-- The value an edge delivers. -/
def delivery (outputs : String → Refs) (cell : Cell) : Value :=
  ((outputs cell.1).lookup cell.2).getD .null

/-- No condition raises on an edge to the node. -/
def NodeEvaluates (definition : WorkflowDefinition) (input : Refs) (outputs : String → Refs)
    (known : String → Option NodeRunStatus) (nodeId : String) : Prop :=
  ∀ edge ∈ definition.incoming nodeId, ∀ status, known edge.sourceNode = some status →
    ∃ state, sourceState definition input status (outputs edge.sourceNode) edge = .ok state

/-- If the node is made ready, no port gets a list first and something else after it. -/
def NodeApart (definition : WorkflowDefinition) (input : Refs) (outputs : String → Refs)
    (known : String → Option NodeRunStatus) (nodeId : String) : Prop :=
  propagationRule definition input outputs known nodeId = some .ready → ∀ port xs v rest,
    (cellsTo (activeEdges definition input outputs known nodeId) port).map (delivery outputs) ≠
      .list xs :: v :: rest

/-- A round in which no condition raises and no list grows in place. -/
structure CleanRound (definition : WorkflowDefinition) (input : Refs) (outputs : String → Refs)
    (known : String → Option NodeRunStatus) : Prop where
  evaluates : ∀ nodeId, known nodeId = none → NodeEvaluates definition input outputs known nodeId
  apart : ∀ nodeId, known nodeId = none → NodeApart definition input outputs known nodeId

/-- The row a pass leaves. -/
def decidedRow (definition : WorkflowDefinition) (input : Refs) (rows : List NodeRun) (row : NodeRun) :
    NodeRun :=
  if row.status = .pending then
    match propagationRule definition input (outputsOf rows) (statusesOf rows) row.nodeId with
    | none => row
    | some .ready =>
      let active := activeEdges definition input (outputsOf rows) (statusesOf rows) row.nodeId
      saved (fun row => { row with
        status := .ready
        inputRefs := match inputRefs rows active [] with
          | .ok (refs, _) => refs
          | .error _ => [] }) row
    | some _ => saved (fun row => { row with status := .skipped, inputRefs := [] }) row
  else row

/-- A pass decides the row. -/
def isDecided (definition : WorkflowDefinition) (input : Refs) (rows : List NodeRun) (row : NodeRun) : Bool :=
  row.status = .pending &&
    (propagationRule definition input (outputsOf rows) (statusesOf rows) row.nodeId).isSome

section
variable {definition : WorkflowDefinition} {input : Refs} {rows : List NodeRun} {row : NodeRun}

theorem rule_values {outputs : String → Refs} {known : String → Option NodeRunStatus} {nodeId : String}
    {status : NodeRunStatus} (h : propagationRule definition input outputs known nodeId = some status) :
    status = .ready ∨ status = .skipped := by
  unfold propagationRule at h
  split at h
  · cases hd : joinDecision _ _ _ with
    | ready =>
      rw [hd] at h
      exact .inl (Option.some.inj h).symm
    | skipped =>
      rw [hd] at h
      exact .inr (Option.some.inj h).symm
    | undecided =>
      rw [hd] at h
      cases h
  · cases h

theorem rule_node {outputs : String → Refs} {known : String → Option NodeRunStatus} {nodeId : String}
    {status : NodeRunStatus} (h : propagationRule definition input outputs known nodeId = some status) :
    definition.incoming nodeId ≠ [] ∧ nodeId ∈ definition.nodes.map NodeSpec.nodeId := by
  unfold propagationRule at h
  split at h
  · rename_i first others spec hincoming hspec
    obtain ⟨hmem, hid⟩ := node?_some hspec
    rw [hincoming]
    exact ⟨List.cons_ne_nil _ _, hid ▸ List.mem_map_of_mem hmem⟩
  · cases h

theorem decidedRow_keeps : KeepsNode (decidedRow definition input rows) := by
  intro row
  unfold decidedRow
  split
  · split <;> exact ⟨rfl, rfl⟩
  · exact ⟨rfl, rfl⟩

theorem decidedRow_outputs : (decidedRow definition input rows row).outputRefs = row.outputRefs := by
  unfold decidedRow
  split
  · split <;> rfl
  · rfl

/-- A row that is not pending is left alone. -/
theorem decidedRow_of_not (h : row.status ≠ .pending) : decidedRow definition input rows row = row :=
  if_neg h

theorem decidedRow_of_none
    (h : propagationRule definition input (outputsOf rows) (statusesOf rows) row.nodeId = none) :
    decidedRow definition input rows row = row := by
  unfold decidedRow
  rw [h]
  split <;> rfl

theorem decidedRow_status (hpending : row.status = .pending) {status : NodeRunStatus}
    (h : propagationRule definition input (outputsOf rows) (statusesOf rows) row.nodeId = some status) :
    (decidedRow definition input rows row).status = status := by
  unfold decidedRow
  rw [if_pos hpending, h]
  rcases rule_values h with rfl | rfl <;> rfl

theorem statusesOf_some {nodeId : String} {x : NodeRun} (h : bySpec rows nodeId = some x) :
    statusesOf rows nodeId = if x.status = .pending then none else some x.status := by
  rw [statusesOf, h]
  rfl

theorem outputsOf_some {nodeId : String} {x : NodeRun} (h : bySpec rows nodeId = some x) :
    outputsOf rows nodeId = x.outputRefs := by
  rw [outputsOf, h]

theorem listedOutput_eq (cell : Cell) : listedOutput rows cell = delivery (outputsOf rows) cell := by
  unfold listedOutput delivery outputsOf
  cases bySpec rows cell.1 <;> rfl

/-- A pass changes no outputs. -/
theorem outputsOf_decided : outputsOf (rows.map (decidedRow definition input rows)) = outputsOf rows := by
  funext nodeId
  unfold outputsOf
  rw [bySpec_map decidedRow_keeps]
  cases bySpec rows nodeId with
  | none => rfl
  | some x => exact decidedRow_outputs

end

/-! ### One node -/

section
variable {definition : WorkflowDefinition} {input : Refs} {rows : List NodeRun}

theorem edgeState_listed (edge : EdgeSpec) {x : NodeRun} (h : bySpec rows edge.sourceNode = some x) :
    edgeState definition input rows [] edge = sourceState definition input x.status x.outputRefs edge := by
  have houtputs : outputsAfter rows [] x = .ok x.outputRefs := rfl
  unfold edgeState sourceState
  simp only [h, houtputs, bind, Except.bind]
  all_goals cases x.status <;> rfl

/-- The states a pass finds are those the rule counts with. -/
theorem edgeStates_known {nodeId : String}
    (hevaluates : NodeEvaluates definition input (outputsOf rows) (statusesOf rows) nodeId)
    (hsources : ∀ edge ∈ definition.incoming nodeId, ∃ x, bySpec rows edge.sourceNode = some x) :
    (definition.incoming nodeId).mapM (edgeState definition input rows []) =
      .ok ((definition.incoming nodeId).map
        (edgeKnown definition input (outputsOf rows) (statusesOf rows))) := by
  refine mapM_of_ok fun edge hedge => ?_
  obtain ⟨x, hx⟩ := hsources edge hedge
  have hstatus := statusesOf_some hx
  rw [edgeState_listed edge hx]
  by_cases hnone : x.status = .pending
  · rw [if_pos hnone] at hstatus
    rw [edgeKnown, hstatus, hnone]
    rfl
  · rw [if_neg hnone] at hstatus
    obtain ⟨state, hstate⟩ := hevaluates edge hedge x.status hstatus
    rw [outputsOf_some hx] at hstate
    simp only [edgeKnown, hstatus, outputsOf_some hx, hstate]

theorem zip_map_active {edges : List EdgeSpec} {f : EdgeSpec → EdgeState} :
    ((edges.zip (edges.map f)).filter fun pair => pair.2 = .active).map Prod.fst =
      edges.filter fun edge => f edge = .active := by
  induction edges with
  | nil => rfl
  | cons edge rest ih =>
    by_cases h : f edge = .active
    · simp [h, ih]
    · simp [h, ih]

/-- The loop body of `_propagate_dependencies`, alone and without a list growing. -/
theorem propagateNode_run (backend : Backend) {t : GraphStore} (ht : t.Whole) {node : NodeRun}
    (hnode : node ∈ t.nodeRuns)
    (hevaluates : node.status = .pending →
      NodeEvaluates definition input (outputsOf rows) (statusesOf rows) node.nodeId)
    (hapart : node.status = .pending →
      NodeApart definition input (outputsOf rows) (statusesOf rows) node.nodeId)
    (hsources : ∀ edge ∈ definition.incoming node.nodeId, ∃ x, bySpec rows edge.sourceNode = some x)
    (hspec : definition.incoming node.nodeId ≠ [] → (definition.node? node.nodeId).isSome = true) :
    (propagateNode definition input rows [] node).run backend.exec t =
      (.ok (isDecided definition input rows node, []),
        t.mapRows (onNode node.nodeId (decidedRow definition input rows))) := by
  have hsame : ∀ {f : NodeRun → NodeRun}, f node = decidedRow definition input rows node →
      t.mapRows (onNode node.nodeId f) =
        t.mapRows (onNode node.nodeId (decidedRow definition input rows)) := by
    intro f hf
    refine mapRows_congr fun row hrow => ?_
    by_cases hself : row.nodeId = node.nodeId
    · rw [ht.row_eq hrow hnode hself, onNode_self, onNode_self, hf]
    · rw [onNode_other hself, onNode_other hself]
  have hidle : decidedRow definition input rows node = node →
      t.mapRows (onNode node.nodeId (decidedRow definition input rows)) = t := by
    intro hleft
    rw [← hsame (f := fun row => row) hleft.symm]
    refine mapRows_same fun row _ => ?_
    unfold onNode
    split <;> rfl
  by_cases hpending : node.status = .pending
  · have hstates := edgeStates_known (hevaluates hpending) hsources
    unfold propagateNode
    rw [hpending]
    cases hincoming : definition.incoming node.nodeId with
    | nil =>
      have hrule : propagationRule definition input (outputsOf rows) (statusesOf rows) node.nodeId = none := by
        unfold propagationRule
        rw [hincoming]
      rw [hidle (decidedRow_of_none hrule), isDecided, hrule, Option.isSome_none, Bool.and_false]
      rfl
    | cons first others =>
      obtain ⟨spec, hspec⟩ := Option.isSome_iff_exists.mp (hspec (by rw [hincoming]; simp))
      rw [hincoming] at hstates
      have hrule : propagationRule definition input (outputsOf rows) (statusesOf rows) node.nodeId =
          (joinDecision spec first.joinMode ((first :: others).map
            (edgeKnown definition input (outputsOf rows) (statusesOf rows)))).status? := by
        unfold propagationRule
        rw [hincoming, hspec]
      have hactive : activeEdges definition input (outputsOf rows) (statusesOf rows) node.nodeId =
          (first :: others).filter fun edge =>
            edgeKnown definition input (outputsOf rows) (statusesOf rows) edge = .active := by
        rw [activeEdges, hincoming]
      dsimp only
      rw [hstates, hspec]
      dsimp only [Except.mapError, Prog.lift]
      rw [Prog.ret_bind, zip_map_active, ← hactive]
      cases hdecision : joinDecision spec first.joinMode ((first :: others).map
          (edgeKnown definition input (outputsOf rows) (statusesOf rows))) with
      | undecided =>
        rw [hdecision] at hrule
        rw [hidle (decidedRow_of_none hrule), isDecided, hrule, JoinDecision.status?,
          Option.isSome_none, Bool.and_false]
        rfl
      | skipped =>
        rw [hdecision] at hrule
        have hf : KeepsNode fun row => { row with status := .skipped, inputRefs := [] } := fun _ => ⟨rfl, rfl⟩
        have hsave := saveNode_run backend ht hf hnode .propagateDependencies []
        have hdone : isDecided definition input rows node = true := by
          rw [isDecided, hrule, hpending]
          rfl
        show (saveNode .propagateDependencies node _ >>= _).run backend.exec t = _
        rw [Prog.run_of_bind hsave, hdone, hsame ?_]
        · rfl
        · unfold decidedRow
          rw [if_pos hpending, hrule]
          rfl
      | ready =>
        rw [hdecision] at hrule
        have hlists : ¬GrowsInPlace rows
            (activeEdges definition input (outputsOf rows) (statusesOf rows) node.nodeId) := by
          rintro ⟨port, xs, v, rest, hgrows⟩
          rw [delivered, List.map_congr_left fun cell _ => listedOutput_eq cell] at hgrows
          exact hapart hpending hrule port xs v rest hgrows
        obtain ⟨refs, hrefs, -⟩ := inputRefs_ok hlists
        have hf : KeepsNode fun row => { row with status := .ready, inputRefs := refs } := fun _ => ⟨rfl, rfl⟩
        have hdone : isDecided definition input rows node = true := by
          rw [isDecided, hrule, hpending]
          rfl
        dsimp only
        rw [hrefs]
        show (saveNode .propagateDependencies node _ _ >>= _).run backend.exec t = _
        rw [Prog.run_of_bind (saveNode_run backend ht hf hnode .propagateDependencies _), hdone, hsame ?_]
        · rfl
        · unfold decidedRow
          rw [if_pos hpending, hrule]
          simp only [JoinDecision.status?, hrefs]
  · have hidle' := hidle (decidedRow_of_not hpending)
    have hrun : (propagateNode definition input rows [] node) = .ret (false, []) := by
      unfold propagateNode
      split
      · rename_i hstatus _
        exact absurd hstatus hpending
      · rfl
    rw [hrun, hidle', isDecided, decide_eq_false hpending]
    rfl

/-- A condition that raises ends it. -/
theorem propagateNode_raises (backend : Backend) (t : GraphStore) {node : NodeRun}
    (hpending : node.status = .pending)
    (hraises : ¬NodeEvaluates definition input (outputsOf rows) (statusesOf rows) node.nodeId)
    (hsources : ∀ edge ∈ definition.incoming node.nodeId, ∃ x, bySpec rows edge.sourceNode = some x) :
    ∃ e, (propagateNode definition input rows [] node).run backend.exec t = (.error e, t) := by
  cases hstates : (definition.incoming node.nodeId).mapM (edgeState definition input rows []) with
  | ok states =>
    refine absurd (fun edge hedge status hstatus => ?_) hraises
    obtain ⟨x, hx⟩ := hsources edge hedge
    obtain ⟨state, -, hstate⟩ := mapM_ok_mem hstates hedge
    rw [edgeState_listed edge hx] at hstate
    rw [statusesOf_some hx] at hstatus
    by_cases hnone : x.status = .pending
    · rw [if_pos hnone] at hstatus
      cases hstatus
    · rw [if_neg hnone] at hstatus
      rw [outputsOf_some hx, ← Option.some.inj hstatus]
      exact ⟨state, hstate⟩
  | error e =>
    unfold propagateNode
    rw [hpending]
    cases hincoming : definition.incoming node.nodeId with
    | nil =>
      rw [hincoming] at hstates
      cases hstates
    | cons first others =>
      rw [hincoming] at hstates
      dsimp only
      rw [hstates]
      exact ⟨_, rfl⟩

end

/-! ### One pass -/

section
variable {definition : WorkflowDefinition} {input : Refs} {rows : List NodeRun} {backend : Backend}

theorem propagatePass_run {t : GraphStore} (ht : t.Whole) {rest : List NodeRun}
    (hrest : ∀ node ∈ rest, node ∈ t.nodeRuns ∧ bySpec rows node.nodeId = some node)
    (hnodup : (rest.map NodeRun.nodeId).Nodup)
    (hclean : CleanRound definition input (outputsOf rows) (statusesOf rows))
    (hsources : ∀ nodeId, ∀ edge ∈ definition.incoming nodeId, ∃ x, bySpec rows edge.sourceNode = some x)
    (hspecs : ∀ nodeId, definition.incoming nodeId ≠ [] → (definition.node? nodeId).isSome = true) :
    (propagatePass definition input rows rest []).run backend.exec t =
      (.ok (rest.any (isDecided definition input rows)),
        t.mapRows fun row =>
          if row.nodeId ∈ rest.map NodeRun.nodeId then decidedRow definition input rows row else row) := by
  induction rest generalizing t with
  | nil =>
    rw [mapRows_same fun row _ => by simp]
    rfl
  | cons node rest ih =>
    obtain ⟨hnode, hlisted⟩ := hrest node (List.mem_cons_self ..)
    obtain ⟨hfresh, hnodup⟩ := List.nodup_cons.mp hnodup
    have hkeeps : KeepsNode (onNode node.nodeId (decidedRow definition input rows)) :=
      decidedRow_keeps.onNode node.nodeId
    have hother : ∀ other ∈ rest, other.nodeId ≠ node.nodeId := fun other hmem heq =>
      hfresh (heq ▸ List.mem_map_of_mem hmem)
    have hunknown : node.status = .pending → statusesOf rows node.nodeId = none := fun hpending => by
      rw [statusesOf_some hlisted, if_pos hpending]
    have hone := propagateNode_run backend ht hnode
      (fun hpending => hclean.evaluates node.nodeId (hunknown hpending))
      (fun hpending => hclean.apart node.nodeId (hunknown hpending)) (hsources node.nodeId) (hspecs node.nodeId)
    have hothers := ih (ht.mapRows hkeeps) (fun other hmem => by
      obtain ⟨hin, hfound⟩ := hrest other (List.mem_cons_of_mem _ hmem)
      have hmapped := List.mem_map_of_mem (f := onNode node.nodeId (decidedRow definition input rows)) hin
      rw [onNode_other (hother other hmem)] at hmapped
      exact ⟨hmapped, hfound⟩) hnodup
    rw [propagatePass, Prog.run_of_bind hone]
    show (propagatePass definition input rows rest [] >>= _).run backend.exec _ = _
    rw [Prog.run_of_bind hothers, mapRows_mapRows]
    show (Except.ok _, _) = _
    rw [List.any_cons]
    congr 1
    refine mapRows_congr fun row _ => ?_
    by_cases hself : row.nodeId = node.nodeId
    · have hin : row.nodeId ∈ (node :: rest).map NodeRun.nodeId := List.mem_cons.mpr (.inl hself)
      rw [if_pos hin, ← hself, onNode_self, (decidedRow_keeps row).2, if_neg (hself ▸ hfresh)]
    · rw [onNode_other hself]
      simp [hself]

/-- A pass reaches the first condition that raises. -/
theorem propagatePass_raises (backend : Backend) {t : GraphStore} (ht : t.Whole) {rest : List NodeRun}
    (hrest : ∀ node ∈ rest, node ∈ t.nodeRuns) (hnodup : (rest.map NodeRun.nodeId).Nodup)
    (hapart : ∀ node ∈ rest, node.status = .pending →
      NodeApart definition input (outputsOf rows) (statusesOf rows) node.nodeId)
    (hraises : ∃ node ∈ rest, node.status = .pending ∧
      ¬NodeEvaluates definition input (outputsOf rows) (statusesOf rows) node.nodeId)
    (hsources : ∀ nodeId, ∀ edge ∈ definition.incoming nodeId, ∃ x, bySpec rows edge.sourceNode = some x)
    (hspecs : ∀ nodeId, definition.incoming nodeId ≠ [] → (definition.node? nodeId).isSome = true) :
    ∃ e left, (propagatePass definition input rows rest []).run backend.exec t = (.error e, left) := by
  induction rest generalizing t with
  | nil =>
    obtain ⟨node, hmem, -⟩ := hraises
    cases hmem
  | cons node rest ih =>
    obtain ⟨hfresh, hnodup⟩ := List.nodup_cons.mp hnodup
    rw [propagatePass]
    by_cases hself : node.status = .pending ∧
        ¬NodeEvaluates definition input (outputsOf rows) (statusesOf rows) node.nodeId
    · obtain ⟨e, he⟩ := propagateNode_raises backend t hself.1 hself.2 (hsources node.nodeId)
      rw [Prog.run_bind, he]
      exact ⟨e, t, rfl⟩
    · have hevaluates : node.status = .pending →
          NodeEvaluates definition input (outputsOf rows) (statusesOf rows) node.nodeId :=
        fun hpending => not_not.mp fun hnot => hself ⟨hpending, hnot⟩
      have hone := propagateNode_run backend ht (hrest node (List.mem_cons_self ..)) hevaluates
        (hapart node (List.mem_cons_self ..)) (hsources node.nodeId) (hspecs node.nodeId)
      have hkeeps : KeepsNode (onNode node.nodeId (decidedRow definition input rows)) :=
        decidedRow_keeps.onNode node.nodeId
      obtain ⟨raising, hmem, hraising⟩ := hraises
      have hothers := ih (ht.mapRows hkeeps) (fun other hother => by
        have hne : other.nodeId ≠ node.nodeId := fun heq => hfresh (heq ▸ List.mem_map_of_mem hother)
        have hmapped := List.mem_map_of_mem (f := onNode node.nodeId (decidedRow definition input rows))
          (hrest other (List.mem_cons_of_mem _ hother))
        rw [onNode_other hne] at hmapped
        exact hmapped) hnodup (fun other hother => hapart other (List.mem_cons_of_mem _ hother)) (by
          rcases List.mem_cons.mp hmem with rfl | hmem
          · exact absurd hraising hself
          · exact ⟨raising, hmem, hraising⟩)
      obtain ⟨e, left, he⟩ := hothers
      rw [Prog.run_of_bind hone]
      show ∃ e left, (propagatePass definition input rows rest [] >>= _).run backend.exec _ = (.error e, left)
      rw [Prog.run_bind, he]
      exact ⟨e, left, rfl⟩

end

/-! ### Passes -/

namespace GraphStore
variable {s : GraphStore}

/-- The rule propagation follows in the run. -/
def rule (s : GraphStore) : (String → Option NodeRunStatus) → String → Option NodeRunStatus :=
  propagationRule s.definition s.run.input (outputsOf s.nodeRuns)

def known (s : GraphStore) : String → Option NodeRunStatus := statusesOf s.nodeRuns

/-- What one pass leaves. -/
def pass (s : GraphStore) : GraphStore :=
  s.mapRows (decidedRow s.definition s.run.input s.nodeRuns)

/-- No round of the rule has a condition that raises or a list that grows in place. -/
def Clean (s : GraphStore) : Prop :=
  ∀ n, CleanRound s.definition s.run.input (outputsOf s.nodeRuns) ((decideRound s.rule)^[n] s.known)

/-- No round of the rule has a condition that raises on an edge to a pending node. -/
def ConditionsEvaluate (s : GraphStore) : Prop :=
  ∀ n nodeId, (decideRound s.rule)^[n] s.known nodeId = none →
    NodeEvaluates s.definition s.run.input (outputsOf s.nodeRuns) ((decideRound s.rule)^[n] s.known) nodeId

/-- No round of the rule makes a node ready whose inputs grow a list in place. -/
def ListsApart (s : GraphStore) : Prop :=
  ∀ n nodeId, (decideRound s.rule)^[n] s.known nodeId = none →
    NodeApart s.definition s.run.input (outputsOf s.nodeRuns) ((decideRound s.rule)^[n] s.known) nodeId

theorem clean_of (hevaluate : s.ConditionsEvaluate) (hapart : s.ListsApart) : s.Clean :=
  fun n => ⟨hevaluate n, hapart n⟩

theorem pass_rule : s.pass.rule = s.rule := by
  show propagationRule s.definition s.run.input (outputsOf (s.nodeRuns.map _)) = _
  rw [outputsOf_decided]
  rfl

/-- A pass is a round. -/
theorem pass_known (h : s.Whole) : s.pass.known = decideRound s.rule s.known := by
  funext nodeId
  show statusesOf (s.nodeRuns.map _) nodeId = _
  unfold statusesOf
  rw [bySpec_map decidedRow_keeps]
  cases hfound : bySpec s.nodeRuns nodeId with
  | none =>
    have hunknown : s.known nodeId = none := by rw [known, statusesOf, hfound]; rfl
    rw [round_of_none hunknown]
    cases hrule : s.rule s.known nodeId with
    | none => rfl
    | some status =>
      obtain ⟨x, hx, rfl⟩ := h.row (rule_node hrule).2
      rw [h.bySpec hx] at hfound
      cases hfound
  | some x =>
    obtain ⟨hx, rfl⟩ := bySpec_some hfound
    have hstatus : s.known x.nodeId = _ := statusesOf_some hfound
    show (if (decidedRow s.definition s.run.input s.nodeRuns x).status = .pending then none else some _) = _
    by_cases hpending : x.status = .pending
    · rw [if_pos hpending] at hstatus
      rw [round_of_none hstatus]
      cases hrule : s.rule s.known x.nodeId with
      | none => rw [decidedRow_of_none hrule, if_pos hpending]
      | some status =>
        have hdecided := decidedRow_status hpending hrule
        have hne : status ≠ .pending := by rcases rule_values hrule with rfl | rfl <;> decide
        rw [hdecided, if_neg hne]
    · rw [if_neg hpending] at hstatus
      rw [decidedRow_of_not hpending, if_neg hpending, round_extends s.rule s.known _ _ hstatus]

theorem Whole.pass (h : s.Whole) : s.pass.Whole := h.mapRows decidedRow_keeps

theorem Clean.pass (h : s.Clean) (hs : s.Whole) : s.pass.Clean := by
  intro n
  show CleanRound s.definition s.run.input (outputsOf (s.nodeRuns.map _)) _
  rw [outputsOf_decided, pass_rule, pass_known hs, ← Function.iterate_succ_apply]
  exact h (n + 1)

theorem passes_known (h : s.Whole) (n : Nat) :
    (GraphStore.pass^[n] s).known = (decideRound s.rule)^[n] s.known ∧ (GraphStore.pass^[n] s).rule = s.rule := by
  induction n generalizing s with
  | zero => exact ⟨rfl, rfl⟩
  | succ n ih =>
    obtain ⟨hknown, hrule⟩ := ih h.pass
    rw [Function.iterate_succ_apply, Function.iterate_succ_apply, hknown, hrule, pass_rule, pass_known h]
    exact ⟨rfl, rfl⟩

theorem passes_whole (h : s.Whole) (n : Nat) : (GraphStore.pass^[n] s).Whole := by
  induction n generalizing s with
  | zero => exact h
  | succ n ih =>
    rw [Function.iterate_succ_apply]
    exact ih h.pass

/-- Where nothing can be decided a pass leaves everything as it was. -/
theorem pass_exhausted (h : s.Whole) (hexhausted : Exhausted s.rule s.known) : s.pass = s := by
  refine mapRows_same fun row hrow => ?_
  by_cases hpending : row.status = .pending
  · have hunknown : s.known row.nodeId = none := by
      rw [known, statusesOf_some (h.bySpec hrow), if_pos hpending]
    exact decidedRow_of_none (hexhausted row.nodeId hunknown)
  · exact decidedRow_of_not hpending

theorem exhausted_of_any (h : s.Whole)
    (hnone : s.nodeRuns.any (isDecided s.definition s.run.input s.nodeRuns) = false) :
    Exhausted s.rule s.known := by
  intro nodeId hunknown
  cases hrule : s.rule s.known nodeId with
  | none => rfl
  | some status =>
    obtain ⟨x, hx, rfl⟩ := h.row (rule_node hrule).2
    have hpending : x.status = .pending := by
      by_contra hne
      rw [known, statusesOf_some (h.bySpec hx), if_neg hne] at hunknown
      cases hunknown
    have hdecided : isDecided s.definition s.run.input s.nodeRuns x = true := by
      show (decide (x.status = .pending) && (s.rule s.known x.nodeId).isSome) = true
      rw [hrule, hpending]
      rfl
    rw [List.any_eq_false] at hnone
    exact absurd hdecided (hnone x hx)

theorem rule_nodes (s : GraphStore) (known : String → Option NodeRunStatus) (nodeId : String)
    (h : s.rule known nodeId ≠ none) : nodeId ∈ s.definition.nodes.map NodeSpec.nodeId := by
  obtain ⟨status, hstatus⟩ := Option.ne_none_iff_exists'.mp h
  exact (rule_node hstatus).2

/-- How many nodes are pending. -/
def pendingNodes (s : GraphStore) : Nat := undecided (s.definition.nodes.map NodeSpec.nodeId) s.known

theorem pass_pending (h : s.Whole)
    (hany : s.nodeRuns.any (isDecided s.definition s.run.input s.nodeRuns) = true) :
    s.pass.pendingNodes < s.pendingNodes := by
  obtain ⟨x, hx, hdecided⟩ := List.any_eq_true.mp hany
  obtain ⟨hpending, hrule⟩ := Bool.and_eq_true_iff.mp hdecided
  have hne : s.rule s.known x.nodeId ≠ none := Option.isSome_iff_ne_none.mp hrule
  have hunknown : s.known x.nodeId = none := by
    rw [known, statusesOf_some (h.bySpec hx), if_pos (of_decide_eq_true hpending)]
  show undecided (s.definition.nodes.map NodeSpec.nodeId) s.pass.known < _
  rw [pass_known h]
  exact undecided_round_lt (s.rule_nodes s.known x.nodeId hne) hunknown hne

theorem Whole.sources (h : s.Whole) (nodeId : String) :
    ∀ edge ∈ s.definition.incoming nodeId, ∃ x, Graph.bySpec s.nodeRuns edge.sourceNode = some x := by
  intro edge hedge
  obtain ⟨source, _, _, _, hsource, -⟩ := h.compiled.edge edge (List.mem_filter.mp hedge).1
  obtain ⟨hmem, hid⟩ := node?_some hsource
  have hin : edge.sourceNode ∈ s.definition.nodes.map NodeSpec.nodeId :=
    hid ▸ List.mem_map_of_mem hmem
  obtain ⟨x, hx, hnode⟩ := h.row hin
  rw [← hnode]
  exact ⟨x, h.bySpec hx⟩

theorem Whole.specs (h : s.Whole) (nodeId : String) (hne : s.definition.incoming nodeId ≠ []) :
    (s.definition.node? nodeId).isSome = true := by
  obtain ⟨edge, hedge⟩ := List.exists_mem_of_ne_nil _ hne
  obtain ⟨hmem, htarget⟩ := List.mem_filter.mp hedge
  obtain ⟨_, target, _, _, -, htargetSpec, -⟩ := h.compiled.edge edge hmem
  rw [← of_decide_eq_true (Bool.and_eq_true_iff.mp htarget).2, htargetSpec]
  rfl

theorem pass_run (backend : Backend) (h : s.Whole)
    (hclean : CleanRound s.definition s.run.input (outputsOf s.nodeRuns) s.known) :
    (propagatePass s.definition s.run.input s.nodeRuns s.nodeRuns []).run backend.exec s =
      (.ok (s.nodeRuns.any (isDecided s.definition s.run.input s.nodeRuns)), s.pass) := by
  rw [propagatePass_run h (fun node hmem => ⟨hmem, h.bySpec hmem⟩) h.nodup hclean h.sources h.specs]
  congr 1
  exact mapRows_congr fun row hrow => if_pos (List.mem_map_of_mem hrow)

/-- Passes until one saves nothing: as many as there are pending nodes, and one more. -/
theorem passes_run (backend : Backend) (h : s.Whole) (hclean : s.Clean) {rounds n : Nat}
    (hrounds : s.pendingNodes < rounds) (hn : s.pendingNodes ≤ n) :
    (propagatePasses s.definition s.run.input rounds).run backend.exec s = (.ok (), pass^[n] s) := by
  induction rounds generalizing s n with
  | zero => omega
  | succ rounds ih =>
    show (propagatePass s.definition s.run.input s.nodeRuns s.nodeRuns [] >>= _).run backend.exec s = _
    rw [Prog.run_of_bind (pass_run backend h (hclean 0))]
    cases hany : s.nodeRuns.any (isDecided s.definition s.run.input s.nodeRuns) with
    | false =>
      have hsame := pass_exhausted h (exhausted_of_any h hany)
      rw [Function.iterate_fixed hsame n]
      show (Except.ok (), s.pass) = _
      rw [hsame]
    | true =>
      have hless := pass_pending h hany
      obtain ⟨m, rfl⟩ : ∃ m, n = m + 1 := ⟨n - 1, by omega⟩
      rw [Function.iterate_succ_apply]
      exact ih h.pass (hclean.pass h) (by omega) (by omega)

/-- If a condition raises in some round, the passes end with an exception. -/
theorem passes_raise (backend : Backend) (h : s.Whole) (hapart : s.ListsApart) {n : Nat} {nodeId : String}
    (hunknown : (decideRound s.rule)^[n] s.known nodeId = none)
    (hraises : ¬NodeEvaluates s.definition s.run.input (outputsOf s.nodeRuns)
      ((decideRound s.rule)^[n] s.known) nodeId) (rounds : Nat) :
    ∃ e left, (propagatePasses s.definition s.run.input rounds).run backend.exec s = (.error e, left) := by
  induction rounds generalizing s n with
  | zero => exact ⟨_, _, rfl⟩
  | succ rounds ih =>
    show ∃ e left, (propagatePass s.definition s.run.input s.nodeRuns s.nodeRuns [] >>= _).run
      backend.exec s = (.error e, left)
    by_cases hnow : ∃ node ∈ s.nodeRuns, node.status = .pending ∧
        ¬NodeEvaluates s.definition s.run.input (outputsOf s.nodeRuns) s.known node.nodeId
    · have hunread : ∀ node ∈ s.nodeRuns, node.status = .pending → s.known node.nodeId = none :=
        fun node hnode hpending => by
          rw [known, statusesOf_some (h.bySpec hnode), if_pos hpending]
      obtain ⟨e, left, he⟩ := propagatePass_raises backend h (fun node hmem => hmem) h.nodup
        (fun node hnode hpending => hapart 0 node.nodeId (hunread node hnode hpending)) hnow h.sources h.specs
      rw [Prog.run_bind, he]
      exact ⟨e, left, rfl⟩
    · have hclean : CleanRound s.definition s.run.input (outputsOf s.nodeRuns) s.known := by
        refine ⟨fun other hother edge hedge status hstatus => ?_, hapart 0⟩
        obtain ⟨hmem, htarget⟩ := List.mem_filter.mp hedge
        obtain ⟨_, target, _, _, -, htargetSpec, -⟩ := h.compiled.edge edge hmem
        obtain ⟨hin, hid⟩ := node?_some htargetSpec
        have htargetId := of_decide_eq_true (Bool.and_eq_true_iff.mp htarget).2
        have hnode : other ∈ s.definition.nodes.map NodeSpec.nodeId := by
          rw [← htargetId, ← hid]
          exact List.mem_map_of_mem hin
        obtain ⟨x, hx, rfl⟩ := h.row hnode
        by_contra hnone
        refine hnow ⟨x, hx, ?_, fun hevaluates => hnone (hevaluates edge hedge status hstatus)⟩
        by_contra hne
        rw [known, statusesOf_some (h.bySpec hx), if_neg hne] at hother
        cases hother
      cases n with
      | zero => exact absurd (hclean.evaluates nodeId hunknown) hraises
      | succ n =>
        rw [Prog.run_of_bind (pass_run backend h hclean)]
        rw [Function.iterate_succ_apply] at hunknown hraises
        cases hany : s.nodeRuns.any (isDecided s.definition s.run.input s.nodeRuns) with
        | false =>
          have hexhausted := exhausted_of_any h hany
          rw [hexhausted.round_eq, hexhausted.rounds_eq] at hunknown hraises
          exact absurd (hclean.evaluates nodeId hunknown) hraises
        | true =>
          rw [← pass_known h, ← pass_rule] at hunknown hraises
          have houtputs : outputsOf s.pass.nodeRuns = outputsOf s.nodeRuns := outputsOf_decided
          refine ih (s := s.pass) (n := n) h.pass (fun m other hother => ?_) hunknown (houtputs ▸ hraises)
          rw [pass_known h, pass_rule, ← Function.iterate_succ_apply] at hother ⊢
          rw [houtputs]
          exact hapart (m + 1) other hother

theorem pendingNodes_le (h : s.Whole) : s.pendingNodes ≤ s.nodeRuns.length := by
  have hlength := h.nodeIds.length_eq
  rw [List.length_map] at hlength
  rw [hlength]
  exact List.countP_le_length

/-- The run pins the definition there is. -/
def Pinned (s : GraphStore) : Prop :=
  s.run.workflowDefinitionId = s.definition.workflowId ∧ s.run.workflowDefinitionVersion = s.definition.version

theorem propagate_run (backend : Backend) (h : s.Whole) (hpinned : s.Pinned) (hclean : s.Clean)
    {rounds n : Nat} (hrounds : s.nodeRuns.length < rounds) (hn : s.nodeRuns.length ≤ n) :
    (propagateDependencies rounds).run backend.exec s = (.ok (), pass^[n] s) := by
  have hle := pendingNodes_le h
  show (getDefinition s.run.workflowDefinitionId s.run.workflowDefinitionVersion >>= _).run
    backend.exec s = _
  rw [hpinned.1, hpinned.2, Prog.run_of_bind (getDefinition_run backend s)]
  exact passes_run backend h hclean (by omega) (by omega)

/-! ### What propagation should do -/

/-- The same rows, listed in another order. -/
def listing (s : GraphStore) (rows : List NodeRun) : GraphStore := { s with nodeRuns := rows }

/-- The row of a pending node that has dependencies, made ready or skipped. -/
structure DecidedAs (s : GraphStore) (x y : NodeRun) : Prop where
  was : x.status = .pending
  depends : s.definition.incoming x.nodeId ≠ []
  now : y.status = .ready ∨ y.status = .skipped
  rest : y = { x with status := y.status, inputRefs := y.inputRefs, revision := x.revision + 1 }

/-- Propagation ends, after a pass for each node and one more at most, in `s'`: the least
statuses that obey the rule, whatever the order of the rows, and settled. -/
structure Propagates (backend : Backend) (s s' : GraphStore) : Prop where
  returns : ∀ rounds, s.nodeRuns.length < rounds →
    (propagateDependencies rounds).run backend.exec s = (.ok (), s')
  frame : s'.definition = s.definition ∧ s'.run = s.run ∧ s'.attempts = s.attempts
  rows : List.Forall₂ (fun x y => y = x ∨ s.DecidedAs x y) s.nodeRuns s'.nodeRuns
  least : LeastExhausted s.rule s.known s'.known
  listed : ∀ rows, rows.Perm s.nodeRuns → ∀ rounds, s.nodeRuns.length < rounds → ∃ t,
    (propagateDependencies rounds).run backend.exec (s.listing rows) = (.ok (), t) ∧ t.known = s'.known
  again : ∀ rounds, s.nodeRuns.length < rounds →
    (propagateDependencies rounds).run backend.exec s' = (.ok (), s')

theorem pass_row {t : GraphStore} (hdefinition : t.definition = s.definition) (x : NodeRun) :
    decidedRow t.definition t.run.input t.nodeRuns x = x ∨
      s.DecidedAs x (decidedRow t.definition t.run.input t.nodeRuns x) := by
  by_cases hpending : x.status = .pending
  · cases hrule : propagationRule t.definition t.run.input (outputsOf t.nodeRuns) (statusesOf t.nodeRuns)
      x.nodeId with
    | none => exact .inl (decidedRow_of_none hrule)
    | some status =>
      have hnow := decidedRow_status hpending hrule
      refine .inr ⟨hpending, hdefinition ▸ (rule_node hrule).1, hnow ▸ rule_values hrule, ?_⟩
      unfold decidedRow
      rw [if_pos hpending, hrule]
      rcases rule_values hrule with rfl | rfl <;> rfl
  · exact .inl (decidedRow_of_not hpending)

theorem passes_frame (s : GraphStore) (n : Nat) :
    (pass^[n] s).definition = s.definition ∧ (pass^[n] s).run = s.run ∧ (pass^[n] s).attempts = s.attempts ∧
      (pass^[n] s).nodeRuns.length = s.nodeRuns.length := by
  induction n with
  | zero => exact ⟨rfl, rfl, rfl, rfl⟩
  | succ n ih =>
    rw [Function.iterate_succ_apply']
    exact ⟨ih.1, ih.2.1, ih.2.2.1, (List.length_map _).trans ih.2.2.2⟩

/-- Once a row is decided no pass touches it. -/
theorem passes_rows (s : GraphStore) (n : Nat) :
    List.Forall₂ (fun x y => y = x ∨ s.DecidedAs x y) s.nodeRuns (pass^[n] s).nodeRuns := by
  induction n with
  | zero => exact List.forall₂_same.mpr fun x _ => .inl rfl
  | succ n ih =>
    rw [Function.iterate_succ_apply']
    refine List.forall₂_map_right_iff.mpr (ih.imp fun x y hxy => ?_)
    rcases hxy with rfl | hdecided
    · exact pass_row (passes_frame s n).1 y
    · have hne : y.status ≠ .pending := by
        rcases hdecided.now with hready | hskipped
        · rw [hready]
          decide
        · rw [hskipped]
          decide
      rw [decidedRow_of_not hne]
      exact .inr hdecided

theorem passes_clean (h : s.Whole) (hclean : s.Clean) (n : Nat) : (pass^[n] s).Clean := by
  induction n generalizing s with
  | zero => exact hclean
  | succ n ih =>
    rw [Function.iterate_succ_apply]
    exact ih h.pass (hclean.pass h)

theorem passes_exhausted (h : s.Whole) {n : Nat} (hn : s.pendingNodes ≤ n) :
    Exhausted (pass^[n] s).rule (pass^[n] s).known := by
  obtain ⟨hknown, hrule⟩ := passes_known h n
  rw [hknown, hrule]
  exact rounds_exhausted s.rule_nodes hn

/-! ### Another order -/

theorem Whole.listing (h : s.Whole) {rows : List NodeRun} (hperm : rows.Perm s.nodeRuns) :
    (s.listing rows).Whole :=
  ⟨⟨(hperm.map NodeRun.id).nodup_iff.mpr h.keyed.nodeRuns, h.keyed.attempts⟩, h.compiled,
    (hperm.map NodeRun.nodeId).trans h.nodeIds⟩

theorem bySpec_listing (h : s.Whole) {rows : List NodeRun} (hperm : rows.Perm s.nodeRuns) :
    bySpec rows = bySpec s.nodeRuns := by
  funext nodeId
  cases hfound : bySpec s.nodeRuns nodeId with
  | some x =>
    obtain ⟨hx, rfl⟩ := bySpec_some hfound
    exact (h.listing hperm).bySpec (hperm.mem_iff.mpr hx)
  | none =>
    cases hother : bySpec rows nodeId with
    | none => rfl
    | some x =>
      obtain ⟨hx, rfl⟩ := bySpec_some hother
      rw [h.bySpec (hperm.mem_iff.mp hx)] at hfound
      cases hfound

theorem statusesOf_listing (h : s.Whole) {rows : List NodeRun} (hperm : rows.Perm s.nodeRuns) :
    (s.listing rows).known = s.known := by
  funext nodeId
  show (bySpec rows nodeId).bind _ = _
  rw [bySpec_listing h hperm]
  rfl

theorem outputsOf_listing (h : s.Whole) {rows : List NodeRun} (hperm : rows.Perm s.nodeRuns) :
    outputsOf rows = outputsOf s.nodeRuns := by
  funext nodeId
  unfold outputsOf
  rw [bySpec_listing h hperm]

theorem rule_listing (h : s.Whole) {rows : List NodeRun} (hperm : rows.Perm s.nodeRuns) :
    (s.listing rows).rule = s.rule := by
  show propagationRule s.definition s.run.input (outputsOf rows) = _
  rw [outputsOf_listing h hperm]
  rfl

theorem clean_listing (h : s.Whole) (hclean : s.Clean) {rows : List NodeRun} (hperm : rows.Perm s.nodeRuns) :
    (s.listing rows).Clean := by
  intro n
  rw [rule_listing h hperm, statusesOf_listing h hperm]
  show CleanRound s.definition s.run.input (outputsOf rows) _
  rw [outputsOf_listing h hperm]
  exact hclean n

end GraphStore

/-- The two repositories end with the same statuses. -/
theorem GraphStore.Propagates.statuses {b b' : Backend} {s s' t : GraphStore} (h : s.Propagates b s')
    (h' : s.Propagates b' t) : s'.known = t.known := h.least.unique h'.least

theorem GraphStore.Propagates.conditions {backend : Backend} {s s' : GraphStore} (h : s.Whole)
    (hpinned : s.Pinned) (hapart : s.ListsApart) (hpropagates : s.Propagates backend s') :
    s.ConditionsEvaluate := by
  intro n nodeId hunknown
  by_contra hraises
  obtain ⟨e, left, he⟩ := GraphStore.passes_raise backend h hapart hunknown hraises (s.nodeRuns.length + 1)
  have hreturns : (getDefinition s.run.workflowDefinitionId s.run.workflowDefinitionVersion >>=
      fun definition => propagatePasses definition s.run.input (s.nodeRuns.length + 1)).run backend.exec s =
        (.ok (), s') := hpropagates.returns _ (Nat.lt_succ_self _)
  rw [hpinned.1, hpinned.2, Prog.run_of_bind (getDefinition_run backend s), he] at hreturns
  cases hreturns

theorem propagation_settles_of_clean (backend : Backend) {s : GraphStore} (h : s.Whole) (hpinned : s.Pinned)
    (hclean : s.Clean) : s.Propagates backend (GraphStore.pass^[s.nodeRuns.length] s) := by
  obtain ⟨hdefinition, hrun, hattempts, hlength⟩ := GraphStore.passes_frame s s.nodeRuns.length
  have hexhausted := GraphStore.passes_exhausted h (GraphStore.pendingNodes_le h)
  have hwhole := GraphStore.passes_whole h s.nodeRuns.length
  obtain ⟨hknown, hrule⟩ := GraphStore.passes_known h s.nodeRuns.length
  refine ⟨fun rounds hrounds => ?_, ⟨hdefinition, hrun, hattempts⟩, GraphStore.passes_rows s _, ?_, ?_, ?_⟩
  · exact GraphStore.propagate_run backend h hpinned hclean hrounds le_rfl
  · rw [hknown]
    rw [hknown, hrule] at hexhausted
    exact rounds_leastExhausted (propagationRule_steady _ _ _) hexhausted
  · intro rows hperm rounds hrounds
    have hlisted := h.listing hperm
    have hrows : (s.listing rows).nodeRuns.length = s.nodeRuns.length := hperm.length_eq
    refine ⟨GraphStore.pass^[s.nodeRuns.length] (s.listing rows), ?_, ?_⟩
    · exact GraphStore.propagate_run backend hlisted hpinned (GraphStore.clean_listing h hclean hperm)
        (by omega) (by omega)
    · rw [(GraphStore.passes_known hlisted _).1, hknown, GraphStore.rule_listing h hperm,
        GraphStore.statusesOf_listing h hperm]
  · intro rounds hrounds
    have hpinned' : (GraphStore.pass^[s.nodeRuns.length] s).Pinned := by
      unfold GraphStore.Pinned
      rw [hrun, hdefinition]
      exact hpinned
    rw [GraphStore.propagate_run backend hwhole hpinned' (GraphStore.passes_clean h hclean _)
      (n := s.nodeRuns.length) (by omega) (by omega)]
    congr 1
    exact Function.iterate_fixed (GraphStore.pass_exhausted hwhole hexhausted) _

theorem propagation_settles {backend : Backend} {s : GraphStore} (h : s.Whole) (hpinned : s.Pinned) :
    (s.Clean → ∃ s', s.Propagates backend s') ∧
      (s.ListsApart → (∃ s', s.Propagates backend s') → s.Clean) := by
  constructor
  · exact fun hclean => ⟨_, propagation_settles_of_clean backend h hpinned hclean⟩
  · rintro hapart ⟨s', hpropagates⟩
    exact GraphStore.clean_of (hpropagates.conditions h hpinned hapart) hapart

/-- Without conditions, and with one edge to each port at most, nothing is in the way. -/
theorem clean_of_unconditional {s : GraphStore} (h : s.Whole)
    (hnone : ∀ edge ∈ s.definition.edges, edge.condition = none)
    (hports : s.definition.edges.Pairwise fun a b => ¬(a.targetNode = b.targetNode ∧ a.targetPort = b.targetPort)) :
    s.Clean := by
  intro n
  refine ⟨fun nodeId _ edge hedge status _ => ?_, fun nodeId _ _ port xs v rest htwo => ?_⟩
  · have hmem := (List.mem_filter.mp hedge).1
    obtain ⟨source, _, _, _, hsource, -⟩ := h.compiled.edge edge hmem
    unfold sourceState succeededState skippedState EdgeSpec.taken
    rw [hsource, hnone edge hmem]
    cases status <;> dsimp only <;> (repeat' split) <;> exact ⟨_, rfl⟩
  · generalize hactive : activeEdges s.definition s.run.input (outputsOf s.nodeRuns)
      ((decideRound s.rule)^[n] s.known) nodeId = active at htwo
    have hpair : (active.filter fun edge => edge.targetPort = port).Pairwise fun a b =>
        ¬(a.targetNode = b.targetNode ∧ a.targetPort = b.targetPort) := by
      rw [← hactive]
      exact ((hports.filter _).filter _).filter _
    have hall : ∀ edge ∈ active.filter fun edge => edge.targetPort = port,
        edge.targetNode = nodeId ∧ edge.targetPort = port := by
      intro edge hedge
      obtain ⟨hin, hport⟩ := List.mem_filter.mp hedge
      rw [← hactive] at hin
      have htarget := (List.mem_filter.mp (List.mem_filter.mp hin).1).2
      exact ⟨of_decide_eq_true (Bool.and_eq_true_iff.mp htarget).2, of_decide_eq_true hport⟩
    unfold cellsTo at htwo
    cases hfound : active.filter fun edge => edge.targetPort = port with
    | nil =>
      rw [hfound] at htwo
      cases htwo
    | cons first others =>
      cases others with
      | nil =>
        rw [hfound] at htwo
        simp at htwo
      | cons second more =>
        rw [hfound] at hpair hall
        have hfirst := hall first (by simp)
        have hsecond := hall second (by simp)
        refine (List.pairwise_cons.mp hpair).1 second (by simp) ⟨?_, ?_⟩
        · rw [hfirst.1, hsecond.1]
        · rw [hfirst.2, hsecond.2]

/-- The action of the loop is done, and nothing has followed from it yet. -/
def doneStore : GraphStore :=
  { redoStore .idempotent with
    nodeRuns :=
      [{ id := "work", workflowRunId := "run", nodeId := "work", status := .succeeded,
         outputRefs := [("done", .bool true)] },
       { id := "check", workflowRunId := "run", nodeId := "check" },
       { id := "stop", workflowRunId := "run", nodeId := "stop" }] }

theorem doneStore_whole : doneStore.Whole :=
  ⟨⟨by decide, by decide⟩, (createRun_created redoStore_created.1).compiled, .refl _⟩

theorem propagation_settles_done : ∃ s', doneStore.Propagates .sqlite s' :=
  (propagation_settles doneStore_whole ⟨rfl, rfl⟩).1
    (clean_of_unconditional doneStore_whole (by decide) (by decide))

/-! ### A list that is delivered twice -/

/-- `2 in items`. -/
def hasTwo : Condition :=
  ⟨some (.compare (.constant (.json (.int 2))) [(.isIn, .name "items")])⟩

/-- `join` collects from `a` and `b`, and `next` looks at what `a` has left. -/
def sharedWorkflow : WorkflowDefinition :=
  { workflowId := "shared"
    nodes :=
      [{ nodeId := "a", nodeKind := .agent, outputPorts := [{ name := "items" }] },
       { nodeId := "b", nodeKind := .agent, outputPorts := [{ name := "item" }] },
       { nodeId := "join", nodeKind := .agent, inputPorts := [{ name := "all" }] },
       { nodeId := "next", nodeKind := .agent, inputPorts := [{ name := "items" }] }]
    edges :=
      [{ edgeId := "a", sourceNode := "a", sourcePort := "items", targetNode := "join",
         targetPort := "all" },
       { edgeId := "b", sourceNode := "b", sourcePort := "item", targetNode := "join",
         targetPort := "all" },
       { edgeId := "next", sourceNode := "a", sourcePort := "items", targetNode := "next",
         targetPort := "items", condition := some hasTwo }]
    status := .published }

def sharedRequest : RunRequest := { definition := sharedWorkflow, runId := "run", nodeRunId := id }

/-- What `create_run` stores for it. -/
def sharedStart : GraphStore :=
  { definition := sharedWorkflow
    run :=
      { id := "run", workflowDefinitionId := "shared", workflowDefinitionVersion := 1,
        budgetSnapshot := {} }
    nodeRuns :=
      [{ id := "a", workflowRunId := "run", nodeId := "a", status := .ready },
       { id := "b", workflowRunId := "run", nodeId := "b", status := .ready },
       { id := "join", workflowRunId := "run", nodeId := "join" },
       { id := "next", workflowRunId := "run", nodeId := "next" }] }

theorem sharedStart_created : createRun sharedRequest = .ok sharedStart := rfl

/-- `a` has delivered `[1]` and `b` has delivered `2`. -/
def sharedDone : List NodeRun :=
  [{ id := "a", workflowRunId := "run", nodeId := "a", status := .succeeded,
     outputRefs := [("items", .list [.int 1])] },
   { id := "b", workflowRunId := "run", nodeId := "b", status := .succeeded,
     outputRefs := [("item", .int 2)] }]

def sharedJoin : NodeRun := { id := "join", workflowRunId := "run", nodeId := "join" }
def sharedNext : NodeRun := { id := "next", workflowRunId := "run", nodeId := "next" }

/-- Listed after `join`, `next` finds `2` in the list of `a`; listed before, it does not. -/
theorem propagation_depends_on_the_order :
    ¬∀ (backend : Backend) (s : GraphStore), s.Whole → s.Pinned → ∃ s', s.Propagates backend s' := by
  intro h
  have hwhole : (sharedStart.listing (sharedDone ++ [sharedJoin, sharedNext])).Whole :=
    ⟨⟨by decide, by decide⟩, (createRun_created sharedStart_created).compiled, .refl _⟩
  obtain ⟨s', hpropagates⟩ := h .sqlite _ hwhole ⟨rfl, rfl⟩
  obtain ⟨t, hrun, hsame⟩ := hpropagates.listed (sharedDone ++ [sharedNext, sharedJoin])
    ((List.Perm.swap ..).append_left _) 5 (by decide)
  have hafter := hpropagates.returns 5 (by decide)
  have hjoinFirst : ((propagateDependencies 5).run Backend.sqlite.exec
      (sharedStart.listing (sharedDone ++ [sharedJoin, sharedNext]))).2.known "next" = some .ready := by
    decide +kernel
  have hnextFirst : ((propagateDependencies 5).run Backend.sqlite.exec
      (sharedStart.listing (sharedDone ++ [sharedNext, sharedJoin]))).2.known "next" = some .skipped := by
    decide +kernel
  rw [hafter] at hjoinFirst
  have hlisted : (sharedStart.listing (sharedDone ++ [sharedJoin, sharedNext])).listing
      (sharedDone ++ [sharedNext, sharedJoin]) =
        sharedStart.listing (sharedDone ++ [sharedNext, sharedJoin]) := rfl
  rw [hlisted] at hrun
  rw [hrun] at hnextFirst
  rw [hsame, hjoinFirst] at hnextFirst
  cases hnextFirst

end Operant.Graph
