import Operant.Graph.Analysis
import Operant.Graph.LoopBody

/-! The branches of a loop's limit and of a boundary's timeout.

A branch that is entered through one edge only, from the node that names it, should start
only once that node was left through its escape. Loops that go on start their targets
without asking, and a boundary that is resolved leaves through every edge whose port its
payload has, the timeout's included.

`branch_waits_for_its_escape`: where neither happens before the escape, the branch waits
for it. -/
namespace Operant.Graph
open Operant.Python Operant.Calls

inductive Escape where
  | limit
  | timeout
  deriving DecidableEq

/-- The branch is entered through one edge only, from the node that names it. -/
inductive EscapeBranch (definition : WorkflowDefinition) (source branch : String) : Escape → Prop where
  | limit {spec : NodeSpec} {edge : EdgeSpec} (isSpec : definition.node? source = some spec)
    (kind : spec.nodeKind = .loop) (names : spec.limitTarget = some branch)
    (only : definition.incoming branch = [edge]) (leaves : edge.sourceNode = source) :
    EscapeBranch definition source branch .limit
  | timeout {spec : NodeSpec} {edge : EdgeSpec} (isSpec : definition.node? source = some spec)
    (kind : spec.nodeKind = .approval ∨ spec.nodeKind = .humanInput)
    (names : spec.timeoutTarget = some branch)
    (only : definition.edges.filter (fun edge => edge.targetNode = branch) = [edge])
    (leaves : edge.sourceNode = source) : EscapeBranch definition source branch .timeout

/-- `timeout_boundary` saves the node. -/
def RepoCall.timesOut (nodeId : String) : RepoCall → Bool
  | .updateNodeRun .timeoutBoundary _ node _ => node.nodeId = nodeId
  | _ => false

/-- The loop is at its limit, or the boundary times out. -/
def Event.escapes (escape : Escape) (source : String) : Event → Prop
  | .call s c => match escape with
    | .limit => ∃ x ∈ s.nodeRuns,
        x.nodeId = source ∧ x.status = .skipped ∧ x.outputRefs.has "limit_reasons" = true
    | .timeout => c.timesOut source = true
  | .returned _ => False

instance (escape : Escape) (source : String) (event : Event) : Decidable (event.escapes escape source) :=
  match event, escape with
  | .call s _, .limit => inferInstanceAs (Decidable (∃ x ∈ s.nodeRuns,
      x.nodeId = source ∧ x.status = .skipped ∧ x.outputRefs.has "limit_reasons" = true))
  | .call _ c, .timeout => inferInstanceAs (Decidable (c.timesOut source = true))
  | .returned _, _ => inferInstanceAs (Decidable False)

/-- A join that needs no input runs as soon as the edge is decided, whichever way. -/
def WorkflowDefinition.JoinsNothing (definition : WorkflowDefinition) (edge : EdgeSpec) : Prop :=
  edge.joinMode = .all ∧ ∃ target, definition.node? edge.targetNode = some target ∧
    target.nodeKind = .join ∧ target.inputPorts.all (fun port => !port.required) = true

/-- The edge's own condition holds of what the row hands on, grown lists included. -/
def EdgeSpec.MetBy (edge : EdgeSpec) (input : Refs) (x : NodeRun) : Prop :=
  ∃ rows appends outputs, outputsAfter rows appends x = .ok outputs ∧
    edge.taken (input.merge outputs) = .ok .active

/-- The row of the edge's source lets the branch in, and not through its escape: it succeeded
with an output for the edge, or was skipped with a `timeout` among its outputs. -/
def WorkflowDefinition.LetsIn (definition : WorkflowDefinition) (escape : Escape) (input : Refs)
    (edge : EdgeSpec) (x : NodeRun) : Prop :=
  definition.JoinsNothing edge ∧ x.status.isNonterminal = false ∨
    edge.MetBy input x ∧
      (escape = .timeout ∧ x.status = .succeeded ∧ x.outputRefs.has edge.sourcePort = true ∨
        x.status = .skipped ∧ timedOut x.outputRefs = true ∧
          ∃ spec, definition.node? edge.sourceNode = some spec ∧ spec.timeoutTarget = some edge.targetNode)

/-- A loop goes on that starts the branch, or the row of the source lets it in. -/
def Event.opens (definition : WorkflowDefinition) (escape : Escape) (branch : String) : Event → Prop
  | .call s c =>
    (c.isContinue = true ∧ ∃ loop, c.node? = some loop ∧ branch ∈ definition.loopTargets loop.nodeId) ∨
      ∃ edge ∈ definition.incoming branch, ∃ x ∈ s.nodeRuns,
        x.nodeId = edge.sourceNode ∧ definition.LetsIn escape s.run.input edge x
  | .returned _ => False

namespace World
variable (w : World) (escape : Escape) (source branch : String)

def Escaped : Prop := ∃ event ∈ w.history, event.escapes escape source

/-- The branch is ready only once its source has escaped. -/
def WaitsForEscape : Prop :=
  ∀ x ∈ w.store.nodeRuns, x.nodeId = branch → x.status = .ready → w.Escaped escape source

/-- What opens the branch comes after the escape. -/
def OpensAfterEscape : Prop :=
  ∀ event past, event :: past <:+ w.history →
    event.opens w.store.definition escape branch →
    ∃ earlier ∈ event :: past, earlier.escapes escape source

end World

/-! ### The one edge -/

section
variable {definition : WorkflowDefinition} {source branch : String} {escape : Escape}

/-- No other edge that is no loop-back edge enters the branch. -/
theorem EscapeBranch.incoming (h : EscapeBranch definition source branch escape)
    (hc : definition.Compiled) : ∃ edge, definition.incoming branch = [edge] ∧
      edge.sourceNode = source ∧ edge.targetNode = branch := by
  cases h with
  | @limit spec edge isSpec kind names only leaves =>
    have hmem : edge ∈ definition.incoming branch := only ▸ List.mem_singleton_self _
    exact ⟨edge, only, leaves, (mem_incoming.mp hmem).2.2⟩
  | @timeout spec edge isSpec kind names only leaves =>
    have hmem : edge ∈ definition.edges.filter (fun edge => edge.targetNode = branch) :=
      only ▸ List.mem_singleton_self _
    obtain ⟨hedge, htarget⟩ := List.mem_filter.mp hmem
    -- Only a loop has loop-back edges.
    have hforward : edge.loopBack = false := by
      obtain ⟨s, -, -, -, hs, -, -, -, -, hloop⟩ := hc.edge edge hedge
      rw [leaves, isSpec] at hs
      obtain rfl : spec = s := Option.some.inj hs
      by_contra hback
      have := hloop (by simpa using hback)
      rcases kind with h | h <;> rw [h] at this <;> cases this
    refine ⟨edge, ?_, leaves, by simpa using htarget⟩
    rw [WorkflowDefinition.incoming, ← List.filter_filter, only]
    simp [hforward]

end

/-! ### What a pass reads -/

/-- Values read again under the same keys. -/
theorem lookup_reread (read : String → Except PyError Value) {items outputs : Refs}
    (h : List.Forall₂ (fun item output => (do
      let v ← read item.1
      return (item.1, v) : Except PyError (String × Value)) = .ok output) items outputs) (key : String) :
    outputs.has key = items.has key ∧ ∀ v, outputs.lookup key = some v → read key = .ok v := by
  induction h with
  | nil => exact ⟨rfl, fun v hv => nomatch hv⟩
  | @cons item output items outputs hread hrest ih =>
    obtain ⟨v, hv, hitem⟩ := ok_of_bind hread
    obtain rfl : (item.1, v) = output := Except.ok.inj hitem
    obtain ⟨itemKey, u⟩ := item
    unfold Dict.has at ih ⊢
    by_cases hkey : key = itemKey
    · simp only [List.lookup_cons, hkey, beq_self_eq_true, Option.isSome_some, true_and]
      intro u hu
      rw [hv, Option.some.inj hu]
    · have hne : (key == itemKey) = false := by simpa using hkey
      simp only [List.lookup_cons, hne]
      exact ih

section
variable {rows : List NodeRun} {appends : Appends} {x : NodeRun} {outputs : Refs}

/-- The appends add no key, and what is not a list stays as it is. -/
theorem outputsAfter_keeps (hx : bySpec rows x.nodeId = some x)
    (h : outputsAfter rows appends x = .ok outputs) :
    (∀ key, outputs.has key = x.outputRefs.has key) ∧
      (timedOut outputs = true → timedOut x.outputRefs = true) := by
  unfold outputsAfter at h
  split at h
  · rw [Except.ok.inj h]
    exact ⟨fun _ => rfl, fun h => h⟩
  · have hreread := lookup_reread (fun key => outputAfter rows appends (x.nodeId, key))
      (mapM_ok h)
    refine ⟨fun key => (hreread key).1, fun htimeout => ?_⟩
    have hread := (hreread "timeout").2 _ (of_decide_eq_true htimeout)
    have hhas := (hreread "timeout").1
    rw [Dict.has, of_decide_eq_true htimeout] at hhas
    obtain ⟨v, hv⟩ := Option.isSome_iff_exists.mp hhas.symm
    have hlisted : listedOutput rows (x.nodeId, "timeout") = v := by
      simp only [listedOutput, hx, hv, Option.getD_some]
    unfold outputAfter grown at hread
    rw [hlisted] at hread
    unfold timedOut
    rw [hv]
    cases v with
    | list xs =>
      obtain ⟨added, -, hlist⟩ := ok_of_bind hread
      cases Except.ok.inj hlist
    | _ => rw [Except.ok.inj hread]; rfl

end

theorem joinDecision_single {spec : NodeSpec} {mode : JoinMode} {state : EdgeState}
    (h : joinDecision spec mode [state] = .ready) : state = .active ∨
      state ≠ .unresolved ∧ mode = .all ∧ spec.nodeKind = .join ∧
        spec.inputPorts.all (fun port => !port.required) = true := by
  unfold joinDecision at h
  cases state with
  | active => exact .inl rfl
  | unresolved => cases mode <;> simp at h
  | disabled =>
    cases mode with
    | any => simp at h
    | all =>
      refine .inr ⟨by decide, rfl, ?_⟩
      by_cases hjoin : spec.nodeKind = .join
      · simpa [hjoin] using h
      · simp [hjoin] at h

section
variable {definition : WorkflowDefinition} {source branch : String} {escape : Escape}
  {input : Refs} {rows : List NodeRun} {appends : Appends} {edge : EdgeSpec} {state : EdgeState}

/-- An edge is decided once its source is. -/
theorem edgeState_decided (h : edgeState definition input rows appends edge = .ok state)
    (hstate : state ≠ .unresolved) :
    ∃ x ∈ rows, x.nodeId = edge.sourceNode ∧ x.status.isNonterminal = false := by
  unfold edgeState at h
  cases hx : bySpec rows edge.sourceNode with
  | none =>
    rw [hx] at h
    cases h
  | some x =>
    rw [hx] at h
    obtain ⟨outputs, -, h⟩ := ok_of_bind h
    refine ⟨x, (bySpec_some hx).1, (bySpec_some hx).2, ?_⟩
    cases hst : x.status with
    | succeeded | failed | cancelled | skipped | manualReconcileRequired => rfl
    | pending | ready | running | waitingApproval | waitingInput | waiting | retryWait =>
      rw [hst] at h
      exact absurd (Except.ok.inj h).symm hstate

theorem limitTarget_loop {spec : NodeSpec} {target : String} (h : spec.limitTarget = some target) :
    spec.nodeKind = .loop := by
  refine spec.loopPolicy_kind.mp ?_
  unfold NodeSpec.limitTarget at h
  cases hpolicy : spec.loopPolicy with
  | none => simp [hpolicy] at h
  | some policy => rfl

/-- The edge into the branch is active only where the source's row lets it in or is at the
limit. -/
theorem edgeState_active (hbranch : EscapeBranch definition source branch escape)
    (hsource : edge.sourceNode = source) (htarget : edge.targetNode = branch)
    (h : edgeState definition input rows appends edge = .ok .active) :
    ∃ x ∈ rows, x.nodeId = edge.sourceNode ∧ (definition.LetsIn escape input edge x ∨
      escape = .limit ∧ x.status = .skipped ∧ x.outputRefs.has "limit_reasons" = true) := by
  unfold edgeState at h
  cases hx : bySpec rows edge.sourceNode with
  | none =>
    rw [hx] at h
    cases h
  | some x =>
    rw [hx] at h
    obtain ⟨hmem, hnode⟩ := bySpec_some hx
    obtain ⟨outputs, houtputs, h⟩ := ok_of_bind h
    obtain ⟨hkeys, htimeout⟩ := outputsAfter_keeps (hnode.symm ▸ hx) houtputs
    obtain ⟨spec, hspec⟩ : ∃ spec, definition.node? edge.sourceNode = some spec := by
      rw [hsource]
      cases hbranch <;> exact ⟨_, ‹_›⟩
    refine ⟨x, hmem, hnode, ?_⟩
    cases hst : x.status with
    | succeeded =>
      rw [hst] at h
      simp only [hspec, succeededState] at h
      split at h
      · cases h
      · rename_i hlimit
        split at h
        · cases h
        · split at h
          · rename_i hport
            refine .inl (.inr ⟨⟨rows, appends, outputs, houtputs, h⟩, .inl ⟨?_, hst, hkeys _ ▸ hport⟩⟩)
            -- A loop that succeeded never takes the edge to its limit's branch.
            cases hbranch with
            | timeout => rfl
            | limit isSpec kind names =>
              rw [hsource, isSpec] at hspec
              obtain rfl := Option.some.inj hspec
              simp [kind, names, htarget] at hlimit
          · cases h
    | skipped =>
      rw [hst] at h
      simp only [hspec, skippedState] at h
      split at h
      · rename_i hescape
        simp only [Bool.or_eq_true, Bool.and_eq_true, decide_eq_true_eq] at hescape
        rcases hescape with ⟨hout, hnames⟩ | ⟨hreasons, hnames⟩
        · exact .inl (.inr ⟨⟨rows, appends, outputs, houtputs, h⟩,
            .inr ⟨hst, htimeout hout, spec, hspec, hnames⟩⟩)
        · refine .inr ⟨?_, rfl, hkeys _ ▸ hreasons⟩
          cases hbranch with
          | limit => rfl
          | timeout isSpec kind names =>
            -- Only loops have a limit.
            rw [hsource, isSpec] at hspec
            have hloop := limitTarget_loop hnames
            rw [← Option.some.inj hspec] at hloop
            rcases kind with h | h <;> rw [h] at hloop <;> cases hloop
      · cases h
    | failed | cancelled | manualReconcileRequired | pending | ready | running | waitingApproval
    | waitingInput | waiting | retryWait =>
      rw [hst] at h
      cases h

end

/-! ### Runs -/

theorem createRun_waits {args : RunRequest} {s : GraphStore} (h : createRun args = .ok s) {x : NodeRun}
    (hx : x ∈ s.nodeRuns) {edge : EdgeSpec} (hedge : edge ∈ s.definition.incoming x.nodeId) :
    x.status = .pending := by
  unfold createRun at h
  obtain ⟨compiled, hvalid, h⟩ := ok_of_bind h
  dsimp only at h
  split at h
  · cases h
  · cases h
    unfold validateRun at hvalid
    obtain ⟨c, hcompile, hvalid⟩ := ok_of_bind hvalid
    have hcompile := ok_of_mapError hcompile
    obtain ⟨hdefinition, hforward, htarget⟩ := mem_incoming.mp hedge
    obtain ⟨node, hnode, rfl⟩ := List.mem_map.mp hx
    have hnone : node.nodeId ∉ compiled.entryNodeIds := by
      obtain ⟨-, hvalid⟩ := ok_of_guard hvalid
      obtain ⟨_, -, hvalid⟩ := ok_of_bind hvalid
      rw [← Except.ok.inj hvalid, (compile_result hcompile).1, mem_entries]
      rintro ⟨-, hzero⟩
      have hback := ((compile_passes hcompile).indegree_zero _).mp hzero edge hdefinition htarget
      rw [hforward] at hback
      cases hback
    simp only [initialNodeRun, hnone, if_false]

namespace Recorded
variable {start : GraphStore} {w : World}

/-- The run keeps its input. -/
theorem input (h : Recorded start Reason Done w) : w.store.run.input = start.run.input := by
  induction h with
  | start => rfl
  | returned _ _ ih => exact ih
  | @call w c s' hw effect reason ih =>
    cases effect with
    | updateRun =>
      cases reason with
      | read hr => cases hr
      | updateRun _ _ _ input => exact input.trans ih
    | read | updateNodeRun | startNodeAttempt | finishNodeAttempt | updateAttempt => exact ih

theorem found_input (h : Recorded start Reason Done w) {s : GraphStore} {c : RepoCall}
    (hc : .call s c ∈ w.history) : s.run.input = start.run.input := by
  obtain ⟨past, -, hpast, -⟩ := h.reason hc
  exact hpast.input

/-- What makes the branch ready opens it, unless its source has escaped. -/
theorem ready_escaped (h : Recorded start Reason Done w) {source branch : String} {escape : Escape}
    (hbranch : EscapeBranch start.definition source branch escape) (hc : start.definition.Compiled)
    (hopens : w.OpensAfterEscape escape source branch) (hready : ReadyReason w branch) :
    w.Escaped escape source := by
  have hafter {event : Event} (hmem : event ∈ w.history)
      (hopen : event.opens start.definition escape branch) : w.Escaped escape source := by
    obtain ⟨later, past, hsplit⟩ := List.append_of_mem hmem
    obtain ⟨earlier, hearlier, hescape⟩ :=
      hopens event past (hsplit ▸ List.suffix_append ..) (h.definition ▸ hopen)
    exact ⟨earlier, hsplit ▸ List.mem_append_right _ hearlier, hescape⟩
  cases hready with
  | @unlocked s via loop revision goesOn status target =>
    refine hafter goesOn (.inl ⟨?_, loop, rfl, h.definition ▸ target⟩)
    simpa [RepoCall.isContinue] using status
  | @propagated s₀ s spec first others appends states ran listed incoming read isSpec decided =>
    obtain ⟨edge, honly, hsource, htarget⟩ := hbranch.incoming hc
    rw [h.definition] at incoming read isSpec
    rw [honly] at incoming
    obtain ⟨rfl, rfl⟩ := List.cons.inj incoming
    obtain ⟨state, _, hstate, hnil, rfl⟩ := List.forall₂_cons_left_iff.mp (mapM_ok read)
    obtain rfl := List.forall₂_nil_left_iff.mp hnil
    have hinput : s₀.run.input = s.run.input := (h.found_input ran).trans (h.found_input listed).symm
    rw [hinput] at hstate
    have hopen (x : NodeRun) (hx : x ∈ s.nodeRuns) (hnode : x.nodeId = edge.sourceNode)
        (hlets : start.definition.LetsIn escape s.run.input edge x) : w.Escaped escape source :=
      hafter listed (.inr ⟨edge, honly ▸ List.mem_singleton_self _, x, hx, hnode, hlets⟩)
    rcases joinDecision_single decided with rfl | ⟨hdecided, hmode, hjoin, hports⟩
    · obtain ⟨x, hx, hnode, hlets | ⟨rfl, hskip, hreasons⟩⟩ :=
        edgeState_active hbranch hsource htarget hstate
      · exact hopen x hx hnode hlets
      · exact ⟨_, listed, x, hx, hnode.trans hsource, hskip, hreasons⟩
    · obtain ⟨x, hx, hnode, hdone⟩ := edgeState_decided hstate hdecided
      exact hopen x hx hnode (.inl ⟨⟨hmode, spec, htarget ▸ isSpec, hjoin, hports⟩, hdone⟩)

/-- Before the escape the branch is not active. -/
theorem idle_or_escaped (h : Recorded start Reason Done w) (hi : start.Initial) {source branch : String}
    {escape : Escape} (hbranch : EscapeBranch start.definition source branch escape)
    (hc : start.definition.Compiled)
    (hwaits : ∀ x ∈ start.nodeRuns, x.nodeId = branch → x.status = .pending)
    (hopens : w.OpensAfterEscape escape source branch) :
    w.Escaped escape source ∨
      ∀ x ∈ w.store.nodeRuns, x.nodeId = branch → x.status.isActive = false := by
  induction h with
  | start => exact .inr fun x hx hnode => by rw [hwaits x hx hnode]; rfl
  | @returned w op hw done ih =>
    have hbefore := ih fun event past hs => hopens event past (hs.trans (List.suffix_cons ..))
    exact hbefore.imp_left fun ⟨event, hmem, hescape⟩ => ⟨event, List.mem_cons_of_mem _ hmem, hescape⟩
  | @call w c s' hw effect reason ih =>
    have hdefinition : w.store.definition = s'.definition := effect.definition.symm
    have hpast : w.OpensAfterEscape escape source branch := fun event past hs hopen =>
      hopens event past (hs.trans (List.suffix_cons ..)) (hdefinition ▸ hopen)
    have hlift (hescaped : w.Escaped escape source) :
        (w.committed c s').Escaped escape source := by
      obtain ⟨event, hmem, hescape⟩ := hescaped
      exact ⟨event, List.mem_cons_of_mem _ hmem, hescape⟩
    rcases ih hpast with hescaped | hidle
    · exact .inl (hlift hescaped)
    by_cases hescaped : w.Escaped escape source
    · exact .inl (hlift hescaped)
    refine .inr fun y hy hnode => ?_
    obtain ⟨x, hx, -, hsame, hrow⟩ := hw.row_before hi.keyed effect reason hy
    rcases hrow with ⟨rfl, -⟩ | hwritten
    · exact hidle _ hx hnode
    · cases reason with
      | read hr => rw [RepoCall.node?_of_isRead hr] at hwritten; cases hwritten
      | updateRun | updateAttempt => cases hwritten
      | @updateNodeRun _ _ _ _ z hz hid _ _ ready =>
        obtain rfl := Option.some.inj hwritten
        by_contra hactive
        have hz' := hidle z hz.mem (hid.symm.trans hnode)
        rcases ready (by simpa using hactive) with hwas | hready
        · rw [hz'] at hwas
          cases hwas
        · rw [← hid, hnode] at hready
          exact hescaped (hw.ready_escaped hbranch hc hpast hready)
      | @startNodeAttempt _ _ _ _ z hz hid why =>
        obtain rfl := Option.some.inj hwritten
        have hz' := hidle z hz.mem (hid.symm.trans hnode)
        rcases why.was with h | h <;> rw [h] at hz' <;> cases hz'
      | @finishNodeAttempt _ _ _ z hz hid why =>
        obtain rfl := Option.some.inj hwritten
        have hz' := hidle z hz.mem (hid.symm.trans hnode)
        rw [why.was] at hz'
        cases hz'

end Recorded

/-! ### An approval and a loop -/

/-- The answer goes to `next`; without one `late` takes over. -/
def askWorkflow : WorkflowDefinition :=
  { workflowId := "ask"
    nodes :=
      [{ nodeId := "ask", nodeKind := .approval, outputPorts := [{ name := "answer" }],
         timeoutPolicy := some { onTimeoutNodeId := some "late" } },
       { nodeId := "next", nodeKind := .agent, inputPorts := [{ name := "answer" }] },
       { nodeId := "late", nodeKind := .agent, inputPorts := [{ name := "answer", required := false }] }]
    edges :=
      [{ edgeId := "next", sourceNode := "ask", sourcePort := "answer", targetNode := "next",
         targetPort := "answer" },
       { edgeId := "late", sourceNode := "ask", sourcePort := "answer", targetNode := "late",
         targetPort := "answer" }]
    status := .published }

def askRequest : RunRequest := { definition := askWorkflow, runId := "run", nodeRunId := id }

def askStore : GraphStore :=
  { definition := askWorkflow
    run :=
      { id := "run", workflowDefinitionId := "ask", workflowDefinitionVersion := 1,
        budgetSnapshot := {} }
    nodeRuns :=
      [{ id := "ask", workflowRunId := "run", nodeId := "ask", status := .ready },
       { id := "next", workflowRunId := "run", nodeId := "next" },
       { id := "late", workflowRunId := "run", nodeId := "late" }] }

theorem askStore_created : createRun askRequest = .ok askStore := rfl

theorem askWorkflow_late : EscapeBranch askWorkflow "ask" "late" .timeout :=
  .timeout rfl (.inl rfl) rfl rfl rfl

/-- Someone is asked. -/
def asked : List (Move (Nat × Op)) :=
  [.start (0, .startRun 0)] ++ steps 0 3 ++ [.start (0, .enterBoundary "ask" .approval "t")] ++ steps 0 9

/-- A loop without loop-back edges. -/
def tryWorkflow : WorkflowDefinition :=
  { workflowId := "try"
    nodes :=
      [{ nodeId := "try", nodeKind := .loop,
         outputPorts := [{ name := "done", required := false }, { name := "limit", required := false }],
         loopPolicy := some threeRounds, loopPolicy_kind := threeRounds_loops },
       { nodeId := "next", nodeKind := .agent, inputPorts := [{ name := "done" }], inputPorts_nodup := done_nodup },
       { nodeId := "stop", nodeKind := .agent, inputPorts := [{ name := "limit", required := false }]
         inputPorts_nodup := limit_nodup }]
    edges :=
      [{ edgeId := "done", sourceNode := "try", sourcePort := "done", targetNode := "next",
         targetPort := "done" },
       { edgeId := "limit", sourceNode := "try", sourcePort := "limit", targetNode := "stop",
         targetPort := "limit" }]
    status := .published }

def tryRequest : RunRequest := { definition := tryWorkflow, runId := "run", nodeRunId := id }

def tryStore : GraphStore :=
  { definition := tryWorkflow
    run :=
      { id := "run", workflowDefinitionId := "try", workflowDefinitionVersion := 1,
        budgetSnapshot := {} }
    nodeRuns :=
      [{ id := "try", workflowRunId := "run", nodeId := "try", status := .ready },
       { id := "next", workflowRunId := "run", nodeId := "next" },
       { id := "stop", workflowRunId := "run", nodeId := "stop" }] }

theorem tryStore_created : createRun tryRequest = .ok tryStore := rfl

theorem tryWorkflow_stop : EscapeBranch tryWorkflow "try" "stop" .limit :=
  .limit rfl rfl rfl rfl rfl

/-- A branch waits for its escape in every run in which no loop that goes on starts it, and its
source does not let it in, before the escape. -/
theorem branch_waits_for_its_escape {backend : Backend} {args : RunRequest} {start : GraphStore}
    (hcreate : createRun args = .ok start) (moves : List (Move (Nat × Op))) {source branch : String}
    {escape : Escape} (hbranch : EscapeBranch start.definition source branch escape)
    (hopens : (worldAfter backend start moves).OpensAfterEscape escape source branch) :
    (worldAfter backend start moves).WaitsForEscape escape source branch := by
  have hcreated := createRun_created hcreate
  have hw : Recorded start Reason Done (worldAfter backend start moves) :=
    played_recorded backend hcreated.initial.keyed moves
  have hwaits (x : NodeRun) (hx : x ∈ start.nodeRuns) (hnode : x.nodeId = branch) :
      x.status = .pending := by
    obtain ⟨edge, honly, -⟩ := hbranch.incoming hcreated.compiled
    have hedge : edge ∈ start.definition.incoming x.nodeId := by rw [hnode, honly]; exact List.mem_singleton_self _
    exact createRun_waits hcreate hx hedge
  rcases hw.idle_or_escaped hcreated.initial hbranch hcreated.compiled hwaits hopens with hescaped | hidle
  · exact fun _ _ _ _ => hescaped
  · intro x hx hnode hready
    have hquiet := hidle x hx hnode
    rw [hready] at hquiet
    cases hquiet

theorem worldAfter_definition {backend : Backend} {args : RunRequest} {start : GraphStore}
    (hcreate : createRun args = .ok start) (moves : List (Move (Nat × Op))) :
    (worldAfter backend start moves).store.definition = start.definition :=
  (played_recorded backend (createRun_keyed hcreate) moves).definition

/-- No loop goes on, and the row of the source is not decided. -/
def Event.isQuiet (source : String) : Event → Bool
  | .call s c => !c.isContinue && s.nodeRuns.all fun x => x.nodeId ≠ source || x.status.isNonterminal
  | .returned _ => true

theorem opensAfterEscape_of_undecided {w : World} {escape : Escape} {source branch : String}
    (hsource : ∀ edge ∈ w.store.definition.incoming branch, edge.sourceNode = source)
    (h : ∀ tail ∈ w.history.tails, (∃ event ∈ tail, event.escapes escape source) ∨
      ∀ event ∈ tail.head?, event.isQuiet source = true) : w.OpensAfterEscape escape source branch := by
  intro event past hs hopen
  rcases h _ ((List.mem_tails ..).mpr hs) with hescaped | hquiet
  · exact hescaped
  · have hevent := hquiet event rfl
    cases event with
    | returned op => exact hopen.elim
    | call s c =>
      obtain ⟨hcontinue, hundecided⟩ := Bool.and_eq_true_iff.mp hevent
      rcases hopen with ⟨hgoesOn, -⟩ | ⟨edge, hedge, x, hx, hnode, hlets⟩
      · rw [hgoesOn] at hcontinue
        cases hcontinue
      · have hpending : x.status.isNonterminal = true := by
          simpa [hnode.trans (hsource edge hedge)] using List.all_eq_true.mp hundecided x hx
        rcases hlets with ⟨-, hdone⟩ | ⟨-, ⟨-, hst, -⟩ | ⟨hst, -⟩⟩
        · rw [hdone] at hpending
          cases hpending
        · rw [hst] at hpending
          cases hpending
        · rw [hst] at hpending
          cases hpending

/-- Without an answer the branch of the timeout is entered. -/
def unanswered : List (Move (Nat × Op)) :=
  asked ++ [.start (6, .timeoutBoundary "ask" "t")] ++ steps 0 40

theorem branch_waits_for_its_escape_unanswered :
    (∃ x ∈ (worldAfter .sqlite askStore unanswered).store.nodeRuns,
        x.nodeId = "late" ∧ x.status = .ready) ∧
      (worldAfter .sqlite askStore unanswered).WaitsForEscape .timeout "ask" "late" := by
  refine ⟨by decide +kernel,
    branch_waits_for_its_escape askStore_created unanswered askWorkflow_late ?_⟩
  refine opensAfterEscape_of_undecided ?_ (by decide +kernel)
  rw [worldAfter_definition askStore_created]
  show ∀ edge ∈ askWorkflow.incoming "late", edge.sourceNode = "ask"
  decide

/-- The answer comes in time. -/
def answered : List (Move (Nat × Op)) :=
  asked ++ [.start (6, .resolveBoundary "ask"
    { waitToken := "t", payload := [("answer", .bool true)] })] ++ steps 0 40

/-- The loop goes on. -/
def continued : List (Move (Nat × Op)) :=
  [.start (0, .startRun 0)] ++ steps 0 3 ++ [.start (6, .advanceLoop (again "try"))] ++ steps 0 40

/-- An answer starts the branch of the timeout too, and a loop without loop-back edges that goes
on starts the branch of its limit. -/
theorem branches_start_without_escape :
    (¬∀ (backend : Backend) (args : RunRequest) (start : GraphStore), createRun args = .ok start →
      ∀ (moves : List (Move (Nat × Op))) (source branch : String),
        EscapeBranch start.definition source branch .timeout →
        (worldAfter backend start moves).WaitsForEscape .timeout source branch) ∧
    ¬∀ (backend : Backend) (args : RunRequest) (start : GraphStore), createRun args = .ok start →
      ∀ (moves : List (Move (Nat × Op))) (source branch : String),
        EscapeBranch start.definition source branch .limit →
        (worldAfter backend start moves).WaitsForEscape .limit source branch := by
  constructor
  · intro h
    have hwaits := h .sqlite askRequest askStore askStore_created answered "ask" "late" askWorkflow_late
    obtain ⟨x, hx, hnode, hready⟩ : ∃ x ∈ (worldAfter .sqlite askStore answered).store.nodeRuns,
        x.nodeId = "late" ∧ x.status = .ready := by decide +kernel
    have hescaped : ∃ event ∈ (worldAfter .sqlite askStore answered).history,
        event.escapes .timeout "ask" := hwaits x hx hnode hready
    revert hescaped
    decide +kernel
  · intro h
    have hwaits := h .sqlite tryRequest tryStore tryStore_created continued "try" "stop" tryWorkflow_stop
    obtain ⟨x, hx, hnode, hready⟩ : ∃ x ∈ (worldAfter .sqlite tryStore continued).store.nodeRuns,
        x.nodeId = "stop" ∧ x.status = .ready := by decide +kernel
    have hescaped : ∃ event ∈ (worldAfter .sqlite tryStore continued).history,
        event.escapes .limit "try" := hwaits x hx hnode hready
    revert hescaped
    decide +kernel

end Operant.Graph
