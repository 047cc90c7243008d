import Operant.Graph.History
import Operant.Graph.Steps

/-! Why a call is made.

`Reason` says, for every write of every operation, which row it replaces and what the
operation had read before: facts about the history, whoever else was writing meanwhile.
`played_recorded` is the one place where the operations are gone through; what is shown
about concurrent callers afterwards is an induction on histories. -/
namespace Operant.Graph
open Operant.Python Operant.Calls

/-! ### Reasons -/

namespace World
variable (w : World)

/-- The run was read like this. -/
def ReadRun (site : Site) (run : GraphWorkflowRun) : Prop :=
  ∃ s, .call s (.getRun site) ∈ w.history ∧ s.run = run

/-- The node run was once stored like this. -/
def SawNode (node : NodeRun) : Prop := ∃ s, w.Found s ∧ node ∈ s.nodeRuns

/-- The attempt was once stored like this. -/
def SawAttempt (attempt : NodeAttempt) : Prop := ∃ s, w.Found s ∧ attempt ∈ s.attempts

end World

/-- What `_terminalize_active_nodes` made of a node, and why. -/
inductive StopReason (w : World) (x : NodeRun) : NodeRunStatus → Prop where
  | wasRunning {s : GraphStore} {attemptId : String} {attempt : NodeAttempt} {spec : NodeSpec}
    (active : x.activeAttemptId = some attemptId)
    (found : .call s (.getAttempt .terminalizeActiveNodes attemptId) ∈ w.history)
    (read : s.attempt? attemptId = some attempt) (running : attempt.result = .running)
    (isSpec : w.store.definition.node? x.nodeId = some spec)
    (wrote : ∃ s', .call s' (.updateAttempt .terminalizeActiveNodes attempt
      (attempt.stopped .cancelled (unknownNonIdempotentWrite spec attempt))) ∈ w.history) :
    StopReason w x
      (if unknownNonIdempotentWrite spec attempt then .manualReconcileRequired else .cancelled)
  | hadEnded {s : GraphStore} {attemptId : String} {attempt : NodeAttempt} {status : NodeRunStatus}
    (active : x.activeAttemptId = some attemptId)
    (found : .call s (.getAttempt .terminalizeActiveNodes attemptId) ∈ w.history)
    (read : s.attempt? attemptId = some attempt) (ended : attempt.result ≠ .running)
    (settled : status = .succeeded ∨ status = .cancelled) : StopReason w x status
  | noAttempt {status : NodeRunStatus} (active : x.activeAttemptId = none)
    (settled : status = .cancelled ∨ status = .manualReconcileRequired) : StopReason w x status

/-- What `_reset_interrupted_nodes` made of a running node, and why. -/
structure ResetReason (w : World) (x : NodeRun) (status : NodeRunStatus) : Prop where
  running : x.status = .running
  settled : status ≠ .running
  read : ∃ s spec, .call s (.listAttempts x.id) ∈ w.history ∧ x ∈ s.nodeRuns ∧
    w.store.definition.node? x.nodeId = some spec ∧
    ∀ last : NodeAttempt, (s.attemptsOf x.id).getLast? = some last →
      (last.result = .running → ∃ s', .call s' (.updateAttempt .resetInterruptedNodes last
        (last.stopped .interrupted (unknownNonIdempotentWrite spec last))) ∈ w.history) ∧
      (last.result ≠ .succeeded → unknownNonIdempotentWrite spec last = true →
        status = .manualReconcileRequired)

/-- Why a node row `x` is replaced by `node`. -/
inductive NodeReason (w : World) (x node : NodeRun) : Site → Prop where
  | stopped (nonterminal : x.status.isNonterminal = true) (why : StopReason w x node.status)
    (released : node.activeAttemptId = none) : NodeReason w x node .terminalizeActiveNodes
  | reset (why : ResetReason w x node.status) (released : node.activeAttemptId = none) :
    NodeReason w x node .resetInterruptedNodes
  | advanced (status : node.status ≠ .running ∧ node.status ≠ .manualReconcileRequired)
    (active : node.activeAttemptId = x.activeAttemptId)
    (was : x.status = .ready ∨ x.status = .running) : NodeReason w x node .advanceLoop
  /-- A node that nothing was running goes on to another status. -/
  | idle {site : Site} (was : x.status ≠ .running ∧ x.status ≠ .manualReconcileRequired)
    (status : node.status ≠ .running ∧ node.status ≠ .manualReconcileRequired)
    (active : node.activeAttemptId = x.activeAttemptId ∨ node.activeAttemptId = none) :
    NodeReason w x node site
  /-- Only the inputs change. -/
  | inputs {site : Site} (status : node.status = x.status)
    (active : node.activeAttemptId = x.activeAttemptId) : NodeReason w x node site

/-- Why the run, now `w.store.run`, is saved as `run` after a look at `scan`. -/
inductive RunReason (w : World) (scan : List NodeRun) (run : GraphWorkflowRun) : Prop where
  | started (was : w.store.run.status.isTerminal = false) (status : run.status = .running)
  | stopped (read : w.ReadRun .saveRun w.store.run)
    (status : run.status = .failed ∨ run.status = .cancelled)
    (ids : scan.map NodeRun.id = w.store.nodeRuns.map NodeRun.id)
    (settled : ∀ row ∈ scan, row.status.isNonterminal = false ∧
      (row.status = .manualReconcileRequired →
        ∃ s, .call s (.listNodeRuns .terminalizeActiveNodes) ∈ w.history ∧ row ∈ s.nodeRuns))
  | reread (read : w.ReadRun .saveRun w.store.run)
    (status : run.status = .manualReconcileRequired ∨ run.status = .interrupted)
  | refreshed {s : GraphStore} (was : w.store.run.status.isTerminal = false)
    (found : .call s (.listNodeRuns .refreshRunActivityStatus) ∈ w.history)
    (listed : scan = s.nodeRuns)
    (status : run.status = activityStatus w.store.run.status (scan.map NodeRun.status))
  | recreated (was : w.store.run.status.isTerminal = false) (status : run.status = .created)
  | finished (read : w.ReadRun .finishIfTerminal w.store.run) (status : run.status = .completed)
    (ids : scan.map NodeRun.id = w.store.nodeRuns.map NodeRun.id)
    (done : ∀ row ∈ scan, row.status.isDone = true)
  | accounted (status : run.status = w.store.run.status)

/-- What saving the run, now `w.store.run`, as `run` does to its accounts. -/
inductive UsageReason (w : World) (run : GraphWorkflowRun) : Site → Prop where
  | kept {site : Site} (site_ne : ∀ seen, site ≠ .accounted seen)
    (consumption : run.consumption = w.store.run.consumption)
    (resumed : run.status.isActive = true →
      w.store.run.status.isActive = true ∨ site = .startRun ∨ site = .refreshRunActivityStatus) :
    UsageReason w run site
  | accounted {seen : Consumption} (within : run.status.isActive = true → run.overBudget = false) :
    UsageReason w run (.accounted seen)

/-- Why an attempt, read as `seen`, is overwritten by `attempt`. -/
inductive AttemptReason (w : World) (seen attempt : NodeAttempt) : Site → Prop where
  | marked (wrote : attempt = { seen with sideEffectState := .started }) :
    AttemptReason w seen attempt .markSideEffectStarted
  | stopped {site : Site} {x : NodeRun} {spec : NodeSpec} {result : AttemptResult}
    (fromStop : site ≠ .markSideEffectStarted) (node : w.SawNode x) (owner : x.activeAttemptId = some seen.id ∨ seen.nodeRunId = x.id)
    (isSpec : w.store.definition.node? x.nodeId = some spec) (ended : result ≠ .running)
    (wrote : attempt = seen.stopped result (unknownNonIdempotentWrite spec seen)) :
    AttemptReason w seen attempt site

/-- Why `attempt` is started on the node row `x`. -/
structure StartReason (w : World) (requested : Option String) (x node : NodeRun)
    (attempt : NodeAttempt) : Prop where
  was : x.status = .ready ∨ x.status = .retryWait
  iteration : node.iteration = x.iteration
  status : node.status = .running
  active : node.activeAttemptId = some attempt.id
  nodeRunId : attempt.nodeRunId = x.id
  result : attempt.result = .running
  ran : ∃ s, w.Found s ∧ s.run.status = .running ∧ x ∈ s.nodeRuns
  counted : ∃ s, w.Found s ∧ x ∈ s.nodeRuns ∧ attempt.attemptNumber = (s.attemptsOf x.id).length + 1
  key : ∃ s spec, w.Found s ∧ x ∈ s.nodeRuns ∧ w.store.definition.node? x.nodeId = some spec ∧
    attempt.sideEffectState = (if spec.idempotencyClass = .pure then .none else .notStarted) ∧
    attempt.idempotencyKey =
      attemptIdempotencyKey (s.attemptsOf x.id) x spec attempt.sideEffectState requested
  keyed : attempt.hasKeyForSideEffect = true
  owner : node.workflowRunId = x.workflowRunId
  retryCount : node.retryCount = x.retryCount

/-- Why `attempt` is finished on the node row `x`. -/
structure FinishReason (w : World) (x node : NodeRun) (attempt : NodeAttempt) : Prop where
  was : x.status = .running
  iteration : node.iteration = x.iteration
  active : x.activeAttemptId = some attempt.id
  status : node.status ≠ .running
  released : node.activeAttemptId = none
  result : attempt.result ≠ .running
  same : ∃ seen, w.SawAttempt seen ∧ seen.id = attempt.id ∧
    attempt.nodeRunId = seen.nodeRunId ∧ attempt.attemptNumber = seen.attemptNumber ∧
    attempt.idempotencyKey = seen.idempotencyKey
  /-- A write that must not be repeated is not retried. -/
  retryCount : node.retryCount = x.retryCount ∨ ∃ spec,
    w.store.definition.node? x.nodeId = some spec ∧ spec.idempotencyClass ≠ .nonIdempotent
  /-- What has failed is retried as long as the attempt's number is below the bound. -/
  retried : attempt.result = .failed → ∃ spec, w.store.definition.node? x.nodeId = some spec ∧
    (spec.idempotencyClass ≠ .nonIdempotent →
      (node.status = .retryWait ↔ attempt.attemptNumber < spec.retryPolicy.maxAttempts))

/-- Why a node that was not active becomes ready. -/
inductive ReadyReason (w : World) (nodeId : String) : Prop where
  /-- The edges into it called for it, in the rows that a pass has listed. -/
  | propagated {s₀ s : GraphStore} {spec : NodeSpec} {first : EdgeSpec} {others : List EdgeSpec}
    {appends : Appends} {states : List EdgeState}
    (ran : .call s₀ (.getRun .propagateDependencies) ∈ w.history)
    (listed : .call s (.listNodeRuns .propagateDependencies) ∈ w.history)
    (incoming : w.store.definition.incoming nodeId = first :: others)
    (read : (first :: others).mapM
      (edgeState w.store.definition s₀.run.input s.nodeRuns appends) = .ok states)
    (isSpec : w.store.definition.node? nodeId = some spec)
    (decided : joinDecision spec first.joinMode states = .ready) : ReadyReason w nodeId
  /-- A loop that goes on starts it. -/
  | unlocked {s : GraphStore} {via : List (EdgeSpec × NodeRun)} {loop : NodeRun} {revision : Nat}
    (goesOn : .call s (.updateNodeRun .advanceLoop via loop revision) ∈ w.history)
    (status : loop.status = .pending ∨ loop.status = .ready)
    (target : nodeId ∈ w.store.definition.loopTargets loop.nodeId) : ReadyReason w nodeId

/-- Why a call is made in the world it finds. -/
inductive Reason (w : World) : RepoCall → Prop where
  | read {c : RepoCall} (h : c.isRead = true) : Reason w c
  | updateRun {site scan run revision} (h : RunReason w scan run) (usage : UsageReason w run site)
    (budget : run.budgetSnapshot = w.store.run.budgetSnapshot)
    (input : run.input = w.store.run.input) : Reason w (.updateRun site scan run revision)
  | updateNodeRun {site via node revision x} (hx : w.store.Replaces node revision x)
    (nodeId : node.nodeId = x.nodeId) (h : NodeReason w x node site)
    (row : ∃ updates, NodeStep w.store.definition x site updates ∧
      node = { updates with revision := x.revision + 1 })
    (ready : node.status.isActive = true → x.status.isActive = true ∨ ReadyReason w x.nodeId) :
    Reason w (.updateNodeRun site via node revision)
  | startNodeAttempt {requested node attempt revision x} (hx : w.store.Replaces node revision x)
    (nodeId : node.nodeId = x.nodeId) (h : StartReason w requested x node attempt) :
    Reason w (.startNodeAttempt requested node attempt revision)
  | finishNodeAttempt {node attempt revision x} (hx : w.store.Replaces node revision x)
    (nodeId : node.nodeId = x.nodeId) (h : FinishReason w x node attempt) :
    Reason w (.finishNodeAttempt node attempt revision)
  | updateAttempt {site seen attempt} (saw : w.SawAttempt seen) (running : seen.result = .running)
    (h : AttemptReason w seen attempt site) : Reason w (.updateAttempt site seen attempt)

/-- What a returned operation has done: `mark_side_effect_started` has left its mark. -/
def Done (w : World) : Op → Prop
  | .markSideEffectStarted attemptId => ∃ s seen attempt, attempt.id = attemptId ∧
      .call s (.updateAttempt .markSideEffectStarted seen attempt) ∈ w.history
  | _ => True

/-! ### Programs that know what they have read -/

/-- What every call of a run finds. -/
structure GraphStore.Proper (start s : GraphStore) : Prop where
  definition : s.definition = start.definition
  ids : s.nodeRuns.map NodeRun.id = start.nodeRuns.map NodeRun.id
  keyed : s.Keyed

def callRules (backend : Backend) (start : GraphStore) :
    Rules RepoCall RepoCall.Reply GraphError World where
  exec := record backend
  inv w := Recorded start Reason Done w
  rely w w' := w.history <:+ w'.history
  allowed _ _ := True
  refl w := List.suffix_refl w.history
  trans h h' := h.trans h'

/-- The program has reasons for its calls once the events `known` have happened, in their
order, and returns with `Post`. -/
def Safe {α : Type} (backend : Backend) (start : GraphStore) (known : List Event) (p : GraphProg α)
    (Post : α → List Event → Prop) : Prop :=
  ∀ w : World, known.Sublist w.history → p.Holds (callRules backend start)
    (fun a w' => ∃ knows, knows.Sublist w'.history ∧ Post a knows) (fun _ _ => True) w

namespace Safe
variable {α β : Type} {backend : Backend} {start : GraphStore} {known : List Event}
  {Post : α → List Event → Prop}

theorem ret {a : α} (h : Post a known) : Safe backend start known (.ret a) Post :=
  fun _ hw => ⟨known, hw, h⟩

theorem fail {e : GraphError} : Safe backend start known (.fail e : GraphProg α) Post :=
  fun _ _ => trivial

theorem bind {p : GraphProg α} {f : α → GraphProg β} {Post' : β → List Event → Prop}
    (h : Safe backend start known p Post)
    (hf : ∀ a knows, Post a knows → Safe backend start knows (f a) Post') :
    Safe backend start known (p >>= f) Post' := by
  intro w hw
  refine Prog.Holds.bind ((h w hw).mono ?_ fun _ _ _ hx => hx)
  rintro a w' - ⟨knows, hs, ha⟩
  exact hf a knows ha w' hs

theorem lift {x : Except GraphError β} {f : β → GraphProg α}
    (h : ∀ a, x = .ok a → Safe backend start known (f a) Post) :
    Safe backend start known (Prog.lift x >>= f) Post := by
  cases x with
  | ok a => exact h a rfl
  | error e => exact fail

theorem ite {c : Prop} [Decidable c] {p q : GraphProg α} (hp : c → Safe backend start known p Post)
    (hq : ¬c → Safe backend start known q Post) :
    Safe backend start known (if c then p else q) Post := by
  split
  · exact hp ‹_›
  · exact hq ‹_›

/-- What was known before is still known. -/
theorem weaken {p : GraphProg α} {fewer : List Event} (h : Safe backend start fewer p Post)
    (hs : fewer.Sublist known) : Safe backend start known p Post :=
  fun w hw => h w (hs.trans hw)

theorem call {c : RepoCall} {k : c.Reply → GraphProg α} (hk : start.Keyed)
    (reason : ∀ w : World, Recorded start Reason Done w → known.Sublist w.history →
      ∀ s, w.store.Effect c s → Reason w c)
    (h : ∀ s r s', start.Proper s → backend.exec c s = .ok (r, s') →
      Safe backend start (.call s c :: known) (k r) Post) :
    Safe backend start known (.call c k) Post := by
  intro w hw
  refine Prog.holds_call fun w' hr hi _ => ?_
  have hw' : known.Sublist w'.history := hw.trans hr.sublist
  cases he : backend.exec c w'.store with
  | error e => simp only [callRules, record, he]
  | ok reply =>
    obtain ⟨r, s⟩ := reply
    simp only [callRules, record, he]
    have effect := GraphStore.effect_of_exec he
    have hrec : Recorded start Reason Done w' := hi
    exact ⟨.call hrec effect (reason w' hrec hw' s effect), List.suffix_cons ..,
      h w'.store r s ⟨hrec.definition, hrec.ids, hrec.keyed hk⟩ he _ (hw'.cons_cons _)⟩

theorem read {c : RepoCall} {k : c.Reply → GraphProg α} (hk : start.Keyed) (hc : c.isRead = true)
    (h : ∀ s r, start.Proper s → backend.exec c s = .ok (r, s) →
      Safe backend start (.call s c :: known) (k r) Post) :
    Safe backend start known (.call c k) Post := by
  refine call hk (fun _ _ _ _ _ => .read hc) fun s r s' hs he => ?_
  have := (GraphStore.effect_of_exec he).eq_of_read hc
  subst this
  exact h s' r hs he

/-- A program whose result alone matters; what was known before is still known after it. -/
theorem seq {p : GraphProg α} {f : α → GraphProg β} {P : α → Prop} {Post' : β → List Event → Prop}
    (h : Safe backend start known p fun a _ => P a)
    (hf : ∀ a, P a → Safe backend start known (f a) Post') :
    Safe backend start known (p >>= f) Post' := by
  intro w hw
  refine Prog.Holds.bind (((h w hw).frame (F := fun w' => known.Sublist w'.history) ?_).mono ?_ ?_)
  · intro w' hr
    exact hw.trans hr.sublist
  · rintro a w' - ⟨⟨_, _, ha⟩, hk⟩
    exact hf a ha w' hk
  · exact fun _ _ _ _ => trivial

/-! #### Reading -/

theorem getRun {site : Site} {f : GraphWorkflowRun → GraphProg α} (hk : start.Keyed)
    (h : ∀ s, start.Proper s → Safe backend start (.call s (.getRun site) :: known) (f s.run) Post) :
    Safe backend start known (getRun site >>= f) Post := by
  refine read hk rfl fun s r hs he => ?_
  cases he
  exact h s hs

theorem listNodeRuns {site : Site} {f : List NodeRun → GraphProg α} (hk : start.Keyed)
    (h : ∀ s, start.Proper s →
      Safe backend start (.call s (.listNodeRuns site) :: known) (f s.nodeRuns) Post) :
    Safe backend start known (listNodeRuns site >>= f) Post := by
  refine read hk rfl fun s r hs he => ?_
  cases he
  exact h s hs

theorem listAttempts {id : String} {f : List NodeAttempt → GraphProg α} (hk : start.Keyed)
    (h : ∀ s, start.Proper s →
      Safe backend start (.call s (.listAttempts id) :: known) (f (s.attemptsOf id)) Post) :
    Safe backend start known (listAttempts id >>= f) Post := by
  refine read hk rfl fun s r hs he => ?_
  cases he
  exact h s hs

theorem getNodeRun {id : String} {f : NodeRun → GraphProg α} (hk : start.Keyed)
    (h : ∀ s row, start.Proper s → row ∈ s.nodeRuns →
      Safe backend start (.call s (.getNodeRun id) :: known) (f row) Post) :
    Safe backend start known (getNodeRun id >>= f) Post := by
  refine read hk rfl fun s r hs he => ?_
  simp only [Backend.exec, execWith] at he
  cases hf : s.nodeRun? id with
  | none => simp [hf] at he
  | some row =>
    simp only [hf, Except.ok.injEq] at he
    cases he
    exact h s _ hs (GraphStore.nodeRun?_some hf).1

theorem getAttempt {site : Site} {id : String} {f : NodeAttempt → GraphProg α} (hk : start.Keyed)
    (h : ∀ s attempt, start.Proper s → s.attempt? id = some attempt →
      Safe backend start (.call s (.getAttempt site id) :: known) (f attempt) Post) :
    Safe backend start known (getAttempt site id >>= f) Post := by
  refine read hk rfl fun s r hs he => ?_
  simp only [Backend.exec, execWith] at he
  cases hf : s.attempt? id with
  | none => simp [hf] at he
  | some row =>
    simp only [hf, Except.ok.injEq] at he
    cases he
    exact h s _ hs hf

/-- A run pins one definition. -/
theorem getDefinition {workflowId : String} {version : Nat} {f : WorkflowDefinition → GraphProg α}
    (hk : start.Keyed) (h : Safe backend start known (f start.definition) Post) :
    Safe backend start known (getDefinition workflowId version >>= f) Post := by
  refine read hk rfl fun s r hs he => ?_
  simp only [Backend.exec, execWith] at he
  split at he
  · cases he
    rw [hs.definition]
    exact h.weaken (List.sublist_cons_self ..)
  · cases he

theorem definitionAndNode {node : NodeRun} {f : WorkflowDefinition × NodeSpec → GraphProg α}
    (hk : start.Keyed) (h : ∀ spec, start.definition.node? node.nodeId = some spec →
      Safe backend start known (f (start.definition, spec)) Post) :
    Safe backend start known (definitionAndNode node >>= f) Post := by
  unfold Graph.definitionAndNode
  rw [Prog.bind_assoc]
  refine getRun hk fun s _ => ?_
  rw [Prog.bind_assoc]
  refine getDefinition hk ?_
  cases hn : start.definition.node? node.nodeId with
  | none => exact fail
  | some spec => exact (h spec hn).weaken (List.sublist_cons_self ..)

theorem requireRunningRun {f : Unit → GraphProg α} (hk : start.Keyed)
    (h : ∀ s, start.Proper s → s.run.status = .running →
      Safe backend start (.call s (.getRun .requireRunningRun) :: known) (f ()) Post) :
    Safe backend start known (requireRunningRun >>= f) Post := by
  unfold Graph.requireRunningRun
  rw [Prog.bind_assoc]
  refine getRun hk fun s hs => ?_
  by_cases hr : s.run.status = .running
  · simp only [hr, ne_eq, not_true_eq_false, if_false, Prog.pure_eq, Prog.ret_bind]
    exact h s hs hr
  · simp only [ne_eq, hr, not_false_eq_true, if_true, Prog.throw_eq, Prog.fail_bind]
    exact fail

end Safe

/-! #### Writing -/

/-- Some call among `known` found the row stored. -/
def KnowsNode (known : List Event) (x : NodeRun) : Prop :=
  ∃ s c, Event.call s c ∈ known ∧ x ∈ s.nodeRuns

theorem KnowsNode.cons {known : List Event} {x : NodeRun} (h : KnowsNode known x) (e : Event) :
    KnowsNode (e :: known) x := by
  obtain ⟨s, c, hc, hx⟩ := h
  exact ⟨s, c, List.mem_cons_of_mem _ hc, hx⟩

theorem KnowsNode.saw {known : List Event} {x : NodeRun} (h : KnowsNode known x) {w : World}
    (hw : known.Sublist w.history) : w.SawNode x := by
  obtain ⟨s, c, hc, hx⟩ := h
  exact ⟨s, ⟨c, hw.subset hc⟩, hx⟩

/-- A row saved over the one that was read has not been touched since. -/
theorem Recorded.replaces {start : GraphStore} {w : World} (h : Recorded start Reason Done w)
    (hk : start.Keyed) {x y node : NodeRun} (hx : w.SawNode x)
    (hy : w.store.Replaces node x.revision y) (hid : node.id = x.id) :
    w.store.Replaces node x.revision x := by
  obtain ⟨s, hs, hx⟩ := hx
  rcases h.node hk hs hx hy.mem (hid.symm.trans hy.id.symm) with heq | hlt
  · exact heq ▸ hy
  · have := hy.stored
    omega

/-- A row that is stored, and was before the last of the known events, was stored then. -/
theorem Recorded.stored_then {start : GraphStore} {w : World} (h : Recorded start Reason Done w)
    (hk : start.Keyed) {known : List Event} {s : GraphStore} {c : RepoCall} {x : NodeRun}
    (hs : (.call s c :: known).Sublist w.history) (hx : KnowsNode known x)
    (hmem : x ∈ w.store.nodeRuns) : x ∈ s.nodeRuns := by
  obtain ⟨r₁, r₂, heq, hc, hr⟩ := List.cons_sublist_iff.mp hs
  obtain ⟨later, between, rfl⟩ := List.append_of_mem hc
  obtain ⟨s₀, c₀, hc₀, hx₀⟩ := hx
  have hsplit : w.history = later ++ .call s c :: (between ++ r₂) := by rw [heq]; simp
  exact h.node_between hk hsplit (List.mem_append_right _ (hr.subset hc₀)) hx₀ hmem

namespace Safe
variable {α : Type} {backend : Backend} {start : GraphStore} {known : List Event}
  {Post : α → List Event → Prop}

/-- A node becomes active only for a reason. -/
def MayActivate (start : GraphStore) (known : List Event) (x updates : NodeRun) : Prop :=
  updates.status.isActive = true → x.status.isActive = true ∨ ∀ w : World,
    Recorded start Reason Done w → known.Sublist w.history → ReadyReason w x.nodeId

theorem saveNode_known {site : Site} {x updates : NodeRun} {via : List (EdgeSpec × NodeRun)}
    {f : NodeRun → GraphProg α} (hk : start.Keyed) (hx : KnowsNode known x)
    (step : NodeStep start.definition x site updates)
    (reason : ∀ w : World, Recorded start Reason Done w → known.Sublist w.history →
      x ∈ w.store.nodeRuns → NodeReason w x { updates with revision := x.revision + 1 } site)
    (ready : MayActivate start known x updates)
    (h : ∀ s, Safe backend start (.call s (.updateNodeRun site via
        { updates with revision := x.revision + 1 } x.revision) :: known)
      (f { updates with revision := x.revision + 1 }) Post) :
    Safe backend start known (saveNode site x updates via >>= f) Post := by
  refine call hk ?_ fun s _ _ _ _ => h s
  intro w hw hs s' he
  cases he with
  | read hr => cases hr
  | updateNodeRun hy =>
    have hr := hw.replaces hk (hx.saw hs) hy step.id
    exact .updateNodeRun hr step.nodeId (reason w hw hs hr.mem) ⟨_, hw.definition ▸ step, rfl⟩
      fun hactive => (ready hactive).imp_right fun hall => hall w hw hs

theorem saveNode {site : Site} {x updates : NodeRun} {via : List (EdgeSpec × NodeRun)}
    {f : NodeRun → GraphProg α} (hk : start.Keyed) (hx : KnowsNode known x)
    (step : NodeStep start.definition x site updates)
    (reason : ∀ w : World, Recorded start Reason Done w → known.Sublist w.history →
      x ∈ w.store.nodeRuns → NodeReason w x { updates with revision := x.revision + 1 } site)
    (ready : MayActivate start known x updates)
    (h : Safe backend start known (f { updates with revision := x.revision + 1 }) Post) :
    Safe backend start known (saveNode site x updates via >>= f) Post :=
  saveNode_known hk hx step reason ready fun _ => h.weaken (List.sublist_cons_self ..)

theorem finishNodeAttempt {x updates : NodeRun} {attempt : NodeAttempt} {f : NodeRun → GraphProg α}
    (hk : start.Keyed) (hx : KnowsNode known x) (hid : updates.id = x.id)
    (hnode : updates.nodeId = x.nodeId)
    (reason : ∀ w : World, Recorded start Reason Done w → known.Sublist w.history →
      FinishReason w x { updates with revision := x.revision + 1 } attempt)
    (h : Safe backend start known (f { updates with revision := x.revision + 1 }) Post) :
    Safe backend start known (finishNodeAttempt x updates attempt >>= f) Post := by
  refine call hk ?_ fun s _ _ _ _ => h.weaken (List.sublist_cons_self ..)
  intro w hw hs s' he
  cases he with
  | read hr => cases hr
  | finishNodeAttempt hy =>
    have hr := hw.replaces hk (hx.saw hs)
      ⟨hy.mem, hy.id, hy.stored, hy.revision⟩ hid
    exact .finishNodeAttempt hr hnode (reason w hw hs)

theorem updateAttempt {site : Site} {seen attempt : NodeAttempt} {f : Unit → GraphProg α}
    (hk : start.Keyed) (hseen : ∃ s c, Event.call s c ∈ known ∧ seen ∈ s.attempts)
    (running : seen.result = .running)
    (reason : ∀ w : World, Recorded start Reason Done w → known.Sublist w.history →
      AttemptReason w seen attempt site)
    (h : ∀ s, Safe backend start (.call s (.updateAttempt site seen attempt) :: known) (f ()) Post) :
    Safe backend start known (updateAttempt site seen attempt >>= f) Post := by
  refine call hk ?_ fun s _ _ _ _ => h s
  intro w hw hs s' he
  obtain ⟨s₀, c, hc, hmem⟩ := hseen
  exact .updateAttempt ⟨s₀, ⟨c, hs.subset hc⟩, hmem⟩ running (reason w hw hs)

/-- The run row that was read is the one that is replaced. -/
theorem saveRun {site read : Site} {scan : List NodeRun} {s : GraphStore}
    {updates : GraphWorkflowRun} {f : GraphWorkflowRun → GraphProg α} (hk : start.Keyed)
    (hread : Event.call s (.getRun read) ∈ known)
    (reason : ∀ w : World, Recorded start Reason Done w → known.Sublist w.history →
      w.store.run = s.run → RunReason w scan { updates with revision := s.run.revision + 1 } ∧
        UsageReason w { updates with revision := s.run.revision + 1 } site)
    (budget : updates.budgetSnapshot = s.run.budgetSnapshot) (input : updates.input = s.run.input)
    (h : ∀ s', Safe backend start (.call s' (.updateRun site scan
        { updates with revision := s.run.revision + 1 } s.run.revision) :: known)
      (f { updates with revision := s.run.revision + 1 }) Post) :
    Safe backend start known (saveRun site scan s.run updates >>= f) Post := by
  refine call hk ?_ fun s' _ _ _ _ => h s'
  intro w hw hs s' he
  have hrun : w.store.run = s.run := by
    rcases hw.run ⟨_, hs.subset hread⟩ with heq | hlt
    · exact heq
    · exact absurd he.updateRun_inv.1 (by omega)
  obtain ⟨why, usage⟩ := reason w hw hs hrun
  exact .updateRun why usage (hrun ▸ budget) (hrun ▸ input)

end Safe
end Operant.Graph
