import Operant.Graph.Attempts

/-! Stops that lose nothing.

The mark of `mark_side_effect_started`, the attempt's row and the node's row are written
by separate calls, and an attempt is written over without a revision. A stop can
therefore overwrite a mark it has not seen, and a stop that was cut off, or overtaken,
leaves rows from which the next one no longer recognises the unknown write. Where no
call finds itself in one of those moments (`CleanStops`), a marked attempt whose outcome
nobody has committed keeps its node running or in reconciliation. -/
namespace Operant.Graph
open Operant.Calls

/-- The statuses that say a run is over and nothing is left to reconcile. -/
def GraphRunStatus.closes : GraphRunStatus → Bool
  | .cancelled | .failed | .completed => true
  | .created | .queued | .running | .waitingInput | .waitingApproval | .interrupted
  | .manualReconcileRequired => false

/-- The call is not made in a moment in which it would lose an unknown write:
a stop writes over an attempt that has been marked since it was read;
a stop reads an attempt, or lists a node, that another stop has left half-way;
the run is failed over a failed node while others are unfinished;
the run is closed after a node that was looked at has changed;
a loop is advanced while an attempt of it is running. -/
def CleanStops : RepoCall → GraphStore → Prop
  | .updateAttempt site seen attempt, s => site ≠ .markSideEffectStarted →
      ∀ stored ∈ s.attempts, stored.id = attempt.id → stored.sideEffectState = seen.sideEffectState
  | .getAttempt .terminalizeActiveNodes id, s => ∀ stored ∈ s.attempts, stored.id = id →
      ¬(stored.result = .interrupted ∧ stored.sideEffectState = .unknown)
  | .listNodeRuns .terminalizeActiveNodes, s =>
      ∀ row ∈ s.nodeRuns, row.status ≠ .manualReconcileRequired
  | .listNodeRuns .refreshRunActivityStatus, s => (∃ row ∈ s.nodeRuns, row.status = .failed) →
      ∀ row ∈ s.nodeRuns, row.status.isNonterminal = false
  | .updateRun _ scan run _, s => run.status.closes = true → ∀ row ∈ scan, row ∈ s.nodeRuns
  | .updateNodeRun .advanceLoop _ node _, s => ∀ row ∈ s.nodeRuns, row.id = node.id →
      row.status ≠ .running
  | _, _ => True

instance (c : RepoCall) (s : GraphStore) : Decidable (CleanStops c s) := by
  unfold CleanStops
  split <;> infer_instance

def World.Clean (w : World) : Prop := ∀ s c, .call s c ∈ w.history → CleanStops c s

theorem World.Clean.past {w : World} (h : w.Clean) {s : GraphStore} {past : List Event}
    (hp : past <:+ w.history) : World.Clean { store := s, history := past } :=
  fun s c hc => h s c (hp.subset hc)

variable {start : GraphStore} {w : World}

/-! ### Stopping a node settles its attempt -/

/-- The attempt that is stopped with its node no longer runs; and an unknown write it was
left with sends the node to reconciliation. -/
structure Settled (a : NodeAttempt) (status : NodeRunStatus) : Prop where
  ended : a.result ≠ .running
  manual : a.result = .interrupted → a.sideEffectState = .unknown →
    status = .manualReconcileRequired

theorem NodeAttempt.stopped_ended {attempt : NodeAttempt} {result : AttemptResult}
    (h : result ≠ .running) (unknownWrite : Bool) :
    (attempt.stopped result unknownWrite).result ≠ .running := by
  cases unknownWrite with
  | true =>
    show AttemptResult.interrupted ≠ .running
    decide
  | false => exact h

theorem StopReason.settles (hw : Recorded start Reason Done w) (hi : start.Initial) (hc : w.Clean)
    {x : NodeRun} {status : NodeRunStatus} (h : StopReason w x status) {a : NodeAttempt}
    (ha : a ∈ w.store.attempts) (hactive : x.activeAttemptId = some a.id) : Settled a status := by
  have hk := hw.keyed hi.keyed
  cases h with
  | @wasRunning s attemptId attempt spec active found read running isSpec wrote =>
    obtain ⟨s', hs'⟩ := wrote
    have hid : attempt.id = a.id := by
      rw [(GraphStore.attempt?_some read).2]
      exact Option.some.inj (active.symm.trans hactive)
    have hresult : (attempt.stopped .cancelled (unknownNonIdempotentWrite spec attempt)).result ≠
        .running := NodeAttempt.stopped_ended (by decide) _
    have heq := hk.attempt_eq ha (hw.result hi.keyed hs' rfl hresult) hid.symm
    refine ⟨heq ▸ hresult, fun hint _ => ?_⟩
    rw [heq] at hint
    simp only [NodeAttempt.stopped] at hint
    split at hint
    · rename_i hu
      rw [if_pos hu]
    · cases hint
  | hadEnded active found read ended =>
    obtain ⟨hmem, hid⟩ := GraphStore.attempt?_some read
    obtain ⟨b, hb, hsame, heq⟩ := hw.attempt hi.keyed ⟨_, found⟩ hmem
    have hab : b = a := by
      refine hk.attempt_eq hb ha (hsame.id.trans (hid.trans ?_))
      exact Option.some.inj (active.symm.trans hactive)
    rw [← hab, heq ended]
    exact ⟨ended, fun h h' => absurd ⟨h, h'⟩ (hc _ _ found _ hmem hid)⟩
  | noAttempt active => rw [active] at hactive; cases hactive

/-- The attempt `_reset_interrupted_nodes` looks at is the one the node names. -/
theorem ResetReason.left (hw : Recorded start Reason Done w) (hi : start.Initial) {x : NodeRun}
    {status : NodeRunStatus} (h : ResetReason w x status) {a : NodeAttempt}
    (ha : a ∈ w.store.attempts) (hactive : x.activeAttemptId = some a.id) :
    ∃ (last : NodeAttempt) (spec : NodeSpec), w.store.definition.node? x.nodeId = some spec ∧
      a = (if last.result = .running then
        last.stopped .interrupted (unknownNonIdempotentWrite spec last) else last) ∧
      (last.result ≠ .succeeded → unknownNonIdempotentWrite spec last = true →
        status = .manualReconcileRequired) := by
  have hk := hw.keyed hi.keyed
  obtain ⟨s, spec, hs, hx, hspec, hlast⟩ := h.read
  obtain ⟨past, -, hpast, -⟩ := hw.reason hs
  obtain ⟨a₀, ha₀, hid₀, howner⟩ := hpast.owner hi hx hactive
  have hne : s.attemptsOf x.id ≠ [] :=
    List.ne_nil_of_mem (GraphStore.mem_attemptsOf.mpr ⟨ha₀, howner⟩)
  obtain ⟨last, hget⟩ := Option.isSome_iff_exists.mp (List.getLast?_isSome.mpr hne)
  obtain ⟨hmem, hlastOwner⟩ := GraphStore.mem_attemptsOf.mp (List.mem_of_getLast? hget)
  have hlastId : last.id = a.id := by
    by_contra hne'
    have hlt := hpast.last hi hx h.running hactive hmem hlastOwner hne' ha₀ hid₀
    have hle := GraphStore.attemptsOf_last hget ha₀ howner
    omega
  obtain ⟨hrunning, hmanual⟩ := hlast last hget
  refine ⟨last, spec, hspec, ?_, hmanual⟩
  split
  · rename_i hr
    obtain ⟨s', hs'⟩ := hrunning hr
    have hstored := hw.result hi.keyed hs' rfl (NodeAttempt.stopped_ended (by decide) _)
    exact hk.attempt_eq ha hstored hlastId.symm
  · rename_i hr
    obtain ⟨b, hb, hsame, heq⟩ := hw.attempt hi.keyed ⟨_, hs⟩ hmem
    rw [← heq hr]
    exact hk.attempt_eq ha hb (hsame.id.trans hlastId).symm

theorem ResetReason.ends (hw : Recorded start Reason Done w) (hi : start.Initial) {x : NodeRun}
    {status : NodeRunStatus} (h : ResetReason w x status) {a : NodeAttempt}
    (ha : a ∈ w.store.attempts) (hactive : x.activeAttemptId = some a.id) :
    a.result ≠ .running := by
  obtain ⟨last, spec, -, heq, -⟩ := h.left hw hi ha hactive
  rw [heq]
  split
  · exact NodeAttempt.stopped_ended (by decide) _
  · assumption

theorem ResetReason.settles (hw : Recorded start Reason Done w) (hi : start.Initial) {x : NodeRun}
    {status : NodeRunStatus} (h : ResetReason w x status) {a : NodeAttempt}
    (ha : a ∈ w.store.attempts) (hactive : x.activeAttemptId = some a.id) {spec : NodeSpec}
    (hspec : w.store.definition.node? x.nodeId = some spec)
    (hclass : spec.idempotencyClass = .nonIdempotent) : Settled a status := by
  refine ⟨h.ends hw hi ha hactive, fun hint hu => ?_⟩
  obtain ⟨last, spec', hspec', heq, hmanual⟩ := h.left hw hi ha hactive
  have hs : spec' = spec := Option.some.inj (hspec'.symm.trans hspec)
  subst hs
  have unknown (hl : last.sideEffectState = .unknown) :
      unknownNonIdempotentWrite spec' last = true := by
    simp [unknownNonIdempotentWrite, hclass, hl]
  by_cases hr : last.result = .running
  · rw [if_pos hr] at heq
    rw [heq] at hu
    refine hmanual (by rw [hr]; decide) ?_
    cases hwrite : unknownNonIdempotentWrite spec' last with
    | true => rfl
    | false =>
      rw [hwrite] at hu
      exact hwrite.symm.trans (unknown hu)
  · rw [if_neg hr] at heq
    subst heq
    exact hmanual (by rw [hint]; decide) (unknown hu)

/-! ### Running attempts and closed runs -/

theorem StopReason.not_running {x : NodeRun} {status : NodeRunStatus} (h : StopReason w x status) :
    status ≠ .running := by
  cases h with
  | wasRunning => split <;> decide
  | hadEnded _ _ _ _ settled => rcases settled with h | h <;> rw [h] <;> decide
  | noAttempt _ settled => rcases settled with h | h <;> rw [h] <;> decide

/-- Only `start_node_attempt` sets a node running. -/
theorem NodeReason.was_running {x node : NodeRun} {site : Site} (h : NodeReason w x node site)
    (hrun : node.status = .running) : x.status = .running := by
  cases h with
  | stopped _ why _ => exact absurd hrun why.not_running
  | reset why _ => exact absurd hrun why.settled
  | advanced status _ _ => exact absurd hrun status.1
  | idle _ status _ => exact absurd hrun status.1
  | inputs status _ => exact status.symm.trans hrun

namespace Recorded

/-- A running attempt is the one its node is running. -/
theorem running_owned (hw : Recorded start Reason Done w) (hi : start.Initial) (hc : w.Clean)
    {a : NodeAttempt} (ha : a ∈ w.store.attempts) (hr : a.result = .running) :
    ∃ x ∈ w.store.nodeRuns, x.id = a.nodeRunId ∧ x.status = .running ∧
      x.activeAttemptId = some a.id := by
  induction hw generalizing a with
  | start =>
    rw [hi.attempts] at ha
    cases ha
  | returned hw done ih => exact ih (fun s c h => hc s c (List.mem_cons_of_mem _ h)) ha hr
  | @call w c s' hw effect reason ih =>
    have hk := hw.keyed hi.keyed
    have hc' : w.Clean := fun s c h => hc s c (List.mem_cons_of_mem _ h)
    have hnow : CleanStops c w.store := hc _ _ (List.mem_cons_self ..)
    -- A row other than the written one is still there.
    have other {node x y : NodeRun} {expected : Nat} (hx : w.store.Replaces node expected x)
        (hne : x.status ≠ .running ∨ x.activeAttemptId ≠ some a.id) (hy : y ∈ w.store.nodeRuns)
        (hrun : y.status = .running) (hactive : y.activeAttemptId = some a.id) :
        y.id ≠ node.id := by
      intro hid
      have heq := hk.row_eq hy hx.mem (hid.trans hx.id.symm)
      subst heq
      rcases hne with hne | hne
      · exact hne hrun
      · exact hne hactive
    cases effect with
    | read => exact ih hc' ha hr
    | updateRun => exact ih hc' ha hr
    | updateNodeRun hx =>
      obtain ⟨y, hy, hyid, hrun, hactive⟩ := ih hc' ha hr
      cases reason with
      | read h => cases h
      | @updateNodeRun _ _ _ _ z hz _ why _ =>
        by_cases hid : y.id = z.id
        · have heq := hk.row_eq hy hz.mem hid
          subst heq
          cases why with
          | stopped _ why _ => exact absurd hr (why.settles hw hi hc' ha hactive).ended
          | reset why _ => exact absurd hr (why.ends hw hi ha hactive)
          | advanced => exact absurd hrun (hnow y hy hz.id)
          | idle was => exact absurd hrun was.1
          | inputs status active =>
            exact ⟨_, (GraphStore.mem_putNode hx.mem hx.id _).mpr (.inl rfl),
              hz.id.symm.trans hyid, status.trans hrun, active.trans hactive⟩
        · have hne : y.id ≠ _ := fun h => hid (h.trans hz.id.symm)
          exact ⟨y, (GraphStore.mem_putNode hx.mem hx.id y).mpr (.inr ⟨hy, hne⟩), hyid, hrun, hactive⟩
    | @startNodeAttempt requested node attempt expected x hx hfresh =>
      cases reason with
      | read h => cases h
      | startNodeAttempt hz _ why =>
        have heq := hk.row_eq hx.mem hz.mem (hx.id.trans hz.id.symm)
        subst heq
        have put (y : NodeRun) := GraphStore.mem_putNode
          (s := { w.store with attempts := w.store.attempts ++ [attempt] }) hx.mem hx.id y
        rcases List.mem_append.mp ha with ha | ha
        · obtain ⟨y, hy, hyid, hrun, hactive⟩ := ih hc' ha hr
          have hne := other hx (.inl (by rcases why.was with h | h <;> rw [h] <;> decide))
            hy hrun hactive
          exact ⟨y, (put y).mpr (.inr ⟨hy, hne⟩), hyid, hrun, hactive⟩
        · rw [List.mem_singleton.mp ha]
          exact ⟨node, (put node).mpr (.inl rfl), hx.id.symm.trans why.nodeRunId.symm, why.status,
            why.active⟩
    | @finishNodeAttempt node attempt expected x y hx hy hid hrun =>
      cases reason with
      | read h => cases h
      | finishNodeAttempt hz _ why =>
        rcases (GraphStore.mem_putAttempt hy hid a).mp ha with heq | ⟨ha, hne⟩
        · exact absurd (heq ▸ hr) why.result
        · obtain ⟨y, hy, hyid, hrun, hactive⟩ := ih hc' ha hr
          have hne' := other hz (.inr (fun h => hne (Option.some.inj (h.symm.trans why.active))))
            hy hrun hactive
          exact ⟨y, (GraphStore.mem_putNode (s := w.store.putAttempt attempt) hx.mem hx.id y).mpr
            (.inr ⟨hy, hne'⟩), hyid, hrun, hactive⟩
    | @updateAttempt site seen attempt y hy hid hrun =>
      rcases (GraphStore.mem_putAttempt hy hid a).mp ha with heq | ⟨ha, hne⟩
      · subst heq
        have hcall := hw.call (.updateAttempt hy hid hrun) reason
        obtain ⟨b, hb, hsame, -⟩ := hcall.attempt hi.keyed ⟨_, List.mem_cons_self ..⟩ hy
        have heq := (hcall.keyed hi.keyed).attempt_eq hb ha (hsame.id.trans hid)
        subst heq
        obtain ⟨x, hx, hxid, hxrun, hxactive⟩ := ih hc' hy hrun
        exact ⟨x, hx, hxid.trans hsame.nodeRunId.symm, hxrun,
          hxactive.trans (congrArg some hid)⟩
      · exact ih hc' ha hr

end Recorded

/-- When the run is closed, every node is at rest and none needs reconciliation. -/
theorem RunReason.settled (hw : Recorded start Reason Done w) (hi : start.Initial) (hc : w.Clean)
    {site : Site} {scan : List NodeRun} {run : GraphWorkflowRun} {revision : Nat}
    (h : RunReason w scan run) (hnow : CleanStops (.updateRun site scan run revision) w.store)
    (hcloses : run.status.closes = true) :
    w.store.run.status.closes = true ∨ ∀ x ∈ w.store.nodeRuns,
      x.status.isNonterminal = false ∧ x.status ≠ .manualReconcileRequired := by
  have hk := hw.keyed hi.keyed
  -- The rows the decision rests on are the rows that are stored.
  have all (hids : scan.map NodeRun.id = w.store.nodeRuns.map NodeRun.id)
      (hscan : ∀ row ∈ scan,
        row.status.isNonterminal = false ∧ row.status ≠ .manualReconcileRequired) :
      ∀ x ∈ w.store.nodeRuns,
        x.status.isNonterminal = false ∧ x.status ≠ .manualReconcileRequired := by
    intro x hx
    have hmem : x.id ∈ scan.map NodeRun.id := by
      rw [hids]
      exact List.mem_map_of_mem hx
    obtain ⟨row, hrow, hid⟩ := List.mem_map.mp hmem
    have heq := hk.row_eq (hnow hcloses row hrow) hx hid
    exact heq ▸ hscan row hrow
  have rest {status : NodeRunStatus} (hd : status.isDone = true) :
      status.isNonterminal = false ∧ status ≠ .manualReconcileRequired := by
    cases status with
    | succeeded | skipped => decide
    | pending | ready | running | waitingApproval | waitingInput | waiting | retryWait | failed
    | cancelled | manualReconcileRequired => cases hd
  cases h with
  | started _ status =>
    rw [status] at hcloses
    cases hcloses
  | stopped _ _ ids settled =>
    refine .inr (all ids fun row hrow => ⟨(settled row hrow).1, fun hm => ?_⟩)
    obtain ⟨s, hs, hmem⟩ := (settled row hrow).2 hm
    exact hc _ _ hs row hmem hm
  | reread _ status => rcases status with h | h <;> rw [h] at hcloses <;> cases hcloses
  | @refreshed s was found listed status =>
    obtain ⟨past, -, hpast, -⟩ := hw.reason found
    have hids : scan.map NodeRun.id = w.store.nodeRuns.map NodeRun.id := by
      rw [listed, hw.ids]
      exact hpast.ids
    subst listed
    rw [status] at hcloses
    unfold activityStatus at hcloses
    split at hcloses
    · cases hcloses
    rename_i hmanual
    have notManual : ∀ row ∈ s.nodeRuns, row.status ≠ .manualReconcileRequired :=
      fun row hrow h => hmanual (h ▸ List.mem_map_of_mem hrow)
    split at hcloses
    · rename_i hfailed
      obtain ⟨row, hrow, hst⟩ := List.mem_map.mp hfailed
      have hrest := hc _ _ found ⟨row, hrow, hst⟩
      exact .inr (all hids fun row hrow => ⟨hrest row hrow, notManual row hrow⟩)
    split at hcloses
    · cases hcloses
    split at hcloses
    · cases hcloses
    split at hcloses
    · cases hcloses
    split at hcloses
    · rename_i hdone
      simp only [Bool.and_eq_true, List.all_eq_true, List.mem_map] at hdone
      exact .inr (all hids fun row hrow => rest (hdone.2 _ ⟨row, hrow, rfl⟩))
    · exact .inl hcloses
  | recreated _ status =>
    rw [status] at hcloses
    cases hcloses
  | finished _ _ ids done => exact .inr (all ids fun row hrow => rest (done row hrow))
  | accounted status => exact .inl (status ▸ hcloses)

namespace Recorded

/-- What a node was before the run was closed, and still is, is no unfinished node. -/
theorem closed_at_rest (hw : Recorded start Reason Done w) (hi : start.Initial) (hc : w.Clean)
    (hcloses : w.store.run.status.closes = true) {s : GraphStore} (hs : w.Found s)
    (hopen : s.run.status.closes = false) {x : NodeRun} (hx : x ∈ s.nodeRuns)
    (hx' : x ∈ w.store.nodeRuns) : x.status.isNonterminal = false := by
  induction hw with
  | start =>
    obtain ⟨c, hc⟩ := hs
    simp at hc
  | returned hw done ih =>
    obtain ⟨c, hs⟩ := hs
    rcases List.mem_cons.mp hs with heq | hs
    · cases heq
    · exact ih (fun s c h => hc s c (List.mem_cons_of_mem _ h)) hcloses ⟨c, hs⟩ hx'
  | @call w c s' hw effect reason ih =>
    have hc' : w.Clean := fun s c h => hc s c (List.mem_cons_of_mem _ h)
    have hnow : CleanStops c w.store := hc _ _ (List.mem_cons_self ..)
    have hs' : s = w.store ∨ w.Found s := by
      obtain ⟨d, hd⟩ := hs
      rcases List.mem_cons.mp hd with heq | hd
      · cases heq
        exact .inl rfl
      · exact .inr ⟨d, hd⟩
    have hmem := (hw.not_written hi.keyed effect hs' hx hx').1
    have closed (hbefore : w.store.run.status.closes = true) : x.status.isNonterminal = false := by
      rcases hs' with heq | hs'
      · rw [heq, hbefore] at hopen
        cases hopen
      · exact ih hc' hbefore hs' hmem
    cases effect with
    | updateRun =>
      cases reason with
      | read h => cases h
      | updateRun why =>
        rcases why.settled hw hi hc' hnow hcloses with hbefore | hrest
        · exact closed hbefore
        · exact (hrest x hmem).1
    | read | updateNodeRun | startNodeAttempt | finishNodeAttempt | updateAttempt =>
      exact closed hcloses

/-- A closed run runs no node. -/
theorem closed_not_running (hw : Recorded start Reason Done w) (hi : start.Initial) (hc : w.Clean)
    (hcloses : w.store.run.status.closes = true) {x : NodeRun} (hx : x ∈ w.store.nodeRuns) :
    x.status ≠ .running := by
  induction hw generalizing x with
  | start =>
    rw [hi.run] at hcloses
    cases hcloses
  | returned hw done ih => exact ih (fun s c h => hc s c (List.mem_cons_of_mem _ h)) hcloses hx
  | @call w c s' hw effect reason ih =>
    have hc' : w.Clean := fun s c h => hc s c (List.mem_cons_of_mem _ h)
    have hnow : CleanStops c w.store := hc _ _ (List.mem_cons_self ..)
    rcases effect.node_cases hx with ⟨hold, -⟩ | ⟨hwritten, -⟩
    · cases effect with
      | updateRun =>
        cases reason with
        | read h => cases h
        | updateRun why =>
          rcases why.settled hw hi hc' hnow hcloses with hbefore | hrest
          · exact ih hc' hbefore hold
          · intro hrun
            have hnonterminal := (hrest x hold).1
            rw [hrun] at hnonterminal
            cases hnonterminal
      | read | updateNodeRun | startNodeAttempt | finishNodeAttempt | updateAttempt =>
        exact ih hc' hcloses hold
    · cases reason with
      | read h => rw [RepoCall.node?_of_isRead h] at hwritten; cases hwritten
      | updateRun => cases hwritten
      | updateAttempt => cases hwritten
      | updateNodeRun hz _ why _ =>
        cases hwritten
        have hbefore : w.store.run.status.closes = true := by
          cases effect with
          | read h => cases h
          | updateNodeRun => exact hcloses
        exact fun hrun => ih hc' hbefore hz.mem (why.was_running hrun)
      | startNodeAttempt hz _ why =>
        cases hwritten
        have hbefore : w.store.run.status.closes = true := by
          cases effect with
          | read h => cases h
          | startNodeAttempt => exact hcloses
        obtain ⟨s, hs, hrun, hmem⟩ := why.ran
        have hrest := hw.closed_at_rest hi hc' hbefore hs (by rw [hrun]; rfl) hmem hz.mem
        rcases why.was with h | h <;> rw [h] at hrest <;> cases hrest
      | finishNodeAttempt _ _ why =>
        cases hwritten
        exact why.status

end Recorded

end Operant.Graph
