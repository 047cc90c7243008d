import Operant.Graph.Interleaving

/-! Every operation has a reason for every call it makes. -/
namespace Operant.Graph
open Operant.Python Operant.Calls

variable {backend : Backend} {start : GraphStore} {known : List Event}

/-! ### Stopping nodes -/

/-- A row as `_terminalize_active_nodes` leaves it. -/
structure Left (node left : NodeRun) (unknownWrite : Bool) : Prop where
  id : left.id = node.id
  settled : left.status.isNonterminal = false
  manual : unknownWrite = false → left.status = .manualReconcileRequired → left = node

theorem stopNode_safe (hk : start.Keyed) {x : NodeRun} {unknownWrite : Bool}
    (hx : KnowsNode known x) (hn : x.status.isNonterminal = true)
    (why : ∀ w : World, Recorded start Reason Done w → known.Sublist w.history →
      StopReason w x (if unknownWrite then .manualReconcileRequired else .cancelled)) :
    Safe backend start known (stopNode .cancelled x unknownWrite) fun r _ => Left x r.2 r.1 := by
  unfold stopNode
  refine Safe.saveNode hk hx (.stopped hn (.inr rfl))
    (fun w hw hs _ => .stopped hn (why w hw hs) rfl)
    (by cases unknownWrite <;> exact fun hactive => nomatch hactive) (Safe.ret ?_)
  cases unknownWrite with
  | true => exact ⟨rfl, rfl, by simp⟩
  | false => exact ⟨rfl, rfl, by simp [NodeRun.released]⟩

theorem terminalizeNode_safe (hk : start.Keyed) {x : NodeRun} (hx : KnowsNode known x) :
    Safe backend start known (terminalizeNode .cancelled x) fun r _ => Left x r.2 r.1 := by
  unfold terminalizeNode
  by_cases hn : x.status.isNonterminal
  swap
  · simp only [hn, Bool.not_false, if_true]
    exact Safe.ret ⟨rfl, by simpa using hn, fun _ _ => rfl⟩
  simp only [hn, Bool.not_true, Bool.false_eq_true, if_false]
  cases ha : x.activeAttemptId with
  | none =>
    dsimp only
    refine Safe.ite (fun _ => ?_) fun _ => ?_
    · refine Safe.definitionAndNode hk fun spec _ => ?_
      refine stopNode_safe hk hx hn fun w _ _ => .noAttempt ha ?_
      split
      · exact .inr rfl
      · exact .inl rfl
    · exact stopNode_safe hk hx hn fun w _ _ => .noAttempt ha (.inl rfl)
  | some attemptId =>
    refine Safe.getAttempt hk fun s attempt hs hread => ?_
    have hx' := hx.cons (.call s (.getAttempt .terminalizeActiveNodes attemptId))
    have ended (hr : attempt.result ≠ .running) (w : World)
        (hw : (Event.call s (.getAttempt .terminalizeActiveNodes attemptId) :: known).Sublist w.history)
        {status : NodeRunStatus} (hst : status = .succeeded ∨ status = .cancelled) :
        StopReason w x status :=
      .hadEnded ha (hw.subset (List.mem_cons_self ..)) hread hr hst
    cases hr : attempt.result with
    | running =>
      refine Safe.definitionAndNode hk fun spec hspec => ?_
      obtain ⟨hmem, hid⟩ := GraphStore.attempt?_some hread
      refine Safe.updateAttempt hk ⟨s, _, List.mem_cons_self .., hmem⟩ hr (fun w hw hk' => ?_)
        fun s' => ?_
      · exact .stopped (by decide) (hx'.saw hk') (.inl (ha.trans (congrArg some hid.symm)))
          (hw.definition ▸ hspec) (by decide) rfl
      · refine stopNode_safe hk (hx'.cons _) hn fun w hw hk' => ?_
        exact .wasRunning ha (hk'.subset (by simp)) hread hr (hw.definition ▸ hspec)
          ⟨s', hk'.subset (by simp)⟩
    | succeeded =>
      refine Safe.saveNode hk hx' (.stopped hn (.inl rfl))
        (fun w _ hk' _ => .stopped hn (ended (by simp [hr]) w hk' (.inl rfl)) rfl)
        (fun hactive => nomatch hactive) (Safe.ret ?_)
      exact ⟨rfl, rfl, by simp [NodeRun.released]⟩
    | failed =>
      exact stopNode_safe hk hx' hn fun w _ hk' => ended (by simp [hr]) w hk' (.inr rfl)
    | cancelled =>
      exact stopNode_safe hk hx' hn fun w _ hk' => ended (by simp [hr]) w hk' (.inr rfl)
    | interrupted =>
      exact stopNode_safe hk hx' hn fun w _ hk' => ended (by simp [hr]) w hk' (.inr rfl)

/-- Rows of one run, as `_terminalize_active_nodes` leaves those it has listed. -/
structure AllLeft (rows left : List NodeRun) (manual : Bool) : Prop where
  ids : left.map NodeRun.id = rows.map NodeRun.id
  settled : ∀ row ∈ left, row.status.isNonterminal = false
  manual : manual = false → ∀ row ∈ left, row.status = .manualReconcileRequired → row ∈ rows

theorem terminalizeNodes_safe (hk : start.Keyed) {rows : List NodeRun}
    (hx : ∀ x ∈ rows, KnowsNode known x) :
    Safe backend start known (terminalizeNodes .cancelled rows) fun r _ => AllLeft rows r.2 r.1 := by
  induction rows with
  | nil => exact Safe.ret ⟨rfl, by simp, by simp⟩
  | cons x rest ih =>
    unfold terminalizeNodes
    refine Safe.seq (terminalizeNode_safe hk (hx x (List.mem_cons_self ..))) ?_
    rintro ⟨unknownWrite, left⟩ hl
    refine Safe.seq (ih fun y hy => hx y (List.mem_cons_of_mem _ hy)) ?_
    rintro ⟨manual, others⟩ ho
    refine Safe.ret ⟨?_, ?_, ?_⟩
    · exact congrArg₂ List.cons hl.id ho.ids
    · intro row hrow
      rcases List.mem_cons.mp hrow with rfl | hrow
      · exact hl.settled
      · exact ho.settled row hrow
    · intro hm row hrow hst
      obtain ⟨hm₁, hm₂⟩ := Bool.or_eq_false_iff.mp hm
      rcases List.mem_cons.mp hrow with rfl | hrow
      · exact hl.manual hm₁ hst ▸ List.mem_cons_self ..
      · exact List.mem_cons_of_mem _ (ho.manual hm₂ row hrow hst)

theorem stopRun_safe (hk : start.Keyed) {site : Site} {status : GraphRunStatus}
    {usage : GraphWorkflowRun → GraphWorkflowRun} (hst : status = .failed ∨ status = .cancelled)
    (hbudget : ∀ run, (usage run).budgetSnapshot = run.budgetSnapshot)
    (hinput : ∀ run, (usage run).input = run.input)
    (husage : (∃ seen, site = .accounted seen) ∨
      (∀ seen, site ≠ .accounted seen) ∧ ∀ run, (usage run).consumption = run.consumption) :
    Safe backend start known (stopRun site status usage) fun _ _ => True := by
  unfold stopRun terminalizeActiveNodes
  rw [Prog.bind_assoc]
  refine Safe.listNodeRuns hk fun s hs => ?_
  refine Safe.seq (terminalizeNodes_safe hk fun x hx => ⟨s, _, List.mem_cons_self .., hx⟩) ?_
  rintro ⟨manual, left⟩ hl
  refine Safe.getRun hk fun s' _ => ?_
  rw [← Prog.bind_ret (saveRun _ _ _ _)]
  refine Safe.saveRun hk (List.mem_cons_self ..) (fun w hw hk' hrun => ⟨?_, ?_⟩) (hbudget _)
    (hinput _) fun _ => Safe.ret trivial
  rotate_left
  · have hidle : (if manual then GraphRunStatus.manualReconcileRequired else status).isActive =
        false := by
      cases manual <;> rcases hst with rfl | rfl <;> rfl
    rcases husage with ⟨seen, rfl⟩ | ⟨hsite, hkept⟩
    · exact .accounted fun hactive => absurd (hidle.symm.trans hactive) (by decide)
    · refine .kept hsite ?_ fun hactive => absurd (hidle.symm.trans hactive) (by decide)
      rw [hrun]
      exact hkept _
  have hread : w.ReadRun .saveRun w.store.run := ⟨s', hk'.subset (List.mem_cons_self ..), hrun.symm⟩
  cases manual with
  | true => exact .reread hread (.inl rfl)
  | false =>
    refine .stopped hread hst (hl.ids.trans (hs.ids.trans hw.ids.symm)) fun row hrow => ?_
    exact ⟨hl.settled row hrow, fun hm => ⟨s, hk'.subset (by simp), hl.manual rfl row hrow hm⟩⟩

/-! ### Interrupting nodes -/

theorem resetInterruptedNode_safe (hk : start.Keyed) {x : NodeRun} (hx : KnowsNode known x) :
    Safe backend start known (resetInterruptedNode x) fun _ _ => True := by
  unfold resetInterruptedNode
  cases hr : x.status
  case running =>
    refine Safe.definitionAndNode hk fun spec hspec => ?_
    refine Safe.listAttempts hk fun s hs => ?_
    have hx' := hx.cons (.call s (.listAttempts x.id))
    dsimp only
    -- The row is still the one that was read, so it was there when the attempts were listed.
    have save {known' : List Event} {updates : NodeRun}
        (hsub : (Event.call s (.listAttempts x.id) :: known).Sublist known')
        (hx'' : KnowsNode known' x)
        (step : NodeStep start.definition x .resetInterruptedNodes updates)
        (hactive : updates.activeAttemptId = none) (hsettled : updates.status ≠ .running)
        (hlast : ∀ w : World, known'.Sublist w.history → ∀ last : NodeAttempt,
          (s.attemptsOf x.id).getLast? = some last →
          (last.result = .running → ∃ s', .call s' (.updateAttempt .resetInterruptedNodes last
            (last.stopped .interrupted (unknownNonIdempotentWrite spec last))) ∈ w.history) ∧
          (last.result ≠ .succeeded → unknownNonIdempotentWrite spec last = true →
            updates.status = .manualReconcileRequired)) {unknownWrite : Bool} :
        Safe backend start known' (do
          let _ ← saveNode .resetInterruptedNodes x updates
          return unknownWrite) fun _ _ => True := by
      refine Safe.saveNode hk hx'' step (fun w hw hk' hmem => ?_) (fun _ => .inl (hr ▸ rfl))
        (Safe.ret trivial)
      have hs' := hsub.trans hk'
      exact .reset ⟨hr, hsettled, s, spec, hs'.subset (List.mem_cons_self ..),
        hw.stored_then hk hs' hx hmem, hw.definition ▸ hspec, hlast w hk'⟩ hactive
    have hreleased (b : Bool) :
        (x.released (if b then .manualReconcileRequired else .ready)).status ≠ .running := by
      cases b <;> simp [NodeRun.released]
    cases hlast : (s.attemptsOf x.id).getLast? with
    | none =>
      refine save (List.Sublist.refl _) hx' (.interrupted hr (.inr rfl)) (by rfl) (hreleased _) fun w _ last hl => ?_
      rw [hlast] at hl
      cases hl
    | some last =>
      dsimp only
      cases hres : last.result with
      | succeeded =>
        refine save (List.Sublist.refl _) hx' (.interrupted hr (.inl rfl)) (by rfl)
          (by simp [NodeRun.released]) fun w _ l hl => ?_
        rw [hlast] at hl
        cases hl
        simp [hres]
      | running =>
        obtain ⟨hmem, howner⟩ := GraphStore.mem_attemptsOf.mp (List.mem_of_getLast? hlast)
        refine Safe.updateAttempt hk ⟨s, _, List.mem_cons_self .., hmem⟩ hres (fun w hw hk' => ?_)
          fun s' => ?_
        · exact .stopped (by decide) (hx'.saw hk') (.inr howner) (hw.definition ▸ hspec) (by decide) rfl
        · refine save (List.sublist_cons_self ..) (hx'.cons _) (.interrupted hr (.inr rfl)) (by rfl)
            (hreleased _)
            fun w hk' l hl => ?_
          rw [hlast] at hl
          cases hl
          refine ⟨fun _ => ⟨s', hk'.subset (List.mem_cons_self ..)⟩, fun _ hu => ?_⟩
          rw [hu]
          rfl
      | failed | cancelled | interrupted =>
        refine save (List.Sublist.refl _) hx' (.interrupted hr (.inr rfl)) (by rfl) (hreleased _) fun w _ l hl => ?_
        rw [hlast] at hl
        cases hl
        refine ⟨fun h => absurd (hres.symm.trans h) (by decide), fun _ hu => ?_⟩
        rw [hu]
        rfl
  all_goals exact Safe.ret trivial

theorem resetInterruptedRows_safe (hk : start.Keyed) {rows : List NodeRun}
    (hx : ∀ x ∈ rows, KnowsNode known x) :
    Safe backend start known (resetInterruptedRows rows) fun _ _ => True := by
  induction rows with
  | nil => exact Safe.ret trivial
  | cons x rest ih =>
    unfold resetInterruptedRows
    refine Safe.seq (resetInterruptedNode_safe hk (hx x (List.mem_cons_self ..))) fun _ _ => ?_
    refine Safe.seq (ih fun y hy => hx y (List.mem_cons_of_mem _ hy)) fun _ _ => ?_
    exact Safe.ret trivial

theorem resetInterruptedNodes_safe (hk : start.Keyed) :
    Safe backend start known resetInterruptedNodes fun _ _ => True := by
  unfold resetInterruptedNodes
  refine Safe.listNodeRuns hk fun s _ => ?_
  exact resetInterruptedRows_safe hk fun x hx => ⟨s, _, List.mem_cons_self .., hx⟩

/-! ### The status of the run -/

theorem saveRun_safe (hk : start.Keyed) {site read : Site} {scan : List NodeRun} {s : GraphStore}
    {updates : GraphWorkflowRun} (hread : Event.call s (.getRun read) ∈ known)
    (reason : ∀ w : World, Recorded start Reason Done w → known.Sublist w.history →
      w.store.run = s.run → RunReason w scan { updates with revision := s.run.revision + 1 } ∧
        UsageReason w { updates with revision := s.run.revision + 1 } site)
    (budget : updates.budgetSnapshot = s.run.budgetSnapshot) (input : updates.input = s.run.input) :
    Safe backend start known (saveRun site scan s.run updates) fun _ _ => True := by
  rw [← Prog.bind_ret (saveRun _ _ _ _)]
  exact Safe.saveRun hk hread reason budget input fun _ => Safe.ret trivial

theorem refreshRunActivityStatus_safe (hk : start.Keyed) :
    Safe backend start known refreshRunActivityStatus fun _ _ => True := by
  unfold refreshRunActivityStatus
  refine Safe.getRun hk fun s _ => ?_
  refine Safe.ite (fun _ => Safe.ret trivial) fun hterm => ?_
  have hwas (w : World) (hrun : w.store.run = s.run) : w.store.run.status.isTerminal = false := by
    rw [hrun]
    simpa using hterm
  refine Safe.ite (fun _ => ?_) fun _ => ?_
  · refine Safe.ite (fun _ => Safe.ret trivial) fun _ => ?_
    refine saveRun_safe hk (List.mem_cons_self ..) (fun w _ _ hrun => ?_) rfl rfl
    exact ⟨.recreated (hwas w hrun) rfl, .kept (by simp) (hrun ▸ rfl) (by simp)⟩
  · refine Safe.listNodeRuns hk fun s' _ => ?_
    refine Safe.ite (fun _ => Safe.ret trivial) fun _ => ?_
    refine saveRun_safe hk (List.mem_cons_of_mem _ (List.mem_cons_self ..))
      (fun w _ hk' hrun => ⟨?_, .kept (by simp) (hrun ▸ rfl) (by simp)⟩) rfl rfl
    refine .refreshed (hwas w hrun) (hk'.subset (List.mem_cons_self ..)) rfl ?_
    rw [hrun]

theorem finishIfTerminal_safe (hk : start.Keyed) :
    Safe backend start known finishIfTerminal fun _ _ => True := by
  unfold finishIfTerminal
  refine Safe.getRun hk fun s _ => ?_
  refine Safe.listNodeRuns hk fun s' hs' => ?_
  refine Safe.ite (fun hdone => ?_) fun _ => Safe.ret trivial
  refine Safe.saveRun hk (List.mem_cons_of_mem _ (List.mem_cons_self ..))
    (fun w hw hk' hrun => ⟨?_, .kept (by simp) (hrun ▸ rfl) (by simp [GraphRunStatus.isActive])⟩) rfl rfl
    fun _ => Safe.ret trivial
  refine .finished ⟨s, hk'.subset (by simp), hrun.symm⟩ rfl (hs'.ids.trans hw.ids.symm) ?_
  exact List.all_eq_true.mp (Bool.and_eq_true_iff.mp hdone).2

theorem markRunManualReconcile_safe (hk : start.Keyed) :
    Safe backend start known markRunManualReconcile fun _ _ => True := by
  unfold markRunManualReconcile
  refine Safe.getRun hk fun s _ => ?_
  refine Safe.saveRun hk (List.mem_cons_self ..)
    (fun w _ hk' hrun => ⟨?_, .kept (by simp) (hrun ▸ rfl) (by simp [GraphRunStatus.isActive])⟩) rfl rfl
    fun _ => Safe.ret trivial
  exact .reread ⟨s, hk'.subset (List.mem_cons_self ..), hrun.symm⟩ (.inl rfl)

/-! ### Propagation -/

/-- A node that nothing runs, saved with another status that nothing runs in. -/
theorem saveIdle_safe {α : Type} {Post : α → List Event → Prop} (hk : start.Keyed) {site : Site}
    {x updates : NodeRun} {via : List (EdgeSpec × NodeRun)} {f : NodeRun → GraphProg α}
    (hx : KnowsNode known x) (step : NodeStep start.definition x site updates)
    (was : x.status ≠ .running ∧ x.status ≠ .manualReconcileRequired)
    (status : updates.status ≠ .running ∧ updates.status ≠ .manualReconcileRequired)
    (active : updates.activeAttemptId = x.activeAttemptId ∨ updates.activeAttemptId = none)
    (ready : Safe.MayActivate start known x updates)
    (h : Safe backend start known (f { updates with revision := x.revision + 1 }) Post) :
    Safe backend start known (saveNode site x updates via >>= f) Post :=
  Safe.saveNode hk hx step (fun _ _ _ _ => .idle was status active) ready h

theorem propagateNode_safe (hk : start.Keyed) {s₀ s : GraphStore} {appends : Appends} {x : NodeRun}
    (hran : Event.call s₀ (.getRun .propagateDependencies) ∈ known)
    (hlisted : Event.call s (.listNodeRuns .propagateDependencies) ∈ known) (hmem : x ∈ s.nodeRuns) :
    Safe backend start known (propagateNode start.definition s₀.run.input s.nodeRuns appends x)
      fun _ _ => True := by
  have hx : KnowsNode known x := ⟨s, _, hlisted, hmem⟩
  unfold propagateNode
  split
  · rename_i first others hst hincoming
    refine Safe.lift fun states hstates => ?_
    dsimp only
    split
    · exact Safe.fail
    · rename_i spec hspec
      have hwas : x.status ≠ .running ∧ x.status ≠ .manualReconcileRequired := by
        rw [hst]
        decide
      split
      · exact Safe.ret trivial
      · exact saveIdle_safe hk hx (.skipped hst) hwas (by simp) (.inl rfl)
          (fun hactive => nomatch hactive) (Safe.ret trivial)
      · rename_i hdecision
        refine Safe.lift fun refs _ => ?_
        refine saveIdle_safe hk hx (.readied hst) hwas (by simp) (.inl rfl) (fun _ => .inr ?_)
          (Safe.ret trivial)
        intro w hw hs
        have hdefinition : w.store.definition = start.definition := hw.definition
        exact .propagated (hs.subset hran) (hs.subset hlisted) (hdefinition ▸ hincoming)
          (hdefinition ▸ ok_of_mapError hstates) (hdefinition ▸ hspec) hdecision
  · exact Safe.ret trivial

theorem propagatePass_safe (hk : start.Keyed) {s₀ s : GraphStore} {todo : List NodeRun}
    {appends : Appends} (hran : Event.call s₀ (.getRun .propagateDependencies) ∈ known)
    (hlisted : Event.call s (.listNodeRuns .propagateDependencies) ∈ known)
    (hx : ∀ x ∈ todo, x ∈ s.nodeRuns) :
    Safe backend start known (propagatePass start.definition s₀.run.input s.nodeRuns todo appends)
      fun _ _ => True := by
  induction todo generalizing appends with
  | nil => exact Safe.ret trivial
  | cons x rest ih =>
    unfold propagatePass
    refine Safe.seq (propagateNode_safe hk hran hlisted (hx x (List.mem_cons_self ..))) fun r _ => ?_
    refine Safe.seq (ih fun y hy => hx y (List.mem_cons_of_mem _ hy)) fun _ _ => ?_
    exact Safe.ret trivial

theorem propagatePasses_safe (hk : start.Keyed) {s₀ : GraphStore}
    (hran : Event.call s₀ (.getRun .propagateDependencies) ∈ known) (rounds : Nat) :
    Safe backend start known (propagatePasses start.definition s₀.run.input rounds)
      fun _ _ => True := by
  induction rounds with
  | zero => exact Safe.fail
  | succ rounds ih =>
    unfold propagatePasses
    refine Safe.listNodeRuns hk fun s _ => ?_
    refine Safe.seq (propagatePass_safe hk (List.mem_cons_of_mem _ hran) (List.mem_cons_self ..)
      fun _ hx => hx) fun changed _ => ?_
    refine Safe.ite (fun _ => ih.weaken (List.sublist_cons_self ..)) fun _ => Safe.ret trivial

theorem propagateDependencies_safe (hk : start.Keyed) (rounds : Nat) :
    Safe backend start known (propagateDependencies rounds) fun _ _ => True := by
  unfold propagateDependencies
  refine Safe.getRun hk fun s _ => ?_
  exact Safe.getDefinition hk (propagatePasses_safe hk (List.mem_cons_self ..) rounds)

theorem settle_safe (hk : start.Keyed) (rounds : Nat) :
    Safe backend start known (settle rounds) fun _ _ => True := by
  unfold settle
  refine Safe.seq (propagateDependencies_safe hk rounds) fun _ _ => ?_
  refine Safe.seq (finishIfTerminal_safe hk) fun _ _ => ?_
  exact Safe.seq (refreshRunActivityStatus_safe hk) fun _ _ => Safe.ret trivial

theorem resetDerivedNode_safe (hk : start.Keyed) {definition : WorkflowDefinition} {x : NodeRun}
    (hx : KnowsNode known x) :
    Safe backend start known (resetDerivedNode definition x) fun _ _ => True := by
  unfold resetDerivedNode
  refine Safe.ite (fun _ => Safe.ret trivial) fun _ => ?_
  refine Safe.lift fun timer _ => ?_
  refine Safe.ite (fun _ => Safe.ret trivial) fun _ => ?_
  refine Safe.listAttempts hk fun s _ => ?_
  refine Safe.ite (fun hst => ?_) fun _ => Safe.ret trivial
  have hwas : x.status = .ready ∨ x.status = .skipped ∧ timedOut x.outputRefs = false ∧
      x.outputRefs.has "limit_reasons" = false := by
    rcases Bool.or_eq_true_iff.mp hst with h | h
    · exact .inl (of_decide_eq_true h)
    · obtain ⟨hskip, hderived⟩ := Bool.and_eq_true_iff.mp h
      refine .inr ⟨of_decide_eq_true hskip, ?_⟩
      simp only [persistedSkip, hskip, Bool.true_and, Bool.not_eq_true', Bool.or_eq_false_iff]
        at hderived
      exact hderived.1
  refine saveIdle_safe hk (hx.cons _) (.rewound hwas) ?_ (by simp) (.inl rfl)
    (fun hactive => nomatch hactive) (Safe.ret trivial)
  rcases hwas with h | ⟨h, -⟩ <;> rw [h] <;> decide

theorem resetDerivedNodes_safe (hk : start.Keyed) {definition : WorkflowDefinition}
    {rows : List NodeRun} (hx : ∀ x ∈ rows, KnowsNode known x) :
    Safe backend start known (resetDerivedNodes definition rows) fun _ _ => True := by
  induction rows with
  | nil => exact Safe.ret trivial
  | cons x rest ih =>
    unfold resetDerivedNodes
    refine Safe.seq (resetDerivedNode_safe hk (hx x (List.mem_cons_self ..))) fun _ _ => ?_
    exact ih fun y hy => hx y (List.mem_cons_of_mem _ hy)

theorem resetDerivedDependencyStates_safe (hk : start.Keyed) :
    Safe backend start known resetDerivedDependencyStates fun _ _ => True := by
  unfold resetDerivedDependencyStates
  refine Safe.getRun hk fun s _ => ?_
  refine Safe.getDefinition hk ?_
  refine Safe.listNodeRuns hk fun s' _ => ?_
  exact resetDerivedNodes_safe hk fun x hx => ⟨s', _, List.mem_cons_self .., hx⟩

/-! ### Loops -/

theorem bySpec_some {rows : List NodeRun} {nodeId : String} {x : NodeRun}
    (h : bySpec rows nodeId = some x) : x ∈ rows ∧ x.nodeId = nodeId := by
  unfold bySpec at h
  exact ⟨List.mem_of_find?_eq_some h, by simpa using List.find?_some h⟩

theorem idle_of_isFinished {status : NodeRunStatus} (h : status.isFinished = true) :
    status ≠ .running ∧ status ≠ .manualReconcileRequired := by
  cases status <;> simp [NodeRunStatus.isFinished] at h ⊢

/-- The loop goes on. -/
def KnowsContinue (known : List Event) (loopId : String) : Prop :=
  ∃ s via loop revision, Event.call s (.updateNodeRun .advanceLoop via loop revision) ∈ known ∧
    (loop.status = .pending ∨ loop.status = .ready) ∧ loop.nodeId = loopId

theorem KnowsContinue.cons {loopId : String} (h : KnowsContinue known loopId) (e : Event) :
    KnowsContinue (e :: known) loopId := by
  obtain ⟨s, via, loop, revision, hmem, hloop⟩ := h
  exact ⟨s, via, loop, revision, List.mem_cons_of_mem _ hmem, hloop⟩

theorem readyNodeBySpecId_safe (hk : start.Keyed) {loopId nodeId : String}
    (hcontinue : KnowsContinue known loopId) (htarget : nodeId ∈ start.definition.loopTargets loopId) :
    Safe backend start known (readyNodeBySpecId nodeId) fun _ _ => True := by
  unfold readyNodeBySpecId
  refine Safe.listNodeRuns hk fun s _ => ?_
  cases hb : bySpec s.nodeRuns nodeId with
  | none => exact Safe.fail
  | some x =>
    have hready (updates : NodeRun) :
        Safe.MayActivate start (.call s (.listNodeRuns .readyNodeBySpecId) :: known) x updates := by
      refine fun _ => .inr fun w hw hs => ?_
      obtain ⟨s', via, loop, revision, hmem, hstatus, hloop⟩ := hcontinue
      refine .unlocked (hs.subset (List.mem_cons_of_mem _ hmem)) hstatus ?_
      rw [hw.definition, hloop, (bySpec_some hb).2]
      exact htarget
    have hx : KnowsNode (.call s (.listNodeRuns .readyNodeBySpecId) :: known) x :=
      ⟨s, _, List.mem_cons_self .., (bySpec_some hb).1⟩
    refine Safe.ite (fun hst => ?_) fun _ => Safe.ite (fun hst => ?_) fun _ => Safe.ret trivial
    · refine saveIdle_safe hk hx (.unlocked hst) ?_ (by simp) (.inr rfl) (hready _) (Safe.ret trivial)
      rw [hst]
      decide
    · exact saveIdle_safe hk hx (.again hst (.inl ⟨rfl, rfl⟩)) (idle_of_isFinished hst) (by simp [NodeRun.nextOccurrence])
        (.inr rfl) (hready _) (Safe.ret trivial)

theorem resetLoopNodes_safe (hk : start.Keyed) {rows : List NodeRun} (ids : List String)
    (hx : ∀ x ∈ rows, KnowsNode known x) :
    Safe backend start known (resetLoopNodes rows ids) fun _ _ => True := by
  induction ids with
  | nil => exact Safe.ret trivial
  | cons id rest ih =>
    unfold resetLoopNodes
    cases hb : bySpec rows id with
    | none => exact ih
    | some x =>
      refine Safe.ite (fun hst => ?_) fun _ => ih
      exact saveIdle_safe hk (hx x (bySpec_some hb).1) (.again hst (.inr ⟨rfl, rfl⟩))
        (idle_of_isFinished hst) (by simp [NodeRun.nextOccurrence]) (.inr rfl)
        (fun hactive => nomatch hactive) ih

theorem unlockTargets_safe (hk : start.Keyed) {definition : WorkflowDefinition} {loop : NodeRun}
    {loopId : String} (hcontinue : KnowsContinue known loopId) {targets : List String}
    (htargets : ∀ target ∈ targets, target ∈ start.definition.loopTargets loopId) :
    Safe backend start known (unlockTargets definition loop targets) fun _ _ => True := by
  induction targets with
  | nil => exact Safe.ret trivial
  | cons target rest ih =>
    replace ih := ih fun other hother => htargets other (List.mem_cons_of_mem _ hother)
    unfold unlockTargets
    refine Safe.seq (readyNodeBySpecId_safe hk hcontinue (htargets _ (List.mem_cons_self ..)))
      fun _ _ => ?_
    refine Safe.listNodeRuns hk fun s _ => ?_
    cases hb : bySpec s.nodeRuns target with
    | none => exact Safe.fail
    | some x =>
      have hx : KnowsNode (.call s (.listNodeRuns .unlockLoopBody) :: known) x :=
        ⟨s, _, List.mem_cons_self .., (bySpec_some hb).1⟩
      refine Safe.ite (fun _ => ?_) fun _ => ih.weaken (List.sublist_cons_self ..)
      exact Safe.saveNode hk hx .delivered (fun _ _ _ _ => .inputs rfl rfl) (fun hactive => .inl hactive)
        (ih.weaken (List.sublist_cons_self ..))

theorem unlockLoopBody_safe (hk : start.Keyed) {loopId : String}
    (hcontinue : KnowsContinue known loopId) :
    Safe backend start known (unlockLoopBody loopId) fun _ _ => True := by
  unfold unlockLoopBody
  refine Safe.getRun hk fun s _ => ?_
  refine Safe.getDefinition hk ?_
  refine Safe.listNodeRuns hk fun s' _ => ?_
  refine Safe.seq (resetLoopNodes_safe hk _ fun x hx => ⟨s', _, List.mem_cons_self .., hx⟩)
    fun _ _ => ?_
  cases bySpec s'.nodeRuns loopId with
  | none => exact Safe.fail
  | some loop => exact unlockTargets_safe hk ((hcontinue.cons _).cons _) fun _ htarget => htarget

/-! ### Operations -/

theorem startRun_safe (hk : start.Keyed) (now : Nat) :
    Safe backend start known (startRun now) fun _ _ => True := by
  unfold startRun
  refine Safe.getRun hk fun s _ => ?_
  have started (h : s.run.status.isTerminal = false) :
      Safe backend start (.call s (.getRun .startRun) :: known) (saveRun .startRun [] s.run
        { s.run with status := .running, startedAt := some (s.run.startedAt.getD now) })
        fun _ _ => True :=
    saveRun_safe hk (List.mem_cons_self ..)
      (fun w _ _ hrun => ⟨.started (hrun ▸ h) rfl, .kept (by simp) (hrun ▸ rfl) (by simp)⟩) rfl rfl
  cases hst : s.run.status
  case created | queued | interrupted => exact started (by rw [hst]; rfl)
  all_goals exact Safe.fail

theorem startAttempt_safe (hk : start.Keyed) (args : StartRequest) :
    Safe backend start known (startAttempt args) fun _ _ => True := by
  unfold startAttempt
  refine Safe.getNodeRun hk fun s₀ x _ hx₀ => ?_
  have hx : KnowsNode (.call s₀ (.getNodeRun args.nodeRunId) :: known) x :=
    ⟨s₀, _, List.mem_cons_self .., hx₀⟩
  refine Safe.requireRunningRun hk fun s₁ _ hrun => ?_
  refine Safe.ite (fun _ => Safe.fail) fun hst => ?_
  refine Safe.definitionAndNode hk fun spec hspec => ?_
  refine Safe.lift fun _ _ => ?_
  refine Safe.listNodeRuns hk fun s₂ _ => ?_
  refine Safe.ite (fun _ => Safe.fail) fun _ => ?_
  refine Safe.listAttempts hk fun s₃ _ => ?_
  refine Safe.listAttempts hk fun s₄ _ => ?_
  refine Safe.ite (fun _ => Safe.fail) fun hkeyed => ?_
  refine Safe.call hk ?_ fun _ _ _ _ _ => Safe.ret trivial
  intro w hw hs s' he
  have hs₃ := (List.sublist_cons_self ..).trans hs
  have hs₁ := (List.sublist_cons_self ..).trans ((List.sublist_cons_self ..).trans hs₃)
  cases he with
  | read hr => cases hr
  | startNodeAttempt hy _ =>
    have hr := hw.replaces hk (hx.saw ((List.sublist_cons_self ..).trans hs₁)) hy rfl
    have hwas : x.status = .ready ∨ x.status = .retryWait := by
      by_contra h
      exact hst (not_or.mp h)
    refine .startNodeAttempt hr rfl ⟨hwas, rfl, rfl, rfl, rfl, rfl, ?_, ?_, ?_, ?_, rfl, rfl⟩
    · exact ⟨s₁, ⟨_, hs₁.subset (List.mem_cons_self ..)⟩, hrun, hw.stored_then hk hs₁ hx hr.mem⟩
    · have hx₃ := (hx.cons (.call s₁ (.getRun .requireRunningRun))).cons
        (.call s₂ (.listNodeRuns .startAttempt))
      exact ⟨s₃, ⟨_, hs₃.subset (List.mem_cons_self ..)⟩, hw.stored_then hk hs₃ hx₃ hr.mem, rfl⟩
    · have hx₄ := ((hx.cons (.call s₁ (.getRun .requireRunningRun))).cons
        (.call s₂ (.listNodeRuns .startAttempt))).cons (.call s₃ (.listAttempts x.id))
      exact ⟨s₄, spec, ⟨_, hs.subset (List.mem_cons_self ..)⟩,
        hw.stored_then hk hs hx₄ hr.mem, hw.definition ▸ hspec, rfl, rfl⟩
    · simpa using hkeyed

theorem finishNodeAttempt_safe (hk : start.Keyed) {x updates : NodeRun} {attempt : NodeAttempt}
    (hx : KnowsNode known x) (hid : updates.id = x.id) (hnode : updates.nodeId = x.nodeId)
    (reason : ∀ w : World, Recorded start Reason Done w → known.Sublist w.history →
      FinishReason w x { updates with revision := x.revision + 1 } attempt) :
    Safe backend start known (finishNodeAttempt x updates attempt) fun _ _ => True := by
  rw [← Prog.bind_ret (finishNodeAttempt _ _ _)]
  exact Safe.finishNodeAttempt hk hx hid hnode reason (Safe.ret trivial)

theorem completeAttempt_safe (hk : start.Keyed) (rounds : Nat) (outcome : Outcome) :
    Safe backend start known (completeAttempt rounds outcome) fun _ _ => True := by
  unfold completeAttempt
  refine Safe.getAttempt hk fun s stored _ hread => ?_
  obtain ⟨hmem, -⟩ := GraphStore.attempt?_some hread
  refine Safe.ite (fun _ => Safe.fail) fun _ => ?_
  refine Safe.getNodeRun hk fun s₀ x _ hx₀ => ?_
  have hx : KnowsNode (.call s₀ (.getNodeRun stored.nodeRunId) ::
      .call s (.getAttempt .completeAttempt outcome.attemptId) :: known) x :=
    ⟨s₀, _, List.mem_cons_self .., hx₀⟩
  refine Safe.requireRunningRun hk fun s₁ _ _ => ?_
  refine Safe.ite (fun _ => Safe.fail) fun hactive => ?_
  obtain ⟨hactive, hrunning⟩ := not_or.mp hactive
  refine Safe.definitionAndNode hk fun spec hspec => ?_
  refine Safe.lift fun _ _ => ?_
  have hx' := hx.cons (.call s₁ (.getRun .requireRunningRun))
  -- Every branch finishes the attempt it has read, and differs in what the node becomes.
  have finish (w : World) (hrec : Recorded start Reason Done w)
      (hw : (.call s₁ (.getRun .requireRunningRun) :: .call s₀ (.getNodeRun stored.nodeRunId) ::
        .call s (.getAttempt .completeAttempt outcome.attemptId) :: known).Sublist w.history)
      {updates : NodeRun} {attempt : NodeAttempt} (hstatus : updates.status ≠ .running)
      (hiteration : updates.iteration = x.iteration) (hreleased : updates.activeAttemptId = none) (hid : attempt.id = stored.id)
      (hresult : attempt.result ≠ .running) (howner : attempt.nodeRunId = stored.nodeRunId)
      (hnumber : attempt.attemptNumber = stored.attemptNumber)
      (hkey : attempt.idempotencyKey = stored.idempotencyKey)
      (hretry : updates.retryCount = x.retryCount ∨ spec.idempotencyClass ≠ .nonIdempotent)
      (hfailed : attempt.result = .failed → spec.idempotencyClass ≠ .nonIdempotent →
        (updates.status = .retryWait ↔ stored.attemptNumber < spec.retryPolicy.maxAttempts)) :
      FinishReason w x { updates with revision := x.revision + 1 } attempt := by
    refine ⟨not_not.mp hrunning, hiteration, ?_, hstatus, hreleased, hresult,
      ⟨stored, ?_, hid.symm, howner, hnumber, hkey⟩, ?_, fun h =>
        ⟨spec, hrec.definition ▸ hspec, by rw [hnumber]; exact hfailed h⟩⟩
    · rw [hid]
      exact not_not.mp hactive
    · exact ⟨s, ⟨.getAttempt .completeAttempt outcome.attemptId, hw.subset (by simp)⟩, hmem⟩
    · exact hretry.imp_right fun hclass => ⟨spec, hrec.definition ▸ hspec, hclass⟩
  have hended : (if outcome.succeeded = true then AttemptResult.succeeded else .failed) ≠ .running := by
    cases outcome.succeeded <;> decide
  refine Safe.ite (fun hmanual => ?_) fun _ => ?_
  · refine Safe.finishNodeAttempt hk hx' rfl rfl
      (fun w hrec hw => finish w hrec hw (by simp) rfl rfl rfl hended rfl rfl rfl (.inl rfl)
        fun _ hclass => absurd hmanual.2 hclass) ?_
    exact Safe.seq (markRunManualReconcile_safe hk) fun _ _ => Safe.ret trivial
  refine Safe.ite (fun _ => ?_) fun _ => ?_
  · exact finishNodeAttempt_safe hk hx' rfl rfl
      fun w hrec hw => finish w hrec hw (by simp [NodeRun.released]) rfl rfl rfl (by simp) rfl rfl rfl
        (.inl rfl) (by simp)
  refine Safe.ite (fun hsucceeded => ?_) fun _ => ?_
  · refine Safe.finishNodeAttempt hk hx' rfl rfl
      (fun w hrec hw => finish w hrec hw (by simp [NodeRun.released]) rfl rfl rfl hended rfl rfl rfl (.inl rfl)
        (by simp [hsucceeded])) ?_
    exact Safe.seq (settle_safe hk rounds) fun _ _ => Safe.ret trivial
  refine Safe.ite (fun hretried => ?_) fun hexhausted => ?_
  · exact finishNodeAttempt_safe hk hx' rfl rfl
      fun w hrec hw => finish w hrec hw (by simp [NodeRun.released]) rfl rfl rfl hended rfl rfl rfl
        (.inr hretried.2) fun _ _ => ⟨fun _ => hretried.1, fun _ => rfl⟩
  -- Whatever the failure policy makes of the node, it is not tried again.
  have exhausted {status : NodeRunStatus} (hstatus : status ≠ .retryWait)
      (hclass : spec.idempotencyClass ≠ .nonIdempotent) :
      status = .retryWait ↔ stored.attemptNumber < spec.retryPolicy.maxAttempts :=
    ⟨fun h => absurd h hstatus, fun h => absurd ⟨h, hclass⟩ hexhausted⟩
  cases spec.failurePolicy with
  | skip =>
    refine Safe.finishNodeAttempt hk hx' rfl rfl
      (fun w hrec hw => finish w hrec hw (by simp [NodeRun.released]) rfl rfl rfl hended rfl rfl rfl (.inl rfl)
        fun _ => exhausted (by simp [NodeRun.released])) ?_
    exact Safe.seq (settle_safe hk rounds) fun _ _ => Safe.ret trivial
  | manualReconcile =>
    refine Safe.finishNodeAttempt hk hx' rfl rfl
      (fun w hrec hw => finish w hrec hw (by simp) rfl rfl rfl hended rfl rfl rfl (.inl rfl)
        fun _ => exhausted (by simp)) ?_
    exact Safe.seq (markRunManualReconcile_safe hk) fun _ _ => Safe.ret trivial
  | failWorkflow =>
    refine Safe.finishNodeAttempt hk hx' rfl rfl
      (fun w hrec hw => finish w hrec hw (by simp [NodeRun.released]) rfl rfl rfl hended rfl rfl rfl (.inl rfl)
        fun _ => exhausted (by simp [NodeRun.released])) ?_
    exact Safe.seq (stopRun_safe hk (.inl rfl) (fun _ => rfl) (fun _ => rfl) (.inr ⟨by simp, fun _ => rfl⟩)) fun _ _ => Safe.ret trivial

/-- The only operation that promises something by returning. -/
theorem markSideEffectStarted_safe (hk : start.Keyed) (attemptId : String) :
    Safe backend start known (markSideEffectStarted attemptId) fun _ knows =>
      ∃ s seen attempt, attempt.id = attemptId ∧
        .call s (.updateAttempt .markSideEffectStarted seen attempt) ∈ knows := by
  unfold markSideEffectStarted
  refine Safe.getAttempt hk fun s attempt _ hread => ?_
  obtain ⟨hmem, hid⟩ := GraphStore.attempt?_some hread
  refine Safe.ite (fun _ => Safe.fail) fun hrunning => ?_
  refine Safe.ite (fun _ => Safe.fail) fun _ => ?_
  refine Safe.getNodeRun hk fun s₀ x _ _ => ?_
  refine Safe.requireRunningRun hk fun s₁ _ _ => ?_
  refine Safe.updateAttempt hk
    ⟨s, .getAttempt .markSideEffectStarted attemptId, by simp, hmem⟩ (not_not.mp hrunning)
    (fun _ _ _ => .marked rfl) fun s' => ?_
  exact Safe.ret ⟨s', attempt, { attempt with sideEffectState := .started }, hid,
    List.mem_cons_self ..⟩

theorem selectCondition_safe (hk : start.Keyed) (rounds : Nat) (nodeRunId selectedPort : String)
    (outputRefs : Refs) :
    Safe backend start known (selectCondition rounds nodeRunId selectedPort outputRefs)
      fun _ _ => True := by
  unfold selectCondition
  refine Safe.getNodeRun hk fun s₀ x _ hx₀ => ?_
  have hx : KnowsNode (.call s₀ (.getNodeRun nodeRunId) :: known) x :=
    ⟨s₀, _, List.mem_cons_self .., hx₀⟩
  refine Safe.requireRunningRun hk fun s₁ _ _ => ?_
  refine Safe.definitionAndNode hk fun spec _ => ?_
  refine Safe.ite (fun _ => Safe.fail) fun hst => ?_
  refine Safe.lift fun _ _ => ?_
  refine Safe.ite (fun _ => Safe.fail) fun _ => ?_
  refine Safe.lift fun _ _ => ?_
  have hready : x.status = .ready := not_not.mp (not_or.mp hst).2
  refine saveIdle_safe hk (hx.cons _) (.selected hready) (by simp [hready]) (by simp) (.inl rfl)
    (fun hactive => nomatch hactive) ?_
  exact Safe.seq (settle_safe hk rounds) fun _ _ => Safe.ret trivial

theorem enterBoundary_safe (hk : start.Keyed) (nodeRunId : String) (boundary : BoundaryKind)
    (waitToken : String) :
    Safe backend start known (enterBoundary nodeRunId boundary waitToken) fun _ _ => True := by
  unfold enterBoundary
  refine Safe.getNodeRun hk fun s₀ x _ hx₀ => ?_
  have hx : KnowsNode (.call s₀ (.getNodeRun nodeRunId) :: known) x :=
    ⟨s₀, _, List.mem_cons_self .., hx₀⟩
  refine Safe.requireRunningRun hk fun s₁ _ _ => ?_
  refine Safe.ite (fun _ => Safe.fail) fun hst => ?_
  refine Safe.definitionAndNode hk fun spec _ => ?_
  refine Safe.lift fun _ _ => ?_
  refine Safe.ite (fun _ => Safe.fail) fun _ => ?_
  have hready : x.status = .ready := not_not.mp hst
  refine saveIdle_safe hk (hx.cons _) (.entered hready) (by simp [hready]) ?_ (.inl rfl)
    (fun _ => .inl (by rw [hready]; rfl)) ?_
  · cases boundary <;> simp [BoundaryKind.status]
  · exact Safe.seq (refreshRunActivityStatus_safe hk) fun _ _ => Safe.ret trivial

theorem idle_of_isWaiting {status : NodeRunStatus} (h : ¬(!status.isWaiting) = true) :
    status ≠ .running ∧ status ≠ .manualReconcileRequired := by
  cases status <;> simp [NodeRunStatus.isWaiting] at h ⊢

theorem resolveBoundary_safe (hk : start.Keyed) (rounds : Nat) (nodeRunId : String)
    (resolution : BoundaryResolution) :
    Safe backend start known (resolveBoundary rounds nodeRunId resolution) fun _ _ => True := by
  unfold resolveBoundary
  refine Safe.getNodeRun hk fun s₀ x _ hx₀ => ?_
  have hx : KnowsNode (.call s₀ (.getNodeRun nodeRunId) :: known) x :=
    ⟨s₀, _, List.mem_cons_self .., hx₀⟩
  refine Safe.ite (fun _ => Safe.ite (fun _ => Safe.ret trivial) fun _ => Safe.fail) fun _ => ?_
  refine Safe.ite (fun _ => Safe.fail) fun hst => ?_
  refine Safe.getRun hk fun s₁ _ => ?_
  refine Safe.ite (fun _ => Safe.fail) fun _ => ?_
  refine Safe.ite (fun _ => Safe.fail) fun _ => ?_
  refine Safe.ite (fun _ => Safe.fail) fun _ => ?_
  refine Safe.definitionAndNode hk fun spec _ => ?_
  refine Safe.lift fun _ _ => ?_
  refine saveIdle_safe hk (hx.cons _) (.resolved (by simpa using hst)) (idle_of_isWaiting hst) ?_
    (.inl rfl) (by cases resolution.accepted <;> exact fun hactive => nomatch hactive) ?_
  · cases resolution.accepted <;> simp
  · refine Safe.ite (fun _ => ?_) fun _ => ?_
    · exact Safe.seq (settle_safe hk rounds) fun _ _ => Safe.ret trivial
    · exact Safe.seq (stopRun_safe hk (.inl rfl) (fun _ => rfl) (fun _ => rfl) (.inr ⟨by simp, fun _ => rfl⟩)) fun _ _ => Safe.ret trivial

theorem timeoutBoundary_safe (hk : start.Keyed) (rounds : Nat) (nodeRunId waitToken : String) :
    Safe backend start known (timeoutBoundary rounds nodeRunId waitToken) fun _ _ => True := by
  unfold timeoutBoundary
  refine Safe.getNodeRun hk fun s₀ x _ hx₀ => ?_
  have hx : KnowsNode (.call s₀ (.getNodeRun nodeRunId) :: known) x :=
    ⟨s₀, _, List.mem_cons_self .., hx₀⟩
  refine Safe.ite (fun _ => Safe.fail) fun hst => ?_
  refine Safe.getRun hk fun s₁ _ => ?_
  refine Safe.ite (fun _ => Safe.fail) fun _ => ?_
  refine Safe.ite (fun _ => Safe.fail) fun _ => ?_
  refine Safe.definitionAndNode hk fun spec _ => ?_
  refine Safe.ite (fun _ => Safe.fail) fun _ => ?_
  refine saveIdle_safe hk (hx.cons _) (.timedOut (by simpa using hst)) (idle_of_isWaiting hst)
    (by simp) (.inl rfl) (fun hactive => nomatch hactive) ?_
  exact Safe.seq (settle_safe hk rounds) fun _ _ => Safe.ret trivial

/-- A loop that goes on is below its bound. -/
theorem limitReasons_nil {policy : LoopPolicy} {usage : CheckedLoopUsage} {continueLoop : Bool}
    {iteration repeats : Nat} (h : limitReasons policy usage continueLoop iteration repeats = [])
    (hcontinue : continueLoop = true) : iteration < policy.maxIterations := by
  by_contra hge
  have hle : policy.maxIterations ≤ iteration := by omega
  simp [limitReasons, hcontinue, hle] at h

theorem advanceLoop_safe (hk : start.Keyed) (rounds : Nat) (step : LoopStep) :
    Safe backend start known (advanceLoop rounds step) fun _ _ => True := by
  unfold advanceLoop
  refine Safe.lift fun usage _ => ?_
  refine Safe.getNodeRun hk fun s₀ x _ hx₀ => ?_
  have hx : KnowsNode (.call s₀ (.getNodeRun step.nodeRunId) :: known) x :=
    ⟨s₀, _, List.mem_cons_self .., hx₀⟩
  refine Safe.requireRunningRun hk fun s₁ _ _ => ?_
  refine Safe.definitionAndNode hk fun spec hspec => ?_
  dsimp only
  cases hpolicy : spec.loopPolicy with
  | none => exact Safe.fail
  | some policy =>
    refine Safe.ite (fun _ => Safe.fail) fun hst => ?_
    have hwas : x.status = .ready ∨ x.status = .running := by
      by_contra h
      exact hst (not_or.mp h)
    have hactive : x.status.isActive = true := by rcases hwas with h | h <;> rw [h] <;> rfl
    refine Safe.lift fun _ _ => ?_
    refine Safe.lift fun _ _ => ?_
    refine Safe.ite (fun _ => ?_) fun hnone => Safe.ite (fun _ => ?_) fun hcontinue => ?_
    · refine Safe.saveNode hk (hx.cons _) (.exited hwas (.inr ⟨rfl, by simp [Dict.has]⟩))
        (fun _ _ _ _ => .advanced (by simp [NodeRun.advanced]) rfl hwas) (fun _ => .inl hactive) ?_
      exact Safe.seq (settle_safe hk rounds) fun _ _ => Safe.ret trivial
    · refine Safe.saveNode hk (hx.cons _) (.exited hwas (.inl rfl))
        (fun _ _ _ _ => .advanced (by simp [NodeRun.advanced]) rfl hwas) (fun _ => .inl hactive) ?_
      exact Safe.seq (settle_safe hk rounds) fun _ _ => Safe.ret trivial
    · refine Safe.getRun hk fun s₂ _ => ?_
      refine Safe.getRun hk fun s₃ _ => ?_
      refine Safe.getDefinition hk ?_
      have hbound : x.iteration + 1 < policy.maxIterations := by
        refine limitReasons_nil (by simpa using hnone) ?_
        simpa using hcontinue
      have hnext : (if start.definition.hasBackEdge spec.nodeId then NodeRunStatus.pending
          else .ready) = .pending ∨ (if start.definition.hasBackEdge spec.nodeId then
          NodeRunStatus.pending else .ready) = .ready := by
        split
        · exact .inl rfl
        · exact .inr rfl
      refine Safe.saveNode_known hk (((hx.cons _).cons _).cons _)
        (.continued hwas hnext hspec hpolicy hbound) (fun _ _ _ _ => .advanced ?_ rfl hwas)
        (fun _ => .inl hactive) fun s₄ => ?_
      · simp only [NodeRun.advanced]
        split <;> simp
      · have hloop : spec.nodeId = x.nodeId := by simpa using List.find?_some hspec
        refine Safe.seq (unlockLoopBody_safe hk ?_) fun _ _ => Safe.ret trivial
        exact ⟨s₄, _, _, _, List.mem_cons_self .., hnext, hloop.symm⟩

theorem recordBudget_safe (hk : start.Keyed) (usage : BudgetUsage) (observedAfterStop : Bool) :
    Safe backend start known (recordBudget usage observedAfterStop) fun _ _ => True := by
  unfold recordBudget
  refine Safe.lift fun usage _ => ?_
  refine Safe.getRun hk fun s _ => ?_
  refine Safe.ite (fun _ => Safe.fail) fun _ => ?_
  refine Safe.ite (fun _ => Safe.fail) fun _ => ?_
  refine Safe.ite (fun _ => ?_) fun hin => ?_
  · exact stopRun_safe hk (.inl rfl) (fun _ => rfl) (fun _ => rfl) (.inl ⟨_, rfl⟩)
  · refine saveRun_safe hk (List.mem_cons_self ..) (fun w _ _ hrun => ⟨.accounted ?_, ?_⟩) rfl rfl
    · rw [hrun]
    · refine .accounted fun hactive => ?_
      have hwas : s.run.status = .running ∨ s.run.status = .waitingApproval ∨
          s.run.status = .waitingInput := by
        revert hactive
        cases s.run.status <;> simp [GraphRunStatus.isActive]
      have hwithin := fun hover => hin ⟨hwas, hover⟩
      exact Bool.not_eq_true _ ▸ hwithin

theorem cancelRun_safe (hk : start.Keyed) :
    Safe backend start known cancelRun fun _ _ => True := by
  unfold cancelRun
  refine Safe.getRun hk fun s _ => ?_
  exact Safe.ite (fun _ => Safe.ret trivial) fun _ => stopRun_safe hk (.inr rfl) (fun _ => rfl) (fun _ => rfl) (.inr ⟨by simp, fun _ => rfl⟩)

theorem failRun_safe (hk : start.Keyed) : Safe backend start known failRun fun _ _ => True := by
  unfold failRun
  refine Safe.getRun hk fun s _ => ?_
  exact Safe.ite (fun _ => Safe.ret trivial) fun _ => stopRun_safe hk (.inl rfl) (fun _ => rfl) (fun _ => rfl) (.inr ⟨by simp, fun _ => rfl⟩)

theorem interruptRun_safe (hk : start.Keyed) :
    Safe backend start known interruptRun fun _ _ => True := by
  unfold interruptRun
  refine Safe.getRun hk fun s _ => ?_
  refine Safe.ite (fun _ => Safe.ret trivial) fun _ => ?_
  refine Safe.seq (resetInterruptedNodes_safe hk) fun manual _ => ?_
  refine Safe.getRun hk fun s' _ => ?_
  refine saveRun_safe hk (List.mem_cons_self ..)
    (fun w _ hk' hrun => ⟨?_, .kept (by simp) (hrun ▸ rfl) ?_⟩) rfl rfl
  · refine .reread ⟨s', hk'.subset (List.mem_cons_self ..), hrun.symm⟩ ?_
    cases manual <;> simp
  · cases manual <;> simp [GraphRunStatus.isActive]

theorem recover_safe (hk : start.Keyed) (rounds : Nat) :
    Safe backend start known (recover rounds) fun _ _ => True := by
  unfold recover
  refine Safe.getRun hk fun s _ => ?_
  refine Safe.ite (fun _ => Safe.ret trivial) fun _ => ?_
  refine Safe.seq (resetInterruptedNodes_safe hk) fun manual _ => ?_
  refine Safe.ite (fun _ => ?_) fun _ => ?_
  · refine Safe.getRun hk fun s' _ => ?_
    refine saveRun_safe hk (List.mem_cons_self ..)
      (fun w _ hk' hrun => ⟨?_, .kept (by simp) (hrun ▸ rfl) (by simp [GraphRunStatus.isActive])⟩) rfl rfl
    exact .reread ⟨s', hk'.subset (List.mem_cons_self ..), hrun.symm⟩ (.inl rfl)
  · refine Safe.seq (resetDerivedDependencyStates_safe hk) fun _ _ => ?_
    refine Safe.seq (propagateDependencies_safe hk rounds) fun _ _ => ?_
    refine Safe.seq (finishIfTerminal_safe hk) fun _ _ => ?_
    refine Safe.getRun hk fun s' _ => ?_
    exact Safe.ite (fun _ => Safe.ret trivial) fun _ => refreshRunActivityStatus_safe hk

/-! ### All of them -/

/-- Once the operation has returned, what it promises has been done. -/
def Promises (op : Op) (knows : List Event) : Prop :=
  ∀ w : World, knows.Sublist w.history → Done w op

theorem Op.safe (hk : start.Keyed) (rounds : Nat) (op : Op) :
    Safe backend start known (op.code rounds) fun _ knows => Promises op knows := by
  have drop {α : Type} {p : GraphProg α} {op : Op} (hdone : ∀ w, Done w op)
      (h : Safe backend start known p fun _ _ => True) :
      Safe backend start known (p >>= fun _ => .ret ()) fun _ knows => Promises op knows :=
    Safe.seq h fun _ _ => Safe.ret fun w _ => hdone w
  cases op with
  | markSideEffectStarted attemptId =>
    refine Safe.bind (markSideEffectStarted_safe hk attemptId) fun _ knows hdone => ?_
    obtain ⟨s, seen, attempt, hid, hmem⟩ := hdone
    exact Safe.ret fun w hw => ⟨s, seen, attempt, hid, hw.subset hmem⟩
  | startRun now => exact drop (fun _ => trivial) (startRun_safe hk now)
  | startAttempt args => exact drop (fun _ => trivial) (startAttempt_safe hk args)
  | completeAttempt outcome => exact drop (fun _ => trivial) (completeAttempt_safe hk rounds outcome)
  | selectCondition nodeRunId selectedPort outputRefs =>
    exact drop (fun _ => trivial) (selectCondition_safe hk rounds nodeRunId selectedPort outputRefs)
  | enterBoundary nodeRunId boundary waitToken =>
    exact drop (fun _ => trivial) (enterBoundary_safe hk nodeRunId boundary waitToken)
  | resolveBoundary nodeRunId resolution =>
    exact drop (fun _ => trivial) (resolveBoundary_safe hk rounds nodeRunId resolution)
  | timeoutBoundary nodeRunId waitToken =>
    exact drop (fun _ => trivial) (timeoutBoundary_safe hk rounds nodeRunId waitToken)
  | advanceLoop step => exact drop (fun _ => trivial) (advanceLoop_safe hk rounds step)
  | recordBudget usage observedAfterStop =>
    exact drop (fun _ => trivial) (recordBudget_safe hk usage observedAfterStop)
  | cancelRun => exact drop (fun _ => trivial) (cancelRun_safe hk)
  | interruptRun => exact drop (fun _ => trivial) (interruptRun_safe hk)
  | failRun => exact drop (fun _ => trivial) (failRun_safe hk)
  | recover => exact drop (fun _ => trivial) (recover_safe hk rounds)

/-- Whatever callers do, at whatever point they are cut off: every call has its reason. -/
theorem played_recorded (backend : Backend) (hk : start.Keyed) (moves : List (Move (Nat × Op))) :
    Recorded start Reason Done
      (Pool.play (callers backend) { world := { store := start } } moves).world := by
  have sound : Pool.Sound (callRules backend start)
      (fun task _ w => ∃ knows, knows.Sublist w.history ∧ Promises task.2 knows) (callers backend) := by
    refine ⟨rfl, fun task w _ => ?_, ?_⟩
    · exact Op.safe hk task.1 task.2 w (List.nil_sublist _)
    · intro task a w w' hdone hr hi
      obtain ⟨knows, hs, hp⟩ := hdone
      have hw' : Recorded start Reason Done w' := hi
      exact ⟨.returned hw' (hp w' (hs.trans hr.sublist)), List.suffix_cons ..⟩
  have meets (p : Pool RepoCall RepoCall.Reply GraphError World (Nat × Op) Unit) :
      Pool.Meets (callers backend) (callRules backend start).allowed p moves := by
    induction moves generalizing p with
    | nil => trivial
    | cons m rest ih =>
      refine ⟨?_, ih _⟩
      cases m with
      | step i =>
        simp only [Pool.Allows]
        split <;> trivial
      | start task => trivial
      | crash i => trivial
  have hgood := (Pool.Good.init (L := callRules backend start) (w := { store := start })
    Recorded.start).play sound moves (meets _)
  exact hgood.1.inv

end Operant.Graph
