import Operant.Dispatch.Steps

/-! One run for each request.

Every program keeps the rules: a worker dispatches in the name of the attempt it owns, and
says that the dispatch failed only where it has created nothing. -/
namespace Operant.Dispatch
open Operant.Tables Operant.Calls Operant.Scheduler
open Operant.Graph (GraphRunStatus WorkflowDefinitionStatus)

section Programs
variable {H : Hashes} {k : Option AttemptId} {w : World} {t : AttemptId}
  {X : Option AttemptId → Raised → World → Prop}

/-- What the others leave as it is. -/
def Stable (k : Option AttemptId) (P : World → Prop) : Prop := ∀ w w', Rely k w w' → P w → P w'

/-- A call that changes nothing. -/
theorem ask_quiet {c : Call} (hc : c.isChange = false) (hread : ∀ w' : World, (w'.answer H c).2 = w')
    {P : World → Prop} (hP : Stable k P) (h : P w) :
    (ask c).HoldsAs (rules H) k (fun k' _ w' => k' = k ∧ P w') (fun k' _ w' => k' = k ∧ P w') w :=
  ask_read hc hread (fun w' _ hr _ _ => ⟨rfl, hP w w' hr h⟩) (fun w' _ hr _ => ⟨rfl, hP w w' hr h⟩)
    fun w' _ hr => ⟨rfl, hP w w' hr h⟩

theorem attempt_holds {α : Type} {p : Action α} {Q : Option AttemptId → Except Raised α → World → Prop}
    (h : p.HoldsAs (rules H) k (fun k a w' => Q k (.ok a) w') (fun k e w' => Q k (.error e) w') w) :
    p.attempt.HoldsAs (rules H) k Q X w := by
  apply h.attempt
  intro c w e he
  have he : (Except.ok (w.exec H c) : Except Raised _) = .error e := he
  cases he

theorem orRaise_holds {α : Type} {p : Action α} {handler : Raised → Raised}
    {Q : Option AttemptId → α → World → Prop}
    (h : p.HoldsAs (rules H) k Q (fun k e w' => X k (handler e) w') w) :
    (orRaise p handler).HoldsAs (rules H) k Q X w := by
  apply Prog.HoldsAs.bind
  apply attempt_holds
  exact h

/-! ### The gateway -/

/-- The dispatch of the attempt has begun, and has created nothing. -/
def Fresh (t : AttemptId) (w : World) : Prop := w.record? t = some ⟨t, false⟩ ∧ ¬w.made t

theorem stable_fresh : Stable (some t) (Fresh t) :=
  fun _ _ hr h => ⟨(hr.record t rfl).trans h.1, fun hmade => h.2 (hr.made t rfl hmade)⟩

/-- A dispatch that failed: where the exception says so, nothing was created. -/
def Lost (t : AttemptId) (k : Option AttemptId) (e : Raised) (w : World) : Prop :=
  k = some t ∧ (e.isKnown = true → ¬w.made t)

/-- A dispatch that succeeded with a run. -/
def Named (t : AttemptId) (k : Option AttemptId) (id : String) (w : World) : Prop :=
  k = some t ∧ w.bound t.request id

theorem lost_unknown {e : Raised} (he : e.isKnown = false) : Lost t (some t) e w := by
  refine ⟨rfl, fun hknown => ?_⟩
  rw [he] at hknown
  cases hknown

theorem completedRun_holds {completed : DispatchBinding} {id : String}
    (hid : completed.graphRunId = some id) (hbound : w.bound t.request id) :
    (completedRun completed).HoldsAs (rules H) (some t) (Named t) X w := by
  unfold completedRun
  rw [hid]
  exact ⟨rfl, hbound⟩

theorem recoverRun_holds {action : WorkflowDispatch} {binding : DispatchBinding} {recovered : GraphRun}
    (hsource : binding.sourceRunRequestId = t.request)
    (hid : recovered.id = graphRunId H binding.sourceRunRequestId binding.actionHash)
    (hrun : w.hasRun recovered.id) :
    (recoverRun action binding recovered).HoldsAs (rules H) (some t) (Named t) (Lost t) w := by
  have hcomplete : ∀ {w' : World} {id : String}, id = recovered.id → w'.hasRun id →
      (ask (.complete binding id) >>= completedRun).HoldsAs (rules H) (some t) (Named t) (Lost t) w' := by
    intro w' id hsame hhas
    apply Prog.HoldsAs.bind
    refine ask_complete (hsame.trans hid) hhas ?_ fun w'' e _ he => lost_unknown he
    intro w'' completed _ hgraph hbound
    exact completedRun_holds hgraph (hsource ▸ hbound)
  unfold recoverRun
  split
  · show Lost t (some t) (.dispatch "scheduler.graph_dispatch_binding_conflict" true) w
    exact lost_unknown rfl
  · split
    · apply Prog.HoldsAs.bind
      refine ask_startRun ?_ fun w' e _ he => lost_unknown he
      intro w' started _ hhas hsame
      exact hcomplete hsame (hsame ▸ hhas)
    · exact hcomplete rfl hrun

theorem creationError_holds {e : Raised} (he : e.isKnown = false) :
    (creationError e).HoldsAs (rules H) (some t) (Named t) (Lost t) w := by
  have hunknown : ∀ e : Raised, (ask .appendAudit >>= fun _ =>
      (throw (.dispatch s!"graph.{e.typeName}" true) : Action String)).HoldsAs (rules H) (some t)
        (Named t) (Lost t) w := by
    intro e
    apply Prog.HoldsAs.bind
    exact ask_read (by rfl) (fun _ => rfl) (fun _ _ _ _ _ => lost_unknown rfl)
      (fun _ _ _ h => nomatch h) fun _ _ _ => lost_unknown rfl
  cases e with
  | dispatch code unknown => exact lost_unknown he
  | conflict => exact hunknown .conflict
  | other name => exact hunknown (.other name)

theorem createRun_holds {action : WorkflowDispatch} {binding : DispatchBinding} {id : String}
    (hfresh : Fresh t w) (hreserved : w.reserved t.request binding.actionHash)
    (hsource : binding.sourceRunRequestId = t.request)
    (hid : id = graphRunId H t.request binding.actionHash) :
    (createRun t action binding id).HoldsAs (rules H) (some t) (Named t) (Lost t) w := by
  unfold createRun
  apply Prog.HoldsAs.bind
  apply attempt_holds
  apply Prog.HoldsAs.bind
  refine ask_createRun rfl hfresh.1 hreserved hid ?_ fun w' e _ he => creationError_holds he
  intro w₁ run _ hrun
  apply Prog.HoldsAs.bind
  refine ask_startRun ?_ fun w' e _ he => creationError_holds he
  intro w₂ started _ hhas hstarted
  have hsame : started.id = graphRunId H binding.sourceRunRequestId binding.actionHash := by
    rw [hstarted, hrun, hid, hsource]
  refine ask_complete hsame (hstarted ▸ hhas) ?_ fun w' e _ he => creationError_holds he
  intro w₃ completed _ hgraph hbound
  apply Prog.HoldsAs.bind
  refine ask_read (by rfl) (fun _ => rfl) ?_ (fun _ _ _ h => nomatch h) fun _ _ _ => lost_unknown rfl
  intro w₄ _ hr _ _
  exact completedRun_holds hgraph (hsource ▸ hr.bound hbound)

theorem checkDispatch_holds {action : WorkflowDispatch} (hfresh : Fresh t w) :
    (checkDispatch action).HoldsAs (rules H) (some t) (fun k _ w' => k = some t ∧ Fresh t w') (Lost t) w := by
  have hlost : ∀ {k : Option AttemptId} {e : Raised} {w' : World}, k = some t ∧ Fresh t w' → Lost t k e w' :=
    fun h => ⟨h.1, fun _ => h.2.2⟩
  have hquiet : ∀ {c : Call} {w' : World}, c.isChange = false → (∀ w'' : World, (w''.answer H c).2 = w'') →
      Fresh t w' → (ask c).HoldsAs (rules H) (some t) (fun k _ w'' => k = some t ∧ Fresh t w'')
        (fun k _ w'' => k = some t ∧ Fresh t w'') w' :=
    fun hc hread h => ask_quiet hc hread stable_fresh h
  unfold checkDispatch
  apply Prog.HoldsAs.bind
  apply orRaise_holds
  apply (hquiet (by rfl) (fun _ => rfl) hfresh).mono ?_ fun _ _ _ h => hlost h
  intro k₁ status w₁ h₁
  obtain ⟨rfl, hfresh⟩ := h₁
  split
  · exact hlost ⟨rfl, hfresh⟩
  · apply Prog.HoldsAs.bind
    apply orRaise_holds
    apply (hquiet (by rfl) (fun _ => rfl) hfresh).mono ?_ fun _ _ _ h => hlost h
    intro k₂ _ w₂ h₂
    obtain ⟨rfl, hfresh⟩ := h₂
    apply Prog.HoldsAs.bind
    apply (hquiet (by rfl) (fun _ => rfl) hfresh).mono ?_ fun _ _ _ h => hlost h
    intro k₃ hash w₃ h₃
    obtain ⟨rfl, hfresh⟩ := h₃
    apply Prog.HoldsAs.bind
    apply orRaise_holds
    apply (hquiet (by rfl) (fun _ => rfl) hfresh).mono ?_ fun _ _ _ h => hlost h
    intro k₄ _ w₄ h₄
    exact h₄

theorem dispatchBound_holds {action : WorkflowDispatch} {binding : DispatchBinding} {id : String}
    (hfresh : Fresh t w) (hreserved : w.reserved t.request binding.actionHash)
    (hsource : binding.sourceRunRequestId = t.request)
    (hid : id = graphRunId H t.request binding.actionHash) :
    (dispatchBound t action binding id).HoldsAs (rules H) (some t) (Named t) (Lost t) w := by
  have hcreate : ∀ {w' : World}, Rely (some t) w w' →
      (createRun t action binding id).HoldsAs (rules H) (some t) (Named t) (Lost t) w' :=
    fun hr => createRun_holds (stable_fresh _ _ hr hfresh) (hr.reserved hreserved) hsource hid
  unfold dispatchBound getRecovered
  apply Prog.HoldsAs.bind
  apply Prog.HoldsAs.bind
  apply attempt_holds
  refine ask_getRun ?_ ?_
  · intro w' run _ hhas hsame
    have hrun : run.id = graphRunId H binding.sourceRunRequestId binding.actionHash := by
      rw [hsame, hid, hsource]
    exact recoverRun_holds hsource hrun (hsame ▸ hhas)
  · intro w' e hr he
    split
    · rename_i hok
      exact nomatch hok
    · exact hcreate hr
    · rename_i _ hsame
      obtain rfl := Except.error.inj hsame
      show Lost t (some t) e w'
      exact lost_unknown he

/-- A dispatch names the run of its request, or has created nothing if it says so. -/
theorem dispatchWorkflow_holds {action : WorkflowDispatch} (hfresh : Fresh t w)
    (haction : action.sourceRunRequestId = t.request) :
    (dispatchWorkflow H t action).HoldsAs (rules H) (some t) (Named t) (Lost t) w := by
  unfold dispatchWorkflow
  apply Prog.HoldsAs.bind
  apply (checkDispatch_holds hfresh).mono ?_ fun _ _ _ h => h
  intro k₁ hash w₁ h₁
  obtain ⟨rfl, hfresh⟩ := h₁
  apply Prog.HoldsAs.bind
  refine ask_reserve ?_ fun w' e _ he => lost_unknown he
  intro w₂ binding created hr hi hmem hsource hhash
  have hfresh := stable_fresh _ _ hr hfresh
  have hbinding : binding.sourceRunRequestId = t.request := hsource.trans haction
  have hreserved : w₂.reserved t.request binding.actionHash := ⟨binding, hmem, hbinding, rfl⟩
  have hid : graphRunId H action.sourceRunRequestId hash = graphRunId H t.request binding.actionHash := by
    rw [haction, hhash]
  dsimp only
  split
  · exact createRun_holds hfresh hreserved hbinding hid
  · split
    · rename_i bound hstatus hgraph
      split
      · -- The run is known already.
        have hbound : w₂.bound t.request bound := ⟨binding, hmem, hbinding, hstatus, hgraph⟩
        apply Prog.HoldsAs.bind
        refine ask_getRun ?_ fun w' e _ he => lost_unknown he
        exact fun w₃ _ hr _ _ => ⟨rfl, hr.bound hbound⟩
      · exact dispatchBound_holds hfresh hreserved hbinding hid
    · exact dispatchBound_holds hfresh hreserved hbinding hid

/-! ### The worker -/

/-- Nothing more is asked of how a program ends. -/
def Anyhow {α : Type} (_ : Option AttemptId) (_ : α) (_ : World) : Prop := True

theorem followRun_holds {cancelRequested : Bool} {workflowRunId : String} {P : World → Prop}
    (hP : Stable k P) (h : P w) :
    (followRun cancelRequested workflowRunId).HoldsAs (rules H) k (fun k' _ w' => k' = k ∧ P w') Anyhow w := by
  have hquiet : ∀ {c : Call} {w' : World}, c.isChange = false → (∀ w'' : World, (w''.answer H c).2 = w'') →
      P w' → (ask c).HoldsAs (rules H) k (fun k' _ w'' => k' = k ∧ P w'') Anyhow w' :=
    fun hc hread h => (ask_quiet hc hread hP h).mono (fun _ _ _ h => h) fun _ _ _ _ => trivial
  unfold followRun
  apply Prog.HoldsAs.bind
  apply (hquiet (by rfl) (fun _ => rfl) h).mono ?_ fun _ _ _ h => h
  intro k₁ run w₁ h₁
  obtain ⟨rfl, h₁⟩ := h₁
  split
  · apply Prog.HoldsAs.bind
    apply (hquiet (by rfl) (fun _ => rfl) h₁).mono ?_ fun _ _ _ h => h
    intro k₂ _ w₂ h₂
    obtain ⟨rfl, h₂⟩ := h₂
    apply Prog.HoldsAs.bind
    exact (hquiet (by rfl) (fun _ => rfl) h₂).mono (fun _ _ _ h => h) fun _ _ _ h => h
  · split
    · apply Prog.HoldsAs.bind
      exact (hquiet (by rfl) (fun _ => rfl) h₁).mono (fun _ _ _ h => h) fun _ _ _ h => h
    · exact ⟨rfl, h₁⟩

theorem finishIfTerminal_holds {request : RunRequest} {lease : JobLease} {workflowRunId : String}
    {status : GraphRunStatus} {P : World → Prop} (hP : Stable k P) (h : P w)
    (hbound : w.bound lease.runRequestId workflowRunId) :
    (finishIfTerminal request lease workflowRunId status).HoldsAs (rules H) k
      (fun k' _ w' => k' = k ∧ P w') Anyhow w := by
  unfold finishIfTerminal
  split
  · exact ask_completeJob hbound (fun w' _ hr => ⟨rfl, hP w w' hr h⟩) fun _ _ _ => trivial
  · exact ask_finishDispatchedJob (fun w' _ hr => ⟨rfl, hP w w' hr h⟩) fun _ _ _ => trivial
  · exact ask_finishDispatchedJob (fun w' _ hr => ⟨rfl, hP w w' hr h⟩) fun _ _ _ => trivial
  · exact ask_finishDispatchedJob (fun w' _ hr => ⟨rfl, hP w w' hr h⟩) fun _ _ _ => trivial
  · exact ⟨rfl, h⟩

/-- The run of a request is followed in the name of its lease. -/
theorem reconcileOne_holds {request : RunRequest} {lease : JobLease} {P : World → Prop}
    (hP : Stable k P) (h : P w)
    (hbound : ∀ run, request.workflowRunId = some run → w.bound lease.runRequestId run) :
    (reconcileOne request lease).HoldsAs (rules H) k (fun k' _ w' => k' = k ∧ P w') Anyhow w := by
  unfold reconcileOne
  cases hrun : request.workflowRunId with
  | none => exact trivial
  | some workflowRunId =>
    have hboth : Stable k fun w' => P w' ∧ w'.bound lease.runRequestId workflowRunId :=
      fun w₁ w₂ hr h => ⟨hP w₁ w₂ hr h.1, hr.bound h.2⟩
    apply Prog.HoldsAs.bind
    apply (followRun_holds hboth ⟨h, hbound _ hrun⟩).mono ?_ fun _ _ _ h => h
    intro k₁ status w₁ h₁
    obtain ⟨rfl, h₁, hbound⟩ := h₁
    exact finishIfTerminal_holds hP h₁ hbound

theorem reconcileJobs_holds {jobs : List (RunRequest × JobLease)}
    (hbound : ∀ job ∈ jobs, ∀ run, job.1.workflowRunId = some run → w.bound job.2.runRequestId run) :
    (reconcileJobs jobs).HoldsAs (rules H) k (fun k' _ _ => k' = k) Anyhow w := by
  induction jobs generalizing w with
  | nil => exact rfl
  | cons job rest ih =>
    obtain ⟨request, lease⟩ := job
    have hrest : Stable k fun w' => ∀ job ∈ rest, ∀ run, job.1.workflowRunId = some run →
        w'.bound job.2.runRequestId run :=
      fun _ _ hr h job hjob run hrun => hr.bound (h job hjob run hrun)
    unfold reconcileJobs
    apply Prog.HoldsAs.bind
    apply (reconcileOne_holds hrest (fun job hjob => hbound job (List.mem_cons_of_mem _ hjob))
      (hbound (request, lease) (List.mem_cons_self ..))).mono ?_ fun _ _ _ h => h
    intro k₁ result w₁ h₁
    obtain ⟨rfl, h₁⟩ := h₁
    split
    · exact rfl
    · exact ih h₁

theorem concludeDispatch_holds {schedule : ScheduleDefinition} {lease : JobLease}
    {outcome : Except Raised String} (hlost : ∀ e, outcome = .error e → e.isKnown = true → ¬w.made (attemptOf lease))
    (hnamed : ∀ id, outcome = .ok id → w.bound lease.runRequestId id) :
    (concludeDispatch schedule lease outcome).HoldsAs (rules H) (some (attemptOf lease)) Anyhow Anyhow w := by
  cases outcome with
  | error e =>
    cases e with
    | conflict => exact trivial
    | dispatch code unknown =>
      refine ask_failJob rfl (fun hknown => ?_) (fun _ _ => trivial) fun _ _ => trivial
      have hknown : unknown = false := hknown
      exact hlost _ rfl (by simp [Raised.isKnown, hknown])
    | other name =>
      exact ask_failJob rfl (fun hknown => nomatch hknown) (fun _ _ => trivial) fun _ _ => trivial
  | ok workflowRunId =>
    simp only [concludeDispatch]
    split
    · exact ask_failJob rfl (fun hknown => nomatch hknown) (fun _ _ => trivial) fun _ _ => trivial
    · apply Prog.HoldsAs.bind
      refine ask_markWorkflowDispatched (hnamed _ rfl) ?_ fun _ _ _ => trivial
      intro w₁ dispatched _ hbound
      exact (reconcileOne_holds (P := fun _ => True) (fun _ _ _ _ => trivial) trivial hbound).mono
        (fun _ _ _ _ => trivial) fun _ _ _ _ => trivial

/-- A claimed job is dispatched in the name of its attempt. -/
theorem runClaimed_holds {request : RunRequest} {lease : JobLease}
    (hid : lease.runRequestId = request.id) (hrecord : w.record? (attemptOf lease) = none)
    (hmade : ¬w.made (attemptOf lease)) :
    (runClaimed H request lease).HoldsAs (rules H) (some (attemptOf lease)) Anyhow Anyhow w := by
  have hstable : Stable (some (attemptOf lease)) fun w' =>
      w'.record? (attemptOf lease) = none ∧ ¬w'.made (attemptOf lease) :=
    fun _ _ hr h => ⟨(hr.record _ rfl).trans h.1, fun hmade => h.2 (hr.made _ rfl hmade)⟩
  unfold runClaimed
  apply Prog.HoldsAs.bind
  apply (ask_quiet (by rfl) (fun _ => rfl) hstable ⟨hrecord, hmade⟩).mono ?_ fun _ _ _ _ => trivial
  intro k₁ current w₁ h₁
  obtain ⟨rfl, h₁⟩ := h₁
  split
  · exact ask_cancelClaimedJob (fun _ _ _ => trivial) fun _ _ _ => trivial
  · apply Prog.HoldsAs.bind
    apply (ask_quiet (by rfl) (fun _ => rfl) hstable h₁).mono ?_ fun _ _ _ _ => trivial
    intro k₂ schedule w₂ h₂
    obtain ⟨rfl, h₂⟩ := h₂
    apply Prog.HoldsAs.bind
    apply attempt_holds
    unfold startDispatch
    apply Prog.HoldsAs.bind
    refine ask_markSideEffectStarted rfl h₂.1 h₂.2 ?_ ?_
    · intro w₃ hrecord hmade
      apply (dispatchWorkflow_holds ⟨hrecord, hmade⟩ hid.symm).mono
      · intro k₄ id w₄ h₄
        obtain ⟨rfl, hbound⟩ := h₄
        apply concludeDispatch_holds
        · exact fun _ h => nomatch h
        · intro id' hsame
          rw [← Except.ok.inj hsame]
          exact hbound
      · intro k₄ e w₄ h₄
        obtain ⟨rfl, hlost⟩ := h₄
        apply concludeDispatch_holds
        · intro e' hsame
          rw [← Except.error.inj hsame]
          exact hlost
        · exact fun _ h => nomatch h
    · intro w₃ e hmade
      apply concludeDispatch_holds
      · exact fun _ _ _ => hmade
      · exact fun _ h => nomatch h

theorem runOne_holds {writerLease : SchedulerLease} {owner : String} {ttlSeconds : ℤ} :
    (runOne H writerLease owner ttlSeconds).HoldsAs (rules H) none Anyhow Anyhow w := by
  unfold runOne reconcileDispatched
  apply Prog.HoldsAs.bind
  apply Prog.HoldsAs.bind
  refine ask_renewDispatchedJobs ?_ fun _ _ _ => trivial
  intro w₁ jobs _ hbound
  apply (reconcileJobs_holds hbound).mono ?_ fun _ _ _ _ => trivial
  intro k₂ terminal w₂ hk
  obtain rfl := hk
  cases terminal with
  | some terminal => exact trivial
  | none =>
    apply Prog.HoldsAs.bind
    refine ask_claimDue (fun _ => trivial) ?_ fun _ _ => trivial
    intro w₃ request lease hid hrecord hmade
    apply Prog.HoldsAs.bind
    exact (runClaimed_holds hid hrecord hmade).mono (fun _ _ _ _ => trivial) fun _ _ _ _ => trivial

theorem code_holds (task : Task) :
    (Task.code H task).HoldsAs (rules H) none Anyhow Anyhow w := by
  cases task with
  | worker writerLease owner ttlSeconds =>
    apply Prog.HoldsAs.bind
    exact runOne_holds.mono (fun _ _ _ _ => trivial) fun _ _ _ _ => trivial
  | other change =>
    apply Prog.holdsAs_call
    intro w' hr hi' _
    refine ⟨none, change_step hi' change, ?_⟩
    exact trivial

end Programs

/-! ### Every run -/

theorem system_sound (H : Hashes) :
    Pool.OwnersSound (rules H) (fun _ _ _ _ => True) (system H) where
  exec := rfl
  code task _ _ := (code_holds task).mono (fun _ _ _ _ => trivial) fun _ _ _ _ => trivial
  note _ _ _ _ _ _ _ hi := .idle hi

theorem inv_empty (H : Hashes) : Inv H {} := by
  refine ⟨SchedulerStore.sound_empty, List.nodup_nil, ?_, List.nodup_nil, ?_, ?_, List.nodup_nil,
    ?_, ?_, ?_, List.Pairwise.nil⟩
  · exact fun _ h => nomatch h
  · exact fun _ h => nomatch h
  · exact fun _ _ h => nomatch h
  · exact fun _ h => nomatch h
  · exact fun _ h => nomatch h
  · exact fun _ h => nomatch h

theorem reached_inv (H : Hashes) (moves more : List (Move Task)) :
    Inv H (reached H moves) ∧ Rely none (reached H moves) (reached H (moves ++ more)) := by
  have hall : ∀ p ms, Pool.Meets (system H) (rules H).allowed p ms :=
    Pool.meets_all _ fun _ _ => trivial
  obtain ⟨⟨ks, howns⟩, -⟩ := (Pool.Owns.init (inv_empty H)).play (system_sound H) moves (hall _ _)
  obtain ⟨-, hr⟩ := howns.play (system_sound H) more (hall _ _)
  refine ⟨howns.inv, ?_⟩
  unfold reached
  rw [Pool.play_append]
  exact hr

section Conclusions
variable {H : Hashes} {w : World}

/-- The runs that were created for one request are one. -/
theorem Inv.one_run (h : Inv H w) {run run' : GraphRun} (hrun : run ∈ w.graphRuns)
    (hrun' : run' ∈ w.graphRuns) {t t' : AttemptId} (ht : run.source = some t)
    (ht' : run'.source = some t') (hsame : t.request = t'.request) : run = run' := by
  obtain ⟨-, hash, ⟨b, hb, hsource, hhash⟩, hid⟩ := h.sourced run hrun t ht
  obtain ⟨-, hash', ⟨b', hb', hsource', hhash'⟩, hid'⟩ := h.sourced run' hrun' t' ht'
  have hbinding : b = b' := eq_of_key h.sources hb hb' (by rw [hsource, hsource', hsame])
  apply eq_of_key h.runIds hrun hrun'
  rw [hid, hid', hsame, ← hhash, ← hhash', hbinding]

/-- A completed binding names the run that its request and its hash give, and no other was
created for the request. -/
theorem Inv.binding_run (h : Inv H w) {b : DispatchBinding} (hb : b ∈ w.bindings)
    (hstatus : b.status = .completed) :
    ∃ run ∈ w.graphRuns, b.graphRunId = some run.id ∧
      run.id = graphRunId H b.sourceRunRequestId b.actionHash ∧
      ∀ other ∈ w.graphRuns, ∀ t, other.source = some t → t.request = b.sourceRunRequestId →
        other = run := by
  obtain ⟨hgraph, run, hrun, hid⟩ := h.completed b hb hstatus
  refine ⟨run, hrun, by rw [hgraph, hid], hid, ?_⟩
  intro other hother t ht hsame
  obtain ⟨-, hash, ⟨b', hb', hsource', hhash'⟩, hid'⟩ := h.sourced other hother t ht
  have hbinding : b' = b := eq_of_key h.sources hb' hb (hsource'.trans hsame)
  apply eq_of_key h.runIds hother hrun
  rw [hid', hid, hsame, ← hhash', hbinding]

end Conclusions

/-- In every run of any number of workers, whatever happens around them and wherever they
stop: a request has at most one graph run, ever; bindings and requests name it; and a request
that must not be repeated is dispatched again only after a dispatch that is known to have
failed, and so has created nothing. -/
theorem one_run_per_request (H : Hashes) (moves more : List (Move Task)) :
    (∀ run ∈ (reached H moves).graphRuns, ∀ t, run.source = some t →
        ∃ hash, run.id = graphRunId H t.request hash) ∧
      (∀ run ∈ (reached H moves).graphRuns, ∀ run' ∈ (reached H (moves ++ more)).graphRuns,
        ∀ t t', run.source = some t → run'.source = some t' → t.request = t'.request →
        run.id = run'.id) ∧
      (∀ run ∈ (reached H moves).graphRuns, ∀ run' ∈ (reached H moves).graphRuns,
        ∀ t t', run.source = some t → run'.source = some t' → t.request = t'.request → run = run') ∧
      (∀ b ∈ (reached H moves).bindings, b.status = .completed →
        ∃ run ∈ (reached H moves).graphRuns, b.graphRunId = some run.id ∧
          run.id = graphRunId H b.sourceRunRequestId b.actionHash ∧
          ∀ other ∈ (reached H moves).graphRuns, ∀ t, other.source = some t →
            t.request = b.sourceRunRequestId → other = run) ∧
      (∀ r ∈ (reached H moves).store.requests, ∀ id, r.workflowRunId = some id →
        ∃ b ∈ (reached H moves).bindings, b.sourceRunRequestId = r.id ∧ b.status = .completed ∧
          b.graphRunId = some id) ∧
      (∀ r ∈ (reached H moves).store.requests, r.dispatchIdempotency = .nonIdempotent →
        (reached H moves).dispatches.Pairwise fun d later =>
          d.attempt.request = r.id → later.attempt.request = r.id → d.failed = true) ∧
      ∀ d ∈ (reached H moves).dispatches, d.failed = true →
        ∀ run ∈ (reached H moves).graphRuns, run.source ≠ some d.attempt := by
  obtain ⟨h, hlater⟩ := reached_inv H moves more
  obtain ⟨h', -⟩ := reached_inv H (moves ++ more) []
  refine ⟨?_, ?_, ?_, ?_, ?_, ?_, ?_⟩
  · intro run hrun t ht
    obtain ⟨-, hash, -, hid⟩ := h.sourced run hrun t ht
    exact ⟨hash, hid⟩
  · intro run hrun run' hrun' t t' ht ht' hsame
    obtain ⟨kept, hkept, hid, hsource⟩ := hlater.runs run hrun
    rw [← hid, h'.one_run hkept hrun' (hsource.trans ht) ht' hsame]
  · exact fun run hrun run' hrun' t t' ht ht' hsame => h.one_run hrun hrun' ht ht' hsame
  · exact fun b hb hstatus => h.binding_run hb hstatus
  · intro r hr id hid
    obtain ⟨b, hb, hsource, hstatus, hgraph⟩ :=
      h.named r.id r (SchedulerStore.request?_of_mem h.store.ids hr) id hid
    exact ⟨b, hb, hsource, hstatus, hgraph⟩
  · intro r hr hkind
    refine h.order.imp ?_
    intro d later hfailed hd hlast
    apply hfailed (hd.trans hlast.symm)
    exact ⟨r, by rw [hd]; exact SchedulerStore.request?_of_mem h.store.ids hr, hkind⟩
  · intro d hd hfailed run hrun hsource
    exact h.failed d hd hfailed ⟨run, hrun, hsource⟩

end Operant.Dispatch
