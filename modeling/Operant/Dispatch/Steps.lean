import Operant.Dispatch.Invariant

/-! One rule for each call. -/
namespace Operant.Dispatch
open Operant.Tables Operant.Calls Operant.Scheduler
open Operant.Graph (GraphRunStatus WorkflowDefinitionStatus)

section Rules
variable {H : Hashes} {k : Option AttemptId} {w : World} {X : Option AttemptId → Raised → World → Prop}

theorem exec_faulty {c : Call} (hc : c.isChange = false) {w : World} {typeName : String}
    (h : w.outside.fault = some typeName) : w.exec H c = (.error (.other typeName), w) := by
  cases c with
  | change => exact nomatch hc
  | _ =>
    unfold World.exec
    rw [h]

theorem exec_answered {c : Call} (hc : c.isChange = false) {w : World}
    (h : w.outside.fault = none) : w.exec H c = w.answer H c := by
  cases c with
  | change => exact nomatch hc
  | _ =>
    unfold World.exec
    rw [h]

/-- A call that is answered, or at fault. -/
theorem ask_holds {c : Call} (hc : c.isChange = false)
    {Q : Option AttemptId → Reply c → World → Prop}
    (h : ∀ w', Rely k w w' → Inv H w' → ∃ k', (rules H).Step k w' (w'.answer H c).2 k' ∧
      match (w'.answer H c).1 with
      | .ok a => Q k' a (w'.answer H c).2
      | .error e => X k' e (w'.answer H c).2)
    (hfault : ∀ w' typeName, Rely k w w' → X k (.other typeName) w') :
    (ask c).HoldsAs (rules H) k Q X w := by
  apply Prog.holdsAs_call
  intro w' hr hi _
  show ∃ k', (rules H).Step k w' (w'.exec H c).2 k' ∧
    (Prog.lift (w'.exec H c).1).HoldsAs (rules H) k' Q X (w'.exec H c).2
  cases hf : w'.outside.fault with
  | some typeName =>
    rw [exec_faulty hc hf]
    exact ⟨k, ⟨hi, fun _ _ => Rely.refl _ _, .inl rfl⟩, hfault w' typeName hr⟩
  | none =>
    rw [exec_answered hc hf]
    obtain ⟨k', hstep, hpost⟩ := h w' hr hi
    refine ⟨k', hstep, Prog.holdsAs_lift ?_ ?_⟩
    · intro a ha
      rw [ha] at hpost
      exact hpost
    · intro e he
      rw [he] at hpost
      exact hpost

/-- A call that reads. -/
theorem ask_read {c : Call} (hc : c.isChange = false) {Q : Option AttemptId → Reply c → World → Prop}
    (hread : ∀ w' : World, (w'.answer H c).2 = w')
    (hok : ∀ (w' : World) a, Rely k w w' → Inv H w' → (w'.answer H c).1 = .ok a → Q k a w')
    (herror : ∀ (w' : World) e, Rely k w w' → (w'.answer H c).1 = .error e → X k e w')
    (hfault : ∀ w' typeName, Rely k w w' → X k (.other typeName) w') :
    (ask c).HoldsAs (rules H) k Q X w := by
  refine ask_holds hc (fun w' hr hi => ⟨k, ?_, ?_⟩) hfault
  · rw [hread w']
    exact ⟨hi, fun _ _ => Rely.refl _ _, .inl rfl⟩
  · rw [hread w']
    cases ha : (w'.answer H c).1 with
    | ok a => exact hok w' a hr hi ha
    | error e => exact herror w' e hr ha

/-- A transaction is an operation of the store, or rolled back. -/
theorem transact_cases {α : Type} (w : World) {f : SchedulerStore → Checked (α × SchedulerStore)}
    (op : StoreOp) (hop : op.exec w.store = commits (f w.store)) :
    (∃ a, f w.store = .ok (a, op.apply w.store) ∧
        w.transact f = (.ok a, { w with store := op.apply w.store })) ∨
      ∃ e, w.transact f = (.error e, w) := by
  unfold World.transact StoreOp.apply
  rw [hop]
  cases f w.store with
  | error e => exact .inr ⟨raisedBy e, rfl⟩
  | ok pair =>
    obtain ⟨a, s⟩ := pair
    exact .inl ⟨a, rfl, rfl⟩

/-- A call that is such a transaction. -/
theorem ask_transact {c : Call} (hc : c.isChange = false)
    {Q : Option AttemptId → Reply c → World → Prop} (op : World → StoreOp)
    {f : World → SchedulerStore → Checked (Reply c × SchedulerStore)}
    (hanswer : ∀ w' : World, w'.answer H c = w'.transact (f w'))
    (hop : ∀ w', (op w').exec w'.store = commits (f w' w'.store))
    (hbinds : ∀ w' lease id, Rely k w w' → (op w').binds = some (lease, id) →
      w'.bound lease.runRequestId id)
    (hfail : ∀ w', (op w').isKnownFailure = false)
    (hok : ∀ (w' : World) a s, Rely k w w' → f w' w'.store = .ok (a, s) → Inv H w' →
      Inv H { w' with store := s } → Rely k w { w' with store := s } → Q k a { w' with store := s })
    (herror : ∀ w' e, Rely k w w' → X k e w') : (ask c).HoldsAs (rules H) k Q X w := by
  refine ask_holds hc (fun w' hr hi => ⟨k, ?_⟩) fun w' _ hr => herror w' _ hr
  rw [hanswer w']
  cases transact_cases w' (op w') (hop w') with
  | inl h =>
    obtain ⟨a, hf, heq⟩ := h
    rw [heq]
    have hstep := step_apply hi k (op w') (fun lease id => hbinds w' lease id hr) (hfail w')
    have hrely := hr.trans (rely_apply hi.store (op w') k)
    exact ⟨hstep, hok w' a _ hr hf hi hstep.inv hrely⟩
  | inr h =>
    obtain ⟨e, heq⟩ := h
    rw [heq]
    exact ⟨⟨hi, fun _ _ => Rely.refl _ _, .inl rfl⟩, herror w' e hr⟩

/-! ### Jobs that are under way -/

theorem reply_request {s s' : SchedulerStore} {id : String} {r : RunRequest}
    (h : s.reply id = .ok (r, s')) : s'.request? id = some r := by
  have hsame := SchedulerStore.reply_store h
  unfold SchedulerStore.reply at h
  split at h
  · exact nomatch h
  · rename_i row hrow
    rw [hsame, hrow, (Prod.mk.inj (Except.ok.inj h)).1]

/-- The request of a job that is renewed is in the table. -/
theorem renewDispatchedJobs_reply {s s' : SchedulerStore} {writerLease : SchedulerLease}
    {owner : String} {ttlSeconds : ℤ} {token : String → String} {now : Instant}
    {jobs : List (RunRequest × JobLease)}
    (h : SchedulerStore.renewDispatchedJobs writerLease owner ttlSeconds token now s = .ok (jobs, s'))
    {job : RunRequest × JobLease} (hjob : job ∈ jobs) :
    s'.request? job.2.runRequestId = some job.1 := by
  obtain ⟨_, -, h⟩ := ok_of_bind h
  obtain ⟨_, -, h⟩ := ok_of_bind h
  obtain ⟨_, -, h⟩ := ok_of_bind h
  obtain ⟨rfl, rfl⟩ := Prod.mk.inj (Except.ok.inj h)
  obtain ⟨row, -, hrow⟩ := List.mem_filterMap.mp ((List.mem_insertionSort _).mp hjob)
  obtain ⟨request, hrequest, rfl⟩ := Option.map_eq_some_iff.mp hrow
  exact hrequest

theorem ask_renewDispatchedJobs {writerLease : SchedulerLease} {owner : String} {ttlSeconds : ℤ}
    {Q : Option AttemptId → List (RunRequest × JobLease) → World → Prop}
    (hok : ∀ w' jobs, Rely k w w' →
      (∀ job ∈ jobs, ∀ run, job.1.workflowRunId = some run → w'.bound job.2.runRequestId run) →
      Q k jobs w')
    (herror : ∀ w' e, Rely k w w' → X k e w') :
    (ask (.renewDispatchedJobs writerLease owner ttlSeconds)).HoldsAs (rules H) k Q X w := by
  refine ask_transact (by rfl)
    (fun w' => .renewDispatchedJobs writerLease owner ttlSeconds w'.outside.tokens w'.outside.clock)
    (fun _ => rfl) (fun _ => rfl)
    ?_ (fun _ => rfl) ?_ herror
  · intro _ _ _ _ h
    exact nomatch h
  · intro w' jobs s _ hf _ hi hr
    refine hok _ jobs hr fun job hjob run hrun => ?_
    exact hi.named job.2.runRequestId job.1 (renewDispatchedJobs_reply hf hjob) run hrun

theorem ask_cancelClaimedJob {lease : JobLease} {Q : Option AttemptId → RunRequest → World → Prop}
    (hok : ∀ w' r, Rely k w w' → Q k r w') (herror : ∀ w' e, Rely k w w' → X k e w') :
    (ask (.cancelClaimedJob lease)).HoldsAs (rules H) k Q X w := by
  refine ask_transact (by rfl) (fun w' => .cancelClaimedJob lease w'.outside.clock)
    (fun _ => rfl) (fun _ => rfl)
    ?_ (fun _ => rfl) ?_ herror
  · intro _ _ _ _ h
    exact nomatch h
  · exact fun w' r s _ _ _ _ hr => hok _ r hr

theorem ask_finishDispatchedJob {lease : JobLease} {status : RunRequestStatus} {errorCode : String}
    {Q : Option AttemptId → RunRequest → World → Prop} (hok : ∀ w' r, Rely k w w' → Q k r w')
    (herror : ∀ w' e, Rely k w w' → X k e w') :
    (ask (.finishDispatchedJob lease status errorCode)).HoldsAs (rules H) k Q X w := by
  refine ask_transact (by rfl)
    (fun w' => .finishDispatchedJob lease status errorCode w'.outside.clock) (fun _ => rfl) (fun _ => rfl)
    ?_ (fun _ => rfl) ?_ herror
  · intro _ _ _ _ h
    exact nomatch h
  · exact fun w' r s _ _ _ _ hr => hok _ r hr

/-- A job is completed with the run its request is bound to. -/
theorem ask_completeJob {lease : JobLease} {workflowRunId : String}
    {Q : Option AttemptId → RunRequest → World → Prop} (hbound : w.bound lease.runRequestId workflowRunId)
    (hok : ∀ w' r, Rely k w w' → Q k r w') (herror : ∀ w' e, Rely k w w' → X k e w') :
    (ask (.completeJob lease workflowRunId)).HoldsAs (rules H) k Q X w := by
  refine ask_transact (by rfl)
    (fun w' => .completeJob lease workflowRunId w'.outside.clock) (fun _ => rfl) (fun _ => rfl)
    ?_ (fun _ => rfl) ?_ herror
  · intro w' _ _ hr h
    obtain ⟨rfl, rfl⟩ := Prod.mk.inj (Option.some.inj h)
    exact hr.bound hbound
  · exact fun w' r s _ _ _ _ hr => hok _ r hr

theorem ask_markWorkflowDispatched {lease : JobLease} {workflowRunId : String}
    {Q : Option AttemptId → RunRequest → World → Prop} (hbound : w.bound lease.runRequestId workflowRunId)
    (hok : ∀ w' r, Rely k w w' →
      (∀ run, r.workflowRunId = some run → w'.bound lease.runRequestId run) → Q k r w')
    (herror : ∀ w' e, Rely k w w' → X k e w') :
    (ask (.markWorkflowDispatched lease workflowRunId)).HoldsAs (rules H) k Q X w := by
  refine ask_transact (by rfl)
    (fun w' => .markWorkflowDispatched lease workflowRunId w'.outside.clock) (fun _ => rfl) (fun _ => rfl)
    ?_ (fun _ => rfl) ?_ herror
  · intro w' _ _ hr h
    obtain ⟨rfl, rfl⟩ := Prod.mk.inj (Option.some.inj h)
    exact hr.bound hbound
  · intro w' r s _ hf _ hi hr
    refine hok _ r hr fun run hrun => ?_
    refine hi.named lease.runRequestId r ?_ run hrun
    unfold SchedulerStore.markWorkflowDispatched at hf
    obtain ⟨-, hf⟩ := ok_of_guard hf
    obtain ⟨_, -, hf⟩ := ok_of_bind hf
    obtain ⟨-, hf⟩ := ok_of_guard hf
    obtain ⟨-, hf⟩ := ok_of_guard hf
    exact reply_request hf

/-! ### Attempts -/

theorem not_recorded (hi : Inv H w) {t : AttemptId} (ht : ¬w.begun t) : w.record? t = none := by
  apply List.find?_eq_none.mpr
  intro d hd hsame
  obtain rfl := of_decide_eq_true hsame
  exact ht (hi.marked d hd).begun

theorem not_made (hi : Inv H w) {t : AttemptId} (ht : ¬w.begun t) : ¬w.made t := by
  intro hmade
  obtain ⟨run, hrun, hsource⟩ := hmade
  exact ht (hi.sourced run hrun t hsource).1

/-- Whoever claims a job owns its attempt, which nothing has been done in the name of. -/
theorem ask_claimDue {writerLease : SchedulerLease} {owner : String} {ttlSeconds : ℤ}
    {Q : Option AttemptId → Option (RunRequest × JobLease) → World → Prop}
    (hnone : ∀ w', Q k none w')
    (hsome : ∀ w' request lease, lease.runRequestId = request.id →
      w'.record? (attemptOf lease) = none → ¬w'.made (attemptOf lease) →
      Q (some (attemptOf lease)) (some (request, lease)) w')
    (herror : ∀ w' e, X k e w') :
    (ask (.claimDue writerLease owner ttlSeconds)).HoldsAs (rules H) k Q X w := by
  refine ask_holds (by rfl) (fun w' hr hi => ?_) fun w' _ _ => herror w' _
  have hanswer : w'.answer H (.claimDue writerLease owner ttlSeconds) =
      w'.transact (SchedulerStore.claimDue writerLease owner ttlSeconds w'.outside.token
        w'.outside.clock) := rfl
  rw [hanswer]
  cases transact_cases w' (.claimDue writerLease owner ttlSeconds w'.outside.token w'.outside.clock)
    rfl with
  | inr h =>
    obtain ⟨e, heq⟩ := h
    rw [heq]
    exact ⟨k, ⟨hi, fun _ _ => Rely.refl _ _, .inl rfl⟩, herror w' e⟩
  | inl h =>
    obtain ⟨claimed, hf, heq⟩ := h
    rw [heq]
    have hstep := step_apply hi k
      (.claimDue writerLease owner ttlSeconds w'.outside.token w'.outside.clock)
      (fun _ _ h => nomatch h) rfl
    cases claimed with
    | none => exact ⟨k, hstep, hnone _⟩
    | some claimed =>
      obtain ⟨request, lease⟩ := claimed
      obtain ⟨hid, hnot, hbegun⟩ := SchedulerStore.claimDue_begun hi.store hf
      refine ⟨some (attemptOf lease), ⟨hstep.inv, hstep.others, .inr (.inr ?_)⟩, ?_⟩
      · exact ⟨attemptOf lease, rfl, hnot, hbegun⟩
      · exact hsome _ request lease hid (not_recorded hi hnot) (not_made hi hnot)

/-- The owner of an attempt marks it: its dispatch begins. -/
theorem ask_markSideEffectStarted {lease : JobLease} {Q : Option AttemptId → Unit → World → Prop}
    (hk : k = some (attemptOf lease)) (hnone : w.record? (attemptOf lease) = none)
    (hmade : ¬w.made (attemptOf lease))
    (hok : ∀ w', w'.record? (attemptOf lease) = some ⟨attemptOf lease, false⟩ →
      ¬w'.made (attemptOf lease) → Q k () w')
    (herror : ∀ w' e, ¬w'.made (attemptOf lease) → X k e w') :
    (ask (.markSideEffectStarted lease)).HoldsAs (rules H) k Q X w := by
  refine ask_holds (by rfl) (fun w' hr hi => ⟨k, ?_⟩)
    fun w' _ hr => herror w' _ fun hmade' => hmade (hr.made _ hk hmade')
  have hnone' : w'.record? (attemptOf lease) = none := (hr.record _ hk).trans hnone
  have hmade' : ¬w'.made (attemptOf lease) := fun h => hmade (hr.made _ hk h)
  have hanswer : w'.answer H (.markSideEffectStarted lease) = w'.markSideEffectStarted lease := rfl
  rw [hanswer]
  unfold World.markSideEffectStarted
  cases hf : SchedulerStore.markSideEffectStarted lease w'.outside.clock w'.store with
  | error e => exact ⟨⟨hi, fun _ _ => Rely.refl _ _, .inl rfl⟩, herror w' _ hmade'⟩
  | ok pair =>
    obtain ⟨_, s⟩ := pair
    have hs : s = (StoreOp.markSideEffectStarted lease w'.outside.clock).apply w'.store := by
      simp only [StoreOp.apply, StoreOp.exec, hf]
      rfl
    have hstep := step_apply hi k (.markSideEffectStarted lease w'.outside.clock)
      (fun _ _ h => nomatch h) rfl
    rw [← hs] at hstep
    refine ⟨⟨hstep.inv.begin hnone' (SchedulerStore.markSideEffectStarted_committed hi.store hf),
      fun other hother => ?_, .inl rfl⟩, hok _ ?_ hmade'⟩
    · apply (hstep.others other hother).trans
      apply rely_begin
      intro hsame
      exact (hother _ hsame).1 hk
    · show (w'.dispatches ++ [_]).find? _ = _
      rw [List.find?_append, show w'.dispatches.find? _ = none from hnone']
      simp

/-- The owner of an attempt ends its job; it does not say that a dispatch has failed which
has created a run. -/
theorem ask_failJob {lease : JobLease} {failure : SchedulerStore.Failure}
    {Q : Option AttemptId → RunRequest → World → Prop} (hk : k = some (attemptOf lease))
    (hmade : failure.outcomeUnknown = false → ¬w.made (attemptOf lease))
    (hok : ∀ w' r, Q k r w') (herror : ∀ w' e, X k e w') :
    (ask (.failJob lease failure)).HoldsAs (rules H) k Q X w := by
  refine ask_holds (by rfl) (fun w' hr hi => ⟨k, ?_⟩) fun w' _ _ => herror w' _
  have hanswer : w'.answer H (.failJob lease failure) = w'.failJob lease failure := rfl
  rw [hanswer]
  unfold World.failJob
  cases hf : SchedulerStore.failJob lease failure w'.outside.clock w'.store with
  | error e => exact ⟨⟨hi, fun _ _ => Rely.refl _ _, .inl rfl⟩, herror w' _⟩
  | ok pair =>
    obtain ⟨r, s⟩ := pair
    have hs : s = (StoreOp.failJob lease failure w'.outside.clock).apply w'.store := by
      simp only [StoreOp.apply, StoreOp.exec, hf]
      rfl
    -- The record first, and then the store.
    have hfail : Inv H { w' with
        dispatches := update w'.dispatches (fails (attemptOf lease) failure.outcomeUnknown)
          DispatchRecord.fail } :=
      hi.fail fun hknown hmade' => hmade hknown (hr.made _ hk hmade')
    have happly := hfail.apply (.failJob lease failure w'.outside.clock) ?_ ?_ ?_
    · rw [hs]
      refine ⟨⟨happly, fun other hother => ?_, .inl rfl⟩, hok _ r⟩
      have hne : other ≠ some (attemptOf lease) := fun hsame => (hother _ hsame).1 hk
      exact (rely_fail hne).trans (rely_apply hfail.store _ other)
    · intro id run hcause
      cases hcause with
      | dispatched hop => cases hop
    · intro id ending run hend hrun
      obtain ⟨_, hop, -⟩ := SchedulerStore.ends_names hend hrun
      cases hop
    · intro d hd hfailed hnon ending hend
      have hcommitted := hfail.unknown d hd hfailed hnon
      cases hunknown : failure.outcomeUnknown with
      | true => exact SchedulerStore.ends_terminal hi.store hend hcommitted hnon (by simp [StoreOp.isKnownFailure, hunknown])
      | false =>
        -- The dispatch that has failed is the only one that may have been under way.
        generalize hrequest : d.attempt.request = request at hend
        cases hend with
        | failed hheld =>
          rw [hrequest] at hcommitted
          have hnumber := SchedulerStore.Sound.held_committed hi.store hheld hcommitted
          have hsame : d.attempt = attemptOf lease := by
            calc d.attempt = ⟨d.attempt.request, d.attempt.attempt⟩ := rfl
              _ = attemptOf lease := by rw [hrequest, ← hnumber]; rfl
          cases mem_update.mp hd with
          | inl hnew =>
            obtain ⟨old, -, -, rfl⟩ := hnew
            cases hfailed
          | inr hold =>
            have hnot := hold.2
            simp [fails, hsame, hunknown] at hnot

/-! ### The registry -/

theorem raisedBy_unknown (e : SchedulerError) : (raisedBy e).isKnown = false := by
  cases e <;> rfl

/-- A call on the registry that keeps the invariant. -/
theorem ask_register {c : Call} (hc : c.isChange = false)
    {Q : Option AttemptId → Reply c → World → Prop}
    {f : List DispatchBinding → Checked (Reply c × List DispatchBinding)}
    (hanswer : ∀ w' : World, w'.answer H c = w'.register f)
    (hok : ∀ (w' : World) a rows, Rely k w w' → Inv H w' → f w'.bindings = .ok (a, rows) →
      (∀ other, Rely other w' { w' with bindings := rows }) ∧ Inv H { w' with bindings := rows } ∧
        Q k a { w' with bindings := rows })
    (herror : ∀ w' e, Rely k w w' → e.isKnown = false → X k e w') :
    (ask c).HoldsAs (rules H) k Q X w := by
  refine ask_holds hc (fun w' hr hi => ⟨k, ?_⟩) fun w' _ hr => herror w' _ hr rfl
  rw [hanswer w']
  unfold World.register
  cases hf : f w'.bindings with
  | error e => exact ⟨⟨hi, fun _ _ => Rely.refl _ _, .inl rfl⟩, herror w' _ hr (raisedBy_unknown e)⟩
  | ok pair =>
    obtain ⟨a, rows⟩ := pair
    obtain ⟨hrely, hinv, hpost⟩ := hok w' a rows hr hi hf
    exact ⟨⟨hinv, fun other _ => hrely other, .inl rfl⟩, hpost⟩

/-- What is reserved is in the registry, under this request and this hash. -/
theorem reserve_ok {source key hash : String} {rows rows' : List DispatchBinding}
    {binding : DispatchBinding} {created : Bool}
    (h : reserve source key hash rows = .ok ((binding, created), rows')) :
    binding.sourceRunRequestId = source ∧ binding.actionHash = hash ∧
      ((rows' = rows ∧ binding ∈ rows) ∨
        (rows' = rows ++ [binding] ∧ binding.status = .pending ∧
          ∀ row ∈ rows, row.sourceRunRequestId ≠ source)) := by
  unfold reserve at h
  split at h
  · rename_i row hfound
    split at h
    · exact nomatch h
    · rename_i hsame
      simp only [not_or, not_not] at hsame
      obtain ⟨hbinding, rfl⟩ := Prod.mk.inj (Except.ok.inj h)
      obtain ⟨rfl, -⟩ := Prod.mk.inj hbinding
      exact ⟨hsame.1, hsame.2.2, .inl ⟨rfl, List.mem_of_find?_eq_some hfound⟩⟩
  · rename_i hnone
    obtain ⟨hbinding, rfl⟩ := Prod.mk.inj (Except.ok.inj h)
    obtain ⟨rfl, -⟩ := Prod.mk.inj hbinding
    refine ⟨rfl, rfl, .inr ⟨rfl, rfl, fun row hrow hsame => ?_⟩⟩
    have := List.find?_eq_none.mp hnone row hrow
    simp [hsame] at this

theorem ask_reserve {source key hash : String} {Q : Option AttemptId → DispatchBinding × Bool → World → Prop}
    (hok : ∀ w' binding created, Rely k w w' → Inv H w' → binding ∈ w'.bindings →
      binding.sourceRunRequestId = source → binding.actionHash = hash → Q k (binding, created) w')
    (herror : ∀ w' e, Rely k w w' → e.isKnown = false → X k e w') :
    (ask (.reserve source key hash)).HoldsAs (rules H) k Q X w := by
  refine ask_register (by rfl) (fun _ => rfl) ?_ herror
  intro w' reply rows hr hi hf
  obtain ⟨binding, created⟩ := reply
  obtain ⟨hsource, hhash, hrows⟩ := reserve_ok hf
  cases hrows with
  | inl hsame =>
    obtain ⟨rfl, hmem⟩ := hsame
    exact ⟨fun _ => Rely.refl _ _, hi, hok w' binding created hr hi hmem hsource hhash⟩
  | inr hnew =>
    obtain ⟨rfl, hpending, hfresh⟩ := hnew
    have hrely : ∀ other, Rely other w' { w' with bindings := w'.bindings ++ [binding] } :=
      rely_bindings fun b hb => ⟨b, List.mem_append_left _ hb, rfl, rfl, fun _ => rfl⟩
    have hinv : Inv H { w' with bindings := w'.bindings ++ [binding] } := by
      refine hi.bindings ?_ (hrely none) ?_
      · rw [List.map_append, List.nodup_append]
        refine ⟨hi.sources, List.nodup_singleton _, ?_⟩
        intro a ha b hb
        obtain ⟨row, hrow, rfl⟩ := List.mem_map.mp ha
        rw [List.mem_singleton.mp hb, hsource]
        exact hfresh row hrow
      · intro b hb hstatus
        cases List.mem_append.mp hb with
        | inl hold => exact .inl hold
        | inr hlast =>
          rw [List.mem_singleton.mp hlast, hpending] at hstatus
          exact nomatch hstatus
    refine ⟨hrely, hinv, hok _ binding created (hr.trans (hrely k)) hinv ?_ hsource hhash⟩
    exact List.mem_append_right _ (List.mem_singleton_self binding)

/-- The row that is waiting for this completion. -/
def awaits (binding row : DispatchBinding) : Bool :=
  row.sourceRunRequestId = binding.sourceRunRequestId && row.idempotencyKey = binding.idempotencyKey &&
    row.actionHash = binding.actionHash && row.status = .pending

def DispatchBinding.completeWith (id : String) (row : DispatchBinding) : DispatchBinding :=
  { row with status := .completed, graphRunId := id }

/-- What is completed is completed with this run. -/
theorem complete_ok {binding completed : DispatchBinding} {id : String} {rows rows' : List DispatchBinding}
    (hsources : (rows.map DispatchBinding.sourceRunRequestId).Nodup)
    (h : complete binding id rows = .ok (completed, rows')) :
    rows' = update rows (awaits binding) (DispatchBinding.completeWith id) ∧ completed ∈ rows' ∧
      completed.sourceRunRequestId = binding.sourceRunRequestId ∧ completed.status = .completed ∧
      completed.graphRunId = some id := by
  have hsources' : ((update rows (awaits binding) (DispatchBinding.completeWith id)).map
      DispatchBinding.sourceRunRequestId).Nodup := by
    rwa [map_update (f := DispatchBinding.completeWith id) DispatchBinding.sourceRunRequestId
      fun _ _ _ => rfl]
  unfold complete at h
  dsimp only at h
  split at h
  · exact nomatch h
  · split at h
    · exact nomatch h
    · rename_i found hfound
      split at h
      · exact nomatch h
      · rename_i hguard
        obtain ⟨rfl, rfl⟩ := Prod.mk.inj (Except.ok.inj h)
        have hmem : found ∈ update rows (awaits binding) (DispatchBinding.completeWith id) :=
          List.mem_of_find?_eq_some hfound
        have hsource : found.sourceRunRequestId = binding.sourceRunRequestId := by
          simpa using List.find?_some hfound
        refine ⟨rfl, hmem, hsource, ?_⟩
        by_cases hchanged : rows.any (awaits binding) = true
        · obtain ⟨row, hrow, hawaits⟩ := List.any_eq_true.mp hchanged
          have hnew : row.completeWith id ∈ update rows (awaits binding) (DispatchBinding.completeWith id) :=
            mem_update.mpr (.inl ⟨row, hrow, hawaits, rfl⟩)
          have hsame : found = row.completeWith id := by
            apply eq_of_key hsources' hmem hnew
            unfold awaits at hawaits
            simp only [Bool.and_eq_true, decide_eq_true_eq] at hawaits
            exact hsource.trans hawaits.1.1.1.symm
          rw [hsame]
          exact ⟨rfl, rfl⟩
        · have hnone : rows.any (awaits binding) = false := by simpa using hchanged
          have hguard : ¬(rows.any (awaits binding) = false ∧
              (found.status ≠ .completed ∨ found.graphRunId ≠ some id)) := hguard
          simp only [hnone, true_and, not_or, not_not] at hguard
          exact hguard

/-- A binding is completed with its run. -/
theorem ask_complete {binding : DispatchBinding} {id : String}
    {Q : Option AttemptId → DispatchBinding → World → Prop}
    (hid : id = graphRunId H binding.sourceRunRequestId binding.actionHash) (hrun : w.hasRun id)
    (hok : ∀ w' completed, Rely k w w' → completed.graphRunId = some id →
      w'.bound binding.sourceRunRequestId id → Q k completed w')
    (herror : ∀ w' e, Rely k w w' → e.isKnown = false → X k e w') :
    (ask (.complete binding id)).HoldsAs (rules H) k Q X w := by
  refine ask_register (by rfl) (fun _ => rfl) ?_ herror
  intro w' completed rows hr hi hf
  obtain ⟨rfl, hmem, hsource, hstatus, hgraph⟩ := complete_ok hi.sources hf
  have hrely : ∀ other, Rely other w' { w' with
      bindings := update w'.bindings (awaits binding) (DispatchBinding.completeWith id) } := by
    apply rely_bindings
    intro b hb
    by_cases hawaits : awaits binding b = true
    · refine ⟨b.completeWith id, mem_update.mpr (.inl ⟨b, hb, hawaits, rfl⟩), rfl, rfl, fun hdone => ?_⟩
      simp [awaits, hdone] at hawaits
    · exact ⟨b, mem_update.mpr (.inr ⟨hb, by simpa using hawaits⟩), rfl, rfl, fun _ => rfl⟩
  have hinv : Inv H { w' with
      bindings := update w'.bindings (awaits binding) (DispatchBinding.completeWith id) } := by
    refine hi.bindings ?_ (hrely none) ?_
    · rw [map_update (f := DispatchBinding.completeWith id) DispatchBinding.sourceRunRequestId
        fun _ _ _ => rfl]
      exact hi.sources
    · intro b hb hdone
      cases mem_update.mp hb with
      | inl hnew =>
        obtain ⟨row, -, hawaits, rfl⟩ := hnew
        unfold awaits at hawaits
        simp only [Bool.and_eq_true, decide_eq_true_eq] at hawaits
        have hrow : id = graphRunId H row.sourceRunRequestId row.actionHash := by
          rw [hawaits.1.1.1, hawaits.1.2, hid]
        right
        show some id = some (graphRunId H row.sourceRunRequestId row.actionHash) ∧
          w'.hasRun (graphRunId H row.sourceRunRequestId row.actionHash)
        rw [← hrow]
        exact ⟨rfl, hr.hasRun hrun⟩
      | inr hold => exact .inl hold.1
  have hbound : World.bound { w' with
      bindings := update w'.bindings (awaits binding) (DispatchBinding.completeWith id) }
      binding.sourceRunRequestId id := ⟨completed, hmem, hsource, hstatus, hgraph⟩
  exact ⟨hrely, hinv, hok _ completed (hr.trans (hrely k)) hgraph hbound⟩

/-! ### Graph runs -/

theorem graphRun?_spec {id : String} {run : GraphRun} (h : w.graphRun? id = some run) :
    run ∈ w.graphRuns ∧ run.id = id := by
  refine ⟨List.mem_of_find?_eq_some h, ?_⟩
  have := List.find?_some h
  simpa using this

/-- A new run, of an attempt whose dispatch is under way, or of nobody. -/
theorem Inv.addRun (h : Inv H w) {run : GraphRun} (hnew : w.graphRun? run.id = none)
    (hsource : ∀ t, run.source = some t → w.record? t = some ⟨t, false⟩ ∧
      ∃ hash, w.reserved t.request hash ∧ run.id = graphRunId H t.request hash) :
    Inv H { w with graphRuns := w.graphRuns ++ [run] } := by
  refine h.runs ?_ ?_ ?_
  · rw [List.map_append, List.nodup_append]
    refine ⟨h.runIds, List.nodup_singleton _, ?_⟩
    intro a ha b hb
    obtain ⟨old, hold, rfl⟩ := List.mem_map.mp ha
    rw [List.mem_singleton.mp hb]
    simpa using List.find?_eq_none.mp hnew old hold
  · exact fun old hold => ⟨old, List.mem_append_left _ hold, rfl, rfl⟩
  · intro r hr
    cases List.mem_append.mp hr with
    | inl hold => exact .inl ⟨r, hold, rfl, rfl⟩
    | inr hlast =>
      rw [List.mem_singleton.mp hlast]
      refine .inr fun t ht => ?_
      obtain ⟨hrecord, hhash⟩ := hsource t ht
      have hmem := List.mem_of_find?_eq_some hrecord
      refine ⟨(h.marked _ hmem).begun, hhash, fun d hd hattempt => ?_⟩
      rw [eq_of_key h.records hd hmem hattempt]

theorem rely_addRun {run : GraphRun} {other : Option AttemptId}
    (hother : run.source = none ∨ run.source ≠ other) :
    Rely other w { w with graphRuns := w.graphRuns ++ [run] } := by
  apply rely_runs
  · exact fun old hold => ⟨old, List.mem_append_left _ hold, rfl, rfl⟩
  · intro r hr
    cases List.mem_append.mp hr with
    | inl hold => exact .inl ⟨r, hold, rfl⟩
    | inr hlast =>
      rw [List.mem_singleton.mp hlast]
      exact .inr hother

def GraphRun.withStatus (status : GraphRunStatus) (run : GraphRun) : GraphRun :=
  { run with status := status }

/-- A status is written. -/
theorem Inv.setStatus (h : Inv H w) (p : GraphRun → Bool) (status : GraphRunStatus) :
    Inv H { w with graphRuns := update w.graphRuns p (GraphRun.withStatus status) } ∧
      ∀ other, Rely other w { w with graphRuns := update w.graphRuns p (GraphRun.withStatus status) } := by
  have hkeep : ∀ old ∈ w.graphRuns, ∃ run ∈ update w.graphRuns p (GraphRun.withStatus status),
      run.id = old.id ∧ run.source = old.source := by
    intro old hold
    by_cases hp : p old = true
    · exact ⟨old.withStatus status, mem_update.mpr (.inl ⟨old, hold, hp, rfl⟩), rfl, rfl⟩
    · exact ⟨old, mem_update.mpr (.inr ⟨hold, by simpa using hp⟩), rfl, rfl⟩
  have hback : ∀ run ∈ update w.graphRuns p (GraphRun.withStatus status),
      ∃ old ∈ w.graphRuns, old.id = run.id ∧ old.source = run.source := by
    intro run hrun
    cases mem_update.mp hrun with
    | inl hnew =>
      obtain ⟨old, hold, -, rfl⟩ := hnew
      exact ⟨old, hold, rfl, rfl⟩
    | inr hold => exact ⟨run, hold.1, rfl, rfl⟩
  constructor
  · refine h.runs ?_ hkeep fun run hrun => .inl (hback run hrun)
    rw [map_update (f := GraphRun.withStatus status) GraphRun.id fun _ _ _ => rfl]
    exact h.runIds
  · intro other
    refine rely_runs hkeep fun run hrun => ?_
    obtain ⟨old, hold, -, hsource⟩ := hback run hrun
    exact .inl ⟨old, hold, hsource⟩

theorem ask_getRun {id : String} {Q : Option AttemptId → GraphRun → World → Prop}
    (hok : ∀ w' run, Rely k w w' → w'.hasRun id → run.id = id → Q k run w')
    (herror : ∀ w' e, Rely k w w' → e.isKnown = false → X k e w') :
    (ask (.getRun id)).HoldsAs (rules H) k Q X w := by
  refine ask_read (by rfl) (fun _ => rfl) ?_ ?_ fun w' _ hr => herror w' _ hr rfl
  · intro w' run hr _ ha
    have ha : World.found (w'.graphRun? id) = .ok run := ha
    cases hfound : w'.graphRun? id with
    | none =>
      rw [hfound] at ha
      exact nomatch ha
    | some found =>
      rw [hfound] at ha
      obtain rfl := Except.ok.inj ha
      obtain ⟨hmem, hid⟩ := graphRun?_spec hfound
      exact hok w' found hr ⟨found, hmem, hid⟩ hid
  · intro w' e hr ha
    refine herror w' e hr ?_
    have ha : World.found (w'.graphRun? id) = .error e := ha
    cases hfound : w'.graphRun? id with
    | none =>
      rw [hfound] at ha
      obtain rfl := Except.error.inj ha
      rfl
    | some found =>
      rw [hfound] at ha
      exact nomatch ha

/-- The owner of an attempt creates the run that its request is bound to. -/
theorem ask_createRun {t : AttemptId} {action : WorkflowDispatch} {id hash : String}
    {Q : Option AttemptId → GraphRun → World → Prop} (hk : k = some t)
    (hrecord : w.record? t = some ⟨t, false⟩) (hreserved : w.reserved t.request hash)
    (hid : id = graphRunId H t.request hash)
    (hok : ∀ w' run, w'.hasRun id → run.id = id → Q k run w')
    (herror : ∀ w' e, Rely k w w' → e.isKnown = false → X k e w') :
    (ask (.createRun t action id)).HoldsAs (rules H) k Q X w := by
  refine ask_holds (by rfl) (fun w' hr hi => ⟨k, ?_⟩) fun w' _ hr => herror w' _ hr rfl
  have hanswer : w'.answer H (.createRun t action id) = w'.createRun t action id := rfl
  rw [hanswer]
  unfold World.createRun
  cases w'.outside.invalid action with
  | some typeName => exact ⟨⟨hi, fun _ _ => Rely.refl _ _, .inl rfl⟩, herror w' _ hr rfl⟩
  | none =>
    cases hfound : w'.graphRun? id with
    | some found => exact ⟨⟨hi, fun _ _ => Rely.refl _ _, .inl rfl⟩, herror w' _ hr rfl⟩
    | none =>
      have hrun : ∀ run : GraphRun, run.id = id → run.source = some t →
          (rules H).Step k w' { w' with graphRuns := w'.graphRuns ++ [run] } k := by
        intro run hrunid hsource
        refine ⟨hi.addRun (by rw [hrunid]; exact hfound) ?_, fun other hother => ?_, .inl rfl⟩
        · intro t' ht'
          obtain rfl := Option.some.inj (hsource.symm.trans ht')
          rw [hrunid]
          exact ⟨(hr.record _ hk).trans hrecord, hash, hr.reserved hreserved, hid⟩
        · apply rely_addRun
          right
          intro hsame
          exact (hother t (hsame.symm.trans hsource)).1 hk
      have hlast : ∀ run : GraphRun, run ∈ w'.graphRuns ++ [run] :=
        fun run => List.mem_append_right _ (List.mem_singleton_self run)
      exact ⟨hrun _ rfl rfl, hok _ _ ⟨_, hlast _, rfl⟩ rfl⟩

theorem ask_startRun {id : String} {Q : Option AttemptId → GraphRun → World → Prop}
    (hok : ∀ w' run, Rely k w w' → w'.hasRun id → run.id = id → Q k run w')
    (herror : ∀ w' e, Rely k w w' → e.isKnown = false → X k e w') :
    (ask (.startRun id)).HoldsAs (rules H) k Q X w := by
  refine ask_holds (by rfl) (fun w' hr hi => ⟨k, ?_⟩) fun w' _ hr => herror w' _ hr rfl
  have hanswer : w'.answer H (.startRun id) = w'.startRun id := rfl
  rw [hanswer]
  unfold World.startRun
  cases hfound : w'.graphRun? id with
  | none => exact ⟨⟨hi, fun _ _ => Rely.refl _ _, .inl rfl⟩, herror w' _ hr rfl⟩
  | some found =>
    dsimp only
    obtain ⟨hmem, hid⟩ := graphRun?_spec hfound
    split
    · exact ⟨⟨hi, fun _ _ => Rely.refl _ _, .inl rfl⟩, herror w' _ hr rfl⟩
    · obtain ⟨hinv, hrely⟩ := hi.setStatus (fun run => run.id = id) .running
      refine ⟨⟨hinv, fun other _ => hrely other, .inl rfl⟩, ?_⟩
      exact hok _ _ (hr.trans (hrely k)) ((hrely none).hasRun ⟨found, hmem, hid⟩) hid

/-! ### Others -/

/-- The operations of others bind no request, and end no job. -/
theorem client_harmless {op : StoreOp} (h : ofClient op = true) :
    op.binds = none ∧ op.isKnownFailure = false := by
  cases op <;> first | exact ⟨rfl, rfl⟩ | exact nomatch h

/-- Whatever others do is a step of nobody. -/
theorem change_step (h : Inv H w) (change : Change) : (rules H).Step none w (w.change change) none := by
  cases change with
  | outside f =>
    refine ⟨?_, fun other _ => ?_, .inl rfl⟩
    · exact ⟨h.store, h.sources, h.completed, h.runIds, h.sourced, h.named, h.records, h.marked,
        h.unknown, h.failed, h.order⟩
    · exact ⟨fun _ h => h, fun b hb => ⟨b, hb, rfl, rfl, fun _ => rfl⟩,
        fun run h => ⟨run, h, rfl, rfl⟩, fun _ _ h => h, fun _ _ => rfl⟩
  | store op hclient =>
    obtain ⟨hbinds, hknown⟩ := client_harmless hclient
    apply step_apply h none op _ hknown
    intro lease id hop
    rw [hbinds] at hop
    exact nomatch hop
  | graphRun id definitionId version input =>
    unfold World.change
    dsimp only
    split
    · exact ⟨h, fun _ _ => Rely.refl _ _, .inl rfl⟩
    · rename_i hnone
      have hnone : w.graphRun? id = none := by simpa using hnone
      have hinv : Inv H { w with graphRuns := w.graphRuns ++
          [{ id, workflowDefinitionId := definitionId, workflowDefinitionVersion := version, input }] } :=
        h.addRun hnone fun _ ht => nomatch ht
      exact ⟨hinv, fun other _ => rely_addRun (.inl rfl), .inl rfl⟩
  | graphStatus id status =>
    obtain ⟨hinv, hrely⟩ := h.setStatus (fun run => run.id = id) status
    exact ⟨hinv, fun other _ => hrely other, .inl rfl⟩

end Rules
end Operant.Dispatch
