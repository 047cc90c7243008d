import Operant.RemoteExecution.Controller

/-! Outcomes that are lost, and what they stop.

A job whose outcome is lost is classified by what it may have done; on the lease of one that has to
be reconciled by hand, nothing is started any more. The calls of the programs keep both where they
are `Safe`: where the check before a poll is still true, and where the connector's own
classification is that of the reconciliation. -/
namespace Operant.RemoteExecution
open Operant.Tables Operant.Calls
open Operant.Scheduler (Instant)
open Controller (unknownResult Pending pending requireNoUnknownOnLease reconciled)

/-- What becomes of a job that was running. -/
def lostStatus (idempotency : RemoteActionIdempotency) (capability : RemoteCapability) : RemoteJobStatus :=
  if idempotency = .nonIdempotent ∨ capability = .targetExec then .manualReconcileRequired else .failed

theorem closing_status {job : RemoteExecutionJob} (now : Instant) (h : job.status = .running) :
    (World.closing job now).status = lostStatus job.idempotency job.capability := by
  unfold World.closing lostStatus
  by_cases hmanual : job.idempotency = .nonIdempotent ∨ job.capability = .targetExec
  · rw [if_pos ⟨h, hmanual⟩, if_pos hmanual]
  · rw [if_neg fun hc => hmanual hc.2, if_neg hmanual]

/-- The connector's classification is the reconciliation's, but for idempotent jobs of
`remote.target.exec`. -/
theorem unknownResult_status (job : RemoteExecutionJob) (now : Instant) :
    (unknownResult job now).status = lostStatus job.idempotency job.capability ↔
      ¬(job.idempotency = .idempotent ∧ job.capability = .targetExec) := by
  unfold unknownResult lostStatus
  cases job.idempotency with
  | nonIdempotent => simp
  | idempotent =>
    by_cases hexec : job.capability = .targetExec
    · simp [hexec]
    · simp [hexec]

namespace World
variable {w w' : World}

structure Lawful (w : World) : Prop where
  inv : w.Inv
  alike : ∀ e ∈ w.history, e.lost = true → e.before.status = .running →
    e.after.status = lostStatus e.before.idempotency e.before.capability
  stops : w.history.Pairwise fun a b => a.after.leaseId = b.before.leaseId →
    a.after.status = .manualReconcileRequired → b.starts = false

theorem lawful_empty : Lawful {} := ⟨inv_empty, fun _ h => absurd h List.not_mem_nil, .nil⟩

/-- What a call must not do. -/
def Safe (w : World) (c : Call) : Prop :=
  c.createsQueued = true ∧
    match c with
    | .pollJobs ref _ _ _ => w.unknownsOnLease ref.targetId ref.leaseId = []
    | .completeJob result _ _ _ lost => lost = true → ∀ job ∈ w.jobs, job.jobId = result.jobId →
        result.status = lostStatus job.idempotency job.capability
    | _ => True

/-- Writes that start nothing stop nothing. -/
theorem stops_append {log more : List JobWrite}
    (h : log.Pairwise fun a b => a.after.leaseId = b.before.leaseId →
      a.after.status = .manualReconcileRequired → b.starts = false)
    (hmore : ∀ e ∈ more, e.starts = false) :
    (log ++ more).Pairwise fun a b => a.after.leaseId = b.before.leaseId →
      a.after.status = .manualReconcileRequired → b.starts = false := by
  rw [List.pairwise_append]
  refine ⟨h, ?_, fun _ _ b hb _ _ => hmore b hb⟩
  rw [List.pairwise_iff_forall_sublist]
  intro a b hsub _ _
  exact hmore b (hsub.subset (List.mem_cons_of_mem _ (List.mem_singleton_self b)))

/-- Where nothing on the lease has to be reconciled by hand, a poll may start its jobs. -/
theorem poll_stops (hl : w.Lawful) {ref : LeaseRef} {now : Instant} {ids : List String}
    (live : w.Live ref now)
    (claimable : ∀ id ∈ ids, ∃ job ∈ w.jobs, job.jobId = id ∧ World.claimable ref job = true)
    (hnone : w.unknownsOnLease ref.targetId ref.leaseId = []) :
    (w.updateJobs false (fun job => job.jobId ∈ ids && job.status = .queued) fun job =>
      { job with status := .running, startedAt := some now }).history.Pairwise fun a b =>
        a.after.leaseId = b.before.leaseId → a.after.status = .manualReconcileRequired →
          b.starts = false := by
  show (w.history ++ List.map _ _).Pairwise _
  rw [List.pairwise_append]
  refine ⟨hl.stops, ?_, ?_⟩
  · rw [List.pairwise_map]
    exact List.pairwise_of_forall fun _ _ _ hmanual => nomatch hmanual
  · intro a ha b hb hlease hmanual
    obtain ⟨job, hjob, rfl⟩ := List.mem_map.mp hb
    obtain ⟨hmem, hp⟩ := List.mem_filter.mp hjob
    rw [Bool.and_eq_true, decide_eq_true_eq] at hp
    obtain ⟨row, hrow, hrowId, hclaim⟩ := claimable job.jobId hp.1
    rw [hl.inv.job_unique hrow hmem hrowId] at hclaim
    unfold World.claimable at hclaim
    simp only [Bool.and_eq_true, decide_eq_true_eq] at hclaim
    -- The job that is to be reconciled is on the lease that is polled.
    obtain ⟨unknown, hunknown, hbecomes⟩ := hl.inv.recorded a ha
    have hfinal : unknown = a.after := hbecomes.final (by rw [hmanual]; rfl)
    obtain ⟨lease, hleaseMem, hleaseId, hleaseTarget, -⟩ := hl.inv.bound unknown hunknown
    obtain ⟨lease', hlease', hid', htarget', -⟩ := live.lease
    have hunknownLease : unknown.leaseId = ref.leaseId := by rw [hfinal, hlease, hclaim.1.1.2]
    have hsame : lease = lease' :=
      hl.inv.lease_unique hleaseMem hlease' (by rw [hleaseId, hid', hunknownLease])
    have htarget : unknown.targetId = ref.targetId := by rw [← hleaseTarget, hsame, htarget']
    have hfound : unknown.jobId ∈ w.unknownsOnLease ref.targetId ref.leaseId := by
      apply List.mem_map_of_mem
      apply List.mem_filter.mpr
      refine ⟨hunknown, ?_⟩
      rw [hfinal] at htarget hunknownLease ⊢
      simp [htarget, hunknownLease, hmanual]
    rw [hnone] at hfound
    exact absurd hfound List.not_mem_nil

/-- Writes that start nothing, and lose nothing or classify it as they should. -/
theorem Lawful.write (hl : w.Lawful) {more : List JobWrite} (hinv : w'.Inv)
    (heq : w'.history = w.history ++ more) (hstarts : ∀ e ∈ more, e.starts = false)
    (halike : ∀ e ∈ more, e.lost = true → e.before.status = .running →
      e.after.status = lostStatus e.before.idempotency e.before.capability) : w'.Lawful := by
  refine ⟨hinv, ?_, ?_⟩
  · intro e he
    rw [heq] at he
    cases List.mem_append.mp he with
    | inl he => exact hl.alike e he
    | inr he => exact halike e he
  · rw [heq]
    exact stops_append hl.stops hstarts

theorem Lawful.unwritten (hl : w.Lawful) (hinv : w'.Inv) (heq : w'.history = w.history) : w'.Lawful :=
  hl.write hinv (by rw [heq, List.append_nil]) (fun _ h => absurd h List.not_mem_nil)
    fun _ h => absurd h List.not_mem_nil

theorem not_starts_of_terminal {e : JobWrite} (h : e.after.status.isTerminal = true) : e.starts = false := by
  have hrunning : e.after.status ≠ .running := by
    intro heq
    rw [heq] at h
    exact nomatch h
  simp [JobWrite.starts, hrunning]

theorem closeJob_lawful (hl : w.Lawful) {job : RemoteExecutionJob} (now : Instant) (hjob : job ∈ w.jobs)
    (hactive : job.status.isActive = true) (hfresh : ∀ row ∈ w.results, row.jobId ≠ job.jobId) :
    (w.closeJob now job).Lawful := by
  have hinv : (w.closeJob now job).Inv := (closeJob_inv hl.inv now hjob hactive hfresh).1
  apply hl.write hinv rfl
  · intro e he
    obtain ⟨row, -, rfl⟩ := List.mem_map.mp he
    exact not_starts_of_terminal (closing job now).terminal
  · intro e he _ hrunning
    obtain ⟨row, hrow, rfl⟩ := List.mem_map.mp he
    obtain ⟨hmem, hid⟩ := List.mem_filter.mp hrow
    have hsame : row = job := hl.inv.job_unique hmem hjob (of_decide_eq_true hid)
    rw [hsame] at hrunning ⊢
    exact closing_status now hrunning

theorem exec_lawful (hl : w.Lawful) {c : Call} (hs : w.Safe c) :
    (w.exec c).2.Lawful ∧ w.Grows (w.exec c).2 := by
  obtain ⟨hinv, hgrows⟩ := exec_inv hl.inv hs.1
  refine ⟨?_, hgrows⟩
  have hmoved := exec_moved w c
  revert hmoved hinv
  generalize (w.exec c).2 = w'
  intro hinv hmoved
  cases hmoved with
  | idle c w' same => exact hl.unwritten hinv same.history
  | registered | online | acquired | renewed | released | created => exact hl.unwritten hinv rfl
  | started ref now limit seen ids live claimable =>
    refine ⟨hinv, ?_, poll_stops hl live claimable hs.2⟩
    intro e he hlost
    cases List.mem_append.mp he with
    | inl he => exact hl.alike e he hlost
    | inr he =>
      obtain ⟨job, -, rfl⟩ := List.mem_map.mp he
      exact nomatch hlost
  | completed result ref now observation lost job live found under running fresh =>
    apply hl.write hinv rfl
    · intro e he
      obtain ⟨row, -, rfl⟩ := List.mem_map.mp he
      exact not_starts_of_terminal result.terminal
    · intro e he hlost _
      obtain ⟨row, hrow, rfl⟩ := List.mem_map.mp he
      obtain ⟨hmem, hid⟩ := List.mem_filter.mp hrow
      exact hs.2 hlost row hmem (of_decide_eq_true hid)
  | cancelled jobId now job found queued =>
    apply hl.write hinv rfl
    · intro e he
      obtain ⟨row, -, rfl⟩ := List.mem_map.mp he
      exact not_starts_of_terminal rfl
    · intro e he hlost
      obtain ⟨row, -, rfl⟩ := List.mem_map.mp he
      exact nomatch hlost
  | requested jobId now job found running =>
    apply hl.write hinv rfl
    · intro e he
      obtain ⟨row, hrow, rfl⟩ := List.mem_map.mp he
      obtain ⟨hmem, hid⟩ := List.mem_filter.mp hrow
      obtain ⟨hjob, hjobId⟩ := job_mem found
      have hsame : row = job := hl.inv.job_unique hmem hjob ((of_decide_eq_true hid).trans hjobId.symm)
      rw [hsame]
      cases running with
      | inl h => simp [JobWrite.starts, h]
      | inr h => simp [JobWrite.starts, h]
    · intro e he hlost
      obtain ⟨row, -, rfl⟩ := List.mem_map.mp he
      exact nomatch hlost
  | closed now w' closes =>
    obtain ⟨hids, hrows⟩ := stranded_rows hl.inv now
    apply closeJobs_keep (P := Lawful) ?_ hids (fun job hjob => (hrows job hjob).1) hl closes
    intro w₁ job hjob hl₁ hmem hfresh
    exact closeJob_lawful hl₁ now hmem (stranded_active (hrows job hjob).2) hfresh

end World

/-! ### The programs -/

/-- The connector cannot say what became of the job. -/
def Outside.loses (o : Outside) (job : RemoteExecutionJob) : Bool :=
  match o.execute job with
  | .error .outcomeUnknown => true
  | .error _ | .ok _ => false

/-- The condition on a call: jobs are created queued; the outcome of an idempotent job of
`remote.target.exec` is not lost by a connector; and where a poll comes, no job of the lease has
become one to be reconciled by hand since the check before it. -/
def World.allows (w : World) : Call → Prop
  | .createJob job _ _ => job.status = .queued
  | .execute job => w.outside.loses job = true →
      ¬(job.idempotency = .idempotent ∧ job.capability = .targetExec)
  | .pollJobs ref _ _ seen => w.unknownsOnLease ref.targetId ref.leaseId = seen
  | _ => True

instance (c : Call) (w : World) : Decidable (w.allows c) := by
  cases c <;> unfold World.allows <;> infer_instance

def rules : Rules Call Answer Raised World where
  exec c w := .ok (w.exec c)
  inv := World.Lawful
  rely := World.Grows
  allowed c w := w.allows c
  refl := World.Grows.refl
  trans := World.Grows.trans

/-- However a program may end. -/
def Anyhow {α : Type} (_ : α) (_ : World) : Prop := True

variable {w : World}

/-- A call that is safe. -/
theorem ask_holds {c : Call} {Q : Reply c → World → Prop} {X : Raised → World → Prop}
    (hsafe : ∀ w' : World, w.Grows w' → w'.Lawful → w'.allows c → w'.Safe c)
    (hok : ∀ (w' : World) reply, w.Grows w' → w'.Lawful → w'.allows c → (w'.exec c).1 = .ok reply →
      Q reply (w'.exec c).2)
    (herror : ∀ (w' : World) e, w.Grows w' → w'.Lawful → w'.allows c → (w'.exec c).1 = .error e →
      X e (w'.exec c).2) : (ask c).Holds rules Q X w := by
  apply Prog.holds_call
  intro w' hr hi ha
  obtain ⟨hlawful, hgrows⟩ := World.exec_lawful hi (hsafe w' hr hi ha)
  refine ⟨hlawful, hgrows, Prog.holds_lift ?_ ?_⟩
  · exact fun reply heq => hok w' reply hr hi ha heq
  · exact fun e heq => herror w' e hr hi ha heq

/-- A call that is safe, whatever it replies. -/
theorem ask_anyhow {c : Call} (hsafe : ∀ w' : World, w.Grows w' → w'.Lawful → w'.allows c → w'.Safe c) :
    (ask c).Holds rules Anyhow Anyhow w :=
  ask_holds hsafe (fun _ _ _ _ _ _ => trivial) fun _ _ _ _ _ _ => trivial

theorem Holds.attempt {α : Type} {p : Action α} {Q : Except Raised α → World → Prop}
    (h : p.Holds rules (fun a w' => Q (.ok a) w') (fun e w' => Q (.error e) w') w) :
    p.attempt.Holds rules Q Anyhow w := by
  induction p generalizing w with
  | ret a => exact h
  | fail e => exact h
  | call c k ih =>
    intro w' hr hi ha
    obtain ⟨hlawful, hgrows, hk⟩ := h w' hr hi ha
    exact ⟨hlawful, hgrows, ih _ hk⟩

/-- A result that stands for a lost outcome is classified as it should be. -/
def Fits (result : RemoteExecutionResult) (lost : Bool) (w : World) : Prop :=
  lost = true → result.status ≠ .succeeded ∧ ∃ job ∈ w.jobs, job.jobId = result.jobId ∧
    result.status = lostStatus job.idempotency job.capability

theorem Fits.later {result : RemoteExecutionResult} {lost : Bool} {w' : World} (h : Fits result lost w)
    (hr : w.Grows w') : Fits result lost w' := by
  intro hlost
  obtain ⟨hstatus, job, hjob, hid, heq⟩ := h hlost
  obtain ⟨job', hjob', hbecomes⟩ := hr.jobs job hjob
  refine ⟨hstatus, job', hjob', hbecomes.jobId.trans hid, ?_⟩
  rw [hbecomes.idempotency, hbecomes.capability]
  exact heq

theorem Fits.completed {result : RemoteExecutionResult} {lost : Bool} (h : Fits result lost w)
    (now : Instant) : Fits (result.completed now) lost w := h

theorem fits_reported (result : RemoteExecutionResult) : Fits result false w := by
  intro h
  cases h

/-- The evidence is of a success. -/
theorem Fits.assessed {c : Controller} {job : RemoteExecutionJob} {isLocal lost : Bool}
    {result : RemoteExecutionResult} {assessed : Assessed} (h : Fits result lost w)
    (ha : c.assess job isLocal result = .ok assessed) : Fits assessed.result lost w := by
  intro hlost
  obtain ⟨hstatus, hfits⟩ := h hlost
  unfold Controller.assess at ha
  rw [if_pos hstatus] at ha
  cases ha
  exact ⟨hstatus, hfits⟩

theorem dated_holds {target : RemoteTargetRegistration} {result : RemoteExecutionResult} {now : Instant}
    {lost : Bool} (h : Fits result lost w) :
    (Controller.dated target result now).Holds rules (fun result w' => Fits result lost w') Anyhow w := by
  unfold Controller.dated
  split
  · apply Prog.Holds.bind
    apply ask_holds (fun _ _ _ _ => ⟨rfl, trivial⟩)
    · intro w' previous hr hi ha _
      have hgrows := (World.exec_lawful hi (c := .getResult result.jobId) ⟨rfl, trivial⟩).2
      exact ((h.later hr).later hgrows).completed _
    · exact fun _ _ _ _ _ _ => trivial
  · exact h

theorem observe_holds {records : Bool} : (Controller.observe records).Holds rules Anyhow Anyhow w := by
  unfold Controller.observe
  split
  · exact ask_anyhow fun _ _ _ _ => ⟨rfl, trivial⟩
  · trivial

theorem completeReceipt_holds {job : RemoteExecutionJob} :
    (Controller.completeReceipt job).Holds rules Anyhow Anyhow w := by
  unfold Controller.completeReceipt
  split
  · trivial
  · apply Prog.Holds.bind
    apply Holds.attempt
    apply (ask_anyhow fun _ _ _ _ => ⟨rfl, trivial⟩).mono
    · intro _ _ _ _
      trivial
    · intro e _ _ _
      cases e <;> trivial

theorem completeJob_holds {c : Controller} {result : RemoteExecutionResult} {ref : LeaseRef} {now : Instant}
    {artifact : Option Artifact} {lost : Bool} (h : Fits result lost w) :
    (c.completeJob result ref now artifact lost).Holds rules Anyhow Anyhow w := by
  unfold Controller.completeJob
  apply Prog.Holds.bind
  apply Prog.holds_lift ?_ fun _ _ => trivial
  intro _ _
  apply Prog.Holds.bind
  apply (ask_anyhow fun _ _ _ _ => ⟨rfl, trivial⟩).mono ?_ fun _ _ _ _ => trivial
  intro job w₁ hr₁ _
  apply Prog.Holds.bind
  apply (ask_anyhow fun _ _ _ _ => ⟨rfl, trivial⟩).mono ?_ fun _ _ _ _ => trivial
  intro target w₂ hr₂ _
  apply Prog.Holds.bind
  apply (dated_holds ((h.later hr₁).later hr₂)).mono ?_ fun _ _ _ _ => trivial
  intro dated w₃ _ hfits
  apply Prog.Holds.bind
  apply Prog.holds_lift ?_ fun _ _ => trivial
  intro assessed hassessed
  have hfits := hfits.assessed hassessed
  apply Prog.Holds.bind
  apply (ask_anyhow ?_).mono ?_ fun _ _ _ _ => trivial
  · intro w' hr hi _
    refine ⟨rfl, fun hlost job hjob hid => ?_⟩
    obtain ⟨-, row, hrow, hrowId, hstatus⟩ := hfits.later hr hlost
    rw [hi.inv.job_unique hjob hrow (hid.trans hrowId.symm)]
    exact hstatus
  · intro completed w₄ _ _
    apply Prog.Holds.bind
    apply observe_holds.mono ?_ fun _ _ _ _ => trivial
    intro _ w₅ _ _
    apply Prog.Holds.bind
    apply completeReceipt_holds.mono ?_ fun _ _ _ _ => trivial
    intro _ _ _ _
    trivial

theorem requireNoUnknown_holds (targetId leaseId : String) :
    (requireNoUnknownOnLease targetId leaseId).Holds rules (fun seen _ => seen = []) Anyhow w := by
  unfold requireNoUnknownOnLease
  apply Prog.Holds.bind
  apply (ask_anyhow fun _ _ _ _ => ⟨rfl, trivial⟩).mono ?_ fun _ _ _ _ => trivial
  intro seen w' _ _
  split
  · trivial
  · rename_i hseen
    exact not_not.mp hseen

/-- A job that a poll has replied with. -/
def Known (job : RemoteExecutionJob) (w : World) : Prop := ∃ row ∈ w.jobs, job.Becomes row

theorem Known.later {job : RemoteExecutionJob} {w' : World} (h : Known job w) (hr : w.Grows w') :
    Known job w' := by
  obtain ⟨row, hrow, hbecomes⟩ := h
  obtain ⟨row', hrow', hbecomes'⟩ := hr.jobs row hrow
  exact ⟨row', hrow', hbecomes.trans hbecomes'⟩

theorem polled_known {ref : LeaseRef} {now : Instant} {limit : Nat} {seen : List String}
    {jobs : List RemoteExecutionJob} (h : (w.exec (.pollJobs ref now limit seen)).1 = .ok jobs) :
    ∀ job ∈ jobs, Known job (w.exec (.pollJobs ref now limit seen)).2 := by
  revert h
  unfold World.exec
  split
  · exact nofun
  · split
    · rename_i reply w' hanswer
      intro heq job hjob
      obtain rfl := Except.ok.inj heq
      have hpoll : w.pollJobs ref now limit = .ok (reply, w') := hanswer
      unfold World.pollJobs at hpoll
      split at hpoll
      · exact nomatch hpoll
      · obtain ⟨row, -, hpoll⟩ := ok_of_bind hpoll
        cases hpoll
        exact ⟨job, (of_mem_page hjob).1, .refl job⟩
    · exact nofun

theorem poll_holds {ref : LeaseRef} {now : Instant} {limit : Nat} {seen : List String} (hseen : seen = []) :
    (ask (.pollJobs ref now limit seen)).Holds rules (fun jobs w' => ∀ job ∈ jobs, Known job w') Anyhow w := by
  apply ask_holds
  · intro w' _ _ ha
    exact ⟨rfl, ha.trans hseen⟩
  · exact fun _ _ _ _ _ h => polled_known h
  · exact fun _ _ _ _ _ _ => trivial

theorem reconciled_holds {jobId : String} {now : Instant} {e : Raised} :
    (reconciled jobId now e).Holds rules Anyhow Anyhow w := by
  unfold reconciled
  apply Prog.Holds.bind
  apply (ask_anyhow fun _ _ _ _ => ⟨rfl, trivial⟩).mono ?_ fun _ _ _ _ => trivial
  intro closed w₁ _ _
  apply Prog.Holds.bind
  apply (ask_anyhow fun _ _ _ _ => ⟨rfl, trivial⟩).mono ?_ fun _ _ _ _ => trivial
  intro persisted w₂ _ _
  split <;> repeat' split
  all_goals trivial

/-- What the connector has replied, and the result made of it. -/
theorem execute_holds {job : RemoteExecutionJob} (now : Instant) (h : Known job w) :
    (ask (.execute job)).attempt.Holds rules
      (fun outcome w' => ∀ p, pending job now outcome = .ok p → Fits p.result p.lost w') Anyhow w := by
  apply Holds.attempt
  apply ask_holds (fun _ _ _ _ => ⟨rfl, trivial⟩)
  · intro w' outcome _ _ _ _ p hp
    cases hp
    exact fits_reported _
  · intro w' e hr hi ha herror p hp
    cases e with
    | outcomeUnknown =>
      cases hp
      intro _
      obtain ⟨row, hrow, hbecomes⟩ := h.later (hr.trans
        (World.exec_lawful hi (c := .execute job) ⟨rfl, trivial⟩).2)
      have hloses : w'.outside.loses job = true := by
        unfold Outside.loses
        have hexec : (w'.exec (.execute job)).1 = w'.outside.execute job := by
          unfold World.exec World.answer
          simp only [Call.onStore]
          cases w'.outside.execute job <;> rfl
        rw [hexec] at herror
        rw [herror]
      have hstatus := (unknownResult_status job now).mpr (ha hloses)
      refine ⟨?_, row, hrow, ?_, ?_⟩
      · unfold unknownResult
        split <;> (intro h; cases h)
      · rw [hbecomes.jobId]
        unfold unknownResult
        split <;> rfl
      · rw [hbecomes.idempotency, hbecomes.capability]
        exact hstatus
    | _ => cases hp

theorem perform_holds {c : Controller} {ref : LeaseRef} {now started : Instant} {job : RemoteExecutionJob}
    (h : Known job w) : (c.perform ref now started job).Holds rules Anyhow Anyhow w := by
  unfold Controller.perform
  apply Prog.Holds.bind
  apply (execute_holds now h).mono ?_ fun _ _ _ _ => trivial
  intro outcome w₁ _ hfits
  apply Prog.Holds.bind
  apply Prog.holds_lift ?_ fun _ _ => trivial
  intro p hp
  have hfits := hfits p hp
  apply Prog.Holds.bind
  apply (ask_anyhow fun _ _ _ _ => ⟨rfl, trivial⟩).mono ?_ fun _ _ _ _ => trivial
  intro ended w₂ hr₂ _
  apply Prog.Holds.bind
  apply Holds.attempt
  apply (completeJob_holds ((hfits.later hr₂).completed _)).mono
  · intro _ _ _ _
    trivial
  · intro e w₃ _ _
    show Prog.Holds rules (if e.isConflict = true then _ else _) _ _ w₃
    split
    · exact reconciled_holds
    · trivial

theorem rounds_holds {c : Controller} {ref : LeaseRef} {now started : Instant} (n : Nat)
    (results : List RemoteExecutionResult) :
    (c.rounds ref now started n results).Holds rules Anyhow Anyhow w := by
  induction n generalizing w results with
  | zero => trivial
  | succ n ih =>
    unfold Controller.rounds
    apply Prog.Holds.bind
    apply (ask_anyhow fun _ _ _ _ => ⟨rfl, trivial⟩).mono ?_ fun _ _ _ _ => trivial
    intro polled w₁ _ _
    apply Prog.Holds.bind
    apply (requireNoUnknown_holds ref.targetId ref.leaseId).mono ?_ fun _ _ _ _ => trivial
    intro seen w₂ _ hseen
    apply Prog.Holds.bind
    apply (poll_holds hseen).mono ?_ fun _ _ _ _ => trivial
    intro jobs w₃ _ hknown
    split
    · trivial
    · rename_i job rest
      apply Prog.Holds.bind
      apply (perform_holds (hknown job (List.mem_cons_self ..))).mono ?_ fun _ _ _ _ => trivial
      intro result w₄ _ _
      split
      · trivial
      · exact ih _

theorem code_holds (task : Task) : task.code.Holds rules Anyhow Anyhow w := by
  cases task with
  | dispatch controller ref now limit =>
    apply Prog.Holds.bind
    unfold Controller.dispatchAvailable
    split
    · trivial
    · apply Prog.Holds.bind
      apply (ask_anyhow fun _ _ _ _ => ⟨rfl, trivial⟩).mono ?_ fun _ _ _ _ => trivial
      intro started w₁ _ _
      apply (rounds_holds limit []).mono ?_ fun _ _ _ _ => trivial
      intro _ _ _ _
      trivial
  | poll ref limit now =>
    apply Prog.Holds.bind
    unfold Controller.pollJobs
    apply Prog.Holds.bind
    apply (requireNoUnknown_holds ref.targetId ref.leaseId).mono ?_ fun _ _ _ _ => trivial
    intro seen w₁ _ hseen
    apply Prog.Holds.bind
    apply (ask_anyhow fun _ _ _ _ => ⟨rfl, trivial⟩).mono ?_ fun _ _ _ _ => trivial
    intro _ w₂ _ _
    apply (poll_holds hseen).mono ?_ fun _ _ _ _ => trivial
    intro _ _ _ _
    trivial
  | complete controller result ref now artifact =>
    apply Prog.Holds.bind
    apply (completeJob_holds (fits_reported result)).mono ?_ fun _ _ _ _ => trivial
    intro _ _ _ _
    trivial
  | other c isOther =>
    apply Prog.Holds.bind
    apply (ask_anyhow ?_).mono ?_ fun _ _ _ _ => trivial
    · intro w' _ _ ha
      cases c with
      | createJob job leaseToken now => exact ⟨decide_eq_true ha, trivial⟩
      | pollJobs | completeJob => exact nomatch isOther
      | _ => exact ⟨rfl, trivial⟩
    · intro _ _ _ _
      trivial

theorem sound : Pool.Sound rules (fun _ => Anyhow) system where
  exec := rfl
  code task _ _ := code_holds task
  note _ _ _ w' _ _ hi := ⟨hi, World.Grows.refl w'⟩

theorem reached_lawful {moves : List (Move Task)}
    (h : Pool.Meets system (fun c w => w.allows c) start moves) : (reached moves).Lawful := by
  have hgood := (Pool.Good.init (Q := fun _ => Anyhow) World.lawful_empty).play sound moves h
  exact hgood.1.inv

end Operant.RemoteExecution
