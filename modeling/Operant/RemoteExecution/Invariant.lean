import Operant.RemoteExecution.Steps

/-! What holds of the tables after any calls.

Every write to a job is a step up, from queued over running to an end, after which nothing is
written; `history` keeps them in order. A job has one result once it has ended, unless it was
cancelled before it was started. -/
namespace Operant.RemoteExecution
open Operant.Tables Operant.Calls
open Operant.Scheduler (Instant)

/-- Up to its end, a job's status only rises. -/
def RemoteJobStatus.rank : RemoteJobStatus → Nat
  | .queued => 0
  | .leased => 1
  | .running => 2
  | .succeeded | .failed | .cancelled | .manualReconcileRequired => 3

theorem RemoteJobStatus.isActive_iff {status : RemoteJobStatus} : status.isActive = true ↔ status.rank < 3 := by
  cases status <;> decide

theorem RemoteJobStatus.rank_of_terminal {status : RemoteJobStatus} (h : status.isTerminal = true) :
    status.rank = 3 := by
  cases status <;> first | rfl | exact nomatch h

theorem RemoteJobStatus.rank_le (status : RemoteJobStatus) : status.rank ≤ 3 := by
  cases status <;> decide

/-- What a row may be later. -/
structure RemoteExecutionJob.Becomes (a b : RemoteExecutionJob) : Prop where
  jobId : b.jobId = a.jobId
  targetId : b.targetId = a.targetId
  leaseId : b.leaseId = a.leaseId
  leaseFencing : b.leaseFencing = a.leaseFencing
  capability : b.capability = a.capability
  idempotency : b.idempotency = a.idempotency
  rises : a.status.rank ≤ b.status.rank
  final : a.status.isTerminal = true → b = a

namespace RemoteExecutionJob

theorem Becomes.refl (a : RemoteExecutionJob) : a.Becomes a :=
  ⟨rfl, rfl, rfl, rfl, rfl, rfl, Nat.le_refl _, fun _ => rfl⟩

theorem Becomes.trans {a b c : RemoteExecutionJob} (h : a.Becomes b) (h' : b.Becomes c) : a.Becomes c where
  jobId := h'.jobId.trans h.jobId
  targetId := h'.targetId.trans h.targetId
  leaseId := h'.leaseId.trans h.leaseId
  leaseFencing := h'.leaseFencing.trans h.leaseFencing
  capability := h'.capability.trans h.capability
  idempotency := h'.idempotency.trans h.idempotency
  rises := h.rises.trans h'.rises
  final := by
    intro ha
    have hb := h.final ha
    rw [hb] at h'
    exact h'.final ha

/-- The lease is the one the job was created under. -/
def isOf (job : RemoteExecutionJob) (lease : RemoteTargetLease) : Prop :=
  lease.leaseId = job.leaseId ∧ lease.targetId = job.targetId ∧ lease.fencing = job.leaseFencing

theorem Becomes.isOf {a b : RemoteExecutionJob} {lease : RemoteTargetLease} (h : a.Becomes b)
    (hl : a.isOf lease) : b.isOf lease := by
  unfold RemoteExecutionJob.isOf
  rw [h.leaseId, h.targetId, h.leaseFencing]
  exact hl

theorem Becomes.active {a b : RemoteExecutionJob} (h : a.Becomes b) (hb : b.status.isActive = true) :
    a.status.isActive = true := by
  rw [RemoteJobStatus.isActive_iff] at hb ⊢
  exact Nat.lt_of_le_of_lt h.rises hb

end RemoteExecutionJob

/-- It moves a job from queued to running. -/
def JobWrite.starts (e : JobWrite) : Bool := e.before.status = .queued && e.after.status = .running

/-- It cancels a job that is queued. -/
def JobWrite.withdraws (e : JobWrite) : Bool := e.before.status = .queued && e.after.status = .cancelled

namespace World

structure Inv (w : World) : Prop where
  targetIds : (w.targets.map RemoteTargetRegistration.targetId).Nodup
  leaseIds : (w.leases.map RemoteTargetLease.leaseId).Nodup
  jobIds : (w.jobs.map RemoteExecutionJob.jobId).Nodup
  resultIds : (w.results.map RemoteExecutionResult.jobId).Nodup
  fencing : w.leases.Pairwise fun a b => a.targetId = b.targetId → a.fencing < b.fencing
  top : ∀ lease ∈ w.leases, ∃ target ∈ w.targets, target.targetId = lease.targetId ∧
    lease.fencing ≤ target.fencing
  bound : ∀ job ∈ w.jobs, ∃ lease ∈ w.leases, job.isOf lease
  room : ∀ target ∈ w.targets,
    w.activeCount target.targetId ≤ target.capabilityManifest.maxConcurrentJobs
  lawful : ∀ e ∈ w.history, e.before.Becomes e.after
  order : w.history.Pairwise fun a b => a.after.jobId = b.before.jobId → a.after.Becomes b.before
  recorded : ∀ e ∈ w.history, ∃ job ∈ w.jobs, e.after.Becomes job
  result : ∀ r ∈ w.results, ∃ job ∈ w.jobs, job.jobId = r.jobId ∧ job.status = r.status
  settled : ∀ job ∈ w.jobs, job.status.isTerminal = true →
    (∃ r ∈ w.results, r.jobId = job.jobId) ∨
      ∃ e ∈ w.history, e.before.jobId = job.jobId ∧ e.withdraws = true

theorem inv_empty : Inv {} where
  targetIds := List.nodup_nil
  leaseIds := List.nodup_nil
  jobIds := List.nodup_nil
  resultIds := List.nodup_nil
  fencing := .nil
  top := fun _ h => absurd h List.not_mem_nil
  bound := fun _ h => absurd h List.not_mem_nil
  room := fun _ h => absurd h List.not_mem_nil
  lawful := fun _ h => absurd h List.not_mem_nil
  order := .nil
  recorded := fun _ h => absurd h List.not_mem_nil
  result := fun _ h => absurd h List.not_mem_nil
  settled := fun _ h => absurd h List.not_mem_nil

theorem Inv.same {w w' : World} (hi : w.Inv) (h : w.Same w') : w'.Inv := by
  obtain ⟨htargets, hleases, hjobs, hresults, hhistory⟩ := h
  constructor
  case room =>
    unfold activeCount
    rw [htargets, hjobs]
    exact hi.room
  all_goals simp only [htargets, hleases, hjobs, hresults, hhistory]
  · exact hi.targetIds
  · exact hi.leaseIds
  · exact hi.jobIds
  · exact hi.resultIds
  · exact hi.fencing
  · exact hi.top
  · exact hi.bound
  · exact hi.lawful
  · exact hi.order
  · exact hi.recorded
  · exact hi.result
  · exact hi.settled

variable {w w' : World}

theorem target_mem {targetId : String} {target : RemoteTargetRegistration}
    (h : w.target? targetId = some target) : target ∈ w.targets ∧ target.targetId = targetId := by
  have hid := List.find?_some h
  rw [decide_eq_true_eq] at hid
  exact ⟨List.mem_of_find?_eq_some h, hid⟩

theorem job_mem {jobId : String} {job : RemoteExecutionJob} (h : w.job? jobId = some job) :
    job ∈ w.jobs ∧ job.jobId = jobId := by
  have hid := List.find?_some h
  rw [decide_eq_true_eq] at hid
  exact ⟨List.mem_of_find?_eq_some h, hid⟩

theorem Inv.target_unique (hi : w.Inv) {a b : RemoteTargetRegistration} (ha : a ∈ w.targets)
    (hb : b ∈ w.targets) (hid : a.targetId = b.targetId) : a = b := eq_of_key hi.targetIds ha hb hid

theorem Inv.lease_unique (hi : w.Inv) {a b : RemoteTargetLease} (ha : a ∈ w.leases)
    (hb : b ∈ w.leases) (hid : a.leaseId = b.leaseId) : a = b := eq_of_key hi.leaseIds ha hb hid

theorem Inv.job_unique (hi : w.Inv) {a b : RemoteExecutionJob} (ha : a ∈ w.jobs) (hb : b ∈ w.jobs)
    (hid : a.jobId = b.jobId) : a = b := eq_of_key hi.jobIds ha hb hid

/-! ### Writes to jobs -/

section Write
variable {p : RemoteExecutionJob → Bool} {f : RemoteExecutionJob → RemoteExecutionJob} {lost : Bool}
  {more : List RemoteExecutionResult}

/-- The rows of `remote_execution_jobs` after an update. -/
theorem becomes_update (hf : ∀ job ∈ w.jobs, p job = true → job.Becomes (f job)) {job : RemoteExecutionJob}
    (hjob : job ∈ w.jobs) : ∃ job' ∈ update w.jobs p f, job.Becomes job' := by
  cases hp : p job with
  | true => exact ⟨f job, mem_update.mpr (.inl ⟨job, hjob, hp, rfl⟩), hf job hjob hp⟩
  | false => exact ⟨job, mem_update.mpr (.inr ⟨hjob, hp⟩), .refl job⟩

theorem activeCount_update (hf : ∀ job ∈ w.jobs, p job = true → job.Becomes (f job)) (targetId : String) :
    (update w.jobs p f).countP (fun job => job.targetId = targetId && job.status.isActive) ≤
      w.activeCount targetId := by
  unfold update activeCount
  rw [List.countP_map]
  apply List.countP_mono_left
  intro job hjob hactive
  by_cases hp : p job = true
  · have hb := hf job hjob hp
    simp only [Function.comp_apply, if_pos hp, Bool.and_eq_true, decide_eq_true_eq] at hactive ⊢
    exact ⟨hb.targetId.symm.trans hactive.1, hb.active hactive.2⟩
  · simpa only [Function.comp_apply, if_neg hp] using hactive

/-- A write, with the results that are recorded with it. -/
theorem Inv.write (hi : w.Inv) (hf : ∀ job ∈ w.jobs, p job = true → job.Becomes (f job))
    (hids : ((w.results ++ more).map RemoteExecutionResult.jobId).Nodup)
    (hmore : ∀ r ∈ more, ∃ job ∈ w.jobs, p job = true ∧ job.jobId = r.jobId ∧ (f job).status = r.status)
    (hsettled : ∀ job ∈ w.jobs, p job = true → (f job).status.isTerminal = true →
      (∃ r ∈ more, r.jobId = job.jobId) ∨
        (job.status = .queued ∧ (f job).status = .cancelled)) :
    (({ w with results := w.results ++ more } : World).updateJobs lost p f).Inv where
  targetIds := hi.targetIds
  leaseIds := hi.leaseIds
  jobIds := by
    show ((update w.jobs p f).map RemoteExecutionJob.jobId).Nodup
    rw [map_update _ fun job hjob hp => (hf job hjob hp).jobId]
    exact hi.jobIds
  resultIds := hids
  fencing := hi.fencing
  top := hi.top
  bound := by
    intro job hjob
    cases mem_update.mp hjob with
    | inl h =>
      obtain ⟨old, hold, hp, rfl⟩ := h
      obtain ⟨lease, hlease, hof⟩ := hi.bound old hold
      exact ⟨lease, hlease, (hf old hold hp).isOf hof⟩
    | inr h => exact hi.bound job h.1
  room := fun target htarget => (activeCount_update hf target.targetId).trans (hi.room target htarget)
  lawful := by
    intro e he
    cases List.mem_append.mp he with
    | inl he => exact hi.lawful e he
    | inr he =>
      obtain ⟨job, hjob, rfl⟩ := List.mem_map.mp he
      obtain ⟨hmem, hp⟩ := List.mem_filter.mp hjob
      exact hf job hmem hp
  order := by
    apply List.pairwise_append.mpr
    refine ⟨hi.order, ?_, ?_⟩
    · -- One update writes a row once.
      have hids : ((w.jobs.filter p).map RemoteExecutionJob.jobId).Nodup :=
        hi.jobIds.sublist (List.filter_sublist.map _)
      rw [List.nodup_iff_pairwise_ne, List.pairwise_map] at hids
      rw [List.pairwise_map]
      apply hids.imp_of_mem
      intro a b ha _ hne heq
      obtain ⟨hmem, hp⟩ := List.mem_filter.mp ha
      exact absurd ((hf a hmem hp).jobId.symm.trans heq) hne
    · intro a ha b hb heq
      obtain ⟨job, hjob, rfl⟩ := List.mem_map.mp hb
      obtain ⟨row, hrow, hbecomes⟩ := hi.recorded a ha
      have hsame : row = job :=
        hi.job_unique hrow (List.mem_filter.mp hjob).1 (hbecomes.jobId.trans heq)
      rw [← hsame]
      exact hbecomes
  recorded := by
    intro e he
    cases List.mem_append.mp he with
    | inl he =>
      obtain ⟨job, hjob, hbecomes⟩ := hi.recorded e he
      obtain ⟨job', hjob', hbecomes'⟩ := becomes_update hf hjob
      exact ⟨job', hjob', hbecomes.trans hbecomes'⟩
    | inr he =>
      obtain ⟨job, hjob, rfl⟩ := List.mem_map.mp he
      obtain ⟨hmem, hp⟩ := List.mem_filter.mp hjob
      exact ⟨f job, mem_update.mpr (.inl ⟨job, hmem, hp, rfl⟩), .refl _⟩
  result := by
    intro r hr
    cases List.mem_append.mp hr with
    | inl hr =>
      obtain ⟨job, hjob, hid, hstatus⟩ := hi.result r hr
      obtain ⟨job', hjob', hbecomes⟩ := becomes_update hf hjob
      have hterminal : job.status.isTerminal = true := by
        rw [hstatus]
        exact r.terminal
      rw [hbecomes.final hterminal] at hjob'
      exact ⟨job, hjob', hid, hstatus⟩
    | inr hr =>
      obtain ⟨job, hjob, hp, hid, hstatus⟩ := hmore r hr
      refine ⟨f job, mem_update.mpr (.inl ⟨job, hjob, hp, rfl⟩), ?_, hstatus⟩
      rw [(hf job hjob hp).jobId, hid]
  settled := by
    intro job hjob hterminal
    cases mem_update.mp hjob with
    | inl h =>
      obtain ⟨old, hold, hp, rfl⟩ := h
      rw [(hf old hold hp).jobId]
      cases hsettled old hold hp hterminal with
      | inl hresult =>
        obtain ⟨r, hr, hid⟩ := hresult
        exact .inl ⟨r, List.mem_append_right _ hr, hid⟩
      | inr hqueued =>
        refine .inr ⟨⟨old, f old, lost⟩, List.mem_append_right _ ?_, rfl, ?_⟩
        · exact List.mem_map.mpr ⟨old, List.mem_filter.mpr ⟨hold, hp⟩, rfl⟩
        · simp [JobWrite.withdraws, hqueued.1, hqueued.2]
    | inr h =>
      cases hi.settled job h.1 hterminal with
      | inl hresult =>
        obtain ⟨r, hr, hid⟩ := hresult
        exact .inl ⟨r, List.mem_append_left _ hr, hid⟩
      | inr hwithdrawn =>
        obtain ⟨e, he, hid, hwithdraws⟩ := hwithdrawn
        exact .inr ⟨e, List.mem_append_left _ he, hid, hwithdraws⟩

/-- A write with no results. -/
theorem Inv.updateJobs (hi : w.Inv) (hf : ∀ job ∈ w.jobs, p job = true → job.Becomes (f job))
    (hsettled : ∀ job ∈ w.jobs, p job = true → (f job).status.isTerminal = true →
      job.status = .queued ∧ (f job).status = .cancelled) : (w.updateJobs lost p f).Inv := by
  have hids : ((w.results ++ []).map RemoteExecutionResult.jobId).Nodup := by
    rw [List.append_nil]
    exact hi.resultIds
  have hwrite : (({ w with results := w.results ++ [] } : World).updateJobs lost p f).Inv :=
    hi.write hf hids nofun fun job hjob hp hterminal => .inr (hsettled job hjob hp hterminal)
  rw [List.append_nil] at hwrite
  exact hwrite

theorem finish_becomes {job : RemoteExecutionJob} (hactive : job.status.isActive = true)
    (result : RemoteExecutionResult) (now : Instant) :
    job.Becomes { job with status := result.status, finishedAt := some now } := by
  refine ⟨rfl, rfl, rfl, rfl, rfl, rfl, ?_, ?_⟩
  · show job.status.rank ≤ result.status.rank
    rw [RemoteJobStatus.rank_of_terminal result.terminal]
    exact job.status.rank_le
  · intro hterminal
    rw [RemoteJobStatus.isActive_iff, RemoteJobStatus.rank_of_terminal hterminal] at hactive
    omega

/-- One job ends, and its result is recorded. -/
theorem Inv.finish (hi : w.Inv) {job : RemoteExecutionJob} (hjob : job ∈ w.jobs)
    (hactive : job.status.isActive = true) {result : RemoteExecutionResult}
    (hid : result.jobId = job.jobId) (hfresh : ∀ row ∈ w.results, row.jobId ≠ result.jobId) (now : Instant) :
    (({ w with results := w.results ++ [result] } : World).updateJobs lost
      (fun row => row.jobId = result.jobId) fun row =>
        { row with status := result.status, finishedAt := some now }).Inv := by
  have honly : ∀ row ∈ w.jobs, decide (row.jobId = result.jobId) = true → row = job := by
    intro row hrow hp
    exact hi.job_unique hrow hjob ((of_decide_eq_true hp).trans hid)
  apply hi.write
  · intro row hrow hp
    obtain rfl := honly row hrow hp
    exact finish_becomes hactive result now
  · rw [List.map_append, List.nodup_append]
    refine ⟨hi.resultIds, List.nodup_singleton _, ?_⟩
    intro a ha b hb heq
    obtain ⟨row, hrow, rfl⟩ := List.mem_map.mp ha
    rw [List.map_singleton, List.mem_singleton] at hb
    exact hfresh row hrow (heq.trans hb)
  · intro r hr
    obtain rfl := List.mem_singleton.mp hr
    exact ⟨job, hjob, decide_eq_true hid.symm, hid.symm, rfl⟩
  · intro row hrow hp _
    obtain rfl := honly row hrow hp
    exact .inl ⟨result, List.mem_singleton_self _, hid⟩

end Write
end World
end Operant.RemoteExecution
