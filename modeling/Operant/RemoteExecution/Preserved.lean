import Operant.RemoteExecution.Invariant

/-! Every call keeps the invariant, and jobs only become what they may. -/
namespace Operant.RemoteExecution.World
open Operant.Tables Operant.Calls
open Operant.Scheduler (Instant)

variable {w w' : World}

/-- What is never undone. -/
structure Grows (w w' : World) : Prop where
  jobs : ∀ job ∈ w.jobs, ∃ job' ∈ w'.jobs, job.Becomes job'
  history : ∃ more, w'.history = w.history ++ more

theorem Grows.refl (w : World) : w.Grows w :=
  ⟨fun job hjob => ⟨job, hjob, .refl job⟩, [], (List.append_nil _).symm⟩

theorem Grows.trans {w'' : World} (h : w.Grows w') (h' : w'.Grows w'') : w.Grows w'' := by
  constructor
  · intro job hjob
    obtain ⟨job', hjob', hbecomes⟩ := h.jobs job hjob
    obtain ⟨job'', hjob'', hbecomes'⟩ := h'.jobs job' hjob'
    exact ⟨job'', hjob'', hbecomes.trans hbecomes'⟩
  · obtain ⟨more, heq⟩ := h.history
    obtain ⟨more', heq'⟩ := h'.history
    exact ⟨more ++ more', by rw [heq', heq, List.append_assoc]⟩

theorem grows_updateJobs {p : RemoteExecutionJob → Bool} {f : RemoteExecutionJob → RemoteExecutionJob}
    {lost : Bool} (hf : ∀ job ∈ w.jobs, p job = true → job.Becomes (f job)) :
    w.Grows (w.updateJobs lost p f) :=
  ⟨fun _ hjob => becomes_update hf hjob, _, rfl⟩

/-! ### Targets and leases -/

/-- An update of a target that keeps its limit and does not lower its fencing number. -/
theorem Inv.updateTargets (hi : w.Inv) {p : RemoteTargetRegistration → Bool}
    {f : RemoteTargetRegistration → RemoteTargetRegistration}
    (hf : ∀ row ∈ w.targets, p row = true → (f row).targetId = row.targetId ∧
      row.fencing ≤ (f row).fencing ∧ (f row).capabilityManifest = row.capabilityManifest) :
    ({ w with targets := update w.targets p f } : World).Inv :=
  { hi with
    targetIds := by
      show ((update w.targets p f).map RemoteTargetRegistration.targetId).Nodup
      rw [map_update _ fun row hrow hp => (hf row hrow hp).1]
      exact hi.targetIds
    top := by
      intro lease hlease
      obtain ⟨target, htarget, hid, hle⟩ := hi.top lease hlease
      cases hp : p target with
      | true =>
        obtain ⟨hid', hfencing, -⟩ := hf target htarget hp
        exact ⟨f target, mem_update.mpr (.inl ⟨target, htarget, hp, rfl⟩), hid'.trans hid,
          hle.trans hfencing⟩
      | false => exact ⟨target, mem_update.mpr (.inr ⟨htarget, hp⟩), hid, hle⟩
    room := by
      intro target htarget
      cases mem_update.mp htarget with
      | inl h =>
        obtain ⟨old, hold, hp, rfl⟩ := h
        obtain ⟨hid, -, hmanifest⟩ := hf old hold hp
        rw [hid, hmanifest]
        exact hi.room old hold
      | inr h => exact hi.room target h.1 }

/-- An update of leases that keeps whose they are. -/
theorem Inv.updateLeases (hi : w.Inv) {p : RemoteTargetLease → Bool}
    {f : RemoteTargetLease → RemoteTargetLease}
    (hf : ∀ row, (f row).leaseId = row.leaseId ∧ (f row).targetId = row.targetId ∧
      (f row).fencing = row.fencing) :
    ({ w with leases := update w.leases p f } : World).Inv := by
  have hmem : ∀ lease ∈ w.leases, ∃ lease' ∈ update w.leases p f, lease'.leaseId = lease.leaseId ∧
      lease'.targetId = lease.targetId ∧ lease'.fencing = lease.fencing := by
    intro lease hlease
    cases hp : p lease with
    | true => exact ⟨f lease, mem_update.mpr (.inl ⟨lease, hlease, hp, rfl⟩), hf lease⟩
    | false => exact ⟨lease, mem_update.mpr (.inr ⟨hlease, hp⟩), rfl, rfl, rfl⟩
  exact { hi with
    leaseIds := by
      show ((update w.leases p f).map RemoteTargetLease.leaseId).Nodup
      rw [map_update _ fun row _ _ => (hf row).1]
      exact hi.leaseIds
    fencing := by
      show (update w.leases p f).Pairwise _
      unfold update
      rw [List.pairwise_map]
      apply hi.fencing.imp
      intro a b hab heq
      have hkept : ∀ row : RemoteTargetLease, (if p row = true then f row else row).targetId = row.targetId ∧
          (if p row = true then f row else row).fencing = row.fencing := by
        intro row
        by_cases hp : p row = true
        · rw [if_pos hp]
          exact (hf row).2
        · rw [if_neg hp]
          exact ⟨rfl, rfl⟩
      rw [(hkept a).1, (hkept b).1] at heq
      rw [(hkept a).2, (hkept b).2]
      exact hab heq
    top := by
      intro lease hlease
      cases mem_update.mp hlease with
      | inl h =>
        obtain ⟨old, hold, -, rfl⟩ := h
        rw [(hf old).2.1, (hf old).2.2]
        exact hi.top old hold
      | inr h => exact hi.top lease h.1
    bound := by
      intro job hjob
      obtain ⟨lease, hlease, hid, htarget, hfencing⟩ := hi.bound job hjob
      obtain ⟨lease', hlease', hid', htarget', hfencing'⟩ := hmem lease hlease
      exact ⟨lease', hlease', hid'.trans hid, htarget'.trans htarget, hfencing'.trans hfencing⟩ }

/-- A target that is new has no leases, and no jobs. -/
theorem Inv.register (hi : w.Inv) {target : RemoteTargetRegistration}
    (hfresh : ∀ row ∈ w.targets, row.targetId ≠ target.targetId) :
    ({ w with targets := w.targets ++ [target] } : World).Inv :=
  { hi with
    targetIds := by
      show ((w.targets ++ [target]).map RemoteTargetRegistration.targetId).Nodup
      rw [List.map_append, List.nodup_append]
      refine ⟨hi.targetIds, List.nodup_singleton _, ?_⟩
      intro a ha b hb heq
      obtain ⟨row, hrow, rfl⟩ := List.mem_map.mp ha
      rw [List.map_singleton, List.mem_singleton] at hb
      exact hfresh row hrow (heq.trans hb)
    top := by
      intro lease hlease
      obtain ⟨row, hrow, h⟩ := hi.top lease hlease
      exact ⟨row, List.mem_append_left _ hrow, h⟩
    room := by
      intro row hrow
      cases List.mem_append.mp hrow with
      | inl hrow => exact hi.room row hrow
      | inr hrow =>
        obtain rfl := List.mem_singleton.mp hrow
        have hnone : w.activeCount row.targetId = 0 := by
          unfold activeCount
          rw [List.countP_eq_zero]
          intro job hjob hactive
          rw [Bool.and_eq_true, decide_eq_true_eq] at hactive
          obtain ⟨lease, hlease, -, htarget, -⟩ := hi.bound job hjob
          obtain ⟨other, hother, hid, -⟩ := hi.top lease hlease
          exact hfresh other hother (hid.trans (htarget.trans hactive.1))
        show w.activeCount row.targetId ≤ _
        omega }

/-- A lease with the next fencing number of its target. -/
theorem Inv.acquire (hi : w.Inv) {lease : RemoteTargetLease} {target : RemoteTargetRegistration}
    (hfound : w.target? lease.targetId = some target)
    (hfresh : ∀ row ∈ w.leases, row.leaseId ≠ lease.leaseId) :
    ({ w with
      targets := update w.targets (fun row => row.targetId = lease.targetId) fun row =>
        { row with fencing := target.fencing + 1 }
      leases := w.leases ++ [{ lease with fencing := target.fencing + 1, releasedAt := none }] } : World).Inv := by
  obtain ⟨htarget, htargetId⟩ := target_mem hfound
  have hraised := hi.updateTargets (p := fun row => row.targetId = lease.targetId)
    (f := fun row => { row with fencing := target.fencing + 1 }) (by
      intro row hrow hp
      have hsame : row = target := hi.target_unique hrow htarget ((of_decide_eq_true hp).trans htargetId.symm)
      refine ⟨rfl, ?_, rfl⟩
      rw [hsame]
      exact Nat.le_succ _)
  exact { hraised with
    leaseIds := by
      show ((w.leases ++ [_]).map RemoteTargetLease.leaseId).Nodup
      rw [List.map_append, List.nodup_append]
      refine ⟨hi.leaseIds, List.nodup_singleton _, ?_⟩
      intro a ha b hb heq
      obtain ⟨row, hrow, rfl⟩ := List.mem_map.mp ha
      rw [List.map_singleton, List.mem_singleton] at hb
      exact hfresh row hrow (heq.trans hb)
    fencing := by
      show (w.leases ++ [_]).Pairwise _
      rw [List.pairwise_append]
      refine ⟨hi.fencing, List.pairwise_singleton _ _, ?_⟩
      intro a ha b hb heq
      obtain rfl := List.mem_singleton.mp hb
      obtain ⟨row, hrow, hid, hle⟩ := hi.top a ha
      have hsame : row = target := hi.target_unique hrow htarget (hid.trans (heq.trans htargetId.symm))
      rw [hsame] at hle
      exact Nat.lt_succ_of_le hle
    top := by
      intro row hrow
      cases List.mem_append.mp hrow with
      | inl hrow => exact hraised.top row hrow
      | inr hrow =>
        obtain rfl := List.mem_singleton.mp hrow
        refine ⟨{ target with fencing := target.fencing + 1 }, mem_update.mpr (.inl ?_), htargetId,
          Nat.le_refl _⟩
        exact ⟨target, htarget, decide_eq_true htargetId, rfl⟩
    bound := by
      intro job hjob
      obtain ⟨row, hrow, h⟩ := hi.bound job hjob
      exact ⟨row, List.mem_append_left _ hrow, h⟩ }

/-! ### Jobs -/

/-- A job that is new, of a lease that there is. -/
theorem Inv.create (hi : w.Inv) {job : RemoteExecutionJob} (hqueued : job.status = .queued)
    {lease : RemoteTargetLease} (hlease : lease ∈ w.leases) (hof : job.isOf lease)
    {target : RemoteTargetRegistration} (hfound : w.target? job.targetId = some target)
    (hroom : w.activeCount job.targetId < target.capabilityManifest.maxConcurrentJobs)
    (hfresh : ∀ row ∈ w.jobs, row.jobId ≠ job.jobId) :
    ({ w with jobs := w.jobs ++ [job] } : World).Inv :=
  { hi with
    jobIds := by
      show ((w.jobs ++ [job]).map RemoteExecutionJob.jobId).Nodup
      rw [List.map_append, List.nodup_append]
      refine ⟨hi.jobIds, List.nodup_singleton _, ?_⟩
      intro a ha b hb heq
      obtain ⟨row, hrow, rfl⟩ := List.mem_map.mp ha
      rw [List.map_singleton, List.mem_singleton] at hb
      exact hfresh row hrow (heq.trans hb)
    bound := by
      intro row hrow
      cases List.mem_append.mp hrow with
      | inl hrow => exact hi.bound row hrow
      | inr hrow =>
        obtain rfl := List.mem_singleton.mp hrow
        exact ⟨lease, hlease, hof⟩
    room := by
      intro row hrow
      have hcount : ({ w with jobs := w.jobs ++ [job] } : World).activeCount row.targetId =
          w.activeCount row.targetId +
            [job].countP (fun job => job.targetId = row.targetId && job.status.isActive) :=
        List.countP_append
      rw [hcount]
      by_cases hid : job.targetId = row.targetId
      · obtain ⟨htarget, htargetId⟩ := target_mem hfound
        have hsame : row = target := hi.target_unique hrow htarget (hid.symm.trans htargetId.symm)
        have hone : [job].countP (fun job => job.targetId = row.targetId && job.status.isActive) ≤ 1 :=
          List.countP_le_length
        rw [hid, ← hsame] at hroom
        omega
      · have hnone : [job].countP (fun job => job.targetId = row.targetId && job.status.isActive) = 0 := by
          rw [List.countP_eq_zero]
          intro other hother hactive
          obtain rfl := List.mem_singleton.mp hother
          rw [Bool.and_eq_true, decide_eq_true_eq] at hactive
          exact hid hactive.1
        have hle := hi.room row hrow
        omega
    recorded := by
      intro e he
      obtain ⟨row, hrow, hbecomes⟩ := hi.recorded e he
      exact ⟨row, List.mem_append_left _ hrow, hbecomes⟩
    result := by
      intro r hr
      obtain ⟨row, hrow, h⟩ := hi.result r hr
      exact ⟨row, List.mem_append_left _ hrow, h⟩
    settled := by
      intro row hrow hterminal
      cases List.mem_append.mp hrow with
      | inl hrow => exact hi.settled row hrow hterminal
      | inr hrow =>
        obtain rfl := List.mem_singleton.mp hrow
        rw [hqueued] at hterminal
        exact nomatch hterminal }

theorem start_becomes {job : RemoteExecutionJob} (now : Instant) (hqueued : job.status = .queued) :
    job.Becomes { job with status := .running, startedAt := some now } := by
  refine ⟨rfl, rfl, rfl, rfl, rfl, rfl, ?_, ?_⟩
  · rw [hqueued]
    exact Nat.zero_le _
  · intro hterminal
    rw [hqueued] at hterminal
    exact nomatch hterminal

theorem cancel_becomes {job : RemoteExecutionJob} (now : Instant) (hqueued : job.status = .queued) :
    job.Becomes { job with
      status := .cancelled, cancellationRequested := true, finishedAt := some now } := by
  refine ⟨rfl, rfl, rfl, rfl, rfl, rfl, ?_, ?_⟩
  · rw [hqueued]
    exact Nat.zero_le _
  · intro hterminal
    rw [hqueued] at hterminal
    exact nomatch hterminal

theorem request_becomes {job : RemoteExecutionJob} (hactive : job.status.isActive = true) :
    job.Becomes { job with cancellationRequested := true } := by
  refine ⟨rfl, rfl, rfl, rfl, rfl, rfl, Nat.le_refl _, ?_⟩
  intro hterminal
  rw [RemoteJobStatus.isActive_iff, RemoteJobStatus.rank_of_terminal hterminal] at hactive
  omega

/-! ### Reconciliation -/

/-- A job is closed. -/
def closeJob (w : World) (now : Instant) (job : RemoteExecutionJob) : World :=
  ({ w with results := w.results ++ [closing job now] } : World).updateJobs true
    (fun row => row.jobId = job.jobId) fun row =>
      { row with status := (closing job now).status, finishedAt := some now }

theorem closing_jobId (job : RemoteExecutionJob) (now : Instant) : (closing job now).jobId = job.jobId := by
  unfold closing
  split <;> rfl

/-- What closing one job keeps, closing them all keeps. -/
theorem closeJobs_keep {P : World → Prop} {now : Instant} {rows : List RemoteExecutionJob}
    (hP : ∀ w : World, ∀ job ∈ rows, P w → job ∈ w.jobs →
      (∀ row ∈ w.results, row.jobId ≠ job.jobId) → P (w.closeJob now job))
    (hids : (rows.map RemoteExecutionJob.jobId).Nodup) (hrows : ∀ job ∈ rows, job ∈ w.jobs)
    (hw : P w) (h : closeJobs now rows w = .ok w') : P w' := by
  induction rows generalizing w with
  | nil =>
    cases h
    exact hw
  | cons job rest ih =>
    obtain ⟨w₁, hinsert, h⟩ := ok_of_bind h
    obtain ⟨hfresh, rfl⟩ := insertResult_ok hinsert
    rw [closing_jobId] at hfresh
    rw [List.map_cons, List.nodup_cons] at hids
    have hjob := hrows job (List.mem_cons_self ..)
    have hone := hP w job (List.mem_cons_self ..) hw hjob hfresh
    apply ih (fun w job hjob => hP w job (List.mem_cons_of_mem _ hjob)) hids.2 ?_ hone h
    intro row hrow
    apply mem_update.mpr
    right
    refine ⟨hrows row (List.mem_cons_of_mem _ hrow), decide_eq_false fun hid => hids.1 ?_⟩
    rw [← hid]
    exact List.mem_map_of_mem hrow

/-- The rows that are reconciled. -/
theorem stranded_rows (hi : w.Inv) (now : Instant) :
    ((page RemoteExecutionJob.key (w.isStranded now) w.jobs w.jobs.length).map
        RemoteExecutionJob.jobId).Nodup ∧
      ∀ job ∈ page RemoteExecutionJob.key (w.isStranded now) w.jobs w.jobs.length,
        job ∈ w.jobs ∧ w.isStranded now job = true :=
  ⟨nodup_map_page hi.jobIds, fun _ hjob => of_mem_page hjob⟩

theorem stranded_active {now : Instant} {job : RemoteExecutionJob} (h : w.isStranded now job = true) :
    job.status.isActive = true := by
  unfold isStranded at h
  rw [Bool.and_eq_true] at h
  exact h.1

theorem closeJob_inv (hi : w.Inv) {job : RemoteExecutionJob} (now : Instant) (hjob : job ∈ w.jobs)
    (hactive : job.status.isActive = true) (hfresh : ∀ row ∈ w.results, row.jobId ≠ job.jobId) :
    (w.closeJob now job).Inv ∧ w.Grows (w.closeJob now job) := by
  have hid := closing_jobId job now
  unfold closeJob
  rw [← hid] at hfresh ⊢
  constructor
  · exact hi.finish hjob hactive hid hfresh now
  · refine ⟨fun row hrow => becomes_update ?_ hrow, _, rfl⟩
    intro other hother hp
    have hsame : other = job := hi.job_unique hother hjob ((of_decide_eq_true hp).trans hid)
    rw [hsame]
    exact finish_becomes hactive _ now

theorem closed_inv (hi : w.Inv) {now : Instant}
    (h : closeJobs now (page RemoteExecutionJob.key (w.isStranded now) w.jobs w.jobs.length) w = .ok w') :
    w'.Inv ∧ w.Grows w' := by
  obtain ⟨hids, hrows⟩ := stranded_rows hi now
  apply closeJobs_keep (P := fun w' => w'.Inv ∧ w.Grows w') ?_ hids (fun job hjob => (hrows job hjob).1)
    ⟨hi, .refl w⟩ h
  intro w₁ job hjob hw₁ hmem hfresh
  obtain ⟨hinv, hgrows⟩ := closeJob_inv hw₁.1 now hmem (stranded_active (hrows job hjob).2) hfresh
  exact ⟨hinv, hw₁.2.trans hgrows⟩

/-! ### All calls -/

end World

/-- A job that the call creates is queued, as the controller creates it. -/
def Call.createsQueued : Call → Bool
  | .createJob job _ _ => job.status = .queued
  | _ => true

namespace World

variable {w w' : World}

theorem active_of_running {status : RemoteJobStatus} (h : status = .running ∨ status = .leased) :
    status.isActive = true := by
  cases h with
  | inl h => rw [h]; rfl
  | inr h => rw [h]; rfl

theorem Moved.inv {c : Call} (h : w.Moved c w') (hi : w.Inv) (hc : c.createsQueued = true) :
    w'.Inv ∧ w.Grows w' := by
  cases h with
  | idle c w' same =>
    refine ⟨hi.same same, fun job hjob => ⟨job, ?_, .refl job⟩, [], ?_⟩
    · rw [same.jobs]
      exact hjob
    · rw [same.history, List.append_nil]
  | registered target fresh => exact ⟨hi.register fresh, (Grows.refl w).jobs, (Grows.refl w).history⟩
  | online targetId key =>
    exact ⟨hi.updateTargets fun _ _ _ => ⟨rfl, Nat.le_refl _, rfl⟩, (Grows.refl w).jobs,
      (Grows.refl w).history⟩
  | acquired lease now target found ended fresh =>
    exact ⟨hi.acquire found fresh, (Grows.refl w).jobs, (Grows.refl w).history⟩
  | renewed ref now expiresAt live =>
    exact ⟨hi.updateLeases fun _ => ⟨rfl, rfl, rfl⟩, (Grows.refl w).jobs, (Grows.refl w).history⟩
  | released ref now live =>
    exact ⟨hi.updateLeases fun _ => ⟨rfl, rfl, rfl⟩, (Grows.refl w).jobs, (Grows.refl w).history⟩
  | created job leaseToken now target live found room fresh =>
    obtain ⟨lease, hlease, hid, htarget, -, hfencing, -⟩ := live.lease
    constructor
    · have hqueued : ({ job with startedAt := none, finishedAt := none } : RemoteExecutionJob).status =
          .queued := of_decide_eq_true hc
      exact hi.create hqueued hlease ⟨hid, htarget, hfencing⟩ found room fresh
    · exact ⟨fun row hrow => ⟨row, List.mem_append_left _ hrow, .refl row⟩, (Grows.refl w).history⟩
  | started ref now limit seen ids live claimable =>
    have hqueued : ∀ job : RemoteExecutionJob,
        (decide (job.jobId ∈ ids) && decide (job.status = .queued)) = true → job.status = .queued := by
      intro job hp
      rw [Bool.and_eq_true, decide_eq_true_eq, decide_eq_true_eq] at hp
      exact hp.2
    constructor
    · exact hi.updateJobs (fun job _ hp => start_becomes now (hqueued job hp))
        fun job _ _ hterminal => nomatch hterminal
    · exact grows_updateJobs fun job _ hp => start_becomes now (hqueued job hp)
  | completed result ref now observation lost job live found under running fresh =>
    obtain ⟨hjob, hid⟩ := job_mem found
    have hactive := active_of_running running
    constructor
    · exact hi.finish hjob hactive hid.symm fresh result.completedAt
    · refine ⟨fun row hrow => becomes_update ?_ hrow, _, rfl⟩
      intro other hother hp
      have hsame : other = job := hi.job_unique hother hjob ((of_decide_eq_true hp).trans hid.symm)
      rw [hsame]
      exact finish_becomes hactive result _
  | cancelled jobId now job found queued =>
    obtain ⟨hjob, hid⟩ := job_mem found
    have honly : ∀ row ∈ w.jobs, decide (row.jobId = jobId) = true → row.status = .queued := by
      intro row hrow hp
      rw [hi.job_unique hrow hjob ((of_decide_eq_true hp).trans hid.symm)]
      exact queued
    constructor
    · exact hi.updateJobs (fun row hrow hp => cancel_becomes now (honly row hrow hp))
        fun row hrow hp _ => ⟨honly row hrow hp, rfl⟩
    · exact grows_updateJobs fun row hrow hp => cancel_becomes now (honly row hrow hp)
  | requested jobId now job found running =>
    obtain ⟨hjob, hid⟩ := job_mem found
    have honly : ∀ row ∈ w.jobs, decide (row.jobId = jobId) = true → row.status.isActive = true := by
      intro row hrow hp
      rw [hi.job_unique hrow hjob ((of_decide_eq_true hp).trans hid.symm)]
      exact active_of_running running
    constructor
    · apply hi.updateJobs (fun row hrow hp => request_becomes (honly row hrow hp))
      intro row hrow hp hterminal
      have hactive := honly row hrow hp
      rw [RemoteJobStatus.isActive_iff, RemoteJobStatus.rank_of_terminal hterminal] at hactive
      omega
    · exact grows_updateJobs fun row hrow hp => request_becomes (honly row hrow hp)
  | closed now w' closes => exact closed_inv hi closes

theorem exec_inv (hi : w.Inv) {c : Call} (hc : c.createsQueued = true) :
    (w.exec c).2.Inv ∧ w.Grows (w.exec c).2 := (exec_moved w c).inv hi hc

end World

/-- The invariant holds after any calls, and later ones only add to what they have done. -/
theorem called_inv {calls : List Call} (h : ∀ c ∈ calls, c.createsQueued = true) : (called calls).Inv := by
  unfold called
  induction calls using List.reverseRecOn with
  | nil => exact World.inv_empty
  | append_singleton calls c ih =>
    rw [List.foldl_append]
    have hbefore := ih fun c hc => h c (List.mem_append_left _ hc)
    exact (World.exec_inv hbefore (h c (List.mem_append_right _ (List.mem_singleton_self c)))).1

theorem called_grows {calls more : List Call} (h : ∀ c ∈ calls ++ more, c.createsQueued = true) :
    (called calls).Grows (called (calls ++ more)) := by
  induction more using List.reverseRecOn with
  | nil =>
    rw [List.append_nil]
    exact .refl _
  | append_singleton more c ih =>
    rw [← List.append_assoc] at h ⊢
    have hbefore : ∀ c ∈ calls ++ more, c.createsQueued = true := fun c hc => h c (List.mem_append_left _ hc)
    have hgrows := ih hbefore
    have hstep := (World.exec_inv (called_inv hbefore)
      (h c (List.mem_append_right _ (List.mem_singleton_self c)))).2
    have hcalled : called (calls ++ more ++ [c]) = ((called (calls ++ more)).exec c).2 := by
      unfold called
      rw [List.foldl_append]
      rfl
    rw [hcalled]
    exact hgrows.trans hstep

end Operant.RemoteExecution
