import Operant.RemoteExecution.Store

/-! What a call does to the tables.

`Moved` says it once, call by call, with everything the call has checked. -/
namespace Operant.RemoteExecution
open Operant.Tables Operant.Calls
open Operant.Scheduler (Instant)

/-- The job was created under the lease. -/
def RemoteExecutionJob.isUnder (job : RemoteExecutionJob) (ref : LeaseRef) : Prop :=
  job.targetId = ref.targetId ∧ job.leaseId = ref.leaseId ∧ job.leaseFencing = ref.fencing

/-- The lease is the target's last one, neither released nor expired, and the token is its. -/
structure World.Live (w : World) (ref : LeaseRef) (now : Instant) : Prop where
  lease : ∃ lease ∈ w.leases, lease.leaseId = ref.leaseId ∧ lease.targetId = ref.targetId ∧
    lease.token = ref.token ∧ lease.fencing = ref.fencing ∧ lease.isLive now = true
  target : ∃ target, w.target? ref.targetId = some target ∧ target.fencing = ref.fencing ∧
    target.status = .online

theorem requireLiveLease_ok {w : World} {ref : LeaseRef} {now : Instant} {lease : RemoteTargetLease}
    (h : w.requireLiveLease ref now = .ok lease) : w.Live ref now := by
  unfold World.requireLiveLease at h
  split at h
  · exact nomatch h
  · rename_i row hrow
    split at h
    · exact nomatch h
    · rename_i hstale
      split at h
      · exact nomatch h
      · rename_i target htarget
        split at h
        · exact nomatch h
        · rename_i hfenced
          rw [not_or, not_not, not_not] at hfenced
          rw [not_or, not_or, not_or, not_not, not_not, not_not, not_le] at hstale
          obtain ⟨htoken, hfencing, hreleased, hexpires⟩ := hstale
          have hids := List.find?_some hrow
          rw [Bool.and_eq_true, decide_eq_true_eq, decide_eq_true_eq] at hids
          refine ⟨⟨row, List.mem_of_find?_eq_some hrow, hids.1, hids.2, htoken, hfencing, ?_⟩, target,
            htarget, hfenced⟩
          unfold RemoteTargetLease.isLive
          simp [hreleased, hexpires]

namespace World

/-- The tables are the same. -/
structure Same (w w' : World) : Prop where
  targets : w'.targets = w.targets
  leases : w'.leases = w.leases
  jobs : w'.jobs = w.jobs
  results : w'.results = w.results
  history : w'.history = w.history

theorem Same.refl (w : World) : w.Same w := ⟨rfl, rfl, rfl, rfl, rfl⟩

/-- What is left of a call. -/
inductive Moved (w : World) : Call → World → Prop
  | idle (c : Call) (w' : World) (same : w.Same w') : Moved w c w'
  | registered (target : RemoteTargetRegistration)
      (fresh : ∀ row ∈ w.targets, row.targetId ≠ target.targetId) :
      Moved w (.registerTarget target) { w with targets := w.targets ++ [target] }
  | online (targetId identityPublicKey : String) :
      Moved w (.heartbeatTarget targetId identityPublicKey) { w with
        targets := update w.targets (fun row => row.targetId = targetId) fun row =>
          { row with status := .online } }
  | acquired (lease : RemoteTargetLease) (now : Instant) (target : RemoteTargetRegistration)
      (found : w.target? lease.targetId = some target)
      (ended : ∀ row ∈ w.leases, row.targetId = lease.targetId → row.isLive now = false)
      (fresh : ∀ row ∈ w.leases, row.leaseId ≠ lease.leaseId) :
      Moved w (.acquireLease lease now) { w with
        targets := update w.targets (fun row => row.targetId = lease.targetId) fun row =>
          { row with fencing := target.fencing + 1 }
        leases := w.leases ++ [{ lease with fencing := target.fencing + 1, releasedAt := none }] }
  | renewed (ref : LeaseRef) (now expiresAt : Instant) (live : w.Live ref now) :
      Moved w (.renewLease ref now expiresAt) { w with
        leases := update w.leases (fun row => row.leaseId = ref.leaseId) fun row =>
          { row with expiresAt := expiresAt } }
  | released (ref : LeaseRef) (now : Instant) (live : w.Live ref now) :
      Moved w (.releaseLease ref now) { w with
        leases := update w.leases (fun row => row.leaseId = ref.leaseId) fun row =>
          { row with releasedAt := some now } }
  | created (job : RemoteExecutionJob) (leaseToken : String) (now : Instant)
      (target : RemoteTargetRegistration)
      (live : w.Live ⟨job.targetId, job.leaseId, leaseToken, job.leaseFencing⟩ now)
      (found : w.target? job.targetId = some target)
      (room : w.activeCount job.targetId < target.capabilityManifest.maxConcurrentJobs)
      (fresh : ∀ row ∈ w.jobs, row.jobId ≠ job.jobId) :
      Moved w (.createJob job leaseToken now) { w with
        jobs := w.jobs ++ [{ job with startedAt := none, finishedAt := none }] }
  | started (ref : LeaseRef) (now : Instant) (limit : Nat) (seen ids : List String)
      (live : w.Live ref now)
      (claimable : ∀ id ∈ ids, ∃ job ∈ w.jobs, job.jobId = id ∧ World.claimable ref job = true) :
      Moved w (.pollJobs ref now limit seen)
        (w.updateJobs false (fun job => job.jobId ∈ ids && job.status = .queued) fun job =>
          { job with status := .running, startedAt := some now })
  | completed (result : RemoteExecutionResult) (ref : LeaseRef) (now : Instant)
      (observation : Option (CapabilityObservation × ObservationSource)) (lost : Bool)
      (job : RemoteExecutionJob) (live : w.Live ref now) (found : w.job? result.jobId = some job)
      (under : job.isUnder ref) (running : job.status = .running ∨ job.status = .leased)
      (fresh : ∀ row ∈ w.results, row.jobId ≠ result.jobId) :
      Moved w (.completeJob result ref now observation lost)
        (({ w with results := w.results ++ [result] } : World).updateJobs lost
          (fun row => row.jobId = result.jobId) fun row =>
            { row with status := result.status, finishedAt := some result.completedAt })
  | cancelled (jobId : String) (now : Instant) (job : RemoteExecutionJob)
      (found : w.job? jobId = some job) (queued : job.status = .queued) :
      Moved w (.cancelJob jobId now)
        (w.updateJobs false (fun row => row.jobId = jobId) fun row =>
          { row with status := .cancelled, cancellationRequested := true, finishedAt := some now })
  | requested (jobId : String) (now : Instant) (job : RemoteExecutionJob)
      (found : w.job? jobId = some job) (running : job.status = .running ∨ job.status = .leased) :
      Moved w (.cancelJob jobId now)
        (w.updateJobs false (fun row => row.jobId = jobId) fun row =>
          { row with cancellationRequested := true })
  | closed (now : Instant) (w' : World)
      (closes : closeJobs now (page RemoteExecutionJob.key (w.isStranded now) w.jobs w.jobs.length) w =
        .ok w') :
      Moved w (.reconcileExpired now) w'

variable {w w' : World}

/-! ### Call by call -/

theorem registerTarget_moved {target reply : RemoteTargetRegistration}
    (h : w.registerTarget target = .ok (reply, w')) : w.Moved (.registerTarget target) w' := by
  unfold registerTarget at h
  split at h
  · split at h
    · cases h
      exact .idle _ _ (.refl w)
    · exact nomatch h
  · rename_i hnone
    cases h
    apply Moved.registered
    intro row hrow heq
    have hne := List.find?_eq_none.mp hnone row hrow
    exact hne (decide_eq_true heq)

theorem heartbeatTarget_moved {targetId key : String} {reply : RemoteTargetRegistration}
    (h : w.heartbeatTarget targetId key = .ok (reply, w')) :
    w.Moved (.heartbeatTarget targetId key) w' := by
  unfold heartbeatTarget at h
  split at h
  · exact nomatch h
  · split at h
    · exact nomatch h
    · split at h
      · exact nomatch h
      · cases h
        exact .online targetId key

theorem acquireLease_moved {lease reply : RemoteTargetLease} {now : Instant}
    (h : w.acquireLease lease now = .ok (reply, w')) : w.Moved (.acquireLease lease now) w' := by
  unfold acquireLease at h
  split at h
  · exact nomatch h
  · rename_i target htarget
    split at h
    · exact nomatch h
    · split at h
      · exact nomatch h
      · rename_i hended
        split at h
        · exact nomatch h
        · rename_i hfresh
          cases h
          apply Moved.acquired lease now target htarget
          · intro row hrow htargetId
            rw [Bool.not_eq_true, List.any_eq_false] at hended
            have hrow := hended row hrow
            rw [Bool.and_eq_true, not_and, decide_eq_true_eq, Bool.not_eq_true] at hrow
            exact hrow htargetId
          · intro row hrow hleaseId
            rw [Bool.not_eq_true, List.any_eq_false] at hfresh
            have hrow := hfresh row hrow
            rw [Bool.or_eq_true, not_or, decide_eq_true_eq] at hrow
            exact hrow.1 hleaseId

theorem renewLease_moved {ref : LeaseRef} {now expiresAt : Instant} {reply : RemoteTargetLease}
    (h : w.renewLease ref now expiresAt = .ok (reply, w')) :
    w.Moved (.renewLease ref now expiresAt) w' := by
  unfold renewLease at h
  split at h
  · exact nomatch h
  · obtain ⟨row, hlive, h⟩ := ok_of_bind h
    cases h
    exact .renewed ref now expiresAt (requireLiveLease_ok hlive)

theorem releaseLease_moved {ref : LeaseRef} {now : Instant} {reply : RemoteTargetLease}
    (h : w.releaseLease ref now = .ok (reply, w')) : w.Moved (.releaseLease ref now) w' := by
  unfold releaseLease at h
  obtain ⟨row, hlive, h⟩ := ok_of_bind h
  cases h
  exact .released ref now (requireLiveLease_ok hlive)

theorem createJob_moved {job reply : RemoteExecutionJob} {leaseToken : String} {now : Instant}
    (h : w.createJob job leaseToken now = .ok (reply, w')) :
    w.Moved (.createJob job leaseToken now) w' := by
  unfold createJob at h
  obtain ⟨row, hlive, h⟩ := ok_of_bind h
  split at h
  · split at h
    · exact nomatch h
    · cases h
      exact .idle _ _ (.refl w)
  · split at h
    · exact nomatch h
    · rename_i target htarget
      dsimp only at h
      split at h
      · exact nomatch h
      · split at h
        · exact nomatch h
        · split at h
          · exact nomatch h
          · split at h
            · exact nomatch h
            · rename_i hroom
              split at h
              · exact nomatch h
              · rename_i hfresh
                cases h
                apply Moved.created job leaseToken now target (requireLiveLease_ok hlive) htarget
                · omega
                · intro row hrow hjobId
                  unfold refusesJob at hfresh
                  rw [Bool.or_eq_true, not_or, Bool.not_eq_true, List.any_eq_false] at hfresh
                  have hrow := hfresh.1 row hrow
                  rw [Bool.or_eq_true, not_or, decide_eq_true_eq] at hrow
                  exact hrow.1 hjobId

theorem pollJobs_moved {ref : LeaseRef} {now : Instant} {limit : Nat} {seen : List String}
    {reply : List RemoteExecutionJob} (h : w.pollJobs ref now limit = .ok (reply, w')) :
    w.Moved (.pollJobs ref now limit seen) w' := by
  unfold pollJobs at h
  split at h
  · exact nomatch h
  · obtain ⟨row, hlive, h⟩ := ok_of_bind h
    cases h
    apply Moved.started ref now limit seen _ (requireLiveLease_ok hlive)
    intro id hid
    obtain ⟨job, hjob, heq⟩ := List.mem_map.mp hid
    obtain ⟨hmem, hclaimable⟩ := of_mem_page hjob
    exact ⟨job, hmem, heq, hclaimable⟩

theorem insertResult_ok {result : RemoteExecutionResult} (h : w.insertResult result = .ok w') :
    (∀ row ∈ w.results, row.jobId ≠ result.jobId) ∧ w' = { w with results := w.results ++ [result] } := by
  unfold insertResult at h
  split at h
  · exact nomatch h
  · rename_i hfresh
    cases h
    refine ⟨fun row hrow hjobId => ?_, rfl⟩
    rw [Bool.not_eq_true, List.any_eq_false] at hfresh
    have hrow := hfresh row hrow
    rw [Bool.or_eq_true, not_or, decide_eq_true_eq] at hrow
    exact hrow.1 hjobId

theorem completeJob_moved {result reply : RemoteExecutionResult} {ref : LeaseRef} {now : Instant}
    {observation : Option (CapabilityObservation × ObservationSource)} {lost : Bool}
    (h : w.completeJob result ref now observation lost = .ok (reply, w')) :
    w.Moved (.completeJob result ref now observation lost) w' := by
  unfold completeJob at h
  split at h
  · exact nomatch h
  · obtain ⟨row, hlive, h⟩ := ok_of_bind h
    split at h
    · exact nomatch h
    · rename_i job hjob
      split at h
      · exact nomatch h
      · rename_i hunder
        rw [not_or, not_or, not_not, not_not, not_not] at hunder
        split at h
        · split at h
          · exact nomatch h
          · cases h
            exact .idle _ _ (.refl w)
        · split at h
          · exact nomatch h
          · rename_i hrunning
            obtain ⟨w₁, hinsert, h⟩ := ok_of_bind h
            obtain ⟨hfresh, rfl⟩ := insertResult_ok hinsert
            cases h
            apply Moved.completed result ref now observation lost job (requireLiveLease_ok hlive) hjob
              hunder ?_ hfresh
            by_cases hstatus : job.status = .running
            · exact .inl hstatus
            · right
              by_contra hleased
              exact hrunning ⟨hstatus, hleased⟩

theorem cancelJob_moved {jobId : String} {now : Instant} {reply : RemoteExecutionJob}
    (h : w.cancelJob jobId now = .ok (reply, w')) : w.Moved (.cancelJob jobId now) w' := by
  unfold cancelJob at h
  split at h
  · exact nomatch h
  · rename_i job hjob
    dsimp only at h
    split at h
    · exact nomatch h
    · cases h
      split
      · rename_i hstatus
        exact .cancelled jobId now job hjob hstatus
      · rename_i hstatus
        exact .requested jobId now job hjob (.inr hstatus)
      · rename_i hstatus
        exact .requested jobId now job hjob (.inl hstatus)
      all_goals exact .idle _ _ (.refl w)

theorem reconcileExpired_moved {now : Instant} {reply : List RemoteExecutionJob}
    (h : w.reconcileExpired now = .ok (reply, w')) : w.Moved (.reconcileExpired now) w' := by
  unfold reconcileExpired at h
  obtain ⟨w₁, hcloses, h⟩ := ok_of_bind h
  cases h
  exact .closed now w' hcloses

theorem found_world {α : Type} {row : Option α} {reply : α} (h : w.found row = .ok (reply, w')) :
    w' = w := by
  unfold found at h
  split at h
  · exact nomatch h
  · cases h
    rfl

theorem map_world {α β : Type} {x : Except Raised α} {f : α → β} {reply : β}
    (h : (x.map fun a => (f a, w)) = .ok (reply, w')) : w' = w := by
  cases x with
  | error e => exact nomatch h
  | ok a =>
    cases h
    rfl

theorem answer_moved (c : Call) {reply : Reply c} (h : w.answer c = .ok (reply, w')) : w.Moved c w' := by
  cases c with
  | outside f =>
    cases h
    exact .idle _ _ ⟨rfl, rfl, rfl, rfl, rfl⟩
  | recordAction actionHash =>
    cases h
    exact .idle _ _ ⟨rfl, rfl, rfl, rfl, rfl⟩
  | registerTarget target => exact registerTarget_moved h
  | heartbeatTarget targetId key => exact heartbeatTarget_moved h
  | acquireLease lease now => exact acquireLease_moved h
  | renewLease ref now expiresAt => exact renewLease_moved h
  | releaseLease ref now => exact releaseLease_moved h
  | createJob job leaseToken now => exact createJob_moved h
  | pollJobs ref now limit seen => exact pollJobs_moved h
  | completeJob result ref now observation lost => exact completeJob_moved h
  | cancelJob jobId now => exact cancelJob_moved h
  | reconcileExpired now => exact reconcileExpired_moved h
  | getTarget targetId =>
    obtain rfl := found_world h
    exact .idle _ _ (.refl _)
  | getJob jobId =>
    obtain rfl := found_world h
    exact .idle _ _ (.refl _)
  | authorize =>
    have hsame : w' = w := map_world (f := fun _ => ()) h
    rw [hsame]
    exact .idle _ _ (.refl w)
  | execute job =>
    have hsame : w' = w := map_world (f := id) h
    rw [hsame]
    exact .idle _ _ (.refl w)
  | getResult | unknownsOnLease | recordObservation | completeActionReceipt | monotonic =>
    cases h
    exact .idle _ _ (.refl _)

theorem exec_moved (w : World) (c : Call) : w.Moved c (w.exec c).2 := by
  unfold exec
  split
  · exact .idle _ _ (.refl w)
  · split
    · rename_i reply w' h
      exact answer_moved c h
    · exact .idle _ _ (.refl w)

end World
end Operant.RemoteExecution
