import Operant.RemoteExecution.Preserved

/-! Jobs run once, under one live lease.

A lease's fencing number is the authority: a clock that goes back may find the row of a superseded
lease unexpired again, but nothing is accepted under it. -/
namespace Operant.RemoteExecution
open Operant.Tables Operant.Calls
open Operant.Scheduler (Instant seconds)

namespace World
variable {w w' : World}

/-! ### Leases -/

/-- By this time, the leases of a target have ended, but for the last one. -/
def SupersededEnded (w : World) (targetId : String) (now : Instant) : Prop :=
  w.leases.Pairwise fun a b => a.targetId = targetId → b.targetId = targetId → a.isLive now = false

theorem isLive_later {lease : RemoteTargetLease} {now later : Instant} (h : lease.isLive now = false)
    (hle : now ≤ later) : lease.isLive later = false := by
  unfold RemoteTargetLease.isLive at h ⊢
  rw [Bool.and_eq_false_iff] at h ⊢
  cases h with
  | inl hreleased => exact .inl hreleased
  | inr hexpired =>
    right
    rw [decide_eq_false_iff_not, not_lt] at hexpired ⊢
    exact hexpired.trans hle

/-- Only the row of the lease that is live is written. -/
theorem supersededEnded_update (hi : w.Inv) {ref : LeaseRef} {clock : Instant} (live : w.Live ref clock)
    {f : RemoteTargetLease → RemoteTargetLease} (hf : ∀ row, (f row).targetId = row.targetId)
    {targetId : String} {now : Instant} (h : w.SupersededEnded targetId now) :
    ({ w with leases := update w.leases (fun row => row.leaseId = ref.leaseId) f } :
      World).SupersededEnded targetId now := by
  obtain ⟨lease, hlease, hid, htarget, -, hfencing, -⟩ := live.lease
  obtain ⟨target, hfound, htop, -⟩ := live.target
  have hkept : ∀ row : RemoteTargetLease,
      (if decide (row.leaseId = ref.leaseId) = true then f row else row).targetId = row.targetId := by
    intro row
    split
    · exact hf row
    · rfl
  show (update w.leases _ f).Pairwise _
  unfold update
  rw [List.pairwise_map]
  apply (h.and hi.fencing).imp_of_mem
  intro a b ha hb hab hatarget hbtarget
  rw [hkept] at hatarget hbtarget
  have hrow : ¬decide (a.leaseId = ref.leaseId) = true := by
    intro hp
    -- The row before another one of its target is not the last.
    have hsame : a = lease := hi.lease_unique ha hlease ((of_decide_eq_true hp).trans hid.symm)
    have hlt := hab.2 (hatarget.trans hbtarget.symm)
    obtain ⟨hmem, htargetId⟩ := target_mem hfound
    obtain ⟨row, hrow, hrowId, hle⟩ := hi.top b hb
    have hsameTarget : row = target := by
      apply hi.target_unique hrow hmem
      rw [hrowId, htargetId, ← htarget, ← hsame, hatarget, hbtarget]
    rw [hsameTarget, htop] at hle
    rw [hsame, hfencing] at hlt
    omega
  rw [if_neg hrow]
  exact hab.1 hatarget hbtarget

theorem supersededEnded_exec (hi : w.Inv) {c : Call} {targetId : String} {now : Instant}
    (hc : ∀ lease clock, c = .acquireLease lease clock → lease.targetId = targetId → clock ≤ now)
    (h : w.SupersededEnded targetId now) : (w.exec c).2.SupersededEnded targetId now := by
  have hmoved := exec_moved w c
  revert hmoved
  generalize (w.exec c).2 = w'
  intro hmoved
  cases hmoved with
  | idle c w' same =>
    unfold SupersededEnded
    rw [same.leases]
    exact h
  | acquired lease clock target found ended fresh =>
    show (w.leases ++ [_]).Pairwise _
    rw [List.pairwise_append]
    refine ⟨h, List.pairwise_singleton _ _, ?_⟩
    intro a ha b hb hatarget hbtarget
    obtain rfl := List.mem_singleton.mp hb
    exact isLive_later (ended a ha (hatarget.trans hbtarget.symm)) (hc lease clock rfl hbtarget)
  | renewed ref clock expiresAt live =>
    apply supersededEnded_update hi live ?_ h
    intro row
    rfl
  | released ref clock live =>
    apply supersededEnded_update hi live ?_ h
    intro row
    rfl
  | registered | online | created | started | completed | cancelled | requested => exact h
  | closed clock w' closes =>
    obtain ⟨hids, hrows⟩ := stranded_rows hi clock
    exact closeJobs_keep (P := fun w' => w'.SupersededEnded targetId now) (fun _ _ _ h _ _ => h) hids
      (fun job hjob => (hrows job hjob).1) h closes

/-- A list in which no two entries can stand together. -/
theorem length_le_one {α : Type} {l : List α} (h : l.Pairwise fun _ _ => False) : l.length ≤ 1 := by
  match l, h with
  | [], _ => exact Nat.zero_le 1
  | [_], _ => exact Nat.le_refl 1
  | _ :: b :: _, h => exact ((List.pairwise_cons.mp h).1 b (List.mem_cons_self ..)).elim

theorem SupersededEnded.length_le {targetId : String} {now : Instant}
    (h : w.SupersededEnded targetId now) :
    (w.leases.filter fun lease => lease.targetId = targetId && lease.isLive now).length ≤ 1 := by
  apply length_le_one
  rw [List.pairwise_filter]
  apply h.imp
  intro a b hab ha hb
  rw [Bool.and_eq_true, decide_eq_true_eq] at ha hb
  rw [hab ha.1 hb.1] at ha
  cases ha.2

/-- A target gives a fencing number once. -/
theorem Inv.numbers (hi : w.Inv) : (w.leases.map fun lease => (lease.targetId, lease.fencing)).Nodup := by
  rw [List.nodup_iff_pairwise_ne, List.pairwise_map]
  apply hi.fencing.imp
  intro a b hab heq
  obtain ⟨htarget, hfencing⟩ := Prod.mk.inj heq
  exact Nat.ne_of_lt (hab htarget) hfencing

/-- One lease of a target is accepted, whatever the clocks say. -/
theorem live_unique (hi : w.Inv) {ref ref' : LeaseRef} {now now' : Instant} (h : w.Live ref now)
    (h' : w.Live ref' now') (heq : ref.targetId = ref'.targetId) : ref = ref' := by
  obtain ⟨lease, hlease, hid, htarget, htoken, hfencing, -⟩ := h.lease
  obtain ⟨lease', hlease', hid', htarget', htoken', hfencing', -⟩ := h'.lease
  obtain ⟨target, hfound, htop, -⟩ := h.target
  obtain ⟨target', hfound', htop', -⟩ := h'.target
  rw [heq, hfound'] at hfound
  have hsameTarget : target' = target := Option.some.inj hfound
  have hnumber : ref.fencing = ref'.fencing := by rw [← htop, ← htop', hsameTarget]
  have hsame : lease = lease' := by
    apply eq_of_key hi.numbers hlease hlease'
    rw [htarget, htarget', heq, hfencing, hfencing', hnumber]
  obtain ⟨targetId, leaseId, token, fencing⟩ := ref
  obtain ⟨targetId', leaseId', token', fencing'⟩ := ref'
  simp only [LeaseRef.mk.injEq] at hid htarget htoken hid' htarget' htoken' hnumber heq ⊢
  rw [← hid, ← hid', ← htoken, ← htoken', hsame]
  exact ⟨heq, rfl, rfl, hnumber⟩

/-! ### Jobs -/

/-- A job that is moved from queued to running is moved by a poll with the lease it was created
under. -/
theorem started_under (hi : w.Inv) {c : Call} {job job' : RemoteExecutionJob} (hjob : job ∈ w.jobs)
    (hjob' : job' ∈ (w.exec c).2.jobs) (hid : job'.jobId = job.jobId) (hqueued : job.status = .queued)
    (hrunning : job'.status = .running) :
    ∃ ref now limit seen, c = .pollJobs ref now limit seen ∧ job.isUnder ref ∧ w.Live ref now := by
  have hstill : job' ∉ w.jobs := by
    intro hmem
    rw [hi.job_unique hmem hjob hid, hqueued] at hrunning
    exact nomatch hrunning
  have hmoved := exec_moved w c
  revert hmoved hjob'
  generalize (w.exec c).2 = w'
  intro hjob' hmoved
  cases hmoved with
  | idle c w' same =>
    rw [same.jobs] at hjob'
    exact absurd hjob' hstill
  | registered | online | acquired | renewed | released => exact absurd hjob' hstill
  | created new leaseToken now target live found room fresh =>
    cases List.mem_append.mp hjob' with
    | inl h => exact absurd h hstill
    | inr h =>
      obtain rfl := List.mem_singleton.mp h
      exact absurd hid.symm (fresh job hjob)
  | started ref now limit seen ids live claimable =>
    refine ⟨ref, now, limit, seen, rfl, ?_, live⟩
    cases mem_update.mp hjob' with
    | inl h =>
      obtain ⟨old, hold, hp, rfl⟩ := h
      rw [Bool.and_eq_true, decide_eq_true_eq] at hp
      obtain ⟨row, hrow, hrowId, hclaim⟩ := claimable old.jobId hp.1
      have hsame : row = job := hi.job_unique hrow hjob (hrowId.trans hid)
      rw [hsame] at hclaim
      unfold World.claimable at hclaim
      simp only [Bool.and_eq_true, decide_eq_true_eq] at hclaim
      exact ⟨hclaim.1.1.1, hclaim.1.1.2, hclaim.1.2⟩
    | inr h => exact absurd h.1 hstill
  | completed result ref now observation lost other live found under running fresh =>
    cases mem_update.mp hjob' with
    | inl h =>
      obtain ⟨old, -, -, rfl⟩ := h
      have hterminal := result.terminal
      rw [show result.status = .running from hrunning] at hterminal
      exact nomatch hterminal
    | inr h => exact absurd h.1 hstill
  | cancelled jobId now other found queued =>
    cases mem_update.mp hjob' with
    | inl h =>
      obtain ⟨old, -, -, rfl⟩ := h
      exact nomatch hrunning
    | inr h => exact absurd h.1 hstill
  | requested jobId now other found running =>
    cases mem_update.mp hjob' with
    | inl h =>
      obtain ⟨old, hold, -, rfl⟩ := h
      rw [hi.job_unique hold hjob hid] at hrunning
      rw [show job.status = .running from hrunning] at hqueued
      exact nomatch hqueued
    | inr h => exact absurd h.1 hstill
  | closed now w' closes =>
    obtain ⟨hids, hrows⟩ := stranded_rows hi now
    have hkeep := closeJobs_keep (P := fun w' => ∀ row ∈ w'.jobs, row.status = .running → row ∈ w.jobs)
      (by
        intro w₁ row hrow hw₁ hmem hfresh other hother hother'
        cases mem_update.mp hother with
        | inl h =>
          obtain ⟨old, -, -, rfl⟩ := h
          have hterminal := (closing row now).terminal
          rw [show (closing row now).status = .running from hother'] at hterminal
          exact nomatch hterminal
        | inr h => exact hw₁ other h.1 hother') hids (fun row hrow => (hrows row hrow).1)
      (fun row hrow _ => hrow) closes
    exact absurd (hkeep job' hjob' hrunning) hstill

/-- A result is recorded of a job under its lease, which is live, or by the reconciliation of a job
whose lease has ended. -/
theorem recorded_live (hi : w.Inv) {c : Call} {r : RemoteExecutionResult}
    (hr : r ∈ (w.exec c).2.results) (hnew : r ∉ w.results) :
    (∃ ref now observation lost, c = .completeJob r ref now observation lost ∧ w.Live ref now ∧
      ∃ job ∈ w.jobs, job.jobId = r.jobId ∧ job.isUnder ref) ∨
      ∃ now, c = .reconcileExpired now ∧
        ∃ job ∈ w.jobs, w.isStranded now job = true ∧ r = closing job now := by
  have hmoved := exec_moved w c
  revert hmoved hr
  generalize (w.exec c).2 = w'
  intro hr hmoved
  cases hmoved with
  | idle c w' same =>
    rw [same.results] at hr
    exact absurd hr hnew
  | registered | online | acquired | renewed | released | created | started | cancelled | requested =>
    exact absurd hr hnew
  | completed result ref now observation lost job live found under running fresh =>
    cases List.mem_append.mp hr with
    | inl h => exact absurd h hnew
    | inr h =>
      obtain rfl := List.mem_singleton.mp h
      obtain ⟨hjob, hid⟩ := job_mem found
      exact .inl ⟨ref, now, observation, lost, rfl, live, job, hjob, hid, under⟩
  | closed now w' closes =>
    obtain ⟨hids, hrows⟩ := stranded_rows hi now
    have hkeep := closeJobs_keep
      (P := fun w' => ∀ r ∈ w'.results, r ∈ w.results ∨
        ∃ job ∈ w.jobs, w.isStranded now job = true ∧ r = closing job now)
      (by
        intro w₁ row hrow hw₁ hmem hfresh other hother
        cases List.mem_append.mp hother with
        | inl h => exact hw₁ other h
        | inr h =>
          obtain ⟨hmem, hstranded⟩ := hrows row hrow
          exact .inr ⟨row, hmem, hstranded, List.mem_singleton.mp h⟩)
      hids (fun row hrow => (hrows row hrow).1) (fun r hr => .inl hr) closes
    cases hkeep r hr with
    | inl h => exact absurd h hnew
    | inr h => exact .inr ⟨now, rfl, h⟩

/-- No job is started twice. -/
theorem Inv.starts_nodup (hi : w.Inv) :
    ((w.history.filter JobWrite.starts).map fun e => e.before.jobId).Nodup := by
  rw [List.nodup_iff_pairwise_ne, List.pairwise_map, List.pairwise_filter]
  apply hi.order.imp_of_mem
  intro a b ha hb hab hastarts hbstarts heq
  unfold JobWrite.starts at hastarts hbstarts
  rw [Bool.and_eq_true, decide_eq_true_eq, decide_eq_true_eq] at hastarts hbstarts
  have hrises := (hab ((hi.lawful a ha).jobId.trans heq)).rises
  rw [hastarts.2, hbstarts.1] at hrises
  exact nomatch hrises

/-- A job that has ended has one result, of its status, or was cancelled while it was queued. -/
theorem Inv.result_of (hi : w.Inv) {job : RemoteExecutionJob} (hjob : job ∈ w.jobs)
    (hterminal : job.status.isTerminal = true) :
    (∃ r, w.results.filter (fun r => r.jobId = job.jobId) = [r] ∧ r.status = job.status) ∨
      (w.results.filter (fun r => r.jobId = job.jobId) = [] ∧
        ∃ e ∈ w.history, e.before.jobId = job.jobId ∧ e.withdraws = true) := by
  cases hfilter : w.results.filter fun r => r.jobId = job.jobId with
  | nil =>
    cases hi.settled job hjob hterminal with
    | inl hresult =>
      obtain ⟨r, hr, hid⟩ := hresult
      have hmem : r ∈ w.results.filter fun r => r.jobId = job.jobId :=
        List.mem_filter.mpr ⟨hr, decide_eq_true hid⟩
      rw [hfilter] at hmem
      exact absurd hmem List.not_mem_nil
    | inr hwithdrawn => exact .inr ⟨rfl, hwithdrawn⟩
  | cons r rest =>
    have hmem : r ∈ w.results.filter fun r => r.jobId = job.jobId := by
      rw [hfilter]
      exact List.mem_cons_self ..
    obtain ⟨hr, hid⟩ := List.mem_filter.mp hmem
    have hone := countP_key_le_one hi.resultIds job.jobId
    rw [List.countP_eq_length_filter, hfilter, List.length_cons] at hone
    have hrest : rest = [] := List.length_eq_zero_iff.mp (by omega)
    obtain ⟨row, hrow, hrowId, hstatus⟩ := hi.result r hr
    have hsame : row = job := hi.job_unique hrow hjob (hrowId.trans (of_decide_eq_true hid))
    refine .inl ⟨r, by rw [hrest], ?_⟩
    rw [← hstatus, hsame]

end World

/-- After these calls. -/
structure RunsOnce (calls : List Call) : Prop where
  /-- The leases of a target have rising fencing numbers. -/
  fencing : (called calls).leases.Pairwise fun a b => a.targetId = b.targetId → a.fencing < b.fencing
  /-- One lease of a target is accepted, by whatever clock. -/
  accepted : ∀ ref ref' now now', (called calls).Live ref now → (called calls).Live ref' now' →
    ref.targetId = ref'.targetId → ref = ref'
  /-- One is neither released nor expired, by a clock that is not behind those by which the target's
  leases were acquired. -/
  live : ∀ targetId now,
    (∀ lease clock, Call.acquireLease lease clock ∈ calls → lease.targetId = targetId → clock ≤ now) →
      ((called calls).leases.filter fun lease => lease.targetId = targetId && lease.isLive now).length ≤ 1
  once : (((called calls).history.filter JobWrite.starts).map fun e => e.before.jobId).Nodup
  /-- A job is started under the lease it was created with. -/
  under : ∀ c, ∀ job ∈ (called calls).jobs, ∀ job' ∈ (called (calls ++ [c])).jobs,
    job'.jobId = job.jobId → job.status = .queued → job'.status = .running →
      ∃ ref now limit seen, c = .pollJobs ref now limit seen ∧ job.isUnder ref ∧
        (called calls).Live ref now
  /-- Its row keeps the lease, and never falls back. -/
  kept : ∀ more, (∀ c ∈ more, c.createsQueued = true) → ∀ job ∈ (called calls).jobs,
    ∃ job' ∈ (called (calls ++ more)).jobs, job.Becomes job'
  /-- A job that has ended stays as it is. -/
  final : ∀ more, (∀ c ∈ more, c.createsQueued = true) → ∀ job ∈ (called calls).jobs,
    job.status.isTerminal = true → job ∈ (called (calls ++ more)).jobs
  /-- It has one result, of its status, or was cancelled while it was queued. -/
  result : ∀ job ∈ (called calls).jobs, job.status.isTerminal = true →
    (∃ r, (called calls).results.filter (fun r => r.jobId = job.jobId) = [r] ∧ r.status = job.status) ∨
      ((called calls).results.filter (fun r => r.jobId = job.jobId) = [] ∧
        ∃ e ∈ (called calls).history, e.before.jobId = job.jobId ∧ e.withdraws = true)
  /-- A worker's result is recorded under the job's lease while that is live. -/
  recorded : ∀ c, ∀ r ∈ (called (calls ++ [c])).results, r ∉ (called calls).results →
    (∃ ref now observation lost, c = .completeJob r ref now observation lost ∧
      (called calls).Live ref now ∧ ∃ job ∈ (called calls).jobs, job.jobId = r.jobId ∧ job.isUnder ref) ∨
      ∃ now, c = .reconcileExpired now ∧
        ∃ job ∈ (called calls).jobs, (called calls).isStranded now job = true ∧ r = World.closing job now
  room : ∀ target ∈ (called calls).targets,
    (called calls).activeCount target.targetId ≤ target.capabilityManifest.maxConcurrentJobs

theorem called_concat (calls : List Call) (c : Call) :
    called (calls ++ [c]) = ((called calls).exec c).2 := by
  unfold called
  rw [List.foldl_append]
  rfl

theorem called_supersededEnded {calls : List Call} (h : ∀ c ∈ calls, c.createsQueued = true)
    {targetId : String} {now : Instant}
    (hclock : ∀ lease clock, Call.acquireLease lease clock ∈ calls → lease.targetId = targetId →
      clock ≤ now) : (called calls).SupersededEnded targetId now := by
  induction calls using List.reverseRecOn with
  | nil => exact List.Pairwise.nil
  | append_singleton calls c ih =>
    have hbefore : ∀ c ∈ calls, c.createsQueued = true := fun c hc => h c (List.mem_append_left _ hc)
    rw [called_concat]
    apply World.supersededEnded_exec (called_inv hbefore)
    · intro lease clock hc
      exact hclock lease clock (List.mem_append_right _ (List.mem_singleton.mpr hc.symm))
    · exact ih hbefore fun lease clock hmem => hclock lease clock (List.mem_append_left _ hmem)

theorem remote_jobs_run_once (calls : List Call) (h : ∀ c ∈ calls, c.createsQueued = true) :
    RunsOnce calls := by
  have hi := called_inv h
  have hgrows : ∀ more : List Call, (∀ c ∈ more, c.createsQueued = true) →
      (called calls).Grows (called (calls ++ more)) := by
    intro more hmore
    apply called_grows
    intro c hc
    cases List.mem_append.mp hc with
    | inl hc => exact h c hc
    | inr hc => exact hmore c hc
  constructor
  · exact hi.fencing
  · intro ref ref' now now' hlive hlive' heq
    exact World.live_unique hi hlive hlive' heq
  · intro targetId now hclock
    exact (called_supersededEnded h hclock).length_le
  · exact hi.starts_nodup
  · intro c job hjob job' hjob' hid hqueued hrunning
    rw [called_concat] at hjob'
    exact World.started_under hi hjob hjob' hid hqueued hrunning
  · intro more hmore job hjob
    exact (hgrows more hmore).jobs job hjob
  · intro more hmore job hjob hterminal
    obtain ⟨job', hjob', hbecomes⟩ := (hgrows more hmore).jobs job hjob
    rw [hbecomes.final hterminal] at hjob'
    exact hjob'
  · intro job hjob hterminal
    exact hi.result_of hjob hterminal
  · intro c r hr hnew
    rw [called_concat] at hr
    exact World.recorded_live hi hr hnew
  · exact hi.room

/-! ### A job, and a clock that goes back -/

def box : RemoteTargetRegistration :=
  { targetId := "box", identityPublicKey := "key"
    capabilityManifest := { capabilities := [.targetRead, .targetExec], supportedOperations := ["read", "run"] } }

def lease (leaseId : String) (expiresAt : Instant) : RemoteTargetLease :=
  { leaseId := leaseId, targetId := "box", token := "token-of-" ++ leaseId, expiresAt := expiresAt }

def ref (leaseId : String) (fencing : Nat) : LeaseRef := ⟨"box", leaseId, "token-of-" ++ leaseId, fencing⟩

def readJob : RemoteExecutionJob :=
  { jobId := "job", targetId := "box", leaseId := "first", leaseFencing := 1, capability := .targetRead
    operation := "read", actionHash := "hash", idempotencyKey := "job-1", idempotency := .idempotent
    createdAt := seconds 11 }

def succeeded (jobId : String) (completedAt : Instant) : RemoteExecutionResult :=
  { jobId := jobId, resultIdempotencyKey := "result-of-" ++ jobId, status := .succeeded
    completedAt := completedAt, terminal := rfl }

/-- The target is online, and leased from 10 s to 20 s. -/
def leased : List Call :=
  [.registerTarget box, .heartbeatTarget "box" "key", .acquireLease (lease "first" (seconds 20)) (seconds 10),
    .recordAction "hash"]

def ranOnce : List Call :=
  leased ++ [.createJob readJob "token-of-first" (seconds 11), .pollJobs (ref "first" 1) (seconds 12) 8 [],
    .pollJobs (ref "first" 1) (seconds 13) 8 [],
    .completeJob (succeeded "job" (seconds 14)) (ref "first" 1) (seconds 14) none false,
    .acquireLease (lease "second" (seconds 40)) (seconds 30)]

theorem remote_jobs_run_once_read :
    (called ranOnce).jobs.map RemoteExecutionJob.status = [.succeeded] ∧
      (called ranOnce).leases.map RemoteTargetLease.fencing = [1, 2] ∧
      (((called ranOnce).history.filter JobWrite.starts).map fun e => e.before.jobId).Nodup ∧
      ((called ranOnce).leases.filter fun l => l.targetId = "box" && l.isLive (seconds 30)).length ≤ 1 := by
  have honce : RunsOnce ranOnce := remote_jobs_run_once ranOnce (by decide)
  refine ⟨by decide +kernel, by decide +kernel, honce.once, ?_⟩
  apply honce.live
  intro l clock hmem _
  simp only [ranOnce, leased, List.cons_append, List.nil_append, List.mem_cons, Call.acquireLease.injEq,
    reduceCtorEq, List.not_mem_nil, false_or, or_false] at hmem
  cases hmem with
  | inl h =>
    rw [h.2]
    decide
  | inr h =>
    rw [h.2]

/-- Leased from 10 s to 20 s and from 30 s to 40 s; then comes a call at 15 s. And a job that is
created as if it had succeeded has no result. -/
theorem two_leases_unexpired :
    ((called (leased ++ [.acquireLease (lease "second" (seconds 40)) (seconds 30),
        .pollJobs (ref "first" 1) (seconds 15) 8 []])).leases.filter fun l =>
          l.targetId = "box" && l.isLive (seconds 15)).length = 2 ∧
      (called (leased ++ [.createJob { readJob with status := .succeeded } "token-of-first" (seconds 11)])).jobs.map
        RemoteExecutionJob.status = [.succeeded] ∧
      (called (leased ++ [.createJob { readJob with status := .succeeded } "token-of-first"
        (seconds 11)])).results = [] := by
  decide +kernel

end Operant.RemoteExecution
