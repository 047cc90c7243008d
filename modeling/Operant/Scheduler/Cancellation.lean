import Operant.Scheduler.Invariant

/-! Requests that are asked to stop.

A request at work is cancelled by a flag, and no request with the flag is ever claimed
again. So a job that ends must not go back to wait once its request has the flag; `putsBack`
is what the transactions that end jobs do instead. -/
namespace Operant.Scheduler
open Operant.Tables SchedulerStore

/-! ### The moment in which a request is stranded -/

/-- `fail_job`, or the recovery of an expired lease, ends a job whose request has been
asked to stop and could be tried again. -/
def StoreOp.putsBack (s : SchedulerStore) : StoreOp → Bool
  | .failJob lease failure _ => (s.request? lease.runRequestId).any fun r =>
    r.cancelRequested && r.attemptCount < r.maxAttempts &&
      !(r.dispatchIdempotency = .nonIdempotent && failure.outcomeUnknown)
  | .claimDue _ _ _ _ now | .renewDispatchedJobs _ _ _ _ now => (s.expiredJobs now).any fun job =>
    job.1.cancelRequested && job.1.workflowRunId.isNone && job.1.attemptCount < job.1.maxAttempts &&
      !(job.1.dispatchIdempotency = .nonIdempotent && job.2.sideEffectStarted)
  | _ => false

namespace Job

/-- The request does not wait if it was asked to stop. -/
def Calm (j : Job) : Prop :=
  ∀ r, j.request = some r → r.cancelRequested = true → r.status.isWaiting = false

/-- The request was not asked to stop, or it is over. -/
def Settled (j : Job) : Prop :=
  ∀ r, j.request = some r → r.cancelRequested = true → r.status.isTerminal = true

theorem Settled.calm {j : Job} (h : j.Settled) : j.Calm :=
  fun r hr hasked => terminal_not_waiting (h r hr hasked)

/-- The flag is never taken back. -/
theorem Step.asked {j j' : Job} {e : JobEvent} (h : Step j e j') {r : RunRequest}
    (hr : j.request = some r) (hasked : r.cancelRequested = true) :
    ∃ r', j'.request = some r' ∧ r'.cancelRequested = true := by
  cases h with
  | inserted => exact absurd hr (by simp)
  | cancelled asked =>
    obtain rfl := Option.some.inj hr
    exact ⟨_, rfl, by simp [hasked]⟩
  | cancelAsked => exact ⟨_, rfl, rfl⟩
  | granted _ hnot =>
    obtain rfl := Option.some.inj hr
    rw [hnot] at hasked
    exact absurd hasked Bool.false_ne_true
  | renewed => exact ⟨r, hr, hasked⟩
  | marked | dispatched | takenOver | ended =>
    obtain rfl := Option.some.inj hr
    exact ⟨_, rfl, hasked⟩

variable {allowed : JobEvent → Prop}

theorem Path.asked {j j' : Job} {g : List JobLease} (h : Path allowed j g j') {r : RunRequest}
    (hr : j.request = some r) (hasked : r.cancelRequested = true) :
    ∃ r', j'.request = some r' ∧ r'.cancelRequested = true := by
  induction h with
  | refl => exact ⟨r, hr, hasked⟩
  | step _ hstep _ ih =>
    obtain ⟨m, hm, hmasked⟩ := ih
    exact hstep.asked hm hmasked

/-- A job stays calm as long as jobs only end for good. -/
theorem Step.calm {j j' : Job} {e : JobEvent} (h : Step j e j')
    (hends : ∀ ending, e = .ended ending → ending.request.isTerminal = true) (hj : j.Calm) :
    j'.Calm := by
  intro r' hr' hasked
  cases h with
  | inserted _ _ _ hnot =>
    obtain rfl := Option.some.inj hr'
    rw [hnot] at hasked
    exact absurd hasked Bool.false_ne_true
  | cancelled =>
    obtain rfl := Option.some.inj hr'
    rfl
  | cancelAsked hstatus =>
    obtain rfl := Option.some.inj hr'
    exact leased_not_waiting hstatus
  | granted =>
    obtain rfl := Option.some.inj hr'
    rfl
  | renewed | marked | takenOver => exact hj r' hr' hasked
  | dispatched hstatus =>
    obtain rfl := Option.some.inj hr'
    exact leased_not_waiting hstatus
  | ended =>
    obtain rfl := Option.some.inj hr'
    exact terminal_not_waiting (hends _ rfl)

theorem Path.calm {j j' : Job} {g : List JobLease} (h : Path allowed j g j')
    (hends : ∀ ending, allowed (.ended ending) → ending.request.isTerminal = true) (hj : j.Calm) :
    j'.Calm := by
  induction h with
  | refl => exact hj
  | step _ hstep he ih => exact hstep.calm (fun ending heq => hends ending (heq ▸ he)) ih

end Job

namespace StoreOp
variable {s : SchedulerStore} {op : StoreOp} {id : String}

/-- The operations whose endings may put a request back. -/
def endsJobs : StoreOp → Bool
  | .failJob .. | .claimDue .. | .renewDispatchedJobs .. => true
  | _ => false

theorem Ends.terminal {ending : JobEnd} (h : op.Ends s id ending) (hop : op.endsJobs = false) :
    ending.request.isTerminal = true := by
  cases h with
  | cancelled | completed => rfl
  | finished _ hterminal => exact hterminal
  | failed | expiredOnClaim | expiredOnRenew => exact absurd hop (by simp [endsJobs])

/-- An expired job that is not put back is over. -/
theorem expired_terminal {now : Instant} {job : RunRequest × JobAttempt} {ending : JobEnd}
    (hjob : job ∈ s.expiredJobs now)
    (hput : ((s.expiredJobs now).any fun job =>
      job.1.cancelRequested && job.1.workflowRunId.isNone &&
        decide (job.1.attemptCount < job.1.maxAttempts) &&
        !(decide (job.1.dispatchIdempotency = .nonIdempotent) && job.2.sideEffectStarted)) = false)
    (hend : expiredEnd job.1 job.2 now = some ending) (hasked : job.1.cancelRequested = true) :
    ending.request.isTerminal = true := by
  have hjob := List.any_eq_false.mp hput job hjob
  unfold expiredEnd at hend
  split at hend
  · exact nomatch hend
  · rename_i hrun
    rw [← Option.some.inj hend]
    dsimp only
    split
    · rfl
    · rename_i hsafe
      split
      · rfl
      · simp_all

/-- What an operation that is not stranding ends was not asked to stop, or is over. -/
theorem Ends.settled (hs : s.Sound) {ending : JobEnd} (h : op.Ends s id ending)
    (hop : op.endsJobs = true) (hput : op.putsBack s = false) {r : RunRequest}
    (hr : s.request? id = some r) (hasked : r.cancelRequested = true) :
    ending.request.isTerminal = true := by
  cases h with
  | cancelled | completed | finished => exact absurd hop (by simp [endsJobs])
  | @failed lease failure now r' _ hr' =>
    obtain rfl := Option.some.inj (hr'.symm.trans hr)
    simp only [putsBack, hr', Option.any_some] at hput
    unfold failedEnd
    split
    · rfl
    · split
      · rfl
      · simp_all
  | expiredOnClaim h | expiredOnRenew h =>
    obtain ⟨job, hjob, hid, hend⟩ := h
    have hfound := (expiredJobs_working hs hjob).1
    rw [hid, hr] at hfound
    obtain rfl := Option.some.inj hfound
    exact expired_terminal hjob hput hend hasked

/-- On the path of such an operation, the request is as it was, or has been dealt with. -/
theorem path_settled (hs : s.Sound) (hop : op.endsJobs = true) (hput : op.putsBack s = false)
    {j : Job} {g : List JobLease} (h : (s.job id).Path (op.Causes s id) g j) :
    j.request = s.request? id ∨ j.Settled := by
  generalize hstart : s.job id = start at h
  induction h with
  | refl => exact .inl (by rw [← hstart]; rfl)
  | step _ hstep hcause ih =>
    cases hstep with
    | inserted _ _ _ hnot =>
      refine .inr fun r hr hasked => ?_
      obtain rfl := Option.some.inj hr
      rw [hnot] at hasked
      exact absurd hasked Bool.false_ne_true
    | cancelled =>
      cases hcause with
      | cancelled _ hcancels => cases op <;> simp_all [cancels, endsJobs]
    | cancelAsked =>
      cases hcause with
      | cancelAsked hcancels => cases op <;> simp_all [cancels, endsJobs]
    | granted _ hnot =>
      refine .inr fun r hr hasked => ?_
      obtain rfl := Option.some.inj hr
      rw [show (RunRequest.cancelRequested _) = false from hnot] at hasked
      exact absurd hasked Bool.false_ne_true
    | renewed => exact ih
    | marked =>
      cases hcause with
      | marked hmark => exact absurd hop (by rw [hmark]; simp [endsJobs])
    | dispatched =>
      cases hcause with
      | dispatched hmark => exact absurd hop (by rw [hmark]; simp [endsJobs])
    | takenOver => exact ih
    | @ended r l past a ending hstatus hfits =>
      cases hcause with
      | ended hend =>
        refine .inr fun r' hr' hasked => ?_
        obtain rfl := Option.some.inj hr'
        cases ih with
        | inl hsame => exact hend.settled hs hop hput hsame.symm hasked
        | inr hsettled =>
          have hover : r.status.isTerminal = true := hsettled r rfl hasked
          rw [hstatus] at hover
          exact absurd hover Bool.false_ne_true

/-- No operation strands a request, except by putting it back. -/
theorem apply_calm (hs : s.Sound) (hput : op.putsBack s = false) (hcalm : (s.job id).Calm) :
    ((op.apply s).job id).Calm := by
  have hpath := (apply_moves hs op).jobs id
  by_cases hop : op.endsJobs = true
  · cases path_settled hs hop hput hpath with
    | inl hsame => exact fun r hr => hcalm r (hsame.symm.trans hr)
    | inr hsettled => exact hsettled.calm
  · have hnot : op.endsJobs = false := by simpa using hop
    refine hpath.calm (fun ending hcause => ?_) hcalm
    cases hcause with
    | ended hend => exact hend.terminal hnot

end StoreOp

/-! ### Runs -/

namespace SchedulerStore

/-- Every operation of a run that commits meets a condition, in the state it finds. -/
def Along (condition : SchedulerStore → StoreOp → Prop) : SchedulerStore → List StoreOp → Prop
  | _, [] => True
  | s, op :: rest =>
    ((op.exec s).isOk = true → condition s op) ∧ Along condition (op.apply s) rest

variable {s : SchedulerStore}

/-- No operation puts back a request that was asked to stop. -/
def NeverPutsBack (ops : List StoreOp) : Prop := Along (fun s op => op.putsBack s = false) {} ops

theorem apply_calm (hs : s.Sound) {op : StoreOp}
    (h : (op.exec s).isOk = true → op.putsBack s = false) {id : String} (hcalm : (s.job id).Calm) :
    ((op.apply s).job id).Calm := by
  by_cases hok : (op.exec s).isOk = true
  · exact StoreOp.apply_calm hs (h hok) hcalm
  · have hsame : op.apply s = s := by
      unfold StoreOp.apply
      cases hexec : op.exec s with
      | ok s' => rw [hexec] at hok; exact absurd rfl hok
      | error => rfl
    rw [hsame]
    exact hcalm

theorem along_calm {ops : List StoreOp} (hs : s.Sound)
    (h : Along (fun s op => op.putsBack s = false) s ops) (hcalm : ∀ id, (s.job id).Calm)
    {before after : List StoreOp} (hops : ops = before ++ after) (id : String) :
    ((before.foldl StoreOp.apply s).job id).Calm := by
  induction before generalizing s ops with
  | nil => exact hcalm id
  | cons op rest ih =>
    rw [hops] at h
    exact ih (StoreOp.apply_sound hs op) h.2 (fun id => apply_calm hs h.1 (hcalm id)) rfl

/-- In every state of such a run no request that was asked to stop waits, and one that is
at work stays so until it is over. -/
theorem cancellation_not_stranded (ops : List StoreOp) (h : NeverPutsBack ops) :
    (∀ before after, ops = before ++ after → ∀ r ∈ (run before).requests,
      r.cancelRequested = true → r.status ≠ .queued ∧ r.status ≠ .retryWait) ∧
      ∀ before op after, ops = before ++ op :: after → ∀ r ∈ (run before).requests,
        r.status = .leased → r.cancelRequested = true →
        ∃ r', (run (before ++ [op])).request? r.id = some r' ∧
          (r'.status = .leased ∨ r'.status.isTerminal = true) := by
  have hcalm : ∀ before after, ops = before ++ after → ∀ id, ((run before).job id).Calm :=
    fun before after hops id =>
      along_calm sound_empty h (fun _ r hr => absurd hr (by simp [job, request?])) hops id
  constructor
  · intro before after hops r hr hasked
    have hfound := request?_of_mem (run_sound before).ids hr
    have hwaiting := hcalm before after hops r.id r hfound hasked
    constructor
    · intro hstatus
      rw [hstatus] at hwaiting
      exact absurd hwaiting (by decide)
    · intro hstatus
      rw [hstatus] at hwaiting
      exact absurd hwaiting (by decide)
  · intro before op after hops r hr hleased hasked
    have hfound := request?_of_mem (run_sound before).ids hr
    have hpath := (StoreOp.apply_moves (run_sound before) op).jobs r.id
    obtain ⟨r', hr', hasked'⟩ := hpath.asked hfound hasked
    rw [← run_concat] at hr'
    refine ⟨r', hr', ?_⟩
    have hwaiting := hcalm (before ++ [op]) after (by rw [hops]; simp) r.id r' hr' hasked'
    cases hstatus : r'.status <;> simp_all [RunRequestStatus.isWaiting, RunRequestStatus.isTerminal]

/-! ### A cancelled request that is put back -/

def nightly : ScheduleDefinition :=
  { id := "nightly"
    name := "nightly"
    trigger := .hook .applicationSignal
    timezoneName := "UTC"
    workflowId := "report"
    workflowVersion := 1
    createdAt := 0 }

/-- The same, tried once. -/
def nightlyOnce : ScheduleDefinition := { nightly with maxAttempts := 1, maxAttempts_range := by decide }

def coreWriter : SchedulerLease :=
  { kind := .runtimeWriter, owner := "core", token := "writer", fencing := 1, expiresAt := seconds 100 }

def firstJob : JobLease :=
  { runRequestId := "request", owner := "core", token := "first", fencing := 1,
    expiresAt := seconds 30, attemptNumber := 1 }

def denied : Failure :=
  { errorCode := "policy.denied", outcomeUnknown := false, retryBaseSeconds := 5, retryMaxSeconds := 300 }

/-- A request of a schedule is claimed, asked to stop, and fails. -/
def cancelThenFail (schedule : ScheduleDefinition) : List StoreOp :=
  [.putSchedule schedule, .enqueueManual schedule "once" 0 ⟨"request", 0⟩,
    .acquireAuthority .runtimeWriter "core" 100 "writer" 0, .claimDue coreWriter "core" 30 "first" 0,
    .requestCancel "request", .failJob firstJob denied 1]

/-- With its last attempt the request is over. -/
theorem cancellation_not_stranded_last_attempt :
    (∀ before after, cancelThenFail nightlyOnce = before ++ after →
      ∀ r ∈ (run before).requests,
        r.cancelRequested = true → r.status ≠ .queued ∧ r.status ≠ .retryWait) ∧
      ∃ r ∈ (run (cancelThenFail nightlyOnce)).requests,
        r.cancelRequested = true ∧ r.status = .deadLetter :=
  ⟨(cancellation_not_stranded (cancelThenFail nightlyOnce)
      ⟨fun _ => rfl, fun _ => rfl, fun _ => rfl, fun _ => rfl, fun _ => rfl, fun _ => by decide +kernel,
        trivial⟩).1,
    by decide +kernel⟩

/-- With attempts left it waits for a claim that never comes. -/
theorem failed_job_strands_cancellation :
    ¬ ∀ ops, ∀ r ∈ (run ops).requests,
      r.cancelRequested = true → r.status ≠ .queued ∧ r.status ≠ .retryWait := by
  intro h
  have hstranded : ∃ r ∈ (run (cancelThenFail nightly)).requests,
      r.cancelRequested = true ∧ r.status = .retryWait := by decide +kernel
  obtain ⟨r, hr, hasked, hstatus⟩ := hstranded
  exact (h _ r hr hasked).2 hstatus

end SchedulerStore
end Operant.Scheduler
