import Operant.Scheduler.Invariant

/-! What becomes of a dispatch.

Once the attempt at work has been marked, its job cannot be tried again unless whoever holds
the lease says that the dispatch failed: every other way to end it is for good. -/
namespace Operant.Scheduler
open Operant.Tables Operant.Calls SchedulerStore

namespace Job
variable {allowed : JobEvent → Prop}

/-- What every step keeps, a path keeps. -/
theorem Path.keeps {P : Job → Prop} {j j' : Job} {g : List JobLease} (h : Path allowed j g j')
    (hstep : ∀ {a e b}, Step a e b → allowed e → P a → P b) (hj : P j) : P j' := by
  induction h with
  | refl => exact hj
  | step _ hs he ih => exact hstep hs he ih

/-- The attempt of this number has been granted. -/
def Begun (number : Nat) (j : Job) : Prop := number ∈ numbers j.attempts

/-- The attempt of this number has been marked. -/
def Marked (number : Nat) (j : Job) : Prop :=
  ∃ a ∈ j.attempts, a.attemptNumber = number ∧ a.sideEffectStarted = true

/-- The attempt of this number is the last one, it is marked, and the job is at work or over. -/
def Committed (number : Nat) (j : Job) : Prop :=
  ∃ r past a, j.request = some r ∧ j.attempts = past ++ [a] ∧ r.attemptCount = number ∧
    a.sideEffectStarted = true ∧ (r.status = .leased ∨ r.status.isTerminal = true)

/-- The run a request is bound to, if any. -/
def Names (P : String → Prop) (j : Job) : Prop :=
  ∀ r, j.request = some r → ∀ run, r.workflowRunId = some run → P run

/-- The request exists, with this idempotency. -/
def Kind (kind : DispatchIdempotency) (j : Job) : Prop :=
  ∃ r, j.request = some r ∧ r.dispatchIdempotency = kind

theorem Marked.begun {number : Nat} {j : Job} (h : j.Marked number) : j.Begun number := by
  obtain ⟨a, ha, hnumber, -⟩ := h
  rw [← hnumber]
  exact List.mem_map_of_mem ha

/-- A job with an attempt has a request. -/
theorem Begun.request {number : Nat} {j : Job} (h : j.Begun number) (hj : j.Ok) :
    ∃ r, j.request = some r := by
  cases hj with
  | absent => exact absurd h List.not_mem_nil
  | @idle r => exact ⟨r, rfl⟩
  | @leased r => exact ⟨r, rfl⟩

theorem Begun.le {number : Nat} {j : Job} (h : j.Begun number) (hj : j.Ok) {r : RunRequest}
    (hr : j.request = some r) : number ≤ r.attemptCount := by
  have hmem : number ∈ numbers j.attempts := h
  cases hj with
  | absent => exact absurd hr (by simp)
  | idle _ hnumbers =>
    obtain rfl := Option.some.inj hr
    rw [hnumbers, List.mem_range'_1] at hmem
    omega
  | leased _ hnumbers =>
    obtain rfl := Option.some.inj hr
    rw [hnumbers, List.mem_range'_1] at hmem
    omega

theorem Committed.marked {number : Nat} {j : Job} (h : j.Committed number) (hj : j.Ok) :
    j.Marked number := by
  obtain ⟨r, past, a, hr, ha, hcount, hstarted, -⟩ := h
  have hnumbers : numbers (past ++ [a]) = List.range' 1 r.attemptCount := by
    cases hj with
    | absent => exact absurd hr (by simp)
    | idle _ hnumbers =>
      obtain rfl := Option.some.inj hr
      rw [← ha, hnumbers]
    | leased _ hnumbers =>
      obtain rfl := Option.some.inj hr
      rw [← ha, hnumbers]
  refine ⟨a, ?_, (last_number hnumbers).1.trans hcount, hstarted⟩
  rw [ha]
  exact List.mem_append_right _ (List.mem_singleton_self a)

/-- Only the last attempt is committed. -/
theorem Committed.same {m n : Nat} {j : Job} (h : j.Committed m) (h' : j.Committed n) : m = n := by
  obtain ⟨r, _, _, hr, -, hm, -⟩ := h
  obtain ⟨r', _, _, hr', -, hn, -⟩ := h'
  obtain rfl := Option.some.inj (hr.symm.trans hr')
  exact hm.symm.trans hn

theorem Names.mono {P Q : String → Prop} {j : Job} (h : j.Names P) (hPQ : ∀ run, P run → Q run) :
    j.Names Q := fun r hr run hrun => hPQ run (h r hr run hrun)

theorem Step.begun {j j' : Job} {e : JobEvent} (h : Step j e j') {number : Nat}
    (hj : j.Begun number) : j'.Begun number := by
  unfold Begun at hj ⊢
  cases h with
  | inserted => exact hj
  | cancelled | cancelAsked | renewed | takenOver => exact hj
  | granted =>
    rw [numbers_append]
    exact List.mem_append_left _ hj
  | marked | dispatched | ended =>
    rw [numbers_append] at hj ⊢
    exact hj

theorem Step.marked_keeps {j j' : Job} {e : JobEvent} (h : Step j e j') {number : Nat}
    (hj : j.Marked number) : j'.Marked number := by
  obtain ⟨a, ha, hnumber, hstarted⟩ := hj
  cases h with
  | inserted => exact absurd ha List.not_mem_nil
  | cancelled | cancelAsked | renewed | takenOver => exact ⟨a, ha, hnumber, hstarted⟩
  | granted => exact ⟨a, List.mem_append_left _ ha, hnumber, hstarted⟩
  | marked | dispatched | ended =>
    cases List.mem_append.mp ha with
    | inl hpast => exact ⟨a, List.mem_append_left _ hpast, hnumber, hstarted⟩
    | inr hlast =>
      obtain rfl := List.mem_singleton.mp hlast
      exact ⟨_, List.mem_append_right _ (List.mem_singleton_self _), hnumber, by first | rfl | exact hstarted⟩

theorem Step.committed {j j' : Job} {e : JobEvent} (h : Step j e j')
    (hends : ∀ ending, e = .ended ending → ending.request.isTerminal = true) {number : Nat}
    (hj : j.Committed number) : j'.Committed number := by
  obtain ⟨r, past, a, hr, ha, hcount, hstarted, hstatus⟩ := hj
  have hwaiting : ¬ r.status.isWaiting = true := by
    intro hw
    cases hstatus with
    | inl hleased => rw [hleased] at hw; exact Bool.false_ne_true hw
    | inr hterminal =>
      rw [terminal_not_waiting hterminal] at hw
      exact Bool.false_ne_true hw
  cases h with
  | inserted => exact absurd hr (by simp)
  | cancelled _ hw | granted hw =>
    obtain rfl := Option.some.inj hr
    exact absurd hw hwaiting
  | cancelAsked =>
    obtain rfl := Option.some.inj hr
    exact ⟨_, past, a, rfl, ha, hcount, hstarted, hstatus⟩
  | renewed => exact ⟨r, past, a, hr, ha, hcount, hstarted, hstatus⟩
  | takenOver =>
    obtain rfl := Option.some.inj hr
    exact ⟨_, past, a, rfl, ha, hcount, hstarted, hstatus⟩
  | marked =>
    obtain rfl := Option.some.inj hr
    exact ⟨_, _, _, rfl, rfl, hcount, rfl, hstatus⟩
  | dispatched hleased hmarked =>
    obtain rfl := Option.some.inj hr
    exact ⟨_, _, _, rfl, rfl, hcount, hmarked, .inl hleased⟩
  | ended =>
    obtain rfl := Option.some.inj hr
    obtain ⟨-, hlast⟩ := List.append_inj' ha rfl
    obtain rfl := List.singleton_inj.mp hlast
    exact ⟨_, _, _, rfl, rfl, hcount, hstarted, .inr (hends _ rfl)⟩

theorem Step.names {P : String → Prop} {j j' : Job} {e : JobEvent} (h : Step j e j')
    (hdispatched : ∀ run, e = .dispatched run → P run)
    (hended : ∀ ending run, e = .ended ending → ending.workflowRunId = some run → P run)
    (hj : j.Names P) : j'.Names P := by
  intro r' hr' run hrun
  cases h with
  | inserted _ _ _ _ hnone =>
    obtain rfl := Option.some.inj hr'
    rw [hnone] at hrun
    exact nomatch hrun
  | cancelled | cancelAsked | granted =>
    obtain rfl := Option.some.inj hr'
    exact hj _ rfl run hrun
  | renewed | marked | takenOver => exact hj r' hr' run hrun
  | dispatched =>
    obtain rfl := Option.some.inj hr'
    obtain rfl := Option.some.inj hrun
    exact hdispatched _ rfl
  | @ended r _ _ _ ending =>
    obtain rfl := Option.some.inj hr'
    have hrun : ending.workflowRunId.or r.workflowRunId = some run := hrun
    cases hnew : ending.workflowRunId with
    | none =>
      rw [hnew] at hrun
      exact hj _ rfl run hrun
    | some named =>
      rw [hnew] at hrun
      exact hended ending run rfl (hnew.trans hrun)

theorem Step.kind {j j' : Job} {e : JobEvent} (h : Step j e j') {kind : DispatchIdempotency}
    (hj : j.Kind kind) : j'.Kind kind := by
  obtain ⟨r, hr, hkind⟩ := hj
  cases h with
  | inserted => exact absurd hr (by simp)
  | renewed => exact ⟨r, hr, hkind⟩
  | cancelled | cancelAsked | granted | marked | dispatched | takenOver | ended =>
    obtain rfl := Option.some.inj hr
    exact ⟨_, rfl, hkind⟩

end Job

/-- The lease and the run with which an operation binds a request. -/
def StoreOp.binds : StoreOp → Option (JobLease × String)
  | .markWorkflowDispatched lease workflowRunId _ | .completeJob lease workflowRunId _ =>
    some (lease, workflowRunId)
  | _ => none

/-- The operation reports that a dispatch has failed. -/
def StoreOp.isKnownFailure : StoreOp → Bool
  | .failJob _ failure _ => !failure.outcomeUnknown
  | _ => false

namespace SchedulerStore
variable {s s' : SchedulerStore}

/-- The job of an expired lease is over if it was marked and must not be repeated. -/
theorem Expires.terminal (hs : s.Sound) {now : Instant} {id : String} {ending : JobEnd}
    (h : s.Expires now id ending) {number : Nat} (hcommitted : (s.job id).Committed number)
    (hkind : (s.job id).Kind .nonIdempotent) : ending.request.isTerminal = true := by
  obtain ⟨job, hjob, hid, hend⟩ := h
  obtain ⟨hfound, l, past', hw⟩ := expiredJobs_working hs hjob
  obtain ⟨r, past, a, hr, ha, -, hstarted, -⟩ := hcommitted
  obtain ⟨r', hr', hkind⟩ := hkind
  obtain rfl := Option.some.inj (hr.symm.trans hr')
  rw [hid] at hfound hw
  obtain rfl := Option.some.inj (hfound.symm.trans hr)
  -- The attempt of the lease is the last one.
  have hattempts : past ++ [a] = past' ++ [job.2] := ha.symm.trans (Working.attempts hw)
  obtain ⟨-, hlast⟩ := List.append_inj' hattempts rfl
  obtain rfl := List.singleton_inj.mp hlast
  unfold expiredEnd at hend
  split at hend
  · exact nomatch hend
  · rw [← Option.some.inj hend]
    simp [hkind, hstarted, RunRequestStatus.isTerminal]

/-- Only the completion of a job binds its request on the way out. -/
theorem ends_names {op : StoreOp} {id run : String} {ending : JobEnd} (h : op.Ends s id ending)
    (hrun : ending.workflowRunId = some run) :
    ∃ lease, op.binds = some (lease, run) ∧ lease.runRequestId = id := by
  have hexpired : ∀ {now}, s.Expires now id ending → ending.workflowRunId = none := by
    intro now h
    obtain ⟨job, -, -, hend⟩ := h
    unfold expiredEnd at hend
    split at hend
    · exact nomatch hend
    · rw [← Option.some.inj hend]
  cases h with
  | cancelled => exact nomatch hrun
  | @completed lease workflowRunId now =>
    obtain rfl := Option.some.inj hrun
    exact ⟨lease, rfl, rfl⟩
  | finished => exact nomatch hrun
  | failed =>
    unfold failedEnd at hrun
    split at hrun
    · exact nomatch hrun
    · split at hrun
      · exact nomatch hrun
      · exact nomatch hrun
  | expiredOnClaim h | expiredOnRenew h =>
    rw [hexpired h] at hrun
    exact nomatch hrun

/-- An operation other than a known failure commits a job for good. -/
theorem ends_terminal (hs : s.Sound) {op : StoreOp} {id : String} {ending : JobEnd}
    (h : op.Ends s id ending) {number : Nat} (hcommitted : (s.job id).Committed number)
    (hkind : (s.job id).Kind .nonIdempotent)
    (hfail : op.isKnownFailure = false) : ending.request.isTerminal = true := by
  cases h with
  | cancelled | completed => rfl
  | finished _ hterminal => exact hterminal
  | @failed lease failure now r _ hr =>
    obtain ⟨r', hr', hkind⟩ := hkind
    obtain rfl := Option.some.inj (hr.symm.trans hr')
    unfold failedEnd
    have hunknown : failure.outcomeUnknown = true := by simpa [StoreOp.isKnownFailure] using hfail
    rw [if_pos ⟨hkind, hunknown⟩]
    rfl
  | expiredOnClaim h | expiredOnRenew h => exact h.terminal hs hcommitted hkind

/-- A marked attempt is committed. -/
theorem markSideEffectStarted_committed (hs : s.Sound) {lease : JobLease} {now : Instant}
    (h : markSideEffectStarted lease now s = .ok ((), s')) :
    (s'.job lease.runRequestId).Committed lease.attemptNumber := by
  obtain ⟨_, hheld, h⟩ := ok_of_bind h
  obtain ⟨-, h⟩ := ok_of_guard h
  obtain ⟨r, l, past, a, hw, hnumber⟩ := hs.held hheld
  have hjob := Working.updateAttempt hw (fun row => row.status = .running)
    (fun row => { row with sideEffectStarted := true }) (fun _ => rfl) (by simp [hw.running])
  rw [← (Prod.mk.inj (Except.ok.inj h)).2, hnumber, hjob]
  exact ⟨r, past, _, rfl, rfl, rfl, rfl, .inl hw.status⟩

/-- Whoever holds a lease of a job that is committed holds the one of its last attempt. -/
theorem Sound.held_committed (hs : s.Sound) {lease : JobLease} {now : Instant}
    (h : s.assertJobLease lease now = .ok ()) {number : Nat}
    (hcommitted : (s.job lease.runRequestId).Committed number) : lease.attemptNumber = number := by
  obtain ⟨r, l, past, a, hw, hnumber⟩ := hs.held h
  obtain ⟨r', _, _, hr', -, hcount, -⟩ := hcommitted
  obtain rfl := Option.some.inj ((Working.request hw).symm.trans hr')
  exact hnumber.trans hcount

/-- A claim grants an attempt that nobody was granted before. -/
theorem claimDue_begun (hs : s.Sound) {writerLease : SchedulerLease} {owner token : String}
    {ttlSeconds : ℤ} {now : Instant} {request : RunRequest} {lease : JobLease}
    (h : claimDue writerLease owner ttlSeconds token now s = .ok (some (request, lease), s')) :
    lease.runRequestId = request.id ∧ ¬(s.job lease.runRequestId).Begun lease.attemptNumber ∧
      (s'.job lease.runRequestId).Begun lease.attemptNumber := by
  cases claimDue_ok h with
  | inl hnone => exact nomatch hnone.1
  | inr hsome =>
    obtain ⟨row, _, _, hcandidate, -, hid, hnumber, -, -, hclaimed, rfl⟩ := hsome
    obtain ⟨rfl, rfl⟩ := Prod.mk.inj (Option.some.inj hclaimed)
    obtain ⟨hrow, -⟩ := candidates_spec hcandidate
    have hmoves : s.Moves (fun _ _ => True) [] (s.recoverExpiredJobs now) :=
      recoverExpiredJobs_moves hs now fun _ _ _ => trivial
    have hsound := hmoves.sound hs
    refine ⟨hid, fun hbegun => ?_, ?_⟩
    · have hlater := (hmoves.jobs lease.runRequestId).keeps (fun hstep _ => hstep.begun) hbegun
      have hfound := request?_of_mem hsound.ids hrow
      have hle := hlater.le (hsound.jobs _) (r := row) (by rw [hid]; exact hfound)
      omega
    · have hmem : lease.attempt ∈
          ((s.recoverExpiredJobs now).grantJob lease).attemptsOf lease.runRequestId := by
        apply List.mem_filter.mpr
        exact ⟨List.mem_append_right _ (List.mem_singleton_self _), by simp [JobLease.attempt]⟩
      exact List.mem_map_of_mem hmem

end SchedulerStore
end Operant.Scheduler
