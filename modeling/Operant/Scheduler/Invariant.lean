import Operant.Scheduler.Moves

/-! What the tables of the scheduler's store say in every state.

Requests, leases and attempts are three tables, and a dozen transactions write to more than
one of them. After any run, with any clocks and any leases passed in, they agree. -/
namespace Operant.Scheduler
open Operant.Tables

namespace SchedulerStore
variable {s s' : SchedulerStore}

/-- What the three tables say about one request. -/
structure Consistent (s : SchedulerStore) (r : RunRequest) : Prop where
  leased : r.status = .leased ↔ (s.leasesOf r.id).length = 1
  leaseNumber : ∀ l ∈ s.leasesOf r.id, l.attemptNumber = r.attemptCount
  numbers : (s.attemptsOf r.id).map JobAttempt.attemptNumber = List.range' 1 r.attemptCount
  running : ∀ a ∈ s.attemptsOf r.id,
    a.status = .running ↔ r.status = .leased ∧ a.attemptNumber = r.attemptCount
  attempted : r.status = .leased → 1 ≤ r.attemptCount
  limit : r.attemptCount ≤ r.maxAttempts
  waiting : r.status = .queued ∨ r.status = .retryWait → r.attemptCount < r.maxAttempts

theorem Sound.consistent (hs : s.Sound) {r : RunRequest} (hr : r ∈ s.requests) : s.Consistent r := by
  have hfound := request?_of_mem hs.ids hr
  have hok := hs.jobs r.id
  have hjob : s.job r.id = ⟨some r, s.leasesOf r.id, s.attemptsOf r.id⟩ := by rw [← hfound]; rfl
  rw [hjob] at hok
  generalize hleases : s.leasesOf r.id = leases at hok
  generalize hattempts : s.attemptsOf r.id = attempts at hok
  cases hok with
  | idle hstatus hnumbers hmax hwaiting hended =>
    constructor
    · rw [hleases]
      simp [hstatus]
    · rw [hleases]
      exact fun l hl => absurd hl List.not_mem_nil
    · rw [hattempts]
      exact hnumbers
    · rw [hattempts]
      intro a ha
      simp [hended a ha, hstatus]
    · exact fun h => absurd h hstatus
    · exact hmax
    · intro h
      apply hwaiting
      cases h with
      | inl h => rw [h]; rfl
      | inr h => rw [h]; rfl
  | @leased _ l past a hstatus hnumbers hmax hlease hrunning hended =>
    obtain ⟨hnumber, hearlier⟩ := Job.last_number hnumbers
    constructor
    · rw [hleases]
      simp [hstatus]
    · rw [hleases]
      intro l' hl
      rw [List.mem_singleton.mp hl, hlease]
    · rw [hattempts]
      exact hnumbers
    · rw [hattempts]
      intro b hb
      cases List.mem_append.mp hb with
      | inl hpast =>
        have := hearlier b hpast
        have hne : b.attemptNumber ≠ r.attemptCount := by omega
        simp [hended b hpast, hne]
      | inr hlast =>
        rw [List.mem_singleton.mp hlast]
        simp [hrunning, hstatus, hnumber]
    · intro _
      by_contra hzero
      have hcount : r.attemptCount = 0 := by omega
      rw [hcount] at hnumbers
      simp [Job.numbers] at hnumbers
    · exact hmax
    · intro h
      rw [hstatus] at h
      exact absurd h (by simp)

/-! ### Terminal statuses -/

theorem apply_terminal (hs : s.Sound) (op : StoreOp) {id : String} {r : RunRequest}
    (hr : s.request? id = some r) (hterminal : r.status.isTerminal = true) :
    ∃ r', (op.apply s).request? id = some r' ∧ r'.status = r.status :=
  ((StoreOp.apply_moves hs op).jobs id).terminal hr hterminal

theorem run_append (ops more : List StoreOp) :
    run (ops ++ more) = more.foldl StoreOp.apply (run ops) := List.foldl_append

theorem foldl_terminal (hs : s.Sound) (more : List StoreOp) {id : String} {r : RunRequest}
    (hr : s.request? id = some r) (hterminal : r.status.isTerminal = true) :
    ∃ r', (more.foldl StoreOp.apply s).request? id = some r' ∧ r'.status = r.status := by
  induction more generalizing s r with
  | nil => exact ⟨r, hr, rfl⟩
  | cons op rest ih =>
    obtain ⟨m, hm, hstatus⟩ := apply_terminal hs op hr hterminal
    obtain ⟨r', hr', h⟩ := ih (StoreOp.apply_sound hs op) hm (by rw [hstatus, hterminal])
    exact ⟨r', hr', h.trans hstatus⟩

/-! ### The concurrency limit -/

theorem leasedCount_grantJob_le (hids : (s.requests.map RunRequest.id).Nodup) (lease : JobLease)
    (scheduleId : String) : (s.grantJob lease).leasedCount scheduleId ≤ s.leasedCount scheduleId + 1 := by
  have hupdate : (s.grantJob lease).leasedCount scheduleId ≤ s.leasedCount scheduleId +
      s.requests.countP fun row => row.id = lease.runRequestId && row.status.isWaiting :=
    countP_update_le
  have hone : (s.requests.countP fun row => row.id = lease.runRequestId && row.status.isWaiting) ≤ 1 := by
    calc (s.requests.countP fun row => row.id = lease.runRequestId && row.status.isWaiting) ≤
          s.requests.countP fun row => row.id = lease.runRequestId :=
          List.countP_mono_left fun row _ h => (Bool.and_eq_true_iff.mp h).1
      _ ≤ 1 := countP_key_le_one hids _
  omega

/-- A claim leaves no more requests of the schedule at work than its revision allows. -/
theorem claimDue_limit (hs : s.Sound) {writerLease : SchedulerLease} {owner token : String}
    {ttlSeconds : ℤ} {now : Instant} {request : RunRequest} {lease : JobLease}
    (h : claimDue writerLease owner ttlSeconds token now s = .ok (some (request, lease), s')) :
    ∃ schedule, s'.definition? request.scheduleId request.scheduleVersion = some schedule ∧
      s'.leasedCount request.scheduleId ≤ schedule.concurrencyLimit := by
  cases claimDue_ok h with
  | inl hnone => exact absurd hnone.1 (by simp)
  | inr hsome =>
    obtain ⟨row, schedule, _, hcandidate, hlimit, -, -, -, -, hclaimed, rfl⟩ := hsome
    obtain ⟨rfl, rfl⟩ := Prod.mk.inj (Option.some.inj hclaimed)
    obtain ⟨-, -, -, hschedule⟩ := candidates_spec hcandidate
    refine ⟨schedule, hschedule, ?_⟩
    have hmoves : s.Moves (fun _ _ => True) [] (s.recoverExpiredJobs now) :=
      recoverExpiredJobs_moves hs now fun _ _ _ => trivial
    have hcount := leasedCount_grantJob_le (hmoves.sound hs).ids lease row.scheduleId
    show (SchedulerStore.grantJob _ lease).leasedCount row.scheduleId ≤ _
    omega

/-- In every state that a run of operations reaches, the tables agree about every request,
terminal statuses are for good, and a claim keeps to the limit of the revision. -/
theorem store_invariant (ops : List StoreOp) :
    (∀ r ∈ (run ops).requests, (run ops).Consistent r) ∧
      (∀ r ∈ (run ops).requests, r.status.isTerminal = true → ∀ more,
        ∃ r', (run (ops ++ more)).request? r.id = some r' ∧ r'.status = r.status) ∧
      ∀ writerLease owner ttlSeconds token now request lease s',
        claimDue writerLease owner ttlSeconds token now (run ops) = .ok (some (request, lease), s') →
        ∃ schedule, s'.definition? request.scheduleId request.scheduleVersion = some schedule ∧
          s'.leasedCount request.scheduleId ≤ schedule.concurrencyLimit := by
  have hs := run_sound ops
  refine ⟨fun r hr => hs.consistent hr, fun r hr hterminal more => ?_, ?_⟩
  · rw [run_append]
    exact foldl_terminal hs more (request?_of_mem hs.ids hr) hterminal
  · intro writerLease owner ttlSeconds token now request lease s' h
    exact claimDue_limit hs h

end SchedulerStore
end Operant.Scheduler
