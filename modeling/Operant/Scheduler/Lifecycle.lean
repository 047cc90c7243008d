import Operant.Scheduler.Jobs

/-! The life of one run request.

A `Job` is a request with its leases and its attempts. `Job.Step` says all that may happen
to one, whichever transaction does it; `Job.Ok` is what every step keeps. -/
namespace Operant.Scheduler
open Operant.Tables SchedulerStore

structure Job where
  request : Option RunRequest := none
  leases : List JobLease := []
  attempts : List JobAttempt := []

inductive JobEvent where
  | inserted (request : RunRequest)
  | cancelled (asked : Bool)
  | cancelAsked
  | granted (lease : JobLease)
  | renewed
  | marked
  | dispatched (workflowRunId : String)
  | takenOver (lease : JobLease)
  | ended (ending : JobEnd)

/-- The leases an event hands out. -/
def JobEvent.grants : JobEvent → List JobLease
  | .granted lease | .takenOver lease => [lease]
  | .inserted _ | .cancelled _ | .cancelAsked | .renewed | .marked | .dispatched _ | .ended _ => []

/-- The request after its job has ended. -/
def SchedulerStore.JobEnd.onRequest (ending : JobEnd) (row : RunRequest) : RunRequest :=
  { row with
    status := ending.request
    availableAt := ending.availableAt.getD row.availableAt
    lastErrorCode := ending.errorCode.or row.lastErrorCode
    workflowRunId := ending.workflowRunId.or row.workflowRunId }

/-- The attempt after its job has ended. -/
def SchedulerStore.JobEnd.onAttempt (ending : JobEnd) (row : JobAttempt) : JobAttempt :=
  { row with
    status := ending.attempt
    errorCode := ending.errorCode.or row.errorCode
    workflowRunId := ending.workflowRunId.or row.workflowRunId }

theorem SchedulerStore.JobEnd.onRequest_id (ending : JobEnd) (row : RunRequest) :
    (ending.onRequest row).id = row.id := rfl

theorem SchedulerStore.JobEnd.onAttempt_id (ending : JobEnd) (row : JobAttempt) :
    (ending.onAttempt row).runRequestId = row.runRequestId := rfl

/-- A request at work is left for a terminal status, or to wait if it has attempts left. -/
def SchedulerStore.JobEnd.Fits (ending : JobEnd) (row : RunRequest) : Prop :=
  ending.attempt ≠ .running ∧
    (ending.request.isTerminal = true ∨
      ending.request = .retryWait ∧ row.attemptCount < row.maxAttempts)

/-- The attempt that begins with a lease. -/
def JobLease.attempt (lease : JobLease) : JobAttempt :=
  { runRequestId := lease.runRequestId
    attemptNumber := lease.attemptNumber
    leaseOwner := lease.owner
    leaseToken := lease.token
    leaseFencing := lease.fencing }

/-- `MAX(lease_fencing)` and one, or one. -/
def nextFencing (attempts : List JobAttempt) : Nat :=
  match (attempts.map JobAttempt.leaseFencing).max? with
  | none => 1
  | some prior => prior + 1

namespace Job

def numbers (attempts : List JobAttempt) : List Nat := attempts.map JobAttempt.attemptNumber

/-- What is true of every job: absent, idle, or leased for its last attempt. -/
inductive Ok : Job → Prop where
  | absent : Ok {}
  | idle {r : RunRequest} {attempts : List JobAttempt} (hstatus : r.status ≠ .leased)
      (hnumbers : numbers attempts = List.range' 1 r.attemptCount)
      (hmax : r.attemptCount ≤ r.maxAttempts)
      (hwaiting : r.status.isWaiting = true → r.attemptCount < r.maxAttempts)
      (hended : ∀ a ∈ attempts, a.status ≠ .running) : Ok ⟨some r, [], attempts⟩
  | leased {r : RunRequest} {l : JobLease} {past : List JobAttempt} {a : JobAttempt}
      (hstatus : r.status = .leased)
      (hnumbers : numbers (past ++ [a]) = List.range' 1 r.attemptCount)
      (hmax : r.attemptCount ≤ r.maxAttempts) (hlease : l.attemptNumber = r.attemptCount)
      (hrunning : a.status = .running)
      (hended : ∀ b ∈ past, b.status ≠ .running) : Ok ⟨some r, [l], past ++ [a]⟩

inductive Step : Job → JobEvent → Job → Prop where
  | inserted {r : RunRequest} (hstatus : r.status = .queued) (hcount : r.attemptCount = 0)
      (hmax : 1 ≤ r.maxAttempts) (hasked : r.cancelRequested = false)
      (hrun : r.workflowRunId = none) : Step {} (.inserted r) ⟨some r, [], []⟩
  | cancelled {r : RunRequest} {leases : List JobLease} {attempts : List JobAttempt}
      (asked : Bool) (hstatus : r.status.isWaiting = true) :
      Step ⟨some r, leases, attempts⟩ (.cancelled asked)
        ⟨some { r with status := .cancelled, cancelRequested := asked || r.cancelRequested },
          leases, attempts⟩
  | cancelAsked {r : RunRequest} {leases : List JobLease} {attempts : List JobAttempt}
      (hstatus : r.status = .leased) :
      Step ⟨some r, leases, attempts⟩ .cancelAsked
        ⟨some { r with cancelRequested := true }, leases, attempts⟩
  | granted {r : RunRequest} {attempts : List JobAttempt} {l : JobLease}
      (hstatus : r.status.isWaiting = true) (hasked : r.cancelRequested = false)
      (hnumber : l.attemptNumber = r.attemptCount + 1) (hfencing : l.fencing = nextFencing attempts) :
      Step ⟨some r, [], attempts⟩ (.granted l)
        ⟨some { r with status := .leased, attemptCount := l.attemptNumber }, [l],
          attempts ++ [l.attempt]⟩
  | renewed {request : Option RunRequest} {l : JobLease} {attempts : List JobAttempt}
      (expiresAt : Instant) :
      Step ⟨request, [l], attempts⟩ .renewed ⟨request, [{ l with expiresAt := expiresAt }], attempts⟩
  | marked {r : RunRequest} {leases : List JobLease} {past : List JobAttempt} {a : JobAttempt}
      (hstatus : r.status = .leased) (hasked : r.cancelRequested = false) :
      Step ⟨some r, leases, past ++ [a]⟩ .marked
        ⟨some r, leases, past ++ [{ a with sideEffectStarted := true }]⟩
  | dispatched {r : RunRequest} {leases : List JobLease} {past : List JobAttempt} {a : JobAttempt}
      {id : String} (hstatus : r.status = .leased) (hstarted : a.sideEffectStarted = true)
      (hrun : r.workflowRunId.all (· = id)) :
      Step ⟨some r, leases, past ++ [a]⟩ (.dispatched id)
        ⟨some { r with workflowRunId := id }, leases, past ++ [{ a with workflowRunId := id }]⟩
  | takenOver {r : RunRequest} {l l' : JobLease} {attempts : List JobAttempt}
      (hstatus : r.status = .leased) (hrun : r.workflowRunId.isSome)
      (hid : l'.runRequestId = l.runRequestId) (hnumber : l'.attemptNumber = l.attemptNumber)
      (hfencing : l'.fencing = l.fencing + 1) :
      Step ⟨some r, [l], attempts⟩ (.takenOver l') ⟨some r, [l'], attempts⟩
  | ended {r : RunRequest} {l : JobLease} {past : List JobAttempt} {a : JobAttempt}
      {ending : JobEnd} (hstatus : r.status = .leased) (hfits : ending.Fits r) :
      Step ⟨some r, [l], past ++ [a]⟩ (.ended ending)
        ⟨some (ending.onRequest r), [], past ++ [ending.onAttempt a]⟩

/-- A job at work: its lease and its last attempt, which bear one number. -/
structure Working (j : Job) (r : RunRequest) (l : JobLease) (past : List JobAttempt)
    (a : JobAttempt) : Prop where
  eq : j = ⟨some r, [l], past ++ [a]⟩
  status : r.status = .leased
  lease : l.attemptNumber = r.attemptCount
  attempt : a.attemptNumber = r.attemptCount
  running : a.status = .running
  earlier : ∀ b ∈ past, b.attemptNumber < r.attemptCount

theorem numbers_append (past rest : List JobAttempt) :
    numbers (past ++ rest) = numbers past ++ numbers rest := List.map_append ..

/-- The numbers do not depend on anything else about the last attempt. -/
theorem numbers_last {past : List JobAttempt} {a b : JobAttempt} {n : Nat}
    (h : numbers (past ++ [a]) = List.range' 1 n) (hb : b.attemptNumber = a.attemptNumber) :
    numbers (past ++ [b]) = List.range' 1 n := by
  rw [← h, numbers_append, numbers_append]
  show numbers past ++ [b.attemptNumber] = numbers past ++ [a.attemptNumber]
  rw [hb]

theorem last_number {past : List JobAttempt} {a : JobAttempt} {n : Nat}
    (h : numbers (past ++ [a]) = List.range' 1 n) :
    a.attemptNumber = n ∧ ∀ b ∈ past, b.attemptNumber < n := by
  rw [numbers_append] at h
  cases n with
  | zero => exact absurd h (by simp [numbers])
  | succ n =>
    rw [List.range'_1_concat] at h
    obtain ⟨hpast, hlast⟩ := List.append_inj' h rfl
    refine ⟨?_, fun b hb => ?_⟩
    · have := List.singleton_inj.mp hlast
      omega
    · have hmem : b.attemptNumber ∈ numbers past := List.mem_map_of_mem hb
      rw [hpast, List.mem_range'_1] at hmem
      omega

theorem Ok.working {j : Job} (h : j.Ok) {l : JobLease} (hl : l ∈ j.leases) :
    ∃ r past a, j.Working r l past a := by
  cases h with
  | absent => exact absurd hl List.not_mem_nil
  | idle => exact absurd hl List.not_mem_nil
  | @leased r l' past a hstatus hnumbers hmax hlease hrunning hended =>
    have hnumber := last_number hnumbers
    obtain rfl := List.mem_singleton.mp hl
    exact ⟨r, past, a, rfl, hstatus, hlease, hnumber.1, hrunning, hnumber.2⟩

/-- A request that is not leased has no lease and no running attempt. -/
theorem Ok.idle_of_no_lease {j : Job} (h : j.Ok) (hl : j.leases = []) :
    (∀ r, j.request = some r → r.status ≠ .leased) ∧ ∀ a ∈ j.attempts, a.status ≠ .running := by
  cases h with
  | absent => exact ⟨fun r hr => absurd hr (by simp), fun a ha => absurd ha List.not_mem_nil⟩
  | idle hstatus _ _ _ hended =>
    refine ⟨fun r hr => ?_, hended⟩
    rw [← Option.some.inj hr]
    exact hstatus
  | leased => exact absurd hl (List.cons_ne_nil _ _)

theorem leased_not_waiting {status : RunRequestStatus} (h : status = .leased) :
    status.isWaiting = false := by
  rw [h]
  rfl

theorem waiting_not_leased {status : RunRequestStatus} (h : status.isWaiting = true) :
    status ≠ .leased := by
  intro hleased
  rw [leased_not_waiting hleased] at h
  exact Bool.false_ne_true h

theorem terminal_not_waiting {status : RunRequestStatus} (h : status.isTerminal = true) :
    status.isWaiting = false := by
  cases status <;> simp_all [RunRequestStatus.isTerminal, RunRequestStatus.isWaiting]

/-- An ended job is idle. -/
theorem ends_not_leased {ending : JobEnd} {r : RunRequest} (h : ending.Fits r) :
    ending.request ≠ .leased := by
  intro hleased
  cases h.2 with
  | inl hterminal =>
    rw [hleased] at hterminal
    exact Bool.false_ne_true hterminal
  | inr hwait =>
    rw [hleased] at hwait
    exact RunRequestStatus.noConfusion hwait.1

theorem Step.ok {j j' : Job} {e : JobEvent} (h : Step j e j') (hj : j.Ok) : j'.Ok := by
  cases h with
  | inserted hstatus hcount hmax _ _ =>
    have hnot : ∀ a ∈ ([] : List JobAttempt), a.status ≠ .running := by simp
    refine .idle (by simp [hstatus]) ?_ (by omega) (fun _ => by omega) hnot
    rw [hcount]
    rfl
  | cancelled asked hstatus =>
    cases hj with
    | idle _ hnumbers hmax _ hended =>
      exact .idle (by simp) hnumbers hmax (fun h => by simp [RunRequestStatus.isWaiting] at h) hended
    | leased hleased => exact absurd hleased (waiting_not_leased hstatus)
  | cancelAsked hstatus =>
    cases hj with
    | idle hnot => exact absurd hstatus hnot
    | leased _ hnumbers hmax hlease hrunning hended =>
      exact .leased hstatus hnumbers hmax hlease hrunning hended
  | @granted r attempts l hstatus hasked hnumber hfencing =>
    cases hj with
    | idle _ hnumbers hmax hwaiting hended =>
      have hlt := hwaiting hstatus
      refine .leased rfl ?_ ?_ rfl rfl hended
      · rw [numbers_append, hnumbers]
        show List.range' 1 r.attemptCount ++ [l.attemptNumber] = List.range' 1 l.attemptNumber
        rw [hnumber, List.range'_1_concat, Nat.add_comm 1]
      · show l.attemptNumber ≤ r.maxAttempts
        omega
  | renewed =>
    cases hj with
    | leased hstatus hnumbers hmax hlease hrunning hended =>
      exact .leased hstatus hnumbers hmax hlease hrunning hended
  | @marked r leases past a hstatus hasked =>
    generalize hattempts : past ++ [a] = attempts at hj
    cases hj with
    | idle hnot => exact absurd hstatus hnot
    | leased _ hnumbers hmax hlease hrunning hended =>
      obtain ⟨rfl, ha⟩ := List.append_inj' hattempts rfl
      obtain rfl := List.singleton_inj.mp ha
      exact .leased hstatus (numbers_last hnumbers rfl) hmax hlease hrunning hended
  | @dispatched r leases past a id hstatus hstarted hrun =>
    generalize hattempts : past ++ [a] = attempts at hj
    cases hj with
    | idle hnot => exact absurd hstatus hnot
    | leased _ hnumbers hmax hlease hrunning hended =>
      obtain ⟨rfl, ha⟩ := List.append_inj' hattempts rfl
      obtain rfl := List.singleton_inj.mp ha
      exact .leased hstatus (numbers_last hnumbers rfl) hmax hlease hrunning hended
  | takenOver hstatus _ _ hnumber _ =>
    cases hj with
    | leased _ hnumbers hmax hlease hrunning hended =>
      exact .leased hstatus hnumbers hmax (hnumber.trans hlease) hrunning hended
  | @ended r l past a ending hstatus hfits =>
    generalize hattempts : past ++ [a] = attempts at hj
    cases hj with
    | leased _ hnumbers hmax hlease hrunning hended =>
      obtain ⟨rfl, ha⟩ := List.append_inj' hattempts rfl
      obtain rfl := List.singleton_inj.mp ha
      refine .idle (ends_not_leased hfits) (numbers_last hnumbers rfl) hmax ?_ ?_
      · intro hwaiting
        cases hfits.2 with
        | inl hterminal =>
          have h : ending.request.isWaiting = true := hwaiting
          cases hr : ending.request <;> simp_all [RunRequestStatus.isWaiting, RunRequestStatus.isTerminal]
        | inr hwait => exact hwait.2
      · intro b hb
        cases List.mem_append.mp hb with
        | inl hpast => exact hended b hpast
        | inr hlast =>
          rw [List.mem_singleton.mp hlast]
          exact hfits.1

/-- A terminal request keeps its status. -/
theorem Step.terminal {j j' : Job} {e : JobEvent} (h : Step j e j') {r : RunRequest}
    (hr : j.request = some r) (hterminal : r.status.isTerminal = true) :
    ∃ r', j'.request = some r' ∧ r'.status = r.status := by
  have hleased : r.status ≠ .leased := by
    intro h
    rw [h] at hterminal
    exact Bool.false_ne_true hterminal
  have hwaiting : ¬ r.status.isWaiting = true := by
    intro h
    cases hs : r.status <;> simp_all [RunRequestStatus.isWaiting, RunRequestStatus.isTerminal]
  cases h with
  | inserted => exact absurd hr (by simp)
  | cancelled _ hstatus | granted hstatus =>
    obtain rfl := Option.some.inj hr
    exact absurd hstatus hwaiting
  | cancelAsked hstatus | marked hstatus | dispatched hstatus | takenOver hstatus | ended hstatus =>
    obtain rfl := Option.some.inj hr
    exact absurd hstatus hleased
  | renewed => exact ⟨r, hr, rfl⟩

/-- Any number of steps, each one of those that are `allowed`, with the leases they hand
out. -/
inductive Path (allowed : JobEvent → Prop) : Job → List JobLease → Job → Prop where
  | refl (j : Job) : Path allowed j [] j
  | step {j m j' : Job} {g : List JobLease} {e : JobEvent} (path : Path allowed j g m)
      (h : Step m e j') (he : allowed e) : Path allowed j (g ++ e.grants) j'

variable {allowed : JobEvent → Prop}

theorem Path.single {j j' : Job} {e : JobEvent} (h : Step j e j') (he : allowed e) :
    Path allowed j e.grants j' := .step (.refl j) h he

theorem Path.trans {j m j' : Job} {g g' : List JobLease} (h : Path allowed j g m)
    (h' : Path allowed m g' j') : Path allowed j (g ++ g') j' := by
  induction h' with
  | refl => rwa [List.append_nil]
  | step _ hstep he ih =>
    rw [← List.append_assoc]
    exact .step ih hstep he

theorem Path.ok {j j' : Job} {g : List JobLease} (h : Path allowed j g j') (hj : j.Ok) : j'.Ok := by
  induction h with
  | refl => exact hj
  | step _ hstep _ ih => exact hstep.ok ih

theorem Path.terminal {j j' : Job} {g : List JobLease} (h : Path allowed j g j') {r : RunRequest}
    (hr : j.request = some r) (hterminal : r.status.isTerminal = true) :
    ∃ r', j'.request = some r' ∧ r'.status = r.status := by
  induction h with
  | refl => exact ⟨r, hr, rfl⟩
  | step _ hstep _ ih =>
    obtain ⟨m, hm, hstatus⟩ := ih
    obtain ⟨r', hr', h'⟩ := hstep.terminal hm (by rw [hstatus, hterminal])
    exact ⟨r', hr', h'.trans hstatus⟩

end Job
end Operant.Scheduler
