import Operant.Scheduler.Lifecycle

/-! Every job after a write to the tables.

A write names a request: the rows of that request change as the lemmas below say, and the
jobs of the others stay. `Working` is what a valid lease tells about the job it is for. -/
namespace Operant.Scheduler
open Operant.Python Operant.Tables

namespace SchedulerStore

/-- The job of a request. -/
def job (s : SchedulerStore) (id : String) : Job := ⟨s.request? id, s.leasesOf id, s.attemptsOf id⟩

/-- The ids of the requests differ, and every job is as it should be. -/
structure Sound (s : SchedulerStore) : Prop where
  ids : (s.requests.map RunRequest.id).Nodup
  jobs : ∀ id, (s.job id).Ok

theorem sound_empty : Sound {} := ⟨List.nodup_nil, fun _ => .absent⟩

/-! ### One job after a write -/

section Writes
variable {s : SchedulerStore} {id other : String}

theorem request?_id {r : RunRequest} (h : s.request? id = some r) : r.id = id := by
  have := List.find?_some h
  simpa using this

theorem lease_runRequestId {l : JobLease} (h : l ∈ s.leasesOf id) : l.runRequestId = id := by
  have := (List.mem_filter.mp h).2
  simpa using this

theorem attempt_runRequestId {a : JobAttempt} (h : a ∈ s.attemptsOf id) : a.runRequestId = id := by
  have := (List.mem_filter.mp h).2
  simpa using this

/-- A row of the table is the row that is found by its id. -/
theorem request?_of_mem (hids : (s.requests.map RunRequest.id).Nodup) {r : RunRequest}
    (hr : r ∈ s.requests) : s.request? r.id = some r := by
  cases hfound : s.request? r.id with
  | none =>
    have := List.find?_eq_none.mp hfound r hr
    simp at this
  | some r' => rw [eq_of_key hids (List.mem_of_find?_eq_some hfound) hr (request?_id hfound)]

theorem request?_update {p : RunRequest → Bool} {f : RunRequest → RunRequest}
    (hf : ∀ r, (f r).id = r.id) :
    (update s.requests p f).find? (fun row => row.id = id) =
      (s.request? id).map fun r => if p r then f r else r :=
  find?_update fun r _ _ => by rw [hf r]

theorem leasesOf_update {p : JobLease → Bool} {f : JobLease → JobLease}
    (hf : ∀ l, (f l).runRequestId = l.runRequestId) :
    (update s.leases p f).filter (fun row => row.runRequestId = id) = update (s.leasesOf id) p f :=
  filter_update fun l _ _ => by rw [hf l]

theorem attemptsOf_update {p : JobAttempt → Bool} {f : JobAttempt → JobAttempt}
    (hf : ∀ a, (f a).runRequestId = a.runRequestId) :
    (update s.attempts p f).filter (fun row => row.runRequestId = id) =
      update (s.attemptsOf id) p f :=
  filter_update fun a _ _ => by rw [hf a]

theorem job_updateRequest (guard : RunRequest → Bool) (f : RunRequest → RunRequest)
    (hf : ∀ r, (f r).id = r.id) :
    (s.updateRequest id guard f).job id =
      ⟨(s.job id).request.map fun r => if guard r then f r else r, (s.job id).leases,
        (s.job id).attempts⟩ := by
  have h : (s.updateRequest id guard f).request? id =
      (s.request? id).map fun r => if r.id = id && guard r then f r else r := request?_update hf
  show Job.mk _ _ _ = Job.mk ((s.request? id).map _) _ _
  rw [h]
  congr 1
  cases hr : s.request? id with
  | none => rfl
  | some r => simp [request?_id hr]

theorem job_updateRequest_ne (guard : RunRequest → Bool) (f : RunRequest → RunRequest)
    (hf : ∀ r, (f r).id = r.id) (hne : other ≠ id) :
    (s.updateRequest id guard f).job other = s.job other := by
  have h : (s.updateRequest id guard f).request? other =
      (s.request? other).map fun r => if r.id = id && guard r then f r else r := request?_update hf
  show Job.mk _ _ _ = Job.mk _ _ _
  rw [h]
  congr 1
  cases hr : s.request? other with
  | none => rfl
  | some r => simp [request?_id hr, hne]

theorem job_updateAttempt {number : Nat} {guard : JobAttempt → Bool} {f : JobAttempt → JobAttempt}
    (hf : ∀ a, (f a).runRequestId = a.runRequestId) :
    (s.updateAttempt id number guard f).job id =
      ⟨(s.job id).request, (s.job id).leases,
        update (s.job id).attempts (fun a => a.attemptNumber = number && guard a) f⟩ := by
  have h : (s.updateAttempt id number guard f).attemptsOf id = _ := attemptsOf_update hf
  show Job.mk _ _ _ = Job.mk _ _ _
  rw [h]
  congr 1
  apply List.map_congr_left
  intro a ha
  simp [attempt_runRequestId ha]

theorem job_updateAttempt_ne {number : Nat} {guard : JobAttempt → Bool}
    {f : JobAttempt → JobAttempt} (hf : ∀ a, (f a).runRequestId = a.runRequestId)
    (hne : other ≠ id) : (s.updateAttempt id number guard f).job other = s.job other := by
  have h : (s.updateAttempt id number guard f).attemptsOf other = _ := attemptsOf_update hf
  show Job.mk _ _ _ = Job.mk _ _ _
  rw [h]
  congr 1
  apply update_eq_self
  intro a ha
  simp [attempt_runRequestId ha, hne]

theorem job_deleteLease :
    (s.deleteLease id).job id = ⟨(s.job id).request, [], (s.job id).attempts⟩ := by
  have h : (s.deleteLease id).leasesOf id = [] := by
    apply List.filter_eq_nil_iff.mpr
    intro l hl
    have := (List.mem_filter.mp hl).2
    simpa using this
  show Job.mk _ _ _ = Job.mk _ _ _
  rw [h]
  rfl

theorem job_deleteLease_ne (hne : other ≠ id) : (s.deleteLease id).job other = s.job other := by
  have h : (s.deleteLease id).leasesOf other = s.leasesOf other := by
    show (s.leases.filter _).filter _ = s.leases.filter _
    rw [List.filter_filter]
    apply List.filter_congr
    intro l _
    by_cases hl : l.runRequestId = other <;> simp [hl, hne]
  show Job.mk _ _ _ = Job.mk _ _ _
  rw [h]
  rfl

end Writes
/-! ### Jobs at work -/

section Work
variable {s : SchedulerStore} {id : String}

theorem lease?_eq : s.lease? id = (s.leasesOf id).head? := List.head?_filter.symm

theorem attempt?_eq {number : Nat} :
    s.attempt? id number = (s.attemptsOf id).find? fun row => row.attemptNumber = number := by
  show s.attempts.find? _ = (s.attempts.filter _).find? _
  rw [List.find?_filter]
  simp

theorem Sound.working (hs : s.Sound) {l : JobLease} (hl : s.lease? id = some l) :
    ∃ r past a, (s.job id).Working r l past a := by
  rw [lease?_eq] at hl
  exact (hs.jobs id).working (List.mem_of_mem_head? hl)

variable {r : RunRequest} {l : JobLease} {past : List JobAttempt} {a : JobAttempt}

theorem Working.request (h : (s.job id).Working r l past a) : s.request? id = some r :=
  congrArg Job.request h.eq

theorem Working.leases (h : (s.job id).Working r l past a) : s.leasesOf id = [l] :=
  congrArg Job.leases h.eq

theorem Working.attempts (h : (s.job id).Working r l past a) : s.attemptsOf id = past ++ [a] :=
  congrArg Job.attempts h.eq

theorem Working.attempt? (h : (s.job id).Working r l past a) :
    s.attempt? id r.attemptCount = some a := by
  rw [attempt?_eq, Working.attempts h]
  apply List.find?_append.trans
  have hpast : past.find? (fun row => row.attemptNumber = r.attemptCount) = none := by
    rw [List.find?_eq_none]
    intro b hb
    have := h.earlier b hb
    simp only [decide_eq_true_eq]
    omega
  rw [hpast]
  simp [h.attempt]

/-- A write to the attempt at work. -/
theorem Working.updateAttempt (h : (s.job id).Working r l past a) (guard : JobAttempt → Bool)
    (f : JobAttempt → JobAttempt) (hf : ∀ a, (f a).runRequestId = a.runRequestId)
    (hguard : guard a = true) :
    (s.updateAttempt id r.attemptCount guard f).job id = ⟨some r, [l], past ++ [f a]⟩ := by
  rw [job_updateAttempt hf, h.eq]
  show Job.mk _ _ (update (past ++ [a]) _ f) = _
  rw [update_last]
  · intro b hb
    have := h.earlier b hb
    have hne : b.attemptNumber ≠ r.attemptCount := by omega
    simp [hne]
  · simp [h.attempt, hguard]

/-- A write to the attempt at work and to its request. -/
theorem Working.updateBoth (h : (s.job id).Working r l past a) (guard : JobAttempt → Bool)
    (f : JobAttempt → JobAttempt) (hf : ∀ a, (f a).runRequestId = a.runRequestId)
    (hguard : guard a = true) (leased : RunRequest → Bool) (k : RunRequest → RunRequest)
    (hk : ∀ r, (k r).id = r.id) (hleased : leased r = true) :
    ((s.updateAttempt id r.attemptCount guard f).updateRequest id leased k).job id =
        ⟨some (k r), [l], past ++ [f a]⟩ ∧
      ∀ other, other ≠ id →
        ((s.updateAttempt id r.attemptCount guard f).updateRequest id leased k).job other =
          s.job other := by
  constructor
  · rw [job_updateRequest _ _ hk, Working.updateAttempt h guard f hf hguard]
    simp [hleased]
  · intro other hne
    rw [job_updateRequest_ne _ _ hk hne, job_updateAttempt_ne hf hne]

/-- Who passes the check holds the lease of a job at work. -/
theorem assertJobLease_ok {lease : JobLease} {now : Instant}
    (h : s.assertJobLease lease now = .ok ()) :
    ∃ row, s.lease? lease.runRequestId = some row ∧ row.owner = lease.owner ∧
      row.token = lease.token ∧ row.fencing = lease.fencing ∧
      row.attemptNumber = lease.attemptNumber ∧ now < row.expiresAt := by
  unfold assertJobLease at h
  cases hrow : s.lease? lease.runRequestId with
  | none =>
    rw [hrow] at h
    exact nomatch h
  | some row =>
    rw [hrow] at h
    simp only at h
    split at h
    · exact nomatch h
    · rename_i hno
      simp only [not_or, not_not, not_le] at hno
      obtain ⟨howner, htoken, hfencing, hnumber, hlive⟩ := hno
      exact ⟨row, rfl, howner, htoken, hfencing, hnumber, hlive⟩

theorem Sound.held (hs : s.Sound) {lease : JobLease} {now : Instant}
    (h : s.assertJobLease lease now = .ok ()) :
    ∃ r l past a, (s.job lease.runRequestId).Working r l past a ∧
      lease.attemptNumber = r.attemptCount := by
  obtain ⟨row, hrow, -, -, -, hnumber, -⟩ := assertJobLease_ok h
  obtain ⟨r, past, a, hw⟩ := hs.working hrow
  exact ⟨r, row, past, a, hw, hnumber.symm.trans hw.lease⟩

theorem endJob_eq (number : Nat) (ending : JobEnd) :
    s.endJob id number ending =
      ((s.updateAttempt id number (fun row => row.status = .running) ending.onAttempt).updateRequest
        id (fun row => row.status = .leased) ending.onRequest).deleteLease id := rfl

theorem endJob_working (h : (s.job id).Working r l past a) (ending : JobEnd) :
    (s.endJob id r.attemptCount ending).job id =
      ⟨some (ending.onRequest r), [], past ++ [ending.onAttempt a]⟩ := by
  rw [endJob_eq, job_deleteLease, (Working.updateBoth h _ _ ending.onAttempt_id (by simp [h.running])
    _ _ ending.onRequest_id (by simp [h.status])).1]

/-- Ending a job that is not at work changes nothing. -/
theorem endJob_idle (h : s.leasesOf id = [])
    (hstatus : ∀ r, s.request? id = some r → r.status ≠ .leased)
    (hended : ∀ a ∈ s.attemptsOf id, a.status ≠ .running) (number : Nat) (ending : JobEnd) :
    (s.endJob id number ending).job id = s.job id := by
  have hattempts : update (s.job id).attempts
      (fun a => a.attemptNumber = number && decide (a.status = .running)) ending.onAttempt =
      s.attemptsOf id :=
    update_eq_self fun a ha => by simp [hended a ha]
  rw [endJob_eq, job_deleteLease, job_updateRequest _ _ ending.onRequest_id,
    job_updateAttempt ending.onAttempt_id, hattempts]
  show Job.mk ((s.request? id).map _) [] _ = Job.mk _ _ _
  rw [h]
  congr 1
  cases hr : s.request? id with
  | none => rfl
  | some r => simp [hstatus r hr]

theorem endJob_ne {other : String} (hne : other ≠ id) (number : Nat) (ending : JobEnd) :
    (s.endJob id number ending).job other = s.job other := by
  rw [endJob_eq, job_deleteLease_ne hne, job_updateRequest_ne _ _ ending.onRequest_id hne,
    job_updateAttempt_ne ending.onAttempt_id hne]

end Work
end SchedulerStore
end Operant.Scheduler
