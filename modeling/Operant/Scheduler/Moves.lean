import Operant.Calls.Program
import Operant.Scheduler.Steps

/-! What every transaction does to every job.

`exec_moves` is the only place where the transactions are taken apart: whatever an operation
commits, each job has gone through steps of its life, among those the operation may
cause, and has been handed out the leases that the operation grants. -/
namespace Operant.Scheduler
open Operant.Python Operant.Tables Operant.Calls

/-! ### What an operation may cause -/

namespace SchedulerStore

/-- The endings that the recovery of expired leases brings about. -/
def Expires (s : SchedulerStore) (now : Instant) (id : String) (ending : JobEnd) : Prop :=
  ∃ job ∈ s.expiredJobs now, job.1.id = id ∧ expiredEnd job.1 job.2 now = some ending

/-- The leases that `takeOver` hands out. -/
def takenOver (s : SchedulerStore) (owner : String) (token : String → String)
    (now expiresAt : Instant) : List JobLease :=
  (s.leases.filter fun row => row.expiresAt ≤ now && s.isDispatched row.runRequestId).map
    fun row => { row with
      owner := owner
      token := token row.runRequestId
      fencing := row.fencing + 1
      expiresAt := expiresAt }

/-- What the constraints of `run_requests` ask of a row and no update takes away: its
revision exists, and it has at most twenty attempts. -/
def Admits (s : SchedulerStore) (r : RunRequest) : Prop :=
  (s.definition? r.scheduleId r.scheduleVersion).isSome ∧ r.maxAttempts ≤ 20

end SchedulerStore

namespace StoreOp
open SchedulerStore

/-- The endings of jobs an operation may bring about. -/
inductive Ends (s : SchedulerStore) : StoreOp → String → JobEnd → Prop where
  | cancelled {lease : JobLease} {now : Instant} (hheld : s.assertJobLease lease now = .ok ()) :
      Ends s (.cancelClaimedJob lease now) lease.runRequestId
        { attempt := .failed, request := .cancelled, errorCode := "cancelled" }
  | completed {lease : JobLease} {workflowRunId : String} {now : Instant}
      (hheld : s.assertJobLease lease now = .ok ()) :
      Ends s (.completeJob lease workflowRunId now) lease.runRequestId
        { attempt := .succeeded, request := .succeeded, workflowRunId := workflowRunId }
  | finished {lease : JobLease} {status : RunRequestStatus} {errorCode : String} {now : Instant}
      (hheld : s.assertJobLease lease now = .ok ()) (hterminal : status.isTerminal = true) :
      Ends s (.finishDispatchedJob lease status errorCode now) lease.runRequestId
        { attempt := if status = .manualReconcileRequired then .outcomeUnknown else .failed
          request := status
          errorCode := errorCode }
  | failed {lease : JobLease} {failure : Failure} {now : Instant} {r : RunRequest}
      (hheld : s.assertJobLease lease now = .ok ()) (hr : s.request? lease.runRequestId = some r) :
      Ends s (.failJob lease failure now) lease.runRequestId (failedEnd r failure now)
  | expiredOnClaim {writerLease : SchedulerLease} {owner : String} {ttlSeconds : ℤ} {token : String}
      {now : Instant} {id : String} {ending : JobEnd} (h : s.Expires now id ending) :
      Ends s (.claimDue writerLease owner ttlSeconds token now) id ending
  | expiredOnRenew {writerLease : SchedulerLease} {owner : String} {ttlSeconds : ℤ}
      {token : String → String} {now : Instant} {id : String} {ending : JobEnd}
      (h : s.Expires now id ending) :
      Ends s (.renewDispatchedJobs writerLease owner ttlSeconds token now) id ending

def isClaim : StoreOp → Bool
  | .claimDue .. => true
  | _ => false

def writesAuthorities : StoreOp → Bool
  | .acquireAuthority .. | .renewAuthority .. | .releaseLease .. => true
  | _ => false

def writesSchedules : StoreOp → Bool
  | .putSchedule .. | .updateScheduleStatus .. | .enqueueOccurrences .. | .observeWatch .. => true
  | _ => false

/-- The operations that cancel. -/
def cancels : StoreOp → Bool
  | .updateScheduleStatus .. | .cancelClaimedJob .. | .requestCancel .. => true
  | _ => false

/-- The steps an operation may cause. -/
inductive Causes (s : SchedulerStore) (op : StoreOp) (id : String) : JobEvent → Prop where
  | inserted (r : RunRequest) (h : s.Admits r) : Causes s op id (.inserted r)
  | cancelled (asked : Bool) (hop : op.cancels = true) : Causes s op id (.cancelled asked)
  | cancelAsked (hop : op.cancels = true) : Causes s op id .cancelAsked
  | granted (lease : JobLease) (hop : op.isClaim = true) : Causes s op id (.granted lease)
  | renewed : Causes s op id .renewed
  | marked {lease : JobLease} {now : Instant} (hop : op = .markSideEffectStarted lease now)
      (hid : lease.runRequestId = id) (hheld : s.assertJobLease lease now = .ok ()) :
      Causes s op id .marked
  | dispatched {lease : JobLease} {workflowRunId : String} {now : Instant}
      (hop : op = .markWorkflowDispatched lease workflowRunId now)
      (hid : lease.runRequestId = id) (hheld : s.assertJobLease lease now = .ok ()) :
      Causes s op id (.dispatched workflowRunId)
  | takenOver (lease : JobLease) (hop : op.isClaim = false) : Causes s op id (.takenOver lease)
  | ended {ending : JobEnd} (h : op.Ends s id ending) : Causes s op id (.ended ending)

/-- The job leases an operation grants: the one `claim_due` returns, and those that
`renew_dispatched_jobs` takes over. -/
def jobGrants (s : SchedulerStore) : StoreOp → List JobLease
  | .claimDue writerLease owner ttlSeconds token now =>
    match s.claimDue writerLease owner ttlSeconds token now with
    | .ok (some claimed, _) => [claimed.2]
    | .ok (none, _) | .error _ => []
  | .renewDispatchedJobs writerLease owner ttlSeconds token now =>
    match s.renewDispatchedJobs writerLease owner ttlSeconds token now with
    | .ok _ => (s.recoverExpiredJobs now).takenOver owner token now
        (min (now + seconds ttlSeconds) writerLease.expiresAt)
    | .error _ => []
  | _ => []

end StoreOp

namespace SchedulerStore

/-! ### Moves of all jobs -/

/-- Every job goes along a path, and is handed out its part of the leases. -/
structure JobMoves (allowed : String → JobEvent → Prop) (s : SchedulerStore) (g : List JobLease)
    (s' : SchedulerStore) : Prop where
  ids : (s.requests.map RunRequest.id).Nodup → (s'.requests.map RunRequest.id).Nodup
  jobs : ∀ id, (s.job id).Path (allowed id) (g.filter fun l => l.runRequestId = id) (s'.job id)

/-- The tables that jobs are not in. -/
def rest (s : SchedulerStore) :
    List ScheduleDefinition × List ScheduleHead × List SchedulerLease × List WatchBaseline :=
  (s.definitions, s.heads, s.authorities, s.baselines)

/-- Nothing but jobs moves. -/
structure Moves (allowed : String → JobEvent → Prop) (s : SchedulerStore) (g : List JobLease)
    (s' : SchedulerStore) : Prop extends s.JobMoves allowed g s' where
  rest : s'.rest = s.rest

variable {allowed : String → JobEvent → Prop} {s m s' : SchedulerStore} {g g' : List JobLease}

theorem JobMoves.trans (h : s.JobMoves allowed g m) (h' : m.JobMoves allowed g' s') :
    s.JobMoves allowed (g ++ g') s' := by
  refine ⟨fun hids => h'.ids (h.ids hids), fun id => ?_⟩
  rw [List.filter_append]
  exact (h.jobs id).trans (h'.jobs id)

/-- Moves, and then some that hand nothing out. -/
theorem JobMoves.then (h : s.JobMoves allowed g m) (h' : m.JobMoves allowed [] s') :
    s.JobMoves allowed g s' := by
  have := h.trans h'
  rwa [List.append_nil] at this

theorem JobMoves.sound (h : s.JobMoves allowed g s') (hs : s.Sound) : s'.Sound :=
  ⟨h.ids hs.ids, fun id => (h.jobs id).ok (hs.jobs id)⟩

/-- The other tables do not matter. -/
theorem JobMoves.tables (hrequests : s'.requests = s.requests) (hleases : s'.leases = s.leases)
    (hattempts : s'.attempts = s.attempts) : s.JobMoves allowed [] s' := by
  refine ⟨fun hids => by rwa [hrequests], fun id => ?_⟩
  have hjob : s'.job id = s.job id := by
    unfold job request? leasesOf attemptsOf
    rw [hrequests, hleases, hattempts]
  rw [hjob]
  exact .refl _

theorem Moves.refl (s : SchedulerStore) : s.Moves allowed [] s := ⟨⟨id, fun _ => .refl _⟩, rfl⟩

theorem Moves.trans (h : s.Moves allowed g m) (h' : m.Moves allowed g' s') :
    s.Moves allowed (g ++ g') s' := ⟨h.toJobMoves.trans h'.toJobMoves, h'.rest.trans h.rest⟩

theorem Moves.then (h : s.Moves allowed g m) (h' : m.Moves allowed [] s') :
    s.Moves allowed g s' := ⟨h.toJobMoves.then h'.toJobMoves, h'.rest.trans h.rest⟩

theorem Moves.authorities (h : s.Moves allowed g s') : s'.authorities = s.authorities :=
  congrArg (fun tables => tables.2.2.1) h.rest

theorem Moves.definitions (h : s.Moves allowed g s') : s'.definitions = s.definitions :=
  congrArg Prod.fst h.rest

/-- Moves of jobs add no revision. -/
theorem Moves.admits (h : s.Moves allowed g s') (r : RunRequest) (hr : s'.Admits r) : s.Admits r := by
  unfold Admits definition? at hr ⊢
  rwa [h.definitions] at hr

/-- A transaction about one request. -/
theorem Moves.one (id : String) (hids : s'.requests.map RunRequest.id = s.requests.map RunRequest.id)
    (hrest : s'.rest = s.rest) (hg : ∀ l ∈ g, l.runRequestId = id)
    (hpath : (s.job id).Path (allowed id) g (s'.job id))
    (hother : ∀ other, other ≠ id → s'.job other = s.job other) : s.Moves allowed g s' := by
  refine ⟨⟨fun h => by rwa [hids], fun other => ?_⟩, hrest⟩
  by_cases ho : other = id
  · rw [ho, List.filter_eq_self.mpr fun l hl => by simp [hg l hl]]
    exact hpath
  · rw [hother other ho, List.filter_eq_nil_iff.mpr fun l hl => by simp [hg l hl, Ne.symm ho]]
    exact .refl _

theorem ids_update {p : RunRequest → Bool} {f : RunRequest → RunRequest} (hf : ∀ r, (f r).id = r.id) :
    (update s.requests p f).map RunRequest.id = s.requests.map RunRequest.id :=
  map_update _ fun r _ _ => hf r

/-! ### Inserting -/

theorem insertable_spec {request : RunRequest} (h : s.insertable request = true) :
    (∀ row ∈ s.requests, row.id ≠ request.id ∧ row.idempotencyKey ≠ request.idempotencyKey) ∧
      1 ≤ request.maxAttempts ∧ s.Admits request := by
  unfold insertable at h
  simp only [Bool.and_eq_true, List.all_eq_true, decide_eq_true_eq] at h
  exact ⟨h.1.1.1.1.1, h.1.1.2, h.1.1.1.1.2, h.1.2⟩

/-- A request nobody has touched. -/
def Fresh (request : RunRequest) : Prop :=
  request.status = .queued ∧ request.attemptCount = 0 ∧ request.cancelRequested = false ∧
    request.workflowRunId = none

theorem insertOrGetRequest_moves (hs : s.Sound) {request stored : RunRequest} (hfresh : Fresh request)
    (hallowed : ∀ id r, s.Admits r → allowed id (.inserted r))
    (h : insertOrGetRequest request s = .ok (stored, s')) : s.Moves allowed [] s' := by
  unfold insertOrGetRequest at h
  by_cases hi : s.insertable request = true
  · rw [if_pos hi] at h
    obtain ⟨-, rfl⟩ := Prod.mk.inj (Except.ok.inj h)
    obtain ⟨hrows, hmax, hadmits⟩ := insertable_spec hi
    have habsent : s.request? request.id = none := by
      apply List.find?_eq_none.mpr
      intro row hrow
      simpa using (hrows row hrow).1
    have hjob : s.job request.id = {} := by
      have hok := hs.jobs request.id
      generalize hj : s.job request.id = j at hok
      have hnone : j.request = none := by rw [← hj, ← habsent]; rfl
      cases hok with
      | absent => rfl
      | idle | leased => exact absurd hnone (by simp)
    refine ⟨⟨fun hids => ?_, fun id => ?_⟩, rfl⟩
    · show ((s.requests ++ [request]).map RunRequest.id).Nodup
      rw [List.map_append, List.nodup_append]
      refine ⟨hids, List.nodup_singleton _, ?_⟩
      intro a ha b hb
      obtain ⟨row, hrow, rfl⟩ := List.mem_map.mp ha
      rw [List.mem_singleton.mp hb]
      exact (hrows row hrow).1
    · by_cases hid : request.id = id
      · have hjob' : ({ s with requests := s.requests ++ [request] } : SchedulerStore).job id =
            ⟨some request, [], []⟩ := by
          rw [← hid]
          show Job.mk ((s.requests ++ [request]).find? _) (s.leasesOf request.id)
            (s.attemptsOf request.id) = _
          rw [List.find?_append, show s.requests.find? _ = none from habsent,
            show s.leasesOf request.id = [] from congrArg Job.leases hjob,
            show s.attemptsOf request.id = [] from congrArg Job.attempts hjob]
          simp
        rw [← hid, hjob, hid, hjob']
        exact .single (.inserted hfresh.1 hfresh.2.1 hmax hfresh.2.2.1 hfresh.2.2.2) (hallowed _ _ hadmits)
      · have hjob' : ({ s with requests := s.requests ++ [request] } : SchedulerStore).job id =
            s.job id := by
          show Job.mk ((s.requests ++ [request]).find? _) (s.leasesOf id) (s.attemptsOf id) =
            Job.mk (s.requests.find? _) (s.leasesOf id) (s.attemptsOf id)
          rw [List.find?_append]
          simp [hid]
        rw [hjob']
        exact .refl _
  · rw [if_neg hi] at h
    have hsame : s' = s := by
      split at h
      · exact nomatch h
      · split at h
        · exact nomatch h
        · exact (Prod.mk.inj (Except.ok.inj h)).2.symm
    rw [hsame]
    exact .refl s

theorem requestFor_fresh {schedule : ScheduleDefinition} {occurrenceAt availableAt : Instant}
    {key : String} {new : NewRow} {request : RunRequest}
    (h : requestFor schedule occurrenceAt availableAt key new = .ok request) : Fresh request := by
  obtain ⟨_, -, h⟩ := ok_of_bind h
  rw [← Except.ok.inj h]
  exact ⟨rfl, rfl, rfl, rfl⟩

theorem insertAll_moves :
    ∀ {requests : List RunRequest} {s s' : SchedulerStore} {stored : List RunRequest}, s.Sound →
      (∀ r ∈ requests, Fresh r) → (∀ id r, s.Admits r → allowed id (.inserted r)) →
      insertAll requests s = .ok (stored, s') → s.Moves allowed [] s'
  | [], s, s', _, _, _, _, h => by
    rw [← (Prod.mk.inj (Except.ok.inj h)).2]
    exact .refl s
  | request :: rest, s, s', _, hs, hfresh, hallowed, h => by
    obtain ⟨⟨_, m⟩, hfirst, h⟩ := ok_of_bind h
    obtain ⟨⟨_, last⟩, hrest, h⟩ := ok_of_bind h
    have hm := insertOrGetRequest_moves hs (hfresh request (List.mem_cons_self ..)) hallowed hfirst
    have hlast := insertAll_moves (hm.sound hs)
      (fun r hr => hfresh r (List.mem_cons_of_mem _ hr))
      (fun id r hr => hallowed id r (hm.admits r hr)) hrest
    rw [← (Prod.mk.inj (Except.ok.inj h)).2]
    exact hm.then hlast

/-! ### Recovering -/

theorem expiredEnd_fits {request : RunRequest} {attempt : JobAttempt} {now : Instant}
    {ending : JobEnd} (h : expiredEnd request attempt now = some ending) : ending.Fits request := by
  unfold expiredEnd at h
  split at h
  · exact nomatch h
  · rw [← Option.some.inj h]
    refine ⟨by dsimp only; split <;> simp, ?_⟩
    dsimp only
    split
    · exact .inl rfl
    · split
      · exact .inl rfl
      · exact .inr ⟨rfl, by omega⟩

theorem failedEnd_fits (request : RunRequest) (failure : Failure) (now : Instant) :
    (failedEnd request failure now).Fits request := by
  unfold failedEnd
  split
  · exact ⟨by simp, .inl rfl⟩
  · split
    · exact ⟨by simp, .inl rfl⟩
    · exact ⟨by simp, .inr ⟨rfl, by omega⟩⟩

theorem endJob_ids (id : String) (number : Nat) (ending : JobEnd) :
    (s.endJob id number ending).requests.map RunRequest.id = s.requests.map RunRequest.id :=
  ids_update ending.onRequest_id

/-- The one step that ends a job at work. -/
theorem endJob_moves {id : String} {r : RunRequest} {l : JobLease} {past : List JobAttempt}
    {a : JobAttempt} (h : (s.job id).Working r l past a) {ending : JobEnd} (hfits : ending.Fits r)
    (hallowed : allowed id (.ended ending)) :
    s.Moves allowed [] (s.endJob id r.attemptCount ending) := by
  refine .one id (endJob_ids ..) rfl (fun _ hl => absurd hl List.not_mem_nil) ?_
    fun other hne => endJob_ne hne _ _
  rw [endJob_working h, h.eq]
  exact .single (.ended h.status hfits) hallowed

/-- An expired job is at work with just these rows, until it is ended. -/
def Recoverable (s : SchedulerStore) (job : RunRequest × JobAttempt) : Prop :=
  (∃ l past, (s.job job.1.id).Working job.1 l past job.2) ∨ s.leasesOf job.1.id = []

theorem expiredJobs_working (hs : s.Sound) {now : Instant} {job : RunRequest × JobAttempt}
    (h : job ∈ s.expiredJobs now) :
    s.request? job.1.id = some job.1 ∧ ∃ l past, (s.job job.1.id).Working job.1 l past job.2 := by
  obtain ⟨lease, hlease, h⟩ := List.mem_filterMap.mp h
  have hmem : lease ∈ s.leasesOf lease.runRequestId := List.mem_filter.mpr ⟨hlease, by simp⟩
  obtain ⟨r, past, a, hw⟩ := (hs.jobs lease.runRequestId).working hmem
  have hr := Working.request hw
  split at h
  · rw [hr, hw.lease, Working.attempt? hw] at h
    obtain rfl := Option.some.inj h
    rw [request?_id hr]
    exact ⟨hr, lease, past, hw⟩
  · exact nomatch h

/-- A job that is recovered stays recovered while the others are. -/
theorem recoverJob_moves (hs : s.Sound) {now : Instant} {job : RunRequest × JobAttempt}
    (hjob : s.Recoverable job)
    (hallowed : ∀ ending, expiredEnd job.1 job.2 now = some ending → allowed job.1.id (.ended ending)) :
    s.Moves allowed [] (recoverJob now s job) ∧
      ∀ other, s.Recoverable other → (recoverJob now s job).Recoverable other := by
  unfold recoverJob
  cases hend : expiredEnd job.1 job.2 now with
  | none => exact ⟨.refl s, fun _ h => h⟩
  | some ending =>
    cases hjob with
    | inl hw =>
      obtain ⟨l, past, hw⟩ := hw
      refine ⟨?_, fun other hother => ?_⟩
      · show s.Moves allowed [] (s.endJob job.1.id job.2.attemptNumber ending)
        rw [hw.attempt]
        exact endJob_moves hw (expiredEnd_fits hend) (hallowed ending hend)
      · show (s.endJob job.1.id job.2.attemptNumber ending).Recoverable other
        by_cases hid : other.1.id = job.1.id
        · right
          rw [hid, hw.attempt]
          exact congrArg Job.leases (endJob_working hw ending)
        · have hsame := endJob_ne hid (s := s) job.2.attemptNumber ending
          unfold Recoverable
          rw [hsame, show SchedulerStore.leasesOf _ other.1.id = s.leasesOf other.1.id from
            congrArg Job.leases hsame]
          exact hother
    | inr hidle =>
      have hnone := (hs.jobs job.1.id).idle_of_no_lease hidle
      have hsame : ∀ id, (s.endJob job.1.id job.2.attemptNumber ending).job id = s.job id := by
        intro id
        by_cases hid : id = job.1.id
        · rw [hid]
          exact endJob_idle hidle hnone.1 hnone.2 _ _
        · exact endJob_ne hid _ _
      refine ⟨⟨⟨fun h => by rwa [endJob_ids], fun id => ?_⟩, rfl⟩, fun other hother => ?_⟩
      · show (s.job id).Path _ _ ((s.endJob job.1.id job.2.attemptNumber ending).job id)
        rw [hsame id]
        exact .refl _
      · show (s.endJob job.1.id job.2.attemptNumber ending).Recoverable other
        unfold Recoverable
        rw [hsame, show SchedulerStore.leasesOf _ other.1.id = s.leasesOf other.1.id from
          congrArg Job.leases (hsame other.1.id)]
        exact hother

theorem recoverAll_moves {now : Instant} {jobs : List (RunRequest × JobAttempt)}
    (hallowed : ∀ job ∈ jobs, ∀ ending, expiredEnd job.1 job.2 now = some ending →
      allowed job.1.id (.ended ending)) (hs : s.Sound) (hjobs : ∀ job ∈ jobs, s.Recoverable job) :
    s.Moves allowed [] (jobs.foldl (recoverJob now) s) := by
  induction jobs generalizing s with
  | nil => exact .refl s
  | cons job rest ih =>
    obtain ⟨hmoves, hkeep⟩ := recoverJob_moves hs (hjobs job (List.mem_cons_self ..))
      (hallowed job (List.mem_cons_self ..))
    refine hmoves.then (ih (fun other hother => hallowed other (List.mem_cons_of_mem _ hother))
      (hmoves.sound hs) fun other hother => hkeep other (hjobs other (List.mem_cons_of_mem _ hother)))

/-- The expired leases, whatever their requests, are recovered one by one. -/
theorem recoverExpiredJobs_moves (hs : s.Sound) (now : Instant)
    (hallowed : ∀ id ending, s.Expires now id ending → allowed id (.ended ending)) :
    s.Moves allowed [] (s.recoverExpiredJobs now) :=
  recoverAll_moves (fun job hjob _ hend => hallowed _ _ ⟨job, hjob, rfl, hend⟩) hs
    fun _ hjob => .inl (expiredJobs_working hs hjob).2

/-! ### Each transaction -/

theorem reply_store {id : String} {r : RunRequest} (h : s.reply id = .ok (r, s')) : s' = s := by
  unfold reply at h
  split at h
  · exact nomatch h
  · exact (Prod.mk.inj (Except.ok.inj h)).2.symm

theorem putSchedule_moves {schedule : ScheduleDefinition}
    (h : putSchedule schedule s = .ok ((), s')) :
    s.JobMoves allowed [] s' ∧ s'.authorities = s.authorities := by
  have htables : s'.requests = s.requests ∧ s'.leases = s.leases ∧ s'.attempts = s.attempts ∧
      s'.authorities = s.authorities := by
    unfold putSchedule at h
    split at h
    · split at h
      · exact nomatch h
      · rw [← (Prod.mk.inj (Except.ok.inj h)).2]
        exact ⟨rfl, rfl, rfl, rfl⟩
    · dsimp only at h
      split at h <;> split at h
      · exact nomatch h
      · rw [← (Prod.mk.inj (Except.ok.inj h)).2]
        exact ⟨rfl, rfl, rfl, rfl⟩
      · exact nomatch h
      · rw [← (Prod.mk.inj (Except.ok.inj h)).2]
        exact ⟨rfl, rfl, rfl, rfl⟩
  exact ⟨.tables htables.1 htables.2.1 htables.2.2.1, htables.2.2.2⟩

/-- Requests that are rewritten, each by steps of its own. -/
theorem updateRequests_moves {p : RunRequest → Bool} {f : RunRequest → RunRequest}
    (hf : ∀ r, (f r).id = r.id)
    (hpath : ∀ id r, s.request? id = some r → p r = true →
      (s.job id).Path (allowed id) [] ⟨some (f r), s.leasesOf id, s.attemptsOf id⟩) :
    s.Moves allowed [] { s with requests := update s.requests p f } := by
  refine ⟨⟨fun hids => ?_, fun id => ?_⟩, rfl⟩
  · show ((update s.requests p f).map RunRequest.id).Nodup
    rwa [ids_update hf]
  · show (s.job id).Path _ []
      (Job.mk ((update s.requests p f).find? fun row => row.id = id) (s.leasesOf id) (s.attemptsOf id))
    rw [request?_update hf]
    cases hr : s.request? id with
    | none =>
      have hjob : s.job id = ⟨none, s.leasesOf id, s.attemptsOf id⟩ := by rw [← hr]; rfl
      rw [hjob]
      exact .refl _
    | some r =>
      simp only [Option.map_some]
      by_cases hp : p r = true
      · rw [if_pos hp]
        exact hpath id r hr hp
      · have hjob : s.job id = ⟨some r, s.leasesOf id, s.attemptsOf id⟩ := by rw [← hr]; rfl
        rw [if_neg hp, hjob]
        exact .refl _

/-- The requests of a cancelled schedule are cancelled, or asked to stop, or left alone. -/
theorem cancelRequests_moves (scheduleId : String)
    (hcancelled : ∀ id asked, allowed id (.cancelled asked)) (hasked : ∀ id, allowed id .cancelAsked) :
    s.Moves allowed [] (cancelRequests scheduleId s) := by
  have hwaiting : s.Moves allowed [] { s with
      requests := update s.requests (fun row => row.scheduleId = scheduleId && row.status.isWaiting)
        fun row => { row with status := .cancelled } } := by
    refine updateRequests_moves (fun _ => rfl) ?_
    intro id r hr hp
    have hjob : s.job id = ⟨some r, s.leasesOf id, s.attemptsOf id⟩ := by rw [← hr]; rfl
    simp only [Bool.and_eq_true] at hp
    rw [hjob]
    exact .single (.cancelled false hp.2) (hcancelled _ _)
  refine hwaiting.then ?_
  refine updateRequests_moves (fun _ => rfl) ?_
  intro id r hr hp
  simp only [Bool.and_eq_true, decide_eq_true_eq] at hp
  show (Job.mk (SchedulerStore.request? _ id) _ _).Path _ _ _
  rw [hr]
  exact .single (.cancelAsked hp.2) (hasked _)

theorem updateScheduleStatus_moves {scheduleId : String} {status : ScheduleStatus} {version : Nat}
    {schedule : ScheduleDefinition} (hcancelled : ∀ id asked, allowed id (.cancelled asked))
    (hasked : ∀ id, allowed id .cancelAsked)
    (h : updateScheduleStatus scheduleId status version s = .ok (schedule, s')) :
    s.JobMoves allowed [] s' ∧ s'.authorities = s.authorities := by
  unfold updateScheduleStatus at h
  obtain ⟨-, h⟩ := ok_of_guard h
  obtain ⟨_, -, h⟩ := ok_of_bind h
  rw [← (Prod.mk.inj (Except.ok.inj h)).2]
  split
  · refine ⟨JobMoves.then ?_ (cancelRequests_moves scheduleId hcancelled hasked).toJobMoves, rfl⟩
    exact .tables rfl rfl rfl
  · exact ⟨.tables rfl rfl rfl, rfl⟩

theorem enqueueOccurrences_moves (hs : s.Sound) {schedule : ScheduleDefinition}
    {occurrences : List Instant} {lease : SchedulerLease} {cursor availableAt : Instant}
    {new : Instant → NewRow} {stored : List RunRequest}
    (hallowed : ∀ id r, s.Admits r → allowed id (.inserted r))
    (h : enqueueOccurrences schedule occurrences lease cursor availableAt new s = .ok (stored, s')) :
    s.JobMoves allowed [] s' ∧ s'.authorities = s.authorities := by
  unfold enqueueOccurrences at h
  obtain ⟨-, h⟩ := ok_of_guard h
  obtain ⟨requests, hrequests, h⟩ := ok_of_bind h
  obtain ⟨_, -, h⟩ := ok_of_bind h
  obtain ⟨_, -, h⟩ := ok_of_bind h
  obtain ⟨⟨_, m⟩, hinsert, h⟩ := ok_of_bind h
  have hfresh : ∀ r ∈ requests, Fresh r := by
    intro r hr
    obtain ⟨occurrenceAt, -, hr⟩ := mapM_ok_of_mem hrequests hr
    exact requestFor_fresh hr
  rw [← (Prod.mk.inj (Except.ok.inj h)).2]
  have hmoves := insertAll_moves hs hfresh hallowed hinsert
  exact ⟨hmoves.toJobMoves.then (.tables rfl rfl rfl), hmoves.authorities⟩

theorem enqueueManual_moves (hs : s.Sound) {schedule : ScheduleDefinition} {key : String}
    {requestedAt : Instant} {new : NewRow} {stored : RunRequest}
    (hallowed : ∀ id r, s.Admits r → allowed id (.inserted r))
    (h : enqueueManual schedule key requestedAt new s = .ok (stored, s')) : s.Moves allowed [] s' := by
  unfold enqueueManual at h
  obtain ⟨-, h⟩ := ok_of_guard h
  obtain ⟨request, hrequest, h⟩ := ok_of_bind h
  obtain ⟨_, -, h⟩ := ok_of_bind h
  exact insertOrGetRequest_moves hs (requestFor_fresh hrequest) hallowed h

theorem enqueueHook_moves (hs : s.Sound) {schedule : ScheduleDefinition} {key : String}
    {requestedAt : Instant} {new : NewRow} {stored : RunRequest}
    (hallowed : ∀ id r, s.Admits r → allowed id (.inserted r))
    (h : enqueueHook schedule key requestedAt new s = .ok (stored, s')) : s.Moves allowed [] s' := by
  obtain ⟨request, hrequest, h⟩ := ok_of_bind h
  obtain ⟨_, -, h⟩ := ok_of_bind h
  exact insertOrGetRequest_moves hs (requestFor_fresh hrequest) hallowed h

theorem replayDeadLetter_moves (hs : s.Sound) {requestId key : String} {requestedAt : Instant}
    {new : NewRow} {stored : RunRequest} (hallowed : ∀ id r, s.Admits r → allowed id (.inserted r))
    (h : replayDeadLetter requestId key requestedAt new s = .ok (stored, s')) :
    s.Moves allowed [] s' := by
  unfold replayDeadLetter at h
  obtain ⟨-, h⟩ := ok_of_guard h
  split at h
  · exact nomatch h
  · obtain ⟨-, h⟩ := ok_of_guard h
    obtain ⟨_, -, h⟩ := ok_of_bind h
    exact insertOrGetRequest_moves hs ⟨rfl, rfl, rfl, rfl⟩ hallowed h

theorem observeWatch_moves (hs : s.Sound) {schedule : ScheduleDefinition} {observed : Observation}
    {lease : SchedulerLease} {observedAt : Instant} {new : NewRow} {stored : Option RunRequest}
    (hallowed : ∀ id r, s.Admits r → allowed id (.inserted r))
    (h : observeWatch schedule observed lease observedAt new s = .ok (stored, s')) :
    s.JobMoves allowed [] s' ∧ s'.authorities = s.authorities := by
  obtain ⟨_, -, h⟩ := ok_of_bind h
  obtain ⟨_, -, h⟩ := ok_of_bind h
  dsimp only at h
  split at h
  · rw [← (Prod.mk.inj (Except.ok.inj h)).2]
    exact ⟨.tables rfl rfl rfl, rfl⟩
  · rw [← (Prod.mk.inj (Except.ok.inj h)).2]
    exact ⟨.tables rfl rfl rfl, rfl⟩
  · rw [← (Prod.mk.inj (Except.ok.inj h)).2]
    exact ⟨.tables rfl rfl rfl, rfl⟩
  · split at h
    · rw [← (Prod.mk.inj (Except.ok.inj h)).2]
      exact ⟨.tables rfl rfl rfl, rfl⟩
    · obtain ⟨request, hrequest, h⟩ := ok_of_bind h
      obtain ⟨⟨_, m⟩, hinsert, h⟩ := ok_of_bind h
      rw [← (Prod.mk.inj (Except.ok.inj h)).2]
      have hmoves := insertOrGetRequest_moves hs (requestFor_fresh hrequest) hallowed hinsert
      exact ⟨hmoves.toJobMoves.then (.tables rfl rfl rfl), hmoves.authorities⟩

theorem acquireAuthority_moves {kind : AuthorityKind} {owner token : String} {ttlSeconds : ℤ}
    {now : Instant} {lease : SchedulerLease}
    (h : acquireAuthority kind owner ttlSeconds token now s = .ok (lease, s')) :
    s.JobMoves allowed [] s' ∧ s'.definitions = s.definitions ∧ s'.heads = s.heads := by
  obtain ⟨_, -, h⟩ := ok_of_bind h
  obtain ⟨_, -, h⟩ := ok_of_bind h
  split at h
  · rw [← (Prod.mk.inj (Except.ok.inj h)).2]
    exact ⟨.tables rfl rfl rfl, rfl, rfl⟩
  · obtain ⟨-, h⟩ := ok_of_guard h
    rw [← (Prod.mk.inj (Except.ok.inj h)).2]
    exact ⟨.tables rfl rfl rfl, rfl, rfl⟩

theorem renewAuthority_moves {lease renewed : SchedulerLease} {ttlSeconds : ℤ} {now : Instant}
    (h : renewAuthority lease ttlSeconds now s = .ok (renewed, s')) :
    s.JobMoves allowed [] s' ∧ s'.definitions = s.definitions ∧ s'.heads = s.heads := by
  obtain ⟨_, -, h⟩ := ok_of_bind h
  obtain ⟨-, h⟩ := ok_of_guard h
  rw [← (Prod.mk.inj (Except.ok.inj h)).2]
  exact ⟨.tables rfl rfl rfl, rfl, rfl⟩

/-- A candidate waits, is not asked to stop, and is in the table. -/
theorem candidates_spec {now : Instant} {candidate : RunRequest × ScheduleDefinition}
    (h : candidate ∈ s.candidates now) :
    candidate.1 ∈ s.requests ∧ candidate.1.status.isWaiting = true ∧
      candidate.1.cancelRequested = false ∧
      s.definition? candidate.1.scheduleId candidate.1.scheduleVersion = some candidate.2 := by
  have h := List.mem_of_mem_take h
  obtain ⟨row, hrow, h⟩ := List.mem_filterMap.mp h
  obtain ⟨schedule, hschedule, rfl⟩ := Option.map_eq_some_iff.mp h
  have hrow := List.mem_filter.mp ((List.mem_insertionSort dueBefore).mp hrow)
  simp only [Bool.and_eq_true, Bool.not_eq_true'] at hrow
  exact ⟨hrow.1, hrow.2.1.1.1, hrow.2.1.2, hschedule⟩

/-- The rows of a grant are one step of its job. -/
theorem grantJob_moves (hs : s.Sound) {request : RunRequest} (hrequest : request ∈ s.requests)
    (hwaiting : request.status.isWaiting = true) (hasked : request.cancelRequested = false)
    {lease : JobLease} (hid : lease.runRequestId = request.id)
    (hnumber : lease.attemptNumber = request.attemptCount + 1)
    (hfencing : lease.fencing = s.nextJobFencing request.id)
    (hallowed : allowed request.id (.granted lease)) : s.Moves allowed [lease] (s.grantJob lease) := by
  have hfound := request?_of_mem hs.ids hrequest
  have hjob : s.job request.id = ⟨some request, [], s.attemptsOf request.id⟩ := by
    have hok := hs.jobs request.id
    generalize hj : s.job request.id = j at hok
    have hr : j.request = some request := by rw [← hj]; exact hfound
    have ha : j.attempts = s.attemptsOf request.id := by rw [← hj]; rfl
    cases hok with
    | absent => exact absurd hr (by simp)
    | idle => rw [← hr, ← ha]
    | leased hleased =>
      obtain rfl := Option.some.inj hr
      exact absurd hleased (Job.waiting_not_leased hwaiting)
  refine Moves.one request.id (ids_update fun _ => rfl) rfl
    (fun l hl => by rw [List.mem_singleton.mp hl, hid]) ?_ ?_
  · have hupdated : (s.updateRequest request.id (fun row => row.status.isWaiting)
        fun row => { row with status := .leased, attemptCount := lease.attemptNumber }).job request.id =
        _ := job_updateRequest _ _ fun _ => rfl
    rw [hjob] at hupdated
    have hjob' : (s.grantJob lease).job request.id =
        ⟨some { request with status := .leased, attemptCount := lease.attemptNumber }, [lease],
          s.attemptsOf request.id ++ [lease.attempt]⟩ := by
      show Job.mk ((s.updateRequest lease.runRequestId _ _).request? request.id)
        ((s.leases ++ [lease]).filter _) ((s.attempts ++ [lease.attempt]).filter _) = _
      rw [hid, List.filter_append, List.filter_append]
      rw [show SchedulerStore.request? _ request.id = _ from congrArg Job.request hupdated,
        show s.leases.filter _ = [] from congrArg Job.leases hjob]
      simp [hwaiting, hid, JobLease.attempt, attemptsOf]
    rw [hjob', hjob]
    exact .single (.granted hwaiting hasked hnumber hfencing) hallowed
  · intro other hne
    have hupdated : (s.updateRequest request.id (fun row => row.status.isWaiting)
        fun row => { row with status := .leased, attemptCount := lease.attemptNumber }).job other =
        s.job other := job_updateRequest_ne _ _ (fun _ => rfl) hne
    show Job.mk ((s.updateRequest lease.runRequestId _ _).request? other)
        ((s.leases ++ [lease]).filter _) ((s.attempts ++ [lease.attempt]).filter _) = _
    rw [hid, List.filter_append, List.filter_append,
      show SchedulerStore.request? _ other = _ from congrArg Job.request hupdated]
    simp [hid, hne.symm, JobLease.attempt]
    rfl

/-- What `claim_due` does: it recovers, and then grants nothing or the lease it returns. -/
theorem claimDue_ok {writerLease : SchedulerLease} {owner token : String} {ttlSeconds : ℤ}
    {now : Instant} {claimed : Option (RunRequest × JobLease)}
    (h : claimDue writerLease owner ttlSeconds token now s = .ok (claimed, s')) :
    (claimed = none ∧ s' = s.recoverExpiredJobs now) ∨
      ∃ request schedule lease, (request, schedule) ∈ (s.recoverExpiredJobs now).candidates now ∧
        (s.recoverExpiredJobs now).leasedCount request.scheduleId < schedule.concurrencyLimit ∧
        lease.runRequestId = request.id ∧ lease.attemptNumber = request.attemptCount + 1 ∧
        lease.fencing = (s.recoverExpiredJobs now).nextJobFencing request.id ∧ lease.token = token ∧
        claimed = some ({ request with status := .leased, attemptCount := lease.attemptNumber }, lease) ∧
        s' = (s.recoverExpiredJobs now).grantJob lease := by
  obtain ⟨_, -, h⟩ := ok_of_bind h
  obtain ⟨_, -, h⟩ := ok_of_bind h
  obtain ⟨_, -, h⟩ := ok_of_bind h
  obtain ⟨_, -, h⟩ := ok_of_bind h
  dsimp only at h
  split at h
  · obtain ⟨rfl, rfl⟩ := Prod.mk.inj (Except.ok.inj h)
    exact .inl ⟨rfl, rfl⟩
  · rename_i request schedule hfind
    obtain ⟨-, h⟩ := ok_of_guard h
    obtain ⟨rfl, rfl⟩ := Prod.mk.inj (Except.ok.inj h)
    exact .inr ⟨request, schedule, _, List.mem_of_find?_eq_some hfind,
      by simpa using List.find?_some hfind, rfl, rfl, rfl, rfl, rfl, rfl⟩

theorem claimDue_moves (hs : s.Sound) {writerLease : SchedulerLease} {owner token : String}
    {ttlSeconds : ℤ} {now : Instant} {claimed : Option (RunRequest × JobLease)}
    (hexpired : ∀ id ending, s.Expires now id ending → allowed id (.ended ending))
    (hgranted : ∀ id lease, allowed id (.granted lease))
    (h : claimDue writerLease owner ttlSeconds token now s = .ok (claimed, s')) :
    s.Moves allowed (claimed.toList.map Prod.snd) s' := by
  have hrecover := recoverExpiredJobs_moves hs now hexpired
  cases claimDue_ok h with
  | inl hnone =>
    rw [hnone.1, hnone.2]
    exact hrecover
  | inr hsome =>
    obtain ⟨request, schedule, lease, hcandidate, -, hid, hnumber, hfencing, -, rfl, rfl⟩ := hsome
    obtain ⟨hrequest, hwaiting, hasked, -⟩ := candidates_spec hcandidate
    exact hrecover.trans
      (grantJob_moves (hrecover.sound hs) hrequest hwaiting hasked hid hnumber hfencing (hgranted _ _))

/-- Leases that are rewritten, each by steps of its own. -/
theorem updateLeases_moves (hs : s.Sound) {p : JobLease → Bool} {f : JobLease → JobLease}
    (hf : ∀ l, (f l).runRequestId = l.runRequestId)
    (hnone : ∀ id, s.leasesOf id = [] → g.filter (fun l => l.runRequestId = id) = [])
    (hpath : ∀ id r l past a, (s.job id).Working r l past a →
      (s.job id).Path (allowed id) (g.filter fun l => l.runRequestId = id)
        ⟨some r, [if p l then f l else l], past ++ [a]⟩) :
    s.Moves allowed g { s with leases := update s.leases p f } := by
  refine ⟨⟨id, fun id => ?_⟩, rfl⟩
  show (s.job id).Path _ _
    (Job.mk (s.request? id) ((update s.leases p f).filter fun row => row.runRequestId = id)
      (s.attemptsOf id))
  rw [leasesOf_update hf]
  cases hleases : s.leasesOf id with
  | nil =>
    have hjob : s.job id = ⟨s.request? id, [], s.attemptsOf id⟩ := by rw [← hleases]; rfl
    rw [hnone id hleases, hjob]
    exact .refl _
  | cons l rest =>
    have hmem : l ∈ s.leasesOf id := by rw [hleases]; exact List.mem_cons_self ..
    obtain ⟨r, past, a, hw⟩ := (hs.jobs id).working hmem
    obtain rfl := (List.cons.inj (hleases.symm.trans (Working.leases hw))).2
    rw [Working.request hw, Working.attempts hw]
    exact hpath id r l past a hw

theorem renewLeases_moves (hs : s.Sound) (p : JobLease → Bool) (expiresAt : Instant)
    (hallowed : ∀ id, allowed id .renewed) :
    s.Moves allowed [] { s with
      leases := update s.leases p fun row => { row with expiresAt := expiresAt } } := by
  refine updateLeases_moves hs (fun _ => rfl) (fun _ _ => rfl) ?_
  intro id r l past a hw
  rw [hw.eq]
  by_cases hp : p l = true
  · rw [if_pos hp]
    exact .single (.renewed expiresAt) (hallowed id)
  · rw [if_neg hp]
    exact .refl _

theorem takeOver_moves (hs : s.Sound) (owner : String) (token : String → String)
    (now expiresAt : Instant) (hallowed : ∀ id lease, allowed id (.takenOver lease)) :
    s.Moves allowed (s.takenOver owner token now expiresAt) (s.takeOver owner token now expiresAt) := by
  have hpart : ∀ id, (s.takenOver owner token now expiresAt).filter (fun l => l.runRequestId = id) =
      ((s.leasesOf id).filter fun row => row.expiresAt ≤ now && s.isDispatched row.runRequestId).map
        fun row => { row with
          owner := owner
          token := token row.runRequestId
          fencing := row.fencing + 1
          expiresAt := expiresAt } := by
    intro id
    unfold takenOver leasesOf
    rw [List.filter_map, List.filter_filter, List.filter_filter]
    congr 1
    apply List.filter_congr
    intro l _
    exact Bool.and_comm _ _
  refine updateLeases_moves hs (fun _ => rfl) (fun id hnone => ?_) ?_
  · rw [hpart, hnone]
    rfl
  · intro id r l past a hw
    rw [hpart, Working.leases hw, hw.eq]
    by_cases hp : (decide (l.expiresAt ≤ now) && s.isDispatched l.runRequestId) = true
    · have hdispatched : r.workflowRunId.isSome = true := by
        have hl : l ∈ s.leasesOf id := by rw [Working.leases hw]; exact List.mem_singleton_self l
        have h := (Bool.and_eq_true_iff.mp hp).2
        unfold isDispatched at h
        rw [lease_runRequestId hl, Working.request hw] at h
        simpa [hw.status] using h
      rw [if_pos hp, List.filter_cons, if_pos hp, List.filter_nil]
      have hstep : Job.Step ⟨some r, [l], past ++ [a]⟩
          (.takenOver { l with
            owner := owner
            token := token l.runRequestId
            fencing := l.fencing + 1
            expiresAt := expiresAt }) _ :=
        .takenOver hw.status hdispatched rfl rfl rfl
      exact .single hstep (hallowed _ _)
    · rw [if_neg hp, List.filter_cons, if_neg hp, List.filter_nil]
      exact .refl _

theorem renewDispatchedJobs_moves (hs : s.Sound) {writerLease : SchedulerLease} {owner : String}
    {token : String → String} {ttlSeconds : ℤ} {now : Instant} {jobs : List (RunRequest × JobLease)}
    (hexpired : ∀ id ending, s.Expires now id ending → allowed id (.ended ending))
    (htaken : ∀ id lease, allowed id (.takenOver lease)) (hrenewed : ∀ id, allowed id .renewed)
    (h : renewDispatchedJobs writerLease owner ttlSeconds token now s = .ok (jobs, s')) :
    s.Moves allowed ((s.recoverExpiredJobs now).takenOver owner token now
      (min (now + seconds ttlSeconds) writerLease.expiresAt)) s' := by
  obtain ⟨_, -, h⟩ := ok_of_bind h
  obtain ⟨_, -, h⟩ := ok_of_bind h
  obtain ⟨_, -, h⟩ := ok_of_bind h
  rw [← (Prod.mk.inj (Except.ok.inj h)).2]
  have hrecover := recoverExpiredJobs_moves hs now hexpired
  have hsound := hrecover.sound hs
  have htake := takeOver_moves hsound owner token now
    (min (now + seconds ttlSeconds) writerLease.expiresAt) htaken
  exact (hrecover.trans htake).then (renewLeases_moves (htake.sound hsound) _ _ hrenewed)

theorem renewJob_moves (hs : s.Sound) {lease renewed : JobLease} {writerLease : SchedulerLease}
    {ttlSeconds : ℤ} {now : Instant} (hallowed : ∀ id, allowed id .renewed)
    (h : renewJob lease writerLease ttlSeconds now s = .ok (renewed, s')) : s.Moves allowed [] s' := by
  obtain ⟨_, -, h⟩ := ok_of_bind h
  obtain ⟨_, -, h⟩ := ok_of_bind h
  obtain ⟨_, -, h⟩ := ok_of_bind h
  obtain ⟨-, h⟩ := ok_of_guard h
  rw [← (Prod.mk.inj (Except.ok.inj h)).2]
  exact renewLeases_moves hs _ _ hallowed

theorem markSideEffectStarted_moves (hs : s.Sound) {lease : JobLease} {now : Instant}
    (hallowed : s.assertJobLease lease now = .ok () → allowed lease.runRequestId .marked)
    (h : markSideEffectStarted lease now s = .ok ((), s')) : s.Moves allowed [] s' := by
  obtain ⟨_, hheld, h⟩ := ok_of_bind h
  obtain ⟨hguard, h⟩ := ok_of_guard h
  obtain ⟨r, l, past, a, hw, hnumber⟩ := hs.held hheld
  rw [hnumber, Working.attempt? hw, Working.request hw] at hguard
  simp only [Option.any_some, hw.running, hw.status, decide_true, Bool.true_and,
    Bool.not_eq_true', Bool.not_eq_false] at hguard
  have hjob := Working.updateAttempt hw (fun row => row.status = .running)
    (fun row => { row with sideEffectStarted := true }) (fun _ => rfl) (by simp [hw.running])
  rw [← (Prod.mk.inj (Except.ok.inj h)).2, hnumber]
  refine .one lease.runRequestId rfl rfl (fun _ hl => absurd hl List.not_mem_nil) ?_ fun other hne =>
    job_updateAttempt_ne (fun _ => rfl) hne
  rw [hjob, hw.eq]
  exact .single (.marked hw.status hguard) (hallowed hheld)

theorem markWorkflowDispatched_moves (hs : s.Sound) {lease : JobLease} {workflowRunId : String}
    {now : Instant} {r' : RunRequest}
    (hallowed : s.assertJobLease lease now = .ok () →
      allowed lease.runRequestId (.dispatched workflowRunId))
    (h : markWorkflowDispatched lease workflowRunId now s = .ok (r', s')) : s.Moves allowed [] s' := by
  unfold markWorkflowDispatched at h
  obtain ⟨-, h⟩ := ok_of_guard h
  obtain ⟨_, hheld, h⟩ := ok_of_bind h
  obtain ⟨hattempt, h⟩ := ok_of_guard h
  obtain ⟨hrequest, h⟩ := ok_of_guard h
  obtain ⟨r, l, past, a, hw, hnumber⟩ := hs.held hheld
  rw [hnumber, Working.attempt? hw] at hattempt
  have hleased : ¬(!(s.request? lease.runRequestId).any fun row =>
      row.status = .leased && row.workflowRunId.all (· = workflowRunId)) = true := hrequest
  rw [Working.request hw] at hleased
  simp only [Option.any_some, Bool.not_eq_true', Bool.not_eq_false] at hattempt hleased
  obtain ⟨hjob, hother⟩ := Working.updateBoth hw
    (fun row => row.status = .running && row.sideEffectStarted &&
      row.workflowRunId.all (· = workflowRunId))
    (fun row => { row with workflowRunId := workflowRunId }) (fun _ => rfl) hattempt
    (fun row => row.status = .leased && row.workflowRunId.all (· = workflowRunId))
    (fun row => { row with workflowRunId := workflowRunId }) (fun _ => rfl) hleased
  rw [reply_store h, hnumber]
  refine .one lease.runRequestId (ids_update fun _ => rfl) rfl
    (fun _ hl => absurd hl List.not_mem_nil) ?_ hother
  show (s.job lease.runRequestId).Path _ [] (((s.updateAttempt _ _ _ _).updateRequest _ _ _).job _)
  rw [hjob, hw.eq]
  exact .single (.dispatched hw.status (Bool.and_eq_true_iff.mp (Bool.and_eq_true_iff.mp hattempt).1).2
    (Bool.and_eq_true_iff.mp hleased).2) (hallowed hheld)

theorem cancelClaimedJob_moves (hs : s.Sound) {lease : JobLease} {now : Instant} {r' : RunRequest}
    (hasked : allowed lease.runRequestId .cancelAsked)
    (hallowed : s.assertJobLease lease now = .ok () → allowed lease.runRequestId
      (.ended { attempt := .failed, request := .cancelled, errorCode := "cancelled" }))
    (h : cancelClaimedJob lease now s = .ok (r', s')) : s.Moves allowed [] s' := by
  obtain ⟨_, hheld, h⟩ := ok_of_bind h
  obtain ⟨-, h⟩ := ok_of_guard h
  obtain ⟨r, l, past, a, hw, hnumber⟩ := hs.held hheld
  obtain ⟨hjob, hother⟩ := Working.updateBoth hw (fun _ => true)
    (fun row => { row with status := .failed, errorCode := "cancelled" }) (fun _ => rfl) rfl
    (fun row => row.status = .leased)
    (fun row => { row with status := .cancelled, cancelRequested := true, lastErrorCode := "cancelled" })
    (fun _ => rfl) (by simp [hw.status])
  rw [reply_store h, hnumber]
  refine .one lease.runRequestId (ids_update fun _ => rfl) rfl
    (fun _ hl => absurd hl List.not_mem_nil) ?_ fun other hne =>
      (job_deleteLease_ne hne).trans (hother other hne)
  -- The request is asked to stop, and its job ends at once.
  rw [job_deleteLease, hjob, hw.eq]
  exact .step (.single (.cancelAsked hw.status) hasked) (.ended hw.status ⟨by simp, .inl rfl⟩)
    (hallowed hheld)

/-- A job that is ended by whoever holds its lease. -/
theorem endHeld_moves (hs : s.Sound) {lease : JobLease} {now : Instant}
    (hheld : s.assertJobLease lease now = .ok ()) {ending : JobEnd}
    (hfits : ∀ r, s.request? lease.runRequestId = some r → ending.Fits r)
    (hallowed : allowed lease.runRequestId (.ended ending)) :
    s.Moves allowed [] (s.endJob lease.runRequestId lease.attemptNumber ending) := by
  obtain ⟨r, l, past, a, hw, hnumber⟩ := hs.held hheld
  rw [hnumber]
  exact endJob_moves hw (hfits r (Working.request hw)) hallowed

theorem completeJob_moves (hs : s.Sound) {lease : JobLease} {workflowRunId : String} {now : Instant}
    {r' : RunRequest}
    (hallowed : s.assertJobLease lease now = .ok () → allowed lease.runRequestId
      (.ended { attempt := .succeeded, request := .succeeded, workflowRunId := workflowRunId }))
    (h : completeJob lease workflowRunId now s = .ok (r', s')) : s.Moves allowed [] s' := by
  obtain ⟨_, hheld, h⟩ := ok_of_bind h
  rw [reply_store h]
  exact endHeld_moves hs hheld (fun _ _ => ⟨by simp, .inl rfl⟩) (hallowed hheld)

theorem finishDispatchedJob_moves (hs : s.Sound) {lease : JobLease} {status : RunRequestStatus}
    {errorCode : String} {now : Instant} {r' : RunRequest}
    (hallowed : s.assertJobLease lease now = .ok () → status.isTerminal = true →
      allowed lease.runRequestId
        (.ended
          { attempt := if status = .manualReconcileRequired then .outcomeUnknown else .failed
            request := status
            errorCode := errorCode }))
    (h : finishDispatchedJob lease status errorCode now s = .ok (r', s')) : s.Moves allowed [] s' := by
  unfold finishDispatchedJob at h
  obtain ⟨hstatus, h⟩ := ok_of_guard h
  obtain ⟨_, hheld, h⟩ := ok_of_bind h
  have hterminal : status.isTerminal = true := by
    cases status <;> simp_all [RunRequestStatus.isTerminal]
  rw [reply_store h]
  exact endHeld_moves hs hheld (fun _ _ => ⟨by dsimp only; split <;> simp, .inl hterminal⟩)
    (hallowed hheld hterminal)

theorem failJob_moves (hs : s.Sound) {lease : JobLease} {failure : Failure} {now : Instant}
    {r' : RunRequest}
    (hallowed : ∀ r, s.assertJobLease lease now = .ok () → s.request? lease.runRequestId = some r →
      allowed lease.runRequestId (.ended (failedEnd r failure now)))
    (h : failJob lease failure now s = .ok (r', s')) : s.Moves allowed [] s' := by
  obtain ⟨_, hheld, h⟩ := ok_of_bind h
  split at h
  · rename_i request _ hrequest _
    rw [reply_store h]
    refine endHeld_moves hs hheld (fun r hr => ?_) (hallowed request hheld hrequest)
    rw [← Option.some.inj (hrequest.symm.trans hr)]
    exact failedEnd_fits request failure now
  · exact nomatch h

theorem requestCancel_moves {requestId : String} {r' : RunRequest}
    (hcancelled : ∀ id asked, allowed id (.cancelled asked)) (hasked : ∀ id, allowed id .cancelAsked)
    (h : requestCancel requestId s = .ok (r', s')) : s.Moves allowed [] s' := by
  unfold requestCancel at h
  split at h
  · exact nomatch h
  · rename_i row hrow
    have hfound : ∀ id r, s.request? id = some r → (decide (r.id = requestId) && true) = true →
        r = row ∧ s.job id = ⟨some r, s.leasesOf id, s.attemptsOf id⟩ := by
      intro id r hr hp
      have hid : id = requestId := by
        rw [← request?_id hr]
        simpa using hp
      rw [hid, hrow] at hr
      refine ⟨(Option.some.inj hr).symm, ?_⟩
      rw [hid, ← hr, ← hrow]
      rfl
    split at h
    · rename_i hwaiting
      rw [reply_store h]
      refine updateRequests_moves (fun _ => rfl) fun id r hr hp => ?_
      obtain ⟨rfl, hjob⟩ := hfound id r hr hp
      rw [hjob]
      exact .single (.cancelled true hwaiting) (hcancelled _ _)
    · split at h
      · rename_i hleased
        rw [reply_store h]
        refine updateRequests_moves (fun _ => rfl) fun id r hr hp => ?_
        obtain ⟨rfl, hjob⟩ := hfound id r hr hp
        rw [hjob]
        exact .single (.cancelAsked hleased) (hasked _)
      · rw [reply_store h]
        exact .refl s

end SchedulerStore

/-! ### Every operation -/

theorem commits_ok {α : Type} {result : Checked (α × SchedulerStore)} {s' : SchedulerStore}
    (h : commits result = .ok s') : ∃ a, result = .ok (a, s') := by
  cases result with
  | error e => exact nomatch h
  | ok pair =>
    obtain ⟨a, last⟩ := pair
    rw [← Except.ok.inj h]
    exact ⟨a, rfl⟩

namespace StoreOp
open SchedulerStore
variable {s s' : SchedulerStore}

/-- What an operation does when it commits. -/
structure Executes (op : StoreOp) (s s' : SchedulerStore) : Prop
    extends s.JobMoves (op.Causes s) (op.jobGrants s) s' where
  authorities : op.writesAuthorities = false → s'.authorities = s.authorities
  schedules : op.writesSchedules = false → s'.definitions = s.definitions ∧ s'.heads = s.heads

theorem Executes.jobs_only {op : StoreOp} (h : s.Moves (op.Causes s) (op.jobGrants s) s') :
    op.Executes s s' :=
  ⟨h.toJobMoves, fun _ => h.authorities,
    fun _ => ⟨congrArg Prod.fst h.rest, congrArg (fun tables => tables.2.1) h.rest⟩⟩

theorem exec_moves (hs : s.Sound) {op : StoreOp} (h : op.exec s = .ok s') : op.Executes s s' := by
  cases op with
  | putSchedule =>
    obtain ⟨_, h⟩ := commits_ok h
    obtain ⟨hmoves, hauthorities⟩ := putSchedule_moves h
    exact ⟨hmoves, fun _ => hauthorities, fun hnot => absurd hnot (by simp [writesSchedules])⟩
  | updateScheduleStatus scheduleId status version =>
    obtain ⟨_, h⟩ := commits_ok h
    obtain ⟨hmoves, hauthorities⟩ :
        s.JobMoves ((updateScheduleStatus scheduleId status version).Causes s) [] s' ∧ _ :=
      updateScheduleStatus_moves (fun _ _ => .cancelled _ rfl) (fun _ => .cancelAsked rfl) h
    exact ⟨hmoves, fun _ => hauthorities, fun hnot => absurd hnot (by simp [writesSchedules])⟩
  | enqueueOccurrences =>
    obtain ⟨_, h⟩ := commits_ok h
    obtain ⟨hmoves, hauthorities⟩ := enqueueOccurrences_moves hs (fun _ => Causes.inserted) h
    exact ⟨hmoves, fun _ => hauthorities, fun hnot => absurd hnot (by simp [writesSchedules])⟩
  | enqueueManual =>
    obtain ⟨_, h⟩ := commits_ok h
    exact .jobs_only (enqueueManual_moves hs (fun _ => .inserted) h)
  | enqueueHook =>
    obtain ⟨_, h⟩ := commits_ok h
    exact .jobs_only (enqueueHook_moves hs (fun _ => .inserted) h)
  | observeWatch =>
    obtain ⟨_, h⟩ := commits_ok h
    obtain ⟨hmoves, hauthorities⟩ := observeWatch_moves hs (fun _ => Causes.inserted) h
    exact ⟨hmoves, fun _ => hauthorities, fun hnot => absurd hnot (by simp [writesSchedules])⟩
  | replayDeadLetter =>
    obtain ⟨_, h⟩ := commits_ok h
    exact .jobs_only (replayDeadLetter_moves hs (fun _ => .inserted) h)
  | acquireAuthority =>
    obtain ⟨_, h⟩ := commits_ok h
    obtain ⟨hmoves, hschedules⟩ := acquireAuthority_moves h
    exact ⟨hmoves, fun hnot => absurd hnot (by simp [writesAuthorities]), fun _ => hschedules⟩
  | renewAuthority =>
    obtain ⟨_, h⟩ := commits_ok h
    obtain ⟨hmoves, hschedules⟩ := renewAuthority_moves h
    exact ⟨hmoves, fun hnot => absurd hnot (by simp [writesAuthorities]), fun _ => hschedules⟩
  | releaseLease lease =>
    rw [← Except.ok.inj h]
    exact ⟨.tables rfl rfl rfl, fun hnot => absurd hnot (by simp [writesAuthorities]),
      fun _ => ⟨rfl, rfl⟩⟩
  | claimDue writerLease owner ttlSeconds token now =>
    obtain ⟨claimed, h⟩ := commits_ok h
    have hmoves : s.Moves ((claimDue writerLease owner ttlSeconds token now).Causes s) _ s' :=
      claimDue_moves hs (fun _ _ he => .ended (.expiredOnClaim he)) (fun _ _ => .granted _ rfl) h
    apply Executes.jobs_only
    simp only [jobGrants, h]
    cases claimed <;> exact hmoves
  | renewJob =>
    obtain ⟨_, h⟩ := commits_ok h
    exact .jobs_only (renewJob_moves hs (fun _ => .renewed) h)
  | markSideEffectStarted =>
    obtain ⟨_, h⟩ := commits_ok h
    exact .jobs_only (markSideEffectStarted_moves hs (fun hheld => .marked rfl rfl hheld) h)
  | markWorkflowDispatched =>
    obtain ⟨_, h⟩ := commits_ok h
    exact .jobs_only (markWorkflowDispatched_moves hs (fun hheld => .dispatched rfl rfl hheld) h)
  | renewDispatchedJobs writerLease owner ttlSeconds token now =>
    obtain ⟨_, h⟩ := commits_ok h
    have hmoves :
        s.Moves ((renewDispatchedJobs writerLease owner ttlSeconds token now).Causes s) _ s' :=
      renewDispatchedJobs_moves hs (fun _ _ he => .ended (.expiredOnRenew he))
        (fun _ _ => .takenOver _ rfl) (fun _ => .renewed) h
    apply Executes.jobs_only
    simp only [jobGrants, h]
    exact hmoves
  | cancelClaimedJob =>
    obtain ⟨_, h⟩ := commits_ok h
    exact .jobs_only
      (cancelClaimedJob_moves hs (.cancelAsked rfl) (fun hheld => .ended (.cancelled hheld)) h)
  | completeJob =>
    obtain ⟨_, h⟩ := commits_ok h
    exact .jobs_only (completeJob_moves hs (fun hheld => .ended (.completed hheld)) h)
  | finishDispatchedJob =>
    obtain ⟨_, h⟩ := commits_ok h
    exact .jobs_only (finishDispatchedJob_moves hs
      (fun hheld hterminal => .ended (.finished hheld hterminal)) h)
  | failJob =>
    obtain ⟨_, h⟩ := commits_ok h
    exact .jobs_only (failJob_moves hs (fun _ hheld hr => .ended (.failed hheld hr)) h)
  | requestCancel =>
    obtain ⟨_, h⟩ := commits_ok h
    exact .jobs_only (requestCancel_moves (fun _ _ => .cancelled _ rfl) (fun _ => .cancelAsked rfl) h)

/-- What fails is rolled back, and grants nothing. -/
theorem jobGrants_error {op : StoreOp} {e : SchedulerError} (h : op.exec s = .error e) :
    op.jobGrants s = [] := by
  cases op with
  | claimDue writerLease owner ttlSeconds token now =>
    cases hr : s.claimDue writerLease owner ttlSeconds token now with
    | error _ => simp only [jobGrants, hr]
    | ok pair =>
      have hok : commits (s.claimDue writerLease owner ttlSeconds token now) = .error e := h
      rw [hr] at hok
      exact nomatch hok
  | renewDispatchedJobs writerLease owner ttlSeconds token now =>
    cases hr : s.renewDispatchedJobs writerLease owner ttlSeconds token now with
    | error _ => simp only [jobGrants, hr]
    | ok pair =>
      have hok : commits (s.renewDispatchedJobs writerLease owner ttlSeconds token now) = .error e := h
      rw [hr] at hok
      exact nomatch hok
  | _ => rfl

/-- Whatever an operation does, committed or rolled back. -/
theorem apply_moves (hs : s.Sound) (op : StoreOp) : op.Executes s (op.apply s) := by
  unfold apply
  cases h : op.exec s with
  | ok s' => exact exec_moves hs h
  | error e =>
    apply Executes.jobs_only
    rw [jobGrants_error h]
    exact .refl s

theorem apply_sound (hs : s.Sound) (op : StoreOp) : (op.apply s).Sound := (apply_moves hs op).sound hs

end StoreOp

namespace SchedulerStore

theorem run_concat (ops : List StoreOp) (op : StoreOp) : run (ops ++ [op]) = op.apply (run ops) := by
  unfold run
  rw [List.foldl_append]
  rfl

theorem run_sound (ops : List StoreOp) : (run ops).Sound := by
  induction ops using List.reverseRecOn with
  | nil => exact sound_empty
  | append_singleton ops op ih =>
    rw [run_concat]
    exact StoreOp.apply_sound ih op

end SchedulerStore
end Operant.Scheduler
