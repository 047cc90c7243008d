import Operant.RemoteExecution.Lawful
import Operant.RemoteExecution.RunsOnce

/-! An outcome that is lost is classified in one way, and stops its lease. -/
namespace Operant.RemoteExecution
open Operant.Tables Operant.Calls
open Operant.Scheduler (Instant seconds)

/-- The result of a job whose outcome was lost. -/
theorem World.Lawful.lost_result {w : World} (hl : w.Lawful) {e : JobWrite} (he : e ∈ w.history)
    (hlost : e.lost = true) (hrunning : e.before.status = .running) :
    (w.results.filter fun r => r.jobId = e.before.jobId).map RemoteExecutionResult.status =
      [lostStatus e.before.idempotency e.before.capability] := by
  have hstatus := hl.alike e he hlost hrunning
  have hterminal : e.after.status.isTerminal = true := by
    rw [hstatus]
    unfold lostStatus
    split <;> rfl
  obtain ⟨job, hjob, hbecomes⟩ := hl.inv.recorded e he
  obtain rfl := hbecomes.final hterminal
  have hid : e.after.jobId = e.before.jobId := (hl.inv.lawful e he).jobId
  cases hl.inv.result_of hjob hterminal with
  | inl hresult =>
    obtain ⟨r, hfilter, hr⟩ := hresult
    rw [← hid, hfilter, List.map_singleton, hr, hstatus]
  | inr hwithdrawn =>
    -- What was cancelled while it was queued has not been lost.
    obtain ⟨-, other, hother, hotherId, hwithdraws⟩ := hwithdrawn
    unfold JobWrite.withdraws at hwithdraws
    rw [Bool.and_eq_true, decide_eq_true_eq, decide_eq_true_eq] at hwithdraws
    obtain ⟨row, hrow, hlater⟩ := hl.inv.recorded other hother
    have hcancelled : row = other.after := hlater.final (by rw [hwithdraws.2]; rfl)
    have hrowId : row.jobId = e.after.jobId := by
      rw [hcancelled, (hl.inv.lawful other hother).jobId, hotherId]
    rw [← hl.inv.job_unique hrow hjob hrowId, hcancelled, hwithdraws.2] at hstatus
    unfold lostStatus at hstatus
    split at hstatus <;> exact nomatch hstatus

/-- In every run in which no connector loses the outcome of an idempotent job of
`remote.target.exec`, and no job of a lease comes to be reconciled by hand between the check of a
connector and its poll: what is recorded of a job whose outcome is lost, by a connector or by the
reconciliation, is one function of its idempotency and its capability; and once a job of a lease
has to be reconciled by hand, no queued job of that lease is started. -/
theorem unknown_outcomes_stop (moves : List (Move Task))
    (h : Pool.Meets system (fun c w => w.allows c) start moves) :
    (∀ e ∈ (reached moves).history, e.lost = true → e.before.status = .running →
      e.after.status = lostStatus e.before.idempotency e.before.capability ∧
        ((reached moves).results.filter fun r => r.jobId = e.before.jobId).map
          RemoteExecutionResult.status = [lostStatus e.before.idempotency e.before.capability]) ∧
      (reached moves).history.Pairwise fun a b => a.after.leaseId = b.before.leaseId →
        a.after.status = .manualReconcileRequired → b.starts = false := by
  have hl := reached_lawful h
  constructor
  · intro e he hlost hrunning
    exact ⟨hl.alike e he hlost hrunning, hl.lost_result he hlost hrunning⟩
  · exact hl.stops

/-! ### Two jobs on one lease -/

def controller : Controller := { actionHash := fun _ => "hash" }

def wideBox : RemoteTargetRegistration :=
  { box with capabilityManifest := { box.capabilityManifest with
      maxConcurrentJobs := 2, concurrency := by decide } }

/-- A job that must not be done twice. -/
def sendJob (jobId : String) (createdAt : Instant) : RemoteExecutionJob :=
  { jobId := jobId, targetId := "box", leaseId := "first", leaseFencing := 1, capability := .targetRead
    operation := "read", actionHash := "hash-of-" ++ jobId, idempotencyKey := "key-of-" ++ jobId
    idempotency := .nonIdempotent, createdAt := createdAt }

/-- A command that may be done twice. -/
def execJob : RemoteExecutionJob :=
  { sendJob "run" (seconds 11) with
    capability := .targetExec, operation := "run", idempotency := .idempotent }

/-- A task of its own. -/
def alone (task : Task) (steps : Nat) : List (Move Task) := .start task :: List.replicate steps (.step 0)

def byItself (c : Call) (isOther : c.isOther = true) : List (Move Task) := alone (.other c isOther) 2

/-- The target is leased, and the jobs are created. -/
def prepared (jobs : List RemoteExecutionJob) : List (Move Task) :=
  byItself (.registerTarget wideBox) rfl ++ byItself (.heartbeatTarget "box" "key") rfl ++
    byItself (.acquireLease (lease "first" (seconds 100)) (seconds 10)) rfl ++
    jobs.flatMap fun job => byItself (.recordAction job.actionHash) rfl ++
      byItself (.createJob job "token-of-first" (seconds 11)) rfl

def twoJobs : List (Move Task) := prepared [sendJob "one" (seconds 1), sendJob "two" (seconds 2)]

def dispatch : Task := .dispatch controller (ref "first" 1) (seconds 12) 8

def writes (moves : List (Move Task)) : List (String × RemoteJobStatus) :=
  (reached moves).history.map fun e => (e.before.jobId, e.after.status)

/-- One connector after the other: the outcome of the first job is lost, and the second one stays
in the queue, until the lease is released and the jobs are reconciled. -/
def inTurn : List (Move Task) :=
  twoJobs ++ alone dispatch 20 ++ alone dispatch 20 ++ byItself (.releaseLease (ref "first" 1) (seconds 13)) rfl ++
    byItself (.reconcileExpired (seconds 14)) rfl

theorem unknown_outcomes_stop_in_turn :
    writes inTurn = [("one", .running), ("one", .manualReconcileRequired), ("two", .failed)] ∧
      (reached inTurn).history.Pairwise fun a b => a.after.leaseId = b.before.leaseId →
        a.after.status = .manualReconcileRequired → b.starts = false := by
  have hmeets : Pool.Meets system (fun c w => w.allows c) start inTurn := by decide +kernel
  exact ⟨by decide +kernel, (unknown_outcomes_stop inTurn hmeets).2⟩

/-- The second connector has made its check when the outcome of the first job is lost. -/
def between : List (Move Task) :=
  twoJobs ++ .start dispatch :: List.replicate 4 (.step 0) ++ .start dispatch :: List.replicate 3 (.step 1) ++
    List.replicate 5 (.step 0) ++ [.step 1]

/-- Its poll starts the other job of the lease. And an idempotent job of `remote.target.exec` has
failed where the connector loses its outcome, and has to be reconciled by hand where the lease is
released. -/
theorem started_after_unknown :
    writes between = [("one", .running), ("one", .manualReconcileRequired), ("two", .running)] ∧
      writes (prepared [execJob] ++ alone dispatch 20) = [("run", .running), ("run", .failed)] ∧
      writes (prepared [execJob] ++ .start dispatch :: List.replicate 4 (.step 0) ++ [.crash 0] ++
        byItself (.releaseLease (ref "first" 1) (seconds 13)) rfl ++ byItself (.reconcileExpired (seconds 14)) rfl) =
        [("run", .running), ("run", .manualReconcileRequired)] := by
  decide +kernel

end Operant.RemoteExecution
