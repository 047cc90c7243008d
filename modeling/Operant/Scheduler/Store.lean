import Mathlib.Data.List.Sort
import Operant.Scheduler.Domain
import Operant.Tables.Rows

/-! The scheduler's store: its tables, and one function for each transaction.

A transaction replies and commits, or fails and leaves the tables as they were. Fresh
ids, tokens and the clock are arguments, so that any values of them are covered. -/
namespace Operant.Scheduler
open Operant.Python Operant.Tables

/-! ### Tables -/

structure ScheduleHead where
  scheduleId : String
  currentVersion : Nat
  status : ScheduleStatus
  cursorAt : Instant
  deriving DecidableEq

structure WatchBaseline where
  scheduleId : String
  scheduleVersion : Nat
  fingerprint : String
  generation : Nat
  errorCode : Option String
  deriving DecidableEq

/-- `SQLiteSchedulerStore`. -/
structure SchedulerStore where
  definitions : List ScheduleDefinition := []
  heads : List ScheduleHead := []
  requests : List RunRequest := []
  authorities : List SchedulerLease := []
  leases : List JobLease := []
  attempts : List JobAttempt := []
  baselines : List WatchBaseline := []

abbrev Checked := Except SchedulerError

namespace SchedulerStore

def definition? (s : SchedulerStore) (scheduleId : String) (version : Nat) :
    Option ScheduleDefinition :=
  s.definitions.find? fun row => row.id = scheduleId && row.version = version

def head? (s : SchedulerStore) (scheduleId : String) : Option ScheduleHead :=
  s.heads.find? fun row => row.scheduleId = scheduleId

def request? (s : SchedulerStore) (id : String) : Option RunRequest :=
  s.requests.find? fun row => row.id = id

def authority? (s : SchedulerStore) (kind : AuthorityKind) : Option SchedulerLease :=
  s.authorities.find? fun row => row.kind = kind

def lease? (s : SchedulerStore) (id : String) : Option JobLease :=
  s.leases.find? fun row => row.runRequestId = id

def attempt? (s : SchedulerStore) (id : String) (number : Nat) : Option JobAttempt :=
  s.attempts.find? fun row => row.runRequestId = id && row.attemptNumber = number

def leasesOf (s : SchedulerStore) (id : String) : List JobLease :=
  s.leases.filter fun row => row.runRequestId = id

def attemptsOf (s : SchedulerStore) (id : String) : List JobAttempt :=
  s.attempts.filter fun row => row.runRequestId = id

/-- `UPDATE run_requests .. WHERE request_id=? AND ..`. -/
def updateRequest (s : SchedulerStore) (id : String) (guard : RunRequest → Bool)
    (f : RunRequest → RunRequest) : SchedulerStore :=
  { s with requests := update s.requests (fun row => row.id = id && guard row) f }

/-- `UPDATE job_attempts .. WHERE run_request_id=? AND attempt_number=? AND ..`. -/
def updateAttempt (s : SchedulerStore) (id : String) (number : Nat) (guard : JobAttempt → Bool)
    (f : JobAttempt → JobAttempt) : SchedulerStore :=
  { s with
    attempts := update s.attempts
      (fun row => row.runRequestId = id && row.attemptNumber = number && guard row) f }

/-- `UPDATE job_leases .. WHERE run_request_id=? AND ..`. -/
def updateLease (s : SchedulerStore) (id : String) (guard : JobLease → Bool)
    (f : JobLease → JobLease) : SchedulerStore :=
  { s with leases := update s.leases (fun row => row.runRequestId = id && guard row) f }

/-- `DELETE FROM job_leases WHERE run_request_id=?`. -/
def deleteLease (s : SchedulerStore) (id : String) : SchedulerStore :=
  { s with leases := s.leases.filter fun row => row.runRequestId ≠ id }

def leasedCount (s : SchedulerStore) (scheduleId : String) : Nat :=
  s.requests.countP fun row => row.scheduleId = scheduleId && row.status = .leased

/-! ### Schedules -/

def putSchedule (schedule : ScheduleDefinition) (s : SchedulerStore) : Checked (Unit × SchedulerStore) :=
  match s.definition? schedule.id schedule.version with
  | some existing =>
    if existing ≠ schedule then .error (.conflict "schedule revisions are immutable") else .ok ((), s)
  | none =>
    let stored := { s with definitions := s.definitions ++ [schedule] }
    match s.head? schedule.id with
    | some head =>
      if schedule.version ≠ head.currentVersion + 1 then
        .error (.conflict "schedule version must advance by one")
      else .ok ((), { stored with
        heads := update s.heads (fun row => row.scheduleId = schedule.id) fun row =>
          { row with currentVersion := schedule.version, status := schedule.status } })
    | none =>
      if schedule.version ≠ 1 then .error (.conflict "new schedules must start at version one")
      else .ok ((), { stored with
        heads := s.heads ++ [{
          scheduleId := schedule.id
          currentVersion := schedule.version
          status := schedule.status
          cursorAt := schedule.createdAt }] })

/-- The current revision, under the status of its head. -/
def getSchedule (s : SchedulerStore) (scheduleId : String) : Checked ScheduleDefinition :=
  match s.head? scheduleId with
  | none => .error .notFound
  | some head => match s.definition? scheduleId head.currentVersion with
    | none => .error .notFound
    | some schedule => .ok { schedule with status := head.status }

def getScheduleCursor (s : SchedulerStore) (scheduleId : String) : Checked Instant :=
  match s.head? scheduleId with
  | none => .error .notFound
  | some head => .ok head.cursorAt

/-- The requests of a cancelled schedule: those that wait are cancelled, those at work are
asked to stop. -/
def cancelRequests (scheduleId : String) (s : SchedulerStore) : SchedulerStore :=
  let waiting := update s.requests (fun row => row.scheduleId = scheduleId && row.status.isWaiting)
    fun row => { row with status := .cancelled }
  { s with
    requests := update waiting (fun row => row.scheduleId = scheduleId && row.status = .leased)
      fun row => { row with cancelRequested := true } }

def updateScheduleStatus (scheduleId : String) (status : ScheduleStatus) (expectedVersion : Nat)
    (s : SchedulerStore) : Checked (ScheduleDefinition × SchedulerStore) := do
  let matching (row : ScheduleHead) : Bool :=
    row.scheduleId = scheduleId && row.currentVersion = expectedVersion && row.status ≠ .cancelled
  if !s.heads.any matching then throw (.conflict "schedule status/version conflict")
  let changed := { s with heads := update s.heads matching fun row => { row with status := status } }
  let stored := if status = .cancelled then cancelRequests scheduleId changed else changed
  let schedule ← stored.getSchedule scheduleId
  return (schedule, stored)

/-! ### Run requests -/

/-- What an idempotency key is bound to. -/
def sameBinding (a b : RunRequest) : Bool :=
  a.scheduleId = b.scheduleId && a.scheduleVersion = b.scheduleVersion &&
    a.workflowId = b.workflowId && a.workflowVersion = b.workflowVersion &&
    a.workflowInput.pyEq b.workflowInput && a.dispatchIdempotency = b.dispatchIdempotency &&
    a.maxAttempts = b.maxAttempts

/-- The constraints of `run_requests` on a new row. -/
def insertable (s : SchedulerStore) (request : RunRequest) : Bool :=
  (s.requests.all fun row => row.id ≠ request.id && row.idempotencyKey ≠ request.idempotencyKey) &&
    (s.definition? request.scheduleId request.scheduleVersion).isSome &&
    (request.replayOfRequestId.all fun id => (s.request? id).isSome) &&
    1 ≤ request.maxAttempts && request.maxAttempts ≤ 20 && request.attemptCount ≤ 20

/-- `_insert_or_get_request`. -/
def insertOrGetRequest (request : RunRequest) (s : SchedulerStore) : Checked (RunRequest × SchedulerStore) :=
  if s.insertable request then .ok (request, { s with requests := s.requests ++ [request] })
  else match s.requests.find? fun row => row.idempotencyKey = request.idempotencyKey with
    | none => .error .integrity
    | some existing =>
      if !sameBinding request existing then
        .error (.conflict "idempotency key is bound to another request")
      else .ok (existing, s)

/-- pydantic's check of `idempotency_key`. -/
def checkKey (key : String) : Checked Unit :=
  if 1 ≤ key.length ∧ key.length ≤ 300 then .ok ()
  else .error (.invalidValue "idempotency_key")

/-- What is new about a new row: its id, and the clock. -/
structure NewRow where
  id : String
  createdAt : Instant
  deriving DecidableEq

/-- `_request_for`, given a key. -/
def requestFor (schedule : ScheduleDefinition) (occurrenceAt availableAt : Instant) (key : String)
    (new : NewRow) : Checked RunRequest := do
  checkKey key
  return {
    id := new.id
    scheduleId := schedule.id
    scheduleVersion := schedule.version
    occurrenceAt := occurrenceAt
    availableAt := availableAt
    idempotencyKey := key
    workflowId := schedule.workflowId
    workflowVersion := schedule.workflowVersion
    workflowInput := schedule.workflowInput
    dispatchIdempotency := schedule.dispatchIdempotency
    maxAttempts := schedule.maxAttempts
    createdAt := new.createdAt }

/-- `_dt`: the text of an instant. Its format does not matter, as long as instants have
different texts. -/
def dt (instant : Instant) : String := toString instant

/-- The key of an occurrence. -/
def occurrenceKey (schedule : ScheduleDefinition) (occurrenceAt : Instant) : String :=
  s!"schedule:{schedule.id}:v{schedule.version}:{dt occurrenceAt}"

/-- `_assert_authority`. -/
def assertAuthority (s : SchedulerStore) (lease : SchedulerLease) (now : Instant) :
    Checked Unit :=
  match s.authority? lease.kind with
  | none => .error (.conflict "authority lease was lost or expired")
  | some row =>
    if row.owner ≠ lease.owner ∨ row.token ≠ lease.token ∨ row.fencing ≠ lease.fencing ∨
        row.expiresAt ≤ now then .error (.conflict "authority lease was lost or expired")
    else .ok ()

/-- The head is at this revision of the schedule, under a status that is allowed. -/
def requireHead (s : SchedulerStore) (schedule : ScheduleDefinition)
    (allowed : ScheduleStatus → Bool) (message : String) : Checked Unit :=
  match s.head? schedule.id with
  | none => .error (.conflict message)
  | some head =>
    if head.currentVersion ≠ schedule.version ∨ !allowed head.status then .error (.conflict message)
    else .ok ()

/-- Insert requests one after the other. -/
def insertAll : List RunRequest → SchedulerStore → Checked (List RunRequest × SchedulerStore)
  | [], s => .ok ([], s)
  | request :: rest, s => do
    let (stored, s) ← insertOrGetRequest request s
    let (others, s) ← insertAll rest s
    return (stored :: others, s)

def enqueueOccurrences (schedule : ScheduleDefinition) (occurrences : List Instant)
    (leaderLease : SchedulerLease) (advanceCursorTo availableAt : Instant) (new : Instant → NewRow)
    (s : SchedulerStore) : Checked (List RunRequest × SchedulerStore) := do
  if leaderLease.kind ≠ .schedulerLeader then
    throw (.conflict "a scheduler leader lease is required")
  let requests ← occurrences.mapM fun occurrenceAt =>
    requestFor schedule occurrenceAt availableAt (occurrenceKey schedule occurrenceAt)
      (new occurrenceAt)
  s.assertAuthority leaderLease availableAt
  s.requireHead schedule (· = .enabled) "schedule changed while materializing"
  let (stored, s) ← insertAll requests s
  return (stored, { s with
    heads := update s.heads (fun row => row.scheduleId = schedule.id) fun row =>
      { row with cursorAt := advanceCursorTo } })

def enqueueManual (schedule : ScheduleDefinition) (idempotencyKey : String) (requestedAt : Instant)
    (new : NewRow) (s : SchedulerStore) : Checked (RunRequest × SchedulerStore) := do
  if idempotencyKey = "" then throw (.invalidValue "idempotency_key must not be empty")
  let request ← requestFor schedule requestedAt requestedAt s!"manual:{schedule.id}:{idempotencyKey}"
    new
  s.requireHead schedule (· ≠ .cancelled) "schedule changed while triggering manually"
  insertOrGetRequest request s

def enqueueHook (schedule : ScheduleDefinition) (idempotencyKey : String) (requestedAt : Instant)
    (new : NewRow) (s : SchedulerStore) : Checked (RunRequest × SchedulerStore) := do
  let request ← requestFor schedule requestedAt requestedAt
    (if idempotencyKey = "" then occurrenceKey schedule requestedAt else idempotencyKey) new
  s.requireHead schedule (· = .enabled) "hook schedule changed or is not enabled"
  insertOrGetRequest request s

def replayDeadLetter (requestId idempotencyKey : String) (requestedAt : Instant) (new : NewRow)
    (s : SchedulerStore) : Checked (RunRequest × SchedulerStore) := do
  if idempotencyKey = "" then throw (.invalidValue "idempotency_key must not be empty")
  match s.request? requestId with
  | none => throw .notFound
  | some source =>
    if source.status ≠ .deadLetter then
      throw (.conflict "only dead-letter requests can be replayed")
    let key := s!"replay:{source.id}:{idempotencyKey}"
    checkKey key
    insertOrGetRequest
      { id := new.id
        scheduleId := source.scheduleId
        scheduleVersion := source.scheduleVersion
        occurrenceAt := requestedAt
        availableAt := requestedAt
        idempotencyKey := key
        replayOfRequestId := some source.id
        workflowId := source.workflowId
        workflowVersion := source.workflowVersion
        workflowInput := source.workflowInput
        dispatchIdempotency := source.dispatchIdempotency
        maxAttempts := source.maxAttempts
        createdAt := new.createdAt } s

/-- What a probe of a watched path has seen, or why it has seen nothing. -/
inductive Observation where
  | fingerprint (text : String)
  | failed (errorCode : String)
  deriving DecidableEq

def observeWatch (schedule : ScheduleDefinition) (observed : Observation)
    (leaderLease : SchedulerLease) (observedAt : Instant) (new : NewRow) (s : SchedulerStore) :
    Checked (Option RunRequest × SchedulerStore) := do
  s.assertAuthority leaderLease observedAt
  s.requireHead schedule (· = .enabled) "watch schedule changed or is not enabled"
  let watched (row : WatchBaseline) : Bool :=
    row.scheduleId = schedule.id && row.scheduleVersion = schedule.version
  let added (fingerprint : String) (errorCode : Option String) : SchedulerStore := { s with
    baselines := s.baselines ++
      [{ scheduleId := schedule.id, scheduleVersion := schedule.version, fingerprint,
         generation := 0, errorCode }] }
  match observed, s.baselines.find? watched with
  | .failed errorCode, none => return (none, added "" errorCode)
  | .failed errorCode, some _ =>
    return (none, { s with
      baselines := update s.baselines watched fun row => { row with errorCode := errorCode } })
  | .fingerprint text, none => return (none, added text none)
  | .fingerprint text, some row =>
    if row.fingerprint = text ∨ row.fingerprint = "" then
      return (none, { s with
        baselines := update s.baselines watched fun row =>
          { row with fingerprint := text, errorCode := none } })
    else
      let generation := row.generation + 1
      let request ← requestFor schedule observedAt observedAt
        s!"watch:{schedule.id}:v{schedule.version}:g{generation}:{text}" new
      let (queued, s) ← insertOrGetRequest request s
      return (some queued, { s with
        baselines := update s.baselines watched fun row =>
          { row with fingerprint := text, generation := generation, errorCode := none } })

/-! ### Authorities -/

def checkOwner (owner : String) : Checked Unit :=
  if 1 ≤ owner.length ∧ owner.length ≤ 200 then .ok ()
  else .error (.invalidValue "owner must contain between 1 and 200 characters")

def checkTtl (ttlSeconds : ℤ) : Checked Unit :=
  if 1 ≤ ttlSeconds then .ok () else .error (.invalidValue "ttl_seconds must be positive")

def acquireAuthority (kind : AuthorityKind) (owner : String) (ttlSeconds : ℤ) (token : String)
    (now : Instant) (s : SchedulerStore) : Checked (SchedulerLease × SchedulerStore) := do
  checkOwner owner
  checkTtl ttlSeconds
  let expiresAt := now + seconds ttlSeconds
  match s.authority? kind with
  | none =>
    let lease := { kind, owner, token, fencing := 1, expiresAt }
    return (lease, { s with authorities := s.authorities ++ [lease] })
  | some row =>
    if now < row.expiresAt then throw (.conflict s!"{kind.text} already has a live owner")
    let lease := { kind, owner, token, fencing := row.fencing + 1, expiresAt }
    return (lease, { s with authorities := update s.authorities (fun row => row.kind = kind) fun _ => lease })

/-- The row of this very lease. -/
def sameAuthority (lease row : SchedulerLease) : Bool :=
  row.kind = lease.kind && row.owner = lease.owner && row.token = lease.token &&
    row.fencing = lease.fencing

def renewAuthority (lease : SchedulerLease) (ttlSeconds : ℤ) (now : Instant) (s : SchedulerStore) :
    Checked (SchedulerLease × SchedulerStore) := do
  checkTtl ttlSeconds
  let expiresAt := now + seconds ttlSeconds
  let live (row : SchedulerLease) : Bool := sameAuthority lease row && now < row.expiresAt
  if !s.authorities.any live then throw (.conflict "authority lease was lost or expired")
  return ({ lease with expiresAt := expiresAt },
    { s with authorities := update s.authorities live fun row => { row with expiresAt := expiresAt } })

/-- `SchedulerCoordinator._release_lease`. -/
def releaseLease (lease : SchedulerLease) (s : SchedulerStore) : SchedulerStore :=
  { s with authorities := s.authorities.filter fun row => !sameAuthority lease row }

end SchedulerStore
end Operant.Scheduler
