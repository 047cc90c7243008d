import Operant.RemoteExecution.Preserved
import Operant.Calls.Rules

/-! `RemoteExecutionController`, call by call. -/
namespace Operant.RemoteExecution
open Operant.Python Operant.Calls
open Operant.Scheduler (Instant)

abbrev Action (α : Type) := Prog Call Answer Raised α

/-- A call whose exception is raised. -/
def ask (c : Call) : Action (Reply c) := Prog.request c >>= Prog.lift

/-! ### Evidence -/

mutual
/-- `_matches_evidence`. -/
def matchesEvidence (actual : Value) : Value → Bool
  | .dict expected => match actual with
    | .dict items => matchesItems items expected
    | _ => false
  | .list xs => match actual with
    | .list _ => actual.pyEq (.list xs)
    | _ => false
  | expected => actual.pyEq expected

def matchesItems (actual : Refs) : List (String × Value) → Bool
  | [] => true
  | (key, value) :: rest =>
    (match actual.lookup key with
      | some found => matchesEvidence found value
      | none => false) && matchesItems actual rest
end

namespace RemoteCapability

def isObservation : RemoteCapability → Bool
  | .browserObserve | .computerObserve => true
  | _ => false

def isBrowserAction : RemoteCapability → Bool
  | .browserNavigate | .browserSubmit => true
  | _ => false

def isComputerAction : RemoteCapability → Bool
  | .computerInput | .clipboardWrite => true
  | _ => false

/-- What a job of it does may already have been done. -/
def isAction (capability : RemoteCapability) : Bool :=
  capability.isBrowserAction || capability.isComputerAction

/-- `capability in {TARGET_READ, TARGET_EXEC}`. -/
def isTarget : RemoteCapability → Bool
  | .targetRead | .targetExec => true
  | _ => false

end RemoteCapability

def browserFields : List String :=
  ["url", "title", "text", "form_state_sha256", "elements", "fields", "active_selector"]

def computerFields : List String :=
  ["bundle_id", "window_title", "window_title_sha256", "buttons", "buttons_sha256", "fields",
    "fields_state_sha256"]

def isStr : Option Value → Bool
  | some (.str _) => true
  | _ => false

def isList : Option Value → Bool
  | some (.list _) => true
  | _ => false

/-- The fields of a postcondition, without those that are excluded, if they are the required ones
and of the right types. -/
def observationBody (postcondition : Refs) (excluded required allowed : List String)
    (text : String) (lists : List String) : Option Refs :=
  let body := postcondition.filter fun item => item.1 ∉ excluded
  if body.any (fun item => item.1 ∉ allowed) || !required.all (Dict.has body) then none
  else if !isStr (body.lookup text) || !lists.all (fun key => isList (body.lookup key)) then none
  else some body

/-- `_post_action_observation_body`. -/
def postActionObservationBody (job : RemoteExecutionJob) (result : RemoteExecutionResult) : Option Refs :=
  if job.capability.isBrowserAction then
    observationBody result.postcondition ["pre_observation_hash", "post_observation_hash"] browserFields
      (browserFields ++ ["query_sha256"]) "url" ["elements", "fields"]
  else if job.capability.isComputerAction then
    observationBody result.postcondition
      (["pre_observation_hash", "post_observation_hash"] ++
        if job.capability = .clipboardWrite then ["clipboard_sha256"] else [])
      computerFields computerFields "bundle_id" ["buttons", "fields"]
  else none

/-- A controller, and `canonical_action_hash`. -/
structure Controller where
  maxArtifactBytes : Nat := 16777216
  actionHash : Value → String

/-- A result, and whether an observation comes with it. -/
structure Assessed where
  result : RemoteExecutionResult
  observed : Bool := false

namespace Controller

/-- The checks of an artifact. -/
def checkArtifact (c : Controller) (result : RemoteExecutionResult) (artifact : Option Artifact) :
    Except Raised Unit :=
  match result.artifactSha256, artifact with
  | some _, none => throw (.value "artifact bytes are required for checksum verification")
  | some sha256, some bytes =>
    if bytes.size > c.maxArtifactBytes then
      throw (.value "remote artifact exceeds the configured size limit")
    else if bytes.sha256 ≠ sha256 then throw (.conflict "remote artifact checksum mismatch")
    else return ()
  | none, some _ => throw (.value "artifact bytes require artifact_ref and artifact_sha256")
  | none, none => return ()

/-- A success that turns out to be something else. -/
def demoted (result : RemoteExecutionResult) (unknown : Bool) (errorCode : String) : Assessed :=
  if unknown then
    { result := { result with
        status := .manualReconcileRequired, errorCode := some errorCode, terminal := manualReconcileRequired_terminal } }
  else
    { result := { result with status := .failed, errorCode := some errorCode, terminal := failed_terminal } }

/-- The part of `complete_job` that compares a success with its evidence. -/
def assess (c : Controller) (job : RemoteExecutionJob) (isLocal : Bool) (result : RemoteExecutionResult) :
    Except Raised Assessed :=
  if result.status ≠ .succeeded then return { result := result }
  else if job.capability.isObservation then
    match result.postcondition.lookup "observation", result.postcondition.lookup "target_ref" with
    | some (.dict _), some (.str targetRef) =>
      if job.arguments.lookup "target_ref" ≠ some (.str targetRef) then
        throw (.conflict "observation result changed the requested target binding")
      else return { result := result, observed := true }
    | _, _ => throw (.conflict "successful observation result lacks observation evidence")
  else if job.capability.isTarget then return { result := result }
  else if !matchesEvidence (.dict result.postcondition)
      ((job.arguments.lookup "postcondition").getD (.dict [])) then
    if isLocal && job.idempotency = .nonIdempotent && job.capability.isAction then
      return demoted result true "remote.outcome_unknown"
    else return demoted result false "remote.postcondition_failed"
  else if isLocal && job.capability.isAction && result.postcondition.has "post_observation_hash" then
    match job.arguments.lookup "target_ref", postActionObservationBody job result with
    | some (.str targetRef), some body =>
      let content := [("target_id", .str job.targetId), ("target_ref", .str targetRef), ("body", .dict body)]
      if result.postcondition.lookup "post_observation_hash" ≠
          some (.str (c.actionHash (.dict content))) then
        return demoted result true "remote.post_observation_invalid"
      else
        let hash := c.actionHash (.dict (content ++ [("post_action_job_id", .str job.jobId)]))
        return {
          result := { result with
            postcondition := result.postcondition.set "post_observation_hash" (.str hash) }
          observed := true }
    | _, _ =>
      -- There is no hash to compare with, which `None` is equal to.
      if result.postcondition.lookup "post_observation_hash" = some .null then
        throw (.other "AssertionError")
      else return demoted result true "remote.post_observation_invalid"
  else return { result := result }

/-! ### Results -/

/-- The result of a local target has the time of its first completion. -/
def dated (target : RemoteTargetRegistration) (result : RemoteExecutionResult) (now : Instant) :
    Action RemoteExecutionResult := do
  if target.isLocal then
    let previous ← ask (.getResult result.jobId)
    return result.completed ((previous.map RemoteExecutionResult.completedAt).getD now)
  else return result

/-- The observation that is recorded together with the result. -/
def observation (job : RemoteExecutionJob) (ref : LeaseRef) (isLocal : Bool) (assessed : Assessed) :
    Option (CapabilityObservation × ObservationSource) :=
  if isLocal && assessed.result.status = .succeeded && assessed.observed then
    some (⟨ref.targetId, assessed.result.completedAt⟩, ⟨job.jobId, job.leaseId, job.leaseFencing⟩)
  else none

/-- An observation of a target that is not local is recorded by itself. -/
def observe (records : Bool) : Action Unit :=
  if records then ask .recordObservation else return ()

/-- The receipt of the action, if there is one. -/
def completeReceipt (job : RemoteExecutionJob) : Action Unit :=
  if job.capability.isTarget then return ()
  else do
    match ← (ask .completeActionReceipt).attempt with
    | .ok () | .error .key => return ()
    | .error e => throw e

/-- `complete_job`. -/
def completeJob (c : Controller) (result : RemoteExecutionResult) (ref : LeaseRef) (now : Instant)
    (artifact : Option Artifact) (lost : Bool) : Action RemoteExecutionResult := do
  Prog.lift (c.checkArtifact result artifact)
  let job ← ask (.getJob result.jobId)
  let target ← ask (.getTarget ref.targetId)
  let result ← dated target result now
  let assessed ← Prog.lift (c.assess job target.isLocal result)
  let completed ← ask (.completeJob assessed.result ref now
    (observation job ref target.isLocal assessed) lost)
  observe (!target.isLocal && completed.status = .succeeded && assessed.observed)
  completeReceipt job
  return completed

/-! ### Polls -/

/-- `_require_no_unknown_on_lease`. -/
def requireNoUnknownOnLease (targetId leaseId : String) : Action (List String) := do
  let unknown ← ask (.unknownsOnLease targetId leaseId)
  if unknown ≠ [] then throw (.conflict "unknown remote action requires a new fenced lease")
  else return unknown

/-- `poll_jobs`. -/
def pollJobs (ref : LeaseRef) (limit : Nat) (now : Instant) : Action (List RemoteExecutionJob) := do
  let seen ← requireNoUnknownOnLease ref.targetId ref.leaseId
  ask .authorize
  ask (.pollJobs ref now limit seen)

/-- What `dispatch_available` records where the outcome is unknown. -/
def unknownResult (job : RemoteExecutionJob) (now : Instant) : RemoteExecutionResult :=
  if job.idempotency = .nonIdempotent then
    { jobId := job.jobId
      resultIdempotencyKey := "connector-unknown:" ++ job.jobId
      status := .manualReconcileRequired
      errorCode := some "remote.outcome_unknown"
      completedAt := now
      terminal := manualReconcileRequired_terminal }
  else
    { jobId := job.jobId
      resultIdempotencyKey := "connector-unknown:" ++ job.jobId
      status := .failed
      errorCode := some "remote.outcome_unknown"
      completedAt := now
      terminal := failed_terminal }

/-- The result that is to be completed, and whether it stands for an outcome that is lost. -/
structure Pending where
  result : RemoteExecutionResult
  artifact : Option Artifact
  lost : Bool

def pending (job : RemoteExecutionJob) (now : Instant) :
    Except Raised ConnectorOutcome → Except Raised Pending
  | .ok outcome => .ok ⟨outcome.result, outcome.artifact, false⟩
  | .error .outcomeUnknown => .ok ⟨unknownResult job now, none, true⟩
  | .error e => .error e

/-- The result of a job whose completion was refused. -/
def reconciled (jobId : String) (now : Instant) (e : Raised) : Action RemoteExecutionResult := do
  let closed ← ask (.reconcileExpired now)
  let persisted ← ask (.getResult jobId)
  match persisted with
  | some result =>
    if result.resultIdempotencyKey = "core-lease-invalidated:" ++ jobId then return result
    else if closed.any (fun job => job.jobId = jobId) then
      throw (.conflict "reconciled Job has no durable result")
    else throw e
  | none =>
    if closed.any (fun job => job.jobId = jobId) then
      throw (.conflict "reconciled Job has no durable result")
    else throw e

/-- A job that is claimed is executed and completed; `now` and `started` are those of the
dispatch. -/
def perform (c : Controller) (ref : LeaseRef) (now started : Instant) (job : RemoteExecutionJob) :
    Action RemoteExecutionResult := do
  let outcome ← (ask (.execute job)).attempt
  let p ← Prog.lift (pending job now outcome)
  let ended ← ask .monotonic
  let completedAt := now + (ended - started)
  match ← (c.completeJob (p.result.completed completedAt) ref completedAt p.artifact p.lost).attempt with
  | .ok result => return result
  | .error e => if e.isConflict then reconciled job.jobId completedAt e else throw e

/-- The rounds of `dispatch_available`. -/
def rounds (c : Controller) (ref : LeaseRef) (now started : Instant) :
    Nat → List RemoteExecutionResult → Action (List RemoteExecutionResult)
  | 0, results => return results
  | n + 1, results => do
    let polled ← ask .monotonic
    let seen ← requireNoUnknownOnLease ref.targetId ref.leaseId
    let jobs ← ask (.pollJobs ref (now + (polled - started)) 1 seen)
    match jobs with
    | [] => return results
    | job :: _ =>
      let result ← c.perform ref now started job
      if result.status = .manualReconcileRequired then return results ++ [result]
      else c.rounds ref now started n (results ++ [result])

/-- `dispatch_available`. -/
def dispatchAvailable (c : Controller) (ref : LeaseRef) (now : Instant) (limit : Nat) :
    Action (List RemoteExecutionResult) := do
  if ¬(1 ≤ limit ∧ limit ≤ 32) then throw (.value "invalid remote job dispatch limit")
  else
    let started ← ask .monotonic
    c.rounds ref now started limit []

end Controller

/-! ### Everybody -/

/-- The calls that nobody makes by themselves. -/
def Call.isOther : Call → Bool
  | .pollJobs .. | .completeJob .. => false
  | _ => true

inductive Task where
  | dispatch (controller : Controller) (ref : LeaseRef) (now : Instant) (limit : Nat)
  | poll (ref : LeaseRef) (limit : Nat) (now : Instant)
  | complete (controller : Controller) (result : RemoteExecutionResult) (ref : LeaseRef) (now : Instant)
      (artifact : Option Artifact)
  /-- Leases, new jobs, cancellations, reconciliations, and what is `Outside`. -/
  | other (c : Call) (isOther : c.isOther = true)

def Task.code : Task → Action Unit
  | .dispatch controller ref now limit => do
    let _ ← controller.dispatchAvailable ref now limit
    return ()
  | .poll ref limit now => do
    let _ ← Controller.pollJobs ref limit now
    return ()
  | .complete controller result ref now artifact => do
    let _ ← controller.completeJob result ref now artifact false
    return ()
  | .other c _ => do
    let _ ← ask c
    return ()

/-- Any number of connectors and callers. -/
def system : System Call Answer Raised World Task Unit where
  exec c w := .ok (w.exec c)
  code := Task.code
  note _ _ w := w

/-- The pool in which nothing has happened yet. -/
def start : Pool Call Answer Raised World Task Unit := { world := {} }

/-- What a run of the system leaves. -/
def reached (moves : List (Move Task)) : World := (start.play system moves).world

end Operant.RemoteExecution
