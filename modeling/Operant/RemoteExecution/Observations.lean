import Operant.RemoteExecution.Controller
import Operant.Python.Dicts

/-! The observations of a target: `capability_observations`, what `complete_job` records there, and
`act`, which looks them up by their hash.

An observation has a deadline. A row that is there already under the same hash is kept as it is. -/
namespace Operant.RemoteExecution
open Operant.Python
open Operant.Scheduler (Instant)

/-- What `_local_scope_digest` digests. -/
structure LocalScope where
  targetId : String
  endpointRef : String
  identityPublicKey : String
  policyRef : String
  capabilityManifest : CapabilityManifest
  deriving DecidableEq

def RemoteTargetRegistration.scope (target : RemoteTargetRegistration) : LocalScope :=
  ⟨target.targetId, target.endpointRef, target.identityPublicKey, target.policyRef, target.capabilityManifest⟩

/-- A row of `capability_observation_sources`. -/
structure Provenance where
  sourceJobId : String
  leaseId : String
  leaseFencing : Nat
  scopeDigest : LocalScope
  deriving DecidableEq

/-- A row of `capability_observations`, with its source. -/
structure ObservationRow where
  targetId : String
  capability : RemoteCapability
  targetRef : String
  observationHash : String
  body : Refs
  artifactRef : Option String
  createdAt : Instant
  expiresAt : Instant
  source : Option Provenance := none

/-- The tables that observations need. -/
structure Observatory where
  world : World := {}
  observations : List ObservationRow := []

namespace Observatory
variable (s : Observatory)

/-- `get_observation`. -/
def observation? (targetId observationHash : String) : Option ObservationRow :=
  s.observations.find? fun row => row.targetId = targetId && row.observationHash = observationHash

/-- The job of the source has succeeded, and the observation is of it. -/
def isSourceOf (row : ObservationRow) (source : Provenance) : Bool :=
  match s.world.job? source.sourceJobId, s.world.result? source.sourceJobId with
  | some job, some result =>
    job.status = .succeeded && result.status = .succeeded && job.targetId = row.targetId &&
      job.leaseId = source.leaseId && job.leaseFencing = source.leaseFencing &&
      job.capability = row.capability && job.arguments.lookup "target_ref" = some (.str row.targetRef) &&
      job.finishedAt = some row.createdAt
  | _, _ => false

/-- Nothing of the row has changed but its times. -/
def sameGeneration (persisted row : ObservationRow) : Bool :=
  persisted.targetId = row.targetId && persisted.capability = row.capability &&
    persisted.targetRef = row.targetRef && persisted.observationHash = row.observationHash &&
    persisted.body.pyEq row.body && persisted.artifactRef = row.artifactRef && persisted.source = row.source

/-- `_record_observation_in_connection`. -/
def recordObservation (row : ObservationRow) : Except Raised Observatory :=
  if row.source.any fun source => !s.isSourceOf row source then
    throw (.conflict "local observation source Job is not a matching success")
  else match s.observation? row.targetId row.observationHash with
    | some persisted =>
      if row.source.isSome && !sameGeneration persisted row then
        throw (.conflict "local observation generation changed; observe again")
      else return s
    | none =>
      if !jsonValid (.dict row.body) then throw .integrity
      else return { s with observations := s.observations ++ [row] }

end Observatory

/-! ### Hashes -/

/-- A controller, and how long its observations last. -/
structure Observing extends Controller where
  observationTtl : Instant

namespace Observing
variable (c : Observing)

/-- `observation_hash_for_job`. -/
def observationHashForJob (job : RemoteExecutionJob) (targetRef : String) (body : Refs) : String :=
  c.actionHash (.dict ([("target_id", .str job.targetId), ("target_ref", .str targetRef), ("body", .dict body)] ++
    if job.arguments.lookup "observation_generation" = some (.str "job.v1") then
      [("observe_job_id", .str job.jobId)]
    else []))

/-- `_post_action_observation_hash`. -/
def postActionObservationHash (job : RemoteExecutionJob) (targetRef : String) (body : Refs) : String :=
  c.actionHash (.dict [("target_id", .str job.targetId), ("target_ref", .str targetRef), ("body", .dict body),
    ("post_action_job_id", .str job.jobId)])

/-- What a result says was observed. -/
def sourceBody (job : RemoteExecutionJob) (result : RemoteExecutionResult) : Option Refs :=
  if job.capability.isObservation then
    match result.postcondition.lookup "observation" with
    | some (.dict body) => some body
    | _ => none
  else postActionObservationBody job result

/-- The hash that belongs to it. -/
def sourceHash (job : RemoteExecutionJob) (targetRef : String) (body : Refs) : String :=
  if job.capability.isObservation then c.observationHashForJob job targetRef body
  else c.postActionObservationHash job targetRef body

/-- The row for a success with an observation; `ValidationError` where the reference does not fit. -/
def observationRow (job : RemoteExecutionJob) (target : RemoteTargetRegistration) (result : RemoteExecutionResult)
    (createdAt : Instant) : Except Raised ObservationRow :=
  match job.arguments.lookup "target_ref", sourceBody job result with
  | some (.str targetRef), some body =>
    if ¬(1 ≤ targetRef.length ∧ targetRef.length ≤ 500) then throw (.value "ValidationError")
    else return {
      targetId := target.targetId
      capability := job.capability
      targetRef := targetRef
      observationHash := c.sourceHash job targetRef body
      body := body
      artifactRef := result.artifactRef
      createdAt := createdAt
      expiresAt := createdAt + c.observationTtl
      source := if target.isLocal then some ⟨job.jobId, job.leaseId, job.leaseFencing, target.scope⟩ else none }
  | _, _ => throw (.other "AssertionError")

/-! ### Completion -/

/-- `completed_at` of the result of a local target is that of its first completion. -/
def dated (s : Observatory) (target : RemoteTargetRegistration) (result : RemoteExecutionResult) (now : Instant) :
    RemoteExecutionResult :=
  if target.isLocal then
    result.completed (((s.world.result? result.jobId).map RemoteExecutionResult.completedAt).getD now)
  else result

/-- What is known before anything is written. -/
structure Prepared where
  job : RemoteExecutionJob
  target : RemoteTargetRegistration
  assessed : Assessed

def prepare (s : Observatory) (result : RemoteExecutionResult) (ref : LeaseRef) (now : Instant)
    (artifact : Option Artifact) : Except Raised Prepared := do
  c.checkArtifact result artifact
  let (job, _) ← s.world.found (s.world.job? result.jobId)
  let (target, _) ← s.world.found (s.world.target? ref.targetId)
  let assessed ← c.assess job target.isLocal (dated s target result now)
  return ⟨job, target, assessed⟩

/-- A success that has an observation. -/
def Prepared.isObserved (p : Prepared) (status : RemoteJobStatus) : Bool := status = .succeeded && p.assessed.observed

/-- The transaction: what is observed of a local target is recorded with the result. -/
def commit (s : Observatory) (p : Prepared) (ref : LeaseRef) (now : Instant) :
    Except Raised (RemoteExecutionResult × Observatory) := do
  let result := p.assessed.result
  if p.target.isLocal && p.isObserved result.status then
    let row ← c.observationRow p.job p.target result result.completedAt
    let (completed, world) ← s.world.completeJob result ref now
      (Controller.observation p.job ref p.target.isLocal p.assessed) false
    let s' ← { s with world := world }.recordObservation row
    return (completed, s')
  else
    let (completed, world) ← s.world.completeJob result ref now none false
    return (completed, { s with world := world })

/-- The observation of another target, in a transaction of its own. -/
def publish (s : Observatory) (p : Prepared) (completed : RemoteExecutionResult) (now : Instant) :
    Except Raised Observatory :=
  if !p.target.isLocal && p.isObserved completed.status then do
    let row ← c.observationRow p.job p.target p.assessed.result now
    s.recordObservation row
  else return s

/-- `complete_job`, and what `complete_action_receipt` answers. -/
def completeJob (s : Observatory) (result : RemoteExecutionResult) (ref : LeaseRef) (now : Instant)
    (artifact : Option Artifact) (receipt : Except Raised Unit) :
    Except Raised RemoteExecutionResult × Observatory :=
  match c.prepare s result ref now artifact with
  | .error e => (.error e, s)
  | .ok p => match c.commit s p ref now with
    | .error e => (.error e, s)
    | .ok (completed, s') => match c.publish s' p completed now with
      | .error e => (.error e, s')
      | .ok s'' =>
        if p.job.capability.isTarget then (.ok completed, s'')
        else match receipt with
          | .ok () | .error .key => (.ok completed, s'')
          | .error e => (.error e, s'')

end Observing

/-! ### Actions -/

structure CapabilityActionRequest where
  targetId : String
  capability : RemoteCapability
  operation : String
  targetRef : String
  observationHash : String
  precondition : Refs := []
  arguments : Refs := []
  postcondition : Refs := []
  idempotencyKey : String
  idempotency : RemoteActionIdempotency := .nonIdempotent

/-- What an action is refused with. -/
inductive Rejected where
  /-- `ObservationUnavailableError`. -/
  | unavailable (message : String)
  /-- `ObservationExpiredError`. -/
  | expired (message : String)
  | raised (e : Raised)

/-- Expired or unavailable. -/
def Rejected.isStale : Rejected → Bool
  | .unavailable _ | .expired _ => true
  | .raised _ => false

inductive ActionKind where
  | browser
  | computer

def ActionKind.name : ActionKind → String
  | .browser => "browser"
  | .computer => "computer"

def ActionKind.expected : ActionKind → List RemoteCapability
  | .browser => [.browserNavigate, .browserSubmit, .browserScreenshot]
  | .computer => [.computerInput, .computerScreenshot, .clipboardRead, .clipboardWrite]

/-- What the gateway and the receipts answer to an action, and what is generated for its job. -/
structure Answers where
  authorize : Except Raised String
  jobId : String
  payloadBytes : Nat
  reserveActionReceipt : Except Raised Unit := .ok ()

/-- An exception that is passed on. -/
def passed {α : Type} : Except Raised α → Except Rejected α := Except.mapError Rejected.raised

namespace Observing
variable (c : Observing)

/-- `_require_local_observation_source`. -/
def requireLocalObservationSource (s : Observatory) (row : ObservationRow) (target : RemoteTargetRegistration)
    (leaseId : String) (leaseFencing : Nat) : Except Rejected Unit :=
  match row.source with
  | none => throw (.unavailable "local observation belongs to another lease or scope")
  | some source =>
    if source.leaseId ≠ leaseId ∨ source.leaseFencing ≠ leaseFencing ∨ source.scopeDigest ≠ target.scope then
      throw (.unavailable "local observation belongs to another lease or scope")
    else match s.world.job? source.sourceJobId, s.world.result? source.sourceJobId with
      | some job, some result =>
        if job.status ≠ .succeeded ∨ result.status ≠ .succeeded ∨ job.targetId ≠ row.targetId ∨
            job.leaseId ≠ leaseId ∨ job.leaseFencing ≠ leaseFencing ∨ job.capability ≠ row.capability ∨
            job.arguments.lookup "target_ref" ≠ some (.str row.targetRef) ∨ job.finishedAt ≠ some row.createdAt then
          throw (.unavailable "local observation source changed")
        else
          let body := sourceBody job result
          let expectedHash := body.map (c.sourceHash job row.targetRef)
          if !job.capability.isObservation ∧
              (result.postcondition.lookup "post_observation_hash").getD .null ≠
                (expectedHash.map Value.str).getD .null then
            throw (.unavailable "local post-action observation changed")
          else if body.all (fun body => !Refs.pyEq body row.body) ∨ expectedHash ≠ some row.observationHash then
            throw (.unavailable "local observation evidence changed")
          else return ()
      | some _, none => throw (.unavailable "local observation source changed")
      | none, _ => throw (.unavailable "local observation source is missing")

/-- The arguments of a job, bound to its observation where the target is local. -/
def boundArguments (s : Observatory) (target : RemoteTargetRegistration) (leaseId : String) (leaseFencing : Nat)
    (capability : RemoteCapability) (arguments : Refs) (now : Instant) : Except Rejected Refs :=
  if target.isLocal && !capability.isObservation && !capability.isTarget then
    match arguments.lookup "observation_hash", arguments.lookup "target_ref" with
    | some (.str observationHash), some (.str targetRef) =>
      match s.observation? target.targetId observationHash with
      | none => throw (.unavailable "local observation is unavailable")
      | some row =>
        if row.targetRef ≠ targetRef then
          throw (.raised (.conflict "observation target binding does not match"))
        else if row.expiresAt ≤ now then
          throw (.expired "observation is expired; observe again before acting")
        else do
          c.requireLocalObservationSource s row target leaseId leaseFencing
          return arguments.set "observation_content_hash" (.str (c.actionHash (.dict
            [("target_id", .str row.targetId), ("target_ref", .str row.targetRef), ("body", .dict row.body)])))
    | _, _ => throw (.raised (.conflict "local action requires a bound observation"))
  else return arguments

/-- `create_job`. -/
def createJob (s : Observatory) (ref : LeaseRef) (capability : RemoteCapability) (operation : String)
    (arguments : Refs) (idempotencyKey : String) (idempotency : RemoteActionIdempotency) (now : Instant)
    (answers : Answers) : Except Rejected (RemoteExecutionJob × Observatory) := do
  let (target, _) ← passed (s.world.found (s.world.target? ref.targetId))
  let arguments ← c.boundArguments s target ref.leaseId ref.fencing capability arguments now
  let _ ← passed (s.world.requireLiveLease ref now)
  let actionHash ← passed answers.authorize
  let (job, world) ← passed (s.world.createJob {
    jobId := answers.jobId
    targetId := ref.targetId
    leaseId := ref.leaseId
    leaseFencing := ref.fencing
    capability := capability
    operation := operation
    arguments := arguments
    payloadBytes := answers.payloadBytes
    actionHash := actionHash
    idempotencyKey := idempotencyKey
    idempotency := idempotency
    createdAt := now } ref.token now)
  return (job, { s with world := world })

/-- `act`. -/
def act (s : Observatory) (request : CapabilityActionRequest) (kind : ActionKind) (leaseId token : String)
    (fencing : Nat) (now : Instant) (answers : Answers) : Except Rejected (RemoteExecutionJob × Observatory) :=
  if request.capability ∉ kind.expected then throw (.raised (.value ("invalid " ++ kind.name ++ " capability")))
  else match s.observation? request.targetId request.observationHash with
    | none => throw (.unavailable "action observation is unavailable")
    | some row =>
      if row.targetRef ≠ request.targetRef then
        throw (.raised (.conflict "observation target binding does not match"))
      else if row.expiresAt ≤ now then
        throw (.expired "observation is expired; observe again before acting")
      else if !matchesEvidence (.dict row.body) (.dict request.precondition) then
        throw (.raised (.conflict "action precondition does not match the bound observation"))
      else do
        let created ← c.createJob s ⟨request.targetId, leaseId, token, fencing⟩ request.capability request.operation
          [("target_ref", .str request.targetRef), ("observation_hash", .str request.observationHash),
            ("precondition", .dict request.precondition), ("arguments", .dict request.arguments),
            ("postcondition", .dict request.postcondition)]
          request.idempotencyKey request.idempotency now answers
        passed answers.reserveActionReceipt
        return created

end Observing

/-! ### Histories -/

/-- What happens to the tables: calls by whomever, and completions. -/
inductive Event where
  | call (c : Call)
  | complete (result : RemoteExecutionResult) (ref : LeaseRef) (now : Instant) (artifact : Option Artifact)
      (receipt : Except Raised Unit)

/-- A job that is created is queued. -/
def Event.createsQueued : Event → Bool
  | .call c => c.createsQueued
  | .complete .. => true

def Observatory.after (c : Observing) (s : Observatory) (events : List Event) : Observatory :=
  events.foldl (fun s event => match event with
    | .call call => { s with world := (s.world.exec call).2 }
    | .complete result ref now artifact receipt => (c.completeJob s result ref now artifact receipt).2) s

end Operant.RemoteExecution
