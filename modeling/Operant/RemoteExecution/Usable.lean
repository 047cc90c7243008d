import Operant.RemoteExecution.Recorded

/-! How long an observation can be acted on.

Of a local target every completed job has an observation of its own. Of another target the same
page has the same hash, and the row that is there keeps its deadline, so that the page that was
just observed may be expired already. A result of a local job that is reported again says nothing
new, too.

`usable_iff`: after an observe job has been completed, its observation can be acted on until its
time is over exactly if no row under its hash ends sooner and it is not such a repetition. -/
namespace Operant.RemoteExecution
open Operant.Python Operant.Calls Operant.Tables
open Operant.Scheduler (Instant)

/-! ### Sources -/

namespace Observing
variable {c : Observing} {s : Observatory} {row : ObservationRow} {source : Provenance} {job : RemoteExecutionJob}
  {stored : RemoteExecutionResult} {target : RemoteTargetRegistration} {leaseId : String} {fencing : Nat}

/-- What is wrong with a source makes the observation unavailable. -/
theorem requireLocalObservationSource_error {e : Rejected}
    (h : c.requireLocalObservationSource s row target leaseId fencing = .error e) : e.isStale = true := by
  unfold requireLocalObservationSource at h
  split at h
  · cases h
    rfl
  · split at h
    · cases h
      rfl
    · split at h
      · split at h
        · cases h
          rfl
        · dsimp only at h
          split at h
          · cases h
            rfl
          · split at h
            · cases h
              rfl
            · exact nomatch h
      · cases h
        rfl
      · cases h
        rfl

/-- A source is good exactly if its result has the hash of the row. -/
theorem requireLocalObservationSource_iff (hs : Observatory.Sourced c s row source job stored)
    (hsource : row.source = some source) (hlease : source.leaseId = leaseId) (hfencing : source.leaseFencing = fencing)
    (hscope : target.scope = source.scopeDigest) (hobserves : job.capability.isObservation = true) :
    c.requireLocalObservationSource s row target leaseId fencing = .ok () ↔
      ∃ body, sourceBody job stored = some body ∧
        c.observationHashForJob job row.targetRef body = row.observationHash := by
  have hhash (body : Refs) : c.sourceHash job row.targetRef body = c.observationHashForJob job row.targetRef body := by
    unfold sourceHash
    rw [if_pos hobserves]
  unfold requireLocalObservationSource
  rw [hsource]
  dsimp only
  rw [if_neg (by rw [hlease, hfencing, hscope]; simp), hs.ofJob, hs.ofResult]
  dsimp only
  rw [if_neg (by
    rw [hs.succeeded, hs.resulted, hs.targetId, hs.leaseId, hs.leaseFencing, hs.capability, hs.targetRef, hs.finishedAt,
      hlease, hfencing]
    simp), if_neg (by rw [hobserves]; simp)]
  cases hbody : sourceBody job stored with
  | none => simp [throw, throwThe, MonadExceptOf.throw]
  | some body =>
    have heq := hs.body hobserves body hbody
    by_cases hsame : c.observationHashForJob job row.targetRef body = row.observationHash
    · simp [heq, hhash, hsame, pure, Except.pure]
    · simp [heq, hhash, hsame, throw, throwThe, MonadExceptOf.throw]

/-! ### Actions -/

theorem error_of_bind {E α β : Type} {x : Except E α} {f : α → Except E β} {e : E} (h : x >>= f = .error e) :
    x = .error e ∨ ∃ a, x = .ok a ∧ f a = .error e := by
  cases x with
  | error e' =>
    cases h
    exact .inl rfl
  | ok a => exact .inr ⟨a, rfl, h⟩

theorem passed_error {α : Type} {x : Except Raised α} {e : Rejected} (h : passed x = .error e) : e.isStale = false := by
  cases x with
  | error raised =>
    cases h
    rfl
  | ok a => exact nomatch h

/-- What fails behind a check and is passed on is not stale. -/
theorem passed_bind_stale {α β : Type} {x : Except Raised α} {f : α → Except Rejected β} {e : Rejected}
    (h : passed x >>= f = .error e) (hstale : e.isStale = true) : ∃ a, x = .ok a ∧ f a = .error e := by
  rcases error_of_bind h with hx | ⟨a, hx, hf⟩
  · rw [passed_error hx] at hstale
    cases hstale
  · cases x with
    | error e' => cases hx
    | ok b =>
      cases hx
      exact ⟨a, rfl, hf⟩

theorem found_ok {α : Type} {w w' : World} {row : Option α} {a : α} (h : w.found row = .ok (a, w')) : row = some a := by
  unfold World.found at h
  split at h
  · exact nomatch h
  · cases h
    rfl

variable {capability : RemoteCapability} {arguments : Refs} {later : Instant} {hash targetRef : String}

/-- The arguments of an action on a local target are bound if the source is good. -/
theorem boundArguments_eq (hlocal : target.isLocal = true)
    (hcapability : capability.isObservation = false ∧ capability.isTarget = false)
    (hhash : arguments.lookup "observation_hash" = some (.str hash))
    (href : arguments.lookup "target_ref" = some (.str targetRef))
    (hrow : s.observation? target.targetId hash = some row) (hsame : row.targetRef = targetRef)
    (hlive : ¬row.expiresAt ≤ later) :
    c.boundArguments s target leaseId fencing capability arguments later =
      (c.requireLocalObservationSource s row target leaseId fencing).map fun _ =>
        arguments.set "observation_content_hash" (.str (c.actionHash (.dict
          [("target_id", .str row.targetId), ("target_ref", .str row.targetRef), ("body", .dict row.body)]))) := by
  unfold boundArguments
  rw [if_pos (by rw [hlocal, hcapability.1, hcapability.2]; rfl), hhash, href]
  dsimp only
  rw [hrow]
  dsimp only
  rw [if_neg (by rw [not_not]; exact hsame), if_neg hlive]
  cases c.requireLocalObservationSource s row target leaseId fencing <;> rfl

theorem boundArguments_elsewhere (hlocal : target.isLocal = false) :
    c.boundArguments s target leaseId fencing capability arguments later = .ok arguments := by
  unfold boundArguments
  rw [if_neg (by rw [hlocal]; simp)]
  rfl

variable {request : CapabilityActionRequest} {kind : ActionKind} {token : String} {answers : Answers}

theorem not_observation (h : request.capability ∈ kind.expected) :
    request.capability.isObservation = false ∧ request.capability.isTarget = false := by
  have hall : ∀ capability ∈ kind.expected, capability.isObservation = false ∧ capability.isTarget = false := by
    cases kind <;> decide
  exact hall _ h

/-- The arguments of the job of an action. -/
def jobArguments (request : CapabilityActionRequest) : Refs :=
  [("target_ref", .str request.targetRef), ("observation_hash", .str request.observationHash),
    ("precondition", .dict request.precondition), ("arguments", .dict request.arguments),
    ("postcondition", .dict request.postcondition)]

/-- An action that is refused for its observation. -/
theorem act_stale {e : Rejected} (hrow : s.observation? request.targetId request.observationHash = some row)
    (h : c.act s request kind leaseId token fencing later answers = .error e) (hstale : e.isStale = true) :
    row.targetRef = request.targetRef ∧ (row.expiresAt ≤ later ∨ ∃ target,
      s.world.target? request.targetId = some target ∧ target.isLocal = true ∧
        c.requireLocalObservationSource s row target leaseId fencing = .error e) := by
  unfold act at h
  split at h
  · cases h
    exact nomatch hstale
  · rename_i hexpected
    rw [not_not] at hexpected
    rw [hrow] at h
    dsimp only at h
    split at h
    · cases h
      exact nomatch hstale
    · rename_i href
      rw [not_not] at href
      refine ⟨href, ?_⟩
      split at h
      · rename_i hexpired
        exact .inl hexpired
      · rename_i hlive
        right
        split at h
        · cases h
          exact nomatch hstale
        · rcases error_of_bind h with hcreate | ⟨created, -, hreceipt⟩
          · unfold createJob at hcreate
            obtain ⟨⟨target, w⟩, htarget, hcreate⟩ := passed_bind_stale hcreate hstale
            have htarget := found_ok htarget
            refine ⟨target, htarget, ?_⟩
            have hid := (World.target_mem htarget).2
            rcases error_of_bind hcreate with hbound | ⟨bound, -, hcreate⟩
            · cases hlocal : target.isLocal with
              | false =>
                rw [boundArguments_elsewhere hlocal] at hbound
                exact nomatch hbound
              | true =>
                refine ⟨rfl, ?_⟩
                dsimp only at hbound
                rw [boundArguments_eq hlocal (not_observation hexpected) rfl rfl (by rw [hid]; exact hrow) href hlive]
                  at hbound
                cases hsource : c.requireLocalObservationSource s row target leaseId fencing with
                | error e' =>
                  rw [hsource] at hbound
                  cases hbound
                  rfl
                | ok _ =>
                  rw [hsource] at hbound
                  exact nomatch hbound
            · obtain ⟨_, _, hcreate⟩ := passed_bind_stale hcreate hstale
              obtain ⟨_, _, hcreate⟩ := passed_bind_stale hcreate hstale
              obtain ⟨_, _, hcreate⟩ := passed_bind_stale hcreate hstale
              exact nomatch hcreate
          · obtain ⟨_, _, hreceipt⟩ := passed_bind_stale hreceipt hstale
            exact nomatch hreceipt

theorem act_expired (hrow : s.observation? request.targetId request.observationHash = some row)
    (hexpected : request.capability ∈ kind.expected) (href : row.targetRef = request.targetRef)
    (hexpired : row.expiresAt ≤ later) :
    ∃ e, c.act s request kind leaseId token fencing later answers = .error e ∧ e.isStale = true := by
  unfold act
  rw [if_neg (by rw [not_not]; exact hexpected), hrow]
  dsimp only
  rw [if_neg (by rw [not_not]; exact href), if_pos hexpired]
  exact ⟨_, rfl, rfl⟩

theorem act_unavailable {e : Rejected} (hrow : s.observation? request.targetId request.observationHash = some row)
    (hexpected : request.capability ∈ kind.expected) (href : row.targetRef = request.targetRef)
    (hlive : ¬row.expiresAt ≤ later) (hprecondition : request.precondition = [])
    (htarget : s.world.target? request.targetId = some target) (hlocal : target.isLocal = true)
    (hsource : c.requireLocalObservationSource s row target leaseId fencing = .error e) :
    c.act s request kind leaseId token fencing later answers = .error e := by
  have hid := (World.target_mem htarget).2
  unfold act
  rw [if_neg (by rw [not_not]; exact hexpected), hrow]
  dsimp only
  rw [if_neg (by rw [not_not]; exact href), if_neg hlive,
    if_neg (by rw [hprecondition, matchesEvidence, matchesItems]; simp)]
  unfold createJob World.found
  rw [htarget]
  show ((c.boundArguments s target leaseId fencing request.capability (jobArguments request) later >>= _) >>= _) = _
  rw [boundArguments_eq hlocal (not_observation hexpected) rfl rfl (by rw [hid]; exact hrow) href hlive, hsource]
  rfl

end Observing

/-! ### Completions -/

theorem World.job?_updateJobs {w : World} {lost : Bool} {p : RemoteExecutionJob → Bool}
    {f : RemoteExecutionJob → RemoteExecutionJob} (hf : ∀ job, (f job).jobId = job.jobId) (id : String) :
    (w.updateJobs lost p f).job? id = (w.job? id).map fun job => if p job then f job else job :=
  find?_update fun job _ _ => by rw [hf]

/-- A job is completed under its lease, and keeps what it was created with. -/
theorem World.completeJob_job {w w' : World} {result completed : RemoteExecutionResult} {ref : LeaseRef} {now : Instant}
    {observation : Option (CapabilityObservation × ObservationSource)} {lost : Bool} {job : RemoteExecutionJob}
    (h : w.completeJob result ref now observation lost = .ok (completed, w'))
    (hjob : w.job? result.jobId = some job) :
    job.isUnder ref ∧ ∃ job', w'.job? result.jobId = some job' ∧ job'.arguments = job.arguments ∧
      job'.jobId = job.jobId ∧ job'.targetId = job.targetId ∧ job'.capability = job.capability := by
  unfold World.completeJob at h
  split at h
  · exact nomatch h
  · obtain ⟨row, -, h⟩ := ok_of_bind h
    rw [hjob] at h
    dsimp only at h
    split at h
    · exact nomatch h
    · rename_i hunder
      rw [not_or, not_or, not_not, not_not, not_not] at hunder
      refine ⟨hunder, ?_⟩
      split at h
      · split at h
        · exact nomatch h
        · cases h
          exact ⟨job, hjob, rfl, rfl, rfl, rfl⟩
      · split at h
        · exact nomatch h
        · obtain ⟨w₁, hinsert, h⟩ := ok_of_bind h
          obtain ⟨-, rfl⟩ := insertResult_ok hinsert
          cases h
          refine ⟨{ job with status := result.status, finishedAt := some result.completedAt }, ?_, rfl, rfl, rfl, rfl⟩
          rw [World.job?_updateJobs]
          · show Option.map _ (w.job? result.jobId) = _
            rw [hjob, Option.map_some, if_pos (decide_eq_true (World.job_mem hjob).2)]
          · exact fun _ => rfl

namespace Observing
variable {c : Observing} {s : Observatory} {result completed : RemoteExecutionResult} {ref : LeaseRef} {now : Instant}
  {artifact : Option Artifact} {receipt : Except Raised Unit} {job : RemoteExecutionJob}
  {target : RemoteTargetRegistration} {targetRef : String} {body : Refs} {found : ObservationRow}

theorem assess_succeeded {d : Controller} {isLocal : Bool} {assessed : Assessed}
    (hobserves : job.capability.isObservation = true) (h : d.assess job isLocal result = .ok assessed)
    (hstatus : assessed.result.status = .succeeded)
    (href : result.postcondition.lookup "target_ref" = some (.str targetRef)) :
    assessed.observed = true ∧ assessed.result = result ∧
      job.arguments.lookup "target_ref" = some (.str targetRef) := by
  unfold Controller.assess at h
  split at h
  · rename_i hfailed
    cases h
    exact absurd hstatus hfailed
  · split at h
    · rename_i given _ hgiven
      rw [href] at hgiven
      cases hgiven
      split at h
      · cases h
      · rename_i hsame
        rw [not_not] at hsame
        cases h
        exact ⟨rfl, rfl, hsame⟩
    · cases h

theorem dated_postcondition : (dated s target result now).postcondition = result.postcondition := by
  unfold dated
  split <;> rfl

/-- What a row says of the observation it is for. -/
theorem row_of_observation {row : ObservationRow} {createdAt : Instant}
    (hobserves : job.capability.isObservation = true)
    (hbody : result.postcondition.lookup "observation" = some (.dict body))
    (href : job.arguments.lookup "target_ref" = some (.str targetRef))
    (h : c.observationRow job target result createdAt = .ok row) :
    row.targetRef = targetRef ∧ row.body = body ∧ row.observationHash = c.observationHashForJob job targetRef body := by
  obtain ⟨-, hrowRef, hrowBody, hhash, -⟩ := observationRow_ok h
  rw [href] at hrowRef
  have hsame : row.targetRef = targetRef := (Value.str.inj (Option.some.inj hrowRef)).symm
  unfold sourceBody at hrowBody
  rw [if_pos hobserves, hbody] at hrowBody
  have hsameBody : row.body = body := (Option.some.inj hrowBody).symm
  refine ⟨hsame, hsameBody, ?_⟩
  rw [hhash, hsame, hsameBody]
  unfold sourceHash
  rw [if_pos hobserves]

/-- What is found of an observation after its completion. -/
structure Landed (c : Observing) (s s' : Observatory) (ref : LeaseRef) (job : RemoteExecutionJob)
    (target : RemoteTargetRegistration) (targetRef : String) (body : Refs) (now : Instant) (found : ObservationRow) :
    Prop where
  there : s'.observation? ref.targetId (c.observationHashForJob job targetRef body) = some found
  elsewhere : target.isLocal = false →
    s.observation? ref.targetId (c.observationHashForJob job targetRef body) = some found ∨
      found.targetRef = targetRef ∧ found.expiresAt = now + c.observationTtl
  targetRef : target.isLocal = true → found.targetRef = targetRef
  source : target.isLocal = true → found.source = some ⟨job.jobId, ref.leaseId, ref.fencing, target.scope⟩
  createdAt : target.isLocal = true →
    found.createdAt = ((s.world.result? job.jobId).map RemoteExecutionResult.completedAt).getD now
  ended : target.isLocal = true → ∃ job', s'.world.job? job.jobId = some job' ∧ job'.arguments = job.arguments ∧
    job'.jobId = job.jobId ∧ job'.targetId = job.targetId ∧ job'.capability = job.capability
  stored : target.isLocal = true → s.world.result? job.jobId = none →
    ∃ stored, s'.world.result? job.jobId = some stored ∧ sourceBody job stored = some body

/-- Where an observe job's observation is after its completion. -/
theorem completed_row (hi : s.Inv c) (hjob : s.world.job? result.jobId = some job)
    (hobserves : job.capability.isObservation = true)
    (h : (c.completeJob s result ref now artifact receipt).1 = .ok completed) (hsucceeded : completed.status = .succeeded)
    (hbody : result.postcondition.lookup "observation" = some (.dict body))
    (href : result.postcondition.lookup "target_ref" = some (.str targetRef)) :
    ∃ target found, s.world.target? ref.targetId = some target ∧
      Landed c s (c.completeJob s result ref now artifact receipt).2 ref job target targetRef body now found := by
  obtain ⟨p, s₁, hprepare, hcommit, hpublish⟩ := completeJob_ok h
  have hp := prepare_ok hprepare
  have hsameJob : p.job = job := Option.some.inj (hp.job.symm.trans hjob)
  have hid : job.jobId = result.jobId := (World.job_mem hjob).2
  have htargetId : p.target.targetId = ref.targetId := (World.target_mem hp.target).2
  have hcommits := commit_ok hcommit
  obtain ⟨hinv, -⟩ := commit_inv hi hp hcommits
  have hassessed := hp.assessed
  rw [hsameJob] at hassessed
  have finish (observation : Option (CapabilityObservation × ObservationSource)) (world : World)
      (hcompletes : s.world.completeJob p.assessed.result ref now observation false = .ok (completed, world)) :
      p.assessed.observed = true ∧ p.assessed.result = dated s p.target result now ∧
        p.assessed.result.status = .succeeded ∧ job.arguments.lookup "target_ref" = some (.str targetRef) := by
    have hstatus : p.assessed.result.status = .succeeded := by
      rcases (World.completeJob_result hcompletes).2 with ⟨-, hsame⟩ | ⟨-, hsame, -⟩
      · rw [← hsame, hsucceeded]
      · unfold RemoteExecutionResult.sameAs at hsame
        simp only [Bool.and_eq_true, decide_eq_true_eq] at hsame
        rw [← hsame.1.1.1.1.2, hsucceeded]
    obtain ⟨hobserved, hresult, hargument⟩ := assess_succeeded hobserves hassessed hstatus
      (by rw [dated_postcondition]; exact href)
    exact ⟨hobserved, hresult, hstatus, hargument⟩
  refine ⟨p.target, ?_⟩
  cases hcommits with
  | observed row found world observed row_eq completes recorded =>
    obtain ⟨-, hresult, -, hargument⟩ := finish _ _ completes
    have hs' : (c.completeJob s result ref now artifact receipt).2 = s₁ := by
      unfold publish at hpublish
      rw [if_neg (by rw [observed.1]; simp)] at hpublish
      exact (Except.ok.inj hpublish).symm
    rw [hs']
    rw [hsameJob] at row_eq
    have hbodyOf : p.assessed.result.postcondition.lookup "observation" = some (.dict body) := by
      rw [hresult, dated_postcondition]
      exact hbody
    obtain ⟨hrowRef, hrowBody, hrowHash⟩ := row_of_observation hobserves hbodyOf hargument row_eq
    obtain ⟨hrowTarget, -, hsourceBody, -, hcreated, -, -, hrowSource⟩ := observationRow_ok row_eq
    rw [if_pos observed.1] at hrowSource
    have hresultId : p.assessed.result.jobId = result.jobId := by rw [hresult, dated_jobId]
    obtain ⟨hunder, job', hjob', hkept⟩ := World.completeJob_job completes
      (show s.world.job? p.assessed.result.jobId = some job by rw [hresultId]; exact hjob)
    have hfoundSource : found.source = row.source := by
      rcases recorded.which with ⟨-, rfl⟩ | ⟨-, hsame⟩
      · rfl
      · have hgeneration := hsame (by rw [hrowSource]; rfl)
        unfold Observatory.sameGeneration at hgeneration
        simp only [Bool.and_eq_true, decide_eq_true_eq] at hgeneration
        exact hgeneration.2
    have hfoundRef : found.targetRef = row.targetRef := by
      rcases recorded.which with ⟨-, rfl⟩ | ⟨-, hsame⟩
      · rfl
      · have hgeneration := hsame (by rw [hrowSource]; rfl)
        unfold Observatory.sameGeneration at hgeneration
        simp only [Bool.and_eq_true, decide_eq_true_eq] at hgeneration
        exact hgeneration.1.1.1.1.2
    refine ⟨found, hp.target, ?_, fun hother => ?_, fun _ => hfoundRef.trans hrowRef, fun _ => ?_, fun _ => ?_,
      fun _ => ?_, fun _ hnone => ?_⟩
    · rw [← hrowHash, ← htargetId, ← hrowTarget]
      exact recorded.there
    · rw [observed.1] at hother
      exact nomatch hother
    · rw [hfoundSource, hrowSource, hunder.2.1, hunder.2.2]
    · -- Both rows were recorded for the same end of the same job.
      obtain ⟨job₁, _, hrowEvidence⟩ := Observatory.evidence_of (recorded.source _ hrowSource)
      obtain ⟨job₂, _, hsourced⟩ := hinv.sourced found (Observatory.observation_mem recorded.there).1 _
        (hfoundSource.trans hrowSource)
      have hone := hrowEvidence.ofJob
      have htwo := hsourced.ofJob
      rw [recorded.world] at htwo
      have hsame : job₁ = job₂ := Option.some.inj (hone.symm.trans htwo)
      have hmoment : row.createdAt = found.createdAt := by
        apply Option.some.inj
        rw [← hrowEvidence.finishedAt, ← hsourced.finishedAt, hsame]
      rw [← hmoment, hcreated, hresult, hid]
      unfold dated
      rw [if_pos observed.1]
      rfl
    · refine ⟨job', ?_, hkept⟩
      rw [recorded.world, hid, ← hresultId]
      exact hjob'
    · obtain ⟨hafter, hwhich⟩ := World.completeJob_result completes
      have hfresh : completed = p.assessed.result := by
        rcases hwhich with ⟨-, hsame⟩ | ⟨hsome, -, -⟩
        · exact hsame
        · rw [hid, ← hresultId, hsome] at hnone
          exact nomatch hnone
      refine ⟨completed, ?_, ?_⟩
      · rw [recorded.world, hid, ← hresultId]
        exact hafter
      · rw [hfresh, hsourceBody, hrowBody]
  | unobserved world unobserved completes unrecorded =>
    obtain ⟨hobserved, hresult, hstatus, hargument⟩ := finish _ _ completes
    have helsewhere : p.target.isLocal = false := by
      unfold Prepared.isObserved at unobserved
      rw [hobserved, hstatus] at unobserved
      simpa using unobserved
    have hhere : p.target.isLocal ≠ true := by
      rw [helsewhere]
      exact Bool.false_ne_true
    unfold publish at hpublish
    rw [if_pos (by
      unfold Prepared.isObserved
      rw [helsewhere, hobserved, hsucceeded]
      rfl)] at hpublish
    obtain ⟨row, hrow, hrecords⟩ := ok_of_bind hpublish
    obtain ⟨found, recorded⟩ := Observatory.recordObservation_ok hrecords
    rw [hsameJob] at hrow
    have hbodyOf : p.assessed.result.postcondition.lookup "observation" = some (.dict body) := by
      rw [hresult, dated_postcondition]
      exact hbody
    obtain ⟨hrowRef, -, hrowHash⟩ := row_of_observation hobserves hbodyOf hargument hrow
    obtain ⟨hrowTarget, -, -, -, -, hexpires, -, -⟩ := observationRow_ok hrow
    refine ⟨found, hp.target, ?_, fun _ => ?_, fun h => absurd h hhere, fun h => absurd h hhere,
      fun h => absurd h hhere, fun h => absurd h hhere, fun h => absurd h hhere⟩
    · rw [← hrowHash, ← htargetId, ← hrowTarget]
      exact recorded.there
    · rcases recorded.which with ⟨-, rfl⟩ | ⟨hthere, -⟩
      · exact .inr ⟨hrowRef, hexpires⟩
      · left
        rw [unrecorded] at hthere
        rw [← hrowHash, ← htargetId, ← hrowTarget]
        exact hthere

/-! ### Usable observations -/

/-- Until its time is over, no action under the lease is refused because the observation is expired
or unavailable, whatever happens meanwhile. -/
def Usable (c : Observing) (s : Observatory) (ref : LeaseRef) (targetRef hash : String) (now : Instant) : Prop :=
  ∀ more : List Event, (∀ event ∈ more, event.createsQueued = true) →
    ∀ (request : CapabilityActionRequest) (kind : ActionKind) (token : String) (later : Instant) (answers : Answers),
      request.targetId = ref.targetId → request.targetRef = targetRef → request.observationHash = hash →
        now ≤ later → later < now + c.observationTtl →
          ∀ e, c.act (s.after c more) request kind ref.leaseId token ref.fencing later answers = .error e →
            e.isStale = false

/-- No row under the hash ends sooner, and the job of a local target is not completed again later, or
with an observation that has another hash. -/
structure Fresh (c : Observing) (s : Observatory) (ref : LeaseRef) (job : RemoteExecutionJob)
    (targetRef hash : String) (now : Instant) : Prop where
  unexpired : ∀ row, s.observation? ref.targetId hash = some row → row.targetRef = targetRef →
    now + c.observationTtl ≤ row.expiresAt
  first : ∀ target, s.world.target? ref.targetId = some target → target.isLocal = true →
    ∀ stored, s.world.result? job.jobId = some stored → now ≤ stored.completedAt ∧
      ∃ body, sourceBody job stored = some body ∧ c.observationHashForJob job targetRef body = hash

theorem isLocal_of_scope {a b : RemoteTargetRegistration} (h : a.scope = b.scope) : a.isLocal = b.isLocal := by
  unfold RemoteTargetRegistration.isLocal
  rw [show a.policyRef = b.policyRef from congrArg LocalScope.policyRef h]

theorem observationHashForJob_congr {job' : RemoteExecutionJob} (harguments : job'.arguments = job.arguments)
    (hid : job'.jobId = job.jobId) (htarget : job'.targetId = job.targetId) :
    c.observationHashForJob job' targetRef body = c.observationHashForJob job targetRef body := by
  unfold observationHashForJob
  rw [harguments, hid, htarget]

/-- The deadline of a local observation is that of the first completion. -/
theorem Landed.expiresAt {s' : Observatory} (hl : Landed c s s' ref job target targetRef body now found) (hi : s'.Inv c)
    (hlocal : target.isLocal = true) :
    found.expiresAt = ((s.world.result? job.jobId).map RemoteExecutionResult.completedAt).getD now + c.observationTtl := by
  obtain ⟨_, _, hsourced⟩ := hi.sourced found (Observatory.observation_mem hl.there).1 _ (hl.source hlocal)
  rw [hsourced.expiresAt, hl.createdAt hlocal]

/-- Whether the source of a local observation is good, at any later time. -/
theorem Landed.source_iff {s' t : Observatory} {later : RemoteTargetRegistration} {stored : RemoteExecutionResult}
    (hl : Landed c s s' ref job target targetRef body now found) (hi : s'.Inv c) (hkept : s'.world.Kept t.world)
    (hobserves : job.capability.isObservation = true) (hlocal : target.isLocal = true)
    (hscope : later.scope = target.scope) (hstored : s'.world.result? job.jobId = some stored) :
    c.requireLocalObservationSource t found later ref.leaseId ref.fencing = .ok () ↔
      ∃ other, sourceBody job stored = some other ∧
        c.observationHashForJob job targetRef other = c.observationHashForJob job targetRef body := by
  obtain ⟨job', stored', hsourced⟩ := hi.sourced found (Observatory.observation_mem hl.there).1 _ (hl.source hlocal)
  obtain ⟨ended, hended, harguments, hid, htargetId, hcapability⟩ := hl.ended hlocal
  have hsameJob : job' = ended := Option.some.inj (hsourced.ofJob.symm.trans hended)
  have hsameStored : stored' = stored := Option.some.inj (hsourced.ofResult.symm.trans hstored)
  rw [hsameJob, hsameStored] at hsourced
  rw [requireLocalObservationSource_iff (hsourced.later hkept) (hl.source hlocal) rfl rfl hscope
    (by rw [hcapability]; exact hobserves), sourceBody_observes hobserves hcapability, hl.targetRef hlocal,
    (Observatory.observation_mem hl.there).2.2]
  simp only [observationHashForJob_congr harguments hid htargetId]

/-- An action that asks for nothing but the observation. -/
def probe (ref : LeaseRef) (targetRef hash : String) : CapabilityActionRequest where
  targetId := ref.targetId
  capability := .browserNavigate
  operation := "navigate"
  targetRef := targetRef
  observationHash := hash
  idempotencyKey := "probe"

def noAnswers : Answers := ⟨.error .key, "", 0, .ok ()⟩

/-- An observation that can be used does not end before its time. -/
theorem Usable.unexpired {hash : String} {s' : Observatory} (h : Usable c s' ref targetRef hash now)
    (hpos : 0 < c.observationTtl) (hrow : s'.observation? ref.targetId hash = some found)
    (href : found.targetRef = targetRef) : now + c.observationTtl ≤ found.expiresAt := by
  by_contra hsooner
  have hlater : max now found.expiresAt < now + c.observationTtl :=
    max_lt (lt_add_of_pos_right now hpos) (not_le.mp hsooner)
  have hrefused : ∃ e, c.act s' (probe ref targetRef hash) .browser ref.leaseId ref.token ref.fencing
      (max now found.expiresAt) noAnswers = .error e ∧ e.isStale = true :=
    act_expired hrow List.mem_cons_self href (le_max_right _ _)
  obtain ⟨e, hact, hstale⟩ := hrefused
  have hfine := h [] (fun _ hnone => absurd hnone List.not_mem_nil) (probe ref targetRef hash) .browser ref.token _
    noAnswers rfl rfl rfl (le_max_left _ _) hlater e hact
  rw [hstale] at hfine
  exact nomatch hfine

/-- After an observe job has been completed, its observation can be used exactly if it is fresh. -/
theorem usable_iff {events : List Event} (hevents : ∀ event ∈ events, event.createsQueued = true)
    (hjob : (Observatory.after c {} events).world.job? result.jobId = some job)
    (hobserves : job.capability.isObservation = true)
    (hcompleted : (c.completeJob (Observatory.after c {} events) result ref now artifact receipt).1 = .ok completed)
    (hsucceeded : completed.status = .succeeded)
    (hbody : result.postcondition.lookup "observation" = some (.dict body))
    (href : result.postcondition.lookup "target_ref" = some (.str targetRef)) :
    Usable c (c.completeJob (Observatory.after c {} events) result ref now artifact receipt).2 ref targetRef
        (c.observationHashForJob job targetRef body) now ↔
      (0 < c.observationTtl → Fresh c (Observatory.after c {} events) ref job targetRef
        (c.observationHashForJob job targetRef body) now) := by
  have hi : (Observatory.after c {} events).Inv c := (after_inv Observatory.inv_empty hevents).1
  generalize Observatory.after c {} events = s at *
  obtain ⟨target, found, htarget, hl⟩ := completed_row hi hjob hobserves hcompleted hsucceeded hbody href
  have hkeeps : (c.completeJob s result ref now artifact receipt).2.Inv c ∧
      s.Grows (c.completeJob s result ref now artifact receipt).2 := completeJob_inv hi
  obtain ⟨hi', hgrows⟩ := hkeeps
  generalize (c.completeJob s result ref now artifact receipt).2 = s' at *
  constructor
  · intro husable hpos
    refine ⟨fun row hrow hsame => husable.unexpired hpos (hgrows.observation hrow) hsame, ?_⟩
    intro other hother hlocal stored hstored
    obtain rfl := Option.some.inj (htarget.symm.trans hother)
    have hends := husable.unexpired hpos hl.there (hl.targetRef hlocal)
    rw [hl.expiresAt hi' hlocal, hstored] at hends
    have hmoment : now ≤ stored.completedAt := by
      simp only [Option.map_some, Option.getD_some] at hends
      linarith
    refine ⟨hmoment, ?_⟩
    by_contra hhash
    obtain ⟨later, hlater, hscope⟩ := hgrows.kept.targets _ _ htarget
    have hsource : ∃ e, c.requireLocalObservationSource s' found later ref.leaseId ref.fencing = .error e := by
      cases hrequires : c.requireLocalObservationSource s' found later ref.leaseId ref.fencing with
      | error e => exact ⟨e, rfl⟩
      | ok _ =>
        exact absurd ((hl.source_iff hi' (.refl _) hobserves hlocal hscope
          (hgrows.kept.results _ _ hstored)).mp hrequires) hhash
    obtain ⟨e, hsource⟩ := hsource
    have hlive : ¬found.expiresAt ≤ now := by
      rw [hl.expiresAt hi' hlocal, hstored]
      simp only [Option.map_some, Option.getD_some]
      linarith
    have hact : c.act s' (probe ref targetRef (c.observationHashForJob job targetRef body)) .browser ref.leaseId
        ref.token ref.fencing now noAnswers = .error e :=
      act_unavailable hl.there List.mem_cons_self (hl.targetRef hlocal) hlive rfl hlater
        ((isLocal_of_scope hscope).trans hlocal) hsource
    have hfine := husable [] (fun _ hnone => absurd hnone List.not_mem_nil) (probe ref targetRef _) .browser ref.token now
      noAnswers rfl rfl rfl le_rfl (by linarith) e hact
    rw [requireLocalObservationSource_error hsource] at hfine
    exact nomatch hfine
  · intro hfresh more hmore request kind token later answers htargetId hsameRef hhash hfrom huntil e hact
    replace hfresh := hfresh (by linarith)
    by_contra hstale
    rw [Bool.not_eq_false] at hstale
    obtain ⟨-, hgrows'⟩ := after_inv hi' hmore
    have hrow := hgrows'.observation hl.there
    rw [← htargetId, ← hhash] at hrow
    obtain ⟨hfoundRef, hwhy⟩ := act_stale hrow hact hstale
    rw [hsameRef] at hfoundRef
    rcases hwhy with hexpired | ⟨other, hother, hlocal, hsource⟩
    · cases hlocal : target.isLocal with
      | true =>
        rw [hl.expiresAt hi' hlocal] at hexpired
        cases hstored : s.world.result? job.jobId with
        | none =>
          rw [hstored, Option.map_none, Option.getD_none] at hexpired
          linarith
        | some stored =>
          have hmoment := (hfresh.first target htarget hlocal stored hstored).1
          rw [hstored, Option.map_some, Option.getD_some] at hexpired
          linarith
      | false =>
        rcases hl.elsewhere hlocal with hthere | ⟨-, hends⟩
        · have hends := hfresh.unexpired found hthere hfoundRef
          linarith
        · linarith
    · obtain ⟨later', hlater', hscope'⟩ := hgrows.kept.targets _ _ htarget
      obtain ⟨last, hlast, hscope⟩ := hgrows'.kept.targets _ _ hlater'
      rw [htargetId, hlast] at hother
      obtain rfl := Option.some.inj hother
      have hscope := hscope.trans hscope'
      have hhere : target.isLocal = true := (isLocal_of_scope hscope).symm.trans hlocal
      have hgood : ∃ stored, s'.world.result? job.jobId = some stored ∧ ∃ other, sourceBody job stored = some other ∧
          c.observationHashForJob job targetRef other = c.observationHashForJob job targetRef body := by
        cases hstored : s.world.result? job.jobId with
        | none =>
          obtain ⟨stored, hstored', hsame⟩ := hl.stored hhere hstored
          exact ⟨stored, hstored', body, hsame, rfl⟩
        | some stored =>
          exact ⟨stored, hgrows.kept.results _ _ hstored, (hfresh.first target htarget hhere stored hstored).2⟩
      obtain ⟨stored, hstored, hgood⟩ := hgood
      rw [(hl.source_iff hi' hgrows'.kept hobserves hhere hscope hstored).mpr hgood] at hsource
      exact nomatch hsource

/-- Pages are told apart by their titles. -/
def pageController : Observing where
  actionHash
    | .dict items => match items.lookup "body" with
      | some (.dict body) => match body.lookup "title" with
        | some (.str title) => title
        | _ => ""
      | _ => ""
    | _ => ""
  observationTtl := 60

def pageLease : LeaseRef := ⟨"browser", "lease", "token", 1⟩

def pageJob (jobId : String) : RemoteExecutionJob where
  jobId := jobId
  targetId := "browser"
  leaseId := "lease"
  leaseFencing := 1
  capability := .browserObserve
  operation := "observe_browser"
  arguments := [("target_ref", .str "page")]
  actionHash := jobId
  idempotencyKey := jobId
  idempotency := .idempotent
  createdAt := 0

def pageResult (jobId : String) (completedAt : Instant) : RemoteExecutionResult where
  jobId := jobId
  resultIdempotencyKey := jobId
  status := .succeeded
  postcondition := [("observation", .dict [("title", .str "Inbox")]), ("target_ref", .str "page")]
  completedAt := completedAt
  terminal := succeeded_terminal

/-- Two observe jobs of a target that is not local are claimed. -/
def pageEvents : List Event :=
  [.call (.registerTarget {
      targetId := "browser"
      identityPublicKey := "key"
      capabilityManifest := {
        capabilities := [.browserObserve]
        supportedOperations := ["observe_browser"]
        maxConcurrentJobs := 2 } }),
    .call (.heartbeatTarget "browser" "key"),
    .call (.acquireLease { leaseId := "lease", targetId := "browser", token := "token", expiresAt := 300 } 0),
    .call (.recordAction "first"), .call (.recordAction "second"),
    .call (.createJob (pageJob "first") "token" 0), .call (.createJob (pageJob "second") "token" 0),
    .call (.pollJobs pageLease 0 2 [])]

/-- The first observation can be used until its time is over. -/
theorem usable_iff_first :
    Usable pageController
      (pageController.completeJob (Observatory.after pageController {} pageEvents) (pageResult "first" 0) pageLease 0
        none (.error .key)).2 pageLease "page" "Inbox" 0 := by
  have hfresh := usable_iff (show ∀ event ∈ pageEvents, event.createsQueued = true by decide)
    (show (Observatory.after pageController {} pageEvents).world.job? (pageResult "first" 0).jobId = some _ from rfl) rfl
    (show (pageController.completeJob (Observatory.after pageController {} pageEvents) (pageResult "first" 0) pageLease 0
      none (.error .key)).1 = .ok (pageResult "first" 0) from rfl) rfl
    (show (pageResult "first" 0).postcondition.lookup "observation" = some (.dict [("title", .str "Inbox")]) from rfl)
    (show (pageResult "first" 0).postcondition.lookup "target_ref" = some (.str "page") from rfl)
  refine hfresh.mpr fun _ => ⟨fun row hrow => ?_, fun target htarget hlocal => ?_⟩
  · cases hrow
  · cases htarget
    cases hlocal

/-- The page is observed again while it has not changed: the observation ends with the first one. -/
theorem unchanged_page_expires :
    (pageController.completeJob
      (Observatory.after pageController {} (pageEvents ++ [.complete (pageResult "first" 0) pageLease 0 none (.error .key)]))
      (pageResult "second" 30) pageLease 30 none (.error .key)).1 = .ok (pageResult "second" 30) ∧
    ¬Usable pageController
      (pageController.completeJob
        (Observatory.after pageController {}
          (pageEvents ++ [.complete (pageResult "first" 0) pageLease 0 none (.error .key)]))
        (pageResult "second" 30) pageLease 30 none (.error .key)).2 pageLease "page" "Inbox" 30 := by
  refine ⟨rfl, fun h => ?_⟩
  have hfine := h [] (fun _ hnone => absurd hnone List.not_mem_nil) (probe pageLease "page" "Inbox") .browser "token" 60
    noAnswers rfl rfl rfl (by decide) (by decide) _ rfl
  exact nomatch hfine

end Observing

end Operant.RemoteExecution
