import Operant.RemoteExecution.Observations

/-! What the rows of observations are, after any history.

A row that has a source was recorded with the success of its job, and has the deadline of that
moment. Jobs that have ended, results and rows stay. -/
namespace Operant.RemoteExecution
open Operant.Python Operant.Calls Operant.Tables
open Operant.Scheduler (Instant)

/-! ### What is kept -/

namespace World

/-- Jobs that have ended, results, and what targets are registered with stay. -/
structure Kept (w w' : World) : Prop where
  jobs : ∀ id job, w.job? id = some job → job.status.isTerminal = true → w'.job? id = some job
  results : ∀ id result, w.result? id = some result → w'.result? id = some result
  targets : ∀ id target, w.target? id = some target → ∃ later, w'.target? id = some later ∧
    later.scope = target.scope

theorem Kept.refl (w : World) : w.Kept w :=
  ⟨fun _ _ h _ => h, fun _ _ h => h, fun _ target h => ⟨target, h, rfl⟩⟩

theorem Kept.trans {w w' w'' : World} (h : w.Kept w') (h' : w'.Kept w'') : w.Kept w'' where
  jobs id job hjob hterminal := h'.jobs id job (h.jobs id job hjob hterminal) hterminal
  results id result hresult := h'.results id result (h.results id result hresult)
  targets id target htarget := by
    obtain ⟨later, hlater, hscope⟩ := h.targets id target htarget
    obtain ⟨last, hlast, hscope'⟩ := h'.targets id later hlater
    exact ⟨last, hlast, hscope'.trans hscope⟩

/-- The targets and the results grow, or the targets change in what they are not registered with. -/
structure Extends (w w' : World) : Prop where
  results : ∃ more, w'.results = w.results ++ more
  targets : ∀ id target, w.target? id = some target → ∃ later, w'.target? id = some later ∧
    later.scope = target.scope

theorem Extends.refl (w : World) : w.Extends w :=
  ⟨⟨[], (List.append_nil _).symm⟩, fun _ target h => ⟨target, h, rfl⟩⟩

variable {w w' : World}

theorem target_updated {p : RemoteTargetRegistration → Bool} {f : RemoteTargetRegistration → RemoteTargetRegistration}
    (htargets : w'.targets = update w.targets p f) (hid : ∀ row, (f row).targetId = row.targetId)
    (hscope : ∀ row, (f row).scope = row.scope) (id : String) (target : RemoteTargetRegistration)
    (h : w.target? id = some target) : ∃ later, w'.target? id = some later ∧ later.scope = target.scope := by
  unfold target? at h ⊢
  rw [htargets, find?_update (fun row _ _ => by rw [hid]), h]
  refine ⟨_, rfl, ?_⟩
  show (if p target then f target else target).scope = target.scope
  split
  · exact hscope target
  · rfl

theorem Moved.extends {c : Call} (h : w.Moved c w') (hi : w.Inv) : w.Extends w' := by
  cases h with
  | idle c w' same =>
    refine ⟨⟨[], by rw [same.results, List.append_nil]⟩, fun id target htarget => ⟨target, ?_, rfl⟩⟩
    unfold target? at htarget ⊢
    rwa [same.targets]
  | registered target fresh =>
    refine ⟨(Extends.refl w).results, fun id row hrow => ⟨row, ?_, rfl⟩⟩
    unfold target? at hrow ⊢
    show (w.targets ++ [target]).find? _ = _
    rw [List.find?_append, hrow]
    rfl
  | online targetId key =>
    exact ⟨(Extends.refl w).results, target_updated rfl (fun _ => rfl) fun _ => rfl⟩
  | acquired lease now target found ended fresh =>
    exact ⟨(Extends.refl w).results, target_updated rfl (fun _ => rfl) fun _ => rfl⟩
  | renewed | released | created | started | cancelled | requested =>
    exact ⟨(Extends.refl w).results, (Extends.refl w).targets⟩
  | completed result ref now observation lost job live found under running fresh =>
    exact ⟨⟨[result], rfl⟩, (Extends.refl w).targets⟩
  | closed now w' closes =>
    obtain ⟨hids, hrows⟩ := stranded_rows hi now
    refine closeJobs_keep (P := fun w' => w.Extends w') ?_ hids (fun job hjob => (hrows job hjob).1) (.refl w) closes
    intro w₁ job _ hw₁ _ _
    obtain ⟨more, hmore⟩ := hw₁.results
    refine ⟨⟨more ++ [closing job now], ?_⟩, hw₁.targets⟩
    show w₁.results ++ [closing job now] = _
    rw [hmore, List.append_assoc]

theorem Moved.kept {c : Call} (h : w.Moved c w') (hi : w.Inv) (hc : c.createsQueued = true) : w.Kept w' := by
  obtain ⟨hi', hgrows⟩ := h.inv hi hc
  obtain ⟨⟨more, hresults⟩, htargets⟩ := h.extends hi
  refine ⟨fun id job hjob hterminal => ?_, fun id result hresult => ?_, htargets⟩
  · obtain ⟨hmem, rfl⟩ := job_mem hjob
    obtain ⟨job', hmem', hbecomes⟩ := hgrows.jobs job hmem
    rw [hbecomes.final hterminal] at hmem'
    exact find?_of_key hi'.jobIds hmem'
  · unfold result? at hresult ⊢
    rw [hresults, List.find?_append, hresult]
    rfl

theorem exec_kept (hi : w.Inv) {c : Call} (hc : c.createsQueued = true) : w.Kept (w.exec c).2 :=
  (exec_moved w c).kept hi hc

/-- What the table has for a result after its completion. -/
theorem completeJob_result {result completed : RemoteExecutionResult} {ref : LeaseRef} {now : Instant}
    {observation : Option (CapabilityObservation × ObservationSource)} {lost : Bool}
    (h : w.completeJob result ref now observation lost = .ok (completed, w')) :
    w'.result? result.jobId = some completed ∧
      (w.result? result.jobId = none ∧ completed = result ∨
        w.result? result.jobId = some completed ∧ completed.sameAs result = true ∧ w' = w) := by
  unfold completeJob at h
  split at h
  · exact nomatch h
  · obtain ⟨row, -, h⟩ := ok_of_bind h
    split at h
    · exact nomatch h
    · split at h
      · exact nomatch h
      · split at h
        · rename_i current hcurrent
          split at h
          · exact nomatch h
          · rename_i hsame
            cases h
            rw [Bool.not_eq_true', Bool.not_eq_false] at hsame
            exact ⟨hcurrent, .inr ⟨hcurrent, hsame, rfl⟩⟩
        · rename_i hnone
          split at h
          · exact nomatch h
          · obtain ⟨w₁, hinsert, h⟩ := ok_of_bind h
            obtain ⟨-, rfl⟩ := insertResult_ok hinsert
            cases h
            refine ⟨?_, .inl ⟨hnone, rfl⟩⟩
            show (w.results ++ [result]).find? _ = _
            unfold result? at hnone
            rw [List.find?_append, hnone]
            simp

end World

/-! ### Results that are equal -/

/-- What equal results have observed is equal. -/
theorem sourceBody_sameAs {job : RemoteExecutionJob} {a b : RemoteExecutionResult} {left right : Refs}
    (hobserves : job.capability.isObservation = true) (h : a.sameAs b = true)
    (hleft : Observing.sourceBody job a = some left) (hright : Observing.sourceBody job b = some right) :
    left.pyEq right = true := by
  unfold Observing.sourceBody at hleft hright
  rw [if_pos hobserves] at hleft hright
  have hpost : a.postcondition.pyEq b.postcondition = true := by
    unfold RemoteExecutionResult.sameAs at h
    simp only [Bool.and_eq_true] at h
    exact h.1.2
  have hitems : Value.pyEqItems a.postcondition b.postcondition = true := by
    unfold Refs.pyEq at hpost
    rw [Value.pyEq, Bool.and_eq_true] at hpost
    exact hpost.2
  split at hleft
  · rename_i body hbody
    cases hleft
    obtain ⟨w, hw, heq⟩ := lookup_of_pyEqItems hitems hbody
    rw [hw] at hright
    cases w with
    | dict items =>
      cases hright
      exact heq
    | null | bool | int | float | str | list | foreign => exact nomatch hright
  · exact nomatch hleft

/-! ### Rows and their sources -/

namespace Observatory
variable {c : Observing} {s s' : Observatory}

/-- The job and the result of a source, and what the row has of them. -/
structure Evidence (s : Observatory) (row : ObservationRow) (source : Provenance) (job : RemoteExecutionJob)
    (result : RemoteExecutionResult) : Prop where
  ofJob : s.world.job? source.sourceJobId = some job
  ofResult : s.world.result? source.sourceJobId = some result
  succeeded : job.status = .succeeded
  resulted : result.status = .succeeded
  targetId : job.targetId = row.targetId
  leaseId : job.leaseId = source.leaseId
  leaseFencing : job.leaseFencing = source.leaseFencing
  capability : job.capability = row.capability
  targetRef : job.arguments.lookup "target_ref" = some (.str row.targetRef)
  finishedAt : job.finishedAt = some row.createdAt

theorem evidence_of {row : ObservationRow} {source : Provenance} (h : s.isSourceOf row source = true) :
    ∃ job result, Evidence s row source job result := by
  unfold isSourceOf at h
  split at h
  · rename_i job result hjob hresult
    simp only [Bool.and_eq_true, decide_eq_true_eq] at h
    obtain ⟨⟨⟨⟨⟨⟨⟨h1, h2⟩, h3⟩, h4⟩, h5⟩, h6⟩, h7⟩, h8⟩ := h
    exact ⟨job, result, hjob, hresult, h1, h2, h3, h4, h5, h6, h7, h8⟩
  · cases h

/-- What holds of a row that has a source. -/
structure Sourced (c : Observing) (s : Observatory) (row : ObservationRow) (source : Provenance)
    (job : RemoteExecutionJob) (result : RemoteExecutionResult) : Prop extends Evidence s row source job result where
  body : job.capability.isObservation = true → ∀ body, Observing.sourceBody job result = some body →
    body.pyEq row.body = true
  scope : ∃ target, s.world.target? row.targetId = some target ∧ target.scope = source.scopeDigest
  expiresAt : row.expiresAt = row.createdAt + c.observationTtl

/-- The tables of jobs are in order, and every row with a source has it. -/
structure Inv (c : Observing) (s : Observatory) : Prop where
  world : s.world.Inv
  sourced : ∀ row ∈ s.observations, ∀ source, row.source = some source →
    ∃ job result, Sourced c s row source job result

theorem inv_empty : Inv c {} := ⟨World.inv_empty, fun _ h => absurd h List.not_mem_nil⟩

/-- Rows are only added. -/
structure Grows (s s' : Observatory) : Prop where
  kept : s.world.Kept s'.world
  observations : ∃ more, s'.observations = s.observations ++ more

theorem Grows.refl (s : Observatory) : s.Grows s := ⟨.refl _, [], (List.append_nil _).symm⟩

theorem Grows.trans {s'' : Observatory} (h : s.Grows s') (h' : s'.Grows s'') : s.Grows s'' := by
  obtain ⟨more, heq⟩ := h.observations
  obtain ⟨more', heq'⟩ := h'.observations
  exact ⟨h.kept.trans h'.kept, more ++ more', by rw [heq', heq, List.append_assoc]⟩

theorem Grows.observation {targetId hash : String} {row : ObservationRow} (h : s.Grows s')
    (hrow : s.observation? targetId hash = some row) : s'.observation? targetId hash = some row := by
  obtain ⟨more, heq⟩ := h.observations
  unfold observation? at hrow ⊢
  rw [heq, List.find?_append, hrow]
  rfl

theorem Sourced.later {row : ObservationRow} {source : Provenance} {job : RemoteExecutionJob}
    {result : RemoteExecutionResult} (h : Sourced c s row source job result) (hkept : s.world.Kept s'.world) :
    Sourced c s' row source job result := by
  refine ⟨⟨hkept.jobs _ _ h.ofJob (by rw [h.succeeded]; rfl), hkept.results _ _ h.ofResult, h.succeeded, h.resulted,
    h.targetId, h.leaseId, h.leaseFencing, h.capability, h.targetRef, h.finishedAt⟩, h.body, ?_, h.expiresAt⟩
  obtain ⟨target, htarget, hscope⟩ := h.scope
  obtain ⟨later, hlater, hsame⟩ := hkept.targets _ _ htarget
  exact ⟨later, hlater, hsame.trans hscope⟩

/-- What is done to the jobs leaves the rows as they are. -/
theorem Inv.world_later {world : World} (h : Inv c s) (hworld : world.Inv) (hkept : s.world.Kept world) :
    Inv c { s with world := world } := by
  refine ⟨hworld, fun row hrow source hsource => ?_⟩
  obtain ⟨job, result, hsourced⟩ := h.sourced row hrow source hsource
  exact ⟨job, result, hsourced.later hkept⟩

theorem observation_mem {targetId hash : String} {row : ObservationRow}
    (h : s.observation? targetId hash = some row) :
    row ∈ s.observations ∧ row.targetId = targetId ∧ row.observationHash = hash := by
  have hp := List.find?_some h
  rw [Bool.and_eq_true, decide_eq_true_eq, decide_eq_true_eq] at hp
  exact ⟨List.mem_of_find?_eq_some h, hp⟩

/-! ### What is recorded -/

/-- The row that is found after one was recorded: itself, or the one that was there. -/
structure Recorded (s s' : Observatory) (row found : ObservationRow) : Prop where
  world : s'.world = s.world
  source : ∀ source, row.source = some source → s.isSourceOf row source = true
  observations : ∃ more, s'.observations = s.observations ++ more ∧ ∀ new ∈ more, new = row
  valid : s'.observations ≠ s.observations → jsonValid (.dict row.body) = true
  there : s'.observation? row.targetId row.observationHash = some found
  which : s.observation? row.targetId row.observationHash = none ∧ found = row ∨
    s.observation? row.targetId row.observationHash = some found ∧
      (row.source.isSome = true → sameGeneration found row = true)

theorem recordObservation_ok {row : ObservationRow} (h : s.recordObservation row = .ok s') :
    ∃ found, Recorded s s' row found := by
  unfold recordObservation at h
  split at h
  · exact nomatch h
  · rename_i hsource
    have hsource : ∀ source, row.source = some source → s.isSourceOf row source = true := by
      intro source heq
      rw [heq] at hsource
      simpa using hsource
    split at h
    · rename_i persisted hpersisted
      split at h
      · exact nomatch h
      · rename_i hsame
        cases h
        refine ⟨persisted, rfl, hsource, ⟨[], (List.append_nil _).symm, fun _ hnew => absurd hnew List.not_mem_nil⟩,
          fun hne => absurd rfl hne, hpersisted, .inr ⟨hpersisted, fun hsome => ?_⟩⟩
        simpa [hsome] using hsame
    · rename_i hnone
      split at h
      · exact nomatch h
      · rename_i hvalid
        cases h
        rw [Bool.not_eq_true', Bool.not_eq_false] at hvalid
        refine ⟨row, rfl, hsource, ⟨[row], rfl, fun _ hnew => List.mem_singleton.mp hnew⟩, fun _ => hvalid, ?_,
          .inl ⟨hnone, rfl⟩⟩
        show (s.observations ++ [row]).find? _ = _
        unfold observation? at hnone
        rw [List.find?_append, hnone]
        simp

theorem Recorded.grows {row found : ObservationRow} (h : Recorded s s' row found) : s.Grows s' := by
  obtain ⟨more, heq, -⟩ := h.observations
  refine ⟨?_, more, heq⟩
  rw [h.world]
  exact .refl _

/-- A row keeps the invariant if it has its source. -/
theorem Recorded.inv {row found : ObservationRow} (h : Recorded s s' row found) (hi : Inv c s)
    (hrow : jsonValid (.dict row.body) = true → ∀ source, row.source = some source →
      ∃ job result, Sourced c s row source job result) : Inv c s' := by
  have hkept : s.world.Kept s'.world := h.grows.kept
  refine ⟨by rw [h.world]; exact hi.world, fun other hother source hsource => ?_⟩
  obtain ⟨more, heq, hmore⟩ := h.observations
  rw [heq] at hother
  cases List.mem_append.mp hother with
  | inl hold =>
    obtain ⟨job, result, hsourced⟩ := hi.sourced other hold source hsource
    exact ⟨job, result, hsourced.later hkept⟩
  | inr hnew =>
    have hne : s'.observations ≠ s.observations := by
      rw [heq]
      intro hsame
      have hnone : more = [] := by simpa using hsame
      rw [hnone] at hnew
      exact absurd hnew List.not_mem_nil
    rw [hmore other hnew] at hsource ⊢
    obtain ⟨job, result, hsourced⟩ := hrow (h.valid hne) source hsource
    exact ⟨job, result, hsourced.later hkept⟩

end Observatory

/-! ### Completions -/

namespace Observing
variable {c : Observing} {s s' : Observatory} {result : RemoteExecutionResult} {ref : LeaseRef} {now : Instant}
  {artifact : Option Artifact} {receipt : Except Raised Unit}

/-- The parts of a completion that succeeds. -/
theorem completeJob_ok {completed : RemoteExecutionResult}
    (h : (c.completeJob s result ref now artifact receipt).1 = .ok completed) :
    ∃ p s₁, c.prepare s result ref now artifact = .ok p ∧ c.commit s p ref now = .ok (completed, s₁) ∧
      c.publish s₁ p completed now = .ok (c.completeJob s result ref now artifact receipt).2 := by
  unfold completeJob at h ⊢
  cases hp : c.prepare s result ref now artifact with
  | error e =>
    rw [hp] at h
    exact nomatch h
  | ok p =>
    rw [hp] at h
    dsimp only at h ⊢
    cases hcommit : c.commit s p ref now with
    | error e =>
      rw [hcommit] at h
      exact nomatch h
    | ok committed =>
      obtain ⟨done, s₁⟩ := committed
      rw [hcommit] at h
      dsimp only at h ⊢
      cases hpublish : c.publish s₁ p done now with
      | error e =>
        rw [hpublish] at h
        exact nomatch h
      | ok s₂ =>
        rw [hpublish] at h
        dsimp only at h ⊢
        split at h
        · cases h
          rename_i htarget
          rw [if_pos htarget]
          exact ⟨p, s₁, rfl, hcommit, hpublish⟩
        · rename_i htarget
          rw [if_neg htarget]
          split at h
          · cases h
            exact ⟨p, s₁, rfl, hcommit, hpublish⟩
          · cases h
            exact ⟨p, s₁, rfl, hcommit, hpublish⟩
          · exact nomatch h

/-- What a completion does to the tables, whatever it answers. -/
theorem completeJob_tables : (c.completeJob s result ref now artifact receipt).2 = s ∨
    ∃ p completed s₁, c.prepare s result ref now artifact = .ok p ∧ c.commit s p ref now = .ok (completed, s₁) ∧
      ((c.completeJob s result ref now artifact receipt).2 = s₁ ∨
        c.publish s₁ p completed now = .ok (c.completeJob s result ref now artifact receipt).2) := by
  unfold completeJob
  cases hp : c.prepare s result ref now artifact with
  | error e => exact .inl rfl
  | ok p =>
    dsimp only
    cases hcommit : c.commit s p ref now with
    | error e => exact .inl rfl
    | ok committed =>
      obtain ⟨done, s₁⟩ := committed
      refine .inr ⟨p, done, s₁, rfl, hcommit, ?_⟩
      dsimp only
      cases hpublish : c.publish s₁ p done now with
      | error e => exact .inl rfl
      | ok s₂ =>
        right
        dsimp only
        split
        · rfl
        · split <;> rfl

structure Prepares (c : Observing) (s : Observatory) (result : RemoteExecutionResult) (ref : LeaseRef) (now : Instant)
    (p : Prepared) : Prop where
  job : s.world.job? result.jobId = some p.job
  target : s.world.target? ref.targetId = some p.target
  assessed : c.assess p.job p.target.isLocal (dated s p.target result now) = .ok p.assessed

theorem prepare_ok {p : Prepared} (h : c.prepare s result ref now artifact = .ok p) : c.Prepares s result ref now p := by
  unfold prepare at h
  obtain ⟨-, -, h⟩ := ok_of_bind h
  obtain ⟨⟨job, w⟩, hjob, h⟩ := ok_of_bind h
  obtain ⟨⟨target, w'⟩, htarget, h⟩ := ok_of_bind h
  obtain ⟨assessed, hassessed, h⟩ := ok_of_bind h
  cases h
  constructor
  · unfold World.found at hjob
    split at hjob
    · exact nomatch hjob
    · rename_i row hrow
      cases hjob
      exact hrow
  · unfold World.found at htarget
    split at htarget
    · exact nomatch htarget
    · rename_i row hrow
      cases htarget
      exact hrow
  · exact hassessed

/-- What the row of a success is. -/
theorem observationRow_ok {job : RemoteExecutionJob} {target : RemoteTargetRegistration} {createdAt : Instant}
    {row : ObservationRow} (h : c.observationRow job target result createdAt = .ok row) :
    row.targetId = target.targetId ∧ job.arguments.lookup "target_ref" = some (.str row.targetRef) ∧
      sourceBody job result = some row.body ∧ row.observationHash = c.sourceHash job row.targetRef row.body ∧
      row.createdAt = createdAt ∧ row.expiresAt = createdAt + c.observationTtl ∧ row.capability = job.capability ∧
      row.source = if target.isLocal then some ⟨job.jobId, job.leaseId, job.leaseFencing, target.scope⟩ else none := by
  unfold observationRow at h
  split at h
  · rename_i targetRef body href hbody
    split at h
    · exact nomatch h
    · cases h
      exact ⟨rfl, href, hbody, rfl, rfl, rfl, rfl, rfl⟩
  · exact nomatch h

/-- An observation that is found is in the result. -/
theorem assess_observed {d : Controller} {job : RemoteExecutionJob} {isLocal : Bool} {assessed : Assessed}
    (hobserves : job.capability.isObservation = true) (h : d.assess job isLocal result = .ok assessed)
    (hobserved : assessed.observed = true) : assessed.result = result ∧ result.status = .succeeded := by
  unfold Controller.assess at h
  split at h
  · cases h
    cases hobserved
  · rename_i hstatus
    rw [not_not] at hstatus
    split at h
    · split at h
      · cases h
      · cases h
        exact ⟨rfl, hstatus⟩
    · cases h

theorem sourceBody_observes {job other : RemoteExecutionJob} (hobserves : job.capability.isObservation = true)
    (hsame : other.capability = job.capability) : sourceBody other result = sourceBody job result := by
  unfold sourceBody
  rw [hsame, if_pos hobserves, if_pos hobserves]

theorem dated_jobId {target : RemoteTargetRegistration} : (dated s target result now).jobId = result.jobId := by
  unfold dated
  split <;> rfl

/-- The transaction of a completion. -/
inductive Commits (c : Observing) (s : Observatory) (p : Prepared) (ref : LeaseRef) (now : Instant)
    (completed : RemoteExecutionResult) (s₁ : Observatory) : Prop
  | observed (row found : ObservationRow) (world : World)
      (observed : p.target.isLocal = true ∧ p.isObserved p.assessed.result.status = true)
      (row_eq : c.observationRow p.job p.target p.assessed.result p.assessed.result.completedAt = .ok row)
      (completes : s.world.completeJob p.assessed.result ref now
        (Controller.observation p.job ref p.target.isLocal p.assessed) false = .ok (completed, world))
      (recorded : Observatory.Recorded { s with world := world } s₁ row found)
  | unobserved (world : World)
      (unobserved : (p.target.isLocal && p.isObserved p.assessed.result.status) = false)
      (completes : s.world.completeJob p.assessed.result ref now none false = .ok (completed, world))
      (unrecorded : s₁ = { s with world := world })

theorem commit_ok {p : Prepared} {completed : RemoteExecutionResult} {s₁ : Observatory}
    (h : c.commit s p ref now = .ok (completed, s₁)) : Commits c s p ref now completed s₁ := by
  unfold commit at h
  dsimp only at h
  split at h
  · rename_i hobserved
    obtain ⟨row, hrow, h⟩ := ok_of_bind h
    obtain ⟨⟨done, world⟩, hcompletes, h⟩ := ok_of_bind h
    obtain ⟨s₂, hrecords, h⟩ := ok_of_bind h
    cases h
    obtain ⟨found, hrecorded⟩ := Observatory.recordObservation_ok hrecords
    exact .observed row found world (Bool.and_eq_true_iff.mp hobserved) hrow hcompletes hrecorded
  · rename_i hunobserved
    obtain ⟨⟨done, world⟩, hcompletes, h⟩ := ok_of_bind h
    cases h
    exact .unobserved world (Bool.not_eq_true _ ▸ hunobserved) hcompletes rfl

/-- The world after a completion. -/
theorem completed_world {world : World} {completed : RemoteExecutionResult} {lost : Bool}
    {observation : Option (CapabilityObservation × ObservationSource)} (hi : s.Inv c)
    (h : s.world.completeJob result ref now observation lost = .ok (completed, world)) :
    Observatory.Inv c { s with world := world } ∧ s.Grows { s with world := world } := by
  have hmoved := World.completeJob_moved h
  have hkept := hmoved.kept hi.world rfl
  exact ⟨hi.world_later (hmoved.inv hi.world rfl).1 hkept, hkept, [], (List.append_nil _).symm⟩

theorem commit_inv {p : Prepared} {completed : RemoteExecutionResult} {s₁ : Observatory} (hi : s.Inv c)
    (hp : c.Prepares s result ref now p) (h : Commits c s p ref now completed s₁) : s₁.Inv c ∧ s.Grows s₁ := by
  cases h with
  | unobserved world _ completes unrecorded =>
    rw [unrecorded]
    exact completed_world hi completes
  | observed row found world observed row_eq completes recorded =>
    obtain ⟨hinv, hgrows⟩ := completed_world hi completes
    refine ⟨recorded.inv hinv fun hvalid source hsource => ?_, hgrows.trans recorded.grows⟩
    obtain ⟨htarget, -, hbody, -, hcreated, hexpires, hcapability, hfrom⟩ := observationRow_ok row_eq
    obtain ⟨job, stored, hevidence⟩ := Observatory.evidence_of (recorded.source source hsource)
    rw [hfrom, if_pos observed.1] at hsource
    cases hsource
    refine ⟨job, stored, hevidence, fun hobserves body hstored => ?_, ?_, by rw [hexpires, hcreated]⟩
    · have hsame : job.capability = p.job.capability := hevidence.capability.trans hcapability
      have hjob : p.job.capability.isObservation = true := hsame ▸ hobserves
      have hflag : p.assessed.observed = true := (Bool.and_eq_true_iff.mp observed.2).2
      obtain ⟨hresult, -⟩ := assess_observed hjob hp.assessed hflag
      have hid : p.assessed.result.jobId = p.job.jobId := by
        rw [hresult, dated_jobId, (World.job_mem hp.job).2]
      obtain ⟨hafter, hwhich⟩ := World.completeJob_result completes
      have hstoredEq : stored = completed := by
        have hof := hevidence.ofResult
        rw [show (Provenance.mk p.job.jobId p.job.leaseId p.job.leaseFencing p.target.scope).sourceJobId =
          p.assessed.result.jobId from hid.symm] at hof
        exact Option.some.inj (hof.symm.trans hafter)
      rw [hstoredEq, sourceBody_observes hjob hsame] at hstored
      rcases hwhich with ⟨-, hfresh⟩ | ⟨-, hagain, -⟩
      · rw [hfresh, hbody] at hstored
        cases hstored
        exact pyEq_self _ hvalid
      · exact sourceBody_sameAs hjob hagain hstored hbody
    · obtain ⟨htargetMem, hid⟩ := World.target_mem hp.target
      obtain ⟨later, hlater, hscope⟩ := hgrows.kept.targets _ _ hp.target
      exact ⟨later, by rw [htarget, hid]; exact hlater, hscope⟩

theorem publish_inv {p : Prepared} {completed : RemoteExecutionResult} (hi : s.Inv c)
    (h : c.publish s p completed now = .ok s') : s'.Inv c ∧ s.Grows s' := by
  unfold publish at h
  split at h
  · rename_i hpublished
    obtain ⟨row, hrow, h⟩ := ok_of_bind h
    obtain ⟨found, hrecorded⟩ := Observatory.recordObservation_ok h
    refine ⟨hrecorded.inv hi fun _ source hsource => ?_, hrecorded.grows⟩
    rw [(observationRow_ok hrow).2.2.2.2.2.2.2] at hsource
    rw [Bool.and_eq_true, Bool.not_eq_true'] at hpublished
    rw [hpublished.1] at hsource
    exact nomatch hsource
  · cases h
    exact ⟨hi, .refl s⟩

theorem completeJob_inv (hi : s.Inv c) : (c.completeJob s result ref now artifact receipt).2.Inv c ∧
    s.Grows (c.completeJob s result ref now artifact receipt).2 := by
  rcases c.completeJob_tables (s := s) with h | ⟨p, completed, s₁, hp, hcommit, h⟩
  · rw [h]
    exact ⟨hi, .refl s⟩
  · obtain ⟨hinv, hgrows⟩ := commit_inv hi (prepare_ok hp) (commit_ok hcommit)
    rcases h with h | h
    · rw [h]
      exact ⟨hinv, hgrows⟩
    · obtain ⟨hinv', hgrows'⟩ := publish_inv hinv h
      exact ⟨hinv', hgrows.trans hgrows'⟩

/-- Histories keep the rows and what holds of them. -/
theorem after_inv (hi : s.Inv c) {events : List Event} (h : ∀ event ∈ events, event.createsQueued = true) :
    (s.after c events).Inv c ∧ s.Grows (s.after c events) := by
  induction events generalizing s with
  | nil => exact ⟨hi, .refl s⟩
  | cons event rest ih =>
    have hrest : ∀ event ∈ rest, event.createsQueued = true := fun e he => h e (List.mem_cons_of_mem _ he)
    cases event with
    | call call =>
      have hcall : call.createsQueued = true := h (.call call) (List.mem_cons_self ..)
      have hkept := World.exec_kept hi.world hcall
      obtain ⟨hinv, hgrows⟩ := ih (hi.world_later (World.exec_inv hi.world hcall).1 hkept) hrest
      have hone : s.Grows { s with world := (s.world.exec call).2 } := ⟨hkept, [], (List.append_nil _).symm⟩
      exact ⟨hinv, hone.trans hgrows⟩
    | complete result ref now artifact receipt =>
      obtain ⟨hinv, hgrows⟩ := completeJob_inv hi
      obtain ⟨hinv', hgrows'⟩ := ih hinv hrest
      exact ⟨hinv', hgrows.trans hgrows'⟩

end Observing

end Operant.RemoteExecution
