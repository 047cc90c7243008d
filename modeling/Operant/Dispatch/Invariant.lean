import Operant.Dispatch.Worker

/-! What is true between any two calls, and what every call leaves for others.

The ticket of a worker is the attempt it was granted. Only the owner of an attempt records
its dispatch, and only a dispatch in its name creates a run with it as source. -/
namespace Operant.Dispatch
open Operant.Tables Operant.Calls Operant.Scheduler
open Operant.Graph (GraphRunStatus WorkflowDefinitionStatus)
open SchedulerStore (Sound)

namespace World

/-- The attempt has been granted. -/
def begun (w : World) (t : AttemptId) : Prop := (w.store.job t.request).Begun t.attempt

def nonIdempotent (w : World) (request : String) : Prop :=
  (w.store.job request).Kind .nonIdempotent

/-- A completed binding names this run for the request. -/
def bound (w : World) (request id : String) : Prop :=
  ∃ b ∈ w.bindings, b.sourceRunRequestId = request ∧ b.status = .completed ∧ b.graphRunId = some id

/-- The request is bound to this hash. -/
def reserved (w : World) (request actionHash : String) : Prop :=
  ∃ b ∈ w.bindings, b.sourceRunRequestId = request ∧ b.actionHash = actionHash

def hasRun (w : World) (id : String) : Prop := ∃ run ∈ w.graphRuns, run.id = id

/-- The dispatch of the attempt has created a run. -/
def made (w : World) (t : AttemptId) : Prop := ∃ run ∈ w.graphRuns, run.source = some t

def record? (w : World) (t : AttemptId) : Option DispatchRecord :=
  w.dispatches.find? fun row => row.attempt = t

end World

/-- The invariant. -/
structure Inv (H : Hashes) (w : World) : Prop where
  store : w.store.Sound
  sources : (w.bindings.map DispatchBinding.sourceRunRequestId).Nodup
  completed : ∀ b ∈ w.bindings, b.status = .completed →
    b.graphRunId = some (graphRunId H b.sourceRunRequestId b.actionHash) ∧
      w.hasRun (graphRunId H b.sourceRunRequestId b.actionHash)
  runIds : (w.graphRuns.map GraphRun.id).Nodup
  sourced : ∀ run ∈ w.graphRuns, ∀ t, run.source = some t → w.begun t ∧
    ∃ actionHash, w.reserved t.request actionHash ∧ run.id = graphRunId H t.request actionHash
  named : ∀ request, (w.store.job request).Names (w.bound request)
  records : (w.dispatches.map DispatchRecord.attempt).Nodup
  marked : ∀ d ∈ w.dispatches, (w.store.job d.attempt.request).Marked d.attempt.attempt
  unknown : ∀ d ∈ w.dispatches, d.failed = false → w.nonIdempotent d.attempt.request →
    (w.store.job d.attempt.request).Committed d.attempt.attempt
  failed : ∀ d ∈ w.dispatches, d.failed = true → ¬w.made d.attempt
  order : w.dispatches.Pairwise fun d later => d.attempt.request = later.attempt.request →
    w.nonIdempotent d.attempt.request → d.failed = true

/-- What others leave as it is, for everybody and for the owner of an attempt. -/
structure Rely (k : Option AttemptId) (w w' : World) : Prop where
  begun : ∀ t, w.begun t → w'.begun t
  bindings : ∀ b ∈ w.bindings, ∃ b' ∈ w'.bindings, b'.sourceRunRequestId = b.sourceRunRequestId ∧
    b'.actionHash = b.actionHash ∧ (b.status = .completed → b' = b)
  runs : ∀ run ∈ w.graphRuns, ∃ run' ∈ w'.graphRuns, run'.id = run.id ∧ run'.source = run.source
  made : ∀ t, k = some t → w'.made t → w.made t
  record : ∀ t, k = some t → w'.record? t = w.record? t

namespace Rely
variable {k : Option AttemptId} {a b c w w' : World}

theorem refl (k : Option AttemptId) (w : World) : Rely k w w :=
  ⟨fun _ h => h, fun b hb => ⟨b, hb, rfl, rfl, fun _ => rfl⟩, fun run h => ⟨run, h, rfl, rfl⟩,
    fun _ _ h => h, fun _ _ => rfl⟩

theorem trans (h : Rely k a b) (h' : Rely k b c) : Rely k a c := by
  constructor
  · exact fun t ht => h'.begun t (h.begun t ht)
  · intro row hrow
    obtain ⟨mid, hmid, hsource, hhash, hsame⟩ := h.bindings row hrow
    obtain ⟨last, hlast, hsource', hhash', hsame'⟩ := h'.bindings mid hmid
    refine ⟨last, hlast, hsource'.trans hsource, hhash'.trans hhash, fun hstatus => ?_⟩
    obtain rfl := hsame hstatus
    exact hsame' hstatus
  · intro run hrun
    obtain ⟨mid, hmid, hid, hsource⟩ := h.runs run hrun
    obtain ⟨last, hlast, hid', hsource'⟩ := h'.runs mid hmid
    exact ⟨last, hlast, hid'.trans hid, hsource'.trans hsource⟩
  · exact fun t ht hmade => h.made t ht (h'.made t ht hmade)
  · exact fun t ht => (h'.record t ht).trans (h.record t ht)

theorem bound (h : Rely k w w') {request id : String} (hb : w.bound request id) :
    w'.bound request id := by
  obtain ⟨row, hrow, hsource, hstatus, hid⟩ := hb
  obtain ⟨row', hrow', -, -, hsame⟩ := h.bindings row hrow
  obtain rfl := hsame hstatus
  exact ⟨row', hrow', hsource, hstatus, hid⟩

theorem hasRun (h : Rely k w w') {id : String} (hid : w.hasRun id) : w'.hasRun id := by
  obtain ⟨run, hrun, hsame⟩ := hid
  obtain ⟨run', hrun', hid', -⟩ := h.runs run hrun
  exact ⟨run', hrun', hid'.trans hsame⟩

theorem reserved (h : Rely k w w') {request actionHash : String}
    (hb : w.reserved request actionHash) : w'.reserved request actionHash := by
  obtain ⟨row, hrow, hsource, hhash⟩ := hb
  obtain ⟨row', hrow', hsource', hhash', -⟩ := h.bindings row hrow
  exact ⟨row', hrow', hsource'.trans hsource, hhash'.trans hhash⟩

end Rely

/-- The rules of the system. -/
def rules (H : Hashes) : OwnerRules Call Answer Raised World AttemptId where
  exec c w := .ok (w.exec H c)
  inv := Inv H
  issued t w := w.begun t
  rely := Rely
  allowed _ _ := True
  refl := Rely.refl
  trans := Rely.trans
  keep h ht := h.begun _ ht

/-! ### The store -/

section Store
variable {H : Hashes} {w : World}

/-- The request of an attempt keeps its idempotency. -/
theorem nonIdempotent_before {s s' : SchedulerStore} {allowed : String → JobEvent → Prop}
    {g : List JobLease} (hs : s.Sound) (hmoves : s.JobMoves allowed g s') {t : AttemptId}
    (hbegun : (s.job t.request).Begun t.attempt) (h : (s'.job t.request).Kind .nonIdempotent) :
    (s.job t.request).Kind .nonIdempotent := by
  obtain ⟨r, hr⟩ := hbegun.request (hs.jobs _)
  have hkind : (s.job t.request).Kind r.dispatchIdempotency := ⟨r, hr, rfl⟩
  have hkept := (hmoves.jobs t.request).keeps (fun hstep _ => hstep.kind) hkind
  obtain ⟨r₁, hr₁, h₁⟩ := hkept
  obtain ⟨r₂, hr₂, h₂⟩ := h
  obtain rfl := Option.some.inj (hr₁.symm.trans hr₂)
  rw [h₁] at h₂
  exact ⟨r, hr, h₂⟩

/-- An operation on the store that binds requests to their runs only, and ends the job of a
dispatch with an unknown outcome for good. -/
theorem Inv.apply (h : Inv H w) (op : StoreOp)
    (hdispatched : ∀ id run, op.Causes w.store id (.dispatched run) → w.bound id run)
    (hended : ∀ id ending run, op.Ends w.store id ending → ending.workflowRunId = some run →
      w.bound id run)
    (hterminal : ∀ d ∈ w.dispatches, d.failed = false → w.nonIdempotent d.attempt.request →
      ∀ ending, op.Ends w.store d.attempt.request ending → ending.request.isTerminal = true) :
    Inv H { w with store := op.apply w.store } := by
  have hmoves := (StoreOp.apply_moves h.store op).toJobMoves
  have hkind : ∀ d ∈ w.dispatches,
      ((op.apply w.store).job d.attempt.request).Kind .nonIdempotent → w.nonIdempotent d.attempt.request :=
    fun d hd => nonIdempotent_before h.store hmoves (h.marked d hd).begun
  constructor
  · exact StoreOp.apply_sound h.store op
  · exact h.sources
  · exact h.completed
  · exact h.runIds
  · intro run hrun t ht
    obtain ⟨hbegun, hhash⟩ := h.sourced run hrun t ht
    exact ⟨(hmoves.jobs t.request).keeps (fun hstep _ => hstep.begun) hbegun, hhash⟩
  · intro request
    refine (hmoves.jobs request).keeps (P := Job.Names (w.bound request))
      (fun hstep hcause hnames => hstep.names ?_ ?_ hnames) (h.named request)
    · intro run he
      exact hdispatched request run (he ▸ hcause)
    · intro ending run he hrun
      rw [he] at hcause
      cases hcause with
      | ended hend => exact hended request ending run hend hrun
  · exact h.records
  · intro d hd
    exact (hmoves.jobs _).keeps (fun hstep _ => hstep.marked_keeps) (h.marked d hd)
  · intro d hd hfailed hnon
    have hbefore := hkind d hd hnon
    refine (hmoves.jobs _).keeps (P := Job.Committed d.attempt.attempt)
      (fun hstep hcause hcommitted => hstep.committed ?_ hcommitted) (h.unknown d hd hfailed hbefore)
    intro ending he
    rw [he] at hcause
    cases hcause with
    | ended hend => exact hterminal d hd hfailed hbefore ending hend
  · exact h.failed
  · refine h.order.imp_of_mem ?_
    intro d later hd _ hfailed hsame hnon
    exact hfailed hsame (hkind d hd hnon)

theorem rely_apply (hs : w.store.Sound) (op : StoreOp) (k : Option AttemptId) :
    Rely k w { w with store := op.apply w.store } := by
  constructor
  · intro t ht
    exact ((StoreOp.apply_moves hs op).jobs t.request).keeps (fun hstep _ => hstep.begun) ht
  · exact fun b hb => ⟨b, hb, rfl, rfl, fun _ => rfl⟩
  · exact fun run h => ⟨run, h, rfl, rfl⟩
  · exact fun _ _ h => h
  · exact fun _ _ => rfl

/-- Such an operation, as a step of anybody. -/
theorem step_apply (h : Inv H w) (k : Option AttemptId) (op : StoreOp)
    (hbinds : ∀ lease id, op.binds = some (lease, id) → w.bound lease.runRequestId id)
    (hfail : op.isKnownFailure = false) :
    (rules H).Step k w { w with store := op.apply w.store } k := by
  refine ⟨h.apply op ?_ ?_ ?_, fun other _ => rely_apply h.store op other, .inl rfl⟩
  · intro id run hcause
    cases hcause with
    | @dispatched lease _ now hop hid =>
      rw [← hid]
      exact hbinds lease run (by rw [hop]; rfl)
  · intro id ending run hend hrun
    obtain ⟨lease, hop, hid⟩ := SchedulerStore.ends_names hend hrun
    rw [← hid]
    exact hbinds lease run hop
  · intro d hd hfailed hnon ending hend
    exact SchedulerStore.ends_terminal h.store hend (h.unknown d hd hfailed hnon) hnon hfail

end Store

/-! ### Records -/

section Records
variable {H : Hashes} {w : World} {t : AttemptId}

theorem record?_none (h : w.record? t = none) {d : DispatchRecord} (hd : d ∈ w.dispatches) :
    d.attempt ≠ t := by
  have := List.find?_eq_none.mp h d hd
  simpa using this

/-- A dispatch begins. -/
theorem Inv.begin (h : Inv H w) (hnone : w.record? t = none)
    (hcommitted : (w.store.job t.request).Committed t.attempt) :
    Inv H { w with dispatches := w.dispatches ++ [⟨t, false⟩] } := by
  have hmem : ∀ {d : DispatchRecord}, d ∈ w.dispatches ++ [⟨t, false⟩] → d ∈ w.dispatches ∨ d = ⟨t, false⟩ := by
    intro d hd
    cases List.mem_append.mp hd with
    | inl hold => exact .inl hold
    | inr hnew => exact .inr (List.mem_singleton.mp hnew)
  refine ⟨h.store, h.sources, h.completed, h.runIds, h.sourced, h.named, ?_, ?_, ?_, ?_, ?_⟩
  · show ((w.dispatches ++ [DispatchRecord.mk t false]).map DispatchRecord.attempt).Nodup
    rw [List.map_append, List.nodup_append]
    refine ⟨h.records, List.nodup_singleton _, ?_⟩
    intro a ha b hb
    obtain ⟨d, hd, rfl⟩ := List.mem_map.mp ha
    rw [List.mem_singleton.mp hb]
    exact record?_none hnone hd
  · intro d hd
    cases hmem hd with
    | inl hold => exact h.marked d hold
    | inr hnew =>
      rw [hnew]
      exact hcommitted.marked (h.store.jobs _)
  · intro d hd hfailed hnon
    cases hmem hd with
    | inl hold => exact h.unknown d hold hfailed hnon
    | inr hnew =>
      rw [hnew]
      exact hcommitted
  · intro d hd hfailed
    cases hmem hd with
    | inl hold => exact h.failed d hold hfailed
    | inr hnew =>
      rw [hnew] at hfailed
      exact nomatch hfailed
  · refine List.pairwise_append.mpr ⟨h.order, List.pairwise_singleton _ _, ?_⟩
    intro d hd later hlater hsame hnon
    obtain rfl := List.mem_singleton.mp hlater
    -- A dispatch with an unknown outcome is that of the last attempt, which is this one.
    by_contra hfailed
    have hsame : d.attempt.request = t.request := hsame
    have hd' := h.unknown d hd (by simpa using hfailed) hnon
    rw [hsame] at hd'
    apply record?_none hnone hd
    calc d.attempt = ⟨d.attempt.request, d.attempt.attempt⟩ := rfl
      _ = t := by rw [hsame, hd'.same hcommitted]

theorem rely_begin {other : Option AttemptId} (hother : other ≠ some t) :
    Rely other w { w with dispatches := w.dispatches ++ [⟨t, false⟩] } := by
  refine ⟨fun _ h => h, fun b hb => ⟨b, hb, rfl, rfl, fun _ => rfl⟩,
    fun run h => ⟨run, h, rfl, rfl⟩, fun _ _ h => h, ?_⟩
  intro t' ht'
  have hne : t ≠ t' := by
    intro hsame
    rw [hsame, ht'] at hother
    exact hother rfl
  show (w.dispatches ++ [DispatchRecord.mk t false]).find? _ = w.dispatches.find? _
  rw [List.find?_append]
  simp [hne]

/-- A dispatch that has created nothing may be known to have failed. -/
theorem Inv.fail (h : Inv H w) {unknown : Bool} (hmade : unknown = false → ¬w.made t) :
    Inv H { w with dispatches := update w.dispatches (fails t unknown) DispatchRecord.fail } := by
  have hmem : ∀ {d}, d ∈ update w.dispatches (fails t unknown) DispatchRecord.fail →
      ∃ old ∈ w.dispatches, old.attempt = d.attempt ∧ (d.failed = false → old.failed = false) ∧
        (d.failed = true → old.failed = true ∨ (old.attempt = t ∧ unknown = false)) := by
    intro d hd
    cases mem_update.mp hd with
    | inl hnew =>
      obtain ⟨old, hold, hp, rfl⟩ := hnew
      unfold fails at hp
      simp only [Bool.and_eq_true, decide_eq_true_eq, Bool.not_eq_true'] at hp
      have hnever : old.fail.failed = false → old.failed = false := fun hf => nomatch hf
      exact ⟨old, hold, rfl, hnever, fun _ => .inr hp⟩
    | inr hold => exact ⟨d, hold.1, rfl, fun hf => hf, .inl⟩
  refine ⟨h.store, h.sources, h.completed, h.runIds, h.sourced, h.named, ?_, ?_, ?_, ?_, ?_⟩
  · show ((update w.dispatches _ _).map DispatchRecord.attempt).Nodup
    rw [map_update (f := DispatchRecord.fail) DispatchRecord.attempt fun _ _ _ => rfl]
    exact h.records
  · intro d hd
    obtain ⟨old, hold, hsame, -⟩ := hmem hd
    rw [← hsame]
    exact h.marked old hold
  · intro d hd hfailed hnon
    obtain ⟨old, hold, hsame, hkeep, -⟩ := hmem hd
    rw [← hsame] at hnon ⊢
    exact h.unknown old hold (hkeep hfailed) hnon
  · intro d hd hfailed
    obtain ⟨old, hold, hsame, -, hnow⟩ := hmem hd
    rw [← hsame]
    cases hnow hfailed with
    | inl hbefore => exact h.failed old hold hbefore
    | inr hnew =>
      rw [hnew.1]
      exact hmade hnew.2
  · show (update w.dispatches _ _).Pairwise _
    unfold update
    rw [List.pairwise_map]
    refine h.order.imp ?_
    intro d later hfailed hsame hnon
    have hattempt : ∀ row : DispatchRecord,
        (if fails t unknown row then row.fail else row).attempt = row.attempt := by
      intro row
      split <;> rfl
    rw [hattempt, hattempt] at hsame
    rw [hattempt] at hnon
    have := hfailed hsame hnon
    split
    · rfl
    · exact this

theorem rely_fail {other : Option AttemptId} (hother : other ≠ some t) {unknown : Bool} :
    Rely other w { w with dispatches := update w.dispatches (fails t unknown) DispatchRecord.fail } := by
  refine ⟨fun _ h => h, fun b hb => ⟨b, hb, rfl, rfl, fun _ => rfl⟩,
    fun run h => ⟨run, h, rfl, rfl⟩, fun _ _ h => h, ?_⟩
  intro t' ht'
  have hne : t' ≠ t := by
    intro hsame
    rw [← hsame, ht'] at hother
    exact hother rfl
  show (update w.dispatches _ _).find? _ = w.dispatches.find? _
  rw [find?_update (f := DispatchRecord.fail) fun _ _ _ => rfl]
  cases hfound : w.dispatches.find? fun row => decide (row.attempt = t') with
  | none => rfl
  | some row =>
    have hrow : row.attempt = t' := by simpa using List.find?_some hfound
    have hnot : fails t unknown row = false := by simp [fails, hrow, hne]
    simp [hnot]

end Records

/-! ### Bindings and runs -/

section Tables
variable {H : Hashes} {w : World}

/-- Bindings are added, or completed. -/
theorem Inv.bindings (h : Inv H w) {rows : List DispatchBinding}
    (hsources : (rows.map DispatchBinding.sourceRunRequestId).Nodup)
    (hrely : Rely none w { w with bindings := rows })
    (hcompleted : ∀ b ∈ rows, b.status = .completed → b ∈ w.bindings ∨
      b.graphRunId = some (graphRunId H b.sourceRunRequestId b.actionHash) ∧
        w.hasRun (graphRunId H b.sourceRunRequestId b.actionHash)) :
    Inv H { w with bindings := rows } := by
  refine ⟨h.store, hsources, ?_, h.runIds, ?_, ?_, h.records, h.marked, h.unknown, h.failed, h.order⟩
  · intro b hb hstatus
    cases hcompleted b hb hstatus with
    | inl hold => exact h.completed b hold hstatus
    | inr hnew => exact hnew
  · intro run hrun t ht
    obtain ⟨hbegun, hash, hreserved, hid⟩ := h.sourced run hrun t ht
    exact ⟨hbegun, hash, hrely.reserved hreserved, hid⟩
  · exact fun request => (h.named request).mono fun run hrun => hrely.bound hrun

theorem rely_bindings {rows : List DispatchBinding} (hrows : ∀ b ∈ w.bindings, ∃ b' ∈ rows,
      b'.sourceRunRequestId = b.sourceRunRequestId ∧ b'.actionHash = b.actionHash ∧
        (b.status = .completed → b' = b)) (k : Option AttemptId) :
    Rely k w { w with bindings := rows } :=
  ⟨fun _ h => h, hrows, fun run h => ⟨run, h, rfl, rfl⟩, fun _ _ h => h, fun _ _ => rfl⟩

/-- Runs are added, or change their status. -/
theorem Inv.runs (h : Inv H w) {runs : List GraphRun} (hids : (runs.map GraphRun.id).Nodup)
    (hkeep : ∀ run ∈ w.graphRuns, ∃ run' ∈ runs, run'.id = run.id ∧ run'.source = run.source)
    (hnew : ∀ run ∈ runs, (∃ old ∈ w.graphRuns, old.id = run.id ∧ old.source = run.source) ∨
      ∀ t, run.source = some t → w.begun t ∧
        (∃ hash, w.reserved t.request hash ∧ run.id = graphRunId H t.request hash) ∧
          ∀ d ∈ w.dispatches, d.attempt = t → d.failed = false) :
    Inv H { w with graphRuns := runs } := by
  refine ⟨h.store, h.sources, ?_, hids, ?_, h.named, h.records, h.marked, h.unknown, ?_, h.order⟩
  · intro b hb hstatus
    obtain ⟨hid, hrun⟩ := h.completed b hb hstatus
    obtain ⟨run, hrun, hsame⟩ := hrun
    obtain ⟨run', hrun', hid', -⟩ := hkeep run hrun
    exact ⟨hid, run', hrun', hid'.trans hsame⟩
  · intro run hrun t ht
    cases hnew run hrun with
    | inl hold =>
      obtain ⟨old, hold, hid, hsource⟩ := hold
      rw [← hid]
      exact h.sourced old hold t (hsource.trans ht)
    | inr hfresh => exact ⟨(hfresh t ht).1, (hfresh t ht).2.1⟩
  · intro d hd hfailed hmade
    obtain ⟨run, hrun, hsource⟩ := hmade
    cases hnew run hrun with
    | inl hold =>
      obtain ⟨old, hold, -, hsame⟩ := hold
      exact h.failed d hd hfailed ⟨old, hold, hsame.trans hsource⟩
    | inr hfresh =>
      rw [(hfresh _ hsource).2.2 d hd rfl] at hfailed
      cases hfailed

theorem rely_runs {runs : List GraphRun} {other : Option AttemptId}
    (hkeep : ∀ run ∈ w.graphRuns, ∃ run' ∈ runs, run'.id = run.id ∧ run'.source = run.source)
    (hnew : ∀ run ∈ runs, (∃ old ∈ w.graphRuns, old.source = run.source) ∨
      (run.source = none ∨ run.source ≠ other)) : Rely other w { w with graphRuns := runs } := by
  refine ⟨fun _ h => h, fun b hb => ⟨b, hb, rfl, rfl, fun _ => rfl⟩, hkeep, ?_, fun _ _ => rfl⟩
  intro t ht hmade
  obtain ⟨run, hrun, hsource⟩ := hmade
  cases hnew run hrun with
  | inl hold =>
    obtain ⟨old, hold, hsame⟩ := hold
    exact ⟨old, hold, hsame.trans hsource⟩
  | inr hother =>
    rw [hsource, ht] at hother
    simp at hother

end Tables
end Operant.Dispatch
