import Operant.Scheduler.Cancellation
import Operant.Tables.Logs

/-! Fencing numbers.

A job lease is numbered after the attempts of its request, or, when it is taken over, after
the lease it replaces. The attempts do not know what was taken over, so a request that is
claimed again after a takeover gets a number it has had. An authority is numbered after
its row, and begins again at one when its row was released. -/
namespace Operant.Scheduler
open Operant.Tables Operant.Calls SchedulerStore

/-! ### Job leases -/

theorem nextFencing_concat (attempts : List JobAttempt) (a : JobAttempt) :
    nextFencing (attempts ++ [a]) = max (nextFencing attempts) (a.leaseFencing + 1) := by
  unfold nextFencing
  rw [List.map_append, List.map_singleton]
  cases hmax : (attempts.map JobAttempt.leaseFencing).max? with
  | none =>
    rw [List.max?_eq_none_iff.mp hmax]
    simp
  | some prior =>
    obtain ⟨hmem, hle⟩ := List.max?_eq_some_iff.mp hmax
    have hnew : (attempts.map JobAttempt.leaseFencing ++ [a.leaseFencing]).max? =
        some (max prior a.leaseFencing) := by
      apply List.max?_eq_some_iff.mpr
      constructor
      · cases Nat.le_total prior a.leaseFencing with
        | inl h => rw [Nat.max_eq_right h]; simp
        | inr h => rw [Nat.max_eq_left h]; exact List.mem_append_left _ hmem
      · intro b hb
        cases List.mem_append.mp hb with
        | inl hold => exact Nat.le_trans (hle b hold) (Nat.le_max_left ..)
        | inr hlast => rw [List.mem_singleton.mp hlast]; exact Nat.le_max_right ..
    rw [hnew]
    show max prior a.leaseFencing + 1 = max (prior + 1) (a.leaseFencing + 1)
    omega

/-- Nothing else about the last attempt matters. -/
theorem nextFencing_last {past : List JobAttempt} {a b : JobAttempt}
    (h : b.leaseFencing = a.leaseFencing) : nextFencing (past ++ [b]) = nextFencing (past ++ [a]) := by
  rw [nextFencing_concat, nextFencing_concat, h]

namespace Job

/-- The numbers that a request has had, those of its attempts and that of its lease. -/
structure Tracked (log : List JobLease) (taken : Prop) (j : Job) : Prop where
  held : ∀ l ∈ j.leases, (∀ e ∈ log, e.fencing ≤ l.fencing) ∧ nextFencing j.attempts ≤ l.fencing + 1
  free : ¬taken → ∀ e ∈ log, e.fencing < nextFencing j.attempts
  stale : taken → ∃ e ∈ log, nextFencing j.attempts ≤ e.fencing

variable {log : List JobLease} {taken : Prop} {j j' : Job}

theorem Tracked.same (h : Tracked log taken j)
    (hleases : ∀ l ∈ j'.leases, ∃ old ∈ j.leases, l.fencing = old.fencing)
    (hnext : nextFencing j'.attempts = nextFencing j.attempts) : Tracked log taken j' := by
  refine ⟨fun l hl => ?_, ?_, ?_⟩
  · obtain ⟨old, hold, heq⟩ := hleases l hl
    rw [heq, hnext]
    exact h.held old hold
  · rw [hnext]
    exact h.free
  · rw [hnext]
    exact h.stale

/-- A step that hands nothing out changes no number. -/
theorem Tracked.step (h : Tracked log taken j) {e : JobEvent} (hs : Step j e j')
    (he : e.grants = []) : Tracked log taken j' := by
  cases hs with
  | inserted | cancelled | cancelAsked => exact ⟨h.held, h.free, h.stale⟩
  | granted | takenOver => exact absurd he (by simp [JobEvent.grants])
  | @renewed _ l =>
    refine h.same (fun k hk => ?_) rfl
    rw [List.mem_singleton.mp hk]
    exact ⟨l, List.mem_singleton_self l, rfl⟩
  | marked | dispatched => exact h.same (fun l hl => ⟨l, hl, rfl⟩) (nextFencing_last rfl)
  | ended => exact h.same (fun l hl => absurd hl List.not_mem_nil) (nextFencing_last rfl)

/-- A lease that is taken over outranks all before it, and the attempts fall behind. -/
theorem Tracked.takenOver {request : Option RunRequest} {l l' : JobLease} {attempts : List JobAttempt}
    (h : Tracked log taken ⟨request, [l], attempts⟩) (hfencing : l'.fencing = l.fencing + 1) :
    (∀ e ∈ log, e.fencing < l'.fencing) ∧
      ∀ {taken' : Prop}, taken' → Tracked (log ++ [l']) taken' ⟨request, [l'], attempts⟩ := by
  obtain ⟨hlog, hnext⟩ := h.held l (List.mem_singleton_self l)
  have hnext : nextFencing attempts ≤ l.fencing + 1 := hnext
  have hlt : ∀ e ∈ log, e.fencing < l'.fencing := by
    intro e he
    have := hlog e he
    omega
  refine ⟨hlt, fun htaken => ⟨fun k hk => ?_, fun hnot => absurd htaken hnot, fun _ => ?_⟩⟩
  · rw [List.mem_singleton.mp hk]
    refine ⟨fun e he => ?_, by show nextFencing attempts ≤ _; omega⟩
    cases List.mem_append.mp he with
    | inl hold => exact Nat.le_of_lt (hlt e hold)
    | inr hnew => rw [List.mem_singleton.mp hnew]
  · exact ⟨l', List.mem_append_right _ (List.mem_singleton_self l'), by
      show nextFencing attempts ≤ _
      omega⟩

/-- A lease that is claimed outranks all before it if none was taken over. -/
theorem Tracked.granted {r r' : RunRequest} {l : JobLease} {attempts : List JobAttempt}
    (h : Tracked log taken ⟨some r, [], attempts⟩) (hfree : ¬taken)
    (hfencing : l.fencing = nextFencing attempts) :
    (∀ e ∈ log, e.fencing < l.fencing) ∧
      Tracked (log ++ [l]) taken ⟨some r', [l], attempts ++ [l.attempt]⟩ := by
  have hlt : ∀ e ∈ log, e.fencing < l.fencing := by
    rw [hfencing]
    exact h.free hfree
  have hnext : nextFencing (attempts ++ [l.attempt]) = l.fencing + 1 := by
    rw [nextFencing_concat]
    show max (nextFencing attempts) (l.fencing + 1) = _
    omega
  have hle : ∀ e ∈ log ++ [l], e.fencing ≤ l.fencing := by
    intro e he
    cases List.mem_append.mp he with
    | inl hold => exact Nat.le_of_lt (hlt e hold)
    | inr hnew => rw [List.mem_singleton.mp hnew]
  refine ⟨hlt, ⟨fun k hk => ?_, fun _ e he => ?_, fun htaken => absurd htaken hfree⟩⟩
  · rw [List.mem_singleton.mp hk]
    exact ⟨hle, by show nextFencing (attempts ++ [l.attempt]) ≤ _; omega⟩
  · have := hle e he
    show e.fencing < nextFencing (attempts ++ [l.attempt])
    omega

/-- A list in which every entry outranks those before it. -/
def Ranked (log : List JobLease) : Prop := log.Pairwise fun a b => a.fencing < b.fencing

theorem ranked_concat {l : JobLease} :
    Ranked (log ++ [l]) ↔ Ranked log ∧ ∀ e ∈ log, e.fencing < l.fencing := by
  unfold Ranked
  rw [List.pairwise_append]
  simp

variable {allowed : JobEvent → Prop} {g : List JobLease}

theorem Tracked.congr {taken' : Prop} (h : Tracked log taken j) (hiff : taken ↔ taken') :
    Tracked log taken' j := by rwa [← propext hiff]

/-- Along a path without claims, every takeover outranks what was before. -/
theorem Path.takeovers (h : Path allowed j g j') (hallowed : ∀ l, ¬allowed (.granted l))
    (htracked : Tracked log taken j) (hranked : Ranked log) :
    Tracked (log ++ g) (taken ∨ g ≠ []) j' ∧ Ranked (log ++ g) := by
  induction h with
  | refl =>
    rw [List.append_nil]
    exact ⟨htracked.congr (by simp), hranked⟩
  | @step m j' g e _ hstep he ih =>
    by_cases hgrants : e.grants = []
    · rw [hgrants, List.append_nil]
      exact ⟨ih.1.step hstep hgrants, ih.2⟩
    · cases hstep with
      | granted => exact absurd he (hallowed _)
      | @takenOver _ l l' _ _ _ _ _ hfencing =>
        obtain ⟨hlt, hnew⟩ := ih.1.takenOver hfencing
        rw [← List.append_assoc]
        exact ⟨hnew (.inr (List.append_ne_nil_of_right_ne_nil _ (List.cons_ne_nil _ _))),
          ranked_concat.mpr ⟨ih.2, hlt⟩⟩
      | _ => exact absurd rfl hgrants

/-- Along a path without takeovers, every claim outranks what was before, if nothing was
ever taken over. -/
theorem Path.claims (h : Path allowed j g j') (hallowed : ∀ l, ¬allowed (.takenOver l))
    (hfree : ¬taken) (htracked : Tracked log taken j) (hranked : Ranked log) :
    Tracked (log ++ g) taken j' ∧ Ranked (log ++ g) := by
  induction h with
  | refl =>
    rw [List.append_nil]
    exact ⟨htracked, hranked⟩
  | @step m j' g e _ hstep he ih =>
    by_cases hgrants : e.grants = []
    · rw [hgrants, List.append_nil]
      exact ⟨ih.1.step hstep hgrants, ih.2⟩
    · cases hstep with
      | takenOver => exact absurd he (hallowed _)
      | @granted _ _ l _ _ _ hfencing =>
        obtain ⟨hlt, hnew⟩ := ih.1.granted hfree hfencing
        rw [← List.append_assoc]
        exact ⟨hnew, ranked_concat.mpr ⟨ih.2, hlt⟩⟩
      | _ => exact absurd rfl hgrants

/-- After a takeover, a path without takeovers claims nothing or repeats a number. -/
theorem Path.reclaims (h : Path allowed j g j') (hallowed : ∀ l, ¬allowed (.takenOver l))
    (htaken : taken) (htracked : Tracked log taken j) :
    (g = [] ∧ Tracked log taken j') ∨ ¬Ranked (log ++ g) := by
  induction h with
  | refl => exact .inl ⟨rfl, htracked⟩
  | @step m j' g e _ hstep he ih =>
    cases ih with
    | inr hnot =>
      right
      intro hranked
      rw [← List.append_assoc] at hranked
      exact hnot (List.pairwise_append.mp hranked).1
    | inl hnone =>
      obtain ⟨rfl, htracked⟩ := hnone
      by_cases hgrants : e.grants = []
      · exact .inl ⟨by rw [hgrants]; rfl, htracked.step hstep hgrants⟩
      · cases hstep with
        | takenOver => exact absurd he (hallowed _)
        | @granted _ attempts l _ _ _ hfencing =>
          right
          intro hranked
          obtain ⟨e, hmem, hle⟩ := htracked.stale htaken
          have hlt := (ranked_concat.mp hranked).2 e hmem
          have hle : nextFencing attempts ≤ e.fencing := hle
          omega
        | _ => exact absurd rfl hgrants

end Job

/-! ### Runs -/

namespace SchedulerStore

/-- The job leases that a run has granted. -/
def jobLog (ops : List StoreOp) : List JobLease := logFrom StoreOp.apply (fun s op => op.jobGrants s) {} ops

/-- Those of them that were taken over. -/
def takeoverLog (ops : List StoreOp) : List JobLease :=
  logFrom StoreOp.apply (fun s op => if op.isClaim then [] else op.jobGrants s) {} ops

/-- The operation claims a request of which a lease was taken over before. -/
def Reclaims (before : List StoreOp) (op : StoreOp) : Prop :=
  op.isClaim = true ∧ ∃ lease ∈ op.jobGrants (run before),
    ∃ taken ∈ takeoverLog before, taken.runRequestId = lease.runRequestId

theorem jobLog_concat (ops : List StoreOp) (op : StoreOp) :
    jobLog (ops ++ [op]) = jobLog ops ++ op.jobGrants (run ops) := logFrom_concat ..

theorem takeoverLog_concat (ops : List StoreOp) (op : StoreOp) :
    takeoverLog (ops ++ [op]) =
      takeoverLog ops ++ if op.isClaim then [] else op.jobGrants (run ops) := logFrom_concat ..

/-- A lease of the request was taken over. -/
def TakenOver (ops : List StoreOp) (id : String) : Prop :=
  ∃ taken ∈ takeoverLog ops, taken.runRequestId = id

/-- The leases of one request. -/
def jobLogOf (ops : List StoreOp) (id : String) : List JobLease :=
  (jobLog ops).filter fun l => l.runRequestId = id

theorem jobLogOf_concat (ops : List StoreOp) (op : StoreOp) (id : String) :
    jobLogOf (ops ++ [op]) id =
      jobLogOf ops id ++ (op.jobGrants (run ops)).filter fun l => l.runRequestId = id := by
  unfold jobLogOf
  rw [jobLog_concat, List.filter_append]

theorem takenOver_concat_claim {ops : List StoreOp} {op : StoreOp} (hop : op.isClaim = true)
    (id : String) : TakenOver (ops ++ [op]) id ↔ TakenOver ops id := by
  unfold TakenOver
  rw [takeoverLog_concat, if_pos hop, List.append_nil]

theorem takenOver_concat {ops : List StoreOp} {op : StoreOp} (hop : op.isClaim = false) (id : String) :
    TakenOver (ops ++ [op]) id ↔ TakenOver ops id ∨
      (op.jobGrants (run ops)).filter (fun l => l.runRequestId = id) ≠ [] := by
  unfold TakenOver
  rw [takeoverLog_concat, if_neg (by simp [hop])]
  simp only [List.mem_append, ne_eq, List.filter_eq_nil_iff, decide_eq_true_eq, not_forall, not_not]
  constructor
  · intro h
    obtain ⟨l, hl, hid⟩ := h
    cases hl with
    | inl h => exact .inl ⟨l, h, hid⟩
    | inr h => exact .inr ⟨l, h, hid⟩
  · intro h
    cases h with
    | inl h =>
      obtain ⟨l, hl, hid⟩ := h
      exact ⟨l, .inl hl, hid⟩
    | inr h =>
      obtain ⟨l, hl, hid⟩ := h
      exact ⟨l, .inr hl, hid⟩

/-- What a run without reclaims knows about every request. -/
theorem tracked_run {ops : List StoreOp} (h : Throughout (fun before op => ¬Reclaims before op) ops)
    (id : String) :
    ((run ops).job id).Tracked (jobLogOf ops id) (TakenOver ops id) ∧ Job.Ranked (jobLogOf ops id) := by
  induction ops using List.reverseRecOn with
  | nil =>
    refine ⟨⟨fun l hl => absurd hl List.not_mem_nil, fun _ e he => absurd he List.not_mem_nil,
      fun htaken => ?_⟩, List.Pairwise.nil⟩
    obtain ⟨e, he, -⟩ := htaken
    exact absurd he List.not_mem_nil
  | append_singleton ops op ih =>
    obtain ⟨hops, hop⟩ := throughout_concat.mp h
    obtain ⟨htracked, hranked⟩ := ih hops
    have hpath := (StoreOp.apply_moves (run_sound ops) op).jobs id
    rw [run_concat, jobLogOf_concat]
    cases hclaim : op.isClaim with
    | false =>
      have hno : ∀ l, ¬op.Causes (run ops) id (.granted l) := by
        intro l hc
        cases hc with
        | granted _ hop => exact absurd (hclaim.symm.trans hop) Bool.false_ne_true
      obtain ⟨htracked, hranked⟩ := hpath.takeovers hno htracked hranked
      exact ⟨htracked.congr (takenOver_concat hclaim id).symm, hranked⟩
    | true =>
      have hno : ∀ l, ¬op.Causes (run ops) id (.takenOver l) := by
        intro l hc
        cases hc with
        | takenOver _ hop => exact absurd (hop.symm.trans hclaim) Bool.false_ne_true
      by_cases htaken : TakenOver ops id
      · have hnone : (op.jobGrants (run ops)).filter (fun l => l.runRequestId = id) = [] := by
          rw [List.filter_eq_nil_iff]
          intro l hl hid
          obtain ⟨taken, hmem, heq⟩ := htaken
          exact hop ⟨hclaim, l, hl, taken, hmem, heq.trans (of_decide_eq_true hid).symm⟩
        cases hpath.reclaims hno htaken htracked with
        | inl hsame =>
          rw [hnone, List.append_nil]
          exact ⟨hsame.2.congr (takenOver_concat_claim hclaim id).symm, hranked⟩
        | inr hnot =>
          rw [hnone, List.append_nil] at hnot
          exact absurd hranked hnot
      · obtain ⟨htracked, hranked⟩ := hpath.claims hno htaken htracked hranked
        exact ⟨htracked.congr (takenOver_concat_claim hclaim id).symm, hranked⟩

/-- The numbers of job leases increase just as long as nothing that was taken over is
claimed again. -/
theorem jobLog_increasing (ops : List StoreOp) :
    Increasing JobLease.runRequestId JobLease.fencing (jobLog ops) ↔
      Throughout (fun before op => ¬Reclaims before op) ops := by
  constructor
  · intro h
    induction ops using List.reverseRecOn with
    | nil => exact throughout_nil
    | append_singleton ops op ih =>
      have hbefore : Increasing JobLease.runRequestId JobLease.fencing (jobLog ops) := by
        rw [jobLog_concat] at h
        exact h.of_append
      refine throughout_concat.mpr ⟨ih hbefore, fun hreclaims => ?_⟩
      obtain ⟨hclaim, l, hl, htaken⟩ := hreclaims
      have hno : ∀ k, ¬op.Causes (run ops) l.runRequestId (.takenOver k) := by
        intro k hc
        cases hc with
        | takenOver _ hop => exact absurd (hop.symm.trans hclaim) Bool.false_ne_true
      have hpath := (StoreOp.apply_moves (run_sound ops) op).jobs l.runRequestId
      cases hpath.reclaims hno htaken (tracked_run (ih hbefore) l.runRequestId).1 with
      | inl hnone =>
        have := List.filter_eq_nil_iff.mp hnone.1 l hl
        simp at this
      | inr hnot =>
        apply hnot
        rw [← jobLogOf_concat]
        exact increasing_iff_filter.mp h l.runRequestId
  · intro h
    rw [increasing_iff_filter]
    exact fun id => (tracked_run h id).2

end SchedulerStore

/-! ### Authorities -/

/-- The leases of authorities an operation grants: the one `acquire_authority` returns. -/
def StoreOp.authorityGrants (s : SchedulerStore) : StoreOp → List SchedulerLease
  | .acquireAuthority kind owner ttlSeconds token now =>
    match s.acquireAuthority kind owner ttlSeconds token now with
    | .ok (lease, _) => [lease]
    | .error _ => []
  | _ => []

namespace SchedulerStore
variable {s s' : SchedulerStore}

/-- The authorities that a run has granted. -/
def authorityLog (ops : List StoreOp) : List SchedulerLease :=
  logFrom StoreOp.apply (fun s op => op.authorityGrants s) {} ops

/-- The operation grants an authority that has no row although it was granted before. -/
def Restarts (before : List StoreOp) (op : StoreOp) : Prop :=
  ∃ lease ∈ op.authorityGrants (run before), (run before).authority? lease.kind = none ∧
    ∃ e ∈ authorityLog before, e.kind = lease.kind

/-- Rows are numbered like the latest grant of their kind, and grants from one on. -/
structure AuthoritiesTracked (log : List SchedulerLease) (s : SchedulerStore) : Prop where
  rows : ∀ row ∈ s.authorities, ∀ e ∈ log, e.kind = row.kind → e.fencing ≤ row.fencing
  positive : ∀ e ∈ log, 1 ≤ e.fencing

variable {log : List SchedulerLease}

/-- What an acquisition writes, whether its kind has a row or not. -/
theorem acquireAuthority_ok {kind : AuthorityKind} {owner token : String} {ttlSeconds : ℤ}
    {now : Instant} {lease : SchedulerLease}
    (h : acquireAuthority kind owner ttlSeconds token now s = .ok (lease, s')) :
    lease.kind = kind ∧
      ((s.authority? kind = none ∧ lease.fencing = 1 ∧ s'.authorities = s.authorities ++ [lease]) ∨
        ∃ row, s.authority? kind = some row ∧ lease.fencing = row.fencing + 1 ∧
          s'.authorities = update s.authorities (fun row => row.kind = kind) fun _ => lease) := by
  obtain ⟨_, -, h⟩ := ok_of_bind h
  obtain ⟨_, -, h⟩ := ok_of_bind h
  dsimp only at h
  split at h
  · rename_i hrow
    obtain ⟨rfl, rfl⟩ := Prod.mk.inj (Except.ok.inj h)
    exact ⟨rfl, .inl ⟨hrow, rfl, rfl⟩⟩
  · rename_i row hrow
    obtain ⟨-, h⟩ := ok_of_guard h
    obtain ⟨rfl, rfl⟩ := Prod.mk.inj (Except.ok.inj h)
    exact ⟨rfl, .inr ⟨row, hrow, rfl, rfl⟩⟩

theorem authority?_spec {kind : AuthorityKind} {row : SchedulerLease}
    (h : s.authority? kind = some row) : row ∈ s.authorities ∧ row.kind = kind :=
  ⟨List.mem_of_find?_eq_some h, by simpa using List.find?_some h⟩

theorem authority?_none {kind : AuthorityKind} (h : s.authority? kind = none) {row : SchedulerLease}
    (hrow : row ∈ s.authorities) : row.kind ≠ kind := by
  simpa using List.find?_eq_none.mp h row hrow

/-- A grant outranks those before it, unless it restarts its kind. -/
theorem AuthoritiesTracked.acquired (h : AuthoritiesTracked log s) {kind : AuthorityKind}
    {owner token : String} {ttlSeconds : ℤ} {now : Instant} {lease : SchedulerLease}
    (hexec : acquireAuthority kind owner ttlSeconds token now s = .ok (lease, s'))
    (hfirst : s.authority? lease.kind = none → ∀ e ∈ log, e.kind ≠ lease.kind) :
    (∀ e ∈ log, e.kind = lease.kind → e.fencing < lease.fencing) ∧
      AuthoritiesTracked (log ++ [lease]) s' := by
  obtain ⟨rfl, hcases⟩ := acquireAuthority_ok hexec
  have hlt : ∀ e ∈ log, e.kind = lease.kind → e.fencing < lease.fencing := by
    intro e he hkind
    cases hcases with
    | inl hnone => exact absurd hkind (hfirst hnone.1 e he)
    | inr hsome =>
      obtain ⟨row, hrow, hfencing, -⟩ := hsome
      obtain ⟨hmem, hrowkind⟩ := authority?_spec hrow
      have := h.rows row hmem e he (hkind.trans hrowkind.symm)
      omega
  have hpositive : 1 ≤ lease.fencing := by
    cases hcases with
    | inl hnone => exact Nat.le_of_eq hnone.2.1.symm
    | inr hsome =>
      obtain ⟨row, -, hfencing, -⟩ := hsome
      omega
  have hself : ∀ e ∈ log ++ [lease], e.kind = lease.kind → e.fencing ≤ lease.fencing := by
    intro e he hkind
    cases List.mem_append.mp he with
    | inl hold => exact Nat.le_of_lt (hlt e hold hkind)
    | inr hnew => rw [List.mem_singleton.mp hnew]
  have hother : ∀ row ∈ s.authorities, row.kind ≠ lease.kind → ∀ e ∈ log ++ [lease],
      e.kind = row.kind → e.fencing ≤ row.fencing := by
    intro row hrow hne e he hkind
    cases List.mem_append.mp he with
    | inl hold => exact h.rows row hrow e hold hkind
    | inr hnew =>
      rw [List.mem_singleton.mp hnew] at hkind
      exact absurd hkind.symm hne
  refine ⟨hlt, ⟨fun row hrow => ?_, fun e he => ?_⟩⟩
  · cases hcases with
    | inl hnone =>
      rw [hnone.2.2] at hrow
      cases List.mem_append.mp hrow with
      | inl hold => exact hother row hold (authority?_none hnone.1 hold)
      | inr hnew =>
        rw [List.mem_singleton.mp hnew]
        exact hself
    | inr hsome =>
      obtain ⟨_, -, -, hrows⟩ := hsome
      rw [hrows] at hrow
      cases mem_update.mp hrow with
      | inl hnew =>
        obtain ⟨_, -, -, rfl⟩ := hnew
        exact hself
      | inr hold => exact hother row hold.1 (by simpa using hold.2)
  · cases List.mem_append.mp he with
    | inl hold => exact h.positive e hold
    | inr hnew =>
      rw [List.mem_singleton.mp hnew]
      exact hpositive

theorem authorityGrants_other {op : StoreOp} (h : op.writesAuthorities = false) :
    op.authorityGrants s = [] := by
  cases op <;> first | rfl | exact absurd h (by simp [StoreOp.writesAuthorities])

/-- A renewal keeps the numbers of the rows, and a release only removes rows. -/
theorem AuthoritiesTracked.kept (h : AuthoritiesTracked log s)
    (hrows : ∀ row ∈ s'.authorities, ∃ old ∈ s.authorities, row.kind = old.kind ∧
      row.fencing = old.fencing) : AuthoritiesTracked log s' := by
  refine ⟨fun row hrow e he hkind => ?_, h.positive⟩
  obtain ⟨old, hold, hk, hf⟩ := hrows row hrow
  rw [hf]
  exact h.rows old hold e he (hkind.trans hk)

theorem renewAuthority_kept (h : AuthoritiesTracked log s) {lease renewed : SchedulerLease}
    {ttlSeconds : ℤ} {now : Instant}
    (hexec : renewAuthority lease ttlSeconds now s = .ok (renewed, s')) : AuthoritiesTracked log s' := by
  obtain ⟨_, -, hexec⟩ := ok_of_bind hexec
  obtain ⟨-, hexec⟩ := ok_of_guard hexec
  rw [← (Prod.mk.inj (Except.ok.inj hexec)).2]
  refine h.kept fun row hrow => ?_
  cases mem_update.mp hrow with
  | inl hnew =>
    obtain ⟨old, hold, -, rfl⟩ := hnew
    exact ⟨old, hold, rfl, rfl⟩
  | inr hold => exact ⟨row, hold.1, rfl, rfl⟩

/-- An operation that restarts nothing keeps the numbers in order. -/
theorem AuthoritiesTracked.apply (hs : s.Sound) (h : AuthoritiesTracked log s) {op : StoreOp}
    (hfirst : ∀ lease ∈ op.authorityGrants s, s.authority? lease.kind = none →
      ∀ e ∈ log, e.kind ≠ lease.kind) :
    AuthoritiesTracked (log ++ op.authorityGrants s) (op.apply s) ∧
      (Increasing SchedulerLease.kind SchedulerLease.fencing log →
        Increasing SchedulerLease.kind SchedulerLease.fencing (log ++ op.authorityGrants s)) := by
  by_cases hop : op.writesAuthorities = false
  · rw [authorityGrants_other hop, List.append_nil]
    refine ⟨h.kept fun row hrow => ?_, id⟩
    rw [(StoreOp.apply_moves hs op).authorities hop] at hrow
    exact ⟨row, hrow, rfl, rfl⟩
  · cases op with
    | acquireAuthority kind owner ttlSeconds token now =>
      cases hexec : s.acquireAuthority kind owner ttlSeconds token now with
      | error e =>
        have hsame : (StoreOp.acquireAuthority kind owner ttlSeconds token now).apply s = s := by
          simp only [StoreOp.apply, StoreOp.exec, hexec]
          rfl
        simp only [StoreOp.authorityGrants, hexec, List.append_nil]
        rw [hsame]
        exact ⟨h, id⟩
      | ok pair =>
        obtain ⟨lease, s'⟩ := pair
        have happly : (StoreOp.acquireAuthority kind owner ttlSeconds token now).apply s = s' := by
          simp only [StoreOp.apply, StoreOp.exec, hexec]
          rfl
        have hgrants : (StoreOp.acquireAuthority kind owner ttlSeconds token now).authorityGrants s =
            [lease] := by simp only [StoreOp.authorityGrants, hexec]
        rw [hgrants] at hfirst
        obtain ⟨hlt, htracked⟩ := h.acquired hexec (hfirst lease (List.mem_singleton_self lease))
        rw [hgrants, happly]
        exact ⟨htracked, fun hlog => increasing_concat.mpr ⟨hlog, hlt⟩⟩
    | renewAuthority lease ttlSeconds now =>
      have hgrants : (StoreOp.renewAuthority lease ttlSeconds now).authorityGrants s = [] := rfl
      rw [hgrants, List.append_nil]
      refine ⟨?_, id⟩
      cases hexec : s.renewAuthority lease ttlSeconds now with
      | error e =>
        simp only [StoreOp.apply, StoreOp.exec, hexec]
        exact h
      | ok pair =>
        simp only [StoreOp.apply, StoreOp.exec, hexec]
        exact renewAuthority_kept h hexec
    | releaseLease lease =>
      have hgrants : (StoreOp.releaseLease lease).authorityGrants s = [] := rfl
      rw [hgrants, List.append_nil]
      exact ⟨h.kept fun row hrow => ⟨row, List.mem_of_mem_filter hrow, rfl, rfl⟩, id⟩
    | _ => exact absurd rfl hop

theorem authorityLog_concat (ops : List StoreOp) (op : StoreOp) :
    authorityLog (ops ++ [op]) = authorityLog ops ++ op.authorityGrants (run ops) := logFrom_concat ..

theorem authorities_run {ops : List StoreOp} (h : Throughout (fun before op => ¬Restarts before op) ops) :
    AuthoritiesTracked (authorityLog ops) (run ops) ∧
      Increasing SchedulerLease.kind SchedulerLease.fencing (authorityLog ops) := by
  induction ops using List.reverseRecOn with
  | nil =>
    exact ⟨⟨fun row hrow => absurd hrow List.not_mem_nil, fun e he => absurd he List.not_mem_nil⟩,
      increasing_nil⟩
  | append_singleton ops op ih =>
    obtain ⟨hops, hop⟩ := throughout_concat.mp h
    obtain ⟨htracked, hlog⟩ := ih hops
    have hfirst : ∀ lease ∈ op.authorityGrants (run ops), (run ops).authority? lease.kind = none →
        ∀ e ∈ authorityLog ops, e.kind ≠ lease.kind :=
      fun lease hlease hnone e he hkind => hop ⟨lease, hlease, hnone, e, he, hkind⟩
    obtain ⟨htracked, hkeep⟩ := htracked.apply (run_sound ops) hfirst
    rw [authorityLog_concat, run_concat]
    exact ⟨htracked, hkeep hlog⟩

/-- A grant of a kind that has no row bears the first number. -/
theorem authorityGrants_first {op : StoreOp} {lease : SchedulerLease}
    (h : lease ∈ op.authorityGrants s) (hnone : s.authority? lease.kind = none) :
    lease.fencing = 1 ∧ op.authorityGrants s = [lease] := by
  cases op with
  | acquireAuthority kind owner ttlSeconds token now =>
    cases hexec : s.acquireAuthority kind owner ttlSeconds token now with
    | error e =>
      simp only [StoreOp.authorityGrants, hexec] at h
      exact absurd h List.not_mem_nil
    | ok pair =>
      simp only [StoreOp.authorityGrants, hexec] at h ⊢
      obtain rfl := List.mem_singleton.mp h
      refine ⟨?_, rfl⟩
      obtain ⟨hkind, hcases⟩ := acquireAuthority_ok hexec
      cases hcases with
      | inl hfirst => exact hfirst.2.1
      | inr hsome =>
        obtain ⟨row, hrow, -⟩ := hsome
        rw [hkind, hrow] at hnone
        exact nomatch hnone
  | _ => exact absurd h List.not_mem_nil

/-- The numbers of authorities increase just as long as none is acquired anew after its row
was released. -/
theorem authorityLog_increasing (ops : List StoreOp) :
    Increasing SchedulerLease.kind SchedulerLease.fencing (authorityLog ops) ↔
      Throughout (fun before op => ¬Restarts before op) ops := by
  constructor
  · intro h
    induction ops using List.reverseRecOn with
    | nil => exact throughout_nil
    | append_singleton ops op ih =>
      rw [authorityLog_concat] at h
      have hops := ih h.of_append
      refine throughout_concat.mpr ⟨hops, fun hrestarts => ?_⟩
      obtain ⟨lease, hlease, hnone, e, he, hkind⟩ := hrestarts
      obtain ⟨hone, hgrants⟩ := authorityGrants_first hlease hnone
      rw [hgrants] at h
      have hlt := (increasing_concat.mp h).2 e he hkind
      have hpositive := (authorities_run hops).1.positive e he
      omega
  · exact fun h => (authorities_run h).2

/-- All numbers increase if and only if no authority is restarted and no request is
reclaimed. -/
theorem fencing_increases (ops : List StoreOp) :
    (Increasing SchedulerLease.kind SchedulerLease.fencing (authorityLog ops) ∧
        Increasing JobLease.runRequestId JobLease.fencing (jobLog ops)) ↔
      Throughout (fun before op => ¬Restarts before op) ops ∧
        Throughout (fun before op => ¬Reclaims before op) ops := by
  rw [authorityLog_increasing, jobLog_increasing]

/-- The leader steps down and comes back. -/
def stepDown : List StoreOp :=
  [.acquireAuthority .schedulerLeader "core" 30 "one" 0,
    .releaseLease ⟨.schedulerLeader, "core", "one", 1, seconds 30⟩,
    .acquireAuthority .schedulerLeader "core" 30 "two" 1]

/-- A job is dispatched, expires and is taken over; it fails and is claimed again. -/
def takeOverThenFail : List StoreOp :=
  [.putSchedule nightly, .enqueueManual nightly "once" 0 ⟨"request", 0⟩,
    .acquireAuthority .runtimeWriter "core" 100 "writer" 0, .claimDue coreWriter "core" 30 "first" 0,
    .markSideEffectStarted firstJob 0, .markWorkflowDispatched firstJob "graph-run" 0,
    .renewDispatchedJobs coreWriter "core" 30 (fun _ => "second") (seconds 40),
    .failJob { firstJob with token := "second", fencing := 2, expiresAt := seconds 70 } denied (seconds 41),
    .claimDue coreWriter "core" 30 "third" (seconds 50)]

/-- Both sequences hand out a number a second time. -/
theorem fencing_repeats :
    (¬ ∀ ops, Increasing SchedulerLease.kind SchedulerLease.fencing (authorityLog ops)) ∧
      ¬ ∀ ops, Increasing JobLease.runRequestId JobLease.fencing (jobLog ops) := by
  constructor
  · intro h
    have hrepeats : ¬ Increasing SchedulerLease.kind SchedulerLease.fencing (authorityLog stepDown) := by
      decide +kernel
    exact hrepeats (h stepDown)
  · intro h
    have hrepeats : ¬ Increasing JobLease.runRequestId JobLease.fencing (jobLog takeOverThenFail) := by
      decide +kernel
    exact hrepeats (h takeOverThenFail)

end SchedulerStore
end Operant.Scheduler
