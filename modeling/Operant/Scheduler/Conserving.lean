import Mathlib.Data.Prod.Lex
import Mathlib.Data.String.Basic
import Operant.Scheduler.Cancellation
import Operant.Scheduler.Outcomes
import Operant.Tables.Pages

/-! When `claim_due` passes nobody over.

A request that is due may be claimed while its schedule has room: fewer requests at work
than the revision allows. `claim_due` looks at the first hundred due requests only, so it
passes over a request with room when a hundred without stand before it.

`claimDue_conserves`: in every state the store reaches, a claim takes the first due
request with room exactly when that request is among the first hundred due. -/
namespace Operant.Scheduler
open Operant.Tables Operant.Calls

/-! ### What the constraints promise of every row -/

namespace SchedulerStore
variable {s s' : SchedulerStore}

/-- Every request is one the constraints admit. -/
def Admitted (s : SchedulerStore) : Prop := ∀ r ∈ s.requests, s.Admits r

theorem Admits.grow {r : RunRequest} (h : s.Admits r) {more : List ScheduleDefinition}
    (hgrow : s'.definitions = s.definitions ++ more) : s'.Admits r := by
  refine ⟨?_, h.2⟩
  obtain ⟨schedule, hfound⟩ := Option.isSome_iff_exists.mp h.1
  unfold definition? at hfound ⊢
  rw [hgrow, find?_append_some hfound]
  rfl

/-- No step takes a row's revision or the number of its attempts away. -/
theorem Path.admits {allowed : JobEvent → Prop} {j j' : Job} {g : List JobLease}
    (h : Job.Path allowed j g j') (hallowed : ∀ r, allowed (.inserted r) → s.Admits r)
    (hj : ∀ r, j.request = some r → s.Admits r) : ∀ r, j'.request = some r → s.Admits r := by
  refine h.keeps (P := fun j => ∀ r, j.request = some r → s.Admits r) (fun hstep he hkept => ?_) hj
  intro r hr
  cases hstep with
  | inserted =>
    obtain rfl := Option.some.inj hr
    exact hallowed _ he
  | cancelled | cancelAsked | granted | dispatched | ended =>
    obtain rfl := Option.some.inj hr
    have hadmits := hkept _ rfl
    exact hadmits
  | renewed | marked | takenOver => exact hkept r hr

theorem JobMoves.admitted {allowed : String → JobEvent → Prop} {g : List JobLease}
    (h : s.JobMoves allowed g s') (hs : s.Sound) (hallowed : ∀ id r, allowed id (.inserted r) → s.Admits r)
    (hadmitted : s.Admitted) {more : List ScheduleDefinition}
    (hgrow : s'.definitions = s.definitions ++ more) : s'.Admitted := by
  intro r hr
  have hfound : (s'.job r.id).request = some r := request?_of_mem (h.sound hs).ids hr
  refine Admits.grow (Path.admits (h.jobs r.id) (hallowed r.id) (fun old hold => ?_) r hfound) hgrow
  exact hadmitted old (List.mem_of_find?_eq_some hold)

theorem putSchedule_definitions {schedule : ScheduleDefinition}
    (h : putSchedule schedule s = .ok ((), s')) :
    ∃ more, s'.definitions = s.definitions ++ more := by
  unfold putSchedule at h
  split at h
  · split at h
    · exact nomatch h
    · rw [← (Prod.mk.inj (Except.ok.inj h)).2]
      exact ⟨[], (List.append_nil _).symm⟩
  · dsimp only at h
    split at h <;> split at h
    · exact nomatch h
    · rw [← (Prod.mk.inj (Except.ok.inj h)).2]
      exact ⟨[schedule], rfl⟩
    · exact nomatch h
    · rw [← (Prod.mk.inj (Except.ok.inj h)).2]
      exact ⟨[schedule], rfl⟩

theorem updateScheduleStatus_definitions {scheduleId : String} {status : ScheduleStatus}
    {version : Nat} {schedule : ScheduleDefinition}
    (h : updateScheduleStatus scheduleId status version s = .ok (schedule, s')) :
    s'.definitions = s.definitions := by
  unfold updateScheduleStatus at h
  obtain ⟨-, h⟩ := ok_of_guard h
  obtain ⟨_, -, h⟩ := ok_of_bind h
  rw [← (Prod.mk.inj (Except.ok.inj h)).2]
  split <;> rfl

theorem enqueueOccurrences_definitions (hs : s.Sound) {schedule : ScheduleDefinition}
    {occurrences : List Instant} {lease : SchedulerLease} {cursor availableAt : Instant}
    {new : Instant → NewRow} {stored : List RunRequest}
    (h : enqueueOccurrences schedule occurrences lease cursor availableAt new s = .ok (stored, s')) :
    s'.definitions = s.definitions := by
  unfold enqueueOccurrences at h
  obtain ⟨-, h⟩ := ok_of_guard h
  obtain ⟨requests, hrequests, h⟩ := ok_of_bind h
  obtain ⟨_, -, h⟩ := ok_of_bind h
  obtain ⟨_, -, h⟩ := ok_of_bind h
  obtain ⟨⟨_, m⟩, hinsert, h⟩ := ok_of_bind h
  rw [← (Prod.mk.inj (Except.ok.inj h)).2]
  have hfresh : ∀ r ∈ requests, Fresh r := by
    intro r hr
    obtain ⟨occurrenceAt, -, hr⟩ := mapM_ok_of_mem hrequests hr
    exact requestFor_fresh hr
  have hmoves : s.Moves (fun _ _ => True) [] m := insertAll_moves hs hfresh (fun _ _ _ => trivial) hinsert
  exact hmoves.definitions

theorem observeWatch_definitions (hs : s.Sound) {schedule : ScheduleDefinition}
    {observed : Observation} {lease : SchedulerLease} {observedAt : Instant} {new : NewRow}
    {stored : Option RunRequest}
    (h : observeWatch schedule observed lease observedAt new s = .ok (stored, s')) :
    s'.definitions = s.definitions := by
  obtain ⟨_, -, h⟩ := ok_of_bind h
  obtain ⟨_, -, h⟩ := ok_of_bind h
  dsimp only at h
  split at h
  case h_4 =>
    split at h
    · rw [← (Prod.mk.inj (Except.ok.inj h)).2]
    · obtain ⟨request, hrequest, h⟩ := ok_of_bind h
      obtain ⟨⟨_, m⟩, hinsert, h⟩ := ok_of_bind h
      rw [← (Prod.mk.inj (Except.ok.inj h)).2]
      have hmoves : s.Moves (fun _ _ => True) [] m :=
        insertOrGetRequest_moves hs (requestFor_fresh hrequest) (fun _ _ _ => trivial) hinsert
      exact hmoves.definitions
  all_goals rw [← (Prod.mk.inj (Except.ok.inj h)).2]

end SchedulerStore

namespace StoreOp
open SchedulerStore
variable {s s' : SchedulerStore}

/-- Revisions are added and never changed or removed. -/
theorem exec_definitions (hs : s.Sound) {op : StoreOp} (h : op.exec s = .ok s') :
    ∃ more, s'.definitions = s.definitions ++ more := by
  have hnone {t : List ScheduleDefinition} (heq : t = s.definitions) :
      ∃ more, t = s.definitions ++ more := ⟨[], heq.trans (List.append_nil _).symm⟩
  cases hop : op.writesSchedules with
  | false => exact hnone ((exec_moves hs h).schedules hop).1
  | true =>
    cases op with
    | putSchedule =>
      obtain ⟨_, h⟩ := commits_ok h
      exact putSchedule_definitions h
    | updateScheduleStatus =>
      obtain ⟨_, h⟩ := commits_ok h
      exact hnone (updateScheduleStatus_definitions h)
    | enqueueOccurrences =>
      obtain ⟨_, h⟩ := commits_ok h
      exact hnone (enqueueOccurrences_definitions hs h)
    | observeWatch =>
      obtain ⟨_, h⟩ := commits_ok h
      exact hnone (observeWatch_definitions hs h)
    | _ => exact absurd hop Bool.false_ne_true

theorem apply_admitted (hs : s.Sound) (hadmitted : s.Admitted) (op : StoreOp) :
    (op.apply s).Admitted := by
  have hmoves := apply_moves hs op
  unfold apply at hmoves ⊢
  cases h : op.exec s with
  | error => exact hadmitted
  | ok s' =>
    rw [h] at hmoves
    obtain ⟨more, hgrow⟩ := exec_definitions hs h
    refine hmoves.toJobMoves.admitted hs (fun _ r hr => ?_) hadmitted hgrow
    cases hr with
    | inserted _ hadmits => exact hadmits

end StoreOp

namespace SchedulerStore
variable {s s' : SchedulerStore}

theorem run_admitted (ops : List StoreOp) : (run ops).Admitted := by
  induction ops using List.reverseRecOn with
  | nil => exact fun r hr => absurd hr List.not_mem_nil
  | append_singleton ops op ih =>
    rw [run_concat]
    exact StoreOp.apply_admitted (run_sound ops) ih op

/-! ### The queue -/

/-- Due under an enabled schedule. -/
def isDue (s : SchedulerStore) (now : Instant) (row : RunRequest) : Bool :=
  row.status.isWaiting && row.availableAt ≤ now && !row.cancelRequested &&
    (s.head? row.scheduleId).any fun head => head.status = .enabled

/-- The schedule has fewer requests at work than the request's revision allows. -/
def hasRoom (s : SchedulerStore) (row : RunRequest) : Bool :=
  (s.definition? row.scheduleId row.scheduleVersion).any fun schedule =>
    s.leasedCount row.scheduleId < schedule.concurrencyLimit

structure Claimable (s : SchedulerStore) (now : Instant) (row : RunRequest) : Prop where
  mem : row ∈ s.requests
  due : s.isDue now row = true
  room : s.hasRoom row = true

/-- The first request that may be claimed. -/
structure First (s : SchedulerStore) (now : Instant) (row : RunRequest) : Prop
    extends s.Claimable now row where
  first : ∀ other, s.Claimable now other → dueBefore row other

/-- Nothing is claimed only where nothing may be, and else what is first is. -/
def Conserves (s : SchedulerStore) (now : Instant) : Option (RunRequest × JobLease) → Prop
  | none => ∀ row, ¬s.Claimable now row
  | some (request, lease) => ∃ row, s.First now row ∧ lease.runRequestId = row.id ∧
      request = { row with status := .leased, attemptCount := row.attemptCount + 1 }

/-- One row before another in the queue. -/
def earlier (a b : RunRequest) : Prop := dueBefore a b ∧ a.id ≠ b.id

instance (a b : RunRequest) : Decidable (earlier a b) := inferInstanceAs (Decidable (_ ∧ _))

/-- Fewer than a hundred due requests stand before the first that may be claimed. -/
def FirstOnPage (s : SchedulerStore) (now : Instant) : Prop :=
  ∀ row, s.First now row →
    (s.requests.countP fun other => s.isDue now other && earlier other row) < 100

/-- The columns the queue is ordered by. -/
def dueKey (row : RunRequest) : Instant ×ₗ Instant ×ₗ String :=
  toLex (row.availableAt, toLex (row.createdAt, row.id))

theorem dueBefore_iff {a b : RunRequest} : dueBefore a b ↔ dueKey a ≤ dueKey b := by
  simp only [dueBefore, dueKey, Prod.Lex.toLex_le_toLex]

instance : Std.Total dueBefore := ⟨fun a b => by
  simp only [dueBefore_iff]
  exact le_total _ _⟩

instance : IsTrans RunRequest dueBefore := ⟨fun a b c hab hbc => by
  simp only [dueBefore_iff] at hab hbc ⊢
  exact hab.trans hbc⟩

/-- Rows that stand before each other are one row. -/
theorem id_of_dueBefore {a b : RunRequest} (hab : dueBefore a b) (hba : dueBefore b a) : a.id = b.id := by
  have heq := le_antisymm (dueBefore_iff.mp hab) (dueBefore_iff.mp hba)
  exact congrArg (fun key => (ofLex (ofLex key).2).2) heq

def queue (s : SchedulerStore) (now : Instant) : List RunRequest :=
  (s.requests.filter (s.isDue now)).insertionSort dueBefore

theorem mem_queue {now : Instant} {row : RunRequest} :
    row ∈ s.queue now ↔ row ∈ s.requests ∧ s.isDue now row = true := by
  rw [queue, List.mem_insertionSort, List.mem_filter]

theorem queue_pairwise (hids : (s.requests.map RunRequest.id).Nodup) (now : Instant) :
    (s.queue now).Pairwise earlier := by
  have hsorted : (s.queue now).Pairwise dueBefore := List.pairwise_insertionSort _ _
  have hqueue : ((s.queue now).map RunRequest.id).Nodup :=
    (((List.perm_insertionSort _ _).map _).nodup_iff).mpr (hids.sublist (List.filter_sublist.map _))
  rw [List.nodup_iff_pairwise_ne, List.pairwise_map] at hqueue
  exact hsorted.and hqueue

theorem mem_page_queue (hids : (s.requests.map RunRequest.id).Nodup) {now : Instant} {row : RunRequest} :
    row ∈ (s.queue now).take 100 ↔ (row ∈ s.requests ∧ s.isDue now row = true) ∧
      (s.requests.countP fun other => s.isDue now other && earlier other row) < 100 := by
  have hcount : (s.queue now).countP (fun other => earlier other row) =
      s.requests.countP fun other => s.isDue now other && earlier other row := by
    rw [queue, (List.perm_insertionSort _ _).countP_eq, List.countP_filter]
    congr 1
    funext other
    exact Bool.and_comm _ _
  rw [mem_take_iff (fun _ _ hab hba => hab.2 (id_of_dueBefore hab.1 hba.1)) (queue_pairwise hids now),
    mem_queue, hcount]

/-- The candidates are the first hundred of the queue. -/
theorem candidates_eq (hadmitted : s.Admitted) (now : Instant) :
    s.candidates now = ((s.queue now).take 100).filterMap fun row =>
      (s.definition? row.scheduleId row.scheduleVersion).map fun schedule => (row, schedule) := by
  refine take_filterMap (fun row hrow => ?_) 100
  rw [Option.isSome_map]
  exact (hadmitted row (mem_queue.mp hrow).1).1

theorem mem_candidates (hadmitted : s.Admitted) {now : Instant} {row : RunRequest}
    {schedule : ScheduleDefinition} :
    (row, schedule) ∈ s.candidates now ↔ row ∈ (s.queue now).take 100 ∧
      s.definition? row.scheduleId row.scheduleVersion = some schedule := by
  rw [candidates_eq hadmitted, List.mem_filterMap]
  constructor
  · intro h
    obtain ⟨other, hother, h⟩ := h
    obtain ⟨_, hfound, heq⟩ := Option.map_eq_some_iff.mp h
    obtain ⟨rfl, rfl⟩ := Prod.mk.inj heq
    exact ⟨hother, hfound⟩
  · intro h
    exact ⟨row, h.1, by rw [h.2]; rfl⟩

theorem candidates_pairwise (hs : s.Sound) (hadmitted : s.Admitted) (now : Instant) :
    (s.candidates now).Pairwise fun a b => earlier a.1 b.1 := by
  rw [candidates_eq hadmitted]
  have hpage := (queue_pairwise hs.ids now).sublist (List.take_sublist 100 _)
  refine hpage.filterMap _ fun a b hab x hx y hy => ?_
  obtain ⟨_, -, rfl⟩ := Option.map_eq_some_iff.mp hx
  obtain ⟨_, -, rfl⟩ := Option.map_eq_some_iff.mp hy
  exact hab

/-! ### The claim -/

/-- The candidate that `claim_due` selects. -/
def selected (s : SchedulerStore) (now : Instant) : Option (RunRequest × ScheduleDefinition) :=
  (s.candidates now).find? fun candidate =>
    s.leasedCount candidate.1.scheduleId < candidate.2.concurrencyLimit

theorem candidate_room {now : Instant} {candidate : RunRequest × ScheduleDefinition}
    (h : candidate ∈ s.candidates now) :
    (decide (s.leasedCount candidate.1.scheduleId < candidate.2.concurrencyLimit) = true) ↔
      s.hasRoom candidate.1 = true := by
  unfold hasRoom
  rw [(candidates_spec h).2.2.2]
  rfl

theorem selected_some (hadmitted : s.Admitted) {now : Instant}
    {candidate : RunRequest × ScheduleDefinition} (h : s.selected now = some candidate) :
    s.Claimable now candidate.1 := by
  have hmem := List.mem_of_find?_eq_some h
  have hqueue := mem_queue.mp (List.mem_of_mem_take ((mem_candidates hadmitted).mp hmem).1)
  have hroom := List.find?_some h
  exact ⟨hqueue.1, hqueue.2, (candidate_room hmem).mp hroom⟩

/-- The first that may be claimed is selected, if it is on the page. -/
theorem selected_first (hs : s.Sound) (hadmitted : s.Admitted) {now : Instant} {row : RunRequest}
    (hfirst : s.First now row) (hpage : row ∈ (s.queue now).take 100) :
    ∃ schedule, s.selected now = some (row, schedule) := by
  obtain ⟨schedule, hfound⟩ := Option.isSome_iff_exists.mp (hadmitted row hfirst.mem).1
  have hcandidate := (mem_candidates hadmitted).mpr ⟨hpage, hfound⟩
  have hroom := (candidate_room hcandidate).mpr hfirst.room
  cases hselected : s.selected now with
  | none => exact absurd hroom (List.find?_eq_none.mp hselected _ hcandidate)
  | some chosen =>
    have hbefore := hfirst.first chosen.1 (selected_some hadmitted hselected)
    cases find?_first (candidates_pairwise hs hadmitted now) hselected hcandidate hroom with
    | inl heq => exact ⟨schedule, by rw [heq]⟩
    | inr hearlier => exact absurd (id_of_dueBefore hearlier.1 hbefore) hearlier.2

/-- Where a request may be claimed, one of them is first. -/
theorem exists_first (hs : s.Sound) {now : Instant} {row : RunRequest} (h : s.Claimable now row) :
    ∃ row, s.First now row := by
  have hqueue : row ∈ s.queue now := mem_queue.mpr ⟨h.mem, h.due⟩
  cases hfind : (s.queue now).find? s.hasRoom with
  | none => exact absurd h.room (List.find?_eq_none.mp hfind row hqueue)
  | some first =>
    have hfirst := mem_queue.mp (List.mem_of_find?_eq_some hfind)
    refine ⟨first, ⟨hfirst.1, hfirst.2, List.find?_some hfind⟩, fun other hother => ?_⟩
    have hmem : other ∈ s.queue now := mem_queue.mpr ⟨hother.mem, hother.due⟩
    cases find?_first (queue_pairwise hs.ids now) hfind hmem hother.room with
    | inl heq =>
      rw [heq]
      exact dueBefore_iff.mpr le_rfl
    | inr hearlier => exact hearlier.1

/-- A request that waits has an attempt left, no lease, and no row for that attempt. -/
theorem grantable (hs : s.Sound) (hadmitted : s.Admitted) {row : RunRequest} (hrow : row ∈ s.requests)
    (hwaiting : row.status.isWaiting = true) :
    ¬(20 < row.attemptCount + 1 ∨ (s.lease? row.id).isSome ∨
      (s.attempt? row.id (row.attemptCount + 1)).isSome) := by
  have hfound := request?_of_mem hs.ids hrow
  have hmost := (hadmitted row hrow).2
  have hok := hs.jobs row.id
  have hjob : s.job row.id = ⟨some row, s.leasesOf row.id, s.attemptsOf row.id⟩ := by
    rw [← hfound]
    rfl
  rw [hjob] at hok
  rw [lease?_eq, attempt?_eq]
  generalize hleases : s.leasesOf row.id = leases at hok
  generalize hattempts : s.attemptsOf row.id = attempts at hok
  cases hok with
  | leased hstatus => exact absurd hstatus (Job.waiting_not_leased hwaiting)
  | idle _ hnumbers hmax hleft =>
    have hlt := hleft hwaiting
    have hnext : attempts.find? (fun a => a.attemptNumber = row.attemptCount + 1) = none := by
      rw [List.find?_eq_none]
      intro a ha
      have hmem : a.attemptNumber ∈ Job.numbers attempts := List.mem_map_of_mem ha
      rw [hnumbers, List.mem_range'_1] at hmem
      rw [decide_eq_true_eq]
      omega
    rw [hnext]
    simp
    omega

/-- What a claim of this row returns. -/
def claimOf (writerLease : SchedulerLease) (owner : String) (ttlSeconds : ℤ) (token : String)
    (now : Instant) (s : SchedulerStore) (row : RunRequest) : RunRequest × JobLease :=
  ({ row with status := .leased, attemptCount := row.attemptCount + 1 },
    { runRequestId := row.id
      owner, token
      fencing := s.nextJobFencing row.id
      expiresAt := min (now + seconds ttlSeconds) writerLease.expiresAt
      attemptNumber := row.attemptCount + 1 })

/-- A claim under a live lease does not fail. -/
theorem claimDue_eq (token : String) {writerLease : SchedulerLease} {owner : String} {ttlSeconds : ℤ}
    {now : Instant} (howner : checkOwner owner = .ok ()) (httl : checkTtl ttlSeconds = .ok ())
    (hwriter : requireWriter writerLease owner = .ok ())
    (hlive : s.assertAuthority writerLease now = .ok ())
    (hs : (s.recoverExpiredJobs now).Sound) (hadmitted : (s.recoverExpiredJobs now).Admitted) :
    ∃ s', claimDue writerLease owner ttlSeconds token now s =
      .ok (((s.recoverExpiredJobs now).selected now).map fun candidate =>
        claimOf writerLease owner ttlSeconds token now (s.recoverExpiredJobs now) candidate.1, s') := by
  unfold claimDue
  rw [howner, httl, hwriter, hlive]
  simp only [bind, Except.bind]
  cases hselected : (s.recoverExpiredJobs now).selected now with
  | none =>
    unfold selected at hselected
    rw [hselected]
    exact ⟨_, rfl⟩
  | some candidate =>
    have hclaimable := selected_some hadmitted hselected
    have hdue := hclaimable.due
    simp only [isDue, Bool.and_eq_true] at hdue
    have hfree := grantable hs hadmitted hclaimable.mem hdue.1.1.1
    unfold selected at hselected
    rw [hselected]
    dsimp only
    rw [if_neg hfree]
    exact ⟨_, rfl⟩

/-- Selecting a candidate conserves work exactly when the first that may be claimed is on
the page. -/
theorem selected_conserves (hs : s.Sound) (hadmitted : s.Admitted) {now : Instant}
    (claim : RunRequest → RunRequest × JobLease)
    (hclaim : ∀ row, (claim row).2.runRequestId = row.id ∧
      (claim row).1 = { row with status := .leased, attemptCount := row.attemptCount + 1 }) :
    s.Conserves now ((s.selected now).map fun candidate => claim candidate.1) ↔ s.FirstOnPage now := by
  have hpage {row : RunRequest} (hfirst : s.First now row) :
      row ∈ (s.queue now).take 100 ↔
        (s.requests.countP fun other => s.isDue now other && earlier other row) < 100 := by
    rw [mem_page_queue hs.ids]
    exact and_iff_right ⟨hfirst.mem, hfirst.due⟩
  constructor
  · intro h row hfirst
    rw [← hpage hfirst]
    cases hselected : s.selected now with
    | none =>
      rw [hselected] at h
      exact absurd hfirst.toClaimable (h row)
    | some candidate =>
      rw [hselected] at h
      obtain ⟨first, hother, hid, -⟩ := h
      -- Both are first, so they are one row, and it was selected from the page.
      have hchosen := selected_some hadmitted hselected
      have hone : candidate.1 = row := by
        apply eq_of_key hs.ids hchosen.mem hfirst.mem
        rw [← (hclaim candidate.1).1, hid]
        exact id_of_dueBefore (hother.first row hfirst.toClaimable) (hfirst.first first hother.toClaimable)
      rw [← hone]
      exact ((mem_candidates hadmitted).mp (List.mem_of_find?_eq_some hselected)).1
  · intro h
    cases hselected : s.selected now with
    | none =>
      intro row hclaimable
      obtain ⟨first, hfirst⟩ := exists_first hs hclaimable
      obtain ⟨_, hfound⟩ := selected_first hs hadmitted hfirst ((hpage hfirst).mpr (h first hfirst))
      rw [hselected] at hfound
      exact nomatch hfound
    | some candidate =>
      obtain ⟨first, hfirst⟩ := exists_first hs (selected_some hadmitted hselected)
      obtain ⟨_, hfound⟩ := selected_first hs hadmitted hfirst ((hpage hfirst).mpr (h first hfirst))
      rw [hselected] at hfound
      obtain rfl := Option.some.inj hfound
      exact ⟨first, hfirst, hclaim first⟩

theorem recovered_sound (hs : s.Sound) (now : Instant) : (s.recoverExpiredJobs now).Sound := by
  have hmoves : s.Moves (fun _ _ => True) [] (s.recoverExpiredJobs now) :=
    recoverExpiredJobs_moves hs now fun _ _ _ => trivial
  exact hmoves.sound hs

theorem recovered_admitted (hs : s.Sound) (hadmitted : s.Admitted) (now : Instant) :
    (s.recoverExpiredJobs now).Admitted := by
  have hmoves : s.Moves (fun _ e => ∃ ending, e = .ended ending) [] (s.recoverExpiredJobs now) :=
    recoverExpiredJobs_moves hs now fun _ ending _ => ⟨ending, rfl⟩
  have hgrow : (s.recoverExpiredJobs now).definitions = s.definitions ++ [] := by
    rw [hmoves.definitions, List.append_nil]
  refine hmoves.toJobMoves.admitted hs (fun _ r h => ?_) hadmitted hgrow
  obtain ⟨_, h⟩ := h
  exact nomatch h

/-- A claim conserves work exactly when the first request that may be claimed is on the page. -/
theorem claim_conserves (hs : s.Sound) (hadmitted : s.Admitted) (token : String)
    {writerLease : SchedulerLease} {owner : String} {ttlSeconds : ℤ} {now : Instant}
    (howner : checkOwner owner = .ok ()) (httl : checkTtl ttlSeconds = .ok ())
    (hwriter : requireWriter writerLease owner = .ok ())
    (hlive : s.assertAuthority writerLease now = .ok ()) :
    (∃ claimed s', claimDue writerLease owner ttlSeconds token now s = .ok (claimed, s') ∧
        (s.recoverExpiredJobs now).Conserves now claimed) ↔
      (s.recoverExpiredJobs now).FirstOnPage now := by
  have hrecovered := recovered_sound hs now
  have hkept := recovered_admitted hs hadmitted now
  obtain ⟨s', heq⟩ := claimDue_eq token howner httl hwriter hlive hrecovered hkept
  rw [← selected_conserves hrecovered hkept
    (claimOf writerLease owner ttlSeconds token now (s.recoverExpiredJobs now)) fun _ => ⟨rfl, rfl⟩]
  constructor
  · intro h
    obtain ⟨claimed, _, hclaim, h⟩ := h
    rw [heq] at hclaim
    obtain ⟨rfl, -⟩ := Prod.mk.inj (Except.ok.inj hclaim)
    exact h
  · intro h
    exact ⟨_, s', heq, h⟩

/-- `claim_due` conserves work exactly when, after the recovery of expired leases, the first
request that may be claimed has fewer than a hundred due requests before it. -/
theorem claimDue_conserves (ops : List StoreOp) (writerLease : SchedulerLease) (owner token : String)
    (ttlSeconds : ℤ) (now : Instant) (howner : checkOwner owner = .ok ())
    (httl : checkTtl ttlSeconds = .ok ()) (hwriter : requireWriter writerLease owner = .ok ())
    (hlive : (run ops).assertAuthority writerLease now = .ok ()) :
    (∃ claimed s', claimDue writerLease owner ttlSeconds token now (run ops) = .ok (claimed, s') ∧
        ((run ops).recoverExpiredJobs now).Conserves now claimed) ↔
      ((run ops).recoverExpiredJobs now).FirstOnPage now :=
  claim_conserves (run_sound ops) (run_admitted ops) token howner httl hwriter hlive

theorem claimDue_conserves_nightly :
    (∃ claimed s', claimDue coreWriter "core" 30 "first" 0
        (run [.putSchedule nightly, .enqueueManual nightly "once" 0 ⟨"request", 0⟩,
          .acquireAuthority .runtimeWriter "core" 100 "writer" 0]) = .ok (claimed, s') ∧
        ((run [.putSchedule nightly, .enqueueManual nightly "once" 0 ⟨"request", 0⟩,
          .acquireAuthority .runtimeWriter "core" 100 "writer" 0]).recoverExpiredJobs 0).Conserves 0
            claimed) ↔
      ((run [.putSchedule nightly, .enqueueManual nightly "once" 0 ⟨"request", 0⟩,
        .acquireAuthority .runtimeWriter "core" 100 "writer" 0]).recoverExpiredJobs 0).FirstOnPage 0 :=
  claimDue_conserves _ coreWriter "core" "first" 30 0 rfl rfl rfl (by decide +kernel)

/-! ### A hundred requests without room -/

def hourly : ScheduleDefinition := { nightly with id := "hourly", name := "hourly" }

/-- Ids and keys that differ in their length. -/
def mark (i : Nat) : String := String.ofList (List.replicate (i + 1) 'x')

theorem mark_inj {i j : Nat} (h : mark i = mark j) : i = j := by
  have hlength := congrArg String.length h
  simpa [mark] using hlength

def hook (schedule : ScheduleDefinition) (i : Nat) (instant : Instant) : StoreOp :=
  .enqueueHook schedule (mark i) instant ⟨mark i, 0⟩

/-- The request that a hook adds. -/
def hooked (schedule : ScheduleDefinition) (i : Nat) (instant : Instant) : RunRequest :=
  { id := mark i
    scheduleId := schedule.id
    scheduleVersion := schedule.version
    occurrenceAt := instant
    availableAt := instant
    idempotencyKey := mark i
    workflowId := schedule.workflowId
    workflowVersion := schedule.workflowVersion
    workflowInput := schedule.workflowInput
    dispatchIdempotency := schedule.dispatchIdempotency
    maxAttempts := schedule.maxAttempts
    createdAt := 0 }

theorem apply_hook {schedule : ScheduleDefinition} {i : Nat} {instant : Instant}
    (hhead : s.requireHead schedule (· = .enabled) "hook schedule changed or is not enabled" = .ok ())
    (hdefined : (s.definition? schedule.id schedule.version).isSome) (hi : i < 300)
    (hnew : ∀ row ∈ s.requests, ∃ j < i, row.id = mark j ∧ row.idempotencyKey = mark j) :
    (hook schedule i instant).apply s = { s with requests := s.requests ++ [hooked schedule i instant] } := by
  have hkey : checkKey (mark i) = .ok () := by
    have hlength : (mark i).length = i + 1 := by simp [mark]
    exact if_pos (by omega)
  have hnonempty : mark i ≠ "" := by
    intro h
    have hlength := congrArg String.length h
    simp [mark] at hlength
  have hinsertable : s.insertable (hooked schedule i instant) = true := by
    have hfresh : ∀ row ∈ s.requests, row.id ≠ mark i ∧ row.idempotencyKey ≠ mark i := by
      intro row hrow
      obtain ⟨j, hj, hid, hkeys⟩ := hnew row hrow
      have hne : mark j ≠ mark i := fun h => absurd (mark_inj h) (by omega)
      exact ⟨hid ▸ hne, hkeys ▸ hne⟩
    have hmax := schedule.maxAttempts_range
    simp only [insertable, hooked, Bool.and_eq_true, List.all_eq_true]
    exact ⟨⟨⟨⟨⟨fun row hrow =>
      ⟨decide_eq_true (hfresh row hrow).1, decide_eq_true (hfresh row hrow).2⟩, hdefined⟩, rfl⟩,
      decide_eq_true hmax.1⟩, decide_eq_true hmax.2⟩, rfl⟩
  have hexec : s.enqueueHook schedule (mark i) instant ⟨mark i, 0⟩ =
      .ok (hooked schedule i instant, { s with requests := s.requests ++ [hooked schedule i instant] }) := by
    unfold enqueueHook requestFor
    rw [if_neg hnonempty, hkey, hhead]
    show insertOrGetRequest (hooked schedule i instant) s = _
    rw [insertOrGetRequest, if_pos hinsertable]
  have hdone : (hook schedule i instant).exec s =
      .ok { s with requests := s.requests ++ [hooked schedule i instant] } := congrArg commits hexec
  rw [StoreOp.apply, hdone]

/-- The one request the nightly schedule has room for is at work. -/
def opened : List StoreOp :=
  [.putSchedule nightly, .putSchedule hourly, .acquireAuthority .runtimeWriter "core" 100 "writer" 0,
    hook nightly 0 0, .claimDue coreWriter "core" 30 "first" 0]

/-- Then come a hundred more of the nightly schedule. -/
def backlog (n : Nat) : List StoreOp := opened ++ (List.range n).map fun i => hook nightly (i + 1) 0

/-- The first request of the nightly schedule, at work. -/
def atWork : RunRequest := { hooked nightly 0 0 with status := .leased, attemptCount := 1 }

/-- What is opened is evaluated once. -/
theorem opened_facts : (run opened).requests = [atWork] ∧
    ((run opened).requireHead nightly (· = .enabled) "hook schedule changed or is not enabled" = .ok () ∧
      (run opened).requireHead hourly (· = .enabled) "hook schedule changed or is not enabled" = .ok ()) ∧
    ((run opened).definition? nightly.id nightly.version = some nightly ∧
      (run opened).definition? hourly.id hourly.version = some hourly) ∧
    (∀ lease ∈ (run opened).leases, ¬lease.expiresAt ≤ 1) ∧
    (((run opened).head? hourly.id).any (fun head => head.status = .enabled) = true ∧
      ((run opened).head? nightly.id).any (fun head => head.status = .enabled) = true) ∧
    (run opened).assertAuthority coreWriter 1 = .ok () := by
  decide +kernel

theorem opened_requests : (run opened).requests = [atWork] := opened_facts.1

/-- The store with these requests. -/
def holding (rows : List RunRequest) : SchedulerStore := { run opened with requests := rows }

theorem holding_heads (rows : List RunRequest) :
    (holding rows).requireHead nightly (· = .enabled) "hook schedule changed or is not enabled" =
        .ok () ∧
      (holding rows).requireHead hourly (· = .enabled) "hook schedule changed or is not enabled" =
        .ok () := by
  have hopened :
      (run opened).requireHead nightly (· = .enabled) "hook schedule changed or is not enabled" =
          .ok () ∧
        (run opened).requireHead hourly (· = .enabled) "hook schedule changed or is not enabled" =
          .ok () :=
    opened_facts.2.1
  exact hopened

theorem holding_definitions (rows : List RunRequest) :
    (holding rows).definition? nightly.id nightly.version = some nightly ∧
      (holding rows).definition? hourly.id hourly.version = some hourly := by
  have hopened : (run opened).definition? nightly.id nightly.version = some nightly ∧
      (run opened).definition? hourly.id hourly.version = some hourly :=
    opened_facts.2.2.1
  exact hopened

theorem marked_rows {n : Nat} :
    ∀ row ∈ atWork :: (List.range n).map (fun i => hooked nightly (i + 1) 0),
      ∃ j < n + 1, row.id = mark j ∧ row.idempotencyKey = mark j := by
  intro row hrow
  cases List.mem_cons.mp hrow with
  | inl hfirst =>
    rw [hfirst]
    exact ⟨0, by omega, rfl, rfl⟩
  | inr hmore =>
    obtain ⟨i, hi, rfl⟩ := List.mem_map.mp hmore
    rw [List.mem_range] at hi
    exact ⟨i + 1, by omega, rfl, rfl⟩

theorem run_backlog {n : Nat} (hn : n ≤ 100) :
    run (backlog n) = holding (atWork :: (List.range n).map fun i => hooked nightly (i + 1) 0) := by
  induction n with
  | zero =>
    rw [show backlog 0 = opened from List.append_nil _]
    show run opened = { run opened with requests := [atWork] }
    rw [← opened_requests]
  | succ n ih =>
    have hops : backlog (n + 1) = backlog n ++ [hook nightly (n + 1) 0] := by
      simp [backlog, List.range_succ]
    have hnext : (hook nightly (n + 1) 0).apply _ = _ := apply_hook (holding_heads _).1
      (Option.isSome_of_eq_some (holding_definitions _).1) (by omega) marked_rows
    rw [hops, run_concat, ih (by omega), hnext, List.range_succ, List.map_append]
    rfl

/-- After them the hourly schedule has a request, and all its room. -/
def starved : List StoreOp := backlog 100 ++ [hook hourly 101 1]

def starvedRows : List RunRequest :=
  atWork :: (List.range 100).map (fun i => hooked nightly (i + 1) 0) ++ [hooked hourly 101 1]

theorem run_starved : run starved = holding starvedRows := by
  have hnext : (hook hourly 101 1).apply _ = _ := apply_hook (holding_heads _).2
    (Option.isSome_of_eq_some (holding_definitions _).2) (by omega) marked_rows
  rw [starved, run_concat, run_backlog (Nat.le_refl _), hnext]
  rfl

theorem starvedRows_cases {row : RunRequest} (h : row ∈ starvedRows) :
    row = atWork ∨ (∃ i, row = hooked nightly (i + 1) 0) ∨ row = hooked hourly 101 1 := by
  cases List.mem_append.mp h with
  | inr hlast => exact .inr (.inr (List.mem_singleton.mp hlast))
  | inl hfront =>
    cases List.mem_cons.mp hfront with
    | inl hfirst => exact .inl hfirst
    | inr hmore =>
      obtain ⟨i, -, rfl⟩ := List.mem_map.mp hmore
      exact .inr (.inl ⟨i, rfl⟩)

/-- No lease has expired by then. -/
theorem recover_holding (rows : List RunRequest) : (holding rows).recoverExpiredJobs 1 = holding rows := by
  have hnone : (holding rows).expiredJobs 1 = [] := by
    refine List.filterMap_eq_nil_iff.mpr fun lease hlease => ?_
    rw [if_neg (opened_facts.2.2.2.1 lease hlease)]
  rw [recoverExpiredJobs, hnone]
  rfl

theorem leasedCount_nightly : 1 ≤ (holding starvedRows).leasedCount nightly.id :=
  List.countP_pos_iff.mpr ⟨atWork, List.mem_cons_self .., rfl⟩

theorem leasedCount_hourly : (holding starvedRows).leasedCount hourly.id = 0 := by
  refine List.countP_eq_zero.mpr fun row hrow => ?_
  rcases starvedRows_cases hrow with rfl | ⟨i, rfl⟩ | rfl <;> simp [atWork, hooked, nightly, hourly]

/-- The nightly requests have no room, the hourly one is the first that has. -/
theorem hourly_first : (holding starvedRows).First 1 (hooked hourly 101 1) := by
  have hdefined := holding_definitions starvedRows
  have hnone {row : RunRequest} (hid : row.scheduleId = nightly.id)
      (hversion : row.scheduleVersion = nightly.version) : (holding starvedRows).hasRoom row = false := by
    have hfull := leasedCount_nightly
    unfold hasRoom
    rw [hid, hversion, hdefined.1]
    exact decide_eq_false (Nat.not_lt.mpr hfull)
  have hhead : (holding starvedRows).head? hourly.id = (run opened).head? hourly.id := rfl
  refine ⟨⟨List.mem_append_right _ (List.mem_singleton.mpr rfl), ?_, ?_⟩, fun other hother => ?_⟩
  · have henabled : ((run opened).head? hourly.id).any (fun head => head.status = .enabled) = true :=
      opened_facts.2.2.2.2.1.1
    simp only [isDue, Bool.and_eq_true]
    exact ⟨⟨⟨rfl, rfl⟩, rfl⟩, henabled⟩
  · unfold hasRoom
    rw [show (hooked hourly 101 1).scheduleId = hourly.id from rfl,
      show (hooked hourly 101 1).scheduleVersion = hourly.version from rfl, hdefined.2, leasedCount_hourly]
    rfl
  · have hroom := hother.room
    rcases starvedRows_cases hother.mem with rfl | ⟨i, rfl⟩ | rfl
    · rw [hnone rfl rfl] at hroom
      cases hroom
    · rw [hnone rfl rfl] at hroom
      cases hroom
    · exact dueBefore_iff.mpr le_rfl

theorem starved_not_onPage : ¬(holding starvedRows).FirstOnPage 1 := by
  intro h
  have hcount := h _ hourly_first
  have henabled : ((run opened).head? nightly.id).any (fun head => head.status = .enabled) = true :=
    opened_facts.2.2.2.2.1.2
  -- All hundred nightly requests are due before the hourly one.
  have hall : ((List.range 100).map fun i => hooked nightly (i + 1) 0).countP (fun other =>
      (holding starvedRows).isDue 1 other && earlier other (hooked hourly 101 1)) = 100 := by
    rw [List.countP_eq_length.mpr, List.length_map, List.length_range]
    intro row hrow
    obtain ⟨i, hi, rfl⟩ := List.mem_map.mp hrow
    rw [List.mem_range] at hi
    have hne : mark (i + 1) ≠ mark 101 := fun heq => absurd (mark_inj heq) (by omega)
    have hdue : (holding starvedRows).isDue 1 (hooked nightly (i + 1) 0) = true := by
      simp only [isDue, Bool.and_eq_true]
      exact ⟨⟨⟨rfl, rfl⟩, rfl⟩, henabled⟩
    have hearlier : earlier (hooked nightly (i + 1) 0) (hooked hourly 101 1) :=
      ⟨.inl Int.zero_lt_one, hne⟩
    rw [hdue, decide_eq_true hearlier]
    rfl
  have hpart : ((List.range 100).map fun i => hooked nightly (i + 1) 0).Sublist starvedRows :=
    (List.sublist_cons_self _ _).trans (List.sublist_append_left _ _)
  have hle := hpart.countP_le (p := fun other =>
    (holding starvedRows).isDue 1 other && earlier other (hooked hourly 101 1))
  rw [hall] at hle
  exact absurd hcount (Nat.not_lt.mpr hle)

/-- Nothing is claimed, though the hourly schedule has a request and room for it. -/
theorem claimDue_starves :
    (run starved).assertAuthority coreWriter 1 = .ok () ∧
      ¬∃ claimed s', claimDue coreWriter "core" 30 "second" 1 (run starved) = .ok (claimed, s') ∧
        ((run starved).recoverExpiredJobs 1).Conserves 1 claimed := by
  rw [run_starved]
  have hlive : (holding starvedRows).assertAuthority coreWriter 1 = .ok () := opened_facts.2.2.2.2.2
  have hs : (holding starvedRows).Sound := run_starved ▸ run_sound starved
  have hadmitted : (holding starvedRows).Admitted := run_starved ▸ run_admitted starved
  refine ⟨hlive, fun h => ?_⟩
  have honPage := (claim_conserves hs hadmitted "second" rfl rfl rfl hlive).mp h
  rw [recover_holding] at honPage
  exact starved_not_onPage honPage

end SchedulerStore
end Operant.Scheduler
