import Operant.Graph.Stops
import Operant.Graph.Finality

/-! Unknown writes are never lost or replayed.

A marked attempt of a NON_IDEMPOTENT node whose outcome nobody has committed keeps its
node running or in reconciliation, and its run open, as long as the stops are clean. -/
namespace Operant.Graph
open Operant.Calls

variable {start : GraphStore} {w : World}

/-! ### Unknown writes are kept -/

/-- `mark_side_effect_started` has left its mark on the attempt. -/
def World.Marked (w : World) (attemptId : String) : Prop :=
  ∃ s seen attempt, .call s (.updateAttempt .markSideEffectStarted seen attempt) ∈ w.history ∧
    attempt.id = attemptId

/-- The call is the mark. -/
def RepoCall.isMark : RepoCall → Bool
  | .updateAttempt site _ _ => site = .markSideEffectStarted
  | _ => false

/-- Unless the last call is the mark itself, the mark was there before. -/
theorem World.Marked.before {c : RepoCall} {s' : GraphStore} {attemptId : String}
    (h : World.Marked { store := s', history := .call w.store c :: w.history } attemptId)
    (hc : c.isMark = true → ∀ attempt, c.attempt? = some attempt → attempt.id ≠ attemptId) :
    w.Marked attemptId := by
  obtain ⟨s, seen, attempt, hs, hid⟩ := h
  rcases List.mem_cons.mp hs with heq | hs
  · cases heq
    exact absurd hid (hc rfl attempt rfl)
  · exact ⟨s, seen, attempt, hs, hid⟩

/-- `complete_attempt` has committed an outcome for the attempt. -/
def World.Finished (w : World) (attemptId : String) : Prop :=
  ∃ s node attempt revision, .call s (.finishNodeAttempt node attempt revision) ∈ w.history ∧
    attempt.id = attemptId

/-- How a node run `x` keeps the unknown write of its attempt `a`. -/
inductive KeepsWrite (x : NodeRun) (a : NodeAttempt) : Prop where
  | running (status : x.status = .running) (active : x.activeAttemptId = some a.id)
    (write : a.result = .running ∧ a.sideEffectState = .started ∨
      a.result = .interrupted ∧ a.sideEffectState = .unknown)
  | manual (status : x.status = .manualReconcileRequired)

theorem KeepsWrite.not_idle {x : NodeRun} {a : NodeAttempt} (h : KeepsWrite x a)
    (hrun : x.status ≠ .running) (hmanual : x.status ≠ .manualReconcileRequired) : False := by
  cases h with
  | running status => exact hrun status
  | manual status => exact hmanual status

theorem KeepsWrite.not_rest {x : NodeRun} {a : NodeAttempt} (h : KeepsWrite x a) :
    ¬(x.status.isNonterminal = false ∧ x.status ≠ .manualReconcileRequired) := by
  intro hrest
  refine h.not_idle (fun hrun => ?_) hrest.2
  have hnonterminal := hrest.1
  rw [hrun] at hnonterminal
  cases hnonterminal

/-- A write of the node row. -/
theorem KeepsWrite.written (hw : Recorded start Reason Done w) (hi : start.Initial) (hc : w.Clean)
    {site : Site} {via : List (EdgeSpec × NodeRun)} {node x : NodeRun} {revision : Nat}
    {a : NodeAttempt} (h : KeepsWrite x a) (hx : w.store.Replaces node revision x)
    (hnow : CleanStops (.updateNodeRun site via node revision) w.store)
    (why : NodeReason w x node site) (ha : a ∈ w.store.attempts) {spec : NodeSpec}
    (hspec : w.store.definition.node? x.nodeId = some spec)
    (hclass : spec.idempotencyClass = .nonIdempotent) : KeepsWrite node a := by
  have settled (active : x.activeAttemptId = some a.id) (hs : Settled a node.status)
      (write : a.result = .running ∧ a.sideEffectState = .started ∨
        a.result = .interrupted ∧ a.sideEffectState = .unknown) : KeepsWrite node a := by
    rcases write with ⟨hr, -⟩ | ⟨hint, hu⟩
    · exact absurd hr hs.ended
    · exact .manual (hs.manual hint hu)
  cases h with
  | running status active write =>
    cases why with
    | stopped _ why _ => exact settled active (why.settles hw hi hc ha active) write
    | reset why _ => exact settled active (why.settles hw hi ha active hspec hclass) write
    | advanced => exact absurd status (hnow x hx.mem hx.id)
    | idle was => exact absurd status was.1
    | inputs same active' => exact .running (same.trans status) (active'.trans active) write
  | manual status =>
    cases why with
    | stopped nonterminal =>
      rw [status] at nonterminal
      cases nonterminal
    | reset why =>
      have hrun := why.running
      rw [status] at hrun
      cases hrun
    | advanced _ _ was => rcases was with h | h <;> rw [status] at h <;> cases h
    | idle was => exact absurd status was.2
    | inputs same => exact .manual (same.trans status)

namespace Recorded

/-- The node run an attempt was read for is the attempt's own. -/
theorem saw_owner (hw : Recorded start Reason Done w) (hi : start.Initial) {x : NodeRun}
    {seen : NodeAttempt} (hx : w.SawNode x) (hseen : w.SawAttempt seen)
    (howner : x.activeAttemptId = some seen.id ∨ seen.nodeRunId = x.id) : seen.nodeRunId = x.id := by
  rcases howner with hactive | howner
  · obtain ⟨s, hs, hx⟩ := hx
    obtain ⟨s', hs', hseen⟩ := hseen
    have hpast : ∃ past, Recorded start Reason Done { store := s, history := past } := by
      obtain ⟨c, hc⟩ := hs
      obtain ⟨past, -, hpast, -⟩ := hw.reason hc
      exact ⟨past, hpast⟩
    obtain ⟨past, hpast⟩ := hpast
    obtain ⟨a, ha, haid, howner⟩ := hpast.owner hi hx hactive
    obtain ⟨b, hb, hsame, -⟩ := hw.attempt hi.keyed hs ha
    obtain ⟨b', hb', hsame', -⟩ := hw.attempt hi.keyed hs' hseen
    have heq : b = b' := by
      refine (hw.keyed hi.keyed).attempt_eq hb hb' ?_
      rw [hsame.id, hsame'.id, haid]
    rw [← hsame'.nodeRunId, ← heq, hsame.nodeRunId, howner]
  · exact howner

/-- A marked attempt has been stored. -/
theorem marked_stored (hw : Recorded start Reason Done w) (hk : start.Keyed) {attemptId : String}
    (hm : w.Marked attemptId) : ∃ b ∈ w.store.attempts, b.id = attemptId := by
  obtain ⟨s, seen, attempt, hs, hid⟩ := hm
  obtain ⟨past, hsuffix, hpast, hreason⟩ := hw.reason hs
  cases hreason with
  | read h => cases h
  | updateAttempt saw _ why =>
    obtain ⟨s', ⟨c, hc⟩, hseen⟩ := saw
    obtain ⟨b, hb, hsame, -⟩ := hw.attempt hk ⟨c, hsuffix.subset hc⟩ hseen
    exact ⟨b, hb, hsame.id.trans (why.same.id.symm.trans hid)⟩

/-- A marked attempt of a NON_IDEMPOTENT node whose outcome nobody has committed: the run is
not closed, and its node keeps the write. -/
theorem keeps_write (hw : Recorded start Reason Done w) (hi : start.Initial) (hc : w.Clean)
    {a : NodeAttempt} (ha : a ∈ w.store.attempts) (hm : w.Marked a.id) (hf : ¬w.Finished a.id)
    {x : NodeRun} (hx : x ∈ w.store.nodeRuns) (hid : x.id = a.nodeRunId) {spec : NodeSpec}
    (hspec : w.store.definition.node? x.nodeId = some spec)
    (hclass : spec.idempotencyClass = .nonIdempotent) :
    w.store.run.status.closes = false ∧ KeepsWrite x a := by
  induction hw generalizing a x with
  | start =>
    rw [hi.attempts] at ha
    cases ha
  | @returned w op hw done ih =>
    refine ih (fun s c h => hc s c (List.mem_cons_of_mem _ h)) ha ?_ (fun h => hf ?_) hx hid hspec
    · obtain ⟨s, seen, attempt, hs, hid⟩ := hm
      rcases List.mem_cons.mp hs with heq | hs
      · cases heq
      · exact ⟨s, seen, attempt, hs, hid⟩
    · obtain ⟨s, node, attempt, revision, hs, hid⟩ := h
      exact ⟨s, node, attempt, revision, List.mem_cons_of_mem _ hs, hid⟩
  | @call w c s' hw effect reason ih =>
    have hk := hw.keyed hi.keyed
    have hc' : w.Clean := fun s c h => hc s c (List.mem_cons_of_mem _ h)
    have hnow : CleanStops c w.store := hc _ _ (List.mem_cons_self ..)
    have hf' : ¬w.Finished a.id := by
      intro h
      obtain ⟨s, node, attempt, revision, hs, hid⟩ := h
      exact hf ⟨s, node, attempt, revision, List.mem_cons_of_mem _ hs, hid⟩
    have hspec' : w.store.definition.node? x.nodeId = some spec := by
      rw [← effect.definition]
      exact hspec
    -- Unless this call is the mark itself, the mark was there before.
    have hm' : (c.isMark = true → ∀ attempt, c.attempt? = some attempt → attempt.id ≠ a.id) →
        w.Marked a.id := fun h => hm.before h
    cases effect with
    | read h =>
      refine ih hc' ha (hm' fun _ attempt heq => ?_) hf' hx hid hspec'
      rw [RepoCall.attempt?_of_isRead h] at heq
      cases heq
    | updateRun =>
      have hold := ih hc' ha (hm' (fun h => nomatch h)) hf' hx hid hspec'
      cases reason with
      | read h => cases h
      | updateRun why =>
        refine ⟨?_, hold.2⟩
        refine Bool.not_eq_true _ ▸ fun hcloses => ?_
        rcases why.settled hw hi hc' hnow hcloses with hbefore | hrest
        · rw [hold.1] at hbefore
          cases hbefore
        · exact hold.2.not_rest (hrest x hx)
    | @updateNodeRun site via node revision y hy =>
      rcases (GraphStore.mem_putNode hy.mem hy.id x).mp hx with heq | ⟨hx, -⟩
      · subst heq
        cases reason with
        | read h => cases h
        | updateNodeRun hz hnode why _ =>
          rw [hnode] at hspec'
          have hold := ih hc' ha (hm' (fun h => nomatch h)) hf' hz.mem (hz.id.trans hid) hspec'
          exact ⟨hold.1, hold.2.written hw hi hc' hz hnow why ha hspec' hclass⟩
      · exact ih hc' ha (hm' (fun h => nomatch h)) hf' hx hid hspec'
    | @startNodeAttempt requested node attempt revision y hy hfresh =>
      have hbefore := hm' (fun h => nomatch h)
      have ha' : a ∈ w.store.attempts := by
        rcases List.mem_append.mp ha with ha | ha
        · exact ha
        · obtain ⟨b, hb, hba⟩ := hw.marked_stored hi.keyed hbefore
          rw [List.mem_singleton.mp ha] at hba
          exact absurd hba (hfresh b hb)
      rcases (GraphStore.mem_putNode (s := { w.store with attempts := w.store.attempts ++ [attempt] })
        hy.mem hy.id x).mp hx with heq | ⟨hx, -⟩
      · subst heq
        cases reason with
        | read h => cases h
        | startNodeAttempt hz hnode why =>
          rw [hnode] at hspec'
          have hold := ih hc' ha' hbefore hf' hz.mem (hz.id.trans hid) hspec'
          exact (hold.2.not_idle (by rcases why.was with h | h <;> rw [h] <;> decide)
            (by rcases why.was with h | h <;> rw [h] <;> decide)).elim
      · exact ih hc' ha' hbefore hf' hx hid hspec'
    | @finishNodeAttempt node attempt revision y z hy hz hzid hzrun =>
      have hne : a.id ≠ attempt.id :=
        fun h => hf ⟨_, node, attempt, revision, List.mem_cons_self .., h.symm⟩
      have ha' : a ∈ w.store.attempts := by
        rcases (GraphStore.mem_putAttempt hz hzid a).mp ha with heq | ⟨ha, -⟩
        · exact absurd (congrArg NodeAttempt.id heq) hne
        · exact ha
      rcases (GraphStore.mem_putNode (s := w.store.putAttempt attempt) hy.mem hy.id x).mp hx with
        heq | ⟨hx, -⟩
      · subst heq
        cases reason with
        | read h => cases h
        | finishNodeAttempt hz hnode why =>
          rw [hnode] at hspec'
          have hold := ih hc' ha' (hm' (fun h => nomatch h)) hf' hz.mem (hz.id.trans hid) hspec'
          cases hold.2 with
          | running _ active => exact absurd (Option.some.inj (active.symm.trans why.active)) hne
          | manual status =>
            have hrun := why.was
            rw [status] at hrun
            cases hrun
      · exact ih hc' ha' (hm' (fun h => nomatch h)) hf' hx hid hspec'
    | @updateAttempt site seen attempt y hy hyid hyrun =>
      rcases (GraphStore.mem_putAttempt hy hyid a).mp ha with heq | ⟨ha, hne⟩
      · subst heq
        have hcall := hw.call (.updateAttempt hy hyid hyrun) reason
        obtain ⟨b, hb, hsame, -⟩ := hcall.attempt hi.keyed ⟨_, List.mem_cons_self ..⟩ hy
        have heq := (hcall.keyed hi.keyed).attempt_eq hb ha (hsame.id.trans hyid)
        subst heq
        obtain ⟨z, hz, hzid, hzrun, hzactive⟩ := hw.running_owned hi hc' hy hyrun
        have heq := hk.row_eq hz hx (hzid.trans (hsame.nodeRunId.symm.trans hid.symm))
        subst heq
        have hactive := hzactive.trans (congrArg some hyid)
        have hopen : w.store.run.status.closes = false :=
          Bool.not_eq_true _ ▸ fun hcloses => hw.closed_not_running hi hc' hcloses hx hzrun
        refine ⟨hopen, ?_⟩
        cases reason with
        | read h => cases h
        | updateAttempt saw hrun why =>
          cases why with
          | marked wrote =>
            refine .running hzrun hactive (.inl ?_)
            rw [wrote]
            exact ⟨hrun, rfl⟩
          | @stopped _ x' spec' result hsite sawNode howner isSpec ended wrote =>
            -- The write is known to be unknown: the mark is seen, or already was.
            have hmarked : w.Marked y.id := by
              rw [hyid]
              refine hm' fun h => ?_
              exact absurd (of_decide_eq_true h) hsite
            have hold := ih hc' hy hmarked (hyid ▸ hf') hx (hid.trans hsame.nodeRunId) hspec'
            have hstarted : y.sideEffectState = .started := by
              cases hold.2 with
              | running _ _ write =>
                rcases write with ⟨-, h⟩ | ⟨h, -⟩
                · exact h
                · rw [hyrun] at h
                  cases h
              | manual status =>
                rw [hzrun] at status
                cases status
            have hseen : seen.sideEffectState = .started :=
              (hnow hsite y hy hyid).symm.trans hstarted
            have hxid : x'.id = z.id := by
              rw [hid, ← hw.saw_owner hi sawNode saw howner, wrote]
              rfl
            have hnodeId : z.nodeId = x'.nodeId := by
              obtain ⟨s, hs, hmem⟩ := sawNode
              exact hw.nodeId hi.keyed hs hmem hx hxid
            rw [hnodeId, isSpec] at hspec'
            cases hspec'
            refine .running hzrun hactive (.inr ?_)
            rw [wrote]
            simp [NodeAttempt.stopped, unknownNonIdempotentWrite, hclass, hseen]
      · refine ih hc' ha (hm' fun _ attempt heq => ?_) hf' hx hid hspec'
        cases heq
        exact hne.symm

end Recorded

/-! ### Runs of concurrent callers -/

/-- The operations that returned. -/
def World.returnedOps (w : World) : List Op :=
  w.history.filterMap fun
    | .returned op => some op
    | .call .. => none

/-- The attempts an outcome was committed for. -/
def World.finishedAttempts (w : World) : List String :=
  w.history.filterMap fun
    | .call _ (.finishNodeAttempt _ attempt _) => some attempt.id
    | _ => none

/-- The class of the node an attempt belongs to. -/
def GraphStore.classOf (s : GraphStore) (attempt : NodeAttempt) : Option IdempotencyClass :=
  (s.nodeRun? attempt.nodeRunId).bind fun row =>
    (s.definition.node? row.nodeId).map NodeSpec.idempotencyClass

/-- `mark_side_effect_started` returned for an attempt of a NON_IDEMPOTENT node, and no
outcome was committed for it. -/
structure World.UnknownWrite (w : World) (attempt : NodeAttempt) : Prop where
  stored : attempt ∈ w.store.attempts
  marked : .markSideEffectStarted attempt.id ∈ w.returnedOps
  unfinished : attempt.id ∉ w.finishedAttempts
  nonIdempotent : w.store.classOf attempt = some .nonIdempotent

instance (w : World) (attempt : NodeAttempt) : Decidable (w.UnknownWrite attempt) :=
  decidable_of_iff (attempt ∈ w.store.attempts ∧ .markSideEffectStarted attempt.id ∈ w.returnedOps ∧
    attempt.id ∉ w.finishedAttempts ∧ w.store.classOf attempt = some .nonIdempotent)
    ⟨fun h => ⟨h.1, h.2.1, h.2.2.1, h.2.2.2⟩, fun h => ⟨h.stored, h.marked, h.unfinished, h.nonIdempotent⟩⟩

/-- The run has not ended as if the write were known, and since the mark returned no other
attempt of the node was started. -/
structure World.KeepsUnknownWrite (w : World) (attempt : NodeAttempt) : Prop where
  notLost : w.store.run.status ≠ .cancelled ∧ w.store.run.status ≠ .failed ∧
    w.store.run.status ≠ .completed
  notReplayed : ∀ later past s requested node other revision,
    w.history = later ++ .call s (.startNodeAttempt requested node other revision) :: past →
    .markSideEffectStarted attempt.id ∈ World.returnedOps { store := s, history := past } →
    other.nodeRunId ≠ attempt.nodeRunId

theorem World.mem_returnedOps {w : World} {op : Op} :
    op ∈ w.returnedOps ↔ .returned op ∈ w.history := by
  rw [returnedOps, List.mem_filterMap]
  constructor
  · intro h
    obtain ⟨event, hmem, heq⟩ := h
    cases event with
    | call => cases heq
    | returned => cases heq; exact hmem
  · exact fun h => ⟨.returned op, h, rfl⟩

theorem World.mem_finishedAttempts {w : World} {attemptId : String} :
    attemptId ∈ w.finishedAttempts ↔ w.Finished attemptId := by
  rw [finishedAttempts, List.mem_filterMap]
  constructor
  · intro h
    obtain ⟨event, hmem, heq⟩ := h
    cases event with
    | returned => cases heq
    | call s c =>
      cases c with
      | finishNodeAttempt node attempt revision =>
        cases heq
        exact ⟨s, node, attempt, revision, hmem, rfl⟩
      | getDefinition | getRun | updateRun | listNodeRuns | getNodeRun | updateNodeRun
      | startNodeAttempt | getAttempt | updateAttempt | listAttempts => cases heq
  · intro h
    obtain ⟨s, node, attempt, revision, hmem, rfl⟩ := h
    exact ⟨_, hmem, rfl⟩

namespace Recorded

theorem returned_marked (hw : Recorded start Reason Done w) {attemptId : String}
    (h : .markSideEffectStarted attemptId ∈ w.returnedOps) : w.Marked attemptId := by
  rw [World.mem_returnedOps] at h
  induction hw with
  | start => simp at h
  | call hw effect reason ih =>
    rcases List.mem_cons.mp h with heq | h
    · cases heq
    · obtain ⟨s, seen, attempt, hs, hid⟩ := ih h
      exact ⟨s, seen, attempt, List.mem_cons_of_mem _ hs, hid⟩
  | @returned w op hw done ih =>
    have marked : w.Marked attemptId := by
      rcases List.mem_cons.mp h with heq | h
      · cases heq
        obtain ⟨s, seen, attempt, hid, hs⟩ := done
        exact ⟨s, seen, attempt, hs, hid⟩
      · exact ih h
    obtain ⟨s, seen, attempt, hs, hid⟩ := marked
    exact ⟨s, seen, attempt, List.mem_cons_of_mem _ hs, hid⟩

theorem keeps_unknown_write (hw : Recorded start Reason Done w) (hi : start.Initial) (hc : w.Clean)
    {attempt : NodeAttempt} (h : w.UnknownWrite attempt) : w.KeepsUnknownWrite attempt := by
  have hunfinished : ¬w.Finished attempt.id :=
    fun hf => h.unfinished (World.mem_finishedAttempts.mpr hf)
  obtain ⟨x, hrow, hclass⟩ := Option.bind_eq_some_iff.mp h.nonIdempotent
  obtain ⟨spec, hspec, hclass⟩ := Option.map_eq_some_iff.mp hclass
  obtain ⟨hx, hid⟩ := GraphStore.nodeRun?_some hrow
  constructor
  · have hopen := (hw.keeps_write hi hc h.stored (hw.returned_marked h.marked) hunfinished hx hid
      hspec hclass).1
    refine ⟨fun heq => ?_, fun heq => ?_, fun heq => ?_⟩ <;> rw [heq] at hopen <;> cases hopen
  · intro later past s requested node other revision heq hmarked howner
    obtain ⟨hpast, hreason⟩ := hw.past heq
    have hfound : w.Found s := ⟨.startNodeAttempt requested node other revision, by rw [heq]; simp⟩
    have hsuffix : past <:+ w.history := by
      rw [heq]
      exact (List.suffix_cons ..).trans (List.suffix_append ..)
    have hm := hpast.returned_marked hmarked
    obtain ⟨a, ha, haid⟩ := hpast.marked_stored hi.keyed hm
    obtain ⟨b, hb, hsame, -⟩ := hw.attempt hi.keyed hfound ha
    have hba := (hw.keyed hi.keyed).attempt_eq hb h.stored (hsame.id.trans haid)
    subst hba
    cases hreason with
    | read hr => cases hr
    | startNodeAttempt hz _ why =>
      have hzid := why.nodeRunId.symm.trans (howner.trans hsame.nodeRunId)
      have hnodeId := hw.nodeId hi.keyed hfound hz.mem hx
        (hzid.trans (hsame.nodeRunId.symm.trans hid.symm))
      rw [hnodeId, hw.definition, ← hpast.definition] at hspec
      have hkept := hpast.keeps_write hi (hc.past hsuffix) ha (haid ▸ hm) (fun hf => hunfinished ?_)
        hz.mem hzid hspec hclass
      · exact hkept.2.not_idle (by rcases why.was with h | h <;> rw [h] <;> decide)
          (by rcases why.was with h | h <;> rw [h] <;> decide)
      · obtain ⟨s', node', attempt', revision', hs', hid'⟩ := hf
        exact ⟨s', node', attempt', revision', hsuffix.subset hs', hid'.trans haid⟩

end Recorded

/-- What a pool of callers has done to a new run. -/
def worldAfter (backend : Backend) (start : GraphStore) (moves : List (Move (Nat × Op))) : World :=
  (Pool.play (callers backend) (fresh start) moves).world

/-- Unknown writes are neither lost nor replayed in a run whose stops are clean. -/
theorem unknown_writes_kept {backend : Backend} {args : RunRequest} {start : GraphStore}
    (hcreate : createRun args = .ok start) (moves : List (Move (Nat × Op)))
    (hclean : CallsMeet backend CleanStops start moves) (attempt : NodeAttempt)
    (h : (worldAfter backend start moves).UnknownWrite attempt) :
    (worldAfter backend start moves).KeepsUnknownWrite attempt := by
  have hi := createRun_initial hcreate
  have hw := played_recorded backend hi.keyed moves
  exact hw.keeps_unknown_write hi (history_meets hclean (by simp)) h

/-- The only node is running, and its write has been marked. -/
def startedAndMarked : List (Move (Nat × Op)) :=
  [.start (0, .startRun 0)] ++ steps 0 3 ++
    [.start (0, .startAttempt { nodeRunId := "work", attemptId := "a" })] ++ steps 0 9 ++
    [.start (0, .markSideEffectStarted "a")] ++ steps 0 5

/-- A `cancel_run` that comes afterwards leaves the run to be reconciled. -/
theorem unknown_writes_kept_solo :
    (worldAfter .sqlite soloStore
      (startedAndMarked ++ [.start (0, .cancelRun)] ++ steps 0 12)).KeepsUnknownWrite
      { id := "a", nodeRunId := "work", attemptNumber := 1, result := .interrupted,
        sideEffectState := .unknown, idempotencyKey := some "run:work:0" } :=
  unknown_writes_kept soloStore_created _ (by decide) _ (by decide)

/-- A `cancel_run` that has read the attempt before the mark writes over the mark, and
cancels the run. -/
theorem cancel_loses_unknown_write :
    ¬∀ (backend : Backend) (args : RunRequest) (start : GraphStore), createRun args = .ok start →
      ∀ (moves : List (Move (Nat × Op))) (attempt : NodeAttempt),
        (worldAfter backend start moves).UnknownWrite attempt →
        (worldAfter backend start moves).KeepsUnknownWrite attempt := by
  intro h
  have hkept := h .sqlite soloRequest soloStore soloStore_created
    ([.start (0, .startRun 0)] ++ steps 0 3 ++
      [.start (0, .startAttempt { nodeRunId := "work", attemptId := "a" })] ++ steps 0 9 ++
      [.start (0, .cancelRun)] ++ steps 0 3 ++
      [.start (0, .markSideEffectStarted "a")] ++ steps 1 5 ++ steps 0 9)
    { id := "a", nodeRunId := "work", attemptNumber := 1, result := .cancelled,
      sideEffectState := .notStarted, idempotencyKey := some "run:work:0" } (by decide)
  have hlost := hkept.notLost.1
  revert hlost
  decide

end Operant.Graph
