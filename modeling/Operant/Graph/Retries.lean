import Operant.Graph.Keys

/-! Retries and occurrences.

A failed attempt is retried while its number is below the bound of its node's policy.
Numbers run on across the occurrences of a node, and interrupted attempts have numbers
too, so a later occurrence finds part of its allowance used up.

`retries_per_occurrence`: every occurrence of every node is retried as often as its policy
allows exactly if no failure comes at a number at or above the bound before the
occurrence itself has failed that often. -/
namespace Operant.Graph
open Operant.Python Operant.Calls

/-- An attempt that failed, with the row it left and how many attempts of the row's
occurrence had failed by then. -/
structure KnownFailure where
  node : NodeRun
  attempt : NodeAttempt
  failed : Nat

/-- A failure in the occurrence the row is in. -/
def KnownFailure.isIn (f : KnownFailure) (node : NodeRun) : Bool :=
  f.node.id = node.id && f.node.iteration = node.iteration

/-- The failures of a history, the latest first. -/
def failuresIn : List Event → List KnownFailure
  | [] => []
  | .call _ (.finishNodeAttempt node attempt _) :: past =>
    if attempt.result = .failed then
      ⟨node, attempt, (failuresIn past).countP (·.isIn node) + 1⟩ :: failuresIn past
    else failuresIn past
  | _ :: past => failuresIn past

namespace World
variable (w : World)

def failures : List KnownFailure := failuresIn w.history

/-- A node that may be repeated waits for a retry after a failure exactly while fewer
attempts of the occurrence have failed than its policy allows. -/
def RetriesPerOccurrence : Prop :=
  ∀ f ∈ w.failures, ∀ spec ∈ w.store.definition.node? f.node.nodeId,
    spec.idempotencyClass ≠ .nonIdempotent →
      (f.node.status = .retryWait ↔ f.failed < spec.retryPolicy.maxAttempts)

/-- Neither earlier occurrences nor interrupted attempts have used up what an occurrence may
still try. -/
def AllowancesLeft : Prop :=
  ∀ f ∈ w.failures, ∀ spec ∈ w.store.definition.node? f.node.nodeId,
    spec.idempotencyClass ≠ .nonIdempotent →
      f.attempt.attemptNumber < spec.retryPolicy.maxAttempts ∨ spec.retryPolicy.maxAttempts ≤ f.failed

instance : Decidable w.RetriesPerOccurrence := by
  unfold RetriesPerOccurrence
  infer_instance

instance : Decidable w.AllowancesLeft := by
  unfold AllowancesLeft
  infer_instance

end World

theorem mem_failuresIn {history : List Event} {f : KnownFailure} (h : f ∈ failuresIn history) :
    f.attempt.result = .failed ∧
      ∃ s revision, .call s (.finishNodeAttempt f.node f.attempt revision) ∈ history := by
  fun_induction failuresIn history with
  | case1 => cases h
  | case2 s node attempt revision past hfailed ih =>
    cases List.mem_cons.mp h with
    | inl heq =>
      rw [heq]
      exact ⟨hfailed, s, revision, List.mem_cons_self ..⟩
    | inr hpast =>
      obtain ⟨hfailed', s', revision', hmem⟩ := ih hpast
      exact ⟨hfailed', s', revision', List.mem_cons_of_mem _ hmem⟩
  | case3 s node attempt revision past hfailed ih | case4 event past hother ih =>
    obtain ⟨hfailed', s', revision', hmem⟩ := ih h
    exact ⟨hfailed', s', revision', List.mem_cons_of_mem _ hmem⟩

theorem failuresIn_of_isRead {s : GraphStore} {c : RepoCall} {past : List Event} (h : c.isRead = true) :
    failuresIn (.call s c :: past) = failuresIn past := by
  cases c with
  | finishNodeAttempt => cases h
  | _ => rfl

/-- The latest failure of an occurrence has counted them all. -/
theorem latest_failed {history : List Event} {node : NodeRun} {n : Nat}
    (h : (failuresIn history).countP (·.isIn node) = n + 1) :
    ∃ f ∈ failuresIn history, f.isIn node = true ∧ f.failed = n + 1 := by
  fun_induction failuresIn history with
  | case1 => cases h
  | case2 s row attempt revision past hfailed ih =>
    rw [List.countP_cons] at h
    by_cases hin : row.id = node.id ∧ row.iteration = node.iteration
    · have hsame : ∀ f : KnownFailure, f.isIn row = f.isIn node := fun f => by
        simp [KnownFailure.isIn, hin.1, hin.2]
      have hself : KnownFailure.isIn ⟨row, attempt, (failuresIn past).countP (·.isIn row) + 1⟩ node = true := by
        simp [KnownFailure.isIn, hin.1, hin.2]
      rw [if_pos hself] at h
      refine ⟨_, List.mem_cons_self .., hself, ?_⟩
      rw [List.countP_congr fun f _ => by rw [hsame f]]
      exact h
    · have hnot : KnownFailure.isIn ⟨row, attempt, (failuresIn past).countP (·.isIn row) + 1⟩ node = false := by
        simpa [KnownFailure.isIn] using hin
      rw [hnot] at h
      obtain ⟨f, hmem, hf⟩ := ih (by simpa using h)
      exact ⟨f, List.mem_cons_of_mem _ hmem, hf⟩
  | case3 s row attempt revision past hfailed ih | case4 event past hother ih => exact ih h

namespace Recorded
variable {start : GraphStore} {w : World}

/-- A finished attempt is an attempt of the node whose row it left. -/
theorem finished_owner (h : Recorded start Reason Done w) (hi : start.Initial) {x node : NodeRun}
    {attempt : NodeAttempt} (hx : x ∈ w.store.nodeRuns) (why : FinishReason w x node attempt) :
    attempt.nodeRunId = x.id := by
  obtain ⟨a, ha, hid, howner⟩ := h.owner hi hx why.active
  obtain ⟨seen, ⟨s, hs, hmem⟩, hseen, hnode, -⟩ := why.same
  obtain ⟨b, hb, hsame, -⟩ := h.attempt hi.keyed hs hmem
  have heq : b = a := (h.keyed hi.keyed).attempt_eq hb ha (hsame.id.trans (hseen.trans hid.symm))
  rw [hnode, ← hsame.nodeRunId, heq, howner]

/-- It keeps the number it was started with. -/
theorem finished_number (h : Recorded start Reason Done w) (hi : start.Initial) {x node : NodeRun}
    {attempt y : NodeAttempt} (why : FinishReason w x node attempt) (hy : y ∈ w.store.attempts)
    (hid : y.id = attempt.id) : y.attemptNumber = attempt.attemptNumber := by
  obtain ⟨seen, ⟨s, hs, hmem⟩, hseen, -, hnumber, -⟩ := why.same
  obtain ⟨b, hb, hsame, -⟩ := h.attempt hi.keyed hs hmem
  have heq : b = y := (h.keyed hi.keyed).attempt_eq hb hy (hsame.id.trans (hseen.trans hid.symm))
  rw [hnumber, ← hsame.attemptNumber, heq]

/-- Attempts are numbered from one. -/
theorem number_pos (h : Recorded start Reason Done w) (hi : start.Initial) {a : NodeAttempt}
    (ha : a ∈ w.store.attempts) : 1 ≤ a.attemptNumber := by
  induction h generalizing a with
  | start =>
    rw [hi.attempts] at ha
    cases ha
  | returned _ _ ih => exact ih ha
  | @call w c s' hw effect reason ih =>
    rcases hw.attempt_before hi.keyed effect reason ha with ⟨b, hb, hsame⟩ | ⟨_, _, _, rfl⟩
    · rw [hsame.attemptNumber]
      exact ih hb
    · cases reason with
      | read hr => cases hr
      | startNodeAttempt _ _ why =>
        obtain ⟨_, -, -, hnumber⟩ := why.counted
        omega

/-- An earlier failure of the node that is finished now came at a smaller number. -/
theorem earlier_failure (h : Recorded start Reason Done w) (hi : start.Initial) {x node : NodeRun}
    {attempt y : NodeAttempt} (hx : x ∈ w.store.nodeRuns) (why : FinishReason w x node attempt)
    (hy : y ∈ w.store.attempts) (hid : y.id = attempt.id) (hrun : y.result = .running)
    {f : KnownFailure} (hf : f ∈ w.failures) (howner : f.attempt.nodeRunId = x.id) :
    f.attempt.attemptNumber < attempt.attemptNumber := by
  obtain ⟨hfailed, s, revision, hcall⟩ := mem_failuresIn hf
  have hstored : f.attempt ∈ w.store.attempts :=
    h.result hi.keyed hcall rfl (by rw [hfailed]; decide)
  have hne : f.attempt.id ≠ attempt.id := by
    intro heq
    have hsame : f.attempt = y := (h.keyed hi.keyed).attempt_eq hstored hy (heq.trans hid.symm)
    rw [hsame, hrun] at hfailed
    cases hfailed
  rw [← h.finished_number hi why hy hid]
  exact h.last hi hx why.was why.active hstored howner hne hy hid

/-- Failures of one occurrence come at growing numbers, so each has counted no more than its
own. -/
theorem failed_le (h : Recorded start Reason Done w) (hi : start.Initial) :
    ∀ f ∈ w.failures, f.attempt.nodeRunId = f.node.id ∧ f.failed ≤ f.attempt.attemptNumber ∧
      ∃ spec, w.store.definition.node? f.node.nodeId = some spec ∧
        (spec.idempotencyClass ≠ .nonIdempotent →
          (f.node.status = .retryWait ↔ f.attempt.attemptNumber < spec.retryPolicy.maxAttempts)) := by
  induction h with
  | start => exact fun f hf => absurd hf List.not_mem_nil
  | returned _ _ ih => exact ih
  | @call w c s' hw effect reason ih =>
    have hdefinition : s'.definition = w.store.definition := effect.definition
    show ∀ f ∈ failuresIn (.call w.store c :: w.history), f.attempt.nodeRunId = f.node.id ∧
      f.failed ≤ f.attempt.attemptNumber ∧ ∃ spec, s'.definition.node? f.node.nodeId = some spec ∧ _
    rw [hdefinition]
    cases effect with
    | read hr =>
      rw [failuresIn_of_isRead hr]
      exact ih
    | updateRun | updateNodeRun | startNodeAttempt | updateAttempt => exact ih
    | @finishNodeAttempt node attempt revision x y hx hy hid hrun =>
      cases reason with
      | read hr => cases hr
      | @finishNodeAttempt _ _ _ x' hx' hnode why =>
        by_cases hfailed : attempt.result = .failed
        · rw [failuresIn, if_pos hfailed]
          intro f hf
          cases List.mem_cons.mp hf with
          | inr hpast => exact ih f hpast
          | inl hnew =>
            obtain ⟨spec, hspec, hretry⟩ := why.retried hfailed
            rw [hnew]
            refine ⟨(hw.finished_owner hi hx'.mem why).trans hx'.id, ?_, spec, hnode ▸ hspec, hretry⟩
            cases hcount : (failuresIn w.history).countP (·.isIn node) with
            | zero =>
              have hpos := hw.number_pos hi hy
              rw [hw.finished_number hi why hy hid] at hpos
              show 0 + 1 ≤ attempt.attemptNumber
              omega
            | succ n =>
              obtain ⟨g, hg, hin, hlatest⟩ := latest_failed hcount
              obtain ⟨howner, hle, -⟩ := ih g hg
              have hgid : g.node.id = node.id := by
                simp only [KnownFailure.isIn, Bool.and_eq_true, decide_eq_true_eq] at hin
                exact hin.1
              have hlt := hw.earlier_failure hi hx'.mem why hy hid hrun hg
                (howner.trans (hgid.trans hx'.id.symm))
              show n + 1 + 1 ≤ attempt.attemptNumber
              omega
        · rw [failuresIn, if_neg hfailed]
          exact ih

end Recorded

/-! ### A loop around an action that may be tried twice -/

def retriedWorkflow : WorkflowDefinition :=
  { redoWorkflow .pure with
    nodes := (redoWorkflow .pure).nodes.map fun node =>
      { node with retryPolicy := { maxAttempts := 2 } } }

def retriedRequest : RunRequest := { definition := retriedWorkflow, runId := "run", nodeRunId := id }

def retriedStore : GraphStore := { redoStore .pure with definition := retriedWorkflow }

theorem retriedStore_created : createRun retriedRequest = .ok retriedStore := rfl

/-- The attempt fails. -/
def failed (attemptId : String) : List (Move (Nat × Op)) :=
  [.start (3, .completeAttempt { attemptId, succeeded := false })] ++ steps 0 40

/-- The first attempt fails, the second would be the last. -/
def failedTwice : List (Move (Nat × Op)) :=
  [.start (0, .startRun 0)] ++ steps 0 3 ++
    [.start (0, .startAttempt { nodeRunId := "work", attemptId := "a" })] ++ steps 0 9 ++ failed "a" ++
    [.start (0, .startAttempt { nodeRunId := "work", attemptId := "b" })] ++ steps 0 9 ++ failed "b"

theorem retries_per_occurrence {backend : Backend} {args : RunRequest} {start : GraphStore}
    (hcreate : createRun args = .ok start) (moves : List (Move (Nat × Op))) :
    (worldAfter backend start moves).RetriesPerOccurrence ↔
      (worldAfter backend start moves).AllowancesLeft := by
  have hi := createRun_initial hcreate
  have hall := (played_recorded backend hi.keyed moves).failed_le hi
  constructor
  · intro h f hf spec hspec hclass
    obtain ⟨-, hle, spec', hspec', hretry⟩ := hall f hf
    obtain rfl : spec' = spec := Option.some.inj (hspec'.symm.trans hspec)
    have hlaw := h f hf spec' hspec hclass
    rw [hretry hclass] at hlaw
    omega
  · intro h f hf spec hspec hclass
    obtain ⟨-, hle, spec', hspec', hretry⟩ := hall f hf
    obtain rfl : spec' = spec := Option.some.inj (hspec'.symm.trans hspec)
    have hleft := h f hf spec' hspec hclass
    rw [hretry hclass]
    omega

/-- In the first occurrence the policy is what is followed. -/
theorem retries_per_occurrence_first :
    (worldAfter .sqlite retriedStore failedTwice).failures.length = 2 ∧
      (worldAfter .sqlite retriedStore failedTwice).RetriesPerOccurrence :=
  ⟨by decide +kernel, (retries_per_occurrence retriedStore_created failedTwice).mpr (by decide +kernel)⟩

/-- The second occurrence has failed once and may not try again. -/
theorem second_occurrence_is_not_retried :
    ¬∀ (backend : Backend) (args : RunRequest) (start : GraphStore), createRun args = .ok start →
      ∀ moves : List (Move (Nat × Op)), (worldAfter backend start moves).RetriesPerOccurrence := by
  intro h
  have hretries := h .sqlite retriedRequest retriedStore retriedStore_created
    (workedTwice none none ++ failed "b")
  revert hretries
  decide +kernel

end Operant.Graph
