import Operant.Graph.Callers

/-! A terminal run stays terminal.

`_save_run(get_run(..))` and `_finish_if_terminal` write over a run they have just read
without another look at its status. Between the check an operation made at its start and
that read, another one may have ended the run; the revision is then the new one, and the
write goes through. Where no such read finds an ended run, an ended run is never touched
again. -/
namespace Operant.Graph
open Operant.Calls

/-- A read of the run that is written over unchecked finds a run that has not ended. -/
def RereadsLive : RepoCall → GraphStore → Prop
  | .getRun .saveRun, s => s.run.status.isTerminal = false
  | .getRun .finishIfTerminal, s => s.run.status.isTerminal = false
  | _, _ => True

instance (c : RepoCall) (s : GraphStore) : Decidable (RereadsLive c s) := by
  unfold RereadsLive
  split <;> infer_instance

/-- One call, in a history in which all those reads found a live run. -/
theorem RunReason.keeps_terminal {w : World} {scan : List NodeRun} {run : GraphWorkflowRun}
    (h : RunReason w scan run) (hmeets : ∀ s c, .call s c ∈ w.history → RereadsLive c s)
    (hterm : w.store.run.status.isTerminal = true) : run.status = w.store.run.status := by
  have live {site : Site} (hsite : site = .saveRun ∨ site = .finishIfTerminal)
      (hread : w.ReadRun site w.store.run) : False := by
    obtain ⟨s, hs, hrun⟩ := hread
    have hlive : s.run.status.isTerminal = false := by
      cases hsite with
      | inl h =>
        subst h
        exact hmeets s _ hs
      | inr h =>
        subst h
        exact hmeets s _ hs
    rw [hrun, hterm] at hlive
    cases hlive
  cases h with
  | started was => rw [hterm] at was; cases was
  | stopped read => exact (live (.inl rfl) read).elim
  | reread read => exact (live (.inl rfl) read).elim
  | refreshed was => rw [hterm] at was; cases was
  | recreated was => rw [hterm] at was; cases was
  | finished read => exact (live (.inr rfl) read).elim
  | accounted status => exact status

theorem move_keeps_terminal {backend : Backend} {start : GraphStore} (hk : start.Keyed)
    {moves : List (Move (Nat × Op))} (m : Move (Nat × Op))
    (hm : CallsMeet backend RereadsLive start (moves ++ [m]))
    (hterm : (after backend start moves).run.status.isTerminal = true) :
    (after backend start (moves ++ [m])).run.status = (after backend start moves).run.status := by
  have hplay : Pool.play (callers backend) (fresh start) (moves ++ [m]) =
      (Pool.play (callers backend) (fresh start) moves).move (callers backend) m := by
    rw [Pool.play_append]
    rfl
  have hrec := played_recorded backend hk (moves ++ [m])
  have hmeets := history_meets hm (by simp [fresh])
  unfold after at hterm ⊢
  change Recorded start Reason Done (Pool.play (callers backend) (fresh start) _).world at hrec
  rw [hplay] at hrec hmeets ⊢
  rcases move_world backend (Pool.play (callers backend) (fresh start) moves) m with
    heq | ⟨op, heq⟩ | ⟨c, s, effect, heq, -⟩
  · rw [heq]
  · rw [heq]
  · rw [heq] at hrec hmeets ⊢
    have hreason := (hrec.past (List.nil_append _).symm).2
    cases effect with
    | updateRun hrev =>
      cases hreason with
      | read h => cases h
      | updateRun why =>
        exact why.keeps_terminal (fun s' c' hc' => hmeets s' c' (List.mem_cons_of_mem _ hc')) hterm
    | read | updateNodeRun | startNodeAttempt | finishNodeAttempt | updateAttempt => rfl

theorem moves_keep_terminal {backend : Backend} {start : GraphStore} (hk : start.Keyed)
    (before later : List (Move (Nat × Op)))
    (hm : CallsMeet backend RereadsLive start (before ++ later))
    (hterm : (after backend start before).run.status.isTerminal = true) :
    (after backend start (before ++ later)).run.status = (after backend start before).run.status := by
  induction later using List.reverseRecOn with
  | nil => rw [List.append_nil]
  | append_singleton later m ih =>
    rw [← List.append_assoc] at hm ⊢
    have hkept := ih ((Pool.meets_append _ _ _ _ _).mp hm).1
    rw [← hkept] at hterm
    rw [← hkept]
    exact move_keeps_terminal hk m hm hterm

/-- The statuses a run ends in are final: once the run has one of them it keeps it, whoever
goes on calling, as long as no unchecked read finds it ended. -/
theorem terminal_status_final {backend : Backend} {args : RunRequest} {start : GraphStore}
    (hcreate : createRun args = .ok start) (before later : List (Move (Nat × Op)))
    (hm : CallsMeet backend RereadsLive start (before ++ later))
    (hterm : (after backend start before).run.status.isTerminal = true) :
    (after backend start (before ++ later)).run.status = (after backend start before).run.status :=
  moves_keep_terminal (createRun_keyed hcreate) before later hm hterm

/-- One node, run once. -/
def soloWorkflow : WorkflowDefinition :=
  { workflowId := "solo"
    nodes := [{ nodeId := "work", nodeKind := .agent, idempotencyClass := .nonIdempotent }]
    status := .published }

def soloRequest : RunRequest := { definition := soloWorkflow, runId := "run", nodeRunId := id }

/-- The rows `create_run` stores for it. -/
def soloStore : GraphStore :=
  { definition := soloWorkflow
    run :=
      { id := "run", workflowDefinitionId := "solo", workflowDefinitionVersion := 1,
        budgetSnapshot := {} }
    nodeRuns := [{ id := "work", workflowRunId := "run", nodeId := "work", status := .ready }] }

theorem soloStore_created : createRun soloRequest = .ok soloStore := rfl

/-- The next calls of one caller. -/
def steps (thread count : Nat) : List (Move (Nat × Op)) := List.replicate count (.step thread)

/-- The node is started and completed; a `cancel_run` has looked at the run in between. -/
def completedBehindCancel : List (Move (Nat × Op)) :=
  [.start (0, .startRun 0)] ++ steps 0 3 ++
    [.start (0, .startAttempt { nodeRunId := "work", attemptId := "a" })] ++ steps 0 9 ++
    [.start (0, .cancelRun)] ++ steps 0 1 ++
    [.start (2, .completeAttempt { attemptId := "a", succeeded := true })] ++ steps 1 12

/-- A caller that comes when the run is completed leaves it alone. -/
theorem terminal_status_final_solo :
    (after .sqlite soloStore (completedBehindCancel ++
      ([.start (0, .cancelRun)] ++ steps 1 4))).run.status = .completed := by
  have hmeets : CallsMeet .sqlite RereadsLive soloStore (completedBehindCancel ++
      ([.start (0, .cancelRun)] ++ steps 1 4)) := by decide
  rw [terminal_status_final soloStore_created completedBehindCancel _ hmeets (by decide)]
  decide

/-- The first `cancel_run` goes on and cancels the completed run. -/
theorem cancel_overwrites_completed :
    ¬∀ (backend : Backend) (args : RunRequest) (start : GraphStore), createRun args = .ok start →
      ∀ before later : List (Move (Nat × Op)),
        (after backend start before).run.status.isTerminal = true →
        (after backend start (before ++ later)).run.status =
          (after backend start before).run.status := by
  intro h
  have hfinal := h .sqlite soloRequest soloStore soloStore_created completedBehindCancel (steps 0 10)
    (by decide)
  revert hfinal
  decide

end Operant.Graph
