import Operant.Graph.Domain

/-! Subworkflows: how often a node may run, and which run each of its occurrences starts. -/
namespace Operant.Graph

/-- `loop_multiplier`. -/
def loopMultiplier (definition : WorkflowDefinition) : Nat :=
  definition.nodes.foldl (fun result node => match node.loopPolicy with
    | some policy => result * policy.maxIterations
    | none => result) 1

/-- `_child_run_id`; `sha256` is the hex digest of a text. -/
def childRunId (sha256 : String → String) (runId nodeRunId : String) (iteration : Nat) : String :=
  "graph_run_" ++ String.ofList ((sha256 s!"{runId}:{nodeRunId}:{iteration}").toList.take 32)

/-- How often the loop of a node may go on. -/
def NodeSpec.continues (spec : NodeSpec) : Nat :=
  match spec.loopPolicy with
  | some policy => policy.maxIterations - 1
  | none => 0

theorem foldl_multiplier (nodes : List NodeSpec) (result : Nat) :
    nodes.foldl (fun result node => match node.loopPolicy with
      | some policy => result * policy.maxIterations
      | none => result) result =
      result * (nodes.map fun node => node.continues + 1).prod := by
  induction nodes generalizing result with
  | nil => simp
  | cons node rest ih =>
    rw [List.foldl_cons, ih, List.map_cons, List.prod_cons, ← Nat.mul_assoc]
    congr 1
    unfold NodeSpec.continues
    cases node.loopPolicy with
    | none => simp
    | some policy =>
      have hpos := policy.maxIterations_pos
      show result * policy.maxIterations = result * (policy.maxIterations - 1 + 1)
      rw [Nat.sub_add_cancel hpos]

theorem loopMultiplier_eq (definition : WorkflowDefinition) :
    loopMultiplier definition = (definition.nodes.map fun node => node.continues + 1).prod := by
  rw [loopMultiplier, foldl_multiplier, Nat.one_mul]

/-- Loops that follow each other go on less often than the multiplier allows for. -/
theorem sum_continues_lt (definition : WorkflowDefinition) :
    (definition.nodes.map NodeSpec.continues).sum < loopMultiplier definition := by
  rw [loopMultiplier_eq]
  induction definition.nodes with
  | nil => simp
  | cons node rest ih =>
    rw [List.map_cons, List.sum_cons, List.map_cons, List.prod_cons]
    calc node.continues + (rest.map NodeSpec.continues).sum
        ≤ node.continues + ((rest.map fun node => node.continues + 1).prod - 1) := by omega
      _ < (node.continues + 1) * (rest.map fun node => node.continues + 1).prod := by
        have hpos : 0 < (rest.map fun node => node.continues + 1).prod := by omega
        obtain ⟨p, hp⟩ := Nat.exists_eq_succ_of_ne_zero hpos.ne'
        rw [hp, Nat.succ_sub_one]
        nlinarith [Nat.zero_le (node.continues * p)]

end Operant.Graph
