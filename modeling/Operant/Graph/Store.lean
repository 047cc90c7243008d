import Operant.Graph.Repository

/-! What one committed call does to the rows. -/
namespace Operant.Graph
open Operant.Python

namespace GraphStore

/-! ### Looking rows up -/

theorem nodeRun?_some {s : GraphStore} {id : String} {row : NodeRun} (h : s.nodeRun? id = some row) :
    row ∈ s.nodeRuns ∧ row.id = id := by
  unfold nodeRun? at h
  exact ⟨List.mem_of_find?_eq_some h, by simpa using List.find?_some h⟩

theorem attempt?_some {s : GraphStore} {id : String} {row : NodeAttempt}
    (h : s.attempt? id = some row) : row ∈ s.attempts ∧ row.id = id := by
  unfold attempt? at h
  exact ⟨List.mem_of_find?_eq_some h, by simpa using List.find?_some h⟩

/-- Ids are keys. -/
structure Keyed (s : GraphStore) : Prop where
  nodeRuns : (s.nodeRuns.map NodeRun.id).Nodup
  attempts : (s.attempts.map NodeAttempt.id).Nodup

theorem Keyed.row_eq {s : GraphStore} (h : s.Keyed) {x y : NodeRun} (hx : x ∈ s.nodeRuns)
    (hy : y ∈ s.nodeRuns) (hid : x.id = y.id) : x = y :=
  List.inj_on_of_nodup_map h.nodeRuns hx hy hid

theorem Keyed.attempt_eq {s : GraphStore} (h : s.Keyed) {x y : NodeAttempt} (hx : x ∈ s.attempts)
    (hy : y ∈ s.attempts) (hid : x.id = y.id) : x = y :=
  List.inj_on_of_nodup_map h.attempts hx hy hid

theorem Keyed.nodeRun? {s : GraphStore} (h : s.Keyed) {x : NodeRun} (hx : x ∈ s.nodeRuns) :
    s.nodeRun? x.id = some x := by
  unfold GraphStore.nodeRun?
  cases hf : s.nodeRuns.find? fun row => row.id = x.id with
  | none => exact absurd (decide_eq_true rfl) (List.find?_eq_none.mp hf x hx)
  | some y =>
    have hy := nodeRun?_some (s := s) hf
    rw [h.row_eq hy.1 hx hy.2]

theorem mem_attemptsOf {s : GraphStore} {id : String} {attempt : NodeAttempt} :
    attempt ∈ s.attemptsOf id ↔ attempt ∈ s.attempts ∧ attempt.nodeRunId = id := by
  unfold attemptsOf
  rw [List.mem_insertionSort, List.mem_filter, decide_eq_true_eq]

/-! ### Writing rows -/

@[simp] theorem putNode_run (s : GraphStore) (node : NodeRun) : (s.putNode node).run = s.run := rfl
@[simp] theorem putNode_attempts (s : GraphStore) (node : NodeRun) :
    (s.putNode node).attempts = s.attempts := rfl
@[simp] theorem putNode_definition (s : GraphStore) (node : NodeRun) :
    (s.putNode node).definition = s.definition := rfl
@[simp] theorem putAttempt_run (s : GraphStore) (attempt : NodeAttempt) :
    (s.putAttempt attempt).run = s.run := rfl
@[simp] theorem putAttempt_nodeRuns (s : GraphStore) (attempt : NodeAttempt) :
    (s.putAttempt attempt).nodeRuns = s.nodeRuns := rfl
@[simp] theorem putAttempt_definition (s : GraphStore) (attempt : NodeAttempt) :
    (s.putAttempt attempt).definition = s.definition := rfl

@[simp] theorem putNode_ids (s : GraphStore) (node : NodeRun) :
    (s.putNode node).nodeRuns.map NodeRun.id = s.nodeRuns.map NodeRun.id := by
  simp only [putNode, List.map_map]
  refine List.map_congr_left fun row _ => ?_
  by_cases h : row.id = node.id <;> simp [h]

@[simp] theorem putAttempt_ids (s : GraphStore) (attempt : NodeAttempt) :
    (s.putAttempt attempt).attempts.map NodeAttempt.id = s.attempts.map NodeAttempt.id := by
  simp only [putAttempt, List.map_map]
  refine List.map_congr_left fun row _ => ?_
  by_cases h : row.id = attempt.id <;> simp [h]

theorem mem_putNode {s : GraphStore} {node x : NodeRun} (hx : x ∈ s.nodeRuns) (hid : x.id = node.id)
    (y : NodeRun) :
    y ∈ (s.putNode node).nodeRuns ↔ y = node ∨ (y ∈ s.nodeRuns ∧ y.id ≠ node.id) := by
  simp only [putNode, List.mem_map]
  constructor
  · rintro ⟨row, hrow, rfl⟩
    by_cases h : row.id = node.id
    · exact .inl (by simp [h])
    · exact .inr (by simp [h, hrow])
  · rintro (rfl | ⟨hy, hne⟩)
    · exact ⟨x, hx, by simp [hid]⟩
    · exact ⟨y, hy, by simp [hne]⟩

theorem mem_putAttempt {s : GraphStore} {attempt x : NodeAttempt} (hx : x ∈ s.attempts)
    (hid : x.id = attempt.id) (y : NodeAttempt) :
    y ∈ (s.putAttempt attempt).attempts ↔ y = attempt ∨ (y ∈ s.attempts ∧ y.id ≠ attempt.id) := by
  simp only [putAttempt, List.mem_map]
  constructor
  · rintro ⟨row, hrow, rfl⟩
    by_cases h : row.id = attempt.id
    · exact .inl (by simp [h])
    · exact .inr (by simp [h, hrow])
  · rintro (rfl | ⟨hy, hne⟩)
    · exact ⟨x, hx, by simp [hid]⟩
    · exact ⟨y, hy, by simp [hne]⟩

/-! ### One call -/

/-- The row a write of `node` replaces. -/
structure Replaces (s : GraphStore) (node : NodeRun) (expected : Nat) (x : NodeRun) : Prop where
  mem : x ∈ s.nodeRuns
  id : x.id = node.id
  stored : x.revision = expected
  revision : node.revision = expected + 1

/-- What a committed call leaves. -/
inductive Effect (s : GraphStore) : RepoCall → GraphStore → Prop where
  | read {c : RepoCall} (h : c.isRead = true) : Effect s c s
  | updateRun {site scan run} (h : run.revision = s.run.revision + 1) :
    Effect s (.updateRun site scan run s.run.revision) { s with run := run }
  | updateNodeRun {site via node expected x} (h : s.Replaces node expected x) :
    Effect s (.updateNodeRun site via node expected) (s.putNode node)
  | startNodeAttempt {requested node attempt expected x} (h : s.Replaces node expected x)
    (hfresh : ∀ y ∈ s.attempts, y.id ≠ attempt.id) :
    Effect s (.startNodeAttempt requested node attempt expected)
      ({ s with attempts := s.attempts ++ [attempt] }.putNode node)
  | finishNodeAttempt {node attempt expected x y} (h : s.Replaces node expected x)
    (hy : y ∈ s.attempts) (hid : y.id = attempt.id) (hrun : y.result = .running) :
    Effect s (.finishNodeAttempt node attempt expected) ((s.putAttempt attempt).putNode node)
  | updateAttempt {site seen attempt y} (hy : y ∈ s.attempts) (hid : y.id = attempt.id)
    (hrun : y.result = .running) : Effect s (.updateAttempt site seen attempt) (s.putAttempt attempt)

theorem replaces_of_updateNode {s s' : GraphStore} {node : NodeRun} {expected : Nat}
    (h : s.updateNode node expected = .ok s') :
    (∃ x, s.Replaces node expected x) ∧ s' = s.putNode node := by
  unfold updateNode at h
  cases hf : s.nodeRun? node.id with
  | none => simp [hf] at h
  | some x =>
    obtain ⟨hx, hid⟩ := nodeRun?_some hf
    simp only [hf] at h
    split at h
    · simp at h
    · rename_i hne
      simp only [Except.ok.injEq] at h
      exact ⟨⟨x, hx, hid, by omega, by omega⟩, h.symm⟩

theorem effect_of_start {backend : Backend} {s s' : GraphStore} {node : NodeRun}
    {attempt : NodeAttempt} {expected : Nat}
    (h : backend.startNodeAttempt s node attempt expected = .ok s') :
    (∀ y ∈ s.attempts, y.id ≠ attempt.id) ∧
      { s with attempts := s.attempts ++ [attempt] }.updateNode node expected = .ok s' := by
  cases backend with
  | sqlite =>
    simp only [Backend.startNodeAttempt, startInSQLite] at h
    split at h
    · simp at h
    · rename_i hins
      refine ⟨fun y hy => ?_, h⟩
      simp only [insertable, Bool.not_eq_true, Bool.not_eq_false', Bool.and_eq_true,
        List.all_eq_true] at hins
      exact of_decide_eq_true (hins.2 y hy).1.1
  | memory =>
    simp only [Backend.startNodeAttempt, startInMemory] at h
    split at h
    · split at h <;> simp at h
    · rename_i hany
      refine ⟨fun y hy heq => hany ?_, h⟩
      exact List.any_eq_true.mpr ⟨y, hy, by simp [heq]⟩

/-- The only thing a repository ever does. -/
theorem effect_of_exec {backend : Backend} {c : RepoCall} {s s' : GraphStore} {r : c.Reply}
    (h : backend.exec c s = .ok (r, s')) : s.Effect c s' := by
  cases c with
  | getDefinition workflowId version =>
    simp only [Backend.exec, execWith] at h
    split at h
    · cases h
      exact .read rfl
    · cases h
  | getRun site =>
    cases h
    exact .read rfl
  | updateRun site scan run expected =>
    simp only [Backend.exec, execWith] at h
    split at h
    · cases h
    · rename_i hne
      cases h
      have he : expected = s.run.revision := by omega
      subst he
      exact .updateRun (by omega)
  | listNodeRuns site =>
    cases h
    exact .read rfl
  | getNodeRun id =>
    simp only [Backend.exec, execWith] at h
    split at h
    · cases h
      exact .read rfl
    · cases h
  | updateNodeRun site via node expected =>
    simp only [Backend.exec, execWith] at h
    cases hu : s.updateNode node expected with
    | error e => simp [hu, Except.map] at h
    | ok s₁ =>
      rw [hu] at h
      cases h
      obtain ⟨⟨x, hx⟩, rfl⟩ := replaces_of_updateNode hu
      exact .updateNodeRun hx
  | startNodeAttempt requested node attempt expected =>
    simp only [Backend.exec, execWith] at h
    cases hs : backend.startNodeAttempt s node attempt expected with
    | error e => simp [hs, Except.map] at h
    | ok s₁ =>
      rw [hs] at h
      cases h
      obtain ⟨hfresh, hu⟩ := effect_of_start hs
      obtain ⟨⟨x, hx⟩, rfl⟩ := replaces_of_updateNode hu
      exact .startNodeAttempt (x := x) ⟨hx.mem, hx.id, hx.stored, hx.revision⟩ hfresh
  | getAttempt site id =>
    simp only [Backend.exec, execWith] at h
    split at h
    · cases h
      exact .read rfl
    · cases h
  | finishNodeAttempt node attempt expected =>
    simp only [Backend.exec, execWith] at h
    cases hf : s.attempt? attempt.id with
    | none => simp [hf] at h
    | some y =>
      obtain ⟨hy, hid⟩ := attempt?_some hf
      simp only [hf] at h
      split at h
      · cases h
      · rename_i hrun
        cases hu : (s.putAttempt attempt).updateNode node expected with
        | error e => simp [hu, Except.map] at h
        | ok s₁ =>
          rw [hu] at h
          cases h
          obtain ⟨⟨x, hx⟩, rfl⟩ := replaces_of_updateNode hu
          exact .finishNodeAttempt (x := x) ⟨hx.mem, hx.id, hx.stored, hx.revision⟩ hy hid
            (by simpa using hrun)
  | updateAttempt site seen attempt =>
    simp only [Backend.exec, execWith] at h
    cases hf : s.attempt? attempt.id with
    | none => simp [hf] at h
    | some y =>
      obtain ⟨hy, hid⟩ := attempt?_some hf
      simp only [hf] at h
      split at h
      · cases h
      · rename_i hrun
        cases h
        exact .updateAttempt hy hid (by simpa using hrun)
  | listAttempts nodeRunId =>
    cases h
    exact .read rfl

namespace Effect
variable {s s' : GraphStore} {c : RepoCall}

theorem eq_of_read (h : s.Effect c s') (hc : c.isRead = true) : s' = s := by
  cases h with
  | read => rfl
  | updateRun | updateNodeRun | startNodeAttempt | finishNodeAttempt | updateAttempt => cases hc

theorem updateRun_inv {site : Site} {scan : List NodeRun} {run : GraphWorkflowRun} {expected : Nat}
    (h : s.Effect (.updateRun site scan run expected) s') :
    expected = s.run.revision ∧ run.revision = expected + 1 ∧ s' = { s with run := run } := by
  cases h with
  | read hr => cases hr
  | updateRun hrev => exact ⟨rfl, hrev, rfl⟩

theorem definition (h : s.Effect c s') : s'.definition = s.definition := by
  cases h <;> rfl

theorem ids (h : s.Effect c s') : s'.nodeRuns.map NodeRun.id = s.nodeRuns.map NodeRun.id := by
  cases h <;> simp [putNode_ids]

theorem keyed (h : s.Effect c s') (hk : s.Keyed) : s'.Keyed := by
  refine ⟨h.ids ▸ hk.nodeRuns, ?_⟩
  cases h with
  | read => exact hk.attempts
  | updateRun => exact hk.attempts
  | updateNodeRun => exact hk.attempts
  | startNodeAttempt _ hfresh =>
    simp only [putNode_attempts, List.map_append, List.map_cons, List.map_nil]
    refine List.nodup_append.mpr ⟨hk.attempts, List.nodup_singleton _, ?_⟩
    rintro a ha b hb rfl
    obtain ⟨y, hy, rfl⟩ := List.mem_map.mp ha
    exact hfresh y hy (List.mem_singleton.mp hb)
  | finishNodeAttempt => simpa using hk.attempts
  | updateAttempt => simpa using hk.attempts

/-- A node row that is stored afterwards was stored before, or is the one written. -/
theorem node_cases (h : s.Effect c s') {y : NodeRun} (hy : y ∈ s'.nodeRuns) :
    (y ∈ s.nodeRuns ∧ ∀ node, c.node? = some node → y.id ≠ node.id) ∨
      (c.node? = some y ∧ ∃ x expected, s.Replaces y expected x) := by
  have put {node x : NodeRun} {expected : Nat} (hr : s.Replaces node expected x)
      (hc : c.node? = some node) (hy : y = node ∨ (y ∈ s.nodeRuns ∧ y.id ≠ node.id)) :
      (y ∈ s.nodeRuns ∧ ∀ node, c.node? = some node → y.id ≠ node.id) ∨
        (c.node? = some y ∧ ∃ x expected, s.Replaces y expected x) := by
    rcases hy with heq | ⟨hy, hne⟩
    · exact .inr ⟨heq ▸ hc, x, expected, heq ▸ hr⟩
    · refine .inl ⟨hy, fun n hn => ?_⟩
      rw [hc] at hn
      cases hn
      exact hne
  cases h with
  | read hc => exact .inl ⟨hy, by simp [RepoCall.node?_of_isRead hc]⟩
  | updateRun => exact .inl ⟨hy, by simp [RepoCall.node?]⟩
  | updateNodeRun hr => exact put hr rfl ((mem_putNode hr.mem hr.id y).mp hy)
  | @startNodeAttempt requested node attempt expected z hr hfresh =>
    exact put hr rfl
      ((mem_putNode (s := { s with attempts := s.attempts ++ [attempt] }) hr.mem hr.id y).mp hy)
  | @finishNodeAttempt node attempt expected z y' hr hy' hid' hrun =>
    exact put hr rfl ((mem_putNode (s := s.putAttempt attempt) hr.mem hr.id y).mp hy)
  | updateAttempt => exact .inl ⟨hy, by simp [RepoCall.node?]⟩

/-- An attempt that is stored afterwards was stored before, or is the one written. -/
theorem attempt_cases (h : s.Effect c s') {y : NodeAttempt} (hy : y ∈ s'.attempts) :
    (y ∈ s.attempts ∧ ∀ a, c.attempt? = some a → y.id ≠ a.id) ∨ c.attempt? = some y := by
  cases h with
  | read hc => exact .inl ⟨hy, by simp [RepoCall.attempt?_of_isRead hc]⟩
  | updateRun => exact .inl ⟨hy, by simp [RepoCall.attempt?]⟩
  | updateNodeRun => exact .inl ⟨hy, by simp [RepoCall.attempt?]⟩
  | startNodeAttempt _ hfresh =>
    rcases List.mem_append.mp hy with hy | hy
    · refine .inl ⟨hy, fun a ha => ?_⟩
      cases ha
      exact hfresh y hy
    · rw [List.mem_singleton.mp hy]
      exact .inr rfl
  | finishNodeAttempt _ hz hid _ =>
    rcases (mem_putAttempt hz hid y).mp hy with heq | ⟨hy, hne⟩
    · exact .inr (congrArg some heq.symm)
    · refine .inl ⟨hy, fun a ha => ?_⟩
      cases ha
      exact hne
  | updateAttempt hz hid _ =>
    rcases (mem_putAttempt hz hid y).mp hy with heq | ⟨hy, hne⟩
    · exact .inr (congrArg some heq.symm)
    · refine .inl ⟨hy, fun a ha => ?_⟩
      cases ha
      exact hne

/-- An attempt stays unless it is written over, which only happens while it is running. -/
theorem attempt_stays (h : s.Effect c s') (hk : s.Keyed) {y : NodeAttempt} (hy : y ∈ s.attempts) :
    y ∈ s'.attempts ∨ (y.result = .running ∧ ∃ a, c.attempt? = some a ∧ a.id = y.id) := by
  have put {a z : NodeAttempt} (hz : z ∈ s.attempts) (hid : z.id = a.id) (hrun : z.result = .running)
      (hc : c.attempt? = some a) : y ∈ (s.putAttempt a).attempts ∨
        (y.result = .running ∧ ∃ a, c.attempt? = some a ∧ a.id = y.id) := by
    by_cases heq : y.id = a.id
    · have hyz : y = z := hk.attempt_eq hy hz (heq.trans hid.symm)
      exact .inr ⟨hyz ▸ hrun, a, hc, heq.symm⟩
    · exact .inl ((mem_putAttempt hz hid y).mpr (.inr ⟨hy, heq⟩))
  cases h with
  | read | updateRun | updateNodeRun => exact .inl hy
  | startNodeAttempt => exact .inl (List.mem_append_left _ hy)
  | finishNodeAttempt _ hz hid hrun => exact put hz hid hrun rfl
  | updateAttempt hz hid hrun => exact put hz hid hrun rfl

theorem attempt_written (h : s.Effect c s') {a : NodeAttempt} (hc : c.attempt? = some a) :
    a ∈ s'.attempts := by
  cases h with
  | read hr => rw [RepoCall.attempt?_of_isRead hr] at hc; cases hc
  | updateRun => cases hc
  | updateNodeRun => cases hc
  | startNodeAttempt =>
    cases hc
    exact List.mem_append_right _ (List.mem_singleton_self _)
  | finishNodeAttempt _ hz hid _ =>
    cases hc
    exact (mem_putAttempt hz hid a).mpr (.inl rfl)
  | updateAttempt hz hid _ =>
    cases hc
    exact (mem_putAttempt hz hid a).mpr (.inl rfl)

/-- Revisions grow, and only with a revision does a row change. -/
theorem node (h : s.Effect c s') (hk : s.Keyed) {x y : NodeRun} (hx : x ∈ s.nodeRuns)
    (hy : y ∈ s'.nodeRuns) (hid : x.id = y.id) : y = x ∨ x.revision < y.revision := by
  rcases h.node_cases hy with ⟨hy, -⟩ | ⟨-, z, expected, hr⟩
  · exact .inl (hk.row_eq hy hx hid.symm)
  · have hxz : x = z := hk.row_eq hx hr.mem (hid.trans hr.id.symm)
    have hstored := hr.stored
    have hrevision := hr.revision
    subst hxz
    right
    omega

theorem run (h : s.Effect c s') : s'.run = s.run ∨ s.run.revision < s'.run.revision := by
  cases h with
  | updateRun h =>
    right
    simp [h]
  | read | updateNodeRun | startNodeAttempt | finishNodeAttempt | updateAttempt => exact .inl rfl

end Effect
end GraphStore
end Operant.Graph
