import Operant.Graph.Callers

/-! Attempts under concurrent callers.

An attempt keeps its id, its node and its number; once it has a result its row never
changes; the attempt a running node names is the last one of that node. -/
namespace Operant.Graph
open Operant.Calls

/-- The rows a run begins with. -/
structure GraphStore.Initial (s : GraphStore) : Prop where
  keyed : s.Keyed
  attempts : s.attempts = []
  active : ∀ x ∈ s.nodeRuns, x.activeAttemptId = none
  status : ∀ x ∈ s.nodeRuns, x.status = .ready ∨ x.status = .pending
  retryCount : ∀ x ∈ s.nodeRuns, x.retryCount = 0
  run : s.run.status = .created

theorem createRun_initial {args : RunRequest} {s : GraphStore} (h : createRun args = .ok s) :
    s.Initial := by
  have hkeyed := createRun_keyed h
  unfold createRun at h
  obtain ⟨compiled, -, h⟩ := ok_of_bind h
  dsimp only at h
  split at h
  · cases h
  · cases h
    refine ⟨hkeyed, rfl, fun x hx => ?_, fun x hx => ?_, fun x hx => ?_, rfl⟩ <;>
      obtain ⟨spec, -, rfl⟩ := List.mem_map.mp hx
    · rfl
    · simp only [initialNodeRun]
      split
      · exact .inl rfl
      · exact .inr rfl
    · rfl

/-- What never changes about an attempt. -/
structure NodeAttempt.Same (a b : NodeAttempt) : Prop where
  id : b.id = a.id
  nodeRunId : b.nodeRunId = a.nodeRunId
  attemptNumber : b.attemptNumber = a.attemptNumber
  idempotencyKey : b.idempotencyKey = a.idempotencyKey

/-- An attempt's id, its node's and its number. -/
def NodeAttempt.number (a : NodeAttempt) : String × String × Nat := (a.id, a.nodeRunId, a.attemptNumber)

theorem GraphStore.attemptsOf_length (s : GraphStore) (id : String) :
    (s.attemptsOf id).length = (s.attempts.map NodeAttempt.number).countP fun n => n.2.1 = id := by
  rw [attemptsOf, List.length_insertionSort, List.countP_map, List.countP_eq_length_filter]
  rfl

theorem AttemptReason.same {w : World} {seen attempt : NodeAttempt} {site : Site}
    (h : AttemptReason w seen attempt site) : seen.Same attempt := by
  cases h with
  | marked wrote =>
    subst wrote
    exact ⟨rfl, rfl, rfl, rfl⟩
  | stopped _ _ _ _ _ wrote =>
    subst wrote
    exact ⟨rfl, rfl, rfl, rfl⟩

namespace Recorded
variable {start : GraphStore} {w : World}

/-- The node of a row is the node of its id. -/
theorem nodeId (h : Recorded start Reason Done w) (hk : start.Keyed) {s : GraphStore}
    (hs : w.Found s) {x y : NodeRun} (hx : x ∈ s.nodeRuns) (hy : y ∈ w.store.nodeRuns)
    (hid : x.id = y.id) : y.nodeId = x.nodeId := by
  have hsince := since (fun s s' => s.Keyed → s'.Keyed ∧
    s'.nodeRuns.map NodeRun.id = s.nodeRuns.map NodeRun.id ∧
    ∀ x ∈ s.nodeRuns, ∀ y ∈ s'.nodeRuns, x.id = y.id → y.nodeId = x.nodeId) ?_ ?_ h hs
  · obtain ⟨c, hc⟩ := hs
    obtain ⟨past, -, hpast, -⟩ := h.reason hc
    exact (hsince (hpast.keyed hk)).2.2 x hx y hy hid
  · intro a b c hab hbc ha
    obtain ⟨hb, hids, hab⟩ := hab ha
    obtain ⟨hc, hids', hbc⟩ := hbc hb
    refine ⟨hc, hids'.trans hids, fun x hx y hy hid => ?_⟩
    have hmem : y.id ∈ b.nodeRuns.map NodeRun.id := hids' ▸ List.mem_map_of_mem hy
    obtain ⟨z, hz, hzy⟩ := List.mem_map.mp hmem
    exact (hbc z hz y hy hzy).trans (hab x hx z hz (hid.trans hzy.symm))
  · intro w c s' hw _ effect reason hk'
    refine ⟨effect.keyed hk', effect.ids, fun x hx y hy hid => ?_⟩
    rcases effect.node_cases hy with ⟨hy, -⟩ | ⟨hc, -⟩
    · rw [hk'.row_eq hx hy hid]
    · cases reason with
      | read hr => rw [RepoCall.node?_of_isRead hr] at hc; cases hc
      | updateRun => cases hc
      | updateAttempt => cases hc
      | updateNodeRun hz hnode _ _ | startNodeAttempt hz hnode _ | finishNodeAttempt hz hnode _ =>
        cases hc
        rw [hk'.row_eq hx hz.mem (hid.trans hz.id.symm)]
        exact hnode

/-- The node row as it was before the last call. -/
theorem row_before (hw : Recorded start Reason Done w) (hk : start.Keyed) {c : RepoCall}
    {s' : GraphStore} (effect : w.store.Effect c s') (reason : Reason w c) {x : NodeRun}
    (hx : x ∈ s'.nodeRuns) :
    ∃ y ∈ w.store.nodeRuns, y.id = x.id ∧ y.nodeId = x.nodeId ∧
      (x = y ∧ (∀ node, c.node? = some node → x.id ≠ node.id) ∨ c.node? = some x) := by
  have hcall := hw.call effect reason
  have hmem : x.id ∈ w.store.nodeRuns.map NodeRun.id := by
    rw [← effect.ids]
    exact List.mem_map_of_mem hx
  obtain ⟨y, hy, hid⟩ := List.mem_map.mp hmem
  have hnodeId := hcall.nodeId hk ⟨c, List.mem_cons_self ..⟩ hy hx hid
  refine ⟨y, hy, hid, hnodeId.symm, ?_⟩
  rcases effect.node_cases hx with ⟨hold, hne⟩ | ⟨hwritten, -⟩
  · exact .inl ⟨(hw.keyed hk).row_eq hold hy hid.symm, hne⟩
  · exact .inr hwritten

/-- An attempt of the past is still there, and as it was if it had a result. -/
theorem attempt (h : Recorded start Reason Done w) (hk : start.Keyed) {s : GraphStore}
    (hs : w.Found s) {a : NodeAttempt} (ha : a ∈ s.attempts) :
    ∃ b ∈ w.store.attempts, a.Same b ∧ (a.result ≠ .running → b = a) := by
  refine since (fun s s' => ∀ a ∈ s.attempts, ∃ b ∈ s'.attempts, a.Same b ∧
    (a.result ≠ .running → b = a)) ?_ ?_ h hs a ha
  · intro s₁ s₂ s₃ h₁₂ h₂₃ a ha
    obtain ⟨b, hb, hab, heq⟩ := h₁₂ a ha
    obtain ⟨c, hc, hbc, heq'⟩ := h₂₃ b hb
    refine ⟨c, hc, ⟨hbc.id.trans hab.id, hbc.nodeRunId.trans hab.nodeRunId,
      hbc.attemptNumber.trans hab.attemptNumber, hbc.idempotencyKey.trans hab.idempotencyKey⟩,
      fun hr => ?_⟩
    have hba := heq hr
    rw [← hba]
    exact heq' (hba ▸ hr)
  · intro w c s' hw ih effect reason a ha
    have hk' := hw.keyed hk
    rcases effect.attempt_stays hk' ha with hmem | ⟨hrun, b, hc, hid⟩
    · exact ⟨a, hmem, ⟨rfl, rfl, rfl, rfl⟩, fun _ => rfl⟩
    · refine ⟨b, effect.attempt_written hc, ?_, fun hr => absurd hrun hr⟩
      -- What is written was computed from the attempt as it was once stored.
      have same {seen : NodeAttempt} (hsaw : w.SawAttempt seen) (hseen : seen.id = b.id)
          (howner : b.nodeRunId = seen.nodeRunId) (hnumber : b.attemptNumber = seen.attemptNumber)
          (hkey : b.idempotencyKey = seen.idempotencyKey) : a.Same b := by
        obtain ⟨s₀, hs₀, hmem⟩ := hsaw
        obtain ⟨a', ha', hsame, -⟩ := ih s₀ hs₀ seen hmem
        have heq : a' = a := hk'.attempt_eq ha' ha (hsame.id.trans (hseen.trans hid))
        subst heq
        exact ⟨hid, howner.trans hsame.nodeRunId.symm, hnumber.trans hsame.attemptNumber.symm,
          hkey.trans hsame.idempotencyKey.symm⟩
      cases reason with
      | read hr => rw [RepoCall.attempt?_of_isRead hr] at hc; cases hc
      | updateRun => cases hc
      | updateNodeRun => cases hc
      | startNodeAttempt =>
        cases hc
        cases effect with
        | read hr => cases hr
        | startNodeAttempt _ hfresh => exact absurd hid.symm (hfresh a ha)
      | finishNodeAttempt _ _ why =>
        cases hc
        obtain ⟨seen, hsaw, hseen, howner, hnumber, hkey⟩ := why.same
        exact same hsaw hseen howner hnumber hkey
      | updateAttempt hsaw _ why =>
        cases hc
        exact same hsaw why.same.id.symm why.same.nodeRunId why.same.attemptNumber
          why.same.idempotencyKey

/-- A result that was written is the result. -/
theorem result (h : Recorded start Reason Done w) (hk : start.Keyed) {s : GraphStore} {c : RepoCall}
    (hs : .call s c ∈ w.history) {a : NodeAttempt} (hc : c.attempt? = some a)
    (hr : a.result ≠ .running) : a ∈ w.store.attempts := by
  induction h with
  | start => simp at hs
  | @call w c' s' hw effect reason ih =>
    rcases List.mem_cons.mp hs with heq | hs
    · cases heq
      exact effect.attempt_written hc
    · rcases effect.attempt_stays (hw.keyed hk) (ih hs) with hmem | ⟨hrun, -⟩
      · exact hmem
      · exact absurd hrun hr
  | returned hw done ih =>
    rcases List.mem_cons.mp hs with heq | hs
    · cases heq
    · exact ih hs

/-- The attempt a node names is an attempt of that node. -/
theorem owner (h : Recorded start Reason Done w) (hi : start.Initial) {x : NodeRun}
    (hx : x ∈ w.store.nodeRuns) {id : String} (ha : x.activeAttemptId = some id) :
    ∃ a ∈ w.store.attempts, a.id = id ∧ a.nodeRunId = x.id := by
  induction h generalizing x with
  | start =>
    rw [hi.active x hx] at ha
    cases ha
  | returned hw done ih => exact ih hx ha
  | @call w c s' hw effect reason ih =>
    have hrec := hw.call effect reason
    -- An attempt that was there before the call is there after it.
    have keep {z : NodeRun} (hz : z ∈ w.store.nodeRuns) (hid : z.id = x.id)
        (hactive : z.activeAttemptId = some id) : ∃ a ∈ s'.attempts, a.id = id ∧ a.nodeRunId = x.id := by
      obtain ⟨a, hmem, haid, howner⟩ := ih hz hactive
      obtain ⟨b, hb, hsame, -⟩ := hrec.attempt hi.keyed ⟨c, List.mem_cons_self ..⟩ hmem
      exact ⟨b, hb, hsame.id.trans haid, hsame.nodeRunId.trans (howner.trans hid)⟩
    rcases effect.node_cases hx with ⟨hx, -⟩ | ⟨hc, -⟩
    · exact keep hx rfl ha
    · cases reason with
      | read hr => rw [RepoCall.node?_of_isRead hr] at hc; cases hc
      | updateRun => cases hc
      | updateAttempt => cases hc
      | updateNodeRun hz _ why _ =>
        cases hc
        cases why with
        | stopped _ _ released | reset _ released => rw [released] at ha; cases ha
        | advanced _ active _ | inputs _ active => exact keep hz.mem hz.id (active ▸ ha)
        | idle _ _ active =>
          rcases active with active | released
          · exact keep hz.mem hz.id (active ▸ ha)
          · rw [released] at ha
            cases ha
      | finishNodeAttempt _ _ why =>
        cases hc
        rw [why.released] at ha
        cases ha
      | startNodeAttempt hz _ why =>
        cases hc
        rw [why.active] at ha
        cases ha
        exact ⟨_, effect.attempt_written rfl, rfl, why.nodeRunId.trans hz.id⟩

/-- A row that was stored in the past and still is has not been written by the last call. -/
theorem not_written (h : Recorded start Reason Done w) (hk : start.Keyed) {c : RepoCall}
    {s s' : GraphStore} (effect : w.store.Effect c s') (hs : s = w.store ∨ w.Found s) {x : NodeRun}
    (hx : x ∈ s.nodeRuns) (hx' : x ∈ s'.nodeRuns) :
    x ∈ w.store.nodeRuns ∧ ∀ node, c.node? = some node → x.id ≠ node.id := by
  rcases effect.node_cases hx' with hold | ⟨-, z, expected, hz⟩
  · exact hold
  · have hstored := hz.stored
    have hrevision := hz.revision
    have hz' : z = x ∨ x.revision < z.revision := by
      rcases hs with heq | hs
      · subst heq
        exact .inl ((h.keyed hk).row_eq hz.mem hx hz.id)
      · exact h.node hk hs hx hz.mem hz.id.symm
    rcases hz' with heq | hlt
    · subst heq
      omega
    · omega

/-! ### Numbers -/

/-- Attempts are only ever added. -/
theorem numbered (h : Recorded start Reason Done w) (hk : start.Keyed) {c : RepoCall}
    {s' : GraphStore} (effect : w.store.Effect c s') (reason : Reason w c) :
    s'.attempts.map NodeAttempt.number = w.store.attempts.map NodeAttempt.number ∨
    ∃ requested node attempt expected, c = .startNodeAttempt requested node attempt expected ∧
      s'.attempts = w.store.attempts ++ [attempt] := by
  have put {a : NodeAttempt} (hc : c.attempt? = some a)
      (hs' : s'.attempts = (w.store.putAttempt a).attempts) :
      s'.attempts.map NodeAttempt.number = w.store.attempts.map NodeAttempt.number := by
    rw [hs', GraphStore.putAttempt, List.map_map]
    refine List.map_congr_left fun row hrow => ?_
    by_cases hid : row.id = a.id
    · have hcall := h.call effect reason
      obtain ⟨b, hb, hsame, -⟩ := hcall.attempt hk ⟨c, List.mem_cons_self ..⟩ hrow
      have hba : b = a :=
        (hcall.keyed hk).attempt_eq hb (effect.attempt_written hc) (hsame.id.trans hid)
      subst hba
      simp [hid, NodeAttempt.number, hsame.nodeRunId, hsame.attemptNumber]
    · simp [hid]
  cases effect with
  | read | updateRun | updateNodeRun => exact .inl rfl
  | startNodeAttempt => exact .inr ⟨_, _, _, _, rfl, rfl⟩
  | finishNodeAttempt => exact .inl (put rfl rfl)
  | updateAttempt => exact .inl (put rfl rfl)

/-- While a node row is stored no attempt is added to the node. -/
theorem attempts_between (h : Recorded start Reason Done w) (hi : start.Initial) {s : GraphStore}
    (hs : w.Found s) {x : NodeRun} (hx : x ∈ s.nodeRuns) (hx' : x ∈ w.store.nodeRuns) :
    (s.attemptsOf x.id).length = (w.store.attemptsOf x.id).length := by
  induction h with
  | start =>
    obtain ⟨c, hc⟩ := hs
    simp at hc
  | returned hw done ih =>
    obtain ⟨c, hc⟩ := hs
    rcases List.mem_cons.mp hc with heq | hc
    · cases heq
    · exact ih ⟨c, hc⟩ hx'
  | @call w c s' hw effect reason ih =>
    have hs' : s = w.store ∨ w.Found s := by
      obtain ⟨c', hc⟩ := hs
      rcases List.mem_cons.mp hc with heq | hc
      · cases heq
        exact .inl rfl
      · exact .inr ⟨c', hc⟩
    obtain ⟨hmem, hnot⟩ := hw.not_written hi.keyed effect hs' hx hx'
    have hbefore : (s.attemptsOf x.id).length = (w.store.attemptsOf x.id).length := by
      rcases hs' with heq | hs'
      · rw [heq]
      · exact ih hs' hmem
    rw [hbefore]
    rcases hw.numbered hi.keyed effect reason with hsame | ⟨requested, node, attempt, expected, hc, happend⟩
    · rw [GraphStore.attemptsOf_length, GraphStore.attemptsOf_length, hsame]
    · subst hc
      cases reason with
      | read hr => cases hr
      | startNodeAttempt hz _ why =>
        have hne : attempt.nodeRunId ≠ x.id := by
          rw [why.nodeRunId, hz.id]
          exact (hnot node rfl).symm
        rw [GraphStore.attemptsOf_length, GraphStore.attemptsOf_length, happend, List.map_append,
          List.countP_append]
        simp [NodeAttempt.number, hne]

/-- The attempts of a node are numbered from one up. -/
theorem number_le (h : Recorded start Reason Done w) (hi : start.Initial) {a : NodeAttempt}
    (ha : a ∈ w.store.attempts) : a.attemptNumber ≤ (w.store.attemptsOf a.nodeRunId).length := by
  induction h generalizing a with
  | start =>
    rw [hi.attempts] at ha
    cases ha
  | returned hw done ih => exact ih ha
  | @call w c s' hw effect reason ih =>
    rcases hw.numbered hi.keyed effect reason with hsame | ⟨requested, node, attempt, expected, hc, happend⟩
    · have hmem : a.number ∈ w.store.attempts.map NodeAttempt.number :=
        hsame ▸ List.mem_map_of_mem ha
      obtain ⟨b, hb, hba⟩ := List.mem_map.mp hmem
      have hle := ih hb
      have howner : b.nodeRunId = a.nodeRunId := congrArg (fun n => n.2.1) hba
      have hnumber : b.attemptNumber = a.attemptNumber := congrArg (fun n => n.2.2) hba
      rw [GraphStore.attemptsOf_length] at hle ⊢
      rw [hsame]
      rwa [← howner, ← hnumber]
    · have hlength : (s'.attemptsOf a.nodeRunId).length = (w.store.attemptsOf a.nodeRunId).length +
          if attempt.nodeRunId = a.nodeRunId then 1 else 0 := by
        rw [GraphStore.attemptsOf_length, GraphStore.attemptsOf_length, happend, List.map_append,
          List.countP_append]
        simp [NodeAttempt.number, List.countP_cons]
      change a ∈ s'.attempts at ha
      show _ ≤ (s'.attemptsOf a.nodeRunId).length
      rw [hlength]
      rw [happend] at ha
      rcases List.mem_append.mp ha with ha | ha
      · have hle := ih ha
        omega
      · rw [List.mem_singleton.mp ha]
        subst hc
        cases reason with
        | read hr => cases hr
        | startNodeAttempt hz _ why =>
          obtain ⟨s₁, hs₁, hmem, hnumber⟩ := why.counted
          have hcount := hw.attempts_between hi hs₁ hmem hz.mem
          rw [why.nodeRunId, hnumber, hcount, if_pos rfl]

/-- The attempt a running node names is the last one of the node. -/
theorem last (h : Recorded start Reason Done w) (hi : start.Initial) {x : NodeRun}
    (hx : x ∈ w.store.nodeRuns) (hrun : x.status = .running) {id : String}
    (hactive : x.activeAttemptId = some id) {a b : NodeAttempt} (ha : a ∈ w.store.attempts)
    (howner : a.nodeRunId = x.id) (hne : a.id ≠ id) (hb : b ∈ w.store.attempts) (hid : b.id = id) :
    a.attemptNumber < b.attemptNumber := by
  induction h generalizing x a b with
  | start =>
    rw [hi.attempts] at ha
    cases ha
  | returned hw done ih => exact ih hx hrun hactive ha howner hne hb hid
  | @call w c s' hw effect reason ih =>
    have hk := (hw.call effect reason).keyed hi.keyed
    -- A row that was there before, with the status and the attempt it has now.
    have before {z : NodeRun} (hz : z ∈ w.store.nodeRuns) (hzid : z.id = x.id)
        (hzrun : z.status = .running) (hzactive : z.activeAttemptId = some id)
        (hstart : ∀ requested node attempt expected,
          c = .startNodeAttempt requested node attempt expected →
          x.id ≠ node.id) : a.attemptNumber < b.attemptNumber := by
      rcases hw.numbered hi.keyed effect reason with hsame | ⟨requested, node, attempt, expected, hc, happend⟩
      · have old {y : NodeAttempt} (hy : y ∈ s'.attempts) :
            ∃ y₀ ∈ w.store.attempts, y₀.number = y.number :=
          List.mem_map.mp (hsame ▸ List.mem_map_of_mem hy)
        obtain ⟨a₀, ha₀, haa⟩ := old ha
        obtain ⟨b₀, hb₀, hbb⟩ := old hb
        simp only [NodeAttempt.number, Prod.mk.injEq] at haa hbb
        have hlt := ih hz hzrun hzactive ha₀ (haa.2.1.trans (howner.trans hzid.symm))
          (haa.1.trans_ne hne) hb₀ (hbb.1.trans hid)
        rwa [haa.2.2, hbb.2.2] at hlt
      · subst hc
        cases reason with
        | read hr => cases hr
        | startNodeAttempt hz' _ why =>
          change a ∈ s'.attempts at ha
          change b ∈ s'.attempts at hb
          rw [happend] at ha hb
          have ha' : a ∈ w.store.attempts := by
            rcases List.mem_append.mp ha with ha | ha
            · exact ha
            · rw [List.mem_singleton.mp ha] at howner
              exact absurd (howner.symm.trans (why.nodeRunId.trans hz'.id)) (hstart _ _ _ _ rfl)
          have hb' : b ∈ w.store.attempts := by
            rcases List.mem_append.mp hb with hb | hb
            · exact hb
            · obtain ⟨y, hy, hyid, -⟩ := hw.owner hi hz hzactive
              rw [List.mem_singleton.mp hb] at hid
              cases effect with
              | read hr => cases hr
              | startNodeAttempt _ hfresh => exact absurd (hyid.trans hid.symm) (hfresh y hy)
          exact ih hz hzrun hzactive ha' (howner.trans hzid.symm) hne hb' hid
    rcases effect.node_cases hx with ⟨hx, hnot⟩ | ⟨hc, -⟩
    · exact before hx rfl hrun hactive fun requested node attempt expected hc => hnot node (hc ▸ rfl)
    · cases reason with
      | read hr => rw [RepoCall.node?_of_isRead hr] at hc; cases hc
      | updateRun => cases hc
      | updateAttempt => cases hc
      | updateNodeRun hz _ why _ =>
        cases hc
        cases why with
        | stopped _ _ released | reset _ released => rw [released] at hactive; cases hactive
        | advanced status _ _ => exact absurd hrun status.1
        | idle _ status _ => exact absurd hrun status.1
        | inputs status active =>
          exact before hz.mem hz.id (status ▸ hrun) (active ▸ hactive) (by simp)
      | finishNodeAttempt _ _ why =>
        cases hc
        exact absurd hrun why.status
      | startNodeAttempt hz _ why =>
        cases hc
        rw [why.active] at hactive
        cases hactive
        have hb' := hk.attempt_eq hb (effect.attempt_written rfl) hid
        rw [hb']
        obtain ⟨s₁, hs₁, hmem, hnumber⟩ := why.counted
        have hcount := hw.attempts_between hi hs₁ hmem hz.mem
        rcases effect.attempt_cases ha with ⟨ha, -⟩ | ha
        · have hle := hw.number_le hi ha
          rw [howner, ← hz.id] at hle
          omega
        · cases ha
          exact absurd rfl hne

end Recorded

/-- The last of the attempts `list_attempts` gives has the highest number. -/
theorem GraphStore.attemptsOf_last {s : GraphStore} {id : String} {last a : NodeAttempt}
    (h : (s.attemptsOf id).getLast? = some last) (ha : a ∈ s.attempts) (howner : a.nodeRunId = id) :
    a.attemptNumber ≤ last.attemptNumber := by
  have hmem : a ∈ s.attemptsOf id := mem_attemptsOf.mpr ⟨ha, howner⟩
  have htotal : Std.Total fun a b : NodeAttempt => a.attemptNumber ≤ b.attemptNumber :=
    ⟨fun a b => Nat.le_total _ _⟩
  have htrans : IsTrans NodeAttempt fun a b => a.attemptNumber ≤ b.attemptNumber :=
    ⟨fun _ _ _ => Nat.le_trans⟩
  have hsorted := List.pairwise_insertionSort
    (fun a b : NodeAttempt => a.attemptNumber ≤ b.attemptNumber)
    (s.attempts.filter fun row => row.nodeRunId = id)
  obtain ⟨front, hfront⟩ := List.getLast?_eq_some_iff.mp h
  change (s.attemptsOf id).Pairwise _ at hsorted
  rw [hfront] at hsorted hmem
  rcases List.mem_append.mp hmem with hmem | hmem
  · exact (List.pairwise_append.mp hsorted).2.2 a hmem last (List.mem_singleton_self _)
  · rw [List.mem_singleton.mp hmem]

end Operant.Graph
