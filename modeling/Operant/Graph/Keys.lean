import Operant.Graph.UnknownWrites

/-! Idempotency keys and occurrences.

An attempt of an idempotent node takes the key of the attempt before it, whatever the
occurrence: the node has one key for ever. A write that must not be repeated is started
under the key that was asked for, or else under one that its retries would number; there
are none. -/
namespace Operant.Graph
open Operant.Python Operant.Calls

/-- An attempt was started under the key asked for, in the occurrence of its node's row. -/
structure Start where
  requested : Option String
  node : NodeRun
  attempt : NodeAttempt

/-- The key a first attempt is started under. -/
def Start.askedKey (e : Start) : String :=
  e.requested.getD s!"{e.node.workflowRunId}:{e.node.nodeId}:{0}"

namespace World
variable (w : World)

def starts : List Start :=
  w.history.filterMap fun
    | .call _ (.startNodeAttempt requested node attempt _) => some ⟨requested, node, attempt⟩
    | _ => none

/-- The class of the node an attempt is made for. -/
def classOf (nodeRunId : String) : Option IdempotencyClass :=
  (w.store.nodeRun? nodeRunId).bind fun row =>
    (w.store.definition.node? row.nodeId).map NodeSpec.idempotencyClass

/-- Attempts of an idempotent node share their key if and only if they share their
occurrence; attempts of a write that must not be repeated never share it across
occurrences. -/
def KeysFollowOccurrences : Prop :=
  ∀ a ∈ w.store.attempts, ∀ b ∈ w.store.attempts, a.nodeRunId = b.nodeRunId →
    a.idempotencyKey ≠ none → b.idempotencyKey ≠ none →
    ∀ e ∈ w.starts, ∀ e' ∈ w.starts, e.attempt.id = a.id → e'.attempt.id = b.id →
      (w.classOf a.nodeRunId = some .idempotent →
        (a.idempotencyKey = b.idempotencyKey ↔ e.node.iteration = e'.node.iteration)) ∧
      (w.classOf a.nodeRunId = some .nonIdempotent →
        e.node.iteration ≠ e'.node.iteration → a.idempotencyKey ≠ b.idempotencyKey)

/-- No idempotent node is started in two occurrences, and what is asked for differs
between the occurrences of a write that must not be repeated. -/
def StartsSeparated : Prop :=
  ∀ e ∈ w.starts, ∀ e' ∈ w.starts, e.node.id = e'.node.id →
    e.node.iteration ≠ e'.node.iteration →
      w.classOf e.node.id ≠ some .idempotent ∧
      (w.classOf e.node.id = some .nonIdempotent → e.askedKey ≠ e'.askedKey)

instance : Decidable w.KeysFollowOccurrences := by
  unfold KeysFollowOccurrences
  have law (a b : NodeAttempt) (e e' : Start) : Decidable
      ((w.classOf a.nodeRunId = some .idempotent →
        (a.idempotencyKey = b.idempotencyKey ↔ e.node.iteration = e'.node.iteration)) ∧
      (w.classOf a.nodeRunId = some .nonIdempotent →
        e.node.iteration ≠ e'.node.iteration → a.idempotencyKey ≠ b.idempotencyKey)) := inferInstance
  infer_instance

instance : Decidable w.StartsSeparated := by
  unfold StartsSeparated
  infer_instance

theorem mem_starts {w : World} {e : Start} :
    e ∈ w.starts ↔ ∃ s revision,
      .call s (.startNodeAttempt e.requested e.node e.attempt revision) ∈ w.history := by
  rw [starts, List.mem_filterMap]
  constructor
  · intro h
    obtain ⟨event, hmem, heq⟩ := h
    split at heq
    · cases heq
      exact ⟨_, _, hmem⟩
    · cases heq
  · intro h
    obtain ⟨s, revision, hmem⟩ := h
    exact ⟨_, hmem, rfl⟩

theorem classOf_some {w : World} {id : String} {cls : IdempotencyClass}
    (h : w.classOf id = some cls) :
    ∃ x ∈ w.store.nodeRuns, x.id = id ∧ ∃ spec, w.store.definition.node? x.nodeId = some spec ∧
      spec.idempotencyClass = cls := by
  obtain ⟨x, hx, h⟩ := Option.bind_eq_some_iff.mp h
  obtain ⟨spec, hspec, hclass⟩ := Option.map_eq_some_iff.mp h
  obtain ⟨hmem, hid⟩ := GraphStore.nodeRun?_some hx
  exact ⟨x, hmem, hid, spec, hspec, hclass⟩

end World

/-- What the attempts of one class of nodes carry. -/
theorem attemptIdempotencyKey_idempotent {attempts : List NodeAttempt} {node : NodeRun}
    {spec : NodeSpec} {sideEffect : AttemptSideEffectState} {requested : Option String}
    (h : spec.idempotencyClass = .idempotent) {last : NodeAttempt}
    (hlast : attempts.getLast? = some last) {key : String} (hkey : last.idempotencyKey = some key)
    (hne : key ≠ "") :
    attemptIdempotencyKey attempts node spec sideEffect requested = some key := by
  simp [attemptIdempotencyKey, h, hlast, hkey, hne]

theorem attemptIdempotencyKey_nonIdempotent {attempts : List NodeAttempt} {node : NodeRun}
    {spec : NodeSpec} {requested : Option String} (h : spec.idempotencyClass = .nonIdempotent)
    (hretry : node.retryCount = 0) (attempt : NodeAttempt) :
    attemptIdempotencyKey attempts node spec .notStarted requested =
      some (Start.askedKey ⟨requested, node, attempt⟩) := by
  cases requested <;> simp [attemptIdempotencyKey, h, Start.askedKey, hretry]

theorem NodeAttempt.key_of_hasKey {attempt : NodeAttempt} (h : attempt.hasKeyForSideEffect = true)
    (hstate : attempt.sideEffectState ≠ .none) :
    ∃ key ≠ "", attempt.idempotencyKey = some key := by
  cases hkey : attempt.idempotencyKey with
  | none => simp [hasKeyForSideEffect, hkey, hstate] at h
  | some key => exact ⟨key, by simpa [hasKeyForSideEffect, hkey, hstate] using h, rfl⟩

namespace Recorded
variable {start : GraphStore} {w : World}

/-- A write that must not be repeated is never retried. -/
theorem retryCount (h : Recorded start Reason Done w) (hi : start.Initial) {x : NodeRun}
    (hx : x ∈ w.store.nodeRuns) {spec : NodeSpec}
    (hspec : w.store.definition.node? x.nodeId = some spec)
    (hclass : spec.idempotencyClass = .nonIdempotent) : x.retryCount = 0 := by
  induction h generalizing x with
  | start => exact hi.retryCount x hx
  | returned hw done ih => exact ih hx hspec
  | @call w c s' hw effect reason ih =>
    have hdefinition : s'.definition = w.store.definition := effect.definition
    change s'.definition.node? x.nodeId = some spec at hspec
    rw [hdefinition] at hspec
    obtain ⟨y, hy, -, hnodeId, ⟨hxy, -⟩ | hwritten⟩ := hw.row_before hi.keyed effect reason hx
    · exact ih (hxy ▸ hy) hspec
    · have hy₀ {z : NodeRun} (hz : z ∈ w.store.nodeRuns) (hzx : x.nodeId = z.nodeId) :
          z.retryCount = 0 := ih hz (hzx ▸ hspec)
      cases reason with
      | read hr => rw [RepoCall.node?_of_isRead hr] at hwritten; cases hwritten
      | updateRun => cases hwritten
      | updateAttempt => cases hwritten
      | updateNodeRun hz hnode _ row =>
        cases hwritten
        obtain ⟨updates, step, rfl⟩ := row
        show updates.retryCount = 0
        rcases step.retryCount with heq | hzero
        · rw [heq]
          exact hy₀ hz.mem hnode
        · exact hzero
      | startNodeAttempt hz hnode why =>
        cases hwritten
        rw [why.retryCount]
        exact hy₀ hz.mem hnode
      | finishNodeAttempt hz hnode why =>
        cases hwritten
        rcases why.retryCount with heq | ⟨spec', hspec', hclass'⟩
        · rw [heq]
          exact hy₀ hz.mem hnode
        · rw [← hnode, hspec] at hspec'
          cases hspec'
          exact absurd hclass hclass'

/-- An attempt was there before, or has just been started. -/
theorem attempt_before (hw : Recorded start Reason Done w) (hk : start.Keyed) {c : RepoCall}
    {s' : GraphStore} (effect : w.store.Effect c s') (reason : Reason w c) {a : NodeAttempt}
    (ha : a ∈ s'.attempts) :
    (∃ b ∈ w.store.attempts, b.Same a) ∨
      ∃ requested node revision, c = .startNodeAttempt requested node a revision := by
  have hcall := hw.call effect reason
  -- The row a call puts over an attempt is what the attempt has become.
  have put {b : NodeAttempt} (hb : b ∈ w.store.attempts) (hid : b.id = a.id) : b.Same a := by
    obtain ⟨b', hb', hsame, -⟩ := hcall.attempt hk ⟨c, List.mem_cons_self ..⟩ hb
    have heq : b' = a := (hcall.keyed hk).attempt_eq hb' ha (hsame.id.trans hid)
    rwa [heq] at hsame
  rcases effect.attempt_cases ha with ⟨hold, -⟩ | hwritten
  · exact .inl ⟨a, hold, put hold rfl⟩
  · cases effect with
    | read hr => rw [RepoCall.attempt?_of_isRead hr] at hwritten; cases hwritten
    | updateRun | updateNodeRun => cases hwritten
    | startNodeAttempt =>
      cases hwritten
      exact .inr ⟨_, _, _, rfl⟩
    | finishNodeAttempt _ hy hid =>
      cases hwritten
      exact .inl ⟨_, hy, put hy hid⟩
    | updateAttempt hy hid =>
      cases hwritten
      exact .inl ⟨_, hy, put hy hid⟩

/-- An attempt that was started is still there. -/
theorem started_stored (h : Recorded start Reason Done w) (hk : start.Keyed) {e : Start}
    (he : e ∈ w.starts) : ∃ a ∈ w.store.attempts, e.attempt.Same a := by
  obtain ⟨s, revision, hs⟩ := World.mem_starts.mp he
  clear he
  induction h with
  | start => simp at hs
  | returned hw done ih =>
    rcases List.mem_cons.mp hs with heq | hs
    · cases heq
    · exact ih hs
  | @call w c s' hw effect reason ih =>
    rcases List.mem_cons.mp hs with heq | hs
    · cases heq
      exact ⟨e.attempt, effect.attempt_written rfl, ⟨rfl, rfl, rfl, rfl⟩⟩
    · obtain ⟨b, hb, hsb⟩ := ih hs
      obtain ⟨a, ha, hba, -⟩ := (hw.call effect reason).attempt hk ⟨c, List.mem_cons_self ..⟩ hb
      exact ⟨a, ha, hba.id.trans hsb.id, hba.nodeRunId.trans hsb.nodeRunId,
        hba.attemptNumber.trans hsb.attemptNumber, hba.idempotencyKey.trans hsb.idempotencyKey⟩

/-- All attempts of an idempotent node carry one key. -/
theorem idempotent_key (h : Recorded start Reason Done w) (hi : start.Initial) {x : NodeRun}
    (hx : x ∈ w.store.nodeRuns) {spec : NodeSpec}
    (hspec : w.store.definition.node? x.nodeId = some spec)
    (hclass : spec.idempotencyClass = .idempotent) :
    ∃ key ≠ "", ∀ a ∈ w.store.attempts, a.nodeRunId = x.id → a.idempotencyKey = some key := by
  induction h generalizing x with
  | start =>
    refine ⟨"-", by decide, fun a ha => ?_⟩
    rw [hi.attempts] at ha
    cases ha
  | returned hw done ih => exact ih hx hspec
  | @call w c s' hw effect reason ih =>
    have hdefinition : s'.definition = w.store.definition := effect.definition
    change s'.definition.node? x.nodeId = some spec at hspec
    rw [hdefinition] at hspec
    obtain ⟨y, hy, hid, hnodeId, -⟩ := hw.row_before hi.keyed effect reason hx
    rw [← hnodeId] at hspec
    obtain ⟨key, hne, hkey⟩ := ih hy hspec
    rw [hid] at hkey
    have kept {a b : NodeAttempt} (hb : b ∈ w.store.attempts) (hsame : b.Same a)
        (howner : a.nodeRunId = x.id) : a.idempotencyKey = some key := by
      rw [hsame.idempotencyKey]
      exact hkey b hb (hsame.nodeRunId.symm.trans howner)
    by_cases hstart : ∃ requested node attempt revision,
        c = .startNodeAttempt requested node attempt revision ∧ attempt.nodeRunId = x.id
    · obtain ⟨requested, node, attempt, revision, rfl, howner⟩ := hstart
      cases reason with
      | read hr => cases hr
      | startNodeAttempt hz hnode why =>
        have hzy := (hw.keyed hi.keyed).row_eq hz.mem hy
          (why.nodeRunId.symm.trans (howner.trans hid.symm))
        subst hzy
        obtain ⟨s₁, spec₁, hs₁, hx₁, hspec₁, heffect, hasked⟩ := why.key
        rw [hspec] at hspec₁
        cases hspec₁
        have only {a : NodeAttempt} (ha : a ∈ s'.attempts) :
            (∃ b ∈ w.store.attempts, b.Same a) ∨ a = attempt := by
          rcases hw.attempt_before hi.keyed effect (.startNodeAttempt hz hnode why) ha with
            hold | ⟨requested', node', revision', hc⟩
          · exact .inl hold
          · cases hc
            exact .inr rfl
        cases hlast : (s₁.attemptsOf _).getLast? with
        | none =>
          -- The first attempt chooses the key.
          have hnone : w.store.attemptsOf x.id = [] := by
            have hlength := hw.attempts_between hi hs₁ hx₁ hz.mem
            rw [List.getLast?_eq_none_iff.mp hlast, hid] at hlength
            exact List.eq_nil_of_length_eq_zero hlength.symm
          obtain ⟨own, hne', hown⟩ := NodeAttempt.key_of_hasKey why.keyed (by simp [heffect, hclass])
          refine ⟨own, hne', fun a ha hax => ?_⟩
          rcases only ha with ⟨b, hb, hsame⟩ | rfl
          · have hmem : b ∈ w.store.attemptsOf x.id :=
              GraphStore.mem_attemptsOf.mpr ⟨hb, hsame.nodeRunId.symm.trans hax⟩
            rw [hnone] at hmem
            cases hmem
          · exact hown
        | some last =>
          obtain ⟨hlastMem, hlastOwner⟩ := GraphStore.mem_attemptsOf.mp (List.mem_of_getLast? hlast)
          obtain ⟨b, hb, hsame, -⟩ := hw.attempt hi.keyed hs₁ hlastMem
          have hlastKey : last.idempotencyKey = some key := by
            rw [← hsame.idempotencyKey]
            exact hkey b hb (hsame.nodeRunId.trans (hlastOwner.trans hid))
          refine ⟨key, hne, fun a ha hax => ?_⟩
          rcases only ha with ⟨b', hb', hsame'⟩ | rfl
          · exact kept hb' hsame' hax
          · rw [hasked]
            exact attemptIdempotencyKey_idempotent hclass hlast hlastKey hne
    · refine ⟨key, hne, fun a ha howner => ?_⟩
      rcases hw.attempt_before hi.keyed effect reason ha with
        ⟨b, hb, hsame⟩ | ⟨requested, node, revision, hc⟩
      · exact kept hb hsame howner
      · exact absurd ⟨requested, node, a, revision, hc, howner⟩ hstart

/-- What a start says about the attempt it makes. -/
theorem started_key (h : Recorded start Reason Done w) (hi : start.Initial) {e : Start}
    (he : e ∈ w.starts) :
    e.attempt.nodeRunId = e.node.id ∧
      (∀ cls, w.classOf e.node.id = some cls → cls ≠ .pure → e.attempt.idempotencyKey ≠ none) ∧
      (w.classOf e.node.id = some .nonIdempotent → e.attempt.idempotencyKey = some e.askedKey) := by
  obtain ⟨s, revision, hs⟩ := World.mem_starts.mp he
  obtain ⟨past, -, hpast, reason⟩ := h.reason hs
  cases reason with
  | read hr => cases hr
  | startNodeAttempt hz hnode why =>
    have hfound : w.Found s := ⟨_, hs⟩
    obtain ⟨s₁, spec₁, -, -, hspec₁, heffect, hasked⟩ := why.key
    have class_of {cls : IdempotencyClass} (hcls : w.classOf e.node.id = some cls) :
        spec₁.idempotencyClass = cls := by
      obtain ⟨x, hx, hid, spec, hspec, hclass⟩ := World.classOf_some hcls
      have hnodeId := h.nodeId hi.keyed hfound hz.mem hx (hz.id.trans hid.symm)
      rw [hnodeId, h.definition, ← hpast.definition, hspec₁] at hspec
      cases hspec
      exact hclass
    refine ⟨why.nodeRunId.trans hz.id, fun cls hcls hpure => ?_, fun hcls => ?_⟩
    · have hstate : e.attempt.sideEffectState ≠ .none := by
        rw [heffect, class_of hcls, if_neg hpure]
        decide
      obtain ⟨key, -, hkey⟩ := NodeAttempt.key_of_hasKey why.keyed hstate
      rw [hkey]
      exact Option.some_ne_none key
    · have hclass := class_of hcls
      have hretry := hpast.retryCount hi hz.mem hspec₁ hclass
      have hstate : e.attempt.sideEffectState = .notStarted := by
        rw [heffect, hclass]
        rfl
      rw [hasked, hstate, attemptIdempotencyKey_nonIdempotent hclass hretry e.attempt,
        Start.askedKey, Start.askedKey, why.owner, hnode]

/-- A start with an attempt's id is the start of that attempt. -/
theorem start_of (h : Recorded start Reason Done w) (hi : start.Initial) {a : NodeAttempt}
    (ha : a ∈ w.store.attempts) {e : Start} (he : e ∈ w.starts) (hid : e.attempt.id = a.id) :
    e.attempt.Same a ∧ e.node.id = a.nodeRunId := by
  obtain ⟨b, hb, hsame⟩ := h.started_stored hi.keyed he
  have hba : b = a := (h.keyed hi.keyed).attempt_eq hb ha (hsame.id.trans hid)
  rw [hba] at hsame
  exact ⟨hsame, (h.started_key hi he).1.symm.trans hsame.nodeRunId.symm⟩

/-- The attempts of an idempotent node carry one key. -/
theorem same_key (h : Recorded start Reason Done w) (hi : start.Initial) {a b : NodeAttempt}
    (ha : a ∈ w.store.attempts) (hb : b ∈ w.store.attempts) (hrow : a.nodeRunId = b.nodeRunId)
    (hclass : w.classOf a.nodeRunId = some .idempotent) : a.idempotencyKey = b.idempotencyKey := by
  obtain ⟨x, hx, hid, spec, hspec, hidempotent⟩ := World.classOf_some hclass
  obtain ⟨key, -, hkey⟩ := h.idempotent_key hi hx hspec hidempotent
  rw [hkey a ha hid.symm, hkey b hb (hrow.symm.trans hid.symm)]

/-- Keys follow occurrences exactly if the starts are separated. -/
theorem keysFollowOccurrences_iff (h : Recorded start Reason Done w) (hi : start.Initial) :
    w.KeysFollowOccurrences ↔ w.StartsSeparated := by
  constructor
  · intro hfollow e he e' he' hid hne
    obtain ⟨a, ha, hsame⟩ := h.started_stored hi.keyed he
    obtain ⟨b, hb, hsame'⟩ := h.started_stored hi.keyed he'
    have hrow := (h.start_of hi ha he hsame.id.symm).2
    have hrow' := (h.start_of hi hb he' hsame'.id.symm).2
    have hkeyed {cls : IdempotencyClass} (hcls : w.classOf e.node.id = some cls)
        (hpure : cls ≠ .pure) := hfollow a ha b hb (hrow.symm.trans (hid.trans hrow'))
      (hsame.idempotencyKey ▸ (h.started_key hi he).2.1 cls hcls hpure)
      (hsame'.idempotencyKey ▸ (h.started_key hi he').2.1 cls (hid ▸ hcls) hpure)
      e he e' he' hsame.id.symm hsame'.id.symm
    rw [← hrow] at hkeyed
    constructor
    · intro hclass
      have hkey := h.same_key hi ha hb (hrow.symm.trans (hid.trans hrow')) (hrow ▸ hclass)
      exact hne (((hkeyed hclass (by decide)).1 hclass).mp hkey)
    · intro hclass heq
      apply (hkeyed hclass (by decide)).2 hclass hne
      rw [hsame.idempotencyKey, hsame'.idempotencyKey, (h.started_key hi he).2.2 hclass,
        (h.started_key hi he').2.2 (hid ▸ hclass), heq]
  · intro hseparated a ha b hb hab _ _ e he e' he' hid hid'
    obtain ⟨hsame, hrow⟩ := h.start_of hi ha he hid
    obtain ⟨hsame', hrow'⟩ := h.start_of hi hb he' hid'
    have hlaw := hseparated e he e' he' (hrow.trans (hab.trans hrow'.symm))
    rw [hrow] at hlaw
    constructor
    · intro hclass
      have hsameOccurrence : e.node.iteration = e'.node.iteration := by
        by_contra hne
        exact (hlaw hne).1 hclass
      simp only [hsameOccurrence, iff_true]
      exact h.same_key hi ha hb hab hclass
    · intro hclass hne heq
      rw [hsame.idempotencyKey, hsame'.idempotencyKey, (h.started_key hi he).2.2 (hrow ▸ hclass),
        (h.started_key hi he').2.2 (hrow' ▸ hab ▸ hclass)] at heq
      exact (hlaw hne).2 hclass (Option.some.inj heq)

end Recorded

/-! ### A loop around one action -/

/-- A loop ends after a round of it, and stops after three. -/
def threeRounds : LoopPolicy :=
  { maxIterations := 3, maxWallSeconds := 60, maxOutputTokens := 1000, maxCostUsd := 1,
    maxSubagents := 1, maxRecursionDepth := 1, onLimitNodeId := "stop",
    exitExpression := ⟨some (.constant (.json (.bool true)))⟩ }

theorem threeRounds_loops : (some threeRounds).isSome = true ↔ NodeKind.loop = .loop := by decide

theorem again_nodup : ([{ name := "again", required := false }].map PortSpec.name).Nodup := by decide

theorem done_nodup : ([{ name := "done" }].map PortSpec.name).Nodup := by decide

theorem limit_nodup : ([{ name := "limit", required := false }].map PortSpec.name).Nodup := by decide

theorem exits_nodup :
    ([{ name := "again", required := false }, { name := "limit", required := false }].map PortSpec.name).Nodup := by
  decide

/-- `work` is done again until `check` lets it be. -/
def redoWorkflow (cls : IdempotencyClass) : WorkflowDefinition :=
  { workflowId := "redo"
    nodes :=
      [{ nodeId := "work", nodeKind := .agent, idempotencyClass := cls,
         inputPorts := [{ name := "again", required := false }], outputPorts := [{ name := "done" }]
         inputPorts_nodup := again_nodup, outputPorts_nodup := done_nodup },
       { nodeId := "check", nodeKind := .loop, inputPorts := [{ name := "done" }]
         outputPorts := [{ name := "again", required := false }, { name := "limit", required := false }]
         inputPorts_nodup := done_nodup, outputPorts_nodup := exits_nodup
         loopPolicy := some threeRounds, loopPolicy_kind := threeRounds_loops },
       { nodeId := "stop", nodeKind := .agent, inputPorts := [{ name := "limit", required := false }]
         inputPorts_nodup := limit_nodup }]
    edges :=
      [{ edgeId := "done", sourceNode := "work", sourcePort := "done", targetNode := "check",
         targetPort := "done" },
       { edgeId := "again", sourceNode := "check", sourcePort := "again", targetNode := "work",
         targetPort := "again", loopBack := true },
       { edgeId := "limit", sourceNode := "check", sourcePort := "limit", targetNode := "stop",
         targetPort := "limit" }]
    status := .published }

def redoRequest (cls : IdempotencyClass) : RunRequest :=
  { definition := redoWorkflow cls, runId := "run", nodeRunId := id }

def redoStore (cls : IdempotencyClass) : GraphStore :=
  { definition := redoWorkflow cls
    run :=
      { id := "run", workflowDefinitionId := "redo", workflowDefinitionVersion := 1,
        budgetSnapshot := {} }
    nodeRuns :=
      [{ id := "work", workflowRunId := "run", nodeId := "work", status := .ready },
       { id := "check", workflowRunId := "run", nodeId := "check" },
       { id := "stop", workflowRunId := "run", nodeId := "stop" }] }

theorem redoStore_created :
    createRun (redoRequest .idempotent) = .ok (redoStore .idempotent) ∧
      createRun (redoRequest .nonIdempotent) = .ok (redoStore .nonIdempotent) := ⟨rfl, rfl⟩

/-- The action is done, the loop goes on, and the action is started again. -/
def workedTwice (first second : Option String) : List (Move (Nat × Op)) :=
  [.start (0, .startRun 0)] ++ steps 0 3 ++
    [.start (0, .startAttempt { nodeRunId := "work", attemptId := "a", idempotencyKey := first })] ++
    steps 0 9 ++
    [.start (3, .completeAttempt
      { attemptId := "a", succeeded := true, outputRefs := [("done", .bool true)] })] ++ steps 0 40 ++
    [.start (3, .advanceLoop
      { nodeRunId := "check", continueLoop := true, progressSignature := "1" })] ++ steps 0 40 ++
    [.start (0, .startAttempt { nodeRunId := "work", attemptId := "b", idempotencyKey := second })] ++
    steps 0 9

theorem keys_follow_occurrences {backend : Backend} {args : RunRequest} {start : GraphStore}
    (hcreate : createRun args = .ok start) (moves : List (Move (Nat × Op))) :
    (worldAfter backend start moves).KeysFollowOccurrences ↔
      (worldAfter backend start moves).StartsSeparated :=
  (played_recorded backend (createRun_keyed hcreate) moves).keysFollowOccurrences_iff
    (createRun_initial hcreate)

/-- A write that is started under another key in each occurrence. -/
theorem keys_follow_occurrences_redo :
    (worldAfter .sqlite (redoStore .nonIdempotent)
      (workedTwice (some "1") (some "2"))).starts.length = 2 ∧
    (worldAfter .sqlite (redoStore .nonIdempotent)
      (workedTwice (some "1") (some "2"))).KeysFollowOccurrences :=
  ⟨by decide +kernel,
    (keys_follow_occurrences redoStore_created.2 (workedTwice (some "1") (some "2"))).mpr
      (by decide +kernel)⟩

/-- The second occurrence of an idempotent action is started under the first one's key. -/
theorem second_occurrence_takes_the_first_key :
    ¬∀ (backend : Backend) (args : RunRequest) (start : GraphStore), createRun args = .ok start →
      ∀ moves : List (Move (Nat × Op)), (worldAfter backend start moves).KeysFollowOccurrences := by
  intro h
  have hfollow := h .memory (redoRequest .idempotent) (redoStore .idempotent) redoStore_created.1
    (workedTwice none none)
  revert hfollow
  decide +kernel

end Operant.Graph
