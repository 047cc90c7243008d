import Operant.Graph.Sequential
import Operant.Graph.Saves
import Operant.Graph.Subworkflow
import Operant.Graph.Finality

/-! Loops are bounded.

A node's iteration counts up, by loops going on and by loops starting it over. How often a
loop goes on is bounded by its policy, and between two times that some loop of the run goes
on each node occurs at one iteration at most. So no node occurs more often than the
multiplier the budget reserves for. -/
namespace Operant.Graph
open Operant.Calls

/-! ### Counting in a history -/

/-- The row with which a node begins an occurrence: an attempt is started, a boundary is
entered or a condition is selected. -/
def RepoCall.occurrence? : RepoCall → Option NodeRun
  | .startNodeAttempt _ node _ _ | .updateNodeRun .enterBoundary _ node _
  | .updateNodeRun .selectCondition _ node _ => some node
  | _ => none

/-- The loop a call lets go on. -/
def RepoCall.continued? (c : RepoCall) : Option String :=
  if c.isContinue then c.node?.map NodeRun.id else none

def Event.occurrence? : Event → Option NodeRun
  | .call _ c => c.occurrence?
  | .returned _ => none

def Event.continued? : Event → Option String
  | .call _ c => c.continued?
  | .returned _ => none

namespace World

/-- The iterations at which a node has occurred. -/
def occurrences (w : World) (nodeRunId : String) : List Nat :=
  ((w.history.filterMap Event.occurrence?).filter fun node => node.id = nodeRunId).map
    NodeRun.iteration

/-- The loops that have gone on, each as often as it has. -/
def loopsContinued (w : World) : List String := w.history.filterMap Event.continued?

/-- How often a loop has gone on. -/
def continues (w : World) (nodeRunId : String) : Nat := w.loopsContinued.count nodeRunId

/-- The iterations a node has occurred at, and the one it may still occur at. -/
def reached (w : World) (x : NodeRun) : Finset Nat :=
  (w.occurrences x.id).toFinset ∪ if x.rests then ∅ else {x.iteration}

variable {w : World}

theorem occurrences_call (c : RepoCall) (s : GraphStore) (nodeRunId : String) :
    (w.committed c s).occurrences nodeRunId =
      match c.occurrence? with
      | some node =>
        if node.id = nodeRunId then node.iteration :: w.occurrences nodeRunId
        else w.occurrences nodeRunId
      | none => w.occurrences nodeRunId := by
  unfold World.occurrences
  cases ho : c.occurrence? with
  | none => rw [List.filterMap_cons_none (by exact ho)]
  | some node =>
    rw [List.filterMap_cons_some (by exact ho), List.filter_cons]
    by_cases hid : node.id = nodeRunId <;> simp [hid]

theorem loopsContinued_call (c : RepoCall) (s : GraphStore) :
    (w.committed c s).loopsContinued =
      match c.continued? with
      | some id => id :: w.loopsContinued
      | none => w.loopsContinued := by
  unfold World.loopsContinued
  cases hc : c.continued? with
  | none => rw [List.filterMap_cons_none (by exact hc)]
  | some id => rw [List.filterMap_cons_some (by exact hc)]

theorem occurrences_subset_reached (w : World) (x : NodeRun) :
    (w.occurrences x.id).toFinset ⊆ w.reached x := Finset.subset_union_left

end World

theorem RepoCall.node?_of_occurrence {c : RepoCall} {node : NodeRun} (h : c.occurrence? = some node) :
    c.node? = some node := by
  unfold occurrence? at h
  split at h <;> cases h <;> rfl

theorem RepoCall.continued?_of_not {c : RepoCall} (h : c.isContinue = false) :
    c.continued? = none := by
  rw [continued?, h]
  rfl

/-! ### How often a loop goes on -/

variable {backend : Backend} {start : GraphStore} {w : World}

/-- How often the loop of a row's node may go on. -/
def GraphStore.mayContinue (s : GraphStore) (x : NodeRun) : Nat :=
  ((s.definition.node? x.nodeId).map NodeSpec.continues).getD 0

/-- Only a loop below its bound goes on. -/
theorem NodeStep.continues {definition : WorkflowDefinition} {x updates : NodeRun}
    (h : NodeStep definition x .advanceLoop updates)
    (hc : updates.status = .pending ∨ updates.status = .ready) :
    updates.iteration = x.iteration + 1 ∧ ∃ spec, definition.node? x.nodeId = some spec ∧
      x.iteration + 1 ≤ spec.continues := by
  cases h with
  | exited _ left =>
    exfalso
    rcases left with rfl | ⟨rfl, -⟩ <;> rcases hc with h | h <;> cases h
  | continued was next isSpec hasPolicy bound =>
    refine ⟨rfl, _, isSpec, ?_⟩
    rw [NodeSpec.continues, hasPolicy]
    show x.iteration + 1 ≤ _ - 1
    omega
  | again _ next => rcases next with ⟨h, -⟩ | ⟨h, -⟩ <;> cases h

/-- What a written row makes of the iteration. -/
theorem Reason.iteration (hk : w.store.Keyed) {c : RepoCall} (h : Reason w c) {x y : NodeRun}
    (hc : c.node? = some x) (hy : y ∈ w.store.nodeRuns) (hid : y.id = x.id) :
    y.iteration ≤ x.iteration ∧ (c.isContinue = true →
      x.iteration = y.iteration + 1 ∧ y.iteration + 1 ≤ w.store.mayContinue y) := by
  cases h with
  | read h => rw [RepoCall.node?_of_isRead h] at hc; cases hc
  | updateRun => cases hc
  | updateAttempt => cases hc
  | startNodeAttempt hx _ why =>
    cases hc
    rw [hk.row_eq hy hx.mem (hid.trans hx.id.symm), why.iteration]
    exact ⟨Nat.le_refl _, fun h => nomatch h⟩
  | finishNodeAttempt hx _ why =>
    cases hc
    rw [hk.row_eq hy hx.mem (hid.trans hx.id.symm), why.iteration]
    exact ⟨Nat.le_refl _, fun h => nomatch h⟩
  | @updateNodeRun site _ _ _ z hx _ _ row =>
    cases hc
    obtain ⟨updates, step, rfl⟩ := row
    have heq := hk.row_eq hy hx.mem (hid.trans hx.id.symm)
    subst heq
    refine ⟨?_, fun hcontinue => ?_⟩
    · show y.iteration ≤ updates.iteration
      rcases step.iteration with h | h <;> omega
    · obtain ⟨_, _, _, heq, hstatus⟩ := RepoCall.isContinue_inv hcontinue
      cases heq
      obtain ⟨hnext, spec, hspec, hle⟩ := step.continues hstatus
      rw [GraphStore.mayContinue, hspec]
      exact ⟨hnext, hle⟩

namespace Recorded

/-- A loop has an iteration at least for every time it has gone on, and has gone on no more
often than its policy lets it. -/
theorem continues_le (hw : Recorded start Reason Done w) (hk : start.Keyed) {x : NodeRun}
    (hx : x ∈ w.store.nodeRuns) :
    w.continues x.id ≤ x.iteration ∧ w.continues x.id ≤ w.store.mayContinue x := by
  induction hw generalizing x with
  | start => exact ⟨Nat.zero_le _, Nat.zero_le _⟩
  | returned hw done ih => exact ih hx
  | @call w c s' hw effect reason ih =>
    obtain ⟨y, hy, hid, hnode, hrow⟩ := hw.row_before hk effect reason hx
    obtain ⟨hle, hbound⟩ := ih hy
    have hmay : s'.mayContinue x = w.store.mayContinue y := by
      rw [GraphStore.mayContinue, GraphStore.mayContinue, effect.definition, hnode]
    show World.continues _ x.id ≤ _ ∧ _ ≤ s'.mayContinue x
    rw [hmay, World.continues, World.loopsContinued_call, ← hid]
    cases hcontinued : c.continued? with
    | none =>
      refine ⟨?_, hbound⟩
      rcases hrow with ⟨heq, -⟩ | hwritten
      · exact heq ▸ hle
      · exact hle.trans (reason.iteration (hw.keyed hk) hwritten hy hid).1
    | some id =>
      have hcontinue : c.isContinue = true ∧ c.node?.map NodeRun.id = some id := by
        unfold RepoCall.continued? at hcontinued
        split at hcontinued
        · exact ⟨‹_›, hcontinued⟩
        · cases hcontinued
      show (id :: w.loopsContinued).count y.id ≤ _ ∧ _
      rw [List.count_cons]
      rcases hrow with ⟨heq, hne⟩ | hwritten
      · obtain ⟨node, hnode, hidn⟩ := Option.map_eq_some_iff.mp hcontinue.2
        have hother : (id == y.id) = false := by
          rw [← hidn]
          simpa using fun h => hne node hnode (hid.symm.trans h.symm)
        rw [hother, heq]
        exact ⟨hle, hbound⟩
      · obtain ⟨hgrow, hnext⟩ := reason.iteration (hw.keyed hk) hwritten hy hid
        obtain ⟨hnext, hmay⟩ := hnext hcontinue.1
        have hcount : w.loopsContinued.count y.id ≤ y.iteration := hle
        split <;> omega

theorem loopsContinued_mem (hw : Recorded start Reason Done w) {id : String} (h : id ∈ w.loopsContinued) : id ∈ w.store.nodeRuns.map NodeRun.id := by
  obtain ⟨event, hmem, heq⟩ := List.mem_filterMap.mp h
  cases event with
  | returned op => cases heq
  | call s c =>
    obtain ⟨past, -, hpast, reason⟩ := hw.reason hmem
    have heq : c.continued? = some id := heq
    unfold RepoCall.continued? at heq
    split at heq
    · obtain ⟨node, hnode, rfl⟩ := Option.map_eq_some_iff.mp heq
      rw [hw.ids, ← hpast.ids]
      cases reason with
      | read h => rw [RepoCall.node?_of_isRead h] at hnode; cases hnode
      | updateRun => cases hnode
      | updateAttempt => cases hnode
      | updateNodeRun hx _ _ _ | startNodeAttempt hx _ _ | finishNodeAttempt hx _ _ =>
        cases hnode
        exact hx.id ▸ List.mem_map_of_mem hx.mem
    · cases heq

/-- All loops together. -/
theorem loopsContinued_length (hw : Recorded start Reason Done w) (hc : start.Created) :
    w.loopsContinued.length ≤ (start.definition.nodes.map NodeSpec.continues).sum := by
  have hk := hw.keyed hc.initial.keyed
  have hnodes : start.definition.nodes.map NodeSpec.continues =
      w.store.nodeRuns.map w.store.mayContinue := by
    have hmay : (fun spec : NodeSpec => spec.continues) = NodeSpec.continues := rfl
    have hspecs : start.definition.nodes.map NodeSpec.continues =
        (start.definition.nodes.map NodeSpec.nodeId).map fun nodeId =>
          ((start.definition.node? nodeId).map NodeSpec.continues).getD 0 := by
      rw [List.map_map]
      refine List.map_congr_left fun spec hspec => ?_
      show spec.continues = ((start.definition.node? spec.nodeId).map NodeSpec.continues).getD 0
      rw [node?_of_mem hc.compiled.nodes_nodup hspec]
      rfl
    rw [hspecs, ← hw.definition, ← hw.nodeIds hc, List.map_map]
    rfl
  rw [hnodes]
  calc w.loopsContinued.length
      = ∑ id ∈ (w.store.nodeRuns.map NodeRun.id).toFinset, w.continues id := by
        have hsum := Multiset.sum_count_eq_card (s := (w.store.nodeRuns.map NodeRun.id).toFinset)
          (m := (w.loopsContinued : Multiset String))
          fun id hid => List.mem_toFinset.mpr (hw.loopsContinued_mem hid)
        simp only [Multiset.coe_card, Multiset.coe_count] at hsum
        exact hsum.symm
    _ = (w.store.nodeRuns.map fun x => w.continues x.id).sum := by
        rw [List.sum_toFinset _ hk.nodeRuns, List.map_map]
        rfl
    _ ≤ (w.store.nodeRuns.map w.store.mayContinue).sum :=
        List.sum_le_sum fun x hx => (hw.continues_le hc.initial.keyed hx).2

end Recorded
/-! ### How often a node occurs -/

/-- Whether an operation has let a loop go on, and now unlocks its body. -/
def unlockPhases : Bool → RepoCall → Option Bool
  | false, c => if c.isUnlock then none else some c.isContinue
  | true, c => if c.occurrence?.isNone && !c.isContinue then some true else none

/-- No node has reached more iterations than one for every time that a loop has gone on, and
one. While an operation unlocks a body, it is the iterations nodes have occurred at that count. -/
def OccursWithin : Bool → World → Prop
  | false, w => ∀ x ∈ w.store.nodeRuns, (w.reached x).card ≤ w.loopsContinued.length + 1
  | true, w => ∀ x ∈ w.store.nodeRuns, (w.occurrences x.id).toFinset.card ≤ w.loopsContinued.length

theorem OccursWithin.weaken {unlocking : Bool} (h : OccursWithin unlocking w) :
    OccursWithin false w := by
  cases unlocking with
  | false => exact h
  | true =>
    intro x hx
    calc (w.reached x).card
        ≤ (w.occurrences x.id).toFinset.card + (if x.rests then ∅ else {x.iteration} : Finset Nat).card :=
          Finset.card_union_le ..
      _ ≤ w.loopsContinued.length + 1 := by
        refine Nat.add_le_add (h x hx) ?_
        split
        · exact Nat.zero_le _
        · exact Nat.le_refl _

theorem NodeRun.rests_of_nonterminal {x : NodeRun} (h : x.status.isNonterminal = true) :
    x.rests = false := by
  unfold NodeRun.rests
  cases hs : x.status with
  | succeeded | skipped => rw [hs] at h; cases h
  | pending | ready | running | waitingApproval | waitingInput | waiting | retryWait | failed
  | cancelled | manualReconcileRequired => rfl

theorem NodeRunStatus.nonterminal_of_waiting {status : NodeRunStatus} (h : status.isWaiting = true) :
    status.isNonterminal = true := by
  cases status <;> first | rfl | cases h

/-- What a method that neither lets a loop go on nor unlocks its body makes of a row. -/
theorem NodeStep.plain {definition : WorkflowDefinition} {site : Site} {x updates : NodeRun}
    (h : NodeStep definition x site updates)
    (hunlock : site ≠ .readyNodeBySpecId ∧ site ≠ .unlockLoopBody)
    (hcontinue : site = .advanceLoop → updates.status ≠ .pending ∧ updates.status ≠ .ready) :
    updates.rests = true ∧ site = .advanceLoop ∨
      x.rests = false ∧ updates.iteration = x.iteration := by
  have open_of {status : NodeRunStatus} (hs : x.status = status)
      (hopen : status.isNonterminal = true) : x.rests = false :=
    NodeRun.rests_of_nonterminal (hs ▸ hopen)
  cases h with
  | stopped was => exact .inr ⟨NodeRun.rests_of_nonterminal was, rfl⟩
  | interrupted was => exact .inr ⟨open_of was rfl, rfl⟩
  | exited _ left =>
    refine .inl ⟨?_, rfl⟩
    rcases left with rfl | ⟨rfl, hlimit⟩
    · rfl
    · simpa [NodeRun.rests, NodeRun.advanced] using hlimit
  | continued _ next =>
    obtain ⟨hp, hr⟩ := hcontinue rfl
    rcases next with h | h
    · exact absurd h hp
    · exact absurd h hr
  | skipped was => exact .inr ⟨open_of was rfl, rfl⟩
  | readied was => exact .inr ⟨open_of was rfl, rfl⟩
  | rewound was =>
    rcases was with hready | ⟨hskip, -, hlimit⟩
    · exact .inr ⟨open_of hready rfl, rfl⟩
    · exact .inr ⟨by simp [NodeRun.rests, hskip, hlimit], rfl⟩
  | unlocked => exact absurd rfl hunlock.1
  | again _ next =>
    rcases next with ⟨h, -⟩ | ⟨h, -⟩
    · exact absurd h hunlock.1
    · exact absurd h hunlock.2
  | delivered => exact absurd rfl hunlock.2
  | selected was => exact .inr ⟨open_of was rfl, rfl⟩
  | entered was => exact .inr ⟨open_of was rfl, rfl⟩
  | resolved was => exact .inr ⟨open_of rfl (NodeRunStatus.nonterminal_of_waiting was), rfl⟩
  | timedOut was => exact .inr ⟨open_of rfl (NodeRunStatus.nonterminal_of_waiting was), rfl⟩

theorem World.mem_reached {x : NodeRun} {iteration : Nat} : iteration ∈ w.reached x ↔
    iteration ∈ w.occurrences x.id ∨ x.rests = false ∧ iteration = x.iteration := by
  rw [World.reached, Finset.mem_union, List.mem_toFinset]
  cases x.rests <;> simp

/-- A row written by any other call has reached no iteration that it had not. -/
theorem Reason.reached (hk : w.store.Keyed) {c : RepoCall} {s' : GraphStore} (h : Reason w c)
    (hunlock : c.isUnlock = false) (hcontinue : c.isContinue = false) {x y : NodeRun}
    (hc : c.node? = some x) (hy : y ∈ w.store.nodeRuns) (hid : y.id = x.id) :
    (w.committed c s').reached x ⊆ w.reached y := by
  intro iteration hmem
  rw [World.mem_reached, World.occurrences_call, ← hid] at hmem
  rw [World.mem_reached]
  -- What is new about the row is its iteration, and that is the one `y` may occur at.
  have same (hrests : y.rests = false) (hiteration : x.iteration = y.iteration) :
      iteration ∈ w.occurrences y.id ∨ y.rests = false ∧ iteration = y.iteration := by
    rcases hmem with hmem | ⟨-, heq⟩
    · cases ho : c.occurrence? with
      | none =>
        rw [ho] at hmem
        exact .inl hmem
      | some node =>
        have hnode : node = x := Option.some.inj ((c.node?_of_occurrence ho).symm.trans hc)
        subst hnode
        rw [ho] at hmem
        simp only [hid, if_true] at hmem
        rcases List.mem_cons.mp hmem with heq | hmem
        · exact .inr ⟨hrests, heq.trans hiteration⟩
        · exact .inl (hid ▸ hmem)
    · exact .inr ⟨hrests, heq.trans hiteration⟩
  cases h with
  | read h => rw [RepoCall.node?_of_isRead h] at hc; cases hc
  | updateRun => cases hc
  | updateAttempt => cases hc
  | startNodeAttempt hx _ why =>
    cases hc
    have heq := hk.row_eq hy hx.mem (hid.trans hx.id.symm)
    subst heq
    refine same (NodeRun.rests_of_nonterminal ?_) why.iteration
    rcases why.was with h | h <;> rw [h] <;> rfl
  | finishNodeAttempt hx _ why =>
    cases hc
    have heq := hk.row_eq hy hx.mem (hid.trans hx.id.symm)
    subst heq
    exact same (NodeRun.rests_of_nonterminal (by rw [why.was]; rfl)) why.iteration
  | @updateNodeRun site via _ revision z hx _ _ row =>
    cases hc
    obtain ⟨updates, step, rfl⟩ := row
    have heq := hk.row_eq hy hx.mem (hid.trans hx.id.symm)
    subst heq
    have hsite : site ≠ .readyNodeBySpecId ∧ site ≠ .unlockLoopBody := by
      constructor <;> intro h <;> rw [h] at hunlock <;> cases hunlock
    have hstatus : site = .advanceLoop → updates.status ≠ .pending ∧ updates.status ≠ .ready := by
      intro h
      subst h
      simpa [RepoCall.isContinue] using hcontinue
    rcases step.plain hsite hstatus with ⟨hrests, rfl⟩ | ⟨hrests, hiteration⟩
    · refine hmem.imp_right fun hleft => ?_
      have hx : updates.rests = false := hleft.1
      rw [hrests] at hx
      cases hx
    · exact same hrests hiteration

/-- A row that is not written has reached what it had. -/
theorem World.reached_of_not_written {c : RepoCall} {s' : GraphStore} {x : NodeRun}
    (h : ∀ node, c.node? = some node → x.id ≠ node.id) :
    (w.committed c s').occurrences x.id =
      w.occurrences x.id := by
  rw [World.occurrences_call]
  cases ho : c.occurrence? with
  | none => rfl
  | some node => exact if_neg fun hid => h node (c.node?_of_occurrence ho) hid.symm

theorem OccursWithin.call (hw : Recorded start Reason Done w) (hk : start.Keyed)
    {before after : Bool} {c : RepoCall} {s' : GraphStore} (h : OccursWithin before w)
    (hnext : unlockPhases before c = some after) (effect : w.store.Effect c s')
    (reason : Reason w c) :
    OccursWithin after (w.committed c s') := by
  cases before with
  | false =>
    simp only [unlockPhases] at hnext
    split at hnext
    · cases hnext
    rename_i hunlock
    have hunlock : c.isUnlock = false := Bool.not_eq_true _ ▸ hunlock
    cases hnext
    cases hcontinue : c.isContinue with
    | false =>
      intro x hx
      have hx : x ∈ s'.nodeRuns := hx
      rw [World.loopsContinued_call, RepoCall.continued?_of_not hcontinue]
      obtain ⟨y, hy, hid, -, hrow⟩ := hw.row_before hk effect reason hx
      refine le_trans (Finset.card_le_card ?_) (h y hy)
      rcases hrow with ⟨heq, hne⟩ | hwritten
      · subst heq
        rw [World.reached, World.reached_of_not_written hne]
        exact Finset.Subset.refl _
      · exact reason.reached (hw.keyed hk) hunlock hcontinue hwritten hy hid
    | true =>
      intro x hx
      have hx : x ∈ s'.nodeRuns := hx
      obtain ⟨y, hy, hid, -, -⟩ := hw.row_before hk effect reason hx
      obtain ⟨via, node, revision, rfl, -⟩ := RepoCall.isContinue_inv hcontinue
      have hlength : (w.committed (.updateNodeRun .advanceLoop via node revision) s').loopsContinued.length =
          w.loopsContinued.length + 1 := by
        rw [World.loopsContinued_call, RepoCall.continued?, hcontinue]
        rfl
      have hsame : (w.committed (.updateNodeRun .advanceLoop via node revision) s').occurrences x.id =
          w.occurrences x.id := World.occurrences_call ..
      rw [hsame, hlength, ← hid]
      exact le_trans (Finset.card_le_card (w.occurrences_subset_reached y)) (h y hy)
  | true =>
    simp only [unlockPhases] at hnext
    split at hnext
    · rename_i hquiet
      cases hnext
      obtain ⟨hocc, hcontinue⟩ := Bool.and_eq_true_iff.mp hquiet
      have hocc : c.occurrence? = none := Option.isNone_iff_eq_none.mp hocc
      have hnone := RepoCall.continued?_of_not (c := c) (by simpa using hcontinue)
      intro x hx
      have hx : x ∈ s'.nodeRuns := hx
      obtain ⟨y, hy, hid, -, -⟩ := hw.row_before hk effect reason hx
      rw [World.occurrences_call, hocc, World.loopsContinued_call, hnone, ← hid]
      exact h y hy
    · cases hnext

/-! ### The phases of an operation -/

theorem unlockPhases_of_sites {sites : List Site} {c : RepoCall}
    (hsites : .advanceLoop ∉ sites ∧ .readyNodeBySpecId ∉ sites ∧ .unlockLoopBody ∉ sites)
    (h : ∀ site, c.savedFrom? = some site → site ∈ sites) : unlockPhases false c = some false := by
  have hunlock : c.isUnlock = false := by
    refine Bool.not_eq_true _ ▸ fun hunlock => ?_
    unfold RepoCall.isUnlock at hunlock
    split at hunlock
    · exact hsites.2.1 (h _ rfl)
    · exact hsites.2.2 (h _ rfl)
    · cases hunlock
  have hcontinue : c.isContinue = false := by
    refine Bool.not_eq_true _ ▸ fun hcontinue => ?_
    obtain ⟨_, _, _, rfl, -⟩ := RepoCall.isContinue_inv hcontinue
    exact hsites.1 (h _ rfl)
  simp [unlockPhases, hunlock, hcontinue]

theorem SavesFrom.quiet {α : Type} {sites : List Site} {p : GraphProg α}
    (hsites : .advanceLoop ∉ sites ∧ .readyNodeBySpecId ∉ sites ∧ .unlockLoopBody ∉ sites)
    (h : SavesFrom sites p) : p.All fun c => unlockPhases false c = some false :=
  Prog.All.mono (fun _ => unlockPhases_of_sites hsites) h

theorem unlockLoopBody_phases (loopId : String) :
    (unlockLoopBody loopId).Follows unlockPhases true := by
  refine .of_all (Prog.All.mono (fun c h => ?_) (unlockLoopBody_saves loopId))
  have hocc : c.occurrence? = none := by
    unfold RepoCall.occurrence?
    split
    · exact absurd (h _ rfl) (by decide)
    · exact absurd (h _ rfl) (by decide)
    · exact absurd (h _ rfl) (by decide)
    · rfl
  have hcontinue : c.isContinue = false := by
    refine Bool.not_eq_true _ ▸ fun hcontinue => ?_
    obtain ⟨_, _, _, rfl, -⟩ := RepoCall.isContinue_inv hcontinue
    exact absurd (h _ rfl) (by decide)
  simp [unlockPhases, hocc, hcontinue]

theorem saveNode_phases {α : Type} {before after : Bool} {site : Site} {x updates : NodeRun}
    {f : NodeRun → GraphProg α}
    (hnext : unlockPhases before (.updateNodeRun site [] { updates with revision := x.revision + 1 }
      x.revision) = some after) (hf : ∀ node, (f node).Follows unlockPhases after) :
    (saveNode site x updates >>= f).Follows unlockPhases before :=
  ⟨after, hnext, fun _ => hf _⟩

theorem advanceLoop_phases (rounds : Nat) (step : LoopStep) :
    (advanceLoop rounds step).Follows unlockPhases false := by
  have quiet {α : Type} {p : GraphProg α} (h : SavesFrom [] p) :
      p.All fun c => unlockPhases false c = some false := h.quiet (by simp)
  have settled : (settle rounds).All fun c => unlockPhases false c = some false :=
    (settle_saves rounds).quiet (by simp)
  unfold advanceLoop
  refine .lift fun usage => .bind_all (quiet (.request rfl)) fun node => ?_
  refine .bind_all (quiet requireRunningRun_saves) fun _ => ?_
  refine .bind_all (quiet (definitionAndNode_saves node)) fun pair => ?_
  dsimp only
  split
  · trivial
  · refine .ite trivial (.lift fun _ => .lift fun _ => .ite ?_ (.ite ?_ ?_))
    · exact saveNode_phases (by rfl) fun _ => .bind_all settled fun _ => trivial
    · exact saveNode_phases (by rfl) fun _ => .bind_all settled fun _ => trivial
    · refine .bind_all (quiet (.request rfl)) fun run => ?_
      refine .bind_all (quiet (.request rfl)) fun again => ?_
      refine .bind_all (quiet (.request rfl)) fun definition => ?_
      refine saveNode_phases (show unlockPhases false _ = some true from ?_)
        fun _ => .map (unlockLoopBody_phases _)
      simp only [unlockPhases, RepoCall.isUnlock, RepoCall.isContinue, NodeRun.advanced]
      cases WorkflowDefinition.hasBackEdge definition pair.2.nodeId <;> rfl

theorem Op.phases (rounds : Nat) (op : Op) : (op.code rounds).Follows unlockPhases false := by
  cases op with
  | advanceLoop step => exact .map (advanceLoop_phases rounds step)
  | startRun _ | startAttempt _ | markSideEffectStarted _ | completeAttempt _ | selectCondition
  | enterBoundary | resolveBoundary | timeoutBoundary | recordBudget | cancelRun | interruptRun
  | failRun | recover => exact .of_all ((Op.saves rounds _).quiet (by simp [Op.nodeSites]))

/-! ### Runs of operations -/

theorem performed_within (backend : Backend) (hk : start.Keyed) (ops : List Op) :
    OccursWithin false (performed backend start ops) := by
  induction ops using List.reverseRecOn with
  | nil =>
    intro x _
    show (({} : Finset Nat) ∪ _).card ≤ 0 + 1
    split <;> simp
  | append_singleton ops op ih =>
    rw [performed_snoc]
    obtain ⟨_, hwithin, -⟩ := perform_keeps (I := OccursWithin)
      (fun hw h hnext effect reason => h.call hw hk hnext effect reason)
      (fun {q} _ _ h => by cases q <;> exact h) hk (Op.phases _ op)
      (performed_recorded backend hk ops) ih
    exact hwithin.weaken

theorem perform_iteration (hk : start.Keyed) (hw : Recorded start Reason Done w) (op : Op)
    {x y : NodeRun} (hx : x ∈ w.store.nodeRuns) (hy : y ∈ (perform backend w op).store.nodeRuns)
    (hid : x.id = y.id) : x.iteration ≤ y.iteration := by
  have hall : (op.code (w.store.nodeRuns.length + 1)).Follows (fun (_ : Unit) _ => some ()) () :=
    .of_all (Prog.all_of_forall (fun _ => rfl) _)
  have hstep {w : World} {c : RepoCall} {s' : GraphStore} (hw : Recorded start Reason Done w)
      (h : ∀ y ∈ w.store.nodeRuns, x.id = y.id → x.iteration ≤ y.iteration)
      (effect : w.store.Effect c s') (reason : Reason w c) :
      ∀ y ∈ s'.nodeRuns, x.id = y.id → x.iteration ≤ y.iteration := by
    intro y hy hid
    obtain ⟨z, hz, hzid, -, hrow⟩ := hw.row_before hk effect reason hy
    have hle := h z hz (hid.trans hzid.symm)
    rcases hrow with ⟨heq, -⟩ | hwritten
    · exact heq ▸ hle
    · exact hle.trans (reason.iteration (hw.keyed hk) hwritten hz hzid).1
  obtain ⟨_, hgrown, -⟩ : ∃ _ : Unit, (∀ y ∈ (perform backend w op).store.nodeRuns, x.id = y.id →
      x.iteration ≤ y.iteration) ∧ Recorded start Reason Done (perform backend w op) := perform_keeps
    (I := fun _ w => ∀ y ∈ w.store.nodeRuns, x.id = y.id → x.iteration ≤ y.iteration)
    (fun hw h _ effect reason => hstep hw h effect reason) (fun h => h) hk hall hw
    (fun y hy hid => (hw.keyed hk).row_eq hx hy hid ▸ Nat.le_refl _)
  exact hgrown y hy hid

/-- Iterations never go down. -/
theorem performed_iteration (hk : start.Keyed) (ops more : List Op) {x y : NodeRun}
    (hx : x ∈ (performed backend start ops).store.nodeRuns)
    (hy : y ∈ (performed backend start (ops ++ more)).store.nodeRuns) (hid : x.id = y.id) :
    x.iteration ≤ y.iteration := by
  induction more using List.reverseRecOn generalizing y with
  | nil =>
    rw [List.append_nil] at hy
    rw [((performed_recorded backend hk ops).keyed hk).row_eq hx hy hid]
  | append_singleton more op ih =>
    have hw := performed_recorded backend hk (ops ++ more)
    have hmem : x.id ∈ (performed backend start (ops ++ more)).store.nodeRuns.map NodeRun.id := by
      rw [hw.ids, ← (performed_recorded backend hk ops).ids]
      exact List.mem_map_of_mem hx
    obtain ⟨z, hz, hzid⟩ := List.mem_map.mp hmem
    rw [← List.append_assoc, performed_snoc] at hy
    exact (ih hz hzid.symm).trans (perform_iteration hk hw op hz hy (hzid.trans hid))

/-- What bounds the loops of a run: a loop goes on less often than its bound, and a node
occurs, and starts child runs, as often at most as its loops multiply. -/
structure World.LoopsBounded (w : World) (sha256 : String → String) : Prop where
  continues : ∀ x ∈ w.store.nodeRuns, ∀ spec policy,
    w.store.definition.node? x.nodeId = some spec → spec.loopPolicy = some policy →
    w.continues x.id ≤ policy.maxIterations - 1
  occurrences : ∀ x ∈ w.store.nodeRuns,
    (w.occurrences x.id).toFinset.card ≤ loopMultiplier w.store.definition
  children : ∀ x ∈ w.store.nodeRuns, ∀ runId,
    ((w.occurrences x.id).map (childRunId sha256 runId x.id)).toFinset.card ≤
      loopMultiplier w.store.definition

end Operant.Graph
