import Operant.Graph.Attempts
import Operant.Graph.Compiled
import Operant.Calls.Phases

/-! One operation after another.

An operation that is alone makes its calls with nobody in between. The world it works in
is the world of `History`, so what is known of concurrent callers is known here; what is
added is which calls of one operation follow each other. -/
namespace Operant.Graph
open Operant.Python Operant.Calls

/-- One operation. Propagation may make as many passes as there are nodes, and one more. -/
def perform (backend : Backend) (w : World) (op : Op) : World :=
  match (op.code (w.store.nodeRuns.length + 1)).run (record backend) w with
  | (.ok _, w') => { w' with history := .returned op :: w'.history }
  | (.error _, w') => w'

/-- All of them, one after another, whether they return or fail. -/
def performed (backend : Backend) (start : GraphStore) (ops : List Op) : World :=
  ops.foldl (perform backend) { store := start }

theorem performed_snoc (backend : Backend) (start : GraphStore) (ops : List Op) (op : Op) :
    performed backend start (ops ++ [op]) = perform backend (performed backend start ops) op := by
  rw [performed, List.foldl_append]
  rfl

/-! ### What every call keeps -/

variable {α β Q : Type} {backend : Backend} {start : GraphStore}

/-- What the calls of the phases keep, a program that follows them keeps. -/
theorem run_keeps {next : Q → RepoCall → Option Q} {I : Q → World → Prop}
    (hstep : ∀ {q q' w c s}, Recorded start Reason Done w → I q w → next q c = some q' →
      w.store.Effect c s → Reason w c → I q' (w.committed c s))
    {p : GraphProg α} {A : α → World → Prop} {X : GraphError → World → Prop} {w : World}
    (hp : p.Holds (callRules backend start) A X w) {q : Q} (hf : p.Follows next q)
    (hw : Recorded start Reason Done w) (hI : I q w) :
    ∃ q', I q' (p.run (record backend) w).2 ∧ Recorded start Reason Done (p.run (record backend) w).2 ∧
      match (p.run (record backend) w).1 with
      | .ok a => A a (p.run (record backend) w).2
      | .error _ => True := by
  induction p generalizing w q with
  | ret a => exact ⟨q, hI, hw, hp⟩
  | fail e => exact ⟨q, hI, hw, trivial⟩
  | call c k ih =>
    obtain ⟨q', hnext, hk⟩ := hf
    have h := hp w (List.suffix_refl _) hw trivial
    cases he : backend.exec c w.store with
    | error e =>
      have hrun : (Prog.call c k).run (record backend) w = (.error e, w) := by
        simp only [Prog.run, record, he]
      rw [hrun]
      exact ⟨q, hI, hw, trivial⟩
    | ok reply =>
      obtain ⟨r, s⟩ := reply
      have hrun : (Prog.call c k).run (record backend) w =
          (k r).run (record backend) { store := s, history := .call w.store c :: w.history } := by
        simp only [Prog.run, record, he]
      simp only [callRules, record, he] at h
      have hrec : Recorded start Reason Done { store := s, history := .call w.store c :: w.history } :=
        h.1
      have hreason := (hrec.past (List.nil_append _).symm).2
      rw [hrun]
      exact ih r h.2.2 (hk r) hrec
        (hstep hw hI hnext (GraphStore.effect_of_exec he) hreason)

theorem perform_keeps {next : Q → RepoCall → Option Q} {I : Q → World → Prop}
    (hstep : ∀ {q q' w c s}, Recorded start Reason Done w → I q w → next q c = some q' →
      w.store.Effect c s → Reason w c → I q' (w.committed c s))
    (hreturn : ∀ {q w op}, I q w → I q { w with history := .returned op :: w.history })
    (hk : start.Keyed) {w : World} {q : Q} {op : Op}
    (hf : (op.code (w.store.nodeRuns.length + 1)).Follows next q)
    (hw : Recorded start Reason Done w) (hI : I q w) :
    ∃ q', I q' (perform backend w op) ∧ Recorded start Reason Done (perform backend w op) := by
  have hsafe : Safe backend start [] (op.code (w.store.nodeRuns.length + 1))
      fun _ knows => Promises op knows := Op.safe hk _ op
  obtain ⟨q', hI', hrec, hdone⟩ := run_keeps hstep (hsafe w (List.nil_sublist _)) hf hw hI
  unfold perform
  split
  · rename_i heq
    rw [heq] at hI' hrec hdone
    obtain ⟨knows, hs, hp⟩ := hdone
    exact ⟨q', hreturn hI', hrec.returned (hp _ hs)⟩
  · rename_i heq
    rw [heq] at hI' hrec
    exact ⟨q', hI', hrec⟩

theorem perform_recorded (hk : start.Keyed) {w : World} (hw : Recorded start Reason Done w)
    (op : Op) : Recorded start Reason Done (perform backend w op) := by
  have hf : (op.code (w.store.nodeRuns.length + 1)).Follows (fun (_ : Unit) _ => some ()) () :=
    .of_all (Prog.all_of_forall (fun _ => rfl) _)
  obtain ⟨_, -, hrec⟩ := perform_keeps (I := fun (_ : Unit) _ => True)
    (fun _ _ _ _ _ => trivial) (fun _ => trivial) hk hf hw trivial
  exact hrec

theorem performed_recorded (backend : Backend) (hk : start.Keyed) (ops : List Op) :
    Recorded start Reason Done (performed backend start ops) := by
  induction ops using List.reverseRecOn with
  | nil => exact .start
  | append_singleton ops op ih =>
    rw [performed_snoc]
    exact perform_recorded hk ih op

/-! ### The rows of a run and the nodes of its definition -/

/-- A new run: a row for each node of a definition that compiles. -/
structure GraphStore.Created (s : GraphStore) : Prop where
  initial : s.Initial
  compiled : s.definition.Compiled
  nodeIds : s.nodeRuns.map NodeRun.nodeId = s.definition.nodes.map NodeSpec.nodeId

theorem createRun_created {args : RunRequest} {s : GraphStore} (h : createRun args = .ok s) :
    s.Created := by
  have hinitial := createRun_initial h
  unfold createRun at h
  obtain ⟨compiled, hvalid, h⟩ := ok_of_bind h
  dsimp only at h
  split at h
  · cases h
  · cases h
    refine ⟨hinitial, ?_, ?_⟩
    · unfold validateRun at hvalid
      obtain ⟨c, hc, -⟩ := ok_of_bind hvalid
      cases hcompile : compile args.definition with
      | error e =>
        rw [hcompile] at hc
        cases hc
      | ok c' => exact compile_compiled hcompile
    · rw [List.map_map]
      rfl

theorem Recorded.nodeIds {w : World} (hw : Recorded start Reason Done w) (hc : start.Created) :
    w.store.nodeRuns.map NodeRun.nodeId = w.store.definition.nodes.map NodeSpec.nodeId := by
  induction hw with
  | start => exact hc.nodeIds
  | returned hw done ih => exact ih
  | @call w c s' hw effect reason ih =>
    show s'.nodeRuns.map NodeRun.nodeId = s'.definition.nodes.map NodeSpec.nodeId
    rw [effect.definition, ← ih]
    have put {node x : NodeRun} {expected : Nat} (hx : w.store.Replaces node expected x)
        (hnode : node.nodeId = x.nodeId) :
        (w.store.putNode node).nodeRuns.map NodeRun.nodeId = w.store.nodeRuns.map NodeRun.nodeId := by
      rw [GraphStore.putNode, List.map_map]
      refine List.map_congr_left fun row hrow => ?_
      by_cases hid : row.id = node.id
      · rw [(hw.keyed hc.initial.keyed).row_eq hrow hx.mem (hid.trans hx.id.symm)]
        simp [hx.id, hnode]
      · simp [hid]
    cases effect with
    | read | updateRun | updateAttempt => rfl
    | updateNodeRun =>
      cases reason with
      | read h => cases h
      | updateNodeRun hx hnode => exact put hx hnode
    | startNodeAttempt =>
      cases reason with
      | read h => cases h
      | startNodeAttempt hx hnode => exact put hx hnode
    | finishNodeAttempt =>
      cases reason with
      | read h => cases h
      | finishNodeAttempt hx hnode => exact put hx hnode

end Operant.Graph
