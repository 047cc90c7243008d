import Operant.MultiWriter.Programs

/-! A merge runs at most once. -/
namespace Operant.MultiWriter
open Operant.Calls Operant.Graph

/-! ### Every run -/

theorem inv_empty (checked : Prop) : Inv checked {} where
  frozen _ h := nomatch h
  workspaceIds := List.nodup_nil
  owned _ h := nomatch h
  mergeIds := List.nodup_nil
  bases _ h := nomatch h
  lawful _ h := nomatch h
  completed _ h := nomatch h
  once := List.nodup_nil
  invocations _ h := nomatch h
  conflicts _ h := nomatch h
  detections _ _ h := nomatch h

theorem reached_inv (moves more : List (Move Task)) :
    Inv False (reached moves) ∧ Rely none (reached moves) (reached (moves ++ more)) := by
  have hall : ∀ p ms, Pool.Meets system (rules False).allowed p ms :=
    Pool.meets_all _ fun _ _ hfalse => hfalse.elim
  obtain ⟨⟨ks, howns⟩, -⟩ := (Pool.Owns.init (inv_empty False)).play system_sound moves (hall _ _)
  obtain ⟨-, hr⟩ := howns.play system_sound more (hall _ _)
  refine ⟨howns.inv, ?_⟩
  unfold reached start
  rw [Pool.play_append]
  exact hr

theorem MergeRow.owner_unique {row : MergeRow} {owner other : String} (h : row.ownedBy owner = true)
    (h' : row.ownedBy other = true) : owner = other := by
  obtain ⟨x, hx, hxo⟩ := (Option.any_eq_true _ _).mp h
  obtain ⟨y, hy, hyo⟩ := (Option.any_eq_true _ _).mp h'
  obtain rfl := Option.some.inj (hx.symm.trans hy)
  exact (of_decide_eq_true hxo).symm.trans (of_decide_eq_true hyo)

/-- A running merge run goes on as it is, ends by its owner at the revision of its claim, or is
swept. -/
theorem Path.running {es : List MergeWrite} {row last : MergeRow} (h : Path es row last)
    (hl : ∀ e ∈ es, e.Lawful) (hstatus : row.merge.status = .running) {ownerId : String}
    (howner : row.ownedBy ownerId = true) :
    (last.merge = row.merge ∧ last.ownedBy ownerId = true) ∨
      ∃ e ∈ es, e.before.merge = row.merge ∧
        (e.writer = .complete ownerId row.merge.expectedRevision ∨ ∃ now, e.writer = .sweep now) := by
  induction h with
  | nil => exact .inl ⟨rfl, howner⟩
  | pass _ _ ih =>
    cases ih (fun e he => hl e (List.mem_cons_of_mem _ he)) hstatus howner with
    | inl hsame => exact .inl hsame
    | inr hended =>
      obtain ⟨e, he, hbefore, hwriter⟩ := hended
      exact .inr ⟨e, List.mem_cons_of_mem _ he, hbefore, hwriter⟩
  | @step e es last _ ih =>
    have he := List.mem_cons_self (a := e) (l := es)
    have hallowed := (hl e he).allowed
    cases hw : e.writer with
    | update | claim =>
      rw [hw] at hallowed
      have hclaimable := hallowed.1
      rw [hstatus] at hclaimable
      exact nomatch hclaimable
    | reconcile =>
      rw [hw] at hallowed
      have hunknown := hallowed.1
      rw [hstatus] at hunknown
      exact nomatch hunknown
    | sweep now => exact .inr ⟨e, he, rfl, .inr ⟨now, hw⟩⟩
    | complete other expectedRevision =>
      rw [hw] at hallowed
      obtain ⟨-, hother, hrevision, -⟩ := hallowed
      have hsame := MergeRow.owner_unique hother howner
      exact .inr ⟨e, he, rfl, .inl (by rw [hw, hsame, hrevision])⟩
    | renew other =>
      rw [hw] at hallowed
      obtain ⟨-, hother, hmerge, hafter⟩ := hallowed
      have hsame := MergeRow.owner_unique hother howner
      rw [hsame] at hafter
      have hnext := ih (fun d hd => hl d (List.mem_cons_of_mem _ hd)) (by rw [hmerge]; exact hstatus)
        hafter
      rw [hmerge] at hnext
      cases hnext with
      | inl hsame => exact .inl hsame
      | inr hended =>
        obtain ⟨d, hd, hbefore, hwriter⟩ := hended
        exact .inr ⟨d, List.mem_cons_of_mem _ hd, hbefore, hwriter⟩

/-- A task alone, for this many steps. -/
def alone (task : Task) (steps : Nat) : List (Move Task) :=
  .start task :: List.replicate steps (.step 0)

def writerNode (nodeId : String) (policy : WriterNodePolicy) : NodeSpec :=
  { nodeId
    nodeKind := .agent
    outputPorts := [{ name := "artifact" }]
    writesWorkspace := true
    idempotencyClass := .idempotent
    writerPolicy := some policy }

/-- Two writers and the node that merges what they do. -/
def twoWriters : WorkflowDefinition :=
  { workflowId := "writers"
    nodes := [
      writerNode "writer-a" ⟨"a", .worktree, "worktree:a", ["src/a"]⟩,
      writerNode "writer-b" ⟨"b", .container, "container:b", ["src/b"]⟩,
      { nodeId := "merge"
        nodeKind := .merge
        inputPorts := [{ name := "artifacts" }]
        writesWorkspace := true
        idempotencyClass := .idempotent
        mergePolicy := some { sourceWriterKeys := ["a", "b"] } }]
    edges := [
      { edgeId := "a-merge", sourceNode := "writer-a", sourcePort := "artifact",
        targetNode := "merge", targetPort := "artifacts" },
      { edgeId := "b-merge", sourceNode := "writer-b", sourcePort := "artifact",
        targetNode := "merge", targetPort := "artifacts" }] }

def workspaceA : WriterWorkspace :=
  { writerWorkspaceId := "workspace-a"
    graphRunId := "run"
    nodeRunId := "run:writer-a"
    writerKey := "a"
    isolationKind := .worktree
    isolationRef := "worktree:a"
    baseRevision := "abcdef0"
    ownershipPaths := ["src/a"] }

def workspaceB (baseRevision : String) : WriterWorkspace :=
  { writerWorkspaceId := "workspace-b"
    graphRunId := "run"
    nodeRunId := "run:writer-b"
    writerKey := "b"
    isolationKind := .container
    isolationRef := "container:b"
    baseRevision := baseRevision
    ownershipPaths := ["src/b"] }

def leaseA : WriterLease := ⟨"workspace-a", "coder-a", "writer_lease_a", 1, 60, none⟩
def leaseB : WriterLease := ⟨"workspace-b", "coder-b", "writer_lease_b", 1, 60, none⟩

def artifactA (writerArtifactId : String) : PatchCommitArtifact :=
  { writerArtifactId
    writerWorkspaceId := "workspace-a"
    artifactRef := "worktree:a:patch"
    baseRevision := "abcdef0"
    changedPaths := ["src/a/main.py"]
    testEvidenceRefs := ["a:pytest"] }

def artifactB (baseRevision : String) : PatchCommitArtifact :=
  { writerArtifactId := "artifact-b"
    writerWorkspaceId := "workspace-b"
    artifactRef := "container:b:patch"
    baseRevision := baseRevision
    changedPaths := ["src/b/main.py"]
    testEvidenceRefs := ["b:pytest"] }

/-- Both writers have published; the id of the first artifact, and the base of the second. -/
def publishedRun (writerArtifactId baseRevision : String) : List (Move Task) :=
  ([.putDefinition twoWriters, .createRun "run" "writers" 1 ("run:" ++ ·),
      .createWorkspace workspaceA, .createWorkspace (workspaceB baseRevision),
      .acquireLease "workspace-a" "coder-a" "writer_lease_a" 60,
      .acquireLease "workspace-b" "coder-b" "writer_lease_b" 60] : List Change).flatMap
    (fun change => alone (.other change) 2) ++
  alone (.publish (artifactA writerArtifactId) leaseA) 4 ++
  alone (.publish (artifactB baseRevision) leaseB) 4

def mergeRun : MergeRun :=
  { mergeRunId := "merge_run"
    graphRunId := "run"
    mergeNodeId := "merge"
    artifactIds := ["artifact-a", "artifact-b"]
    targetIsolationRef := "worktree:merge-target"
    baseRevision := "abcdef0" }

/-- The lease of the owner expires while its adapter is at work. -/
def lateRun : List (Move Task) :=
  publishedRun "artifact-a" "abcdef0" ++
  alone (.create mergeRun ("writers", 1) [leaseA, leaseB]) 13 ++
  alone (.finalize ⟨"core", 30⟩ "merge_run" ("writers", 1) [leaseA, leaseB] true) 15 ++
  [.start (.other (.outside fun o => { o with clock := 1000 })), .step 1, .step 1, .step 0, .step 0]

/-- The write is a completion, of a claim that has expired. -/
def MergeWrite.isLate (e : MergeWrite) : Bool :=
  match e.writer with
  | .complete .. => e.before.expired e.clock
  | .update | .claim _ | .renew _ | .sweep _ | .reconcile => false

end Operant.MultiWriter
