import Operant.MultiWriter.Once

/-! Conflicting writers are not merged unnoticed. -/
namespace Operant.MultiWriter
open Operant.Calls Operant.Graph

theorem reached_checked {moves : List (Move Task)}
    (h : Pool.Meets system (fun c w => w.allowsCall c) start moves) : Inv True (reached moves) := by
  have hmeets : Pool.Meets system (rules True).allowed start moves :=
    Pool.Meets.imp system (fun _ _ hc _ => hc) h
  obtain ⟨⟨ks, howns⟩, -⟩ := (Pool.Owns.init (inv_empty True)).play system_sound moves hmeets
  exact howns.inv

/-- No clash goes unnoticed: the adapter is given none, and what `detect_conflicts` lists, it records. -/
def World.noticesConflicts (w : World) : Prop :=
  (∀ i ∈ w.invocations, w.apart i.artifacts) ∧
    ∀ d ∈ w.detections, match d.result with
      | .error e => e.isFault = true
      | .ok (artifacts, _) => ∀ a ∈ artifacts, ∀ b ∈ artifacts, a ≠ b →
          w.between a b fun left right => left.writerKey ≠ right.writerKey → Clash a b →
            ∃ c ∈ w.conflicts, c.graphRunId = d.graphRunId ∧
              ((c.leftArtifactId = a.writerArtifactId ∧ c.rightArtifactId = b.writerArtifactId) ∨
                (c.leftArtifactId = b.writerArtifactId ∧ c.rightArtifactId = a.writerArtifactId))

/-- In every run in which `detect_conflicts` finds no conflict that is too large for a
record: the artifacts that the merge adapter is given do not clash, and whatever clashes
among the artifacts that `detect_conflicts` lists, it records. The first is so in every run. -/
theorem conflicts_noticed (moves : List (Move Task))
    (h : Pool.Meets system (fun c w => w.allowsCall c) start moves) :
    (reached moves).noticesConflicts := by
  have hi := reached_checked h
  refine ⟨fun i hmem => (hi.invocations i hmem).2, fun d hd => ?_⟩
  have hcomplete := hi.detections trivial d hd
  unfold Detection.Complete at hcomplete
  split
  · rename_i e he
    rw [he] at hcomplete
    exact hcomplete
  · rename_i artifacts found he
    rw [he] at hcomplete
    intro a ha b hb hne
    obtain ⟨left, right, hleft, hright, hall⟩ := hcomplete a ha b hb hne
    refine ⟨left, right, hleft, hright, fun hkeys hclash => ?_⟩
    obtain ⟨reason, ⟨c, hc, hrun, hhash⟩, hof⟩ := hall hkeys hclash
    obtain ⟨hl, hr⟩ := hi.conflicts c hc
    refine ⟨c, hc, hrun, ?_⟩
    rw [hl, hr, hhash]
    exact hof

/-! ### A conflict that no record takes -/

/-- Two artifacts with different bases are in conflict by all that they change, which may be
more than a record takes. -/
theorem large_conflict_refused {a b : PatchCommitArtifact} {left right : WriterWorkspace}
    (hkeys : left.writerKey ≠ right.writerKey) (hbases : a.baseRevision ≠ b.baseRevision)
    (hcommon : commonPaths a b left right = [])
    (hlarge : 5000 < (a.changedPaths ++ b.changedPaths).dedup.length) (graphRunId : String) :
    ∃ reason, conflictReason a b left right = some reason ∧
      newConflict graphRunId reason = .error .validation := by
  have hdiffer : decide (a.baseRevision ≠ b.baseRevision) = true := decide_eq_true hbases
  have hpaths : (if decide (a.baseRevision ≠ b.baseRevision) = true ∧ commonPaths a b left right = []
      then a.changedPaths ++ b.changedPaths else commonPaths a b left right) =
      a.changedPaths ++ b.changedPaths := if_pos ⟨hdiffer, hcommon⟩
  unfold conflictReason
  dsimp only
  rw [hpaths, if_neg hkeys, if_neg (not_and_of_not_right _ (not_not.mpr hdiffer))]
  refine ⟨_, rfl, ?_⟩
  unfold newConflict
  rw [dif_neg]
  intro hsizes
  have hlength := hsizes.paths.2
  unfold sortedSet at hlength
  rw [List.length_insertionSort] at hlength
  omega

/-- The conflict is detected. -/
def detectedRun (writerArtifactId : String) : List (Move Task) :=
  publishedRun writerArtifactId "1234567" ++ alone (.detect "run") 5

theorem conflicts_noticed_detected :
    Pool.Meets system (fun c w => w.allowsCall c) start (detectedRun "artifact-a") ∧
      (reached (detectedRun "artifact-a")).noticesConflicts :=
  ⟨by decide +kernel, conflicts_noticed _ (by decide +kernel)⟩

/-- The id of an artifact may be empty, that of an artifact in conflict may not. -/
theorem unnamed_artifact_unnoticed : ¬∀ moves, (reached moves).noticesConflicts := by
  intro h
  have hfailed : (reached (detectedRun "")).detections.any (fun d => match d.result with
      | .error e => !e.isFault
      | .ok _ => false) = true := by decide +kernel
  obtain ⟨d, hd, hfailed⟩ := List.any_eq_true.mp hfailed
  have hcomplete := (h (detectedRun "")).2 d hd
  split at hcomplete
  · rename_i e he
    rw [he] at hfailed
    simp [hcomplete] at hfailed
  · rename_i he
    rw [he] at hfailed
    exact nomatch hfailed

end Operant.MultiWriter
