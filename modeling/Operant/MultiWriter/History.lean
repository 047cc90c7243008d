import Operant.MultiWriter.Runtime

/-! What a row of `merge_runs` can go through.

`Lawful` says what each statement may do to a row; a `Path` is the way of one row through the
writes of all. A row whose outcome is known stays, and one that was claimed is never
claimable again. -/
namespace Operant.MultiWriter
open Operant.Tables

/-- What the statement may do to the row. -/
def Writer.allows (before after : MergeRow) : Writer → Prop
  | .update => before.merge.status.isClaimable = true ∧
      (after.merge.status = .conflicted ∨ after.merge.status = .reviewRequired)
  | .claim ownerId => before.merge.status.isClaimable = true ∧ after.merge.status = .running ∧
      after.ownedBy ownerId = true
  | .renew ownerId => before.merge.status = .running ∧ before.ownedBy ownerId = true ∧
      after.merge = before.merge ∧ after.ownedBy ownerId = true
  | .complete ownerId expectedRevision => before.merge.status = .running ∧
      before.ownedBy ownerId = true ∧ before.merge.expectedRevision = expectedRevision ∧
      after.merge.status.isTerminal = true
  | .sweep now => before.merge.status = .running ∧ before.expired now = true ∧
      after.merge.status = .outcomeUnknown
  | .reconcile => before.merge.status = .outcomeUnknown ∧ after.merge.status.isKnown = true

structure MergeWrite.Lawful (e : MergeWrite) : Prop where
  id : e.after.merge.mergeRunId = e.before.merge.mergeRunId
  /-- Only a renewal leaves the revision, and then all of the merge run. -/
  revision : e.after.merge = e.before.merge ∨
    e.after.merge.expectedRevision = e.before.merge.expectedRevision + 1
  allowed : e.writer.allows e.before e.after

/-- The row goes through these writes: those to it find it as the last one left it. -/
inductive Path : List MergeWrite → MergeRow → MergeRow → Prop
  | nil {row : MergeRow} : Path [] row row
  | pass {e : MergeWrite} {es : List MergeWrite} {row last : MergeRow}
      (other : e.before.merge.mergeRunId ≠ row.merge.mergeRunId) (rest : Path es row last) :
      Path (e :: es) row last
  | step {e : MergeWrite} {es : List MergeWrite} {last : MergeRow} (rest : Path es e.after last) :
      Path (e :: es) e.before last

namespace MergeWrite.Lawful
variable {e : MergeWrite}

theorem begun (h : e.Lawful) (hbegun : e.before.merge.status.isClaimable = false) :
    e.after.merge.status.isClaimable = false := by
  have hallowed := h.allowed
  cases hw : e.writer with
  | update | claim =>
    rw [hw] at hallowed
    rw [hallowed.1] at hbegun
    exact nomatch hbegun
  | renew =>
    rw [hw] at hallowed
    rw [hallowed.2.2.1]
    exact hbegun
  | complete =>
    rw [hw] at hallowed
    unfold MergeRunStatus.isClaimable
    rw [hallowed.2.2.2, Bool.or_true]
    rfl
  | sweep =>
    rw [hw] at hallowed
    rw [hallowed.2.2]
    rfl
  | reconcile =>
    rw [hw] at hallowed
    have hknown := hallowed.2
    revert hknown
    cases e.after.merge.status <;> decide

theorem not_known (h : e.Lawful) : e.before.merge.status.isKnown = false := by
  have hallowed := h.allowed
  cases hw : e.writer with
  | update | claim =>
    rw [hw] at hallowed
    have hclaimable := hallowed.1
    revert hclaimable
    cases e.before.merge.status <;> decide
  | renew | complete | sweep | reconcile =>
    rw [hw] at hallowed
    rw [hallowed.1]
    rfl

/-- Only a reconciliation leaves an unknown outcome. -/
theorem unknown_left (h : e.Lawful) (hstatus : e.before.merge.status = .outcomeUnknown) :
    e.writer = .reconcile := by
  have hallowed := h.allowed
  cases hw : e.writer with
  | reconcile => rfl
  | update | claim | renew | complete | sweep =>
    rw [hw] at hallowed
    have hbefore := hallowed.1
    rw [hstatus] at hbefore
    exact nomatch hbefore

end MergeWrite.Lawful

namespace Path
variable {es more : List MergeWrite} {row last next : MergeRow}

theorem append (h : Path es row last) (h' : Path more last next)
    (hid : ∀ e ∈ es, e.after.merge.mergeRunId = e.before.merge.mergeRunId) :
    Path (es ++ more) row next := by
  induction h with
  | nil => exact h'
  | pass other _ ih => exact .pass other (ih h' fun e he => hid e (List.mem_cons_of_mem _ he))
  | step _ ih => exact .step (ih h' fun e he => hid e (List.mem_cons_of_mem _ he))

theorem of_ne (h : ∀ e ∈ es, e.before.merge.mergeRunId ≠ row.merge.mergeRunId) : Path es row row := by
  induction es with
  | nil => exact .nil
  | cons e rest ih =>
    exact .pass (h e (List.mem_cons_self ..)) (ih fun d hd => h d (List.mem_cons_of_mem _ hd))

theorem id_eq (h : Path es row last) (hl : ∀ e ∈ es, e.Lawful) :
    last.merge.mergeRunId = row.merge.mergeRunId := by
  induction h with
  | nil => rfl
  | pass _ _ ih => exact ih fun e he => hl e (List.mem_cons_of_mem _ he)
  | @step e es last _ ih =>
    exact (ih fun d hd => hl d (List.mem_cons_of_mem _ hd)).trans (hl e (List.mem_cons_self ..)).id

theorem revision_le (h : Path es row last) (hl : ∀ e ∈ es, e.Lawful) :
    row.merge.expectedRevision ≤ last.merge.expectedRevision := by
  induction h with
  | nil => exact Nat.le_refl _
  | pass _ _ ih => exact ih fun e he => hl e (List.mem_cons_of_mem _ he)
  | @step e es last _ ih =>
    have hle := ih fun d hd => hl d (List.mem_cons_of_mem _ hd)
    cases (hl e (List.mem_cons_self ..)).revision with
    | inl hsame => rwa [hsame] at hle
    | inr hnext => omega

/-- At the same revision the merge run is the same. -/
theorem same (h : Path es row last) (hl : ∀ e ∈ es, e.Lawful)
    (hrevision : last.merge.expectedRevision = row.merge.expectedRevision) :
    last.merge = row.merge := by
  induction h with
  | nil => rfl
  | pass _ _ ih => exact ih (fun e he => hl e (List.mem_cons_of_mem _ he)) hrevision
  | @step e es last hrest ih =>
    have hrest' := fun d hd => hl d (List.mem_cons_of_mem e hd)
    cases (hl e (List.mem_cons_self ..)).revision with
    | inl hsame => rw [← hsame] at hrevision ⊢; exact ih hrest' hrevision
    | inr hnext =>
      have hle := hrest.revision_le hrest'
      omega

theorem begun (h : Path es row last) (hl : ∀ e ∈ es, e.Lawful)
    (hbegun : row.merge.status.isClaimable = false) : last.merge.status.isClaimable = false := by
  induction h with
  | nil => exact hbegun
  | pass _ _ ih => exact ih (fun e he => hl e (List.mem_cons_of_mem _ he)) hbegun
  | @step e es last _ ih =>
    exact ih (fun d hd => hl d (List.mem_cons_of_mem _ hd)) ((hl e (List.mem_cons_self ..)).begun hbegun)

/-- A known outcome is never left. -/
theorem known (h : Path es row last) (hl : ∀ e ∈ es, e.Lawful)
    (hknown : row.merge.status.isKnown = true) : last = row := by
  induction h with
  | nil => rfl
  | pass _ _ ih => exact ih (fun e he => hl e (List.mem_cons_of_mem _ he)) hknown
  | @step e es last _ _ =>
    rw [(hl e (List.mem_cons_self ..)).not_known] at hknown
    cases hknown

/-- An unknown outcome is left only by a reconciliation. -/
theorem unknown (h : Path es row last) (hl : ∀ e ∈ es, e.Lawful)
    (hstatus : row.merge.status = .outcomeUnknown) :
    last = row ∨ ∃ e ∈ es, e.writer = .reconcile ∧ e.before = row := by
  induction h with
  | nil => exact .inl rfl
  | pass _ _ ih =>
    cases ih (fun e he => hl e (List.mem_cons_of_mem _ he)) hstatus with
    | inl hsame => exact .inl hsame
    | inr hreconciled =>
      obtain ⟨e, he, hwriter, hbefore⟩ := hreconciled
      exact .inr ⟨e, List.mem_cons_of_mem _ he, hwriter, hbefore⟩
  | @step e es last _ _ =>
    have he := List.mem_cons_self (a := e) (l := es)
    exact .inr ⟨e, he, (hl e he).unknown_left hstatus, rfl⟩

/-- The way of a row through one statement. -/
theorem write {rows : List MergeRow} {f : MergeRow → MergeRow} {writer : Writer} {clock : Instant}
    (hrows : (rows.map fun r => r.merge.mergeRunId).Nodup)
    (hf : ∀ r, (f r).merge.mergeRunId = r.merge.mergeRunId) {p : MergeRow → Bool}
    (hrow : row ∈ rows) :
    Path ((rows.filter p).map fun r => ⟨writer, clock, r, f r⟩) row (if p row then f row else row) := by
  induction rows with
  | nil => cases hrow
  | cons r rest ih =>
    rw [List.map_cons, List.nodup_cons] at hrows
    have hothers : ∀ {id : String}, (∀ r' ∈ rest, r'.merge.mergeRunId ≠ id) →
        ∀ e ∈ (rest.filter p).map fun r => (⟨writer, clock, r, f r⟩ : MergeWrite),
          e.before.merge.mergeRunId ≠ id := by
      intro id hid e he
      obtain ⟨r', hr', rfl⟩ := List.mem_map.mp he
      exact hid r' (List.mem_filter.mp hr').1
    have hne : ∀ r' ∈ rest, r'.merge.mergeRunId ≠ r.merge.mergeRunId := fun r' hr' heq =>
      hrows.1 (heq ▸ List.mem_map_of_mem hr')
    cases List.mem_cons.mp hrow with
    | inl heq =>
      rw [heq]
      by_cases hp : p r = true
      · rw [List.filter_cons_of_pos hp, if_pos hp, List.map_cons]
        exact .step (.of_ne (hothers fun r' hr' => by rw [hf r]; exact hne r' hr'))
      · rw [List.filter_cons_of_neg hp, if_neg hp]
        exact .of_ne (hothers hne)
    | inr hmem =>
      have hrest := ih hrows.2 hmem
      by_cases hp : p r = true
      · rw [List.filter_cons_of_pos hp, List.map_cons]
        exact .pass (fun heq => hne row hmem heq.symm) hrest
      · rw [List.filter_cons_of_neg hp]
        exact hrest

end Path
end Operant.MultiWriter
