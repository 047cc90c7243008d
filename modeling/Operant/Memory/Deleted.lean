import Operant.Memory.Changes

/-! A dataset that was deleted has no record that is not deleted, whatever is called afterwards.

Every call that puts a head asks for the dataset's tombstone first, except two: a copy into the dataset and a
candidate of the maintenance. A purge takes the heads away and leaves the tombstone. -/
namespace Operant.Memory
open Operant.Calls Operant.Calls.Transaction Operant.Tables

variable {sha256 : String → Digest} {s t : Ledger} {dataset : Id}

/-- A dataset that is deleted, and all its records. -/
structure DatasetDeleted (dataset : Id) (ledger : Ledger) : Prop where
  tombstone : (ledger.tombstones.find (dataset, none)).isSome = true
  heads : ∀ k head, ledger.heads.find k = some head → k.1 = dataset → head.state = .deleted

/-! ### The deletion -/

theorem deleteHead_deletes {head : MemoryHead} :
    (deleteHead head).Leads s fun _ t => (∃ now, t.heads.find (headKey head) = some now ∧ now.state = .deleted) ∧
      ∀ k ≠ headKey head, t.heads.find k = s.heads.find k := by
  refine takes_cursor (updates_head (fun row hrow _ => leads_raiseIf fun _ => ?_) (leads_raiseIf fun h => absurd rfl h))
  refine leads_bind (cancelPending_same.mono fun _ u hu => puts_tombstone (leads_pure ?_))
  dsimp only
  rw [hu.2]
  refine ⟨⟨_, (Keyed.find_set.trans (if_pos rfl)).trans (congrArg (Option.map _) hrow), rfl⟩, fun k hk => ?_⟩
  exact Keyed.find_set.trans (if_neg hk)

/-- The heads that are still to be deleted are as they were found. -/
structure Deleting (dataset : Id) (rest : List MemoryHead) (ledger : Ledger) : Prop where
  distinct : (rest.map headKey).Nodup
  there : ∀ head ∈ rest, ledger.heads.find (headKey head) = some head
  others : ∀ k head, ledger.heads.find k = some head → k.1 = dataset → head.state = .deleted ∨ k ∈ rest.map headKey

theorem deleteDataset_deletes : (deleteDataset dataset).Leads s fun _ t => DatasetDeleted dataset t := by
  refine leads_get ?_
  dsimp only
  generalize hheads : (s.heads.rows.filter (·.datasetId = dataset)).insertionSort (·.recordId ≤ ·.recordId) = heads
  have hmem : ∀ head, head ∈ heads ↔ head ∈ s.heads.rows ∧ head.datasetId = dataset := fun head => by
    rw [← hheads, List.mem_insertionSort, List.mem_filter, decide_eq_true_eq]
  have hdistinct : (heads.map headKey).Nodup := by
    rw [← hheads]
    refine ((List.perm_insertionSort _ _).map headKey).nodup_iff.mpr ?_
    exact (List.filter_sublist.map headKey).nodup s.heads.keys
  have hstart : Deleting dataset heads s := by
    refine ⟨hdistinct, fun head h => Keyed.find_some.mpr ⟨((hmem head).mp h).1, rfl⟩, fun k head hfind hk => .inr ?_⟩
    obtain ⟨hrow, hkey⟩ := Keyed.find_some.mp hfind
    subst hkey
    exact List.mem_map_of_mem ((hmem head).mpr ⟨hrow, hk⟩)
  refine leads_bind ((leads_forM_rest (P := Deleting dataset) (fun head rest u hu => ?_) hstart).mono fun _ u hu => ?_)
  · obtain ⟨hother, hdistinct⟩ := List.nodup_cons.mp hu.distinct
    refine leads_raiseIf fun _ => leads_ite (fun hdeleted => leads_pure ?_) fun _ =>
      leads_bind (deleteHead_deletes.mono fun _ v hv => leads_pure ?_)
    · refine ⟨hdistinct, fun h hmem => hu.there h (List.mem_cons_of_mem _ hmem), fun k now hfind hk => ?_⟩
      obtain hdone | hwaits := hu.others k now hfind hk
      · exact .inl hdone
      · obtain rfl | hwaits := List.mem_cons.mp hwaits
        · rw [hu.there head List.mem_cons_self] at hfind
          exact .inl (Option.some.inj hfind ▸ hdeleted)
        · exact .inr hwaits
    · obtain ⟨⟨next, hnext, hdeleted⟩, hkept⟩ := hv
      refine ⟨hdistinct, fun h hmem => ?_, fun k now hfind hk => ?_⟩
      · rw [hkept _ fun hsame => hother (hsame ▸ List.mem_map_of_mem hmem)]
        exact hu.there h (List.mem_cons_of_mem _ hmem)
      · by_cases hsame : k = headKey head
        · rw [hsame, hnext] at hfind
          exact .inl (Option.some.inj hfind ▸ hdeleted)
        · rw [hkept k hsame] at hfind
          exact (hu.others k now hfind hk).imp_right fun hwaits => (List.mem_cons.mp hwaits).resolve_left hsame
  · have hdone : ∀ k head, u.heads.find k = some head → k.1 = dataset → head.state = .deleted :=
      fun k head hfind hk => (hu.others k head hfind hk).resolve_right List.not_mem_nil
    refine reads_tombstone ?_
    split
    · next row hfound => exact leads_pure ⟨by rw [hfound]; rfl, hdone⟩
    · refine leads_get (takes_cursor (leads_last (puts_tombstone (leads_pure ⟨?_, hdone⟩))))
      rw [Keyed.find_put, if_pos rfl]
      rfl

/-! ### Runs -/

/-- A step that neither copies records into the dataset nor extracts one for it. -/
def Unextended (sha256 : String → Digest) (dataset : Id) (s t : Ledger) : Prop :=
  Step sha256 s t ∧ ¬Lates sha256 s t dataset

theorem unextended_deleted (hreach : Reachable sha256 s) (h : DatasetDeleted dataset s)
    (hstep : Unextended sha256 dataset s t) : DatasetDeleted dataset t := by
  obtain ⟨hstep, hlate⟩ := hstep
  obtain hvia | ⟨other, hrun⟩ := step_moves (reachable_sound hreach) (reachable_linear hreach).bounded hstep
  · refine ⟨?_, fun k now hnow hk => ?_⟩
    · have htombstone := h.tombstone
      rw [Option.isSome_iff_ne_none] at htombstone ⊢
      exact fun hnone => htombstone (hvia.tombstones hnone)
    · cases hstart : s.heads.find k with
      | none =>
        obtain hopen | hopen := (hvia.created hstart hnow).1
        · have htombstone := h.tombstone
          rw [← hk, hopen] at htombstone
          cases htombstone
        · exact absurd (hk ▸ hopen) hlate
      | some head =>
        have hdeleted := h.heads k head hstart hk
        obtain ⟨other, hother, hmoved⟩ := hvia.moved hstart
        rw [hnow] at hother
        cases hother
        obtain rfl | ⟨hmoved, -⟩ := hmoved
        · exact hdeleted
        · cases hmoved with
          | published p hmem hnew hby halive heq => rw [hdeleted] at halive; cases halive
          | ended hmay heq => exact hmay.2.1 hdeleted
  · refine ⟨(Prod.mk.inj (Except.ok.inj hrun)).2 ▸ h.tombstone, fun k head hfind hk => h.heads k head ?_ hk⟩
    rw [purge_find hrun] at hfind
    split at hfind
    · cases hfind
    · exact hfind

end Operant.Memory
