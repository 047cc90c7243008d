import Operant.Memory.Moves
import Operant.Memory.Runs

/-! Every transaction of the ledger is a chain of moves.

Only `deactivate` may make a revoked record inactive, only a copy and the maintenance put records into a dataset
without asking for its tombstone, and only a purge takes rows away. -/
namespace Operant.Memory
open Operant.Calls Operant.Calls.Transaction Operant.Tables

variable {sha256 : String → Digest} {start s : Ledger} {allow : Allowance}
variable {dataset record id : Id} {expected epoch : Option Nat} {owner : DatasetOwner}

/-! ### Versions and proposals -/

/-- What the checks of the tombstones leave. -/
theorem open_of_tombstones {ofRecord : Option Tombstone}
    (h : ¬(ofRecord.isSome ∨ (s.tombstones.find (dataset, none)).isSome)) : MayOpen allow s dataset := by
  rw [not_or, Option.not_isSome_iff_eq_none, Option.not_isSome_iff_eq_none] at h
  exact .inl h.2

theorem saveVersion_moves {version : MemoryVersion} {datasetId : Option Id} {epoch : Nat} {gap : Bool} :
    (saveVersion sha256 version datasetId expected epoch gap).Leads s fun _ t => Via s allow t := by
  refine leads_raiseIf fun _ => reads_tombstone (reads_tombstone (leads_raiseIf fun hnone => reads_version ?_))
  have hopen : MayOpen allow s version.ref.datasetId := open_of_tombstones hnone
  split
  · refine leads_raiseIf fun _ => reads_head ?_
    split
    · exact leads_pure .refl
    · exact leads_raiseIf fun _ => makes_head .refl hopen fun _ _ ht _ _ _ => leads_pure ht
  · refine reads_head ?_
    split
    · exact leads_raiseIf fun _ => leads_raiseIf fun _ => makes_head .refl hopen fun _ _ ht _ _ _ =>
        puts_version ht fun _ hu _ _ => leads_pure hu
    · exact leads_raiseIf fun _ => leads_raiseIf fun _ => leads_get (leads_raiseIf fun _ =>
        puts_version .refl fun _ ht _ _ => leads_pure ht)

theorem submitProposal_via {built : MemoryProposal} (h : Via start allow s)
    (hhead : s.heads.find (headKey built.baseHead) = some built.baseHead) (hstate : built.state = .pending) :
    (submitProposal built).Leads s fun _ t => Via start allow t := by
  refine puts_proposal h hhead hstate (fun t ht _ _ => leads_ite (fun _ => leads_pure ht) fun h => absurd rfl h) ?_
  exact leads_ite (fun h => by cases h) fun _ => reads_proposal (leads_raiseIf fun _ => leads_pure h)

/-- A head that is found has the key it was asked for. -/
theorem head_there {head : MemoryHead} (h : s.heads.find (dataset, record) = some head) :
    s.heads.find (headKey head) = some head :=
  (Keyed.find_key h).symm ▸ h

/-- The head of a record, or a new one. -/
theorem proposalHead_via {epoch : Nat} :
    (proposalHead dataset record (headForCreate dataset record epoch)).Leads s fun head t => Via s allow t ∧
      t.heads.find (headKey head) = some head := by
  refine reads_head ?_
  split
  · next hfind => exact leads_pure ⟨.refl, head_there hfind⟩
  · exact reads_tombstone (reads_tombstone (leads_raiseIf fun hnone => makes_head .refl (open_of_tombstones hnone)
      fun _ _ ht _ hhead _ => leads_pure ⟨ht, hhead⟩))

theorem proposeVersion_moves {request : ProposeRequest} {version : MemoryVersion} :
    (proposeVersion sha256 request version).Leads s fun _ t => Via s allow t := by
  refine leads_raiseIf fun _ => leads_raiseIf fun _ => leads_raiseIf fun _ => leads_raiseIf fun _ => ?_
  refine leads_bind ((@proposalHead_via s allow _ _ _).mono fun head t ht => ?_)
  have hsubmit : ∀ u, Via s allow u → u.heads = t.heads → (makeProposal request.proposalId version.owner
      (request.operation.getD (if head.revision = 0 then .create else .modify)) head version.ref version.sources
      request.extractorVersion request.reason >>= submitProposal).Leads u fun _ v => Via s allow v :=
    fun u hu hheads => makes_proposal fun built hbase _ hstate =>
      submitProposal_via hu (by rw [hbase, hheads]; exact ht.2) hstate
  refine leads_raiseIf fun _ => leads_raiseIf fun _ => reads_version ?_
  cases t.versions.find (version.ref.datasetId, version.ref.recordId, version.ref.version) with
  | none =>
    exact leads_get (leads_raiseIf fun _ => puts_version ht.1 fun u hu hheads _ => hsubmit u hu hheads)
  | some stored => exact leads_raiseIf fun _ => hsubmit t ht.1 rfl

theorem proposeStored_moves {request : ProposeRequest} {proposal : MemoryProposal} (h : Sound s) :
    (proposeStored request proposal).Leads s fun _ t => Via s allow t := by
  refine leads_bind (reads_head ?_)
  split
  · next head hfind =>
    refine leads_pure (leads_raiseIf fun _ => leads_raiseIf fun _ => leads_raiseIf fun hbase => reads_version ?_)
    split
    · exact leads_throw
    · refine leads_raiseIf fun _ => leads_raiseIf fun _ => leads_raiseIf fun hstate => ?_
      rw [not_not] at hbase hstate
      exact submitProposal_via .refl (by rw [hbase]; exact head_there hfind) hstate
  · next hfind =>
    refine reads_tombstone (reads_tombstone (leads_raiseIf fun _ => leads_bind (leads_pure
      (leads_bind (leads_insertHead.mono fun _ t ht => leads_pure ?_)))))
    obtain ⟨-, rfl⟩ := ht
    -- without a head there is no version either, so that nothing is committed
    refine leads_raiseIf fun _ => leads_raiseIf fun _ => leads_raiseIf fun _ => reads_version ?_
    have hempty := find_version_none h hfind proposal.proposedVersion.version
    dsimp only at hempty ⊢
    rw [hempty]
    exact leads_throw

theorem propose_moves {request : ProposeRequest} (h : Sound s) :
    (propose sha256 request).Leads s fun _ t => Via s allow t := by
  unfold propose
  split
  · exact proposeVersion_moves
  · exact proposeStored_moves h
  · exact leads_throw

theorem correct_moves {now : Instant} {request : CorrectRequest} (h : Sound s) :
    (correct sha256 now dataset record request).Leads s fun _ t => Via s allow t := by
  refine leads_raiseIf fun _ => reads_head (takes_found fun head _ => ?_)
  split
  · exact leads_throw
  · refine reads_version (takes_found fun current _ => leads_raiseIf fun _ => ?_)
    split
    · exact leads_raiseIf fun _ => leads_raiseIf fun _ => leads_bind (leads_pure (propose_moves h))
    · exact leads_raiseIf fun _ => leads_raiseIf fun _ => leads_bind (leads_pure (propose_moves h))
    · exact leads_throw

/-! ### Decisions -/

theorem refuseProposal_via {stored : MemoryProposal} {text : String} (h : Via start allow s)
    (hfind : s.proposals.find stored.proposalId = some stored) (hpending : stored.state = .pending) :
    (refuseProposal stored text).Leads s fun _ t => Via start allow t :=
  closes_proposal h hfind hpending (by decide) fun _ ht _ => leads_pure ht

/-- A stored proposal is found by its own id. -/
theorem stored_proposal {stored : MemoryProposal} (h : s.proposals.find id = some stored) :
    s.proposals.find stored.proposalId = some stored :=
  (Keyed.find_key h).symm ▸ h

/-- The head of a proposal's record is of the proposal's base. -/
theorem base_key {stored : MemoryProposal} {head : MemoryHead}
    (h : s.heads.find (stored.owner.datasetId, stored.baseHead.recordId) = some head) :
    headKey stored.baseHead = headKey head :=
  (proposal_key stored).symm.trans (Keyed.find_key h).symm

theorem confirmProposal_moves {datasetId : Option Id} :
    (confirmProposal id datasetId expected epoch).Leads s fun _ t => Via s allow t := by
  refine reads_proposal (takes_found fun stored hproposal => leads_raiseIf fun _ =>
    reads_head (takes_found fun head hfind => ?_))
  have hstored := stored_proposal hproposal
  refine leads_ite (fun _ => leads_raiseIf fun _ => leads_pure .refl) fun _ => leads_raiseIf fun hpending => ?_
  rw [not_not] at hpending
  refine leads_ite (fun _ => refuseProposal_via .refl hstored hpending) fun hrevision =>
    leads_ite (fun _ => refuseProposal_via .refl hstored hpending) fun halive => reads_version ?_
  rw [not_or, not_not, not_not] at hrevision
  refine leads_raiseIf fun _ => leads_ite (fun _ => refuseProposal_via .refl hstored hpending) fun _ => ?_
  refine publishes_head (@Via.refl s allow) (head_there hfind) hstored hpending (base_key hfind) hrevision.2.symm
    (by simpa using halive) hrevision.1.symm (fun cursor t ht _ hvia => ?_) fun cursor => ?_
  · exact leads_ite (fun _ => marks_proposal ht (leads_pure hvia)) fun h => absurd rfl h
  · exact leads_ite (fun h => by cases h) fun _ => refuseProposal_via (Via.refl.step .bump) hstored hpending

theorem rejectProposal_moves {datasetId : Option Id} :
    (rejectProposal id datasetId).Leads s fun _ t => Via s allow t := by
  refine reads_proposal (takes_found fun stored hproposal => leads_raiseIf fun _ =>
    leads_ite (fun _ => leads_pure .refl) fun _ => leads_raiseIf fun hpending => leads_last ?_)
  exact closes_proposal .refl (stored_proposal hproposal) (not_not.mp hpending) (by decide) fun _ ht _ => leads_pure ht

theorem promoteCandidate_moves {now : Instant} {request : PromoteRequest} {candidate : MemoryVersion}
    {head : MemoryHead} (hhead : s.heads.find (headKey head) = some head) :
    (promoteCandidate sha256 now request candidate head).Leads s fun _ t => Via s allow t := by
  refine leads_raiseIf fun halive => leads_raiseIf fun _ => leads_raiseIf fun _ => leads_raiseIf fun _ => leads_get ?_
  refine puts_version (@Via.refl s allow) fun t ht hheads _ => makes_proposal fun proposal hbase hversion hstate => ?_
  have hthere : t.heads.find (headKey proposal.baseHead) = some proposal.baseHead := by
    rw [hheads, hbase]
    exact hhead
  refine puts_proposal ht hthere hstate (fun u hu _ hstored => leads_raiseIf fun _ => ?_)
    (leads_raiseIf fun h => absurd rfl h)
  dsimp only
  rw [← hversion]
  refine publishes_head hu hhead hstored hstate (by rw [hbase]) (by rw [hbase]) (by simpa using halive) rfl
    (fun cursor v hv _ hvia => ?_) fun _ => leads_raiseIf fun h => absurd rfl h
  exact leads_raiseIf fun _ => marks_proposal hv (leads_pure hvia)

/-- A candidate that is stored has a head, so that none is created. -/
theorem promoteVerified_moves {now : Instant} {request : PromoteRequest} (h : Sound s) :
    (promoteVerified sha256 now request).Leads s fun _ t => Via s allow t := by
  refine leads_raiseIf fun _ => leads_raiseIf fun _ => reads_version ?_
  split
  · exact leads_throw
  · next hcandidate =>
    refine leads_raiseIf fun _ => leads_raiseIf fun _ => reads_head ?_
    split
    · next hfind => exact promoteCandidate_moves (head_there hfind)
    · next hfind =>
      rw [find_version_none h hfind] at hcandidate
      cases hcandidate

/-! ### Copies -/

/-- The cursors of the heads were given out. -/
def Bounded (ledger : Ledger) : Prop := ∀ head ∈ ledger.heads.rows, head.publicationCursor ≤ ledger.publicationCursor

section
variable {targetScope : Option Scope} {versions : List MemoryVersion}

theorem copyVersion_via {row : MemoryVersion} (h : Via start allow s) :
    (copyVersion sha256 owner targetScope row).Leads s fun _ t => Via start allow t := by
  refine leads_raiseIf fun _ => reads_version ?_
  split
  · exact leads_raiseIf fun _ => leads_pure h
  · exact puts_version h fun _ ht _ _ => leads_pure ht

/-- A head that publishes comes with the cursor that was just given out. -/
theorem copyHead_via {row : MemoryHead} (h : Via start allow s) (hlate : allow.late owner.datasetId)
    (hcursor : row.publicationCursor ≤ start.publicationCursor) :
    (copyHead owner versions row).Leads s fun _ t => Via start allow t := by
  refine leads_raiseIf fun _ => leads_ite (fun _ => leads_pure h) fun _ => ?_
  by_cases hpublished : row.state = .published
  · rw [copiedCursor, if_pos hpublished]
    refine takes_cursor (reads_head ?_)
    split
    · refine leads_insertHead.mono fun _ t ht => ?_
      obtain ⟨hnew, rfl⟩ := ht
      have hnew : s.heads.find (headKey (row.copied owner.datasetId (s.publicationCursor + 1))) = none := hnew
      exact h.step (.copy _ hnew (.inr hlate) rfl)
    · exact leads_guard.mono fun _ _ ht => ht.1 ▸ h.step .bump
  · rw [copiedCursor, if_neg hpublished, pure_bind]
    refine reads_head ?_
    split
    · exact leads_last (@puts_head _ _ _ _ _ (row.copied owner.datasetId row.publicationCursor) _ h (.inr hlate) hpublished
        (hcursor.trans h.cursor) fun _ ht _ _ => leads_pure ht)
    · exact leads_guard.mono fun _ _ ht => ht.1 ▸ h

theorem copyTombstone_via {row : Tombstone} (h : Via start allow s) :
    (copyTombstone owner row).Leads s fun _ t => Via start allow t := by
  refine reads_tombstone ?_
  split
  · exact leads_last (puts_tombstone (leads_pure (h.step (.tombstone _))))
  · exact leads_guard.mono fun _ _ ht => ht.1 ▸ h

theorem copyDataset_moves {source : Id} (h : Bounded s) (hlate : allow.late owner.datasetId) :
    (copyDataset sha256 source owner targetScope).Leads s fun _ t => Via s allow t := by
  refine leads_raiseIf fun _ => leads_get (leads_bind ((leads_mapM (P := fun _ t => Via s allow t)
    (fun row rest t ht => copyVersion_via ht) .refl).mono fun refs t ht => ?_))
  refine leads_bind ((leads_forM (P := Via s allow) (fun row hrow u hu => ?_) ht).mono fun _ u hu => ?_)
  · exact copyHead_via hu hlate (h row (List.mem_of_mem_filter ((List.mem_insertionSort _).mp hrow)))
  · exact leads_bind ((leads_forM (P := Via s allow) (fun row _ v hv => copyTombstone_via hv) hu).mono
      fun _ v hv => leads_pure hv)

end

/-! ### Reviews -/

/-- What is known of an entry that was checked. -/
structure Checked (accept : Bool) (ledger : Ledger) (entry : MemoryProposal × MemoryHead) : Prop where
  proposal : ledger.proposals.find entry.1.proposalId = some entry.1
  pending : entry.1.state = .pending
  head : ledger.heads.find (headKey entry.2) = some entry.2
  key : headKey entry.1.baseHead = headKey entry.2
  base : accept = true → entry.1.baseHead.revision = entry.2.revision ∧ entry.2.state.isTombstoned = false

section
variable {accept : Bool} {datasetId : Option Id}

theorem reviewEntry_checks {before : List (MemoryProposal × MemoryHead)} {entry : ExactProposal} :
    (reviewEntry accept datasetId epoch before entry).Leads s fun checked t => t = s ∧
      ∃ e, checked = before ++ [e] ∧ e.1.proposalId = entry.proposalId ∧ Checked accept s e := by
  refine reads_proposal (takes_found fun stored hproposal => leads_raiseIf fun _ => leads_raiseIf fun _ =>
    leads_raiseIf fun _ => leads_raiseIf fun _ => leads_raiseIf fun hbase => leads_raiseIf fun hpending =>
    leads_raiseIf fun _ => reads_head (takes_found fun head hfind => leads_raiseIf fun hrevision =>
    leads_raiseIf fun halive => leads_raiseIf fun _ => reads_version (leads_raiseIf fun _ => leads_pure ?_)))
  refine ⟨rfl, (stored, head), rfl, Keyed.find_key hproposal, stored_proposal hproposal, not_not.mp hpending,
    head_there hfind, base_key hfind, fun haccept => ?_⟩
  rw [not_not] at hbase
  simp only [haccept, true_and, not_not, Bool.not_eq_true] at hrevision halive
  exact ⟨hbase.trans hrevision.symm, halive⟩

theorem reviewEntries_check {before : List (MemoryProposal × MemoryHead)} {entries : List ExactProposal}
    (hbefore : ∀ e ∈ before, Checked accept s e) :
    (entries.foldlM (reviewEntry accept datasetId epoch) before : Txn _).Leads s fun checked t => t = s ∧
      checked.map (·.1.proposalId) = before.map (·.1.proposalId) ++ entries.map (·.proposalId) ∧
      ∀ e ∈ checked, Checked accept s e := by
  induction entries generalizing before with
  | nil => exact leads_pure ⟨rfl, (List.append_nil _).symm, hbefore⟩
  | cons entry rest ih =>
    rw [List.foldlM_cons]
    refine leads_bind (reviewEntry_checks.mono fun checked t hchecked => ?_)
    obtain ⟨rfl, e, rfl, hid, he⟩ := hchecked
    refine (ih (List.forall_mem_append.mpr ⟨hbefore, List.forall_mem_singleton.mpr he⟩)).mono fun checked t hall => ?_
    refine ⟨hall.1, hall.2.1.trans ?_, hall.2.2⟩
    rw [List.map_append, List.map_singleton, List.append_assoc, hid, List.map_cons, List.singleton_append]

theorem retireRelated_via {targets : List MemoryVersionRef} {proposals : List MemoryProposal} (h : Via start allow s)
    (hsame : s = start) :
    (retireRelated targets proposals).Leads s fun _ t => Via start allow t ∧ t.proposals = s.proposals := by
  subst hsame
  refine leads_bind ((leads_mapM_each
    (R := fun head => s.heads.find (headKey head) = some head ∧ head.state = .published) fun target => ?_).mono ?_)
  · refine reads_head ?_
    split
    · exact leads_throw
    · next head hfilter =>
      obtain ⟨hfind, hhead⟩ := Option.filter_eq_some_iff.mp hfilter
      rw [Bool.and_eq_true, decide_eq_true_eq, decide_eq_true_eq] at hhead
      exact leads_pure ⟨rfl, head_there hfind, hhead.2⟩
  · rintro heads t ⟨rfl, hall⟩
    refine leads_forM (P := fun u => Via t allow u ∧ u.proposals = t.proposals) (fun head hhead u hu => ?_) ⟨h, rfl⟩
    obtain ⟨hstart, hpublished⟩ := hall head hhead
    refine ends_head hu.1 hstart ⟨rfl, ?_, ?_⟩ fun _ _ v hv hproposals => leads_pure ⟨hv, hproposals.trans hu.2⟩
    · rw [hpublished]; exact fun h => by cases h
    · rw [hpublished]; exact fun h => by cases h

/-- Deciding one proposal leaves the others. -/
theorem others_stored {proposal : MemoryProposal} {state : ProposalState} {t : Ledger}
    (ht : t.proposals = s.proposals.set (proposal.closed state)) {others : List MemoryProposal}
    (hother : proposal.proposalId ∉ others.map (·.proposalId)) :
    ∀ p ∈ others, s.proposals.find p.proposalId = some p → t.proposals.find p.proposalId = some p := by
  intro p hp hfind
  rw [ht, Keyed.find_set, if_neg, hfind]
  intro hsame
  have hmem := List.mem_map_of_mem (f := (·.proposalId)) hp
  rw [hsame] at hmem
  exact hother hmem

/-- The checked entries are decided one after the other, each of them once. -/
theorem decideEntries_via {entries : List (MemoryProposal × MemoryHead)} (h : Via start allow s)
    (hdistinct : (entries.map (·.1.proposalId)).Nodup)
    (hall : ∀ e ∈ entries, Checked accept start e ∧ s.proposals.find e.1.proposalId = some e.1) :
    (entries.forM fun entry =>
      if accept then acceptEntry entry
      else do
        let _ ← markProposalState entry.1 .rejected
        pure ⟨⟩).Leads s fun _ t => Via start allow t := by
  refine (leads_forM_rest (P := fun rest u => Via start allow u ∧ (rest.map (·.1.proposalId)).Nodup ∧
    ∀ e ∈ rest, Checked accept start e ∧ u.proposals.find e.1.proposalId = some e.1) ?_ ⟨h, hdistinct, hall⟩).mono
    fun _ _ hu => hu.1
  rintro e rest u ⟨hu, hdistinct, hrest⟩
  obtain ⟨hchecked, hfind⟩ := hrest e List.mem_cons_self
  obtain ⟨hother, hdistinct⟩ := List.nodup_cons.mp hdistinct
  have hkeep : ∀ v : Ledger, ∀ state, v.proposals = u.proposals.set (e.1.closed state) → ∀ other ∈ rest,
      Checked accept start other ∧ v.proposals.find other.1.proposalId = some other.1 := by
    intro v state hv other hmem
    obtain ⟨hchecked, hfind⟩ := hrest other (List.mem_cons_of_mem _ hmem)
    refine ⟨hchecked, @others_stored u e.1 state v hv (rest.map (·.1)) ?_ other.1 (List.mem_map_of_mem hmem) hfind⟩
    rw [List.map_map]
    exact hother
  refine leads_ite (fun haccept => ?_) fun _ => ?_
  · obtain ⟨hbase, halive⟩ := hchecked.base haccept
    refine publishes_head hu hchecked.head hfind hchecked.pending hchecked.key hbase halive rfl
      (fun cursor v hv hsame hvia => ?_) fun _ => leads_raiseIf fun h => absurd rfl h
    exact leads_raiseIf fun _ => marks_proposal hv (leads_pure ⟨hvia, hdistinct, hkeep _ _ (by rw [hsame])⟩)
  · exact closes_proposal hu hfind hchecked.pending (by decide) fun v hv hsame =>
      leads_pure ⟨hv, hdistinct, hkeep v _ hsame⟩

theorem reviewProposalsBatch_moves {targets : List MemoryVersionRef} {entries : List ExactProposal} :
    (reviewProposalsBatch accept datasetId epoch (retireRelated targets) entries).Leads s
      fun _ t => Via s allow t := by
  refine leads_raiseIf fun _ => leads_raiseIf fun hnodup =>
    leads_bind ((reviewEntries_check (List.forall_mem_nil _)).mono fun checked t hchecked => ?_)
  obtain ⟨rfl, hids, hall⟩ := hchecked
  refine leads_raiseIf fun _ => leads_bind ((retireRelated_via (@Via.refl t allow) rfl).mono fun _ u hu => ?_)
  refine decideEntries_via hu.1 ?_ fun e he => ⟨hall e he, by rw [hu.2]; exact (hall e he).proposal⟩
  rw [hids]
  exact not_not.mp hnodup

end

/-! ### The end of records -/

theorem deactivate_moves {revoke : Bool} (h : Via start allow s) (hsame : s = start)
    (hweaken : revoke = false → allow.weaken (dataset, record)) :
    (deactivate dataset record expected epoch revoke).Leads s fun _ t => Via start allow t := by
  refine reads_head (takes_found fun head hfind => ?_)
  refine leads_ite (fun _ => leads_pure h) fun _ => leads_raiseIf fun hdeleted => leads_raiseIf fun _ => ?_
  refine leads_raiseIf fun _ => ends_head h (hsame ▸ head_there hfind) ⟨?_, fun h => absurd h hdeleted, ?_⟩
    fun cursor updated t ht _ => leads_raiseIf fun _ => leads_ite (fun _ => ?_) fun _ => leads_pure ht
  · cases revoke <;> rfl
  · rw [Keyed.find_key hfind]
    cases revoke with
    | true => exact fun _ h => by cases h
    | false => exact fun _ _ => hweaken rfl
  · exact puts_tombstone (leads_pure (ht.step (.tombstone _)))

theorem cancelPending_via (h : Via start allow s) :
    (cancelPending dataset record).Leads s fun _ t => Via start allow t := by
  refine leads_get ((leads_forM_rest (P := fun rest t => Via start allow t ∧ (rest.map (·.proposalId)).Nodup ∧
    ∀ p ∈ rest, p.state = .pending ∧ t.proposals.find p.proposalId = some p) ?_ ⟨h, ?_, fun p hp => ?_⟩).mono
    fun _ _ ht => ht.1)
  · rintro proposal rest t ⟨ht, hdistinct, hrest⟩
    obtain ⟨hpending, hfind⟩ := hrest proposal List.mem_cons_self
    obtain ⟨hother, hdistinct⟩ := List.nodup_cons.mp hdistinct
    refine leads_raiseIf fun _ => closes_proposal ht hfind hpending (by decide) fun u hu hsame =>
      leads_pure ⟨hu, hdistinct, fun p hp => ?_⟩
    obtain ⟨hpending, hfind⟩ := hrest p (List.mem_cons_of_mem _ hp)
    exact ⟨hpending, others_stored hsame hother p hp hfind⟩
  · exact (List.filter_sublist.map _).nodup s.proposals.keys
  · rw [List.mem_filter, Bool.and_eq_true, decide_eq_true_eq] at hp
    exact ⟨hp.2.2, Keyed.find_some.mpr ⟨hp.1, rfl⟩⟩

theorem deleteHead_via {head : MemoryHead} (h : Via start allow s)
    (hstart : start.heads.find (headKey head) = some head) :
    (deleteHead head).Leads s fun _ t => Via start allow t :=
  ends_head h hstart ⟨rfl, fun _ => rfl, fun _ h => by cases h⟩ fun _ _ _ ht _ => leads_raiseIf fun _ =>
    leads_bind ((cancelPending_via ht).mono fun _ _ hu => puts_tombstone (leads_pure (hu.step (.tombstone _))))

theorem deleteRecord_moves : (deleteRecord dataset record expected epoch).Leads s fun _ t => Via s allow t := by
  refine reads_head ?_
  split
  · exact reads_tombstone (leads_found.mono fun _ _ ht => ht.1 ▸ .refl)
  · next hfind => exact leads_raiseIf fun _ => leads_raiseIf fun _ => deleteHead_via .refl (head_there hfind)

theorem deleteDataset_moves : (deleteDataset dataset).Leads s fun _ t => Via s allow t := by
  refine leads_get (leads_bind ((leads_forM (P := Via s allow) (fun head hmem t ht => ?_) .refl).mono fun _ t ht => ?_))
  · have hmem : head ∈ s.heads.rows := List.mem_of_mem_filter ((List.mem_insertionSort _).mp hmem)
    refine leads_raiseIf fun _ => leads_ite (fun _ => leads_pure ht) fun _ => ?_
    exact leads_bind ((deleteHead_via ht (Keyed.find_some.mpr ⟨hmem, rfl⟩)).mono fun _ u hu => leads_pure hu)
  · refine reads_tombstone ?_
    split
    · exact leads_pure ht
    · exact leads_get (takes_cursor (leads_last (puts_tombstone (leads_pure ((ht.step .bump).step (.tombstone _))))))

/-! ### Imports and candidates -/

theorem importRecord_via {epoch : Nat} {row : LegacyRecord} (h : Via start allow s)
    (hopen : MayOpen allow s owner.datasetId) :
    (importRecord sha256 owner epoch row).Leads s fun _ t => Via start allow t ∧ t.tombstones = s.tombstones := by
  refine leads_get ?_
  split
  · exact leads_raiseIf fun _ => reads_version (leads_pure ⟨h, rfl⟩)
  · have hhead : (importHead owner epoch row.recordId).Leads s
        fun _ t => Via start allow t ∧ t.tombstones = s.tombstones := by
      refine reads_head ?_
      split
      · exact leads_pure ⟨h, rfl⟩
      · exact leads_bind (leads_raiseIf fun _ => leads_pure (leads_last (puts_head h hopen (fun h => by cases h)
          (Nat.zero_le _) fun _ ht _ hsame => leads_pure ⟨ht, hsame⟩)))
    refine leads_raiseIf fun _ => leads_raiseIf fun _ => leads_bind (hhead.mono fun _ t ht => ?_)
    have hversion : (importVersion sha256 (row.toVersion sha256 owner)).Leads t
        fun _ u => Via start allow u ∧ u.tombstones = s.tombstones := by
      refine reads_version ?_
      split
      · exact leads_last (puts_version ht.1 fun u hu _ hsame => leads_pure ⟨hu, hsame.trans ht.2⟩)
      · exact leads_guard.mono fun _ _ hu => hu.1 ▸ ht
    refine leads_bind (hversion.mono fun _ u hu => leads_bind (leads_get ?_))
    split
    · exact leads_throw
    · intro _ v hrun
      rw [← (Prod.mk.inj (Except.ok.inj hrun)).2]
      exact leads_pure ⟨hu.1.step (.imports _), hu.2⟩

theorem proposeImported_via {newId : Id → Id} (h : Via start allow s) :
    (proposeImported owner newId record).Leads s fun _ t => Via start allow t := by
  refine reads_head ?_
  split
  · exact leads_pure h
  · next head hfind =>
    refine leads_get (reads_version ?_)
    split
    · exact leads_pure h
    · refine leads_ite (fun _ => leads_pure h) fun _ => makes_proposal fun proposal hbase _ hstate => ?_
      exact puts_proposal h (by rw [hbase]; exact head_there hfind) hstate
        (fun t ht _ _ => leads_guard.mono fun _ _ hu => hu.1 ▸ ht) (leads_guard.mono fun _ _ hu => hu.1 ▸ h)

theorem migrateLegacy_moves {epoch : Nat} {newId : Id → Id} {rows : List LegacyRecord} :
    (migrateLegacy sha256 owner epoch newId rows).Leads s fun _ t => Via s allow t := by
  refine reads_tombstone (leads_raiseIf fun hnone => leads_bind ((leads_mapM
    (P := fun _ t => Via s allow t ∧ MayOpen allow t owner.datasetId)
    (fun row rest t ht => ?_) ⟨.refl, .inl (Option.not_isSome_iff_eq_none.mp hnone)⟩).mono fun imported t ht => ?_))
  · refine (importRecord_via ht.1 ht.2).mono fun _ u hu => ⟨hu.1, ?_⟩
    rw [MayOpen, hu.2]
    exact ht.2
  · exact leads_forM (P := Via s allow) (fun record _ u hu => proposeImported_via hu) ht.1

section
variable {version : MemoryVersion} {maintenance : Bool} {operation : Operation} {extractor : Id} {reason : Reason}

theorem storeCandidateAt_via {head : MemoryHead} (h : Via start allow s)
    (hhead : s.heads.find (headKey head) = some head) :
    (storeCandidateAt sha256 version maintenance operation extractor reason id head).Leads s
      fun _ t => Via start allow t := by
  have hrest : ∀ t, Via start allow t → t.heads = s.heads → (do
      let proposal ← makeProposal id version.owner operation head version.ref version.sources extractor reason
      let isNew ← insertProposal proposal
      raiseIf (!isNew) (.conflict "proposal identity or idempotency key already exists")
      pure proposal : Txn MemoryProposal).Leads t fun _ u => Via start allow u :=
    fun t ht hheads => makes_proposal fun proposal hbase _ hstate => puts_proposal ht
      (by rw [hbase, hheads]; exact hhead) hstate (fun _ hu _ _ => leads_raiseIf fun _ => leads_pure hu)
      (leads_raiseIf fun h => absurd rfl h)
  refine reads_version ?_
  split
  · exact puts_version h fun t ht hheads _ => hrest t ht hheads
  · exact leads_raiseIf fun _ => hrest s h rfl

theorem storeCandidate_via {epoch : Nat} (h : Via start allow s)
    (hlate : maintenance = true → allow.late version.ref.datasetId) :
    (storeCandidate sha256 maintenance version expected epoch operation extractor reason id).Leads s
      fun _ t => Via start allow t := by
  refine reads_head ?_
  split
  · next hfind =>
    exact leads_raiseIf fun _ => leads_get (leads_raiseIf fun _ => leads_raiseIf fun _ => leads_raiseIf fun _ =>
      storeCandidateAt_via h (head_there hfind))
  · refine reads_tombstone (reads_tombstone (leads_raiseIf fun hnone => leads_raiseIf fun _ =>
      makes_head h ?_ fun head t ht _ hhead _ => storeCandidateAt_via ht hhead))
    cases maintenance with
    | true => exact .inr (hlate rfl)
    | false => exact open_of_tombstones fun h => hnone ⟨rfl, h⟩

end

/-! ### Steps -/

/-- The call of `deactivate` that makes a record inactive. -/
def Weakens (s t : Ledger) (k : Id × Id) : Prop :=
  ∃ expected epoch head, (deactivate k.1 k.2 expected epoch false).run s = .ok (head, t)

/-- The calls that put records into a dataset and do not ask whether it is deleted: a copy, and a candidate of the
maintenance. -/
def Lates (sha256 : String → Digest) (s t : Ledger) (dataset : Id) : Prop :=
  (∃ source owner scope refs, owner.datasetId = dataset ∧
    (copyDataset sha256 source owner scope).run s = .ok (refs, t)) ∨
  ∃ version expected epoch operation extractor reason id proposal, version.ref.datasetId = dataset ∧
    (storeCandidate sha256 true version expected epoch operation extractor reason id).run s = .ok (proposal, t)

/-- Every step is a chain of moves, or a purge. -/
theorem step_moves {t : Ledger} (h : Sound s) (hbounded : Bounded s) (hstep : Step sha256 s t) :
    Via s ⟨Weakens s t, Lates sha256 s t⟩ t ∨ ∃ dataset, (purge dataset).run s = .ok (⟨⟩, t) := by
  cases hstep with
  | save version dataset expected epoch gap hrun => exact .inl (saveVersion_moves _ t hrun)
  | propose request hrun => exact .inl (propose_moves h _ t hrun)
  | correct now dataset record request hrun => exact .inl (correct_moves h _ t hrun)
  | confirm id dataset expected epoch hrun => exact .inl (confirmProposal_moves _ t hrun)
  | reject id dataset hrun => exact .inl (rejectProposal_moves _ t hrun)
  | promote now request hrun => exact .inl (promoteVerified_moves h _ t hrun)
  | copy source owner scope hrun =>
    exact .inl (copyDataset_moves hbounded (Or.inl ⟨source, owner, scope, _, rfl, hrun⟩) _ t hrun)
  | review accept dataset epoch targets entries hrun => exact .inl (reviewProposalsBatch_moves _ t hrun)
  | deactivate dataset record expected epoch revoke hrun =>
    refine .inl (deactivate_moves .refl rfl (fun hrevoke => ?_) _ t hrun)
    subst hrevoke
    exact ⟨expected, epoch, _, hrun⟩
  | delete dataset record expected epoch hrun => exact .inl (deleteRecord_moves _ t hrun)
  | deleteDataset dataset hrun => exact .inl (deleteDataset_moves _ t hrun)
  | purge dataset hrun => exact .inr ⟨dataset, hrun⟩
  | migrate owner epoch newId records hrun => exact .inl (migrateLegacy_moves _ t hrun)
  | candidate maintenance version expected epoch operation extractor reason id hrun =>
    refine .inl (storeCandidate_via .refl (fun hmaintenance => Or.inr ?_) _ t hrun)
    subst hmaintenance
    exact ⟨version, expected, epoch, operation, extractor, reason, id, _, rfl, hrun⟩

end Operant.Memory
