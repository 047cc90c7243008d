import Operant.Memory.Sound

/-! Every transaction leaves a sound ledger, and so every run does. -/
namespace Operant.Memory
open Operant.Calls Operant.Calls.Transaction Operant.Tables

/-! ### Transactions -/

/-- A transaction that leaves a sound ledger. -/
def Keeps {α : Type} (m : Txn α) : Prop := ∀ s, Sound s → m.Leads s fun _ t => Sound t

section
variable {sha256 : String → Digest} {s : Ledger}

/-- A head for a record that has none. -/
theorem keeps_newHead {pending : Id → Id → Prop} {dataset record : Id} {epoch : Nat} (h : SoundBut pending s) :
    (headForCreate dataset record epoch >>= insertHead).Leads s fun _ t => SoundBut pending t ∧
      t.versions = s.versions ∧ Headed t dataset record := by
  refine leads_bind (leads_headForCreate.mono ?_)
  rintro head t ⟨rfl, hkey, hnone⟩
  refine (keeps_insertHead h (published_none hnone)).mono ?_
  rintro _ t ⟨hsound, hversions, -, hmem⟩
  exact ⟨hsound, hversions, head, hmem, hkey⟩

theorem saveVersion_keeps {version : MemoryVersion} {datasetId : Option Id} {expected : Option Nat} {epoch : Nat}
    {gap : Bool} : Keeps (saveVersion sha256 version datasetId expected epoch gap) := by
  intro s h
  refine leads_raiseIf fun _ => leads_bind (leads_storedTombstone.mono ?_)
  rintro _ _ rfl
  refine leads_bind (leads_storedTombstone.mono ?_)
  rintro _ _ rfl
  refine leads_raiseIf fun _ => leads_bind (leads_storedVersion.mono ?_)
  rintro existing _ ⟨rfl, -, -⟩
  cases existing with
  | some existing =>
    refine leads_raiseIf fun _ => leads_bind (leads_storedHead.mono ?_)
    rintro head _ ⟨rfl, -, -⟩
    cases head with
    | some head => exact leads_pure h
    | none =>
      refine leads_raiseIf fun _ => leads_bind (leads_headForCreate.mono ?_)
      rintro head _ ⟨rfl, -, hnone⟩
      refine leads_bind ((keeps_insertHead h (published_none hnone)).mono ?_)
      rintro _ _ ⟨hsound, -, -, -⟩
      exact leads_pure hsound
  | none =>
    refine leads_bind (leads_storedHead.mono ?_)
    rintro head _ ⟨rfl, hfind, -⟩
    cases head with
    | none =>
      refine leads_raiseIf fun _ => leads_raiseIf fun _ => leads_bind (leads_headForCreate.mono ?_)
      rintro head _ ⟨rfl, hkey, hnone⟩
      refine leads_bind ((keeps_insertHead h (published_none hnone)).mono ?_)
      rintro _ _ ⟨hsound, -, -, hmem⟩
      refine leads_bind ((keeps_insertVersion hsound (.inr ⟨head, hmem, hkey⟩)).mono ?_)
      rintro _ _ ⟨hsound, -, -⟩
      exact leads_pure hsound
    | some head =>
      refine leads_raiseIf fun _ => leads_raiseIf fun _ => leads_get (leads_raiseIf fun _ => ?_)
      refine leads_bind ((keeps_insertVersion h (.inr (headed_of_find hfind.symm))).mono ?_)
      rintro _ _ ⟨hsound, -, -⟩
      exact leads_pure hsound

theorem submitProposal_same {built : MemoryProposal} : (submitProposal built).Leads s fun _ t => Same s t := by
  refine leads_bind (leads_insertProposal.mono ?_)
  intro isNew t hsame
  refine leads_ite (fun _ => leads_pure hsame) fun _ => leads_bind (leads_storedProposal.mono ?_)
  rintro _ _ ⟨rfl, -, -⟩
  exact leads_raiseIf fun _ => leads_pure hsame

theorem proposalHead_keeps {dataset record : Id} {create : Txn MemoryHead} (h : Sound s)
    (hcreate : create.Leads s fun head t => t = s ∧ headKey head = (dataset, record) ∧ Published s head) :
    (proposalHead dataset record create).Leads s fun head t => Sound t ∧ t.versions = s.versions ∧
      headKey head = (dataset, record) ∧ Headed t dataset record := by
  refine leads_bind (leads_storedHead.mono ?_)
  rintro found _ ⟨rfl, hfind, -⟩
  cases found with
  | some head => exact leads_pure ⟨h, rfl, Keyed.find_key hfind.symm, headed_of_find hfind.symm⟩
  | none =>
    refine leads_bind (leads_storedTombstone.mono ?_)
    rintro _ _ rfl
    refine leads_bind (leads_storedTombstone.mono ?_)
    rintro _ _ rfl
    refine leads_raiseIf fun _ => leads_bind (hcreate.mono ?_)
    rintro head _ ⟨rfl, hkey, hpublished⟩
    refine leads_bind ((keeps_insertHead h hpublished).mono ?_)
    rintro _ _ ⟨hsound, hversions, -, hmem⟩
    exact leads_pure ⟨hsound, hversions, hkey, head, hmem, hkey⟩

theorem proposeVersion_keeps {request : ProposeRequest} {version : MemoryVersion} :
    Keeps (proposeVersion sha256 request version) := by
  intro s h
  refine leads_raiseIf fun _ => leads_raiseIf fun _ => leads_raiseIf fun _ => leads_raiseIf fun _ => ?_
  refine leads_bind ((proposalHead_keeps h (leads_headForCreate.mono ?_)).mono ?_)
  · rintro head _ ⟨rfl, hkey, hnone⟩
    exact ⟨rfl, hkey, published_none hnone⟩
  rintro head t ⟨hsound, -, -, hheaded⟩
  refine leads_raiseIf fun _ => leads_raiseIf fun _ => leads_bind (leads_storedVersion.mono ?_)
  rintro stored _ ⟨rfl, -, -⟩
  have hsubmit : ∀ u, Sound u → (makeProposal request.proposalId version.owner
      (request.operation.getD (if head.revision = 0 then .create else .modify)) head version.ref version.sources
      request.extractorVersion request.reason >>= submitProposal).Leads u fun _ v => Sound v := by
    intro u hu
    refine leads_bind (leads_makeProposal.mono ?_)
    rintro built _ ⟨rfl, -⟩
    exact submitProposal_same.mono fun _ _ hsame => hu.same hsame
  cases stored with
  | none =>
    refine leads_get (leads_raiseIf fun _ => leads_bind ((keeps_insertVersion hsound (.inr hheaded)).mono ?_))
    rintro _ u ⟨hu, -, -⟩
    exact hsubmit u hu
  | some stored => exact leads_raiseIf fun _ => hsubmit _ hsound

/-- A record without a head has no version. -/
theorem find_version_none {dataset record : Id} (h : Sound s) (hnone : s.heads.find (dataset, record) = none)
    (version : Nat) : s.versions.find (dataset, record, version) = none := by
  refine Keyed.find_none.mpr fun row hrow hkey => ?_
  have hids : row.ref.datasetId = dataset ∧ row.ref.recordId = record := by
    simp only [versionKey, Prod.mk.injEq] at hkey
    exact ⟨hkey.1, hkey.2.1⟩
  obtain hfalse | ⟨head, hhead, hkey'⟩ := h.headed row hrow
  · exact hfalse
  · rw [hids.1, hids.2] at hkey'
    exact Keyed.find_none.mp hnone head hhead hkey'

/-- A proposal that is given for a record without a head names no stored version, so that the head it brings
is not kept. -/
theorem proposeStored_keeps {request : ProposeRequest} {proposal : MemoryProposal} :
    Keeps (proposeStored request proposal) := by
  intro s h
  have hrest : ∀ head u, ((∀ version, u.versions.find (proposal.owner.datasetId, proposal.baseHead.recordId,
      version) = none) ∨ Sound u) → (proposeAt request proposal head).Leads u fun _ v => Sound v := by
    intro head u hu
    refine leads_raiseIf fun _ => leads_raiseIf fun _ => leads_raiseIf fun _ => ?_
    refine leads_bind (leads_storedVersion.mono ?_)
    rintro target _ ⟨rfl, htarget, -⟩
    cases hu with
    | inl hempty =>
      rw [htarget, hempty]
      exact leads_throw
    | inr hsound =>
      cases target.filter (·.ref = proposal.proposedVersion) with
      | none => exact leads_throw
      | some target =>
        refine leads_raiseIf fun _ => leads_raiseIf fun _ => leads_raiseIf fun _ => ?_
        exact submitProposal_same.mono fun _ _ hsame => hsound.same hsame
  refine leads_bind (leads_bind (leads_storedHead.mono ?_))
  rintro found _ ⟨rfl, hfind, -⟩
  cases found with
  | some head => exact leads_pure (hrest head _ (.inr h))
  | none =>
    refine leads_bind (leads_storedTombstone.mono ?_)
    rintro _ _ rfl
    refine leads_bind (leads_storedTombstone.mono ?_)
    rintro _ _ rfl
    refine leads_raiseIf fun _ => leads_bind (leads_pure (leads_bind (leads_insertHead.mono ?_)))
    rintro _ t ⟨-, rfl⟩
    have hempty := find_version_none h hfind.symm
    exact leads_pure (hrest proposal.baseHead _ (.inl hempty))

theorem propose_keeps {request : ProposeRequest} : Keeps (propose sha256 request) := by
  unfold propose
  cases request.version with
  | some version => exact proposeVersion_keeps
  | none =>
    cases request.proposal with
    | some proposal => exact proposeStored_keeps
    | none => exact fun s _ => leads_throw

theorem correct_keeps {now : Instant} {dataset record : Id} {request : CorrectRequest} :
    Keeps (correct sha256 now dataset record request) := by
  intro s h
  refine leads_raiseIf fun _ => leads_bind (leads_storedHead.mono ?_)
  rintro found _ ⟨rfl, -, -⟩
  refine leads_bind (leads_found.mono ?_)
  rintro head _ ⟨rfl, -⟩
  cases head.publishedVersion with
  | none => exact leads_throw
  | some ref =>
    refine leads_bind (leads_storedVersion.mono ?_)
    rintro version _ ⟨rfl, -, -⟩
    refine leads_bind (leads_found.mono ?_)
    rintro current _ ⟨rfl, -⟩
    refine leads_raiseIf fun _ => ?_
    cases request.replacement with
    | some replacement => exact leads_raiseIf fun _ => leads_raiseIf fun _ => leads_bind (leads_pure (propose_keeps _ h))
    | none =>
      cases request.content with
      | none => exact leads_throw
      | some content => exact leads_raiseIf fun _ => leads_raiseIf fun _ => leads_bind (leads_pure (propose_keeps _ h))

theorem refuseProposal_keeps {stored : MemoryProposal} {text : String} : Keeps (refuseProposal stored text) := by
  intro s h
  refine leads_bind (leads_markProposalState.mono ?_)
  intro _ t hsame
  exact leads_pure (h.same hsame)

/-- The version that a checked reference names is stored. -/
theorem stored_of_find {dataset record : Id} {number : Nat} {ref : MemoryVersionRef}
    (h : (s.versions.find (dataset, record, number)).map (·.ref) = some ref) : Stored s ref := by
  obtain ⟨version, hfind, href⟩ := Option.map_eq_some_iff.mp h
  exact ⟨version, (Keyed.find_some.mp hfind).1, href⟩

theorem confirmProposal_keeps {id : Id} {dataset : Option Id} {expected epoch : Option Nat} :
    Keeps (confirmProposal id dataset expected epoch) := by
  intro s h
  refine leads_bind (leads_storedProposal.mono ?_)
  rintro found _ ⟨rfl, -, -⟩
  refine leads_bind (leads_found.mono ?_)
  rintro stored _ ⟨rfl, -⟩
  refine leads_raiseIf fun _ => leads_bind (leads_storedHead.mono ?_)
  rintro row _ ⟨rfl, hfind, -⟩
  refine leads_bind (leads_found.mono ?_)
  rintro head _ ⟨rfl, hrow⟩
  have hkey : headKey head = (stored.owner.datasetId, stored.baseHead.recordId) :=
    Keyed.find_key (hfind.symm.trans hrow)
  simp only [headKey, Prod.mk.injEq] at hkey
  refine leads_ite (fun _ => leads_raiseIf fun _ => leads_pure h) fun _ => leads_raiseIf fun _ => ?_
  refine leads_ite (fun _ => refuseProposal_keeps _ h) fun _ => leads_ite (fun _ => refuseProposal_keeps _ h) fun _ => ?_
  refine leads_bind (leads_storedVersion.mono ?_)
  rintro target _ ⟨rfl, htarget, -⟩
  refine leads_raiseIf fun href => leads_ite (fun _ => refuseProposal_keeps _ h) fun _ => ?_
  rw [not_not, htarget] at href
  refine leads_bind (leads_nextCursor.mono ?_)
  intro cursor t hsame
  have hpublished : Published t (head.publishing stored.proposedVersion cursor) :=
    (published_publishing (stored.target.1.symm.trans hkey.1.symm) (stored.target.2.2.symm.trans hkey.2.symm)
      (stored_of_find href)).of_versions hsame.1
  refine leads_bind ((keeps_updateHead (h.same hsame) hpublished).mono ?_)
  rintro updated u ⟨hu, -, -⟩
  refine leads_ite (fun _ => leads_bind (leads_markProposalState.mono ?_)) fun _ => refuseProposal_keeps _ hu
  intro _ v hmark
  exact leads_pure (hu.same hmark)

theorem rejectProposal_keeps {id : Id} {dataset : Option Id} : Keeps (rejectProposal id dataset) := by
  intro s h
  refine leads_bind (leads_storedProposal.mono ?_)
  rintro found _ ⟨rfl, -, -⟩
  refine leads_bind (leads_found.mono ?_)
  rintro stored _ ⟨rfl, -⟩
  refine leads_raiseIf fun _ => leads_ite (fun _ => leads_pure h) fun _ => leads_raiseIf fun _ => ?_
  exact leads_markProposalState.mono fun _ _ hsame => h.same hsame

end

end Operant.Memory
