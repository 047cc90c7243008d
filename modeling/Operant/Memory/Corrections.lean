import Operant.Memory.Runs

/-! When a published memory can be corrected.

A correction takes the number after the published version's, a proposal must take the number after the
highest stored one. A version that was proposed and never published makes the two differ. -/
namespace Operant.Memory
open Operant.Calls Operant.Calls.Transaction Operant.Tables

variable {sha256 : String → Digest} {s : Ledger}

/-! ### Accesses that succeed -/

theorem run_storedVersion {dataset record : Id} {number : Nat} {version : Option MemoryVersion}
    (h : s.versions.find (dataset, record, number) = version) (hreadable : ∀ v, version = some v → v.readable = true) :
    (storedVersion dataset record number).run s = .ok (version, s) := by
  rw [storedVersion, run_bind_of run_get, h]
  cases version with
  | none => rfl
  | some version => rw [parsed, if_pos (hreadable version rfl)]; rfl

theorem run_storedHead {dataset record : Id} {head : MemoryHead} (h : s.heads.find (dataset, record) = some head)
    (hreadable : head.readable = true) : (storedHead dataset record).run s = .ok (some head, s) := by
  rw [storedHead, run_bind_of run_get, h, parsed, if_pos hreadable]
  rfl

theorem run_storedProposal {id : Id} {proposal : MemoryProposal} (h : s.proposals.find id = some proposal)
    (hreadable : proposal.readable = true) : (storedProposal id).run s = .ok (some proposal, s) := by
  rw [storedProposal, run_bind_of run_get, h, parsed, if_pos hreadable]
  rfl

theorem run_found {α : Type} {text : String} {a : α} : (found text (some a)).run s = .ok (a, s) := rfl

theorem run_nextCursor (h : s.publicationCursor < maxCursor) :
    nextCursor.run s = .ok (s.publicationCursor + 1, { s with publicationCursor := s.publicationCursor + 1 }) :=
  (run_bind_of run_get).trans (run_bind_of (run_raiseIf_of (Nat.not_le.mpr h)))

theorem run_updateHead {next head : MemoryHead} (h : s.heads.find (headKey next) = some head) :
    (updateHead next head.revision).run s = .ok (true, { s with heads := s.heads.set next }) := by
  refine (run_bind_of run_get).trans ?_
  rw [if_pos (by simp [h])]
  rfl

theorem run_markProposalState (proposal : MemoryProposal) (state : ProposalState) :
    ∃ updated after, (markProposalState proposal state).run s = .ok (updated, after) ∧ Same s after := by
  rw [markProposalState]
  dsimp only
  rw [run_bind_of run_get]
  split
  · exact ⟨_, _, rfl, rfl, rfl⟩
  · exact ⟨_, _, rfl, rfl, rfl⟩

/-! ### The correction -/

/-- What a correction of a version must meet to be one. -/
theorem corrected_readable {current : MemoryVersion} (h : current.readable = true) (content : String) (now : Instant) :
    (current.corrected sha256 content none now).readable = true ↔
      contentAllowed content = true ∧ current.sources ≠ [] ∧ current.ref.version < maxRevision := by
  simp only [MemoryVersion.readable, Bool.and_eq_true, decide_eq_true_eq] at h
  obtain ⟨⟨⟨⟨⟨⟨⟨-, -⟩, howner⟩, hworking⟩, hproject⟩, -⟩, -⟩, hcommit⟩ := h
  simp only [MemoryVersion.readable, MemoryVersion.corrected, Option.getD_none, howner, hworking, hproject, hcommit,
    Bool.and_eq_true, decide_eq_true_eq, Bool.or_eq_true, reduceCtorEq, or_false, and_true]
  constructor
  · rintro ⟨⟨⟨-, hversion⟩, hcontent⟩, hsources⟩
    exact ⟨hcontent, hsources, hversion⟩
  · rintro ⟨hcontent, hsources, hversion⟩
    exact ⟨⟨⟨Nat.le_add_left 1 _, hversion⟩, hcontent⟩, hsources⟩

/-- The request of a correction by a content. -/
def contentRequest (content : String) (revision : Nat) (proposalId : Id) : CorrectRequest :=
  { content := some content, expectedHeadRevision := some revision, proposalId }

/-- The head publishes a version of its record that can be read, and has another content put in its place. -/
structure Corrigible (ledger : Ledger) (head : MemoryHead) (current : MemoryVersion) (content : String) : Prop where
  headReadable : head.readable = true
  published : head.publishedVersion = some current.ref
  stored : ledger.versions.find (head.datasetId, head.recordId, current.ref.version) = some current
  readable : current.readable = true
  latest : ledger.maxVersion head.datasetId head.recordId = current.ref.version
  sourced : current.sources ≠ []
  numbered : current.ref.version < maxRevision
  content : contentAllowed content = true

theorem le_foldr_max {numbers : List Nat} {n : Nat} (h : n ∈ numbers) : n ≤ numbers.foldr max 0 := by
  induction numbers with
  | nil => cases h
  | cons m rest ih =>
    cases List.mem_cons.mp h with
    | inl heq => exact heq ▸ le_max_left _ _
    | inr hrest => exact (ih hrest).trans (le_max_right _ _)

/-- No stored version of a record has a higher number. -/
theorem le_maxVersion {version : MemoryVersion} (h : version ∈ s.versions.rows) :
    version.ref.version ≤ s.maxVersion version.ref.datasetId version.ref.recordId :=
  le_foldr_max (List.mem_map.mpr ⟨version, List.mem_filter.mpr ⟨h, by simp⟩, rfl⟩)

section
variable {head : MemoryHead} {content : String} {proposalId : Id} {now : Instant}

theorem submitProposal_cursor {built : MemoryProposal} :
    (submitProposal built).Leads s fun _ t => t.publicationCursor = s.publicationCursor := by
  have hinsert : (insertProposal built).Leads s fun _ t => t.publicationCursor = s.publicationCursor := by
    refine leads_get ?_
    cases s.proposals.insert built with
    | none => exact leads_pure rfl
    | some proposals => exact leads_set (leads_pure rfl)
  refine leads_bind (hinsert.mono ?_)
  intro isNew t hsame
  refine leads_ite (fun _ => leads_pure hsame) fun _ => leads_bind (leads_storedProposal.mono ?_)
  rintro _ _ ⟨rfl, -, -⟩
  exact leads_raiseIf fun _ => leads_pure hsame

/-- A version that is proposed for a record with a head is stored, or the next one. -/
theorem proposeVersion_number {request : ProposeRequest} {version : MemoryVersion}
    (hhead : (s.heads.find (version.ref.datasetId, version.ref.recordId)).isSome) :
    (proposeVersion sha256 request version).Leads s fun _ t => t.publicationCursor = s.publicationCursor ∧
      (version ∈ s.versions.rows ∨
        version.ref.version = s.maxVersion version.ref.datasetId version.ref.recordId + 1) := by
  refine leads_raiseIf fun _ => leads_raiseIf fun _ => leads_raiseIf fun _ => leads_raiseIf fun _ => ?_
  refine leads_bind (leads_bind (leads_storedHead.mono ?_))
  rintro found _ ⟨rfl, hfind, -⟩
  rw [← hfind] at hhead
  obtain ⟨head, rfl⟩ := Option.isSome_iff_exists.mp hhead
  refine leads_pure (leads_raiseIf fun _ => leads_raiseIf fun _ => leads_bind (leads_storedVersion.mono ?_))
  rintro stored _ ⟨rfl, hstored, -⟩
  cases stored with
  | none =>
    refine leads_get (leads_raiseIf fun hnumber => leads_bind (leads_insertVersion.mono ?_))
    rintro _ t ⟨-, -, rfl⟩
    refine leads_bind (leads_makeProposal.mono ?_)
    rintro built _ ⟨rfl, -⟩
    exact submitProposal_cursor.mono fun _ _ hsame => ⟨hsame, .inr (not_not.mp hnumber)⟩
  | some stored =>
    refine leads_raiseIf fun hsame => leads_bind (leads_makeProposal.mono ?_)
    rintro built _ ⟨rfl, -⟩
    have hmem : version ∈ _ := not_not.mp hsame ▸ (Keyed.find_some.mp hstored.symm).1
    exact submitProposal_cursor.mono fun _ _ hsame => ⟨hsame, .inl hmem⟩

/-- A correction that is accepted is of a version that can be corrected. -/
theorem correct_corrigible (hsound : Sound s)
    (hhead : s.heads.find (head.datasetId, head.recordId) = some head)
    (hnew : ∀ version ∈ s.versions.rows, version.ref.datasetId = head.datasetId →
      version.ref.recordId = head.recordId → version.content ≠ content) :
    (correct sha256 now head.datasetId head.recordId (contentRequest content head.revision proposalId)).Leads s
      fun _ after => after.publicationCursor = s.publicationCursor ∧ ∃ current, Corrigible s head current content := by
  refine leads_raiseIf fun _ => leads_bind (leads_storedHead.mono ?_)
  rintro row _ ⟨rfl, hrow, hreadable⟩
  rw [hhead] at hrow
  subst hrow
  refine leads_bind (leads_found.mono ?_)
  rintro found _ ⟨rfl, hfound⟩
  rw [← Option.some.inj hfound]
  cases hpublished : head.publishedVersion with
  | none => exact leads_throw
  | some ref =>
    refine leads_bind (leads_storedVersion.mono ?_)
    rintro version _ ⟨rfl, hversion, hversionReadable⟩
    refine leads_bind (leads_found.mono ?_)
    rintro current _ ⟨rfl, rfl⟩
    -- what is read is what the head publishes
    obtain ⟨hdataset, hrecord, stored, hstored, hsame⟩ :=
      hsound.published head (Keyed.find_some.mp hhead).1 ref hpublished
    have hcurrent : stored = current := by
      have hkey : versionKey stored = (head.datasetId, head.recordId, ref.version) := by
        rw [versionKey, hsame, hdataset, hrecord]
      rw [Keyed.find_some.mpr ⟨hstored, hkey⟩] at hversion
      exact (Option.some.inj hversion).symm
    subst hcurrent
    subst hsame
    refine leads_raiseIf fun _ => leads_raiseIf fun _ => leads_raiseIf fun hcorrected => leads_bind (leads_pure ?_)
    rw [Bool.not_eq_true', Bool.not_eq_false] at hcorrected
    obtain ⟨hcontent, hsourced, hnumbered⟩ := (corrected_readable (hversionReadable _ rfl) content now).mp hcorrected
    refine (proposeVersion_number ?_).mono ?_
    · show (_ : Option MemoryHead).isSome
      rw [MemoryVersion.corrected, hdataset, hrecord, hhead]
      rfl
    · rintro _ t ⟨hcursor, hnumber⟩
      refine ⟨hcursor, stored, hreadable head rfl, hpublished, hversion.symm, hversionReadable _ rfl, ?_, hsourced,
        hnumbered, hcontent⟩
      cases hnumber with
      | inl hmem => exact absurd rfl (hnew _ hmem hdataset hrecord)
      | inr hnext =>
        have hmax : stored.ref.version + 1 = _ + 1 := hnext
        rw [← hdataset, ← hrecord]
        exact (Nat.succ.inj hmax).symm

/-! ### A proposal that waits for its confirmation -/

/-- A pending proposal of a version, based on the head that its record has. -/
structure Awaits (ledger : Ledger) (head : MemoryHead) (version : MemoryVersion) (proposal : MemoryProposal) :
    Prop where
  found : ledger.proposals.find proposal.proposalId = some proposal
  readable : proposal.readable = true
  pending : proposal.state = .pending
  base : proposal.baseHead = head
  owner : proposal.owner.datasetId = head.datasetId
  current : ledger.heads.find (head.datasetId, head.recordId) = some head
  headReadable : head.readable = true
  target : proposal.proposedVersion = version.ref
  stored : ledger.versions.find (head.datasetId, version.ref.recordId, version.ref.version) = some version
  versionReadable : version.readable = true

/-- What waits is published, while there are cursors left. -/
theorem confirm_publishes {version : MemoryVersion} {proposal : MemoryProposal} (h : Awaits s head version proposal)
    (hstate : head.state.isTombstoned = false) (hcursor : s.publicationCursor < maxCursor) :
    ∃ final, (confirmProposal proposal.proposalId none none none).run s =
        .ok (.ok (head.publishing version.ref (s.publicationCursor + 1)), final) ∧
      final.heads.find (head.datasetId, head.recordId) =
        some (head.publishing version.ref (s.publicationCursor + 1)) ∧
      final.versions = s.versions := by
  have hkey : headKey (head.publishing version.ref (s.publicationCursor + 1)) = (head.datasetId, head.recordId) := rfl
  obtain ⟨updated, final, hmark, hsame⟩ := run_markProposalState proposal .accepted
    (s := { s with publicationCursor := s.publicationCursor + 1,
                   heads := s.heads.set (head.publishing version.ref (s.publicationCursor + 1)) })
  refine ⟨final, ?_, ?_, hsame.1⟩
  · refine (run_bind_of (run_storedProposal h.found h.readable)).trans ?_
    refine (run_bind_of run_found).trans ?_
    refine (run_bind_of (run_raiseIf_of (by simp))).trans ?_
    rw [h.owner, h.base]
    refine (run_bind_of (run_storedHead h.current h.headReadable)).trans ?_
    refine (run_bind_of run_found).trans ?_
    rw [if_neg (by simp [h.pending])]
    refine (run_bind_of (run_raiseIf_of (by simp [h.pending]))).trans ?_
    dsimp only
    rw [if_neg (by simp), if_neg (by simp [hstate]), h.target]
    refine (run_bind_of (run_storedVersion h.stored fun v hv => Option.some.inj hv ▸ h.versionReadable)).trans ?_
    refine (run_bind_of (run_raiseIf_of (by simp))).trans ?_
    rw [if_neg (by simp)]
    refine (run_bind_of (run_nextCursor hcursor)).trans ?_
    refine (run_bind_of (run_updateHead (hkey ▸ h.current))).trans ?_
    rw [if_pos rfl]
    exact run_bind_of hmark
  · rw [hsame.2]
    show (s.heads.set _).find _ = _
    rw [Keyed.find_set, if_pos hkey.symm, h.current]
    rfl

theorem leads_nextCursor_left : nextCursor.Leads s fun _ _ => s.publicationCursor < maxCursor :=
  leads_get (leads_raiseIf fun h => leads_set (leads_pure (Nat.not_le.mp h)))

/-- What is published at once has a cursor. -/
theorem confirm_cursor {proposal : MemoryProposal} (hfound : s.proposals.find proposal.proposalId = some proposal)
    (hpending : proposal.state = .pending) :
    (confirmProposal proposal.proposalId none none none).Leads s fun outcome _ =>
      ∀ next, outcome = .ok next → s.publicationCursor < maxCursor := by
  have hrefused : ∀ stored text t, (refuseProposal stored text).Leads t fun outcome _ =>
      ∀ next, outcome = .ok next → s.publicationCursor < maxCursor := fun stored text t =>
    leads_bind fun _ _ _ => leads_pure nofun
  refine leads_bind (leads_storedProposal.mono ?_)
  rintro row _ ⟨rfl, hrow, -⟩
  refine leads_bind (leads_found.mono ?_)
  rintro stored _ ⟨rfl, rfl⟩
  rw [← Option.some.inj (hrow.trans hfound)] at hpending
  refine leads_raiseIf fun _ => leads_bind (leads_storedHead.mono ?_)
  rintro row _ ⟨rfl, -, -⟩
  refine leads_bind (leads_found.mono ?_)
  rintro head _ ⟨rfl, -⟩
  refine leads_ite (fun hstate => nomatch hpending.symm.trans hstate) fun _ => leads_raiseIf fun _ => ?_
  refine leads_ite (fun _ => hrefused _ _ _) fun _ => leads_ite (fun _ => hrefused _ _ _) fun _ => ?_
  refine leads_bind (leads_storedVersion.mono ?_)
  rintro target _ ⟨rfl, -, -⟩
  refine leads_raiseIf fun _ => leads_ite (fun _ => hrefused _ _ _) fun _ =>
    leads_bind (leads_nextCursor_left.mono ?_)
  exact fun _ _ hleft _ _ _ _ _ => hleft

/-- A proposal of the next version of a record with a head. -/
theorem run_proposeVersion {request : ProposeRequest} {version : MemoryVersion} {built : MemoryProposal}
    (hproposal : request.proposal = none) (hrefs : request.sourceRefs = none)
    (hhead : s.heads.find (version.ref.datasetId, version.ref.recordId) = some head) (hreadable : head.readable = true)
    (hstate : head.state.isTombstoned = false) (hrevision : request.expectedHeadRevision = some head.revision)
    (hnumber : version.ref.version = s.maxVersion version.ref.datasetId version.ref.recordId + 1)
    (hnew : s.versions.find (versionKey version) = none) (hdigest : sha256 version.content = version.ref.contentDigest)
    (hid : s.proposals.find built.proposalId = none)
    (hbuilt : makeProposal request.proposalId version.owner
      (request.operation.getD (if head.revision = 0 then .create else .modify)) head version.ref version.sources
      request.extractorVersion request.reason = pure built) :
    (proposeVersion sha256 request version).run s =
      .ok (built, { s with versions := s.versions.add version hnew, proposals := s.proposals.add built hid }) := by
  let stored : Ledger := { s with versions := s.versions.add version hnew }
  have hinsertVersion : (insertVersion sha256 version).run s = .ok (⟨⟩, stored) := by
    refine (run_bind_of (run_raiseIf_of (not_not.mpr hdigest))).trans ?_
    refine (run_bind_of run_get).trans ?_
    rw [Keyed.insert_some.mpr ⟨hnew, rfl⟩]
    rfl
  have hinsertProposal : (insertProposal built).run stored =
      .ok (true, { stored with proposals := s.proposals.add built hid }) := by
    refine (run_bind_of run_get).trans ?_
    rw [Keyed.insert_some.mpr ⟨hid, rfl⟩]
    rfl
  refine (run_bind_of (run_raiseIf_of (by simp [hproposal]))).trans ?_
  refine (run_bind_of (run_raiseIf_of (by simp))).trans ?_
  refine (run_bind_of (run_raiseIf_of (by simp [hrefs]))).trans ?_
  refine (run_bind_of (run_raiseIf_of (by simp [hproposal]))).trans ?_
  refine (run_bind_of ((run_bind_of (run_storedHead hhead hreadable)).trans rfl)).trans ?_
  refine (run_bind_of (run_raiseIf_of (by simp [hstate]))).trans ?_
  refine (run_bind_of (run_raiseIf_of (by simp [hrevision]))).trans ?_
  refine (run_bind_of (run_storedVersion hnew fun v hv => by cases hv)).trans ?_
  refine (run_bind_of run_get).trans ?_
  refine (run_bind_of (run_raiseIf_of (not_not.mpr hnumber))).trans ?_
  refine (run_bind_of hinsertVersion).trans ?_
  dsimp only
  rw [hbuilt]
  refine (run_bind_of (run_pure_ok.mpr rfl)).trans ?_
  exact (run_bind_of hinsertProposal).trans rfl

/-- A correction of what can be corrected waits for its confirmation. -/
theorem correct_awaits {current : MemoryVersion} (h : Corrigible s head current content)
    (hhead : s.heads.find (head.datasetId, head.recordId) = some head) (hstate : head.state.isTombstoned = false)
    (hid : s.proposals.find proposalId = none) :
    ∃ proposal after, (correct sha256 now head.datasetId head.recordId
        (contentRequest content head.revision proposalId)).run s = .ok (proposal, after) ∧
      proposal.proposalId = proposalId ∧
      Awaits after head (current.corrected sha256 content none now) proposal ∧
      s.versions.find (head.datasetId, head.recordId, current.ref.version + 1) = none ∧
      after.publicationCursor = s.publicationCursor := by
  let next := current.corrected sha256 content none now
  obtain ⟨hdataset, hrecord, -⟩ : current.ref.datasetId = head.datasetId ∧ current.ref.recordId = head.recordId ∧
      current.ref.version = current.ref.version := by simpa [versionKey] using Keyed.find_key h.stored
  have hkey : versionKey next = (head.datasetId, head.recordId, current.ref.version + 1) := by
    simp [next, versionKey, MemoryVersion.corrected, hdataset, hrecord]
  have howner : current.owner.datasetId = current.ref.datasetId := by
    have hreadable := h.readable
    simp only [MemoryVersion.readable, Bool.and_eq_true, decide_eq_true_eq] at hreadable
    exact hreadable.1.1.1.1.1.2.symm
  have hnext : next.readable = true :=
    (corrected_readable h.readable content now).mpr ⟨h.content, h.sourced, h.numbered⟩
  -- the next number is above every stored one
  have hfree : s.versions.find (head.datasetId, head.recordId, current.ref.version + 1) = none := by
    refine Keyed.find_none.mpr fun version hversion hversionKey => ?_
    simp only [versionKey, Prod.mk.injEq] at hversionKey
    have hle := le_maxVersion hversion
    rw [hversionKey.1, hversionKey.2.1, hversionKey.2.2, h.latest] at hle
    exact absurd hle (Nat.not_succ_le_self _)
  let proposal : MemoryProposal :=
    { proposalId, owner := current.owner, operation := .modify, baseHead := head, proposedVersion := next.ref,
      sourceRefs := current.sources, extractorVersion := ⟨"user", by decide⟩,
      reason := ⟨"explicit user correction", by decide⟩, target := ⟨howner, hdataset.symm, hrecord.symm⟩ }
  have hnew : s.versions.find (versionKey next) = none := hkey ▸ hfree
  let after : Ledger := { s with
    versions := s.versions.add next hnew
    proposals := s.proposals.add proposal hid }
  have hblank : isBlank content = false := by
    have hcontent := h.content
    rw [contentAllowed, Bool.and_eq_true, Bool.not_eq_true'] at hcontent
    exact hcontent.2
  have hnumber : next.ref.version = s.maxVersion next.ref.datasetId next.ref.recordId + 1 := by
    show current.ref.version + 1 = s.maxVersion current.ref.datasetId current.ref.recordId + 1
    rw [hdataset, hrecord, h.latest]
  have hhead' : s.heads.find (next.ref.datasetId, next.ref.recordId) = some head := by
    show s.heads.find (current.ref.datasetId, current.ref.recordId) = some head
    rw [hdataset, hrecord, hhead]
  have hfound : after.proposals.find proposalId = some proposal := (Keyed.find_add hid).trans (if_pos rfl)
  have hstored : after.versions.find (head.datasetId, head.recordId, current.ref.version + 1) = some next :=
    (Keyed.find_add hnew).trans (if_pos hkey.symm)
  refine ⟨proposal, after, ?_, rfl, ⟨hfound, ?_, rfl, rfl, howner.trans hdataset, hhead, h.headReadable, rfl, ?_, hnext⟩,
    hfree, rfl⟩
  · refine (run_bind_of (run_raiseIf_of (by simp [contentRequest]))).trans ?_
    refine (run_bind_of (run_storedHead hhead h.headReadable)).trans ?_
    refine (run_bind_of run_found).trans ?_
    rw [h.published]
    refine (run_bind_of (run_storedVersion h.stored fun v hv => Option.some.inj hv ▸ h.readable)).trans ?_
    refine (run_bind_of run_found).trans ?_
    refine (run_bind_of (run_raiseIf_of (by simp [contentRequest]))).trans ?_
    refine (run_bind_of (run_raiseIf_of (by simp [hblank]))).trans ?_
    refine (run_bind_of (run_raiseIf_of (by simp [hnext, next, contentRequest]))).trans ?_
    refine (run_bind_of (run_pure_ok.mpr rfl)).trans ?_
    exact run_proposeVersion rfl rfl hhead' h.headReadable hstate rfl hnumber hnew rfl hid
      (dif_pos proposal.target)
  · simp only [MemoryProposal.readable, proposal, h.headReadable, next, MemoryVersion.corrected, Bool.and_eq_true,
      decide_eq_true_eq]
    exact ⟨⟨⟨Nat.zero_le _, trivial⟩, Nat.le_add_left 1 _⟩, h.numbered⟩
  · exact hrecord ▸ hstored

/-- A correction by a content makes a pending proposal of a new number, and its confirmation publishes that. -/
def CorrectionPublishes (sha256 : String → Digest) (now : Instant) (ledger : Ledger) (head : MemoryHead)
    (content : String) (proposalId : Id) : Prop :=
  ∃ proposal after next final,
    (correct sha256 now head.datasetId head.recordId (contentRequest content head.revision proposalId)).run ledger =
      .ok (proposal, after) ∧
    proposal.state = .pending ∧ after.proposals.find proposalId = some proposal ∧
    ledger.versions.find (head.datasetId, head.recordId, proposal.proposedVersion.version) = none ∧
    (confirmProposal proposalId none none none).run after = .ok (.ok next, final) ∧
    final.heads.find (head.datasetId, head.recordId) = some next ∧ next.state = .published ∧
    next.publishedVersion = some proposal.proposedVersion ∧
    ∃ version ∈ final.versions.rows, version.ref = proposal.proposedVersion ∧ version.content = content

end

/-- A published memory can be corrected if its last version is the published one, has sources and a next number,
and there are cursors left. -/
theorem published_correctable_iff {ledger : Ledger} (hreach : Reachable sha256 ledger) {head : MemoryHead}
    (hhead : ledger.heads.find (head.datasetId, head.recordId) = some head) (hstate : head.state = .published)
    {content : String} (hcontent : ∀ version ∈ ledger.versions.rows, version.ref.datasetId = head.datasetId →
      version.ref.recordId = head.recordId → version.content ≠ content)
    {proposalId : Id} (hid : ledger.proposals.find proposalId = none) (now : Instant) :
    CorrectionPublishes sha256 now ledger head content proposalId ↔
      (∃ current, Corrigible ledger head current content) ∧ ledger.publicationCursor < maxCursor := by
  constructor
  · rintro ⟨proposal, after, next, final, hcorrect, hpending, hfound, -, hconfirm, -⟩
    obtain ⟨hcursor, current, hcurrent⟩ :=
      correct_corrigible (reachable_sound hreach) hhead hcontent proposal after hcorrect
    have hkey : proposal.proposalId = proposalId := Keyed.find_key hfound
    subst hkey
    refine ⟨⟨current, hcurrent⟩, ?_⟩
    rw [← hcursor]
    exact confirm_cursor hfound hpending _ _ hconfirm next rfl
  · rintro ⟨⟨current, hcurrent⟩, hcursor⟩
    have hlive : head.state.isTombstoned = false := by
      rw [hstate]
      rfl
    obtain ⟨proposal, after, hcorrect, rfl, hawaits, hnew, hsame⟩ :=
      correct_awaits hcurrent hhead hlive hid
    rw [← hsame] at hcursor
    obtain ⟨final, hconfirm, hpublished, hversions⟩ := confirm_publishes hawaits hlive hcursor
    refine ⟨proposal, after, _, final, hcorrect, hawaits.pending, hawaits.found, ?_, hconfirm, hpublished, rfl,
      congrArg some hawaits.target.symm, current.corrected sha256 content none now, ?_, hawaits.target.symm, rfl⟩
    · rw [hawaits.target]
      exact hnew
    · rw [hversions]
      exact (Keyed.find_some.mp hawaits.stored).1

/-! ### A record with a rejected proposal -/

section Sample

/-- The digests of the three contents below. -/
def sampleDigest (content : String) : Digest :=
  if content = "Use tabs." then
    ⟨"3daa6bb31940f085636347a3b35f70c917d89e6cde3ed69c46d31e148a607df1".toList, by decide +kernel⟩
  else if content = "Use spaces." then
    ⟨"fbee04054abd48f574ac7a8866edcc90add45bdf4852b2b04d3d2166bfd7ade5".toList, by decide +kernel⟩
  else ⟨"6322fe232f7e144ba17619060abbc41d524cde74ba4dafee5c7d777f97fcd775".toList, by decide +kernel⟩

def sampleScope : Scope := .workspace ⟨"project", by decide⟩ ⟨"workspace", by decide⟩

def sampleVersion (number : Nat) (content : String) : MemoryVersion where
  ref := ⟨⟨"dataset", by decide⟩, ⟨"record", by decide⟩, number, sampleDigest content⟩
  owner := ⟨⟨"dataset", by decide⟩, ⟨"user", user_id⟩⟩
  scope := sampleScope
  content := content
  sources := [⟨.item, ⟨"item", by decide⟩, 0, sampleDigest content, sampleScope, 0, .available⟩]
  evidence := .userAsserted
  retentionPolicyId := ⟨"default", by decide⟩
  conditions := { validFrom := 0 }
  recordedAt := 0

/-- What a transaction leaves. -/
def ledgerAfter {α : Type} (outcome : Except Failure (α × Ledger)) : Ledger :=
  match outcome with
  | .ok (_, ledger) => ledger
  | .error _ => .empty

theorem ok_ledgerAfter {α : Type} (outcome : Except Failure (α × Ledger)) (h : outcome.isOk = true) :
    ∃ a, outcome = .ok (a, ledgerAfter outcome) := by
  cases outcome with
  | error failure => cases h
  | ok out => exact ⟨out.1, rfl⟩

/-- The first version is proposed and confirmed. -/
def publishedLedger : Ledger :=
  ledgerAfter ((confirmProposal ⟨"first", by decide⟩ none none none).run
    (ledgerAfter ((propose sampleDigest
      { version := some (sampleVersion 1 "Use tabs."), proposalId := ⟨"first", by decide⟩ }).run .empty)))

/-- The first version is proposed. -/
def proposedLedger : Ledger :=
  ledgerAfter ((propose sampleDigest
    { version := some (sampleVersion 1 "Use tabs."), proposalId := ⟨"first", by decide⟩ }).run .empty)

/-- A second one is proposed and rejected. -/
def rejectedLedger : Ledger :=
  ledgerAfter ((rejectProposal ⟨"second", by decide⟩ none).run
    (ledgerAfter ((propose sampleDigest
      { version := some (sampleVersion 2 "Use spaces."), proposalId := ⟨"second", by decide⟩ }).run publishedLedger)))

def sampleHead : MemoryHead where
  datasetId := ⟨"dataset", by decide⟩
  recordId := ⟨"record", by decide⟩
  publishedVersion := some (sampleVersion 1 "Use tabs.").ref
  revision := 1
  publicationCursor := 1
  state := .published
  permissionEpoch := 0

theorem reachable_published : Reachable sampleDigest publishedLedger := by
  obtain ⟨_, hpropose⟩ := ok_ledgerAfter ((propose sampleDigest
    { version := some (sampleVersion 1 "Use tabs."), proposalId := ⟨"first", by decide⟩ }).run .empty) (by decide +kernel)
  obtain ⟨_, hconfirm⟩ := ok_ledgerAfter ((confirmProposal ⟨"first", by decide⟩ none none none).run
    (ledgerAfter ((propose sampleDigest
      { version := some (sampleVersion 1 "Use tabs."), proposalId := ⟨"first", by decide⟩ }).run .empty))) (by decide +kernel)
  exact .tail (.tail .refl (.propose _ hpropose)) (.confirm _ _ _ _ hconfirm)

theorem reachable_rejected : Reachable sampleDigest rejectedLedger := by
  obtain ⟨_, hpropose⟩ := ok_ledgerAfter ((propose sampleDigest
    { version := some (sampleVersion 2 "Use spaces."), proposalId := ⟨"second", by decide⟩ }).run publishedLedger)
    (by decide +kernel)
  obtain ⟨_, hreject⟩ := ok_ledgerAfter ((rejectProposal ⟨"second", by decide⟩ none).run
    (ledgerAfter ((propose sampleDigest
      { version := some (sampleVersion 2 "Use spaces."), proposalId := ⟨"second", by decide⟩ }).run publishedLedger)))
    (by decide +kernel)
  exact .tail (.tail reachable_published (.propose _ hpropose)) (.reject _ _ hreject)

theorem published_correctable_first :
    CorrectionPublishes sampleDigest 0 publishedLedger sampleHead "Use two spaces." ⟨"third", by decide⟩ :=
  (published_correctable_iff reachable_published (by decide +kernel) rfl (by decide +kernel) (by decide +kernel) 0).mpr
    ⟨⟨sampleVersion 1 "Use tabs.", by decide +kernel, rfl, by decide +kernel, by decide +kernel, by decide +kernel,
      by decide +kernel, by decide +kernel, by decide +kernel⟩, by decide +kernel⟩

/-- A rejected proposal keeps the number that the correction takes. -/
theorem rejected_not_correctable :
    ¬∀ (sha256 : String → Digest) (ledger : Ledger), Reachable sha256 ledger → ∀ head : MemoryHead,
      ledger.heads.find (head.datasetId, head.recordId) = some head → head.state = .published →
      ∀ content, (∀ version ∈ ledger.versions.rows, version.content ≠ content) → contentAllowed content = true →
      ∀ proposalId, ledger.proposals.find proposalId = none → ∀ now,
      CorrectionPublishes sha256 now ledger head content proposalId := by
  intro h
  obtain ⟨proposal, after, -, -, hcorrect, -⟩ := h sampleDigest rejectedLedger reachable_rejected sampleHead
    (by decide +kernel) rfl "Use two spaces." (by decide +kernel) (by decide +kernel) ⟨"third", by decide⟩
    (by decide +kernel) 0
  have hrefused : ((correct sampleDigest 0 sampleHead.datasetId sampleHead.recordId
      (contentRequest "Use two spaces." sampleHead.revision ⟨"third", by decide⟩)).run rejectedLedger).isOk = false := by
    decide +kernel
  rw [hcorrect] at hrefused
  cases hrefused

end Sample

end Operant.Memory
