import Operant.Memory.Kept

/-! Promotion, copies, reviews, deletions and imports leave a sound ledger, and so does every run. -/
namespace Operant.Memory
open Operant.Calls Operant.Calls.Transaction Operant.Tables

variable {sha256 : String → Digest} {s : Ledger}

/-! ### Promotion -/

/-- A head moves to a version of its record. -/
theorem publishes {pending : Id → Id → Prop} {head : MemoryHead} {ref : MemoryVersionRef} {cursor revision : Nat}
    (h : SoundBut pending s) (hdataset : ref.datasetId = head.datasetId) (hrecord : ref.recordId = head.recordId)
    (hstored : Stored s ref) :
    (updateHead (head.publishing ref cursor) revision).Leads s fun _ t => SoundBut pending t ∧
      t.versions = s.versions :=
  (keeps_updateHead h (published_publishing hdataset hrecord hstored)).mono fun _ _ ht => ⟨ht.1, ht.2.1⟩

theorem promoteCandidate_keeps {now : Instant} {request : PromoteRequest} {candidate : MemoryVersion}
    {head : MemoryHead} (h : Sound s)
    (hkey : headKey head = (request.candidateRef.datasetId, request.candidateRef.recordId))
    (hheaded : Headed s request.candidateRef.datasetId request.candidateRef.recordId) :
    (promoteCandidate sha256 now request candidate head).Leads s fun _ t => Sound t := by
  simp only [headKey, Prod.mk.injEq] at hkey
  refine leads_raiseIf fun _ => leads_raiseIf fun _ => leads_raiseIf fun _ => leads_raiseIf fun _ => leads_get ?_
  dsimp only
  have hids : ∀ number, (candidate.promoted request number now).ref.datasetId = head.datasetId ∧
      (candidate.promoted request number now).ref.recordId = head.recordId :=
    fun number => ⟨hkey.1.symm, hkey.2.symm⟩
  have hids := hids (s.maxVersion request.candidateRef.datasetId request.candidateRef.recordId + 1)
  generalize candidate.promoted request
    (s.maxVersion request.candidateRef.datasetId request.candidateRef.recordId + 1) now = promoted at hids ⊢
  rw [← hkey.1, ← hkey.2, ← hids.1, ← hids.2] at hheaded
  refine leads_bind ((keeps_insertVersion h (.inr hheaded)).mono ?_)
  rintro _ t ⟨ht, -, hmem⟩
  refine leads_bind (leads_makeProposal.mono ?_)
  rintro proposal _ ⟨rfl, -⟩
  refine leads_bind (leads_insertProposal.mono ?_)
  intro isNew t' hsame
  refine leads_raiseIf fun _ => leads_bind (leads_nextCursor.mono ?_)
  intro cursor t'' hsame'
  have hstored : Stored t'' promoted.ref := by
    rw [Stored, (hsame.trans hsame').1]
    exact ⟨promoted, hmem, rfl⟩
  refine leads_bind ((publishes (ht.same (hsame.trans hsame')) hids.1 hids.2 hstored).mono ?_)
  rintro updated v ⟨hv, -⟩
  refine leads_raiseIf fun _ => leads_bind (leads_markProposalState.mono ?_)
  intro _ w hmark
  exact leads_pure (hv.same hmark)

theorem promoteVerified_keeps {now : Instant} {request : PromoteRequest} : Keeps (promoteVerified sha256 now request) := by
  intro s h
  refine leads_raiseIf fun _ => leads_raiseIf fun _ => leads_bind (leads_storedVersion.mono ?_)
  rintro candidate _ ⟨rfl, -, -⟩
  cases candidate.filter (·.ref = request.candidateRef) with
  | none => exact leads_throw
  | some candidate =>
    refine leads_raiseIf fun _ => leads_raiseIf fun _ => leads_bind (leads_storedHead.mono ?_)
    rintro found _ ⟨rfl, hfind, -⟩
    cases found with
    | some head => exact promoteCandidate_keeps h (Keyed.find_key hfind.symm) (headed_of_find hfind.symm)
    | none =>
      refine leads_bind (leads_headForCreate.mono ?_)
      rintro head _ ⟨rfl, hkey, hnone⟩
      refine leads_bind ((keeps_insertHead h (published_none hnone)).mono ?_)
      rintro _ u ⟨hu, -, -, hmem⟩
      exact promoteCandidate_keeps hu hkey ⟨head, hmem, hkey⟩

/-! ### Copies -/

section
variable {owner : DatasetOwner} {targetScope : Option Scope} {versions : List MemoryVersion}

/-- The records that are copied, and have no head yet where they are copied to. -/
def Pending (owner : DatasetOwner) (versions : List MemoryVersion) (heads : List MemoryHead) (dataset record : Id) :
    Prop :=
  dataset = owner.datasetId ∧ (∃ row ∈ versions, row.ref.recordId = record) ∧ ∃ head ∈ heads, head.recordId = record

theorem copyVersion_keeps {pending : Id → Id → Prop} {row : MemoryVersion} (h : SoundBut pending s)
    (hpending : pending owner.datasetId row.ref.recordId) :
    (copyVersion sha256 owner targetScope row).Leads s fun _ t => SoundBut pending t ∧ Grown s t ∧
      Stored t (row.copied owner targetScope).ref := by
  refine leads_raiseIf fun _ => leads_bind (leads_storedVersion.mono ?_)
  rintro found _ ⟨rfl, hfind, -⟩
  cases found with
  | some existing =>
    refine leads_raiseIf fun hsame => leads_pure ⟨h, ⟨fun _ => id, rfl⟩, existing, ?_, by rw [not_not.mp hsame]⟩
    exact (Keyed.find_some.mp hfind.symm).1
  | none =>
    refine leads_bind ((keeps_insertVersion h (.inl hpending)).mono ?_)
    rintro _ t ⟨ht, hgrown, hmem⟩
    exact leads_pure ⟨ht, hgrown, _, hmem, rfl⟩

/-- A head that is copied publishes the copy of a version. -/
theorem published_copied {row : MemoryHead} {cursor : Nat} {source : Id} {t : Ledger} (hrow : Published s row)
    (hsource : row.datasetId = source)
    (hcopied : ∀ version ∈ s.versions.rows, version.ref.datasetId = source →
      Stored t (version.copied owner targetScope).ref) : Published t (row.copied owner.datasetId cursor) := by
  intro ref href
  obtain ⟨old, hold, rfl⟩ := Option.map_eq_some_iff.mp href
  obtain ⟨hdataset, hrecord, version, hversion, hsame⟩ := hrow old hold
  have hstored := hcopied version hversion (by rw [hsame, hdataset, hsource])
  rw [MemoryVersion.copied, hsame] at hstored
  exact ⟨rfl, hrecord, hstored⟩

/-- The head of one record, of those that are pending. -/
theorem copyHead_keeps {row : MemoryHead} {rest : List MemoryHead}
    (h : SoundBut (Pending owner versions (row :: rest)) s)
    (hpublished : ∀ cursor, Published s (row.copied owner.datasetId cursor)) :
    (copyHead owner versions row).Leads s fun _ t => SoundBut (Pending owner versions rest) t ∧
      t.versions = s.versions := by
  have hdone : ∀ t, SoundBut (Pending owner versions (row :: rest)) t → Headed t owner.datasetId row.recordId →
      SoundBut (Pending owner versions rest) t := by
    refine fun t ht hheaded => ⟨ht.published, fun version hversion => ?_⟩
    obtain ⟨hdataset, hrecord, head, hhead, hsame⟩ | hhas := ht.headed version hversion
    · cases List.mem_cons.mp hhead with
      | inl heq => rw [hdataset, ← hsame, heq]; exact .inr hheaded
      | inr hmem => exact .inl ⟨hdataset, hrecord, head, hmem, hsame⟩
    · exact .inr hhas
  refine leads_raiseIf fun _ => leads_ite (fun hnone => leads_pure ⟨h.mono ?_, rfl⟩) fun _ => ?_
  · -- without versions the head is not one that a record waits for
    rintro dataset record ⟨hdataset, ⟨version, hversion, hrecord⟩, head, hhead, hsame⟩
    refine ⟨hdataset, ⟨version, hversion, hrecord⟩, head, ?_, hsame⟩
    cases List.mem_cons.mp hhead with
    | inl heq =>
      have hother := List.all_eq_true.mp hnone version hversion
      rw [heq] at hsame
      simp [hrecord, hsame] at hother
    | inr hmem => exact hmem
  · have hsame : (copiedCursor row).Leads s fun _ t => Same s t :=
      leads_ite (fun _ => leads_nextCursor) fun _ => leads_pure .refl
    refine leads_bind (hsame.mono ?_)
    intro cursor u hsame
    refine leads_bind (leads_storedHead.mono ?_)
    rintro found _ ⟨rfl, hfind, -⟩
    cases found with
    | none =>
      refine (keeps_insertHead (h.same hsame) ((hpublished cursor).of_versions hsame.1)).mono ?_
      rintro _ t ⟨ht, hversions, -, hmem⟩
      exact ⟨hdone t ht ⟨_, hmem, rfl⟩, hversions.trans hsame.1⟩
    | some existing =>
      refine leads_guard.mono ?_
      rintro _ _ ⟨rfl, -⟩
      exact ⟨hdone _ (h.same hsame) (headed_of_find hfind.symm), hsame.1⟩

theorem copyTombstone_same {row : Tombstone} : (copyTombstone owner row).Leads s fun _ t => Same s t := by
  refine leads_bind (leads_storedTombstone.mono ?_)
  rintro found _ rfl
  cases found with
  | none => exact leads_upsertTombstone
  | some existing => exact leads_guard.mono fun _ _ ht => ht.1 ▸ .refl

end

theorem copyDataset_keeps {source : Id} {owner : DatasetOwner} {targetScope : Option Scope} :
    Keeps (copyDataset sha256 source owner targetScope) := by
  intro s h
  refine leads_raiseIf fun _ => leads_get ?_
  dsimp only
  generalize hversions : (s.versions.rows.filter (·.ref.datasetId = source)).insertionSort beforeVersion = versions
  generalize hheads : (s.heads.rows.filter (·.datasetId = source)).insertionSort (·.recordId ≤ ·.recordId) = heads
  have hmem : ∀ row, row ∈ versions ↔ row ∈ s.versions.rows ∧ row.ref.datasetId = source := fun row => by
    rw [← hversions, List.mem_insertionSort, List.mem_filter, decide_eq_true_eq]
  have hmemHead : ∀ row, row ∈ heads ↔ row ∈ s.heads.rows ∧ row.datasetId = source := fun row => by
    rw [← hheads, List.mem_insertionSort, List.mem_filter, decide_eq_true_eq]
  -- every record that is copied has a head where it is copied from
  have hwaits : ∀ row ∈ versions, Pending owner versions heads owner.datasetId row.ref.recordId := by
    intro row hrow
    obtain hfalse | ⟨head, hhead, hkey⟩ := h.headed row ((hmem row).mp hrow).1
    · exact hfalse.elim
    · simp only [headKey, Prod.mk.injEq] at hkey
      exact ⟨rfl, ⟨row, hrow, rfl⟩, head, (hmemHead head).mpr ⟨hhead, hkey.1.trans ((hmem row).mp hrow).2⟩, hkey.2⟩
  refine leads_bind ((leads_mapM
    (P := fun rest t => (∀ row ∈ rest, row ∈ versions) ∧ SoundBut (Pending owner versions heads) t ∧
      t.heads = s.heads ∧ ∀ row ∈ versions, row ∈ rest ∨ Stored t (row.copied owner targetScope).ref) ?_
    ⟨fun _ => id, h.mono fun _ _ hfalse => hfalse.elim, rfl, fun _ => .inl⟩).mono ?_)
  · rintro row rest t ⟨hall, ht, hsame, hdone⟩
    refine (copyVersion_keeps ht (hwaits row (hall row List.mem_cons_self))).mono ?_
    rintro _ u ⟨hu, hgrown, hstored⟩
    refine ⟨fun other hother => hall other (List.mem_cons_of_mem _ hother), hu, hgrown.2.trans hsame,
      fun other hother => ?_⟩
    cases hdone other hother with
    | inl hrest =>
      cases List.mem_cons.mp hrest with
      | inl heq => exact .inr (heq ▸ hstored)
      | inr hlater => exact .inl hlater
    | inr hold =>
      obtain ⟨version, hversion, href⟩ := hold
      exact .inr ⟨version, hgrown.1 version hversion, href⟩
  · rintro refs t ⟨-, ht, hsame, hdone⟩
    have hcopied : ∀ version ∈ s.versions.rows, version.ref.datasetId = source →
        Stored t (version.copied owner targetScope).ref := fun version hversion hsource =>
      (hdone version ((hmem version).mpr ⟨hversion, hsource⟩)).resolve_left List.not_mem_nil
    refine leads_bind ((leads_forM_rest
      (P := fun rest u => (∀ row ∈ rest, row ∈ heads) ∧ SoundBut (Pending owner versions rest) u ∧
        u.versions = t.versions) ?_ ⟨fun _ => id, ht, rfl⟩).mono ?_)
    · rintro row rest u ⟨hall, hu, hkept⟩
      obtain ⟨hrow, hsource⟩ := (hmemHead row).mp (hall row List.mem_cons_self)
      refine (copyHead_keeps hu fun cursor => ?_).mono ?_
      · exact (published_copied (h.published row hrow) hsource hcopied).of_versions hkept
      · rintro _ v ⟨hv, hsame'⟩
        exact ⟨fun other hother => hall other (List.mem_cons_of_mem _ hother), hv, hsame'.trans hkept⟩
    · rintro _ u ⟨-, hu, -⟩
      have hsound : Sound u := hu.mono fun _ _ hpending => by
        obtain ⟨_, _, _, hnil, _⟩ := hpending
        cases hnil
      refine leads_bind ((leads_forM (P := Sound) (fun row _ v hv => ?_) hsound).mono fun _ v hv => leads_pure hv)
      exact copyTombstone_same.mono fun _ _ hsame' => hv.same hsame'

/-! ### Reviews -/

/-- What a checked entry of a review names: a version of the head's record, stored. -/
def Reviewed (ledger : Ledger) (entry : MemoryProposal × MemoryHead) : Prop :=
  entry.1.proposedVersion.datasetId = entry.2.datasetId ∧ entry.1.proposedVersion.recordId = entry.2.recordId ∧
    Stored ledger entry.1.proposedVersion

theorem reviewEntry_reviews {accept : Bool} {dataset : Option Id} {epoch : Option Nat}
    {before : List (MemoryProposal × MemoryHead)} {entry : ExactProposal} (hbefore : ∀ e ∈ before, Reviewed s e) :
    (reviewEntry accept dataset epoch before entry).Leads s fun checked t => t = s ∧ ∀ e ∈ checked, Reviewed s e := by
  refine leads_bind (leads_storedProposal.mono ?_)
  rintro found _ ⟨rfl, -, -⟩
  refine leads_bind (leads_found.mono ?_)
  rintro stored _ ⟨rfl, -⟩
  refine leads_raiseIf fun _ => leads_raiseIf fun _ => leads_raiseIf fun _ => leads_raiseIf fun _ => ?_
  refine leads_raiseIf fun _ => leads_raiseIf fun _ => leads_raiseIf fun _ => leads_bind (leads_storedHead.mono ?_)
  rintro row _ ⟨rfl, hfind, -⟩
  refine leads_bind (leads_found.mono ?_)
  rintro head _ ⟨rfl, hrow⟩
  have hkey : headKey head = (stored.owner.datasetId, stored.baseHead.recordId) :=
    Keyed.find_key (hfind.symm.trans hrow)
  simp only [headKey, Prod.mk.injEq] at hkey
  refine leads_raiseIf fun _ => leads_raiseIf fun _ => leads_raiseIf fun _ => leads_bind (leads_storedVersion.mono ?_)
  rintro target _ ⟨rfl, htarget, -⟩
  refine leads_raiseIf fun href => leads_pure ⟨rfl, fun e he => ?_⟩
  rw [not_not, htarget] at href
  cases List.mem_append.mp he with
  | inl hold => exact hbefore e hold
  | inr hnew =>
    rw [List.mem_singleton.mp hnew]
    exact ⟨stored.target.1.symm.trans hkey.1.symm, stored.target.2.2.symm.trans hkey.2.symm, stored_of_find href⟩

theorem reviewEntries_review {accept : Bool} {dataset : Option Id} {epoch : Option Nat}
    {before : List (MemoryProposal × MemoryHead)} {entries : List ExactProposal}
    (hbefore : ∀ e ∈ before, Reviewed s e) :
    (entries.foldlM (reviewEntry accept dataset epoch) before : Txn _).Leads s fun checked t =>
      t = s ∧ ∀ e ∈ checked, Reviewed s e := by
  induction entries generalizing before with
  | nil => exact leads_pure ⟨rfl, hbefore⟩
  | cons entry rest ih =>
    rw [List.foldlM_cons]
    refine leads_bind ((reviewEntry_reviews hbefore).mono ?_)
    rintro checked _ ⟨rfl, hchecked⟩
    exact ih hchecked

/-- A head that leaves publication still names what it published. -/
theorem ending_keeps {head : MemoryHead} {state : HeadState} {cursor revision : Nat} (h : Sound s)
    (hpublished : Published s head) :
    (updateHead (head.ending state cursor) revision).Leads s fun _ t => Sound t ∧ t.versions = s.versions :=
  (keeps_updateHead h (show Published s (head.ending state cursor) from hpublished)).mono fun _ _ ht => ⟨ht.1, ht.2.1⟩

theorem retireHeads_keeps {heads : List MemoryHead} (h : Sound s) (hheads : ∀ head ∈ heads, Published s head) :
    (retireHeads heads).Leads s fun _ t => Sound t ∧ t.versions = s.versions := by
  refine leads_forM (P := fun t => Sound t ∧ t.versions = s.versions) (fun head hhead t ht => ?_) ⟨h, rfl⟩
  refine leads_bind (leads_nextCursor.mono ?_)
  intro cursor u hsame
  have hpublished : Published u head := (hheads head hhead).of_versions (hsame.1.trans ht.2)
  refine leads_bind ((ending_keeps (ht.1.same hsame) hpublished).mono ?_)
  rintro _ v ⟨hv, hversions⟩
  exact leads_pure ⟨hv, hversions.trans (hsame.1.trans ht.2)⟩

theorem retireRelated_keeps {targets : List MemoryVersionRef} {proposals : List MemoryProposal} (h : Sound s) :
    (retireRelated targets proposals).Leads s fun _ t => Sound t ∧ t.versions = s.versions := by
  refine leads_bind ((leads_mapM_each (R := Published s) fun target => ?_).mono ?_)
  · refine leads_bind (leads_storedHead.mono ?_)
    rintro found _ ⟨rfl, hfind, -⟩
    cases hfilter : found.filter fun head => head.publishedVersion = some target && head.state = .published with
    | none => exact leads_throw
    | some head =>
      have hmem := (Keyed.find_some.mp (hfind.symm.trans (Option.filter_eq_some_iff.mp hfilter).1)).1
      exact leads_pure ⟨rfl, h.published head hmem⟩
  · rintro heads _ ⟨rfl, hall⟩
    exact retireHeads_keeps h hall

theorem reviewProposalsBatch_keeps {accept : Bool} {dataset : Option Id} {epoch : Option Nat}
    {targets : List MemoryVersionRef} {entries : List ExactProposal} :
    Keeps (reviewProposalsBatch accept dataset epoch (retireRelated targets) entries) := by
  intro s h
  refine leads_raiseIf fun _ => leads_raiseIf fun _ => leads_bind ((reviewEntries_review (List.forall_mem_nil _)).mono ?_)
  rintro checked _ ⟨rfl, hall⟩
  refine leads_raiseIf fun _ => leads_bind ((retireRelated_keeps h).mono ?_)
  rintro _ t ⟨ht, hversions⟩
  refine (leads_forM (P := fun u => Sound u ∧ u.versions = t.versions) (fun entry hentry u hu => ?_)
    ⟨ht, rfl⟩).mono fun _ _ hu => hu.1
  refine leads_ite (fun _ => leads_bind (leads_nextCursor.mono ?_)) fun _ =>
    leads_bind (leads_markProposalState.mono ?_)
  · intro cursor v hsame
    obtain ⟨hdataset, hrecord, hstored⟩ := hall entry hentry
    have hstored' : Stored v entry.1.proposedVersion := by
      rw [Stored, hsame.1, hu.2, hversions]
      exact hstored
    refine leads_bind ((publishes (hu.1.same hsame) hdataset hrecord hstored').mono ?_)
    rintro updated w ⟨hw, hkept⟩
    refine leads_raiseIf fun _ => leads_bind (leads_markProposalState.mono ?_)
    intro _ x hmark
    exact leads_pure ⟨hw.same hmark, hmark.1.trans (hkept.trans (hsame.1.trans hu.2))⟩
  · intro _ v hmark
    exact leads_pure ⟨hu.1.same hmark, hmark.1.trans hu.2⟩

/-! ### The end of records -/

theorem deactivate_keeps {dataset record : Id} {expected epoch : Option Nat} {revoke : Bool} :
    Keeps (deactivate dataset record expected epoch revoke) := by
  intro s h
  refine leads_bind (leads_storedHead.mono ?_)
  rintro found _ ⟨rfl, hfind, -⟩
  refine leads_bind (leads_found.mono ?_)
  rintro head _ ⟨rfl, hhead⟩
  have hpublished := h.published head (Keyed.find_some.mp (hfind.symm.trans hhead)).1
  refine leads_ite (fun _ => leads_pure h) fun _ => leads_raiseIf fun _ => leads_raiseIf fun _ => ?_
  refine leads_raiseIf fun _ => leads_bind (leads_nextCursor.mono ?_)
  intro cursor t hsame
  refine leads_bind ((ending_keeps (h.same hsame) (hpublished.of_versions hsame.1)).mono ?_)
  rintro _ u ⟨hu, -⟩
  refine leads_raiseIf fun _ => leads_ite (fun _ => leads_bind (leads_upsertTombstone.mono ?_)) fun _ => leads_pure hu
  intro _ v hsame'
  exact leads_pure (hu.same hsame')

theorem cancelPending_same {dataset record : Id} : (cancelPending dataset record).Leads s fun _ t => Same s t := by
  refine leads_get (leads_forM (P := Same s) (fun proposal _ t ht => leads_raiseIf fun _ => ?_) .refl)
  refine leads_bind (leads_markProposalState.mono ?_)
  intro _ u hmark
  exact leads_pure (ht.trans hmark)

theorem deleteHead_keeps {head : MemoryHead} (h : Sound s) (hpublished : Published s head) :
    (deleteHead head).Leads s fun _ t => Sound t ∧ t.versions = s.versions := by
  refine leads_bind (leads_nextCursor.mono ?_)
  intro cursor t hsame
  refine leads_bind ((ending_keeps (h.same hsame) (hpublished.of_versions hsame.1)).mono ?_)
  rintro _ u ⟨hu, hversions⟩
  refine leads_raiseIf fun _ => leads_bind (cancelPending_same.mono ?_)
  intro _ v hcancel
  refine leads_bind (leads_upsertTombstone.mono ?_)
  intro _ w htombstone
  have hkept := hcancel.trans htombstone
  exact leads_pure ⟨hu.same hkept, hkept.1.trans (hversions.trans hsame.1)⟩

theorem deleteRecord_keeps {dataset record : Id} {expected epoch : Option Nat} :
    Keeps (deleteRecord dataset record expected epoch) := by
  intro s h
  refine leads_bind (leads_storedHead.mono ?_)
  rintro found _ ⟨rfl, hfind, -⟩
  cases found with
  | none =>
    refine leads_bind (leads_storedTombstone.mono ?_)
    rintro _ _ rfl
    exact leads_found.mono fun _ _ ht => ht.1 ▸ h
  | some head =>
    refine leads_raiseIf fun _ => leads_raiseIf fun _ => ?_
    exact (deleteHead_keeps h (h.published head (Keyed.find_some.mp hfind.symm).1)).mono fun _ _ ht => ht.1

theorem deleteDataset_keeps {dataset : Id} : Keeps (deleteDataset dataset) := by
  intro s h
  refine leads_get (leads_bind ((leads_forM (P := fun t => Sound t ∧ t.versions = s.versions)
    (fun head hhead t ht => ?_) ⟨h, rfl⟩).mono ?_))
  · have hmem : head ∈ s.heads.rows := List.mem_of_mem_filter ((List.mem_insertionSort _).mp hhead)
    refine leads_raiseIf fun _ => leads_ite (fun _ => leads_pure ht) fun _ => ?_
    refine leads_bind ((deleteHead_keeps ht.1 ((h.published head hmem).of_versions ht.2)).mono ?_)
    rintro _ u ⟨hu, hversions⟩
    exact leads_pure ⟨hu, hversions.trans ht.2⟩
  · rintro _ t ⟨ht, -⟩
    refine leads_bind (leads_storedTombstone.mono ?_)
    rintro found _ rfl
    cases found with
    | some _ => exact leads_pure ht
    | none =>
      refine leads_get (leads_bind (leads_nextCursor.mono ?_))
      intro cursor u hsame
      exact leads_upsertTombstone.mono fun _ _ hsame' => (ht.same hsame).same hsame'

theorem purge_keeps {dataset : Id} : Keeps (purge dataset) := by
  intro s h
  refine leads_get fun _ t hrun => ?_
  rw [← (Prod.mk.inj (Except.ok.inj hrun)).2]
  refine ⟨fun head hhead ref href => ?_, fun version hversion => ?_⟩
  · obtain ⟨hmem, hother⟩ := Keyed.mem_delete.mp hhead
    obtain ⟨hdataset, hrecord, version, hversion, hsame⟩ := h.published head hmem ref href
    refine ⟨hdataset, hrecord, version, Keyed.mem_delete.mpr ⟨hversion, ?_⟩, hsame⟩
    rw [hsame, hdataset]
    exact hother
  · obtain ⟨hmem, hother⟩ := Keyed.mem_delete.mp hversion
    refine (h.headed version hmem).imp_right ?_
    rintro ⟨head, hhead, hkey⟩
    have hids := hkey
    simp only [headKey, Prod.mk.injEq] at hids
    refine ⟨head, Keyed.mem_delete.mpr ⟨hhead, ?_⟩, hkey⟩
    rw [hids.1]
    exact hother

/-! ### Imports and candidates -/

theorem importHead_keeps {owner : DatasetOwner} {epoch : Nat} {record : Id} (h : Sound s) :
    (importHead owner epoch record).Leads s fun _ t => Sound t ∧ Headed t owner.datasetId record := by
  refine leads_bind (leads_storedHead.mono ?_)
  rintro found _ ⟨rfl, hfind, -⟩
  cases found with
  | some head => exact leads_pure ⟨h, headed_of_find hfind.symm⟩
  | none => exact (keeps_newHead h).mono fun _ _ ht => ⟨ht.1, ht.2.2⟩

theorem importVersion_keeps {version : MemoryVersion} (h : Sound s)
    (hheaded : Headed s version.ref.datasetId version.ref.recordId) :
    (importVersion sha256 version).Leads s fun _ t => Sound t := by
  refine leads_bind (leads_storedVersion.mono ?_)
  rintro found _ ⟨rfl, -, -⟩
  cases found with
  | none => exact (keeps_insertVersion h (.inr hheaded)).mono fun _ _ ht => ht.1
  | some existing => exact leads_guard.mono fun _ _ ht => ht.1 ▸ h

theorem noteImport_same {row : LegacyImport} : (noteImport row).Leads s fun _ t => Same s t := by
  refine leads_get ?_
  cases s.legacyImports.insert row with
  | none => exact leads_throw
  | some imports => exact fun _ t hrun => (Prod.mk.inj (Except.ok.inj hrun)).2 ▸ ⟨rfl, rfl⟩

theorem importRecord_keeps {owner : DatasetOwner} {epoch : Nat} {record : LegacyRecord} :
    Keeps (importRecord sha256 owner epoch record) := by
  intro s h
  refine leads_get ?_
  cases s.legacyImports.find (owner.datasetId, record.sourceKey) with
  | some row =>
    refine leads_raiseIf fun _ => leads_bind (leads_storedVersion.mono ?_)
    rintro found _ ⟨rfl, -, -⟩
    exact leads_pure h
  | none =>
    refine leads_raiseIf fun _ => leads_raiseIf fun _ => leads_bind ((importHead_keeps h).mono ?_)
    rintro _ t ⟨ht, hheaded⟩
    refine leads_bind ((importVersion_keeps ht hheaded).mono fun _ u hu => ?_)
    exact leads_bind (noteImport_same.mono fun _ _ hsame => leads_pure (hu.same hsame))

theorem proposeImported_keeps {owner : DatasetOwner} {newId : Id → Id} {record : Id} :
    Keeps (proposeImported owner newId record) := by
  intro s h
  refine leads_bind (leads_storedHead.mono ?_)
  rintro found _ ⟨rfl, -, -⟩
  cases found with
  | none => exact leads_pure h
  | some head =>
    refine leads_get (leads_bind (leads_storedVersion.mono ?_))
    rintro found _ ⟨rfl, -, -⟩
    cases found with
    | none => exact leads_pure h
    | some latest =>
      refine leads_ite (fun _ => leads_pure h) fun _ => leads_bind (leads_makeProposal.mono ?_)
      rintro proposal _ ⟨rfl, -⟩
      refine leads_bind (leads_insertProposal.mono ?_)
      intro isNew t hsame
      exact leads_guard.mono fun _ _ ht => ht.1 ▸ h.same hsame

theorem migrateLegacy_keeps {owner : DatasetOwner} {epoch : Nat} {newId : Id → Id} {records : List LegacyRecord} :
    Keeps (migrateLegacy sha256 owner epoch newId records) := by
  intro s h
  refine leads_bind (leads_storedTombstone.mono ?_)
  rintro _ _ rfl
  refine leads_raiseIf fun _ => leads_bind ((leads_mapM (P := fun _ => Sound)
    (fun record rest t ht => importRecord_keeps t ht) h).mono fun imported t ht => ?_)
  exact leads_forM (P := Sound) (fun record _ u hu => proposeImported_keeps u hu) ht

theorem storeCandidateAt_keeps {version : MemoryVersion} {maintenance : Bool} {operation : Operation}
    {extractor : Id} {reason : Reason} {id : Id} {head : MemoryHead} (h : Sound s)
    (hheaded : Headed s version.ref.datasetId version.ref.recordId) :
    (storeCandidateAt sha256 version maintenance operation extractor reason id head).Leads s fun _ t => Sound t := by
  have hrest : ∀ t, Sound t → (do
      let proposal ← makeProposal id version.owner operation head version.ref version.sources extractor reason
      let isNew ← insertProposal proposal
      raiseIf (!isNew) (.conflict "proposal identity or idempotency key already exists")
      pure proposal : Txn MemoryProposal).Leads t fun _ u => Sound u := by
    intro t ht
    refine leads_bind (leads_makeProposal.mono ?_)
    rintro proposal _ ⟨rfl, -⟩
    refine leads_bind (leads_insertProposal.mono ?_)
    intro isNew u hsame
    exact leads_raiseIf fun _ => leads_pure (ht.same hsame)
  refine leads_bind (leads_storedVersion.mono ?_)
  rintro found _ ⟨rfl, -, -⟩
  cases found with
  | none =>
    refine leads_bind ((keeps_insertVersion h (.inr hheaded)).mono ?_)
    rintro _ t ⟨ht, -, -⟩
    exact hrest t ht
  | some stored => exact leads_raiseIf fun _ => hrest _ h

theorem storeCandidate_keeps {maintenance : Bool} {version : MemoryVersion} {expected : Option Nat} {epoch : Nat}
    {operation : Operation} {extractor : Id} {reason : Reason} {id : Id} :
    Keeps (storeCandidate sha256 maintenance version expected epoch operation extractor reason id) := by
  intro s h
  refine leads_bind (leads_storedHead.mono ?_)
  rintro found _ ⟨rfl, hfind, -⟩
  cases found with
  | some head =>
    refine leads_raiseIf fun _ => leads_get (leads_raiseIf fun _ => leads_raiseIf fun _ => leads_raiseIf fun _ => ?_)
    exact storeCandidateAt_keeps h (headed_of_find hfind.symm)
  | none =>
    refine leads_bind (leads_storedTombstone.mono ?_)
    rintro _ _ rfl
    refine leads_bind (leads_storedTombstone.mono ?_)
    rintro _ _ rfl
    refine leads_raiseIf fun _ => leads_raiseIf fun _ => leads_bind (leads_headForCreate.mono ?_)
    rintro head _ ⟨rfl, hkey, hnone⟩
    refine leads_bind ((keeps_insertHead h (published_none hnone)).mono ?_)
    rintro _ t ⟨ht, -, -, hmem⟩
    exact storeCandidateAt_keeps ht ⟨head, hmem, hkey⟩

/-! ### Runs -/

theorem step_keeps {t : Ledger} (h : Sound s) (hstep : Step sha256 s t) : Sound t := by
  cases hstep with
  | save version dataset expected epoch gap hrun => exact saveVersion_keeps s h _ t hrun
  | propose request hrun => exact propose_keeps s h _ t hrun
  | correct now dataset record request hrun => exact correct_keeps s h _ t hrun
  | confirm id dataset expected epoch hrun => exact confirmProposal_keeps s h _ t hrun
  | reject id dataset hrun => exact rejectProposal_keeps s h _ t hrun
  | promote now request hrun => exact promoteVerified_keeps s h _ t hrun
  | copy source owner scope hrun => exact copyDataset_keeps s h _ t hrun
  | review accept dataset epoch targets entries hrun => exact reviewProposalsBatch_keeps s h _ t hrun
  | deactivate dataset record expected epoch revoke hrun => exact deactivate_keeps s h _ t hrun
  | delete dataset record expected epoch hrun => exact deleteRecord_keeps s h _ t hrun
  | deleteDataset dataset hrun => exact deleteDataset_keeps s h _ t hrun
  | purge dataset hrun => exact purge_keeps s h _ t hrun
  | migrate owner epoch newId records hrun => exact migrateLegacy_keeps s h _ t hrun
  | candidate maintenance version expected epoch operation extractor reason id hrun =>
    exact storeCandidate_keeps s h _ t hrun

theorem sound_new : Sound {} := ⟨List.forall_mem_nil _, List.forall_mem_nil _⟩

/-- Every ledger that is reached is sound. -/
theorem reachable_sound (h : Reachable sha256 s) : Sound s := by
  induction h with
  | refl => exact sound_new
  | tail _ hstep ih => exact step_keeps ih hstep

end Operant.Memory
