import Operant.Memory.Lifecycle

/-! What every ledger keeps: a head publishes a version of its own record that is stored, and a version that is
stored has a head.

A copy puts the versions before their heads, so that the second half is stated with the records whose heads
are still to come. -/
namespace Operant.Memory
open Operant.Calls Operant.Calls.Transaction Operant.Tables

/-- A version that is stored under that reference. -/
def Stored (ledger : Ledger) (ref : MemoryVersionRef) : Prop := ∃ version ∈ ledger.versions.rows, version.ref = ref

/-- A head's version is of its record, and stored. -/
def Published (ledger : Ledger) (head : MemoryHead) : Prop :=
  ∀ ref, head.publishedVersion = some ref →
    ref.datasetId = head.datasetId ∧ ref.recordId = head.recordId ∧ Stored ledger ref

/-- Sound, but for the heads of some records. -/
structure SoundBut (pending : Id → Id → Prop) (ledger : Ledger) : Prop where
  published : ∀ head ∈ ledger.heads.rows, Published ledger head
  headed : ∀ version ∈ ledger.versions.rows, pending version.ref.datasetId version.ref.recordId ∨
    ∃ head ∈ ledger.heads.rows, headKey head = (version.ref.datasetId, version.ref.recordId)

def Sound : Ledger → Prop := SoundBut fun _ _ => False

/-- Versions and heads are as they were. -/
def Same (s t : Ledger) : Prop := t.versions = s.versions ∧ t.heads = s.heads

/-- More versions, the same heads. -/
def Grown (s t : Ledger) : Prop := (∀ version ∈ s.versions.rows, version ∈ t.versions.rows) ∧ t.heads = s.heads

section
variable {s t u : Ledger} {pending : Id → Id → Prop}

theorem Same.refl : Same s s := ⟨rfl, rfl⟩

theorem Same.trans (h : Same s t) (h' : Same t u) : Same s u := ⟨h'.1.trans h.1, h'.2.trans h.2⟩

theorem SoundBut.same (h : SoundBut pending s) (hsame : Same s t) : SoundBut pending t := by
  obtain ⟨hversions, hheads⟩ := hsame
  refine ⟨fun head hhead ref href => ?_, fun version hversion => ?_⟩
  · rw [hheads] at hhead
    rw [Stored, hversions]
    exact h.published head hhead ref href
  · rw [hversions] at hversion
    rw [hheads]
    exact h.headed version hversion

theorem SoundBut.mono {later : Id → Id → Prop} (h : SoundBut pending s)
    (hle : ∀ dataset record, pending dataset record → later dataset record) : SoundBut later s :=
  ⟨h.published, fun version hversion => (h.headed version hversion).imp_left (hle _ _)⟩

/-- A head that is put, or put in the place of one. -/
theorem SoundBut.withHead (h : SoundBut pending s) (hversions : t.versions = s.versions) {head : MemoryHead}
    (hpublished : Published s head) (hrows : ∀ row, row ∈ t.heads.rows → row ∈ s.heads.rows ∨ row = head)
    (hkept : ∀ row ∈ s.heads.rows, ∃ other ∈ t.heads.rows, headKey other = headKey row) : SoundBut pending t := by
  have hstored : ∀ row, Published s row → Published t row := fun row hrow ref href => by
    rw [Stored, hversions]
    exact hrow ref href
  refine ⟨fun row hrow => ?_, fun version hversion => ?_⟩
  · cases hrows row hrow with
    | inl hold => exact hstored row (h.published row hold)
    | inr hnew => exact hstored row (hnew ▸ hpublished)
  · rw [hversions] at hversion
    refine (h.headed version hversion).imp_right ?_
    rintro ⟨row, hrow, hkey⟩
    obtain ⟨other, hother, hsame⟩ := hkept row hrow
    exact ⟨other, hother, hsame.trans hkey⟩

end

/-! ### What each access does -/

section
variable {s : Ledger}

theorem leads_parsed {α : Type} {readable : α → Bool} {row : Option α} :
    (parsed readable row).Leads s fun found t => t = s ∧ found = row ∧ ∀ a, row = some a → readable a = true := by
  cases row with
  | none => exact leads_pure ⟨rfl, rfl, nofun⟩
  | some a =>
    refine leads_ite (fun h => leads_pure ⟨rfl, rfl, fun b hb => ?_⟩) fun _ => leads_throw
    rw [← Option.some.inj hb]
    exact h

theorem leads_storedVersion {dataset record : Id} {version : Nat} :
    (storedVersion dataset record version).Leads s fun found t =>
      t = s ∧ found = s.versions.find (dataset, record, version) ∧ ∀ v, found = some v → v.readable = true :=
  leads_get (leads_parsed.mono fun _ _ h => ⟨h.1, h.2.1, fun v hv => h.2.2 v (h.2.1 ▸ hv)⟩)

theorem leads_storedHead {dataset record : Id} :
    (storedHead dataset record).Leads s fun found t =>
      t = s ∧ found = s.heads.find (dataset, record) ∧ ∀ head, found = some head → head.readable = true :=
  leads_get (leads_parsed.mono fun _ _ h => ⟨h.1, h.2.1, fun v hv => h.2.2 v (h.2.1 ▸ hv)⟩)

theorem leads_storedProposal {id : Id} :
    (storedProposal id).Leads s fun found t =>
      t = s ∧ found = s.proposals.find id ∧ ∀ proposal, found = some proposal → proposal.readable = true :=
  leads_get (leads_parsed.mono fun _ _ h => ⟨h.1, h.2.1, fun v hv => h.2.2 v (h.2.1 ▸ hv)⟩)

theorem leads_storedTombstone {dataset : Id} {record : Option Id} :
    (storedTombstone dataset record).Leads s fun _ t => t = s :=
  leads_get (leads_pure rfl)

theorem leads_found {α : Type} {text : String} {row : Option α} :
    (found text row).Leads s fun a t => t = s ∧ row = some a := by
  cases row with
  | none => exact leads_throw
  | some a => exact leads_pure ⟨rfl, rfl⟩

theorem leads_guard {c : Prop} [Decidable c] {failure : Failure} :
    (raiseIf c failure : Txn PUnit).Leads s fun _ t => t = s ∧ ¬c := by
  intro a t hrun
  obtain ⟨hc, hr⟩ := run_raiseIf.mp hrun
  exact ⟨(Prod.mk.inj hr).2, hc⟩

theorem leads_nextCursor : nextCursor.Leads s fun _ t => Same s t :=
  leads_get (leads_raiseIf fun _ => leads_set (leads_pure ⟨rfl, rfl⟩))

theorem leads_headForCreate {dataset record : Id} {epoch : Nat} :
    (headForCreate dataset record epoch).Leads s fun head t =>
      t = s ∧ headKey head = (dataset, record) ∧ head.publishedVersion = none :=
  leads_raiseIf fun _ => leads_pure ⟨rfl, rfl, rfl⟩

theorem leads_insertHead {head : MemoryHead} :
    (insertHead head).Leads s fun _ t => ∃ h : s.heads.find (headKey head) = none,
      t = { s with heads := s.heads.add head h } := by
  refine leads_get ?_
  cases hinsert : s.heads.insert head with
  | none => exact leads_throw
  | some heads =>
    obtain ⟨h, rfl⟩ := Keyed.insert_some.mp hinsert
    intro a t hrun
    exact ⟨h, ((Prod.mk.inj (Except.ok.inj hrun)).2).symm⟩

theorem leads_insertVersion {sha256 : String → Digest} {version : MemoryVersion} :
    (insertVersion sha256 version).Leads s fun _ t => sha256 version.content = version.ref.contentDigest ∧
      ∃ h : s.versions.find (versionKey version) = none, t = { s with versions := s.versions.add version h } := by
  refine leads_raiseIf fun hdigest => leads_get ?_
  cases hinsert : s.versions.insert version with
  | none => exact leads_throw
  | some versions =>
    obtain ⟨h, rfl⟩ := Keyed.insert_some.mp hinsert
    intro a t hrun
    exact ⟨not_not.mp hdigest, h, ((Prod.mk.inj (Except.ok.inj hrun)).2).symm⟩

theorem leads_insertProposal {proposal : MemoryProposal} :
    (insertProposal proposal).Leads s fun _ t => Same s t := by
  refine leads_get ?_
  cases hinsert : s.proposals.insert proposal with
  | none => exact leads_pure .refl
  | some proposals => exact leads_set (leads_pure ⟨rfl, rfl⟩)

theorem leads_updateHead {next : MemoryHead} {revision : Nat} :
    (updateHead next revision).Leads s fun updated t =>
      (updated = true ∧ (s.heads.find (headKey next)).isSome ∧ t = { s with heads := s.heads.set next }) ∨
        (updated = false ∧ t = s) := by
  refine leads_get (leads_ite (fun h => leads_set (leads_pure (.inl ⟨rfl, ?_, rfl⟩)))
    fun _ => leads_pure (.inr ⟨rfl, rfl⟩))
  cases hfind : s.heads.find (headKey next) with
  | none => simp [hfind] at h
  | some row => rfl

theorem leads_markProposalState {proposal : MemoryProposal} {state : ProposalState} :
    (markProposalState proposal state).Leads s fun _ t => Same s t := by
  refine leads_get ?_
  dsimp only
  exact leads_ite (fun _ => leads_set (leads_pure ⟨rfl, rfl⟩)) fun _ => leads_pure .refl

theorem leads_upsertTombstone {tombstone : Tombstone} : (upsertTombstone tombstone).Leads s fun _ t => Same s t :=
  leads_raiseIf fun _ => leads_get fun a t hrun => by
    rw [← (Prod.mk.inj (Except.ok.inj hrun)).2]
    exact ⟨rfl, rfl⟩

theorem leads_makeProposal {id : Id} {owner : DatasetOwner} {operation : Operation} {head : MemoryHead}
    {ref : MemoryVersionRef} {sources : List SourceRef} {extractor : Id} {reason : Reason} :
    (makeProposal id owner operation head ref sources extractor reason).Leads s fun built t => t = s ∧
      built.baseHead = head ∧ built.proposedVersion = ref ∧ built.owner = owner ∧ built.proposalId = id ∧
      built.proposalRevision = 0 ∧ built.state = .pending := by
  unfold makeProposal
  split
  · exact leads_pure ⟨rfl, rfl, rfl, rfl, rfl, rfl, rfl⟩
  · exact leads_throw

end

/-! ### What each write keeps -/

section
variable {s t : Ledger} {pending : Id → Id → Prop}

/-- A record that has a head. -/
def Headed (ledger : Ledger) (dataset record : Id) : Prop :=
  ∃ head ∈ ledger.heads.rows, headKey head = (dataset, record)

theorem headed_of_find {dataset record : Id} {head : MemoryHead} (h : s.heads.find (dataset, record) = some head) :
    Headed s dataset record :=
  ⟨head, Keyed.find_some.mp h⟩

theorem Published.of_versions {head : MemoryHead} (h : Published s head) (hversions : t.versions = s.versions) :
    Published t head := fun ref href => by
  rw [Stored, hversions]
  exact h ref href

theorem published_none {head : MemoryHead} (h : head.publishedVersion = none) : Published s head :=
  fun ref href => by rw [h] at href; cases href

theorem published_publishing {head : MemoryHead} {ref : MemoryVersionRef} {cursor : Nat}
    (hdataset : ref.datasetId = head.datasetId) (hrecord : ref.recordId = head.recordId) (hstored : Stored s ref) :
    Published s (head.publishing ref cursor) := fun _ href => by
  rw [← Option.some.inj href]
  exact ⟨hdataset, hrecord, hstored⟩

theorem keeps_insertHead {head : MemoryHead} (h : SoundBut pending s) (hpublished : Published s head) :
    (insertHead head).Leads s fun _ t => SoundBut pending t ∧ t.versions = s.versions ∧
      (∀ row ∈ s.heads.rows, row ∈ t.heads.rows) ∧ head ∈ t.heads.rows := by
  refine leads_insertHead.mono ?_
  rintro _ t ⟨hnew, rfl⟩
  refine ⟨h.withHead rfl hpublished (fun row hrow => (Keyed.mem_add hnew).mp hrow) fun row hrow => ?_, rfl,
    fun row hrow => (Keyed.mem_add hnew).mpr (.inl hrow), (Keyed.mem_add hnew).mpr (.inr rfl)⟩
  exact ⟨row, (Keyed.mem_add hnew).mpr (.inl hrow), rfl⟩

theorem keeps_insertVersion {sha256 : String → Digest} {version : MemoryVersion} (h : SoundBut pending s)
    (hhead : pending version.ref.datasetId version.ref.recordId ∨
      Headed s version.ref.datasetId version.ref.recordId) :
    (insertVersion sha256 version).Leads s fun _ t => SoundBut pending t ∧ Grown s t ∧
      version ∈ t.versions.rows := by
  refine leads_insertVersion.mono ?_
  rintro _ t ⟨-, hnew, rfl⟩
  refine ⟨⟨fun head hhead ref href => ?_, fun other hother => ?_⟩,
    ⟨fun row hrow => (Keyed.mem_add hnew).mpr (.inl hrow), rfl⟩, (Keyed.mem_add hnew).mpr (.inr rfl)⟩
  · obtain ⟨hdataset, hrecord, row, hrow, hsame⟩ := h.published head hhead ref href
    exact ⟨hdataset, hrecord, row, (Keyed.mem_add hnew).mpr (.inl hrow), hsame⟩
  · cases (Keyed.mem_add hnew).mp hother with
    | inl hold => exact h.headed other hold
    | inr heq => rw [heq]; exact hhead

theorem keeps_updateHead {next : MemoryHead} {revision : Nat} (h : SoundBut pending s)
    (hpublished : Published s next) :
    (updateHead next revision).Leads s fun _ t => SoundBut pending t ∧ t.versions = s.versions ∧
      ∀ dataset record, Headed s dataset record → Headed t dataset record := by
  refine leads_updateHead.mono ?_
  rintro _ t (⟨-, -, rfl⟩ | ⟨-, rfl⟩)
  · have hkept : ∀ row ∈ s.heads.rows, ∃ other ∈ (s.heads.set next).rows, headKey other = headKey row := by
      intro row hrow
      by_cases hkey : headKey row = headKey next
      · exact ⟨next, Keyed.mem_set.mpr (.inl ⟨rfl, row, hrow, hkey⟩), hkey.symm⟩
      · exact ⟨row, Keyed.mem_set.mpr (.inr ⟨hrow, hkey⟩), rfl⟩
    refine ⟨h.withHead rfl hpublished (fun row hrow => ?_) hkept, rfl, ?_⟩
    · cases Keyed.mem_set.mp hrow with
      | inl hnew => exact .inr hnew.1
      | inr hold => exact .inl hold.1
    · rintro dataset record ⟨row, hrow, hkey⟩
      obtain ⟨other, hother, hsame⟩ := hkept row hrow
      exact ⟨other, hother, hsame.trans hkey⟩
  · exact ⟨h, rfl, fun _ _ => id⟩

end

end Operant.Memory
