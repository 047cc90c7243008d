import Operant.Memory.Sound

/-! What the transactions of the ledger are made of.

A transaction that commits is a chain of moves. A head that was there when it started is moved at most once, one
revision up and to a cursor that nothing had before. What holds of every ledger is read off the moves, and so is
what the triggers on the heads write. -/
namespace Operant.Memory
open Operant.Calls Operant.Calls.Transaction Operant.Tables

/-- What a statement writes of `memory_ledger_heads`, and the proposal that is accepted with it. -/
inductive HeadWrite where
  | inserted (head : MemoryHead)
  | updated (head : MemoryHead) (accepted : Option MemoryProposal)

def HeadWrite.head : HeadWrite → MemoryHead
  | inserted head => head
  | updated head _ => head

/-- `state IN ('inactive', 'revoked', 'deleted')`. -/
def HeadState.isEnded (state : HeadState) : Bool := state = .inactive || state = .revoked || state = .deleted

/-- What only some transactions do: they make records inactive that were revoked, and put records into datasets
that are deleted. -/
structure Allowance where
  weaken : Id × Id → Prop
  late : Id → Prop

/-- What a head may end as. -/
def MayEnd (allow : Allowance) (head : MemoryHead) (state : HeadState) : Prop :=
  state.isEnded = true ∧ (head.state = .deleted → state = .deleted) ∧
    (head.state = .revoked → state = .inactive → allow.weaken (headKey head))

/-- A dataset that may get records. -/
def MayOpen (allow : Allowance) (ledger : Ledger) (dataset : Id) : Prop :=
  ledger.tombstones.find (dataset, none) = none ∨ allow.late dataset

/-- A proposal that is decided. -/
def MemoryProposal.closed (proposal : MemoryProposal) (state : ProposalState) : MemoryProposal :=
  { proposal with proposalRevision := proposal.proposalRevision + 1, state := state }

/-- A move of a transaction that found `start`. -/
inductive Move (start : Ledger) (allow : Allowance) : Ledger → Option HeadWrite → Ledger → Prop
  | bump {s} : Move start allow s none { s with publicationCursor := s.publicationCursor + 1 }
  | version {s} (version) (hnew : s.versions.find (versionKey version) = none) :
      Move start allow s none { s with versions := s.versions.add version hnew }
  | create {s} (head) (hnew : s.heads.find (headKey head) = none) (hopen : MayOpen allow s head.datasetId)
      (hstate : head.state ≠ .published) (hcursor : head.publicationCursor ≤ s.publicationCursor) :
      Move start allow s (some (.inserted head)) { s with heads := s.heads.add head hnew }
  | copy {s} (head) (hnew : s.heads.find (headKey head) = none) (hopen : MayOpen allow s head.datasetId)
      (hcursor : head.publicationCursor = s.publicationCursor + 1) :
      Move start allow s (some (.inserted head))
        { s with heads := s.heads.add head hnew, publicationCursor := s.publicationCursor + 1 }
  | propose {s} (proposal) (hnew : s.proposals.find proposal.proposalId = none)
      (hhead : s.heads.find (proposal.owner.datasetId, proposal.baseHead.recordId) = some proposal.baseHead)
      (hstate : proposal.state = .pending) :
      Move start allow s none { s with proposals := s.proposals.add proposal hnew }
  | publish {s} (head) (proposal) (hhead : s.heads.find (headKey head) = some head)
      (hfirst : start.heads.find (headKey head) = some head)
      (hproposal : s.proposals.find proposal.proposalId = some proposal) (hstate : proposal.state = .pending)
      (hkey : headKey head = (proposal.owner.datasetId, proposal.baseHead.recordId))
      (hbase : proposal.baseHead.revision = head.revision) (halive : head.state.isTombstoned = false) :
      Move start allow s (some (.updated (head.publishing proposal.proposedVersion (s.publicationCursor + 1))
          (some (proposal.closed .accepted))))
        { s with
          publicationCursor := s.publicationCursor + 1
          heads := s.heads.set (head.publishing proposal.proposedVersion (s.publicationCursor + 1))
          proposals := s.proposals.set (proposal.closed .accepted) }
  | ended {s} (head) (state) (hhead : s.heads.find (headKey head) = some head)
      (hfirst : start.heads.find (headKey head) = some head) (hmay : MayEnd allow head state) :
      Move start allow s (some (.updated (head.ending state (s.publicationCursor + 1)) none))
        { s with
          publicationCursor := s.publicationCursor + 1
          heads := s.heads.set (head.ending state (s.publicationCursor + 1)) }
  | close {s} (proposal) (state) (hproposal : s.proposals.find proposal.proposalId = some proposal)
      (hpending : proposal.state = .pending) (hstate : state ≠ .accepted) :
      Move start allow s none { s with proposals := s.proposals.set (proposal.closed state) }
  | tombstone {s} (row) : Move start allow s none { s with tombstones := s.tombstones.put row }
  | imports {s} (rows) : Move start allow s none { s with legacyImports := rows }

/-- What moves of a transaction that found `start` come to. -/
def Via (start : Ledger) (allow : Allowance) : Ledger → Prop :=
  Relation.ReflTransGen (fun s t => ∃ write, Move start allow s write t) start

/-! ### What moves do to heads -/

section
variable {start s t : Ledger} {allow : Allowance} {write : Option HeadWrite}

/-- A move leaves the heads that it does not write. -/
theorem move_unwritten (h : Move start allow s write t) {k : Id × Id}
    (hother : ∀ w, write = some w → headKey w.head ≠ k) : t.heads.find k = s.heads.find k := by
  cases h with
  | create head hnew => exact (Keyed.find_add hnew).trans (if_neg (hother _ rfl).symm)
  | copy head hnew => exact (Keyed.find_add hnew).trans (if_neg (hother _ rfl).symm)
  | publish | ended => exact Keyed.find_set.trans (if_neg (hother _ rfl).symm)
  | _ => rfl

/-- What a move writes is there. -/
theorem move_written {w : HeadWrite} (h : Move start allow s (some w) t) :
    t.heads.find (headKey w.head) = some w.head := by
  cases h with
  | create head hnew => exact (Keyed.find_add hnew).trans (if_pos rfl)
  | copy head hnew => exact (Keyed.find_add hnew).trans (if_pos rfl)
  | publish head proposal hhead => exact (Keyed.find_set.trans (if_pos rfl)).trans (congrArg (Option.map _) hhead)
  | ended head state hhead => exact (Keyed.find_set.trans (if_pos rfl)).trans (congrArg (Option.map _) hhead)

/-- The cursor of the ledger never goes back. -/
theorem move_cursor (h : Move start allow s write t) : s.publicationCursor ≤ t.publicationCursor := by
  cases h <;> first | exact Nat.le_refl _ | exact Nat.le_succ _

theorem Via.refl : Via start allow start := Relation.ReflTransGen.refl

theorem Via.step (h : Via start allow s) (hmove : Move start allow s write t) : Via start allow t :=
  Relation.ReflTransGen.tail h ⟨write, hmove⟩

theorem Via.cursor (h : Via start allow s) : start.publicationCursor ≤ s.publicationCursor := by
  induction h with
  | refl => exact Nat.le_refl _
  | tail _ hmove ih =>
    obtain ⟨write, hmove⟩ := hmove
    exact ih.trans (move_cursor hmove)

/-- What is written over a head that is there: the transaction found that head, and it goes one revision further, to
a new cursor. -/
structure WrittenOver (start s : Ledger) (now next : MemoryHead) : Prop where
  first : start.heads.find (headKey next) = some now
  revision : next.revision = now.revision + 1
  cursor : s.publicationCursor < next.publicationCursor
  state : next.state = .published ∨ next.state.isEnded = true

theorem move_over {w : HeadWrite} (h : Move start allow s (some w) t) {now : MemoryHead}
    (hnow : s.heads.find (headKey w.head) = some now) : WrittenOver start s now w.head := by
  cases h with
  | create other hnew => cases hnew.symm.trans hnow
  | copy other hnew => cases hnew.symm.trans hnow
  | publish other proposal hhead hfirst =>
    cases hhead.symm.trans hnow
    exact ⟨hfirst, rfl, Nat.lt_succ_self _, .inl rfl⟩
  | ended other state hhead hfirst hmay =>
    cases hhead.symm.trans hnow
    exact ⟨hfirst, rfl, Nat.lt_succ_self _, .inr hmay.1⟩

/-- What is published has a new cursor. -/
theorem move_published {w : HeadWrite} (h : Move start allow s (some w) t) (hpublished : w.head.state = .published) :
    s.publicationCursor < w.head.publicationCursor := by
  cases h with
  | create head hnew hopen hstate => exact absurd hpublished hstate
  | copy head hnew hopen hcursor => exact Nat.lt_of_lt_of_eq (Nat.lt_succ_self _) hcursor.symm
  | publish | ended => exact Nat.lt_succ_self _

/-- Through a transaction heads stay, and go at most one revision further. -/
theorem Via.further (h : Via start allow s) {k : Id × Id} {head : MemoryHead}
    (hstart : start.heads.find k = some head) :
    ∃ now, s.heads.find k = some now ∧ (now = head ∨ now.revision = head.revision + 1) := by
  induction h with
  | refl => exact ⟨head, hstart, .inl rfl⟩
  | tail _ hmove ih =>
    obtain ⟨write, hmove⟩ := hmove
    obtain ⟨now, hnow, hfurther⟩ := ih
    by_cases hwrites : ∃ w, write = some w ∧ headKey w.head = k
    · obtain ⟨w, rfl, rfl⟩ := hwrites
      have hover := move_over hmove hnow
      cases hover.first.symm.trans hstart
      exact ⟨w.head, move_written hmove, .inr hover.revision⟩
    · refine ⟨now, ?_, hfurther⟩
      rw [move_unwritten hmove fun w hw hk => hwrites ⟨w, hw, hk⟩]
      exact hnow

/-- The head that was found is the one that is there, if it has its revision. -/
theorem Via.unmoved (h : Via start allow s) {k : Id × Id} {head now : MemoryHead}
    (hstart : start.heads.find k = some head) (hnow : s.heads.find k = some now)
    (hrevision : now.revision = head.revision) : now = head := by
  obtain ⟨other, hother, hfurther⟩ := h.further hstart
  rw [hnow] at hother
  cases hother
  obtain rfl | hmoved := hfurther
  · rfl
  · omega

end

/-! ### Rules

What an access reads and writes, for the transaction that goes on from it. -/

section
variable {α β : Type} {s : Ledger} {Q : α → Ledger → Prop}

/-- The last part of a transaction. -/
theorem leads_last {m : Txn α} (h : (m >>= pure).Leads s Q) : m.Leads s Q := by
  rwa [bind_pure] at h

theorem reads_version {dataset record : Id} {number : Nat} {f : Option MemoryVersion → Txn α}
    (h : (f (s.versions.find (dataset, record, number))).Leads s Q) :
    (storedVersion dataset record number >>= f).Leads s Q :=
  leads_bind (leads_storedVersion.mono fun found t hfound => by rw [hfound.1, hfound.2.1]; exact h)

theorem reads_head {dataset record : Id} {f : Option MemoryHead → Txn α}
    (h : (f (s.heads.find (dataset, record))).Leads s Q) : (storedHead dataset record >>= f).Leads s Q :=
  leads_bind (leads_storedHead.mono fun found t hfound => by rw [hfound.1, hfound.2.1]; exact h)

theorem reads_proposal {id : Id} {f : Option MemoryProposal → Txn α} (h : (f (s.proposals.find id)).Leads s Q) :
    (storedProposal id >>= f).Leads s Q :=
  leads_bind (leads_storedProposal.mono fun found t hfound => by rw [hfound.1, hfound.2.1]; exact h)

theorem reads_tombstone {dataset : Id} {record : Option Id} {f : Option Tombstone → Txn α}
    (h : (f (s.tombstones.find (dataset, record))).Leads s Q) : (storedTombstone dataset record >>= f).Leads s Q :=
  leads_bind (leads_get (leads_pure h))

theorem takes_found {text : String} {row : Option β} {f : β → Txn α} (h : ∀ b, row = some b → (f b).Leads s Q) :
    (found text row >>= f).Leads s Q :=
  leads_bind (leads_found.mono fun b t hb => by rw [hb.1]; exact h b hb.2)

theorem takes_cursor {f : Nat → Txn α}
    (h : (f (s.publicationCursor + 1)).Leads { s with publicationCursor := s.publicationCursor + 1 } Q) :
    (nextCursor >>= f).Leads s Q :=
  leads_bind (leads_get (leads_raiseIf fun _ => leads_set (leads_pure h)))

theorem updates_head {next : MemoryHead} {revision : Nat} {f : Bool → Txn α}
    (hyes : ∀ row, s.heads.find (headKey next) = some row → row.revision = revision →
      (f true).Leads { s with heads := s.heads.set next } Q)
    (hno : (f false).Leads s Q) : (updateHead next revision >>= f).Leads s Q := by
  refine leads_bind (leads_get (leads_ite (fun h => leads_set (leads_pure ?_)) fun _ => leads_pure hno))
  obtain ⟨row, hrow, hrevision⟩ := Option.any_eq_true _ _ |>.mp h
  exact hyes row hrow (of_decide_eq_true hrevision)

theorem marks_proposal {proposal : MemoryProposal} {state : ProposalState} {f : MemoryProposal → Txn α}
    (hfind : s.proposals.find proposal.proposalId = some proposal)
    (h : (f (proposal.closed state)).Leads { s with proposals := s.proposals.set (proposal.closed state) } Q) :
    (markProposalState proposal state >>= f).Leads s Q := by
  refine leads_bind (leads_get ?_)
  dsimp only
  exact leads_ite (fun _ => leads_set (leads_pure h)) fun hnot => absurd (by simp [hfind]) hnot

theorem puts_tombstone {tombstone : Tombstone} {f : PUnit → Txn α}
    (h : (f ⟨⟩).Leads { s with tombstones := s.tombstones.put tombstone } Q) : (upsertTombstone tombstone >>= f).Leads s Q :=
  leads_bind (leads_raiseIf fun _ => leads_get fun _ _ hrun => (Prod.mk.inj (Except.ok.inj hrun)).2 ▸ h)

end

/-! ### Rules for moves -/

section
variable {α : Type} {start s : Ledger} {allow : Allowance} {Q : α → Ledger → Prop}

theorem puts_version {sha256 : String → Digest} {version : MemoryVersion} {f : PUnit → Txn α} (h : Via start allow s)
    (hrest : ∀ t, Via start allow t → t.heads = s.heads → t.tombstones = s.tombstones → (f ⟨⟩).Leads t Q) :
    (insertVersion sha256 version >>= f).Leads s Q :=
  leads_bind (leads_insertVersion.mono fun _ t ht => by
    obtain ⟨-, hnew, rfl⟩ := ht
    exact hrest _ (h.step (.version version hnew)) rfl rfl)

theorem puts_head {head : MemoryHead} {f : PUnit → Txn α} (h : Via start allow s)
    (hopen : MayOpen allow s head.datasetId) (hstate : head.state ≠ .published)
    (hcursor : head.publicationCursor ≤ s.publicationCursor)
    (hrest : ∀ t, Via start allow t → t.heads.find (headKey head) = some head → t.tombstones = s.tombstones →
      (f ⟨⟩).Leads t Q) : (insertHead head >>= f).Leads s Q :=
  leads_bind (leads_insertHead.mono fun _ t ht => by
    obtain ⟨hnew, rfl⟩ := ht
    exact hrest _ (h.step (.create head hnew hopen hstate hcursor)) ((Keyed.find_add hnew).trans (if_pos rfl)) rfl)

/-- A new head. -/
theorem makes_head {dataset record : Id} {epoch : Nat} {f : MemoryHead → PUnit → Txn α} (h : Via start allow s)
    (hopen : MayOpen allow s dataset)
    (hrest : ∀ head t, Via start allow t → headKey head = (dataset, record) →
      t.heads.find (headKey head) = some head → t.tombstones = s.tombstones → (f head ⟨⟩).Leads t Q) :
    (headForCreate dataset record epoch >>= fun head => insertHead head >>= f head).Leads s Q :=
  leads_bind (leads_raiseIf fun _ => leads_pure (puts_head h hopen (fun h => by cases h) (Nat.zero_le _)
    fun t ht hhead htombstones => hrest _ t ht rfl hhead htombstones))

/-- A proposal names the record of the head it is based on. -/
theorem proposal_key (proposal : MemoryProposal) :
    (proposal.owner.datasetId, proposal.baseHead.recordId) = headKey proposal.baseHead := by
  rw [headKey, proposal.target.1, proposal.target.2.1]

/-- A pending proposal of the head that is there. -/
theorem puts_proposal {proposal : MemoryProposal} {f : Bool → Txn α} (h : Via start allow s)
    (hhead : s.heads.find (headKey proposal.baseHead) = some proposal.baseHead) (hstate : proposal.state = .pending)
    (hyes : ∀ t, Via start allow t → t.heads = s.heads → t.proposals.find proposal.proposalId = some proposal →
      (f true).Leads t Q)
    (hno : (f false).Leads s Q) : (insertProposal proposal >>= f).Leads s Q := by
  refine leads_bind (leads_get ?_)
  cases hinsert : s.proposals.insert proposal with
  | none => exact leads_pure hno
  | some proposals =>
    obtain ⟨hnew, rfl⟩ := Keyed.insert_some.mp hinsert
    rw [← proposal_key] at hhead
    exact leads_set (leads_pure (hyes _ (h.step (.propose proposal hnew hhead hstate)) rfl
      ((Keyed.find_add hnew).trans (if_pos rfl))))

/-- What is made of a head and a version. -/
theorem makes_proposal {id : Id} {owner : DatasetOwner} {operation : Operation} {head : MemoryHead}
    {ref : MemoryVersionRef} {sources : List SourceRef} {extractor : Id} {reason : Reason} {f : MemoryProposal → Txn α}
    (h : ∀ proposal, proposal.baseHead = head → proposal.proposedVersion = ref → proposal.state = .pending →
      (f proposal).Leads s Q) :
    (makeProposal id owner operation head ref sources extractor reason >>= f).Leads s Q :=
  leads_bind (leads_makeProposal.mono fun proposal t hp => by
    rw [hp.1]
    exact h proposal hp.2.1 hp.2.2.1 hp.2.2.2.2.2.2)

/-- A pending proposal is decided, and not accepted. -/
theorem closes_proposal {proposal : MemoryProposal} {state : ProposalState} {f : MemoryProposal → Txn α}
    (h : Via start allow s) (hfind : s.proposals.find proposal.proposalId = some proposal)
    (hpending : proposal.state = .pending) (hstate : state ≠ .accepted)
    (hrest : ∀ t, Via start allow t → t.proposals = s.proposals.set (proposal.closed state) →
      (f (proposal.closed state)).Leads t Q) : (markProposalState proposal state >>= f).Leads s Q :=
  marks_proposal hfind (hrest _ (h.step (.close proposal state hfind hpending hstate)) rfl)

/-- A head that was found leaves publication, if it is still there. -/
theorem ends_head {head : MemoryHead} {state : HeadState} {f : Nat → Bool → Txn α} (h : Via start allow s)
    (hstart : start.heads.find (headKey head) = some head) (hmay : MayEnd allow head state)
    (hrest : ∀ cursor updated t, Via start allow t → t.proposals = s.proposals → (f cursor updated).Leads t Q) :
    (nextCursor >>= fun cursor => updateHead (head.ending state cursor) head.revision >>= f cursor).Leads s Q := by
  refine takes_cursor (updates_head (fun row hrow hrevision => ?_) (hrest _ _ _ (h.step .bump) rfl))
  have hsame := h.unmoved hstart hrow hrevision
  subst hsame
  exact hrest _ _ _ (h.step (.ended row state hrow hstart hmay)) rfl

/-- A head that was found publishes what a proposal of it says, if it is still there. The proposal is accepted
right after. -/
theorem publishes_head {proposal : MemoryProposal} {head : MemoryHead} {revision : Nat} {f : Nat → Bool → Txn α}
    (h : Via start allow s) (hstart : start.heads.find (headKey head) = some head)
    (hfind : s.proposals.find proposal.proposalId = some proposal) (hpending : proposal.state = .pending)
    (hkey : headKey proposal.baseHead = headKey head) (hbase : proposal.baseHead.revision = head.revision)
    (halive : head.state.isTombstoned = false) (hrevision : revision = head.revision)
    (hyes : ∀ cursor t, t.proposals.find proposal.proposalId = some proposal → t.proposals = s.proposals →
      Via start allow { t with proposals := t.proposals.set (proposal.closed .accepted) } → (f cursor true).Leads t Q)
    (hno : ∀ cursor, (f cursor false).Leads { s with publicationCursor := s.publicationCursor + 1 } Q) :
    (nextCursor >>= fun cursor =>
      updateHead (head.publishing proposal.proposedVersion cursor) revision >>= f cursor).Leads s Q := by
  refine takes_cursor (updates_head (fun row hrow hsame => ?_) (hno _))
  have hsame := h.unmoved hstart hrow (hsame.trans hrevision)
  subst hsame
  exact hyes _ _ hfind rfl (h.step (.publish row proposal hrow hstart hfind hpending
    (hkey.symm.trans (proposal_key proposal).symm) hbase halive))

end

end Operant.Memory
