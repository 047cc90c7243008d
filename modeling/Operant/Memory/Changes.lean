import Operant.Memory.Linear

/-! What one transaction does to one head, and what no run undoes.

A head that was there is left alone, published by a proposal that is accepted with it, or ended. One that was not
there is put as it came. So acceptance and publication are one event, a deleted record stays deleted, and a
revoked one is not published again unless it was made inactive; and a dataset that is deleted publishes nothing
any more, unless records are copied into it or extracted for it. -/
namespace Operant.Memory
open Operant.Calls Operant.Calls.Transaction Operant.Tables

section
variable {start s t : Ledger} {allow : Allowance} {write : Option HeadWrite}

/-- What became of a head that was there and is not what it was. -/
inductive Moved (start t : Ledger) (allow : Allowance) (head now : MemoryHead) : Prop
  | published (proposal : MemoryProposal) (hmem : proposal ∈ t.proposals.rows)
      (hnew : proposal ∉ start.proposals.rows) (hby : PublishedBy proposal now) (halive : head.state.isTombstoned = false)
      (heq : now = head.publishing proposal.proposedVersion now.publicationCursor)
  | ended (hmay : MayEnd allow head now.state) (heq : now = head.ending now.state now.publicationCursor)

/-- Tombstones stay. -/
theorem move_tombstones (h : Move start allow s write t) {k : Id × Option Id}
    (hfind : t.tombstones.find k = none) : s.tombstones.find k = none := by
  cases h with
  | tombstone row =>
    rw [Keyed.find_put] at hfind
    split at hfind
    · cases hfind
    · exact hfind
  | _ => exact hfind

theorem Via.tombstones (h : Via start allow s) {k : Id × Option Id} (hfind : s.tombstones.find k = none) :
    start.tombstones.find k = none := by
  induction h with
  | refl => exact hfind
  | tail _ hmove ih =>
    obtain ⟨write, hmove⟩ := hmove
    exact ih (move_tombstones hmove hfind)

theorem Via.accepted (h : Via start allow s) {proposal : MemoryProposal} (hmem : proposal ∈ start.proposals.rows)
    (haccepted : proposal.state = .accepted) : proposal ∈ s.proposals.rows := by
  induction h with
  | refl => exact hmem
  | tail _ hmove ih =>
    obtain ⟨write, hmove⟩ := hmove
    exact move_accepted hmove ih haccepted

/-- What a move makes of the head that is there. -/
theorem move_moves {w : HeadWrite} (h : Move start allow s (some w) t) (hvia : Via start allow s) {head : MemoryHead}
    (hthere : s.heads.find (headKey w.head) = some head) : Moved start t allow head w.head := by
  cases h with
  | create other hnew => cases hnew.symm.trans hthere
  | copy other hnew => cases hnew.symm.trans hthere
  | publish other proposal hhead hfirst hproposal hstate hkey hbase halive =>
    obtain ⟨now, hpublishes⟩ :=
      move_publishes (@Move.publish start allow s other proposal hhead hfirst hproposal hstate hkey hbase halive)
    cases hthere.symm.trans hhead
    exact .published _ hpublishes.mem (fun hold => hpublishes.new (hvia.accepted hold rfl))
      ⟨rfl, (hkey.trans (proposal_key proposal)).symm, congrArg (· + 1) hbase, rfl⟩ halive rfl
  | ended other state hhead hfirst hmay =>
    cases hthere.symm.trans hhead
    exact .ended hmay rfl

theorem Moved.later {head now : MemoryHead} (h : Moved start s allow head now) (hmove : Move start allow s write t) :
    Moved start t allow head now := by
  cases h with
  | published proposal hmem hnew hby halive heq =>
    exact .published proposal (move_accepted hmove hmem hby.accepted) hnew hby halive heq
  | ended hmay heq => exact .ended hmay heq

/-- A transaction leaves a head, or moves it once. -/
theorem Via.moved (h : Via start allow t) {k : Id × Id} {head : MemoryHead} (hstart : start.heads.find k = some head) :
    ∃ now, t.heads.find k = some now ∧
      (now = head ∨ (Moved start t allow head now ∧ start.publicationCursor < now.publicationCursor)) := by
  induction h with
  | refl => exact ⟨head, hstart, .inl rfl⟩
  | @tail s t hvia hmove ih =>
    obtain ⟨write, hmove⟩ := hmove
    obtain ⟨now, hnow, hchange⟩ := ih
    by_cases hwrites : ∃ w, write = some w ∧ headKey w.head = k
    · obtain ⟨w, rfl, rfl⟩ := hwrites
      have hover := move_over hmove hnow
      cases hover.first.symm.trans hstart
      exact ⟨w.head, move_written hmove, .inr ⟨move_moves hmove hvia hnow, (Via.cursor hvia).trans_lt hover.cursor⟩⟩
    · refine ⟨now, ?_, hchange.imp_right fun hmoved => ⟨hmoved.1.later hmove, hmoved.2⟩⟩
      rw [move_unwritten hmove fun w hw hk => hwrites ⟨w, hw, hk⟩]
      exact hnow

/-- Nothing is accepted of a record that had no head. -/
theorem Via.unaccepted (h : Via start allow t) (hs : Linear start) {k : Id × Id} (hstart : start.heads.find k = none) :
    ∀ proposal ∈ t.proposals.rows, headKey proposal.baseHead = k → proposal.state ≠ .accepted := by
  induction h with
  | refl =>
    intro p hp hkey
    obtain ⟨head, hfind, -⟩ := hs.based p hp
    rw [hkey, hstart] at hfind
    cases hfind
  | tail _ hmove ih =>
    obtain ⟨write, hmove⟩ := hmove
    intro p hp hkey haccepted
    obtain hold | ⟨next, rfl⟩ := move_accepts hmove hp haccepted
    · exact ih p hold hkey haccepted
    · obtain ⟨head, hpublishes⟩ := move_publishes hmove
      cases hstart.symm.trans (hkey ▸ hpublishes.first)

/-- A record gets its head once. -/
theorem Via.created (h : Via start allow t) {k : Id × Id} (hstart : start.heads.find k = none)
    {now : MemoryHead} (hnow : t.heads.find k = some now) :
    MayOpen allow start k.1 ∧ (now.state = .published → start.publicationCursor < now.publicationCursor) := by
  induction h with
  | refl => cases hstart.symm.trans hnow
  | @tail s t hvia hmove ih =>
    obtain ⟨write, hmove⟩ := hmove
    by_cases hwrites : ∃ w, write = some w ∧ headKey w.head = k
    · obtain ⟨w, rfl, rfl⟩ := hwrites
      cases (move_written hmove).symm.trans hnow
      refine ⟨?_, fun hpublished => (Via.cursor hvia).trans_lt (move_published hmove hpublished)⟩
      cases hmove with
      | create other hnew hopen => exact hopen.imp_left (Via.tombstones hvia)
      | copy other hnew hopen => exact hopen.imp_left (Via.tombstones hvia)
      | publish other proposal hhead hfirst => cases hfirst.symm.trans hstart
      | ended other state hhead hfirst => cases hfirst.symm.trans hstart
    · rw [move_unwritten hmove fun w hw hk => hwrites ⟨w, hw, hk⟩] at hnow
      exact ih hnow

/-- What a transaction accepts has moved the head that the transaction found. -/
theorem Via.accepts (h : Via start allow t) {proposal : MemoryProposal} (hmem : proposal ∈ t.proposals.rows)
    (haccepted : proposal.state = .accepted) (hnew : proposal ∉ start.proposals.rows) :
    ∃ head cursor, start.heads.find (headKey proposal.baseHead) = some head ∧
      proposal.baseHead.revision = head.revision ∧ start.publicationCursor < cursor ∧
      t.heads.find (headKey proposal.baseHead) = some (head.publishing proposal.proposedVersion cursor) := by
  induction h with
  | refl => exact absurd hmem hnew
  | @tail s t hvia hmove ih =>
    obtain ⟨write, hmove⟩ := hmove
    obtain hold | ⟨next, rfl⟩ := move_accepts hmove hmem haccepted
    · obtain ⟨head, cursor, hstart, hbase, hcursor, hthere⟩ := ih hold
      refine ⟨head, cursor, hstart, hbase, hcursor, (move_unwritten hmove fun w hw hkey => ?_).trans hthere⟩
      -- the head has moved, so that it is not written again
      subst hw
      have hsame := (hkey ▸ (move_over hmove (hkey ▸ hthere)).first).symm.trans hstart
      exact absurd (congrArg MemoryHead.revision (Option.some.inj hsame)) (Nat.succ_ne_self _)
    · obtain ⟨head, hpublishes⟩ := move_publishes hmove
      exact ⟨head, s.publicationCursor + 1, hpublishes.first, hpublishes.base, Nat.lt_succ_of_le (Via.cursor hvia),
        hpublishes.after ▸ hpublishes.written⟩

end

/-! ### Steps -/

section
variable {sha256 : String → Digest} {s t : Ledger}

/-- **A proposal is accepted in the transaction that moves the head from the revision it is based on to its
version**, and there is no other way to publish but to copy a head. -/
theorem acceptance_publishes (hreach : Reachable sha256 s) (hstep : Step sha256 s t) :
    (∀ p ∈ t.proposals.rows, p.state = .accepted → p ∉ s.proposals.rows →
      ∃ head cursor, s.heads.find (headKey p.baseHead) = some head ∧ p.baseHead.revision = head.revision ∧
        s.publicationCursor < cursor ∧
        t.heads.find (headKey p.baseHead) = some (head.publishing p.proposedVersion cursor)) ∧
    ∀ k now, t.heads.find k = some now → now.state = .published → s.heads.find k ≠ some now →
      s.publicationCursor < now.publicationCursor ∧
      ((∃ p ∈ t.proposals.rows, p ∉ s.proposals.rows ∧ p.state = .accepted ∧ headKey p.baseHead = k ∧
          p.baseHead.revision + 1 = now.revision ∧ now.publishedVersion = some p.proposedVersion) ∨
        (s.heads.find k = none ∧ ∀ p ∈ t.proposals.rows, headKey p.baseHead = k → p.state ≠ .accepted)) := by
  have hlinear := reachable_linear hreach
  obtain hvia | ⟨dataset, hrun⟩ := step_moves (reachable_sound hreach) hlinear.bounded hstep
  · refine ⟨fun p hp haccepted hnew => hvia.accepts hp haccepted hnew, fun k now hnow hpublished hchanged => ?_⟩
    cases hstart : s.heads.find k with
    | none =>
      exact ⟨(hvia.created hstart hnow).2 hpublished, .inr ⟨rfl, hvia.unaccepted hlinear hstart⟩⟩
    | some head =>
      obtain ⟨other, hother, hmoved⟩ := hvia.moved hstart
      rw [hnow] at hother
      cases hother
      obtain rfl | ⟨hmoved, hcursor⟩ := hmoved
      · exact absurd hstart hchanged
      · refine ⟨hcursor, .inl ?_⟩
        cases hmoved with
        | published p hmem hnew hby halive heq =>
          exact ⟨p, hmem, hnew, hby.accepted, hby.key.trans (Keyed.find_key hnow), hby.revision, hby.version⟩
        | ended hmay heq =>
          have hended := hmay.1
          rw [hpublished] at hended
          cases hended
  · rw [← (Prod.mk.inj (Except.ok.inj hrun)).2]
    refine ⟨fun p hp _ hnew => absurd (Keyed.mem_delete.mp hp).1 hnew, fun k now hnow _ hchanged => ?_⟩
    rw [Keyed.find_delete] at hnow
    exact absurd (Option.filter_eq_some_iff.mp hnow).1 hchanged

theorem acceptance_publishes_confirmed :
    proposedLedger.publicationCursor < sampleHead.publicationCursor ∧
      ∃ p ∈ publishedLedger.proposals.rows, p ∉ proposedLedger.proposals.rows ∧ p.state = .accepted ∧
        headKey p.baseHead = headKey sampleHead ∧ p.baseHead.revision + 1 = sampleHead.revision ∧
        sampleHead.publishedVersion = some p.proposedVersion := by
  obtain ⟨_, hpropose⟩ := ok_ledgerAfter ((propose sampleDigest
    { version := some (sampleVersion 1 "Use tabs."), proposalId := ⟨"first", by decide⟩ }).run .empty) (by decide +kernel)
  obtain ⟨_, hconfirm⟩ := ok_ledgerAfter ((confirmProposal ⟨"first", by decide⟩ none none none).run proposedLedger)
    (by decide +kernel)
  have hbefore : proposedLedger.heads.find (headKey sampleHead) ≠ none := by decide +kernel
  refine ((acceptance_publishes (.tail .refl (.propose _ hpropose)) (.confirm _ _ _ _ hconfirm)).2 (headKey sampleHead)
    sampleHead (by decide +kernel) rfl (by decide +kernel)).imp_right fun hby => hby.resolve_right fun hcopied => ?_
  exact hbefore hcopied.1

/-! ### What no run undoes -/

/-- A step that neither makes a revoked record inactive nor purges its dataset. -/
def Undisturbed (sha256 : String → Digest) (k : Id × Id) (s t : Ledger) : Prop :=
  Step sha256 s t ∧ ¬Weakens s t k ∧ (purge k.1).run s ≠ .ok (⟨⟩, t)

/-- A head that is deleted or revoked, and stays deleted. -/
def Tombstoned (head now : MemoryHead) : Prop :=
  now.state.isTombstoned = true ∧ (head.state = .deleted → now.state = .deleted) ∧ head.revision ≤ now.revision

theorem undisturbed_tombstoned (hreach : Reachable sha256 s) {k : Id × Id} {head : MemoryHead}
    (hhead : s.heads.find k = some head) (hstate : head.state.isTombstoned = true)
    (hstep : Undisturbed sha256 k s t) : ∃ now, t.heads.find k = some now ∧ Tombstoned head now := by
  obtain ⟨hstep, hweaken, hpurge⟩ := hstep
  have hsame : Tombstoned head head := ⟨hstate, id, Nat.le_refl _⟩
  obtain hvia | ⟨dataset, hrun⟩ := step_moves (reachable_sound hreach) (reachable_linear hreach).bounded hstep
  · obtain ⟨now, hnow, rfl | ⟨hmoved, -⟩⟩ := hvia.moved hhead
    · exact ⟨now, hnow, hsame⟩
    · refine ⟨now, hnow, ?_⟩
      cases hmoved with
      | published p hmem hnew hby halive heq =>
        rw [hstate] at halive
        cases halive
      | ended hmay heq =>
        obtain ⟨hended, hdeleted, hrevoked⟩ := hmay
        refine ⟨?_, hdeleted, heq ▸ Nat.le_succ _⟩
        cases hcase : head.state with
        | deleted => rw [hdeleted hcase]; rfl
        | revoked =>
          cases hnext : now.state with
          | inactive =>
            have hallowed := hrevoked hcase hnext
            rw [Keyed.find_key hhead] at hallowed
            exact absurd hallowed hweaken
          | unpublished => rw [hnext] at hended; cases hended
          | published => rw [hnext] at hended; cases hended
          | revoked => rfl
          | deleted => rfl
        | _ => rw [hcase] at hstate; cases hstate
  · have hother : dataset ≠ k.1 := fun h => hpurge (h ▸ hrun)
    exact ⟨head, (purge_find hrun k).trans ((if_neg hother.symm).trans hhead), hsame⟩

/-- **A deleted record stays deleted, and a revoked one stays revoked or is deleted**, through every run in which
its dataset is not purged and nobody makes the record inactive. -/
theorem tombstoned_final (hreach : Reachable sha256 s) {k : Id × Id} {head : MemoryHead}
    (hhead : s.heads.find k = some head) (hstate : head.state.isTombstoned = true)
    (hrun : Relation.ReflTransGen (Undisturbed sha256 k) s t) :
    ∃ now, t.heads.find k = some now ∧ now.state.isTombstoned = true ∧
      (head.state = .deleted → now.state = .deleted) ∧ head.revision ≤ now.revision := by
  have hall : Reachable sha256 t ∧ ∃ now, t.heads.find k = some now ∧ Tombstoned head now := by
    induction hrun with
    | refl => exact ⟨hreach, head, hhead, hstate, id, Nat.le_refl _⟩
    | tail _ hstep ih =>
      obtain ⟨hreach, now, hnow, htombstoned, hdeleted, hle⟩ := ih
      obtain ⟨next, hnext, htombstoned, hdeleted', hle'⟩ := undisturbed_tombstoned hreach hnow htombstoned hstep
      exact ⟨hreach.tail hstep.1, next, hnext, htombstoned, fun h => hdeleted' (hdeleted h), hle.trans hle'⟩
  exact hall.2

theorem weakens_inactive {k : Id × Id} (h : Weakens s t k) :
    ∃ now, t.heads.find k = some now ∧ now.state = .inactive := by
  obtain ⟨expected, epoch, head, hrun⟩ := h
  have hleads : (deactivate k.1 k.2 expected epoch false).Leads s
      fun _ t => ∃ now, t.heads.find k = some now ∧ now.state = .inactive := by
    refine reads_head (takes_found fun head hfind => ?_)
    refine leads_ite (fun hstate => leads_pure ⟨head, hfind, hstate⟩) fun _ => leads_raiseIf fun _ =>
      leads_raiseIf fun _ => leads_raiseIf fun _ => takes_cursor (updates_head (fun row hrow _ =>
        leads_raiseIf fun _ => leads_pure ?_) (leads_raiseIf fun h => absurd rfl h))
    rw [← show headKey head = k from Keyed.find_key hfind]
    exact ⟨_, (Keyed.find_set.trans (if_pos rfl)).trans (congrArg (Option.map _) hrow), rfl⟩
  exact hleads _ _ hrun

/-- The published record is revoked. -/
def revokedLedger : Ledger :=
  ledgerAfter ((deactivate sampleHead.datasetId sampleHead.recordId none none true).run publishedLedger)

/-- Then it is deleted. -/
def deletedLedger : Ledger :=
  ledgerAfter ((deleteRecord sampleHead.datasetId sampleHead.recordId none none).run revokedLedger)

theorem tombstoned_final_deleted :
    ∃ now, deletedLedger.heads.find (⟨"dataset", by decide⟩, ⟨"record", by decide⟩) = some now ∧
      now.state.isTombstoned = true ∧ ((sampleHead.ending .revoked 2).state = .deleted → now.state = .deleted) ∧
      (sampleHead.ending .revoked 2).revision ≤ now.revision := by
  obtain ⟨_, hrevoke⟩ := ok_ledgerAfter
    ((deactivate sampleHead.datasetId sampleHead.recordId none none true).run publishedLedger) (by decide +kernel)
  obtain ⟨_, hdelete⟩ := ok_ledgerAfter
    ((deleteRecord sampleHead.datasetId sampleHead.recordId none none).run revokedLedger) (by decide +kernel)
  refine tombstoned_final (.tail reachable_published (.deactivate _ _ _ _ _ hrevoke)) (by decide +kernel) rfl
    (.tail .refl ⟨.delete _ _ _ _ hdelete, fun hweaken => ?_, fun hpurge => ?_⟩)
  · obtain ⟨now, hnow, hstate⟩ := weakens_inactive hweaken
    have hdeleted : deletedLedger.heads.find (⟨"dataset", by decide⟩, ⟨"record", by decide⟩) =
        some ((sampleHead.ending .revoked 2).ending .deleted 3) := by decide +kernel
    rw [← Option.some.inj (hdeleted.symm.trans hnow)] at hstate
    cases hstate
  · have hgone := congrArg (fun outcome => (ledgerAfter outcome).heads.rows) hpurge
    exact absurd hgone (by decide +kernel)

end

end Operant.Memory
