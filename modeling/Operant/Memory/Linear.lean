import Operant.Memory.Corrections
import Operant.Memory.Transactions

/-! The publication of a record is a linear history: each revision of a head is left by at most one accepted
proposal, and a head publishes what the proposal said that was accepted last.

Acceptance and publication are one transaction, whichever call makes it. A copy is the only other way for a head
to publish: then no proposal of the record was ever accepted. -/
namespace Operant.Memory
open Operant.Calls Operant.Calls.Transaction Operant.Tables

/-- A proposal that was accepted when the head had a revision, and moved it to the next. -/
structure PublishedBy (proposal : MemoryProposal) (head : MemoryHead) : Prop where
  accepted : proposal.state = .accepted
  key : headKey proposal.baseHead = headKey head
  revision : proposal.baseHead.revision + 1 = head.revision
  version : head.publishedVersion = some proposal.proposedVersion

/-- A proposal is based on a revision that its head had, and on the head itself if it still has it. -/
def Based (ledger : Ledger) (proposal : MemoryProposal) : Prop :=
  ∃ head, ledger.heads.find (headKey proposal.baseHead) = some head ∧ proposal.baseHead.revision ≤ head.revision ∧
    (proposal.baseHead.revision = head.revision → proposal.baseHead = head) ∧
    (proposal.state = .accepted → proposal.baseHead.revision < head.revision)

/-- A linear history. -/
structure Linear (ledger : Ledger) : Prop where
  /-- Cursors of heads were given out. -/
  bounded : Bounded ledger
  based : ∀ proposal ∈ ledger.proposals.rows, Based ledger proposal
  /-- Of the proposals with one base at most one is accepted. -/
  once : ∀ p ∈ ledger.proposals.rows, ∀ q ∈ ledger.proposals.rows, p.state = .accepted → q.state = .accepted →
    headKey p.baseHead = headKey q.baseHead → p.baseHead.revision = q.baseHead.revision → p = q
  /-- A head publishes what was accepted last, or came with its version. -/
  backed : ∀ head ∈ ledger.heads.rows, head.state = .published →
    (∃ proposal ∈ ledger.proposals.rows, PublishedBy proposal head) ∨
    ∀ proposal ∈ ledger.proposals.rows, headKey proposal.baseHead = headKey head → proposal.state ≠ .accepted

/-! ### Moves -/

section
variable {start s t : Ledger} {allow : Allowance} {write : Option HeadWrite}

theorem mem_of_find {k : Id × Id} {head : MemoryHead} (h : s.heads.find k = some head) : head ∈ s.heads.rows :=
  (Keyed.find_some.mp h).1

/-- A head is one that was there, or the one that is written. -/
theorem move_head (h : Move start allow s write t) {head : MemoryHead} (hmem : head ∈ t.heads.rows) :
    head ∈ s.heads.rows ∨ ∃ w, write = some w ∧ head = w.head := by
  have hfind : t.heads.find (headKey head) = some head := Keyed.find_some.mpr ⟨hmem, rfl⟩
  by_cases hwrites : ∃ w, write = some w ∧ headKey w.head = headKey head
  · obtain ⟨w, rfl, hkey⟩ := hwrites
    have hwritten := move_written h
    rw [hkey, hfind] at hwritten
    exact .inr ⟨w, rfl, Option.some.inj hwritten⟩
  · rw [move_unwritten h fun w hw hk => hwrites ⟨w, hw, hk⟩] at hfind
    exact .inl (mem_of_find hfind)

theorem move_bounded (h : Move start allow s write t) (hs : Bounded s) : Bounded t := by
  intro head hmem
  obtain hold | ⟨w, rfl, rfl⟩ := move_head h hmem
  · exact (hs head hold).trans (move_cursor h)
  · cases h with
    | create head hnew hopen hstate hcursor => exact hcursor
    | copy head hnew hopen hcursor => exact hcursor.le
    | publish | ended => exact Nat.le_refl _

/-- A proposal is accepted, and the head that the transaction found publishes it. -/
structure Publishes (start s t : Ledger) (proposal : MemoryProposal) (head next : MemoryHead) : Prop where
  accepted : proposal.state = .accepted
  mem : proposal ∈ t.proposals.rows
  new : proposal ∉ s.proposals.rows
  first : start.heads.find (headKey proposal.baseHead) = some head
  there : s.heads.find (headKey proposal.baseHead) = some head
  base : proposal.baseHead.revision = head.revision
  alive : head.state.isTombstoned = false
  after : next = head.publishing proposal.proposedVersion (s.publicationCursor + 1)
  written : t.heads.find (headKey proposal.baseHead) = some next

theorem move_publishes {next : MemoryHead} {proposal : MemoryProposal}
    (h : Move start allow s (some (.updated next (some proposal))) t) : ∃ head, Publishes start s t proposal head next := by
  have hwritten := move_written h
  cases h with
  | publish head other hhead hfirst hproposal hstate hkey hbase halive =>
    have hsame : headKey head = headKey other.baseHead := hkey.trans (proposal_key other)
    refine ⟨head, rfl, Keyed.mem_set.mpr (.inl ⟨rfl, other, (Keyed.find_some.mp hproposal).1, rfl⟩), fun hold => ?_,
      hsame ▸ hfirst, hsame ▸ hhead, hbase, halive, rfl, hsame ▸ hwritten⟩
    -- it was pending until now
    have hfound := Keyed.find_some.mpr ⟨hold, (rfl : _ = other.proposalId)⟩
    rw [hproposal] at hfound
    rw [Option.some.inj hfound] at hstate
    cases hstate

/-- What is accepted was accepted before, or the move accepts it. -/
theorem move_accepts (h : Move start allow s write t) {proposal : MemoryProposal}
    (hmem : proposal ∈ t.proposals.rows) (haccepted : proposal.state = .accepted) :
    proposal ∈ s.proposals.rows ∨ ∃ next, write = some (.updated next (some proposal)) := by
  cases h with
  | propose other hnew hhead hstate =>
    obtain hold | rfl := (Keyed.mem_add hnew).mp hmem
    · exact .inl hold
    · rw [hstate] at haccepted
      cases haccepted
  | publish head other hhead hfirst hproposal hstate hkey hbase halive =>
    obtain ⟨rfl, -⟩ | ⟨hold, -⟩ := Keyed.mem_set.mp hmem
    · exact .inr ⟨_, rfl⟩
    · exact .inl hold
  | close other state hproposal hpending hstate =>
    obtain ⟨rfl, -⟩ | ⟨hold, -⟩ := Keyed.mem_set.mp hmem
    · exact absurd haccepted hstate
    · exact .inl hold
  | _ => exact .inl hmem

/-- What is accepted stays. -/
theorem move_accepted (h : Move start allow s write t) {proposal : MemoryProposal}
    (hmem : proposal ∈ s.proposals.rows) (haccepted : proposal.state = .accepted) : proposal ∈ t.proposals.rows := by
  have hother : ∀ other : MemoryProposal, s.proposals.find other.proposalId = some other → other.state = .pending →
      ∀ state, proposal ∈ (s.proposals.set (other.closed state)).rows := by
    intro other hfind hpending state
    refine Keyed.mem_set.mpr (.inr ⟨hmem, fun hid => ?_⟩)
    have hfound := Keyed.find_some.mpr ⟨hmem, hid⟩
    rw [show (other.closed state).proposalId = other.proposalId from rfl, hfind] at hfound
    rw [Option.some.inj hfound, haccepted] at hpending
    cases hpending
  cases h with
  | propose other hnew hhead hstate => exact (Keyed.mem_add hnew).mpr (.inl hmem)
  | publish head other hhead hfirst hproposal hstate => exact hother other hproposal hstate _
  | close other state hproposal hpending hstate => exact hother other hproposal hpending _
  | _ => exact hmem

/-- A head that is there stays, or goes one revision further. -/
theorem move_head_further (h : Move start allow s write t) {k : Id × Id} {head : MemoryHead}
    (hfind : s.heads.find k = some head) :
    t.heads.find k = some head ∨ ∃ next, t.heads.find k = some next ∧ next.revision = head.revision + 1 := by
  by_cases hwrites : ∃ w, write = some w ∧ headKey w.head = k
  · obtain ⟨w, rfl, rfl⟩ := hwrites
    exact .inr ⟨w.head, move_written h, (move_over h hfind).revision⟩
  · rw [move_unwritten h fun w hw hk => hwrites ⟨w, hw, hk⟩]
    exact .inl hfind

theorem move_based (h : Move start allow s write t) (hs : Linear s) {proposal : MemoryProposal}
    (hmem : proposal ∈ t.proposals.rows) : Based t proposal := by
  have hlater : ∀ p ∈ s.proposals.rows, Based t p := by
    intro p hp
    obtain ⟨head, hfind, hle, hsame, hlt⟩ := hs.based p hp
    obtain hfind | ⟨next, hfind, hrevision⟩ := move_head_further h hfind
    · exact ⟨head, hfind, hle, hsame, hlt⟩
    · exact ⟨next, hfind, by omega, by omega, fun haccepted => by have := hlt haccepted; omega⟩
  cases h with
  | propose other hnew hhead hstate =>
    obtain hold | rfl := (Keyed.mem_add hnew).mp hmem
    · exact hlater proposal hold
    · refine ⟨proposal.baseHead, proposal_key proposal ▸ hhead, Nat.le_refl _, fun _ => rfl, fun haccepted => ?_⟩
      rw [hstate] at haccepted
      cases haccepted
  | publish head other hhead hfirst hproposal hstate hkey hbase halive =>
    obtain ⟨rfl, -⟩ | ⟨hold, -⟩ := Keyed.mem_set.mp hmem
    · obtain ⟨now, hpublishes⟩ :=
        move_publishes (@Move.publish start allow s head other hhead hfirst hproposal hstate hkey hbase halive)
      have hrevision : (other.closed .accepted).baseHead.revision < head.revision + 1 := Nat.lt_succ_of_le hbase.le
      exact ⟨_, hpublishes.written, hrevision.le, fun h => absurd h hrevision.ne, fun _ => hrevision⟩
    · exact hlater proposal hold
  | close other state hproposal hpending hstate =>
    obtain ⟨rfl, -⟩ | ⟨hold, -⟩ := Keyed.mem_set.mp hmem
    · obtain ⟨head, hfind, hle, hsame, -⟩ := hlater other (Keyed.find_some.mp hproposal).1
      exact ⟨head, hfind, hle, hsame, fun haccepted => absurd haccepted hstate⟩
    · exact hlater proposal hold
  | _ => exact hlater proposal hmem

theorem move_once (h : Move start allow s write t) (hs : Linear s) {p q : MemoryProposal}
    (hp : p ∈ t.proposals.rows) (hq : q ∈ t.proposals.rows) (haccepted : p.state = .accepted)
    (haccepted' : q.state = .accepted) (hkey : headKey p.baseHead = headKey q.baseHead)
    (hrevision : p.baseHead.revision = q.baseHead.revision) : p = q := by
  -- what was accepted before is of an earlier revision
  have hlater : ∀ p ∈ s.proposals.rows, p.state = .accepted → ∀ q next, write = some (.updated next (some q)) →
      headKey p.baseHead = headKey q.baseHead → p.baseHead.revision < q.baseHead.revision := by
    rintro p hp haccepted q next rfl hkey
    obtain ⟨head, hpublishes⟩ := move_publishes h
    obtain ⟨now, hnow, -, -, hlt⟩ := hs.based p hp
    rw [hkey, hpublishes.there] at hnow
    rw [hpublishes.base, Option.some.inj hnow]
    exact hlt haccepted
  obtain hold | ⟨next, hwrite⟩ := move_accepts h hp haccepted
  · obtain hold' | ⟨next, hwrite⟩ := move_accepts h hq haccepted'
    · exact hs.once p hold q hold' haccepted haccepted' hkey hrevision
    · exact absurd hrevision (hlater p hold haccepted q next hwrite hkey).ne
  · obtain hold' | ⟨next', hwrite'⟩ := move_accepts h hq haccepted'
    · exact absurd hrevision (hlater q hold' haccepted' p next hwrite hkey.symm).ne'
    · cases hwrite.symm.trans hwrite'
      rfl

theorem move_backed (h : Move start allow s write t) (hs : Linear s) {head : MemoryHead}
    (hmem : head ∈ t.heads.rows) (hpublished : head.state = .published) :
    (∃ proposal ∈ t.proposals.rows, PublishedBy proposal head) ∨
      ∀ proposal ∈ t.proposals.rows, headKey proposal.baseHead = headKey head → proposal.state ≠ .accepted := by
  have hfind : t.heads.find (headKey head) = some head := Keyed.find_some.mpr ⟨hmem, rfl⟩
  obtain hold | ⟨w, rfl, rfl⟩ := move_head h hmem
  · obtain ⟨p, hp, hby⟩ | hnone := hs.backed head hold hpublished
    · exact .inl ⟨p, move_accepted h hp hby.accepted, hby⟩
    · refine .inr fun p hp hkey haccepted => ?_
      obtain hp | ⟨next, rfl⟩ := move_accepts h hp haccepted
      · exact hnone p hp hkey haccepted
      · -- then the head is not the one that was there
        obtain ⟨now, hpublishes⟩ := move_publishes h
        have hthere := hpublishes.there
        have hwritten := hpublishes.written
        rw [hkey] at hthere hwritten
        have hnow := Option.some.inj (hthere.symm.trans (Keyed.find_some.mpr ⟨hold, rfl⟩))
        have hsame := hpublishes.after.symm.trans (Option.some.inj (hwritten.symm.trans hfind))
        rw [hnow] at hsame
        exact absurd (congrArg MemoryHead.revision hsame) (Nat.succ_ne_self _)
  · cases h with
    | create other hnew hopen hstate hcursor => exact absurd hpublished hstate
    | copy other hnew hopen hcursor =>
      refine .inr fun p hp hkey haccepted => ?_
      obtain ⟨_, hthere, -⟩ := hs.based p hp
      cases hnew.symm.trans (hkey ▸ hthere)
    | publish other proposal hhead hfirst hproposal hstate hkey hbase halive =>
      refine .inl ⟨proposal.closed .accepted, Keyed.mem_set.mpr (.inl ⟨rfl, proposal, (Keyed.find_some.mp hproposal).1, rfl⟩),
        rfl, (hkey.trans (proposal_key proposal)).symm, congrArg (· + 1) hbase, rfl⟩
    | ended other state hhead hfirst hmay =>
      have hended := hmay.1
      rw [show state = .published from hpublished] at hended
      cases hended

theorem move_linear (h : Move start allow s write t) (hs : Linear s) : Linear t where
  bounded := move_bounded h hs.bounded
  based _ := move_based h hs
  once _ hp _ hq := move_once h hs hp hq
  backed _ := move_backed h hs

theorem Via.linear (h : Via s allow t) (hs : Linear s) : Linear t := by
  induction h with
  | refl => exact hs
  | tail _ hmove ih =>
    obtain ⟨write, hmove⟩ := hmove
    exact move_linear hmove ih

theorem purge_find {dataset : Id} (h : (purge dataset).run s = .ok (⟨⟩, t)) (k : Id × Id) :
    t.heads.find k = if k.1 = dataset then none else s.heads.find k := by
  rw [← (Prod.mk.inj (Except.ok.inj h)).2, Keyed.find_delete]
  cases hfind : s.heads.find k with
  | none => simp
  | some head =>
    have hkey : head.datasetId = k.1 := congrArg Prod.fst (Keyed.find_key hfind)
    simp [Option.filter_some, hkey]

theorem purge_linear {dataset : Id} (hs : Linear s) : (purge dataset).Leads s fun _ t => Linear t := by
  refine leads_get fun _ t hrun => ?_
  rw [← (Prod.mk.inj (Except.ok.inj hrun)).2]
  have hproposal : ∀ p ∈ (s.proposals.delete (·.owner.datasetId = dataset)).rows, p ∈ s.proposals.rows :=
    fun p hp => (Keyed.mem_delete.mp hp).1
  refine ⟨fun head hmem => hs.bounded head (Keyed.mem_delete.mp hmem).1, fun p hp => ?_,
    fun p hp q hq => hs.once p (hproposal p hp) q (hproposal q hq), fun head hmem hpublished => ?_⟩
  · obtain ⟨head, hfind, hrest⟩ := hs.based p (hproposal p hp)
    refine ⟨head, ?_, hrest⟩
    -- a proposal and its head are of one dataset
    have hother := (Keyed.mem_delete.mp hp).2
    have hdataset : head.datasetId = p.owner.datasetId :=
      (congrArg Prod.fst (Keyed.find_key hfind)).trans (p.target.2.1.trans p.target.1.symm)
    rw [Keyed.find_delete, hfind, Option.filter_some, hdataset, hother]
    rfl
  · obtain ⟨hhead, hother⟩ := Keyed.mem_delete.mp hmem
    obtain ⟨p, hp, hby⟩ | hnone := hs.backed head hhead hpublished
    · refine .inl ⟨p, Keyed.mem_delete.mpr ⟨hp, ?_⟩, hby⟩
      have hdataset : p.owner.datasetId = head.datasetId := by
        rw [p.target.1, ← p.target.2.1]
        exact congrArg Prod.fst hby.key
      rw [hdataset]
      exact hother
    · exact .inr fun p hp => hnone p (hproposal p hp)

end

/-! ### Runs -/

section
variable {sha256 : String → Digest} {s t : Ledger}

theorem linear_new : Linear {} :=
  ⟨List.forall_mem_nil _, List.forall_mem_nil _, List.forall_mem_nil _, List.forall_mem_nil _⟩

theorem step_linear (h : Sound s) (hs : Linear s) (hstep : Step sha256 s t) : Linear t := by
  obtain hvia | ⟨dataset, hrun⟩ := step_moves h hs.bounded hstep
  · exact hvia.linear hs
  · exact purge_linear hs _ t hrun

theorem reachable_linear (h : Reachable sha256 s) : Linear s := by
  induction h with
  | refl => exact linear_new
  | tail hreach hstep ih => exact step_linear (reachable_sound hreach) ih hstep

/-- **Of the proposals that have one base, at most one is ever accepted**, it has moved the head, and what a head
publishes is what the proposal said that moved it there. -/
theorem publication_linear (hreach : Reachable sha256 s) :
    (∀ p ∈ s.proposals.rows, ∀ q ∈ s.proposals.rows, p.state = .accepted → q.state = .accepted →
      headKey p.baseHead = headKey q.baseHead → p.baseHead.revision = q.baseHead.revision → p = q) ∧
    (∀ p ∈ s.proposals.rows, ∃ head, s.heads.find (headKey p.baseHead) = some head ∧
      if p.state = .accepted then p.baseHead.revision < head.revision
      else p.baseHead.revision < head.revision ∨ p.baseHead = head) ∧
    ∀ head ∈ s.heads.rows, head.state = .published →
      (∃ p ∈ s.proposals.rows, p.state = .accepted ∧ headKey p.baseHead = headKey head ∧
        p.baseHead.revision + 1 = head.revision ∧ head.publishedVersion = some p.proposedVersion) ∨
      ∀ p ∈ s.proposals.rows, headKey p.baseHead = headKey head → p.state ≠ .accepted := by
  have hs := reachable_linear hreach
  refine ⟨hs.once, fun p hp => ?_, fun head hmem hpublished => (hs.backed head hmem hpublished).imp_left ?_⟩
  · obtain ⟨head, hfind, hle, hsame, hlt⟩ := hs.based p hp
    refine ⟨head, hfind, ?_⟩
    split
    · next haccepted => exact hlt haccepted
    · exact hle.lt_or_eq.imp_right hsame
  · rintro ⟨p, hp, hby⟩
    exact ⟨p, hp, hby.accepted, hby.key, hby.revision, hby.version⟩

/-- After a version was proposed and confirmed. -/
theorem publication_linear_published :
    ∃ p ∈ publishedLedger.proposals.rows, p.state = .accepted ∧ headKey p.baseHead = headKey sampleHead ∧
      p.baseHead.revision + 1 = sampleHead.revision ∧ sampleHead.publishedVersion = some p.proposedVersion :=
  have hmem : sampleHead ∈ publishedLedger.heads.rows :=
    mem_of_find (k := headKey sampleHead) (by decide +kernel)
  ((publication_linear reachable_published).2.2 sampleHead hmem rfl).resolve_right (by decide +kernel)

end

end Operant.Memory
