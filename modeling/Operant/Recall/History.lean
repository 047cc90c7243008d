import Operant.Recall.Publications

/-! What the table of publications holds.

The triggers never fail. Each record has the row of its head as the last one, and a transaction puts at most one
row for it, with a cursor above all before unless the record is new. -/
namespace Operant.Recall
open Operant.Calls Operant.Calls.Transaction Operant.Tables Operant.Memory

/-- The rows of a record. -/
def Database.history (db : Database) (record : Id × Id) : Set Publication := {row | row ∈ db.ofRecord record}

theorem mem_history {db : Database} {record : Id × Id} {row : Publication} :
    row ∈ db.history record ↔ row ∈ db.publications.rows ∧ row.record = record := by
  rw [Database.history, Set.mem_ofPred_eq, Database.ofRecord, List.mem_filter, decide_eq_true_eq]

/-- All that was published up to a cutoff was ended. -/
abbrev Database.IsOver (db : Database) (record : Id × Id) (cutoff : Nat) : Prop :=
  Over Publication.cursor (·.state = .published) (·.state.isEnded = true) (db.history record) cutoff

/-- What is read of a record at a cutoff. -/
abbrev Database.Reads (db : Database) (record : Id × Id) (cutoff : Nat) : Publication → Prop :=
  Frozen Publication.cursor (·.state = .published) (·.state.isEnded = true) (db.history record) cutoff

/-- Nothing was ended since a database. -/
abbrev Database.GoesOn (db later : Database) (record : Id × Id) : Prop :=
  Ongoing Publication.cursor (·.state.isEnded = true) (db.history record) (later.history record) db.cutoff

/-- Heads have rows, and rows heads: a row is of the head, or before it. -/
structure Coherent (db : Database) : Prop where
  bounded : Bounded db.ledger
  headed : ∀ row ∈ db.publications.rows, ∃ head, db.ledger.heads.find row.record = some head ∧
    (row = .of head ∨ (row.cursor < head.publicationCursor ∧ head.state ≠ .unpublished))
  rowed : ∀ head ∈ db.ledger.heads.rows, .of head ∈ db.publications.rows

theorem Coherent.past {db : Database} (h : Coherent db) {row : Publication} (hrow : row ∈ db.publications.rows) :
    row.cursor ≤ db.cutoff := by
  obtain ⟨head, hhead, rfl | ⟨hlt, -⟩⟩ := h.headed row hrow
  · exact h.bounded head (mem_of_find hhead)
  · exact hlt.le.trans (h.bounded head (mem_of_find hhead))

/-- The row of a head is the last of its record. -/
theorem Coherent.last {db : Database} (h : Coherent db) {record : Id × Id} {head : MemoryHead}
    (hhead : db.ledger.heads.find record = some head) : .of head ∈ db.history record ∧ ∀ row ∈ db.history record,
      row = .of head ∨ (row.cursor < head.publicationCursor ∧ head.state ≠ .unpublished) := by
  refine ⟨mem_history.mpr ⟨h.rowed head (mem_of_find hhead), show headKey head = record from Keyed.find_key hhead⟩,
    fun row hrow => ?_⟩
  obtain ⟨hmem, hrecord⟩ := mem_history.mp hrow
  obtain ⟨other, hother, hlast⟩ := h.headed row hmem
  cases hhead.symm.trans (hrecord ▸ hother)
  exact hlast

theorem publishes_iff {db : Database} {record : Id × Id} : db.publishes record = true ↔
    ∃ head, db.ledger.heads.find record = some head ∧ head.state = .published := by
  simp [Database.publishes, Option.any_eq_true]

/-! ### Moves -/

section
variable {start s t : Ledger} {allow : Allowance} {write : Option HeadWrite} {w : HeadWrite} {a b : Database}

/-- The rows of a record are before what is written of it. -/
theorem write_over (ha : Coherent a) (h : Move start allow a.ledger (some w) t) {row : Publication}
    (hrow : row ∈ a.publications.rows) (hrecord : row.record = headKey w.head) :
    row.cursor < w.head.publicationCursor ∧ w.head.state ≠ .unpublished := by
  obtain ⟨head, hhead, -⟩ := ha.headed row hrow
  have hover := move_over h (hrecord ▸ hhead)
  refine ⟨(ha.past hrow).trans_lt hover.cursor, fun h => ?_⟩
  simpa [h, HeadState.isEnded] using hover.state

/-- The trigger does not fail, and puts the row of the head that is written. -/
theorem fire_rows (ha : Coherent a) (h : Move start allow a.ledger write t) :
    ∃ rows, fire a.publications write = some rows ∧ ∀ row, row ∈ rows.rows ↔
      row ∈ a.publications.rows ∨ ∃ w, write = some w ∧ row = .of w.head := by
  cases write with
  | none => exact ⟨_, rfl, fun row => by simp⟩
  | some w =>
    have hfree : a.publications.find ((Publication.of w.head).record, (Publication.of w.head).cursor) = none :=
      Keyed.find_none.mpr fun row hrow hkey =>
        (write_over ha h hrow (Prod.mk.inj hkey).1).1.ne (Prod.mk.inj hkey).2
    have hinsert := Keyed.insert_some.mpr ⟨hfree, rfl⟩
    refine ⟨a.publications.add (.of w.head) hfree, ?_, fun row => by simp [Keyed.mem_add hfree]⟩
    cases w with
    | inserted head => exact hinsert
    | updated head accepted => exact congrArg (fun rows => some (Option.getD rows _)) hinsert

theorem moves_coherent (ha : Coherent a) (h : Moves start allow a b) : Coherent b := by
  obtain ⟨write, hmove, hfire⟩ := h
  obtain ⟨rows, hrows, hmem⟩ := fire_rows ha hmove
  cases hfire.symm.trans hrows
  refine ⟨move_bounded hmove ha.bounded, fun row hrow => ?_, fun head hhead => (hmem _).mpr ?_⟩
  · obtain hold | ⟨w, rfl, rfl⟩ := (hmem row).mp hrow
    · by_cases hwrites : ∃ w, write = some w ∧ headKey w.head = row.record
      · obtain ⟨w, rfl, hkey⟩ := hwrites
        exact ⟨w.head, hkey ▸ move_written hmove, .inr (write_over ha hmove hold hkey.symm)⟩
      · rw [move_unwritten hmove fun w hw hk => hwrites ⟨w, hw, hk⟩]
        exact ha.headed row hold
    · exact ⟨w.head, move_written hmove, .inl rfl⟩
  · obtain hold | ⟨w, hw, rfl⟩ := move_head hmove hhead
    · exact .inl (ha.rowed head hold)
    · exact .inr ⟨w, hw, rfl⟩

/-- What a transaction does to a record: nothing, or a head and its row are put. -/
inductive Change (a b : Database) (record : Id × Id) : Prop
  | kept (hhead : b.ledger.heads.find record = a.ledger.heads.find record) (hrows : b.history record = a.history record)
  | put (head : MemoryHead) (hhead : b.ledger.heads.find record = some head)
      (hrows : b.history record = insert (.of head) (a.history record)) (hnew : a.ledger.heads.find record ≠ some head)
      (hcursor : head.state = .published → a.cutoff < head.publicationCursor)

theorem chain_change (ha : Coherent a) (h : Relation.ReflTransGen (Moves a.ledger allow) a b) :
    Coherent b ∧ a.cutoff ≤ b.cutoff ∧ ∀ record, Change a b record := by
  induction h with
  | refl => exact ⟨ha, Nat.le_refl _, fun _ => .kept rfl rfl⟩
  | @tail c b _ hmoves ih =>
    obtain ⟨hc, hle, hchange⟩ := ih
    refine ⟨moves_coherent hc hmoves, ?_⟩
    obtain ⟨write, hmove, hfire⟩ := hmoves
    obtain ⟨rows, hrows, hmem⟩ := fire_rows hc hmove
    cases hfire.symm.trans hrows
    refine ⟨hle.trans (move_cursor hmove), fun record => ?_⟩
    have hhistory : ∀ row, row ∈ b.history record ↔ row ∈ c.history record ∨
        ∃ w, write = some w ∧ headKey w.head = record ∧ row = .of w.head := by
      intro row
      rw [mem_history, mem_history, hmem, or_and_right]
      refine or_congr_right ⟨?_, ?_⟩
      · rintro ⟨⟨w, hw, rfl⟩, hrecord⟩
        exact ⟨w, hw, hrecord, rfl⟩
      · rintro ⟨w, hw, hrecord, rfl⟩
        exact ⟨⟨w, hw, rfl⟩, hrecord⟩
    by_cases hwrites : ∃ w, write = some w ∧ headKey w.head = record
    · obtain ⟨w, rfl, rfl⟩ := hwrites
      cases hchange (headKey w.head) with
      | kept hhead hkept =>
        refine .put w.head (move_written hmove) (Set.ext fun row => ?_) (fun hsame => ?_) fun hpublished =>
          hle.trans_lt (move_published hmove hpublished)
        · rw [hhistory, hkept, Set.mem_insert_iff, or_comm]
          simp
        · exact absurd (move_over hmove (hhead.trans hsame)).revision (Nat.succ_ne_self _).symm
      | put head hhead _ hnew => exact absurd (move_over hmove hhead).first hnew
    · have hunwritten := move_unwritten hmove fun w hw hk => hwrites ⟨w, hw, hk⟩
      have hsame : b.history record = c.history record := by
        refine Set.ext fun row => (hhistory row).trans (or_iff_left ?_)
        rintro ⟨w, hw, hkey, -⟩
        exact hwrites ⟨w, hw, hkey⟩
      cases hchange record with
      | kept hhead hkept => exact .kept (hunwritten.trans hhead) (hsame.trans hkept)
      | put head hhead hput hnew hcursor => exact .put head (hunwritten.trans hhead) (hsame.trans hput) hnew hcursor

/-- A chain of moves is one of the database, too. -/
theorem via_moves (ha : Coherent a) (h : Via a.ledger allow t) :
    ∃ b : Database, b.ledger = t ∧ Relation.ReflTransGen (Moves a.ledger allow) a b := by
  induction h with
  | refl => exact ⟨a, rfl, .refl⟩
  | tail _ hmove ih =>
    obtain ⟨c, rfl, hchain⟩ := ih
    obtain ⟨write, hmove⟩ := hmove
    obtain ⟨rows, hrows, -⟩ := fire_rows (chain_change ha hchain).1 hmove
    exact ⟨⟨_, rows⟩, rfl, hchain.tail ⟨write, hmove, hrows⟩⟩

end

/-! ### Runs -/

section
variable {sha256 : String → Digest} {a b db : Database}

theorem purge_change {dataset : Id} (ha : Coherent a) (h : Purges dataset a b) :
    Coherent b ∧ ∀ record, b.ledger.heads.find record = none ∨ Change a b record := by
  obtain ⟨hrun, hrows⟩ := h
  have hmem : ∀ row, row ∈ b.publications.rows ↔ row ∈ a.publications.rows ∧ row.record.1 ≠ dataset := by
    intro row
    rw [hrows, Keyed.mem_delete, decide_eq_false_iff_not]
    rfl
  have hhead : ∀ head ∈ b.ledger.heads.rows, head ∈ a.ledger.heads.rows ∧ head.datasetId ≠ dataset := by
    rw [← (Prod.mk.inj (Except.ok.inj hrun)).2]
    exact fun head hhead => (Keyed.mem_delete.mp hhead).imp_right of_decide_eq_false
  refine ⟨⟨fun head h => ?_, fun row hrow => ?_, fun head h => (hmem _).mpr ?_⟩, fun record => ?_⟩
  · exact (Prod.mk.inj (Except.ok.inj hrun)).2 ▸ ha.bounded head (hhead head h).1
  · obtain ⟨hold, hother⟩ := (hmem row).mp hrow
    obtain ⟨head, hhead, hrest⟩ := ha.headed row hold
    exact ⟨head, (purge_find hrun _).trans ((if_neg hother).trans hhead), hrest⟩
  · exact (hhead head h).imp_left (ha.rowed head)
  · by_cases hdataset : record.1 = dataset
    · exact .inl ((purge_find hrun _).trans (if_pos hdataset))
    · refine .inr (.kept ((purge_find hrun _).trans (if_neg hdataset)) (Set.ext fun row => ?_))
      rw [mem_history, mem_history, hmem, and_assoc]
      exact and_congr_right fun _ => and_iff_right_of_imp fun hrecord => hrecord ▸ hdataset

/-- What happens changes records, or purges them. -/
theorem happens_change (ha : Coherent a) (h : Happens sha256 a b) : Coherent b ∧ a.cutoff ≤ b.cutoff ∧
    ∀ record, b.ledger.heads.find record = none ∨ Change a b record := by
  obtain ⟨-, hchain⟩ | ⟨dataset, hpurge⟩ := h
  · obtain ⟨hb, hle, hchange⟩ := chain_change ha hchain
    exact ⟨hb, hle, fun record => .inr (hchange record)⟩
  · obtain ⟨hb, hchange⟩ := purge_change ha hpurge
    exact ⟨hb, (congrArg Ledger.publicationCursor (Prod.mk.inj (Except.ok.inj hpurge.1)).2).le, hchange⟩

theorem opened_coherent (h : Opened sha256 db) : Coherent db := by
  obtain ⟨ledger, hreach, hrun⟩ := h
  induction hrun with
  | refl =>
    refine ⟨(reachable_linear hreach).bounded, fun row hrow => ?_, fun head hhead => List.mem_map_of_mem hhead⟩
    obtain ⟨head, hhead, rfl⟩ := List.mem_map.mp hrow
    exact ⟨head, Keyed.find_some.mpr ⟨hhead, rfl⟩, .inl rfl⟩
  | tail _ hstep ih => exact (happens_change ih hstep).1

theorem opened_reachable (h : Opened sha256 db) : Reachable sha256 db.ledger := by
  obtain ⟨ledger, hreach, hrun⟩ := h
  induction hrun with
  | refl => exact hreach
  | tail _ hstep ih =>
    obtain ⟨hstep, -⟩ | ⟨dataset, hrun, -⟩ := hstep
    · exact ih.tail hstep
    · exact ih.tail (.purge dataset hrun)

/-- **The triggers never fail**: whatever the ledger can do happens to its database. -/
theorem step_happens (hopened : Opened sha256 db) {t : Ledger} (hstep : Step sha256 db.ledger t) :
    ∃ later, later.ledger = t ∧ Happens sha256 db later := by
  have hreach := opened_reachable hopened
  obtain hvia | ⟨dataset, hrun⟩ := step_moves (reachable_sound hreach) (reachable_linear hreach).bounded hstep
  · obtain ⟨later, rfl, hmoves⟩ := via_moves (opened_coherent hopened) hvia
    exact ⟨later, rfl, .inl ⟨hstep, hmoves⟩⟩
  · exact ⟨⟨t, _⟩, rfl, .inr ⟨dataset, hrun, rfl⟩⟩

/-- Something happens after which a record is published. -/
def Stays (sha256 : String → Digest) (record : Id × Id) (a b : Database) : Prop :=
  Happens sha256 a b ∧ b.publishes record = true

variable {record : Id × Id}

/-- A record is published all along, or not at some time. -/
theorem stays_or_leaves (hrun : Relation.ReflTransGen (Happens sha256) a b) :
    (a.publishes record = true ∧ Relation.ReflTransGen (Stays sha256 record) a b) ∨ ∃ mid,
      Relation.ReflTransGen (Happens sha256) a mid ∧ ¬mid.publishes record = true ∧
        Relation.ReflTransGen (Happens sha256) mid b := by
  induction hrun with
  | refl =>
    by_cases hpublishes : a.publishes record = true
    · exact .inl ⟨hpublishes, .refl⟩
    · exact .inr ⟨a, .refl, hpublishes, .refl⟩
  | @tail c b hrun hstep ih =>
    obtain ⟨hstart, hstays⟩ | ⟨mid, hbefore, hleft, hafter⟩ := ih
    · by_cases hpublishes : b.publishes record = true
      · exact .inl ⟨hstart, hstays.tail ⟨hstep, hpublishes⟩⟩
      · exact .inr ⟨b, hrun.tail hstep, hpublishes, .refl⟩
    · exact .inr ⟨mid, hbefore, hleft, hafter.tail hstep⟩

/-- What every change keeps, a run keeps. -/
theorem run_keeps {P : Database → Prop} {R : Database → Database → Prop} (record : Id × Id) (ha : Coherent a)
    (hstart : P a) (hR : ∀ a b, R a b → Happens sha256 a b)
    (hkeep : ∀ c b, a.cutoff ≤ c.cutoff → Coherent b → R c b → P c →
      b.ledger.heads.find record = none ∨ Change c b record → P b)
    (hrun : Relation.ReflTransGen R a b) : Coherent b ∧ a.cutoff ≤ b.cutoff ∧ P b := by
  induction hrun with
  | refl => exact ⟨ha, Nat.le_refl _, hstart⟩
  | tail _ hstep ih =>
    obtain ⟨hc, hle, hkept⟩ := ih
    obtain ⟨hb, hle', hchange⟩ := happens_change hc (hR _ _ hstep)
    exact ⟨hb, hle.trans hle', hkeep _ _ hle hb hstep hkept (hchange record)⟩

/-- As long as a record is published, nothing of it is ended. -/
theorem stays_ongoing (ha : Coherent a) (hpublishes : a.publishes record = true)
    (hrun : Relation.ReflTransGen (Stays sha256 record) a b) : b.publishes record = true ∧ a.GoesOn b record := by
  refine (run_keeps record (P := fun db => db.publishes record = true ∧ a.GoesOn db record) ha ⟨hpublishes, .refl⟩
    (fun _ _ h => h.1) (fun c b hle _ hstep hkept hchange => ⟨hstep.2, ?_⟩) hrun).2.2
  obtain ⟨published, hfind, hstate⟩ := publishes_iff.mp hstep.2
  obtain hnone | hchange := hchange
  · cases hnone.symm.trans hfind
  · cases hchange with
    | kept hhead hrows =>
      rw [Database.GoesOn, hrows]
      exact hkept.2
    | put head hhead hrows hnew hcursor =>
      cases hhead.symm.trans hfind
      rw [Database.GoesOn, hrows]
      refine hkept.2.insert (hle.trans_lt (hcursor hstate)) fun hends => ?_
      rw [show (Publication.of published).state = .published from hstate] at hends
      cases hends

/-- All that was shown of a record that is not published has ended. -/
theorem unpublished_over (ha : Coherent a) (hleft : ¬a.publishes record = true) {cutoff : Nat} :
    a.IsOver record cutoff := by
  intro row hrow _ hshown
  obtain ⟨hmem, hrecord⟩ := mem_history.mp hrow
  obtain ⟨head, hhead, -⟩ := ha.headed row hmem
  rw [hrecord] at hhead
  have hstate : head.state ≠ .published := fun h => hleft (publishes_iff.mpr ⟨head, hhead, h⟩)
  obtain ⟨hlast, hbefore⟩ := ha.last hhead
  obtain rfl | ⟨hlt, halive⟩ := hbefore row hrow
  · exact absurd hshown hstate
  · refine ⟨.of head, hlast, hlt, ?_⟩
    show head.state.isEnded = true
    cases hcase : head.state with
    | unpublished => exact absurd hcase halive
    | published => exact absurd hcase hstate
    | _ => rfl

theorem over_stays {cutoff : Nat} (ha : Coherent a) (hcutoff : cutoff ≤ a.cutoff) (h : a.IsOver record cutoff)
    (hrun : Relation.ReflTransGen (Happens sha256) a b) : b.IsOver record cutoff := by
  refine (run_keeps record (P := fun db => db.IsOver record cutoff) ha h (fun _ _ h => h) (fun c b hle hb _ hover hchange => ?_) hrun).2.2
  obtain hnone | hchange := hchange
  · refine unpublished_over hb fun hpublishes => ?_
    obtain ⟨head, hhead, -⟩ := publishes_iff.mp hpublishes
    cases hnone.symm.trans hhead
  · cases hchange with
    | kept hhead hrows => rwa [Database.IsOver, hrows]
    | put head hhead hrows hnew hcursor =>
      rw [Database.IsOver, hrows]
      exact hover.insert fun hshown => (hcutoff.trans hle).trans_lt (hcursor hshown)

/-! ### Queries -/

/-- A head that publishes a version. -/
def Database.Shows (db : Database) (ref : MemoryVersionRef) : Prop :=
  ∃ head, db.ledger.heads.find (ref.datasetId, ref.recordId) = some head ∧ head.state = .published ∧
    head.publishedVersion.map (·.version) = some ref.version

theorem frozen_iff (ha : Coherent a) (hrun : Relation.ReflTransGen (Happens sha256) a b) {row : Publication} :
    b.publishes record = true ∧ b.Reads record a.cutoff row ↔
      ∃ head, a.ledger.heads.find record = some head ∧ head.state = .published ∧ row = .of head ∧
        Relation.ReflTransGen (Stays sha256 record) a b := by
  have hstays : ∀ head, a.ledger.heads.find record = some head → head.state = .published →
      Relation.ReflTransGen (Stays sha256 record) a b →
      b.publishes record = true ∧ ∀ row, b.Reads record a.cutoff row ↔ row = .of head := by
    intro head hhead hstate hstays
    obtain ⟨hpublishes, hongoing⟩ := stays_ongoing ha (publishes_iff.mpr ⟨head, hhead, hstate⟩) hstays
    obtain ⟨hmem, hlast⟩ := ha.last hhead
    exact ⟨hpublishes, fun row => hongoing.frozen_iff hmem hstate (ha.past (mem_history.mp hmem).1) fun other hother =>
      (hlast other hother).imp_right And.left⟩
  constructor
  · rintro ⟨-, hfrozen⟩
    obtain ⟨hpublishes, hstay⟩ | ⟨mid, hbefore, hleft, hafter⟩ :=
      @stays_or_leaves sha256 a b record hrun
    · obtain ⟨head, hhead, hstate⟩ := publishes_iff.mp hpublishes
      exact ⟨head, hhead, hstate, ((hstays head hhead hstate hstay).2 row).mp hfrozen, hstay⟩
    · obtain ⟨hmid, hle, -⟩ := run_keeps record (P := fun _ => True) ha trivial (fun _ _ h => h)
        (fun _ _ _ _ _ _ _ => trivial) hbefore
      exact absurd hfrozen (over_stays hmid hle (unpublished_over hmid hleft) hafter).unread
  · rintro ⟨head, hhead, hstate, rfl, hstay⟩
    obtain ⟨hpublishes, hfrozen⟩ := hstays head hhead hstate hstay
    exact ⟨hpublishes, (hfrozen _).mpr rfl⟩

theorem isFrozen_iff {cutoff : Nat} {row : Publication} (hrow : row ∈ a.publications.rows) :
    a.isFrozen cutoff row = true ↔ a.publishes row.record = true ∧ a.Reads row.record cutoff row := by
  have hmem : row ∈ a.ofRecord row.record := mem_history.mpr ⟨hrow, rfl⟩
  simp only [Database.isFrozen, Bool.and_eq_true, decide_eq_true_eq, List.max?_eq_some_iff, List.mem_map,
    List.mem_filter, Bool.not_eq_true', List.any_eq_false, not_and]
  constructor
  · rintro ⟨⟨⟨⟨⟨other, ⟨-, hpast⟩, hsame⟩, hlast⟩, hshown⟩, hpublishes⟩, hunended⟩
    exact ⟨hpublishes, hmem, hsame ▸ hpast, fun next hnext hle => hlast _ ⟨next, ⟨hnext, hle⟩, rfl⟩, hshown, hunended⟩
  · rintro ⟨hpublishes, hfrozen⟩
    refine ⟨⟨⟨⟨⟨row, ⟨hmem, hfrozen.past⟩, rfl⟩, ?_⟩, hfrozen.shown⟩, hpublishes⟩, hfrozen.unended⟩
    rintro _ ⟨next, ⟨hnext, hle⟩, rfl⟩
    exact hfrozen.last next hnext hle

/-- The version that a row names is of the row's record. -/
theorem versionOf_iff {row : Publication} {version : MemoryVersion} : a.versionOf row = some version ↔
    row.record = (version.ref.datasetId, version.ref.recordId) ∧ row.version = some version.ref.version ∧
      a.ledger.versions.find (versionKey version) = some version := by
  rw [Database.versionOf, Option.bind_eq_some_iff]
  constructor
  · rintro ⟨number, hnumber, hfind⟩
    have hkey := Keyed.find_key hfind
    simp only [versionKey, Prod.mk.injEq] at hkey
    obtain ⟨hdataset, hrecord, hversion⟩ := hkey
    exact ⟨Prod.ext hdataset.symm hrecord.symm, hversion ▸ hnumber,
      Keyed.find_some.mpr ⟨(Keyed.find_some.mp hfind).1, rfl⟩⟩
  · rintro ⟨hsame, hnumber, hfind⟩
    obtain ⟨hdataset, hrecord⟩ := Prod.mk.inj hsame
    refine ⟨_, hnumber, ?_⟩
    rw [hdataset, hrecord]
    exact hfind

/-- **What is read at the cutoff of a database is what it showed, of the records that have been published ever
since**: a later publication is never read, and what was once ended is not read again. -/
theorem frozen_recall (hopened : Opened sha256 a) (hrun : Relation.ReflTransGen (Happens sha256) a b) {dataset : Id}
    {recordId : Option Id} {residentOnly : Bool} {limit : Nat} {versions : List MemoryVersion}
    (hread : b.frozenVersions dataset a.cutoff recordId residentOnly limit = .ok versions) (version : MemoryVersion) :
    let frozen := b.ledger.versions.find (versionKey version) = some version ∧ a.Shows version.ref ∧
      Relation.ReflTransGen (Stays sha256 (version.ref.datasetId, version.ref.recordId)) a b ∧
      version.ref.datasetId = dataset ∧ (∀ id, recordId = some id → version.ref.recordId = id) ∧
      (residentOnly = true → isResident version = true)
    (version ∈ versions → frozen) ∧ (versions.length < limit → frozen → version ∈ versions) := by
  intro frozen
  have ha := opened_coherent hopened
  unfold Database.frozenVersions at hread
  dsimp only at hread
  generalize hjoined : List.filterMap _ _ = joined at hread
  split at hread
  · cases hread
    have hmem : version ∈ joined.filter (fun version => !residentOnly || isResident version) ↔ frozen := by
      rw [← hjoined]
      simp only [List.mem_filter, List.mem_filterMap, List.mem_insertionSort, Bool.and_eq_true, decide_eq_true_eq,
        Option.all_eq_true, versionOf_iff]
      constructor
      · rintro ⟨⟨row, ⟨hrow, ⟨hdataset, hrecord⟩, hfrozen⟩, hsame, hnumber, hfind⟩, hresident⟩
        obtain ⟨head, hhead, hstate, rfl, hstays⟩ := (frozen_iff ha hrun).mp ((isFrozen_iff hrow).mp hfrozen)
        rw [hsame] at hhead hstays
        obtain ⟨hdataset', hrecord'⟩ := Prod.mk.inj hsame
        exact ⟨hfind, ⟨head, hhead, hstate, hnumber⟩, hstays, hdataset'.symm.trans hdataset,
          fun id hid => hrecord'.symm.trans (hrecord id hid).symm, fun h => by simpa [h] using hresident⟩
      · rintro ⟨hfind, ⟨head, hhead, hstate, hnumber⟩, hstays, hdataset, hrecord, hresident⟩
        have hfrozen := (frozen_iff ha hrun).mpr ⟨head, hhead, hstate, rfl, hstays⟩
        obtain ⟨hrow, hsame⟩ := mem_history.mp hfrozen.2.mem
        obtain ⟨hdataset', hrecord'⟩ := Prod.mk.inj hsame
        rw [← hsame] at hfrozen
        refine ⟨⟨.of head, ⟨hrow, ⟨hdataset'.trans hdataset, fun id hid => (hrecord'.trans (hrecord id hid)).symm⟩,
          (isFrozen_iff hrow).mpr hfrozen⟩, hsame, hnumber, hfind⟩, ?_⟩
        cases residentOnly with
        | true => exact hresident rfl
        | false => rfl
    refine ⟨fun h => hmem.mp (List.mem_of_mem_take h), fun hlt h => ?_⟩
    rw [List.take_of_length_le]
    · exact hmem.mpr h
    · rw [List.length_take] at hlt
      omega
  · cases hread

/-! ### A purge of another dataset -/

def published : Database := .created publishedLedger

def cleaned : Database where
  ledger := ledgerAfter ((purge ⟨"other", by decide⟩).run publishedLedger)
  publications := published.publications.delete (·.datasetId = ⟨"other", by decide⟩)

theorem opened_published : Opened sampleDigest published := ⟨publishedLedger, reachable_published, .refl⟩

theorem happens_cleaned : Happens sampleDigest published cleaned := .inr ⟨⟨"other", by decide⟩, rfl, rfl⟩

theorem frozen_recall_cleaned : Relation.ReflTransGen
    (Stays sampleDigest (⟨"dataset", by decide⟩, ⟨"record", by decide⟩)) published cleaned :=
  have hread : cleaned.frozenVersions ⟨"dataset", by decide⟩ published.cutoff none false 10 =
      .ok [sampleVersion 1 "Use tabs."] := by decide +kernel
  ((frozen_recall opened_published (.tail .refl happens_cleaned) hread _).1 List.mem_cons_self).2.2.1

end

end Operant.Recall
