import Operant.Memory.Changes
import Operant.Tables.Frozen

/-! The history of the publications: `memory_plugins/recall_schema.py`, and what is read of it in
`memory_plugins/recall.py`.

Two triggers write a row of `b24_publications` for every head that is put or changed. A run reads the versions of
its dataset as they were published when it took its cutoff.

A database here is a ledger with that table. A transaction of the ledger is a chain of moves, and the triggers
fire with each. -/
namespace Operant.Recall
open Operant.Calls Operant.Calls.Transaction Operant.Tables Operant.Memory

/-- A row of `b24_publications`, without the body, which nothing reads. -/
structure Publication where
  datasetId : Id
  recordId : Id
  cursor : Nat
  version : Option Nat
  state : HeadState
  deriving DecidableEq

def Publication.record (row : Publication) : Id × Id := (row.datasetId, row.recordId)

/-- The row of a head. -/
def Publication.of (head : MemoryHead) : Publication where
  datasetId := head.datasetId
  recordId := head.recordId
  cursor := head.publicationCursor
  version := head.publishedVersion.map (·.version)
  state := head.state

abbrev Publications := Keyed Publication ((Id × Id) × Nat) fun row => (row.record, row.cursor)

/-- `b24_head_insert`, which fails where the row is there, and `b24_head_update`, which replaces it. -/
def fire (rows : Publications) : Option HeadWrite → Option Publications
  | none => some rows
  | some (.inserted head) => rows.insert (.of head)
  | some (.updated head _) => some (rows.put (.of head))

structure Database where
  ledger : Ledger
  publications : Publications

/-- The rows of the heads that there are when the table is created. -/
def Database.created (ledger : Ledger) : Database where
  ledger := ledger
  publications := {
    rows := ledger.heads.rows.map .of
    keys := by
      rw [List.map_map]
      refine List.Nodup.of_map Prod.fst ?_
      rw [List.map_map]
      exact ledger.heads.keys }

/-! ### Transactions -/

/-- A move of the ledger, with the trigger that it fires. -/
def Moves (start : Ledger) (allow : Allowance) (a b : Database) : Prop :=
  ∃ write, Move start allow a.ledger write b.ledger ∧ fire a.publications write = some b.publications

/-- A transaction of the ledger, with the triggers that it fires. -/
def Commits (sha256 : String → Digest) (a b : Database) : Prop :=
  Step sha256 a.ledger b.ledger ∧
    Relation.ReflTransGen (Moves a.ledger ⟨Weakens a.ledger b.ledger, Lates sha256 a.ledger b.ledger⟩) a b

/-- The purge of a dataset takes its publications too. -/
def Purges (dataset : Id) (a b : Database) : Prop :=
  (purge dataset).run a.ledger = .ok (⟨⟩, b.ledger) ∧
    b.publications = a.publications.delete (·.datasetId = dataset)

/-- What happens to a database. -/
def Happens (sha256 : String → Digest) (a b : Database) : Prop := Commits sha256 a b ∨ ∃ dataset, Purges dataset a b

/-- A database that was made of a ledger. -/
def Opened (sha256 : String → Digest) (db : Database) : Prop :=
  ∃ ledger, Reachable sha256 ledger ∧ Relation.ReflTransGen (Happens sha256) (.created ledger) db

/-! ### Queries -/

/-- `publication_cutoff`. -/
def Database.cutoff (db : Database) : Nat := db.ledger.publicationCursor

/-- The rows of a record. -/
def Database.ofRecord (db : Database) (record : Id × Id) : List Publication :=
  db.publications.rows.filter (·.record = record)

/-- Whether a record is published. -/
def Database.publishes (db : Database) (record : Id × Id) : Bool :=
  (db.ledger.heads.find record).any (·.state = .published)

/-- The row is the last one of its record up to the cutoff, publishes, and was not ended since. -/
def Database.isFrozen (db : Database) (cutoff : Nat) (row : Publication) : Bool :=
  (((db.ofRecord row.record).filter (·.cursor ≤ cutoff)).map (·.cursor)).max? = some row.cursor &&
    row.state = .published && db.publishes row.record &&
    !(db.ofRecord row.record).any fun revoked => row.cursor < revoked.cursor && revoked.state.isEnded

/-- A preference that the user has stated. -/
def isResident (version : MemoryVersion) : Bool :=
  version.contentType = .preference && version.evidence = .userAsserted

/-- The version that a row names. -/
def Database.versionOf (db : Database) (row : Publication) : Option MemoryVersion :=
  row.version.bind fun version => db.ledger.versions.find (row.datasetId, row.recordId, version)

/-- `frozen_versions`. -/
def Database.frozenVersions (db : Database) (dataset : Id) (cutoff : Nat) (recordId : Option Id)
    (residentOnly : Bool) (limit : Nat) : Except Failure (List MemoryVersion) :=
  let rows := db.publications.rows.filter fun row =>
    row.datasetId = dataset && recordId.all (· = row.recordId) && db.isFrozen cutoff row
  let joined := (rows.insertionSort (·.recordId ≤ ·.recordId)).filterMap db.versionOf
  let versions := (joined.filter fun version => !residentOnly || isResident version).take limit
  if versions.all (·.readable) then .ok versions else .error .contract

end Operant.Recall
