import Mathlib.Data.List.Nodup
import Mathlib.Data.List.Range
import Mathlib.Tactic
import Operant.Tables.Rows

/-! Boards: rows that are written by comparing revisions.

A write names the revision it has seen and brings the next one; a row keeps the keys of the writes it has taken, with
what they said and the revision they made. A write that comes again is answered from there. -/
namespace Operant.Tables

/-- What a caller wants to be written, under a key of its own, over the revision it has seen. -/
structure Write (κ ι : Type) where
  idempotencyKey : κ
  item : ι
  expectedRevision : Option Nat := none

/-- The item of a row, and the writes it has taken: what each said, and its revision. -/
structure Kept (κ δ ι : Type) where
  item : ι
  idempotency : List (κ × δ × Nat)

/-- Why nothing is written. -/
inductive Refused where
  | revisionConflict
  | keyConflict
  deriving DecidableEq

structure BoardApplyResult where
  revision : Nat
  created : Bool
  deriving DecidableEq

section
variable {κ δ ι : Type} [DecidableEq κ] [DecidableEq δ] (revision : ι → Nat) (digest : Write κ ι → δ)

/-- A write to a row, or to none: the row after it, and what the caller is told. `none` in front says that the row is
left as it is. -/
def applyWrite (row : Option (Kept κ δ ι)) (write : Write κ ι) :
    Except Refused (Option (Kept κ δ ι) × BoardApplyResult) :=
  match row with
  | none =>
    if write.expectedRevision ≠ none ∧ write.expectedRevision ≠ some 0 then .error .revisionConflict
    else .ok (some ⟨write.item, [(write.idempotencyKey, digest write, revision write.item)]⟩,
      ⟨revision write.item, true⟩)
  | some kept =>
    match kept.idempotency.lookup write.idempotencyKey with
    | some prior =>
      if prior.1 ≠ digest write then .error .keyConflict else .ok (none, ⟨prior.2, false⟩)
    | none =>
      if write.expectedRevision ≠ some (revision kept.item) ∨ revision write.item ≠ revision kept.item + 1 then
        .error .revisionConflict
      else .ok (some ⟨write.item, kept.idempotency ++ [(write.idempotencyKey, digest write, revision write.item)]⟩,
        ⟨revision write.item, false⟩)

end

section
variable {κ δ ι : Type} (revision : ι → Nat)

/-- The revisions that were written to a row follow each other, and the row has the last of them. It has taken one
write for each, under different keys. -/
structure Written (revisions : List Nat) (kept : Kept κ δ ι) : Prop where
  taken : kept.idempotency.map (fun entry => entry.2.2) = revisions
  keys : (kept.idempotency.map Prod.fst).Nodup
  first : ∃ first, revisions = List.range' first revisions.length ∧ revision kept.item + 1 = first + revisions.length

/-- The revisions of a row, of which there are none without it. -/
def Linear (revisions : List Nat) : Option (Kept κ δ ι) → Prop
  | none => revisions = []
  | some kept => Written revision revisions kept

end

section
variable {κ δ : Type} [DecidableEq κ]

theorem lookup_none {entries : List (κ × δ)} {key : κ} (h : entries.lookup key = none) :
    key ∉ entries.map Prod.fst := by
  intro hmem
  obtain ⟨entry, hentry, rfl⟩ := List.mem_map.mp hmem
  have := List.lookup_eq_none_iff.mp h entry hentry
  simp at this

theorem lookup_mem {entries : List (κ × δ)} {key : κ} {value : δ} (h : (entries.map Prod.fst).Nodup)
    (hentry : (key, value) ∈ entries) : entries.lookup key = some value := by
  induction entries with
  | nil => cases hentry
  | cons first rest ih =>
    obtain ⟨hfirst, hrest⟩ := List.nodup_cons.mp h
    rw [List.lookup_cons]
    rcases List.mem_cons.mp hentry with rfl | hmem
    · simp
    · have hne : key ≠ first.1 := fun heq => hfirst (heq ▸ List.mem_map_of_mem hmem)
      rw [beq_false_of_ne hne]
      exact ih hrest hmem

end

section
variable {κ δ ι : Type} [DecidableEq κ] [DecidableEq δ] {revision : ι → Nat} {digest : Write κ ι → δ}
  {row : Option (Kept κ δ ι)} {write : Write κ ι} {revisions : List Nat}

/-- What is written is the next revision. -/
theorem linear_write {kept : Kept κ δ ι} {result : BoardApplyResult} (h : Linear revision revisions row)
    (happly : applyWrite revision digest row write = .ok (some kept, result)) :
    Written revision (revisions ++ [revision write.item]) kept ∧ result.revision = revision write.item := by
  unfold applyWrite at happly
  cases row with
  | none =>
    dsimp only at happly
    split at happly
    · cases happly
    · cases happly
      have hnone : revisions = [] := h
      subst hnone
      exact ⟨⟨rfl, List.nodup_singleton _, revision write.item, rfl, rfl⟩, rfl⟩
  | some old =>
    have hold : Written revision revisions old := h
    dsimp only at happly
    split at happly
    · split at happly <;> cases happly
    · rename_i hlookup
      split at happly
      · cases happly
      · rename_i hseen
        cases happly
        rw [not_or, not_not, not_not] at hseen
        obtain ⟨first, hrange, hlast⟩ := hold.first
        refine ⟨⟨?_, ?_, first, ?_, ?_⟩, rfl⟩
        · rw [List.map_append, hold.taken]
          rfl
        · rw [List.map_append, List.nodup_append]
          refine ⟨hold.keys, List.nodup_singleton _, fun key hkey other hother heq => ?_⟩
          rw [heq, List.mem_singleton.mp hother] at hkey
          exact lookup_none hlookup hkey
        · rw [List.length_append, List.length_singleton, List.range'_1_concat, ← hrange, hseen.2, hlast]
        · rw [List.length_append, List.length_singleton]
          dsimp only
          omega

/-- A write that was taken is answered with its revision, and not written again. -/
theorem applyWrite_again {kept : Kept κ δ ι} {made : Nat} (hkeys : (kept.idempotency.map Prod.fst).Nodup)
    (hentry : (write.idempotencyKey, digest write, made) ∈ kept.idempotency) :
    applyWrite revision digest (some kept) write = .ok (none, ⟨made, false⟩) := by
  simp only [applyWrite, lookup_mem hkeys hentry, ne_eq, not_true_eq_false, if_false]

end

/-! ### Boards of many rows -/

section
variable {α ν : Type} [DecidableEq ν] {key : α → ν} {rows : List α} {row : α}

/-- A row with a new key is found by that key. -/
theorem find?_append_key (h : rows.find? (fun other => key other = key row) = none) (name : ν) :
    (rows ++ [row]).find? (fun other => key other = name) =
      if name = key row then some row else rows.find? fun other => key other = name := by
  rw [List.find?_append, List.find?_singleton]
  by_cases hname : name = key row
  · subst hname
    simp [h]
  · simp [hname, Ne.symm hname]

/-- A row that is rewritten is found by its key, and the others as before. -/
theorem find?_update_key {p : α → Bool} {f : α → α} (hkey : ∀ other, key (f other) = key other)
    (hp : ∀ other ∈ rows, p other = true ↔ key other = key row)
    (hrow : rows.find? (fun other => key other = key row) = some row) (name : ν) :
    (update rows p f).find? (fun other => key other = name) =
      if name = key row then some (f row) else rows.find? fun other => key other = name := by
  rw [find?_update fun other _ _ => by rw [hkey]]
  by_cases hname : name = key row
  · subst hname
    have hmatch : p row = true := (hp row (List.mem_of_find?_eq_some hrow)).mpr rfl
    rw [if_pos rfl, hrow, Option.map_some, if_pos hmatch]
  · rw [if_neg hname]
    cases hfound : rows.find? fun other => key other = name with
    | none => rfl
    | some found =>
      have hfoundKey : key found = name := by simpa using List.find?_some hfound
      have hmatch : ¬p found = true := fun hmatch =>
        hname (hfoundKey.symm.trans ((hp found (List.mem_of_find?_eq_some hfound)).mp hmatch))
      rw [Option.map_some, if_neg hmatch]

end

section
variable {κ δ ι : Type}

/-- The rows of a board by their names, and the revisions that were written to each. -/
structure Board (ν κ δ ι : Type) where
  row : ν → Option (Kept κ δ ι)
  revisions : ν → List Nat

variable [DecidableEq κ] [DecidableEq δ] {revision : ι → Nat} {digest : Write κ ι → δ} {ν : Type} [DecidableEq ν]
  {name : ι → ν} {board after : Board ν κ δ ι}

/-- A write to the row it names, or nothing. -/
inductive BoardStep (revision : ι → Nat) (digest : Write κ ι → δ) (name : ι → ν) (board after : Board ν κ δ ι) : Prop where
  | same (row : ∀ other, after.row other = board.row other)
      (revisions : ∀ other, after.revisions other = board.revisions other)
  | wrote (write : Write κ ι) (kept : Kept κ δ ι) (result : BoardApplyResult)
      (applied : applyWrite revision digest (board.row (name write.item)) write = .ok (some kept, result))
      (row : ∀ other, after.row other = if other = name write.item then some kept else board.row other)
      (revisions : ∀ other, after.revisions other =
        if other = name write.item then board.revisions other ++ [revision write.item] else board.revisions other)

/-- Every row of the board is linear. -/
def Board.Linear (revision : ι → Nat) (board : Board ν κ δ ι) : Prop :=
  ∀ name, Tables.Linear revision (board.revisions name) (board.row name)

theorem linear_step (h : board.Linear revision) (hstep : BoardStep revision digest name board after) :
    after.Linear revision := by
  intro other
  cases hstep with
  | same hrow hrevisions =>
    rw [hrow, hrevisions]
    exact h other
  | wrote write kept result happlied hrow hrevisions =>
    rw [hrow, hrevisions]
    by_cases hname : other = name write.item
    · subst hname
      rw [if_pos rfl, if_pos rfl]
      exact (linear_write (h _) happlied).1
    · rw [if_neg hname, if_neg hname]
      exact h other

end
end Operant.Tables
