import Operant.Tables.Rows

/-! Tables with a primary key.

No two rows have one key, so that a key finds at most one row. Rows are put behind those there are. -/
namespace Operant.Tables

/-- Rows, each with a key of its own. -/
structure Keyed (α κ : Type) (key : α → κ) where
  rows : List α := []
  keys : (rows.map key).Nodup := by exact List.nodup_nil

namespace Keyed
variable {α κ : Type} [DecidableEq κ] {key : α → κ}

/-- The row of a key. -/
def find (table : Keyed α κ key) (k : κ) : Option α := table.rows.find? fun row => key row = k

theorem find_some {table : Keyed α κ key} {k : κ} {row : α} :
    table.find k = some row ↔ row ∈ table.rows ∧ key row = k := by
  constructor
  · intro h
    have hkey := List.find?_some h
    rw [decide_eq_true_eq] at hkey
    exact ⟨List.mem_of_find?_eq_some h, hkey⟩
  · rintro ⟨hmem, rfl⟩
    exact find?_of_key table.keys hmem

theorem find_none {table : Keyed α κ key} {k : κ} : table.find k = none ↔ ∀ row ∈ table.rows, key row ≠ k := by
  simp [find]

theorem find_key {table : Keyed α κ key} {k : κ} {row : α} (h : table.find k = some row) : key row = k :=
  (find_some.mp h).2

/-- A row whose key is new. -/
def add (table : Keyed α κ key) (row : α) (h : table.find (key row) = none) : Keyed α κ key where
  rows := table.rows ++ [row]
  keys := by
    rw [List.map_append, List.map_singleton, List.nodup_append]
    refine ⟨table.keys, List.nodup_singleton _, fun k hk k' hk' => ?_⟩
    obtain ⟨other, hother, rfl⟩ := List.mem_map.mp hk
    rw [List.mem_singleton.mp hk']
    exact find_none.mp h other hother

/-- `INSERT`, unless the key is taken. -/
def insert (table : Keyed α κ key) (row : α) : Option (Keyed α κ key) :=
  if h : table.find (key row) = none then some (table.add row h) else none

/-- `UPDATE` of the row with that key. -/
def set (table : Keyed α κ key) (row : α) : Keyed α κ key where
  rows := update table.rows (fun old => key old = key row) fun _ => row
  keys := by
    rw [map_update key fun old _ h => (decide_eq_true_eq.mp h).symm]
    exact table.keys

/-- `INSERT .. ON CONFLICT DO UPDATE`. -/
def put (table : Keyed α κ key) (row : α) : Keyed α κ key := (table.insert row).getD (table.set row)

/-- `DELETE .. WHERE`. -/
def delete (table : Keyed α κ key) (p : α → Bool) : Keyed α κ key where
  rows := table.rows.filter fun row => !p row
  keys := (List.filter_sublist.map key).nodup table.keys

theorem insert_some {table after : Keyed α κ key} {row : α} :
    table.insert row = some after ↔ ∃ h : table.find (key row) = none, table.add row h = after := by
  unfold insert
  split
  · next h => simp [h]
  · next h => simp [h]

theorem mem_add {table : Keyed α κ key} {row other : α} (h : table.find (key row) = none) :
    other ∈ (table.add row h).rows ↔ other ∈ table.rows ∨ other = row := by
  simp [add]

theorem find_add {table : Keyed α κ key} {row : α} (h : table.find (key row) = none) {k : κ} :
    (table.add row h).find k = if k = key row then some row else table.find k := by
  split
  · next hk => exact find_some.mpr ⟨(mem_add h).mpr (.inr rfl), hk.symm⟩
  · next hk =>
    cases hfind : table.find k with
    | none =>
      refine find_none.mpr fun other hother => ?_
      cases (mem_add h).mp hother with
      | inl hold => exact find_none.mp hfind other hold
      | inr hnew => rw [hnew]; exact fun heq => hk heq.symm
    | some found =>
      obtain ⟨hmem, hkey⟩ := find_some.mp hfind
      exact find_some.mpr ⟨(mem_add h).mpr (.inl hmem), hkey⟩

theorem mem_set {table : Keyed α κ key} {row other : α} :
    other ∈ (table.set row).rows ↔
      (other = row ∧ ∃ old ∈ table.rows, key old = key row) ∨ (other ∈ table.rows ∧ key other ≠ key row) := by
  simp only [set, mem_update, decide_eq_true_eq, decide_eq_false_iff_not]
  constructor
  · rintro (⟨old, hold, hkey, rfl⟩ | h)
    · exact .inl ⟨rfl, old, hold, hkey⟩
    · exact .inr h
  · rintro (⟨rfl, old, hold, hkey⟩ | h)
    · exact .inl ⟨old, hold, hkey, rfl⟩
    · exact .inr h

theorem find_set {table : Keyed α κ key} {row : α} {k : κ} :
    (table.set row).find k = if k = key row then (table.find k).map fun _ => row else table.find k := by
  rw [find, set, find?_update fun old _ hold => by
    rw [decide_eq_true_eq] at hold
    rw [hold]]
  show (table.find k).map _ = _
  cases hfind : table.find k with
  | none => simp
  | some found =>
    rw [Option.map_some, find_key hfind]
    split
    · next h => rw [if_pos (decide_eq_true_eq.mp h)]; rfl
    · next h => rw [if_neg fun hk => h (decide_eq_true_eq.mpr hk)]

theorem find_put {table : Keyed α κ key} {row : α} {k : κ} :
    (table.put row).find k = if k = key row then some row else table.find k := by
  unfold put
  cases hinsert : table.insert row with
  | some after =>
    obtain ⟨h, rfl⟩ := insert_some.mp hinsert
    exact find_add h
  | none =>
    rw [Option.getD_none, find_set]
    split
    · next hk =>
      cases hfind : table.find k with
      | some found => rfl
      | none =>
        rw [hk] at hfind
        rw [insert_some.mpr ⟨hfind, rfl⟩] at hinsert
        cases hinsert
    · rfl

omit [DecidableEq κ] in
theorem mem_delete {table : Keyed α κ key} {p : α → Bool} {row : α} :
    row ∈ (table.delete p).rows ↔ row ∈ table.rows ∧ p row = false := by
  simp [delete, List.mem_filter]

theorem find_delete {table : Keyed α κ key} {p : α → Bool} {k : κ} :
    (table.delete p).find k = (table.find k).filter fun row => !p row := by
  cases hfind : table.find k with
  | none =>
    refine find_none.mpr fun row hrow => ?_
    exact find_none.mp hfind row (mem_delete.mp hrow).1
  | some found =>
    obtain ⟨hmem, hkey⟩ := find_some.mp hfind
    cases hp : p found with
    | false =>
      rw [Option.filter_some, hp]
      exact find_some.mpr ⟨mem_delete.mpr ⟨hmem, hp⟩, hkey⟩
    | true =>
      rw [Option.filter_some, hp]
      refine find_none.mpr fun row hrow hk => ?_
      obtain ⟨hold, hpass⟩ := mem_delete.mp hrow
      rw [eq_of_key table.keys hold hmem (hk.trans hkey.symm), hp] at hpass
      cases hpass

end Keyed

end Operant.Tables
