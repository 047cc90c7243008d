import Mathlib.Data.List.Basic
import Mathlib.Data.List.Nodup

/-! Tables as lists of rows.

`update` is `UPDATE .. WHERE`: it rewrites the rows that match and keeps their order.
What it does to a part of the table that no matching row belongs to, and to a key it
does not write, is stated here once. -/
namespace Operant.Tables
variable {α β : Type}

/-- `UPDATE .. SET f WHERE p`. -/
def update (rows : List α) (p : α → Bool) (f : α → α) : List α :=
  rows.map fun row => if p row then f row else row

variable {rows : List α} {p q : α → Bool} {f : α → α}

theorem mem_update {row : α} :
    row ∈ update rows p f ↔
      (∃ old ∈ rows, p old = true ∧ row = f old) ∨ (row ∈ rows ∧ p row = false) := by
  rw [update, List.mem_map]
  constructor
  · intro h
    obtain ⟨old, hold, heq⟩ := h
    by_cases hp : p old = true
    · rw [if_pos hp] at heq
      exact .inl ⟨old, hold, hp, heq.symm⟩
    · rw [if_neg hp] at heq
      rw [← heq]
      exact .inr ⟨hold, by simpa using hp⟩
  · intro h
    cases h with
    | inl h =>
      obtain ⟨old, hold, hp, heq⟩ := h
      exact ⟨old, hold, by rw [if_pos hp, heq]⟩
    | inr h => exact ⟨row, h.1, by rw [if_neg (by simp [h.2])]⟩

/-- Rows that keep their keys. -/
theorem map_ids {key : α → β} (h : ∀ row ∈ rows, key (f row) = key row) : (rows.map f).map key = rows.map key := by
  rw [List.map_map]
  exact List.map_congr_left h

/-- A key that is not written stays. -/
theorem map_update (key : α → β) (h : ∀ row ∈ rows, p row = true → key (f row) = key row) :
    (update rows p f).map key = rows.map key := by
  rw [update, List.map_map]
  apply List.map_congr_left
  intro row hrow
  show key (if p row then f row else row) = key row
  by_cases hp : p row = true
  · rw [if_pos hp, h row hrow hp]
  · rw [if_neg hp]

/-- An update of rows that are, and stay, in a part of the table is an update of that
part. -/
theorem filter_update (h : ∀ row ∈ rows, p row = true → q (f row) = q row) :
    (update rows p f).filter q = update (rows.filter q) p f := by
  induction rows with
  | nil => rfl
  | cons row rest ih =>
    have hrest := ih fun r hr => h r (List.mem_cons_of_mem _ hr)
    show ((if p row then f row else row) :: update rest p f).filter q = _
    have hq : q (if p row then f row else row) = q row := by
      by_cases hp : p row = true
      · rw [if_pos hp, h row (List.mem_cons_self ..) hp]
      · rw [if_neg hp]
    cases hrow : q row with
    | true =>
      rw [List.filter_cons_of_pos (hq.trans hrow), List.filter_cons_of_pos hrow, hrest]
      rfl
    | false =>
      rw [List.filter_cons_of_neg (by simp [hq, hrow]), List.filter_cons_of_neg (by simp [hrow]),
        hrest]

/-- Rows that do not match stay as they are. -/
theorem update_eq_self (h : ∀ row ∈ rows, p row = false) : update rows p f = rows := by
  rw [update]
  calc rows.map (fun row => if p row then f row else row) = rows.map id :=
        List.map_congr_left fun row hrow => by simp [h row hrow]
    _ = rows := List.map_id rows

@[simp] theorem length_update : (update rows p f).length = rows.length := List.length_map _

/-- Only the last row matches. -/
theorem update_last {row : α} (h : ∀ row ∈ rows, p row = false) (hrow : p row = true) :
    update (rows ++ [row]) p f = rows ++ [f row] := by
  have hrows : rows.map (fun row => if p row then f row else row) = rows := update_eq_self h
  rw [update, List.map_append, hrows, List.map_singleton, if_pos hrow]

theorem find?_update (h : ∀ row ∈ rows, p row = true → q (f row) = q row) :
    (update rows p f).find? q = (rows.find? q).map fun row => if p row then f row else row := by
  induction rows with
  | nil => rfl
  | cons row rest ih =>
    have hrest := ih fun r hr => h r (List.mem_cons_of_mem _ hr)
    have hq : q (if p row then f row else row) = q row := by
      by_cases hp : p row = true
      · rw [if_pos hp, h row (List.mem_cons_self ..) hp]
      · rw [if_neg hp]
    show ((if p row then f row else row) :: update rest p f).find? q = _
    rw [List.find?_cons, List.find?_cons, hq, hrest]
    cases q row <;> rfl

/-- What is found in a table is found in a longer one. -/
theorem find?_append_some {more : List α} {row : α} (h : rows.find? p = some row) :
    (rows ++ more).find? p = some row := by
  rw [List.find?_append, h]
  rfl

/-- An update adds at most the rows it rewrites to a count. -/
theorem countP_update_le : (update rows p f).countP q ≤ rows.countP q + rows.countP p := by
  induction rows with
  | nil => exact Nat.le_refl 0
  | cons row rest ih =>
    show ((if p row then f row else row) :: update rest p f).countP q ≤ _
    rw [List.countP_cons, List.countP_cons, List.countP_cons]
    by_cases hp : p row = true
    · rw [if_pos hp, if_pos hp]
      split <;> split <;> omega
    · rw [if_neg hp, if_neg hp]
      omega

/-- Fewer rows match where one matched that does not. -/
theorem countP_lt_countP (h : ∀ row ∈ rows, p row = true → q row = true) {row : α} (hrow : row ∈ rows)
    (hp : p row = false) (hq : q row = true) : rows.countP p < rows.countP q := by
  induction rows with
  | nil => cases hrow
  | cons a rest ih =>
    have hrest : ∀ row ∈ rest, p row = true → q row = true := fun r hr => h r (List.mem_cons_of_mem _ hr)
    have hle : rest.countP p ≤ rest.countP q := List.countP_mono_left hrest
    rw [List.countP_cons, List.countP_cons]
    cases List.mem_cons.mp hrow with
    | inl heq =>
      rw [← heq, if_neg (by simp [hp]), if_pos hq]
      omega
    | inr hmem =>
      have hlt := ih hrest hmem
      have hfirst := h a (List.mem_cons_self ..)
      by_cases ha : p a = true
      · rw [if_pos ha, if_pos (hfirst ha)]
        omega
      · rw [if_neg ha]
        omega

/-- Where `rowcount` is one, a row matched. -/
theorem exists_of_rowcount (h : (rows.filter p).length = 1) : ∃ row ∈ rows, p row = true := by
  have hpos : 0 < (rows.filter p).length := by omega
  obtain ⟨row, hrow⟩ := List.exists_mem_of_length_pos hpos
  exact ⟨row, List.mem_filter.mp hrow⟩

/-- At most one row has a key. -/
theorem countP_key_le_one [DecidableEq β] {key : α → β} (h : (rows.map key).Nodup) (k : β) :
    rows.countP (fun row => key row = k) ≤ 1 := by
  have hcount := List.nodup_iff_count_le_one.mp h k
  rw [List.count, List.countP_map] at hcount
  calc rows.countP (fun row => key row = k) = rows.countP ((fun x => x == k) ∘ key) := by
        apply List.countP_congr
        intro row _
        simp
    _ ≤ 1 := hcount

/-- Where a key is asked for, and a row matches, `rowcount` is one. -/
theorem rowcount_of_key [DecidableEq β] {key : α → β} (h : (rows.map key).Nodup) {k : β}
    (hkey : ∀ row ∈ rows, p row = true → key row = k) {row : α} (hrow : row ∈ rows) (hp : p row = true) :
    (rows.filter p).length = 1 := by
  have hle : rows.countP p ≤ rows.countP fun row => key row = k := by
    apply List.countP_mono_left
    intro row hrow hp
    rw [decide_eq_true_eq]
    exact hkey row hrow hp
  have hone := countP_key_le_one h k
  have hpos : 0 < rows.countP p := List.countP_pos_iff.mpr ⟨row, hrow, hp⟩
  rw [← List.countP_eq_length_filter]
  omega

/-- Rows with one key are one row. -/
theorem eq_of_key {key : α → β} (h : (rows.map key).Nodup) {a b : α} (ha : a ∈ rows)
    (hb : b ∈ rows) (hab : key a = key b) : a = b :=
  List.inj_on_of_nodup_map h ha hb hab

/-- A row is found by its key. -/
theorem find?_of_key [DecidableEq β] {key : α → β} (h : (rows.map key).Nodup) {row : α} (hrow : row ∈ rows) :
    rows.find? (fun r => key r = key row) = some row := by
  cases hfind : rows.find? fun r => key r = key row with
  | none =>
    have hnone := List.find?_eq_none.mp hfind row hrow
    rw [decide_eq_true_eq] at hnone
    exact absurd rfl hnone
  | some found =>
    have hkey := List.find?_some hfind
    rw [decide_eq_true_eq] at hkey
    rw [eq_of_key h (List.mem_of_find?_eq_some hfind) hrow hkey]

end Operant.Tables
