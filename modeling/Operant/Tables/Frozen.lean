import Mathlib.Data.Set.Insert

/-! Reading a history as it was.

A history is a set of stamped rows. Some of them show a value, and some end what was shown. A reader that has kept
a stamp takes the last row up to it, unless a row behind it ends what it shows. As long as the rows that are put
have later stamps and end nothing, that is what was shown when the stamp was taken; what is once ended is never
read again. -/
namespace Operant.Tables
variable {ρ : Type} (stamp : ρ → Nat) (shows ends : ρ → Prop)

/-- The row that is read at a stamp. -/
structure Frozen (rows : Set ρ) (cutoff : Nat) (row : ρ) : Prop where
  mem : row ∈ rows
  past : stamp row ≤ cutoff
  last : ∀ other ∈ rows, stamp other ≤ cutoff → stamp other ≤ stamp row
  shown : shows row
  unended : ∀ other ∈ rows, stamp row < stamp other → ¬ends other

/-- All that was shown up to a stamp was ended. -/
def Over (rows : Set ρ) (cutoff : Nat) : Prop :=
  ∀ row ∈ rows, stamp row ≤ cutoff → shows row → ∃ other ∈ rows, stamp row < stamp other ∧ ends other

/-- What was put since the stamp ends nothing. -/
structure Ongoing (old rows : Set ρ) (cutoff : Nat) : Prop where
  kept : old ⊆ rows
  later : ∀ row ∈ rows, row ∉ old → cutoff < stamp row ∧ ¬ends row

section
variable {stamp shows ends} {rows old : Set ρ} {cutoff : Nat} {row : ρ}

theorem Over.unread (h : Over stamp shows ends rows cutoff) : ¬Frozen stamp shows ends rows cutoff row := by
  intro hread
  obtain ⟨other, hother, hlt, hends⟩ := h row hread.mem hread.past hread.shown
  exact hread.unended other hother hlt hends

/-- What is put later, or shows nothing, changes nothing of it. -/
theorem Over.insert (h : Over stamp shows ends rows cutoff) (hnew : shows row → cutoff < stamp row) :
    Over stamp shows ends (insert row rows) cutoff := by
  intro other hother hpast hshown
  obtain rfl | hold := Set.mem_insert_iff.mp hother
  · exact absurd hpast (Nat.not_le_of_lt (hnew hshown))
  · obtain ⟨last, hlast, hlt, hends⟩ := h other hold hpast hshown
    exact ⟨last, Set.mem_insert_of_mem _ hlast, hlt, hends⟩

theorem Ongoing.refl : Ongoing stamp ends rows rows cutoff := ⟨subset_rfl, fun _ hmem hnot => absurd hmem hnot⟩

theorem Ongoing.insert (h : Ongoing stamp ends old rows cutoff) (hlater : cutoff < stamp row) (hends : ¬ends row) :
    Ongoing stamp ends old (insert row rows) cutoff := by
  refine ⟨h.kept.trans (Set.subset_insert _ _), fun other hother hnew => ?_⟩
  obtain rfl | hold := Set.mem_insert_iff.mp hother
  · exact ⟨hlater, hends⟩
  · exact h.later other hold hnew

/-- While nothing is ended, the last row is what is read. -/
theorem Ongoing.frozen_iff (h : Ongoing stamp ends old rows cutoff) (hmem : row ∈ old) (hshown : shows row)
    (hpast : stamp row ≤ cutoff) (hlast : ∀ other ∈ old, other = row ∨ stamp other < stamp row) {other : ρ} :
    Frozen stamp shows ends rows cutoff other ↔ other = row := by
  have hold : ∀ other ∈ rows, stamp other ≤ cutoff → other ∈ old := fun other hother hpast =>
    by_contra fun hnew => absurd hpast (Nat.not_le_of_lt (h.later other hother hnew).1)
  constructor
  · intro hread
    refine (hlast other (hold other hread.mem hread.past)).resolve_right fun hlt => ?_
    exact absurd (hread.last row (h.kept hmem) hpast) (Nat.not_le_of_lt hlt)
  · rintro rfl
    refine ⟨h.kept hmem, hpast, fun next hnext hle => ?_, hshown, fun next hnext hlt => ?_⟩
    · obtain rfl | hlt := hlast next (hold next hnext hle)
      · exact Nat.le_refl _
      · exact hlt.le
    · by_cases hmem : next ∈ old
      · obtain rfl | hlt' := hlast next hmem
        · exact absurd hlt (Nat.lt_irrefl _)
        · exact absurd hlt (Nat.lt_asymm hlt')
      · exact (h.later next hnext hmem).2

end

end Operant.Tables
