import Mathlib.Data.List.Basic
import Mathlib.Tactic

/-! Where one list stands in another, how often it is counted there, and the replacement of the
first one found. -/
namespace Operant.Text
variable {α : Type}

/-- `old` stands in `s` behind the first `i` elements. -/
def StandsAt (old s : List α) (i : Nat) : Prop := old <+: s.drop i

theorem standsAt_middle (front old back : List α) : StandsAt old (front ++ old ++ back) front.length := by
  rw [StandsAt, List.append_assoc, List.drop_left]
  exact List.prefix_append old back

theorem StandsAt.lt {old s : List α} {i : Nat} (h : StandsAt old s i) (hold : old ≠ []) : i < s.length := by
  have hle := h.length_le
  have hpos := List.length_pos_of_ne_nil hold
  rw [List.length_drop] at hle
  omega

variable [DecidableEq α]

instance (old s : List α) (i : Nat) : Decidable (StandsAt old s i) := inferInstanceAs (Decidable (old <+: s.drop i))

/-- `s.count(old)`, after `skip` elements: each one is looked for behind the one before. -/
def countFrom (old : List α) : Nat → List α → Nat
  | _, [] => 0
  | skip + 1, _ :: rest => countFrom old skip rest
  | 0, c :: rest =>
    if old.isPrefixOf (c :: rest) then countFrom old (old.length - 1) rest + 1 else countFrom old 0 rest

def occurrences (old s : List α) : Nat := countFrom old 0 s

/-- `s.replace(old, new, 1)`. -/
def replaceFirst (old new : List α) : List α → List α
  | [] => []
  | c :: rest =>
    if old.isPrefixOf (c :: rest) then new ++ (c :: rest).drop old.length else c :: replaceFirst old new rest

/-- What is counted is replaced where it first stands. -/
theorem replaceFirst_parts {old s : List α} (new : List α) (h : occurrences old s ≠ 0) :
    ∃ front back, s = front ++ old ++ back ∧ replaceFirst old new s = front ++ new ++ back := by
  induction s with
  | nil => exact absurd rfl h
  | cons c rest ih =>
    rw [occurrences, countFrom] at h
    rw [replaceFirst]
    split
    · rename_i hprefix
      rw [List.isPrefixOf_iff_prefix] at hprefix
      exact ⟨[], (c :: rest).drop old.length, (List.prefix_iff_eq_append.mp hprefix).symm, rfl⟩
    · rename_i hprefix
      rw [if_neg hprefix] at h
      obtain ⟨front, back, hs, hreplaced⟩ := ih h
      exact ⟨c :: front, back, by rw [hs]; rfl, by rw [hreplaced]; rfl⟩

/-- With nothing inserted that was not there, the elements outside stay as often as they were. -/
theorem count_outside {front new back front' back' : List α} (h : front ++ new ++ back = front' ++ new ++ back')
    (c : α) : front.count c + back.count c = front'.count c + back'.count c := by
  have hcount := congrArg (List.count c) h
  simp only [List.count_append] at hcount
  omega

end Operant.Text
