import Operant.Graph.Compiled

/-! Paths and who owns them.

A path lies under another when it is the same or goes on after it with a separator. Two
paths with something under both lie one under the other, so what lies under two that do
not is apart. -/
namespace Operant.MultiWriter
open Operant.Graph

section General
variable {α : Type} {sep : α} {p q r : List α}

/-- `path == owner or path.startswith(f"{owner}/")`. -/
def Under (sep : α) (owner path : List α) : Prop := owner = path ∨ owner ++ [sep] <+: path

instance [DecidableEq α] : Decidable (Under sep p q) :=
  inferInstanceAs (Decidable (p = q ∨ p ++ [sep] <+: q))

/-- One of the two lies under the other. -/
def Overlap (sep : α) (p q : List α) : Prop := Under sep p q ∨ Under sep q p

instance [DecidableEq α] : Decidable (Overlap sep p q) :=
  inferInstanceAs (Decidable (Under sep p q ∨ Under sep q p))

theorem Overlap.symm (h : Overlap sep p q) : Overlap sep q p := Or.symm h

theorem Under.trans (h : Under sep p q) (h' : Under sep q r) : Under sep p r := by
  cases h with
  | inl heq => rwa [heq]
  | inr hpq =>
    cases h' with
    | inl heq => exact .inr (heq ▸ hpq)
    | inr hqr =>
      have hlonger : q <+: q ++ [sep] := List.prefix_append q [sep]
      exact .inr (hpq.trans (hlonger.trans hqr))

/-- What lies under both orders the two. -/
theorem Under.overlap (hp : Under sep p r) (hq : Under sep q r) : Overlap sep p q := by
  cases hp with
  | inl heq =>
    rw [← heq] at hq
    exact .inr hq
  | inr hpr =>
    cases hq with
    | inl heq =>
      rw [← heq] at hpr
      exact .inl (.inr hpr)
    | inr hqr =>
      have hshorter : ∀ {a b : List α}, a ++ [sep] <+: b ++ [sep] → Under sep a b := by
        intro a b h
        by_cases hlen : (a ++ [sep]).length = (b ++ [sep]).length
        · exact .inl (List.append_cancel_right (h.eq_of_length hlen))
        · have hle := h.length_le
          rw [List.length_append, List.length_append] at hlen hle
          have hb : b <+: b ++ [sep] := List.prefix_append b [sep]
          apply Or.inr
          apply List.prefix_of_prefix_length_le h hb
          rw [List.length_append]
          simp only [List.length_singleton] at hlen hle ⊢
          omega
      cases List.prefix_or_prefix_of_prefix hpr hqr with
      | inl h => exact .inl (hshorter h)
      | inr h => exact .inr (hshorter h)

/-- Overlapping paths have overlapping owners. -/
theorem Overlap.owners {a b : List α} (ha : Under sep a p) (hb : Under sep b q)
    (h : Overlap sep p q) : Overlap sep a b := by
  cases h with
  | inl hpq => exact (ha.trans hpq).overlap hb
  | inr hqp => exact ha.overlap (hb.trans hqp)

end General

/-- Two paths of a repository, one of which is the other or a directory above it. -/
def pathsOverlap (p q : String) : Prop := Overlap '/' p.toList q.toList

instance (p q : String) : Decidable (pathsOverlap p q) :=
  inferInstanceAs (Decidable (Overlap '/' p.toList q.toList))

/-- The path belongs to one of these. -/
def ownedBy (owned : List String) (path : String) : Prop :=
  ∃ owner ∈ owned, Under '/' owner.toList path.toList

instance (owned : List String) (path : String) : Decidable (ownedBy owned path) :=
  inferInstanceAs (Decidable (∃ owner ∈ owned, Under '/' owner.toList path.toList))

theorem ownershipOverlap_iff {left right : List String} :
    Graph.ownershipOverlap left right = true ↔ ∃ l ∈ left, ∃ r ∈ right, pathsOverlap l r := by
  unfold Graph.ownershipOverlap pathsOverlap Overlap Under
  simp only [List.any_eq_true, Bool.or_eq_true, decide_eq_true_eq, List.isPrefixOf_iff_prefix,
    String.toList_inj]
  constructor
  · intro h
    obtain ⟨l, hl, r, hr, h⟩ := h
    refine ⟨l, hl, r, hr, ?_⟩
    tauto
  · intro h
    obtain ⟨l, hl, r, hr, h⟩ := h
    refine ⟨l, hl, r, hr, ?_⟩
    rw [eq_comm (a := r) (b := l)] at h
    tauto

end Operant.MultiWriter
