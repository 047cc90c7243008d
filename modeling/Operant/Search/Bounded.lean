import Mathlib.Logic.Relation
import Mathlib.Data.List.Chain

/-! Relations whose chains are bounded.

`Within R n a`: no chain of `R` that starts at `a` has more than `n` elements. Nothing that
such an `a` leads to lies on a cycle. -/
namespace Operant.Search
open Relation
variable {α : Type} {R : α → α → Prop}

def Within (R : α → α → Prop) : Nat → α → Prop
  | 0, _ => False
  | n + 1, a => ∀ b, R a b → Within R n b

theorem Within.mono {n m : Nat} (hle : n ≤ m) {a : α} (h : Within R n a) : Within R m a := by
  induction n generalizing m a with
  | zero => exact h.elim
  | succ n ih =>
    obtain ⟨m, rfl⟩ := Nat.exists_eq_add_of_le' (show 1 ≤ m by omega)
    exact fun b hab => ih (by omega) (h b hab)

theorem Within.step {n : Nat} {a b : α} (h : Within R n a) (hab : R a b) : Within R n b := by
  cases n with
  | zero => exact h
  | succ n => exact (h b hab).mono (Nat.le_succ n)

theorem Within.reached {n : Nat} {a b : α} (h : Within R n a) (hab : ReflTransGen R a b) :
    Within R n b := by
  induction hab with
  | refl => exact h
  | tail _ hbc ih => exact ih.step hbc

theorem Within.acyclic {n : Nat} {a : α} (h : Within R n a) : ¬TransGen R a a := by
  induction n generalizing a with
  | zero => exact h.elim
  | succ n ih =>
    intro hcycle
    obtain ⟨b, hab, hba⟩ := TransGen.head'_iff.mp hcycle
    exact ih (h b hab) (TransGen.tail' hba hab)

theorem Within.length_lt {n : Nat} {a : α} (h : Within R n a) {path : List α}
    (hpath : List.IsChain R (a :: path)) : path.length < n := by
  induction n generalizing a path with
  | zero => exact h.elim
  | succ n ih =>
    cases path with
    | nil => exact Nat.succ_pos n
    | cons b path =>
      obtain ⟨hab, hrest⟩ := List.isChain_cons_cons.mp hpath
      exact Nat.succ_lt_succ (ih (h b hab) hrest)

end Operant.Search
