import Operant.Calls.Program

/-! Programs whose calls come in phases.

`next q c` is the phase after a call `c` made in the phase `q`; a call that must not be
made there has none. What each call keeps, whatever phase it is made in, a program that
follows the phases keeps. -/
namespace Operant.Calls.Prog
variable {C : Type} {R : C → Type} {E α β Q : Type}

/-- Every call the program can make is one of these. -/
def All (P : C → Prop) : Prog C R E α → Prop
  | .ret _ => True
  | .fail _ => True
  | .call c k => P c ∧ ∀ r, (k r).All P

theorem all_of_forall {P : C → Prop} (h : ∀ c, P c) (p : Prog C R E α) : p.All P := by
  induction p with
  | ret a => trivial
  | fail e => trivial
  | call c k ih => exact ⟨h c, ih⟩

theorem All.mono {P P' : C → Prop} (h : ∀ c, P c → P' c) {p : Prog C R E α} (hp : p.All P) :
    p.All P' := by
  induction p with
  | ret a => trivial
  | fail e => trivial
  | call c k ih => exact ⟨h c hp.1, fun r => ih r (hp.2 r)⟩

theorem All.bind {P : C → Prop} {p : Prog C R E α} {f : α → Prog C R E β} (hp : p.All P)
    (hf : ∀ a, (f a).All P) : (p >>= f).All P := by
  induction p with
  | ret a => exact hf a
  | fail e => trivial
  | call c k ih => exact ⟨hp.1, fun r => ih r (hp.2 r)⟩

theorem All.ite {P : C → Prop} {c : Prop} [Decidable c] {p q : Prog C R E α} (hp : p.All P)
    (hq : q.All P) : (if c then p else q).All P := by
  split
  · exact hp
  · exact hq

theorem All.lift {P : C → Prop} {x : Except E β} {f : β → Prog C R E α} (h : ∀ a, (f a).All P) :
    (Prog.lift x >>= f).All P := by
  cases x with
  | ok a => exact h a
  | error e => trivial

/-- Every call the program can make is made in a phase that allows it. -/
def Follows (next : Q → C → Option Q) : Q → Prog C R E α → Prop
  | _, .ret _ => True
  | _, .fail _ => True
  | q, .call c k => ∃ q', next q c = some q' ∧ ∀ r, (k r).Follows next q'

namespace Follows
variable {next : Q → C → Option Q} {q : Q}

/-- A program that never leaves a phase. -/
theorem of_all {p : Prog C R E α} (h : p.All fun c => next q c = some q) : p.Follows next q := by
  induction p with
  | ret a => trivial
  | fail e => trivial
  | call c k ih => exact ⟨q, h.1, fun r => ih r (h.2 r)⟩

theorem bind_all {p : Prog C R E α} {f : α → Prog C R E β}
    (hp : p.All fun c => next q c = some q) (hf : ∀ a, (f a).Follows next q) :
    (p >>= f).Follows next q := by
  induction p with
  | ret a => exact hf a
  | fail e => trivial
  | call c k ih => exact ⟨q, hp.1, fun r => ih r (hp.2 r)⟩

/-- Nothing is called after the program. -/
theorem map {p : Prog C R E α} {f : α → β} (hp : p.Follows next q) :
    (p >>= fun a => .ret (f a)).Follows next q := by
  induction p generalizing q with
  | ret a => trivial
  | fail e => trivial
  | call c k ih =>
    obtain ⟨q', hq, hk⟩ := hp
    exact ⟨q', hq, fun r => ih r (hk r)⟩

theorem ite {c : Prop} [Decidable c] {p p' : Prog C R E α} (hp : p.Follows next q)
    (hp' : p'.Follows next q) : (if c then p else p').Follows next q := by
  split
  · exact hp
  · exact hp'

theorem lift {x : Except E β} {f : β → Prog C R E α} (h : ∀ a, (f a).Follows next q) :
    (Prog.lift x >>= f).Follows next q := by
  cases x with
  | ok a => exact h a
  | error e => trivial

end Follows
end Operant.Calls.Prog
