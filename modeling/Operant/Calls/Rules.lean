import Operant.Calls.Program

/-! Rely and guarantee.

`Rules` fixes what all programs keep (`inv`), what others may do between two calls of
one program (`rely`) and which calls are assumed not to happen in a bad moment
(`allowed`). `Holds` says that a program, whatever others do in between, keeps the
invariant and the others' assumption with every call and ends with its postcondition:
`Q` where it returns, `X` where it fails. With nobody in between, `rely` is equality and
`Holds` is an ordinary precondition. -/
namespace Operant.Calls

structure Rules (C : Type) (R : C → Type) (E W : Type) where
  exec : Prog.Exec C R E W
  inv : W → Prop
  rely : W → W → Prop
  allowed : C → W → Prop
  refl : ∀ w, rely w w
  trans : ∀ {a b c}, rely a b → rely b c → rely a c

namespace Prog
variable {C : Type} {R : C → Type} {E W α β : Type}

def Holds (L : Rules C R E W) : Prog C R E α → (α → W → Prop) → (E → W → Prop) → W → Prop
  | .ret a, Q, _, w => Q a w
  | .fail e, _, X, w => X e w
  | .call c k, Q, X, w => ∀ w', L.rely w w' → L.inv w' → L.allowed c w' →
    match L.exec c w' with
    | .ok (r, w'') => L.inv w'' ∧ L.rely w' w'' ∧ (k r).Holds L Q X w''
    | .error e => X e w'

variable {L : Rules C R E W} {Q Q' : α → W → Prop} {X X' : E → W → Prop}

@[simp] theorem holds_ret (a : α) (w : W) : (.ret a : Prog C R E α).Holds L Q X w ↔ Q a w := Iff.rfl
@[simp] theorem holds_fail (e : E) (w : W) :
    (.fail e : Prog C R E α).Holds L Q X w ↔ X e w := Iff.rfl

theorem holds_call {c : C} {k : R c → Prog C R E α} {w : W}
    (h : ∀ w', L.rely w w' → L.inv w' → L.allowed c w' →
      match L.exec c w' with
      | .ok (r, w'') => L.inv w'' ∧ L.rely w' w'' ∧ (k r).Holds L Q X w''
      | .error e => X e w') : (Prog.call c k).Holds L Q X w := h

/-- A weaker postcondition, compared only where the program can end. -/
theorem Holds.mono {p : Prog C R E α} {w : W} (h : p.Holds L Q X w)
    (hQ : ∀ a w', L.rely w w' → Q a w' → Q' a w') (hX : ∀ e w', L.rely w w' → X e w' → X' e w') :
    p.Holds L Q' X' w := by
  induction p generalizing w with
  | ret a => exact hQ a w (L.refl w) h
  | fail e => exact hX e w (L.refl w) h
  | call c k ih =>
    intro w' hr hi ha
    have h' := h w' hr hi ha
    cases he : L.exec c w' with
    | error e =>
      rw [he] at h'
      exact hX e w' hr h'
    | ok reply =>
      rw [he] at h'
      obtain ⟨hi', hr', hk⟩ := h'
      exact ⟨hi', hr', ih reply.1 hk (fun a w'' h'' => hQ a w'' (L.trans hr (L.trans hr' h'')))
        (fun e w'' h'' => hX e w'' (L.trans hr (L.trans hr' h'')))⟩

/-- Sequencing: the first program ends where the second one holds. -/
theorem Holds.bind {p : Prog C R E α} {f : α → Prog C R E β} {Q : β → W → Prop} {w : W}
    (h : p.Holds L (fun a w' => (f a).Holds L Q X w') X w) : (p >>= f).Holds L Q X w := by
  induction p generalizing w with
  | ret a => exact h
  | fail e => exact h
  | call c k ih =>
    intro w' hr hi ha
    have h' := h w' hr hi ha
    cases he : L.exec c w' with
    | error e =>
      rw [he] at h'
      exact h'
    | ok reply =>
      rw [he] at h'
      exact ⟨h'.1, h'.2.1, ih reply.1 h'.2.2⟩

/-- What others cannot undo still holds at the end. -/
theorem Holds.frame {p : Prog C R E α} {w : W} {F : W → Prop} (h : p.Holds L Q X w)
    (hF : ∀ w', L.rely w w' → F w') :
    p.Holds L (fun a w' => Q a w' ∧ F w') (fun e w' => X e w' ∧ F w') w :=
  h.mono (fun _ w' hr hq => ⟨hq, hF w' hr⟩) (fun _ w' hr hx => ⟨hx, hF w' hr⟩)

theorem holds_lift {x : Except E α} {w : W} (hok : ∀ a, x = .ok a → Q a w)
    (herr : ∀ e, x = .error e → X e w) : (lift x : Prog C R E α).Holds L Q X w := by
  cases x with
  | ok a => exact hok a rfl
  | error e => exact herr e rfl

end Prog
end Operant.Calls
