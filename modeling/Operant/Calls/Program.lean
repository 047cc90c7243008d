import Mathlib.Logic.Relation
import Mathlib.Tactic

/-! Programs that work on a shared store through calls.

A program returns, fails, or makes one call and goes on with the reply. The calls are
the only thing others can see or get in between: each is atomic, what a program does
with the replies is its own. `run` executes a program alone; `Pool` interleaves any
number of them call by call, and lets any of them stop for good after any prefix of
its calls.

Nothing here knows what the calls are. `C` is their type, `R c` the type of the reply
to `c`, `E` what a call or a program can fail with, `W` the world the calls act on. -/
namespace Operant.Calls

/-- What went before a computation that succeeded succeeded. -/
theorem ok_of_bind {E α β : Type} {x : Except E α} {f : α → Except E β} {b : β}
    (h : (x >>= f) = .ok b) : ∃ a, x = .ok a ∧ f a = .ok b := by
  cases x with
  | error e => cases h
  | ok a => exact ⟨a, rfl, h⟩

theorem ok_of_mapError {E E' α : Type} {x : Except E α} {f : E → E'} {a : α}
    (h : x.mapError f = .ok a) : x = .ok a := by
  cases x with
  | error e => cases h
  | ok b => exact congrArg Except.ok (Except.ok.inj h)

/-- What commits has passed its guard. -/
theorem ok_of_guard {E α : Type} {c : Prop} [Decidable c] {e : E} {k : Unit → Except E α} {a : α}
    (h : (if c then (throw e : Except E Unit) >>= k else k ()) = .ok a) : ¬c ∧ k () = .ok a := by
  by_cases hc : c
  · rw [if_pos hc] at h
    exact nomatch h
  · rw [if_neg hc] at h
    exact ⟨hc, h⟩

theorem mapM_ok {E α β : Type} {f : α → Except E β} {xs : List α} {ys : List β}
    (h : xs.mapM f = .ok ys) : List.Forall₂ (fun x y => f x = .ok y) xs ys := by
  induction xs generalizing ys with
  | nil =>
    rw [List.mapM_nil] at h
    cases h
    exact .nil
  | cons x rest ih =>
    rw [List.mapM_cons] at h
    obtain ⟨y, hy, h⟩ := ok_of_bind h
    obtain ⟨others, hrest, h⟩ := ok_of_bind h
    cases h
    exact .cons hy (ih hrest)

theorem mapM_ok_mem {E α β : Type} {f : α → Except E β} {xs : List α} {ys : List β}
    (h : xs.mapM f = .ok ys) {x : α} (hx : x ∈ xs) : ∃ y ∈ ys, f x = .ok y := by
  have hall := mapM_ok h
  clear h
  induction hall with
  | nil => cases hx
  | @cons _ y _ ys hy _ ih =>
    rcases List.mem_cons.mp hx with heq | hx
    · exact ⟨y, List.mem_cons_self .., heq ▸ hy⟩
    · obtain ⟨z, hz, hfz⟩ := ih hx
      exact ⟨z, List.mem_cons_of_mem _ hz, hfz⟩

theorem mapM_ok_of_mem {E α β : Type} {f : α → Except E β} {xs : List α} {ys : List β}
    (h : xs.mapM f = .ok ys) {y : β} (hy : y ∈ ys) : ∃ x ∈ xs, f x = .ok y := by
  have hall := mapM_ok h
  clear h
  induction hall with
  | nil => cases hy
  | @cons x _ xs _ hx _ ih =>
    rcases List.mem_cons.mp hy with heq | hy
    · exact ⟨x, List.mem_cons_self .., heq ▸ hx⟩
    · obtain ⟨z, hz, hfz⟩ := ih hy
      exact ⟨z, List.mem_cons_of_mem _ hz, hfz⟩

inductive Prog (C : Type) (R : C → Type) (E α : Type) where
  | ret (a : α)
  | fail (e : E)
  | call (c : C) (k : R c → Prog C R E α)

namespace Prog
variable {C : Type} {R : C → Type} {E α β γ : Type}

def bind : Prog C R E α → (α → Prog C R E β) → Prog C R E β
  | .ret a, f => f a
  | .fail e, _ => .fail e
  | .call c k, f => .call c fun r => (k r).bind f

instance : Monad (Prog C R E) where
  pure := .ret
  bind := .bind

instance : MonadExcept E (Prog C R E) where
  throw := .fail
  tryCatch p _ := p

/-- One call, its reply returned. -/
def request (c : C) : Prog C R E (R c) := .call c .ret

/-- The outcome of a pure computation. -/
def lift : Except E α → Prog C R E α
  | .ok a => .ret a
  | .error e => .fail e

/-- The program with its failure as a reply. -/
def attempt : Prog C R E α → Prog C R E (Except E α)
  | .ret a => .ret (.ok a)
  | .fail e => .ret (.error e)
  | .call c k => .call c fun r => (k r).attempt

@[simp] theorem pure_eq (a : α) : (pure a : Prog C R E α) = .ret a := rfl
@[simp] theorem throw_eq (e : E) : (throw e : Prog C R E α) = .fail e := rfl
@[simp] theorem ret_bind (a : α) (f : α → Prog C R E β) : (.ret a : Prog C R E α) >>= f = f a := rfl
@[simp] theorem fail_bind (e : E) (f : α → Prog C R E β) :
    (.fail e : Prog C R E α) >>= f = .fail e := rfl
@[simp] theorem call_bind (c : C) (k : R c → Prog C R E α) (f : α → Prog C R E β) :
    (.call c k : Prog C R E α) >>= f = .call c fun r => k r >>= f := rfl
@[simp] theorem request_bind (c : C) (f : R c → Prog C R E β) :
    (request c : Prog C R E (R c)) >>= f = .call c f := rfl

theorem bind_ret (p : Prog C R E α) : p >>= .ret = p := by
  induction p with
  | ret a => rfl
  | fail e => rfl
  | call c k ih =>
    rw [call_bind]
    congr 1
    funext r
    exact ih r

theorem bind_assoc (p : Prog C R E α) (f : α → Prog C R E β) (g : β → Prog C R E γ) :
    p >>= f >>= g = p >>= fun a => f a >>= g := by
  induction p with
  | ret a => rfl
  | fail e => rfl
  | call c k ih =>
    simp only [call_bind]
    congr 1
    funext r
    exact ih r

instance : LawfulMonad (Prog C R E) :=
  LawfulMonad.mk' _ (fun p => bind_ret p) (fun _ _ => rfl) bind_assoc

/-- A failure that is kept and then raised is the failure. -/
theorem attempt_lift (p : Prog C R E α) : (p.attempt >>= lift) = p := by
  induction p with
  | ret a => rfl
  | fail e => rfl
  | call c k ih =>
    show Prog.call c (fun r => (k r).attempt >>= lift) = Prog.call c k
    congr 1
    funext r
    exact ih r

/-! ### Alone -/

variable {W : Type}

/-- What a call replies and leaves, or why it fails, leaving everything as it was. -/
abbrev Exec (C : Type) (R : C → Type) (E W : Type) := (c : C) → W → Except E (R c × W)

/-- The program executed with nobody in between. -/
def run (exec : Exec C R E W) : Prog C R E α → W → Except E α × W
  | .ret a, w => (.ok a, w)
  | .fail e, w => (.error e, w)
  | .call c k, w => match exec c w with
    | .ok (r, w') => (k r).run exec w'
    | .error e => (.error e, w)

theorem run_bind (exec : Exec C R E W) (p : Prog C R E α) (f : α → Prog C R E β) (w : W) :
    (p >>= f).run exec w = match p.run exec w with
      | (.ok a, w') => (f a).run exec w'
      | (.error e, w') => (.error e, w') := by
  induction p generalizing w with
  | ret a => rfl
  | fail e => rfl
  | call c k ih =>
    simp only [call_bind, run]
    cases exec c w with
    | error e => rfl
    | ok reply => exact ih reply.1 reply.2

/-- A program that returns has returned from its first part. -/
theorem run_bind_ok {exec : Exec C R E W} {p : Prog C R E α} {f : α → Prog C R E β} {w w' : W} {b : β}
    (h : (p >>= f).run exec w = (.ok b, w')) :
    ∃ a w₁, p.run exec w = (.ok a, w₁) ∧ (f a).run exec w₁ = (.ok b, w') := by
  rw [run_bind] at h
  split at h
  · rename_i a w₁ hp
    exact ⟨a, w₁, hp, h⟩
  · cases h

/-- The first part of a program does its work, and the rest goes on from there. -/
theorem run_of_bind {exec : Exec C R E W} {p : Prog C R E α} {f : α → Prog C R E β} {w w₁ : W} {a : α}
    (h : p.run exec w = (.ok a, w₁)) : (p >>= f).run exec w = (f a).run exec w₁ := by
  rw [run_bind, h]

theorem run_request {exec : Exec C R E W} {c : C} {w w' : W} {r : R c} (h : exec c w = .ok (r, w')) :
    (request c : Prog C R E (R c)).run exec w = (.ok r, w') := by
  simp only [request, run, h]

theorem run_request_ok {exec : Exec C R E W} {c : C} {w w' : W} {r : R c}
    (h : (request c : Prog C R E (R c)).run exec w = (.ok r, w')) : exec c w = .ok (r, w') := by
  simp only [request, run] at h
  cases hexec : exec c w with
  | error e =>
    rw [hexec] at h
    cases h
  | ok reply =>
    rw [hexec] at h
    cases h
    rfl

theorem run_lift_ok {exec : Exec C R E W} {x : Except E α} {w w' : W} {a : α}
    (h : (lift x : Prog C R E α).run exec w = (.ok a, w')) : x = .ok a ∧ w' = w := by
  cases x with
  | error e => cases h
  | ok b =>
    cases h
    exact ⟨rfl, rfl⟩

end Prog
end Operant.Calls
