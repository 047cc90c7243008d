import Operant.Calls.Rules

/-! Programs interleaved call by call.

A pool is a world and the programs under way, each with the task it was started for.
A move starts a task, lets one program make its next call (or end), or cuts one off
for good. A run is a list of moves, so a run can be played. -/
namespace Operant.Calls

inductive Move (T : Type) where
  | start (task : T)
  | step (thread : Nat)
  | crash (thread : Nat)
  deriving DecidableEq

def Move.isCrash {T : Type} : Move T → Bool
  | .crash _ => true
  | .start _ | .step _ => false

/-- A system of tasks: their programs, and what is noted when one returns. -/
structure System (C : Type) (R : C → Type) (E W T A : Type) where
  exec : Prog.Exec C R E W
  code : T → Prog C R E A
  note : T → A → W → W

structure Pool (C : Type) (R : C → Type) (E W T A : Type) where
  world : W
  threads : List (T × Prog C R E A) := []

namespace Pool
variable {C : Type} {R : C → Type} {E W T A : Type} (S : System C R E W T A)

def move (p : Pool C R E W T A) : Move T → Pool C R E W T A
  | .start task => { p with threads := p.threads ++ [(task, S.code task)] }
  | .crash i => { p with threads := p.threads.eraseIdx i }
  | .step i => match p.threads[i]? with
    | none => p
    | some (task, .ret a) => { world := S.note task a p.world, threads := p.threads.eraseIdx i }
    | some (_, .fail _) => { p with threads := p.threads.eraseIdx i }
    | some (task, .call c k) => match S.exec c p.world with
      | .ok (r, w) => { world := w, threads := p.threads.set i (task, k r) }
      | .error e => { p with threads := p.threads.set i (task, .fail e) }

def play (p : Pool C R E W T A) (moves : List (Move T)) : Pool C R E W T A :=
  moves.foldl (move S) p

/-- The call a move makes, if it makes one, meets `allowed`. -/
def Allows (allowed : C → W → Prop) (p : Pool C R E W T A) : Move T → Prop
  | .step i => match p.threads[i]? with
    | some (_, .call c _) => allowed c p.world
    | _ => True
  | _ => True

/-- Every call of the run meets `allowed`. -/
def Meets (allowed : C → W → Prop) : Pool C R E W T A → List (Move T) → Prop
  | _, [] => True
  | p, m :: rest => Allows allowed p m ∧ Meets allowed (move S p m) rest

instance {allowed : C → W → Prop} [∀ c w, Decidable (allowed c w)] (p : Pool C R E W T A) :
    (m : Move T) → Decidable (Allows allowed p m)
  | .start _ => .isTrue trivial
  | .crash _ => .isTrue trivial
  | .step i => match h : p.threads[i]? with
    | none => .isTrue (by simp [Allows, h])
    | some (_, .ret _) => .isTrue (by simp [Allows, h])
    | some (_, .fail _) => .isTrue (by simp [Allows, h])
    | some (_, .call c _) => decidable_of_iff (allowed c p.world) (by simp [Allows, h])

instance decidableMeets {allowed : C → W → Prop} [∀ c w, Decidable (allowed c w)] :
    (p : Pool C R E W T A) → (moves : List (Move T)) → Decidable (Meets S allowed p moves)
  | _, [] => .isTrue trivial
  | p, m :: rest => @instDecidableAnd _ _ (inferInstanceAs (Decidable (Allows allowed p m)))
      (decidableMeets (move S p m) rest)

@[simp] theorem play_nil (p : Pool C R E W T A) : play S p [] = p := rfl
@[simp] theorem play_cons (p : Pool C R E W T A) (m : Move T) (rest : List (Move T)) :
    play S p (m :: rest) = play S (move S p m) rest := rfl

theorem play_append (p : Pool C R E W T A) (ms ns : List (Move T)) :
    play S p (ms ++ ns) = play S (play S p ms) ns := List.foldl_append

theorem meets_append (allowed : C → W → Prop) (p : Pool C R E W T A) (ms ns : List (Move T)) :
    Meets S allowed p (ms ++ ns) ↔ Meets S allowed p ms ∧ Meets S allowed (play S p ms) ns := by
  induction ms generalizing p with
  | nil => simp [Meets]
  | cons m ms ih => simp only [List.cons_append, Meets, ih, play_cons, and_assoc]

theorem Meets.imp {allowed allowed' : C → W → Prop} (h : ∀ c w, allowed c w → allowed' c w)
    {p : Pool C R E W T A} {ms : List (Move T)} (hm : Meets S allowed p ms) : Meets S allowed' p ms := by
  induction ms generalizing p with
  | nil => trivial
  | cons m rest ih =>
    refine ⟨?_, ih hm.2⟩
    have hfirst := hm.1
    cases m with
    | start | crash => trivial
    | step i =>
      unfold Allows at hfirst ⊢
      dsimp only at hfirst ⊢
      split at hfirst
      · exact h _ _ hfirst
      · trivial

/-- Nothing is asked of the calls. -/
theorem meets_all {allowed : C → W → Prop} (h : ∀ c w, allowed c w) (p : Pool C R E W T A)
    (ms : List (Move T)) : Meets S allowed p ms := by
  induction ms generalizing p with
  | nil => trivial
  | cons m rest ih =>
    refine ⟨?_, ih _⟩
    cases m with
    | start | crash => trivial
    | step i =>
      show match p.threads[i]? with
        | some (_, .call c _) => allowed c p.world
        | _ => True
      split
      · exact h _ _
      · trivial

/-! ### The invariant of a run -/

variable {S} (L : Rules C R E W) (Q : T → A → W → Prop)

/-- The world is good, and every program under way held when it last did something. -/
structure Good (p : Pool C R E W T A) : Prop where
  inv : L.inv p.world
  threads : ∀ thread ∈ p.threads, ∃ w, L.rely w p.world ∧
    thread.2.Holds L (Q thread.1) (fun _ _ => True) w

/-- The tasks of `S` keep the rules `L`: each holds where it starts, and noting that
one returned keeps the invariant. -/
structure Sound (S : System C R E W T A) : Prop where
  exec : S.exec = L.exec
  code : ∀ task w, L.inv w → (S.code task).Holds L (Q task) (fun _ _ => True) w
  note : ∀ task a w w', Q task a w → L.rely w w' → L.inv w' →
    L.inv (S.note task a w') ∧ L.rely w' (S.note task a w')

variable {L Q}

theorem Good.later {p : Pool C R E W T A} (h : Good L Q p) {w : W} (hi : L.inv w)
    (hr : L.rely p.world w) {ts : List (T × Prog C R E A)} (hsub : ∀ t ∈ ts, t ∈ p.threads) :
    Good L Q { world := w, threads := ts } := by
  refine ⟨hi, fun t ht => ?_⟩
  obtain ⟨w₀, hr₀, hh⟩ := h.threads t (hsub t ht)
  exact ⟨w₀, L.trans hr₀ hr, hh⟩

/-- One move. -/
theorem Good.move {p : Pool C R E W T A} (hS : Sound L Q S) (h : Good L Q p) (m : Move T)
    (hm : Allows L.allowed p m) :
    Good L Q (p.move S m) ∧ L.rely p.world (p.move S m).world := by
  cases m with
  | start task =>
    refine ⟨⟨h.inv, fun t ht => ?_⟩, L.refl _⟩
    rcases List.mem_append.mp ht with ht | ht
    · exact h.threads t ht
    · rw [List.mem_singleton] at ht
      subst ht
      exact ⟨p.world, L.refl _, hS.code task _ h.inv⟩
  | crash i =>
    exact ⟨h.later h.inv (L.refl _) fun t ht => List.mem_of_mem_eraseIdx ht, L.refl _⟩
  | step i =>
    cases ht : p.threads[i]? with
    | none => simp only [Pool.move, ht]; exact ⟨h, L.refl _⟩
    | some thread =>
      obtain ⟨task, prog⟩ := thread
      have hmem : (task, prog) ∈ p.threads := List.mem_of_getElem? ht
      obtain ⟨w₀, hr₀, hh⟩ := h.threads _ hmem
      cases prog with
      | ret a =>
        simp only [Pool.move, ht]
        obtain ⟨hi, hr⟩ := hS.note task a w₀ p.world hh hr₀ h.inv
        exact ⟨h.later hi hr fun t ht => List.mem_of_mem_eraseIdx ht, hr⟩
      | fail e =>
        simp only [Pool.move, ht]
        exact ⟨h.later h.inv (L.refl _) fun t ht => List.mem_of_mem_eraseIdx ht, L.refl _⟩
      | call c k =>
        simp only [Pool.move, ht, hS.exec]
        simp only [Allows, ht] at hm
        have hk := hh p.world hr₀ h.inv hm
        cases he : L.exec c p.world with
        | error e =>
          refine ⟨⟨h.inv, fun t ht' => ?_⟩, L.refl _⟩
          rcases List.mem_or_eq_of_mem_set ht' with ht' | rfl
          · exact h.threads t ht'
          · exact ⟨p.world, L.refl _, trivial⟩
        | ok reply =>
          obtain ⟨r, w⟩ := reply
          rw [he] at hk
          refine ⟨⟨hk.1, fun t ht' => ?_⟩, hk.2.1⟩
          rcases List.mem_or_eq_of_mem_set ht' with ht' | rfl
          · obtain ⟨w₁, hr₁, hh₁⟩ := h.threads t ht'
            exact ⟨w₁, L.trans hr₁ hk.2.1, hh₁⟩
          · exact ⟨w, L.refl _, hk.2.2⟩

/-- Whole runs: the invariant holds at the end, and the end is what others rely on. -/
theorem Good.play {p : Pool C R E W T A} (hS : Sound L Q S) (h : Good L Q p) (ms : List (Move T))
    (hm : Meets S L.allowed p ms) :
    Good L Q (p.play S ms) ∧ L.rely p.world (p.play S ms).world := by
  induction ms generalizing p with
  | nil => exact ⟨h, L.refl _⟩
  | cons m rest ih =>
    obtain ⟨hg, hr⟩ := h.move hS m hm.1
    obtain ⟨hg', hr'⟩ := ih hg hm.2
    exact ⟨hg', L.trans hr hr'⟩

/-- A pool in which nothing has been started. -/
theorem Good.init {w : W} (hi : L.inv w) : Good L Q ({ world := w } : Pool C R E W T A) :=
  ⟨hi, fun _ ht => absurd ht (by simp)⟩

end Pool
end Operant.Calls
