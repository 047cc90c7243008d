import Operant.Calls.Pool

/-! Rely and guarantee, with tickets.

In `Rules` all programs rely on the same. Here a program may own a ticket, and then relies
on more: that nobody else does what is for the owner of that ticket to do. A ticket is
issued by a call whose reply only one program gets, and no ticket is issued twice, so
two programs never own the same. `HoldsAs` says of a program with a ticket (or none) what
`Holds` says of one without. -/
namespace Operant.Calls

structure OwnerRules (C : Type) (R : C → Type) (E W K : Type) where
  exec : Prog.Exec C R E W
  inv : W → Prop
  issued : K → W → Prop
  rely : Option K → W → W → Prop
  allowed : C → W → Prop
  refl : ∀ k w, rely k w w
  trans : ∀ {k a b c}, rely k a b → rely k b c → rely k a c
  keep : ∀ {k t a b}, rely k a b → issued t a → issued t b

namespace OwnerRules
variable {C : Type} {R : C → Type} {E W K : Type} (L : OwnerRules C R E W K)

/-- What the owner of `k` does to the world, and to everybody else who owns something. -/
structure Step (k : Option K) (w w' : W) (k' : Option K) : Prop where
  inv : L.inv w'
  others : ∀ other, (∀ t, other = some t → k ≠ some t ∧ L.issued t w) → L.rely other w w'
  ticket : k' = k ∨ k' = none ∨ ∃ t, k' = some t ∧ ¬L.issued t w ∧ L.issued t w'

variable {L}

/-- Ending is a step that changes nothing. -/
theorem Step.idle {k : Option K} {w : W} (hi : L.inv w) : L.Step k w w none :=
  ⟨hi, fun _ _ => L.refl _ _, .inr (.inl rfl)⟩

end OwnerRules

namespace Prog
variable {C : Type} {R : C → Type} {E W K α β : Type}

def HoldsAs (L : OwnerRules C R E W K) :
    Option K → Prog C R E α → (Option K → α → W → Prop) → (Option K → E → W → Prop) → W → Prop
  | k, .ret a, Q, _, w => Q k a w
  | k, .fail e, _, X, w => X k e w
  | k, .call c f, Q, X, w => ∀ w', L.rely k w w' → L.inv w' → L.allowed c w' →
    match L.exec c w' with
    | .ok (r, w'') => ∃ k', L.Step k w' w'' k' ∧ (f r).HoldsAs L k' Q X w''
    | .error e => X k e w'

variable {L : OwnerRules C R E W K} {k : Option K} {Q Q' : Option K → α → W → Prop}
  {X X' : Option K → E → W → Prop}

theorem holdsAs_call {c : C} {f : R c → Prog C R E α} {w : W}
    (h : ∀ w', L.rely k w w' → L.inv w' → L.allowed c w' →
      match L.exec c w' with
      | .ok (r, w'') => ∃ k', L.Step k w' w'' k' ∧ (f r).HoldsAs L k' Q X w''
      | .error e => X k e w') : (Prog.call c f).HoldsAs L k Q X w := h

theorem HoldsAs.mono {p : Prog C R E α} {w : W} (h : p.HoldsAs L k Q X w)
    (hQ : ∀ k a w', Q k a w' → Q' k a w') (hX : ∀ k e w', X k e w' → X' k e w') :
    p.HoldsAs L k Q' X' w := by
  induction p generalizing k w with
  | ret a => exact hQ k a w h
  | fail e => exact hX k e w h
  | call c f ih =>
    intro w' hr hi ha
    have h' := h w' hr hi ha
    cases he : L.exec c w' with
    | error e =>
      rw [he] at h'
      exact hX k e w' h'
    | ok reply =>
      rw [he] at h'
      obtain ⟨k', hstep, hk⟩ := h'
      exact ⟨k', hstep, ih reply.1 hk⟩

/-- Sequencing: the first program ends where the second one holds. -/
theorem HoldsAs.bind {p : Prog C R E α} {f : α → Prog C R E β} {Q : Option K → β → W → Prop} {w : W}
    (h : p.HoldsAs L k (fun k a w' => (f a).HoldsAs L k Q X w') X w) :
    (p >>= f).HoldsAs L k Q X w := by
  induction p generalizing k w with
  | ret a => exact h
  | fail e => exact h
  | call c g ih =>
    intro w' hr hi ha
    have h' := h w' hr hi ha
    cases he : L.exec c w' with
    | error e =>
      rw [he] at h'
      exact h'
    | ok reply =>
      rw [he] at h'
      obtain ⟨k', hstep, hk⟩ := h'
      exact ⟨k', hstep, ih reply.1 hk⟩

theorem holdsAs_lift {x : Except E α} {w : W} (hok : ∀ a, x = .ok a → Q k a w)
    (herr : ∀ e, x = .error e → X k e w) : (lift x : Prog C R E α).HoldsAs L k Q X w := by
  cases x with
  | ok a => exact hok a rfl
  | error e => exact herr e rfl

/-- A call that does not fail by itself, and whose reply may be an exception, which is
raised. -/
theorem holdsAs_ask {R : C → Type} {L : OwnerRules C (fun c => Except E (R c)) E W K} {c : C}
    (answer : W → Except E (R c) × W) (hexec : ∀ w, L.exec c w = .ok (answer w))
    {Q : Option K → R c → W → Prop} {w : W}
    (h : ∀ w', L.rely k w w' → L.inv w' → L.allowed c w' →
      ∃ k', L.Step k w' (answer w').2 k' ∧
        (∀ a, (answer w').1 = .ok a → Q k' a (answer w').2) ∧
        ∀ e, (answer w').1 = .error e → X k' e (answer w').2) :
    (Prog.call c (lift : _ → Prog C (fun c => Except E (R c)) E (R c))).HoldsAs L k Q X w := by
  apply holdsAs_call
  intro w' hr hi ha
  rw [hexec w']
  obtain ⟨k', hstep, hok, herror⟩ := h w' hr hi ha
  exact ⟨k', hstep, holdsAs_lift hok herror⟩

/-- What nobody can undo still holds at the end. -/
theorem HoldsAs.frame (hweak : ∀ {k a b}, L.rely k a b → L.rely none a b) {F : W → Prop}
    (hF : ∀ a b, L.rely none a b → F a → F b) {p : Prog C R E α} {w : W} (hw : F w)
    (h : p.HoldsAs L k Q X w) :
    p.HoldsAs L k (fun k a w' => Q k a w' ∧ F w') (fun k e w' => X k e w' ∧ F w') w := by
  induction p generalizing k w with
  | ret a => exact ⟨h, hw⟩
  | fail e => exact ⟨h, hw⟩
  | call c f ih =>
    intro w' hr hi ha
    have h' := h w' hr hi ha
    have hw' := hF w w' (hweak hr) hw
    cases he : L.exec c w' with
    | error e =>
      rw [he] at h'
      exact ⟨h', hw'⟩
    | ok reply =>
      rw [he] at h'
      obtain ⟨k', hstep, hk⟩ := h'
      have hnobody : L.rely none w' reply.2 := hstep.others none fun _ hn => nomatch hn
      exact ⟨k', hstep, ih reply.1 (hF w' reply.2 hnobody hw') hk⟩

/-- The end comes later, for somebody who owns nothing. -/
theorem HoldsAs.later (hweak : ∀ {k a b}, L.rely k a b → L.rely none a b) {p : Prog C R E α} {w : W}
    (h : p.HoldsAs L k Q X w) :
    p.HoldsAs L k (fun k a w' => Q k a w' ∧ L.rely none w w')
      (fun k e w' => X k e w' ∧ L.rely none w w') w :=
  h.frame hweak (F := L.rely none w) (fun _ _ hab ha => L.trans ha hab) (L.refl none w)

/-- A loop that collects what its rounds return, each of which is known to stay true. -/
theorem HoldsAs.mapM (hweak : ∀ {k a b}, L.rely k a b → L.rely none a b) {γ : Type}
    {f : γ → Prog C R E β} {P : γ → β → W → Prop}
    (hP : ∀ c b w w', L.rely none w w' → P c b w → P c b w') {l : List γ} {w : W}
    (hround : ∀ c ∈ l, ∀ w', L.rely none w w' →
      (f c).HoldsAs L k (fun k' b w'' => k' = k ∧ P c b w'') X w') :
    (l.mapM f).HoldsAs L k
      (fun k' bs w' => k' = k ∧ List.Forall₂ (fun c b => P c b w') l bs) X w := by
  induction l generalizing w with
  | nil =>
    rw [List.mapM_nil]
    exact ⟨rfl, .nil⟩
  | cons c rest ih =>
    rw [List.mapM_cons]
    apply HoldsAs.bind
    have hfirst := (hround c (List.mem_cons_self ..) w (L.refl none w)).later hweak
    apply hfirst.mono ?_ fun _ _ _ h => h.1
    intro k' b w' h
    obtain ⟨⟨rfl, hb⟩, hr⟩ := h
    apply HoldsAs.bind
    have hrest := (ih fun d hd w'' hr' =>
      hround d (List.mem_cons_of_mem _ hd) w'' (L.trans hr hr')).frame hweak
      (F := P c b) (fun _ _ hab => hP c b _ _ hab) hb
    apply hrest.mono ?_ fun _ _ _ h => h.1
    intro k' bs w'' h
    exact ⟨h.1.1, .cons h.2 h.1.2⟩

/-- A program whose failure is handed on, where calls do not fail by themselves. -/
theorem HoldsAs.attempt (hexec : ∀ c w e, L.exec c w ≠ .error e) {p : Prog C R E α}
    {Q : Option K → Except E α → W → Prop} {w : W}
    (h : p.HoldsAs L k (fun k a w' => Q k (.ok a) w') (fun k e w' => Q k (.error e) w') w) :
    p.attempt.HoldsAs L k Q X w := by
  induction p generalizing k w with
  | ret a => exact h
  | fail e => exact h
  | call c f ih =>
    intro w' hr hi ha
    have h' := h w' hr hi ha
    cases he : L.exec c w' with
    | error e => exact absurd he (hexec c w' e)
    | ok reply =>
      rw [he] at h'
      obtain ⟨k', hstep, hk⟩ := h'
      exact ⟨k', hstep, ih reply.1 hk⟩

end Prog

/-! ### Pools of owners -/

namespace Pool
variable {C : Type} {R : C → Type} {E W K T A : Type} {S : System C R E W T A}
  (L : OwnerRules C R E W K) (Q : T → Option K → A → W → Prop)

/-- The tickets of the programs under way: no two own the same, and each holds since it last
did something. -/
structure Owns (p : Pool C R E W T A) (ks : List (Option K)) : Prop where
  inv : L.inv p.world
  length : ks.length = p.threads.length
  distinct : ∀ (i j : Nat) (t : K), ks[i]? = some (some t) → ks[j]? = some (some t) → i = j
  issued : ∀ (i : Nat) (t : K), ks[i]? = some (some t) → L.issued t p.world
  threads : ∀ (i : Nat) (k : Option K) (thread : T × Prog C R E A), ks[i]? = some k →
    p.threads[i]? = some thread →
    ∃ w, L.rely k w p.world ∧ thread.2.HoldsAs L k (Q thread.1) (fun _ _ _ => True) w

/-- The tasks of `S` keep the rules `L`. -/
structure OwnersSound (S : System C R E W T A) : Prop where
  exec : S.exec = L.exec
  code : ∀ task w, L.inv w → (S.code task).HoldsAs L none (Q task) (fun _ _ _ => True) w
  note : ∀ task k a w w', Q task k a w → L.rely k w w' → L.inv w' →
    L.Step k w' (S.note task a w') none

variable {L Q} {p : Pool C R E W T A} {ks : List (Option K)}

theorem getElem?_eraseIdx_lift {α : Type} {l : List α} {i j : Nat} {a : α}
    (h : (l.eraseIdx i)[j]? = some a) : ∃ m, l[m]? = some a ∧ (m = if j < i then j else j + 1) := by
  rw [List.getElem?_eraseIdx] at h
  split at h
  · exact ⟨j, h, by simp [*]⟩
  · exact ⟨j + 1, h, by simp [*]⟩

/-- What a step of one owner leaves for another. -/
theorem Owns.other (h : Owns L Q p ks) {i j : Nat} {k k' kj : Option K} {w : W} (hne : j ≠ i)
    (hi : ks[i]? = some k) (hstep : L.Step k p.world w k') (hj : ks[j]? = some kj) :
    L.rely kj p.world w := by
  apply hstep.others
  intro t ht
  rw [ht] at hj
  refine ⟨fun hk => ?_, h.issued j t hj⟩
  rw [hk] at hi
  exact hne (h.distinct j i t hj hi)

/-- One program ends, whatever it owned. -/
theorem Owns.ended (h : Owns L Q p ks) {i : Nat} {k k' : Option K} {w : W} (hi : ks[i]? = some k)
    (hstep : L.Step k p.world w k') :
    Owns L Q { world := w, threads := p.threads.eraseIdx i } (ks.eraseIdx i) := by
  refine ⟨hstep.inv, ?_, ?_, ?_, ?_⟩
  · rw [List.length_eraseIdx, List.length_eraseIdx, h.length]
  · intro a b t ha hb
    obtain ⟨a', ha', hae⟩ := getElem?_eraseIdx_lift ha
    obtain ⟨b', hb', hbe⟩ := getElem?_eraseIdx_lift hb
    have := h.distinct a' b' t ha' hb'
    split at hae <;> split at hbe <;> omega
  · intro j t hj
    obtain ⟨j', hj', hje⟩ := getElem?_eraseIdx_lift hj
    have hne : j' ≠ i := by split at hje <;> omega
    exact L.keep (h.other hne hi hstep hj') (h.issued j' t hj')
  · intro j kj thread hj hthread
    obtain ⟨j', hj', hje⟩ := getElem?_eraseIdx_lift hj
    obtain ⟨m, hm, hme⟩ := getElem?_eraseIdx_lift hthread
    have hsame : m = j' := by rw [hme, hje]
    rw [hsame] at hm
    have hne : j' ≠ i := by split at hje <;> omega
    obtain ⟨w₀, hr, hh⟩ := h.threads j' kj thread hj' hm
    exact ⟨w₀, L.trans hr (h.other hne hi hstep hj'), hh⟩

/-- One program goes on, with what it owns now. -/
theorem Owns.went (h : Owns L Q p ks) {i : Nat} {k k' : Option K} {w : W} {task : T}
    {prog : Prog C R E A} (hi : ks[i]? = some k) (hstep : L.Step k p.world w k')
    (hprog : prog.HoldsAs L k' (Q task) (fun _ _ _ => True) w) :
    Owns L Q { world := w, threads := p.threads.set i (task, prog) } (ks.set i k') := by
  have hlt : i < ks.length := (List.getElem?_eq_some_iff.mp hi).1
  have hself : ∀ {k₁ : Option K}, (ks.set i k')[i]? = some k₁ → k₁ = k' := by
    intro k₁ h₁
    rw [List.getElem?_set_self hlt] at h₁
    exact (Option.some.inj h₁).symm
  -- A ticket that the program has now, nobody else has.
  have hfresh : ∀ j t, j ≠ i → k' = some t → ks[j]? ≠ some (some t) := by
    intro j t hne hk' hj
    cases hstep.ticket with
    | inl hsame =>
      rw [← hsame, hk'] at hi
      exact hne (h.distinct j i t hj hi)
    | inr hnew =>
      cases hnew with
      | inl hnone => rw [hnone] at hk'; exact nomatch hk'
      | inr hsome =>
        obtain ⟨t', ht', hnot, -⟩ := hsome
        obtain rfl := Option.some.inj (ht'.symm.trans hk')
        exact hnot (h.issued j t' hj)
  refine ⟨hstep.inv, ?_, ?_, ?_, ?_⟩
  · rw [List.length_set, List.length_set, h.length]
  · intro a b t ha hb
    by_cases hai : a = i
    · by_cases hbi : b = i
      · rw [hai, hbi]
      · rw [hai] at ha
        rw [List.getElem?_set_ne (Ne.symm hbi)] at hb
        exact absurd hb (hfresh b t hbi (hself ha).symm)
    · rw [List.getElem?_set_ne (Ne.symm hai)] at ha
      by_cases hbi : b = i
      · rw [hbi] at hb
        exact absurd ha (hfresh a t hai (hself hb).symm)
      · rw [List.getElem?_set_ne (Ne.symm hbi)] at hb
        exact h.distinct a b t ha hb
  · intro j t hj
    by_cases hji : j = i
    · rw [hji] at hj
      have hk' := hself hj
      cases hstep.ticket with
      | inl hsame =>
        have hki : ks[i]? = some (some t) := by rw [hi, ← hsame, hk']
        have hrely : L.rely none p.world w := hstep.others none fun _ hn => nomatch hn
        exact L.keep hrely (h.issued i t hki)
      | inr hnew =>
        cases hnew with
        | inl hnone => rw [hnone] at hk'; exact nomatch hk'
        | inr hsome =>
          obtain ⟨t', ht', -, hissued⟩ := hsome
          obtain rfl := Option.some.inj (ht'.symm.trans hk'.symm)
          exact hissued
    · rw [List.getElem?_set_ne (Ne.symm hji)] at hj
      exact L.keep (h.other hji hi hstep hj) (h.issued j t hj)
  · intro j kj thread hj hthread
    by_cases hji : j = i
    · rw [hji] at hj hthread
      have hlt' : i < p.threads.length := by rw [← h.length]; exact hlt
      have hthread : (p.threads.set i (task, prog))[i]? = some thread := hthread
      rw [List.getElem?_set_self hlt'] at hthread
      obtain rfl := Option.some.inj hthread
      rw [hself hj]
      exact ⟨w, L.refl _ _, hprog⟩
    · have hthread : (p.threads.set i (task, prog))[j]? = some thread := hthread
      rw [List.getElem?_set_ne (Ne.symm hji)] at hj hthread
      obtain ⟨w₀, hr, hh⟩ := h.threads j kj thread hj hthread
      exact ⟨w₀, L.trans hr (h.other hji hi hstep hj), hh⟩

/-- A program comes in, owning nothing. -/
theorem Owns.started (h : Owns L Q p ks) {task : T} {prog : Prog C R E A}
    (hprog : prog.HoldsAs L none (Q task) (fun _ _ _ => True) p.world) :
    Owns L Q { p with threads := p.threads ++ [(task, prog)] } (ks ++ [none]) := by
  have hold : ∀ {j : Nat} {t : K}, (ks ++ [none])[j]? = some (some t) → ks[j]? = some (some t) := by
    intro j t hj
    by_cases hlt : j < ks.length
    · rwa [List.getElem?_append_left hlt] at hj
    · rw [List.getElem?_append_right (by omega), List.getElem?_singleton] at hj
      split at hj <;> exact nomatch hj
  refine ⟨h.inv, ?_, ?_, ?_, ?_⟩
  · show (ks ++ [none]).length = (p.threads ++ [(task, prog)]).length
    rw [List.length_append, List.length_append, h.length, List.length_singleton,
      List.length_singleton]
  · intro i j t hi hj
    exact h.distinct i j t (hold hi) (hold hj)
  · intro i t hi
    exact h.issued i t (hold hi)
  · intro i k thread hi hthread
    have hthread : (p.threads ++ [(task, prog)])[i]? = some thread := hthread
    by_cases hlt : i < ks.length
    · rw [List.getElem?_append_left hlt] at hi
      rw [List.getElem?_append_left (h.length ▸ hlt)] at hthread
      exact h.threads i k thread hi hthread
    · rw [List.getElem?_append_right (by omega), List.getElem?_singleton] at hi
      rw [List.getElem?_append_right (by rw [← h.length]; omega), List.getElem?_singleton] at hthread
      split at hi
      · split at hthread
        · obtain rfl := Option.some.inj hi
          obtain rfl := Option.some.inj hthread
          exact ⟨p.world, L.refl _ _, hprog⟩
        · exact nomatch hthread
      · exact nomatch hi

/-- One move. -/
theorem Owns.move (hS : OwnersSound L Q S) (h : Owns L Q p ks) (m : Move T)
    (hm : Allows L.allowed p m) :
    (∃ ks', Owns L Q (p.move S m) ks') ∧ L.rely none p.world (p.move S m).world := by
  have hlookup : ∀ {i : Nat} {thread : T × Prog C R E A}, p.threads[i]? = some thread →
      ∃ k, ks[i]? = some k := by
    intro i thread hthread
    have hlt : i < ks.length := by rw [h.length]; exact (List.getElem?_eq_some_iff.mp hthread).1
    exact ⟨ks[i], List.getElem?_eq_getElem hlt⟩
  have hnobody : ∀ {k k' : Option K} {w : W}, L.Step k p.world w k' → L.rely none p.world w :=
    fun hstep => hstep.others none fun _ hn => nomatch hn
  cases m with
  | start task => exact ⟨⟨ks ++ [none], h.started (hS.code task _ h.inv)⟩, L.refl _ _⟩
  | crash i =>
    refine ⟨?_, L.refl _ _⟩
    cases ht : p.threads[i]? with
    | none =>
      have hsame : p.threads.eraseIdx i = p.threads :=
        List.eraseIdx_of_length_le (List.getElem?_eq_none_iff.mp ht)
      have hmove : p.move S (.crash i) = p := by
        show { p with threads := p.threads.eraseIdx i } = p
        rw [hsame]
      exact ⟨ks, by rw [hmove]; exact h⟩
    | some thread =>
      obtain ⟨k, hk⟩ := hlookup ht
      exact ⟨ks.eraseIdx i, h.ended hk (.idle h.inv)⟩
  | step i =>
    cases ht : p.threads[i]? with
    | none =>
      simp only [Pool.move, ht]
      exact ⟨⟨ks, h⟩, L.refl _ _⟩
    | some thread =>
      obtain ⟨task, prog⟩ := thread
      obtain ⟨k, hk⟩ := hlookup ht
      obtain ⟨w₀, hr₀, hh⟩ := h.threads i k _ hk ht
      cases prog with
      | ret a =>
        simp only [Pool.move, ht]
        have hstep := hS.note task k a w₀ p.world hh hr₀ h.inv
        exact ⟨⟨ks.eraseIdx i, h.ended hk hstep⟩, hnobody hstep⟩
      | fail e =>
        simp only [Pool.move, ht]
        exact ⟨⟨ks.eraseIdx i, h.ended hk (.idle h.inv)⟩, L.refl _ _⟩
      | call c f =>
        simp only [Pool.move, ht, hS.exec]
        simp only [Allows, ht] at hm
        have hcall := hh p.world hr₀ h.inv hm
        cases he : L.exec c p.world with
        | error e => exact ⟨⟨ks.set i none, h.went hk (.idle h.inv) trivial⟩, L.refl _ _⟩
        | ok reply =>
          rw [he] at hcall
          obtain ⟨k', hstep, hnext⟩ := hcall
          exact ⟨⟨ks.set i k', h.went hk hstep hnext⟩, hnobody hstep⟩

/-- Whole runs: everybody owns what is theirs at the end, and the end is what one who owns
nothing relies on. -/
theorem Owns.play (hS : OwnersSound L Q S) (h : Owns L Q p ks) (ms : List (Move T))
    (hm : Meets S L.allowed p ms) :
    (∃ ks', Owns L Q (p.play S ms) ks') ∧ L.rely none p.world (p.play S ms).world := by
  induction ms generalizing p ks with
  | nil => exact ⟨⟨ks, h⟩, L.refl _ _⟩
  | cons m rest ih =>
    obtain ⟨⟨ks', h'⟩, hr⟩ := h.move hS m hm.1
    obtain ⟨hlast, hr'⟩ := ih h' hm.2
    exact ⟨hlast, L.trans hr hr'⟩

/-- A pool in which nothing has been started. -/
theorem Owns.init {w : W} (hi : L.inv w) : Owns L Q ({ world := w } : Pool C R E W T A) [] := by
  refine ⟨hi, rfl, ?_, ?_, ?_⟩
  · intro i _ _ h₁ _
    exact nomatch h₁
  · intro _ _ h₁
    exact nomatch h₁
  · intro _ _ _ h₁ _
    exact nomatch h₁

end Pool
end Operant.Calls
