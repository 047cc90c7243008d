import Operant.Calls.Program

/-! Transactions.

A transaction reads and writes a store, and returns or fails; what fails leaves no store behind. `Leads`
says what is known of the outcomes: a condition on what is returned and on the store after it. -/
namespace Operant.Calls

/-- A transaction on stores `S` that may fail with `E`. -/
abbrev Transaction (S E α : Type) := StateT S (Except E) α

namespace Transaction
variable {S E α β : Type}

theorem run_bind_ok {m : Transaction S E α} {f : α → Transaction S E β} {s : S} {r : β × S} :
    (m >>= f).run s = .ok r ↔ ∃ a t, m.run s = .ok (a, t) ∧ (f a).run t = .ok r := by
  rw [StateT.run_bind]
  cases m.run s with
  | error failure => simp [bind, Except.bind]
  | ok out => obtain ⟨a, t⟩ := out; simp [bind, Except.bind]

/-- A transaction goes on from where its first part ends. -/
theorem run_bind_of {m : Transaction S E α} {f : α → Transaction S E β} {s t : S} {a : α}
    (h : m.run s = .ok (a, t)) : (m >>= f).run s = (f a).run t := by
  rw [StateT.run_bind, h]
  rfl

theorem run_pure_ok {a : α} {s : S} {r : α × S} :
    (pure a : Transaction S E α).run s = .ok r ↔ r = (a, s) := by
  rw [StateT.run_pure]
  exact ⟨fun h => (Except.ok.inj h).symm, fun h => h ▸ rfl⟩

theorem run_throw {failure : E} {s : S} : (throw failure : Transaction S E α).run s = .error failure := rfl

theorem run_get {s : S} : (get : Transaction S E S).run s = .ok (s, s) := rfl

theorem run_set {s t : S} : (set t : Transaction S E PUnit).run s = .ok (⟨⟩, t) := rfl

/-- What a transaction returns, and the store after it. -/
def Leads (m : Transaction S E α) (s : S) (Q : α → S → Prop) : Prop := ∀ a t, m.run s = .ok (a, t) → Q a t

variable {m : Transaction S E α} {s : S} {Q : α → S → Prop}

theorem Leads.mono {Q' : α → S → Prop} (h : m.Leads s Q) (hle : ∀ a t, Q a t → Q' a t) : m.Leads s Q' :=
  fun a t hrun => hle a t (h a t hrun)

theorem leads_pure {a : α} (h : Q a s) : (pure a : Transaction S E α).Leads s Q := by
  intro b t hrun
  obtain ⟨rfl, rfl⟩ := Prod.mk.inj (run_pure_ok.mp hrun)
  exact h

theorem leads_throw {failure : E} : (throw failure : Transaction S E α).Leads s Q := nofun

theorem leads_bind {f : α → Transaction S E β} {Q : β → S → Prop} (h : m.Leads s fun a t => (f a).Leads t Q) :
    (m >>= f).Leads s Q := by
  intro b t hrun
  obtain ⟨a, middle, hfirst, hrest⟩ := run_bind_ok.mp hrun
  exact h a middle hfirst b t hrest

theorem leads_get {f : S → Transaction S E β} {Q : β → S → Prop} (h : (f s).Leads s Q) : (get >>= f).Leads s Q :=
  leads_bind fun a t hrun => by
    obtain ⟨rfl, rfl⟩ := Prod.mk.inj (Except.ok.inj hrun)
    exact h

theorem leads_set {t : S} {f : PUnit → Transaction S E β} {Q : β → S → Prop} (h : (f ⟨⟩).Leads t Q) :
    (set t >>= f).Leads s Q :=
  leads_bind fun a u hrun => by
    obtain ⟨rfl, rfl⟩ := Prod.mk.inj (Except.ok.inj hrun)
    exact h

/-- `if c: raise failure`. -/
def raiseIf (c : Prop) [Decidable c] (failure : E) : Transaction S E PUnit :=
  if c then throw failure else pure ⟨⟩

theorem run_raiseIf {c : Prop} [Decidable c] {failure : E} {r : PUnit × S} :
    (raiseIf c failure : Transaction S E PUnit).run s = .ok r ↔ ¬c ∧ r = (⟨⟩, s) := by
  unfold raiseIf
  split
  · next hc => exact iff_of_false nofun fun h => h.1 hc
  · next hc => exact run_pure_ok.trans ⟨fun h => ⟨hc, h⟩, fun h => h.2⟩

theorem run_raiseIf_of {c : Prop} [Decidable c] {failure : E} (h : ¬c) :
    (raiseIf c failure : Transaction S E PUnit).run s = .ok (⟨⟩, s) :=
  run_raiseIf.mpr ⟨h, rfl⟩

theorem leads_raiseIf {c : Prop} [Decidable c] {failure : E} {f : PUnit → Transaction S E β}
    {Q : β → S → Prop} (h : ¬c → (f ⟨⟩).Leads s Q) : (raiseIf c failure >>= f).Leads s Q :=
  leads_bind fun _ _ hrun => by
    obtain ⟨hc, hr⟩ := run_raiseIf.mp hrun
    obtain ⟨rfl, rfl⟩ := Prod.mk.inj hr
    exact h hc

theorem leads_ite {c : Prop} [Decidable c] {other : Transaction S E α} (hpos : c → m.Leads s Q)
    (hneg : ¬c → other.Leads s Q) : (if c then m else other).Leads s Q := by
  split
  · next hc => exact hpos hc
  · next hc => exact hneg hc

/-- A loop keeps what each round keeps. -/
theorem leads_forM {P : S → Prop} {xs : List α} {f : α → Transaction S E PUnit}
    (hround : ∀ x ∈ xs, ∀ s, P s → (f x).Leads s fun _ => P) (h : P s) : (xs.forM f).Leads s fun _ => P := by
  induction xs generalizing s with
  | nil => exact leads_pure h
  | cons x rest ih =>
    refine leads_bind ((hround x List.mem_cons_self s h).mono fun _ t ht => ?_)
    exact ih (fun y hy => hround y (List.mem_cons_of_mem _ hy)) ht

/-- A loop, by what is known of the rest of the list. -/
theorem leads_forM_rest {P : List α → S → Prop} {f : α → Transaction S E PUnit}
    (hround : ∀ x rest s, P (x :: rest) s → (f x).Leads s fun _ => P rest) {xs : List α} (h : P xs s) :
    (xs.forM f).Leads s fun _ => P [] := by
  induction xs generalizing s with
  | nil => exact leads_pure h
  | cons x rest ih => exact leads_bind ((hround x rest s h).mono fun _ _ ht => ih ht)

/-- A loop that only reads, by what each round finds. -/
theorem leads_mapM_each {R : β → Prop} {f : α → Transaction S E β} (hround : ∀ x, (f x).Leads s fun b t => t = s ∧ R b)
    {xs : List α} : (xs.mapM f).Leads s fun bs t => t = s ∧ ∀ b ∈ bs, R b := by
  induction xs with
  | nil => exact leads_pure ⟨rfl, List.forall_mem_nil _⟩
  | cons x rest ih =>
    rw [List.mapM_cons]
    refine leads_bind ((hround x).mono ?_)
    rintro b _ ⟨rfl, hb⟩
    refine leads_bind (ih.mono ?_)
    rintro bs _ ⟨rfl, hbs⟩
    exact leads_pure ⟨rfl, List.forall_mem_cons.mpr ⟨hb, hbs⟩⟩

/-- A loop that collects, by what is known of the rest of the list. -/
theorem leads_mapM {P : List α → S → Prop} {f : α → Transaction S E β}
    (hround : ∀ x rest s, P (x :: rest) s → (f x).Leads s fun _ => P rest) {xs : List α} (h : P xs s) :
    (xs.mapM f).Leads s fun _ => P [] := by
  induction xs generalizing s with
  | nil => exact leads_pure h
  | cons x rest ih =>
    rw [List.mapM_cons]
    refine leads_bind ((hround x rest s h).mono fun _ t ht => ?_)
    exact leads_bind ((ih ht).mono fun _ u hu => leads_pure hu)

end Transaction

end Operant.Calls
