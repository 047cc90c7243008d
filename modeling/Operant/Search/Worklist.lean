import Mathlib.Logic.Relation
import Mathlib.Tactic

/-! Searching a finite graph with a worklist.

Two loops real code has: `visit` marks a node when it takes it from the list, `spread`
when it puts it there. Both are given as many rounds as can be needed, and both end
with exactly the nodes the start reaches. -/
namespace Operant.Search
variable {α : Type} [DecidableEq α]

/-- One edge. -/
def Next (succ : α → List α) (a b : α) : Prop := b ∈ succ a

/-- Some node of `start` reaches `b`. -/
def Reaches (succ : α → List α) (start : List α) (b : α) : Prop :=
  ∃ a ∈ start, Relation.ReflTransGen (Next succ) a b

/-- Take the last node put in; if it is new, mark it and put its successors in. -/
def visit (succ : α → List α) : Nat → List α → List α → List α
  | 0, _, seen => seen
  | _ + 1, [], seen => seen
  | n + 1, a :: pending, seen =>
    if a ∈ seen then visit succ n pending seen
    else visit succ n ((succ a).reverse ++ pending) (a :: seen)

/-- Put the new ones of `bs` on the list and mark them. -/
def push : List α → List α → List α → List α × List α
  | [], pending, seen => (pending, seen)
  | b :: bs, pending, seen =>
    if b ∈ seen then push bs pending seen else push bs (b :: pending) (b :: seen)

/-- Take the last node put in and put in its successors that are not marked yet. -/
def spread (succ : α → List α) : Nat → List α → List α → List α
  | 0, _, seen => seen
  | _ + 1, [], seen => seen
  | n + 1, a :: pending, seen =>
    let next := push (succ a) pending seen
    spread succ n next.1 next.2

/-! ### `push` -/

theorem mem_push_seen (bs pending seen : List α) (x : α) :
    x ∈ (push bs pending seen).2 ↔ x ∈ bs ∨ x ∈ seen := by
  induction bs generalizing pending seen with
  | nil => simp [push]
  | cons b bs ih =>
    by_cases hb : b ∈ seen
    · simp only [push, hb, if_true, ih, List.mem_cons]
      constructor
      · rintro (h | h)
        · exact .inl (.inr h)
        · exact .inr h
      · rintro ((rfl | h) | h)
        · exact .inr hb
        · exact .inl h
        · exact .inr h
    · simp only [push, hb, if_false, ih, List.mem_cons]
      tauto

theorem mem_push_pending (bs pending seen : List α) (x : α) :
    x ∈ (push bs pending seen).1 ↔ x ∈ pending ∨ (x ∈ bs ∧ x ∉ seen) := by
  induction bs generalizing pending seen with
  | nil => simp [push]
  | cons b bs ih =>
    by_cases hb : b ∈ seen
    · simp only [push, hb, if_true, ih, List.mem_cons]
      constructor
      · rintro (h | ⟨h, hs⟩)
        · exact .inl h
        · exact .inr ⟨.inr h, hs⟩
      · rintro (h | ⟨rfl | h, hs⟩)
        · exact .inl h
        · exact absurd hb hs
        · exact .inr ⟨h, hs⟩
    · simp only [push, hb, if_false, ih, List.mem_cons]
      constructor
      · rintro ((rfl | h) | ⟨h, hs⟩)
        · exact .inr ⟨.inl rfl, hb⟩
        · exact .inl h
        · exact .inr ⟨.inr h, fun h' => hs (.inr h')⟩
      · rintro (h | ⟨rfl | h, hs⟩)
        · exact .inl (.inr h)
        · exact .inl (.inl rfl)
        · by_cases hx : x = b
          · exact .inl (.inl hx)
          · exact .inr ⟨h, fun h' => h'.elim hx hs⟩

/-- Nodes of `nodes` not marked yet. -/
def unseen (nodes seen : List α) : Nat := (nodes.filter (· ∉ seen)).length

theorem unseen_cons_le (nodes seen : List α) {b : α} (hb : b ∈ nodes) (hs : b ∉ seen) :
    unseen nodes (b :: seen) + 1 ≤ unseen nodes seen := by
  unfold unseen
  induction nodes with
  | nil => simp at hb
  | cons u us ih =>
    rcases List.mem_cons.mp hb with rfl | hmem
    · have hle : (us.filter (· ∉ b :: seen)).length ≤ (us.filter (· ∉ seen)).length := by
        apply List.Sublist.length_le
        apply List.monotone_filter_right
        intro x hx
        simp only [List.mem_cons, not_or, decide_eq_true_eq] at hx ⊢
        exact hx.2
      simp [hs]
      simpa using hle
    · have := ih hmem
      by_cases hu : u ∈ seen
      · simpa [hu] using this
      · by_cases hub : u = b
        · subst hub
          simp only [List.filter_cons, List.mem_cons, true_or, not_true_eq_false, decide_false,
            hu, not_false_eq_true, decide_true, if_true, List.length_cons] at this ⊢
          simp only [Bool.false_eq_true, if_false]
          omega
        · simp only [List.filter_cons, List.mem_cons, hub, hu, or_self, not_false_eq_true,
            decide_true, if_true, List.length_cons] at this ⊢
          omega

/-- Each node put in was not marked before and is marked now. -/
theorem push_rank (nodes bs pending seen : List α) (hbs : ∀ b ∈ bs, b ∈ nodes) :
    (push bs pending seen).1.length + unseen nodes (push bs pending seen).2 ≤
      pending.length + unseen nodes seen := by
  induction bs generalizing pending seen with
  | nil => simp [push]
  | cons b bs ih =>
    have hrest : ∀ b' ∈ bs, b' ∈ nodes := fun b' h => hbs b' (List.mem_cons_of_mem _ h)
    by_cases hb : b ∈ seen
    · simpa [push, hb] using ih pending seen hrest
    · have h1 := ih (b :: pending) (b :: seen) hrest
      have h2 := unseen_cons_le nodes seen (hbs b (List.mem_cons_self ..)) hb
      simp only [push, hb, if_false]
      simp only [List.length_cons] at h1
      omega

/-! ### `spread` -/

/-- What the loop of `spread` keeps: marked nodes are reached, and a marked node no
longer on the list has all its successors marked. -/
structure Spreading (succ : α → List α) (start pending seen : List α) : Prop where
  sound : ∀ x ∈ seen, Reaches succ start x
  starts : ∀ x ∈ start, x ∈ seen
  marked : ∀ x ∈ pending, x ∈ seen
  closed : ∀ x ∈ seen, x ∉ pending → ∀ y ∈ succ x, y ∈ seen

omit [DecidableEq α] in
theorem Reaches.step {succ : α → List α} {start : List α} {a b : α} (h : Reaches succ start a)
    (hb : b ∈ succ a) : Reaches succ start b := by
  obtain ⟨s, hs, hr⟩ := h
  exact ⟨s, hs, hr.tail hb⟩

theorem Spreading.pop {succ : α → List α} {start pending seen : List α} {a : α}
    (h : Spreading succ start (a :: pending) seen) :
    Spreading succ start (push (succ a) pending seen).1 (push (succ a) pending seen).2 := by
  have ha := h.marked a (List.mem_cons_self ..)
  refine ⟨fun x hx => ?_, fun x hx => ?_, fun x hx => ?_, fun x hx hp y hy => ?_⟩
  · rcases (mem_push_seen ..).mp hx with hx | hx
    · exact (h.sound a ha).step hx
    · exact h.sound x hx
  · exact (mem_push_seen ..).mpr (.inr (h.starts x hx))
  · rcases (mem_push_pending ..).mp hx with hx | hx
    · exact (mem_push_seen ..).mpr (.inr (h.marked x (List.mem_cons_of_mem _ hx)))
    · exact (mem_push_seen ..).mpr (.inl hx.1)
  · rw [mem_push_pending, not_or] at hp
    rcases (mem_push_seen ..).mp hx with hx | hx
    · by_cases hs : x ∈ seen
      · by_cases hxa : x = a
        · subst hxa
          exact (mem_push_seen ..).mpr (.inl hy)
        · refine (mem_push_seen ..).mpr (.inr (h.closed x hs ?_ y hy))
          simpa [hxa] using hp.1
      · exact absurd ⟨hx, hs⟩ hp.2
    · by_cases hxa : x = a
      · subst hxa
        exact (mem_push_seen ..).mpr (.inl hy)
      · refine (mem_push_seen ..).mpr (.inr (h.closed x hx ?_ y hy))
        simpa [hxa] using hp.1

omit [DecidableEq α] in
theorem Spreading.done {succ : α → List α} {start seen : List α} (h : Spreading succ start [] seen)
    (x : α) : x ∈ seen ↔ Reaches succ start x := by
  constructor
  · exact h.sound x
  · rintro ⟨a, ha, hr⟩
    induction hr with
    | refl => exact h.starts a ha
    | tail _ hbc ih => exact h.closed _ ih (by simp) _ hbc

theorem mem_spread {succ : α → List α} {nodes : List α}
    (hu : ∀ x, ∀ y ∈ succ x, y ∈ nodes) {start pending seen : List α}
    (h : Spreading succ start pending seen) (n : Nat)
    (hn : pending.length + unseen nodes seen ≤ n) (x : α) :
    x ∈ spread succ n pending seen ↔ Reaches succ start x := by
  induction n generalizing pending seen with
  | zero =>
    have : pending = [] := List.length_eq_zero_iff.mp (by omega)
    subst this
    exact h.done x
  | succ n ih =>
    cases pending with
    | nil => exact h.done x
    | cons a pending =>
      have hrank := push_rank nodes (succ a) pending seen (hu a)
      simp only [List.length_cons] at hn
      exact ih h.pop (by omega)

/-- Started on `start`, with a round for each node there is, `spread` ends with what
`start` reaches. -/
theorem mem_spread_start {succ : α → List α} {nodes : List α}
    (hu : ∀ x, ∀ y ∈ succ x, y ∈ nodes) (start : List α) (n : Nat)
    (hn : start.length + nodes.length ≤ n) (x : α) :
    x ∈ spread succ n start start ↔ Reaches succ start x := by
  refine mem_spread hu ⟨fun x hx => ⟨x, hx, .refl⟩, fun _ hx => hx, fun _ hx => hx, ?_⟩ n ?_ x
  · exact fun x hx hp => absurd hx hp
  · have : unseen nodes start ≤ nodes.length := List.length_filter_le ..
    omega

/-! ### `visit` -/

/-- However many rounds there are, only what the start reaches is marked. -/
theorem visit_sound {succ : α → List α} {start : List α} (n : Nat) {pending seen : List α}
    (h : ∀ x, x ∈ pending ∨ x ∈ seen → Reaches succ start x) {x : α}
    (hx : x ∈ visit succ n pending seen) : Reaches succ start x := by
  induction n generalizing pending seen with
  | zero => exact h x (.inr hx)
  | succ n ih =>
    cases pending with
    | nil => exact h x (.inr hx)
    | cons a pending =>
      have ha : Reaches succ start a := h a (.inl (List.mem_cons_self ..))
      by_cases hseen : a ∈ seen
      · rw [visit, if_pos hseen] at hx
        exact ih (fun y hy => h y (hy.imp_left (List.mem_cons_of_mem _))) hx
      · rw [visit, if_neg hseen] at hx
        refine ih (fun y hy => ?_) hx
        rcases hy with hy | hy
        · rcases List.mem_append.mp hy with hy | hy
          · exact ha.step (List.mem_reverse.mp hy)
          · exact h y (.inl (List.mem_cons_of_mem _ hy))
        · rcases List.mem_cons.mp hy with rfl | hy
          · exact ha
          · exact h y (.inr hy)

end Operant.Search
