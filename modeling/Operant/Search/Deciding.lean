import Mathlib.Logic.Function.Iterate
import Mathlib.Tactic

/-! Deciding in rounds.

Some things are decided and the rest are not yet. A rule decides some of the rest from what
is decided already, and a round decides all that the rule decides now. A rule is steady if
more decisions never change what it says. Then rounds go on until nothing can be decided,
and where they end depends on where they began and on the rule, but on nothing else. -/
namespace Operant.Search
variable {α β : Type}

/-- What is decided in `known` is decided so in `more`. -/
def Extends (known more : α → Option β) : Prop := ∀ a b, known a = some b → more a = some b

/-- What the rule says it goes on saying. -/
def Steady (rule : (α → Option β) → α → Option β) : Prop :=
  ∀ known more, Extends known more → ∀ a b, rule known a = some b → rule more a = some b

/-- Decide all that the rule decides now. -/
def decideRound (rule : (α → Option β) → α → Option β) (known : α → Option β) (a : α) : Option β :=
  match known a with
  | some b => some b
  | none => rule known a

/-- Nothing can be decided any more. -/
def Exhausted (rule : (α → Option β) → α → Option β) (known : α → Option β) : Prop :=
  ∀ a, known a = none → rule known a = none

/-- What is decided beyond `known` follows the rule. -/
def Obeys (rule : (α → Option β) → α → Option β) (known more : α → Option β) : Prop :=
  Extends known more ∧ ∀ a b, known a = none → rule more a = some b → more a = some b

/-- The least that obeys the rule, and nothing left to decide. -/
structure LeastExhausted (rule : (α → Option β) → α → Option β) (known last : α → Option β) : Prop where
  obeys : Obeys rule known last
  exhausted : Exhausted rule last
  least : ∀ more, Obeys rule known more → Extends last more

section
variable {rule : (α → Option β) → α → Option β} {known more most : α → Option β}

theorem Extends.refl (known : α → Option β) : Extends known known := fun _ _ h => h

theorem Extends.trans (h : Extends known more) (h' : Extends more most) : Extends known most :=
  fun a b hab => h' a b (h a b hab)

theorem Extends.antisymm (h : Extends known more) (h' : Extends more known) : known = more := by
  funext a
  cases hk : known a with
  | some b => exact (h a b hk).symm
  | none =>
    cases hm : more a with
    | some b => exact absurd (hk.symm.trans (h' a b hm)) (by simp)
    | none => rfl

theorem LeastExhausted.unique (h : LeastExhausted rule known more) (h' : LeastExhausted rule known most) :
    more = most :=
  (h.least most h'.obeys).antisymm (h'.least more h.obeys)

theorem round_extends (rule : (α → Option β) → α → Option β) (known : α → Option β) :
    Extends known (decideRound rule known) := by
  intro a b h
  simp only [decideRound, h]

theorem round_of_none {a : α} (h : known a = none) : decideRound rule known a = rule known a := by
  simp only [decideRound, h]

theorem Exhausted.round_eq (h : Exhausted rule known) : decideRound rule known = known := by
  funext a
  cases hk : known a with
  | some b => simp only [decideRound, hk]
  | none => rw [round_of_none hk, h a hk]

theorem rounds_extend (rule : (α → Option β) → α → Option β) (known : α → Option β) (n : Nat) :
    Extends known ((decideRound rule)^[n] known) := by
  induction n with
  | zero => exact .refl known
  | succ n ih =>
    rw [Function.iterate_succ_apply']
    exact ih.trans (round_extends rule _)

/-- Whatever obeys the rule has decided all that rounds decide. -/
theorem rounds_least (hsteady : Steady rule) (h : Obeys rule known more) (n : Nat) :
    Extends ((decideRound rule)^[n] known) more := by
  induction n with
  | zero => exact h.1
  | succ n ih =>
    rw [Function.iterate_succ_apply']
    intro a b hab
    cases hk : (decideRound rule)^[n] known a with
    | some c =>
      rw [round_extends rule _ a c hk] at hab
      exact ih a b (hk.trans hab)
    | none =>
      rw [round_of_none hk] at hab
      have hnone : known a = none := by
        cases hfirst : known a with
        | none => rfl
        | some c => exact absurd ((rounds_extend rule known n a c hfirst).symm.trans hk) (by simp)
      exact h.2 a b hnone (hsteady _ _ ih a b hab)

/-- What rounds decide the rule still says. -/
theorem rounds_grounded (hsteady : Steady rule) (n : Nat) {a : α} {b : β} (hnone : known a = none)
    (h : (decideRound rule)^[n] known a = some b) : rule ((decideRound rule)^[n] known) a = some b := by
  induction n with
  | zero => exact absurd (hnone.symm.trans h) (by simp)
  | succ n ih =>
    rw [Function.iterate_succ_apply'] at h ⊢
    have hmore := round_extends rule ((decideRound rule)^[n] known)
    cases hk : (decideRound rule)^[n] known a with
    | some c =>
      rw [hmore a c hk] at h
      exact hsteady _ _ hmore a b (ih (hk.trans h))
    | none =>
      rw [round_of_none hk] at h
      exact hsteady _ _ hmore a b h

/-- Where rounds end is the least that obeys the rule. -/
theorem rounds_leastExhausted (hsteady : Steady rule) {n : Nat} (h : Exhausted rule ((decideRound rule)^[n] known)) :
    LeastExhausted rule known ((decideRound rule)^[n] known) := by
  refine ⟨⟨rounds_extend rule known n, fun a b hnone hrule => ?_⟩, h, fun more hobeys =>
    rounds_least hsteady hobeys n⟩
  cases hk : (decideRound rule)^[n] known a with
  | none => exact absurd ((h a hk).symm.trans hrule) (by simp)
  | some c =>
    rw [rounds_grounded hsteady n hnone hk] at hrule
    exact hrule

theorem Exhausted.rounds_eq (h : Exhausted rule known) (n : Nat) : (decideRound rule)^[n] known = known :=
  Function.iterate_fixed h.round_eq n

end

/-! ### Rounds end -/

section
variable {rule : (α → Option β) → α → Option β} {known : α → Option β} {nodes : List α}

/-- How many of the nodes are not decided. -/
def undecided (nodes : List α) (known : α → Option β) : Nat := nodes.countP fun a => (known a).isNone

theorem undecided_round_le : undecided nodes (decideRound rule known) ≤ undecided nodes known := by
  refine List.countP_mono_left fun a _ hnone => ?_
  cases hk : known a with
  | none => rfl
  | some b =>
    rw [round_extends rule known a b hk] at hnone
    exact hnone

/-- A round that decides something leaves less to decide. -/
theorem undecided_round_lt {a : α} (ha : a ∈ nodes) (hnone : known a = none) (hrule : rule known a ≠ none) :
    undecided nodes (decideRound rule known) < undecided nodes known := by
  obtain ⟨before, after, rfl⟩ := List.append_of_mem ha
  have hbefore : undecided before (decideRound rule known) ≤ undecided before known := undecided_round_le
  have hafter : undecided after (decideRound rule known) ≤ undecided after known := undecided_round_le
  have hround : (decideRound rule known a).isNone = false := by
    rw [round_of_none hnone, Option.isNone_eq_false_iff, Option.isSome_iff_ne_none]
    exact hrule
  simp only [undecided, List.countP_append, List.countP_cons, hround, hnone, Option.isNone_none] at *
  simp
  omega

/-- A round for each node is enough. -/
theorem rounds_exhausted (hnodes : ∀ known a, rule known a ≠ none → a ∈ nodes) {n : Nat}
    (hn : undecided nodes known ≤ n) : Exhausted rule ((decideRound rule)^[n] known) := by
  induction n generalizing known with
  | zero =>
    intro a hnone
    by_contra hrule
    have hpos : 0 < undecided nodes known :=
      List.countP_pos_iff.mpr ⟨a, hnodes known a hrule, Option.isNone_iff_eq_none.mpr hnone⟩
    omega
  | succ n ih =>
    rw [Function.iterate_succ_apply]
    by_cases hexhausted : Exhausted rule known
    · rw [hexhausted.round_eq, hexhausted.rounds_eq n]
      exact hexhausted
    · obtain ⟨a, ha⟩ := not_forall.mp hexhausted
      obtain ⟨hnone, hrule⟩ := Classical.not_imp.mp ha
      have hlt := undecided_round_lt (hnodes known a hrule) hnone hrule
      exact ih (by omega)

end
end Operant.Search
