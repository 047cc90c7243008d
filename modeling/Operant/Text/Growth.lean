import Operant.Text.Pattern

/-! How much a text grows when matches are replaced.

A text is weighed by its characters. A replacement may add to the weight of a match for each of its
characters of one kind, and adds no character of that kind; so does a substitution, and one
substitution after the other. -/
namespace Operant.Text

/-- The weight of a text. -/
def total (w : Char → Nat) (s : List Char) : Nat := (s.map w).sum

@[simp] theorem total_nil (w : Char → Nat) : total w [] = 0 := rfl

@[simp] theorem total_cons (w : Char → Nat) (c : Char) (s : List Char) :
    total w (c :: s) = w c + total w s := by
  simp [total]

@[simp] theorem total_append (w : Char → Nat) (a b : List Char) : total w (a ++ b) = total w a + total w b := by
  simp [total]

theorem length_le_total {w : Char → Nat} (hw : ∀ c, 1 ≤ w c) (s : List Char) : s.length ≤ total w s := by
  induction s with
  | nil => exact Nat.le_refl 0
  | cons c rest ih =>
    have hc := hw c
    rw [List.length_cons, total_cons]
    omega

/-- The second text weighs at most `g` more for each character of the kind in the first. -/
structure Grows (w : Char → Nat) (q : Char → Bool) (g : Nat) (before after : List Char) : Prop where
  weight : total w after ≤ total w before + g * before.countP q
  kind : after.countP q ≤ before.countP q

variable {w : Char → Nat} {q : Char → Bool} {g : Nat}

theorem Grows.refl (s : List Char) : Grows w q g s s := ⟨Nat.le_add_right .., Nat.le_refl _⟩

theorem Grows.append {a b a' b' : List Char} (h : Grows w q g a b) (h' : Grows w q g a' b') :
    Grows w q g (a ++ a') (b ++ b') := by
  constructor
  · rw [total_append, total_append, List.countP_append, Nat.mul_add]
    have hweight := h.weight
    have hweight' := h'.weight
    omega
  · rw [List.countP_append, List.countP_append]
    exact Nat.add_le_add h.kind h'.kind

theorem Grows.trans {g' : Nat} {a b c : List Char} (h : Grows w q g a b) (h' : Grows w q g' b c) :
    Grows w q (g + g') a c := by
  constructor
  · have hmul := Nat.mul_le_mul_left g' h.kind
    have hweight := h.weight
    have hweight' := h'.weight
    rw [Nat.add_mul]
    omega
  · exact Nat.le_trans h'.kind h.kind

namespace Pattern

/-- The groups that a pattern sets. -/
def names : Pattern → List Nat
  | .char _ | .many .. | .again _ | .boundary _ => []
  | .seq a b | .alt a b => a.names ++ b.names
  | .group name a => name :: a.names

/-- Other groups stay. -/
theorem Leads.group_keeps {a : Pattern} {s e : Place} (h : Leads a s e) {name : Nat} (hname : name ∉ a.names) :
    e.group name = s.group name := by
  induction h with
  | char | many | again | boundary => rfl
  | seq _ _ iha ihb =>
    rw [names, List.mem_append, not_or] at hname
    rw [ihb hname.2, iha hname.1]
  | first _ ih =>
    rw [names, List.mem_append, not_or] at hname
    exact ih hname.1
  | second _ ih =>
    rw [names, List.mem_append, not_or] at hname
    exact ih hname.2
  | group _ ih =>
    obtain ⟨hne, hname⟩ := List.ne_and_not_mem_of_not_mem_cons hname
    rw [← ih hname]
    have hbeq : (name == _) = false := beq_eq_false_iff_ne.mpr hne
    simp only [Place.group, List.lookup_cons, hbeq]

/-- A group is what it has matched. -/
theorem Leads.group_eq {a : Pattern} {name : Nat} {s e : Place} (h : Leads (.group name a) s e) {t : List Char}
    (ht : s.rest = t ++ e.rest) : e.group name = t := by
  cases h with
  | @group _ _ _ e h =>
    change s.rest = t ++ e.rest at ht
    have hlength := congrArg List.length ht
    rw [List.length_append] at hlength
    show ((List.lookup name ((name, s.rest.take (s.rest.length - e.rest.length)) :: e.groups)).getD []) = t
    rw [List.lookup_cons, beq_self_eq_true, Option.getD_some, hlength, Nat.add_sub_cancel, ht]
    exact List.take_left

/-- One after the other: the two parts of a match. -/
theorem Leads.parts {a b : Pattern} {s e : Place} (h : Leads (.seq a b) s e) {t : List Char}
    (ht : s.rest = t ++ e.rest) : ∃ m t₁ t₂, Leads a s m ∧ Leads b m e ∧ s.rest = t₁ ++ m.rest ∧
      m.rest = t₂ ++ e.rest ∧ t = t₁ ++ t₂ := by
  cases h with
  | @seq _ _ _ m _ ha hb =>
    obtain ⟨t₁, h₁⟩ := ha.suffix
    obtain ⟨t₂, h₂⟩ := hb.suffix
    refine ⟨m, t₁, t₂, ha, hb, h₁.symm, h₂.symm, ?_⟩
    rw [← h₁, ← h₂, ← List.append_assoc] at ht
    exact (List.append_cancel_right ht).symm

theorem Leads.again_eq {name : Nat} {s e : Place} (h : Leads (.again name) s e) {t : List Char}
    (ht : s.rest = t ++ e.rest) : t = s.group name := by
  cases h with
  | again hfront =>
    obtain ⟨rest, hrest⟩ := hfront
    have hskip : (s.skip (s.group name).length).rest = rest := by
      show s.rest.drop _ = rest
      rw [← hrest, List.drop_left]
    rw [hskip, ← hrest] at ht
    exact (List.append_cancel_right ht).symm

theorem Leads.fewest_length {a : Pattern} {s e : Place} (h : Leads a s e) {t : List Char}
    (ht : s.rest = t ++ e.rest) : a.fewest ≤ t.length := by
  have hle := h.fewest_le
  rw [ht, List.length_append] at hle
  omega

/-- What a match may become. -/
def Replaces (w : Char → Nat) (q : Char → Bool) (g : Nat) (a : Pattern) (replacement : Place → List Char) : Prop :=
  ∀ s e t, Leads a s e → s.rest = t ++ e.rest → Grows w q g t (replacement e)

theorem subFrom_grows {a : Pattern} {replacement : Place → List Char} (h : Replaces w q g a replacement)
    (n : Nat) (before : Option Char) (s : List Char) : Grows w q g s (a.subFrom replacement n before s) := by
  induction n generalizing before s with
  | zero => exact .refl s
  | succ n ih =>
    cases s with
    | nil => exact .refl []
    | cons c rest =>
      unfold subFrom
      split
      · rename_i e hrun
        split
        · obtain ⟨e', he, heq⟩ := run_leads hrun
          cases heq
          obtain ⟨t, ht⟩ := he.suffix
          have hgrows := (h _ _ t he ht.symm).append (ih e.before e.rest)
          rwa [ht] at hgrows
        · exact (Grows.refl [c]).append (ih (some c) rest)
      · exact (Grows.refl [c]).append (ih (some c) rest)

theorem sub_grows {a : Pattern} {replacement : Place → List Char} (h : Replaces w q g a replacement)
    (s : List Char) : Grows w q g s (a.sub replacement s) := subFrom_grows h _ none s

end Pattern
end Operant.Text
