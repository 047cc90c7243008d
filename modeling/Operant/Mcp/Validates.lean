import Operant.Calls.Program
import Operant.Mcp.Keys

/-! Checks that decide, and what an accepted schema is made of. -/
namespace Operant.Mcp
open Operant.Python

/-- The check passes if the property holds, else the arguments are invalid; it raises nothing else. -/
def Decides (check : Except Failure Unit) (P : Prop) : Prop :=
  (P ∧ check = .ok ()) ∨ (¬P ∧ check = .error argumentsInvalid)

/-- The test tells whether the property holds. -/
def Answers (test : Except Failure Bool) (P : Prop) : Prop := ∃ b, test = .ok b ∧ (b = true ↔ P)

/-! ### Checks -/

section
variable {check rest : Except Failure Unit} {test : Except Failure Bool} {P Q : Prop}

theorem Decides.congr (h : Decides check P) (hiff : P ↔ Q) : Decides check Q := by
  rw [Decides, ← hiff]
  exact h

/-- A check that decides one property decides no other one. -/
theorem Decides.iff_ok (h : Decides check P) : check = .ok () ↔ P := by
  cases h with
  | inl h => exact ⟨fun _ => h.1, fun _ => h.2⟩
  | inr h =>
    rw [h.2]
    exact ⟨(nomatch ·), fun hP => absurd hP h.1⟩

theorem decides_pass (hP : P) : Decides (.ok ()) P := .inl ⟨hP, rfl⟩

theorem decides_demand {b : Bool} (h : b = true ↔ P) : Decides (demand b) P := by
  cases b with
  | true => exact .inl ⟨h.mp rfl, rfl⟩
  | false => exact .inr ⟨fun hP => Bool.noConfusion (h.mpr hP), rfl⟩

theorem Decides.seq (hfirst : Decides check P) (hrest : Decides rest Q) :
    Decides (check >>= fun _ => rest) (P ∧ Q) := by
  cases hfirst with
  | inl h =>
    rw [h.2]
    exact hrest.congr (by simp [h.1])
  | inr h =>
    rw [h.2]
    exact .inr ⟨fun hboth => h.1 hboth.1, rfl⟩

theorem Answers.decides (h : Answers test P) : Decides (test >>= demand) P := by
  obtain ⟨b, htest, hb⟩ := h
  rw [htest]
  exact decides_demand hb

theorem Answers.not (h : Answers test P) : Decides (test >>= fun b => demand !b) ¬P := by
  obtain ⟨b, htest, hb⟩ := h
  rw [htest]
  apply decides_demand
  rw [← hb]
  simp

theorem Decides.answers (h : Decides check P) : Answers (schemaMatches check) P := by
  cases h with
  | inl h =>
    rw [h.2]
    exact ⟨true, rfl, by simp [h.1]⟩
  | inr h =>
    rw [h.2]
    exact ⟨false, by simp [schemaMatches, argumentsInvalid]; rfl, by simp [h.1]⟩

end

/-! ### Loops -/

section
variable {α : Type} {xs : List α} {P : (x : α) → x ∈ xs → Prop}

theorem decides_each {f : (x : α) → x ∈ xs → Except Failure Unit} (h : ∀ x hx, Decides (f x hx) (P x hx)) :
    Decides (each xs f) (∀ x hx, P x hx) := by
  induction xs with
  | nil => exact decides_pass fun x hx => absurd hx List.not_mem_nil
  | cons x rest ih =>
    have hrest := ih fun y hy => h y (List.mem_cons_of_mem x hy)
    apply ((h x (List.mem_cons_self ..)).seq hrest).congr
    constructor
    · intro ⟨hx, hall⟩ y hy
      cases List.mem_cons.mp hy with
      | inl heq =>
        subst heq
        exact hx
      | inr hmem => exact hall y hmem
    · exact fun hall => ⟨hall x _, fun y hy => hall y _⟩

theorem answers_anyOf {f : (x : α) → x ∈ xs → Except Failure Bool} (h : ∀ x hx, Answers (f x hx) (P x hx)) :
    Answers (anyOf xs f) (∃ x, ∃ hx : x ∈ xs, P x hx) := by
  induction xs with
  | nil => exact ⟨false, rfl, by simp⟩
  | cons x rest ih =>
    obtain ⟨b, hfirst, hb⟩ := h x (List.mem_cons_self ..)
    obtain ⟨found, hrest, hfound⟩ := ih fun y hy => h y (List.mem_cons_of_mem x hy)
    have hiff : (∃ y, ∃ hy : y ∈ x :: rest, P y hy) ↔ b = true ∨ found = true := by
      rw [hb, hfound]
      constructor
      · intro ⟨y, hy, hP⟩
        cases List.mem_cons.mp hy with
        | inl heq =>
          subst heq
          exact .inl hP
        | inr hmem => exact .inr ⟨y, hmem, hP⟩
      · rintro (hP | ⟨y, hy, hP⟩)
        · exact ⟨x, _, hP⟩
        · exact ⟨y, _, hP⟩
    refine ⟨b || found, ?_, by rw [hiff, Bool.or_eq_true]⟩
    rw [anyOf, hfirst]
    cases b with
    | true => rfl
    | false => exact hrest

theorem count_eq {f : (x : α) → x ∈ xs → Except Failure Bool} (h : ∀ x hx, Answers (f x hx) (P x hx)) :
    ∃ n, count xs f = .ok n ∧ (n = 0 ↔ ∀ j : Fin xs.length, ¬P (xs.get j) (List.get_mem _ j)) ∧
      (n = 1 ↔ ∃ i : Fin xs.length, ∀ j : Fin xs.length, P (xs.get j) (List.get_mem _ j) ↔ j = i) := by
  induction xs with
  | nil => exact ⟨0, rfl, by simp, by simp⟩
  | cons x rest ih =>
    obtain ⟨b, hfirst, hb⟩ := h x (List.mem_cons_self ..)
    obtain ⟨n, hrest, hzero, hone⟩ := ih fun y hy => h y (List.mem_cons_of_mem x hy)
    refine ⟨b.toNat + n, ?_, ?_, ?_⟩
    · rw [count, hfirst]
      show (count rest _ >>= fun n => Except.ok (b.toNat + n)) = _
      rw [hrest]
      rfl
    · have hboth : b.toNat + n = 0 ↔ ¬b = true ∧ n = 0 := by cases b <;> simp
      rw [hboth, hb, hzero]
      simp only [List.length_cons, Fin.forall_fin_succ]
      rfl
    · have hboth : b.toNat + n = 1 ↔ (b = true ∧ n = 0) ∨ (¬b = true ∧ n = 1) := by
        cases b <;> simp
      rw [hboth, hb, hzero, hone]
      simp only [List.length_cons, Fin.exists_fin_succ, Fin.forall_fin_succ, List.get_cons_zero]
      simp [Fin.succ_ne_zero, (Fin.succ_ne_zero _).symm, iff_true, iff_false]

end

/-! ### Accepted schemas -/

theorem both_ok {E : Type} {first rest : Except E Unit} (h : (first >>= fun _ => rest) = .ok ()) :
    first = .ok () ∧ rest = .ok () := by
  obtain ⟨_, hfirst, hrest⟩ := Calls.ok_of_bind h
  exact ⟨hfirst, hrest⟩

theorem each_ok {α E : Type} {xs : List α} {f : (x : α) → x ∈ xs → Except E Unit} (h : each xs f = .ok ()) :
    ∀ x hx, f x hx = .ok () := by
  induction xs with
  | nil => exact fun x hx => absurd hx List.not_mem_nil
  | cons y rest ih =>
    obtain ⟨hfirst, hrest⟩ := both_ok h
    intro x hx
    cases List.mem_cons.mp hx with
    | inl heq =>
      subst heq
      exact hfirst
    | inr hmem => exact ih hrest x hmem

section
variable {repr : ℚ → ℚ} {root : Bool} {items : Refs}
  {child : (v : Value) → sizeOf v < sizeOf items → Except Failure Unit}

/-- Of an accepted schema the schemas in it are accepted, and what values have to be multiples of is positive. -/
structure Passed (items : Refs) (child : (v : Value) → sizeOf v < sizeOf items → Except Failure Unit) : Prop where
  property : ∀ name s, (h : propertySchema items name = some s) → child s (sizeOf_propertySchema h) = .ok ()
  schema : ∀ keyword ∈ ["additionalProperties", "items", "not"], ∀ s, (h : items.lookup keyword = some s) →
    child s (sizeOf_lookup h) = .ok ()
  branch : ∀ keyword ∈ ["allOf", "anyOf", "oneOf"], ∀ s, (h : s ∈ branches items keyword) →
    child s (sizeOf_branches h) = .ok ()
  multipleOf : ∀ bound, items.lookup "multipleOf" = some bound → isBound "multipleOf" bound = true

theorem onSchema_ok {keyword : String} (h : onSchema items child keyword = .ok ()) {s : Value}
    (hs : items.lookup keyword = some s) : child s (sizeOf_lookup hs) = .ok () := by
  rw [onSchema] at h
  split at h
  · rename_i hnone
    rw [hnone] at hs
    exact nomatch hs
  · rename_i v hv
    cases hv.symm.trans hs
    exact h

theorem onProperties_ok (h : onProperties items child = .ok ()) {name : String} {s : Value}
    (hs : propertySchema items name = some s) : child s (sizeOf_propertySchema hs) = .ok () := by
  rw [onProperties] at h
  split at h
  · rename_i hnone
    rw [propertySchema, hnone] at hs
    exact nomatch hs
  · rename_i properties hproperties
    have hlookup : properties.lookup name = some s := by
      rw [propertySchema, hproperties] at hs
      exact hs
    exact each_ok h (name, s) (item_of_lookup hlookup)
  · exact nomatch h

theorem onBranches_ok {keyword : String} (h : onBranches items child keyword = .ok ()) {s : Value}
    (hs : s ∈ branches items keyword) : child s (sizeOf_branches hs) = .ok () := by
  rw [onBranches] at h
  split at h
  · exact nomatch h
  · exact each_ok h s hs

theorem onAdditionalProperties_ok (h : onAdditionalProperties items child = .ok ()) :
    onSchema items child "additionalProperties" = .ok () := by
  rw [onAdditionalProperties] at h
  split at h
  · exact nomatch h
  · exact h

theorem checkBound_ok {keyword : String} (h : checkBound items keyword = .ok ()) {bound : Value}
    (hbound : items.lookup keyword = some bound) : isBound keyword bound = true := by
  rw [checkBound, hbound, Option.any_some] at h
  split at h
  · exact nomatch h
  · rename_i hnot
    simpa using hnot

theorem passed_of_ok (h : checkSchema items child repr root = .ok ()) : Passed items child := by
  rw [checkSchema] at h
  obtain ⟨-, h⟩ := Calls.ok_of_guard h
  obtain ⟨-, h⟩ := both_ok h
  obtain ⟨hproperties, h⟩ := both_ok h
  obtain ⟨-, h⟩ := both_ok h
  obtain ⟨hadditional, h⟩ := both_ok h
  obtain ⟨helements, h⟩ := both_ok h
  obtain ⟨hallOf, h⟩ := both_ok h
  obtain ⟨hanyOf, h⟩ := both_ok h
  obtain ⟨honeOf, h⟩ := both_ok h
  obtain ⟨hnot, h⟩ := both_ok h
  obtain ⟨-, h⟩ := both_ok h
  obtain ⟨-, h⟩ := both_ok h
  obtain ⟨-, h⟩ := both_ok h
  obtain ⟨-, h⟩ := both_ok h
  obtain ⟨-, h⟩ := both_ok h
  obtain ⟨-, h⟩ := both_ok h
  obtain ⟨-, h⟩ := both_ok h
  obtain ⟨-, h⟩ := both_ok h
  obtain ⟨hmultiple, -⟩ := both_ok h
  constructor
  case property => exact fun name s hs => onProperties_ok hproperties hs
  case multipleOf => exact fun bound hbound => checkBound_ok hmultiple hbound
  case schema =>
    intro keyword hkeyword s hs
    simp only [List.mem_cons, List.not_mem_nil, or_false] at hkeyword
    obtain rfl | rfl | rfl := hkeyword
    · exact onSchema_ok (onAdditionalProperties_ok hadditional) hs
    · exact onSchema_ok helements hs
    · exact onSchema_ok hnot hs
  case branch =>
    intro keyword hkeyword s hs
    simp only [List.mem_cons, List.not_mem_nil, or_false] at hkeyword
    obtain rfl | rfl | rfl := hkeyword
    · exact onBranches_ok hallOf hs
    · exact onBranches_ok hanyOf hs
    · exact onBranches_ok honeOf hs

end

end Operant.Mcp
