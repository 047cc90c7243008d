import Operant.Security.Kept

/-! What redaction leaves of names and digests: texts of small letters, digits and `_`. -/
namespace Operant.Security
open Operant.Text Operant.Text.Pattern Operant.Python

/-- A small letter, a digit or `_`. -/
def isPlain (c : Char) : Bool := Interpreter.isKeyChar c || c = '_'

def isAsciiSpace (c : Char) : Bool := (9 ≤ c.toNat && c.toNat ≤ 13) || (28 ≤ c.toNat && c.toNat ≤ 32)

/-- What every build's tables say of ASCII. -/
structure Interpreter.Ascii (py : Interpreter) : Prop where
  fold : ∀ c : Char, c.toNat < 128 → py.fold c = c.toLower
  lower : ∀ c : Char, c.toNat < 128 → py.lower c = [c.toLower]
  space : ∀ c : Char, c.toNat < 128 → py.isSpace c = isAsciiSpace c

theorem isPlain_iff {c : Char} : isPlain c = true ↔
    (97 ≤ c.toNat ∧ c.toNat ≤ 122) ∨ (48 ≤ c.toNat ∧ c.toNat ≤ 57) ∨ c = '_' := by
  unfold isPlain Interpreter.isKeyChar isDigit
  simp only [Bool.or_eq_true, Bool.and_eq_true, decide_eq_true_eq, or_assoc]
  exact Iff.rfl

theorem isPlain_toNat {c : Char} (h : isPlain c = true) : c.toNat < 128 ∧ ¬(65 ≤ c.toNat ∧ c.toNat ≤ 90) := by
  rw [isPlain_iff] at h
  rcases h with h | h | rfl
  · omega
  · omega
  · decide

theorem not_space_plain {c : Char} (h : isPlain c = true) : isAsciiSpace c = false := by
  unfold isAsciiSpace
  rw [isPlain_iff] at h
  rcases h with h | h | rfl
  · simp
    omega
  · simp
    omega
  · decide

theorem toLower_plain {c : Char} (h : isPlain c = true) : c.toLower = c := by
  have hupper := (isPlain_toNat h).2
  unfold Char.toLower
  split
  · rename_i hle
    exact absurd hle hupper
  · rfl

namespace Interpreter

theorem text_takes {q : Char → Prop} {same : Char → Char → Bool} {s : String} {w : Char}
    (hw : w ∈ s.toList) (h : ∀ c, same w c = true → q c) : (Pattern.text same s).Takes q :=
  Takes.all (.char h) (List.mem_map_of_mem hw)

theorem not_plain_oneOf {s : String} (h : s.toList.all (fun c => !isPlain c) = true) (c : Char)
    (hc : oneOf s c = true) : ¬ isPlain c = true := by
  have hplain := List.all_eq_true.mp h c (of_decide_eq_true hc)
  rw [Bool.not_eq_true'] at hplain
  rw [hplain]
  decide

theorem quote_takes : quote.Takes fun c => ¬ isPlain c = true :=
  .char fun c hc => not_plain_oneOf (by decide) c hc

variable {py : Interpreter} (ascii : py.Ascii)
include ascii

theorem fold_plain {c : Char} (h : isPlain c = true) : py.fold c = c := by
  rw [ascii.fold c (isPlain_toNat h).1, toLower_plain h]

/-- A plain character is the same as no other small character. -/
theorem same_plain {c d : Char} (hc : c.toNat < 128) (hlower : c.toLower = c) (hplain : isPlain c = false)
    (h : py.same c d = true) : isPlain d = false := by
  cases hd : isPlain d with
  | false => rfl
  | true =>
    have heq := of_decide_eq_true h
    rw [ascii.fold c hc, hlower, fold_plain ascii hd] at heq
    exact absurd (heq ▸ hd) (by rw [hplain]; decide)

theorem cut_plain {word s : List Char} {w : Char} {t : List Char} (hword : word = w :: t)
    (hw : w.toNat < 128) (hlower : w.toLower = w) (hplain : isPlain w = false)
    (h : ∀ c ∈ s, isPlain c = true) : py.cut word s = none := by
  induction s with
  | nil => rfl
  | cons c rest ih =>
    have hc := h c List.mem_cons_self
    unfold cut
    split
    · rename_i hmatch
      rw [hword, List.zip_cons_cons, List.all_cons, Bool.and_eq_true] at hmatch
      exact absurd (same_plain ascii hw hlower hplain hmatch.2.1) (by rw [hc]; decide)
    · rw [ih fun d hd => h d (List.mem_cons_of_mem c hd)]
      rfl

theorem redactPrivateKeys_plain {s : List Char} (h : ∀ c ∈ s, isPlain c = true) :
    py.redactPrivateKeys s = s := by
  have hnone : py.cut "-----BEGIN ".toList s = none :=
    cut_plain ascii (w := '-') (t := "----BEGIN ".toList) rfl (by decide) (by decide) (by decide) h
  unfold redactPrivateKeys redactPrivateKeysFrom
  rw [hnone]

theorem text_takes_plain {s : String} {w : Char} (hw : w ∈ s.toList) (hsmall : w.toNat < 128)
    (hlower : w.toLower = w) (hplain : isPlain w = false) :
    (py.text s).Takes fun c => ¬ isPlain c = true :=
  text_takes hw fun c hc => by
    rw [same_plain ascii hsmall hlower hplain hc]
    decide

/-- Every rule but the last matches nothing without a character that is not plain. -/
theorem rules_takes {rule : Pattern × (Place → List Char)} (h : rule ∈ py.rules) :
    (rule.1.Takes fun c => ¬ isPlain c = true) ∨
      (rule.1.Takes (· = 'g') ∧ 24 ≤ rule.1.fewest) := by
  unfold rules standaloneSecrets at h
  simp only [List.map_cons, List.map_nil, List.cons_append, List.nil_append, List.mem_cons,
    List.not_mem_nil, or_false] at h
  rcases h with rfl | rfl | rfl | rfl | rfl | rfl | rfl | rfl | rfl
  · left
    refine Takes.all (a := .many (oneOf " \t") 1 none true) (.many (Nat.le_refl 1) ?_) (by simp)
    exact not_plain_oneOf (by decide)
  · left
    refine Takes.all (a := .many py.isSpace 1 none true) (.many (Nat.le_refl 1) fun c hc hplain => ?_) (by simp)
    rw [ascii.space c (isPlain_toNat hplain).1, not_space_plain hplain] at hc
    cases hc
  · left
    refine .left (.group (Takes.all (a := py.text "://") ?_ (by simp)))
    exact text_takes_plain ascii (w := ':') (by decide) (by decide) (by decide) (by decide)
  · left
    exact .right (.left (.group quote_takes))
  · left
    exact .right (.left (.group quote_takes))
  · left
    have hassign : (Pattern.all [py.spaces, .char (oneOf "=:"), py.spaces]).Takes fun c => ¬ isPlain c = true :=
      Takes.all (a := .char (oneOf "=:")) (.char (not_plain_oneOf (by decide))) (by simp)
    exact .left (Takes.all (a := .group 2 _) (.group hassign) (by simp))
  · left
    refine .right (.left (text_takes (w := '-') (by decide) fun c hc => ?_))
    rw [← of_decide_eq_true hc]
    decide
  · left
    refine .right (.left (text_takes (w := 'K') (by decide) fun c hc => ?_))
    rw [← of_decide_eq_true hc]
    decide
  · right
    refine ⟨.right (.left (text_takes (w := 'g') (by decide) fun c hc => (of_decide_eq_true hc).symm)), ?_⟩
    simp only [all, fewest, fewest_text, boundary]
    decide

theorem redactSecrets_plain {s : List Char} (h : ∀ c ∈ s, isPlain c = true)
    (hshort : 'g' ∉ s ∨ s.length < 24) : py.redactSecrets s = s := by
  have fold (rules : List (Pattern × (Place → List Char))) (h' : ∀ rule ∈ rules, rule ∈ py.rules) :
      rules.foldl (fun s rule => rule.1.sub rule.2 s) s = s := by
    induction rules with
    | nil => rfl
    | cons rule rest ih =>
      have hrule : rule.1.sub rule.2 s = s := by
        cases rules_takes ascii (h' rule List.mem_cons_self) with
        | inl htakes => exact sub_without htakes fun c hc hnot => hnot (h c hc)
        | inr hlast =>
          cases hshort with
          | inl hg => exact sub_without hlast.1 fun c hc heq => hg (heq ▸ hc)
          | inr hlength => exact sub_short (by omega)
      rw [List.foldl_cons, hrule]
      exact ih fun r hr => h' r (List.mem_cons_of_mem _ hr)
  unfold redactSecrets
  rw [redactPrivateKeys_plain ascii h]
  exact fold py.rules fun _ h => h

/-- A name or a digest stays. -/
theorem redactPublicText_plain {s : String} {maxChars : Nat} (h : ∀ c ∈ s.toList, isPlain c = true)
    (hshort : 'g' ∉ s.toList ∨ s.toList.length < 24) (hmax : s.toList.length ≤ maxChars) :
    py.redactPublicText maxChars s = s := by
  unfold redactPublicText
  rw [redactSecrets_plain ascii h hshort, if_pos hmax, String.ofList_toList]

theorem lower_plain {s : List Char} (h : ∀ c ∈ s, isPlain c = true) : s.flatMap py.lower = s := by
  induction s with
  | nil => rfl
  | cons c rest ih =>
    have hc := h c List.mem_cons_self
    rw [List.flatMap_cons, ih fun d hd => h d (List.mem_cons_of_mem c hd),
      ascii.lower c (isPlain_toNat hc).1, toLower_plain hc]
    rfl

end Interpreter

/-! ### Keys -/

/-- Tables for texts that are ASCII. -/
def asciiTables : Interpreter where
  isWord c := c.isAlphanum || c = '_'
  isSpace := isAsciiSpace
  fold := Char.toLower
  lower c := [c.toLower]
  floatRepr q := toString q
  lower_letter c h h' := by rw [toLower_plain (isPlain_iff.mpr (.inl ⟨h, h'⟩))]

theorem asciiTables_ascii : asciiTables.Ascii where
  fold _ _ := rfl
  lower _ _ := rfl
  space _ _ := rfl

/-- A key that redaction leaves, and that names no secret. -/
def isFieldName (key : String) : Bool :=
  key.toList.all isPlain && key.toList.length < 24 && !asciiTables.isSensitiveKey key

namespace Interpreter
variable {py : Interpreter} (ascii : py.Ascii)
include ascii

theorem isSensitiveKey_plain {key : String} (h : ∀ c ∈ key.toList, isPlain c = true) :
    py.isSensitiveKey key = asciiTables.isSensitiveKey key := by
  unfold isSensitiveKey
  rw [lower_plain ascii h, lower_plain asciiTables_ascii h]

theorem isFieldName_kept {key : String} (h : isFieldName key = true) :
    py.redactPublicText 500 key = key ∧ py.isSensitiveKey key = false := by
  unfold isFieldName at h
  simp only [Bool.and_eq_true, List.all_eq_true, decide_eq_true_eq, Bool.not_eq_true'] at h
  obtain ⟨⟨hplain, hshort⟩, hname⟩ := h
  have hkept : py.redactPublicText 500 key = key :=
    redactPublicText_plain ascii hplain (.inr hshort) (by omega)
  exact ⟨hkept, (isSensitiveKey_plain ascii hplain).trans hname⟩

end Interpreter
end Operant.Security
