import Mathlib.Data.List.Basic
import Mathlib.Data.String.Basic
import Mathlib.Tactic

/-! Frames: byte strings that are read back from their concatenation.

A field ends at the first byte of a kind that is not in it; a code is prefix free if what is written shows where
it ends. Then a concatenation is one of one list only. -/
namespace Operant.Text

section
variable {α β : Type}

/-- A field and what follows its terminator. -/
theorem terminated_inj {z : β} {x y r r' : List β} (hx : z ∉ x) (hy : z ∉ y) (h : x ++ z :: r = y ++ z :: r') :
    x = y ∧ r = r' := by
  induction x generalizing y with
  | nil =>
    cases y with
    | nil => exact ⟨rfl, (List.cons.inj h).2⟩
    | cons b y => exact absurd ((List.cons.inj h).1 ▸ List.mem_cons_self) hy
  | cons a x ih =>
    cases y with
    | nil => exact absurd ((List.cons.inj h).1 ▸ List.mem_cons_self) hx
    | cons b y =>
      obtain ⟨hab, hrest⟩ := List.cons.inj h
      obtain ⟨hxy, hr⟩ := ih (fun hz => hx (List.mem_cons_of_mem _ hz)) (fun hz => hy (List.mem_cons_of_mem _ hz)) hrest
      exact ⟨by rw [hab, hxy], hr⟩

/-- What is written of each of some values is not empty, and shows where it ends. -/
structure PrefixFree (code : α → List β) (p : α → Prop) : Prop where
  ne_nil : ∀ a, p a → code a ≠ []
  inj : ∀ a b r r', p a → p b → code a ++ r = code b ++ r' → a = b ∧ r = r'

/-- A concatenation of prefix-free codes is one of one list. -/
theorem PrefixFree.flatMap_inj {code : α → List β} {p : α → Prop} (h : PrefixFree code p) {xs ys : List α}
    (hxs : ∀ a ∈ xs, p a) (hys : ∀ a ∈ ys, p a) (heq : xs.flatMap code = ys.flatMap code) : xs = ys := by
  induction xs generalizing ys with
  | nil =>
    cases ys with
    | nil => rfl
    | cons b ys =>
      rw [List.flatMap_nil, List.flatMap_cons, eq_comm, List.append_eq_nil_iff] at heq
      exact absurd heq.1 (h.ne_nil b (hys b List.mem_cons_self))
  | cons a xs ih =>
    cases ys with
    | nil =>
      rw [List.flatMap_nil, List.flatMap_cons, List.append_eq_nil_iff] at heq
      exact absurd heq.1 (h.ne_nil a (hxs a List.mem_cons_self))
    | cons b ys =>
      rw [List.flatMap_cons, List.flatMap_cons] at heq
      obtain ⟨hab, hrest⟩ := h.inj a b _ _ (hxs a List.mem_cons_self) (hys b List.mem_cons_self) heq
      rw [hab, ih (fun c hc => hxs c (List.mem_cons_of_mem a hc)) (fun c hc => hys c (List.mem_cons_of_mem b hc)) hrest]

end

/-! ### UTF-8 -/

def utf8 (cs : List Char) : List UInt8 := cs.flatMap String.utf8EncodeChar

theorem utf8_toByteArray (cs : List Char) : (utf8 cs).toByteArray = cs.utf8Encode := rfl

theorem utf8_inj {cs ds : List Char} (h : utf8 cs = utf8 ds) : cs = ds := by
  have hbytes : cs.utf8Encode = ds.utf8Encode := congrArg List.toByteArray h
  have hdecoded := congrArg ByteArray.utf8Decode? hbytes
  rw [List.utf8Decode?_utf8Encode, List.utf8Decode?_utf8Encode] at hdecoded
  simpa using hdecoded

theorem ofNat_ne_zero {n : Nat} (hpos : 0 < n) (hlt : n < 256) : (0 : UInt8) ≠ UInt8.ofNat n := by
  intro h
  have hnat := congrArg UInt8.toNat h
  rw [UInt8.toNat_ofNat', Nat.mod_eq_of_lt hlt] at hnat
  exact absurd hnat (Nat.ne_of_lt hpos)

/-- Only the character with that code has a zero byte. -/
theorem zero_mem_utf8EncodeChar {c : Char} (h : (0 : UInt8) ∈ String.utf8EncodeChar c) : c = '\x00' := by
  unfold String.utf8EncodeChar at h
  dsimp only at h
  split at h
  · next hsmall =>
    by_cases hzero : c.val.toNat = 0
    · exact Char.ext (UInt32.toNat_inj.mp hzero)
    · exact absurd (List.mem_singleton.mp h) (ofNat_ne_zero (by omega) (by omega))
  · -- every byte of a longer code has its highest bit
    have hbyte (n m k : Nat) (hm : 0 < m) (hk : 0 < k) (hle : m + k ≤ 256) : (0 : UInt8) ≠ UInt8.ofNat (n % m + k) := by
      have hlt := Nat.mod_lt n hm
      exact ofNat_ne_zero (by omega) (by omega)
    split at h
    · simp only [List.mem_cons, List.not_mem_nil, or_false] at h
      rcases h with h | h
      · exact absurd h (hbyte _ 32 192 (by decide) (by decide) (by decide))
      · exact absurd h (hbyte _ 64 128 (by decide) (by decide) (by decide))
    · split at h
      · simp only [List.mem_cons, List.not_mem_nil, or_false] at h
        rcases h with h | h | h
        · exact absurd h (hbyte _ 16 224 (by decide) (by decide) (by decide))
        · exact absurd h (hbyte _ 64 128 (by decide) (by decide) (by decide))
        · exact absurd h (hbyte _ 64 128 (by decide) (by decide) (by decide))
      · simp only [List.mem_cons, List.not_mem_nil, or_false] at h
        rcases h with h | h | h | h
        · exact absurd h (hbyte _ 8 240 (by decide) (by decide) (by decide))
        · exact absurd h (hbyte _ 64 128 (by decide) (by decide) (by decide))
        · exact absurd h (hbyte _ 64 128 (by decide) (by decide) (by decide))
        · exact absurd h (hbyte _ 64 128 (by decide) (by decide) (by decide))

theorem zero_not_mem_utf8 {cs : List Char} (h : '\x00' ∉ cs) : (0 : UInt8) ∉ utf8 cs := by
  intro hzero
  obtain ⟨c, hc, hmem⟩ := List.mem_flatMap.mp hzero
  exact h (zero_mem_utf8EncodeChar hmem ▸ hc)

/-- `str(n).encode("ascii")`. -/
def decimal (n : Nat) : List UInt8 := utf8 (Nat.toDigits 10 n)

theorem decimal_inj {m n : Nat} (h : decimal m = decimal n) : m = n := by
  have hdigits := congrArg (fun cs => Nat.ofDigitChars 10 cs 0) (utf8_inj h)
  rwa [Nat.ofDigitChars_ten_toDigits, Nat.ofDigitChars_ten_toDigits] at hdigits

theorem zero_not_mem_decimal (n : Nat) : (0 : UInt8) ∉ decimal n := by
  refine zero_not_mem_utf8 fun h => ?_
  have hdigit := Nat.isDigit_of_mem_toDigits (by decide) (by decide) h
  exact absurd hdigit (by decide)

end Operant.Text
