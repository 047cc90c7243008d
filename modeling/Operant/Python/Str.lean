import Mathlib.Data.List.Basic
import Mathlib.Tactic

/-! Python texts as they are read from files and written to them.

A text is a list of code points, and halves of surrogate pairs are code points: `json.loads` makes
them. Only texts without them have a UTF-8 encoding. -/
namespace Operant.Python

inductive CodePoint where
  | char (c : Char)
  /-- Half of a surrogate pair, counted from U+D800. -/
  | surrogate (half : Fin 0x800)
  deriving DecidableEq

namespace CodePoint

def char? : CodePoint → Option Char
  | .char c => some c
  | .surrogate _ => none

end CodePoint

abbrev PyStr := List CodePoint

namespace PyStr

def ofChars (cs : List Char) : PyStr := cs.map .char

/-! ### UTF-8 -/

/-- `s.encode("utf-8")`. -/
def encode (s : PyStr) : Option ByteArray := (s.mapM CodePoint.char?).map fun cs => (String.ofList cs).toByteArray

/-- `bytes.decode("utf-8")`. -/
def decode (bytes : ByteArray) : Option PyStr := bytes.utf8Decode?.map fun cs => ofChars cs.toList

theorem mapM_ofChars (cs : List Char) : (ofChars cs).mapM CodePoint.char? = some cs := by
  induction cs with
  | nil => rfl
  | cons c rest ih =>
    rw [ofChars, List.map_cons, List.mapM_cons]
    show (do let rest' ← (ofChars rest).mapM CodePoint.char?; some (c :: rest')) = some (c :: rest)
    rw [ih]
    rfl

theorem encode_ofChars (cs : List Char) : encode (ofChars cs) = some cs.utf8Encode := by
  rw [encode, mapM_ofChars, Option.map_some, String.toByteArray_ofList]

/-- A text has bytes if it has no half of a pair. -/
theorem eq_ofChars {s : PyStr} (h : ∀ p ∈ s, p.char?.isSome = true) : ∃ cs, s = ofChars cs := by
  induction s with
  | nil => exact ⟨[], rfl⟩
  | cons p rest ih =>
    obtain ⟨cs, rfl⟩ := ih fun q hq => h q (List.mem_cons_of_mem p hq)
    cases p with
    | char c => exact ⟨c :: cs, rfl⟩
    | surrogate half => exact nomatch h _ List.mem_cons_self

theorem mem_ofChars {cs : List Char} {p : CodePoint} (h : p ∈ ofChars cs) : p.char?.isSome = true := by
  obtain ⟨c, -, rfl⟩ := List.mem_map.mp h
  rfl

theorem encode_some {s : PyStr} {bytes : ByteArray} (h : encode s = some bytes) :
    ∃ cs, s = ofChars cs ∧ bytes = cs.utf8Encode := by
  induction s generalizing bytes with
  | nil => exact ⟨[], rfl, (Option.some.inj h).symm⟩
  | cons p rest ih =>
    rw [encode, Option.map_eq_some_iff] at h
    obtain ⟨cs, hcs, rfl⟩ := h
    cases p with
    | surrogate half => exact nomatch hcs
    | char c =>
      rw [List.mapM_cons] at hcs
      obtain ⟨ds, hds, heq⟩ := Option.bind_eq_some_iff.mp (show (rest.mapM CodePoint.char?).bind
        (fun ds => some (c :: ds)) = some cs from hcs)
      obtain ⟨es, hes, -⟩ := ih (show encode rest = some (String.ofList ds).toByteArray by
        rw [encode, hds, Option.map_some])
      rw [hes, mapM_ofChars] at hds
      cases hds
      cases heq
      exact ⟨c :: _, by rw [hes]; rfl, String.toByteArray_ofList⟩

theorem encode_append {s t : PyStr} {a b : ByteArray} (hs : encode s = some a) (ht : encode t = some b) :
    encode (s ++ t) = some (a ++ b) := by
  obtain ⟨cs, rfl, rfl⟩ := encode_some hs
  obtain ⟨ds, rfl, rfl⟩ := encode_some ht
  rw [ofChars, ofChars, ← List.map_append, ← List.utf8Encode_append]
  exact encode_ofChars (cs ++ ds)

theorem decode_encode {s : PyStr} {bytes : ByteArray} (h : encode s = some bytes) : decode bytes = some s := by
  obtain ⟨cs, rfl, rfl⟩ := encode_some h
  rw [decode, List.utf8Decode?_utf8Encode, Option.map_some]

theorem encode_decode {bytes : ByteArray} {s : PyStr} (h : decode bytes = some s) : encode s = some bytes := by
  rw [decode, Option.map_eq_some_iff] at h
  obtain ⟨cs, hcs, rfl⟩ := h
  have hget := ByteArray.utf8Encode_get_utf8Decode? (b := bytes) (h := by rw [hcs]; rfl)
  rw [encode_ofChars, ← hget]
  simp [hcs]

/-! ### Line ends -/

def carriageReturn : CodePoint := .char '\r'
def lineFeed : CodePoint := .char '\n'

/-- What is read in text mode: `\r\n` and `\r` are read as `\n`. -/
def universalNewlines : Bool → PyStr → PyStr
  | _, [] => []
  | afterReturn, p :: rest =>
    if p = carriageReturn then lineFeed :: universalNewlines true rest
    else if afterReturn && p = lineFeed then universalNewlines false rest
    else p :: universalNewlines false rest

theorem not_mem_universalNewlines (afterReturn : Bool) (s : PyStr) :
    carriageReturn ∉ universalNewlines afterReturn s := by
  induction s generalizing afterReturn with
  | nil => simp [universalNewlines]
  | cons p rest ih =>
    rw [universalNewlines]
    split
    · rw [List.mem_cons, not_or]
      exact ⟨by decide, ih true⟩
    · rename_i hp
      split
      · exact ih false
      · simp [ih, Ne.symm hp]

/-- A text without `\r` is read as it is. -/
theorem universalNewlines_self {s : PyStr} (h : carriageReturn ∉ s) : universalNewlines false s = s := by
  induction s with
  | nil => rfl
  | cons p rest ih =>
    obtain ⟨hp, hrest⟩ := List.ne_and_not_mem_of_not_mem_cons h
    rw [universalNewlines, if_neg (Ne.symm hp), Bool.false_and, if_neg Bool.false_ne_true, ih hrest]

end PyStr
end Operant.Python
