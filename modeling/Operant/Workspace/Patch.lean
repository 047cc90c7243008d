import Operant.Workspace.Files

/-! What a patch changes.

The text is read with its line ends translated, and written back as it was read; occurrences are
counted from left to right, each behind the one before; and the file is emptied before the new text
is encoded. So a patch is exact where no line ends in a carriage return, where the old text stands at
one place, and where the new one has an encoding. -/
namespace Operant.Workspace
open Operant.Text Operant.Python

/-- The bytes are the same but for the only place where the old text stands. -/
def ReplacesOnly (before : ByteArray) (oldText newText : PyStr) (after : ByteArray) : Prop :=
  ∃ front back : PyStr, ∃ head removed inserted tail : ByteArray,
    PyStr.encode front = some head ∧ PyStr.encode oldText = some removed ∧
    PyStr.encode newText = some inserted ∧ PyStr.encode back = some tail ∧
    before = head ++ removed ++ tail ∧ after = head ++ inserted ++ tail ∧
    ∀ i, StandsAt oldText (front ++ oldText ++ back) i → i = front.length

section
variable {before after : ByteArray} {content oldText newText : PyStr}

theorem encode_three {a b c : PyStr} {x y z : ByteArray} (ha : a.encode = some x) (hb : b.encode = some y)
    (hc : c.encode = some z) : PyStr.encode (a ++ b ++ c) = some (x ++ y ++ z) :=
  PyStr.encode_append (PyStr.encode_append ha hb) hc

/-- What a part of a text that has bytes is encoded to. -/
theorem encode_part {s t : PyStr} (h : ∀ p ∈ t, p.char?.isSome = true) (hsub : s ⊆ t) :
    ∃ bytes, PyStr.encode s = some bytes := by
  obtain ⟨cs, rfl⟩ := PyStr.eq_ofChars fun p hp => h p (hsub hp)
  exact ⟨_, PyStr.encode_ofChars cs⟩

theorem isSome_of_decode {bytes : ByteArray} {s : PyStr} (h : PyStr.decode bytes = some s) :
    ∀ p ∈ s, p.char?.isSome = true := by
  obtain ⟨cs, rfl, -⟩ := PyStr.encode_some (PyStr.encode_decode h)
  exact fun p hp => PyStr.mem_ofChars hp

theorem decode_empty : PyStr.decode .empty = some [] := by
  rw [PyStr.decode, ByteArray.utf8Decode?_empty]
  rfl

/-- Without a carriage return the bytes outside stay. -/
theorem replacesOnly_of_parts {front back : PyStr} (hcontent : PyStr.decode before = some (front ++ oldText ++ back))
    (hnew : ∀ p ∈ newText, p.char?.isSome = true)
    (honly : ∀ i, StandsAt oldText (front ++ oldText ++ back) i → i = front.length) :
    ∃ after, PyStr.encode (front ++ newText ++ back) = some after ∧ ReplacesOnly before oldText newText after := by
  have hall := isSome_of_decode hcontent
  obtain ⟨head, hhead⟩ := encode_part (s := front) hall (by simp)
  obtain ⟨removed, hremoved⟩ := encode_part (s := oldText) hall (by simp)
  obtain ⟨tail, htail⟩ := encode_part (s := back) hall (by simp)
  obtain ⟨inserted, hinserted⟩ := encode_part hnew (List.Subset.refl newText)
  have hbefore : before = head ++ removed ++ tail := by
    have hencoded := PyStr.encode_decode hcontent
    rw [encode_three hhead hremoved htail] at hencoded
    exact (Option.some.inj hencoded).symm
  exact ⟨_, encode_three hhead hinserted htail,
    front, back, head, removed, inserted, tail, hhead, hremoved, hinserted, htail, hbefore, rfl, honly⟩

/-- A patch of the translated text that only replaces: nothing was translated, and the old text
stands at one place. -/
theorem ReplacesOnly.untranslated {front back : PyStr} (h : ReplacesOnly before oldText newText after)
    (hcontent : PyStr.decode before = some content)
    (hread : PyStr.universalNewlines false content = front ++ oldText ++ back)
    (hafter : PyStr.encode (front ++ newText ++ back) = some after) :
    PyStr.carriageReturn ∉ content ∧ ∃ i, StandsAt oldText content i ∧ ∀ j, StandsAt oldText content j → j = i := by
  obtain ⟨front', back', head, removed, inserted, tail, hhead, hremoved, hinserted, htail, hbefore, hsame, honly⟩ := h
  have hmine : content = front' ++ oldText ++ back' := by
    rw [hbefore, PyStr.decode_encode (encode_three hhead hremoved htail)] at hcontent
    exact (Option.some.inj hcontent).symm
  have hnew : front ++ newText ++ back = front' ++ newText ++ back' := by
    have hdecoded := PyStr.decode_encode hafter
    rw [hsame, PyStr.decode_encode (encode_three hhead hinserted htail)] at hdecoded
    exact (Option.some.inj hdecoded).symm
  have hnone := PyStr.not_mem_universalNewlines false content
  rw [hread, ← List.count_eq_zero, List.count_append, List.count_append] at hnone
  have houtside := count_outside hnew PyStr.carriageReturn
  refine ⟨?_, front'.length, ?_, ?_⟩
  · rw [hmine, ← List.count_eq_zero, List.count_append, List.count_append]
    omega
  · rw [hmine]
    exact standsAt_middle front' oldText back'
  · rw [hmine]
    exact honly

end

namespace WorkspaceTools
variable (tools : WorkspaceTools) (disk : Disk) (path : String) (oldText newText : PyStr)

/-- A patch that succeeds replaces the only place where the old text stands and no other byte; one
that raises leaves the file as it was. -/
def PatchesExactly (target : Path) (bytes : ByteArray) : Prop :=
  (∀ result after, tools.applyPatch disk path oldText newText = (.ok result, after) →
    ∃ written, after target = some (.file written) ∧ ReplacesOnly bytes oldText newText written) ∧
  ∀ e after, tools.applyPatch disk path oldText newText = (.error e, after) → after target = some (.file bytes)

variable {tools disk path oldText newText} {target : Path} {bytes : ByteArray} {content : PyStr}

/-- A call that raises before it writes. -/
theorem patchesExactly_of_error {e : Raised} (hfile : disk target = some (.file bytes))
    (h : tools.applyPatch disk path oldText newText = (.error e, disk)) :
    tools.PatchesExactly disk path oldText newText target bytes := by
  refine ⟨fun result after hok => ?_, fun e' after herror => ?_⟩
  · rw [h] at hok
    exact nomatch hok
  · rw [h] at herror
    obtain ⟨-, rfl⟩ := Prod.mk.inj herror
    exact hfile

theorem write_self (target : Path) (node : Node) : disk.write target node target = some node := if_pos rfl

/-- What a call comes to that passes the checks of its texts. -/
theorem applyPatch_found (hpath : tools.resolve disk path true false = .ok target)
    (hfile : disk target = some (.file bytes)) (hcontent : PyStr.decode bytes = some content)
    (hold : oldText ≠ []) (hchange : oldText ≠ newText)
    (hfound : occurrences oldText (PyStr.universalNewlines false content) = 1) :
    tools.applyPatch disk path oldText newText =
      tools.patched disk target false (replaceFirst oldText newText (PyStr.universalNewlines false content)) := by
  have hread : readText bytes = some (PyStr.universalNewlines false content) := by
    rw [readText, hcontent, Option.map_some]
  simp only [applyPatch, hpath, hold, hchange, hfile, hread, hfound, if_false, ne_eq, not_true]

theorem applyPatch_refused (hpath : tools.resolve disk path true false = .ok target)
    (hfile : disk target = some (.file bytes)) (hcontent : PyStr.decode bytes = some content)
    (h : oldText = [] ∨ oldText = newText ∨
      occurrences oldText (PyStr.universalNewlines false content) ≠ 1) :
    ∃ e, tools.applyPatch disk path oldText newText = (.error e, disk) := by
  have hexists : disk.exists? target = true := by rw [Disk.exists?, hfile]; rfl
  have hread : readText bytes = some (PyStr.universalNewlines false content) := by
    rw [readText, hcontent, Option.map_some]
  simp only [applyPatch, hpath, hexists, hfile, hread, if_true]
  split
  · exact ⟨_, rfl⟩
  · rename_i hold
    split
    · exact ⟨_, rfl⟩
    · rename_i hchange
      rw [if_pos ((h.resolve_left hold).resolve_left hchange)]
      exact ⟨_, rfl⟩

theorem patched_encodes {text : PyStr} {written : ByteArray} (h : text.encode = some written) :
    tools.patched disk target false text =
      (.ok ⟨"/".intercalate (tools.relative target), false⟩, disk.write target (.file written)) := by
  rw [patched, writeText, h]

theorem patched_raises {text : PyStr} (h : text.encode = none) :
    tools.patched disk target false text = (.error .unicodeEncodeError, disk.write target (.file .empty)) := by
  rw [patched, writeText, h]

end WorkspaceTools

open WorkspaceTools in
/-- For every file that is UTF-8, every old and every new text: the call patches exactly if and only
if it is refused for its texts, or no carriage return is in the file, the old text stands at one
place, and the new text has no half of a surrogate pair. -/
theorem apply_patch_exact_iff (tools : WorkspaceTools) (disk : Disk) (path : String) (oldText newText : PyStr)
    (target : Path) (bytes : ByteArray) (content : PyStr) (hpath : tools.resolve disk path true false = .ok target)
    (hfile : disk target = some (.file bytes)) (hcontent : PyStr.decode bytes = some content) :
    tools.PatchesExactly disk path oldText newText target bytes ↔
      (oldText = [] ∨ oldText = newText ∨ occurrences oldText (PyStr.universalNewlines false content) ≠ 1) ∨
      (PyStr.carriageReturn ∉ content ∧
        (∃ i, StandsAt oldText content i ∧ ∀ j, StandsAt oldText content j → j = i) ∧
        ∀ p ∈ newText, p.char?.isSome = true) := by
  by_cases hrefused : oldText = [] ∨ oldText = newText ∨
      occurrences oldText (PyStr.universalNewlines false content) ≠ 1
  · obtain ⟨e, h⟩ := applyPatch_refused hpath hfile hcontent hrefused
    exact iff_of_true (patchesExactly_of_error hfile h) (.inl hrefused)
  obtain ⟨hold, hchange, hfound⟩ : oldText ≠ [] ∧ oldText ≠ newText ∧
      occurrences oldText (PyStr.universalNewlines false content) = 1 := by
    simpa only [not_or, not_not, ne_eq] using hrefused
  have hcall := applyPatch_found hpath hfile hcontent hold hchange hfound
  obtain ⟨front, back, hread, hreplaced⟩ := replaceFirst_parts newText (s := PyStr.universalNewlines false content)
    (by rw [hfound]; exact Nat.one_ne_zero)
  rw [hreplaced] at hcall
  rw [or_iff_right hrefused]
  constructor
  · rintro ⟨hok, herror⟩
    cases hencoded : PyStr.encode (front ++ newText ++ back) with
    | none =>
      rw [patched_raises hencoded] at hcall
      have hempty := herror _ _ hcall
      rw [write_self] at hempty
      obtain rfl : bytes = .empty := by simpa using hempty.symm
      rw [decode_empty, Option.some.injEq] at hcontent
      rw [← hcontent] at hread
      have hnil := congrArg List.length hread
      have hlength := List.length_pos_of_ne_nil hold
      simp only [PyStr.universalNewlines, List.length_append, List.length_nil] at hnil
      omega
    | some written =>
      rw [patched_encodes hencoded] at hcall
      obtain ⟨after, hafter, hreplaces⟩ := hok _ _ hcall
      rw [write_self] at hafter
      obtain rfl : written = after := by simpa using hafter
      obtain ⟨hreturn, honly⟩ := hreplaces.untranslated hcontent hread hencoded
      obtain ⟨cs, hcs, -⟩ := PyStr.encode_some hencoded
      exact ⟨hreturn, honly, fun p hp => PyStr.mem_ofChars (by rw [← hcs]; simp [hp])⟩
  · rintro ⟨hreturn, ⟨i, -, honly⟩, hnew⟩
    rw [PyStr.universalNewlines_self hreturn] at hread
    rw [hread] at hcontent honly
    have hfront := honly front.length (standsAt_middle front oldText back)
    obtain ⟨written, hencoded, hreplaces⟩ := replacesOnly_of_parts hcontent hnew fun j hj => (honly j hj).trans hfront.symm
    rw [patched_encodes hencoded] at hcall
    refine ⟨fun result after hok => ?_, fun e after herror => ?_⟩
    · rw [hcall] at hok
      obtain ⟨-, rfl⟩ := Prod.mk.inj hok
      exact ⟨written, write_self .., hreplaces⟩
    · rw [hcall] at herror
      cases herror

/-! ### One file -/

/-- A disk with one file below the root. -/
def oneFile (bytes : ByteArray) : Disk := fun path =>
  if path = ["w"] then some .directory else if path = ["w", "f"] then some (.file bytes) else none

def plainTools : WorkspaceTools where
  root := ["w"]
  resolved name := some ["w", name]
  lower name := name

theorem oneFile_resolves (bytes : ByteArray) : plainTools.resolve (oneFile bytes) "f" true false = .ok ["w", "f"] := by
  rfl

theorem apply_patch_exact_line :
    plainTools.PatchesExactly (oneFile "a\nb".toByteArray) "f" [.char 'a'] [.char 'c'] ["w", "f"] "a\nb".toByteArray := by
  have hcontent : PyStr.decode "a\nb".toByteArray = some [.char 'a', .char '\n', .char 'b'] :=
    PyStr.decode_encode (PyStr.encode_ofChars ['a', '\n', 'b'])
  refine (apply_patch_exact_iff plainTools _ "f" _ _ _ _ _ (oneFile_resolves _) rfl hcontent).mpr (.inr ⟨?_, ?_, ?_⟩)
  · decide
  · refine ⟨0, by decide, fun j hj => ?_⟩
    have hlt : j < 3 := hj.lt (List.cons_ne_nil _ _)
    interval_cases j
    · rfl
    · exact absurd hj (by decide)
    · exact absurd hj (by decide)
  · decide

/-- The line ends in `\r\n`; after the patch it ends in `\n`. -/
theorem apply_patch_rewrites_line_end :
    (plainTools.applyPatch (oneFile "a\r\nb".toByteArray) "f" [.char 'a'] [.char 'c']) =
      (.ok ⟨"f", false⟩, (oneFile "a\r\nb".toByteArray).write ["w", "f"] (.file "c\nb".toByteArray)) ∧
    ¬plainTools.PatchesExactly (oneFile "a\r\nb".toByteArray) "f" [.char 'a'] [.char 'c'] ["w", "f"]
      "a\r\nb".toByteArray := by
  have hcontent : PyStr.decode "a\r\nb".toByteArray = some [.char 'a', .char '\r', .char '\n', .char 'b'] :=
    PyStr.decode_encode (PyStr.encode_ofChars ['a', '\r', '\n', 'b'])
  have hcall : plainTools.applyPatch (oneFile "a\r\nb".toByteArray) "f" [.char 'a'] [.char 'c'] =
      (.ok ⟨"f", false⟩, (oneFile "a\r\nb".toByteArray).write ["w", "f"] (.file "c\nb".toByteArray)) := by
    rw [WorkspaceTools.applyPatch_found (oneFile_resolves _) rfl hcontent (by decide) (by decide) (by decide)]
    exact WorkspaceTools.patched_encodes (PyStr.encode_ofChars ['c', '\n', 'b'])
  refine ⟨hcall, fun h => ?_⟩
  obtain ⟨written, hwritten, front, back, head, removed, inserted, tail, -, hremoved, hinserted, -, hbefore, hafter, -⟩ :=
    h.1 _ _ hcall
  rw [WorkspaceTools.write_self] at hwritten
  obtain rfl : "c\nb".toByteArray = written := by simpa using hwritten
  obtain rfl : "a".toByteArray = removed := Option.some.inj hremoved
  obtain rfl : "c".toByteArray = inserted := Option.some.inj hinserted
  have hbytes := congrArg ByteArray.size hbefore
  have hless := congrArg ByteArray.size hafter
  simp only [ByteArray.size_append] at hbytes hless
  have hfour : "a\r\nb".toByteArray.size = 4 := by decide
  have hthree : "c\nb".toByteArray.size = 3 := by decide
  have ha : "a".toByteArray.size = 1 := by decide
  have hc : "c".toByteArray.size = 1 := by decide
  omega

end Operant.Workspace
