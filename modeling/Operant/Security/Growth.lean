import Operant.Text.Growth
import Operant.Security.Bounded

/-! Redaction makes a payload at most 71 times as long.

Every rule that may add to a text needs a space, a colon or an equals sign in each of its matches,
and no rule adds one of these. -/
namespace Operant.Security
open Operant.Text Operant.Text.Pattern Operant.Python

/-! ### The weight of a character -/

/-- A character in a JSON string. -/
def escape (c : Char) : List Char :=
  if c = '"' then "\\\"".toList
  else if c = '\\' then "\\\\".toList
  else if c = '\n' then "\\n".toList
  else if c = '\r' then "\\r".toList
  else if c = '\t' then "\\t".toList
  else if c = '\x08' then "\\b".toList
  else if c = '\x0c' then "\\f".toList
  else if c.toNat < 0x20 then
    "\\u00".toList ++ [Nat.digitChar (c.toNat / 16), Nat.digitChar (c.toNat % 16)]
  else [c]

/-- Its bytes. -/
def jsonWeight (c : Char) : Nat := total Char.utf8Size (escape c)

theorem jsonWeight_pos (c : Char) : 1 ≤ jsonWeight c := by
  have hlength : 1 ≤ (escape c).length := by
    unfold escape
    split_ifs <;> simp
  exact Nat.le_trans hlength (length_le_total Char.utf8Size_pos _)

theorem ofList_bytes (s : List Char) : (String.ofList s).utf8ByteSize = total Char.utf8Size s := by
  induction s with
  | nil => rfl
  | cons c rest ih =>
    have hcons : String.ofList (c :: rest) = String.singleton c ++ String.ofList rest := by
      apply String.toList_injective
      simp
    rw [hcons, String.utf8ByteSize_append, String.utf8ByteSize_singleton, ih, total_cons]

theorem dumpsStr_bytes (s : String) :
    total Char.utf8Size (Interpreter.dumpsStr s) = total jsonWeight s.toList + 2 := by
  have hescaped (cs : List Char) : total Char.utf8Size (cs.flatMap escape) = total jsonWeight cs := by
    induction cs with
    | nil => rfl
    | cons c rest ih => rw [List.flatMap_cons, total_append, ih, total_cons]; rfl
  have hquote : total Char.utf8Size ['"'] = 1 := by decide
  show total Char.utf8Size ('"' :: s.toList.flatMap escape ++ ['"']) = _
  rw [List.cons_append, total_cons, total_append, hescaped, hquote]
  have hsize : Char.utf8Size '"' = 1 := by decide
  omega

/-! ### Marks -/

namespace Interpreter

/-- What no rule adds to a text. -/
def isMark (py : Interpreter) (c : Char) : Bool :=
  py.isSpace c || oneOf " \t:=" c || py.same ':' c || py.same ' ' c

variable {py : Interpreter}

theorem mark_of_space {c : Char} (h : py.isSpace c = true) : py.isMark c = true := by
  unfold isMark
  rw [h]
  rfl

theorem mark_of_oneOf {s : String} (hs : s.toList.all (oneOf " \t:=") = true) (c : Char)
    (h : oneOf s c = true) : py.isMark c = true := by
  unfold isMark
  rw [List.all_eq_true.mp hs c (of_decide_eq_true h)]
  simp

variable (ascii : py.Ascii)
include ascii

theorem isMark_ascii {c : Char} (h : c.toNat < 128) : py.isMark c = asciiTables.isMark c := by
  have hcolon : py.fold ':' = ':' := ascii.fold ':' (by decide)
  have hspace : py.fold ' ' = ' ' := ascii.fold ' ' (by decide)
  have hc : py.fold c = asciiTables.fold c := ascii.fold c h
  have hisSpace : py.isSpace c = asciiTables.isSpace c := ascii.space c h
  unfold isMark same
  rw [hcolon, hspace, hc, hisSpace]
  rfl

theorem countP_ascii {s : List Char} (h : s.all (fun c => c.toNat < 128) = true) :
    s.countP py.isMark = s.countP asciiTables.isMark :=
  List.countP_congr fun c hc => by rw [isMark_ascii ascii (of_decide_eq_true (List.all_eq_true.mp h c hc))]

theorem redacted_mark : redacted.countP py.isMark = 0 :=
  (countP_ascii ascii (by decide)).trans (by decide)

omit ascii in
theorem redacted_weight : total jsonWeight redacted = 10 := by decide

/-! ### The rules -/

omit ascii in
/-- A constant instead of a match. -/
theorem replaces_constant {a : Pattern} {text : List Char} {g k : Nat}
    (hweight : total jsonWeight text ≤ a.fewest + g * k) (hkind : text.countP py.isMark ≤ k)
    (hk : k = 0 ∨ k = 1 ∧ a.Takes (py.isMark · = true)) :
    Replaces jsonWeight py.isMark g a fun _ => text := by
  intro s e t h ht
  have hlength := h.fewest_length ht
  have htotal := length_le_total jsonWeight_pos t
  have hcount : k ≤ t.countP py.isMark := by
    cases hk with
    | inl hzero => omega
    | inr hone =>
      obtain ⟨c, hc, hmark⟩ := hone.2.mem h ht
      have hpos := List.countP_pos_iff.mpr ⟨c, hc, hmark⟩
      omega
  have hmul := Nat.mul_le_mul_left g hcount
  exact ⟨by dsimp only; omega, by dsimp only; omega⟩

theorem bearer_grows : Replaces jsonWeight py.isMark 9 py.bearer fun _ => "Bearer ".toList ++ redacted := by
  have hfewest : py.bearer.fewest = 8 := by
    simp only [bearer, boundary, text, all, fewest, fewest_text]
    decide
  have hkind : ("Bearer ".toList ++ redacted).countP py.isMark = 1 :=
    (countP_ascii ascii (by decide)).trans (by decide)
  have hspace : py.bearer.Takes (py.isMark · = true) :=
    Takes.all (a := .many (oneOf " \t") 1 none true) (.many (Nat.le_refl 1) (mark_of_oneOf (by decide))) (by simp)
  exact replaces_constant (k := 1) (by rw [hfewest]; decide) (by rw [hkind]) (.inr ⟨rfl, hspace⟩)

theorem basic_grows : Replaces jsonWeight py.isMark 6 py.basic fun _ => "Basic ".toList ++ redacted := by
  have hfewest : py.basic.fewest = 10 := by
    simp only [basic, boundary, text, all, fewest, fewest_text]
    decide
  have hkind : ("Basic ".toList ++ redacted).countP py.isMark = 1 :=
    (countP_ascii ascii (by decide)).trans (by decide)
  have hspace : py.basic.Takes (py.isMark · = true) :=
    Takes.all (a := .many py.isSpace 1 none true) (.many (Nat.le_refl 1) fun _ => mark_of_space) (by simp)
  exact replaces_constant (k := 1) (by rw [hfewest]; decide) (by rw [hkind]) (.inr ⟨rfl, hspace⟩)

theorem standalone_grows {a : Pattern} (h : a ∈ py.standaloneSecrets) :
    Replaces jsonWeight py.isMark 0 a fun _ => redacted := by
  have hfewest : 10 ≤ a.fewest := by
    unfold standaloneSecrets at h
    simp only [List.mem_cons, List.not_mem_nil, or_false] at h
    rcases h with rfl | rfl | rfl <;>
      simp only [boundary, all, fewest, fewest_text] <;>
      decide
  refine replaces_constant (k := 0) ?_ (Nat.le_of_eq (redacted_mark ascii)) (.inl rfl)
  rw [redacted_weight]
  omega

theorem urlUserinfo_grows : Replaces jsonWeight py.isMark 11 py.urlUserinfo
    fun s => s.group 1 ++ redacted ++ ['@'] := by
  intro s e t h ht
  obtain ⟨m, t₁, t₂, h₁, h₂, ht₁, ht₂, rfl⟩ := h.parts ht
  have hgroup : e.group 1 = t₁ := by
    rw [h₂.group_keeps (show 1 ∉ [2] by decide)]
    exact h₁.group_eq ht₁
  have hcolon : (1 : Nat) ≤ t₁.countP py.isMark := by
    have htext : (py.text "://").Takes (py.isMark · = true) := by
      refine text_takes (w := ':') (by decide) fun c hc => ?_
      unfold isMark
      rw [hc]
      simp
    obtain ⟨c, hc, hmark⟩ := (Takes.group (Takes.all htext (by simp))).mem h₁ ht₁
    exact List.countP_pos_iff.mpr ⟨c, hc, hmark⟩
  have hmark := redacted_mark ascii
  have hat : ['@'].countP py.isMark = 0 := (countP_ascii ascii (by decide)).trans (by decide)
  have hweight := redacted_weight
  have hone : total jsonWeight ['@'] = 1 := by decide
  constructor
  · simp only [hgroup, total_append, List.countP_append]
    omega
  · simp only [hgroup, List.countP_append]
    omega

omit ascii in
/-- A quoted text: whatever is between the quotation marks, and the mark again. -/
theorem quoted_parts {s e : Place} (h : Leads quoted s e) {t : List Char} (ht : s.rest = t ++ e.rest) :
    (∃ t₁, t = t₁ ++ s.group 3) ∧ ∀ name, name ≠ 4 → e.group name = s.group name := by
  obtain ⟨m, t₁, t₂, h₁, h₂, ht₁, ht₂, rfl⟩ := h.parts ht
  have hagain := h₂.again_eq ht₂
  rw [h₁.group_keeps (show 3 ∉ [4] by decide)] at hagain
  refine ⟨⟨t₁, by rw [hagain]⟩, fun name hname => ?_⟩
  rw [h₂.group_keeps List.not_mem_nil, h₁.group_keeps (by simpa [names] using hname)]

theorem jsonSecret_grows : Replaces jsonWeight py.isMark 10 py.jsonSecret
    fun s => s.group 1 ++ s.group 3 ++ redacted ++ s.group 3 := by
  intro s e t h ht
  obtain ⟨m₁, t₁, t₂, h₁, h₂, ht₁, ht₂, rfl⟩ := h.parts ht
  obtain ⟨m₃, t₃, t₄, h₃, h₄, ht₃, ht₄, rfl⟩ := h₂.parts ht₂
  obtain ⟨⟨inner, rfl⟩, hkeep⟩ := quoted_parts h₄ ht₄
  have hthird : m₃.group 3 = t₃ := h₃.group_eq ht₃
  have hfirst : m₃.group 1 = t₁ := by
    rw [h₃.group_keeps (show 1 ∉ [3] by decide)]
    exact h₁.group_eq ht₁
  have hcolon : (1 : Nat) ≤ t₁.countP py.isMark := by
    have hchar : Takes (py.isMark · = true) (.char (oneOf ":")) := .char (mark_of_oneOf (by decide))
    obtain ⟨c, hc, hmark⟩ := (Takes.group (Takes.all hchar (by simp))).mem h₁ ht₁
    exact List.countP_pos_iff.mpr ⟨c, hc, hmark⟩
  have hmark := redacted_mark ascii
  have hweight := redacted_weight
  rw [hthird]
  constructor
  · simp only [hkeep 1 (by decide), hkeep 3 (by decide), hfirst, hthird, total_append, List.countP_append]
    omega
  · simp only [hkeep 1 (by decide), hkeep 3 (by decide), hfirst, hthird, List.countP_append]
    omega

omit ascii in
/-- A key and what assigns to it. -/
theorem assigned_parts {s e : Place} (h : Leads py.assigned s e) {t : List Char} (ht : s.rest = t ++ e.rest) :
    t = e.group 1 ++ e.group 2 ∧ 1 ≤ (e.group 2).countP py.isMark := by
  obtain ⟨m₀, t₀, t', h₀, h', ht₀, ht', rfl⟩ := h.parts ht
  obtain ⟨m₁, t₁, t'', h₁, h'', ht₁, ht'', rfl⟩ := h'.parts ht'
  obtain ⟨m₂, t₂, t₃, h₂, h₃, ht₂, ht₃, rfl⟩ := h''.parts ht''
  have hempty (s m : Place) (t : List Char) (h : Leads py.boundary s m) (ht : s.rest = t ++ m.rest) : t = [] := by
    cases h
    exact List.self_eq_append_left.mp ht
  have hfirst : e.group 1 = t₁ := by
    rw [h₃.group_keeps (show 1 ∉ [2] by decide), h₂.group_keeps List.not_mem_nil]
    exact h₁.group_eq ht₁
  have hsecond : e.group 2 = t₃ := h₃.group_eq ht₃
  have hchar : Takes (py.isMark · = true) (.char (oneOf "=:")) := .char (mark_of_oneOf (by decide))
  obtain ⟨c, hc, hmark⟩ := (Takes.group (Takes.all hchar (by simp))).mem h₃ ht₃
  rw [hempty _ _ _ h₀ ht₀, hempty _ _ _ h₂ ht₂, hfirst, hsecond]
  exact ⟨rfl, List.countP_pos_iff.mpr ⟨c, hc, hmark⟩⟩

theorem quotedSecret_grows : Replaces jsonWeight py.isMark 10 py.quotedSecret
    fun s => s.group 1 ++ s.group 2 ++ s.group 3 ++ redacted ++ s.group 3 := by
  intro s e t h ht
  obtain ⟨m₁, t₁, t₂, h₁, h₂, ht₁, ht₂, rfl⟩ := h.parts ht
  obtain ⟨m₃, t₃, t₄, h₃, h₄, ht₃, ht₄, rfl⟩ := h₂.parts ht₂
  obtain ⟨hassigned, hcount⟩ := assigned_parts h₁ ht₁
  obtain ⟨⟨inner, rfl⟩, hkeep⟩ := quoted_parts h₄ ht₄
  have hthird : m₃.group 3 = t₃ := h₃.group_eq ht₃
  have hfirst : m₃.group 1 = m₁.group 1 := h₃.group_keeps (show 1 ∉ [3] by decide)
  have hsecond : m₃.group 2 = m₁.group 2 := h₃.group_keeps (show 2 ∉ [3] by decide)
  have hmark := redacted_mark ascii
  have hweight := redacted_weight
  rw [hthird, hassigned]
  constructor
  · simp only [hkeep 1 (by decide), hkeep 2 (by decide), hkeep 3 (by decide), hthird,
      hfirst, hsecond, total_append,
      List.countP_append]
    omega
  · simp only [hkeep 1 (by decide), hkeep 2 (by decide), hkeep 3 (by decide), hthird,
      hfirst, hsecond, List.countP_append]
    omega

theorem unquotedSecret_grows : Replaces jsonWeight py.isMark 10 py.unquotedSecret
    fun s => s.group 1 ++ s.group 2 ++ redacted := by
  intro s e t h ht
  obtain ⟨m₁, t₁, t₂, h₁, h₂, ht₁, ht₂, rfl⟩ := h.parts ht
  obtain ⟨hassigned, hcount⟩ := assigned_parts h₁ ht₁
  have hmark := redacted_mark ascii
  have hweight := redacted_weight
  have hfirst : e.group 1 = m₁.group 1 := h₂.group_keeps (show 1 ∉ [3] by decide)
  have hsecond : e.group 2 = m₁.group 2 := h₂.group_keeps (show 2 ∉ [3] by decide)
  rw [hassigned]
  constructor
  · simp only [hfirst, hsecond, total_append, List.countP_append]
    omega
  · simp only [hfirst, hsecond, List.countP_append]
    omega

/-! ### Private keys -/

omit ascii in
theorem zip_same {word s : List Char} {w : Char} (hw : w ∈ word) (hlength : word.length ≤ s.length)
    (h : ((List.zip word s).all fun x => py.same x.1 x.2) = true) :
    ∃ c ∈ s.take word.length, py.same w c = true := by
  induction word generalizing s with
  | nil => exact absurd hw List.not_mem_nil
  | cons d word ih =>
    cases s with
    | nil => exact absurd hlength (by simp)
    | cons c rest =>
      rw [List.zip_cons_cons, List.all_cons, Bool.and_eq_true] at h
      rw [List.length_cons, List.take_succ_cons]
      cases List.mem_cons.mp hw with
      | inl heq => exact ⟨c, List.mem_cons_self, heq ▸ h.1⟩
      | inr hmem =>
        obtain ⟨c', hc', hsame⟩ := ih hmem (by simpa using hlength) h.2
        exact ⟨c', List.mem_cons_of_mem c hc', hsame⟩

omit ascii in
/-- A word with a space is found where there is a mark. -/
theorem cut_mark {word s front found after : List Char} (hword : ' ' ∈ word)
    (h : py.cut word s = some (front, found, after)) : 1 ≤ found.countP py.isMark := by
  induction s generalizing front with
  | nil => exact nomatch h
  | cons c rest ih =>
    unfold cut at h
    split at h
    · rename_i hmatch
      cases h
      obtain ⟨c', hc', hsame⟩ := zip_same hword hmatch.1 hmatch.2
      have hmark : py.isMark c' = true := by
        unfold isMark
        rw [hsame, Bool.or_true]
      exact List.countP_pos_iff.mpr ⟨c', hc', hmark⟩
    · rw [Option.map_eq_some_iff] at h
      obtain ⟨⟨front', found', after'⟩, hcut, heq⟩ := h
      cases heq
      exact ih hcut

omit ascii in
theorem pemKey_parts {s rest : List Char} (h : py.pemKey s = some rest) :
    ∃ front found, s = front ++ found ++ rest ∧ found.length = 16 ∧ 1 ≤ found.countP py.isMark := by
  unfold pemKey at h
  rw [Option.map_eq_some_iff] at h
  obtain ⟨⟨front, found, after⟩, hcut, rfl⟩ := h
  obtain ⟨hline, hlength⟩ := py.cut_parts hcut
  refine ⟨front, found, ?_, hlength, cut_mark (by decide) hcut⟩
  have hwhole := line_append s
  rw [hline, List.append_assoc] at hwhole
  exact hwhole.symm

omit ascii in
theorem pemEnd_suffix (n : Nat) (s : List Char) : py.pemEnd n s <:+ s := by
  induction n generalizing s with
  | zero => exact List.nil_suffix
  | succ n ih =>
    unfold pemEnd
    split
    · exact List.nil_suffix
    · rename_i front found after hcut
      have hafter : after <:+ s := ⟨front ++ found, (py.cut_parts hcut).1.symm⟩
      split
      · rename_i rest hkey
        obtain ⟨front', found', heq, -, -⟩ := pemKey_parts hkey
        exact List.IsSuffix.trans ⟨front' ++ found', heq.symm⟩ hafter
      · have hline : (line after).2 <:+ after := ⟨(line after).1, line_append after⟩
        exact ((ih _).trans hline).trans hafter

theorem redactPrivateKeysFrom_grows (n : Nat) (s : List Char) :
    Grows jsonWeight py.isMark 0 s (py.redactPrivateKeysFrom n s) := by
  induction n generalizing s with
  | zero => exact .refl s
  | succ n ih =>
    unfold redactPrivateKeysFrom
    split
    · exact .refl s
    · rename_i front header after hcut
      obtain ⟨hs, hheader⟩ := py.cut_parts hcut
      split
      · have hgrows := (Grows.refl (front ++ header ++ (line after).1)).append (ih (line after).2)
        rwa [List.append_assoc _ (line after).1, line_append, ← hs] at hgrows
      · rename_i rest hkey
        obtain ⟨middle, found, hafter, hfound, hmark⟩ := pemKey_parts hkey
        obtain ⟨block, hblock⟩ := @pemEnd_suffix py (rest.length + 1) rest
        have hheaderMark := cut_mark (by decide) hcut
        have hweight : total jsonWeight "[REDACTED PRIVATE KEY]".toList = 22 := by decide
        have hkind : "[REDACTED PRIVATE KEY]".toList.countP py.isMark = 2 :=
          (countP_ascii ascii (by decide)).trans (by decide)
        have hone : Grows jsonWeight py.isMark 0 (header ++ middle ++ found ++ block)
            "[REDACTED PRIVATE KEY]".toList := by
          have hlength := length_le_total jsonWeight_pos (header ++ middle ++ found ++ block)
          simp only [List.length_append] at hlength
          change header.length = 11 at hheader
          constructor
          · rw [hweight]
            omega
          · rw [hkind]
            simp only [List.countP_append]
            omega
        have hgrows := ((Grows.refl front).append hone).append (ih (py.pemEnd (rest.length + 1) rest))
        have hwhole : front ++ (header ++ middle ++ found ++ block) ++ py.pemEnd (rest.length + 1) rest = s := by
          rw [List.append_assoc, List.append_assoc _ block, hblock, List.append_assoc header,
            List.append_assoc header, ← hafter, ← List.append_assoc, ← hs]
        rwa [hwhole] at hgrows

/-! ### Texts -/

theorem redactSecrets_grows (s : List Char) : Grows jsonWeight py.isMark 56 s (py.redactSecrets s) := by
  have hstandalone (a : Pattern) (h : a ∈ py.standaloneSecrets) (s : List Char) :=
    sub_grows (standalone_grows ascii h) s
  unfold redactSecrets rules standaloneSecrets at *
  simp only [List.map_cons, List.map_nil, List.cons_append, List.nil_append, List.foldl_cons, List.foldl_nil]
  exact ((((((((redactPrivateKeysFrom_grows ascii _ s).trans (sub_grows (bearer_grows ascii) _)).trans
    (sub_grows (basic_grows ascii) _)).trans (sub_grows (urlUserinfo_grows ascii) _)).trans
    (sub_grows (jsonSecret_grows ascii) _)).trans (sub_grows (quotedSecret_grows ascii) _)).trans
    (sub_grows (unquotedSecret_grows ascii) _)).trans (hstandalone _ (by simp) _)).trans
    ((hstandalone _ (by simp) _).trans (hstandalone _ (by simp) _))

/-- A text becomes at most 71 times as long. -/
theorem redactPublicText_bytes (maxChars : Nat) (s : String) :
    total jsonWeight (py.redactPublicText maxChars s).toList ≤ 71 * total jsonWeight s.toList := by
  have hgrows := (redactSecrets_grows ascii s.toList).weight
  have hcount := List.countP_le_length (p := py.isMark) (l := s.toList)
  have hlength := length_le_total jsonWeight_pos s.toList
  unfold redactPublicText
  dsimp only
  split
  · rw [String.toList_ofList]
    omega
  · rename_i hlong
    have hafter := length_le_total jsonWeight_pos (py.redactSecrets s.toList)
    have htake : total jsonWeight ((py.redactSecrets s.toList).take maxChars) ≤
        total jsonWeight (py.redactSecrets s.toList) := by
      conv_rhs => rw [← List.take_append_drop maxChars (py.redactSecrets s.toList), total_append]
      exact Nat.le_add_right ..
    have hmarker : total jsonWeight "...[truncated]".toList = 14 := by decide
    rw [String.toList_ofList, total_append, hmarker]
    omega

end Interpreter

/-! ### Payloads -/

mutual
/-- Texts, lists, and dicts whose keys are names of fields, none twice. -/
def isRecord : Value → Bool
  | .str _ => true
  | .dict entries => (entries.map Prod.fst).all isFieldName && decide (entries.map Prod.fst).Nodup && isRecordDict entries
  | .list xs => isRecordList xs
  | .null | .bool _ | .int _ | .float _ | .foreign => false

def isRecordDict : List (String × Value) → Bool
  | [] => true
  | (_, item) :: rest => isRecord item && isRecordDict rest

def isRecordList : List Value → Bool
  | [] => true
  | item :: rest => isRecord item && isRecordList rest
end

namespace Interpreter
variable (py : Interpreter)

mutual
theorem dumps_record (value : Value) (h : isRecord value = true) : (py.dumps value).isSome = true := by
  match value with
  | .str _ => rw [dumps]; rfl
  | .dict entries =>
    rw [isRecord, Bool.and_eq_true] at h
    rw [dumps, Option.isSome_map]
    exact dumpsItems_record entries h.2
  | .list xs =>
    rw [isRecord] at h
    rw [dumps, Option.isSome_map]
    exact dumpsList_record xs h
  | .null | .bool _ | .int _ | .float _ | .foreign => exact nomatch h

theorem dumpsItems_record (entries : List (String × Value)) (h : isRecordDict entries = true) :
    (py.dumpsItems entries).isSome = true := by
  match entries with
  | [] => rw [dumpsItems]; rfl
  | (_, item) :: rest =>
    rw [isRecordDict, Bool.and_eq_true] at h
    obtain ⟨part, hpart⟩ := Option.isSome_iff_exists.mp (dumps_record item h.1)
    rw [dumpsItems, hpart, Option.bind_some, Option.isSome_map]
    exact dumpsItems_record rest h.2

theorem dumpsList_record (xs : List Value) (h : isRecordList xs = true) : (py.dumpsList xs).isSome = true := by
  match xs with
  | [] => rw [dumpsList]; rfl
  | item :: rest =>
    rw [isRecordList, Bool.and_eq_true] at h
    obtain ⟨part, hpart⟩ := Option.isSome_iff_exists.mp (dumps_record item h.1)
    rw [dumpsList, hpart, Option.bind_some, Option.isSome_map]
    exact dumpsList_record rest h.2
end

end Interpreter

/-- The parts of the one JSON are at most 71 times as long as those of the other. -/
def Longer (a b : List Char) : Prop := total Char.utf8Size b ≤ 71 * total Char.utf8Size a

theorem intercalate_longer {parts parts' : List (List Char)} (h : List.Forall₂ Longer parts parts') :
    Longer ([','].intercalate parts) ([','].intercalate parts') := by
  induction h with
  | nil => exact Nat.zero_le _
  | @cons part part' rest rest' hpart hrest ih =>
    unfold Longer at *
    cases hrest with
    | nil => simpa [List.intercalate] using hpart
    | @cons next next' rest rest' hnext hrest =>
      have hjoin (p n : List Char) (rest : List (List Char)) :
          [','].intercalate (p :: n :: rest) = p ++ ',' :: [','].intercalate (n :: rest) := by
        simp [List.intercalate]
      have hcomma : Char.utf8Size ',' = 1 := by decide
      rw [hjoin, hjoin, total_append, total_append, total_cons, total_cons, hcomma]
      omega

namespace Interpreter
variable {py : Interpreter} (maxChars : Nat)

theorem dumpsStr_longer (ascii : py.Ascii) (s : String) : Longer (dumpsStr s) (dumpsStr (py.redactPublicText maxChars s)) := by
  have hbytes := redactPublicText_bytes ascii maxChars s
  unfold Longer
  rw [dumpsStr_bytes, dumpsStr_bytes]
  omega

mutual
theorem redactTexts_longer (ascii : py.Ascii) (value : Value) (h : isRecord value = true) {s : List Char}
    (hs : py.dumps value = some s) :
    ∃ s', py.dumps (py.redactTexts maxChars value) = some s' ∧ Longer s s' := by
  match value with
  | .str text =>
    rw [dumps] at hs
    cases hs
    rw [redactTexts, dumps]
    exact ⟨_, rfl, dumpsStr_longer maxChars ascii text⟩
  | .dict entries =>
    rw [isRecord, Bool.and_eq_true, Bool.and_eq_true, decide_eq_true_eq] at h
    rw [dumps, Option.map_eq_some_iff] at hs
    obtain ⟨parts, hparts, rfl⟩ := hs
    obtain ⟨parts', hparts', hlonger⟩ := redactEntries_longer ascii entries h.2 hparts
    have hbody := intercalate_longer hlonger
    have hopen : Char.utf8Size '{' = 1 := by decide
    have hclose : Char.utf8Size '}' = 1 := by decide
    rw [redactTexts, redactEntries_fields maxChars ascii entries [] h.1.1 (by simpa using h.1.2), List.nil_append,
      dumps, hparts', Option.map_some]
    refine ⟨_, rfl, ?_⟩
    unfold Longer at *
    simp only [total_cons, total_append, total_nil]
    omega
  | .list xs =>
    rw [isRecord] at h
    rw [dumps, Option.map_eq_some_iff] at hs
    obtain ⟨parts, hparts, rfl⟩ := hs
    obtain ⟨parts', hparts', hlonger⟩ := redactAll_longer ascii xs h hparts
    have hbody := intercalate_longer hlonger
    have hopen : Char.utf8Size '[' = 1 := by decide
    have hclose : Char.utf8Size ']' = 1 := by decide
    rw [redactTexts, dumps, hparts', Option.map_some]
    refine ⟨_, rfl, ?_⟩
    unfold Longer at *
    simp only [total_cons, total_append, total_nil]
    omega
  | .null | .bool _ | .int _ | .float _ | .foreign => exact nomatch h

theorem redactEntries_longer (ascii : py.Ascii) (entries : List (String × Value)) (h : isRecordDict entries = true)
    {parts : List (List Char)} (hparts : py.dumpsItems entries = some parts) :
    ∃ parts', py.dumpsItems (entries.map fun entry => (entry.1, py.redactTexts maxChars entry.2)) = some parts' ∧
      List.Forall₂ Longer parts parts' := by
  match entries with
  | [] =>
    rw [dumpsItems] at hparts
    cases hparts
    exact ⟨[], by rw [List.map_nil, dumpsItems], .nil⟩
  | (key, item) :: rest =>
    rw [isRecordDict, Bool.and_eq_true] at h
    rw [dumpsItems, Option.bind_eq_some_iff] at hparts
    obtain ⟨part, hpart, hrest⟩ := hparts
    rw [Option.map_eq_some_iff] at hrest
    obtain ⟨parts, hparts, rfl⟩ := hrest
    obtain ⟨part', hpart', hlonger⟩ := redactTexts_longer ascii item h.1 hpart
    obtain ⟨parts', hparts', hall⟩ := redactEntries_longer ascii rest h.2 hparts
    rw [List.map_cons, dumpsItems, hpart', Option.bind_some, hparts', Option.map_some]
    refine ⟨_, rfl, .cons ?_ hall⟩
    unfold Longer at *
    dsimp only
    rw [total_append, total_append, total_cons, total_cons]
    omega

theorem redactAll_longer (ascii : py.Ascii) (xs : List Value) (h : isRecordList xs = true) {parts : List (List Char)}
    (hparts : py.dumpsList xs = some parts) :
    ∃ parts', py.dumpsList (py.redactAll maxChars xs) = some parts' ∧ List.Forall₂ Longer parts parts' := by
  match xs with
  | [] =>
    rw [dumpsList] at hparts
    cases hparts
    exact ⟨[], by rw [redactAll, dumpsList], .nil⟩
  | item :: rest =>
    rw [isRecordList, Bool.and_eq_true] at h
    rw [dumpsList, Option.bind_eq_some_iff] at hparts
    obtain ⟨part, hpart, hrest⟩ := hparts
    rw [Option.map_eq_some_iff] at hrest
    obtain ⟨parts, hparts, rfl⟩ := hrest
    obtain ⟨part', hpart', hlonger⟩ := redactTexts_longer ascii item h.1 hpart
    obtain ⟨parts', hparts', hall⟩ := redactAll_longer ascii rest h.2 hparts
    rw [redactAll, dumpsList, hpart', Option.bind_some, hparts', Option.map_some]
    exact ⟨_, rfl, .cons hlonger hall⟩
end

/-- The bytes, counted letter by letter. -/
theorem jsonBytes_eq (value : Value) : py.jsonBytes value = (py.dumps value).map (total Char.utf8Size) := by
  unfold jsonBytes
  cases py.dumps value with
  | none => rfl
  | some s => rw [Option.map_some, Option.map_some, ofList_bytes]

/-- What fits is returned. -/
theorem redactPublicData_fits {b : Bounds} {value sanitized : Value}
    (hbounded : (py.boundedPublicData b value 0 b.maxItems).1 = sanitized)
    (hfits : (py.dumps sanitized).any (fun s => total Char.utf8Size s ≤ b.maxBytes) = true) :
    py.redactPublicData b value = sanitized := by
  rw [Option.any_eq_true] at hfits
  obtain ⟨s, hs, hle⟩ := hfits
  have hbytes : py.jsonBytes sanitized = some (total Char.utf8Size s) := by rw [jsonBytes_eq, hs, Option.map_some]
  rw [redactPublicData, hbounded, serialized, hbytes]
  exact if_pos (of_decide_eq_true hle)

/-- The bytes of a record whose texts are redacted. -/
theorem redactTexts_bytes (ascii : py.Ascii) {value : Value} (h : isRecord value = true) {n : Nat} (hn : py.jsonBytes value = some n) :
    ∃ n', py.jsonBytes (py.redactTexts maxChars value) = some n' ∧ n' ≤ 71 * n := by
  rw [jsonBytes_eq, Option.map_eq_some_iff] at hn
  obtain ⟨s, hs, rfl⟩ := hn
  obtain ⟨s', hs', hlonger⟩ := redactTexts_longer maxChars ascii value h hs
  refine ⟨_, ?_, hlonger⟩
  rw [jsonBytes_eq, hs', Option.map_some]

end Interpreter
end Operant.Security
