import Operant.Security.Plain

/-! The scan for private keys: what `_redact_private_keys` leaves.

A mark is a word, and after it on the same line `PRIVATE KEY-----`. A block goes from a mark of `-----BEGIN ` to
the first mark of `-----END ` behind it, or to the end of the text. Of what is left, the pieces are joined by a text
with brackets, which are in no mark: a mark would lie in a piece, or begin in one that ends on the line of a block's
own mark. Neither can be, since the block begins at the first mark there is. -/
namespace Operant.Security.Interpreter
open Operant.Text Operant.Python

variable (py : Interpreter)

/-! ### Marks -/

def isLineEnd (c : Char) : Bool := c = '\r' || c = '\n'

/-- The word, its case ignored. -/
def Spells (word found : List Char) : Prop := List.Forall₂ (fun w c => py.same w c = true) word found

/-- A word, and after it on the same line `PRIVATE KEY-----`. -/
def OnLine (word mark : List Char) : Prop :=
  ∃ found middle key, mark = found ++ middle ++ key ∧ py.Spells word found ∧
    (∀ c ∈ middle, isLineEnd c = false) ∧ py.Spells "PRIVATE KEY-----".toList key

/-- The first mark of a text, and the shortest that begins there. -/
structure First (word s front mark rest : List Char) : Prop where
  parts : s = front ++ mark ++ rest
  onLine : py.OnLine word mark
  first : ∀ front' mark' rest', s = front' ++ mark' ++ rest' → py.OnLine word mark' → front.length ≤ front'.length
  shortest : ∀ mark' rest', mark ++ rest = mark' ++ rest' → py.OnLine word mark' → mark.length ≤ mark'.length

/-- A text without marks of that word. -/
def Unmarked (word s : List Char) : Prop := ∀ front mark rest, s = front ++ mark ++ rest → ¬py.OnLine word mark

def pemBegin : List Char := "-----BEGIN ".toList
def pemFinish : List Char := "-----END ".toList
def keyMarker : List Char := "[REDACTED PRIVATE KEY]".toList

/-- A text with its blocks replaced. -/
inductive Blocks : List Char → List Char → Prop
  | plain {s} (h : py.Unmarked pemBegin s) : Blocks s s
  | closed {s front header body inside footer rest out} (hbegin : py.First pemBegin s front header body)
      (hend : py.First pemFinish body inside footer rest) (hrest : Blocks rest out) :
      Blocks s (front ++ keyMarker ++ out)
  | unclosed {s front header body} (hbegin : py.First pemBegin s front header body)
      (hend : py.Unmarked pemFinish body) : Blocks s (front ++ keyMarker)

section
variable {py}
variable {word s t front found after middle key rest : List Char}

theorem Spells.length (h : py.Spells word found) : found.length = word.length := h.length_eq.symm

theorem spells_take : word.length ≤ s.length ∧ (List.zip word s).all (fun x => py.same x.1 x.2) = true ↔
    py.Spells word (s.take word.length) := by
  induction word generalizing s with
  | nil => simp [Spells]
  | cons w word ih =>
    cases s with
    | nil => simp [Spells]
    | cons c s =>
      have hrest := ih (s := s)
      simp only [Spells, List.length_cons, Nat.add_le_add_iff_right, List.zip_cons_cons, List.all_cons,
        Bool.and_eq_true, List.take_succ_cons, List.forall₂_cons] at hrest ⊢
      rw [← hrest]
      exact and_left_comm

/-- What is cut out is the first occurrence. -/
theorem cut_first (h : py.cut word s = some (front, found, after)) :
    s = front ++ found ++ after ∧ py.Spells word found ∧
      ∀ front' found' after', s = front' ++ found' ++ after' → py.Spells word found' →
        front.length ≤ front'.length := by
  induction s generalizing front with
  | nil => cases h
  | cons c rest ih =>
    unfold cut at h
    split at h
    · next hmatch =>
      cases h
      exact ⟨by simp, spells_take.mp hmatch, fun _ _ _ _ _ => Nat.zero_le _⟩
    · next hmatch =>
      obtain ⟨⟨front', found', after'⟩, hcut, heq⟩ := Option.map_eq_some_iff.mp h
      cases heq
      obtain ⟨hrest, hspell, hfirst⟩ := ih hcut
      refine ⟨by rw [hrest]; rfl, hspell, fun other found' after' hs hspell' => ?_⟩
      cases other with
      | nil =>
        refine absurd ?_ hmatch
        rw [spells_take, hs, List.nil_append, ← hspell'.length, List.take_left]
        exact hspell'
      | cons d other =>
        have hs' : rest = other ++ found' ++ after' := (List.cons.inj hs).2
        exact Nat.succ_le_succ (hfirst other found' after' hs' hspell')

theorem cut_none (hword : word ≠ []) (h : py.cut word s = none) :
    ∀ front found after, s = front ++ found ++ after → ¬py.Spells word found := by
  induction s with
  | nil =>
    intro front found after hs hspell
    have hempty : found = [] := by simp_all
    rw [hempty] at hspell
    exact hword (List.forall₂_nil_right_iff.mp hspell)
  | cons c rest ih =>
    unfold cut at h
    split at h
    · cases h
    · next hmatch =>
      intro front found after hs hspell
      cases front with
      | nil =>
        refine hmatch ?_
        rw [spells_take, hs, List.nil_append, ← hspell.length, List.take_left]
        exact hspell
      | cons d front => exact ih (Option.map_eq_none_iff.mp h) front found after (List.cons.inj hs).2 hspell

/-! ### Lines -/

theorem line_eq (s : List Char) :
    line s = (s.takeWhile (fun c => !isLineEnd c), s.dropWhile fun c => !isLineEnd c) := by
  have hend : (fun c => decide (c ≠ '\r' ∧ c ≠ '\n')) = fun c => !isLineEnd c := by
    funext c
    simp [isLineEnd]
  rw [line, List.span_eq_takeWhile_dropWhile, hend]

theorem line_ends (s : List Char) : ∀ c ∈ (line s).1, isLineEnd c = false := by
  intro c hc
  rw [line_eq] at hc
  simpa using List.all_eq_true.mp List.all_takeWhile c hc

theorem line_prefix (h : ∀ c ∈ front, isLineEnd c = false) (s : List Char) :
    line (front ++ s) = (front ++ (line s).1, (line s).2) := by
  have hall : ∀ c ∈ front, (!isLineEnd c) = true := by simpa using h
  rw [line_eq, line_eq, List.takeWhile_append_of_pos hall, List.dropWhile_append_of_pos hall]

/-! ### Words -/

/-- A word of small characters, that one in no case among them. -/
def lacks (word : List Char) (bad : Char) : Bool := word.all fun w => w.toNat < 128 && w.toLower ≠ bad.toLower

def isOneLine (word : List Char) : Bool := lacks word '\r' && lacks word '\n'

variable (ascii : py.Ascii)
include ascii

/-- A small character that a word has in no case is not in what spells it. -/
theorem Spells.avoids (h : py.Spells word found) {bad : Char} (hbad : bad.toNat < 128)
    (hword : lacks word bad = true) : bad ∉ found := by
  induction h with
  | nil => exact List.not_mem_nil
  | cons hsame _ ih =>
    simp only [lacks, List.all_cons, Bool.and_eq_true, decide_eq_true_eq] at hword
    rw [List.mem_cons, not_or]
    refine ⟨fun heq => ?_, ih hword.2⟩
    have hfold := of_decide_eq_true hsame
    rw [← heq, ascii.fold _ hword.1.1, ascii.fold _ hbad] at hfold
    exact hword.1.2 hfold

theorem Spells.ends (h : py.Spells word found) (hword : isOneLine word = true) :
    ∀ c ∈ found, isLineEnd c = false := by
  intro c hc
  rw [isOneLine, Bool.and_eq_true] at hword
  simp only [isLineEnd, Bool.or_eq_false_iff, decide_eq_false_iff_not]
  constructor
  · rintro rfl
    exact h.avoids ascii (by decide) hword.1 hc
  · rintro rfl
    exact h.avoids ascii (by decide) hword.2 hc

theorem OnLine.ends {mark : List Char} (h : py.OnLine word mark) (hword : isOneLine word = true) :
    ∀ c ∈ mark, isLineEnd c = false := by
  obtain ⟨found, middle, key, rfl, hfound, hmiddle, hkey⟩ := h
  intro c hc
  simp only [List.mem_append, or_assoc] at hc
  rcases hc with hc | hc | hc
  · exact hfound.ends ascii hword c hc
  · exact hmiddle c hc
  · exact hkey.ends ascii (by decide) c hc

/-- What is found of `PRIVATE KEY-----` is the first there is in the line. -/
theorem pemKey_some (h : py.pemKey s = some rest) :
    ∃ middle key, s = middle ++ key ++ rest ∧ (∀ c ∈ middle, isLineEnd c = false) ∧
      py.Spells "PRIVATE KEY-----".toList key ∧
      ∀ middle' key' rest', s = middle' ++ key' ++ rest' → (∀ c ∈ middle', isLineEnd c = false) →
        py.Spells "PRIVATE KEY-----".toList key' → middle.length ≤ middle'.length := by
  obtain ⟨⟨middle, key, after⟩, hcut, rfl⟩ := Option.map_eq_some_iff.mp h
  obtain ⟨hline, hkey, hfirst⟩ := cut_first hcut
  refine ⟨middle, key, ?_, fun c hc => line_ends s c (by simp [hline, hc]), hkey, ?_⟩
  · rw [← List.append_assoc, ← hline, line_append]
  · intro middle' key' rest' hs hmiddle' hkey'
    refine hfirst middle' key' (line rest').1 ?_ hkey'
    have hprefix : ∀ c ∈ middle' ++ key', isLineEnd c = false := by
      intro c hc
      cases List.mem_append.mp hc with
      | inl hmem => exact hmiddle' c hmem
      | inr hmem => exact hkey'.ends ascii (by decide) c hmem
    rw [hs, line_prefix hprefix]

theorem pemKey_none (h : py.pemKey s = none) :
    ∀ middle key rest, s = middle ++ key ++ rest → (∀ c ∈ middle, isLineEnd c = false) →
      ¬py.Spells "PRIVATE KEY-----".toList key := by
  intro middle key rest hs hmiddle hkey
  have hcut := Option.map_eq_none_iff.mp h
  refine cut_none (by decide) hcut middle key (line rest).1 ?_ hkey
  have hprefix : ∀ c ∈ middle ++ key, isLineEnd c = false := by
    intro c hc
    cases List.mem_append.mp hc with
    | inl hmem => exact hmiddle c hmem
    | inr hmem => exact hkey.ends ascii (by decide) c hmem
  rw [hs, line_prefix hprefix]

/-! ### The first mark -/

/-- A word that begins no mark: no mark begins on the rest of its line. -/
theorem unmarked_line (hword : isOneLine word = true) (hcut : py.cut word s = some (front, found, after))
    (hkey : py.pemKey after = none) {front' mark' rest' : List Char} (hs : s = front' ++ mark' ++ rest')
    (hmark : py.OnLine word mark') : ∃ u, front' = front ++ found ++ (line after).1 ++ u := by
  obtain ⟨hparts, hfound, hfirst⟩ := cut_first hcut
  obtain ⟨found', middle, key, rfl, hfound', hmiddle, hspell⟩ := id hmark
  have hle := hfirst front' found' (middle ++ key ++ rest') (by simp [hs]) hfound'
  have hfront : front <+: s := ⟨found ++ after, by rw [hparts, List.append_assoc]⟩
  have hfront' : front' <+: s := ⟨found' ++ middle ++ key ++ rest', by simp [hs]⟩
  obtain ⟨v, rfl⟩ := List.prefix_of_prefix_length_le hfront hfront' hle
  have htail : found ++ after = v ++ (found' ++ middle ++ key) ++ rest' := by
    have heq := hparts.symm.trans hs
    simp only [List.append_assoc, List.append_cancel_left_eq] at heq
    simpa using heq
  have hone : ∀ c ∈ found ++ (line after).1, isLineEnd c = false := by
    intro c hc
    cases List.mem_append.mp hc with
    | inl hmem => exact hfound.ends ascii hword c hmem
    | inr hmem => exact line_ends after c hmem
  have hline := line_prefix (fun c hc => hfound.ends ascii hword c hc) after
  by_cases hv : ∀ c ∈ v, isLineEnd c = false
  · -- the mark would lie on the line, and its key behind the word
    have hline' : line (found ++ after) = (v ++ (found' ++ middle ++ key) ++ (line rest').1, (line rest').2) := by
      rw [htail, line_prefix]
      intro c hc
      cases List.mem_append.mp hc with
      | inl hmem => exact hv c hmem
      | inr hmem => exact hmark.ends ascii hword c hmem
    have hwhole : found ++ (line after).1 = (v ++ found') ++ (middle ++ key ++ (line rest').1) := by
      have hfst := congrArg Prod.fst (hline.symm.trans hline')
      simpa using hfst
    have hlength : found.length ≤ (v ++ found').length := by
      rw [hfound.length, List.length_append, hfound'.length]
      exact Nat.le_add_left _ _
    have hdrop : (line after).1 = (v ++ found').drop found.length ++ (middle ++ key ++ (line rest').1) := by
      have h := congrArg (List.drop found.length) hwhole
      rwa [List.drop_left, List.drop_append_of_le_length hlength] at h
    refine absurd hspell (pemKey_none ascii hkey ((v ++ found').drop found.length ++ middle) key
      ((line rest').1 ++ (line after).2) ?_ ?_)
    · have hall := (line_append after).symm
      rw [hdrop] at hall
      simpa using hall
    · intro c hc
      refine line_ends after c ?_
      rw [hdrop, ← List.append_assoc, ← List.append_assoc]
      exact List.mem_append_left _ (List.mem_append_left _ hc)
  · -- it begins behind the line
    have hwhole : found ++ (line after).1 <+: found ++ after :=
      ⟨(line after).2, by rw [List.append_assoc, line_append]⟩
    have hv' : v <+: found ++ after := ⟨found' ++ middle ++ key ++ rest', by simp [htail]⟩
    have hprefix : found ++ (line after).1 <+: v := by
      refine List.prefix_of_prefix_length_le hwhole hv' (Nat.le_of_not_le fun hle => hv ?_)
      exact fun c hc => hone c ((List.prefix_of_prefix_length_le hv' hwhole hle).subset hc)
    obtain ⟨u, hu⟩ := hprefix
    exact ⟨u, by rw [← hu]; simp⟩

/-- A word that begins a mark. -/
theorem first_mark (hcut : py.cut word s = some (front, found, after)) (hkey : py.pemKey after = some rest) :
    ∃ mark, py.First word s front mark rest := by
  obtain ⟨hparts, hfound, hfirst⟩ := cut_first hcut
  obtain ⟨middle, key, hafter, hmiddle, hspell, hshortest⟩ := pemKey_some ascii hkey
  refine ⟨found ++ middle ++ key, ?_, ⟨found, middle, key, rfl, hfound, hmiddle, hspell⟩, ?_, ?_⟩
  · rw [hparts, hafter]
    simp
  · rintro front' _ rest' hs ⟨found', middle', key', rfl, hfound', -, -⟩
    exact hfirst front' found' (middle' ++ key' ++ rest') (by rw [hs]; simp) hfound'
  · rintro _ rest' heq ⟨found', middle', key', rfl, hfound', hmiddle', hspell'⟩
    simp only [List.append_assoc] at heq
    obtain ⟨-, htail⟩ := List.append_inj heq (hfound.length.trans hfound'.length.symm)
    have hle := hshortest middle' key' rest' (by rw [hafter, List.append_assoc, htail, List.append_assoc]) hmiddle' hspell'
    have hkeys := hspell.length.trans hspell'.length.symm
    have hwords := hfound.length.trans hfound'.length.symm
    simp only [List.length_append]
    omega

omit ascii in
theorem unmarked_of_cut (hword : word ≠ []) (hcut : py.cut word s = none) : py.Unmarked word s := by
  rintro front _ rest hs ⟨found, middle, key, rfl, hfound, -, -⟩
  exact cut_none hword hcut front found (middle ++ key ++ rest) (by rw [hs]; simp) hfound

omit ascii in
/-- Marks behind a piece in which none begins are the marks of the whole. -/
theorem First.behind {pre mark : List Char} (h : py.First word t front mark rest)
    (hpre : ∀ front' mark' rest', pre ++ t = front' ++ mark' ++ rest' → py.OnLine word mark' →
      ∃ u, front' = pre ++ u) : py.First word (pre ++ t) (pre ++ front) mark rest := by
  refine ⟨by rw [h.parts]; simp, h.onLine, fun front' mark' rest' hs hmark => ?_, h.shortest⟩
  obtain ⟨u, rfl⟩ := hpre front' mark' rest' hs hmark
  simp only [List.append_assoc, List.append_cancel_left_eq] at hs
  have hle := h.first u mark' rest' (by rw [hs, List.append_assoc]) hmark
  simpa using hle

omit ascii in
theorem Unmarked.behind {pre : List Char} (h : py.Unmarked word t)
    (hpre : ∀ front' mark' rest', pre ++ t = front' ++ mark' ++ rest' → py.OnLine word mark' →
      ∃ u, front' = pre ++ u) : py.Unmarked word (pre ++ t) := by
  intro front' mark' rest' hs hmark
  obtain ⟨u, rfl⟩ := hpre front' mark' rest' hs hmark
  simp only [List.append_assoc, List.append_cancel_left_eq] at hs
  exact h u mark' rest' (by rw [hs, List.append_assoc]) hmark

omit ascii in
theorem Blocks.behind {pre out : List Char} (h : py.Blocks t out)
    (hpre : ∀ front' mark' rest', pre ++ t = front' ++ mark' ++ rest' → py.OnLine pemBegin mark' →
      ∃ u, front' = pre ++ u) : py.Blocks (pre ++ t) (pre ++ out) := by
  cases h with
  | plain h => exact .plain (h.behind hpre)
  | closed hbegin hend hrest =>
    have hblocks := Blocks.closed (hbegin.behind hpre) hend hrest
    simpa only [List.append_assoc] using hblocks
  | unclosed hbegin hend =>
    have hblocks := Blocks.unclosed (hbegin.behind hpre) hend
    simpa only [List.append_assoc] using hblocks

/-! ### The scan -/

omit ascii in
theorem First.rest_lt {mark : List Char} (h : py.First word s front mark rest) (hword : word ≠ []) :
    rest.length < s.length := by
  obtain ⟨found, middle, key, hmark, hfound, -⟩ := h.onLine
  have hspell := hfound.length
  have hpos := List.length_pos_iff.mpr hword
  rw [h.parts, hmark]
  simp only [List.length_append]
  omega

omit ascii in
theorem cut_shorter (hword : word ≠ []) (hcut : py.cut word s = some (front, found, after)) :
    (line after).2.length < s.length := by
  obtain ⟨hparts, hfound, -⟩ := cut_first hcut
  have hlength := congrArg List.length (line_append after)
  have hpos := List.length_pos_iff.mpr hword
  have hspell := hfound.length
  rw [hparts]
  simp only [List.length_append] at hlength ⊢
  omega

/-- The rest of a line on which no mark begins can be left out. -/
theorem line_behind (hword : isOneLine word = true) (hcut : py.cut word s = some (front, found, after))
    (hkey : py.pemKey after = none) :
    s = (front ++ found ++ (line after).1) ++ (line after).2 ∧
      ∀ front' mark' rest', (front ++ found ++ (line after).1) ++ (line after).2 = front' ++ mark' ++ rest' →
        py.OnLine word mark' → ∃ u, front' = front ++ found ++ (line after).1 ++ u := by
  have hs : s = (front ++ found ++ (line after).1) ++ (line after).2 := by
    rw [List.append_assoc _ (line after).1, line_append]
    exact (cut_first hcut).1
  refine ⟨hs, fun front' mark' rest' heq hmark => ?_⟩
  exact unmarked_line ascii hword hcut hkey (hs.trans heq) hmark

theorem pemEnd_first {n : Nat} (hn : s.length < n) :
    (py.Unmarked pemFinish s ∧ py.pemEnd n s = []) ∨ ∃ front mark, py.First pemFinish s front mark (py.pemEnd n s) := by
  induction n generalizing s with
  | zero => exact absurd hn (Nat.not_lt_zero _)
  | succ n ih =>
    unfold pemEnd
    split
    · next hcut => exact .inl ⟨unmarked_of_cut (by decide) hcut, rfl⟩
    · next front found after hcut =>
      split
      · next rest hkey =>
        obtain ⟨mark, hfirst⟩ := first_mark ascii hcut hkey
        exact .inr ⟨front, mark, hfirst⟩
      · next hkey =>
        obtain ⟨hs, hbehind⟩ := line_behind ascii (by decide) hcut hkey
        have hlt := cut_shorter (by decide) hcut
        cases ih (s := (line after).2) (by omega) with
        | inl hnone =>
          refine .inl ⟨?_, hnone.2⟩
          rw [hs]
          exact hnone.1.behind hbehind
        | inr hfirst =>
          obtain ⟨front', mark, hfirst⟩ := hfirst
          refine .inr ⟨front ++ found ++ (line after).1 ++ front', mark, ?_⟩
          generalize py.pemEnd n (line after).2 = out at hfirst ⊢
          rw [hs]
          exact hfirst.behind hbehind

theorem pemEnd_rest {n : Nat} (hn : s.length < n) : py.pemEnd n s <:+ s := by
  cases pemEnd_first ascii hn with
  | inl hnone =>
    rw [hnone.2]
    exact List.nil_suffix
  | inr hfirst =>
    obtain ⟨front, mark, hfirst⟩ := hfirst
    exact ⟨front ++ mark, hfirst.parts.symm⟩

/-- The scan replaces the blocks, each of them from the first mark there is. -/
theorem redactPrivateKeysFrom_blocks {n : Nat} (hn : s.length < n) : py.Blocks s (py.redactPrivateKeysFrom n s) := by
  induction n generalizing s with
  | zero => exact absurd hn (Nat.not_lt_zero _)
  | succ n ih =>
    unfold redactPrivateKeysFrom
    split
    · next hcut => exact .plain (unmarked_of_cut (by decide) hcut)
    · next front found after hcut =>
      split
      · next hkey =>
        obtain ⟨hs, hbehind⟩ := line_behind ascii (by decide) hcut hkey
        have hlt := cut_shorter (by decide) hcut
        have hrest := (ih (s := (line after).2) (by omega)).behind hbehind
        rwa [← hs] at hrest
      · next rest hkey =>
        obtain ⟨mark, hfirst⟩ := first_mark ascii hcut hkey
        have hsuffix := pemEnd_rest ascii (s := rest) (Nat.lt_succ_self _)
        have hlt := hfirst.rest_lt (by decide)
        cases pemEnd_first ascii (s := rest) (Nat.lt_succ_self _) with
        | inl hnone =>
          have hempty : py.redactPrivateKeysFrom n [] = [] := by cases n <;> rfl
          rw [hnone.2, hempty, List.append_nil]
          exact .unclosed hfirst hnone.1
        | inr hclosed =>
          obtain ⟨inside, footer, hclosed⟩ := hclosed
          have hle := hsuffix.length_le
          exact .closed hfirst hclosed (ih (by omega))

/-! ### What is left -/

/-- The marker has no character of a mark where it meets the text. -/
theorem not_in_marker {m : Char} (hmark : py.OnLine pemBegin (m :: t)) : m ∉ keyMarker := by
  obtain ⟨found, middle, key, hm, hfound, -, -⟩ := hmark
  intro hmem
  have hsmall : keyMarker.all (fun m => m.toNat < 128 && lacks ['-'] m) = true := by decide +kernel
  obtain ⟨hbad, hlacks⟩ : m.toNat < 128 ∧ lacks ['-'] m = true := by simpa using List.all_eq_true.mp hsmall m hmem
  cases hfound with
  | cons hsame hrest =>
    have hhead : py.Spells ['-'] [m] := by
      rw [(List.cons.inj hm).1]
      exact .cons hsame .nil
    exact hhead.avoids ascii hbad hlacks (List.mem_singleton_self m)

omit ascii in
theorem marker_head {x out rest : List Char} (hx : x ≠ []) (h : keyMarker ++ out = x ++ rest) : '[' ∈ x := by
  cases x with
  | nil => exact absurd rfl hx
  | cons c x =>
    have hc : '[' = c := (List.cons.inj h).1
    rw [hc]
    exact List.mem_cons_self

/-- A word without brackets does not reach into the marker. -/
theorem Spells.before_marker (h : py.Spells word found) (hword : lacks word '[' = true) {piece out : List Char}
    (hs : piece ++ (keyMarker ++ out) = found ++ rest) : ∃ x, piece = found ++ x ∧ rest = x ++ (keyMarker ++ out) := by
  obtain ⟨x, rfl, htail⟩ | hinside := List.append_eq_append_iff.mp hs
  · by_cases hx : x = []
    · subst hx
      exact ⟨[], by simp, htail.symm⟩
    · exact absurd (List.mem_append_right piece (marker_head hx htail)) (h.avoids ascii (by decide) hword)
  · exact hinside

/-- A piece before a first mark has no mark that goes on behind the marker. -/
theorem front_unmarked {header body out mark piece : List Char}
    (hbegin : py.First pemBegin s (front ++ piece) header body) (hpiece : piece ≠ [])
    (hs : piece ++ (keyMarker ++ out) = mark ++ rest) : ¬py.OnLine pemBegin mark := by
  rintro ⟨found, middle, key, rfl, hfound, hmiddle, hkey⟩
  have hlate : ∀ mark' rest', s = front ++ mark' ++ rest' → ¬py.OnLine pemBegin mark' := by
    intro mark' rest' hs' hmark
    have hle := hbegin.first front mark' rest' hs' hmark
    have hpos := List.length_pos_iff.mpr hpiece
    rw [List.length_append] at hle
    omega
  have hparts := hbegin.parts
  simp only [List.append_assoc] at hs
  obtain ⟨x, rfl, htail⟩ := hfound.before_marker ascii (by decide) hs
  obtain ⟨y, rfl, -⟩ | ⟨y, rfl, hlast⟩ := List.append_eq_append_iff.mp htail.symm
  · -- what is between word and key goes on behind the marker: the word has the block's own key on its line
    obtain ⟨found', middle', key', rfl, hfound', hmiddle', hkey'⟩ := hbegin.onLine
    refine hlate (found ++ (x ++ found' ++ middle') ++ key') body (by simp [hparts])
      ⟨found, x ++ found' ++ middle', key', rfl, hfound, ?_, hkey'⟩
    intro c hc
    simp only [List.mem_append, or_assoc] at hc
    rcases hc with hc | hc | hc
    · exact hmiddle c (List.mem_append_left _ hc)
    · exact hfound'.ends ascii (by decide) c hc
    · exact hmiddle' c hc
  · -- the mark lies in the piece
    obtain ⟨z, rfl, -⟩ := hkey.before_marker ascii (by decide) hlast.symm
    exact hlate (found ++ middle ++ key) (z ++ header ++ body) (by simp [hparts])
      ⟨found, middle, key, rfl, hfound, hmiddle, hkey⟩

/-- No mark begins before the marker if the block that it stands for begins at the first mark. -/
theorem marker_unmarked {header body out : List Char} (hbegin : py.First pemBegin s front header body)
    (hout : py.Unmarked pemBegin out) : py.Unmarked pemBegin (front ++ keyMarker ++ out) := by
  intro front' mark rest hs hmark
  rw [List.append_assoc, List.append_assoc] at hs
  have hbehind : ∀ v, front' = front ++ v → keyMarker ++ out = v ++ (mark ++ rest) → False := by
    intro v hv htail
    obtain ⟨u, rfl, hrest⟩ | ⟨u, hu, hrest⟩ := List.append_eq_append_iff.mp htail
    · exact hout u mark rest (by rw [hrest, List.append_assoc]) hmark
    · cases u with
      | nil => exact hout [] mark rest hrest.symm hmark
      | cons m u =>
        -- it would begin in the marker
        obtain ⟨found, middle, key, rfl, hfound, -⟩ := id hmark
        cases hfound with
        | cons hsame hrest' =>
          have hm := (List.cons.inj hrest).1
          refine not_in_marker ascii hmark ?_
          rw [hm, hu]
          exact List.mem_append_right _ List.mem_cons_self
  obtain ⟨v, hv, htail⟩ | ⟨w, rfl, htail⟩ := List.append_eq_append_iff.mp hs
  · exact hbehind v hv htail
  · by_cases hw : w = []
    · subst hw
      exact hbehind [] (by simp) htail.symm
    · exact front_unmarked ascii hbegin hw htail.symm hmark

theorem blocks_unmarked {out : List Char} (h : py.Blocks s out) : py.Unmarked pemBegin out := by
  induction h with
  | plain h => exact h
  | closed hbegin _ _ ih => exact marker_unmarked ascii hbegin ih
  | unclosed hbegin _ =>
    have hempty : py.Unmarked pemBegin [] := unmarked_of_cut (by decide) rfl
    have h := marker_unmarked ascii hbegin hempty
    rwa [List.append_nil] at h

/-- A text without marks is left as it is. -/
theorem redactPrivateKeysFrom_unmarked {n : Nat} (h : py.Unmarked pemBegin s) : py.redactPrivateKeysFrom n s = s := by
  induction n generalizing s with
  | zero => rfl
  | succ n ih =>
    unfold redactPrivateKeysFrom
    split
    · rfl
    · next front found after hcut =>
      split
      · next hkey =>
        obtain ⟨hs, -⟩ := line_behind ascii (by decide) hcut hkey
        have hrest : py.Unmarked pemBegin (line after).2 := fun front' mark rest heq =>
          h (front ++ found ++ (line after).1 ++ front') mark rest (by rw [hs, heq]; simp)
        rw [ih hrest]
        exact hs.symm
      · next rest hkey =>
        obtain ⟨mark, hfirst⟩ := first_mark ascii hcut hkey
        exact absurd hfirst.onLine (h _ _ _ hfirst.parts)

end

/-! ### The cursor -/

/-- The text behind the cursor after a round of the scan for headers. -/
def afterBegin (s : List Char) : Option (List Char) :=
  (py.cut pemBegin s).map fun found =>
    match py.pemKey found.2.2 with
    | none => (line found.2.2).2
    | some rest => py.pemEnd (rest.length + 1) rest

/-- The text behind the cursor after a round of the scan for a footer that goes on. -/
def afterEnd (s : List Char) : Option (List Char) :=
  (py.cut pemFinish s).bind fun found =>
    match py.pemKey found.2.2 with
    | none => some (line found.2.2).2
    | some _ => none

/-- A round leaves less of the text, and the scan goes on with what it leaves. -/
def Advances (py : Interpreter) : Prop :=
  (∀ s, match py.afterBegin s with
    | none => ∀ n, py.redactPrivateKeysFrom (n + 1) s = s
    | some t => t <:+ s ∧ t.length < s.length ∧
      ∃ shown, ∀ n, py.redactPrivateKeysFrom (n + 1) s = shown ++ py.redactPrivateKeysFrom n t) ∧
  ∀ s, match py.afterEnd s with
    | none => ∃ rest, ∀ n, py.pemEnd (n + 1) s = rest
    | some t => t <:+ s ∧ t.length < s.length ∧ ∀ n, py.pemEnd (n + 1) s = py.pemEnd n t

section
variable {py}

theorem line_suffix {word s front found after : List Char} (hcut : py.cut word s = some (front, found, after)) :
    (line after).2 <:+ s := by
  have hline : (line after).2 <:+ after := ⟨(line after).1, line_append after⟩
  rw [(cut_first hcut).1]
  exact hline.trans (List.suffix_append _ _)

theorem advances (ascii : py.Ascii) : Advances py := by
  constructor
  · intro s
    unfold afterBegin
    cases hcut : py.cut pemBegin s with
    | none =>
      intro n
      rw [redactPrivateKeysFrom, show py.cut "-----BEGIN ".toList s = none from hcut]
    | some found =>
      obtain ⟨front, found, after⟩ := found
      dsimp only [Option.map_some]
      have hbegin : py.cut "-----BEGIN ".toList s = some (front, found, after) := hcut
      cases hkey : py.pemKey after with
      | none =>
        refine ⟨line_suffix hcut, cut_shorter (by decide) hcut, front ++ found ++ (line after).1, fun n => ?_⟩
        rw [redactPrivateKeysFrom, hbegin]
        dsimp only
        rw [hkey]
      | some rest =>
        obtain ⟨mark, hfirst⟩ := first_mark ascii hcut hkey
        have hsuffix := pemEnd_rest ascii (s := rest) (Nat.lt_succ_self _)
        have hle := hsuffix.length_le
        have hlt := hfirst.rest_lt (by decide)
        refine ⟨hsuffix.trans ⟨front ++ mark, hfirst.parts.symm⟩, Nat.lt_of_le_of_lt hle hlt, front ++ keyMarker,
          fun n => ?_⟩
        rw [redactPrivateKeysFrom, hbegin]
        dsimp only
        rw [hkey]
        rfl
  · intro s
    unfold afterEnd
    cases hcut : py.cut pemFinish s with
    | none =>
      refine ⟨[], fun n => ?_⟩
      rw [pemEnd, show py.cut "-----END ".toList s = none from hcut]
    | some found =>
      obtain ⟨front, found, after⟩ := found
      dsimp only [Option.bind_some]
      have hfinish : py.cut "-----END ".toList s = some (front, found, after) := hcut
      cases hkey : py.pemKey after with
      | none =>
        refine ⟨line_suffix hcut, cut_shorter (by decide) hcut, fun n => ?_⟩
        rw [pemEnd, hfinish]
        dsimp only
        rw [hkey]
      | some rest =>
        refine ⟨rest, fun n => ?_⟩
        rw [pemEnd, hfinish]
        dsimp only
        rw [hkey]

end

/-- The scan is complete: it leaves no header, replaces the blocks, finds nothing more in what it leaves, and its
cursor advances with every round. -/
theorem redactPrivateKeys_complete (ascii : py.Ascii) (s : List Char) :
    py.Unmarked pemBegin (py.redactPrivateKeys s) ∧ py.Blocks s (py.redactPrivateKeys s) ∧
      py.redactPrivateKeys (py.redactPrivateKeys s) = py.redactPrivateKeys s ∧ Advances py := by
  have hblocks : py.Blocks s (py.redactPrivateKeys s) := redactPrivateKeysFrom_blocks ascii (Nat.lt_succ_self _)
  have hunmarked := blocks_unmarked ascii hblocks
  exact ⟨hunmarked, hblocks, redactPrivateKeysFrom_unmarked ascii hunmarked, advances ascii⟩

theorem redactPrivateKeys_complete_header :
    asciiTables.redactPrivateKeys (asciiTables.redactPrivateKeys "a -----begin RSA private key-----".toList) =
      asciiTables.redactPrivateKeys "a -----begin RSA private key-----".toList :=
  (redactPrivateKeys_complete asciiTables asciiTables_ascii _).2.2.1

end Operant.Security.Interpreter
