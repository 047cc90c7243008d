import Operant.Security.Redaction
import Operant.Security.Normalizer

/-! What redaction leaves of `argv`.

A text in which something is redacted shows a bracket, so `argv` is the only key that becomes
`argv`, and it is too short to be redacted itself. Whether its value is still there is a matter of
the items before it and of the size of the whole. -/
namespace Operant.Security
open Operant.Text Operant.Text.Pattern Operant.Python

namespace Interpreter
variable (py : Interpreter)

/-! ### Texts -/

theorem rules_marked {rule : Pattern × (Place → List Char)} (h : rule ∈ py.rules) (s : Place) :
    '[' ∈ rule.2 s := by
  have hmark : '[' ∈ redacted := by decide
  unfold rules standaloneSecrets at h
  simp only [List.map_cons, List.map_nil, List.cons_append, List.nil_append, List.mem_cons,
    List.not_mem_nil, or_false] at h
  rcases h with rfl | rfl | rfl | rfl | rfl | rfl | rfl | rfl | rfl <;>
    simp only [List.mem_append, hmark, true_or, or_true]

theorem joined_fewest (a b : String) : (py.joined a b).fewest = a.toList.length + b.toList.length := by
  simp [joined, text, all, fewest]

theorem secretKey_fewest : 5 ≤ py.secretKey.fewest := by
  have hsuffix : 5 ≤ py.secretKeySuffix.fewest := by
    unfold secretKeySuffix
    simp only [any, fewest, joined_fewest, text, fewest_text]
    decide
  unfold secretKey
  simp only [fewest, all]
  omega

/-- No pattern matches a text of four characters. -/
theorem rules_long {rule : Pattern × (Place → List Char)} (h : rule ∈ py.rules) : 4 < rule.1.fewest := by
  have hkey := py.secretKey_fewest
  unfold rules standaloneSecrets at h
  simp only [List.map_cons, List.map_nil, List.cons_append, List.nil_append, List.mem_cons,
    List.not_mem_nil, or_false] at h
  rcases h with rfl | rfl | rfl | rfl | rfl | rfl | rfl | rfl | rfl <;>
    simp only [bearer, basic, urlUserinfo, jsonSecret, quotedSecret, unquotedSecret, assigned, quoted,
      boundary, quote, spaces, text, all, fewest, fewest_text] <;>
    first
      | omega
      | decide

theorem cut_parts {word s front found after : List Char} (h : py.cut word s = some (front, found, after)) :
    s = front ++ found ++ after ∧ found.length = word.length := by
  induction s generalizing front with
  | nil => exact nomatch h
  | cons c rest ih =>
    unfold cut at h
    split at h
    · rename_i hmatch
      cases h
      refine ⟨by rw [List.nil_append, List.take_append_drop], ?_⟩
      rw [List.length_take]
      omega
    · rw [Option.map_eq_some_iff] at h
      obtain ⟨⟨front', found', after'⟩, hcut, heq⟩ := h
      cases heq
      obtain ⟨hrest, hlength⟩ := ih hcut
      exact ⟨by rw [hrest]; rfl, hlength⟩

theorem cut_short {word s : List Char} (h : s.length < word.length) : py.cut word s = none := by
  cases hcut : py.cut word s with
  | none => rfl
  | some parts =>
    obtain ⟨front, found, after⟩ := parts
    obtain ⟨hs, hlength⟩ := py.cut_parts hcut
    rw [hs, List.length_append, List.length_append] at h
    omega

theorem line_append (s : List Char) : (line s).1 ++ (line s).2 = s := by
  unfold line
  rw [List.span_eq_takeWhile_dropWhile]
  exact List.takeWhile_append_dropWhile

theorem redactPrivateKeysFrom_marked (n : Nat) (s : List Char) :
    Marked '[' s (py.redactPrivateKeysFrom n s) := by
  induction n generalizing s with
  | zero => exact .inl rfl
  | succ n ih =>
    unfold redactPrivateKeysFrom
    split
    · exact .inl rfl
    · rename_i front header after hcut
      split
      · have hmarked := (ih (line after).2).append (front ++ header ++ (line after).1)
        rw [List.append_assoc _ (line after).1, line_append, ← (py.cut_parts hcut).1] at hmarked
        exact hmarked
      · right
        apply List.mem_append_left
        apply List.mem_append_right
        decide

theorem redactPrivateKeys_short {s : List Char} (h : s.length < 11) : py.redactPrivateKeys s = s := by
  unfold redactPrivateKeys redactPrivateKeysFrom
  rw [py.cut_short h]

theorem redactSecrets_marked (s : List Char) : Marked '[' s (py.redactSecrets s) := by
  have fold (rules : List (Pattern × (Place → List Char))) (h : ∀ rule ∈ rules, rule ∈ py.rules)
      (t : List Char) : Marked '[' t (rules.foldl (fun s rule => rule.1.sub rule.2 s) t) := by
    induction rules generalizing t with
    | nil => exact .inl rfl
    | cons rule rest ih =>
      have hfirst := sub_marked (a := rule.1) (py.rules_marked (h rule (List.mem_cons_self ..))) t
      exact hfirst.trans (ih (fun r hr => h r (List.mem_cons_of_mem _ hr)) _)
  exact (py.redactPrivateKeysFrom_marked _ s).trans (fold py.rules (fun _ h => h) _)

theorem redactSecrets_short {s : List Char} (h : s.length ≤ 4) : py.redactSecrets s = s := by
  have fold (rules : List (Pattern × (Place → List Char))) (h' : ∀ rule ∈ rules, rule ∈ py.rules) :
      rules.foldl (fun s rule => rule.1.sub rule.2 s) s = s := by
    induction rules with
    | nil => rfl
    | cons rule rest ih =>
      have hlong := py.rules_long (h' rule (List.mem_cons_self ..))
      rw [List.foldl_cons, sub_short (by omega)]
      exact ih fun r hr => h' r (List.mem_cons_of_mem _ hr)
  unfold redactSecrets
  rw [py.redactPrivateKeys_short (by omega)]
  exact fold py.rules fun _ h => h

/-- Nothing but `argv` becomes `argv`. -/
theorem redactPublicText_argv (key : String) : py.redactPublicText 500 key = "argv" ↔ key = "argv" := by
  constructor
  · intro h
    have hmark : '[' ∉ "argv".toList := by decide
    unfold redactPublicText at h
    dsimp only at h
    split at h
    · cases py.redactSecrets_marked key.toList with
      | inl hsame => rwa [hsame, String.ofList_toList] at h
      | inr hmarked => exact absurd (by rw [← h, String.toList_ofList]; exact hmarked) hmark
    · refine absurd ?_ hmark
      rw [← h, String.toList_ofList]
      exact List.mem_append_right _ (by decide)
  · intro h
    have hshort : py.redactSecrets "argv".toList = "argv".toList := py.redactSecrets_short (by decide)
    rw [h, redactPublicText, hshort, if_pos (by decide), String.ofList_toList]

theorem argv_not_sensitive : py.isSensitiveKey "argv" = false := by
  have hlower : "argv".toList.flatMap py.lower = "argv".toList := by
    show py.lower 'a' ++ (py.lower 'r' ++ (py.lower 'g' ++ (py.lower 'v' ++ []))) = _
    rw [py.lower_letter 'a' (by decide) (by decide), py.lower_letter 'r' (by decide) (by decide),
      py.lower_letter 'g' (by decide) (by decide), py.lower_letter 'v' (by decide) (by decide)]
    decide
  unfold isSensitiveKey
  rw [hlower]
  decide

/-! ### Items -/

variable (b : Bounds)

/-- What an item is replaced by. -/
theorem boundedItems_cons (key : String) (item : Value) (rest : List (String × Value)) (depth : Nat)
    (sanitized : Refs) {left : Nat} (h : left ≠ 0) :
    ∃ value left', py.boundedItems b ((key, item) :: rest) depth sanitized left =
        py.boundedItems b rest depth (sanitized.set (py.redactPublicText 500 key) value) left' ∧
      (key = "argv" → value = (py.boundedPublicData b item depth (left - 1)).1) ∧
      left' = if py.isSensitiveKey (py.redactPublicText 500 key) then left - 1
        else (py.boundedPublicData b item depth (left - 1)).2 := by
  rw [boundedItems, if_neg h]
  dsimp only
  split
  · rename_i hsensitive
    refine ⟨_, _, rfl, ?_, rfl⟩
    intro hkey
    rw [(py.redactPublicText_argv key).mpr hkey, py.argv_not_sensitive] at hsensitive
    cases hsensitive
  · exact ⟨_, _, rfl, fun _ => rfl, rfl⟩

theorem boundedItems_zero (item : String × Value) (rest : List (String × Value)) (depth : Nat)
    (sanitized : Refs) : py.boundedItems b (item :: rest) depth sanitized 0 =
      (sanitized.set "_truncated_items" (.bool true), 0) := by
  rw [boundedItems, if_pos rfl]

/-- The items that remain are a matter of the items alone. -/
theorem boundedItems_left (items : List (String × Value)) (depth : Nat) (sanitized other : Refs)
    (left : Nat) : (py.boundedItems b items depth sanitized left).2 =
      (py.boundedItems b items depth other left).2 := by
  induction items generalizing sanitized other left with
  | nil => rw [boundedItems, boundedItems]
  | cons item rest ih =>
    by_cases hleft : left = 0
    · rw [hleft, boundedItems_zero, boundedItems_zero]
    · obtain ⟨value, left', heq, -, hleft'⟩ := py.boundedItems_cons b item.1 item.2 rest depth sanitized hleft
      obtain ⟨value', left'', heq', -, hleft''⟩ := py.boundedItems_cons b item.1 item.2 rest depth other hleft
      rw [heq, heq', hleft', hleft'']
      exact ih _ _ _

theorem lookup_set_safeKey {key : String} (hkey : key ≠ "argv") (sanitized : Refs) (value : Value) :
    (sanitized.set (py.redactPublicText 500 key) value).lookup "argv" = sanitized.lookup "argv" :=
  Dict.lookup_set_ne sanitized value fun h => hkey ((py.redactPublicText_argv key).mp h.symm)

theorem lookup_truncated (sanitized : Refs) :
    (sanitized.set "_truncated_items" (.bool true)).lookup "argv" = sanitized.lookup "argv" :=
  Dict.lookup_set_ne sanitized _ (by decide)

/-- Other items leave `argv` as it is. -/
theorem boundedItems_others {items : List (String × Value)} (h : "argv" ∉ items.map Prod.fst) (depth : Nat)
    (sanitized : Refs) (left : Nat) :
    (py.boundedItems b items depth sanitized left).1.lookup "argv" = sanitized.lookup "argv" := by
  induction items generalizing sanitized left with
  | nil => rw [boundedItems]
  | cons item rest ih =>
    obtain ⟨hne, hrest⟩ := List.ne_and_not_mem_of_not_mem_cons h
    by_cases hleft : left = 0
    · rw [hleft, boundedItems_zero, lookup_truncated]
    · obtain ⟨value, left', heq, -, -⟩ := py.boundedItems_cons b item.1 item.2 rest depth sanitized hleft
      rw [heq, ih hrest, py.lookup_set_safeKey fun h => hne h.symm]

/-- `argv` is kept if there is an item left for it. -/
theorem boundedItems_argv {front rest : List (String × Value)} (hfront : "argv" ∉ front.map Prod.fst)
    (hrest : "argv" ∉ rest.map Prod.fst) (argv : Value) (depth : Nat) (sanitized : Refs) (left : Nat) :
    (py.boundedItems b (front ++ ("argv", argv) :: rest) depth sanitized left).1.lookup "argv" =
      if (py.boundedItems b front depth [] left).2 = 0 then sanitized.lookup "argv"
      else some (py.boundedPublicData b argv depth ((py.boundedItems b front depth [] left).2 - 1)).1 := by
  induction front generalizing sanitized left with
  | nil =>
    have hnil : (py.boundedItems b [] depth [] left).2 = left := by rw [boundedItems]
    rw [hnil, List.nil_append]
    by_cases hleft : left = 0
    · rw [if_pos hleft, hleft, boundedItems_zero, lookup_truncated]
    · obtain ⟨value, left', heq, hvalue, -⟩ := py.boundedItems_cons b "argv" argv rest depth sanitized hleft
      rw [if_neg hleft, heq, py.boundedItems_others b hrest, (py.redactPublicText_argv "argv").mpr rfl,
        Dict.lookup_set_self, hvalue rfl]
  | cons item front ih =>
    obtain ⟨hne, hfront⟩ := List.ne_and_not_mem_of_not_mem_cons hfront
    by_cases hleft : left = 0
    · rw [hleft, List.cons_append, boundedItems_zero, boundedItems_zero, lookup_truncated, if_pos rfl]
    · obtain ⟨value, left', heq, -, hleft'⟩ :=
        py.boundedItems_cons b item.1 item.2 (front ++ ("argv", argv) :: rest) depth sanitized hleft
      obtain ⟨value', left'', heq', -, hleft''⟩ :=
        py.boundedItems_cons b item.1 item.2 front depth [] hleft
      rw [List.cons_append, heq, ih hfront, py.lookup_set_safeKey fun h => hne h.symm, heq', hleft', hleft'',
        py.boundedItems_left b front depth (Dict.set [] _ value') []]

end Interpreter
end Operant.Security
