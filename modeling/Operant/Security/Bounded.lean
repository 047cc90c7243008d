import Operant.Security.Plain

/-! What redaction leaves of a payload that is within its bounds: every text redacted, nothing left
out. The items of a payload are bounded by the length of its JSON. -/
namespace Operant.Security
open Operant.Python

mutual
/-- The items that a payload takes. -/
def itemCount : Value → Nat
  | .dict entries => itemCountOfDict entries
  | .list xs => itemCountOfList xs
  | .null | .bool _ | .int _ | .float _ | .str _ | .foreign => 0

def itemCountOfDict : List (String × Value) → Nat
  | [] => 0
  | (_, item) :: rest => 1 + itemCount item + itemCountOfDict rest

def itemCountOfList : List Value → Nat
  | [] => 0
  | item :: rest => 1 + itemCount item + itemCountOfList rest
end

mutual
/-- How deep a payload is. -/
def nesting : Value → Nat
  | .dict entries => nestingOfDict entries
  | .list xs => nestingOfList xs
  | .null | .bool _ | .int _ | .float _ | .str _ | .foreign => 0

def nestingOfDict : List (String × Value) → Nat
  | [] => 0
  | (_, item) :: rest => max (1 + nesting item) (nestingOfDict rest)

def nestingOfList : List Value → Nat
  | [] => 0
  | item :: rest => max (1 + nesting item) (nestingOfList rest)
end

namespace Interpreter
variable (py : Interpreter) (maxChars : Nat)

mutual
/-- A payload with its texts redacted. -/
def redactTexts : Value → Value
  | .str s => .str (py.redactPublicText maxChars s)
  | .dict entries => .dict (redactEntries entries [])
  | .list xs => .list (redactAll xs)
  | .null => .null
  | .bool x => .bool x
  | .int n => .int n
  | .float x => .float x
  | .foreign => .foreign

def redactEntries : List (String × Value) → Refs → Refs
  | [], sanitized => sanitized
  | (key, item) :: rest, sanitized =>
    let safeKey := py.redactPublicText 500 key
    if py.isSensitiveKey safeKey then redactEntries rest (sanitized.set safeKey (.str "[REDACTED]"))
    else redactEntries rest (sanitized.set safeKey (redactTexts item))

def redactAll : List Value → List Value
  | [] => []
  | item :: rest => redactTexts item :: redactAll rest
end

variable (b : Bounds)

mutual
theorem boundedPublicData_within (value : Value) (d left : Nat) (hdepth : d + nesting value ≤ b.maxDepth)
    (hleft : itemCount value ≤ left) : ∃ left', py.boundedPublicData b value d left =
      (py.redactTexts b.maxChars value, left') ∧ left ≤ left' + itemCount value := by
  have hnot : ¬ b.maxDepth < d := by omega
  match value with
  | .dict entries =>
    rw [nesting] at hdepth
    rw [itemCount] at hleft
    obtain ⟨left', heq, hle⟩ := boundedItems_within entries d [] left hdepth hleft
    rw [boundedPublicData, if_neg hnot, redactTexts, itemCount]
    exact ⟨left', by simp only [heq], hle⟩
  | .list xs =>
    rw [nesting] at hdepth
    rw [itemCount] at hleft
    obtain ⟨left', heq, hle⟩ := boundedList_within xs d left hdepth hleft
    rw [boundedPublicData, if_neg hnot, redactTexts, itemCount]
    exact ⟨left', by simp only [heq], hle⟩
  | .str s => exact ⟨left, by rw [boundedPublicData, if_neg hnot, redactTexts], Nat.le_add_right ..⟩
  | .null => exact ⟨left, by rw [boundedPublicData, if_neg hnot, redactTexts], Nat.le_add_right ..⟩
  | .bool _ => exact ⟨left, by rw [boundedPublicData, if_neg hnot, redactTexts], Nat.le_add_right ..⟩
  | .int _ => exact ⟨left, by rw [boundedPublicData, if_neg hnot, redactTexts], Nat.le_add_right ..⟩
  | .float _ => exact ⟨left, by rw [boundedPublicData, if_neg hnot, redactTexts], Nat.le_add_right ..⟩
  | .foreign => exact ⟨left, by rw [boundedPublicData, if_neg hnot, redactTexts], Nat.le_add_right ..⟩

theorem boundedItems_within (entries : List (String × Value)) (d : Nat) (sanitized : Refs) (left : Nat)
    (hdepth : d + nestingOfDict entries ≤ b.maxDepth) (hleft : itemCountOfDict entries ≤ left) :
    ∃ left', py.boundedItems b entries (d + 1) sanitized left =
      (py.redactEntries b.maxChars entries sanitized, left') ∧ left ≤ left' + itemCountOfDict entries := by
  match entries with
  | [] => exact ⟨left, by rw [boundedItems, redactEntries], Nat.le_add_right ..⟩
  | (key, item) :: rest =>
    rw [nestingOfDict] at hdepth
    rw [itemCountOfDict] at hleft
    have hpos : ¬ left = 0 := by omega
    rw [boundedItems, if_neg hpos, redactEntries, itemCountOfDict]
    dsimp only
    split
    · obtain ⟨left', heq, hle⟩ := boundedItems_within rest d
        (sanitized.set (py.redactPublicText 500 key) (.str "[REDACTED]")) (left - 1) (by omega) (by omega)
      exact ⟨left', heq, by omega⟩
    · obtain ⟨left₁, heq₁, hle₁⟩ :=
        boundedPublicData_within item (d + 1) (left - 1) (by omega) (by omega)
      obtain ⟨left₂, heq₂, hle₂⟩ := boundedItems_within rest d
        (sanitized.set (py.redactPublicText 500 key) (py.redactTexts b.maxChars item)) left₁ (by omega) (by omega)
      rw [heq₁]
      exact ⟨left₂, heq₂, by omega⟩

theorem boundedList_within (xs : List Value) (d left : Nat) (hdepth : d + nestingOfList xs ≤ b.maxDepth)
    (hleft : itemCountOfList xs ≤ left) : ∃ left', py.boundedList b xs (d + 1) left =
      (py.redactAll b.maxChars xs, left') ∧ left ≤ left' + itemCountOfList xs := by
  match xs with
  | [] => exact ⟨left, by rw [boundedList, redactAll], Nat.le_add_right ..⟩
  | item :: rest =>
    rw [nestingOfList] at hdepth
    rw [itemCountOfList] at hleft
    have hpos : ¬ left = 0 := by omega
    obtain ⟨left₁, heq₁, hle₁⟩ := boundedPublicData_within item (d + 1) (left - 1) (by omega) (by omega)
    obtain ⟨left₂, heq₂, hle₂⟩ := boundedList_within rest d left₁ (by omega) (by omega)
    rw [boundedList, if_neg hpos, redactAll, itemCountOfList]
    dsimp only
    rw [heq₁, heq₂]
    exact ⟨left₂, rfl, by omega⟩
end

/-- Fields keep their names. -/
theorem redactEntries_fields {py : Interpreter} (ascii : py.Ascii) (entries : List (String × Value)) (sanitized : Refs)
    (hnames : (entries.map Prod.fst).all isFieldName = true)
    (hnodup : ((sanitized ++ entries).map Prod.fst).Nodup) :
    py.redactEntries maxChars entries sanitized =
      sanitized ++ entries.map fun entry => (entry.1, py.redactTexts maxChars entry.2) := by
  induction entries generalizing sanitized with
  | nil => rw [redactEntries, List.map_nil, List.append_nil]
  | cons entry rest ih =>
    obtain ⟨key, item⟩ := entry
    rw [List.map_cons, List.all_cons, Bool.and_eq_true] at hnames
    have hkept := isFieldName_kept ascii hnames.1
    have hnew : key ∉ sanitized.map Prod.fst := by
      rw [List.map_append, List.nodup_append] at hnodup
      exact fun hmem => hnodup.2.2 key hmem key List.mem_cons_self rfl
    rw [redactEntries, hkept.1, hkept.2, if_neg (by decide), Dict.set_new _ _ hnew,
      ih _ hnames.2 (by simpa using hnodup),
      List.append_assoc]
    rfl

/-! ### The items and the JSON -/

theorem intercalate_length (parts : List (List Char)) :
    (parts.map fun part => part.length + 1).sum ≤ ([','].intercalate parts).length + 1 := by
  induction parts with
  | nil => exact Nat.zero_le _
  | cons part rest ih =>
    cases rest with
    | nil => simp [List.intercalate]
    | cons next rest =>
      have hjoin : [','].intercalate (part :: next :: rest) = part ++ ',' :: [','].intercalate (next :: rest) := by
        simp [List.intercalate]
      rw [hjoin, List.map_cons, List.sum_cons, List.length_append, List.length_cons]
      omega

mutual
theorem items_le_dumps (value : Value) {s : List Char} (h : py.dumps value = some s) :
    itemCount value ≤ s.length := by
  match value with
  | .dict entries =>
    rw [dumps, Option.map_eq_some_iff] at h
    obtain ⟨parts, hparts, rfl⟩ := h
    have hle := itemCountOfDict_le_dumps entries hparts
    have hjoin := intercalate_length parts
    rw [itemCount, List.length_append, List.length_cons, List.length_singleton]
    omega
  | .list xs =>
    rw [dumps, Option.map_eq_some_iff] at h
    obtain ⟨parts, hparts, rfl⟩ := h
    have hle := itemCountOfList_le_dumps xs hparts
    have hjoin := intercalate_length parts
    rw [itemCount, List.length_append, List.length_cons, List.length_singleton]
    omega
  | .str _ | .null | .bool _ | .int _ | .float _ | .foreign => rw [itemCount]; exact Nat.zero_le _

theorem itemCountOfDict_le_dumps (entries : List (String × Value)) {parts : List (List Char)}
    (h : py.dumpsItems entries = some parts) :
    itemCountOfDict entries ≤ (parts.map fun part => part.length + 1).sum := by
  match entries with
  | [] => rw [itemCountOfDict]; exact Nat.zero_le _
  | (key, item) :: rest =>
    rw [dumpsItems, Option.bind_eq_some_iff] at h
    obtain ⟨part, hpart, hrest⟩ := h
    rw [Option.map_eq_some_iff] at hrest
    obtain ⟨parts', hparts, rfl⟩ := hrest
    have hitem := items_le_dumps item hpart
    have hle := itemCountOfDict_le_dumps rest hparts
    rw [itemCountOfDict, List.map_cons, List.sum_cons, List.length_append, List.length_cons]
    omega

theorem itemCountOfList_le_dumps (xs : List Value) {parts : List (List Char)}
    (h : py.dumpsList xs = some parts) :
    itemCountOfList xs ≤ (parts.map fun part => part.length + 1).sum := by
  match xs with
  | [] => rw [itemCountOfList]; exact Nat.zero_le _
  | item :: rest =>
    rw [dumpsList, Option.bind_eq_some_iff] at h
    obtain ⟨part, hpart, hrest⟩ := h
    rw [Option.map_eq_some_iff] at hrest
    obtain ⟨parts', hparts, rfl⟩ := hrest
    have hitem := items_le_dumps item hpart
    have hle := itemCountOfList_le_dumps rest hparts
    rw [itemCountOfList, List.map_cons, List.sum_cons]
    omega
end

variable (b : Bounds)

/-- A payload within its bounds is stored with its texts redacted. -/
theorem redactPublicData_within {value : Value} {n : Nat} (hnesting : nesting value ≤ b.maxDepth)
    (hitems : itemCount value ≤ b.maxItems) (hn : py.jsonBytes (py.redactTexts b.maxChars value) = some n)
    (hbytes : n ≤ b.maxBytes) : py.redactPublicData b value = py.redactTexts b.maxChars value := by
  obtain ⟨left, hbounded, -⟩ := py.boundedPublicData_within b value 0 b.maxItems (by omega) hitems
  have hserialized : py.serialized (py.redactTexts b.maxChars value) = (py.redactTexts b.maxChars value, n) := by
    unfold serialized
    rw [hn]
  unfold redactPublicData
  rw [hbounded]
  dsimp only
  rw [hserialized]
  exact if_pos hbytes

end Interpreter
end Operant.Security
