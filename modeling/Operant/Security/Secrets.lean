import Operant.Security.Growth

/-! What payloads keep to themselves.

A payload is shown in at most `max_bytes`. What is stored under a sensitive key stays hidden when
the key is still sensitive after it was redacted and cut; of every other key the value is shown. -/
namespace Operant.Security
open Operant.Text Operant.Python

namespace Interpreter
variable (py : Interpreter)

/-! ### Values under sensitive keys -/

mutual
/-- A payload without what is stored under sensitive keys. -/
def withoutSecrets : Value → Value
  | .dict entries => .dict (withoutSecretItems entries)
  | .list xs => .list (withoutSecretsAll xs)
  | .null => .null
  | .bool x => .bool x
  | .int n => .int n
  | .float x => .float x
  | .str s => .str s
  | .foreign => .foreign

def withoutSecretItems : List (String × Value) → List (String × Value)
  | [] => []
  | (key, item) :: rest =>
    (key, if py.isSensitiveKey key then .null else withoutSecrets item) :: withoutSecretItems rest

def withoutSecretsAll : List Value → List Value
  | [] => []
  | item :: rest => withoutSecrets item :: withoutSecretsAll rest
end

mutual
/-- The keys of a payload, at any depth, but not those below a sensitive key. -/
def openKeys : Value → List String
  | .dict entries => openItemKeys entries
  | .list xs => openKeysAll xs
  | .null | .bool _ | .int _ | .float _ | .str _ | .foreign => []

def openItemKeys : List (String × Value) → List String
  | [] => []
  | (key, item) :: rest => key :: (if py.isSensitiveKey key then [] else openKeys item) ++ openItemKeys rest

def openKeysAll : List Value → List String
  | [] => []
  | item :: rest => openKeys item ++ openKeysAll rest
end

mutual
theorem openKeys_without (value : Value) : py.openKeys (py.withoutSecrets value) = py.openKeys value := by
  match value with
  | .dict entries => rw [withoutSecrets, openKeys, openKeys, openItemKeys_without entries]
  | .list xs => rw [withoutSecrets, openKeys, openKeys, openKeysAll_without xs]
  | .null | .bool _ | .int _ | .float _ | .str _ | .foreign => rw [withoutSecrets]

theorem openItemKeys_without (entries : List (String × Value)) :
    py.openItemKeys (py.withoutSecretItems entries) = py.openItemKeys entries := by
  match entries with
  | [] => rw [withoutSecretItems]
  | (key, item) :: rest =>
    rw [withoutSecretItems, openItemKeys, openItemKeys, openItemKeys_without rest]
    split
    · rfl
    · rw [openKeys_without item]

theorem openKeysAll_without (xs : List Value) : py.openKeysAll (py.withoutSecretsAll xs) = py.openKeysAll xs := by
  match xs with
  | [] => rw [withoutSecretsAll]
  | item :: rest =>
    rw [withoutSecretsAll, openKeysAll, openKeysAll, openKeys_without item, openKeysAll_without rest]
end

/-- A key that is sensitive is sensitive as it is shown. -/
def StaysSensitive (key : String) : Prop :=
  py.isSensitiveKey key = true → py.isSensitiveKey (py.redactPublicText 500 key) = true

variable {py} (b : Bounds)

mutual
/-- What stands under keys that stay sensitive is not looked at. -/
theorem boundedPublicData_without (value : Value) (h : ∀ key ∈ py.openKeys value, py.StaysSensitive key)
    (depth left : Nat) :
    py.boundedPublicData b (py.withoutSecrets value) depth left = py.boundedPublicData b value depth left := by
  match value with
  | .dict entries =>
    rw [openKeys] at h
    rw [withoutSecrets, boundedPublicData, boundedPublicData]
    dsimp only
    rw [boundedItems_without entries h (depth + 1) [] left]
  | .list xs =>
    rw [openKeys] at h
    rw [withoutSecrets, boundedPublicData, boundedPublicData]
    dsimp only
    rw [boundedList_without xs h (depth + 1) left]
  | .null | .bool _ | .int _ | .float _ | .str _ | .foreign => rw [withoutSecrets]

theorem boundedItems_without (entries : List (String × Value))
    (h : ∀ key ∈ py.openItemKeys entries, py.StaysSensitive key) (depth : Nat) (sanitized : Refs) (left : Nat) :
    py.boundedItems b (py.withoutSecretItems entries) depth sanitized left =
      py.boundedItems b entries depth sanitized left := by
  match entries with
  | [] => rw [withoutSecretItems]
  | (key, item) :: rest =>
    rw [openItemKeys] at h
    have hrest : ∀ other ∈ py.openItemKeys rest, py.StaysSensitive other :=
      fun other hother => h other (List.mem_append_right _ hother)
    rw [withoutSecretItems, boundedItems, boundedItems]
    split
    · rfl
    · dsimp only
      split
      · exact boundedItems_without rest hrest depth _ _
      · rename_i hsafe
        have hkey : py.isSensitiveKey key = false := by
          rw [← Bool.not_eq_true]
          exact fun hkey => hsafe (h key (List.mem_append_left _ List.mem_cons_self) hkey)
        rw [hkey, if_neg Bool.false_ne_true] at h ⊢
        have hitem : ∀ other ∈ py.openKeys item, py.StaysSensitive other :=
          fun other hother => h other (List.mem_append_left _ (List.mem_cons_of_mem key hother))
        rw [boundedPublicData_without item hitem depth (left - 1)]
        exact boundedItems_without rest hrest depth _ _

theorem boundedList_without (xs : List Value) (h : ∀ key ∈ py.openKeysAll xs, py.StaysSensitive key)
    (depth left : Nat) :
    py.boundedList b (py.withoutSecretsAll xs) depth left = py.boundedList b xs depth left := by
  match xs with
  | [] => rw [withoutSecretsAll]
  | item :: rest =>
    rw [openKeysAll] at h
    rw [withoutSecretsAll, boundedList, boundedList]
    split
    · rfl
    · dsimp only
      rw [boundedPublicData_without item (fun key hkey => h key (List.mem_append_left _ hkey)) depth (left - 1),
        boundedList_without rest (fun key hkey => h key (List.mem_append_right _ hkey)) depth _]
end

theorem redactPublicData_without {value : Value} (h : ∀ key ∈ py.openKeys value, py.StaysSensitive key) :
    py.redactPublicData b (py.withoutSecrets value) = py.redactPublicData b value := by
  rw [redactPublicData, redactPublicData, boundedPublicData_without b value h]

/-! ### Bytes -/

theorem jsonBytes_int (n : Int) : py.jsonBytes (.int n) = some (total Char.utf8Size (toString n).toList) := by
  rw [jsonBytes_eq, dumps, Option.map_some]

variable (py) in
/-- What is serialized is what its bytes are counted of. -/
theorem serialized_bytes (sanitized : Value) :
    py.jsonBytes (py.serialized sanitized).1 = some (py.serialized sanitized).2 := by
  rw [serialized]
  cases h : py.jsonBytes sanitized with
  | some n => exact h
  | none =>
    dsimp only
    rw [jsonBytes_eq, unserializable, dumps, Option.map_some, Option.getD_some]

/-- Every payload is shown in at most `max_bytes`. -/
theorem redactPublicData_bytes (value : Value) :
    (py.jsonBytes (py.redactPublicData b value)).any (· ≤ b.maxBytes) = true := by
  have hbytes := py.serialized_bytes (py.boundedPublicData b value 0 b.maxItems).1
  rw [redactPublicData]
  split
  rename_i sanitized size heq
  rw [heq] at hbytes
  split
  · rename_i hle
    rw [hbytes]
    exact decide_eq_true hle
  · cases hfound : (truncationMarkers sanitized).find? fun marker => (py.jsonBytes marker).any (· ≤ b.maxBytes) with
    | some marker =>
      have hfits := List.find?_some hfound
      exact hfits
    | none =>
      rw [Option.getD_none, jsonBytes_int]
      exact decide_eq_true b.bytes_pos

/-! ### One key -/

/-- The bounds with so many bytes. -/
def Bounds.ofBytes (n : Nat) : Bounds := { maxBytes := n + 1, bytes_pos := Nat.le_add_left 1 n }

/-- What is stored under a key that is not sensitive as it is shown. -/
theorem redactPublicData_shows {key : String} (hkey : py.isSensitiveKey (py.redactPublicText 500 key) = false)
    (n : Int) {s : List Char} (hs : py.dumps (.dict [(py.redactPublicText 500 key, .int n)]) = some s)
    {bytes : Nat} (hbytes : total Char.utf8Size s ≤ bytes) :
    py.redactPublicData (.ofBytes bytes) (.dict [(key, .int n)]) =
      .dict [(py.redactPublicText 500 key, .int n)] := by
  apply redactPublicData_fits
  · have hdepth : (Bounds.ofBytes bytes).maxDepth = 12 := rfl
    have hitems : (Bounds.ofBytes bytes).maxItems = 200 := rfl
    simp [boundedPublicData, boundedItems, hkey, hdepth, hitems, Dict.set]
  · rw [hs]
    exact decide_eq_true (Nat.le_succ_of_le hbytes)

variable (py) in
theorem dumps_number (key : String) (n : Int) : ∃ s, py.dumps (.dict [(key, .int n)]) = some s :=
  ⟨_, by rw [dumps, dumpsItems, dumps, Option.bind_some, dumpsItems, Option.map_some, Option.map_some]⟩

end Interpreter

open Interpreter in
/-- Every payload is shown in at most `max_bytes`. Whatever set of keys is looked at: the payloads
with these keys show nothing of what they store under a sensitive one if and only if each sensitive
key of the set is still sensitive after it was redacted and cut. -/
theorem sensitive_values_hidden_iff (py : Interpreter) (keys : Set String) :
    (∀ (b : Bounds) (value : Value), (py.jsonBytes (py.redactPublicData b value)).any (· ≤ b.maxBytes) = true) ∧
      ((∀ (b : Bounds) (value other : Value), (∀ key ∈ py.openKeys value, key ∈ keys) →
          py.withoutSecrets value = py.withoutSecrets other →
          py.redactPublicData b value = py.redactPublicData b other) ↔
        ∀ key ∈ keys, py.isSensitiveKey key = true →
          py.isSensitiveKey (py.redactPublicText 500 key) = true) := by
  refine ⟨fun b value => redactPublicData_bytes b value, fun h key hkey hsensitive => ?_,
    fun stay b value other hkeys heq => ?_⟩
  · by_contra hsafe
    rw [Bool.not_eq_true] at hsafe
    obtain ⟨s, hs⟩ := py.dumps_number (py.redactPublicText 500 key) 1
    obtain ⟨t, ht⟩ := py.dumps_number (py.redactPublicText 500 key) 2
    have hsame := h (.ofBytes (total Char.utf8Size s + total Char.utf8Size t)) (.dict [(key, .int 1)])
      (.dict [(key, .int 2)]) (by simp [openKeys, openItemKeys, hsensitive, hkey])
      (by simp [withoutSecrets, withoutSecretItems, hsensitive])
    rw [redactPublicData_shows hsafe 1 hs (Nat.le_add_right ..),
      redactPublicData_shows hsafe 2 ht (Nat.le_add_left ..)] at hsame
    simp at hsame
  · have hvalue : ∀ key ∈ py.openKeys value, py.StaysSensitive key := fun key hkey => stay key (hkeys key hkey)
    have hother : ∀ key ∈ py.openKeys other, py.StaysSensitive key := by
      rwa [← openKeys_without, ← heq, openKeys_without]
    rw [← redactPublicData_without b hvalue, heq, redactPublicData_without b hother]

/-- A sensitive key that reads as a bearer: the name is redacted, and the password is shown. -/
theorem bearer_password_shown :
    asciiTables.isSensitiveKey "bearer password" = true ∧
      asciiTables.redactPublicData {} (.dict [("bearer password", .str "hunter2")]) =
        .dict [("Bearer [REDACTED]", .str "hunter2")] := by
  have hkey : asciiTables.isSensitiveKey "bearer password" = true := by decide +kernel
  exact ⟨hkey, Interpreter.redactPublicData_fits (by decide +kernel) (by decide +kernel)⟩

end Operant.Security
