import Operant.Mcp.Meaning

/-! Equality by `_json_equivalence_key`.

The key of a value has every number at 28 digits. Two values have the same key exactly if they are
equal as JSON, as long as no two numbers in them agree in 28 digits and differ. -/
namespace Operant.Mcp
open Operant.Python

/-! ### The numbers in a value -/

mutual
/-- Every number in the value is one of these. -/
def Numbers (P : Value → Prop) : Value → Prop
  | .int n => P (.int n)
  | .float x => P (.float x)
  | .list xs => NumbersList P xs
  | .dict items => NumbersItems P items
  | .null | .bool _ | .str _ | .foreign => True

def NumbersList (P : Value → Prop) : List Value → Prop
  | [] => True
  | x :: rest => Numbers P x ∧ NumbersList P rest

def NumbersItems (P : Value → Prop) : List (String × Value) → Prop
  | [] => True
  | (_, x) :: rest => Numbers P x ∧ NumbersItems P rest
end

variable {P Q : Value → Prop} {repr : ℚ → ℚ}

theorem numbers_mem {xs : List Value} (h : NumbersList P xs) {x : Value} (hx : x ∈ xs) : Numbers P x := by
  induction xs with
  | nil => exact absurd hx List.not_mem_nil
  | cons y rest ih =>
    cases List.mem_cons.mp hx with
    | inl heq => exact heq ▸ h.1
    | inr hrest => exact ih h.2 hrest

theorem numbers_item {items : Refs} (h : NumbersItems P items) {item : String × Value} (hitem : item ∈ items) :
    Numbers P item.2 := by
  induction items with
  | nil => exact absurd hitem List.not_mem_nil
  | cons other rest ih =>
    cases List.mem_cons.mp hitem with
    | inl heq => exact heq ▸ h.1
    | inr hrest => exact ih h.2 hrest

theorem jsonValid_mem {xs : List Value} (h : jsonValidList xs = true) {x : Value} (hx : x ∈ xs) :
    jsonValid x = true := by
  induction xs with
  | nil => exact absurd hx List.not_mem_nil
  | cons y rest ih =>
    rw [jsonValidList, Bool.and_eq_true] at h
    cases List.mem_cons.mp hx with
    | inl heq => exact heq ▸ h.1
    | inr hrest => exact ih h.2 hrest

theorem jsonValid_item {items : Refs} (h : jsonValidItems items = true) {item : String × Value} (hitem : item ∈ items) :
    jsonValid item.2 = true := by
  induction items with
  | nil => exact absurd hitem List.not_mem_nil
  | cons other rest ih =>
    obtain ⟨name, x⟩ := other
    rw [jsonValidItems, Bool.and_eq_true] at h
    cases List.mem_cons.mp hitem with
    | inl heq => exact heq ▸ h.1
    | inr hrest => exact ih h.2 hrest

theorem item_of_lookup {items : Refs} {key : String} {v : Value} (h : items.lookup key = some v) : (key, v) ∈ items := by
  induction items with
  | nil => exact nomatch h
  | cons item rest ih =>
    obtain ⟨k, x⟩ := item
    rw [List.lookup_cons] at h
    by_cases hkey : key = k
    · subst hkey
      rw [beq_self_eq_true] at h
      cases h
      exact List.mem_cons_self ..
    · have hb : (key == k) = false := by simpa using hkey
      rw [hb] at h
      exact List.mem_cons_of_mem _ (ih h)

/-! ### Keys -/

section
variable (repr)

mutual
/-- The key of a value whose integers can be written. -/
def key : Value → Value
  | .null => .null
  | .bool b => .bool b
  | .int n => .float (.finite (normalize n))
  | .float (.finite q) => .float (.finite (normalize (repr q)))
  | .float x => .float x
  | .str s => .str s
  | .list xs => .list (keys xs)
  | .dict items => .dict ((keyItems items).insertionSort fun a b => a.1 ≤ b.1)
  | .foreign => .foreign

def keys : List Value → List Value
  | [] => []
  | x :: rest => key x :: keys rest

def keyItems : List (String × Value) → List (String × Value)
  | [] => []
  | (name, x) :: rest => (name, key x) :: keyItems rest
end

end

theorem keys_eq_map (xs : List Value) : keys repr xs = xs.map (key repr) := by
  induction xs with
  | nil => rfl
  | cons x rest ih => rw [keys, ih, List.map_cons]

theorem keyItems_eq_map (items : Refs) : keyItems repr items = items.map fun item => (item.1, key repr item.2) := by
  induction items with
  | nil => rfl
  | cons item rest ih => rw [keyItems, ih, List.map_cons]

/-- The integers of these numbers can be written. -/
def Short (P : Value → Prop) : Prop := ∀ n : ℤ, P (.int n) → n.natAbs < strLimit

mutual
theorem equivalenceKey_eq (hshort : Short P) : (v : Value) → jsonValid v = true → Numbers P v →
    equivalenceKey repr v = .ok (key repr v)
  | .null, _, _ | .bool _, _, _ | .str _, _, _ => rfl
  | .int n, _, h => by
    rw [equivalenceKey, decimal, if_pos (hshort n h)]
    rfl
  | .float (.finite q), _, _ => rfl
  | .float .posInf, hv, _ | .float .negInf, hv, _ | .float .nan, hv, _ => nomatch hv
  | .list xs, hv, h => by
    rw [equivalenceKey, equivalenceKeys_eq hshort xs hv h]
    rfl
  | .dict items, hv, h => by
    rw [jsonValid, Bool.and_eq_true] at hv
    rw [equivalenceKey, equivalenceItems_eq hshort items hv.2 h]
    rfl
  | .foreign, hv, _ => nomatch hv

theorem equivalenceKeys_eq (hshort : Short P) : (xs : List Value) → jsonValidList xs = true → NumbersList P xs →
    equivalenceKeys repr xs = .ok (keys repr xs)
  | [], _, _ => rfl
  | x :: rest, hv, h => by
    rw [jsonValidList, Bool.and_eq_true] at hv
    rw [equivalenceKeys, equivalenceKey_eq hshort x hv.1 h.1, equivalenceKeys_eq hshort rest hv.2 h.2]
    rfl

theorem equivalenceItems_eq (hshort : Short P) : (items : List (String × Value)) → jsonValidItems items = true →
    NumbersItems P items → equivalenceItems repr items = .ok (keyItems repr items)
  | [], _, _ => rfl
  | (name, x) :: rest, hv, h => by
    rw [jsonValidItems, Bool.and_eq_true] at hv
    rw [equivalenceItems, equivalenceKey_eq hshort x hv.1 h.1, equivalenceItems_eq hshort rest hv.2 h.2]
    rfl
end

/-! ### Equality -/

/-- Numbers of the one kind and of the other that agree in 28 digits are the same. -/
def Apart (repr : ℚ → ℚ) (P Q : Value → Prop) : Prop := ∀ a b x y, P a → Q b → numberOf repr a = some x →
  numberOf repr b = some y → normalize x = normalize y → x = y

theorem key_number {v : Value} {x : ℚ} (h : numberOf repr v = some x) : key repr v = .float (.finite (normalize x)) := by
  unfold numberOf at h
  split at h
  · cases h
    rfl
  · cases h
    rfl
  · exact nomatch h

theorem number_of_key {v : Value} (hv : jsonValid v = true) {z : PyFloat} (h : key repr v = .float z) :
    ∃ x, numberOf repr v = some x ∧ z = .finite (normalize x) := by
  cases v with
  | int n =>
    cases h
    exact ⟨n, rfl, rfl⟩
  | float x =>
    cases x with
    | finite q =>
      cases h
      exact ⟨repr q, rfl, rfl⟩
    | posInf | negInf | nan => exact nomatch hv
  | null | bool | str | list | dict => exact nomatch h
  | foreign => exact nomatch hv

theorem numbers_number {v : Value} {x : ℚ} (hx : numberOf repr v = some x) (h : Numbers P v) : P v := by
  cases v with
  | int n => exact h
  | float z => exact h
  | null | bool | str | list | dict | foreign => exact nomatch hx

theorem jsonEq_number {v w : Value} {x : ℚ} (h : numberOf repr v = some x) :
    jsonEq repr v w = true ↔ numberOf repr w = some x := by
  have goal : jsonEq repr v w = (numberOf repr w).any (x == ·) := by
    cases v with
    | int n =>
      cases h
      cases hw : numberOf repr w <;> simp [jsonEq, hw]
    | float z => cases hw : numberOf repr w <;> simp [jsonEq, h, hw]
    | null | bool | str | list | dict | foreign => exact nomatch h
  rw [goal]
  cases numberOf repr w with
  | none => simp
  | some y =>
    rw [Option.any_some, beq_iff_eq, Option.some.injEq]
    exact eq_comm

theorem key_eq_iff_number (hapart : Apart repr P Q) {v w : Value} {x : ℚ} (hx : numberOf repr v = some x)
    (hv : Numbers P v) (hw : jsonValid w = true) (hnw : Numbers Q w) :
    key repr v = key repr w ↔ jsonEq repr v w = true := by
  rw [jsonEq_number hx, key_number hx]
  constructor
  · intro h
    obtain ⟨y, hy, heq⟩ := number_of_key hw h.symm
    rw [hy, hapart v w x y (numbers_number hx hv) (numbers_number hy hnw) hx hy (PyFloat.finite.inj heq)]
  · intro h
    rw [key_number h]

/-- Dicts that are sorted are the same exactly if the dicts are as long, and every item of the one is one of the
other. -/
theorem sorted_eq_iff_subset {xs ys : Refs} (hxs : (xs.map Prod.fst).Nodup) (hys : (ys.map Prod.fst).Nodup) :
    xs.insertionSort (fun a b => a.1 ≤ b.1) = ys.insertionSort (fun a b => a.1 ≤ b.1) ↔
      xs.length = ys.length ∧ ∀ item ∈ xs, item ∈ ys := by
  have hxperm := List.perm_insertionSort (fun a b : String × Value => a.1 ≤ b.1) xs
  have hyperm := List.perm_insertionSort (fun a b : String × Value => a.1 ≤ b.1) ys
  constructor
  · intro h
    have hperm : xs.Perm ys := hxperm.symm.trans (h ▸ hyperm)
    exact ⟨hperm.length_eq, fun item hitem => hperm.mem_iff.mp hitem⟩
  · intro ⟨hlength, hsubset⟩
    have hperm : xs.Perm ys := (List.subperm_of_subset (List.Nodup.of_map _ hxs) hsubset).perm_of_length_le hlength.ge
    have : Std.Total fun a b : String × Value => a.1 ≤ b.1 := ⟨fun a b => String.le_total a.1 b.1⟩
    have : IsTrans (String × Value) fun a b => a.1 ≤ b.1 := ⟨fun _ _ _ => String.le_trans⟩
    apply List.Perm.eq_of_pairwise _ (List.pairwise_insertionSort _ xs) (List.pairwise_insertionSort _ ys)
      ((hxperm.trans hperm).trans hyperm.symm)
    -- Items with the same key are the same item.
    intro a b ha hb hab hba
    exact List.inj_on_of_nodup_map hys (hperm.mem_iff.mp (hxperm.mem_iff.mp ha)) (hyperm.mem_iff.mp hb)
      (String.le_antisymm hab hba)

theorem keys_keyItems (items : Refs) : (keyItems repr items).map Prod.fst = items.map Prod.fst := by
  rw [keyItems_eq_map, List.map_map]
  rfl

theorem mem_keyItems {items : Refs} (hnodup : (items.map Prod.fst).Nodup) {name : String} {k : Value} :
    (name, k) ∈ keyItems repr items ↔ ∃ y, items.lookup name = some y ∧ key repr y = k := by
  rw [keyItems_eq_map, List.mem_map]
  constructor
  · intro ⟨item, hitem, heq⟩
    obtain ⟨rfl, rfl⟩ := Prod.mk.inj heq
    exact ⟨item.2, (Dict.mem_iff_lookup hnodup).mp hitem, rfl⟩
  · intro ⟨y, hy, heq⟩
    exact ⟨(name, y), item_of_lookup hy, heq ▸ rfl⟩

mutual
/-- Values have the same key exactly if they are equal as JSON. -/
theorem key_eq_iff (hapart : Apart repr P Q) : (v w : Value) → jsonValid v = true → jsonValid w = true →
    Numbers P v → Numbers Q w → (key repr v = key repr w ↔ jsonEq repr v w = true)
  | .null, w, _, hw, _, _ => by
    cases w with
    | float x => cases x <;> simp [key, jsonEq]
    | _ => simp [key, jsonEq]
  | .bool b, w, _, hw, _, _ => by
    cases w with
    | float x => cases x <;> simp [key, jsonEq]
    | _ => simp [key, jsonEq]
  | .int n, w, _, hw, hv, hnw => key_eq_iff_number hapart rfl hv hw hnw
  | .float (.finite q), w, _, hw, hv, hnw => key_eq_iff_number hapart rfl hv hw hnw
  | .float .posInf, _, hv, _, _, _ | .float .negInf, _, hv, _, _, _ | .float .nan, _, hv, _, _, _ => nomatch hv
  | .str s, w, _, hw, _, _ => by
    cases w with
    | float x => cases x <;> simp [key, jsonEq]
    | _ => simp [key, jsonEq]
  | .list xs, w, hv, hw, hnv, hnw => by
    cases w with
    | list ys =>
      rw [key, key, Value.list.injEq, jsonEq]
      exact keys_eq_iff hapart xs ys hv hw hnv hnw
    | float x => cases x <;> simp [key, jsonEq]
    | _ => simp [key, jsonEq]
  | .dict xs, w, hv, hw, hnv, hnw => by
    cases w with
    | dict ys =>
      rw [jsonValid, Bool.and_eq_true, decide_eq_true_eq] at hv hw
      have hlength (items : Refs) : (keyItems repr items).length = items.length := by
        rw [keyItems_eq_map, List.length_map]
      rw [key, key, Value.dict.injEq, jsonEq, Bool.and_eq_true, beq_iff_eq,
        sorted_eq_iff_subset ((keys_keyItems xs).symm ▸ hv.1) ((keys_keyItems ys).symm ▸ hw.1), hlength, hlength,
        keyItems_subset hapart xs ys hv.2 hw.1 hw.2 hnv hnw]
    | float x => cases x <;> simp [key, jsonEq]
    | _ => simp [key, jsonEq]
  | .foreign, _, hv, _, _, _ => nomatch hv

theorem keys_eq_iff (hapart : Apart repr P Q) : (xs ys : List Value) → jsonValidList xs = true →
    jsonValidList ys = true → NumbersList P xs → NumbersList Q ys →
    (keys repr xs = keys repr ys ↔ jsonEqList repr xs ys = true)
  | [], [], _, _, _, _ => by simp [keys, jsonEqList]
  | [], _ :: _, _, _, _, _ => by simp [keys, jsonEqList]
  | _ :: _, [], _, _, _, _ => by simp [keys, jsonEqList]
  | x :: xs, y :: ys, hv, hw, hnv, hnw => by
    rw [jsonValidList, Bool.and_eq_true] at hv hw
    rw [keys, keys, List.cons.injEq, jsonEqList, Bool.and_eq_true, key_eq_iff hapart x y hv.1 hw.1 hnv.1 hnw.1,
      keys_eq_iff hapart xs ys hv.2 hw.2 hnv.2 hnw.2]

theorem keyItems_subset (hapart : Apart repr P Q) : (xs ys : List (String × Value)) → jsonValidItems xs = true →
    (ys.map Prod.fst).Nodup → jsonValidItems ys = true → NumbersItems P xs → NumbersItems Q ys →
    ((∀ item ∈ keyItems repr xs, item ∈ keyItems repr ys) ↔ jsonEqItems repr xs ys = true)
  | [], _, _, _, _, _, _ => by simp [keyItems, jsonEqItems]
  | (name, x) :: xs, ys, hv, hnodup, hw, hnv, hnw => by
    rw [jsonValidItems, Bool.and_eq_true] at hv
    rw [keyItems, List.forall_mem_cons, keyItems_subset hapart xs ys hv.2 hnodup hw hnv.2 hnw, mem_keyItems hnodup,
      jsonEqItems, Bool.and_eq_true]
    apply and_congr_left'
    cases hy : ys.lookup name with
    | none => simp
    | some y =>
      have hmem := item_of_lookup hy
      have hiff := key_eq_iff hapart x y hv.1 (jsonValid_item hw hmem) hnv.1 (numbers_item hnw hmem)
      simp only [Option.some.injEq, exists_eq_left']
      rw [← hiff]
      exact eq_comm
end

/-- Keys that all differ are those of values no two of which are equal. -/
theorem unique_iff (hapart : Apart repr P P) {xs : List Value} (hv : jsonValidList xs = true)
    (h : NumbersList P xs) :
    (keys repr xs).dedup.length = xs.length ↔ xs.Pairwise fun a b => jsonEq repr a b = false := by
  have hdedup : (keys repr xs).dedup.length = xs.length ↔ (keys repr xs).Nodup := by
    have hlength : (keys repr xs).length = xs.length := by rw [keys_eq_map, List.length_map]
    rw [← List.dedup_eq_self, ← hlength]
    exact ⟨(List.dedup_sublist _).eq_of_length, congrArg List.length⟩
  rw [hdedup, keys_eq_map, List.Nodup, List.pairwise_map]
  apply List.Pairwise.iff_of_mem
  intro a b ha hb
  rw [ne_eq, key_eq_iff hapart a b (jsonValid_mem hv ha) (jsonValid_mem hv hb) (numbers_mem h ha) (numbers_mem h hb),
    Bool.not_eq_true]

end Operant.Mcp
