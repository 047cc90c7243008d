import Operant.Python.Value

/-! A dict is what its lookups say, and values that can be written as JSON equal themselves. -/
namespace Operant.Python.Dict
variable {α : Type}

theorem lookup_eq_none {d : Dict α} {key : String} : d.lookup key = none ↔ key ∉ d.map Prod.fst := by
  rw [List.lookup_eq_none_iff, List.mem_map]
  constructor
  · rintro h ⟨item, hitem, rfl⟩
    exact absurd (h item hitem) (by simp)
  · intro h item hitem
    simp only [bne_iff_ne, ne_eq]
    exact fun heq => h ⟨item, hitem, heq.symm⟩

/-- A dict is its keys and its lookups. -/
theorem ext_lookup {d e : Dict α} (hnodup : (d.map Prod.fst).Nodup) (hkeys : d.map Prod.fst = e.map Prod.fst)
    (h : ∀ key, d.lookup key = e.lookup key) : d = e := by
  induction d generalizing e with
  | nil => exact (List.map_eq_nil_iff.mp hkeys.symm).symm
  | cons item rest ih =>
    obtain ⟨k, v⟩ := item
    cases e with
    | nil => exact nomatch hkeys
    | cons other others =>
      obtain ⟨k', w⟩ := other
      obtain ⟨rfl, hrest⟩ := List.cons.inj hkeys
      obtain ⟨hnew, hnodup⟩ := List.nodup_cons.mp hnodup
      have hvalue : v = w := by simpa using h k
      have hothers : rest = others := by
        apply ih hnodup hrest
        intro key
        by_cases hkey : key = k
        · rw [hkey, lookup_eq_none.mpr hnew, lookup_eq_none.mpr (hrest ▸ hnew)]
        · have hb : (key == k) = false := by simpa using hkey
          simpa [List.lookup_cons, hb] using h key
      rw [hvalue, hothers]

/-- The items of a dict do not say more than its lookups. -/
theorem mem_iff_lookup {d : Dict α} (hnodup : (d.map Prod.fst).Nodup) {key : String} {value : α} :
    (key, value) ∈ d ↔ d.lookup key = some value := by
  induction d with
  | nil => simp
  | cons item rest ih =>
    obtain ⟨k, v⟩ := item
    obtain ⟨hnew, hrest⟩ := List.nodup_cons.mp hnodup
    rw [List.mem_cons, List.lookup_cons]
    by_cases hkey : key = k
    · subst hkey
      have hout : (key, value) ∉ rest := fun hmem => hnew (List.mem_map.mpr ⟨_, hmem, rfl⟩)
      simp [hout, eq_comm]
    · have hb : (key == k) = false := by simpa using hkey
      simp [hb, hkey, ih hrest]

/-- Dicts with the same items have the same lookups. -/
theorem lookup_of_perm {d e : Dict α} (h : d.Perm e) (hnodup : (d.map Prod.fst).Nodup) (key : String) :
    d.lookup key = e.lookup key := by
  have hother : (e.map Prod.fst).Nodup := (h.map Prod.fst).nodup hnodup
  apply Option.ext
  intro value
  rw [← mem_iff_lookup hnodup, ← mem_iff_lookup hother, h.mem_iff]

end Operant.Python.Dict

namespace Operant.Python

mutual
/-- `json_valid(..)` of what is written: every number is finite, and keys differ. -/
def jsonValid : Value → Bool
  | .null | .bool _ | .int _ | .str _ => true
  | .float x => match x with
    | .finite _ => true
    | _ => false
  | .list xs => jsonValidList xs
  | .dict items => decide (items.map Prod.fst).Nodup && jsonValidItems items
  | .foreign => false

def jsonValidList : List Value → Bool
  | [] => true
  | x :: rest => jsonValid x && jsonValidList rest

def jsonValidItems : List (String × Value) → Bool
  | [] => true
  | (_, x) :: rest => jsonValid x && jsonValidItems rest
end

/-! ### Values that are equal -/

mutual
theorem pyEq_self : (v : Value) → jsonValid v = true → v.pyEq v = true
  | .null, _ => rfl
  | .bool b, _ => by cases b <;> rfl
  | .int n, _ => by simp [Value.pyEq, Value.numeric?, PyFloat.eq]
  | .float (.finite q), _ => by simp [Value.pyEq, Value.numeric?, PyFloat.eq]
  | .float .posInf, h | .float .negInf, h | .float .nan, h => nomatch h
  | .str s, _ => by simp [Value.pyEq]
  | .list xs, h => pyEqList_self xs h
  | .dict items, h => by
    rw [jsonValid, Bool.and_eq_true, decide_eq_true_eq] at h
    rw [Value.pyEq, beq_self_eq_true, Bool.true_and]
    exact pyEqItems_self items items (fun k v hmem => (Dict.mem_iff_lookup h.1).mp hmem) h.2
  | .foreign, h => nomatch h

theorem pyEqList_self : (xs : List Value) → jsonValidList xs = true → Value.pyEqList xs xs = true
  | [], _ => rfl
  | x :: rest, h => by
    rw [jsonValidList, Bool.and_eq_true] at h
    rw [Value.pyEqList, pyEq_self x h.1, pyEqList_self rest h.2]
    rfl

theorem pyEqItems_self : (items all : List (String × Value)) →
    (∀ k v, (k, v) ∈ items → all.lookup k = some v) → jsonValidItems items = true →
    Value.pyEqItems items all = true
  | [], _, _, _ => rfl
  | (k, v) :: rest, all, hall, h => by
    rw [jsonValidItems, Bool.and_eq_true] at h
    rw [Value.pyEqItems, hall k v (List.mem_cons_self ..),
      pyEqItems_self rest all (fun k v hmem => hall k v (List.mem_cons_of_mem _ hmem)) h.2, Bool.and_true]
    exact pyEq_self v h.1
end

theorem lookup_of_pyEqItems {xs ys : Refs} (h : Value.pyEqItems xs ys = true) {key : String} {v : Value}
    (hv : xs.lookup key = some v) : ∃ w, ys.lookup key = some w ∧ v.pyEq w = true := by
  induction xs with
  | nil => exact nomatch hv
  | cons item rest ih =>
    obtain ⟨k, x⟩ := item
    rw [Value.pyEqItems, Bool.and_eq_true] at h
    rw [List.lookup_cons] at hv
    by_cases hkey : key = k
    · subst hkey
      rw [beq_self_eq_true] at hv
      cases hv
      cases hw : ys.lookup key with
      | none =>
        rw [hw] at h
        exact nomatch h.1
      | some w =>
        rw [hw] at h
        exact ⟨w, rfl, h.1⟩
    · have hb : (key == k) = false := by simpa using hkey
      rw [hb] at hv
      exact ih h.2 hv

end Operant.Python
