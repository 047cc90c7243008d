import Mathlib.Data.Rat.Defs
import Mathlib.Algebra.Order.Ring.Rat
import Mathlib.Tactic

/-! Python values, as far as a graph run stores, compares and checks them.

A port value, a run input and a loop measurement are Python objects. The ones the
graph can persist are JSON; everything else (a tuple, a set, a dict with a key that
is no string, an object) is `foreign`. Floats are exact: finite ones are rationals,
the other three are named. -/
namespace Operant.Python

/-- The Python exceptions the modelled code raises or lets through. -/
inductive PyError where
  | keyError
  | typeError
  | valueError
  | indexError
  | overflowError
  | stopIteration
  deriving DecidableEq

inductive PyFloat where
  | finite (q : ℚ)
  | posInf
  | negInf
  | nan
  deriving DecidableEq

inductive Value where
  | null
  | bool (b : Bool)
  | int (n : Int)
  | float (x : PyFloat)
  | str (s : String)
  | list (xs : List Value)
  | dict (items : List (String × Value))
  | foreign

namespace Value

mutual
/-- Structural equality, not Python's `==` (`pyEq`). -/
def decEq : (a b : Value) → Decidable (a = b)
  | .null, b => match b with
    | .null => isTrue rfl
    | .bool _ | .int _ | .float _ | .str _ | .list _ | .dict _ | .foreign => isFalse (by simp)
  | .bool x, b => match b with
    | .bool y => decidable_of_iff (x = y) (by simp)
    | .null | .int _ | .float _ | .str _ | .list _ | .dict _ | .foreign => isFalse (by simp)
  | .int x, b => match b with
    | .int y => decidable_of_iff (x = y) (by simp)
    | .null | .bool _ | .float _ | .str _ | .list _ | .dict _ | .foreign => isFalse (by simp)
  | .float x, b => match b with
    | .float y => decidable_of_iff (x = y) (by simp)
    | .null | .bool _ | .int _ | .str _ | .list _ | .dict _ | .foreign => isFalse (by simp)
  | .str x, b => match b with
    | .str y => decidable_of_iff (x = y) (by simp)
    | .null | .bool _ | .int _ | .float _ | .list _ | .dict _ | .foreign => isFalse (by simp)
  | .list xs, b => match b with
    | .list ys => @decidable_of_iff _ (xs = ys) (by simp) (decEqList xs ys)
    | .null | .bool _ | .int _ | .float _ | .str _ | .dict _ | .foreign => isFalse (by simp)
  | .dict xs, b => match b with
    | .dict ys => @decidable_of_iff _ (xs = ys) (by simp) (decEqItems xs ys)
    | .null | .bool _ | .int _ | .float _ | .str _ | .list _ | .foreign => isFalse (by simp)
  | .foreign, b => match b with
    | .foreign => isTrue rfl
    | .null | .bool _ | .int _ | .float _ | .str _ | .list _ | .dict _ => isFalse (by simp)

def decEqList : (xs ys : List Value) → Decidable (xs = ys)
  | [], [] => isTrue rfl
  | [], _ :: _ => isFalse (by simp)
  | _ :: _, [] => isFalse (by simp)
  | x :: xs, y :: ys => @decidable_of_iff _ (x = y ∧ xs = ys) (by simp)
      (@instDecidableAnd _ _ (decEq x y) (decEqList xs ys))

def decEqItems : (xs ys : List (String × Value)) → Decidable (xs = ys)
  | [], [] => isTrue rfl
  | [], _ :: _ => isFalse (by simp)
  | _ :: _, [] => isFalse (by simp)
  | (k, x) :: xs, (l, y) :: ys => @decidable_of_iff _ (k = l ∧ x = y ∧ xs = ys)
      (by simp [Prod.ext_iff, and_assoc])
      (@instDecidableAnd _ _ (inferInstanceAs (Decidable (k = l)))
        (@instDecidableAnd _ _ (decEq x y) (decEqItems xs ys)))
end

instance : DecidableEq Value := decEq

end Value

/-! ### Numbers -/

/-- The smallest integer magnitude that no finite double is rounded to. -/
def floatOverflow : Nat := 2 ^ 1024 - 2 ^ 970

namespace PyFloat

def eq : PyFloat → PyFloat → Bool
  | .finite a, .finite b => a == b
  | .posInf, .posInf => true
  | .negInf, .negInf => true
  | _, _ => false

def lt : PyFloat → PyFloat → Bool
  | .finite a, .finite b => a < b
  | .finite _, .posInf => true
  | .negInf, .finite _ => true
  | .negInf, .posInf => true
  | _, _ => false

def le (a b : PyFloat) : Bool := a.lt b || a.eq b

end PyFloat

namespace Value

/-- What a `bool`, an `int` or a `float` is worth as a number. -/
def numeric? : Value → Option PyFloat
  | .bool b => some (.finite (if b then 1 else 0))
  | .int n => some (.finite n)
  | .float x => some x
  | .null | .str _ | .list _ | .dict _ | .foreign => none

/-- `math.isfinite`, which converts an `int` to a double first. -/
def isFinite : Value → Except PyError Bool
  | .bool _ => .ok true
  | .int n => if n.natAbs < floatOverflow then .ok true else .error .overflowError
  | .float (.finite _) => .ok true
  | .float _ => .ok false
  | .null | .str _ | .list _ | .dict _ | .foreign => .error .typeError

/-! ### Comparison, membership, lookup, truth -/

mutual
/-- `a == b`. Numbers compare by value whatever their type, dicts whatever their order. -/
def pyEq : Value → Value → Bool
  | .null, b => match b with
    | .null => true
    | _ => false
  | .bool x, b => match numeric? b with
    | some y => (PyFloat.finite (if x then 1 else 0)).eq y
    | none => false
  | .int n, b => match numeric? b with
    | some y => (PyFloat.finite n).eq y
    | none => false
  | .float x, b => match numeric? b with
    | some y => x.eq y
    | none => false
  | .str s, b => match b with
    | .str t => s == t
    | _ => false
  | .list xs, b => match b with
    | .list ys => pyEqList xs ys
    | _ => false
  | .dict xs, b => match b with
    | .dict ys => xs.length == ys.length && pyEqItems xs ys
    | _ => false
  | .foreign, _ => false

def pyEqList : List Value → List Value → Bool
  | [], [] => true
  | x :: xs, y :: ys => x.pyEq y && pyEqList xs ys
  | _, _ => false

def pyEqItems : List (String × Value) → List (String × Value) → Bool
  | [], _ => true
  | (k, v) :: rest, ys =>
    (match ys.lookup k with
      | some w => v.pyEq w
      | none => false) && pyEqItems rest ys
end

/-- The four ordering operators. -/
inductive Order where
  | lt
  | ltE
  | gt
  | gtE
  deriving DecidableEq

def Order.onFloat : Order → PyFloat → PyFloat → Bool
  | .lt, a, b => a.lt b
  | .ltE, a, b => a.le b
  | .gt, a, b => b.lt a
  | .gtE, a, b => b.le a

def Order.onNat : Order → Nat → Nat → Bool
  | .lt, a, b => a < b
  | .ltE, a, b => a ≤ b
  | .gt, a, b => b < a
  | .gtE, a, b => b ≤ a

def Order.onString : Order → String → String → Bool
  | .lt, a, b => a < b
  | .ltE, a, b => !(b < a)
  | .gt, a, b => b < a
  | .gtE, a, b => !(a < b)

mutual
/-- `a < b` and its three siblings; values of different or unordered types raise. -/
def pyOrder (op : Order) : Value → Value → Except PyError Bool
  | .bool x, b => match numeric? b with
    | some y => .ok (op.onFloat (.finite (if x then 1 else 0)) y)
    | none => .error .typeError
  | .int n, b => match numeric? b with
    | some y => .ok (op.onFloat (.finite n) y)
    | none => .error .typeError
  | .float x, b => match numeric? b with
    | some y => .ok (op.onFloat x y)
    | none => .error .typeError
  | .str s, b => match b with
    | .str t => .ok (op.onString s t)
    | _ => .error .typeError
  | .list xs, b => match b with
    | .list ys => pyOrderList op xs.length ys.length xs ys
    | _ => .error .typeError
  | .null, _ => .error .typeError
  | .dict _, _ => .error .typeError
  | .foreign, _ => .error .typeError

/-- The first pair of elements that differ decides; without one the lengths do. -/
def pyOrderList (op : Order) (m n : Nat) : List Value → List Value → Except PyError Bool
  | x :: xs, y :: ys => if x.pyEq y then pyOrderList op m n xs ys else x.pyOrder op y
  | [], _ => .ok (op.onNat m n)
  | _ :: _, [] => .ok (op.onNat m n)
end

/-- Lists and dicts cannot be dict keys. -/
def hashable : Value → Bool
  | .list _ | .dict _ => false
  | .null | .bool _ | .int _ | .float _ | .str _ | .foreign => true

/-- `left in right`. -/
def pyIn (left right : Value) : Except PyError Bool :=
  match right with
  | .str t => match left with
    | .str s => .ok (t.toList.tails.any s.toList.isPrefixOf)
    | _ => .error .typeError
  | .list xs => .ok (xs.any left.pyEq)
  | .dict items =>
    if !left.hashable then .error .typeError
    else match left with
      | .str s => .ok (items.lookup s).isSome
      | _ => .ok false
  | .null | .bool _ | .int _ | .float _ | .foreign => .error .typeError

/-- A list or string index, from the end when negative. -/
def index? (length : Nat) (i : Int) : Option Nat :=
  if 0 ≤ i then (if i.toNat < length then some i.toNat else none)
  else (if 0 ≤ i + length then some (i + length).toNat else none)

/-- `container[key]`. An index past the end is an `IndexError`, which is no `KeyError`. -/
def pyGetItem (container key : Value) : Except PyError Value :=
  match container with
  | .dict items =>
    if !key.hashable then .error .typeError
    else match key with
      | .str k => match items.lookup k with
        | some v => .ok v
        | none => .error .keyError
      | _ => .error .keyError
  | .list xs => match key with
    | .int i => match index? xs.length i with
      | some k => .ok (xs.getD k .null)
      | none => .error .indexError
    | .bool b => match index? xs.length (if b then 1 else 0) with
      | some k => .ok (xs.getD k .null)
      | none => .error .indexError
    | _ => .error .typeError
  | .str s => match key with
    | .int i => match index? s.toList.length i with
      | some k => .ok (.str (String.singleton (s.toList.getD k 'x')))
      | none => .error .indexError
    | .bool b => match index? s.toList.length (if b then 1 else 0) with
      | some k => .ok (.str (String.singleton (s.toList.getD k 'x')))
      | none => .error .indexError
    | _ => .error .typeError
  | .null | .bool _ | .int _ | .float _ | .foreign => .error .typeError

/-- `bool(value)`. -/
def truthy : Value → Bool
  | .null => false
  | .bool b => b
  | .int n => n ≠ 0
  | .float (.finite q) => q ≠ 0
  | .float _ => true
  | .str s => s ≠ ""
  | .list xs => !xs.isEmpty
  | .dict items => !items.isEmpty
  | .foreign => true

/-! ### JSON -/

/-- `_is_json_value` with `depth - 1` levels of nesting left. -/
def isJsonWithin : Nat → Value → Bool
  | 0, _ => false
  | depth + 1, value => match value with
    | .null | .str _ | .bool _ | .int _ => true
    | .float x => match x with
      | .finite _ => true
      | _ => false
    | .list xs => xs.all (isJsonWithin depth)
    | .dict items => items.all fun item => isJsonWithin depth item.2
    | .foreign => false

/-- `_is_json_value`: finite JSON nested at most 64 deep. -/
def isJsonValue (value : Value) : Bool := isJsonWithin 65 value

end Value

/-! ### Dicts with string keys -/

/-- A dict in insertion order. -/
abbrev Dict (α : Type) := List (String × α)

namespace Dict
variable {α : Type}

/-- `key in d`. -/
def has (d : Dict α) (key : String) : Bool := (d.lookup key).isSome

/-- `d[key] = value`: in place where the key is there, else at the end. -/
def set : Dict α → String → α → Dict α
  | [], key, value => [(key, value)]
  | (k, v) :: rest, key, value =>
    if k = key then (k, value) :: rest else (k, v) :: set rest key value

/-- `d.setdefault(key, value)`. -/
def setDefault (d : Dict α) (key : String) (value : α) : Dict α :=
  if d.has key then d else d.set key value

/-- `{**left, **right}`. -/
def merge (left right : Dict α) : Dict α :=
  right.foldl (fun d item => d.set item.1 item.2) left

/-- The dict the pairs leave when inserted one after the other. -/
def ofList (items : List (String × α)) : Dict α := merge [] items

@[simp] theorem lookup_set_self (d : Dict α) (key : String) (value : α) :
    (d.set key value).lookup key = some value := by
  induction d with
  | nil => simp [set]
  | cons item rest ih =>
    obtain ⟨k, v⟩ := item
    by_cases h : k = key
    · simp [set, h]
    · have hb : (key == k) = false := by simpa using fun h' => h h'.symm
      simp [set, h, List.lookup_cons, hb, ih]

theorem lookup_set_ne (d : Dict α) {key other : String} (value : α) (hne : other ≠ key) :
    (d.set key value).lookup other = d.lookup other := by
  induction d with
  | nil =>
    have hb : (other == key) = false := by simpa using hne
    simp [set, List.lookup_cons, hb]
  | cons item rest ih =>
    obtain ⟨k, v⟩ := item
    by_cases h : k = key
    · have hb : (other == k) = false := by simpa [h] using hne
      simp [set, h, List.lookup_cons, h ▸ hb]
    · by_cases ho : other = k
      · simp [set, h, ho]
      · have hb : (other == k) = false := by simpa using ho
        simp [set, h, List.lookup_cons, hb, ih]

theorem lookup_set (d : Dict α) (key other : String) (value : α) :
    (d.set key value).lookup other = if other = key then some value else d.lookup other := by
  by_cases h : other = key
  · subst h
    simp
  · simp [h, lookup_set_ne d value h]

theorem set_new (d : Dict α) {key : String} (value : α) (h : key ∉ d.map Prod.fst) :
    d.set key value = d ++ [(key, value)] := by
  induction d with
  | nil => rfl
  | cons item rest ih =>
    obtain ⟨k, v⟩ := item
    obtain ⟨hne, hrest⟩ := List.ne_and_not_mem_of_not_mem_cons h
    rw [set, if_neg (fun heq => hne heq.symm), ih hrest, List.cons_append]

theorem mem_keys {d : Dict α} {key : String} (h : d.has key = true) : key ∈ d.map Prod.fst := by
  obtain ⟨item, hitem, hkey⟩ := List.lookup_isSome_iff.mp h
  exact List.mem_map.mpr ⟨item, hitem, (eq_of_beq hkey).symm⟩

theorem keys_set (d : Dict α) (key : String) (value : α) :
    (d.set key value).map Prod.fst =
      if key ∈ d.map Prod.fst then d.map Prod.fst else d.map Prod.fst ++ [key] := by
  induction d with
  | nil => simp [set]
  | cons item rest ih =>
    obtain ⟨k, v⟩ := item
    by_cases h : k = key
    · simp [set, h]
    · have hne : ¬key = k := fun heq => h heq.symm
      by_cases hrest : key ∈ rest.map Prod.fst
      · rw [if_pos hrest] at ih
        simp [set, h, ih, hrest]
      · rw [if_neg hrest] at ih
        simp [set, h, ih, hne, hrest]

theorem nodup_set {d : Dict α} (h : (d.map Prod.fst).Nodup) (key : String) (value : α) :
    ((d.set key value).map Prod.fst).Nodup := by
  rw [keys_set]
  split
  · exact h
  · rename_i hnew
    rw [List.nodup_append]
    exact ⟨h, List.nodup_singleton key, fun a ha b hb heq =>
      hnew (by rwa [← List.mem_singleton.mp hb, ← heq])⟩

/-- No key is there twice. -/
theorem nodup_ofList (items : List (String × α)) : ((ofList items).map Prod.fst).Nodup := by
  have insert (d : Dict α) (h : (d.map Prod.fst).Nodup) : ((merge d items).map Prod.fst).Nodup := by
    induction items generalizing d with
    | nil => exact h
    | cons item rest ih => exact ih _ (nodup_set h item.1 item.2)
  exact insert [] List.nodup_nil

theorem mem_set {d : Dict α} {key : String} {value : α} {entry : String × α}
    (h : entry ∈ d.set key value) : entry = (key, value) ∨ entry ∈ d := by
  induction d with
  | nil => exact .inl (List.mem_singleton.mp h)
  | cons item rest ih =>
    obtain ⟨k, v⟩ := item
    unfold set at h
    split at h
    · rename_i heq
      rw [heq] at h
      exact (List.mem_cons.mp h).imp_right (List.mem_cons_of_mem _)
    · cases List.mem_cons.mp h with
      | inl heq => exact .inr (heq ▸ List.mem_cons_self)
      | inr hrest => exact (ih hrest).imp_right (List.mem_cons_of_mem _)

/-- A dict has the keys that were inserted, and nothing else. -/
theorem mem_ofList {items : List (String × α)} {entry : String × α} (h : entry ∈ ofList items) :
    entry ∈ items := by
  have inserted (d : Dict α) (h : entry ∈ merge d items) : entry ∈ d ∨ entry ∈ items := by
    clear * - h
    induction items generalizing d with
    | nil => exact .inl h
    | cons item rest ih =>
      cases ih (d.set item.1 item.2) h with
      | inl hset =>
        cases mem_set hset with
        | inl heq => exact .inr (heq ▸ List.mem_cons_self)
        | inr hd => exact .inl hd
      | inr hrest => exact .inr (List.mem_cons_of_mem _ hrest)
  exact (inserted [] h).resolve_left List.not_mem_nil

theorem key_ofList {items : List (String × α)} {key : String} (h : key ∈ items.map Prod.fst) :
    key ∈ (ofList items).map Prod.fst := by
  have inserted (d : Dict α) (h : key ∈ d.map Prod.fst ∨ key ∈ items.map Prod.fst) :
      key ∈ (merge d items).map Prod.fst := by
    clear * - h
    induction items generalizing d with
    | nil => exact h.resolve_right List.not_mem_nil
    | cons item rest ih =>
      apply ih
      rw [keys_set]
      cases h with
      | inl hd =>
        left
        split
        · exact hd
        · exact List.mem_append_left _ hd
      | inr hmem =>
        cases List.mem_cons.mp hmem with
        | inl heq =>
          left
          rw [heq]
          split
          · assumption
          · exact List.mem_append_right _ (List.mem_singleton.mpr rfl)
        | inr hrest => exact .inr hrest
  exact inserted [] (.inr h)

/-- Pairs whose keys differ make a dict of themselves. -/
theorem ofList_of_nodup {items : List (String × α)} (h : (items.map Prod.fst).Nodup) :
    ofList items = items := by
  have extend (front : Dict α) (h : ((front ++ items).map Prod.fst).Nodup) :
      merge front items = front ++ items := by
    clear * - h
    induction items generalizing front with
    | nil => rw [List.append_nil]; rfl
    | cons item rest ih =>
      have hnew : item.1 ∉ front.map Prod.fst := by
        rw [List.map_append, List.nodup_append] at h
        exact fun hmem => h.2.2 item.1 hmem item.1 (List.mem_cons_self ..) rfl
      show merge (front.set item.1 item.2) rest = _
      rw [set_new front item.2 hnew, ih _ (by simpa using h), List.append_assoc]
      rfl
  exact extend [] h

end Dict

/-- Port values: `dict[str, Any]`. -/
abbrev Refs := Dict Value

namespace Refs

/-- `left == right`. -/
def pyEq (left right : Refs) : Bool := (Value.dict left).pyEq (.dict right)

/-- `_is_json_value` on the dict itself. -/
def isJson (refs : Refs) : Bool := (Value.dict refs).isJsonValue

end Refs

end Operant.Python
