import Operant.Python.Value

/-! What a literal of an expression can be.

Of Python's literals some are no JSON: a bytes literal, an imaginary number and
`...`. A subscript, a membership test or a comparison of one follows the rules below;
between JSON values it is `Value`'s. -/
namespace Operant.Python

inductive Operand where
  | json (v : Value)
  | bytes (content : List UInt8)
  | imaginary (x : PyFloat)
  | ellipsis
  deriving DecidableEq

/-- `operator.index`, as far as a list or a string takes it. -/
def Value.asIndex? : Value → Option Int
  | .int i => some i
  | .bool b => some (if b then 1 else 0)
  | .null | .float _ | .str _ | .list _ | .dict _ | .foreign => none

def Value.Order.onBytes : Value.Order → List UInt8 → List UInt8 → Bool
  | .lt, a, b => a < b
  | .ltE, a, b => !(b < a)
  | .gt, a, b => b < a
  | .gtE, a, b => !(a < b)

mutual
theorem Value.pyOrder_error {op : Value.Order} {error : PyError} :
    (a b : Value) → a.pyOrder op b = .error error → error = .typeError
  | .null, _, h | .dict _, _, h | .foreign, _, h => (Except.error.inj h).symm
  | .bool _, b, h | .int _, b, h | .float _, b, h => by
    cases b <;> simp [Value.pyOrder, Value.numeric?] at h <;> exact h.symm
  | .str _, b, h => by
    cases b <;> simp [Value.pyOrder] at h <;> exact h.symm
  | .list xs, b, h => by
    cases b with
    | list ys => exact pyOrderList_error xs ys h
    | null | bool | int | float | str | dict | foreign => exact (Except.error.inj h).symm

theorem Value.pyOrderList_error {op : Value.Order} {m n : Nat} {error : PyError} :
    (xs ys : List Value) → Value.pyOrderList op m n xs ys = .error error → error = .typeError
  | [], _, h => by simp [Value.pyOrderList] at h
  | _ :: _, [], h => by simp [Value.pyOrderList] at h
  | x :: xs, y :: ys, h => by
    rw [Value.pyOrderList] at h
    split at h
    · exact pyOrderList_error xs ys h
    · exact pyOrder_error x y h
end

namespace Operand

/-- `a == b`. An imaginary number equals a real one where both are zero. -/
def pyEq : Operand → Operand → Bool
  | .json a, .json b => a.pyEq b
  | .json a, .imaginary y => match a.numeric? with
    | some x => x.eq (.finite 0) && y.eq (.finite 0)
    | none => false
  | .imaginary x, .json b => match b.numeric? with
    | some y => x.eq (.finite 0) && y.eq (.finite 0)
    | none => false
  | .bytes a, .bytes b => a == b
  | .imaginary x, .imaginary y => x.eq y
  | .ellipsis, .ellipsis => true
  | _, _ => false

/-- `a < b` and its three siblings. -/
def pyOrder (op : Value.Order) : Operand → Operand → Except PyError Bool
  | .json a, .json b => a.pyOrder op b
  | .bytes a, .bytes b => .ok (op.onBytes a b)
  | _, _ => .error .typeError

/-- `left in right`. -/
def pyIn (left right : Operand) : Except PyError Bool :=
  match right with
  | .json r => match left with
    | .json l => l.pyIn r
    | .bytes _ | .imaginary _ | .ellipsis => match r with
      | .list xs => .ok (xs.any fun x => left.pyEq (.json x))
      | .dict _ => .ok false
      | .null | .bool _ | .int _ | .float _ | .str _ | .foreign => .error .typeError
  | .bytes content => match left with
    | .bytes part => .ok (content.tails.any part.isPrefixOf)
    | .json l => match l.asIndex? with
      | some i =>
        if 0 ≤ i ∧ i < 256 then .ok (content.contains (UInt8.ofNat i.toNat))
        else .error .valueError
      | none => .error .typeError
    | .imaginary _ | .ellipsis => .error .typeError
  | .imaginary _ | .ellipsis => .error .typeError

/-- `container[key]`. -/
def pyGetItem (container key : Operand) : Except PyError Operand :=
  match container with
  | .json c => match key with
    | .json k => (c.pyGetItem k).map .json
    | .bytes _ | .imaginary _ | .ellipsis => match c with
      | .dict _ => .error .keyError
      | .null | .bool _ | .int _ | .float _ | .str _ | .list _ | .foreign => .error .typeError
  | .bytes content => match key with
    | .json k => match k.asIndex? with
      | some i => match Value.index? content.length i with
        | some n => .ok (.json (.int (content.getD n 0).toNat))
        | none => .error .indexError
      | none => .error .typeError
    | .bytes _ | .imaginary _ | .ellipsis => .error .typeError
  | .imaginary _ | .ellipsis => .error .typeError

/-- `bool(value)`. -/
def truthy : Operand → Bool
  | .json v => v.truthy
  | .bytes content => !content.isEmpty
  | .imaginary x => !x.eq (.finite 0)
  | .ellipsis => true

/-- How many places the value has for an index to name. -/
def places? : Operand → Option Nat
  | .json (.list xs) => some xs.length
  | .json (.str s) => some s.toList.length
  | .bytes content => some content.length
  | .json .null | .json (.bool _) | .json (.int _) | .json (.float _) | .json (.dict _)
  | .json .foreign | .imaginary _ | .ellipsis => none

/-- The key is an index and names none of the container's places. -/
def outOfRange (container key : Operand) : Bool :=
  match container.places?, key with
  | some n, .json k => match k.asIndex? with
    | some i => (Value.index? n i).isNone
    | none => false
  | _, _ => false

theorem pyOrder_error {op : Value.Order} {a b : Operand} {error : PyError}
    (h : a.pyOrder op b = .error error) : error = .typeError := by
  rcases a with v | content | x | _ <;> rcases b with w | part | y | _
  case json.json => exact v.pyOrder_error w h
  all_goals first | exact (Except.error.inj h).symm | cases h

/-- Of the errors of a lookup only this one is no `KeyError` and no `TypeError`. -/
theorem pyGetItem_indexError (container key : Operand) :
    container.pyGetItem key = .error .indexError ↔ container.outOfRange key = true := by
  rcases container with c | content | x | _ <;> rcases key with k | part | y | _ <;>
    try simp [pyGetItem, outOfRange, places?]
  · cases c <;> cases k <;>
      simp [Value.pyGetItem, Value.hashable, Value.asIndex?, Except.map] <;> grind
  · cases c <;> simp
  · cases c <;> simp
  · cases c <;> simp
  · cases k <;> simp [Value.asIndex?] <;> grind

theorem pyGetItem_error {container key : Operand} {error : PyError}
    (h : container.pyGetItem key = .error error) :
    error = .keyError ∨ error = .typeError ∨ error = .indexError := by
  rcases container with c | content | x | _ <;> rcases key with k | part | y | _ <;>
    simp [pyGetItem] at h <;> try grind
  cases c <;> cases k <;> simp [Value.pyGetItem, Value.hashable, Except.map] at h <;> grind

theorem pyIn_error {left right : Operand} {error : PyError} (h : left.pyIn right = .error error) :
    error = .typeError ∨ error = .valueError := by
  rcases right with r | content | x | _
  · rcases left with l | part | x | _
    · cases l <;> cases r <;> simp [pyIn, Value.pyIn, Value.hashable] at h <;> grind
    · cases r <;> simp [pyIn] at h <;> grind
    · cases r <;> simp [pyIn] at h <;> grind
    · cases r <;> simp [pyIn] at h <;> grind
  · rcases left with l | part | x | _ <;> simp [pyIn] at h <;> grind
  · simp [pyIn] at h
    exact .inl h.symm
  · simp [pyIn] at h
    exact .inl h.symm

end Operand

end Operant.Python
