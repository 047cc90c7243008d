import Operant.Graph.Domain

/-! The condition language of edges and loop exits. -/
namespace Operant.Graph
open Operant.Python

namespace Expr

mutual
/-- Every node of the tree is one of `_SAFE_EXPRESSION_NODES`. -/
def isSafe : Expr → Bool
  | .constant _ | .name _ => true
  | .subscript value slice => value.isSafe && slice.isSafe
  | .not operand => operand.isSafe
  | .and values => areSafe values
  | .or values => areSafe values
  | .compare left rest => left.isSafe && areSafeComparisons rest
  | .unsupported => false

def areSafe : List Expr → Bool
  | [] => true
  | e :: rest => e.isSafe && areSafe rest

def areSafeComparisons : List (CmpOp × Expr) → Bool
  | [] => true
  | (_, e) :: rest => e.isSafe && areSafeComparisons rest
end

/-- One link of a comparison chain. -/
def matched (op : CmpOp) (left right : Operand) : Except PyError Bool :=
  match op with
  | .eq => .ok (left.pyEq right)
  | .notEq => .ok (!left.pyEq right)
  | .order o => left.pyOrder o right
  | .isIn => left.pyIn right
  | .notIn => (left.pyIn right).map (!·)

mutual
/-- `_expression_value`. The operands of `and` and `or` are all evaluated. -/
def value (values : Refs) : Expr → Except PyError Operand
  | .constant v => .ok v
  | .name id => match values.lookup id with
    | some v => .ok (.json v)
    | none => .error .keyError
  | .subscript container slice => do
    let container ← container.value values
    let key ← slice.value values
    container.pyGetItem key
  | .not operand => do
    let v ← operand.value values
    return .json (.bool (!v.truthy))
  | .and operands => do
    let vs ← operandValues values operands
    return .json (.bool (vs.all Operand.truthy))
  | .or operands => do
    let vs ← operandValues values operands
    return .json (.bool (vs.any Operand.truthy))
  | .compare left rest => do
    let l ← left.value values
    return .json (.bool (← chain values l rest))
  | .unsupported => .error .valueError

def operandValues (values : Refs) : List Expr → Except PyError (List Operand)
  | [] => .ok []
  | e :: rest => do
    let v ← e.value values
    let vs ← operandValues values rest
    return v :: vs

/-- The links of a comparison chain from the left, up to the first that fails. -/
def chain (values : Refs) (left : Operand) : List (CmpOp × Expr) → Except PyError Bool
  | [] => .ok true
  | (op, e) :: rest => do
    let right ← e.value values
    if ← matched op left right then chain values right rest else return false
end

end Expr

/-- `_is_safe_expression`. -/
def isSafeExpression (condition : Condition) : Bool :=
  match condition.parsed with
  | some e => e.isSafe
  | none => false

/-- `_evaluate_condition`. It catches `KeyError`, `TypeError` and `ValueError`; an
`IndexError` of a list lookup goes through. -/
def evaluateCondition (condition : Condition) (values : Refs) : Except PyError Bool :=
  match condition.parsed with
  | none => .ok false
  | some e =>
    if !e.isSafe then .ok false
    else match e.value values with
      | .ok v => .ok v.truthy
      | .error .keyError | .error .typeError | .error .valueError => .ok false
      | .error other => .error other

end Operant.Graph
