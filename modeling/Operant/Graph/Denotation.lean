import Operant.Graph.Condition

/-! What a condition means, and when its evaluation says so.

`Expr.denote` is the value of an expression, with none where a name, a key or an index
leads nowhere or an operator gets operands it does not take. A chain of comparisons
holds when all its links do, and no link after one that fails is looked at.

`condition_denotes`: the evaluation of an accepted condition is its meaning, whatever
the values, exactly when it meets no index past the end of a list, a string or a bytes
literal. Such an index is the one error that no handler catches. -/
namespace Operant.Graph
open Operant.Python

namespace Expr

mutual
def denote (values : Refs) : Expr → Option Operand
  | .constant v => some v
  | .name id => (values.lookup id).map .json
  | .subscript container slice =>
    (container.denote values).bind fun c =>
      (slice.denote values).bind fun k => (c.pyGetItem k).toOption
  | .not operand => (operand.denote values).map fun v => .json (.bool (!v.truthy))
  | .and operands =>
    (denoteAll values operands).map fun vs => .json (.bool (vs.all Operand.truthy))
  | .or operands =>
    (denoteAll values operands).map fun vs => .json (.bool (vs.any Operand.truthy))
  | .compare left rest =>
    (left.denote values).bind fun l =>
      (denoteLinks values l rest).map fun b => .json (.bool b)
  | .unsupported => none

/-- All operands have a value, or none counts. -/
def denoteAll (values : Refs) : List Expr → Option (List Operand)
  | [] => some []
  | e :: rest => (e.denote values).bind fun v => (denoteAll values rest).map (v :: ·)

def denoteLinks (values : Refs) (left : Operand) : List (CmpOp × Expr) → Option Bool
  | [] => some true
  | (op, e) :: rest =>
    (e.denote values).bind fun right =>
      (matched op left right).toOption.bind fun holds =>
        if holds then denoteLinks values right rest else some false
end

mutual
/-- The first thing that goes wrong, from the left, is an index past the end. -/
def overruns (values : Refs) : Expr → Bool
  | .constant _ | .name _ | .unsupported => false
  | .subscript container slice =>
    container.overruns values || (container.denote values).any fun c =>
      slice.overruns values || (slice.denote values).any c.outOfRange
  | .not operand => operand.overruns values
  | .and operands | .or operands => overrunsAny values operands
  | .compare left rest =>
    left.overruns values || (left.denote values).any fun l => overrunsLinks values l rest

def overrunsAny (values : Refs) : List Expr → Bool
  | [] => false
  | e :: rest => e.overruns values || (e.denote values).any fun _ => overrunsAny values rest

def overrunsLinks (values : Refs) (left : Operand) : List (CmpOp × Expr) → Bool
  | [] => false
  | (op, e) :: rest =>
    e.overruns values || (e.denote values).any fun right =>
      (matched op left right).toOption.any fun holds => holds && overrunsLinks values right rest
end

end Expr

/-- What the condition says of the values: nothing that has no value is true. -/
def Condition.holds (condition : Condition) (values : Refs) : Bool :=
  (condition.parsed.bind (·.denote values)).any Operand.truthy

def Condition.overruns (condition : Condition) (values : Refs) : Bool :=
  condition.parsed.any (·.overruns values)

/-! ### A computation and its meaning -/

/-- The computation returns the meaning. Without one it raises an `IndexError` if it
`overruns`, and else one of the three errors the handler knows. -/
structure Describes {α : Type} (computed : Except PyError α) (meaning : Option α)
    (overruns : Bool) : Prop where
  value : computed.toOption = meaning
  index : computed = .error .indexError ↔ overruns = true
  caught : ∀ error, computed = .error error →
    error = .keyError ∨ error = .typeError ∨ error = .valueError ∨ error = .indexError

namespace Describes
variable {α β : Type} {computed : Except PyError α} {meaning : Option α} {overruns : Bool}

theorem ok (a : α) : Describes (.ok a) (some a) false :=
  ⟨rfl, by simp, by simp⟩

theorem error {error : PyError} (h : error = .keyError ∨ error = .typeError ∨ error = .valueError) :
    Describes (.error error : Except PyError α) none false := by
  refine ⟨rfl, ?_, fun other heq => ?_⟩
  · rcases h with rfl | rfl | rfl <;> simp
  · rw [← Except.error.inj heq]
    rcases h with h | h | h <;> simp [h]

theorem bind {next : α → Except PyError β} {meant : α → Option β} {later : α → Bool}
    (h : Describes computed meaning overruns) (hnext : ∀ a, Describes (next a) (meant a) (later a)) :
    Describes (computed >>= next) (meaning.bind meant) (overruns || meaning.any later) := by
  cases computed with
  | error error =>
    have hnone : meaning = none := h.value.symm
    have hindex := h.index
    subst hnone
    refine ⟨rfl, ?_, fun other heq => h.caught other (congrArg _ (Except.error.inj heq))⟩
    show Except.error error = .error .indexError ↔ _
    simpa using hindex
  | ok a =>
    have hsome : meaning = some a := h.value.symm
    have hindex : overruns = false := by simpa using h.index
    subst hsome hindex
    exact hnext a

theorem map (h : Describes computed meaning overruns) (f : α → β) :
    Describes (computed >>= fun a => pure (f a)) (meaning.map f) overruns := by
  have hbind := h.bind fun a => ok (f a)
  rw [show (overruns || meaning.any fun _ => false) = overruns by cases meaning <;> simp] at hbind
  rwa [Option.map_eq_bind]

theorem getItem (container key : Operand) :
    Describes (container.pyGetItem key) (container.pyGetItem key).toOption
      (container.outOfRange key) :=
  ⟨rfl, Operand.pyGetItem_indexError container key, fun _ h =>
    (Operand.pyGetItem_error h).imp_right (.imp_right .inr)⟩

theorem matched (op : CmpOp) (left right : Operand) :
    Describes (Expr.matched op left right) (Expr.matched op left right).toOption false := by
  cases hm : Expr.matched op left right with
  | ok b => exact ok b
  | error other =>
    refine error ?_
    cases op with
    | eq | notEq => cases hm
    | order o => exact .inr (.inl (Operand.pyOrder_error hm))
    | isIn => exact .inr (Operand.pyIn_error hm)
    | notIn =>
      cases hin : left.pyIn right with
      | ok b =>
        rw [Expr.matched, hin] at hm
        cases hm
      | error inner =>
        rw [Expr.matched, hin] at hm
        exact .inr (Except.error.inj hm ▸ Operand.pyIn_error hin)

end Describes

namespace Expr

-- One case for each form of expression; a list of operands and a chain are read from the left.
mutual
theorem describes (values : Refs) :
    (e : Expr) → Describes (e.value values) (e.denote values) (e.overruns values)
  | .constant v => .ok v
  | .name id => by
    unfold value denote overruns
    cases values.lookup id with
    | some v => exact .ok (Operand.json v)
    | none => exact .error (.inl rfl)
  | .subscript container slice => by
    unfold value denote overruns
    exact (describes values container).bind fun c =>
      (describes values slice).bind fun k => .getItem c k
  | .not operand => by
    unfold value denote overruns
    exact (describes values operand).map _
  | .and operands => by
    unfold value denote overruns
    exact (describesAll values operands).map _
  | .or operands => by
    unfold value denote overruns
    exact (describesAll values operands).map _
  | .compare left rest => by
    unfold value denote overruns
    exact (describes values left).bind fun l => (describesLinks values l rest).map _
  | .unsupported => .error (.inr (.inr rfl))

theorem describesAll (values : Refs) : (es : List Expr) →
    Describes (operandValues values es) (denoteAll values es) (overrunsAny values es)
  | [] => .ok []
  | e :: rest => by
    unfold operandValues denoteAll overrunsAny
    exact (describes values e).bind fun v => (describesAll values rest).map _

theorem describesLinks (values : Refs) (left : Operand) : (rest : List (CmpOp × Expr)) →
    Describes (chain values left rest) (denoteLinks values left rest)
      (overrunsLinks values left rest)
  | [] => .ok true
  | (op, e) :: rest => by
    unfold chain denoteLinks overrunsLinks
    refine (describes values e).bind fun right => ?_
    refine (Describes.matched op left right).bind fun holds => ?_
    cases holds with
    | true => exact describesLinks values right rest
    | false => exact .ok false
end

end Expr

/-- Anything but an index past the end is caught. -/
theorem evaluateCondition_eq (condition : Condition) (values : Refs)
    (h : isSafeExpression condition = true) :
    evaluateCondition condition values =
      if condition.overruns values then .error .indexError else .ok (condition.holds values) := by
  obtain ⟨_ | e⟩ := condition
  · cases h
  have hsafe : e.isSafe = true := h
  have hd := e.describes values
  simp only [evaluateCondition, Condition.overruns, Condition.holds, hsafe, Option.any_some,
    Option.bind_some, ← hd.value]
  cases hv : e.value values with
  | ok v =>
    have hover : e.overruns values = false := by simpa [hv] using hd.index
    simp [hover, Except.toOption]
  | error error =>
    rw [hv] at hd
    rcases hd.caught error rfl with rfl | rfl | rfl | rfl <;>
      simpa [Except.toOption] using hd.index

theorem condition_denotes (condition : Condition) (values : Refs)
    (h : isSafeExpression condition = true) :
    evaluateCondition condition values = .ok (condition.holds values) ↔
      condition.overruns values = false := by
  rw [evaluateCondition_eq condition values h]
  cases condition.overruns values <;> simp

/-- `items[0] == 1`. -/
def firstIsOne : Condition :=
  ⟨some (.compare (.subscript (.name "items") (.constant (.json (.int 0))))
    [(.eq, .constant (.json (.int 1)))])⟩

theorem condition_denotes_first :
    isSafeExpression firstIsOne = true ∧
      (evaluateCondition firstIsOne [("items", .list [.int 1])] =
          .ok (firstIsOne.holds [("items", .list [.int 1])]) ↔
        firstIsOne.overruns [("items", .list [.int 1])] = false) :=
  ⟨rfl, condition_denotes firstIsOne [("items", .list [.int 1])] rfl⟩

theorem condition_raises :
    isSafeExpression firstIsOne = true ∧ Refs.isJson [("items", .list [])] = true ∧
      firstIsOne.holds [("items", .list [])] = false ∧
      evaluateCondition firstIsOne [("items", .list [])] = .error .indexError :=
  ⟨rfl, rfl, rfl, rfl⟩

end Operant.Graph
