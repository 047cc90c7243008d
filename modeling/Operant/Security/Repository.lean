import Operant.Security.Kept

/-! `security_action_requests`: actions as they are stored, without what is redacted. -/
namespace Operant.Security
open Operant.Python

/-- `model_dump(mode="json")`: `asNull` says what becomes of floats that are not finite. -/
structure Dump where
  asNull : Bool

namespace Dump
variable (d : Dump)

mutual
def value : Value → Value
  | .float (.finite q) => .float (.finite q)
  | .float x => if d.asNull then .null else .float x
  | .list xs => .list (values xs)
  | .dict entries => .dict (items entries)
  | .null => .null
  | .bool x => .bool x
  | .int n => .int n
  | .str s => .str s
  | .foreign => .foreign

def values : List Value → List Value
  | [] => []
  | x :: rest => value x :: values rest

def items : List (String × Value) → List (String × Value)
  | [] => []
  | (key, x) :: rest => (key, value x) :: items rest
end

end Dump

/-- The interpreter, and the library that dumps actions. -/
structure Platform extends Interpreter, Dump

namespace Platform
variable (platform : Platform)

/-- The bounds of what is stored. -/
def bounds : Interpreter.Bounds := { maxChars := 12000 }

/-- The arguments as they are stored, if they are still a dict. -/
def safeArguments (arguments : Refs) : Option Refs :=
  match platform.redactPublicData bounds (.dict (platform.items arguments)) with
  | .dict safe => some safe
  | _ => none

/-- An action as it is stored; one whose arguments are no dict does not validate. -/
def safeBody (action : ActionRequest) : Option ActionRequest :=
  (platform.safeArguments action.normalizedArguments).map fun safe =>
    { action with normalizedArguments := safe }

end Platform

/-- A row, and the action it was made from, which is for us only. -/
structure ActionRow where
  original : ActionRequest
  body : Option ActionRequest

structure Repository where
  actions : List ActionRow := []

/-- `ActionRequest.model_validate`. -/
def validated (body : Option ActionRequest) : Except Raised ActionRequest :=
  match body with
  | some action => .ok action
  | none => .error (.value "ValidationError")

namespace Repository
variable (platform : Platform) (repository : Repository)

/-- The row of a principal's idempotency key. -/
def found (principal idempotencyKey : String) : Option ActionRow :=
  repository.actions.find? fun row =>
    row.original.principal = principal && row.original.idempotencyKey = idempotencyKey

/-- `record_security_action`. What it stores stays, also where the body does not validate. -/
def recordSecurityAction (action : ActionRequest) : Except Raised ActionRequest × Repository :=
  match repository.found action.principal action.idempotencyKey with
  | some row => match row.body with
    | none => (validated none, repository)
    | some existing =>
      if existing.actionHash ≠ action.actionHash then
        (.error (.idempotencyConflict "security action idempotency key is bound to a different action"),
          repository)
      else (.ok existing, repository)
  | none =>
    (validated (platform.safeBody action),
      { repository with actions := repository.actions ++ [⟨action, platform.safeBody action⟩] })

/-- The action that the row of this one is made from. -/
def original (action : ActionRequest) : ActionRequest :=
  ((repository.found action.principal action.idempotencyKey).map ActionRow.original).getD action

end Repository

/-- What some proposals leave, one after the other. -/
def Platform.recorded (platform : Platform) (host : Host) (proposals : List Proposal) : Repository :=
  proposals.foldl (fun repository p => match p.normalize host with
    | .ok action => (repository.recordSecurityAction platform action).2
    | .error _ => repository) {}

end Operant.Security
