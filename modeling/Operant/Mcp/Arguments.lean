import Operant.Mcp.Sse
import Operant.Python.Dicts
import Mathlib.Data.Int.Log
import Mathlib.Data.List.Sort

/-! The arguments of a tool: the part of JSON Schema that `_validate_input_schema` accepts, and
`_validate_arguments`.

Numbers are compared as Python numbers, but they are equal, and multiples of each other, as
`Decimal`s in the default context, which has 28 digits. What an unaccepted schema leads to is not
told apart. -/
namespace Operant.Mcp
open Operant.Python

/-- Exceptions, as far as they are told apart. -/
inductive Failure where
  | mcp (e : McpError)
  /-- `ValueError`. -/
  | value (message : String)
  | other (typeName : String)
  deriving DecidableEq

def schemaInvalid (message : String) : Failure := .mcp ⟨"mcp.schema_invalid", message⟩

def schemaUnsupported (message : String) : Failure := .mcp ⟨"mcp.schema_unsupported", message⟩

/-- `_invalid_arguments`. -/
def argumentsInvalid : Failure :=
  .mcp ⟨"mcp.arguments_invalid", "MCP tool arguments do not match the input schema"⟩

/-! ### Loops -/

section
variable {α E : Type}

/-- A loop whose body knows that its item is one. -/
def each : (xs : List α) → ((x : α) → x ∈ xs → Except E Unit) → Except E Unit
  | [], _ => return ()
  | x :: rest, f => do
    f x (List.mem_cons_self ..)
    each rest fun y hy => f y (List.mem_cons_of_mem x hy)

/-- `any(..)`. -/
def anyOf : (xs : List α) → ((x : α) → x ∈ xs → Except E Bool) → Except E Bool
  | [], _ => return false
  | x :: rest, f => do
    if ← f x (List.mem_cons_self ..) then return true
    else anyOf rest fun y hy => f y (List.mem_cons_of_mem x hy)

/-- `sum(..)`. -/
def count : (xs : List α) → ((x : α) → x ∈ xs → Except E Bool) → Except E Nat
  | [], _ => return 0
  | x :: rest, f => do
    let holds ← f x (List.mem_cons_self ..)
    let n ← count rest fun y hy => f y (List.mem_cons_of_mem x hy)
    return holds.toNat + n

end

/-! ### Numbers -/

/-- `int` and `float`, but no `bool`. -/
def number : Value → Option PyFloat
  | .int n => some (.finite n)
  | .float x => some x
  | _ => none

def pyLt (a b : Value) : Bool := match number a, number b with
  | some x, some y => x.lt y
  | _, _ => false

def pyLe (a b : Value) : Bool := match number a, number b with
  | some x, some y => x.le y
  | _, _ => false

/-- The integers that `str(..)` writes. -/
def strLimit : Nat := 10 ^ 4300

/-- `round(x)` of a decimal, halves to even. -/
def roundHalfEven (x : ℚ) : ℤ :=
  let low := ⌊x⌋
  if x - low < 1 / 2 then low
  else if 1 / 2 < x - low then low + 1
  else if low % 2 = 0 then low else low + 1

/-- `Decimal.normalize()`: 28 digits are left. -/
def normalize (x : ℚ) : ℚ :=
  let unit : ℚ := 10 ^ (Int.log 10 |x| - 27)
  roundHalfEven (x / unit) * unit

section
variable (repr : ℚ → ℚ)

/-- `Decimal(str(value))` of a number, where `repr` is what `str(..)` writes of a float; no value is
no finite number. -/
def decimal : Value → Except Failure (Option ℚ)
  | .int n => if n.natAbs < strLimit then return some n
    else throw (.value "Exceeds the limit (4300 digits) for integer string conversion")
  | .float (.finite q) => return some (repr q)
  | .float _ => return none
  | _ => throw (.other "TypeError")

/-- `Decimal(str(value)) % Decimal(str(bound)) == 0`, where `InvalidOperation` is no. The quotient
has to fit the context. -/
def isMultiple (value bound : Value) : Except Failure Bool := do
  let x ← decimal repr value
  let y ← decimal repr bound
  match x, y with
  | some x, some y => return y ≠ 0 && |x / y| < 10 ^ 28 && (x / y).den = 1
  | _, _ => return false

mutual
/-- `_json_equivalence_key`. -/
def equivalenceKey : Value → Except Failure Value
  | .null => return .null
  | .bool b => return .bool b
  | .int n => do
    let x ← decimal repr (.int n)
    return .float (x.elim .nan fun x => .finite (normalize x))
  | .float x => match x with
    | .finite q => return .float (.finite (normalize (repr q)))
    | other => return .float other
  | .str s => return .str s
  | .list xs => do
    let keys ← equivalenceKeys xs
    return .list keys
  | .dict items => do
    let keys ← equivalenceItems items
    return .dict (keys.insertionSort fun a b => a.1 ≤ b.1)
  | .foreign => throw (schemaInvalid "MCP input schema contains a non-JSON value")

def equivalenceKeys : List Value → Except Failure (List Value)
  | [] => return []
  | x :: rest => do
    let key ← equivalenceKey x
    let keys ← equivalenceKeys rest
    return key :: keys

def equivalenceItems : List (String × Value) → Except Failure (List (String × Value))
  | [] => return []
  | (name, x) :: rest => do
    let key ← equivalenceKey x
    let keys ← equivalenceItems rest
    return (name, key) :: keys
end

/-- `_json_values_equal`. -/
def jsonValuesEqual (left right : Value) : Except Failure Bool := do
  let a ← equivalenceKey repr left
  let b ← equivalenceKey repr right
  return a = b

end

/-! ### Schemas -/

def schemaTypes : List String := ["array", "boolean", "integer", "null", "number", "object", "string"]

def schemaAnnotations : List String :=
  ["$id", "$schema", "default", "deprecated", "description", "examples", "readOnly", "title", "writeOnly"]

def schemaAssertions : List String :=
  ["additionalProperties", "allOf", "anyOf", "const", "enum", "exclusiveMaximum", "exclusiveMinimum", "items",
    "maxItems", "maxLength", "maxProperties", "maximum", "minItems", "minLength", "minProperties", "minimum",
    "multipleOf", "not", "oneOf", "properties", "required", "type", "uniqueItems"]

/-- Strings, if all of them are. -/
def texts : List Value → Option (List String)
  | [] => some []
  | .str s :: rest => (texts rest).map (s :: ·)
  | _ :: _ => none

/-- The list under a keyword. -/
def branches (items : Refs) (keyword : String) : List Value := match items.lookup keyword with
  | some (.list xs) => xs
  | _ => []

/-- The schema of a property. -/
def propertySchema (items : Refs) (name : String) : Option Value := match items.lookup "properties" with
  | some (.dict properties) => properties.lookup name
  | _ => none

theorem sizeOf_lookup {items : Refs} {key : String} {v : Value} (h : items.lookup key = some v) :
    sizeOf v < sizeOf items := by
  induction items with
  | nil => exact nomatch h
  | cons item rest ih =>
    obtain ⟨k, x⟩ := item
    rw [List.lookup_cons] at h
    simp only [List.cons.sizeOf_spec, Prod.mk.sizeOf_spec]
    split at h
    · cases h
      omega
    · have := ih h
      omega

theorem sizeOf_branches {items : Refs} {keyword : String} {v : Value} (h : v ∈ branches items keyword) :
    sizeOf v < sizeOf items := by
  unfold branches at h
  split at h
  · rename_i xs hxs
    have hlist := sizeOf_lookup hxs
    have hmem := List.sizeOf_lt_of_mem h
    simp only [Value.list.sizeOf_spec] at hlist
    omega
  · exact absurd h List.not_mem_nil

theorem sizeOf_propertySchema {items : Refs} {name : String} {v : Value} (h : propertySchema items name = some v) :
    sizeOf v < sizeOf items := by
  unfold propertySchema at h
  split at h
  · rename_i properties hproperties
    have hdict := sizeOf_lookup hproperties
    have hmem := sizeOf_lookup h
    simp only [Value.dict.sizeOf_spec] at hdict
    omega
  · exact nomatch h

theorem sizeOf_item {items : Refs} {item : String × Value} (h : item ∈ items) : sizeOf item.2 < sizeOf items := by
  have hmem := List.sizeOf_lt_of_mem h
  obtain ⟨k, v⟩ := item
  rw [Prod.mk.sizeOf_spec] at hmem
  show sizeOf v < sizeOf items
  omega

/-! ### Acceptance -/

def declaredTypes : Value → Except Failure (List String)
  | .str s => return [s]
  | .list xs => match texts xs with
    | some (name :: names) =>
      if (name :: names).Nodup then return name :: names
      else throw (schemaInvalid "MCP input schema type is invalid")
    | _ => throw (schemaInvalid "MCP input schema type is invalid")
  | _ => throw (schemaInvalid "MCP input schema type is invalid")

def checkType (items : Refs) (root : Bool) : Except Failure Unit := match items.lookup "type" with
  | none => return ()
  | some declared => do
    let types ← declaredTypes declared
    if types.any (· ∉ schemaTypes) then throw (schemaUnsupported "MCP input schema type is unsupported")
    else if root && "object" ∉ types then
      throw (schemaUnsupported "MCP input schema root must accept an object")
    else return ()

def checkRequired (items : Refs) : Except Failure Unit := match items.lookup "required" with
  | none => return ()
  | some (.list xs) => match texts xs with
    | some names => if names.Nodup then return ()
      else throw (schemaInvalid "MCP input schema required list is invalid")
    | none => throw (schemaInvalid "MCP input schema required list is invalid")
  | some _ => throw (schemaInvalid "MCP input schema required list is invalid")

def checkEnum (repr : ℚ → ℚ) (items : Refs) : Except Failure Unit := match items.lookup "enum" with
  | none => return ()
  | some (.list []) => throw (schemaInvalid "MCP input schema enum is invalid")
  | some (.list xs) => do
    let keys ← equivalenceKeys repr xs
    if keys.dedup.length ≠ xs.length then throw (schemaInvalid "MCP input schema enum is invalid")
    else return ()
  | some _ => throw (schemaInvalid "MCP input schema enum is invalid")

def isSize : Value → Bool
  | .int n => 0 ≤ n
  | _ => false

def checkSizes (items : Refs) (minimum maximum : String) : Except Failure Unit := do
  let lower := items.lookup minimum
  let upper := items.lookup maximum
  if lower.any (!isSize ·) || upper.any (!isSize ·) then
    throw (schemaInvalid "MCP input schema size bound is invalid")
  else match lower, upper with
    | some (.int l), some (.int u) =>
      if u < l then throw (schemaInvalid "MCP input schema size bounds conflict") else return ()
    | _, _ => return ()

/-- A number that is finite, and for `multipleOf` positive. -/
def isBound (keyword : String) (bound : Value) : Bool := match number bound with
  | some (.finite q) => keyword ≠ "multipleOf" || 0 < q
  | _ => false

def checkBound (items : Refs) (keyword : String) : Except Failure Unit :=
  if (items.lookup keyword).any (!isBound keyword ·) then
    throw (schemaInvalid "MCP input schema numeric bound is invalid")
  else return ()

def isBool : Value → Bool
  | .bool _ => true
  | _ => false

def isStr : Value → Bool
  | .str _ => true
  | _ => false

def isList : Value → Bool
  | .list _ => true
  | _ => false

def checkAnnotations (items : Refs) : Except Failure Unit :=
  if ["uniqueItems", "deprecated", "readOnly", "writeOnly"].any fun keyword => (items.lookup keyword).any (!isBool ·) then
    throw (schemaInvalid "MCP input schema boolean option is invalid")
  else if ["$id", "$schema", "description", "title"].any fun keyword => (items.lookup keyword).any (!isStr ·) then
    throw (schemaInvalid "MCP input schema annotation is invalid")
  else if (items.lookup "examples").any (!isList ·) then
    throw (schemaInvalid "MCP input schema examples are invalid")
  else return ()

section
variable (items : Refs) (child : (v : Value) → sizeOf v < sizeOf items → Except Failure Unit)

/-- The schema under a keyword. -/
def onSchema (keyword : String) : Except Failure Unit := match h : items.lookup keyword with
  | none => return ()
  | some v => child v (sizeOf_lookup h)

def onProperties : Except Failure Unit := match h : items.lookup "properties" with
  | none => return ()
  | some (.dict properties) => each properties fun item hitem =>
      child item.2 (by
        have hdict := sizeOf_lookup h
        have hmem := sizeOf_item hitem
        rw [Value.dict.sizeOf_spec] at hdict
        omega)
  | some _ => throw (schemaInvalid "MCP input schema properties are invalid")

def onAdditionalProperties : Except Failure Unit :=
  if (items.lookup "additionalProperties").any fun v => !isBool v && !(v matches .dict _) then
    throw (schemaInvalid "MCP input schema additionalProperties is invalid")
  else onSchema items child "additionalProperties"

def onBranches (keyword : String) : Except Failure Unit :=
  if Dict.has items keyword && branches items keyword = [] then
    throw (schemaInvalid "MCP input schema branches are invalid")
  else each (branches items keyword) fun v hv => child v (sizeOf_branches hv)

/-- The checks of a schema that is an object. -/
def checkSchema (repr : ℚ → ℚ) (root : Bool) : Except Failure Unit := do
  if items.any fun item => item.1 ∉ schemaAnnotations ++ schemaAssertions then
    throw (schemaUnsupported "MCP input schema contains an unsupported keyword")
  checkType items root
  onProperties items child
  checkRequired items
  onAdditionalProperties items child
  onSchema items child "items"
  onBranches items child "allOf"
  onBranches items child "anyOf"
  onBranches items child "oneOf"
  onSchema items child "not"
  checkEnum repr items
  checkSizes items "minLength" "maxLength"
  checkSizes items "minItems" "maxItems"
  checkSizes items "minProperties" "maxProperties"
  checkBound items "minimum"
  checkBound items "maximum"
  checkBound items "exclusiveMinimum"
  checkBound items "exclusiveMaximum"
  checkBound items "multipleOf"
  checkAnnotations items

end

/-- `_validate_input_schema`. -/
def validateInputSchema (repr : ℚ → ℚ) (root : Bool) : Value → Except Failure Unit
  | .bool _ =>
    if root then throw (schemaUnsupported "MCP input schema root must be an object") else return ()
  | .dict items => checkSchema items (fun v _ => validateInputSchema repr false v) repr root
  | _ => throw (schemaInvalid "MCP input schema entry is invalid")
termination_by schema => sizeOf schema
decreasing_by
  rename_i h
  rw [Value.dict.sizeOf_spec]
  omega

/-! ### Validation -/

/-- `_matches_json_type`. -/
def matchesJsonType (value : Value) (expected : String) : Bool :=
  if expected = "null" then value matches .null
  else if expected = "boolean" then isBool value
  else if expected = "integer" then value matches .int _
  else if expected = "number" then (number value).isSome
  else if expected = "string" then isStr value
  else if expected = "array" then isList value
  else if expected = "object" then value matches .dict _
  else false

/-- A check of the arguments. -/
def demand (holds : Bool) : Except Failure Unit := if holds then return () else throw argumentsInvalid

def hasDeclaredType (items : Refs) (value : Value) : Bool := match items.lookup "type" with
  | some (.str expected) => matchesJsonType value expected
  | some (.list xs) => xs.any fun
    | .str expected => matchesJsonType value expected
    | _ => false
  | _ => true

/-- A bound on a size, if there is one. -/
def sizeBound (items : Refs) (keyword : String) : Option Int := match items.lookup keyword with
  | some (.int n) => some n
  | _ => none

/-- The size is between the bounds. -/
def fitsSize (items : Refs) (minimum maximum : String) (size : Nat) : Bool :=
  (sizeBound items minimum).all (fun n => n ≤ (size : Int)) && (sizeBound items maximum).all fun n => (size : Int) ≤ n

/-- Every name that is required is there. -/
def hasRequired (items members : Refs) : Bool := (branches items "required").all fun
  | .str name => Dict.has members name
  | _ => true

section
variable (repr : ℚ → ℚ)

def checkConst (items : Refs) (value : Value) : Except Failure Unit := match items.lookup "const" with
  | none => return ()
  | some const => do demand (← jsonValuesEqual repr value const)

def checkEnumerated (items : Refs) (value : Value) : Except Failure Unit :=
  if Dict.has items "enum" then do
    demand (← anyOf (branches items "enum") fun x _ => jsonValuesEqual repr value x)
  else return ()

def checkUnique (items : Refs) (elements : List Value) : Except Failure Unit :=
  if items.lookup "uniqueItems" = some (.bool true) then do
    let keys ← equivalenceKeys repr elements
    demand (keys.dedup.length = elements.length)
  else return ()

/-- The bounds of a number. -/
def checkNumber (items : Refs) (value : Value) : Except Failure Unit :=
  if (number value).isSome then do
    demand ((items.lookup "minimum").all fun bound => !pyLt value bound)
    demand ((items.lookup "maximum").all fun bound => !pyLt bound value)
    demand ((items.lookup "exclusiveMinimum").all fun bound => !pyLe value bound)
    demand ((items.lookup "exclusiveMaximum").all fun bound => !pyLe bound value)
    match items.lookup "multipleOf" with
    | none => return ()
    | some bound => do demand (← isMultiple repr value bound)
  else return ()

end

/-- `_schema_matches`, of what the validation gives. -/
def schemaMatches : Except Failure Unit → Except Failure Bool
  | .ok () => return true
  | .error (.mcp e) => if e.code = "mcp.arguments_invalid" then return false else throw (.mcp e)
  | .error e => throw e

section
variable (items : Refs) (child : (s : Value) → sizeOf s < sizeOf items → Value → Except Failure Unit)

/-- A member is validated as its property, else as an additional one. -/
def checkMember (member : String × Value) : Except Failure Unit := match h : propertySchema items member.1 with
  | some s => child s (sizeOf_propertySchema h) member.2
  | none => onSchema items (fun s hs => child s hs member.2) "additionalProperties"

/-- What is checked of an object, of an array and of a string. -/
def checkShape (repr : ℚ → ℚ) : Value → Except Failure Unit
  | .dict members => do
    demand (hasRequired items members)
    demand (fitsSize items "minProperties" "maxProperties" members.length)
    each members fun member _ => checkMember items child member
  | .list elements => do
    demand (fitsSize items "minItems" "maxItems" elements.length)
    checkUnique repr items elements
    onSchema items (fun s hs => each elements fun element _ => child s hs element) "items"
  | .str s => demand (fitsSize items "minLength" "maxLength" s.toList.length)
  | _ => return ()

def checkAnyOf (value : Value) : Except Failure Unit :=
  if Dict.has items "anyOf" then do
    demand (← anyOf (branches items "anyOf") fun s hs => schemaMatches (child s (sizeOf_branches hs) value))
  else return ()

def checkOneOf (value : Value) : Except Failure Unit :=
  if Dict.has items "oneOf" then do
    demand ((← count (branches items "oneOf") fun s hs => schemaMatches (child s (sizeOf_branches hs) value)) = 1)
  else return ()

def checkNot (value : Value) : Except Failure Unit :=
  onSchema items (fun s hs => do demand (!(← schemaMatches (child s hs value)))) "not"

/-- The checks of a value against a schema that is an object. -/
def checkValue (repr : ℚ → ℚ) (value : Value) : Except Failure Unit := do
  demand (hasDeclaredType items value)
  checkConst repr items value
  checkEnumerated repr items value
  checkShape items child repr value
  checkNumber repr items value
  each (branches items "allOf") fun s hs => child s (sizeOf_branches hs) value
  checkAnyOf items child value
  checkOneOf items child value
  checkNot items child value

end

/-- `_validate_value_against_schema`. -/
def validateValueAgainstSchema (repr : ℚ → ℚ) : Value → Value → Except Failure Unit
  | .bool holds, _ => demand holds
  | .dict items, value => checkValue items (fun s _ v => validateValueAgainstSchema repr s v) repr value
  | _, _ => throw (.other "AssertionError")
termination_by schema => sizeOf schema
decreasing_by
  rename_i h
  rw [Value.dict.sizeOf_spec]
  omega

/-- `_validate_arguments`. -/
def validateArguments (repr : ℚ → ℚ) (schema : Value) (arguments : Refs) : Except Failure Unit :=
  validateValueAgainstSchema repr schema (.dict arguments)

end Operant.Mcp
