import Operant.Mcp.Arguments

/-! What the accepted keywords of a schema mean.

Numbers are decimals of any length: an integer is itself, and a float is the decimal that it is
written as. -/
namespace Operant.Mcp
open Operant.Python

section
variable (repr : ℚ → ℚ)

/-- The decimal that a number is. -/
def numberOf : Value → Option ℚ
  | .int n => some n
  | .float (.finite q) => some (repr q)
  | _ => none

mutual
/-- Equal as JSON: numbers as decimals, objects whatever the order of their members. -/
def jsonEq : Value → Value → Bool
  | .null, b => match b with
    | .null => true
    | _ => false
  | .bool x, b => match b with
    | .bool y => x == y
    | _ => false
  | .int n, b => match numberOf repr b with
    | some y => (n : ℚ) == y
    | none => false
  | .float x, b => match numberOf repr (.float x), numberOf repr b with
    | some x, some y => x == y
    | _, _ => false
  | .str s, b => match b with
    | .str t => s == t
    | _ => false
  | .list xs, b => match b with
    | .list ys => jsonEqList xs ys
    | _ => false
  | .dict xs, b => match b with
    | .dict ys => xs.length == ys.length && jsonEqItems xs ys
    | _ => false
  | .foreign, _ => false

def jsonEqList : List Value → List Value → Bool
  | [], [] => true
  | x :: xs, y :: ys => jsonEq x y && jsonEqList xs ys
  | _, _ => false

def jsonEqItems : List (String × Value) → List (String × Value) → Bool
  | [], _ => true
  | (name, x) :: rest, ys =>
    (match ys.lookup name with
      | some y => jsonEq x y
      | none => false) && jsonEqItems rest ys
end

/-- A number obeys its bounds, and is a multiple of what it has to be one of. -/
structure FitsNumber (items : Refs) (x : ℚ) : Prop where
  minimum : ∀ bound y, items.lookup "minimum" = some bound → numberOf repr bound = some y → y ≤ x
  maximum : ∀ bound y, items.lookup "maximum" = some bound → numberOf repr bound = some y → x ≤ y
  exclusiveMinimum : ∀ bound y, items.lookup "exclusiveMinimum" = some bound → numberOf repr bound = some y → y < x
  exclusiveMaximum : ∀ bound y, items.lookup "exclusiveMaximum" = some bound → numberOf repr bound = some y → x < y
  multipleOf : ∀ bound y, items.lookup "multipleOf" = some bound → numberOf repr bound = some y → ∃ k : ℤ, x = k * y

end

/-- What a schema that is an object means, where `child` says what the schemas in it mean. -/
structure Means (repr : ℚ → ℚ) (items : Refs) (child : (s : Value) → sizeOf s < sizeOf items → Value → Prop)
    (value : Value) : Prop where
  type : hasDeclaredType items value = true
  const : ∀ const, items.lookup "const" = some const → jsonEq repr value const = true
  enum : Dict.has items "enum" = true → ∃ x ∈ branches items "enum", jsonEq repr value x = true
  required : ∀ members, value = .dict members → ∀ name, .str name ∈ branches items "required" →
    Dict.has members name = true
  properties : ∀ members, value = .dict members → fitsSize items "minProperties" "maxProperties" members.length = true
  property : ∀ members, value = .dict members → ∀ member ∈ members, ∀ s,
    (h : propertySchema items member.1 = some s) → child s (sizeOf_propertySchema h) member.2
  additional : ∀ members, value = .dict members → ∀ member ∈ members, propertySchema items member.1 = none → ∀ s,
    (h : items.lookup "additionalProperties" = some s) → child s (sizeOf_lookup h) member.2
  size : ∀ elements, value = .list elements → fitsSize items "minItems" "maxItems" elements.length = true
  unique : ∀ elements, value = .list elements → items.lookup "uniqueItems" = some (.bool true) →
    elements.Pairwise fun a b => jsonEq repr a b = false
  elements : ∀ elements, value = .list elements → ∀ s, (h : items.lookup "items" = some s) →
    ∀ element ∈ elements, child s (sizeOf_lookup h) element
  length : ∀ s, value = .str s → fitsSize items "minLength" "maxLength" s.toList.length = true
  number : ∀ x, numberOf repr value = some x → FitsNumber repr items x
  allOf : ∀ s, (h : s ∈ branches items "allOf") → child s (sizeOf_branches h) value
  anyOf : Dict.has items "anyOf" = true → ∃ s, ∃ h : s ∈ branches items "anyOf", child s (sizeOf_branches h) value
  oneOf : Dict.has items "oneOf" = true → ∃ i : Fin (branches items "oneOf").length,
    ∀ j : Fin (branches items "oneOf").length,
      child ((branches items "oneOf").get j) (sizeOf_branches (List.get_mem _ j)) value ↔ j = i
  not : ∀ s, (h : items.lookup "not" = some s) → ¬child s (sizeOf_lookup h) value

/-- The value satisfies the schema. -/
def Satisfies (repr : ℚ → ℚ) : Value → Value → Prop
  | .bool holds, _ => holds = true
  | .dict items, value => Means repr items (fun s _ v => Satisfies repr s v) value
  | _, _ => False
termination_by schema => sizeOf schema
decreasing_by
  rename_i h
  rw [Value.dict.sizeOf_spec]
  omega

end Operant.Mcp
