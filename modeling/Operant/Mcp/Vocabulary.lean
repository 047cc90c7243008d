import Operant.Mcp.Precise

/-! The numbers with which every accepted schema is decided. -/
namespace Operant.Mcp
open Operant.Python

variable {repr : ℚ → ℚ} {S V : Value → Prop} {s v a : Value} {x y : ℚ}

/-- A schema whose object has members that satisfy another schema. -/
def hold (s : Value) : Value := .dict [("additionalProperties", s)]

/-! ### Schemas of one keyword -/

theorem hold_accepted {items : Refs} (h : validateInputSchema repr false (.dict items) = .ok ()) :
    validateInputSchema repr true (hold (.dict items)) = .ok () := by
  rw [hold, validateInputSchema]
  simpa [checkSchema, checkType, onProperties, onSchema, checkRequired, onAdditionalProperties, onBranches, branches,
    Dict.has, checkEnum, checkSizes, checkBound, checkAnnotations, schemaAnnotations, schemaAssertions,
    List.lookup_cons, List.lookup_nil,
    each] using h

theorem hold_validates : validateArguments repr (hold s) [("x", v)] = validateValueAgainstSchema repr s v := by
  rw [hold, validateArguments, validateValueAgainstSchema]
  simp [checkValue, hasDeclaredType, checkConst, checkEnumerated, checkShape, hasRequired, branches, fitsSize, sizeBound,
    checkNumber, number, checkAnyOf, checkOneOf, checkNot, onSchema, Dict.has,
    List.lookup_cons, List.lookup_nil, each, checkMember,
    propertySchema, demand]

theorem hold_satisfied : Satisfies repr (hold s) (.dict [("x", v)]) ↔ Satisfies repr s v := by
  rw [hold, Satisfies]
  constructor
  · exact fun h => h.additional _ rfl ("x", v) (List.mem_cons_self ..) rfl s rfl
  · intro h
    constructor
    case additional =>
      rintro _ ⟨⟩ member hmember - t ht
      cases List.mem_singleton.mp hmember
      cases ht
      exact h
    all_goals simp [hasDeclaredType, branches, fitsSize, sizeBound, propertySchema, numberOf, Dict.has,
      List.lookup_cons, List.lookup_nil]

/-- The keywords that bound a number. -/
def boundKeywords : List String := ["minimum", "maximum", "exclusiveMinimum", "exclusiveMaximum", "multipleOf"]

theorem bound_accepted {keyword : String} (hkeyword : keyword ∈ boundKeywords) (h : isBound keyword a = true) :
    validateInputSchema repr false (.dict [(keyword, a)]) = .ok () := by
  rw [validateInputSchema]
  simp only [boundKeywords, List.mem_cons, List.not_mem_nil, or_false] at hkeyword
  obtain rfl | rfl | rfl | rfl | rfl := hkeyword <;>
  simp [checkSchema, checkType, onProperties, onSchema, checkRequired, onAdditionalProperties, onBranches, branches,
    Dict.has, checkEnum, checkSizes, checkBound, checkAnnotations, schemaAnnotations, schemaAssertions,
    List.lookup_cons, List.lookup_nil,
    each, h] <;>
  rfl

theorem bound_validates {keyword : String} (hkeyword : keyword ∈ boundKeywords) (hx : numberOf repr v = some x) :
    validateValueAgainstSchema repr (.dict [(keyword, a)]) v = checkNumber repr [(keyword, a)] v := by
  rw [validateValueAgainstSchema]
  have hshape : checkShape [(keyword, a)] (fun s _ v => validateValueAgainstSchema repr s v) repr v = .ok () := by
    cases v with
    | int | float => rfl
    | null | bool | str | list | dict | foreign => cases hx
  simp only [boundKeywords, List.mem_cons, List.not_mem_nil, or_false] at hkeyword
  rw [checkValue, hshape]
  obtain rfl | rfl | rfl | rfl | rfl := hkeyword <;>
  simp [hasDeclaredType, checkConst, checkEnumerated, branches, checkAnyOf, checkOneOf, checkNot, onSchema, Dict.has,
    List.lookup_cons, List.lookup_nil, each, demand] <;>
  rfl

theorem bound_satisfied {keyword : String} (hkeyword : keyword ∈ boundKeywords) (hx : numberOf repr v = some x) :
    Satisfies repr (.dict [(keyword, a)]) v ↔ FitsNumber repr [(keyword, a)] x := by
  rw [Satisfies]
  constructor
  · exact fun h => h.number x hx
  · intro h
    simp only [boundKeywords, List.mem_cons, List.not_mem_nil, or_false] at hkeyword
    have hnumber : ∀ z, numberOf repr v = some z → FitsNumber repr [(keyword, a)] z :=
      fun z hz => Option.some.inj (hx.symm.trans hz) ▸ h
    constructor
    case number => exact hnumber
    all_goals
      cases v with
      | null | bool | str | list | dict | foreign => cases hx
      | int | float =>
        obtain rfl | rfl | rfl | rfl | rfl := hkeyword <;>
        simp [hasDeclaredType, branches, Dict.has, List.lookup_cons, List.lookup_nil]

theorem const_accepted : validateInputSchema repr true (.dict [("const", a)]) = .ok () := by
  rw [validateInputSchema]
  simp [checkSchema, checkType, onProperties, onSchema, checkRequired, onAdditionalProperties, onBranches, branches,
    Dict.has, checkEnum, checkSizes, checkBound, checkAnnotations, schemaAnnotations, schemaAssertions,
    List.lookup_cons, List.lookup_nil, each]
  rfl

theorem each_pass {α E : Type} {xs : List α} {f : (x : α) → x ∈ xs → Except E Unit} (h : ∀ x hx, f x hx = .ok ()) :
    each xs f = .ok () := by
  induction xs with
  | nil => rfl
  | cons x rest ih =>
    rw [each, h]
    exact ih fun y hy => h y _

theorem const_validates {arguments : Refs} : validateArguments repr (.dict [("const", a)]) arguments =
    jsonValuesEqual repr (.dict arguments) a >>= demand := by
  rw [validateArguments, validateValueAgainstSchema]
  have hmembers : each arguments (fun member _ => checkMember [("const", a)]
      (fun s _ v => validateValueAgainstSchema repr s v) member) = .ok () :=
    each_pass fun _ _ => rfl
  simp [checkValue, hasDeclaredType, checkConst, checkEnumerated, checkShape, hasRequired, branches, fitsSize, sizeBound,
    checkNumber, number, checkAnyOf, checkOneOf, checkNot, onSchema, Dict.has,
    List.lookup_cons, List.lookup_nil, each, hmembers]
  cases jsonValuesEqual repr (.dict arguments) a with
  | error e => rfl
  | ok equal => cases equal <;> rfl

theorem const_satisfied {arguments : Refs} : Satisfies repr (.dict [("const", a)]) (.dict arguments) ↔
    jsonEq repr (.dict arguments) a = true := by
  rw [Satisfies]
  constructor
  · exact fun h => h.const a rfl
  · intro h
    constructor
    case const =>
      rintro _ ⟨⟩
      exact h
    all_goals simp [hasDeclaredType, branches, fitsSize, sizeBound, propertySchema, numberOf, Dict.has,
      List.lookup_cons, List.lookup_nil]

theorem unique_accepted : validateInputSchema repr false (.dict [("uniqueItems", .bool true)]) = .ok () := by
  rw [validateInputSchema]
  simp [checkSchema, checkType, onProperties, onSchema, checkRequired, onAdditionalProperties, onBranches, branches,
    Dict.has, checkEnum, checkSizes, checkBound, checkAnnotations, schemaAnnotations, schemaAssertions,
    List.lookup_cons, List.lookup_nil, each,
    isBool]
  rfl

theorem unique_validates {elements : List Value} :
    validateValueAgainstSchema repr (.dict [("uniqueItems", .bool true)]) (.list elements) =
      checkUnique repr [("uniqueItems", .bool true)] elements := by
  rw [validateValueAgainstSchema]
  simp [checkValue, hasDeclaredType, checkConst, checkEnumerated, checkShape, branches, fitsSize, sizeBound,
    checkNumber, number, checkAnyOf, checkOneOf, checkNot, onSchema, Dict.has,
    List.lookup_cons, List.lookup_nil, each, demand]

theorem unique_satisfied {elements : List Value} :
    Satisfies repr (.dict [("uniqueItems", .bool true)]) (.list elements) ↔
      elements.Pairwise fun a b => jsonEq repr a b = false := by
  rw [Satisfies]
  constructor
  · exact fun h => h.unique _ rfl rfl
  · intro h
    constructor
    case unique =>
      rintro _ ⟨⟩ -
      exact h
    all_goals simp [hasDeclaredType, branches, fitsSize, sizeBound, propertySchema, numberOf, Dict.has,
      List.lookup_cons, List.lookup_nil]

/-! ### What the decisions need -/

/-- Every accepted schema with these numbers is decided on all arguments with those. -/
def Validates (repr : ℚ → ℚ) (S V : Value → Prop) : Prop := ∀ schema arguments, Written S schema →
  Written V (.dict arguments) → validateInputSchema repr true schema = .ok () →
  Decides (validateArguments repr schema arguments) (Satisfies repr schema (.dict arguments))

theorem written_number {P : Value → Prop} (ha : P a) (hx : numberOf repr a = some x) : Written P a := by
  cases a with
  | int n => exact ⟨rfl, ha⟩
  | float z =>
    cases z with
    | finite q => exact ⟨rfl, ha⟩
    | posInf | negInf | nan => exact nomatch hx
  | null | bool | str | list | dict | foreign => exact nomatch hx

theorem written_member {P : Value → Prop} (key : String) (h : Written P v) : Written P (.dict [(key, v)]) := by
  refine ⟨?_, h.numbers, trivial⟩
  rw [jsonValid, jsonValidItems, h.valid]
  simp [jsonValidItems]

theorem demand_ok {b : Bool} : demand b = .ok () ↔ b = true := (decides_demand Iff.rfl).iff_ok

/-- Members are equal if their numbers agree in 28 digits. -/
theorem member_equal {P Q : Value → Prop} (hP : Short P) (hQ : Short Q) (hv : Written P v) (ha : Written Q a)
    (hx : numberOf repr v = some x) (hy : numberOf repr a = some y) (hnormal : normalize x = normalize y) :
    jsonValuesEqual repr (.dict [("x", v)]) (.dict [("x", a)]) = .ok true := by
  have hvalue := written_member "x" hv
  have hconst := written_member "x" ha
  have hkeys : key repr (.dict [("x", v)]) = key repr (.dict [("x", a)]) := by
    simp only [key, keyItems, key_number hx, key_number hy, hnormal]
  rw [jsonValuesEqual, equivalenceKey_eq hP _ hvalue.valid hvalue.numbers,
    equivalenceKey_eq hQ _ hconst.valid hconst.numbers, hkeys]
  show Except.ok (decide _) = _
  rw [decide_eq_true rfl]

namespace Validates
variable (h : Validates repr S V)
include h

/-- A schema is decided on a value that is a member of the arguments. -/
theorem held {items : Refs} (hs : Written S (.dict items)) (hv : Written V v)
    (haccepted : validateInputSchema repr false (.dict items) = .ok ()) :
    Decides (validateValueAgainstSchema repr (.dict items) v) (Satisfies repr (.dict items) v) := by
  have hheld := h (hold (.dict items)) [("x", v)] (written_member _ hs) (written_member _ hv) (hold_accepted haccepted)
  rw [hold_validates] at hheld
  exact hheld.congr hold_satisfied

theorem const_decides {arguments : Refs} (ha : Written S a) (harguments : Written V (.dict arguments)) :
    Decides (jsonValuesEqual repr (.dict arguments) a >>= demand) (jsonEq repr (.dict arguments) a = true) := by
  have hdecides := h (.dict [("const", a)]) arguments (written_member _ ha) harguments const_accepted
  rw [const_validates] at hdecides
  exact hdecides.congr const_satisfied

theorem bound_decides {keyword : String} (hkeyword : keyword ∈ boundKeywords) (hbound : isBound keyword a = true)
    (hv : V v) (ha : S a) (hx : numberOf repr v = some x) (hy : numberOf repr a = some y) :
    Decides (checkNumber repr [(keyword, a)] v) (FitsNumber repr [(keyword, a)] x) := by
  have hdecides := h.held (written_member keyword (written_number ha hy)) (written_number hv hx)
    (bound_accepted hkeyword hbound)
  rw [bound_validates hkeyword hx] at hdecides
  exact hdecides.congr (bound_satisfied hkeyword hx)

theorem schemaShort : Short S := by
  intro n hn
  by_contra hlong
  have hdecides := h.const_decides (show Written S (.int n) from ⟨rfl, hn⟩) (show Written V (.dict []) from ⟨rfl, trivial⟩)
  rw [jsonValuesEqual, equivalenceKey, equivalenceKey, decimal, if_neg hlong] at hdecides
  obtain ⟨-, hok⟩ | ⟨-, herror⟩ := hdecides
  · cases hok
  · cases herror

theorem valueShort : Short V := by
  intro n hn
  by_contra hlong
  have hvalue : Written V (.int n) := ⟨rfl, hn⟩
  have hdecides := h.const_decides (show Written S .null from ⟨rfl, trivial⟩) (written_member "x" hvalue)
  rw [jsonValuesEqual, equivalenceKey, equivalenceKey, equivalenceItems, equivalenceKey, decimal, if_neg hlong]
    at hdecides
  obtain ⟨-, hok⟩ | ⟨-, herror⟩ := hdecides
  · cases hok
  · cases herror

theorem equal : Apart repr V S := by
  intro v a x y hv ha hx hy hnormal
  have hvalue := written_number hv hx
  have hconst := written_number ha hy
  have hdecides := h.const_decides (written_member "x" hconst) (written_member "x" hvalue)
  have hequal := member_equal h.valueShort h.schemaShort hvalue hconst hx hy hnormal
  rw [hequal] at hdecides
  have hjson := hdecides.iff_ok.mp rfl
  have hnumber : jsonEq repr v a = true := by
    simpa [jsonEq, jsonEqItems, List.lookup_cons, List.lookup_nil] using hjson
  rw [jsonEq_number hx, hy] at hnumber
  exact (Option.some.inj hnumber).symm

theorem unique : Apart repr V V := by
  intro v w x y hv hw hx hy hnormal
  have hvalue : Written V (.list [v, w]) := by
    have hv := written_number hv hx
    have hw := written_number hw hy
    refine ⟨?_, hv.numbers, hw.numbers, trivial⟩
    rw [jsonValid, jsonValidList, jsonValidList, hv.valid, hw.valid]
    rfl
  have hunique : Written S (.bool true) := ⟨rfl, trivial⟩
  have hdecides := h.held (written_member "uniqueItems" hunique) hvalue unique_accepted
  rw [unique_validates] at hdecides
  have hkeys : equivalenceKeys repr [v, w] = .ok [key repr v, key repr v] := by
    rw [equivalenceKeys_eq h.valueShort _ hvalue.valid hvalue.numbers, keys, keys, keys, key_number hx, key_number hy,
      hnormal]
  have hrejected : checkUnique repr [("uniqueItems", .bool true)] [v, w] = .error argumentsInvalid := by
    rw [checkUnique, if_pos (show List.lookup "uniqueItems" [("uniqueItems", Value.bool true)] = some (.bool true) from rfl),
      hkeys]
    show demand (decide ([key repr v, key repr v].dedup.length = 2)) = _
    rw [List.dedup_cons_of_mem (List.mem_cons_self ..)]
    rfl
  rw [hrejected] at hdecides
  have hequal : jsonEq repr v w = true := by
    by_contra hne
    have hpairwise : [v, w].Pairwise fun a b => jsonEq repr a b = false := by simpa using hne
    cases hdecides.iff_ok.mpr (unique_satisfied.mpr hpairwise)
  rw [jsonEq_number hx, hy] at hequal
  exact (Option.some.inj hequal).symm

theorem below (hv : V v) (ha : S a) (hx : numberOf repr v = some x) (hy : numberOf repr a = some y) :
    pyLt v a = true ↔ x < y := by
  obtain ⟨p, hp⟩ := number_of_numberOf hx
  obtain ⟨q, hq⟩ := number_of_numberOf hy
  have hbound : isBound "minimum" a = true := by rw [isBound, hq]; rfl
  have hiff := (h.bound_decides (show "minimum" ∈ boundKeywords by simp [boundKeywords]) hbound hv ha hx hy).iff_ok
  have hcheck : checkNumber repr [("minimum", a)] v = demand !pyLt v a := by
    rw [checkNumber, hp]
    simp [List.lookup_cons, List.lookup_nil, demand]
  have hfits : FitsNumber repr [("minimum", a)] x ↔ y ≤ x := by
    constructor
    · exact fun hfits => hfits.minimum a y rfl hy
    · intro hle
      constructor
      case minimum =>
        rintro _ z ⟨⟩ hz
        exact Option.some.inj (hy.symm.trans hz) ▸ hle
      all_goals simp [List.lookup_cons, List.lookup_nil]
  rw [hcheck, hfits, demand_ok, Bool.not_eq_true'] at hiff
  rw [← not_iff_not, not_lt, ← hiff, Bool.not_eq_true]

theorem above (hv : V v) (ha : S a) (hx : numberOf repr v = some x) (hy : numberOf repr a = some y) :
    pyLt a v = true ↔ y < x := by
  obtain ⟨p, hp⟩ := number_of_numberOf hx
  obtain ⟨q, hq⟩ := number_of_numberOf hy
  have hbound : isBound "maximum" a = true := by rw [isBound, hq]; rfl
  have hiff := (h.bound_decides (show "maximum" ∈ boundKeywords by simp [boundKeywords]) hbound hv ha hx hy).iff_ok
  have hcheck : checkNumber repr [("maximum", a)] v = demand !pyLt a v := by
    rw [checkNumber, hp]
    simp [List.lookup_cons, List.lookup_nil, demand]
  have hfits : FitsNumber repr [("maximum", a)] x ↔ x ≤ y := by
    constructor
    · exact fun hfits => hfits.maximum a y rfl hy
    · intro hle
      constructor
      case maximum =>
        rintro _ z ⟨⟩ hz
        exact Option.some.inj (hy.symm.trans hz) ▸ hle
      all_goals simp [List.lookup_cons, List.lookup_nil]
  rw [hcheck, hfits, demand_ok, Bool.not_eq_true'] at hiff
  rw [← not_iff_not, not_lt, ← hiff, Bool.not_eq_true]

theorem multiple (hv : V v) (ha : S a) (hbound : isBound "multipleOf" a = true) (hx : numberOf repr v = some x)
    (hy : numberOf repr a = some y) {k : ℤ} (hk : x = k * y) : y ≠ 0 ∧ |x / y| < 10 ^ 28 := by
  obtain ⟨p, hp⟩ := number_of_numberOf hx
  have hiff := (h.bound_decides (show "multipleOf" ∈ boundKeywords by simp [boundKeywords]) hbound hv ha hx hy).iff_ok
  have hcheck : checkNumber repr [("multipleOf", a)] v = isMultiple repr v a >>= demand := by
    rw [checkNumber, hp]
    simp [List.lookup_cons, List.lookup_nil, demand]
    rfl
  have hfits : FitsNumber repr [("multipleOf", a)] x := by
    constructor
    case multipleOf =>
      rintro _ z ⟨⟩ hz
      exact ⟨k, Option.some.inj (hy.symm.trans hz) ▸ hk⟩
    all_goals simp [List.lookup_cons, List.lookup_nil]
  have hok := hiff.mpr hfits
  rw [hcheck, isMultiple, decimal_eq h.valueShort hv hx, decimal_eq h.schemaShort ha hy] at hok
  have hall : (decide (y ≠ 0) && decide (|x / y| < 10 ^ 28) && decide ((x / y).den = 1)) = true := demand_ok.mp hok
  rw [Bool.and_eq_true, Bool.and_eq_true, decide_eq_true_eq, decide_eq_true_eq] at hall
  exact hall.1

end Validates

/-- Every accepted schema is decided exactly if the numbers are handled as the decimals they are. -/
theorem validates_iff (repr : ℚ → ℚ) (S V : Value → Prop) : Validates repr S V ↔ Precise repr S V := by
  constructor
  · intro h
    exact ⟨h.schemaShort, h.valueShort, h.equal, h.unique, fun v a x y => h.below, fun v a x y => h.above,
      fun v a x y hv ha hbound hx hy k hk => h.multiple hv ha hbound hx hy hk⟩
  · intro h schema arguments hschema harguments haccepted
    exact validateValueAgainstSchema_decides h true schema hschema haccepted _ harguments

/-- 28 digits do not tell how much is added in the 29th. -/
theorem normalize_near {k : Nat} (hk : k < 5) : normalize ((10 ^ 28 + k : ℕ) : ℚ) = 10 ^ 28 := by
  have hlog : Int.log 10 |((10 ^ 28 + k : ℕ) : ℚ)| = 28 := by
    have hlow : 10 ^ 28 ≤ 10 ^ 28 + k := by omega
    have hhigh : 10 ^ 28 + k < 10 ^ (28 + 1) := by omega
    rw [Nat.abs_cast, Int.log_natCast, Nat.log_eq_of_pow_le_of_lt_pow hlow hhigh]
    rfl
  have hsmall : (k : ℚ) < 5 := by exact_mod_cast hk
  have hnonneg : (0 : ℚ) ≤ k := Nat.cast_nonneg k
  have hfloor : ⌊((10 ^ 28 + k : ℕ) : ℚ) / 10⌋ = 10 ^ 27 := by
    rw [Int.floor_eq_iff]
    push_cast
    constructor <;> linarith
  have hround : roundHalfEven (((10 ^ 28 + k : ℕ) : ℚ) / 10) = 10 ^ 27 := by
    rw [roundHalfEven, hfloor, if_pos]
    push_cast
    linarith
  have hunit : (10 : ℚ) ^ ((28 : ℤ) - 27) = 10 := by norm_num
  rw [normalize, hlog, hunit, hround]
  norm_num

/-- 10²⁸ + 1 passes as the constant 10²⁸. -/
theorem const_passes : ¬∃ repr : ℚ → ℚ, ∀ schema arguments, jsonValid schema = true →
    jsonValid (.dict arguments) = true → validateInputSchema repr true schema = .ok () →
    Decides (validateArguments repr schema arguments) (Satisfies repr schema (.dict arguments)) := by
  intro ⟨repr, h⟩
  have hshort (k : Nat) (hk : k < 5) : Short (· = .int ((10 ^ 28 + k : ℕ) : ℤ)) := by
    rintro n ⟨⟩
    have hlimit : 10 ^ 29 ≤ strLimit := by
      rw [strLimit, Nat.pow_le_pow_iff_right (by omega)]
      omega
    rw [Int.natAbs_natCast]
    omega
  have hdecides := h (.dict [("const", .dict [("x", .int ((10 ^ 28 + 0 : ℕ) : ℤ))])])
    [("x", .int ((10 ^ 28 + 1 : ℕ) : ℤ))] (by rfl) (by rfl) const_accepted
  have hwritten (k : Nat) : Written (· = .int ((10 ^ 28 + k : ℕ) : ℤ)) (.int ((10 ^ 28 + k : ℕ) : ℤ)) := ⟨rfl, rfl⟩
  have hnumber (k : Nat) : numberOf repr (.int ((10 ^ 28 + k : ℕ) : ℤ)) = some ((10 ^ 28 + k : ℕ) : ℚ) := by
    rw [numberOf, Int.cast_natCast]
  have hnormal : normalize ((10 ^ 28 + 1 : ℕ) : ℚ) = normalize ((10 ^ 28 + 0 : ℕ) : ℚ) := by
    rw [normalize_near (by omega), normalize_near (by omega)]
  have hequal := member_equal (hshort 1 (by omega)) (hshort 0 (by omega)) (hwritten 1) (hwritten 0) (hnumber 1)
    (hnumber 0) hnormal
  rw [const_validates, hequal] at hdecides
  have hjson := const_satisfied.mp (hdecides.iff_ok.mp rfl)
  simp [jsonEq, jsonEqItems, numberOf] at hjson

end Operant.Mcp
