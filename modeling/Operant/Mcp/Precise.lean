import Operant.Mcp.Validates

/-! `_validate_arguments` decides what an accepted schema means, as long as the numbers are handled as
the decimals they are; where they are not, it decides wrongly or fails. -/
namespace Operant.Mcp
open Operant.Python

/-- Numbers of values meet numbers of schemas, and each other, as the decimals they are: integers can
be written, different numbers that are compared differ in 28 digits, Python's order is that of the
decimals, and the quotient of a multiple has at most 28 digits. -/
structure Precise (repr : ℚ → ℚ) (S V : Value → Prop) : Prop where
  schemaShort : Short S
  valueShort : Short V
  equal : Apart repr V S
  unique : Apart repr V V
  below : ∀ v a x y, V v → S a → numberOf repr v = some x → numberOf repr a = some y → (pyLt v a = true ↔ x < y)
  above : ∀ v a x y, V v → S a → numberOf repr v = some x → numberOf repr a = some y → (pyLt a v = true ↔ y < x)
  multiple : ∀ v a x y, V v → S a → isBound "multipleOf" a = true → numberOf repr v = some x →
    numberOf repr a = some y → ∀ k : ℤ, x = k * y → y ≠ 0 ∧ |x / y| < 10 ^ 28

/-- JSON whose numbers are of this kind. -/
structure Written (P : Value → Prop) (v : Value) : Prop where
  valid : jsonValid v = true
  numbers : Numbers P v

variable {repr : ℚ → ℚ} {S V : Value → Prop} {items : Refs} {value : Value}

theorem Written.lookup {P : Value → Prop} (h : Written P (.dict items)) {key : String} {v : Value}
    (hv : items.lookup key = some v) : Written P v := by
  have hvalid := h.valid
  rw [jsonValid, Bool.and_eq_true] at hvalid
  exact ⟨jsonValid_item hvalid.2 (item_of_lookup hv), numbers_item h.numbers (item_of_lookup hv)⟩

theorem Written.item {P : Value → Prop} (h : Written P (.dict items)) {item : String × Value} (hitem : item ∈ items) :
    Written P item.2 := by
  have hvalid := h.valid
  rw [jsonValid, Bool.and_eq_true] at hvalid
  exact ⟨jsonValid_item hvalid.2 hitem, numbers_item h.numbers hitem⟩

theorem Written.mem {P : Value → Prop} {xs : List Value} (h : Written P (.list xs)) {x : Value} (hx : x ∈ xs) :
    Written P x := ⟨jsonValid_mem h.valid hx, numbers_mem h.numbers hx⟩

theorem Written.branch {P : Value → Prop} (h : Written P (.dict items)) {keyword : String} {x : Value}
    (hx : x ∈ branches items keyword) : Written P x := by
  unfold branches at hx
  split at hx
  · rename_i xs hxs
    exact (h.lookup hxs).mem hx
  · exact absurd hx List.not_mem_nil

theorem Written.property {P : Value → Prop} (h : Written P (.dict items)) {name : String} {s : Value}
    (hs : propertySchema items name = some s) : Written P s := by
  unfold propertySchema at hs
  split at hs
  · rename_i properties hproperties
    exact (h.lookup hproperties).lookup hs
  · exact nomatch hs

/-! ### Equality -/

theorem jsonValuesEqual_answers (h : Precise repr S V) {a : Value} (hvalue : Written V value) (ha : Written S a) :
    Answers (jsonValuesEqual repr value a) (jsonEq repr value a = true) := by
  refine ⟨_, ?_, decide_eq_true_iff.trans
    (key_eq_iff h.equal value a hvalue.valid ha.valid hvalue.numbers ha.numbers)⟩
  rw [jsonValuesEqual, equivalenceKey_eq h.valueShort value hvalue.valid hvalue.numbers,
    equivalenceKey_eq h.schemaShort a ha.valid ha.numbers]
  rfl

theorem checkConst_decides (h : Precise repr S V) (hitems : Written S (.dict items)) (hvalue : Written V value) :
    Decides (checkConst repr items value) (∀ const, items.lookup "const" = some const → jsonEq repr value const = true) := by
  rw [checkConst]
  cases hconst : items.lookup "const" with
  | none => exact decides_pass fun _ h => nomatch h
  | some const =>
    apply (jsonValuesEqual_answers h hvalue (hitems.lookup hconst)).decides.congr
    simp

theorem checkEnumerated_decides (h : Precise repr S V) (hitems : Written S (.dict items)) (hvalue : Written V value) :
    Decides (checkEnumerated repr items value)
      (Dict.has items "enum" = true → ∃ x ∈ branches items "enum", jsonEq repr value x = true) := by
  rw [checkEnumerated]
  by_cases henum : Dict.has items "enum" = true
  · rw [if_pos henum]
    apply (answers_anyOf fun x hx => jsonValuesEqual_answers h hvalue (hitems.branch hx)).decides.congr
    simp [henum]
  · rw [if_neg henum]
    exact decides_pass fun hhas => absurd hhas henum

theorem checkUnique_decides (h : Precise repr S V) {elements : List Value} (hvalue : Written V (.list elements)) :
    Decides (checkUnique repr items elements) (items.lookup "uniqueItems" = some (.bool true) →
      elements.Pairwise fun a b => jsonEq repr a b = false) := by
  rw [checkUnique]
  by_cases hunique : items.lookup "uniqueItems" = some (.bool true)
  · rw [if_pos hunique, equivalenceKeys_eq h.valueShort elements hvalue.valid hvalue.numbers]
    apply decides_demand
    rw [decide_eq_true_eq, unique_iff h.unique hvalue.valid hvalue.numbers]
    exact ⟨fun hpairwise _ => hpairwise, fun hpairwise => hpairwise hunique⟩
  · rw [if_neg hunique]
    exact decides_pass fun heq => absurd heq hunique

/-! ### Numbers -/

theorem number_of_numberOf {a : Value} {x : ℚ} (h : numberOf repr a = some x) : ∃ q, number a = some (.finite q) := by
  unfold numberOf at h
  split at h
  · exact ⟨_, rfl⟩
  · exact ⟨_, rfl⟩
  · exact nomatch h

variable (repr) in
theorem numberOf_of_number {a : Value} (hvalid : jsonValid a = true) (h : (number a).isSome = true) :
    ∃ x, numberOf repr a = some x := by
  cases a with
  | int n => exact ⟨n, rfl⟩
  | float z =>
    cases z with
    | finite q => exact ⟨repr q, rfl⟩
    | posInf | negInf | nan => cases hvalid
  | null | bool | str | list | dict => cases h
  | foreign => cases hvalid

theorem number_none {a : Value} (hvalid : jsonValid a = true) (h : numberOf repr a = none) : number a = none := by
  cases hnumber : number a with
  | none => rfl
  | some z =>
    obtain ⟨x, hx⟩ := numberOf_of_number repr hvalid (hnumber ▸ rfl)
    rw [h] at hx
    exact nomatch hx

theorem pyLe_eq {a b : Value} {x y : ℚ} (ha : numberOf repr a = some x) (hb : numberOf repr b = some y) :
    pyLe a b = !pyLt b a := by
  obtain ⟨p, hp⟩ := number_of_numberOf ha
  obtain ⟨q, hq⟩ := number_of_numberOf hb
  rw [pyLe, pyLt, hp, hq]
  show (decide (p < q) || decide (p = q)) = !decide (q < p)
  rw [Bool.eq_iff_iff, Bool.or_eq_true, Bool.not_eq_true', decide_eq_false_iff_not, decide_eq_true_eq, decide_eq_true_eq,
    not_lt, le_iff_lt_or_eq]

/-- A bound is obeyed if the test of it says so of every decimal. -/
theorem all_bound_iff (hitems : Written S (.dict items)) {keyword : String} {test : Value → Bool} {P : ℚ → Prop}
    (hnone : ∀ a, number a = none → test a = true)
    (htest : ∀ a y, S a → numberOf repr a = some y → (test a = true ↔ P y)) :
    (items.lookup keyword).all test = true ↔
      ∀ bound y, items.lookup keyword = some bound → numberOf repr bound = some y → P y := by
  cases hbound : items.lookup keyword with
  | none => simp
  | some a =>
    have hwritten := hitems.lookup hbound
    rw [Option.all_some]
    cases hy : numberOf repr a with
    | none =>
      rw [hnone a (number_none hwritten.valid hy)]
      refine ⟨fun _ bound y heq hbound => ?_, fun _ => rfl⟩
      cases heq
      exact nomatch hy.symm.trans hbound
    | some y =>
      rw [htest a y (numbers_number hy hwritten.numbers) hy]
      refine ⟨fun hP bound z heq hz => ?_, fun hall => hall a y rfl hy⟩
      cases heq
      cases hy.symm.trans hz
      exact hP

theorem decimal_eq {a : Value} {x : ℚ} {P : Value → Prop} (hshort : Short P) (ha : P a)
    (hx : numberOf repr a = some x) : decimal repr a = .ok (some x) := by
  unfold numberOf at hx
  split at hx
  · cases hx
    rw [decimal, if_pos (hshort _ ha)]
    rfl
  · cases hx
    rfl
  · exact nomatch hx

theorem isMultiple_eq (h : Precise repr S V) {a : Value} {x y : ℚ} (hvalue : V value) (ha : S a)
    (hx : numberOf repr value = some x) (hy : numberOf repr a = some y) :
    isMultiple repr value a = .ok (y ≠ 0 && |x / y| < 10 ^ 28 && (x / y).den = 1) := by
  rw [isMultiple, decimal_eq h.valueShort hvalue hx, decimal_eq h.schemaShort ha hy]
  rfl

theorem isMultiple_answers (h : Precise repr S V) {a : Value} {x y : ℚ} (hvalue : V value) (ha : S a)
    (hbound : isBound "multipleOf" a = true) (hx : numberOf repr value = some x) (hy : numberOf repr a = some y) :
    Answers (isMultiple repr value a) (∃ k : ℤ, x = k * y) := by
  refine ⟨_, isMultiple_eq h hvalue ha hx hy, ?_⟩
  rw [Bool.and_eq_true, Bool.and_eq_true, decide_eq_true_eq, decide_eq_true_eq, decide_eq_true_eq]
  constructor
  · rintro ⟨⟨hne, -⟩, hden⟩
    exact ⟨(x / y).num, by rw [Rat.coe_int_num_of_den_eq_one hden, div_mul_cancel₀ x hne]⟩
  · intro ⟨k, hk⟩
    have hfits := h.multiple value a x y hvalue ha hbound hx hy k hk
    refine ⟨hfits, ?_⟩
    rw [hk, mul_div_cancel_right₀ _ hfits.1]
    exact Rat.den_intCast k

theorem checkNumber_decides (h : Precise repr S V) (hitems : Written S (.dict items))
    (hmultiple : ∀ bound, items.lookup "multipleOf" = some bound → isBound "multipleOf" bound = true)
    (hvalue : Written V value) :
    Decides (checkNumber repr items value) (∀ x, numberOf repr value = some x → FitsNumber repr items x) := by
  rw [checkNumber]
  cases hx : numberOf repr value with
  | none =>
    rw [number_none hvalue.valid hx]
    exact decides_pass fun _ h => by cases h
  | some x =>
    have hv : V value := numbers_number hx hvalue.numbers
    obtain ⟨q, hq⟩ := number_of_numberOf hx
    have hltLeft (a : Value) (hnone : number a = none) : pyLt value a = false := by rw [pyLt, hq, hnone]
    have hltRight (a : Value) (hnone : number a = none) : pyLt a value = false := by rw [pyLt, hnone]
    have hleLeft (a : Value) (hnone : number a = none) : pyLe value a = false := by rw [pyLe, hq, hnone]
    have hleRight (a : Value) (hnone : number a = none) : pyLe a value = false := by rw [pyLe, hnone]
    have hmin : Decides (demand ((items.lookup "minimum").all fun a => !pyLt value a))
        (∀ bound y, items.lookup "minimum" = some bound → numberOf repr bound = some y → y ≤ x) := by
      apply decides_demand
      apply all_bound_iff hitems (fun a hnone => by rw [hltLeft a hnone]; rfl)
      intro a y ha hy
      rw [Bool.not_eq_true', ← Bool.not_eq_true, h.below value a x y hv ha hx hy, not_lt]
    have hmax : Decides (demand ((items.lookup "maximum").all fun a => !pyLt a value))
        (∀ bound y, items.lookup "maximum" = some bound → numberOf repr bound = some y → x ≤ y) := by
      apply decides_demand
      apply all_bound_iff hitems (fun a hnone => by rw [hltRight a hnone]; rfl)
      intro a y ha hy
      rw [Bool.not_eq_true', ← Bool.not_eq_true, h.above value a x y hv ha hx hy, not_lt]
    have hexclusiveMin : Decides (demand ((items.lookup "exclusiveMinimum").all fun a => !pyLe value a))
        (∀ bound y, items.lookup "exclusiveMinimum" = some bound → numberOf repr bound = some y → y < x) := by
      apply decides_demand
      apply all_bound_iff hitems (fun a hnone => by rw [hleLeft a hnone]; rfl)
      intro a y ha hy
      rw [pyLe_eq hx hy, Bool.not_not, h.above value a x y hv ha hx hy]
    have hexclusiveMax : Decides (demand ((items.lookup "exclusiveMaximum").all fun a => !pyLe a value))
        (∀ bound y, items.lookup "exclusiveMaximum" = some bound → numberOf repr bound = some y → x < y) := by
      apply decides_demand
      apply all_bound_iff hitems (fun a hnone => by rw [hleRight a hnone]; rfl)
      intro a y ha hy
      rw [pyLe_eq hy hx, Bool.not_not, h.below value a x y hv ha hx hy]
    have hmultipleOf : ∀ check, (items.lookup "multipleOf" = none → check = .ok ()) →
        (∀ bound, items.lookup "multipleOf" = some bound → check = do demand (← isMultiple repr value bound)) →
        Decides check
          (∀ bound y, items.lookup "multipleOf" = some bound → numberOf repr bound = some y → ∃ k : ℤ, x = k * y) := by
      intro check hnone hsome
      cases hbound : items.lookup "multipleOf" with
      | none =>
        rw [hnone hbound]
        exact decides_pass fun _ _ h => by cases h
      | some a =>
        rw [hsome a hbound]
        have ha := hitems.lookup hbound
        have hnumber : (number a).isSome = true := by
          have hisBound := hmultiple a hbound
          rw [isBound] at hisBound
          cases hz : number a with
          | none =>
            rw [hz] at hisBound
            cases hisBound
          | some z => rfl
        obtain ⟨y, hy⟩ := numberOf_of_number repr ha.valid hnumber
        apply (isMultiple_answers h hv (numbers_number hy ha.numbers) (hmultiple a hbound) hx hy).decides.congr
        refine ⟨fun hk bound z heq hz => ?_, fun hall => hall a y rfl hy⟩
        cases heq
        cases hy.symm.trans hz
        exact hk
    rw [hq]
    refine (hmin.seq (hmax.seq (hexclusiveMin.seq (hexclusiveMax.seq
      (hmultipleOf _ (fun hnone => ?_) fun bound hbound => ?_))))).congr ?_
    · rw [hnone]
      rfl
    · rw [hbound]
    constructor
    · rintro ⟨hmin, hmax, hexclusiveMin, hexclusiveMax, hmultipleOf⟩ z hz
      cases hz
      exact ⟨hmin, hmax, hexclusiveMin, hexclusiveMax, hmultipleOf⟩
    · intro hall
      have hfits := hall x rfl
      exact ⟨hfits.minimum, hfits.maximum, hfits.exclusiveMinimum, hfits.exclusiveMaximum, hfits.multipleOf⟩

/-! ### Schemas -/

section
variable {means : (s : Value) → sizeOf s < sizeOf items → Value → Prop}
  {child : (s : Value) → sizeOf s < sizeOf items → Value → Except Failure Unit}
  {accept : (s : Value) → sizeOf s < sizeOf items → Except Failure Unit}

/-- What of `Means` depends on whether the value is an object, an array or a string. -/
structure Shaped (repr : ℚ → ℚ) (items : Refs) (means : (s : Value) → sizeOf s < sizeOf items → Value → Prop)
    (value : Value) : Prop where
  required : ∀ members, value = .dict members → ∀ name, .str name ∈ branches items "required" →
    Dict.has members name = true
  properties : ∀ members, value = .dict members → fitsSize items "minProperties" "maxProperties" members.length = true
  property : ∀ members, value = .dict members → ∀ member ∈ members, ∀ s,
    (h : propertySchema items member.1 = some s) → means s (sizeOf_propertySchema h) member.2
  additional : ∀ members, value = .dict members → ∀ member ∈ members, propertySchema items member.1 = none → ∀ s,
    (h : items.lookup "additionalProperties" = some s) → means s (sizeOf_lookup h) member.2
  size : ∀ elements, value = .list elements → fitsSize items "minItems" "maxItems" elements.length = true
  unique : ∀ elements, value = .list elements → items.lookup "uniqueItems" = some (.bool true) →
    elements.Pairwise fun a b => jsonEq repr a b = false
  elements : ∀ elements, value = .list elements → ∀ s, (h : items.lookup "items" = some s) →
    ∀ element ∈ elements, means s (sizeOf_lookup h) element
  length : ∀ s, value = .str s → fitsSize items "minLength" "maxLength" s.toList.length = true

theorem onSchema_decides {keyword : String} {f : (s : Value) → sizeOf s < sizeOf items → Except Failure Unit}
    {P : (s : Value) → sizeOf s < sizeOf items → Prop}
    (h : ∀ s, (hs : items.lookup keyword = some s) → Decides (f s (sizeOf_lookup hs)) (P s (sizeOf_lookup hs))) :
    Decides (onSchema items f keyword) (∀ s, (hs : items.lookup keyword = some s) → P s (sizeOf_lookup hs)) := by
  rw [onSchema]
  split
  · rename_i hnone
    exact decides_pass fun s hs => by cases hnone.symm.trans hs
  · rename_i v hv
    apply (h v hv).congr
    refine ⟨fun hP s hs => ?_, fun hall => hall v hv⟩
    cases hv.symm.trans hs
    exact hP

theorem hasRequired_iff {members : Refs} : hasRequired items members = true ↔
    ∀ name, .str name ∈ branches items "required" → Dict.has members name = true := by
  rw [hasRequired, List.all_eq_true]
  constructor
  · exact fun h name hname => h (.str name) hname
  · intro h x hx
    cases x with
    | str name => exact h name hx
    | _ => rfl

section
variable (hprecise : Precise repr S V) (hitems : Written S (.dict items)) (hpassed : Passed items accept)
  (hchild : ∀ s hs, Written S s → accept s hs = .ok () → ∀ v, Written V v → Decides (child s hs v) (means s hs v))

include hitems hpassed hchild

theorem child_decides {keyword : String} (hkeyword : keyword ∈ ["additionalProperties", "items", "not"]) {s v : Value}
    (hs : items.lookup keyword = some s) (hv : Written V v) :
    Decides (child s (sizeOf_lookup hs) v) (means s (sizeOf_lookup hs) v) :=
  hchild s _ (hitems.lookup hs) (hpassed.schema keyword hkeyword s hs) v hv

theorem branch_decides {keyword : String} (hkeyword : keyword ∈ ["allOf", "anyOf", "oneOf"]) {s v : Value}
    (hs : s ∈ branches items keyword) (hv : Written V v) :
    Decides (child s (sizeOf_branches hs) v) (means s (sizeOf_branches hs) v) :=
  hchild s _ (hitems.branch hs) (hpassed.branch keyword hkeyword s hs) v hv

theorem checkMember_decides {member : String × Value} (hmember : Written V member.2) :
    Decides (checkMember items child member)
      ((∀ s, (h : propertySchema items member.1 = some s) → means s (sizeOf_propertySchema h) member.2) ∧
        (propertySchema items member.1 = none → ∀ s, (h : items.lookup "additionalProperties" = some s) →
          means s (sizeOf_lookup h) member.2)) := by
  rw [checkMember]
  split
  · rename_i s hs
    apply (hchild s _ (hitems.property hs) (hpassed.property _ s hs) _ hmember).congr
    refine ⟨fun hmeans => ⟨fun t ht => ?_, fun hnone => nomatch hnone.symm.trans hs⟩, fun hall => hall.1 s hs⟩
    cases hs.symm.trans ht
    exact hmeans
  · rename_i hnone
    apply (onSchema_decides (P := fun s h => means s h member.2) fun s hs =>
      child_decides hitems hpassed hchild (by simp) hs hmember).congr
    exact ⟨fun hall => ⟨fun s hs => absurd (hnone.symm.trans hs) (by simp), fun _ => hall⟩, fun hall => hall.2 hnone⟩

include hprecise

theorem checkShape_decides (hvalue : Written V value) :
    Decides (checkShape items child repr value) (Shaped repr items means value) := by
  cases value with
  | dict members =>
    have hmembers := decides_each fun member hmember =>
      checkMember_decides hitems hpassed hchild (hvalue.item hmember)
    apply ((decides_demand hasRequired_iff).seq ((decides_demand Iff.rfl).seq hmembers)).congr
    constructor
    · intro ⟨hrequired, hsize, hall⟩
      constructor
      case required => exact fun _ heq => Value.dict.inj heq ▸ hrequired
      case properties => exact fun _ heq => Value.dict.inj heq ▸ hsize
      case property =>
        rintro _ ⟨⟩ member hmember
        exact (hall member hmember).1
      case additional =>
        rintro _ ⟨⟩ member hmember
        exact (hall member hmember).2
      all_goals exact fun _ heq => nomatch heq
    · intro h
      exact ⟨h.required members rfl, h.properties members rfl, fun member hmember =>
        ⟨h.property members rfl member hmember, h.additional members rfl member hmember⟩⟩
  | list elements =>
    have hall := onSchema_decides (f := fun s h => each elements fun element _ => child s h element)
      (P := fun s h => ∀ element ∈ elements, means s h element) fun s hs => decides_each fun element helement =>
        child_decides hitems hpassed hchild (show "items" ∈ _ by simp) hs (hvalue.mem (x := element) helement)
    apply ((decides_demand Iff.rfl).seq ((checkUnique_decides hprecise hvalue).seq hall)).congr
    constructor
    · intro ⟨hsize, hunique, hall⟩
      constructor
      case size => exact fun _ heq => Value.list.inj heq ▸ hsize
      case unique => exact fun _ heq => Value.list.inj heq ▸ hunique
      case elements =>
        rintro _ ⟨⟩
        exact hall
      all_goals exact fun _ heq => nomatch heq
    · intro h
      exact ⟨h.size elements rfl, h.unique elements rfl, h.elements elements rfl⟩
  | str s =>
    apply (decides_demand Iff.rfl).congr
    constructor
    · intro hlength
      constructor
      case length => exact fun _ heq => Value.str.inj heq ▸ hlength
      all_goals exact fun _ heq => nomatch heq
    · exact fun h => h.length s rfl
  | null | bool | int | float | foreign =>
    apply decides_pass
    constructor <;> exact fun _ heq => nomatch heq

theorem checkValue_decides (hvalue : Written V value) :
    Decides (checkValue items child repr value) (Means repr items means value) := by
  have htype : Decides (demand (hasDeclaredType items value)) (hasDeclaredType items value = true) :=
    decides_demand Iff.rfl
  have hallOf := decides_each fun s hs => branch_decides hitems hpassed hchild (show "allOf" ∈ _ by simp) hs hvalue
  have hanyOf : Decides (checkAnyOf items child value) (Dict.has items "anyOf" = true →
      ∃ s, ∃ h : s ∈ branches items "anyOf", means s (sizeOf_branches h) value) := by
    rw [checkAnyOf]
    by_cases hhas : Dict.has items "anyOf" = true
    · rw [if_pos hhas]
      apply (answers_anyOf fun s hs =>
        (branch_decides hitems hpassed hchild (by simp) hs hvalue).answers).decides.congr
      simp [hhas]
    · rw [if_neg hhas]
      exact decides_pass fun h => absurd h hhas
  have honeOf : Decides (checkOneOf items child value) (Dict.has items "oneOf" = true →
      ∃ i : Fin (branches items "oneOf").length, ∀ j : Fin (branches items "oneOf").length,
        means ((branches items "oneOf").get j) (sizeOf_branches (List.get_mem _ j)) value ↔ j = i) := by
    rw [checkOneOf]
    by_cases hhas : Dict.has items "oneOf" = true
    · rw [if_pos hhas]
      obtain ⟨n, hcount, -, hone⟩ := count_eq fun s hs =>
        (branch_decides hitems hpassed hchild (show "oneOf" ∈ _ by simp) hs hvalue).answers
      rw [hcount]
      apply decides_demand
      rw [decide_eq_true_eq, hone]
      exact ⟨fun h _ => h, fun h => h hhas⟩
    · rw [if_neg hhas]
      exact decides_pass fun h => absurd h hhas
  have hnot : Decides (checkNot items child value)
      (∀ s, (h : items.lookup "not" = some s) → ¬means s (sizeOf_lookup h) value) :=
    onSchema_decides (f := fun s h => do demand (!(← schemaMatches (child s h value))))
      (P := fun s h => ¬means s h value) fun s hs => (child_decides hitems hpassed hchild (by simp) hs hvalue).answers.not
  apply (htype.seq ((checkConst_decides hprecise hitems hvalue).seq ((checkEnumerated_decides hprecise hitems hvalue).seq
    ((checkShape_decides hprecise hitems hpassed hchild hvalue).seq
    ((checkNumber_decides hprecise hitems hpassed.multipleOf hvalue).seq
    (hallOf.seq (hanyOf.seq (honeOf.seq hnot)))))))).congr
  constructor
  · intro ⟨htype, hconst, henum, hshaped, hnumber, hallOf, hanyOf, honeOf, hnot⟩
    exact ⟨htype, hconst, henum, hshaped.required, hshaped.properties, hshaped.property, hshaped.additional,
      hshaped.size, hshaped.unique, hshaped.elements, hshaped.length, hnumber, hallOf, hanyOf, honeOf, hnot⟩
  · intro h
    exact ⟨h.type, h.const, h.enum, ⟨h.required, h.properties, h.property, h.additional, h.size, h.unique, h.elements,
      h.length⟩, h.number, h.allOf, h.anyOf, h.oneOf, h.not⟩

end

end

/-- A schema that is accepted is decided. -/
theorem validateValueAgainstSchema_decides (hprecise : Precise repr S V) (root : Bool) (schema : Value)
    (hschema : Written S schema) (haccepted : validateInputSchema repr root schema = .ok ()) (value : Value)
    (hvalue : Written V value) :
    Decides (validateValueAgainstSchema repr schema value) (Satisfies repr schema value) := by
  induction hsize : sizeOf schema using Nat.strong_induction_on generalizing schema root value with
  | _ n ih =>
    subst hsize
    cases schema with
    | bool holds =>
      rw [validateValueAgainstSchema, Satisfies]
      exact decides_demand Iff.rfl
    | dict items =>
      rw [validateInputSchema] at haccepted
      rw [validateValueAgainstSchema, Satisfies]
      apply checkValue_decides hprecise hschema (passed_of_ok haccepted) _ hvalue
      intro s hs hwritten hok v hv
      have hlt : sizeOf s < sizeOf (Value.dict items) := by
        rw [Value.dict.sizeOf_spec]
        omega
      exact ih _ hlt false s hwritten hok v hv rfl
    | null | int | float | str | list | foreign =>
      rw [validateInputSchema] at haccepted
      · cases haccepted
      all_goals exact fun _ heq => by cases heq

end Operant.Mcp
