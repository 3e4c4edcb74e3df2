import OpenShapeForge.Extensions.DefinitionUpdates
import OpenShapeForge.Extensions.FiltersSeen
import OpenShapeForge.Js.Whole
import OpenShapeForge.Operations.VariableFits

/-! Which values an accepted update of a tenant field leaves invalid (typeChange in
apps/api/src/operations/entity/extensions/definitions.ts): those under a bound that was compared as
a rounded number, under a rule that was taken out, under a raised minimum of the cardinality, and
the references outside new options. -/

namespace OpenShapeForge.Extensions.WideningOnly
open Js TypedIndex DefinitionUpdates Operations.FieldValues
open Operations.ExactNumeric (decimalValue aligned)
open Operations.ExactRationals (lift_value)

section Overlooked
variable {N J : Type} [JsNumber N]

inductive ItemRule where
  | min | max | minLength | maxLength
deriving DecidableEq

def ItemRule.name : ItemRule → Text
  | min => js "min"
  | max => js "max"
  | minLength => js "minLength"
  | maxLength => js "maxLength"

def ItemRule.meets (baseType : BaseType) (rule : Option (Rule N J)) (item : Value N) : ItemRule → Bool
  | min => !isNumericBaseType baseType || !isBelow item (exactNumericRule rule)
  | max => !isNumericBaseType baseType || !isAbove item (exactNumericRule rule)
  | minLength =>
    match item with
    | .text text => (numericRule rule).all fun min => min ≤ lengthOf text
    | _ => true
  | maxLength =>
    match item with
    | .text text => (numericRule rule).all fun max => lengthOf text ≤ max
    | _ => true

def Respelled (before after : FieldDefinition N J) (name : Text) : Prop :=
  ∃ previous next, before.validation.rule name = some (.plain previous) ∧ after.validation.rule name = some (.plain next) ∧ previous ≠ next ∧
    ∃ text, previous = .text text ∨ next = .text text

/-- The field's own rule is taken out, so that the catalogue's rule applies. -/
def Withdrawn (before after : FieldDefinition N J) (name : Text) : Prop :=
  before.validation.rule name ≠ none ∧ after.validation.rule name = none

def itemsOf (collection : Bool) (value : Value N) : List (Value N) :=
  if collection then
    match value with
    | .array items => items
    | _ => []
  else [value]

inductive Overlooked (entry : Entry) (catalog : Text → CatalogType N J) (before after : FieldDefinition N J) (value : Value N) : Prop where
  /-- A cardinality that asks for more than before, and more than are stored. -/
  | raised : isCollection after.cardinality = true → lowest before.cardinality < lowest after.cardinality →
      (itemsOf true value).length < lowest after.cardinality → Overlooked entry catalog before after value
  /-- Fewer items than the catalogue asks for, under a `minItems` that is gone. -/
  | fewer : isCollection after.cardinality = true → Withdrawn before after (js "minItems") →
      (itemsOf true value).length < (numericRule ((catalog after.osfType).validation.rule (js "minItems"))).getD 0 →
      Overlooked entry catalog before after value
  /-- An item outside a bound that is written anew, as a text, or that is the catalogue's again. -/
  | bound (rule : ItemRule) (item : Value N) : item ∈ itemsOf (isCollection after.cardinality) value → (catalog after.osfType).ownSchema = false →
      Respelled before after rule.name ∨ Withdrawn before after rule.name →
      rule.meets (extensionShape entry after.indexed).baseType (resolvedRule (catalog after.osfType) after rule.name) item = false →
      Overlooked entry catalog before after value
  /-- A reference outside the options: the index has no text of it. -/
  | reference (item : Value N) : (extensionShape entry after.indexed).reference = true → item ∈ itemsOf (isCollection after.cardinality) value →
      (fieldEnumeration (catalog after.osfType) after).any (fun allowed => !isAmong allowed item) = true →
      Overlooked entry catalog before after value

/-- How the language compares the numbers that definitions hold. -/
structure NumberOrder (N : Type) [JsNumber N] : Prop where
  exact : ∀ (a b : N) (x y : ExactDecimal), exactDecimal (.number a) = some x → exactDecimal (.number b) = some y →
    JsNumber.lessEqual a b = true → decimalValue x ≤ decimalValue y
  counts : ∀ (a b : N) (i j : Nat), JsNumber.toNat? a = some i → JsNumber.toNat? b = some j → JsNumber.lessEqual a b = true → i ≤ j
  object : ∀ a : N, JsNumber.lessEqual a (JsNumber.ofText (js "[object Object]")) = false ∧
    JsNumber.lessEqual (JsNumber.ofText (js "[object Object]")) a = false

end Overlooked

section Exactness
variable {N : Type} [JsNumber N]

theorem compareExactNumeric_value {left right : Value N} {a b : ExactDecimal} (readLeft : exactDecimal left = some a)
    (readRight : exactDecimal right = some b) :
    ∃ sign : Int, compareExactNumeric left right = some sign ∧ (sign < 0 ↔ decimalValue a < decimalValue b) ∧
      (0 < sign ↔ decimalValue b < decimalValue a) := by
  have positive : (0 : ℚ) < 10 ^ max a.scale b.scale := by positivity
  have liftLeft := lift_value a (le_max_left a.scale b.scale)
  have liftRight := lift_value b (le_max_right a.scale b.scale)
  have less : a.lift (max a.scale b.scale) < b.lift (max a.scale b.scale) ↔ decimalValue a < decimalValue b := by
    rw [← Int.cast_lt (R := ℚ), liftLeft, liftRight]
    exact mul_lt_mul_iff_left₀ positive
  have more : b.lift (max a.scale b.scale) < a.lift (max a.scale b.scale) ↔ decimalValue b < decimalValue a := by
    rw [← Int.cast_lt (R := ℚ), liftLeft, liftRight]
    exact mul_lt_mul_iff_left₀ positive
  unfold compareExactNumeric aligned
  rw [readLeft, readRight]
  refine ⟨_, rfl, ?_, ?_⟩
  · rw [← less]
    split
    next same => omega
    next => split <;> omega
  · rw [← more]
    split
    next same => omega
    next => split <;> omega

theorem isBelow_iff {value minimum : Value N} {a b : ExactDecimal} (readValue : exactDecimal value = some a)
    (readMinimum : exactDecimal minimum = some b) : isBelow value (some minimum) = false ↔ decimalValue b ≤ decimalValue a := by
  obtain ⟨sign, compared, negative, -⟩ := compareExactNumeric_value readValue readMinimum
  unfold isBelow
  rw [Option.any_some, compared, Option.all_some, decide_eq_false_iff_not, negative, not_lt]

theorem isAbove_iff {value maximum : Value N} {a b : ExactDecimal} (readValue : exactDecimal value = some a)
    (readMaximum : exactDecimal maximum = some b) : isAbove value (some maximum) = false ↔ decimalValue a ≤ decimalValue b := by
  obtain ⟨sign, compared, -, positive⟩ := compareExactNumeric_value readValue readMaximum
  unfold isAbove
  rw [Option.any_some, compared, Option.all_some, decide_eq_false_iff_not, positive, not_lt]

theorem read_of_notBelow {value minimum : Value N} (notBelow : isBelow value (some minimum) = false) :
    ∃ a b, exactDecimal value = some a ∧ exactDecimal minimum = some b := by
  unfold isBelow compareExactNumeric at notBelow
  cases readValue : exactDecimal value with
  | none => simp [readValue] at notBelow
  | some a =>
    cases readMinimum : exactDecimal minimum with
    | none => simp [readValue, readMinimum] at notBelow
    | some b => exact ⟨a, b, rfl, rfl⟩

theorem read_of_notAbove {value maximum : Value N} (notAbove : isAbove value (some maximum) = false) :
    ∃ a b, exactDecimal value = some a ∧ exactDecimal maximum = some b := by
  unfold isAbove compareExactNumeric at notAbove
  cases readValue : exactDecimal value with
  | none => simp [readValue] at notAbove
  | some a =>
    cases readMaximum : exactDecimal maximum with
    | none => simp [readValue, readMaximum] at notAbove
    | some b => exact ⟨a, b, rfl, rfl⟩

end Exactness

section Rules
variable {N J : Type} [JsNumber N]

theorem rule_fits {validation : Validation N J} {name : Text} {rule : Rule N J} (found : validation.rule name = some rule) :
    ruleFits name rule = true ∧ name ∈ validation.rules.map Prod.fst := by
  obtain ⟨named, isNamed, rfl⟩ := Option.map_eq_some_iff.mp found
  have member := List.mem_of_find?_eq_some isNamed
  have isName : named.1 = name := of_decide_eq_true (List.find?_some isNamed :)
  subst isName
  exact ⟨validation.fits named member, List.mem_map_of_mem member⟩

variable [DecidableEq N] [DecidableEq J]

/-- What an update that is not refused as narrowing leaves of one rule: it is as it was, gone, or not stricter. -/
theorem narrowingChange_none {before after : FieldDefinition N J} (widens : narrowingChange before after = none) :
    (∀ name, narrowsRule before.validation after.validation name = false) ∧ highest before.cardinality ≤ highest after.cardinality := by
  unfold narrowingChange at widens
  split at widens
  next => cases widens
  next =>
    split at widens
    next => cases widens
    next =>
      split at widens
      next => cases widens
      next =>
        dsimp only at widens
        split at widens
        next => cases widens
        next kept =>
          split at widens
          next => cases widens
          next notLower =>
            refine ⟨fun name => ?_, not_lt.mp notLower⟩
            cases isRule : after.validation.rule name with
            | none =>
              unfold narrowsRule
              rw [isRule]
            | some rule =>
              have member : name ∈ (before.validation.rules ++ after.validation.rules).map Prod.fst := by
                rw [List.map_append]
                exact List.mem_append_right _ (rule_fits isRule).2
              exact Bool.not_eq_true _ ▸ List.find?_eq_none.mp kept name member

omit [DecidableEq N] [DecidableEq J] in
theorem plain_or_object (rule : Rule N J) : (∃ value, rule = .plain value) ∨ rule.toNumber = JsNumber.ofText (js "[object Object]") := by
  cases rule with
  | plain value => exact .inl ⟨value, rfl⟩
  | annotated => exact .inr rfl
  | structured => exact .inr rfl

omit [DecidableEq N] [DecidableEq J] in
theorem plain_of_lessEqual (numbers : NumberOrder N) {one other : Rule N J} (ordered : JsNumber.lessEqual one.toNumber other.toNumber = true) :
    (∃ value, one = .plain value) ∧ ∃ value, other = .plain value := by
  constructor
  · rcases plain_or_object one with plain | object
    · exact plain
    · rw [object, (numbers.object _).2] at ordered
      cases ordered
  · rcases plain_or_object other with plain | object
    · exact plain
    · rw [object, (numbers.object _).1] at ordered
      cases ordered

theorem bound_kept (numbers : NumberOrder N) {before after : FieldDefinition N J} {name : Text}
    (kept : narrowsRule before.validation after.validation name = false) (bounded : name ∈ countNames ∨ name ∈ exactNames)
    (notRespelled : ¬Respelled before after name) (notWithdrawn : ¬Withdrawn before after name) :
    before.validation.rule name = after.validation.rule name ∨
      ∃ previous next : N, before.validation.rule name = some (.plain (.number previous)) ∧
        after.validation.rule name = some (.plain (.number next)) ∧
        if name ∈ lowerBounds then JsNumber.lessEqual next previous = true else JsNumber.lessEqual previous next = true := by
  have upper : name ∉ lowerBounds → name ∈ upperBounds := by
    intro notLower
    have all : ∀ bound ∈ countNames ++ exactNames, bound ∉ lowerBounds → bound ∈ upperBounds := by decide
    exact all name (List.mem_append.mpr bounded) notLower
  cases isNext : after.validation.rule name with
  | none =>
    left
    by_contra had
    exact notWithdrawn ⟨had, isNext⟩
  | some next =>
    by_cases same : before.validation.rule name = some next
    · exact .inl same
    right
    have notStricter : isStricter name (before.validation.rule name) next = false := by
      unfold narrowsRule at kept
      rw [isNext] at kept
      simpa [same] using kept
    cases isPrevious : before.validation.rule name with
    | none =>
      rw [isPrevious] at notStricter
      cases notStricter
    | some previous =>
      rw [isPrevious] at notStricter
      have ordered : if name ∈ lowerBounds then JsNumber.lessEqual next.toNumber previous.toNumber = true
          else JsNumber.lessEqual previous.toNumber next.toNumber = true := by
        unfold isStricter at notStricter
        dsimp only at notStricter
        split
        next lower => simpa [lower] using notStricter
        next notLower => simpa [notLower, upper notLower] using notStricter
      have plain : (∃ value, next = .plain value) ∧ ∃ value, previous = .plain value := by
        split at ordered
        next => exact plain_of_lessEqual numbers ordered
        next => exact (plain_of_lessEqual numbers ordered).symm
      obtain ⟨⟨is, rfl⟩, was, rfl⟩ := plain
      have different : was ≠ is := fun equal => same (by rw [isPrevious, equal])
      have noBoolean : ∀ value, is ≠ .boolean value ∧ was ≠ .boolean value := by
        have never : ∀ value, ruleFits name (.plain (.boolean value) : Rule N J) = false := by
          intro value
          unfold ruleFits
          rcases bounded with count | exact
          · simp [count]
          · simp [exact]
        refine fun value => ⟨?_, ?_⟩
        · rintro rfl
          exact absurd (rule_fits isNext).1 (by rw [never]; decide)
        · rintro rfl
          exact absurd (rule_fits isPrevious).1 (by rw [never]; decide)
      cases is with
      | boolean value => exact absurd rfl (noBoolean value).1
      | text text => exact absurd ⟨was, .text text, isPrevious, isNext, different, text, .inr rfl⟩ notRespelled
      | number next =>
        cases was with
        | boolean value => exact absurd rfl (noBoolean value).2
        | text text => exact absurd ⟨.text text, .number next, isPrevious, isNext, different, text, .inl rfl⟩ notRespelled
        | number previous => exact ⟨previous, next, rfl, rfl, ordered⟩

omit [DecidableEq N] [DecidableEq J] in
theorem count_read {validation : Validation N J} {name : Text} {value : N} (count : name ∈ countNames)
    (found : validation.rule name = some (.plain (.number value))) : ∃ n, JsNumber.toNat? value = some n := by
  have fits := (rule_fits found).1
  unfold ruleFits at fits
  simp only [count, not_true_eq_false, decide_false, Bool.false_or, Bool.and_eq_true] at fits
  exact Option.isSome_iff_exists.mp fits.1

omit [DecidableEq N] [DecidableEq J] in
theorem exact_read {validation : Validation N J} {name : Text} {value : N} (exact : name ∈ exactNames)
    (found : validation.rule name = some (.plain (.number value))) : ∃ decimal, exactDecimal (.number value : Value N) = some decimal := by
  have fits := (rule_fits found).1
  unfold ruleFits at fits
  simp only [exact, not_true_eq_false, decide_false, Bool.false_or, Bool.and_eq_true] at fits
  exact Option.isSome_iff_exists.mp fits.2

omit [DecidableEq N] [DecidableEq J] in
theorem resolvedRule_own {catalog : CatalogType N J} {definition : FieldDefinition N J} {name : Text} {rule : Rule N J}
    (own : definition.validation.rule name = some rule) : resolvedRule catalog definition name = some rule := by
  unfold resolvedRule
  rw [own]
  rfl

theorem meets_kept (numbers : NumberOrder N) {before after : FieldDefinition N J} {catalog : CatalogType N J} {baseType : BaseType} {item : Value N}
    (rule : ItemRule) (kept : narrowsRule before.validation after.validation rule.name = false)
    (notRespelled : ¬Respelled before after rule.name) (notWithdrawn : ¬Withdrawn before after rule.name)
    (met : rule.meets baseType (resolvedRule catalog before rule.name) item = true) :
    rule.meets baseType (resolvedRule catalog after rule.name) item = true := by
  have bounded : rule.name ∈ countNames ∨ rule.name ∈ exactNames := by cases rule <;> decide
  rcases bound_kept numbers kept bounded notRespelled notWithdrawn with same | ⟨previous, next, isPrevious, isNext, ordered⟩
  · unfold resolvedRule at met ⊢
    rwa [← same]
  rw [resolvedRule_own isPrevious] at met
  rw [resolvedRule_own isNext]
  cases rule with
  | min =>
    have lower : JsNumber.lessEqual next previous = true := by rwa [if_pos (by decide)] at ordered
    obtain ⟨c, readNext⟩ := exact_read  (by decide) isNext
    simp only [ItemRule.meets, exactNumericRule, Option.bind_some, Rule.value, Option.map_some, Bool.or_eq_true, Bool.not_eq_true'] at met ⊢
    refine met.imp_right fun notBelow => ?_
    obtain ⟨a, b, readItem, readPrevious⟩ := read_of_notBelow notBelow
    have above := (isBelow_iff readItem readPrevious).mp notBelow
    exact (isBelow_iff readItem readNext).mpr ((numbers.exact next previous c b readNext readPrevious lower).trans above)
  | max =>
    have upper : JsNumber.lessEqual previous next = true := by rwa [if_neg (by decide)] at ordered
    obtain ⟨c, readNext⟩ := exact_read  (by decide) isNext
    simp only [ItemRule.meets, exactNumericRule, Option.bind_some, Rule.value, Option.map_some, Bool.or_eq_true, Bool.not_eq_true'] at met ⊢
    refine met.imp_right fun notAbove => ?_
    obtain ⟨a, b, readItem, readPrevious⟩ := read_of_notAbove notAbove
    have below := (isAbove_iff readItem readPrevious).mp notAbove
    exact (isAbove_iff readItem readNext).mpr (below.trans (numbers.exact previous next b c readPrevious readNext upper))
  | minLength =>
    have lower : JsNumber.lessEqual next previous = true := by rwa [if_pos (by decide)] at ordered
    obtain ⟨j, readNext⟩ := count_read  (by decide) isNext
    obtain ⟨i, readPrevious⟩ := count_read  (by decide) isPrevious
    cases item with
    | text text =>
      simp only [ItemRule.meets, numericRule, Option.bind_some, Rule.value, readNext, readPrevious, Option.all_some, decide_eq_true_eq] at met ⊢
      exact (numbers.counts next previous j i readNext readPrevious lower).trans met
    | _ => rfl
  | maxLength =>
    have upper : JsNumber.lessEqual previous next = true := by rwa [if_neg (by decide)] at ordered
    obtain ⟨j, readNext⟩ := count_read  (by decide) isNext
    obtain ⟨i, readPrevious⟩ := count_read  (by decide) isPrevious
    cases item with
    | text text =>
      simp only [ItemRule.meets, numericRule, Option.bind_some, Rule.value, readNext, readPrevious, Option.all_some, decide_eq_true_eq] at met ⊢
      exact met.trans (numbers.counts previous next i j readPrevious readNext upper)
    | _ => rfl

theorem minItems_kept (numbers : NumberOrder N) {before after : FieldDefinition N J} (catalog : CatalogType N J)
    (kept : narrowsRule before.validation after.validation (js "minItems") = false) (notWithdrawn : ¬Withdrawn before after (js "minItems")) :
    (numericRule (resolvedRule catalog after (js "minItems"))).getD 0 ≤ (numericRule (resolvedRule catalog before (js "minItems"))).getD 0 := by
  have notRespelled : ¬Respelled before after (js "minItems") := by
    have never : ∀ text, ruleFits (js "minItems") (.plain (.text text) : Rule N J) = false := fun _ => rfl
    rintro ⟨previous, next, isPrevious, isNext, -, text, rfl | rfl⟩
    · exact absurd (rule_fits isPrevious).1 (by rw [never]; decide)
    · exact absurd (rule_fits isNext).1 (by rw [never]; decide)
  rcases bound_kept numbers kept (.inl (by decide)) notRespelled notWithdrawn with same | ⟨previous, next, isPrevious, isNext, ordered⟩
  · unfold resolvedRule
    rw [same]
  · have lower : JsNumber.lessEqual next previous = true := by rwa [if_pos (by decide)] at ordered
    obtain ⟨j, readNext⟩ := count_read  (by decide) isNext
    obtain ⟨i, readPrevious⟩ := count_read  (by decide) isPrevious
    rw [resolvedRule_own isNext, resolvedRule_own isPrevious]
    simp only [numericRule, Option.bind_some, Rule.value, readNext, readPrevious, Option.getD_some]
    exact numbers.counts next previous j i readNext readPrevious lower

end Rules

section Admission
variable {N J : Type} [JsNumber N]

theorem meetsBounds_iff {baseType : BaseType} {rule : Text → Option (Rule N J)} {item : Value N} :
    meetsBounds baseType rule item = true ↔
      (isNumericBaseType baseType = true → (exactDecimal item).isSome = true ∧ (baseType = .integer → isExactWholeNumber item = true)) ∧
      ∀ bound : ItemRule, bound.meets baseType (rule bound.name) item = true := by
  have lengths : (match item with
      | .text text => ((numericRule (rule (js "minLength"))).all fun min => min ≤ lengthOf text) &&
          (numericRule (rule (js "maxLength"))).all fun max => lengthOf text ≤ max
      | _ => true) = true ↔ ItemRule.minLength.meets baseType (rule ItemRule.minLength.name) item = true ∧
        ItemRule.maxLength.meets baseType (rule ItemRule.maxLength.name) item = true := by
    cases item with
    | text text => exact Bool.and_eq_true_iff
    | _ => exact ⟨fun _ => ⟨rfl, rfl⟩, fun _ => rfl⟩
  have numbers : (!isNumericBaseType baseType || exactNumericViolation item {
        minimum := exactNumericRule (rule (js "min"))
        maximum := exactNumericRule (rule (js "max"))
        integer := baseType = .integer } = none) = true ↔
      (isNumericBaseType baseType = true → (exactDecimal item).isSome = true ∧ (baseType = .integer → isExactWholeNumber item = true)) ∧
        ItemRule.min.meets baseType (rule ItemRule.min.name) item = true ∧ ItemRule.max.meets baseType (rule ItemRule.max.name) item = true := by
    unfold ItemRule.meets ItemRule.name
    cases isNumericBaseType baseType with
    | false => simp
    | true =>
      unfold exactNumericViolation
      cases exactDecimal item with
      | none => simp
      | some decimal =>
        dsimp only
        cases isBelow item (exactNumericRule (rule (js "min"))) <;> cases isAbove item (exactNumericRule (rule (js "max"))) <;>
          cases isExactWholeNumber item <;> by_cases integer : baseType = .integer <;> simp [integer]
  refine Bool.and_eq_true_iff.trans ((and_congr lengths numbers).trans ?_)
  constructor
  · rintro ⟨⟨minLength, maxLength⟩, readable, min, max⟩
    refine ⟨readable, fun bound => ?_⟩
    cases bound with
    | min => exact min
    | max => exact max
    | minLength => exact minLength
    | maxLength => exact maxLength
  · rintro ⟨readable, all⟩
    exact ⟨⟨all .minLength, all .maxLength⟩, readable, all .min, all .max⟩

theorem extensionShape_same {entry : Entry} {before after : FieldDefinition N J} (type : before.osfType = after.osfType)
    (collection : isCollection before.cardinality = isCollection after.cardinality) :
    extensionShape entry before.indexed = extensionShape entry after.indexed := by
  unfold extensionShape FieldDefinition.indexed
  dsimp only
  rw [type, collection]

theorem text_indexed {shape : ExtensionShape} {value item : Value N} {text : Text} (column : shape.column = .text) (projection : shape.projection = none)
    (base : shape.baseType = .string) (member : item ∈ itemsOf shape.collection value) (isText : item = .text text) :
    text ∈ (indexRows shape (some value)).filterMap ExtensionIndexRow.text := by
  have row : ∀ ordinal, itemRow shape item ordinal = some { ExtensionIndexRow.blank ordinal with text := some text } := by
    intro ordinal
    subst isText
    unfold itemRow
    rw [projection, column, base]
    rfl
  have notNull : StoredValue.isNull value = false := by
    unfold itemsOf at member
    cases collection : shape.collection with
    | true =>
      rw [collection, if_pos rfl] at member
      cases value with
      | array => rfl
      | _ => exact absurd member List.not_mem_nil
    | false =>
      rw [collection, if_neg (by decide), List.mem_singleton] at member
      rw [← member, isText]
      rfl
  have listed : item ∈ if shape.collection then (StoredValue.items value).getD [] else [value] := by
    unfold itemsOf at member
    cases collection : shape.collection with
    | true =>
      rw [collection, if_pos rfl] at member
      cases value with
      | array => exact member
      | _ => exact absurd member List.not_mem_nil
    | false =>
      rw [collection, if_neg (by decide)] at member
      exact member
  unfold indexRows
  dsimp only
  rw [notNull, if_neg (by decide)]
  obtain ⟨ordinal, inBounds, isItem⟩ := List.getElem_of_mem listed
  refine List.mem_filterMap.mpr ⟨_, List.mem_filterMap.mpr ⟨(item, ordinal), ?_, row ordinal⟩, rfl⟩
  rw [List.mk_mem_zipIdx_iff_getElem?]
  exact List.getElem?_eq_some_iff.mpr ⟨inBounds, isItem⟩

theorem admits_iff {entry : Entry} {catalog : Text → CatalogType N J} {definition : FieldDefinition N J} {value : Value N} :
    admits entry catalog definition value = true ↔
      (isCollection definition.cardinality = true → (∃ items, value = .array items) ∧
        effectiveMin (catalog definition.osfType) definition ≤ (itemsOf true value).length ∧
        ((itemsOf true value).length : ℕ∞) ≤ highest definition.cardinality) ∧
      ∀ item ∈ itemsOf (isCollection definition.cardinality) value,
        admitsItem (extensionShape entry definition.indexed).baseType (catalog definition.osfType) definition item = true := by
  have collection : (extensionShape entry definition.indexed).collection = isCollection definition.cardinality := rfl
  unfold admits
  dsimp only
  rw [collection]
  cases isCollection definition.cardinality with
  | false => simp [itemsOf]
  | true =>
    cases value with
    | array items => simp [itemsOf, and_assoc]
    | _ => simp

theorem admitsItem_iff {baseType : BaseType} {catalog : CatalogType N J} {definition : FieldDefinition N J} {item : Value N} :
    admitsItem baseType catalog definition item = true ↔ fitsBaseType baseType item = true ∧
      (catalog.ownSchema = false → meetsBounds baseType (resolvedRule catalog definition) item = true) ∧
      ∀ allowed, fieldEnumeration catalog definition = some allowed → isAmong allowed item = true := by
  unfold admitsItem
  cases catalog.ownSchema <;> cases fieldEnumeration catalog definition <;> simp [and_assoc]

variable [DecidableEq N] [DecidableEq J]

/-- An accepted update that keeps the type is no narrowing one, and its options are those in use at least. -/
theorem typeChange_accepted {key : Text} {rows : List ExtensionIndexRow} {shown : List Text → List Text} {before after : FieldDefinition N J}
    {operation : Option BackfillOperation} (type : before.osfType = after.osfType)
    (collection : isCollection before.cardinality = isCollection after.cardinality)
    (accepted : typeChange key rows shown before after = .ok operation) :
    narrowingChange before after = none ∧ (after.options = none → before.options = none) ∧
      ∀ allowed, after.options = some allowed → removedOptions rows allowed = [] := by
  unfold typeChange at accepted
  split at accepted
  next => cases accepted
  next widens =>
    rw [if_pos ⟨type, collection⟩] at accepted
    split at accepted
    next noOptions =>
      split at accepted
      next => cases accepted
      next hadNone => exact ⟨widens, fun _ => by simpa using hadNone, fun allowed isSome => by rw [noOptions] at isSome; cases isSome⟩
    next allowed hasOptions =>
      dsimp only at accepted
      split at accepted
      next none =>
        refine ⟨widens, fun isNone => ?_, fun other isOther => ?_⟩
        · rw [hasOptions] at isNone
          cases isNone
        · rw [hasOptions] at isOther
          exact Option.some.inj isOther ▸ none
      next => cases accepted

theorem among_of_removedOptions {rows : List ExtensionIndexRow} {allowed : List Text} (none : removedOptions rows allowed = []) {text : Text}
    (shown : text ∈ rows.filterMap ExtensionIndexRow.text) : text ∈ allowed := by
  by_contra outside
  have removed : text ∈ removedOptions rows allowed := List.mem_filter.mpr ⟨List.mem_dedup.mpr shown, decide_eq_true outside⟩
  rw [none] at removed
  exact List.not_mem_nil removed

end Admission

section Results
variable {N J : Type} [JsNumber N] [DecidableEq N] [DecidableEq J] {entry : Entry} {catalog : Text → CatalogType N J}
  {before after : FieldDefinition N J} {value : Value N}

def rowsOf (entry : Entry) (definition : FieldDefinition N J) (stored : List (Value N)) : List ExtensionIndexRow :=
  stored.flatMap fun value => indexRows (extensionShape entry definition.indexed) (some value)

/-- A collection that had items enough has them still, unless the catalogue's or the cardinality's minimum was overlooked. -/
theorem effectiveMin_kept (numbers : NumberOrder N) (type : before.osfType = after.osfType) (collection : isCollection after.cardinality = true)
    (widens : narrowingChange before after = none) (enough : effectiveMin (catalog before.osfType) before ≤ (itemsOf true value).length)
    (seen : ¬Overlooked entry catalog before after value) : effectiveMin (catalog after.osfType) after ≤ (itemsOf true value).length := by
  have former := max_le_iff.mp enough
  refine max_le ?_ ?_
  · by_cases withdrawn : Withdrawn before after (js "minItems")
    · have resolved : resolvedRule (catalog after.osfType) after (js "minItems") = (catalog after.osfType).validation.rule (js "minItems") := by
        unfold resolvedRule
        rw [withdrawn.2, Option.none_or]
      rw [resolved]
      exact not_lt.mp fun few => seen (.fewer collection withdrawn few)
    · have kept := minItems_kept numbers (catalog after.osfType) ((narrowingChange_none widens).1 _) withdrawn
      exact kept.trans (type ▸ former.1)
  · exact not_lt.mp fun few => seen (.raised collection (former.2.trans_lt few) few)

theorem item_kept (numbers : NumberOrder N) {stored : List (Value N)} {key : Text} {shown : List Text → List Text}
    {operation : Option BackfillOperation} (type : before.osfType = after.osfType)
    (collection : isCollection before.cardinality = isCollection after.cardinality) (valid : validDefinition entry after.indexed = true)
    (accepted : typeChange key (rowsOf entry before stored) shown before after = .ok operation) (member : value ∈ stored)
    (seen : ¬Overlooked entry catalog before after value) {item : Value N} (isItem : item ∈ itemsOf (isCollection after.cardinality) value)
    (admitted : admitsItem (extensionShape entry before.indexed).baseType (catalog before.osfType) before item = true) :
    admitsItem (extensionShape entry after.indexed).baseType (catalog after.osfType) after item = true := by
  have same : extensionShape entry before.indexed = extensionShape entry after.indexed := extensionShape_same type collection
  obtain ⟨widens, noOptions, options⟩ := typeChange_accepted type collection accepted
  rw [same, type] at admitted
  obtain ⟨base, bounds, among⟩ := admitsItem_iff.mp admitted
  refine admitsItem_iff.mpr ⟨base, fun plain => ?_, fun allowed isEnumeration => ?_⟩
  · obtain ⟨readable, met⟩ := meetsBounds_iff.mp (bounds plain)
    refine meetsBounds_iff.mpr ⟨readable, fun rule => ?_⟩
    by_cases unchecked : Respelled before after rule.name ∨ Withdrawn before after rule.name
    · by_contra broken
      exact seen (.bound rule item isItem plain unchecked (Bool.not_eq_true _ ▸ broken))
    · rw [not_or] at unchecked
      exact meets_kept numbers rule ((narrowingChange_none widens).1 _) unchecked.1 unchecked.2 (met rule)
  · cases own : after.options with
    | none =>
      have unchanged : fieldEnumeration (catalog after.osfType) after = fieldEnumeration (catalog after.osfType) before := by
        unfold fieldEnumeration
        rw [own, noOptions own]
      exact among allowed (unchanged ▸ isEnumeration)
    | some texts =>
      obtain rfl : texts = allowed := by
        unfold fieldEnumeration at isEnumeration
        rw [own, Option.some_or] at isEnumeration
        exact Option.some.inj (Option.filter_eq_some_iff.mp isEnumeration).1
      by_cases reference : (extensionShape entry after.indexed).reference = true
      · by_contra outside
        refine seen (.reference item reference isItem ?_)
        rw [isEnumeration, Option.any_some, Bool.not_eq_true']
        exact Bool.not_eq_true _ ▸ outside
      · -- A text field with options: the index shows the text of the item.
        have isString : (extensionShape entry after.indexed).baseType = .string := by
          unfold validDefinition at valid
          simp only [Bool.and_eq_true, Bool.or_eq_true, decide_eq_true_eq] at valid
          have static : after.indexed.staticOptions = true := by
            show after.options.isSome = true
            rw [own]
            rfl
          simpa [static] using valid.1.1.1.2
        have column : (extensionShape entry after.indexed).column = .text ∧ (extensionShape entry after.indexed).projection = none := by
          unfold extensionShape at isString reference ⊢
          dsimp only at isString reference ⊢
          rw [if_neg reference] at isString ⊢
          rw [isString, if_neg reference]
          exact ⟨rfl, rfl⟩
        rw [isString] at base
        cases item with
        | text text =>
          have indexed : text ∈ (indexRows (extensionShape entry after.indexed) (some value)).filterMap ExtensionIndexRow.text :=
            text_indexed column.1 column.2 isString isItem rfl
          have shownText : text ∈ (rowsOf entry before stored).filterMap ExtensionIndexRow.text := by
            obtain ⟨row, isRow, isText⟩ := List.mem_filterMap.mp indexed
            refine List.mem_filterMap.mpr ⟨row, List.mem_flatMap.mpr ⟨value, member, ?_⟩, isText⟩
            rw [same]
            exact isRow
          exact decide_eq_true (among_of_removedOptions (options texts own) shownText)
        | _ => cases base

/-- After an accepted update that keeps the type, a stored value that was valid is valid still exactly where
nothing of it was overlooked. -/
theorem update_keeps_iff (numbers : NumberOrder N) {stored : List (Value N)} {key : Text} {shown : List Text → List Text}
    {operation : Option BackfillOperation} (type : before.osfType = after.osfType)
    (collection : isCollection before.cardinality = isCollection after.cardinality) (valid : validDefinition entry after.indexed = true)
    (accepted : typeChange key (rowsOf entry before stored) shown before after = .ok operation) (member : value ∈ stored)
    (admitted : admits entry catalog before value = true) :
    admits entry catalog after value = true ↔ ¬Overlooked entry catalog before after value := by
  obtain ⟨several, items⟩ := admits_iff.mp admitted
  rw [collection] at several items
  have widens := narrowingChange_none (typeChange_accepted type collection accepted).1
  constructor
  · intro kept overlooked
    obtain ⟨severalAfter, itemsAfter⟩ := admits_iff.mp kept
    cases overlooked with
    | raised isMany _ few => exact absurd few (not_lt.mpr ((le_max_right _ _).trans (severalAfter isMany).2.1))
    | fewer isMany withdrawn few =>
      have enough := (le_max_left _ _).trans (severalAfter isMany).2.1
      unfold resolvedRule at enough
      rw [withdrawn.2, Option.none_or] at enough
      exact absurd few (not_lt.mpr enough)
    | bound rule item isItem plain _ broken =>
      have met := (meetsBounds_iff.mp ((admitsItem_iff.mp (itemsAfter item isItem)).2.1 plain)).2 rule
      rw [broken] at met
      cases met
    | reference item _ isItem outside =>
      obtain ⟨allowed, isEnumeration, notAmong⟩ := (Option.any_eq_true _ _).mp outside
      have among := (admitsItem_iff.mp (itemsAfter item isItem)).2.2 allowed isEnumeration
      rw [among] at notAmong
      cases notAmong
  · intro seen
    refine admits_iff.mpr ⟨fun isMany => ?_, fun item isItem => ?_⟩
    · obtain ⟨isArray, enough, atMost⟩ := several isMany
      exact ⟨isArray, effectiveMin_kept numbers type isMany (typeChange_accepted type collection accepted).1 enough seen, atMost.trans widens.2⟩
    · exact item_kept numbers type collection valid accepted member seen isItem (items item isItem)

theorem whole_exact {value : Int} {decimal : ExactDecimal} (read : exactDecimal (.number (Whole.finite value) : Value Whole) = some decimal) :
    decimalValue decimal = value := by
  have printed : Whole.toText (.finite value) = Operations.ExactNumeric.bigintText value := by
    show (if value = 0 then js "0" else if value < 0 then js "-" ++ Whole.digitsText value.natAbs else Whole.digitsText value.natAbs) = _
    unfold Operations.ExactNumeric.bigintText Operations.ExactNumeric.signed Exact.wholeText
    by_cases zero : value = 0
    · subst zero
      rfl
    · rw [if_neg zero, if_neg (Int.natAbs_ne_zero.mpr zero)]
      by_cases negative : value < 0
      · rw [if_pos negative, decide_eq_true negative, if_pos rfl]
      · rw [if_neg negative, decide_eq_false negative, if_neg (by decide), List.nil_append]
  have plain : decimalText (Whole.finite value) = Operations.ExactNumeric.bigintText value := by
    show expandExponent (Whole.toText (.finite value)) = _
    rw [printed]
    exact Operations.ExactRationals.expandExponent_whole (Operations.ExactRationals.isWhole_wholeText value.natAbs) _
  have readText : exactDecimalText (Operations.ExactNumeric.bigintText value) = some decimal := plain ▸ read
  have short : (Operations.ExactNumeric.bigintText value).length ≤ maxExactNumericLength := by
    unfold exactDecimalText at readText
    split at readText
    next => cases readText
    next fits => exact not_lt.mp (not_or.mp fits).1
  obtain ⟨isDecimal, isValue⟩ := Operations.ExactRationals.bigintText_value value
  obtain ⟨other, readOther, otherValue⟩ := Operations.ExactRationals.exactDecimalText_value short isDecimal
  obtain rfl := Option.some.inj (readText.symm.trans readOther)
  exact otherValue.trans isValue

theorem whole_le {a b : Int} (ordered : JsNumber.lessEqual (Whole.finite a) (Whole.finite b) = true) : a ≤ b := by
  have either : (decide (a < b) || (decide (Whole.finite a = .finite b) && decide (Whole.finite a ≠ .nan))) = true := ordered
  simp at either
  omega

theorem wholeOrder : NumberOrder Whole where
  exact a b x y readA readB ordered := by
    cases a with
    | finite a =>
      cases b with
      | finite b =>
        have less : a ≤ b := whole_le ordered
        rw [whole_exact readA, whole_exact readB]
        exact_mod_cast less
      | _ => cases readB
    | _ => cases readA
  counts a b i j isI isJ ordered := by
    cases a with
    | finite a =>
      cases b with
      | finite b =>
        have less : a ≤ b := whole_le ordered
        have first : (if 0 ≤ a then some a.toNat else none) = some i := isI
        have second : (if 0 ≤ b then some b.toNat else none) = some j := isJ
        split at first
        next =>
          split at second
          next =>
            have isA := Option.some.inj first
            have isB := Option.some.inj second
            omega
          next => cases second
        next => cases first
      | _ => cases isJ
    | _ => cases isI
  object a := by
    have isNaN : Whole.ofText (js "[object Object]") = .nan := by decide
    show JsNumber.lessEqual a (Whole.ofText (js "[object Object]")) = false ∧ JsNumber.lessEqual (Whole.ofText (js "[object Object]")) a = false
    rw [isNaN]
    cases a <;> exact ⟨rfl, rfl⟩

def plainEntry : Entry where
  allowedOsfTypes := [js "string"]
  targets := []
  storedFieldBaseType osfType := if osfType = js "integer" then .integer else if osfType = js "number" then .number else .string
  indexProjection _ := none
  integer := FiltersSeen.plainEntry.integer
  number := FiltersSeen.plainEntry.number
  primitives := FiltersSeen.plainEntry.primitives

def noRules : Validation Whole Text := ⟨[], fun _ member => (by cases member)⟩

def plainCatalog (_ : Text) : CatalogType Whole Text := { validation := noRules, options := none, ownSchema := false }

/-- At least so many and at most three of three options. -/
def tags (min : Nat) : FieldDefinition Whole Text where
  osfType := js "string"
  unique := false
  cardinality := some (.bounds (some min) (some (.atMost 3)))
  validation := noRules
  options := some [js "red", js "green", js "blue"]
  classification := js "public"
  unit := none
  currency := (none, none)

def oneTag : Value Whole := .array [.text (js "red")]

/-- Two tags are asked for where one is stored: the update is not refused, and the value is no longer valid. -/
theorem raised_minimum_accepted :
    typeChange (js "tags") (rowsOf plainEntry (tags 0) [oneTag]) id (tags 0) (tags 2) = .ok none ∧
      admits plainEntry plainCatalog (tags 0) oneTag = true ∧ admits plainEntry plainCatalog (tags 2) oneTag = false := by
  refine ⟨rfl, ?_, ?_⟩ <;> decide +kernel

theorem update_keeps_tag : admits plainEntry plainCatalog (tags 1) oneTag = true ↔ ¬Overlooked plainEntry plainCatalog (tags 0) (tags 1) oneTag := by
  have accepted : typeChange (js "tags") (rowsOf plainEntry (tags 0) [oneTag]) id (tags 0) (tags 1) = .ok none := rfl
  have admitted : admits plainEntry plainCatalog (tags 0) oneTag = true := by decide +kernel
  exact update_keeps_iff wholeOrder rfl rfl rfl accepted (List.mem_singleton.mpr rfl) admitted

end Results

end OpenShapeForge.Extensions.WideningOnly
