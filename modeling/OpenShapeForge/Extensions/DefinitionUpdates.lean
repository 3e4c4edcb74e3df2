import Mathlib.Data.ENat.Basic
import OpenShapeForge.Extensions.TypedIndex
import OpenShapeForge.Js.Utf8
import OpenShapeForge.Operations.ExactNumeric

/-! Updates of a stored tenant field's definition (definitions.ts in apps/api/src/operations/entity/extensions),
and what its rules ask of a value (packages/operations/src: field-resolution.ts,
field-schema-metadata.ts, exact-numeric.ts). -/

namespace OpenShapeForge.Extensions.DefinitionUpdates
open Js TypedIndex Operations.FieldValues
open Operations.ExactNumeric (aligned ExactNumericViolation)

inductive Scalar (N : Type) where
  | number (value : N)
  | text (value : Text)
  | boolean (value : Bool)
deriving DecidableEq

/-- A validation rule: a value, a value with a message, or a list. -/
inductive Rule (N J : Type) where
  | plain (value : Scalar N)
  | annotated (value : Scalar N) (message : Option J)
  | structured (value : J)
deriving DecidableEq

section Definitions
variable {N J : Type} [JsNumber N]

def exactNames : List Text := [js "min", js "max"]

def countNames : List Text := [js "minLength", js "maxLength", js "minItems"]

/-- What the FieldDefinition schema takes under a name. -/
def ruleFits (name : Text) : Rule N J → Bool
  | .plain (.number value) =>
    (name ∉ countNames || (JsNumber.toNat? value).isSome) && (name ∉ exactNames || (exactDecimal (.number value)).isSome)
  | .plain (.text value) => name ∉ countNames && (name ∉ exactNames || isExactDecimalText (.text value : Value N))
  | .plain (.boolean _) | .structured _ => name ∉ countNames && name ∉ exactNames
  | .annotated .. => true

structure Validation (N J : Type) [JsNumber N] where
  rules : List (Text × Rule N J)
  fits : ∀ named ∈ rules, ruleFits named.1 named.2 = true

def Validation.rule (validation : Validation N J) (name : Text) : Option (Rule N J) :=
  (validation.rules.find? fun named => named.1 = name).map Prod.snd

structure FieldDefinition (N J : Type) [JsNumber N] where
  osfType : Text
  unique : Bool
  cardinality : Option (Cardinality Nat)
  validation : Validation N J
  options : Option (List Text)
  classification : J
  unit : Option J
  /-- Its own, and that of its presentation. -/
  currency : Option J × Option J

def isCollection : Option (Cardinality Nat) → Bool
  | some .collection | some (.bounds _ (some .unbounded)) => true
  | some (.bounds _ (some (.atMost max))) => 1 < max
  | _ => false

def FieldDefinition.indexed (definition : FieldDefinition N J) : ExtensionDefinition where
  osfType := definition.osfType
  collection := isCollection definition.cardinality
  staticOptions := definition.options.isSome
  unique := definition.unique

def Rule.value : Rule N J → Option (Scalar N)
  | .plain value | .annotated value _ => some value
  | .structured _ => none

/-- `Number(rule)`; an object is no number, and no list is compared. -/
def Rule.toNumber : Rule N J → N
  | .plain (.number value) => value
  | .plain (.text value) => JsNumber.ofText value
  | .plain (.boolean value) => JsNumber.ofNat (if value then 1 else 0)
  | .annotated .. | .structured _ => JsNumber.ofText (js "[object Object]")

end Definitions

section Changes
variable {N J : Type} [JsNumber N]

def lowerBounds : List Text := [js "min", js "minLength", js "minItems"]

def upperBounds : List Text := [js "max", js "maxLength", js "maxItems"]

def isStricter (name : Text) (previous : Option (Rule N J)) (next : Rule N J) : Bool :=
  match previous with
  | none => true
  | some previous =>
    if name ∈ lowerBounds then !JsNumber.lessEqual next.toNumber previous.toNumber
    else if name ∈ upperBounds then !JsNumber.lessEqual previous.toNumber next.toNumber
    else true

/-- The most values that a field may hold. -/
def highest : Option (Cardinality Nat) → ℕ∞
  | none | some .single => 1
  | some .collection => ⊤
  | some (.bounds _ max) =>
    match max.getD (.atMost 1) with
    | .unbounded => ⊤
    | .atMost max => max

variable [DecidableEq N] [DecidableEq J]

def narrowsRule (was is : Validation N J) (name : Text) : Bool :=
  match is.rule name with
  | none => false
  | some next => was.rule name ≠ some next && isStricter name (was.rule name) next

def narrowingChange (before after : FieldDefinition N J) : Option Text :=
  if before.classification ≠ after.classification then some (js "its classification never changes once the field exists")
  else if before.currency ≠ after.currency then some (js "changing the currency reinterprets every stored amount")
  else if before.unit ≠ after.unit then some (js "changing the unit reinterprets every stored value")
  else
    let names := (before.validation.rules ++ after.validation.rules).map Prod.fst
    match names.find? (narrowsRule before.validation after.validation) with
    | some name => some (js "validation." ++ name ++ js " becomes stricter")
    | none => if highest after.cardinality < highest before.cardinality then some (js "cardinality.max becomes lower") else none

def typeLabel (definition : FieldDefinition N J) : Text :=
  definition.osfType ++ (if isCollection definition.cardinality then js "[]" else []) ++
    (if definition.options.isSome then js " (options)" else [])

def removedOptions (rows : List ExtensionIndexRow) (allowed : List Text) : List Text :=
  (rows.filterMap ExtensionIndexRow.text).dedup.filter fun text => text ∉ allowed

/-- The backfill of a widening change, or why it is refused. Of the values in use outside the
options, the caller is told how many there are and which of them it may see. -/
def typeChange (key : Text) (rows : List ExtensionIndexRow) (shown : List Text → List Text) (before after : FieldDefinition N J) :
    Except Text (Option BackfillOperation) :=
  match narrowingChange before after with
  | some narrowing => .error (key ++ js ": " ++ narrowing ++ js "; create a new field, copy the values and delete this one.")
  | none =>
    if before.osfType = after.osfType ∧ isCollection before.cardinality = isCollection after.cardinality then
      match after.options with
      | none =>
        if before.options.isSome then .error (key ++ js ": removing the options of a field is not a widening change.") else .ok none
      | some allowed =>
        let missing := removedOptions rows allowed
        if missing = [] then .ok (if before.options.isSome then none else some .retype)
        else .error (key ++ js ": " ++ decimal missing.length ++ js " existing value(s) are not among the options" ++
          (if shown missing = [] then js "." else js ": " ++ join (js ", ") (shown missing) ++ js "."))
    else if isCollection before.cardinality = isCollection after.cardinality ∧ before.osfType = js "integer" ∧ after.osfType = js "number" then
      .ok (some .retype)
    else
      .error (key ++ js ": changing " ++ typeLabel before ++ js " to " ++ typeLabel after ++
        js " is not a widening change; create a new field, copy the values and delete this one.")

end Changes

section Numbers
variable {N : Type} [JsNumber N]

def compareExactNumeric (left right : Value N) : Option Int :=
  match exactDecimal left, exactDecimal right with
  | some a, some b =>
    let (scaledLeft, scaledRight) := aligned a b
    some (if scaledLeft = scaledRight then 0 else if scaledLeft < scaledRight then -1 else 1)
  | _, _ => none

def isExactWholeNumber (value : Value N) : Bool :=
  match exactDecimal value with
  | some parsed => parsed.digits % 10 ^ parsed.scale = 0
  | none => false

/-- A comparison that cannot be made counts as one that fails. -/
def isBelow (value : Value N) (minimum : Option (Value N)) : Bool :=
  minimum.any fun minimum => (compareExactNumeric value minimum).all fun comparison => comparison < 0

def isAbove (value : Value N) (maximum : Option (Value N)) : Bool :=
  maximum.any fun maximum => (compareExactNumeric value maximum).all fun comparison => 0 < comparison

structure ExactNumericBounds (N : Type) where
  minimum : Option (Value N)
  maximum : Option (Value N)
  integer : Bool

def exactNumericViolation (value : Value N) (bounds : ExactNumericBounds N) : Option ExactNumericViolation :=
  match exactDecimal value with
  | none => some .notNumeric
  | some _ =>
    if bounds.integer && !isExactWholeNumber value then some .notInteger
    else if isBelow value bounds.minimum then some .belowMinimum
    else if isAbove value bounds.maximum then some .aboveMaximum
    else none

end Numbers

section Admission
variable {N J : Type} [JsNumber N]

/-- What the catalogue gives a type: rules, options, and whether a schema or children of its own
stand in the place of the rules. No type there has a cardinality. -/
structure CatalogType (N J : Type) [JsNumber N] where
  validation : Validation N J
  options : Option (List Text)
  ownSchema : Bool

/-- `{ ...semantic.validation, ...field.validation }`. -/
def resolvedRule (catalog : CatalogType N J) (definition : FieldDefinition N J) (name : Text) : Option (Rule N J) :=
  (definition.validation.rule name).or (catalog.validation.rule name)

def numericRule (rule : Option (Rule N J)) : Option Nat :=
  match rule.bind Rule.value with
  | some (.number value) => JsNumber.toNat? value
  | _ => none

/-- What the source throws at is in no saved definition, and no number compares with it. -/
def exactNumericRule (rule : Option (Rule N J)) : Option (Value N) :=
  (rule.bind Rule.value).map fun
    | .number value => .number value
    | .text value => .text value
    | .boolean value => .boolean value

def isNumericBaseType (baseType : BaseType) : Bool := baseType = .integer || baseType = .number

def fitsBaseType (baseType : BaseType) (item : Value N) : Bool :=
  match baseType, item with
  | .boolean, .boolean _ | .object, .object _ | .string, .text _ => true
  | .integer, .number value => JsNumber.isInteger value
  | .integer, .text value => isIntegerText value
  | .number, .number value => JsNumber.isFinite value
  | .number, .text value => isDecimalText value
  | .date, .text value => isDateText value
  | .datetime, .text value => isDatetimeText N value
  | _, _ => false

def lengthOf (text : Text) : Nat := (characters text).length

/-- The bounds that `constrainedType` puts in the schema, on a text by its length and on a number exactly. -/
def meetsBounds (baseType : BaseType) (rule : Text → Option (Rule N J)) (item : Value N) : Bool :=
  (match item with
    | .text text =>
      ((numericRule (rule (js "minLength"))).all fun min => min ≤ lengthOf text) &&
        (numericRule (rule (js "maxLength"))).all fun max => lengthOf text ≤ max
    | _ => true) &&
  (!isNumericBaseType baseType || exactNumericViolation item {
    minimum := exactNumericRule (rule (js "min"))
    maximum := exactNumericRule (rule (js "max"))
    integer := baseType = .integer } = none)

/-- The closed vocabulary of a field, its own or the catalogue's; an empty one closes nothing. -/
def fieldEnumeration (catalog : CatalogType N J) (definition : FieldDefinition N J) : Option (List Text) :=
  (definition.options.or catalog.options).filter fun allowed => allowed ≠ []

def isAmong (allowed : List Text) : Value N → Bool
  | .text value => value ∈ allowed
  | _ => false

def admitsItem (baseType : BaseType) (catalog : CatalogType N J) (definition : FieldDefinition N J) (item : Value N) : Bool :=
  fitsBaseType baseType item && (catalog.ownSchema || meetsBounds baseType (resolvedRule catalog definition) item) &&
    (fieldEnumeration catalog definition).all fun allowed => isAmong allowed item

def lowest : Option (Cardinality Nat) → Nat
  | some (.bounds min _) => min.getD 0
  | _ => 0

def effectiveMin (catalog : CatalogType N J) (definition : FieldDefinition N J) : Nat :=
  max ((numericRule (resolvedRule catalog definition (js "minItems"))).getD 0) (lowest definition.cardinality)

def admits (entry : Entry) (catalog : Text → CatalogType N J) (definition : FieldDefinition N J) (value : Value N) : Bool :=
  let type := catalog definition.osfType
  let shape := extensionShape entry definition.indexed
  if shape.collection then
    match value with
    | .array items =>
      effectiveMin type definition ≤ items.length && (items.length : ℕ∞) ≤ highest definition.cardinality &&
        items.all (admitsItem shape.baseType type definition)
    | _ => false
  else admitsItem shape.baseType type definition value

end Admission

end OpenShapeForge.Extensions.DefinitionUpdates
