import OpenShapeForge.Extensions.LinkedResolution
import OpenShapeForge.Extensions.TypedIndex
import OpenShapeForge.Js.Unicode
import OpenShapeForge.Operations.FieldVariables

/-! Filters on one tenant field, and what its write path stores and its readers see
(apps/api/src/operations/entity/extensions: query.ts, write.ts, read.ts, model.ts;
apps/api/src/platform/structured-filter.ts). -/

namespace OpenShapeForge.Extensions.FieldFilters
open Js TypedIndex Operations.FieldValues
open Operations.FieldVariables (sameValueZero)
open LinkedResolution (isCalendarDate)

section Operators
variable {N : Type} [JsNumber N]

inductive QueryKind where
  | text | number | boolean | date | timestamp
deriving DecidableEq

/-- A reference is compared by the text of its id. -/
def kindOf : IndexColumn → QueryKind
  | .text | .ref => .text
  | .number => .number
  | .boolean => .boolean
  | .date => .date
  | .timestamp => .timestamp

/-- `Number(value)`. -/
def toNumber : Value N → N
  | .number value => value
  | .boolean value => JsNumber.ofNat (if value then 1 else 0)
  | .null => JsNumber.ofNat 0
  | value => JsNumber.ofText (valueText value)

/-- The sign of `a - b`. -/
def signOfDifference (a b : N) : Int :=
  let difference := JsNumber.add a (JsNumber.neg b)
  if JsNumber.less difference (JsNumber.ofNat 0) then -1 else if JsNumber.less (JsNumber.ofNat 0) difference then 1 else 0

/-- The difference of two numbers, where both are finite. -/
def finiteOrder (a b : N) : Option Int :=
  if JsNumber.isFinite a && JsNumber.isFinite b then some (signOfDifference a b) else none

def textOrder (a b : Text) : Int := if textLess a b then -1 else if textLess b a then 1 else 0

/-- How a value stands to an operand, or nothing where the two do not compare. -/
def order (kind : QueryKind) (left right : Value N) : Option Int :=
  match kind with
  | .number => finiteOrder (toNumber left) (toNumber right)
  | .timestamp => finiteOrder (JsNumber.timeOfText (valueText left) : N) (JsNumber.timeOfText (valueText right))
  | .boolean =>
    match left, right with
    | .boolean a, .boolean b => if a = b then some 0 else none
    | _, _ => none
  | .date =>
    match left, right with
    | .text a, .text b => if isCalendarDate b then some (textOrder a b) else none
    | _, _ => none
  | .text =>
    match left, right with
    | .text a, .text b => some (textOrder a b)
    | _, _ => none

variable [Unicode]

def scalarSatisfies (kind : QueryKind) (operator : Text) (operand value : Value N) : Bool :=
  if value.isNullish then operator = js "isNull" && operand.isTrue
  else
    let compared := order kind value operand
    if operator = js "isNull" then
      match operand with
      | .boolean isNull => !isNull
      | _ => false
    else if operator = js "eq" then compared = some 0
    else if operator = js "ne" then compared.any fun sign => sign ≠ 0
    else if operator = js "gt" then compared.any fun sign => 0 < sign
    else if operator = js "gte" then compared.any fun sign => 0 ≤ sign
    else if operator = js "lt" then compared.any fun sign => sign < 0
    else if operator = js "lte" then compared.any fun sign => sign ≤ 0
    else if operator = js "in" then
      match operand with
      | .array operands => operands.any fun item => order kind value item = some 0
      | _ => false
    else if operator = js "contains" then
      match value, operand with
      | .text value, .text part => decide (Unicode.toLowerCase part <:+: Unicode.toLowerCase value)
      | _, _ => false
    else if operator = js "startsWith" then
      match value, operand with
      | .text value, .text part => decide (Unicode.toLowerCase part <+: Unicode.toLowerCase value)
      | _, _ => false
    else false

end Operators

section StructuredFilter
variable {N : Type} [JsNumber N]

/-- `/^-?[0-9]+(?:\.[0-9]+)?$/`. -/
def isNumericOperand (text : Text) : Bool :=
  match (unsignedPart text).splitOn (unit '.') with
  | [integer] => integer ≠ [] && integer.all isDigit
  | [integer, fraction] => integer ≠ [] && integer.all isDigit && fraction ≠ [] && fraction.all isDigit
  | _ => false

def checkOperand (kind : QueryKind) (input : Value N) : Except Text Unit :=
  match kind, input with
  | .boolean, .boolean _ => .ok ()
  | .boolean, _ => .error (js "Invalid boolean filter.")
  | .number, .number value => if JsNumber.isFinite value then .ok () else .error (js "Invalid numeric filter.")
  | .number, .text text => if isNumericOperand text then .ok () else .error (js "Invalid numeric filter.")
  | .number, _ => .error (js "Invalid numeric filter.")
  | kind, .text text =>
    if 2000 < text.length then .error (js "Invalid filter value.")
    else if kind = .date ∧ isCalendarDate text = false then .error (js "A date filter takes a date (YYYY-MM-DD).")
    else if kind = .timestamp ∧ JsNumber.isFinite (JsNumber.timeOfText text : N) = false then .error (js "Invalid timestamp filter.")
    else .ok ()
  | _, _ => .error (js "Invalid filter value.")

/-- What `structuredFilter` refuses of one operator. -/
def checkOperator (kind : QueryKind) (operator : Text) (input : Value N) : Except Text Unit :=
  if operator = js "isNull" then
    match input with
    | .boolean _ => .ok ()
    | _ => .error (js "Invalid null filter.")
  else if operator = js "in" then
    match input with
    | .array inputs =>
      if inputs = [] ∨ 100 < inputs.length then .error (js "Invalid membership filter.") else inputs.forM (checkOperand kind)
    | _ => .error (js "Invalid membership filter.")
  else if operator ∈ [js "eq", js "ne", js "gt", js "gte", js "lt", js "lte"] then checkOperand kind input
  else if kind = .text ∧ (operator = js "contains" ∨ operator = js "startsWith") then
    match input with
    | .text text => if 500 < text.length then .error (js "Invalid text filter.") else .ok ()
    | _ => .error (js "Invalid text filter.")
  else .error (js "Unsupported filter operator.")

/-- A probe of the index rows of a field: its column is not null and satisfies every operator, in its unit. -/
structure Probe (N : Type) where
  column : IndexColumn
  operators : Members N
  unit : Option Text

def structuredFilter (column : IndexColumn) (operators : Members N) (unit : Option Text) : Except Text (Probe N) := do
  if operators.isEmpty then .error (js "Unknown filter field or invalid predicate.") else .ok ()
  operators.forM fun operator => checkOperator (kindOf column) operator.1 operator.2
  .ok { column, operators, unit }

end StructuredFilter

section Fields
variable {N : Type} [JsNumber N]

def componentOf (projection : List (IndexColumn × Text)) (column : IndexColumn) : Option Text :=
  (projection.find? fun component => component.1 = column).map Prod.snd

def memberOf (value : Value N) (name : Text) : Value N := (((StoredValue.members value).bind fun member => member name).getD .undefined)

/-- Whether a scalar is of the type that a column indexes; a number may be given as decimal text. -/
def fitsColumn (column : IndexColumn) (value : Value N) : Bool :=
  match column, value with
  | .number, .number value => JsNumber.isFinite value
  | .number, .text value => isDecimalText value
  | .boolean, .boolean _ => true
  | .text, .text _ | .date, .text _ | .timestamp, .text _ | .ref, .text _ => true
  | _, _ => false

/-- Whether a value is of the type of a field; the components of an indexed object are required. -/
def fitsItem (shape : ExtensionShape) (item : Value N) : Bool :=
  match shape.projection with
  | some projection =>
    match item with
    | .object _ => projection.all fun component => fitsColumn component.1 (memberOf item component.2)
    | _ => false
  | none => fitsColumn shape.column item

def fitsValue (shape : ExtensionShape) (value : Value N) : Bool :=
  if shape.collection then
    match value with
    | .array items => items.all (fitsItem shape)
    | _ => false
  else fitsItem shape value

structure StoredField (entry : Entry) (N : Type) [JsNumber N] where
  definition : ExtensionDefinition
  valid : validDefinition entry definition = true
  required : Bool
  appliesWhen : Bool
  defaultValue : Option (Value N)
  fits : ∀ value, defaultValue = some value → fitsValue (extensionShape entry definition) value = true
  /-- Every typed column of an object has a component of its own. -/
  components : ∀ projection, (extensionShape entry definition).projection = some projection →
    (projection.map Prod.fst).Nodup ∧ (projection.map Prod.snd).Nodup

variable {entry : Entry}

def StoredField.shape (field : StoredField entry N) : ExtensionShape := extensionShape entry field.definition

/-- Decimal text as the number it is, where one holds it exactly. -/
def numberOf (item : Value N) : Value N :=
  match item with
  | .text text =>
    if trim text = [] ∨ JsNumber.isNaN (JsNumber.ofText text : N) = true then item
    else if exactNumericEquals item (.number (JsNumber.ofText text)) then .number (JsNumber.ofText text)
    else item
  | _ => item

/-- The decimal texts that no number holds exactly. -/
def isUnrepresentable (item : Value N) : Bool :=
  match item with
  | .text text =>
    trim text ≠ [] && !JsNumber.isNaN (JsNumber.ofText text : N) && !exactNumericEquals item (.number (JsNumber.ofText text))
  | _ => false

def isNumeric (shape : ExtensionShape) : Bool := shape.baseType = .integer || shape.baseType = .number

def numericComponent (shape : ExtensionShape) : Option Text := shape.projection.bind fun projection => componentOf projection .number

def numericValue (shape : ExtensionShape) (value : Value N) : Value N :=
  if isNumeric shape then numberOf value
  else match numericComponent shape, value with
    | some component, .object members =>
      .object (members.map fun member => if member.1 = component then (member.1, numberOf member.2) else member)
    | _, value => value

def unrepresentable (shape : ExtensionShape) (value : Value N) : Bool :=
  if isNumeric shape then isUnrepresentable value
  else (numericComponent shape).any fun component => isUnrepresentable (memberOf value component)

def readValue (field : StoredField entry N) (stored : Option (Value N)) (applicable : Bool) : Value N :=
  numericValue field.shape (stored.getD (if applicable then field.defaultValue.getD .null else .null))

end Fields

section Writes
variable {N : Type} [JsNumber N] {entry : Entry}

inductive WriteOperation where
  | create | update
deriving DecidableEq

def blank : Option (Value N) → Bool
  | none | some .undefined | some .null => true
  | some (.text text) => text = []
  | some (.array items) => items.isEmpty
  | some _ => false

/-- What a write leaves of one field that applies to every record, or nothing where it is refused.
A value that is left out stays, and null takes it away. -/
def writeValue (field : StoredField entry N) (operation : WriteOperation) (before supplied : Option (Value N)) : Option (Option (Value N)) :=
  let prepared : Option (Option (Value N)) :=
    match supplied with
    | none | some .undefined => some before
    | some .null => some none
    | some value =>
      if fitsValue field.shape value = true ∧ unrepresentable field.shape value = false then some (some (numericValue field.shape value)) else none
  prepared.bind fun after =>
    let settled := if blank after ∧ operation = .create then (field.defaultValue.map (numericValue field.shape)).or after else after
    if field.required = true ∧ (supplied.isSome = true ∨ operation = .create) ∧ blank settled = true then none else some settled

/-- What the writes of a record can leave of a field, from before the field existed on. -/
inductive LeftBehind (field : StoredField entry N) : Option (Value N) → Prop where
  | absent : LeftBehind field none
  | create {supplied after : Option (Value N)} : writeValue field .create none supplied = some after → LeftBehind field after
  | update {before supplied after : Option (Value N)} : LeftBehind field before → writeValue field .update before supplied = some after →
      LeftBehind field after

end Writes

section Filters
variable {N : Type} [JsNumber N] {entry : Entry}

inductive Condition (N : Type) where
  | constant (holds : Bool)
  /-- Some row of the field, which satisfies the probe if there is one. -/
  | indexed (probe : Option (Probe N))
  | not (condition : Condition N)
  | or (first second : Condition N)

structure RankedCondition (N : Type) where
  rank : Nat
  key : Text
  condition : Condition N

def operandOf (predicate : Members N) (operator : Text) : Option (Value N) :=
  (predicate.find? fun named => named.1 = operator).map Prod.snd

def filterableDefault (field : StoredField entry N) : Option (Value N) := if field.appliesWhen then none else field.defaultValue

def probe (fallback : Option (Value N)) (stored : Condition N) (defaultMatches : Bool) : Condition N :=
  if fallback.isSome && defaultMatches then .or stored (.not (.indexed none)) else stored

def isHexDigit (c : CodeUnit) : Bool := isDigit c || (97 ≤ c && c ≤ 102) || (65 ≤ c && c ≤ 70)

def isUuid (text : Text) : Bool :=
  (text.splitOn (unit '-')).map List.length = [8, 4, 4, 4, 12] && (text.splitOn (unit '-')).all fun part => part.all isHexDigit

def assertReferencePredicate (key : Text) (predicate : Members N) : Except Text Unit :=
  predicate.forM fun named =>
    if named.1 = js "contains" ∨ named.1 = js "startsWith" then
      .error (js "extensions." ++ key ++ js " is a reference; compare it by record id (eq, ne, in, isNull).")
    else
      let operands := match decide (named.1 = js "in"), named.2 with
        | true, .array items => items
        | _, operand => [operand]
      let isId : Value N → Bool := fun
        | .text text => isUuid text
        | _ => false
      if named.1 ≠ js "isNull" ∧ operands.all isId = false then
        .error (js "extensions." ++ key ++ js " is a reference; its filter values are record ids.")
      else .ok ()

def extensionPredicateRank (shape : ExtensionShape) (operators : List Text) : Nat :=
  let has (names : List Text) : Bool := names.any fun name => name ∈ operators
  if shape.collection then if js "contains" ∈ operators then 0 else 6
  else if shape.column = .boolean then if has [js "eq", js "in"] then 4 else 5
  else if has [js "eq", js "in"] then 0
  else if (has [js "gt", js "gte"] && has [js "lt", js "lte"]) || has [js "startsWith"] then 1
  else if has [js "gt", js "gte", js "lt", js "lte"] then 2
  else if has [js "contains"] then 3
  else 5

structure CompoundPredicate (N : Type) where
  number : Text
  unit : Text
  operators : Members N
  value : Text

/-- `{ value: { <operator>: … }, unit: { eq: … } }`, once `isNull` is taken off. -/
def compoundPredicate (key : Text) (projection : List (IndexColumn × Text)) (predicate : Members N) : Except Text (CompoundPredicate N) :=
  let refused : Except Text (CompoundPredicate N) := .error (js "extensions." ++ key ++ js " is a measurement; filter it as \x7b " ++
    (componentOf projection .number).getD (js "value") ++ js ": \x7b <operator>: … \x7d, " ++ (componentOf projection .text).getD (js "unit") ++
    js ": \x7b eq: \"<unit>\" \x7d \x7d.")
  match componentOf projection .number, componentOf projection .text with
  | some number, some unit =>
    match operandOf predicate number, operandOf predicate unit with
    | some (.object operators), some (.object [(equals, .text value)]) =>
      if (predicate.all fun named => named.1 = number || named.1 = unit) && !operators.isEmpty && equals = js "eq" then
        .ok { number, unit, operators, value }
      else refused
    | _, _ => refused
  | _, _ => refused

variable [Unicode]

def nullConditions (key : Text) (fallback : Option (Value N)) (predicate : Members N) : Except Text (List (RankedCondition N)) :=
  match operandOf predicate (js "isNull") with
  | none => .ok []
  | some (.boolean isNull) =>
    let condition : Condition N :=
      if fallback.isSome then .constant (!isNull) else if isNull then .not (.indexed none) else .indexed none
    .ok [{ rank := if isNull then 6 else 5, key, condition }]
  | some _ => .error (js "Invalid null filter.")

def compoundConditions (key : Text) (shape : ExtensionShape) (projection : List (IndexColumn × Text)) (fallback : Option (Value N))
    (predicate : Members N) : Except Text (List (RankedCondition N)) :=
  if predicate.isEmpty then .ok []
  else do
    let compound ← compoundPredicate key projection predicate
    let stored ← structuredFilter shape.column compound.operators (some compound.value)
    let defaultMatches := fallback.any fun value =>
      sameValueZero (memberOf value compound.unit) (.text compound.value) &&
        compound.operators.all fun named => scalarSatisfies .number named.1 named.2 (memberOf value compound.number)
    let rank := extensionPredicateRank shape (compound.operators.map Prod.fst)
    .ok [{ rank, key, condition := probe fallback (.indexed (some stored)) defaultMatches }]

/-- One index row for an element: `contains x` is "some element equals x". -/
def collectionConditions (key : Text) (shape : ExtensionShape) (fallback : Option (Value N)) (predicate : Members N) :
    Except Text (List (RankedCondition N)) :=
  match operandOf predicate (js "contains") with
  | none => .ok []
  | some operand => do
    let stored ← structuredFilter shape.column [(js "eq", operand)] none
    let defaultMatches := fallback.any fun value => ((StoredValue.items value).getD []).any fun item => sameValueZero item operand
    let rank := extensionPredicateRank shape [js "contains"]
    .ok [{ rank, key, condition := probe fallback (.indexed (some stored)) defaultMatches }]

def scalarConditions (key : Text) (shape : ExtensionShape) (fallback : Option (Value N)) (predicate : Members N) :
    Except Text (List (RankedCondition N)) :=
  if predicate.isEmpty then .ok []
  else do
    let stored ← structuredFilter shape.column predicate none
    let defaultMatches := fallback.any fun value => predicate.all fun named => scalarSatisfies (kindOf shape.column) named.1 named.2 value
    let rank := extensionPredicateRank shape (predicate.map Prod.fst)
    .ok [{ rank, key, condition := probe fallback (.indexed (some stored)) defaultMatches }]

def valueConditions (key : Text) (shape : ExtensionShape) (fallback : Option (Value N)) (predicate : Members N) :
    Except Text (List (RankedCondition N)) :=
  match shape.projection with
  | some projection => compoundConditions key shape projection fallback predicate
  | none => if shape.collection then collectionConditions key shape fallback predicate else scalarConditions key shape fallback predicate

def checkReferences (key : Text) (shape : ExtensionShape) (predicate : Members N) : Except Text Unit :=
  if shape.column = .ref then
    match shape.collection, operandOf predicate (js "contains") with
    | true, some operand => assertReferencePredicate key [(js "eq", operand)]
    | _, _ => assertReferencePredicate key predicate
  else .ok ()

def fieldConditions (key : Text) (field : StoredField entry N) (predicate : Members N) : Except Text (List (RankedCondition N)) := do
  checkReferences key field.shape predicate
  let nulls ← nullConditions key (filterableDefault field) predicate
  let values ← valueConditions key field.shape (filterableDefault field) (predicate.filter fun named => named.1 ≠ js "isNull")
  .ok (nulls ++ values)

def extensionFilterCondition (filter : List (Text × StoredField entry N × Members N)) : Except Text (List (RankedCondition N)) := do
  let conditions ← filter.mapM fun named => fieldConditions named.1 named.2.1 named.2.2
  .ok (conditions.flatten.insertionSort fun left right => left.rank < right.rank ∨ (left.rank = right.rank ∧ textLess right.key left.key = false))

/-- The guard before any filter of a field: it has an operator, and a field of several values only `contains`. -/
def assertExtensionQueryAllowed (shape : ExtensionShape) (predicate : Members N) : Bool :=
  !predicate.isEmpty && (!shape.collection || predicate.all fun named => named.1 = js "contains")

def columnValue (row : ExtensionIndexRow) : IndexColumn → Option (Value N)
  | .text => row.text.map .text
  | .number => row.number.map fun text => .number (JsNumber.ofText text)
  | .boolean => row.boolean.map .boolean
  | .date => row.date.map .text
  | .timestamp => row.timestamp.map .text
  | .ref => row.refId.map .text

def Probe.holds (probe : Probe N) (row : ExtensionIndexRow) : Bool :=
  (columnValue row probe.column : Option (Value N)).any fun value =>
    (probe.operators.all fun named => scalarSatisfies (kindOf probe.column) named.1 named.2 value) &&
      probe.unit.all fun unit => row.text = some unit

def Condition.holds (rows : List ExtensionIndexRow) : Condition N → Bool
  | .constant holds => holds
  | .indexed probe => rows.any fun row => probe.all fun probe => probe.holds row
  | .not condition => !condition.holds rows
  | .or first second => first.holds rows || second.holds rows

def matchesRecord (rows : Text → List ExtensionIndexRow) (conditions : List (RankedCondition N)) : Bool :=
  conditions.all fun ranked => ranked.condition.holds (rows ranked.key)

end Filters

section Seen
variable {N : Type} [JsNumber N] [Unicode]

def satisfiesOperator (shape : ExtensionShape) (seen : Value N) (named : Text × Value N) : Bool :=
  if named.1 = js "isNull" then
    match named.2 with
    | .boolean isNull => seen.isNullish = isNull
    | _ => false
  else
    match shape.projection with
    | some projection =>
      -- One component of an object: the number by every operator, the unit by its text.
      match named.2 with
      | .object operators =>
        let kind := if componentOf projection .number = some named.1 then QueryKind.number else .text
        operators.all fun operator => scalarSatisfies kind operator.1 operator.2 (memberOf seen named.1)
      | _ => false
    | none =>
      if shape.collection then named.1 = js "contains" && ((StoredValue.items seen).getD []).any fun item => sameValueZero item named.2
      else scalarSatisfies (kindOf shape.column) named.1 named.2 seen

def satisfies (shape : ExtensionShape) (predicate : Members N) (seen : Value N) : Bool := predicate.all (satisfiesOperator shape seen)

end Seen

end OpenShapeForge.Extensions.FieldFilters
