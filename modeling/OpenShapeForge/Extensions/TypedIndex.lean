import OpenShapeForge.Js.Text
import OpenShapeForge.Operations.FieldValues

/-! What a tenant field's definition means for storage and index, and the rows of its value
(apps/api/src/operations/entity/extensions/model.ts). -/

namespace OpenShapeForge.Extensions.TypedIndex
open Js Operations.FieldValues

inductive IndexColumn where
  | text | number | boolean | date | timestamp | ref
deriving DecidableEq

/-- What the index reads of a value as jsonb holds it. -/
class StoredValue (V : Type) where
  isNull : V → Bool
  isTrue : V → Bool
  /-- The elements of an array. -/
  items : V → Option (List V)
  members : V → Option (Text → Option V)
  /-- `String(value)`. -/
  text : V → Text

/-- `String(value)` of a value that is JSON already. -/
def valueText {N : Type} [JsNumber N] : Value N → Text
  | .undefined => js "undefined"
  | .null => js "null"
  | .boolean value => if value then js "true" else js "false"
  | .number value => JsNumber.toText value
  | .text value => value
  | .array items => itemTexts items
  | .date _ | .object _ | .builtin _ => js "[object Object]"
where
  /-- The elements that are not nullish, with a comma after each but the last. -/
  itemTexts : List (Value N) → Text
    | [] => []
    | [item] => if item.isNullish then [] else valueText item
    | item :: rest => (if item.isNullish then [] else valueText item) ++ js "," ++ itemTexts rest

instance jsonValue {N : Type} [JsNumber N] : StoredValue (Value N) where
  isNull := Value.isNullish
  isTrue := Value.isTrue
  items
    | .array items => some items
    | _ => none
  members
    | .object members => some fun key => (members.find? fun member => member.1 = key).map Prod.snd
    | _ => none
  text := valueText

structure ExtensionDefinition where
  osfType : Text
  collection : Bool
  staticOptions : Bool
  unique : Bool
deriving DecidableEq

/-- An extensible entity's entry, with the registries a definition's type is looked up in. -/
structure Entry where
  allowedOsfTypes : List Text
  targets : List Text
  storedFieldBaseType : Text → BaseType
  indexProjection : Text → Option (List (IndexColumn × Text))
  /-- The two numeric primitives are their own base types, and no entity has their names. -/
  integer : storedFieldBaseType (js "integer") = .integer
  number : storedFieldBaseType (js "number") = .number
  primitives : js "integer" ∉ targets ∧ js "number" ∉ targets

structure ExtensionShape where
  baseType : BaseType
  collection : Bool
  reference : Bool
  projection : Option (List (IndexColumn × Text))
  column : IndexColumn
deriving DecidableEq

def extensionShape (entry : Entry) (definition : ExtensionDefinition) : ExtensionShape :=
  let reference := decide (definition.osfType ∈ entry.targets)
  let baseType := if reference then .string else entry.storedFieldBaseType definition.osfType
  let projection := if baseType = .object then entry.indexProjection definition.osfType else none
  { baseType, collection := definition.collection, reference, projection
    column :=
      if reference then .ref
      else match baseType with
        | .string => .text
        | .integer | .number => .number
        | .boolean => .boolean
        | .date => .date
        | .datetime => .timestamp
        | .object => if (projection.getD []).any fun component => component.1 = .number then .number else .text }

structure ExtensionIndexRow where
  ordinal : Nat
  text : Option Text
  number : Option Text
  boolean : Option Bool
  date : Option Text
  timestamp : Option Text
  refId : Option Text
deriving DecidableEq

def ExtensionIndexRow.blank (ordinal : Nat) : ExtensionIndexRow := ⟨ordinal, none, none, none, none, none, none⟩

def ExtensionIndexRow.raw (row : ExtensionIndexRow) : IndexColumn → Option Text
  | .text => row.text
  | .number => row.number
  | .boolean => row.boolean.map fun value => if value then js "true" else js "false"
  | .date => row.date
  | .timestamp => row.timestamp
  | .ref => row.refId

section Rows
variable {V : Type} [StoredValue V]
open StoredValue

def scalarRow (column : IndexColumn) (value : Option V) (row : ExtensionIndexRow) : ExtensionIndexRow :=
  match value with
  | none => row
  | some value =>
    if isNull value then row
    else match column with
      | .text => { row with text := some (text value) }
      | .number => { row with number := some (text value) }
      | .boolean => { row with boolean := some (isTrue value) }
      | .date => { row with date := some (text value) }
      | .timestamp => { row with timestamp := some (text value) }
      | .ref => { row with refId := some (text value) }

def itemRow (shape : ExtensionShape) (item : V) (ordinal : Nat) : Option ExtensionIndexRow :=
  if isNull item then none
  else match shape.projection with
    | some projection => (members item).map fun member =>
        projection.foldl (fun row component => scalarRow component.1 (member component.2) row) (.blank ordinal)
    | none => if shape.baseType = .object then none else some (scalarRow shape.column (some item) (.blank ordinal))

def indexRows (shape : ExtensionShape) (value : Option V) : List ExtensionIndexRow :=
  match value with
  | none => []
  | some value =>
    if isNull value then []
    else
      let items := if shape.collection then (items value).getD [] else [value]
      items.zipIdx.filterMap fun item => itemRow shape item.1 item.2

end Rows

section Types
variable (entry : Entry)

/-- The part of `validateFieldDefinition` that goes by the type of a stored field. -/
def validDefinition (definition : ExtensionDefinition) : Bool :=
  let shape := extensionShape entry definition
  (decide (definition.osfType ∈ entry.allowedOsfTypes) || decide (definition.osfType ∈ entry.targets)) &&
    (!definition.staticOptions || shape.baseType = .string) &&
    (!shape.collection || shape.reference || definition.staticOptions) &&
    (shape.baseType ≠ .object || shape.projection.isSome) &&
    (!definition.unique || (!shape.collection && shape.baseType ≠ .boolean && shape.baseType ≠ .object))

inductive BackfillOperation where
  | retype | delete | unique | rebuild
deriving DecidableEq

end Types

end OpenShapeForge.Extensions.TypedIndex
