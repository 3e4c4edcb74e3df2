import Mathlib.Logic.Function.Basic
import OpenShapeForge.Operations.FieldValues

/-! Values typed by the definition stored beside them: how a write of either half is checked, sealed and
projected (apps/api/src/operations/entity/typed-values.ts, entity-value-io.ts). -/

namespace OpenShapeForge.Operations.TypedValues
open Js FieldValues

section Metadata
variable (N : Type)

structure TypedBy where
  definitionField : Text
  definitionColumn : Text
  documentColumn : Option Text
  encrypted : Bool

structure Column where
  name : Text
  /-- `fieldNameForColumn` -/
  field : Text
  isUuid : Bool
  required : Bool
  /-- What the database stores where an insert leaves the column out. -/
  default : Option (Value N)
  typedBy : Option TypedBy

/-- The values of a row or of a write, by the names of their columns. -/
abbrev Cells := Text → Option (Value N)

structure Table where
  schema : Text
  table : Text
  columns : List (Column N)
  primaryKey : Text
  tenantScoped : Bool

structure Pair where
  value : Column N
  definition : Column N
  typed : TypedBy

structure Violation where
  field : Text
  code : Text
deriving DecidableEq

structure Failure where
  code : Text
  message : Text
  violations : List Violation
deriving DecidableEq

structure Platform (Schema Nonce : Type) where
  osfTypes : List (Text × Value N)
  /-- `String(value)` -/
  string : Value N → Text
  /-- `generatedRuntimeFieldSchemas.object([definition])` -/
  object : Value N → Option Schema
  /-- `runtimeJsonSchemas.validate`: the violations' codes, of a value or of an absent one that does not satisfy the schema. -/
  validate : Schema → Option (Value N) → Option (List Text)
  encryptSecret : Nonce → Text → Text → Text → Except Failure (Members N)
  decryptSecret : Text → Text → Members N → Except Failure Text
  applyDocumentContentDraft : Value N → Value N → Except Failure (Value N)
  /-- The document is visible, may be viewed and satisfies the content policy. -/
  assertDocument : Value N → Value N → Except Failure Unit

end Metadata

variable {N Schema Nonce : Type} [JsNumber N]

def SECRET_SET_SENTINEL : Text := js "__set__"

def generatedCrudError (message code : Text) : Failure := ⟨code, message, []⟩

def member (value : Value N) (key : Text) : Value N := (value.own? key).getD .undefined

def isText (value : Value N) (text : Text) : Bool :=
  match value with
  | .text other => decide (other = text)
  | _ => false

def isDefined : Value N → Bool
  | .undefined => false
  | _ => true

def cell (cells : Cells N) (name : Text) : Value N := (cells name).getD .undefined

def typedValueColumns (table : Table N) : Except Failure (List (Pair N)) := do
  let pairs ← table.columns.mapM fun value =>
    match value.typedBy with
    | none => Except.ok none
    | some typed =>
      match table.columns.find? fun candidate => candidate.name = typed.definitionColumn with
      | some definition =>
        if definition.field = typed.definitionField then .ok (some ⟨value, definition, typed⟩)
        else .error (generatedCrudError (js "Typed-value definition metadata does not match its table.") (js "INVALID_DEFINITION"))
      | none => .error (generatedCrudError (js "Typed-value definition metadata does not match its table.") (js "INVALID_DEFINITION"))
  return pairs.filterMap id

section Definitions

def hasDeferredValueDefinition : Value N → Bool
  | .object members =>
    isText (member (.object members) (js "osfType")) (js "typedValue") || isDefined (member (.object members) (js "typedBy")) ||
      anyMember members
  | _ => false
where
  anyMember : List (Text × Value N) → Bool
    | [] => false
    | (key, .array items) :: rest => ((key = js "children" ∨ key = js "shape") && anyItem items) || anyMember rest
    | (key, value) :: rest => (key = js "item" && hasDeferredValueDefinition value) || anyMember rest
  anyItem : List (Value N) → Bool
    | [] => false
    | item :: rest => hasDeferredValueDefinition item || anyItem rest

def policyKeys : List Text := [js "classification", js "authorization", js "permissions", js "writtenBy", js "secureInput"]

/-- `assertEntityValueFieldPolicy` of a field at a depth, with the depths that are left: 32 below the root. -/
def fieldPolicy (osfTypes : List (Text × Value N)) : Nat → Bool → Value N → Bool
  | 0, _, _ => false
  | remaining + 1, nested, field =>
    match field.isObject, member field (js "osfType") with
    | true, .text osfType =>
      let semantic := if isBaseType osfType then none else (osfTypes.find? fun entry => entry.1 = osfType).map Prod.snd
      let inherited key := (semantic.map fun value => member value key).getD .undefined
      let entity := isText (inherited (js "kind")) (js "entity")
      let nodes := field :: (if entity then [] else semantic.toList)
      (isBaseType osfType || semantic.isSome) && semantic.all Value.isObject &&
        !(nested && (isDefined (member field (js "relationship")) || entity)) &&
        policyKeys.all (fun key => !isDefined (member field key) && !isDefined (inherited key)) &&
        !(member field (js "immutable")).isTrue && !(inherited (js "immutable")).isTrue &&
        nodes.all fun node =>
          ([js "children", js "shape"].all fun key =>
            match member node key with
            | .undefined => true
            | .array items => items.all fun child => child.isObject && fieldPolicy osfTypes remaining true child
            | _ => false) &&
          match member node (js "item") with
          | .undefined => true
          | item => item.isObject && fieldPolicy osfTypes remaining true item
    | _, _ => false

def secretDefinition (definition : Value N) : Bool :=
  isText (member (member definition (js "classification")) (js "sensitivity")) (js "confidential")

def withoutClassification : Value N → Value N
  | .object members => .object (members.filter fun entry => entry.1 ≠ js "classification")
  | other => other

def documentPolicyKeys : List Text :=
  policyKeys ++ [js "immutable", js "children", js "item", js "shape"]

variable (platform : Platform N Schema Nonce)

/-- What the try block of `assertTypedDefinitionSupported` gets through. -/
def definitionSupported (definition : Value N) (field : Text) (policy : TypedBy) : Bool :=
  if isText (member definition (js "osfType")) (js "Document") && policy.documentColumn.isSome then
    let document := member definition (js "document")
    document.isObject && [js "file", js "blocks"].contains (platform.string (member document (js "content"))) &&
      documentPolicyKeys.all (fun key => !isDefined (member definition key)) && !hasDeferredValueDefinition definition
  else
    let checked :=
      if policy.encrypted && isText (member definition (js "osfType")) (js "string") && secretDefinition definition then
        withoutClassification definition
      else definition
    fieldPolicy platform.osfTypes 33 false
        (.object [(js "key", .text field), (js "osfType", .text (js "object")), (js "children", .array [checked])]) &&
      !hasDeferredValueDefinition definition

inductive Origin where
  | submitted | stored
deriving DecidableEq

def assertTypedDefinitionSupported (definition : Value N) (field : Text) (origin : Origin) (policy : TypedBy) : Except Failure Unit :=
  if definitionSupported platform definition field policy then .ok ()
  else match origin with
    | .submitted => .error (generatedCrudError (field ++ js " cannot be typed by this definition.") (js "BAD_USER_INPUT"))
    | .stored => .error (generatedCrudError (js "The stored type of " ++ field ++ js " is not a value type this runtime can protect.")
        (js "INVALID_DEFINITION"))

end Definitions

section Writes
variable (platform : Platform N Schema Nonce)

def validation (message field code : Text) : Failure := ⟨js "VALIDATION", message, [⟨field, code⟩]⟩

/-- One pair of `assertTypedValuesValid`; `values` is by field. -/
def assertPairValid (values : Cells N) (current : Option (Cells N)) (pair : Pair N) : Except Failure Unit :=
  let valueField := pair.value.field
  let definitionField := pair.definition.field
  let stored := (values definitionField).getD (cell (current.getD fun _ => none) pair.definition.name)
  let candidate := (values valueField).getD (cell (current.getD fun _ => none) pair.value.name)
  if (values valueField).isNone && (values definitionField).isNone then .ok ()
  else if stored.isObject = false then
    .error (validation (definitionField ++ js " must be a field definition.") definitionField (js "INVALID_TYPE"))
  else if isText (member stored (js "key")) valueField = false then
    .error (validation (definitionField ++ js " must describe " ++ valueField ++ js ".") definitionField (js "INVALID_VALUE"))
  else match platform.object stored with
    | none => .error (validation (definitionField ++ js " must be a valid field definition.") definitionField (js "INVALID_TYPE"))
    | some schema => do
      assertTypedDefinitionSupported platform stored definitionField
        (if (values definitionField).isSome then .submitted else .stored) pair.typed
      if candidate.isNullish && pair.value.required then
        .error (validation (valueField ++ js " is required.") valueField (js "REQUIRED"))
      else match platform.validate schema (if candidate.isNullish then none else some candidate) with
        | none => .ok ()
        | some codes => .error ⟨js "VALIDATION", valueField ++ js " does not satisfy the type its definition declares.",
            codes.map fun code => ⟨valueField, code⟩⟩

def assertTypedValuesValid (pairs : List (Pair N)) (values : Cells N) (current : Option (Cells N)) : Except Failure Unit :=
  pairs.forM (assertPairValid platform values current)

/-- What a write holds while its pairs are worked off: what it will store, and the row that it is checked against. -/
structure Draft (N : Type) where
  output : Cells N
  current : Option (Cells N)

def Draft.set (draft : Draft N) (name : Text) (value : Value N) : Draft N :=
  { draft with output := Function.update draft.output name (some value) }

def Draft.check (draft : Draft N) (name : Text) (value : Value N) : Draft N :=
  { draft with current := draft.current.map fun row => Function.update row name (some value) }

def definitionOf (output : Cells N) (current : Option (Cells N)) (pair : Pair N) : Value N :=
  (output pair.definition.name).getD (cell (current.getD fun _ => none) pair.definition.name)

def secretScope (table : Table N) (tenantId id : Text) : Text :=
  tenantId ++ js ":" ++ table.schema ++ js "." ++ table.table ++ js ":" ++ id

def isDocument (definition : Value N) : Bool := isText (member definition (js "osfType")) (js "Document")

def applyDraft (current : Option (Cells N)) (pair : Pair N) (stored : Value N) (draft : Draft N) : Except Failure (Draft N) :=
  match pair.typed.documentColumn, isDocument stored && (cell draft.output pair.value.name).isObject with
  | some carrier, true =>
    match current, isText (member (member stored (js "document")) (js "content")) (js "blocks") with
    | some row, true => do
      let drafted ← platform.applyDocumentContentDraft (cell row carrier) (cell draft.output pair.value.name)
      return draft.set pair.value.name drafted
    | _, _ => .error (generatedCrudError (js "This field does not accept a blocks draft.") (js "BAD_USER_INPUT"))
  | _, _ => .ok draft

def checkCarrier (current : Option (Cells N)) (pair : Pair N) (stored : Value N) (draft : Draft N) : Draft N :=
  match pair.typed.documentColumn, isDocument stored with
  | some carrier, true => draft.check pair.value.name (((current.bind fun row => row carrier)).getD .null)
  | _, _ => draft

def openSecret (scope : Text) (current : Option (Cells N)) (pair : Pair N) (stored : Value N) (draft : Draft N) :
    Except Failure (Draft N) :=
  let name := pair.value.name
  let repeated := isText (cell draft.output name) SECRET_SET_SENTINEL
  if pair.typed.encrypted && secretDefinition stored then
    match cell (current.getD fun _ => none) name with
    | .object members => do
      let plaintext ← platform.decryptSecret scope name members
      let draft := draft.check name (.text plaintext)
      return if repeated then draft.set name (.text plaintext) else draft
    | _ => if repeated then .error (generatedCrudError (js "This secret has not been set.") (js "BAD_USER_INPUT")) else .ok draft
  else .ok draft

/-- What stands before the plaintext is checked. -/
def openPair (scope : Text) (current : Option (Cells N)) (pair : Pair N) (draft : Draft N) : Except Failure (Draft N) := do
  let stored := definitionOf draft.output current pair
  let draft ← applyDraft platform current pair stored draft
  openSecret platform scope current pair stored (checkCarrier current pair stored draft)

def storeDocument (table : Table N) (current : Option (Cells N)) (pair : Pair N) (stored : Value N) (draft : Draft N) :
    Except Failure (Draft N) :=
  match pair.typed.documentColumn.filter fun carrier => table.columns.any fun column => column.name = carrier with
  | none => .error (generatedCrudError (js "A Document carrier is required.") (js "INVALID_DEFINITION"))
  | some carrier => do
    let target := (draft.output pair.value.name).getD (cell (current.getD fun _ => none) carrier)
    if target.isNullish then return (draft.set carrier .null).set pair.value.name .null
    platform.assertDocument (member stored (js "document")) target
    return (draft.set carrier target).set pair.value.name .null

def sealSecret (nonce : Nonce) (scope : Text) (current : Option (Cells N)) (pair : Pair N) (stored : Value N) (draft : Draft N) :
    Except Failure (Draft N) :=
  let name := pair.value.name
  if pair.typed.encrypted && secretDefinition stored && !(cell draft.output name).isNullish then
    match cell draft.output name with
    | .text plaintext =>
      let existing := cell (current.getD fun _ => none) name
      if existing.isObject && isText (cell (draft.current.getD fun _ => none) name) plaintext then .ok (draft.set name existing)
      else do
        let envelope ← platform.encryptSecret nonce scope name plaintext
        return draft.set name (.object envelope)
    | _ => .error (generatedCrudError (js "A secret must be text.") (js "BAD_USER_INPUT"))
  else .ok draft

def clearCarrier (pair : Pair N) (draft : Draft N) : Draft N :=
  match pair.typed.documentColumn with
  | some carrier => draft.set carrier .null
  | none => draft

def sealPair (nonce : Nonce) (table : Table N) (scope : Text) (current : Option (Cells N)) (pair : Pair N) (draft : Draft N) :
    Except Failure (Draft N) :=
  let stored := definitionOf draft.output current pair
  if (draft.output pair.value.name).isNone && (draft.output pair.definition.name).isNone then .ok draft
  else if isDocument stored then storeDocument platform table current pair stored draft
  else sealSecret platform nonce scope current pair stored (clearCarrier pair draft)

def authored (table : Table N) (output : Cells N) : Cells N := fun field =>
  (table.columns.find? fun column => column.field = field).bind fun column => output column.name

def givenId (table : Table N) (input : Cells N) (current : Option (Cells N)) : Option Text :=
  match (current.bind fun row => row table.primaryKey).getD (cell input table.primaryKey) with
  | .text id => if id = [] then none else some id
  | _ => none

/-- What the pairs are worked off from: a record without an id is given one. -/
def identified (table : Table N) (pairs : List (Pair N)) (fresh : Text) (input : Cells N) (current : Option (Cells N)) : Cells N :=
  if (pairs.any fun pair => pair.typed.encrypted) && (givenId table input current).isNone then
    Function.update input table.primaryKey (some (.text fresh))
  else input

def prepareTypedValueWrite (tenantId : Text) (fresh : Text) (nonces : Text → Nonce) (table : Table N) (input : Cells N)
    (current : Option (Cells N)) : Except Failure (Cells N) := do
  let pairs ← typedValueColumns table
  let has (name : Text) := table.columns.any fun column => column.name = name
  let isIdentified := table.columns.any fun column => decide (column.name = table.primaryKey) && column.isUuid
  let scope := secretScope table tenantId ((givenId table input current).getD fresh)
  if pairs.any fun pair => pair.typed.documentColumn.any fun carrier => has carrier && (input carrier).isSome then
    .error (generatedCrudError (js "A typed Document carrier is server-owned; write the public value instead.") (js "BAD_USER_INPUT"))
  else if (pairs.any fun pair => pair.typed.encrypted) && !(table.tenantScoped && isIdentified) then
    .error (generatedCrudError (js "Secure typed values require tenant-scoped UUID records.") (js "INVALID_DEFINITION"))
  else
    let opened ← pairs.foldlM (fun draft pair => openPair platform scope current pair draft) ⟨identified table pairs fresh input current, current⟩
    assertTypedValuesValid platform pairs (authored table opened.output) opened.current
    let sealed ← pairs.foldlM (fun draft pair => sealPair platform (nonces pair.value.name) table scope current pair draft) opened
    return sealed.output

end Writes

section Reads
variable (platform : Platform N Schema Nonce)

def looksLikeStoredSecret (members : Members N) : Bool :=
  let has (key : Text) := members.any fun entry => entry.1 = key
  has (js "ciphertext") || (has (js "keyId") && has (js "algorithm"))

/-- `projectElicitedValue`, with the depths that are left. -/
def projectElicitedValue : Nat → Value N → Value N
  | 0, .array _ => .text SECRET_SET_SENTINEL
  | remaining + 1, .array items => .array (items.map (projectElicitedValue remaining))
  | 0, .object _ => .text SECRET_SET_SENTINEL
  | remaining + 1, .object members =>
    if looksLikeStoredSecret members then .text SECRET_SET_SENTINEL
    else .object (members.map fun entry => (entry.1, projectElicitedValue remaining entry.2))
  | _, value => value

def MAX_ELICITED_VALUE_JSON_DEPTH : Nat := 64

def redactElicitedValues (row : Cells N) (intoField : Text) : Cells N :=
  match row intoField with
  | some value => Function.update row intoField (some (projectElicitedValue MAX_ELICITED_VALUE_JSON_DEPTH value))
  | none => row

/-- A document is shown as what its carrier refers to. -/
def restored (row : Cells N) (pair : Pair N) (output : Cells N) : Cells N :=
  match pair.typed.documentColumn, isDocument (cell row pair.definition.name) with
  | some carrier, true => Function.update output pair.value.name (some ((row carrier).getD .null))
  | _, _ => output

/-- Ordinary values of an encrypted column are validated rather than guessed at. -/
def checkOrdinary (pairs : List (Pair N)) (row : Cells N) (pair : Pair N) (output : Cells N) : Except Failure Unit :=
  if pair.typed.encrypted && (row pair.value.name).isSome && !secretDefinition (cell row pair.definition.name) then
    assertTypedValuesValid platform pairs (Function.update (fun _ => none) pair.value.field (some (cell output pair.value.name))) (some row)
  else .ok ()

def redactPair (row : Cells N) (pair : Pair N) (output : Cells N) : Cells N :=
  if pair.typed.encrypted && secretDefinition (cell row pair.definition.name) then
    let output := redactElicitedValues output pair.value.name
    if (cell row pair.value.name).isNullish then output
    else Function.update output pair.value.name (some (.text SECRET_SET_SENTINEL))
  else output

def projectPair (pairs : List (Pair N)) (row : Cells N) (pair : Pair N) (output : Cells N) : Except Failure (Cells N) := do
  let output := restored row pair output
  checkOrdinary platform pairs row pair output
  return redactPair row pair output

def projectTypedValues (table : Table N) (row : Cells N) : Except Failure (Cells N) := do
  let pairs ← typedValueColumns table
  pairs.foldlM (fun output pair => projectPair platform pairs row pair output) row

end Reads

end OpenShapeForge.Operations.TypedValues
