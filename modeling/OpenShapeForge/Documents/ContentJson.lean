import OpenShapeForge.Js.Json

/-! Content as JSON (packages/documents/src/content/json.ts and errors.ts): its
limits, its canonical text, and the copy made of whatever comes from outside. -/

namespace OpenShapeForge.Documents.ContentJson
open Js

inductive ErrorCode where
  | invalidValue
  | duplicate
  | blockUnknown
  | blockSchemaUnsupported
  | blockNotAllowed
  | unsupportedChannel
  | unsupportedLocale
  | missingVariable
  | dependencyUnresolved
  | dependencyInvalid
  | templateCycle
  | contentLimitExceeded
deriving DecidableEq

/-- What is thrown: a TemplateContentError, or any other error. -/
inductive Failure where
  | content (code : ErrorCode) (message : Text)
  | other (message : Text)
deriving DecidableEq

def contentError {α : Type} (code : ErrorCode) (message : Text) : Except Failure α := .error (.content code message)

def contentErrorIf (condition : Prop) [Decidable condition] (code : ErrorCode) (message : Text) : Except Failure Unit :=
  if condition then contentError code message else .ok ()

theorem contentErrorIf_ok {condition : Prop} [Decidable condition] {code : ErrorCode} {message : Text} {result : Unit}
    (ok : contentErrorIf condition code message = .ok result) : ¬condition := by
  intro failing
  rw [contentErrorIf, if_pos failing] at ok
  cases ok

structure ContentLimits where
  jsonDepth : Nat := 64
  jsonValues : Nat := 200000
  stringCharacters : Nat := 5000000
  blocks : Nat := 500
  dependencies : Nat := 1000
  templateDepth : Nat := 32

def contentLimits : ContentLimits := {}

variable {N : Type} [JsNumber N]

structure Counted where
  values : Nat := 0
  characters : Nat := 0

def Counted.text (counted : Counted) (value : Text) : Except Failure (Text × Counted) :=
  let characters := counted.characters + value.length
  if contentLimits.stringCharacters < characters then
    contentError .contentLimitExceeded (js "Content exceeds the text budget.")
  else .ok (quoteJson value, { counted with characters })

/-- The members of every object in the order of their names. -/
def sorted : Value N → Value N
  | .array items => .array (sortedItems items)
  | .object members => .object (sortMembers (sortedMembers members))
  | value => value
where
  sortedItems : List (Value N) → List (Value N)
    | [] => []
    | item :: rest => sorted item :: sortedItems rest
  sortedMembers : List (Text × Value N) → List (Text × Value N)
    | [] => []
    | (key, value) :: rest => (key, sorted value) :: sortedMembers rest

def serialize (depth : Nat) (value : Value N) (before : Counted) : Except Failure (Text × Counted) := do
  let counted := { before with values := before.values + 1 }
  if contentLimits.jsonValues < counted.values ∨ contentLimits.jsonDepth < depth then
    contentError .contentLimitExceeded (js "Content exceeds the JSON size or depth budget.")
  else match value with
    | .null => return (js "null", counted)
    | .text value => counted.text value
    | .boolean value => return (if value then js "true" else js "false", counted)
    | .number value =>
      if JsNumber.isFinite value then return (JsNumber.toText value, counted)
      else contentError .invalidValue (js "Content requires JSON values.")
    | .undefined | .builtin _ => contentError .invalidValue (js "Content requires JSON values.")
    | .date _ => contentError .invalidValue (js "Content accepts only plain JSON objects.")
    | .array items => do
      let (parts, counted) ← serializeItems (depth + 1) items counted
      return (js "[" ++ join (js ",") parts ++ js "]", counted)
    | .object members => do
      let (parts, counted) ← serializeMembers (depth + 1) members counted
      return (js "\x7b" ++ join (js ",") parts ++ js "\x7d", counted)
where
  serializeItems (depth : Nat) : List (Value N) → Counted → Except Failure (List Text × Counted)
    | [], counted => .ok ([], counted)
    | item :: rest, counted => do
      let (part, counted) ← serialize depth item counted
      let (parts, counted) ← serializeItems depth rest counted
      return (part :: parts, counted)
  serializeMembers (depth : Nat) : List (Text × Value N) → Counted → Except Failure (List Text × Counted)
    | [], counted => .ok ([], counted)
    | (key, value) :: rest, counted => do
      let (name, counted) ← counted.text key
      let (part, counted) ← serialize depth value counted
      let (parts, counted) ← serializeMembers depth rest counted
      return ((name ++ js ":" ++ part) :: parts, counted)

/-- Array order is kept, object keys are sorted, and what is not JSON is refused. -/
def canonicalJson (value : Value N) : Except Failure Text := do
  let (text, _) ← serialize 0 (sorted value) {}
  return text

/-- What `JSON.parse` reads back from the canonical text of a value. -/
def parsedValue : Value N → Value N
  | .number value => .number (JsNumber.ofText (JsNumber.toText value))
  | .array items => .array (parsedItems items)
  | .object members => .object (ownOrder (sortMembers (parsedMembers members)))
  | value => value
where
  parsedItems : List (Value N) → List (Value N)
    | [] => []
    | item :: rest => parsedValue item :: parsedItems rest
  parsedMembers : List (Text × Value N) → List (Text × Value N)
    | [] => []
    | (key, value) :: rest => (key, parsedValue value) :: parsedMembers rest

/-- Data with a JSON form, and what is read back from the canonical text of that. -/
class Content (N : outParam Type) (α : Type) where
  toJson : α → Value N
  parsed : α → α

export Content (toJson parsed)

instance : Content N (Value N) where
  toJson value := value
  parsed := parsedValue

/-- A record of values of one kind, keyed by name. -/
abbrev Record (α : Type) := List (Text × α)

namespace Record
variable {α : Type}

def keys (record : Record α) : List Text := record.map Prod.fst

def ofJson (toValue : α → Value N) (record : Record α) : Value N := .object (record.map fun (key, value) => (key, toValue value))

def reread (read : α → α) (record : Record α) : Record α := ownOrder (sortMembers (record.map fun (key, value) => (key, read value)))

end Record

instance {α : Type} [Content N α] : Content N (Record α) where
  toJson := Record.ofJson toJson
  parsed := Record.reread parsed

def immutableContent {α : Type} [Content N α] (value : α) : Except Failure α := do
  let _ ← canonicalJson (toJson value)
  return parsed value

/-- `osf-…` names the encoding that was digested; the digest is of the platform. -/
def hashCanonicalJson {α : Type} [Content N α] (sha256 : Text → Text) (value : α) (domain : Text) : Except Failure Text := do
  let canonical ← canonicalJson (toJson value)
  return sha256 (domain ++ [10] ++ canonical)

end OpenShapeForge.Documents.ContentJson
