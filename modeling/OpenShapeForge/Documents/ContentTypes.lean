import OpenShapeForge.Documents.ContentJson
import OpenShapeForge.Operations.FieldVariables

/-! The data of content, as it is stored (packages/documents/src/content/types.ts). -/

namespace OpenShapeForge.Documents.ContentTypes
open Js ContentJson Operations.FieldValues Operations.FieldVariables

variable {N : Type} [JsNumber N]

/-- A reference as a block holds it before it is checked. -/
structure StoredReference where
  entity : Option Text := none
  id : Option Text := none
  versionId : Option Text := none
  parameter : Option Text := none
deriving DecidableEq

inductive ContentReferenceValue where
  | null
  | one (reference : StoredReference)
  | many (references : List StoredReference)

structure ContentBlock (N : Type) where
  id : Text
  definitionKey : Text
  schemaVersion : N
  values : Record (Value N)
  references : Record ContentReferenceValue

structure ContentTemplateVariant (N : Type) where
  id : Text
  channel : Text
  locale : Text
  default : Option Bool := none
  blocks : List (ContentBlock N)
  allowedDefinitions : Option (List Text) := none

end OpenShapeForge.Documents.ContentTypes
