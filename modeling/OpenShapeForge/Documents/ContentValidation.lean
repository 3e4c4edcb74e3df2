import OpenShapeForge.Documents.ContentTypes
import OpenShapeForge.Js.Unicode

/-! What content is checked for (packages/documents/src/content/validation.ts). -/

namespace OpenShapeForge.Documents.ContentValidation
open Js ContentJson ContentTypes Operations.FieldValues

variable {N : Type} [JsNumber N]

def assertContentName (value field : Text) : Except Failure Unit :=
  if value = [] ∨ trim value ≠ value ∨ 255 < value.length then
    contentError .invalidValue (field ++ js " must be a non-empty, bounded identifier without surrounding whitespace.")
  else .ok ()

def positiveSafeInteger (value : N) : Bool := isSafeInteger value && JsNumber.lessEqual (JsNumber.ofNat 1) value

def validateBlocks : List (ContentBlock N) → (seen : List Text) → Except Failure Unit
  | [], _ => .ok ()
  | block :: rest, seen => do
    assertContentName block.id (js "block id")
    assertContentName block.definitionKey (js "block definition")
    contentErrorIf (positiveSafeInteger block.schemaVersion = false) .invalidValue
      (js "Invalid block schemaVersion.")
    contentErrorIf (block.id ∈ seen) .duplicate
      (js "Block ids must be unique within their collection.")
    validateBlocks rest (seen ++ [block.id])

structure SeenVariants where
  ids : List Text := []
  keys : List (Text × Text) := []
  defaults : List Text := []

def validateVariantsFrom : List (ContentTemplateVariant N) → SeenVariants → Except Failure Unit
  | [], _ => .ok ()
  | variant :: rest, seen => do
    assertContentName variant.id (js "variant id")
    assertContentName variant.channel (js "variant channel")
    assertContentName variant.locale (js "variant locale")
    contentErrorIf (variant.id ∈ seen.ids ∨ (variant.channel, variant.locale) ∈ seen.keys) .duplicate
      (js "Variant ids and channel/locale pairs must be unique within a version.")
    contentErrorIf (variant.default = some true ∧ variant.channel ∈ seen.defaults) .duplicate
      (js "A channel has at most one default variant.")
    contentErrorIf (contentLimits.blocks < variant.blocks.length) .contentLimitExceeded
      (js "Invalid block collection or block count.")
    validateBlocks variant.blocks []
    validateVariantsFrom rest {
      ids := seen.ids ++ [variant.id]
      keys := seen.keys ++ [(variant.channel, variant.locale)]
      defaults := if variant.default = some true then seen.defaults ++ [variant.channel] else seen.defaults }

def validateContentVariants (variants : List (ContentTemplateVariant N)) : Except Failure Unit :=
  if variants = [] then
    contentError .invalidValue (js "A template version requires at least one channel/locale variant.")
  else validateVariantsFrom variants {}

/-- What the host decides by its tables: the order of locales, and a digest. -/
structure Platform where
  localeCompare : Text → Text → Ordering
  sha256 : Text → Text

section Variants
variable [Unicode]

/-- `nl-NL` and `nl_NL` are both `nl`. -/
def contentLanguage (locale : Text) : Text :=
  let dashed := (trim locale).map fun c => if c = unit '_' then unit '-' else c
  Unicode.toLowerCase (dashed.takeWhile (· ≠ unit '-'))

def selectContentTemplateVariant (platform : Platform) (variants : List (ContentTemplateVariant N)) (channel locale : Text) :
    Except Failure (ContentTemplateVariant N) :=
  let channels := variants.filter (·.channel = channel)
  let language := contentLanguage locale
  let sameLanguage := (channels.filter fun variant => contentLanguage variant.locale = language).insertionSort
    fun left right => platform.localeCompare left.locale right.locale ≠ .gt
  if channels.isEmpty then contentError .unsupportedChannel (js "Template has no " ++ channel ++ js " variant.")
  else
    let chosen := channels.find? (·.locale = locale) <|> sameLanguage.find? (·.locale = language) <|>
      sameLanguage.find? (·.default = some true) <|> sameLanguage.head? <|> channels.find? (·.default = some true)
    match chosen with
    | some variant => .ok variant
    | none => contentError .unsupportedLocale (js "Template has no " ++ channel ++ js "/" ++ locale ++
        js " variant and no default " ++ channel ++ js " variant.")

end Variants

end OpenShapeForge.Documents.ContentValidation
