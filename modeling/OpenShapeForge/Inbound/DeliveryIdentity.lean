import OpenShapeForge.Js.Json
import OpenShapeForge.Js.JsonText
import OpenShapeForge.Js.Utf8

/-! A delivery's identity, read from material its provider signed
(apps/api/src/modules/inbound-identity.ts): the profile of a registration, its columns, and
what of a verified body the delivery key is made from. -/

namespace OpenShapeForge.Inbound.DeliveryIdentity
open Js

section Profiles

inductive IdentitySource where
  | bodyDigest
  | bodyField
deriving DecidableEq

def IdentitySource.toText : IdentitySource → Text
  | .bodyDigest => js "body-digest"
  | .bodyField => js "body-field"

/-- `RUNTIME_INBOUND_IDENTITY_SOURCES`. -/
def IdentitySource.ofText (text : Text) : Option IdentitySource :=
  if text = js "body-digest" then some .bodyDigest else if text = js "body-field" then some .bodyField else none

/-- The normalised profile, as a registration stores it and admission reads it. -/
structure InboundIdentityProfile where
  source : IdentitySource
  /-- Non-empty only for `body-field`, in the order the key is built from. -/
  fields : List Text
  eventTypePath : Option Text
deriving DecidableEq

def maxIdentityFields : Nat := 4

def maxIdentityValueLength : Nat := 200

def maxSignedEventTypeLength : Nat := 200

def defaultInboundIdentity : InboundIdentityProfile := ⟨.bodyDigest, [], none⟩

def isLetter (c : CodeUnit) : Bool := (65 ≤ c && c ≤ 90) || (97 ≤ c && c ≤ 122)

def isNameStart (c : CodeUnit) : Bool := isLetter c || c == unit '_'

def isNameUnit (c : CodeUnit) : Bool := isNameStart c || isDigit c || c == unit '-'

/-- `[A-Za-z_][A-Za-z0-9_-]{0,63}`. -/
def isPathSegment : Text → Bool
  | [] => false
  | c :: rest => isNameStart c && decide (rest.length ≤ 63) && rest.all isNameUnit

/-- `INBOUND_IDENTITY_PATH`. -/
def isIdentityPath (text : Text) : Bool := decide ((segments text).length ≤ 6) && (segments text).all isPathSegment

def reservedSegments : List Text := [js "__proto__", js "constructor", js "prototype"]

/-- `path` of a text. -/
def pathOf (text : Text) : Option Text :=
  let trimmed := trim text
  if isIdentityPath trimmed = false ∨ (segments trimmed).any (reservedSegments.contains ·) = true then none else some trimmed

section Normalize
variable {N : Type} [JsNumber N]

def path : Value N → Option Text
  | .text text => pathOf text
  | _ => none

def distinctPaths : List (Value N) → List Text → Option (List Text)
  | [], fields => some fields
  | entry :: rest, fields =>
    (path entry).bind fun parsed => if parsed ∈ fields then none else distinctPaths rest (fields ++ [parsed])

def eventTypePathOf : Value N → Option (Option Text)
  | .undefined => some none
  | other => (path other).map some

def normalizeInboundIdentity (input : Value N) : Option InboundIdentityProfile :=
  if input.isNullish then some defaultInboundIdentity
  else
    match input.own? (js "source") with
    | some (.text named) =>
      (IdentitySource.ofText named).bind fun source =>
        (eventTypePathOf ((input.own? (js "eventTypePath")).getD .undefined)).bind fun eventTypePath =>
          let fields := (input.own? (js "fields")).getD .undefined
          match source with
          | .bodyDigest =>
            match fields with
            | .undefined => some ⟨.bodyDigest, [], eventTypePath⟩
            | _ => none
          | .bodyField =>
            match fields with
            | .array declared =>
              if declared.length = 0 ∨ maxIdentityFields < declared.length then none
              else (distinctPaths declared []).map fun fields => ⟨.bodyField, fields, eventTypePath⟩
            | _ => none
    | _ => none

end Normalize

/-- The column form: the paths, comma-joined. -/
def serializeInboundIdentityFields (fields : List Text) : Option Text :=
  if fields.length = 0 then none else some (join (js ",") fields)

/-- All or nothing. -/
def parseInboundIdentityFields (stored : Option Text) : Option (List Text) :=
  if stored.getD [] = [] then some [] else ((stored.getD []).splitOn (unit ',')).mapM pathOf

structure IdentityColumns where
  identitySource : Text
  identityFields : Option Text
  identityEventTypePath : Option Text

def InboundIdentityProfile.columns (profile : InboundIdentityProfile) : IdentityColumns where
  identitySource := profile.source.toText
  identityFields := serializeInboundIdentityFields profile.fields
  identityEventTypePath := profile.eventTypePath

/-- What is handed to normalizeInboundIdentity of a stored registration. -/
def IdentityColumns.declared {N : Type} (row : IdentityColumns) (fields : Option (List Text)) : Value N :=
  .object ((js "source", Value.text row.identitySource) ::
    ((fields.map fun fields => (js "fields", Value.array (fields.map .text))).toList ++
      ((row.identityEventTypePath.filter fun path => path ≠ []).map fun path => (js "eventTypePath", Value.text path)).toList))

def storedInboundIdentity (N : Type) [JsNumber N] (row : IdentityColumns) : Option InboundIdentityProfile :=
  if row.identitySource = js "body-field" then
    (parseInboundIdentityFields row.identityFields).bind fun fields => normalizeInboundIdentity (row.declared (N := N) (some fields))
  else normalizeInboundIdentity (row.declared (N := N) none)

end Profiles

section Reading
variable {N : Type} [JsNumber N] (nearest : ℚ → N)

/-- The property a dotted path leads to, through objects that are no arrays. -/
def walk : Value N → List Text → Option (Value N)
  | current, [] => some current
  | .object members, segment :: rest => ((Value.object members).own? segment).bind fun next => walk next rest
  | _, _ :: _ => none

def scalarAt (document : Value N) (dotted : Text) : Option Text :=
  match walk document (segments dotted) with
  | some (.text value) => some value
  | some (.number value) => if JsNumber.isFinite value then some (JsNumber.toText value) else none
  | some (.boolean value) => some (if value then js "true" else js "false")
  | _ => none

def signedEventType (payload : Value N) (dotted : Text) : Option Text :=
  (scalarAt payload dotted).filter fun value =>
    decide (value.length ≤ maxSignedEventTypeLength) && !value.any fun c => c ≤ 0x1F || c == 0x7F

/-- What the verified bytes say, where that is a JSON object. -/
def written (body : List UInt8) : Option Json :=
  match JsonText.parse (decodeUtf8 body) with
  | some (.object members) => some (.object members)
  | _ => none

def document (body : List UInt8) : Option (Value N) := (written body).map (Json.value nearest)

/-- A `[path, value]` pair of an identity. -/
def pairValue (pair : Text × Text) : Value N := .array [.text pair.1, .text pair.2]

structure SignedDeliveryIdentity where
  keySource : Text
  /-- The event name from inside the signature, where one was declared. -/
  eventType : Option Text

def identityValue (payload : Value N) (field : Text) : Option (Text × Text) :=
  (scalarAt payload field).bind fun value => if maxIdentityValueLength < value.length then none else some (field, value)

def readSignedDeliveryIdentity (profile : InboundIdentityProfile) (body : List UInt8) (bodySha256 : Text) :
    Option SignedDeliveryIdentity :=
  let declared := profile.eventTypePath.filter fun path => path ≠ []
  let parsed := if profile.source = .bodyField ∨ declared.isSome then document nearest body else none
  let eventType := declared.bind fun path => parsed.bind fun payload => signedEventType payload path
  match profile.source with
  | .bodyDigest => some ⟨js "b:" ++ bodySha256, eventType⟩
  | .bodyField =>
    parsed.bind fun payload => (profile.fields.mapM (identityValue payload)).map fun pairs =>
      ⟨js "f:" ++ stringify (.array (pairs.map (pairValue (N := N)))), eventType⟩

end Reading

end OpenShapeForge.Inbound.DeliveryIdentity
