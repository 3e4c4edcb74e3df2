import OpenShapeForge.Js.Utf8

/-! The trusted-context headers of a request and their signature (packages/auth/src/trusted-context.ts). -/

namespace OpenShapeForge.Auth.TrustedContext
open Js

/-- A request's headers, by the names of `TRUSTED_CONTEXT_HEADERS`. -/
structure Headers where
  tenantId : Option Text
  userId : Option Text
  roles : Option Text
  groups : Option Text
  principalKind : Option Text
  timestamp : Option Text
  signature : Option Text
deriving DecidableEq

structure Identity where
  tenantId : Option Text
  userId : Option Text
  roles : List Text
  groups : List Text
  principalKind : Option Text
deriving DecidableEq

/-- Milliseconds. -/
def TRUSTED_CONTEXT_MAX_AGE_MS : Int := 5 * 60 * 1000
def TRUSTED_CONTEXT_MAX_CLOCK_SKEW_MS : Int := 30 * 1000

inductive Version where
  | v3 | v2
deriving DecidableEq

def Version.text : Version → Text
  | .v3 => js "v3"
  | .v2 => js "v2"

def readPrincipalKind (raw : Option Text) : Option Text :=
  if raw = some (js "person") ∨ raw = some (js "service") then raw else none

/-- `values.map(trim).filter(Boolean)` -/
def trimmed (values : List Text) : List Text := (values.map trim).filter fun value => value ≠ []

def splitDelimited (raw : Option Text) : List Text := trimmed ((raw.getD []).splitOn (unit ','))

def joinDelimited (values : List Text) : Text := join [unit ','] (trimmed values)

def newline : CodeUnit := 10

structure PayloadFields where
  timestamp : Text
  tenantId : Option Text
  userId : Option Text
  roles : Text
  groups : Text
  principalKind : Option Text

def payloadString (version : Version) (input : PayloadFields) : Text :=
  let fields := [version.text, input.timestamp, input.tenantId.getD [], input.userId.getD [], input.roles, input.groups]
  join [newline] (if version = .v3 then fields ++ [input.principalKind.getD []] else fields)

/-- `digest("hex")` -/
def hexText (bytes : List UInt8) : Text := bytes.flatMap fun byte => [hexDigit (byte.toNat / 16), hexDigit (byte.toNat % 16)]

def hexValue (c : CodeUnit) : Option Nat :=
  if isDigit c then some (c.toNat - 48)
  else if 97 ≤ c ∧ c ≤ 102 then some (c.toNat - 87)
  else if 65 ≤ c ∧ c ≤ 70 then some (c.toNat - 55)
  else none

/-- `Buffer.from(text, "hex")`: the bytes before the first pair that is not hexadecimal. -/
def hexBytes : Text → List UInt8
  | high :: low :: rest =>
    match hexValue high, hexValue low with
    | some first, some second => UInt8.ofNat (first * 16 + second) :: hexBytes rest
    | _, _ => []
  | _ => []

/-- `createHmac` takes the payload as it is encoded. -/
def sign (hmac : Text → Text → List UInt8) (secret payload : Text) : Text := hexText (hmac secret (toWellFormed payload))

def signaturesMatch (left right : Text) : Bool :=
  decide ((hexBytes left).length = (hexBytes right).length) && decide (0 < (hexBytes left).length) && hexBytes left == hexBytes right

/-- `value?.trim() || null` -/
def present (value : Option Text) : Option Text := (value.map trim).filter fun text => text ≠ []

/-- `String(nowMs)` of whole milliseconds. -/
def timestampOf (nowMs : Int) : Text := if nowMs < 0 then unit '-' :: decimal nowMs.natAbs else decimal nowMs.natAbs

def applyTrustedContextHeaders (hmac : Text → Text → List UInt8) (identity : Identity) (secret : Option Text) (nowMs : Int) : Headers :=
  let tenantId := present identity.tenantId
  let userId := present identity.userId
  let roles := joinDelimited identity.roles
  let groups := joinDelimited identity.groups
  let principalKind := readPrincipalKind identity.principalKind
  let timestamp := timestampOf nowMs
  let signature := (secret.filter fun text => text ≠ []).bind fun secret => tenantId.map fun _ =>
    sign hmac secret (payloadString .v3 ⟨timestamp, tenantId, userId, roles, groups, principalKind⟩)
  { tenantId := tenantId
    userId := userId
    roles := if roles = [] then none else some roles
    groups := if groups = [] then none else some groups
    principalKind := principalKind
    timestamp := signature.map fun _ => timestamp
    signature := signature }

/-- `Number.parseInt(text, 10)`: what stands before the first other character. -/
def parseInt (text : Text) : Option Int :=
  let start := text.dropWhile isWhitespace
  let negative := start.head? = some (unit '-')
  let unsigned := if negative ∨ start.head? = some (unit '+') then start.tail else start
  let digits := unsigned.takeWhile isDigit
  if digits = [] then none
  else
    let value : Int := digits.foldl (fun value c => value * 10 + (c.toNat - 48 : Nat)) 0
    some (if negative then -value else value)

/-- What a signature is checked over, and by which version it holds. -/
def verifyBundle (hmac : Text → Text → List UInt8) (headers : Headers) (identity : Identity) (secret : Option Text) (nowMs : Int) :
    Option (Identity × Version) := do
  let secret ← secret.filter fun text => text ≠ []
  let timestamp ← headers.timestamp.filter fun text => text ≠ []
  let signature ← headers.signature.filter fun text => text ≠ []
  let parsedTimestamp ← parseInt timestamp
  let ageMs := nowMs - parsedTimestamp
  if ageMs > TRUSTED_CONTEXT_MAX_AGE_MS ∨ ageMs < -TRUSTED_CONTEXT_MAX_CLOCK_SKEW_MS then none
  else
    let fields : PayloadFields :=
      ⟨timestamp, identity.tenantId, identity.userId, joinDelimited identity.roles, joinDelimited identity.groups, identity.principalKind⟩
    if signaturesMatch signature (sign hmac secret (payloadString .v3 fields)) then some (identity, .v3)
    else if signaturesMatch signature (sign hmac secret (payloadString .v2 fields)) then some ({ identity with principalKind := none }, .v2)
    else none

def readIdentityHeaders (headers : Headers) : Identity where
  tenantId := headers.tenantId
  userId := headers.userId
  roles := splitDelimited headers.roles
  groups := splitDelimited headers.groups
  principalKind := readPrincipalKind headers.principalKind

def verifyTrustedContext (hmac : Text → Text → List UInt8) (headers : Headers) (secret : Option Text) (nowMs : Int) :
    Option (Identity × Version) :=
  verifyBundle hmac headers (readIdentityHeaders headers) secret nowMs

end OpenShapeForge.Auth.TrustedContext
