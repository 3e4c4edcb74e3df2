import OpenShapeForge.Js.Number
import OpenShapeForge.Js.Value

/-! What a field says its value is: its base type, its cardinality and exact decimals
(packages/operations/src: field-resolution.ts, exact-numeric.ts, scalar-projection.ts, field-variables.ts). -/

namespace OpenShapeForge.Operations.FieldValues
open Js

variable {N : Type} [JsNumber N]

inductive BaseType where
  | string
  | integer
  | number
  | boolean
  | date
  | datetime
  | object
deriving DecidableEq

def BaseType.name : BaseType → Text
  | string => js "string"
  | integer => js "integer"
  | number => js "number"
  | boolean => js "boolean"
  | date => js "date"
  | datetime => js "datetime"
  | object => js "object"

def baseTypes : List BaseType := [.string, .integer, .number, .boolean, .date, .datetime, .object]

def isBaseType (value : Text) : Bool := baseTypes.any fun baseType => baseType.name = value

inductive UpperBound (N : Type) where
  | unbounded
  | atMost (max : N)

inductive Cardinality (N : Type) where
  | single
  | collection
  | bounds (min : Option N) (max : Option (UpperBound N))

inductive Multiplicity where
  | single
  | collection
deriving DecidableEq

def Multiplicity.name : Multiplicity → Text
  | single => js "single"
  | collection => js "collection"

def isSafeInteger (value : N) : Bool :=
  JsNumber.isInteger value && JsNumber.lessEqual (JsNumber.abs value) (JsNumber.ofNat (2 ^ 53 - 1))

def maxExactNumericLength : Nat := 1024

def unsignedPart (text : Text) : Text := if text.head? = some (unit '-') then text.tail else text

def isWholeText (text : Text) : Bool :=
  text.all isDigit && !text.isEmpty && (text.length = 1 || text.head? ≠ some (unit '0'))

def isIntegerText (text : Text) : Bool := isWholeText (unsignedPart text)

def isDecimalText (text : Text) : Bool :=
  match (unsignedPart text).splitOn (unit '.') with
  | [integer] => isWholeText integer
  | [integer, fraction] => isWholeText integer && fraction.all isDigit && !fraction.isEmpty
  | _ => false

def isExactDecimalText : Value N → Bool
  | .text value => value.length ≤ maxExactNumericLength && isDecimalText value
  | _ => false

def isExactIntegerText : Value N → Bool
  | .text value => value.length ≤ maxExactNumericLength && isIntegerText value
  | _ => false

def digitsValue (digits : Text) : Nat := digits.foldl (fun total c => 10 * total + (c.toNat - 48)) 0

/-- `d.ddde±x` as plain digits. -/
def expandExponent (text : Text) : Text :=
  let sign := if text.head? = some (unit '-') then js "-" else []
  let integer := (unsignedPart text).takeWhile isDigit
  let afterInteger := (unsignedPart text).dropWhile isDigit
  let point := afterInteger.head? = some (unit '.')
  let fraction := if point then afterInteger.tail.takeWhile isDigit else []
  let afterFraction := if point then afterInteger.tail.dropWhile isDigit else afterInteger
  match afterFraction with
  | e :: direction :: exponent =>
    if integer = [] ∨ (point ∧ fraction = []) ∨ e ≠ unit 'e' ∨ (direction ≠ unit '+' ∧ direction ≠ unit '-') ∨
        exponent = [] ∨ exponent.all isDigit = false then text
    else
      let digits := integer ++ fraction
      let shift : Int := if direction = unit '-' then -digitsValue exponent else digitsValue exponent
      let place := integer.length + shift
      if place ≤ 0 then sign ++ js "0." ++ List.replicate (-place).toNat (unit '0') ++ digits
      else if digits.length ≤ place.toNat then sign ++ digits ++ List.replicate (place.toNat - digits.length) (unit '0')
      else sign ++ digits.take place.toNat ++ js "." ++ digits.drop place.toNat
  | _ => text

def decimalText (value : N) : Text := expandExponent (JsNumber.toText value)

/-- `digits / 10 ^ scale`, negated where it is negative. -/
structure ExactDecimal where
  negative : Bool
  digits : Nat
  scale : Nat

def exactDecimalText (text : Text) : Option ExactDecimal :=
  if maxExactNumericLength < text.length ∨ isDecimalText text = false then none
  else
    let parts := (unsignedPart text).splitOn (unit '.')
    let fraction := (parts[1]?).getD []
    let digits := digitsValue ((parts[0]?).getD [] ++ fraction)
    some { negative := text.head? = some (unit '-') && digits ≠ 0, digits, scale := fraction.length }

def exactDecimal : Value N → Option ExactDecimal
  | .number value => if JsNumber.isFinite value then exactDecimalText (decimalText value) else none
  | .text value => exactDecimalText value
  | _ => none

def ExactDecimal.lift (value : ExactDecimal) (scale : Nat) : Int :=
  let magnitude : Int := value.digits * 10 ^ (scale - value.scale)
  if value.negative then -magnitude else magnitude

def exactNumericEquals (left right : Value N) : Bool :=
  match exactDecimal left, exactDecimal right with
  | some a, some b => a.lift (max a.scale b.scale) = b.lift (max a.scale b.scale)
  | _, _ => false

def isLeapYear (year : Nat) : Bool := year % 4 = 0 && (year % 100 ≠ 0 || year % 400 = 0)

def daysInMonth (year month : Nat) : Nat :=
  if month = 2 then (if isLeapYear year then 29 else 28)
  else if month = 4 ∨ month = 6 ∨ month = 9 ∨ month = 11 then 30
  else 31

/-- Whether a text has a digit at each `d` of a pattern and the pattern's own unit elsewhere. -/
def hasLayout : Text → Text → Bool
  | [], [] => true
  | c :: rest, p :: pattern => (if p = unit 'd' then isDigit c else c = p) && hasLayout rest pattern
  | _, _ => false

/-- A calendar date that exists, written as `YYYY-MM-DD`. -/
def isDateText (text : Text) : Bool :=
  let month := digitsValue ((text.drop 5).take 2)
  let day := digitsValue (text.drop 8)
  hasLayout text (js "dddd-dd-dd") && 1 ≤ month && month ≤ 12 && 1 ≤ day && day ≤ daysInMonth (digitsValue (text.take 4)) month

def isDatetimeEnd (text : Text) : Bool :=
  let zone := if text.head? = some (unit '.') then text.tail.dropWhile isDigit else text
  (text.head? ≠ some (unit '.') || text.tail.head?.any isDigit) &&
    (zone = js "Z" || hasLayout zone (js "+dd:dd") || hasLayout zone (js "-dd:dd"))

def isDatetimeText (N : Type) [JsNumber N] (text : Text) : Bool :=
  hasLayout (text.take 19) (js "dddd-dd-ddTdd:dd:dd") && isDatetimeEnd (text.drop 19) && isDateText (text.take 10) &&
    JsNumber.isFinite (JsNumber.timeOfText text : N)

def matchesBaseType (baseType : BaseType) (value : Value N) : Bool :=
  match baseType, value with
  | .object, .object _ | .object, .date _ => true
  | .integer, .number value => isSafeInteger value
  | .integer, .text value => isExactIntegerText (.text value : Value N)
  | .number, .number value => JsNumber.isFinite value
  | .number, .text value => isExactDecimalText (.text value : Value N)
  | .date, .text value => isDateText value
  | .datetime, .text value => isDatetimeText N value
  | .boolean, .boolean _ => true
  | .string, .text _ => true
  | _, _ => false

end OpenShapeForge.Operations.FieldValues
