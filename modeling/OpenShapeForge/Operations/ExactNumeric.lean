import OpenShapeForge.Operations.FieldValues
import OpenShapeForge.Js.Exact

/-! Numbers compared as the numbers they are: bigints, decimal texts and the finite numbers that a
program prints (packages/operations/src/exact-numeric.ts, scalar-projection.ts). -/

namespace OpenShapeForge.Operations.ExactNumeric
open Js FieldValues

def signed (negative : Bool) (body : Text) : Text := (if negative then js "-" else []) ++ body

/-- What `Number::toString` prints: the shortest digits of a number that is not zero, and the place of its point. -/
structure Printed where
  negative : Bool
  digits : Text
  point : Int
  isDigits : ∀ c ∈ digits, isDigit c = true
  leading : digits.head? ≠ some (unit '0')
  trailing : digits.getLast? ≠ some (unit '0')
  nonempty : digits ≠ []
  short : digits.length ≤ 17
  range : -324 < point ∧ point ≤ 309

inductive FiniteNumber where
  | zero
  | printed (value : Printed)

def zeros (count : Nat) : Text := List.replicate count (unit '0')

/-- `d.ddde±x`. -/
def Printed.exponential (value : Printed) : Text :=
  let fraction := if value.digits.length = 1 then [] else js "." ++ value.digits.drop 1
  let exponent := value.point - 1
  value.digits.take 1 ++ fraction ++ js "e" ++ (if exponent < 0 then js "-" else js "+") ++ Exact.wholeText exponent.natAbs

def Printed.body (value : Printed) : Text :=
  if value.digits.length ≤ value.point ∧ value.point ≤ 21 then value.digits ++ zeros (value.point.toNat - value.digits.length)
  else if 0 < value.point ∧ value.point ≤ 21 then value.digits.take value.point.toNat ++ js "." ++ value.digits.drop value.point.toNat
  else if -6 < value.point ∧ value.point ≤ 0 then js "0." ++ zeros (-value.point).toNat ++ value.digits
  else value.exponential

/-- `String(value)`. -/
def FiniteNumber.toText : FiniteNumber → Text
  | zero => js "0"
  | printed value => signed value.negative value.body

inductive NumericValue where
  | bigint (value : Int)
  | number (value : FiniteNumber)
  | text (value : Text)

/-- `value.toString()` of a bigint. -/
def bigintText (value : Int) : Text := signed (decide (value < 0)) (Exact.wholeText value.natAbs)

def exactDecimal : NumericValue → Option ExactDecimal
  | .bigint value => exactDecimalText (bigintText value)
  | .number value => exactDecimalText (expandExponent value.toText)
  | .text value => if value.length ≤ maxExactNumericLength ∧ isDecimalText value = true then exactDecimalText value else none

/-- The two values scaled to a common number of fraction digits. -/
def aligned (left right : ExactDecimal) : Int × Int :=
  (left.lift (max left.scale right.scale), right.lift (max left.scale right.scale))

def compareExactNumeric (left right : NumericValue) : Option Int :=
  match exactDecimal left, exactDecimal right with
  | some a, some b =>
    let (scaledLeft, scaledRight) := aligned a b
    some (if scaledLeft = scaledRight then 0 else if scaledLeft < scaledRight then -1 else 1)
  | _, _ => none

def exactNumericEquals (left right : NumericValue) : Bool := compareExactNumeric left right = some 0

def isExactWholeNumber (value : NumericValue) : Bool :=
  match exactDecimal value with
  | some parsed => parsed.digits % 10 ^ parsed.scale = 0
  | none => false

structure ExactNumericBounds where
  minimum : Option NumericValue
  maximum : Option NumericValue
  enum : Option (List NumericValue)
  integer : Bool

inductive ExactNumericViolation where
  | notNumeric | notInteger | belowMinimum | aboveMaximum | notInEnum
deriving DecidableEq

/-- A comparison that cannot be made counts as one that fails. -/
def isBelow (value : NumericValue) (minimum : Option NumericValue) : Bool :=
  minimum.any fun minimum => (compareExactNumeric value minimum).all fun comparison => comparison < 0

def isAbove (value : NumericValue) (maximum : Option NumericValue) : Bool :=
  maximum.any fun maximum => (compareExactNumeric value maximum).all fun comparison => 0 < comparison

def exactNumericViolation (value : NumericValue) (bounds : ExactNumericBounds) : Option ExactNumericViolation :=
  match exactDecimal value with
  | none => some .notNumeric
  | some _ =>
    if bounds.integer && !isExactWholeNumber value then some .notInteger
    else if isBelow value bounds.minimum then some .belowMinimum
    else if isAbove value bounds.maximum then some .aboveMaximum
    else if bounds.enum.any fun allowed => !allowed.any fun allowed => exactNumericEquals value allowed then some .notInEnum
    else none

section Meaning

/-- The rational that a decimal text writes down. -/
def textValue (text : Text) : ℚ :=
  let parts := (unsignedPart text).splitOn (unit '.')
  let fraction := (parts[1]?).getD []
  let magnitude : ℚ := digitsValue ((parts[0]?).getD []) + digitsValue fraction / 10 ^ fraction.length
  if text.head? = some (unit '-') then -magnitude else magnitude

def Printed.toRat (value : Printed) : ℚ :=
  (if value.negative then -1 else 1) * digitsValue value.digits * (10 : ℚ) ^ (value.point - value.digits.length)

def FiniteNumber.toRat : FiniteNumber → ℚ
  | zero => 0
  | printed value => value.toRat

def NumericValue.toRat : NumericValue → ℚ
  | bigint value => value
  | number value => value.toRat
  | text value => textValue value

def decimalValue (value : ExactDecimal) : ℚ :=
  (if value.negative then -1 else 1) * value.digits / 10 ^ value.scale

end Meaning

end OpenShapeForge.Operations.ExactNumeric
