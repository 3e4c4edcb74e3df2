import OpenShapeForge.Js.Number
import Mathlib.Data.Nat.Digits.Defs
import Mathlib.Data.Rat.Init
import Mathlib.Data.Rat.Cast.Defs

/-! Numbers without fractions, rounding or a negative zero. They behave as
doubles do wherever only whole numbers of moderate size arise. -/

namespace OpenShapeForge.Js

inductive Whole where
  | nan
  | infinite (negative : Bool)
  | finite (value : Int)
deriving DecidableEq

namespace Whole

/-- Applied to two finite numbers; anything else gives NaN. -/
def combine (operation : Int → Int → Int) : Whole → Whole → Whole
  | finite a, finite b => finite (operation a b)
  | _, _ => nan

def rank : Whole → Option Int
  | finite value => some value
  | _ => none

def less : Whole → Whole → Bool
  | finite a, finite b => decide (a < b)
  | infinite a, infinite b => a && !b
  | infinite negative, finite _ => negative
  | finite _, infinite negative => !negative
  | _, _ => false

def same (a b : Whole) : Bool := decide (a = b) && decide (a ≠ nan)

def digitsText (value : Nat) : Text := (Nat.digits 10 value).reverse.map fun digit => UInt16.ofNat (digit + 48)

def toText : Whole → Text
  | nan => js "NaN"
  | infinite negative => if negative then js "-Infinity" else js "Infinity"
  | finite value =>
    if value = 0 then js "0"
    else if value < 0 then js "-" ++ digitsText value.natAbs
    else digitsText value.natAbs

def digitsValue (digits : Text) : Nat := digits.foldl (fun total c => 10 * total + (c.toNat - 48)) 0

def ofText (text : Text) : Whole :=
  let digits := trim text
  if digits.all fun c => decide (48 ≤ c) && decide (c ≤ 57) then finite (digitsValue digits) else nan

def dayLength : Int := 86400000

instance : JsNumber Whole where
  isNaN value := decide (value = nan)
  isFinite value := value.rank.isSome
  equal := same
  less := less
  lessEqual a b := less a b || same a b
  add := combine (· + ·)
  mul := combine (· * ·)
  abs
    | nan => nan
    | infinite _ => infinite false
    | finite value => finite value.natAbs
  neg
    | nan => nan
    | infinite negative => infinite !negative
    | finite value => finite (-value)
  isSigned
    | infinite negative => negative
    | finite value => decide (value < 0)
    | nan => false
  ofNat value := finite value
  toNat? value := value.rank.bind fun value => if 0 ≤ value then some value.toNat else none
  isInteger value := value.rank.isSome
  ofText
  toText
  timeClip value := value
  timeOfText _ := nan
  utcMidnight := combine (fun day time => time - time % day) (finite dayLength)
  addUtcDays := combine fun time days => time + days * dayLength

instance : LawfulJsNumber Whole where
  equal_ofNat a b _ _ := by
    show (decide (finite a = finite b) && decide (finite a ≠ nan)) = decide (a = b)
    simp
  isFinite_ofNat _ _ := rfl

end Whole

end OpenShapeForge.Js
