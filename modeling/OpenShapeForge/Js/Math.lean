import OpenShapeForge.Js.Value
import OpenShapeForge.Js.Whole

/-! Arithmetic as formulas use it. Quotients of whole numbers are cut toward zero here, as the source
cuts those that it makes of whole numbers. -/

namespace OpenShapeForge.Js

class JsMath (N : Type) where
  infinity : N
  sub : N → N → N
  div : N → N → N
  /-- `%`. -/
  rem : N → N → N
  pow : N → N → N
  /-- `Math.min` and `Math.max` of two numbers. -/
  min : N → N → N
  max : N → N → N
  trunc : N → N
  floor : N → N
  ceil : N → N
  round : N → N
  sqrt : N → N
  toPrecision : N → Nat → Text
  toFixed : N → Nat → Text
  /-- The place in a text of some length that `slice` takes a number for. -/
  sliceIndex : N → Nat → Nat
  /-- `String(value)` of a value that is neither missing nor a boolean, a number or a text. -/
  objectText : Value N → Text

namespace Whole

def quotient : Whole → Whole → Whole
  | finite a, finite b => if b ≠ 0 then finite (a.tdiv b) else if a = 0 then nan else infinite (decide (a < 0))
  | finite _, infinite _ => finite 0
  | infinite negative, finite b => infinite (negative != decide (b < 0))
  | _, _ => nan

def remainder : Whole → Whole → Whole
  | finite a, finite b => if b = 0 then nan else finite (a.tmod b)
  | finite a, infinite _ => finite a
  | _, _ => nan

def power : Whole → Whole → Whole
  | finite a, finite b => if 0 ≤ b then finite (a ^ b.toNat) else nan
  | _, _ => nan

def smaller (a b : Whole) : Whole := if a = nan ∨ b = nan then nan else if less a b then a else b

def greater (a b : Whole) : Whole := if a = nan ∨ b = nan then nan else if less b a then a else b

def root : Whole → Whole
  | finite value => if value < 0 then nan else finite (Nat.sqrt value.toNat)
  | infinite false => infinite false
  | _ => nan

def placeIn : Whole → Nat → Nat
  | finite place, length => if place < 0 then (length + place).toNat else Nat.min place.toNat length
  | infinite negative, length => if negative then 0 else length
  | nan, _ => 0

instance jsMath : JsMath Whole where
  infinity := infinite false
  sub := combine (· - ·)
  div := quotient
  rem := remainder
  pow := power
  min := smaller
  max := greater
  trunc value := value
  floor value := value
  ceil value := value
  round value := value
  sqrt := root
  toPrecision value _ := value.toText
  toFixed value _ := value.toText
  sliceIndex := placeIn
  objectText _ := js "[object Object]"

end Whole

end OpenShapeForge.Js
