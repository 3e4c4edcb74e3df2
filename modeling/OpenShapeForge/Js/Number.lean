import OpenShapeForge.Js.Text

/-! Numbers as the source uses them. The results hold for any type with these
operations; nothing here rests on how a double rounds. -/

namespace OpenShapeForge.Js

class JsNumber (N : Type) where
  isNaN : N → Bool
  isFinite : N → Bool
  /-- `===`, `<` and `<=` between two numbers. -/
  equal : N → N → Bool
  less : N → N → Bool
  lessEqual : N → N → Bool
  add : N → N → N
  mul : N → N → N
  abs : N → N
  neg : N → N
  /-- Below zero, or the negative zero. -/
  isSigned : N → Bool
  ofNat : Nat → N
  /-- The value of a whole number that is not negative. -/
  toNat? : N → Option Nat
  isInteger : N → Bool
  /-- `Number(text)`. -/
  ofText : Text → N
  /-- `String(value)`. -/
  toText : N → Text
  /-- The time value of `new Date(value)`, of a number and of a text. -/
  timeClip : N → N
  timeOfText : Text → N
  /-- Midnight of the day a time lies in, and a time moved by days, both in UTC. -/
  utcMidnight : N → N
  addUtcDays : N → N → N

/-- What is used of the numbers that are written as whole numbers. -/
class LawfulJsNumber (N : Type) [JsNumber N] : Prop where
  equal_ofNat : ∀ a b : Nat, a < 2 ^ 53 → b < 2 ^ 53 → JsNumber.equal (JsNumber.ofNat a : N) (JsNumber.ofNat b) = decide (a = b)
  isFinite_ofNat : ∀ a : Nat, a < 2 ^ 53 → JsNumber.isFinite (JsNumber.ofNat a : N) = true

end OpenShapeForge.Js
