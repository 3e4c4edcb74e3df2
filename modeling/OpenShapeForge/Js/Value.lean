import OpenShapeForge.Js.Number

/-! Runtime values, and the two ways the evaluator reads a property: what the
value owns, and what the host adds to it. -/

namespace OpenShapeForge.Js

/-- A value an expression can meet. A `builtin` is a function of the host. -/
inductive Value (N : Type) where
  | undefined
  | null
  | boolean (value : Bool)
  | number (value : N)
  | text (value : Text)
  | date (time : N)
  | array (items : List (Value N))
  | object (members : List (Text × Value N))
  | builtin (name : Text)

abbrev Members (N : Type) := List (Text × Value N)

/-- What the host contributes: its clock, the properties a value does not own
itself, and which of two values are one object. -/
structure Realm (N : Type) where
  clock : N
  inherited : Value N → Text → Value N
  identical : Value N → Value N → Bool

namespace Value
variable {N : Type}

def isNullish : Value N → Bool
  | undefined | null => true
  | _ => false

def isObject : Value N → Bool
  | object _ => true
  | _ => false

def isTrue : Value N → Bool
  | boolean true => true
  | _ => false

/-- `Object.hasOwn` and the property it finds, on an array or an object. -/
def own? [JsNumber N] (value : Value N) (key : Text) : Option (Value N) :=
  match value with
  | object members => (members.find? fun member => member.1 = key).map Prod.snd
  | array items =>
    if key = js "length" then some (number (JsNumber.ofNat items.length))
    else (elementKey key).bind fun index => items[index]?
  | _ => none

/-- `value[key]`, where `value` is neither null nor undefined. -/
def get [JsNumber N] (realm : Realm N) (value : Value N) (key : Text) : Value N :=
  (value.own? key).getD (realm.inherited value key)

/-- `value?.[key]`. -/
def read [JsNumber N] (realm : Realm N) (value : Value N) (key : Text) : Value N :=
  if value.isNullish then undefined else value.get realm key

end Value

end OpenShapeForge.Js
