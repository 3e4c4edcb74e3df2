import OpenShapeForge.Js.Value
import Mathlib.Data.List.Sort

/-! The order of property names, and the JSON text of a value. -/

namespace OpenShapeForge.Js

/-- `<` between two texts, by their code units. -/
def textLess : Text → Text → Bool
  | _, [] => false
  | [], _ :: _ => true
  | a :: first, b :: second => a < b || (a == b && textLess first second)

/-- `sort()` of texts. -/
def sortTexts (texts : List Text) : List Text := texts.insertionSort fun a b => textLess b a = false

def sortMembers {α : Type} (members : List (Text × α)) : List (Text × α) :=
  members.insertionSort fun a b => textLess b.1 a.1 = false

/-- The order an object lists its own properties in: element keys by their number,
then the others as they were added. -/
def ownOrder {α : Type} (members : List (Text × α)) : List (Text × α) :=
  let elements := members.filter fun member => (elementKey member.1).isSome
  elements.insertionSort (fun a b => (elementKey a.1).getD 0 ≤ (elementKey b.1).getD 0) ++
    members.filter fun member => (elementKey member.1).isNone

/-- `JSON.stringify` of a value that is JSON already. -/
def stringify {N : Type} [JsNumber N] : Value N → Text
  | .undefined | .null | .date _ | .builtin _ => js "null"
  | .boolean value => if value then js "true" else js "false"
  | .number value => JsNumber.toText value
  | .text value => quoteJson value
  | .array items => js "[" ++ items' items ++ js "]"
  | .object members => js "\x7b" ++ members' members ++ js "\x7d"
where
  items' : List (Value N) → Text
    | [] => []
    | [item] => stringify item
    | item :: rest => stringify item ++ js "," ++ items' rest
  members' : List (Text × Value N) → Text
    | [] => []
    | [(key, value)] => quoteJson key ++ js ":" ++ stringify value
    | (key, value) :: rest => quoteJson key ++ js ":" ++ stringify value ++ js "," ++ members' rest

end OpenShapeForge.Js
