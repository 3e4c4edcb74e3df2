import OpenShapeForge.Js.Value

/-! The comparison table of a rule, over operands that are already evaluated
(packages/formula/src/canonical/expression-evaluator.ts). -/

namespace OpenShapeForge.Canonical.Comparison
open Js

inductive ConditionOperator where
  | equals | notEquals
  | greaterThan | greaterThanOrEquals | lessThan | lessThanOrEquals
  | isEmpty | isNotEmpty
  | contains | notContains
  | startsWith | endsWith
  | isIn | notIn
deriving DecidableEq

def ConditionOperator.name : ConditionOperator → Text
  | equals => js "equals"
  | notEquals => js "notEquals"
  | greaterThan => js "greaterThan"
  | greaterThanOrEquals => js "greaterThanOrEquals"
  | lessThan => js "lessThan"
  | lessThanOrEquals => js "lessThanOrEquals"
  | isEmpty => js "isEmpty"
  | isNotEmpty => js "isNotEmpty"
  | contains => js "contains"
  | notContains => js "notContains"
  | startsWith => js "startsWith"
  | endsWith => js "endsWith"
  | isIn => js "in"
  | notIn => js "notIn"

variable {N : Type} [JsNumber N] (realm : Realm N)
open JsNumber Value

def isEqual : Value N → Value N → Bool
  | undefined, undefined => true
  | null, null => true
  | boolean a, boolean b => a == b
  | number a, number b => equal a b
  | text a, text b => a == b
  | date a, date b => realm.identical (date a) (date b) || equal a b
  | array a, array b => realm.identical (array a) (array b)
  | object a, object b => realm.identical (object a) (object b)
  | builtin a, builtin b => a == b
  | _, _ => false

def isEmptyValue : Value N → Bool
  | undefined | null => true
  | text value => value.isEmpty
  | array items => items.isEmpty
  | _ => false

def containsValue (haystack needle : Value N) : Bool :=
  match haystack, needle with
  | text haystack, text needle => decide (needle <:+: haystack)
  | array items, needle => items.any fun item => isEqual realm item needle
  | _, _ => false

def toNumber : Value N → N
  | number value => value
  | text value => if (trim value).isEmpty || isNaN (ofText value : N) then ofNat 0 else ofText value
  | date time => time
  | _ => ofNat 0

def startsWith : Value N → Value N → Bool
  | text value, text start => start.isPrefixOf value
  | _, _ => false

def endsWith : Value N → Value N → Bool
  | text value, text ending => ending.isSuffixOf value
  | _, _ => false

def isMember (member : Value N) : Value N → Bool
  | array items => items.any fun item => isEqual realm member item
  | _ => false

def applyConditionOperator (operator : ConditionOperator) (left right : Value N) : Bool :=
  match operator with
  | .equals => isEqual realm left right
  | .notEquals => !isEqual realm left right
  | .greaterThan => less (toNumber right) (toNumber left)
  | .greaterThanOrEquals => lessEqual (toNumber right) (toNumber left)
  | .lessThan => less (toNumber left) (toNumber right)
  | .lessThanOrEquals => lessEqual (toNumber left) (toNumber right)
  | .isEmpty => isEmptyValue left
  | .isNotEmpty => !isEmptyValue left
  | .contains => containsValue realm left right
  | .notContains => !containsValue realm left right
  | .startsWith => startsWith left right
  | .endsWith => endsWith left right
  | .isIn => isMember realm left right
  | .notIn => !isMember realm left right

end OpenShapeForge.Canonical.Comparison
