import OpenShapeForge.Canonical.Comparison

/-! Conditions as they are authored, and the open-world evaluator over them
(packages/formula/src/canonical/expression-evaluator.ts). -/

namespace OpenShapeForge.Canonical.Condition
open Js Comparison

/-- The kinds a condition and its operands are made of. `other` is every further
kind of expression and every text that is no kind at all. -/
inductive Kind where
  | group | rule | path | literal | function
  | other (name : Text)
deriving DecidableEq

def Kind.name : Kind → Text
  | group => js "group"
  | rule => js "rule"
  | path => js "path"
  | literal => js "literal"
  | function => js "function"
  | other name => name

inductive Mode where
  | all | any
  | other (name : Text)
deriving DecidableEq

def Mode.name : Mode → Text
  | all => js "all"
  | any => js "any"
  | other name => name

inductive OperatorName where
  | known (operator : ConditionOperator)
  | other (name : Text)
deriving DecidableEq

def OperatorName.name : OperatorName → Text
  | known operator => operator.name
  | other name => name

inductive FunctionName where
  | today | recordId | createdTime
  | other (name : Text)
deriving DecidableEq

def FunctionName.name : FunctionName → Text
  | today => js "today"
  | recordId => js "recordId"
  | createdTime => js "createdTime"
  | other name => name

/-- The properties of a node that hold no expression. Those its kind does not
have are never read. -/
structure Head (N : Type) where
  kind : Option Kind
  mode : Option Mode
  operator : Option OperatorName
  path : Text
  hasFilter : Bool
  offsetDays : Option N
  value : Value N
  function : FunctionName

/-- A property that should hold a list: not there at all, there without a
value, or a list. -/
inductive Slot (α : Type) where
  | absent | undefined | null
  | list (items : List α)

namespace Slot
variable {α : Type}

/-- The property is there, whatever it holds (`in`). -/
def isPresent : Slot α → Bool
  | absent => false
  | _ => true

def isDefined : Slot α → Bool
  | absent | undefined => false
  | _ => true

def list? : Slot α → Option (List α)
  | list items => some items
  | _ => none

end Slot

/-- `list` is an array where an expression belongs. -/
inductive Expr (N : Type) where
  | undefined
  | null
  | list
  | node (head : Head N) (conditions all any : Slot (Expr N)) (left right : Expr N)

variable {N : Type} [JsNumber N] (realm : Realm N)
open JsNumber

/-- An untagged node with `conditions`, `all` or `any` is a group, one with an
`operator` is a rule. -/
def inferKind (head : Head N) (conditions all any : Slot (Expr N)) : Option Kind :=
  match head.kind with
  | some kind => some kind
  | none =>
    if conditions.isPresent || all.isPresent || any.isPresent then some .group
    else if head.operator.isSome then some .rule
    else none

def groupMode (mode : Option Mode) (any : Slot (Expr N)) : Mode :=
  mode.getD (if any.list?.isSome then .any else .all)

/-- One segment of `evalPath`. -/
def step (cursor : Value N) (segment : Text) : Value N :=
  match cursor with
  | .undefined | .null => .undefined
  | .array items =>
    if isFinite (ofText segment : N) then (Value.array items).get realm (toText (ofText segment : N))
    else .array (items.map fun item => item.read realm segment)
  | cursor => cursor.get realm segment

def walk (cursor : Value N) (path : List Text) : Value N := path.foldl (step realm) cursor

def dayMilliseconds : N := ofNat 86400000

def moveDate (value : Value N) (offsetDays : Option N) : Value N :=
  match value, offsetDays with
  | .date time, some days => .date (timeClip (add time (mul days dayMilliseconds)))
  | value, _ => value

def evalPath (path : Text) (offsetDays : Option N) (payload : Members N) : Value N :=
  moveDate (walk realm (.object payload) (segments path)) offsetDays

def validDate (time : N) : Value N := if isNaN time then .undefined else .date time

def toDate : Value N → Value N
  | .date time => .date time
  | .text value => validDate (timeOfText value)
  | .number value => validDate (timeClip value)
  | _ => .undefined

def evalFunction (name : FunctionName) (offsetDays : Option N) (payload : Members N) : Value N :=
  match name with
  | .today =>
    match offsetDays with
    | some days => .date (addUtcDays (utcMidnight realm.clock) days)
    | none => .date (utcMidnight realm.clock)
  | .recordId => (Value.object payload).get realm (js "id")
  | .createdTime => toDate ((Value.object payload).get realm (js "createdAt"))
  | .other _ => .undefined

/-- `operator` as the table has it; a name that is not in it never holds. -/
def applyOperator (operator : Option OperatorName) (left right : Value N) : Bool :=
  match operator with
  | some (.known operator) => applyConditionOperator realm operator left right
  | _ => false

def evalGroup (mode : Mode) (children : List Bool) : Bool :=
  match mode with
  | .any => children.any id
  | _ => children.all id

section Evaluate
variable (elsewhere : Expr N → Members N → Value N)

mutual
/-- Expressions of the kinds outside the subset are evaluated by `elsewhere`. -/
def evaluateExpression (payload : Members N) : Expr N → Value N
  | .undefined | .null | .list => .undefined
  | .node head conditions all any left right =>
    match inferKind head conditions all any with
    | some .group =>
      .boolean (evalGroup (groupMode head.mode any)
        (((slotResults payload conditions).or ((slotResults payload all).or (slotResults payload any))).getD []))
    | some .rule =>
      .boolean (applyOperator realm head.operator (evaluateExpression payload left) (evaluateExpression payload right))
    | some .path => evalPath realm head.path head.offsetDays payload
    | some .literal => head.value
    | some .function => evalFunction realm head.function head.offsetDays payload
    | _ => elsewhere (.node head conditions all any left right) payload

def slotResults (payload : Members N) : Slot (Expr N) → Option (List Bool)
  | .list children => some (results payload children)
  | _ => none

/-- `evaluateCanonicalCondition` of every child. -/
def results (payload : Members N) : List (Expr N) → List Bool
  | [] => []
  | child :: rest => (evaluateExpression payload child).isTrue :: results payload rest
end

def evaluateCanonicalCondition (expr : Expr N) (payload : Members N) : Bool :=
  (evaluateExpression realm elsewhere payload expr).isTrue

end Evaluate

end OpenShapeForge.Canonical.Condition
