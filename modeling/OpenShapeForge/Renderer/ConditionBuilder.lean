import OpenShapeForge.Canonical.Condition

/-! What the condition builder makes of a stored condition when it opens it
(apps/web/src/features/renderer/runtime/conditions). Ids, which no evaluation reads, are left out. -/

namespace OpenShapeForge.Renderer.ConditionBuilder
open Js
open Canonical.Comparison Canonical.Condition

variable {N : Type}

def bareHead (kind : Kind) : Head N := ⟨some kind, none, none, [], false, none, .undefined, .today⟩

def leaf (head : Head N) : Expr N := .node head .absent .absent .absent .undefined .undefined

def createPathOperand (path : Text) : Expr N := leaf { bareHead .path with path := path }

def createLiteralOperand (value : Value N) : Expr N := leaf { bareHead .literal with value := value }

def ruleNode (operator : Option OperatorName) (left right : Expr N) : Expr N :=
  .node { bareHead .rule with operator := operator } .absent .absent .absent left right

def groupNode (mode : Mode) (conditions : List (Expr N)) : Expr N :=
  .node { bareHead .group with mode := some mode } (.list conditions) .absent .absent .undefined .undefined

def createConditionRule (left : Expr N) : Expr N :=
  ruleNode (some (.known .equals)) left (createLiteralOperand (.text []))

def isBrace (c : CodeUnit) : Bool := c = unit '{' || c = unit '}'

/-- What two braces on either side enclose, where it is something and has no brace in it. -/
def enclosed (text : Text) : Option Text :=
  let inner := (text.drop 2).take (text.length - 4)
  if 5 ≤ text.length ∧ text.take 2 = [unit '{', unit '{'] ∧ text.drop (text.length - 2) = [unit '}', unit '}'] ∧
      inner.any isBrace = false then
    some inner
  else none

def extractLiteralVariablePath : Value N → Option Text
  | .text value => (enclosed value).bind fun inner =>
    let path := trim inner
    if path = [] ∨ path.any (fun c => isWhitespace c || isBrace c) = true then none else some path
  | _ => none

def normalizeConditionOperand (operand fallback : Expr N) : Expr N :=
  match operand with
  | .node head _ _ _ _ _ =>
    match head.kind with
    | some .path | some .function => operand
    | some .literal =>
      match extractLiteralVariablePath head.value with
      | some variablePath => createPathOperand variablePath
      | none => operand
    | _ => fallback
  | _ => fallback

def isConditionGroup (head : Head N) (conditions all any : Slot (Expr N)) : Bool :=
  head.kind = some .group || conditions.isPresent || all.isPresent || any.isPresent

/-- `"operator" in value` -/
def isConditionRule (head : Head N) : Bool := head.operator.isSome

def getConditionGroupItems (conditions all any : Slot (Expr N)) : List (Expr N) :=
  (conditions.list?.or (all.list?.or any.list?)).getD []

def getConditionGroupMode (mode : Option Mode) (any : Slot (Expr N)) : Mode :=
  if mode = some .any then .any else if any.list?.isSome then .any else .all

mutual
def normalizeConditionInput (defaultLeftPath : Text) : Expr N → Expr N
  | .node head conditions all any left right =>
    if isConditionGroup head conditions all any then
      groupNode (getConditionGroupMode head.mode any)
        (((normalizeSlot defaultLeftPath conditions).or
          ((normalizeSlot defaultLeftPath all).or (normalizeSlot defaultLeftPath any))).getD [])
    else if isConditionRule head then
      ruleNode head.operator (normalizeConditionOperand left (createPathOperand defaultLeftPath))
        (normalizeConditionOperand right (createLiteralOperand (.text [])))
    else createConditionRule (createPathOperand defaultLeftPath)
  | _ => createConditionRule (createPathOperand defaultLeftPath)

def normalizeSlot (defaultLeftPath : Text) : Slot (Expr N) → Option (List (Expr N))
  | .list items => some (normalizeItems defaultLeftPath items)
  | _ => none

/-- `normalizeConditionInput` of every item. -/
def normalizeItems (defaultLeftPath : Text) : List (Expr N) → List (Expr N)
  | [] => []
  | item :: rest => normalizeConditionInput defaultLeftPath item :: normalizeItems defaultLeftPath rest
end

mutual
/-- Every rule gets the same left operand. The items of a normalised group are normalised themselves,
so that normalising each again on the way down changes nothing. -/
def bindNormalized (bound : Expr N) : Expr N → Expr N
  | .node head conditions all any _ right =>
    if isConditionGroup head conditions all any then
      groupNode (getConditionGroupMode head.mode any)
        (((bindSlot bound conditions).or ((bindSlot bound all).or (bindSlot bound any))).getD [])
    else .node head conditions all any bound right
  | other => other

def bindSlot (bound : Expr N) : Slot (Expr N) → Option (List (Expr N))
  | .list items => some (bindItems bound items)
  | _ => none

def bindItems (bound : Expr N) : List (Expr N) → List (Expr N)
  | [] => []
  | item :: rest => bindNormalized bound item :: bindItems bound rest
end

def bindConditionLeftOperand (value bound : Expr N) : Expr N := bindNormalized bound (normalizeConditionInput [] value)

inductive BuilderMode (N : Type) where
  | free (defaultPath : Option Text)
  | boundLeft (left : Expr N) (defaultPath : Option Text)

def BuilderMode.defaultPath : BuilderMode N → Option Text
  | free defaultPath | boundLeft _ defaultPath => defaultPath

def BuilderMode.bind : BuilderMode N → Expr N → Expr N
  | free _, normalized => normalized
  | boundLeft left _, normalized => bindConditionLeftOperand normalized left

def rootGroup : Expr N → Expr N
  | .node head conditions all any left right =>
    if isConditionGroup head conditions all any then .node head conditions all any left right
    else groupNode .all [.node head conditions all any left right]
  | other => groupNode .all [other]

def normalizeConditionForMode (value : Expr N) (mode : BuilderMode N) : Expr N :=
  rootGroup (mode.bind (normalizeConditionInput (mode.defaultPath.getD []) value))

def conditionUsesUnaryOperator (operator : ConditionOperator) : Bool := operator = .isEmpty || operator = .isNotEmpty

end OpenShapeForge.Renderer.ConditionBuilder
