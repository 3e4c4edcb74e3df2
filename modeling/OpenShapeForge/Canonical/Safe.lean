import OpenShapeForge.Canonical.Condition

/-! The authorization-safe subset: what it accepts, and its closed-world
evaluation (packages/formula/src/canonical/expression-evaluator.ts). -/

namespace OpenShapeForge.Canonical.Safe
open Js Comparison Condition

inductive Rejection where
  | unsupportedExpression | unsupportedOperator | unsupportedOperand | complexityExceeded | unknownOperand
deriving DecidableEq

structure Rejected where
  rejection : Rejection
  detail : Text
deriving DecidableEq

structure Options (N : Type) where
  operandRoots : Option (List Text)
  maxNodes : Option N
  maxDepth : Option N
  maxPathSegments : Option N

structure Limits where
  operandRoots : List Text
  maxNodes : Nat
  maxDepth : Nat
  maxPathSegments : Nat

def defaultOperandRoots : List Text := [js "actorRelation", js "resource"]
def defaultMaxNodes : Nat := 200
def defaultMaxDepth : Nat := 16
def defaultMaxPathSegments : Nat := 8
def maxOffsetDays : Nat := 36500
def maxListItems : Nat := 100
def maxStringLength : Nat := 2000

inductive OperandShape where
  | scalar | ordering | textual | membership | containment
deriving DecidableEq

/-- Neither `isEmpty` nor `isNotEmpty` has a shape: their answer is whether an
operand is there, which the payload cannot tell. -/
def operandShape : OperatorName → Option OperandShape
  | .known .equals | .known .notEquals => some .scalar
  | .known .greaterThan | .known .greaterThanOrEquals => some .ordering
  | .known .lessThan | .known .lessThanOrEquals => some .ordering
  | .known .startsWith | .known .endsWith => some .textual
  | .known .isIn | .known .notIn => some .membership
  | .known .contains | .known .notContains => some .containment
  | _ => none

section Values
variable {N : Type} [JsNumber N]
open JsNumber Value

def describeValue : Value N → Text
  | null => js "null"
  | undefined => js "absent"
  | date time => if isNaN time then js "an invalid date" else js "a date"
  | array _ => js "a list"
  | text _ => js "text"
  | boolean _ => js "a boolean"
  | number value => if isFinite value then js "a number" else js "a non-finite number"
  | object _ => js "an object"
  | builtin _ => js "a function"

def isScalar : Value N → Bool
  | text value => value.length ≤ maxStringLength
  | boolean _ => true
  | number value => isFinite value
  | date time => !isNaN time
  | _ => false

def isOrderedValue : Value N → Bool
  | number value => isFinite value
  | date time => !isNaN time
  | _ => false

def isDate : Value N → Bool
  | date _ => true
  | _ => false

def isText : Value N → Bool
  | text _ => true
  | _ => false

def isResolvedOperandValue : Value N → Bool
  | null | undefined => false
  | number value => isFinite value
  | date time => !isNaN time
  | _ => true

def sideText (position : Text) (value : Value N) (rest : Text) : Text :=
  js "the " ++ position ++ js " operand is " ++ describeValue value ++ rest

def scalarPairDefect (left right : Value N) : Option Text :=
  if !isScalar left then some (sideText (js "left") left (js ", not a single value"))
  else if !isScalar right then some (sideText (js "right") right (js ", not a single value"))
  else if describeValue left ≠ describeValue right then
    some (describeValue left ++ js " cannot be compared with " ++ describeValue right)
  else none

def orderingDefect (left right : Value N) : Option Text :=
  if !isOrderedValue left then some (sideText (js "left") left (js ", not orderable"))
  else if !isOrderedValue right then some (sideText (js "right") right (js ", not orderable"))
  else if isDate left ≠ isDate right then
    some (describeValue left ++ js " cannot be ordered against " ++ describeValue right)
  else none

def textualDefect (left right : Value N) : Option Text :=
  if !isText left then some (sideText (js "left") left (js ", not text"))
  else if !isText right then some (sideText (js "right") right (js ", not text"))
  else none

def listDefect (value : Value N) (position : Text) : Option Rejected :=
  match value with
  | array items =>
    -- An empty list would make `notIn` hold of everything.
    if items = [] then some ⟨.unsupportedOperand, js "the " ++ position ++ js " operand is an empty list"⟩
    else if items.length > maxListItems then
      some ⟨.complexityExceeded, js "the " ++ position ++ js " operand list is too large"⟩
    else (items.find? fun item => !isScalar item).map fun item =>
      ⟨.unsupportedOperand, js "the " ++ position ++ js " operand list holds " ++ describeValue item⟩
  | value => some ⟨.unsupportedOperand, sideText position value (js ", not a list")⟩

def memberDefect (member : Value N) (items : List (Value N)) (position : Text) : Option Text :=
  if !isScalar member then some (sideText position member (js ", not a single value"))
  else (items.find? fun item => describeValue item ≠ describeValue member).map fun item =>
    describeValue member ++ js " cannot be looked up in a list of " ++ describeValue item

def lookupDefect (member list : Value N) (memberPosition listPosition : Text) : Option Text :=
  match listDefect list listPosition, list with
  | some rejected, _ => some rejected.detail
  | none, array items => memberDefect member items memberPosition
  | none, _ => none

def containmentDefect (left right : Value N) : Option Text :=
  match left with
  | text _ => if isText right then none else some (sideText (js "right") right (js ", not text"))
  | array items => lookupDefect right (array items) (js "right") (js "left")
  | left => some (sideText (js "left") left (js ", neither text nor a list"))

/-- The pair has to be comparable without coercion. -/
def operandDefect (shape : Option OperandShape) (left right : Value N) : Option Text :=
  match shape with
  | some .scalar => scalarPairDefect left right
  | some .ordering => orderingDefect left right
  | some .textual => textualDefect left right
  | some .membership => lookupDefect left right (js "left") (js "right")
  | some .containment => containmentDefect left right
  | none => some (js "the operator is not in the authorization-safe subset")

end Values

section Validate
variable {N : Type} [JsNumber N]
open JsNumber

def describeKind : Option Kind → Text
  | none => js "an untagged expression"
  | some kind => js "a `" ++ kind.name ++ js "` expression"

/-- A limit that is not a positive whole number leaves the default in place. -/
def positive (value : Option N) (fallback : Nat) : Nat :=
  match value.bind toNat? with
  | some value => if value > 0 then value else fallback
  | none => fallback

def resolveLimits (options : Options N) : Limits where
  operandRoots :=
    match options.operandRoots with
    | some roots => if roots ≠ [] ∧ ∀ root ∈ roots, root ≠ [] then roots else defaultOperandRoots
    | none => defaultOperandRoots
  maxNodes := positive options.maxNodes defaultMaxNodes
  maxDepth := positive options.maxDepth defaultMaxDepth
  maxPathSegments := positive options.maxPathSegments defaultMaxPathSegments

def limitText (N : Type) [JsNumber N] (limit : Nat) : Text := toText (ofNat limit : N)

def validateSafeOffset (offsetDays : Option N) (position : Text) : Except Rejected Unit :=
  match offsetDays with
  | none => .ok ()
  | some days =>
    if isInteger days && lessEqual (abs days) (ofNat maxOffsetDays) then .ok ()
    else .error ⟨.unsupportedOperand, js "the " ++ position ++ js " operand has an unusable day offset"⟩

def validateSafePath (head : Head N) (position : Text) (limits : Limits) : Except Rejected Unit :=
  let named := js "path `" ++ head.path ++ js "` "
  if head.path = [] then .error ⟨.unsupportedOperand, js "the " ++ position ++ js " operand has no path"⟩
  else if head.hasFilter then .error ⟨.unsupportedOperand, named ++ js "uses an unsupported filter"⟩
  else if (segments head.path).length > limits.maxPathSegments then
    .error ⟨.complexityExceeded, named ++ js "walks more than " ++ limitText N limits.maxPathSegments ++ js " segments"⟩
  else if [] ∈ segments head.path then .error ⟨.unsupportedOperand, named ++ js "has an empty segment"⟩
  else if (segments head.path).head?.getD [] ∉ limits.operandRoots then
    .error ⟨.unsupportedOperand, named ++ js "is not rooted in " ++ join (js " / ") limits.operandRoots⟩
  else validateSafeOffset head.offsetDays position

def validateSafeLiteral (value : Value N) (position : Text) (listLiteral : Bool) : Except Rejected Unit :=
  match value with
  | .array items =>
    if !listLiteral then .error ⟨.unsupportedOperand, js "the " ++ position ++ js " operand is a list"⟩
    else
      match listDefect (.array items) position with
      | some rejected => .error rejected
      | none => .ok ()
  | value =>
    if isScalar value then .ok ()
    else .error ⟨.unsupportedOperand, js "the " ++ position ++ js " operand literal is " ++ describeValue value⟩

def countNode (N : Type) [JsNumber N] (limits : Limits) (nodes : Nat) : Except Rejected Nat :=
  if nodes + 1 > limits.maxNodes then
    .error ⟨.complexityExceeded, js "the condition holds more than " ++ limitText N limits.maxNodes ++ js " nodes"⟩
  else .ok (nodes + 1)

def validateSafeOperand (operand : Expr N) (position : Text) (listLiteral : Bool) (limits : Limits) (nodes : Nat) :
    Except Rejected Nat :=
  match operand with
  | .undefined | .null => .error ⟨.unsupportedOperand, js "the " ++ position ++ js " operand is missing"⟩
  | .list => .error ⟨.unsupportedOperand, js "the " ++ position ++ js " operand is not an object"⟩
  | .node head conditions all any _ _ => do
    let nodes ← countNode N limits nodes
    match inferKind head conditions all any with
    | some .path => validateSafePath head position limits
    | some .literal => validateSafeLiteral head.value position listLiteral
    | some .function =>
      if head.function = .today then validateSafeOffset head.offsetDays position
      else .error ⟨.unsupportedOperand, js "the " ++ position ++ js " operand calls unsupported function `" ++
        head.function.name ++ js "`"⟩
    | kind => .error ⟨.unsupportedOperand, js "the " ++ position ++ js " operand is " ++ describeKind kind ++
        js ", not a value"⟩
    return nodes

def operatorText (operator : Option OperatorName) : Text := (operator.map OperatorName.name).getD (js "undefined")

def validateSafeRule (operator : Option OperatorName) (left right : Expr N) (limits : Limits) (nodes : Nat) :
    Except Rejected Nat :=
  match operator.bind operandShape with
  | none => .error ⟨.unsupportedOperator, js "operator `" ++ operatorText operator ++
      js "` is not in the authorization-safe subset"⟩
  | some shape => do
    let nodes ← validateSafeOperand left (js "left") false limits nodes
    match right with
    | .undefined => .error ⟨.unsupportedOperand, js "operator `" ++ operatorText operator ++ js "` needs a right operand"⟩
    | right => validateSafeOperand right (js "right") (shape = .membership) limits nodes

/-- The one list a group may declare, or why it has none: the keys that are
there, each with its list. -/
def declaredKeys (conditions all any : Slot (Expr N)) : List (Text × Slot (Expr N)) :=
  [(js "conditions", conditions), (js "all", all), (js "any", any)].filter fun entry => entry.2.isDefined

def validateGroupShape (head : Head N) (conditions all any : Slot (Expr N)) : Except Rejected Unit :=
  match declaredKeys conditions all any with
  | [] => .error ⟨.unsupportedExpression, js "a group without children"⟩
  | [(key, children)] =>
    if (children.list?.getD []).isEmpty then
      .error ⟨.unsupportedExpression, js "a group whose `" ++ key ++ js "` holds no condition"⟩
    else
      match head.mode with
      | none => .ok ()
      | some (.other _) => .error ⟨.unsupportedExpression, js "a group with an unknown mode"⟩
      | some mode =>
        if (key = js "any" ∨ key = js "all") ∧ mode.name ≠ key then
          .error ⟨.unsupportedExpression, js "an `" ++ key ++ js "` group contradicted by mode `" ++ mode.name ++ js "`"⟩
        else .ok ()
  | keys => .error ⟨.unsupportedExpression, js "a group declaring both " ++ join (js " and ") (keys.map Prod.fst)⟩

mutual
/-- What is wrong with `expr`, or the nodes counted so far. -/
def validateSafeBoolean (limits : Limits) (depth nodes : Nat) : Expr N → Except Rejected Nat
  | .undefined | .null => .error ⟨.unsupportedExpression, js "the condition is missing"⟩
  | .list => .error ⟨.unsupportedExpression, js "the condition is not an object"⟩
  | .node head conditions all any left right =>
    if depth > limits.maxDepth then
      .error ⟨.complexityExceeded, js "the condition nests deeper than " ++ limitText N limits.maxDepth⟩
    else do
      let nodes ← countNode N limits nodes
      match inferKind head conditions all any with
      | some .group => do
        validateGroupShape head conditions all any
        -- Only one of the three holds a list here.
        let nodes ← validateSafeSlot limits (depth + 1) nodes conditions
        let nodes ← validateSafeSlot limits (depth + 1) nodes all
        validateSafeSlot limits (depth + 1) nodes any
      | some .rule => validateSafeRule head.operator left right limits nodes
      | kind => .error ⟨.unsupportedExpression,
          describeKind kind ++ js " is not a condition in the authorization-safe subset"⟩

def validateSafeSlot (limits : Limits) (depth nodes : Nat) : Slot (Expr N) → Except Rejected Nat
  | .list children => validateSafeChildren limits depth nodes children
  | _ => .ok nodes

def validateSafeChildren (limits : Limits) (depth nodes : Nat) : List (Expr N) → Except Rejected Nat
  | [] => .ok nodes
  | child :: rest => do
    let nodes ← validateSafeBoolean limits depth nodes child
    validateSafeChildren limits depth nodes rest
end

def validateAuthorizationSafeCondition (expr : Expr N) (options : Options N) : Except Rejected Unit :=
  (validateSafeBoolean (resolveLimits options) 1 0 expr).map fun _ => ()

end Validate

section Evaluate
variable {N : Type} [JsNumber N] (realm : Realm N) (elsewhere : Expr N → Members N → Value N)

def ownWalk (current : Value N) (path : List Text) : Option (Value N) :=
  path.foldl (fun current segment => current.bind fun value => value.own? segment) (some current)

def safeOperandPresent (operand : Expr N) (payload : Members N) : Bool :=
  match operand with
  | .node head conditions all any _ _ =>
    if inferKind head conditions all any = some .path then (ownWalk (.object payload) (segments head.path)).isSome
    else true
  | _ => true

abbrev Unknown := Option Rejected

def markUnknown (state : Unknown) (rejection : Rejection) (detail : Text) : Option Bool × Unknown :=
  (none, state.or (some ⟨rejection, detail⟩))

def evalSafeRule (operator : Option OperatorName) (left right : Expr N) (payload : Members N) (state : Unknown) :
    Option Bool × Unknown :=
  let leftValue := evaluateExpression realm elsewhere payload left
  let rightValue := evaluateExpression realm elsewhere payload right
  let unresolved (side : Text) := js "the " ++ side ++ js " operand of `" ++ operatorText operator ++ js "` did not resolve"
  if !safeOperandPresent left payload || !safeOperandPresent right payload then
    markUnknown state .unknownOperand (js "an operand did not resolve from an own property")
  else if !isResolvedOperandValue leftValue then markUnknown state .unknownOperand (unresolved (js "left"))
  else if !isResolvedOperandValue rightValue then markUnknown state .unknownOperand (unresolved (js "right"))
  else
    match operandDefect (operator.bind operandShape) leftValue rightValue with
    | some defect => markUnknown state .unsupportedOperand defect
    | none => (some (applyOperator realm operator leftValue rightValue), state)

mutual
/-- The verdict is none when the condition is neither provably true nor provably false. -/
def evalSafeBoolean (payload : Members N) (state : Unknown) : Expr N → Option Bool × Unknown
  | .node head conditions all any left right =>
    if inferKind head conditions all any = some .group then
      ((evalSafeSlot payload (groupMode head.mode any) state conditions).or
        ((evalSafeSlot payload (groupMode head.mode any) state all).or
          (evalSafeSlot payload (groupMode head.mode any) state any))).getD
        (some (groupMode head.mode any ≠ .any), state)
    else evalSafeRule realm elsewhere head.operator left right payload state
  | _ => evalSafeRule realm elsewhere none .undefined .undefined payload state

def evalSafeSlot (payload : Members N) (mode : Mode) (state : Unknown) : Slot (Expr N) → Option (Option Bool × Unknown)
  | .list children => some (evalSafeChildren payload mode false state children)
  | _ => none

/-- A decided child settles the group; `unknown` tells whether one before was not decided. -/
def evalSafeChildren (payload : Members N) (mode : Mode) (unknown : Bool) (state : Unknown) :
    List (Expr N) → Option Bool × Unknown
  | [] => (if unknown then none else some (mode ≠ .any), state)
  | child :: rest =>
    match evalSafeBoolean payload state child with
    | (none, state) => evalSafeChildren payload mode true state rest
    | (some verdict, state) =>
      if mode = .any then
        if verdict then (some true, state) else evalSafeChildren payload mode unknown state rest
      else if !verdict then (some false, state)
      else evalSafeChildren payload mode unknown state rest
end

inductive Evaluation where
  | satisfied
  | notSatisfied
  | rejected (reason : Rejected)
deriving DecidableEq

def evaluateAuthorizationSafeCondition (expr : Expr N) (payload : Members N) (options : Options N) : Evaluation :=
  match validateAuthorizationSafeCondition expr options with
  | .error reason => .rejected reason
  | .ok () =>
    match evalSafeBoolean realm elsewhere payload none expr with
    | (some true, _) => .satisfied
    | (some false, _) => .notSatisfied
    | (none, unknown) => .rejected (unknown.getD ⟨.unknownOperand, js "an operand did not resolve"⟩)

end Evaluate

end OpenShapeForge.Canonical.Safe
