import OpenShapeForge.Formula.Spreadsheet

/-! The canonical evaluator on the expressions that formulas compile to
(packages/formula/src/canonical/expression-evaluator.ts). -/

namespace OpenShapeForge.Formula.Evaluator
open Js Types Canonical.Comparison Spreadsheet

variable {N : Type} [JsNumber N] [JsMath N] [JsDates N] [Unicode] (realm : Realm N)

def literalValue : Literal N → Value N
  | .null => .null
  | .boolean value => .boolean value
  | .text value => .text value
  | .number value => .number value

def argument (values : List (Value N)) (index : Nat) : Value N := (values[index]?).getD .undefined

/-- `values.reduce(combine, first)`. -/
def foldNumbers (combine : N → N → N) (first : N) (values : List N) : N := values.foldl combine first

def foldLeft (combine : N → N → N) : List (Value N) → N
  | [] => JsNumber.ofNat 0
  | first :: rest => foldNumbers combine (toNumber first) (rest.map toNumber)

def concatenate (values : List (Value N)) : Text :=
  join [] (values.map fun value => if value.isNullish then [] else stringOf value)

def isErrorValue : Value N → Bool
  | .number value => !JsNumber.isFinite value
  | .date time => JsNumber.isNaN time
  | _ => false

def isBlank : Value N → Bool
  | .undefined | .null => true
  | .text value => value.isEmpty
  | _ => false

def presentNumbers (values : List (Value N)) : List N := (values.filter fun value => !isBlank value).map toNumber

def total (numbers : List N) : N := foldNumbers JsNumber.add (JsNumber.ofNat 0) numbers

/-- `Math.min(...numbers)` and `Math.max(...numbers)`. -/
def least (numbers : List N) : N := foldNumbers JsMath.min JsMath.infinity numbers

def greatest (numbers : List N) : N := foldNumbers JsMath.max (JsNumber.neg JsMath.infinity) numbers

def average (numbers : List N) : N := JsMath.div (total numbers) (JsNumber.ofNat numbers.length)

def unlessNone (numbers : List N) (value : N) : Value N := if numbers.isEmpty then .undefined else .number value

def convertCase (convert : Text → Text) : Value N → Value N
  | .text value => .text (convert value)
  | _ => .text []

/-- `evalFormula` on operands that are already evaluated. -/
def evalFormula (op : FormulaOperator) (values : List (Value N)) : Value N :=
  let first := argument values 0
  let second := argument values 1
  match op with
  | .add => .number (total (values.map toNumber))
  | .sub => .number (foldLeft JsMath.sub values)
  | .mul => .number (foldNumbers JsNumber.mul (JsNumber.ofNat 1) (values.map toNumber))
  | .div => .number (foldLeft JsMath.div values)
  | .mod => .number (foldLeft JsMath.rem values)
  | .concat => .text (concatenate values)
  | .lower => convertCase Unicode.toLowerCase first
  | .upper => convertCase Unicode.toUpperCase first
  | .left => .text (leftOf first second)
  | .right => .text (rightOf first second)
  | .mid => .text (mid first second (argument values 2))
  | .len => .number (JsNumber.ofNat (toText first).length)
  | .trim => .text (trim (toText first))
  | .substitute => .text (substitute (toText first) (toText second) (toText (argument values 2)) (argument values 3))
  | .not => .boolean (!first.isTrue)
  | .negate => .number (JsNumber.neg (toNumber first))
  | .isError => .boolean (isErrorValue first)
  | .round => .number (roundTo (toNumber first) (precisionOf second) JsMath.round)
  | .roundUp => .number (roundTo (toNumber first) (precisionOf second) JsMath.ceil)
  | .roundDown => .number (roundTo (toNumber first) (precisionOf second) JsMath.floor)
  | .abs => .number (JsNumber.abs (toNumber first))
  | .value => parseNumberText first
  | .power => .number (JsMath.pow (toNumber first) (toNumber second))
  | .sqrt => .number (JsMath.sqrt (toNumber first))
  | .ceiling => .number (toMultiple (toNumber first) second JsMath.ceil)
  | .floor => .number (toMultiple (toNumber first) second JsMath.floor)
  | .sum => .number (total (presentNumbers values))
  | .min => unlessNone (presentNumbers values) (least (presentNumbers values))
  | .max => unlessNone (presentNumbers values) (greatest (presentNumbers values))
  | .average => unlessNone (presentNumbers values) (average (presentNumbers values))

def timeOf (value : Value N) : Option N :=
  match Canonical.Condition.toDate value with
  | .date time => some time
  | _ => none

def wholeDays (left right : N) : N := JsMath.floor (JsMath.div (JsMath.sub left right) (JsNumber.ofNat 86400000))

/-- `evalDate` on operands that are already evaluated, `undefined` where there is none. -/
def evalDate (op : DateOperator) (unit : Option DateUnit) (left right : Value N) : Value N :=
  match op, timeOf left with
  | .dateDiff, some left =>
    match timeOf right, unit with
    | some right, some unit => dateDifference left right unit
    | some right, none => .number (wholeDays left right)
    | none, _ => .undefined
  | .dateAdd, some base => .date (addToDate base (toNumber right) (unit.getD .days))
  | .datetimeFormat, some date =>
    match right with
    | .text format => .text (formatDate date (if format = [] then none else some format))
    | _ => .text (formatDate date none)
  | .year, some date => .number (JsDates.getUTCFullYear date)
  | .month, some date => .number (JsNumber.add (JsDates.getUTCMonth date) (JsNumber.ofNat 1))
  | .day, some date => .number (JsDates.getUTCDate date)
  | _, none => .undefined

def normalizeAbsent : Value N → Value N
  | .undefined => .null
  | value => value

def functionName : RecordFunction → Canonical.Condition.FunctionName
  | .recordId => .recordId
  | .createdTime => .createdTime

def evalFunction (name : RecordFunction) (payload : Members N) : Value N :=
  Canonical.Condition.evalFunction realm (functionName name) none payload

def evalPath (path : Text) (payload : Members N) : Value N := Canonical.Condition.evalPath realm path none payload

def groupValue (mode : GroupMode) (results : List Bool) : Bool :=
  match mode with
  | .any => results.any id
  | .all => results.all id

mutual
def evaluateExpression (payload : Members N) : Ast N → Value N
  | .undefined => .undefined
  | .literal value => literalValue value
  | .path path => evalPath realm path payload
  | .formula op operands => evalFormula op (evaluateAll payload operands)
  | .rule operator left right =>
    .boolean (applyConditionOperator realm operator (evaluateExpression payload left) (evaluateExpression payload right))
  | .group mode conditions => .boolean (groupValue mode ((evaluateAll payload conditions).map Value.isTrue))
  | .conditional condition thenBranch elseBranch =>
    if (evaluateExpression payload condition).isTrue then evaluateExpression payload thenBranch
    else evaluateExpression payload elseBranch
  | .switch subject cases default =>
    (evaluateCases payload (normalizeAbsent (evaluateExpression payload subject)) cases).getD (evaluateExpression payload default)
  | .date op left right unit => evalDate op unit (evaluateExpression payload left) (evaluateExpression payload right)
  | .function name => evalFunction realm name payload

def evaluateAll (payload : Members N) : List (Ast N) → List (Value N)
  | [] => []
  | node :: rest => evaluateExpression payload node :: evaluateAll payload rest

/-- The first case whose pattern equals the subject. -/
def evaluateCases (payload : Members N) (subject : Value N) : List (Ast N × Ast N) → Option (Value N)
  | [] => none
  | (pattern, result) :: rest =>
    if isEqual realm subject (normalizeAbsent (evaluateExpression payload pattern)) then some (evaluateExpression payload result)
    else evaluateCases payload subject rest
end

end OpenShapeForge.Formula.Evaluator
