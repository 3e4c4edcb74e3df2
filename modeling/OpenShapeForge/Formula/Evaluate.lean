import OpenShapeForge.Formula.Evaluator
import OpenShapeForge.Js.Utf8
import OpenShapeForge.Operations.FieldValues

/-! Evaluates a formula for one record: every operator means what the canonical evaluator makes of it,
and an error is a reason at the node where it happened (packages/formula/src/evaluate.ts). -/

namespace OpenShapeForge.Formula.Evaluate
open Js Types Canonical.Comparison Spreadsheet
open Evaluator (literalValue evalFormula evalDate evalFunction evalPath isErrorValue)
open Operations.FieldValues (hasLayout)

inductive FormulaErrorCode where
  | divideByZero | invalidNumber | numberOutOfRange | invalidDate | textTooLong | typeError
deriving DecidableEq

/-- What there is, or the reason there is nothing. -/
abbrev Outcome (α : Type) := Except FormulaErrorCode α

abbrev FieldTypes := Text → Option FieldType

/-- The longest text a formula builds on the way to its result. -/
def maxTextLength : Nat := 10000
/-- The longest text a formula may produce, and its most bytes as UTF-8. -/
def maxResultTextLength : Nat := 1000
def maxResultTextBytes : Nat := 2000
def roundingDecimals : Nat := 10

variable {N : Type} [JsNumber N] [JsMath N] [JsDates N] [Unicode] (realm : Realm N)

/-- `Date.parse("0001-01-01T00:00:00.000Z")`. -/
def firstInstant : N := JsNumber.neg (JsNumber.ofNat 62135596800000)

/-- `Date.parse("+010000-01-01T00:00:00.000Z")`. -/
def endInstant : N := JsNumber.ofNat 253402300800000

def fieldTypes (env : FormulaEnvironment) : FieldTypes := fun path =>
  (env.reverse.find? fun field => fieldPath field = path).map FormulaField.type

def toDivisor : Value N → Option N
  | .undefined | .null => some (JsNumber.ofNat 0)
  | .text value => if value = [] then some (JsNumber.ofNat 0) else none
  | .number value => some value
  | _ => none

def dividesByZero (op : FormulaOperator) (values : List (Value N)) : Bool :=
  (op = .div || op = .mod) && (values.drop 1).any fun value => (toDivisor value).any isZero

def textOf (value : Value N) : Text := toText value

/-- How often the needle occurs from a place on; once is enough when one occurrence is named. -/
def matchCount (text needle : Text) (once : Bool) : Nat → Nat → Nat
  | 0, _ => 0
  | fuel + 1, start =>
    match Library.Occurrences.indexFrom needle text start with
    | none => 0
    | some place => if once then 1 else matchCount text needle once fuel (place + needle.length) + 1

/-- The length of the text an operator would build, for the operators whose output can outgrow their
input by more than a constant factor. -/
def builtLength (op : FormulaOperator) (values : List (Value N)) : Nat :=
  match op with
  | .concat => (values.map fun value => (textOf value).length).foldl (· + ·) 0
  | .substitute =>
    let text := textOf (Evaluator.argument values 0)
    let needle := textOf (Evaluator.argument values 1)
    let replacement := textOf (Evaluator.argument values 2)
    if needle = [] ∨ replacement.length ≤ needle.length then 0
    else
      let once := !(Evaluator.argument values 3).isNullish
      text.length + matchCount text needle once (text.length + 1) 0 * (replacement.length - needle.length)
  | _ => 0

/-- A NaN, an infinity, an invalid date or a text that is too long becomes the error that explains it. -/
def check (value : Value N) : Outcome (Value N) :=
  match value with
  | .number number =>
    if JsNumber.isNaN number then .error .invalidNumber
    else if !JsNumber.isFinite number then .error .numberOutOfRange
    else .ok value
  | .text text => if maxTextLength < text.length then .error .textTooLong else .ok value
  | .date time => if JsNumber.isNaN time then .error .invalidDate else .ok value
  | .undefined => .ok .null
  | value => .ok value

section Fields

def isOffset (text : Text) : Bool :=
  text = js "Z" || hasLayout text (js "+dd:dd") || hasLayout text (js "-dd:dd") || hasLayout text (js "+dddd") || hasLayout text (js "-dddd")

def isFractionAndOffset (text : Text) : Bool :=
  isOffset text ||
    (text.head? = some (unit '.') && text.tail.head?.any isDigit && isOffset (text.tail.dropWhile isDigit))

def isTimestampText (text : Text) : Bool :=
  hasLayout (text.take 16) (js "dddd-dd-ddTdd:dd") &&
    (isOffset (text.drop 16) || (hasLayout ((text.drop 16).take 3) (js ":dd") && isFractionAndOffset (text.drop 19)))

/-- The date a text of the form `YYYY-MM-DD` stands for, whose day must come out as it is written. -/
def readDay (text : Text) : Outcome (Value N) :=
  let year : N := JsNumber.ofText (text.take 4)
  let month : N := JsNumber.ofText ((text.drop 5).take 2)
  let day : N := JsNumber.ofText (text.drop 8)
  let zero : N := JsNumber.ofNat 0
  let date := JsDates.dateUTC year (JsMath.sub month (JsNumber.ofNat 1)) day zero zero zero zero
  if JsNumber.equal (JsDates.getUTCDate date) day then .ok (.date date) else .error .invalidDate

def readTemporal (raw : Value N) : Outcome (Value N) :=
  match raw with
  | .date time => if JsNumber.isNaN time then .error .invalidDate else .ok raw
  | .text text =>
    if hasLayout text (js "dddd-dd-dd") then readDay text
    else if !isTimestampText text then .error .invalidDate
    else if JsNumber.isNaN (JsNumber.timeOfText text : N) then .error .invalidDate
    else .ok (.date (JsNumber.timeOfText text))
  | _ => .error .typeError

def readNumber (raw : Value N) : Outcome (Value N) :=
  match raw with
  | .number value => if JsNumber.isFinite value then .ok raw else .error .typeError
  | .text text =>
    if trim text ≠ [] ∧ JsNumber.isFinite (JsNumber.ofText text : N) then .ok (.number (JsNumber.ofText text)) else .error .typeError
  | _ => .error .typeError

def readAs (type : Option FieldType) (raw : Value N) : Outcome (Value N) :=
  match raw, type with
  | .undefined, _ | .null, _ => .ok .null
  | raw, some (.formula .number) => readNumber raw
  | .text text, some (.formula .text) => check (.text text)
  | .boolean value, some (.formula .boolean) => .ok (.boolean value)
  | raw, some (.formula .date) | raw, some (.formula .timestamp) => readTemporal raw
  | _, some (.formula .text) | _, some (.formula .boolean) => .error .typeError
  | raw, none | raw, some (.other _) => check raw

def readField (path : Text) (record : Members N) (types : FieldTypes) : Outcome (Value N) :=
  readAs (types path) (evalPath realm path record)

end Fields

def decides (mode : GroupMode) (value : Value N) : Bool :=
  match mode with
  | .any => value.isTrue
  | .all => !value.isTrue

def branch (node : Ast N) (walked : Outcome (Value N)) : Outcome (Value N) :=
  match node with
  | .undefined => .ok .null
  | _ => walked

mutual
/-- `undefined` stands for an operand that is not there; the source never walks one. -/
def run (record : Members N) (types : FieldTypes) : Ast N → Outcome (Value N)
  | .undefined => .ok .undefined
  | .literal value => check (literalValue value)
  | .path path => readField realm path record types
  | .conditional condition thenBranch elseBranch => do
    let test ← run record types condition
    if test.isTrue then branch thenBranch (run record types thenBranch) else branch elseBranch (run record types elseBranch)
  | .switch subject cases default => do
    let subject ← run record types subject
    match ← runCases record types subject cases with
    | some value => return value
    | none => branch default (run record types default)
  | .group mode conditions => runGroup record types mode conditions
  | .formula op operands =>
    if op = .isError then
      match runFirst record types operands with
      | .error _ => .ok (.boolean true)
      | .ok value => .ok (.boolean (isErrorValue value))
    else do
      let values ← runAll record types operands
      if dividesByZero op values then .error .divideByZero
      else if maxTextLength < builtLength op values then .error .textTooLong
      else check (evalFormula op values)
  | .rule operator left right => do
    let left ← run record types left
    let right ← run record types right
    return .boolean (applyConditionOperator realm operator left right)
  | .date op left right unit => do
    let left ← run record types left
    let right ← run record types right
    check (evalDate op unit left right)
  | .function name => check (evalFunction realm name record)

def runFirst (record : Members N) (types : FieldTypes) : List (Ast N) → Outcome (Value N)
  | [] => .ok .undefined
  | node :: _ => run record types node

def runAll (record : Members N) (types : FieldTypes) : List (Ast N) → Outcome (List (Value N))
  | [] => .ok []
  | node :: rest => do
    let value ← run record types node
    let values ← runAll record types rest
    return value :: values

/-- The first case whose pattern equals the subject. -/
def runCases (record : Members N) (types : FieldTypes) (subject : Value N) : List (Ast N × Ast N) → Outcome (Option (Value N))
  | [] => .ok none
  | (pattern, result) :: rest => do
    let pattern ← run record types pattern
    if isEqual realm subject pattern then
      let value ← run record types result
      return some value
    else runCases record types subject rest

/-- Stops at the first condition that decides the group. -/
def runGroup (record : Members N) (types : FieldTypes) (mode : GroupMode) : List (Ast N) → Outcome (Value N)
  | [] => .ok (.boolean (mode = .all))
  | condition :: rest => do
    let value ← run record types condition
    if decides mode value then return .boolean (mode = .any) else runGroup record types mode rest
end

def rounded (value : N) : N := unsignedZero (JsNumber.ofText (JsMath.toFixed value roundingDecimals))

def isTooLong (text : Text) : Bool := maxResultTextLength < text.length || maxResultTextBytes < (utf8 text).length

def isBeyondYears (time : N) : Bool := !(JsNumber.lessEqual firstInstant time && JsNumber.less time endInstant)

def finish (value : Value N) (resultType : Option FormulaType) : Outcome (Value N) :=
  match value, resultType with
  | .undefined, _ | .null, _ => .ok .null
  | .date time, resultType =>
    if isBeyondYears time then .error .invalidDate
    else match resultType with
      | some .date => .ok (.text ((JsDates.toISOString time).take 10))
      | none | some .timestamp => .ok (.text (JsDates.toISOString time))
      | _ => .error .typeError
  | .text text, resultType =>
    if isTooLong text then .error .textTooLong
    else match resultType with
      | none | some .text => .ok (.text text)
      | _ => .error .typeError
  | .number value, none | .number value, some .number => .ok (.number (rounded value))
  | .boolean value, none | .boolean value, some .boolean => .ok (.boolean value)
  | _, _ => .error .typeError

structure EvaluateOptions where
  env : Option FormulaEnvironment
  resultType : Option FormulaType

def evaluate (ast : Ast N) (record : Members N) (options : EvaluateOptions) : Outcome (Value N) := do
  let value ← run realm record (fieldTypes (options.env.getD [])) ast
  finish value options.resultType

end OpenShapeForge.Formula.Evaluate
