import OpenShapeForge.Formula.SyntaxTree

/-! The function vocabulary: Airtable's names and argument order, each typed
statically and lowered onto the canonical AST (packages/formula/src/functions.ts). -/

namespace OpenShapeForge.Formula.Functions
open Js Types SyntaxTree

/-- A checked expression's type: `blank` is BLANK(), `invalid` already has a diagnostic. -/
inductive ValueType where
  | formula (type : FormulaType)
  | blank
  | invalid
deriving DecidableEq

def ValueType.name : ValueType → Text
  | formula type => type.name
  | blank => js "blank"
  | invalid => js "invalid"

structure Checked (N : Type) where
  type : ValueType
  ast : Ast N
  syntaxNode : SyntaxNode N

/-- A field a formula reads, at the place where it names it. -/
structure Reference where
  field : FormulaField
  span : Span
deriving DecidableEq

/-- What checking a node gives: a value, and what was reported and read on the way. -/
structure Report (α : Type) where
  value : α
  errors : List FormulaDiagnostic
  references : List Reference

namespace Report
variable {α β : Type}

def done (value : α) : Report α := ⟨value, [], []⟩

def andThen (first : Report α) (next : α → Report β) : Report β where
  value := (next first.value).value
  errors := first.errors ++ (next first.value).errors
  references := first.references ++ (next first.value).references

instance : Monad Report where
  pure := done
  bind := andThen

end Report

/-- What a function's typing rule can ask of the checker. -/
structure CallContext (N : Type) where
  args : List (Checked N)
  report : FormulaDiagnosticCode → Text → Span → List (Text × Param) → Report Unit
  /-- Reports a mismatch unless the argument is one of the types; blank and invalid always pass. -/
  expect : Nat → List FormulaType → Report Unit
  unify : List (Checked N × Text) → Report ValueType
  /-- The calendar unit literal at a position, or the fallback when the argument is absent. -/
  dateUnit : Nat → Option DateUnit → Report (Option DateUnit)

/-- How a function types its arguments and what it becomes. Functions that only
differ in operators and types share one. -/
inductive Lowering where
  | simple (op : FormulaOperator) (argTypes : List (List FormulaType)) (returns : FormulaType)
  | variadic (op : FormulaOperator) (argTypes : List FormulaType) (returns : FormulaType)
  | conditional
  | group (mode : GroupMode)
  | switch
  | blank
  | isError
  | boolean (value : Bool)
  | dateAdd
  | dateDiff
  | datetimeFormat
  | datePart (op : DateOperator)
  | record (name : RecordFunction) (returns : FormulaType)
deriving DecidableEq

/-- `maxArgs` is none for any number of arguments. -/
structure FormulaFunction where
  name : Text
  signature : Text
  minArgs : Nat
  maxArgs : Option Nat
  lowering : Lowering

def timeFunctions : List Text := [js "NOW", js "TODAY", js "TONOW", js "FROMNOW"]

def temporal : List FormulaType := [.date, .timestamp]
def concatenable : List FormulaType := [.text, .number, .boolean]

def isTemporal (type : FormulaType) : Bool := type ∈ temporal

def comparable : ValueType → ValueType → Bool
  | .blank, _ | _, .blank | .invalid, _ | _, .invalid => true
  | .formula left, .formula right => left = right || (isTemporal left && isTemporal right)

def calendarDayUnits : List DateUnit := [.days, .weeks, .months, .quarters, .years]

section Lower
variable {N : Type}

def expectEach (context : CallContext N) (argTypes : Nat → List FormulaType) : Nat → List (Checked N) → Report Unit
  | _, [] => .done ()
  | index, _ :: rest => do
    context.expect index (argTypes index)
    expectEach context argTypes (index + 1) rest

def undefinedChecked : Checked N := ⟨.invalid, .undefined, .boolean false ⟨0, 0⟩⟩

def argumentOf (context : CallContext N) (index : Nat) : Checked N := context.args.getD index undefinedChecked

/-- The pattern and result pairs of a SWITCH, and its default. -/
def switchParts {α : Type} : List α → List (α × α) × Option α
  | pattern :: result :: rest => ((pattern, result) :: (switchParts rest).1, (switchParts rest).2)
  | [fallback] => ([], some fallback)
  | [] => ([], none)

def switchPatterns (context : CallContext N) (subject : Checked N) :
    Nat → List (Checked N × Checked N) → Report Unit
  | _, [] => .done ()
  | pair, (pattern, _) :: rest => do
    let message := js "SWITCH pattern " ++ decimal (pair + 1) ++ js " is " ++ pattern.type.name ++
      js ", but the expression is " ++ subject.type.name
    let params := [(js "function", .text (js "SWITCH")), (js "pattern", .number (pair + 1)),
      (js "expected", .text subject.type.name), (js "actual", .text pattern.type.name)]
    if comparable subject.type pattern.type then Report.done ()
      else context.report .typeMismatch message pattern.syntaxNode.span params
    switchPatterns context subject (pair + 1) rest

def labelled (first : Nat) : List (Checked N × Checked N) → List (Checked N × Text)
  | [] => []
  | (_, result) :: rest => (result, js "result " ++ decimal (first + 1)) :: labelled (first + 1) rest

def operandsOf (context : CallContext N) : List (Ast N) := context.args.map Checked.ast

/-- A day stays a day when whole calendar days are added to it. -/
def shiftedType (base : ValueType) (found : Option DateUnit) : ValueType :=
  match found with
  | none => .invalid
  | some found =>
    if base = .invalid then .invalid
    else if base = .formula .date ∧ found ∈ calendarDayUnits then .formula .date
    else .formula .timestamp

def lower (lowering : Lowering) (context : CallContext N) : Report (ValueType × Ast N) := do
  match lowering with
  | .simple op argTypes returns => do
    expectEach context (fun index => argTypes.getD index []) 0 context.args
    return (.formula returns, .formula op (operandsOf context))
  | .variadic op argTypes returns => do
    expectEach context (fun _ => argTypes) 0 context.args
    return (.formula returns, .formula op (operandsOf context))
  | .conditional => do
    context.expect 0 [.boolean]
    let branches := (context.args.drop 1).zip [js "then", js "else"]
    let type ← context.unify branches
    let otherwise := match context.args[2]? with
      | some otherwise => otherwise.ast
      | none => .literal .null
    return (type, .conditional (argumentOf context 0).ast (argumentOf context 1).ast otherwise)
  | .group mode => do
    expectEach context (fun _ => [.boolean]) 0 context.args
    return (.formula .boolean, .group mode (operandsOf context))
  | .switch => do
    let subject := argumentOf context 0
    let (cases, fallback) := switchParts (context.args.drop 1)
    switchPatterns context subject 0 cases
    let default := match fallback with
      | some fallback => [(fallback, js "default")]
      | none => []
    let type ← context.unify (labelled 0 cases ++ default)
    let defaultAst := match fallback with
      | some fallback => fallback.ast
      | none => .undefined
    return (type, .switch subject.ast (cases.map fun (pattern, result) => (pattern.ast, result.ast)) defaultAst)
  | .blank => return (.blank, .literal .null)
  | .isError => return (.formula .boolean, .formula .isError (operandsOf context))
  | .boolean value => return (.formula .boolean, .literal (.boolean value))
  | .dateAdd => do
    context.expect 0 temporal
    context.expect 1 [.number]
    let found ← context.dateUnit 2 none
    let base := argumentOf context 0
    return (shiftedType base.type found, .date .dateAdd base.ast (argumentOf context 1).ast (some (found.getD .days)))
  | .dateDiff => do
    context.expect 0 temporal
    context.expect 1 temporal
    let found ← context.dateUnit 2 (some .seconds)
    return (if found.isSome then .formula .number else .invalid,
      .date .dateDiff (argumentOf context 0).ast (argumentOf context 1).ast (some (found.getD .seconds)))
  | .datetimeFormat => do
    context.expect 0 temporal
    if 1 < context.args.length then context.expect 1 [.text] else Report.done ()
    let format := match context.args[1]? with
      | some format => format.ast
      | none => .undefined
    return (.formula .text, .date .datetimeFormat (argumentOf context 0).ast format none)
  | .datePart op => do
    context.expect 0 temporal
    return (.formula .number, .date op (argumentOf context 0).ast .undefined none)
  | .record name returns => return (.formula returns, .function name)

end Lower

def simple (name signature : Text) (op : FormulaOperator) (argTypes : List (List FormulaType)) (returns : FormulaType)
    (minArgs : Nat) : FormulaFunction :=
  ⟨name, signature, minArgs, some argTypes.length, .simple op argTypes returns⟩

def variadic (name signature : Text) (op : FormulaOperator) (argTypes : List FormulaType) (returns : FormulaType) :
    FormulaFunction :=
  ⟨name, signature, 1, none, .variadic op argTypes returns⟩

def datePart (name signature : Text) (op : DateOperator) : FormulaFunction :=
  ⟨name, signature, 1, some 1, .datePart op⟩

def constant (name signature : Text) (lowering : Lowering) : FormulaFunction := ⟨name, signature, 0, some 0, lowering⟩

def formulaFunctions : List FormulaFunction := [
  variadic (js "CONCATENATE") (js "CONCATENATE(text, ...)") .concat concatenable .text,
  simple (js "LEFT") (js "LEFT(text, count)") .left [[.text], [.number]] .text 2,
  simple (js "RIGHT") (js "RIGHT(text, count)") .right [[.text], [.number]] .text 2,
  simple (js "MID") (js "MID(text, start, count)") .mid [[.text], [.number], [.number]] .text 3,
  simple (js "LEN") (js "LEN(text)") .len [[.text]] .number 1,
  simple (js "TRIM") (js "TRIM(text)") .trim [[.text]] .text 1,
  simple (js "UPPER") (js "UPPER(text)") .upper [[.text]] .text 1,
  simple (js "LOWER") (js "LOWER(text)") .lower [[.text]] .text 1,
  simple (js "SUBSTITUTE") (js "SUBSTITUTE(text, old, new, [occurrence])") .substitute
    [[.text], [.text], [.text], [.number]] .text 3,
  ⟨js "IF", js "IF(condition, then, [else])", 2, some 3, .conditional⟩,
  ⟨js "AND", js "AND(condition, ...)", 1, none, .group .all⟩,
  ⟨js "OR", js "OR(condition, ...)", 1, none, .group .any⟩,
  simple (js "NOT") (js "NOT(condition)") .not [[.boolean]] .boolean 1,
  ⟨js "SWITCH", js "SWITCH(expression, pattern, result, ..., [default])", 3, none, .switch⟩,
  constant (js "BLANK") (js "BLANK()") .blank,
  ⟨js "ISERROR", js "ISERROR(expression)", 1, some 1, .isError⟩,
  constant (js "TRUE") (js "TRUE()") (.boolean true),
  constant (js "FALSE") (js "FALSE()") (.boolean false),
  simple (js "ROUND") (js "ROUND(value, [precision])") .round [[.number], [.number]] .number 1,
  simple (js "ROUNDUP") (js "ROUNDUP(value, [precision])") .roundUp [[.number], [.number]] .number 1,
  simple (js "ROUNDDOWN") (js "ROUNDDOWN(value, [precision])") .roundDown [[.number], [.number]] .number 1,
  variadic (js "MIN") (js "MIN(number, ...)") .min [.number] .number,
  variadic (js "MAX") (js "MAX(number, ...)") .max [.number] .number,
  variadic (js "SUM") (js "SUM(number, ...)") .sum [.number] .number,
  variadic (js "AVERAGE") (js "AVERAGE(number, ...)") .average [.number] .number,
  simple (js "ABS") (js "ABS(value)") .abs [[.number]] .number 1,
  simple (js "VALUE") (js "VALUE(text)") .value [[.text]] .number 1,
  simple (js "MOD") (js "MOD(value, divisor)") .mod [[.number], [.number]] .number 2,
  simple (js "POWER") (js "POWER(base, power)") .power [[.number], [.number]] .number 2,
  simple (js "SQRT") (js "SQRT(value)") .sqrt [[.number]] .number 1,
  simple (js "CEILING") (js "CEILING(value, [significance])") .ceiling [[.number], [.number]] .number 1,
  simple (js "FLOOR") (js "FLOOR(value, [significance])") .floor [[.number], [.number]] .number 1,
  ⟨js "DATEADD", js "DATEADD(date, count, 'unit')", 3, some 3, .dateAdd⟩,
  ⟨js "DATETIME_DIFF", js "DATETIME_DIFF(date1, date2, ['unit'])", 2, some 3, .dateDiff⟩,
  ⟨js "DATETIME_FORMAT", js "DATETIME_FORMAT(date, ['format'])", 1, some 2, .datetimeFormat⟩,
  datePart (js "YEAR") (js "YEAR(date)") .year,
  datePart (js "MONTH") (js "MONTH(date)") .month,
  datePart (js "DAY") (js "DAY(date)") .day,
  constant (js "RECORD_ID") (js "RECORD_ID()") (.record .recordId .text),
  constant (js "CREATED_TIME") (js "CREATED_TIME()") (.record .createdTime .timestamp)]

def formulaFunction [Unicode] (name : Text) : Option FormulaFunction :=
  formulaFunctions.find? fun function => function.name = Unicode.toUpperCase name

/-- Unit spellings by canonical unit: those read in any case, then those read as they stand. -/
def unitAliases : List (DateUnit × List Text × List Text) := [
  (.milliseconds, [js "millisecond", js "milliseconds"], [js "ms"]),
  (.seconds, [js "second", js "seconds"], [js "s"]),
  (.minutes, [js "minute", js "minutes"], [js "m"]),
  (.hours, [js "hour", js "hours"], [js "h"]),
  (.days, [js "day", js "days"], [js "d"]),
  (.weeks, [js "week", js "weeks"], [js "w"]),
  (.months, [js "month", js "months"], [js "M"]),
  (.quarters, [js "quarter", js "quarters"], [js "Q"]),
  (.years, [js "year", js "years"], [js "y"])]

def dateUnits : List DateUnit := unitAliases.map Prod.fst

def dateUnitOf [Unicode] (spelling : Text) : Option DateUnit :=
  (unitAliases.find? fun (_, long, short) =>
    decide (Unicode.toLowerCase (trim spelling) ∈ long) || decide (trim spelling ∈ short)).map Prod.fst

end OpenShapeForge.Formula.Functions
