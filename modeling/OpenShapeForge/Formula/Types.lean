import OpenShapeForge.Canonical.Comparison
import OpenShapeForge.Formula.Graph

/-! What formulas are about: fields, types, diagnostics and the canonical AST
(packages/formula/src/types.ts, check.ts, dependencies.ts). -/

namespace OpenShapeForge.Formula.Types
open Js Canonical.Comparison

inductive FormulaType where
  | text | number | boolean | date | timestamp
deriving DecidableEq

def FormulaType.name : FormulaType → Text
  | text => js "text"
  | number => js "number"
  | boolean => js "boolean"
  | date => js "date"
  | timestamp => js "timestamp"

/-- `other` is a type no formula can read. -/
inductive FieldType where
  | formula (type : FormulaType)
  | other (name : Text)
deriving DecidableEq

def FieldType.name : FieldType → Text
  | formula type => type.name
  | other name => name

inductive FormulaFieldScope where
  | self
  | relation (name : Text)
deriving DecidableEq

inductive FormulaFieldKind where
  | stored | formula | lookup | rollup
deriving DecidableEq

structure FormulaFieldRef where
  id : Text
  scope : FormulaFieldScope
deriving DecidableEq

structure FormulaField where
  id : Text
  label : Text
  key : Text
  type : FieldType
  scope : FormulaFieldScope
  classified : Bool
  /-- Why a formula may not read the field, when it is listed only to refuse it. -/
  outOfScope : Option Text
  kind : FormulaFieldKind
  depth : Option Nat
  dependencies : List FormulaFieldRef
deriving DecidableEq

abbrev FormulaEnvironment := List FormulaField

def isComputedField (field : FormulaField) : Bool :=
  field.kind = .formula || field.kind = .lookup || field.kind = .rollup

def scopeKey : FormulaFieldScope → Text
  | .self => []
  | .relation name => name

def pathOf (id : Text) : FormulaFieldScope → Text
  | .self => id
  | .relation name => name ++ js "." ++ id

def fieldPath (field : FormulaField) : Text := pathOf field.id field.scope

structure Span where
  start : Nat
  stop : Nat
deriving DecidableEq

inductive FormulaDiagnosticCode where
  | syntaxError | tooComplex | unknownField | ambiguousField | unknownFunction | argumentCount | invalidArgument
  | typeMismatch | mixedBranches | undeterminedType | timeFunction | outOfScope | unsupportedFieldType
  | classifiedField | cycle | depthExceeded
deriving DecidableEq

inductive Param where
  | text (value : Text)
  | number (value : Nat)
deriving DecidableEq

structure FormulaDiagnostic where
  code : FormulaDiagnosticCode
  message : Text
  span : Span
  params : List (Text × Param)
deriving DecidableEq

inductive FormulaOperator where
  | add | sub | mul | div | mod | concat
  | lower | upper | left | right | mid | len | trim | substitute
  | not | negate | isError
  | round | roundUp | roundDown | abs | value | power | sqrt | ceiling | floor
  | min | max | sum | average
deriving DecidableEq

inductive DateOperator where
  | dateDiff | dateAdd | datetimeFormat | year | month | day
deriving DecidableEq

inductive DateUnit where
  | milliseconds | seconds | minutes | hours | days | weeks | months | quarters | years
deriving DecidableEq

def DateUnit.name : DateUnit → Text
  | milliseconds => js "milliseconds"
  | seconds => js "seconds"
  | minutes => js "minutes"
  | hours => js "hours"
  | days => js "days"
  | weeks => js "weeks"
  | months => js "months"
  | quarters => js "quarters"
  | years => js "years"

inductive GroupMode where
  | all | any
deriving DecidableEq

inductive RecordFunction where
  | recordId | createdTime
deriving DecidableEq

inductive Literal (N : Type) where
  | null
  | boolean (value : Bool)
  | text (value : Text)
  | number (value : N)
deriving DecidableEq

/-- The canonical expressions a formula compiles to. `undefined` stands for a
property that is not there. -/
inductive Ast (N : Type) where
  | undefined
  | literal (value : Literal N)
  | path (path : Text)
  | formula (op : FormulaOperator) (operands : List (Ast N))
  | rule (operator : ConditionOperator) (left right : Ast N)
  | group (mode : GroupMode) (conditions : List (Ast N))
  | conditional (condition thenBranch elseBranch : Ast N)
  | switch (subject : Ast N) (cases : List (Ast N × Ast N)) (default : Ast N)
  | date (op : DateOperator) (left right : Ast N) (unit : Option DateUnit)
  | function (name : RecordFunction)

namespace Ast
variable {N : Type}

mutual
def paths : Ast N → List Text
  | .undefined | .literal _ | .function _ => []
  | .path name => [name]
  | .formula _ operands => pathsOfAll operands
  | .rule _ left right => left.paths ++ right.paths
  | .group _ conditions => pathsOfAll conditions
  | .conditional condition thenBranch elseBranch => condition.paths ++ thenBranch.paths ++ elseBranch.paths
  | .switch subject cases default => subject.paths ++ pathsOfCases cases ++ default.paths
  | .date _ left right _ => left.paths ++ right.paths

def pathsOfAll : List (Ast N) → List Text
  | [] => []
  | node :: rest => node.paths ++ pathsOfAll rest

def pathsOfCases : List (Ast N × Ast N) → List Text
  | [] => []
  | (pattern, result) :: rest => pattern.paths ++ result.paths ++ pathsOfCases rest
end

end Ast

/-- A path up to its first dot names the relation, when it has one. -/
def refOfPath (path : Text) : FormulaFieldRef :=
  match path.idxOf? (unit '.') with
  | none => ⟨path, .self⟩
  | some dot => ⟨path.drop (dot + 1), .relation (path.take dot)⟩

def dependencies {N : Type} (ast : Ast N) : List FormulaFieldRef := (Library.distinct ast.paths).map refOfPath

end OpenShapeForge.Formula.Types
