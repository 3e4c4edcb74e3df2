import Mathlib.Data.Sign.Basic
import OpenShapeForge.Extensions.LinkedResolution
import OpenShapeForge.Formula.StoredDates
import OpenShapeForge.Js.Characters
import OpenShapeForge.Library.SqlPredicates

/-! A condition as the runtime evaluates it over a record's values, and as the SQL a rollup asks of its
children (apps/api/src/operations/entity/extensions: model.ts, linked.ts). Finite numbers are those of
an ordered ring; a number's own text is read back by `number`. -/

namespace OpenShapeForge.Extensions.RollupCondition
open Js Formula.Types FieldModel LinkedResolution Library.SqlPredicates
open Formula.StoredDates (yearOf monthOf dayOf)

/-- A value as the runtime holds it; no condition looks into an object. -/
inductive Item (K : Type) where
  | null
  | boolean (value : Bool)
  | number (value : K)
  | text (value : Text)
  | list (items : List (Item K))
  | object

/-- How texts are read: a number of JSON, `Number(value)` of what is neither a number nor null where it
is finite, and a time cast to `timestamptz`. -/
structure Reading (K : Type) where
  number : Text → K
  numberOf : Item K → Option K
  instant : Text → Int

section Runtime
variable {K : Type} [Ring K] [LinearOrder K] (reading : Reading K)

def literalItem : Literal → Item K
  | .null => .null
  | .boolean value => .boolean value
  | .number json => .number (reading.number json)
  | .text value => .text value
  | .list items => .list (literalItems items)
  | .other _ => .object
where
  literalItems : List Literal → List (Item K)
    | [] => []
    | item :: rest => literalItem item :: literalItems rest

/-- `===`; a list and an object of the condition are none that a record holds. -/
def sameItem : Item K → Item K → Bool
  | .null, .null => true
  | .boolean a, .boolean b => a = b
  | .number a, .number b => a = b
  | .text a, .text b => a = b
  | _, _ => false

def includes (items : List (Item K)) (item : Item K) : Bool := items.any fun other => sameItem other item

def empty : Item K → Bool
  | .null => true
  | .text value => value = []
  | .list items => items.isEmpty
  | _ => false

def toNumber : Item K → Option K
  | .number value => some value
  | .null => some 0
  | item => reading.numberOf item

def Item.isNumber : Item K → Bool
  | .number _ => true
  | _ => false

/-- The sign of what the source's `compare` gives. -/
def compareItems (left right : Item K) : Option SignType :=
  if left.isNumber || right.isNumber then
    match toNumber reading left, toNumber reading right with
    | some a, some b => some (SignType.sign (a - b))
    | _, _ => none
  else
    match left, right with
    | .text a, .text b => some (if textLess a b then -1 else if textLess b a then 1 else 0)
    | _, _ => none

def holdsText : Item K → Item K → Bool
  | .text left, .text right => decide (right <:+: left)
  | _, _ => false

def evaluateRule (operator : RuleOperator) (left right : Item K) : Bool :=
  let list := match right with
    | .list items => items
    | item => [item]
  match operator, left with
  | .equals, .list items | .contains, .list items => includes items right
  | .notEquals, .list items | .notContains, .list items => !includes items right
  | .«in», .list items => items.any fun item => includes list item
  | .notIn, .list items => !items.any fun item => includes list item
  | .equals, left => sameItem left right
  | .notEquals, left => !sameItem left right
  | .«in», left => includes list left
  | .notIn, left => !includes list left
  | .isEmpty, left => empty left
  | .isNotEmpty, left => !empty left
  | .contains, left => holdsText left right
  | .notContains, left => !holdsText left right
  | .greaterThan, left => (compareItems reading left right).any fun sign => 0 < sign
  | .greaterThanOrEquals, left => (compareItems reading left right).any fun sign => 0 ≤ sign
  | .lessThan, left => (compareItems reading left right).any fun sign => sign < 0
  | .lessThanOrEquals, left => (compareItems reading left right).any fun sign => sign ≤ 0

mutual

def evaluateCondition (values : FieldPath → Item K) : Condition → Bool
  | .rule left operator right => evaluateRule reading operator (values left) (literalItem reading right)
  | .group any children => if any then evaluateSome values children else evaluateEvery values children

def evaluateSome (values : FieldPath → Item K) : List Condition → Bool
  | [] => false
  | child :: rest => evaluateCondition values child || evaluateSome values rest

def evaluateEvery (values : FieldPath → Item K) : List Condition → Bool
  | [] => true
  | child :: rest => evaluateCondition values child && evaluateEvery values rest

end

end Runtime

structure Day where
  year : Nat
  month : Nat
  day : Nat
deriving DecidableEq

def Day.less (a b : Day) : Bool :=
  a.year < b.year || (a.year = b.year && (a.month < b.month || (a.month = b.month && a.day < b.day)))

def dateOf (text : Text) : Day := ⟨yearOf text, monthOf text, dayOf text⟩

inductive SqlValue (K : Type) where
  | text (chars : List Char)
  | number (value : K)
  | boolean (value : Bool)
  | date (value : Day)
  | timestamp (value : Int)
deriving DecidableEq

inductive SqlOperator where
  | equal | more | atLeast | less | atMost
  /-- `strpos(left, right) > 0`. -/
  | position
deriving DecidableEq

section Sql
variable {K : Type} [Ring K] [LinearOrder K]

/-- Texts in the order of `collate "C"`, that of their characters. -/
def SqlValue.less : SqlValue K → SqlValue K → Bool
  | .text a, .text b => charsLess a b
  | .number a, .number b => a < b
  | .boolean a, .boolean b => !a && b
  | .date a, .date b => a.less b
  | .timestamp a, .timestamp b => a < b
  | _, _ => false

def holds (operator : SqlOperator) (left right : SqlValue K) : Bool :=
  match operator with
  | .equal => left = right
  | .more => right.less left
  | .atLeast => !left.less right
  | .less => left.less right
  | .atMost => !right.less left
  | .position =>
    match left, right with
    | .text left, .text right => decide (right <:+: left)
    | _, _ => false

abbrev RowPredicate (K : Type) := Predicate FieldPath SqlOperator (SqlValue K)

variable (contract : Contract) (reading : Reading K)

def castLiteral (type : FormulaType) (value : Literal) : Option (SqlValue K) :=
  match type, value with
  | .number, .number json => some (.number (reading.number json))
  | .boolean, .boolean value => some (.boolean value)
  | .text, .text value => some (.text (characters value))
  | .date, .text value => if isCalendarDate value then some (.date (dateOf value)) else none
  | .timestamp, .text value => if contract.parsesTime value then some (.timestamp (reading.instant value)) else none
  | _, _ => none

section Rules
variable (path : FieldPath) (field : TargetField) (type : FormulaType)

def literal (value : Literal) : Except Text (SqlValue K) :=
  match castLiteral contract reading type value with
  | some constant => .ok constant
  | none => .error (refusedRule field (Literal.json value ++ js " is no value of it"))

def literals : List Literal → Except Text (List (SqlValue K))
  | [] => .ok []
  | value :: rest => (literal contract reading field type value).bind fun constant => (literals rest).map (constant :: ·)

def listItems : Literal → List Literal
  | .list items => items
  | item => [item]

def listPredicate (right : Literal) : Except Text (RowPredicate K) :=
  let items := listItems right
  if items.isEmpty then .error (refusedRule field (js "the list is empty"))
  else
    let values := items.filter fun item => !Literal.isNull item
    (literals contract reading field type values).map fun constants =>
      let member := if values.isEmpty then .falsehood else .orFalse (.among (.column path) .equal constants)
      if values.length < items.length then .any [member, .isNull (.column path)] else member

def orderPredicate (operator : SqlOperator) (right : Literal) : Except Text (RowPredicate K) :=
  if type = .boolean then .error (refusedRule field (js "it has no order"))
  else (literal contract reading field type right).map fun constant =>
    if type = .number then .test (.orElse path (.number 0)) operator constant else .orFalse (.test (.column path) operator constant)

def containsPredicate (right : Literal) : Except Text (RowPredicate K) :=
  if type ≠ .text then .error (refusedRule field (js "only text contains text"))
  else (literal contract reading field type right).map fun constant => .orFalse (.test (.column path) .position constant)

def blankPredicate : RowPredicate K :=
  if type = .text then .test (.orElse path (.text [])) .equal (.text []) else .isNull (.column path)

def rulePredicate (operator : RuleOperator) (right : Literal) : Except Text (RowPredicate K) :=
  match operator with
  | .equals =>
    if Literal.isNull right then .ok (.isNull (.column path))
    else (literal contract reading field type right).map fun constant => .orFalse (.test (.column path) .equal constant)
  | .notEquals =>
    if Literal.isNull right then .ok (.isNotNull (.column path))
    else (literal contract reading field type right).map fun constant => .isDistinct (.column path) constant
  | .«in» => listPredicate contract reading path field type right
  | .notIn => (listPredicate contract reading path field type right).map .negation
  | .isEmpty => .ok (blankPredicate path type)
  | .isNotEmpty => .ok (.negation (blankPredicate path type))
  | .contains => containsPredicate contract reading path field type right
  | .notContains => (containsPredicate contract reading path field type right).map .negation
  | .greaterThan => orderPredicate contract reading path field type .more right
  | .greaterThanOrEquals => orderPredicate contract reading path field type .atLeast right
  | .lessThan => orderPredicate contract reading path field type .less right
  | .lessThanOrEquals => orderPredicate contract reading path field type .atMost right

end Rules

variable (fields : List (FieldPath × TargetField × FormulaType))

mutual

/-- The predicate `conditionSql` builds. -/
def conditionPredicate : Condition → Except Text (RowPredicate K)
  | .rule left operator right =>
    match fields.find? fun entry => entry.1 = left with
    | none => .error (js "rollup.where: " ++ FieldPath.text left ++ js " is not a field of the collection.")
    | some (_, field, type) => rulePredicate contract reading left field type operator right
  | .group any children => (childPredicates children).map fun parts => if any then .any parts else .all parts

def childPredicates : List Condition → Except Text (List (RowPredicate K))
  | [] => .ok []
  | child :: rest => (conditionPredicate child).bind fun part => (childPredicates rest).map (part :: ·)

end

end Sql

section Refusals
variable {K : Type} (contract : Contract) (reading : Reading K) (field : TargetField) (type : FormulaType)

theorem castLiteral_isSome (value : Literal) : (castLiteral contract reading type value).isSome = fits contract type value := by
  unfold castLiteral fits
  split
  next => rfl
  next => rfl
  next => rfl
  next => split_ifs with isDate <;> simp [isDate]
  next => split_ifs with isTime <;> simp [isTime]
  next => cases type <;> cases value <;> simp_all

theorem literal_refuses (value : Literal) :
    (literal contract reading field type value).map (fun _ => ()) = literalSql contract field type value := by
  unfold literal literalSql
  rw [← castLiteral_isSome contract reading type value]
  cases castLiteral contract reading type value <;> rfl

theorem map_map_unit {α β : Type} (result : Except Text α) (f : α → β) : (result.map f).map (fun _ => ()) = result.map fun _ => () := by
  cases result <;> rfl

theorem literals_refuses (values : List Literal) :
    (literals contract reading field type values).map (fun _ => ()) = literalsSql contract field type values := by
  induction values with
  | nil => rfl
  | cons value rest ih =>
    rw [literals, literalsSql, ← ih, ← literal_refuses contract reading]
    cases literal contract reading field type value with
    | error => rfl
    | ok => exact map_map_unit ..

variable (path : FieldPath)

theorem listPredicate_refuses (right : Literal) : (listPredicate contract reading path field type right).map (fun _ => ()) =
    if (listItems right).isEmpty then .error (refusedRule field (js "the list is empty"))
    else literalsSql contract field type ((listItems right).filter fun item => !Literal.isNull item) := by
  unfold listPredicate
  dsimp only
  split
  next => rfl
  next => rw [map_map_unit, literals_refuses]

variable [Ring K]

theorem rulePredicate_refuses (operator : RuleOperator) (right : Literal) :
    (rulePredicate contract reading path field type operator right).map (fun _ => ()) = ruleSql contract field type operator right := by
  have ordered : ∀ order, (orderPredicate contract reading path field type order right).map (fun _ => ()) =
      if type = .boolean then .error (refusedRule field (js "it has no order")) else literalSql contract field type right := by
    intro order
    unfold orderPredicate
    split
    next => rfl
    next => rw [map_map_unit, literal_refuses]
  have contained : (containsPredicate contract reading path field type right).map (fun _ => ()) =
      if type ≠ .text then .error (refusedRule field (js "only text contains text")) else literalSql contract field type right := by
    unfold containsPredicate
    split
    next => rfl
    next => rw [map_map_unit, literal_refuses]
  cases operator with
  | equals =>
    unfold rulePredicate ruleSql
    dsimp only
    split
    next => rfl
    next => rw [map_map_unit, literal_refuses]
  | notEquals =>
    unfold rulePredicate ruleSql
    dsimp only
    split
    next => rfl
    next => rw [map_map_unit, literal_refuses]
  | «in» => exact listPredicate_refuses contract reading field type path right
  | notIn => exact (map_map_unit _ _).trans (listPredicate_refuses contract reading field type path right)
  | isEmpty => rfl
  | isNotEmpty => rfl
  | contains => exact contained
  | notContains => exact (map_map_unit _ _).trans contained
  | greaterThan => exact ordered _
  | greaterThanOrEquals => exact ordered _
  | lessThan => exact ordered _
  | lessThanOrEquals => exact ordered _

mutual

theorem conditionPredicate_refuses (fields : List (FieldPath × TargetField × FormulaType)) : ∀ condition : Condition,
    (conditionPredicate contract reading fields condition).map (fun _ => ()) = conditionSql contract fields condition
  | .rule left operator right => by
    rw [conditionPredicate, conditionSql]
    cases fields.find? fun entry => entry.1 = left with
    | none => rfl
    | some entry => exact rulePredicate_refuses ..
  | .group any children => by
    rw [conditionPredicate, conditionSql, map_map_unit]
    exact childPredicates_refuse fields children

theorem childPredicates_refuse (fields : List (FieldPath × TargetField × FormulaType)) : ∀ children : List Condition,
    (childPredicates contract reading fields children).map (fun _ => ()) = childrenSql contract fields children
  | [] => by rw [childPredicates, childrenSql]; rfl
  | child :: rest => by
    rw [childPredicates, childrenSql, ← childPredicates_refuse fields rest, ← conditionPredicate_refuses fields child]
    cases conditionPredicate contract reading fields child with
    | error => rfl
    | ok => exact map_map_unit ..

end

end Refusals

end OpenShapeForge.Extensions.RollupCondition
