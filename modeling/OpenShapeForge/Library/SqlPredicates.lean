import OpenShapeForge.Library.ThreeValued

/-! Predicates over one row, read by SQL's three-valued logic: a test of a null is not decided,
and what `coalesce`, `is null` and `is distinct from` ask is. -/

namespace OpenShapeForge.Library.SqlPredicates
open ThreeValued

variable {C O V : Type}

/-- A column of the row, or `coalesce` of one and a value. -/
inductive Operand (C V : Type) where
  | column (name : C)
  | orElse (name : C) (value : V)

inductive Predicate (C O V : Type) where
  | falsehood
  | isNull (left : Operand C V)
  | isNotNull (left : Operand C V)
  | isDistinct (left : Operand C V) (right : V)
  /-- An operator of two values. -/
  | test (left : Operand C V) (operator : O) (right : V)
  | among (left : Operand C V) (operator : O) (values : List V)
  /-- `coalesce(inner, false)`. -/
  | orFalse (inner : Predicate C O V)
  | negation (inner : Predicate C O V)
  | all (parts : List (Predicate C O V))
  | any (parts : List (Predicate C O V))

def Operand.read (row : C → Option V) : Operand C V → Option V
  | .column name => row name
  | .orElse name value => some ((row name).getD value)

section Agreement

variable {α : Type*}

theorem allOf_map (parts : List α) {verdict : α → Verdict} {answer : α → Bool} (same : ∀ part ∈ parts, verdict part = some (answer part)) :
    allOf (parts.map verdict) = some (parts.all answer) := by
  cases isAll : parts.all answer with
  | true =>
    refine (allOf_true _).mpr fun found member => ?_
    obtain ⟨part, inside, rfl⟩ := List.mem_map.mp member
    rw [same part inside, List.all_eq_true.mp isAll part inside]
  | false =>
    obtain ⟨part, inside, isFalse⟩ := List.all_eq_false.mp isAll
    refine (allOf_false _).mpr (List.mem_map.mpr ⟨part, inside, ?_⟩)
    rw [same part inside, Bool.eq_false_iff.mpr isFalse]

theorem anyOf_map (parts : List α) {verdict : α → Verdict} {answer : α → Bool} (same : ∀ part ∈ parts, verdict part = some (answer part)) :
    anyOf (parts.map verdict) = some (parts.any answer) := by
  cases isAny : parts.any answer with
  | true =>
    obtain ⟨part, inside, isTrue⟩ := List.any_eq_true.mp isAny
    refine (anyOf_true _).mpr (List.mem_map.mpr ⟨part, inside, ?_⟩)
    rw [same part inside, isTrue]
  | false =>
    refine (anyOf_false _).mpr fun found member => ?_
    obtain ⟨part, inside, rfl⟩ := List.mem_map.mp member
    rw [same part inside, Bool.eq_false_iff.mpr (List.any_eq_false.mp isAny part inside)]

end Agreement

section Evaluation
variable [DecidableEq V] (holds : O → V → V → Bool) (row : C → Option V)

def distinct (left : Option V) (right : V) : Bool := left ≠ some right

mutual

def eval : Predicate C O V → Verdict
  | .falsehood => some false
  | .isNull left => some (left.read row).isNone
  | .isNotNull left => some (left.read row).isSome
  | .isDistinct left right => some (distinct (left.read row) right)
  | .test left operator right => (left.read row).map fun value => holds operator value right
  | .among left operator values => anyOf (values.map fun right => (left.read row).map fun value => holds operator value right)
  | .orFalse inner => some ((eval inner).getD false)
  | .negation inner => (eval inner).map not
  | .all parts => allOf (evalEach parts)
  | .any parts => anyOf (evalEach parts)

def evalEach : List (Predicate C O V) → List Verdict
  | [] => []
  | part :: rest => eval part :: evalEach rest

end

theorem eval_among_some {left : Operand C V} {value : V} (isValue : left.read row = some value) (operator : O) (values : List V) :
    eval holds row (.among left operator values) = some (values.any fun right => holds operator value right) := by
  rw [eval, isValue]
  exact anyOf_map values fun _ _ => rfl

theorem eval_among_none {left : Operand C V} (isNull : left.read row = none) (operator : O) (values : List V) :
    (eval holds row (.among left operator values)).getD false = false := by
  rw [eval, isNull]
  change (anyOf (values.map fun _ => none)).getD false = false
  cases verdict : anyOf (values.map fun _ => (none : Verdict)) with
  | none => rfl
  | some answer =>
    cases answer with
    | false => rfl
    | true =>
      obtain ⟨_, _, never⟩ := List.mem_map.mp ((anyOf_true _).mp verdict)
      cases never

end Evaluation

end OpenShapeForge.Library.SqlPredicates
