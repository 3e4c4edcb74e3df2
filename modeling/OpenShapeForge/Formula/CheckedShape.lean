import OpenShapeForge.Formula.CheckCalls

/-! The shape of the expressions that the checker produces: which operators compare, and that no operand
is missing but the one a test has no use for, a default and a format. -/

namespace OpenShapeForge.Formula.CheckedShape
open Js Types Tokens SyntaxTree Functions Check CheckCalls Canonical.Comparison

variable {N : Type}

def isComparison : ConditionOperator → Bool
  | .equals | .notEquals | .greaterThan | .greaterThanOrEquals | .lessThan | .lessThanOrEquals => true
  | _ => false

def isBlankTest : ConditionOperator → Bool
  | .isEmpty | .isNotEmpty => true
  | _ => false

mutual
def Shaped : Ast N → Prop
  | .undefined => False
  | .literal _ | .path _ | .function _ => True
  | .formula _ operands => ShapedAll operands
  | .rule operator left right =>
    Shaped left ∧ ((isComparison operator = true ∧ Shaped right) ∨ (isBlankTest operator = true ∧ right = .undefined))
  | .group _ conditions => ShapedAll conditions
  | .conditional condition thenBranch elseBranch => Shaped condition ∧ Shaped thenBranch ∧ Shaped elseBranch
  | .switch subject cases default => Shaped subject ∧ ShapedCases cases ∧ (default = .undefined ∨ Shaped default)
  | .date _ left right _ => Shaped left ∧ (right = .undefined ∨ Shaped right)

def ShapedAll : List (Ast N) → Prop
  | [] => True
  | node :: rest => Shaped node ∧ ShapedAll rest

def ShapedCases : List (Ast N × Ast N) → Prop
  | [] => True
  | (pattern, result) :: rest => Shaped pattern ∧ Shaped result ∧ ShapedCases rest
end

theorem shapedAll_of {nodes : List (Ast N)} (each : ∀ node ∈ nodes, Shaped node) : ShapedAll nodes := by
  induction nodes with
  | nil => trivial
  | cons node rest ih => exact ⟨each node List.mem_cons_self, ih fun other member => each other (List.mem_cons_of_mem _ member)⟩

theorem shapedCases_of {cases : List (Ast N × Ast N)} (each : ∀ entry ∈ cases, Shaped entry.1 ∧ Shaped entry.2) : ShapedCases cases := by
  induction cases with
  | nil => trivial
  | cons entry rest ih =>
    have first := each entry List.mem_cons_self
    exact ⟨first.1, first.2, ih fun other member => each other (List.mem_cons_of_mem _ member)⟩

section Calls
variable [Unicode] {args : List (Checked N)} (name : Text)

def AllShaped (args : List (Checked N)) : Prop := ∀ arg ∈ args, Shaped arg.ast

theorem shaped_argument (shaped : AllShaped args) {index : Nat} (within : index < args.length) :
    Shaped (argumentOf (callContext name args) index).ast := by
  have member : argumentOf (callContext name args) index ∈ args := by
    change args.getD index undefinedChecked ∈ args
    rw [List.getD_eq_getElem?_getD, List.getElem?_eq_getElem within]
    exact List.getElem_mem within
  exact shaped _ member

theorem shaped_operands (shaped : AllShaped args) : ShapedAll (operandsOf (callContext name args)) :=
  shapedAll_of fun node member => by
    obtain ⟨arg, isArg, rfl⟩ := List.mem_map.mp member
    exact shaped arg isArg

theorem shaped_lower {lowering : Lowering} (shaped : AllShaped args) (arity : Arity lowering args.length) :
    Shaped (lower lowering (callContext name args)).value.2 := by
  cases lowering with
  | simple op argTypes returns => exact shaped_operands name shaped
  | variadic op argTypes returns => exact shaped_operands name shaped
  | conditional =>
    obtain ⟨least, -⟩ := arity
    refine ⟨shaped_argument name shaped (by omega), shaped_argument name shaped (by omega), ?_⟩
    cases third : (callContext name args).args[2]? with
    | none => trivial
    | some otherwise => exact shaped otherwise (List.mem_of_getElem? third)
  | group mode => exact shaped_operands name shaped
  | switch =>
    have positive : 0 < args.length := Nat.lt_of_lt_of_le (by decide) arity
    obtain ⟨pairs, fallback⟩ := switchParts_mem (args.drop 1)
    refine ⟨shaped_argument name shaped positive, shapedCases_of fun entry member => ?_, ?_⟩
    · obtain ⟨pair, isPair, rfl⟩ := List.mem_map.mp member
      have parts := pairs pair isPair
      exact ⟨shaped _ (List.mem_of_mem_drop parts.1), shaped _ (List.mem_of_mem_drop parts.2)⟩
    · cases last : (switchParts ((callContext name args).args.drop 1)).2 with
      | none => exact .inl rfl
      | some other => exact .inr (shaped other (List.mem_of_mem_drop (fallback other last)))
  | blank => trivial
  | isError => exact shaped_operands name shaped
  | boolean value => trivial
  | dateAdd =>
    have count : args.length = 3 := arity
    exact ⟨shaped_argument name shaped (by omega), .inr (shaped_argument name shaped (by omega))⟩
  | dateDiff =>
    obtain ⟨least, -⟩ := arity
    exact ⟨shaped_argument name shaped (by omega), .inr (shaped_argument name shaped (by omega))⟩
  | datetimeFormat =>
    rcases args with _ | ⟨date, _ | ⟨format, rest⟩⟩
    · exact absurd arity.1 (Nat.not_succ_le_zero 0)
    · exact ⟨shaped date List.mem_cons_self, .inl rfl⟩
    · have compiled : (lower .datetimeFormat (callContext name (date :: format :: rest))).value.2 = .date .datetimeFormat date.ast format.ast none := by
        cases rest <;> rfl
      rw [compiled]
      exact ⟨shaped date List.mem_cons_self, .inr (shaped format (List.mem_cons_of_mem _ List.mem_cons_self))⟩
  | datePart op =>
    have count : args.length = 1 := arity
    exact ⟨shaped_argument name shaped (by omega), .inl rfl⟩
  | record name returns => trivial

theorem shaped_call {node : SyntaxNode N} {function : FormulaFunction} (listed : function ∈ formulaFunctions) (shaped : AllShaped args) :
    Shaped (checkKnownCall node name function args).value.ast := by
  unfold checkKnownCall
  split
  next takes => exact shaped_lower name shaped (arity_of_takesCount listed takes)
  next => trivial

end Calls

section Nodes
variable [JsNumber N] [Unicode] (env : FormulaEnvironment)

omit [JsNumber N] [Unicode] in
theorem shaped_designated (node : SyntaxNode N) (display : Text) (designated : List FormulaField) :
    Shaped (checkDesignated node display designated).value.ast := by
  unfold checkDesignated
  split
  next => trivial
  next =>
    split
    next => trivial
    next => trivial
  next => trivial

omit [JsNumber N] in
theorem shaped_field (node : SyntaxNode N) (name : Text) (braced : Bool) (relation : Option Relation) :
    Shaped (checkField env node name braced relation).value.ast := by
  unfold checkField
  dsimp only
  split
  next => trivial
  next => exact shaped_designated _ _ _
  next => exact shaped_designated _ _ _

omit [Unicode] in
theorem shaped_unary {node operandNode : SyntaxNode N} (operator : Sign) {operand : Checked N} (shaped : Shaped operand.ast) :
    Shaped (checkUnary node operator operandNode operand).value.ast := by
  cases operator with
  | plus => exact shaped
  | minus =>
    unfold checkUnary
    cases unwrap operandNode with
    | number => trivial
    | _ => exact ⟨shaped, trivial⟩

omit [JsNumber N] [Unicode] in
theorem shaped_binary {node : SyntaxNode N} {operator : BinaryOperator} {left right : Checked N} (first : Shaped left.ast) (second : Shaped right.ast) :
    Shaped (checkBinary node operator left right).value.ast := by
  cases operator
  case concat | add | sub | mul | div => exact ⟨first, second, trivial⟩
  all_goals exact ⟨first, .inl ⟨rfl, second⟩⟩

omit [JsNumber N] [Unicode] in
theorem shaped_blankTest {node : SyntaxNode N} {operator : BinaryOperator} {subject : Checked N} (shaped : Shaped subject.ast) :
    Shaped (blankTest node operator subject).ast := by
  refine ⟨shaped, .inr ⟨?_, rfl⟩⟩
  split
  next => rfl
  next => rfl

mutual
theorem check_shaped (node : SyntaxNode N) : Shaped (check env node).value.ast := by
  match node with
  | .number value span => trivial
  | .string value span => trivial
  | .boolean value span => trivial
  | .paren inner span =>
    have shaped := check_shaped inner
    rw [check]
    exact shaped
  | .field name braced relation span =>
    rw [check]
    exact shaped_field env _ name braced relation
  | .unary operator operand span =>
    have shaped := check_shaped operand
    rw [check]
    exact shaped_unary operator shaped
  | .binary operator operatorStart left right span =>
    have first := check_shaped left
    have second := check_shaped right
    rw [check]
    split
    next =>
      by_cases blankRight : isBlankCall right = true
      · rw [if_pos blankRight]
        exact shaped_blankTest first
      · rw [if_neg blankRight]
        exact shaped_blankTest second
    next => exact shaped_binary first second
  | .call name nameEnd args span =>
    have shaped := checkAll_shaped args
    rw [check]
    split
    next => trivial
    next =>
      cases found : formulaFunction name with
      | none => trivial
      | some function => exact shaped_call name (List.mem_of_find?_eq_some found) shaped

theorem checkAll_shaped (args : List (SyntaxNode N)) : AllShaped (checkAll env args).value := by
  match args with
  | [] =>
    intro arg member
    cases member
  | node :: rest =>
    have first := check_shaped node
    have others := checkAll_shaped rest
    intro arg member
    rw [checkAll] at member
    rcases List.mem_cons.mp member with rfl | later
    · exact first
    · exact others arg later
end

theorem checkFormula_shaped {node : SyntaxNode N} {options : CheckOptions} {ast : Ast N} (produced : (checkFormula node env options).ast = some ast) :
    Shaped ast := by
  have shaped := check_shaped env node
  unfold checkFormula at produced
  dsimp only at produced
  split at produced
  next =>
    cases produced
    exact shaped
  next => cases produced

end Nodes

end OpenShapeForge.Formula.CheckedShape
