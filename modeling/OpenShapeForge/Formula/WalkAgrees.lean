import OpenShapeForge.Formula.CheckedShape
import OpenShapeForge.Formula.Evaluate
import OpenShapeForge.Library.Failing

/-! The lazy walk and the canonical evaluator. The walk makes a null of every missing value; the
evaluator lets it pass. Equality alone tells the two apart: an absent value and a null are equal to the
walk, and not to the evaluator. -/

namespace OpenShapeForge.Formula.WalkAgrees
open Js Types Canonical.Comparison Spreadsheet Evaluator
open Library.Failing (attempt_bind_ok)
open CheckedShape (Shaped ShapedAll ShapedCases isComparison isBlankTest)
open Evaluate (Outcome FieldTypes check readAs readField run branch runAll runCases runGroup dividesByZero builtLength decides maxTextLength)

variable {N : Type}

section Blind

/-! What takes nothing from whether a value is missing or null. -/

theorem isTrue_normalize (value : Value N) : (normalizeAbsent value).isTrue = value.isTrue := by
  cases value <;> rfl

theorem isBlank_normalize (value : Value N) : isBlank (normalizeAbsent value) = isBlank value := by
  cases value <;> rfl

theorem convertCase_normalize (convert : Text → Text) (value : Value N) : convertCase convert (normalizeAbsent value) = convertCase convert value := by
  cases value <;> rfl

theorem isEmptyValue_normalize (value : Value N) : isEmptyValue (normalizeAbsent value) = isEmptyValue value := by
  cases value <;> rfl

theorem argument_normalize {α : Type} {f : Value N → α} (blind : ∀ value, f (normalizeAbsent value) = f value) (values : List (Value N)) (index : Nat) :
    f (argument (values.map normalizeAbsent) index) = f (argument values index) := by
  unfold argument
  rw [List.getElem?_map]
  cases values[index]? with
  | none => rfl
  | some value => exact blind value

theorem map_normalize {α : Type} {f : Value N → α} (blind : ∀ value, f (normalizeAbsent value) = f value) (values : List (Value N)) :
    (values.map normalizeAbsent).map f = values.map f := by
  rw [List.map_map]
  exact List.map_congr_left fun value _ => blind value

variable [JsNumber N]

theorem toNumber_normalize (value : Value N) : toNumber (normalizeAbsent value) = toNumber value := by
  cases value <;> rfl

theorem isErrorValue_normalize (value : Value N) : isErrorValue (normalizeAbsent value) = isErrorValue value := by
  cases value <;> rfl

theorem timeOf_normalize (value : Value N) : timeOf (normalizeAbsent value) = timeOf value := by
  cases value <;> rfl

theorem presentNumbers_normalize (values : List (Value N)) : presentNumbers (values.map normalizeAbsent) = presentNumbers values := by
  unfold presentNumbers
  induction values with
  | nil => rfl
  | cons value rest ih =>
    rw [List.map_cons, List.filter_cons, List.filter_cons, isBlank_normalize]
    split
    next => rw [List.map_cons, List.map_cons, ih, toNumber_normalize]
    next => exact ih

theorem foldLeft_normalize (combine : N → N → N) (values : List (Value N)) : foldLeft combine (values.map normalizeAbsent) = foldLeft combine values := by
  cases values with
  | nil => rfl
  | cons first rest =>
    unfold foldLeft
    rw [List.map_cons]
    dsimp only
    rw [toNumber_normalize, map_normalize toNumber_normalize]

variable [JsMath N]

theorem parseNumberText_normalize (value : Value N) : parseNumberText (normalizeAbsent value) = parseNumberText value := by
  cases value <;> rfl

theorem wholeCount_normalize (value : Value N) : wholeCount (normalizeAbsent value) = wholeCount value := by
  cases value <;> rfl

theorem precisionOf_normalize (value : Value N) : precisionOf (normalizeAbsent value) = precisionOf value := by
  cases value <;> rfl

theorem toMultiple_normalize (value : N) (round : N → N) (significance : Value N) :
    toMultiple value (normalizeAbsent significance) round = toMultiple value significance round := by
  cases significance <;> rfl

theorem substitute_normalize (text needle replacement : Text) (occurrence : Value N) :
    substitute text needle replacement (normalizeAbsent occurrence) = substitute text needle replacement occurrence := by
  cases occurrence <;> rfl

theorem concatenate_normalize (values : List (Value N)) : concatenate (values.map normalizeAbsent) = concatenate values := by
  unfold concatenate
  rw [map_normalize (fun value => by cases value <;> rfl)]

variable [JsDates N]

theorem toText_normalize (value : Value N) : toText (normalizeAbsent value) = toText value := by
  cases value <;> rfl

theorem evalDate_normalize (op : DateOperator) (unit : Option DateUnit) (left right : Value N) :
    evalDate op unit (normalizeAbsent left) (normalizeAbsent right) = evalDate op unit left right := by
  unfold evalDate
  rw [timeOf_normalize, timeOf_normalize, toNumber_normalize]
  cases right <;> rfl

variable [Unicode]

theorem evalFormula_normalize (op : FormulaOperator) (values : List (Value N)) :
    evalFormula op (values.map normalizeAbsent) = evalFormula op values := by
  have numberAt := argument_normalize toNumber_normalize values
  have textAt := argument_normalize toText_normalize values
  have wholeAt := argument_normalize wholeCount_normalize values
  have precisionAt := argument_normalize precisionOf_normalize values
  have multipleAt := fun (value : N) round =>
    argument_normalize (f := fun significance => toMultiple value significance round) (toMultiple_normalize value round) values
  have substitutedAt := fun text needle replacement => argument_normalize (substitute_normalize text needle replacement) values
  have trueAt := argument_normalize isTrue_normalize values
  have errorAt := argument_normalize isErrorValue_normalize values
  have caseAt := fun convert => argument_normalize (convertCase_normalize convert) values
  have parsedAt := argument_normalize parseNumberText_normalize values
  have numbers := map_normalize toNumber_normalize values
  cases op <;>
    simp only [evalFormula, leftOf, rightOf, mid, numberAt, textAt, wholeAt, precisionAt, multipleAt, substitutedAt, trueAt, errorAt,
      caseAt, parsedAt, numbers, concatenate_normalize, presentNumbers_normalize, foldLeft_normalize]

end Blind

section Equality
variable [JsNumber N] (realm : Realm N)

def isEquality : ConditionOperator → Bool
  | .equals | .notEquals => true
  | _ => false

def mixed : Value N → Value N → Bool
  | .undefined, .null | .null, .undefined => true
  | _, _ => false

theorem isEqual_normalize {left right : Value N} (alike : mixed left right = false) :
    isEqual realm (normalizeAbsent left) (normalizeAbsent right) = isEqual realm left right := by
  cases left <;> cases right <;> first | rfl | cases alike

theorem isEqual_mixed {left right : Value N} (differ : mixed left right = true) :
    isEqual realm (normalizeAbsent left) (normalizeAbsent right) = true ∧ isEqual realm left right = false := by
  cases left <;> cases right <;> first | exact ⟨rfl, rfl⟩ | cases differ

theorem comparison_normalize {operator : ConditionOperator} (compares : isComparison operator = true) {left right : Value N}
    (alike : isEquality operator = true → mixed left right = false) :
    applyConditionOperator realm operator (normalizeAbsent left) (normalizeAbsent right) = applyConditionOperator realm operator left right := by
  cases operator
  case equals => exact isEqual_normalize realm (alike rfl)
  case notEquals => exact congrArg (! ·) (isEqual_normalize realm (alike rfl))
  case greaterThan | greaterThanOrEquals | lessThan | lessThanOrEquals =>
    unfold applyConditionOperator
    dsimp only
    rw [toNumber_normalize, toNumber_normalize]
  all_goals cases compares

theorem blankTest_normalize {operator : ConditionOperator} (tests : isBlankTest operator = true) (left right : Value N) (other : Value N) :
    applyConditionOperator realm operator (normalizeAbsent left) other = applyConditionOperator realm operator left right := by
  cases operator
  case isEmpty => exact isEmptyValue_normalize left
  case isNotEmpty => exact congrArg (! ·) (isEmptyValue_normalize left)
  all_goals cases tests

theorem equality_differs {operator : ConditionOperator} (equality : isEquality operator = true) {left right : Value N} (differ : mixed left right = true) :
    applyConditionOperator realm operator (normalizeAbsent left) (normalizeAbsent right) ≠ applyConditionOperator realm operator left right := by
  obtain ⟨equal, unequal⟩ := isEqual_mixed realm differ
  cases operator
  case equals =>
    change isEqual realm _ _ ≠ isEqual realm _ _
    rw [equal, unequal]
    exact Bool.noConfusion
  case notEquals =>
    change (!isEqual realm _ _) ≠ !isEqual realm _ _
    rw [equal, unequal]
    exact Bool.noConfusion
  all_goals cases equality

omit [JsNumber N] in
theorem shaped_equality {operator : ConditionOperator} {left right : Ast N} (equality : isEquality operator = true) (shaped : Shaped (.rule operator left right)) :
    isComparison operator = true ∧ Shaped right := by
  rcases shaped.2 with compares | ⟨tests, -⟩
  · exact compares
  · cases operator
    case equals | notEquals => cases tests
    all_goals cases equality

end Equality

section Walked
variable [JsNumber N] [JsMath N] [JsDates N] [Unicode] (realm : Realm N)

mutual
/-- No ISERROR anywhere. -/
def WithoutIsError : Ast N → Prop
  | .undefined | .literal _ | .path _ | .function _ => True
  | .formula op operands => op ≠ .isError ∧ AllWithoutIsError operands
  | .rule _ left right => WithoutIsError left ∧ WithoutIsError right
  | .group _ conditions => AllWithoutIsError conditions
  | .conditional condition thenBranch elseBranch => WithoutIsError condition ∧ WithoutIsError thenBranch ∧ WithoutIsError elseBranch
  | .switch subject cases default => WithoutIsError subject ∧ CasesWithoutIsError cases ∧ WithoutIsError default
  | .date _ left right _ => WithoutIsError left ∧ WithoutIsError right

def AllWithoutIsError : List (Ast N) → Prop
  | [] => True
  | node :: rest => WithoutIsError node ∧ AllWithoutIsError rest

def CasesWithoutIsError : List (Ast N × Ast N) → Prop
  | [] => True
  | (pattern, result) :: rest => WithoutIsError pattern ∧ WithoutIsError result ∧ CasesWithoutIsError rest
end

def AlreadyTyped (type : Option FieldType) (raw : Value N) : Prop :=
  raw.isNullish = true ∨
    match type with
    | some (.formula .number) => ∃ value, raw = .number value
    | some (.formula .text) => ∃ value, raw = .text value
    | some (.formula .boolean) => ∃ value, raw = .boolean value
    | some (.formula .date) | some (.formula .timestamp) => ∃ time, raw = .date time
    | none | some (.other _) => True

mutual
/-- No equality that the evaluation reaches has a null on one side and a missing value on the other. -/
def Careful (payload : Members N) : Ast N → Prop
  | .undefined | .literal _ | .path _ | .function _ => True
  | .formula _ operands => CarefulAll payload operands
  | .rule operator left right =>
    Careful payload left ∧ Careful payload right ∧
      (isEquality operator = true → mixed (evaluateExpression realm payload left) (evaluateExpression realm payload right) = false)
  | .group mode conditions => CarefulGroup payload mode conditions
  | .conditional condition thenBranch elseBranch =>
    Careful payload condition ∧
      if (evaluateExpression realm payload condition).isTrue then Careful payload thenBranch else Careful payload elseBranch
  | .switch subject cases default =>
    Careful payload subject ∧ CarefulCases payload (normalizeAbsent (evaluateExpression realm payload subject)) cases ∧
      (evaluateCases realm payload (normalizeAbsent (evaluateExpression realm payload subject)) cases = none → Careful payload default)
  | .date _ left right _ => Careful payload left ∧ Careful payload right

def CarefulAll (payload : Members N) : List (Ast N) → Prop
  | [] => True
  | node :: rest => Careful payload node ∧ CarefulAll payload rest

def CarefulCases (payload : Members N) (subject : Value N) : List (Ast N × Ast N) → Prop
  | [] => True
  | (pattern, result) :: rest =>
    Careful payload pattern ∧
      if isEqual realm subject (normalizeAbsent (evaluateExpression realm payload pattern)) then Careful payload result
      else CarefulCases payload subject rest

def CarefulGroup (payload : Members N) (mode : GroupMode) : List (Ast N) → Prop
  | [] => True
  | condition :: rest =>
    Careful payload condition ∧ (decides mode (evaluateExpression realm payload condition) = false → CarefulGroup payload mode rest)
end

/-- The walk's value, where it has one, is the evaluator's, with null for what is missing. -/
def Agrees (types : FieldTypes) (payload : Members N) (ast : Ast N) : Prop :=
  ∀ value, run realm payload types ast = .ok value → normalizeAbsent (evaluateExpression realm payload ast) = normalizeAbsent value

end Walked

section Agreement

theorem normalize_twice (value : Value N) : normalizeAbsent (normalizeAbsent value) = normalizeAbsent value := by
  cases value <;> rfl

theorem groupValue_cons (mode : GroupMode) (value : Value N) (rest : List Bool) :
    groupValue mode (value.isTrue :: rest) = if decides mode value then decide (mode = .any) else groupValue mode rest := by
  cases mode <;> cases given : value.isTrue <;> simp [groupValue, decides, given]

theorem branch_shaped {node : Ast N} (shaped : Shaped node) (walked : Outcome (Value N)) : branch node walked = walked := by
  cases node with
  | undefined => exact absurd shaped id
  | _ => rfl

variable [JsNumber N]

theorem passed {α : Type} {failed : Prop} [Decidable failed] {code : Evaluate.FormulaErrorCode} {result value : α}
    (ok : (if failed then .error code else .ok result : Outcome α) = .ok value) : ¬failed ∧ value = result := by
  split at ok
  next => cases ok
  next passes => exact ⟨passes, (Except.ok.inj ok).symm⟩

theorem check_ok {raw value : Value N} (checked : check raw = .ok value) : value = normalizeAbsent raw := by
  cases raw with
  | number number =>
    change (if JsNumber.isNaN number = true then Except.error _ else if (!JsNumber.isFinite number) = true then .error _ else .ok _) = _ at checked
    split at checked
    next => cases checked
    next => exact (passed checked).2
  | text text => exact (passed checked).2
  | date time => exact (passed checked).2
  | undefined => exact (Except.ok.inj checked).symm
  | null => exact (Except.ok.inj checked).symm
  | boolean _ => exact (Except.ok.inj checked).symm
  | array _ => exact (Except.ok.inj checked).symm
  | object _ => exact (Except.ok.inj checked).symm
  | builtin _ => exact (Except.ok.inj checked).symm

variable [JsMath N] [JsDates N]

theorem readAs_typed {type : Option FieldType} {raw value : Value N} (typed : AlreadyTyped type raw) (read : readAs type raw = .ok value) :
    value = normalizeAbsent raw := by
  rcases typed with missing | typed
  · cases raw with
    | undefined =>
      rw [readAs] at read
      exact (Except.ok.inj read).symm
    | null =>
      rw [readAs] at read
      exact (Except.ok.inj read).symm
    | _ => cases missing
  · match type with
    | some (.formula .number) =>
      obtain ⟨number, rfl⟩ := typed
      change (if JsNumber.isFinite number = true then Except.ok _ else .error _) = _ at read
      split at read
      next => exact (Except.ok.inj read).symm
      next => cases read
    | some (.formula .text) =>
      obtain ⟨text, rfl⟩ := typed
      exact check_ok read
    | some (.formula .boolean) =>
      obtain ⟨boolean, rfl⟩ := typed
      exact (Except.ok.inj read).symm
    | some (.formula .date) | some (.formula .timestamp) =>
      obtain ⟨time, rfl⟩ := typed
      exact (passed read).2
    | none | some (.other _) =>
      cases raw <;> exact check_ok read

section Nodes
variable [Unicode] {realm : Realm N} {types : FieldTypes} {payload : Members N}

mutual
theorem run_agrees (typed : ∀ path, AlreadyTyped (types path) (evalPath realm path payload)) (node : Ast N) (shaped : Shaped node)
    (without : WithoutIsError node) (careful : Careful realm payload node) {value : Value N} (ran : run realm payload types node = .ok value) :
    value = normalizeAbsent (evaluateExpression realm payload node) := by
  match node with
  | .undefined => exact absurd shaped id
  | .literal literal =>
    rw [run] at ran
    exact check_ok ran
  | .path path =>
    rw [run] at ran
    exact readAs_typed (typed path) ran
  | .function name =>
    rw [run] at ran
    exact check_ok ran
  | .formula op operands =>
    rw [run, if_neg without.1, attempt_bind_ok] at ran
    obtain ⟨values, operandsRan, ran⟩ := ran
    have same := runAll_agrees typed operands shaped without.2 careful operandsRan
    split at ran
    next => cases ran
    next =>
      split at ran
      next => cases ran
      next =>
        rw [check_ok ran, same, evalFormula_normalize, evaluateExpression]
  | .rule operator left right =>
    rw [run, attempt_bind_ok] at ran
    obtain ⟨leftValue, leftRan, ran⟩ := ran
    rw [attempt_bind_ok] at ran
    obtain ⟨rightValue, rightRan, ran⟩ := ran
    have first := run_agrees typed left shaped.1 without.1 careful.1 leftRan
    have result : value = .boolean (applyConditionOperator realm operator leftValue rightValue) := (Except.ok.inj ran).symm
    rw [result, evaluateExpression]
    rcases shaped.2 with ⟨compares, rightShaped⟩ | ⟨tests, -⟩
    · have second := run_agrees typed right rightShaped without.2 careful.2.1 rightRan
      rw [first, second, comparison_normalize realm compares careful.2.2]
      rfl
    · rw [first, blankTest_normalize realm tests]
      rfl
  | .group mode conditions =>
    rw [run] at ran
    rw [runGroup_agrees typed mode conditions shaped without careful ran, evaluateExpression]
    rfl
  | .conditional condition thenBranch elseBranch =>
    rw [run, attempt_bind_ok] at ran
    obtain ⟨test, tested, ran⟩ := ran
    have same := run_agrees typed condition shaped.1 without.1 careful.1 tested
    rw [same, isTrue_normalize] at ran
    have taken := careful.2
    rw [evaluateExpression]
    split at ran
    next isTrue =>
      rw [if_pos isTrue] at taken ⊢
      rw [branch_shaped shaped.2.1] at ran
      exact run_agrees typed thenBranch shaped.2.1 without.2.1 taken ran
    next notTrue =>
      rw [if_neg notTrue] at taken ⊢
      rw [branch_shaped shaped.2.2] at ran
      exact run_agrees typed elseBranch shaped.2.2 without.2.2 taken ran
  | .switch subject cases default =>
    rw [run, attempt_bind_ok] at ran
    obtain ⟨subjectValue, subjectRan, ran⟩ := ran
    rw [attempt_bind_ok] at ran
    obtain ⟨chosen, casesRan, ran⟩ := ran
    have same := run_agrees typed subject shaped.1 without.1 careful.1 subjectRan
    rw [same] at casesRan
    have found := runCases_agrees typed _ cases shaped.2.1 without.2.1 careful.2.1 casesRan
    rw [evaluateExpression]
    cases chosen with
    | some result =>
      obtain ⟨evaluated, isCase, rfl⟩ := Option.map_eq_some_iff.mp found.symm
      rw [isCase]
      exact (Except.ok.inj ran).symm
    | none =>
      have noCase := Option.map_eq_none_iff.mp found.symm
      rw [noCase]
      rcases shaped.2.2 with missing | defaultShaped
      · rw [missing, branch] at ran
        rw [missing]
        exact (Except.ok.inj ran).symm
      · replace ran : branch default (run realm payload types default) = .ok value := ran
        rw [branch_shaped defaultShaped] at ran
        exact run_agrees typed default defaultShaped without.2.2 (careful.2.2 noCase) ran
  | .date op left right unit =>
    rw [run, attempt_bind_ok] at ran
    obtain ⟨leftValue, leftRan, ran⟩ := ran
    rw [attempt_bind_ok] at ran
    obtain ⟨rightValue, rightRan, ran⟩ := ran
    have first := run_agrees typed left shaped.1 without.1 careful.1 leftRan
    have second : normalizeAbsent rightValue = normalizeAbsent (evaluateExpression realm payload right) := by
      rcases shaped.2 with missing | rightShaped
      · rw [missing, run] at rightRan
        rw [missing, evaluateExpression, ← Except.ok.inj rightRan]
      · rw [run_agrees typed right rightShaped without.2 careful.2 rightRan, normalize_twice]
    rw [check_ok ran, evaluateExpression, ← evalDate_normalize, first, second, normalize_twice, evalDate_normalize]

theorem runAll_agrees (typed : ∀ path, AlreadyTyped (types path) (evalPath realm path payload)) (nodes : List (Ast N)) (shaped : ShapedAll nodes)
    (without : AllWithoutIsError nodes) (careful : CarefulAll realm payload nodes) {values : List (Value N)}
    (ran : runAll realm payload types nodes = .ok values) : values = (evaluateAll realm payload nodes).map normalizeAbsent := by
  match nodes with
  | [] =>
    rw [runAll] at ran
    rw [evaluateAll, ← Except.ok.inj ran]
    rfl
  | node :: rest =>
    rw [runAll, attempt_bind_ok] at ran
    obtain ⟨value, nodeRan, ran⟩ := ran
    rw [attempt_bind_ok] at ran
    obtain ⟨others, restRan, ran⟩ := ran
    rw [evaluateAll, List.map_cons, ← run_agrees typed node shaped.1 without.1 careful.1 nodeRan,
      ← runAll_agrees typed rest shaped.2 without.2 careful.2 restRan]
    exact (Except.ok.inj ran).symm

theorem runGroup_agrees (typed : ∀ path, AlreadyTyped (types path) (evalPath realm path payload)) (mode : GroupMode) (conditions : List (Ast N))
    (shaped : ShapedAll conditions) (without : AllWithoutIsError conditions) (careful : CarefulGroup realm payload mode conditions) {value : Value N}
    (ran : runGroup realm payload types mode conditions = .ok value) :
    value = .boolean (groupValue mode ((evaluateAll realm payload conditions).map Value.isTrue)) := by
  match conditions with
  | [] =>
    rw [runGroup] at ran
    rw [evaluateAll, ← Except.ok.inj ran]
    cases mode <;> rfl
  | condition :: rest =>
    rw [runGroup, attempt_bind_ok] at ran
    obtain ⟨first, tested, ran⟩ := ran
    have same := run_agrees typed condition shaped.1 without.1 careful.1 tested
    have decided : decides mode first = decides mode (evaluateExpression realm payload condition) := by
      rw [same]
      unfold decides
      rw [isTrue_normalize]
    rw [evaluateAll, List.map_cons, groupValue_cons]
    rw [decided] at ran
    split at ran
    next decisive =>
      rw [if_pos decisive]
      exact (Except.ok.inj ran).symm
    next open_ =>
      rw [if_neg open_]
      exact runGroup_agrees typed mode rest shaped.2 without.2 (careful.2 (eq_false_of_ne_true open_)) ran

theorem runCases_agrees (typed : ∀ path, AlreadyTyped (types path) (evalPath realm path payload)) (subject : Value N)
    (cases : List (Ast N × Ast N)) (shaped : ShapedCases cases) (without : CasesWithoutIsError cases)
    (careful : CarefulCases realm payload (normalizeAbsent subject) cases) {chosen : Option (Value N)}
    (ran : runCases realm payload types (normalizeAbsent subject) cases = .ok chosen) :
    chosen = (evaluateCases realm payload (normalizeAbsent subject) cases).map normalizeAbsent := by
  match cases with
  | [] =>
    rw [runCases] at ran
    rw [evaluateCases, ← Except.ok.inj ran]
    rfl
  | (pattern, result) :: rest =>
    rw [runCases, attempt_bind_ok] at ran
    obtain ⟨patternValue, patternRan, ran⟩ := ran
    have same := run_agrees typed pattern shaped.1 without.1 careful.1 patternRan
    have taken := careful.2
    rw [same] at ran
    rw [evaluateCases]
    split at ran
    next equal =>
      rw [if_pos equal] at taken ⊢
      rw [attempt_bind_ok] at ran
      obtain ⟨value, resultRan, ran⟩ := ran
      rw [Option.map_some, ← run_agrees typed result shaped.2.1 without.2.1 taken resultRan]
      exact (Except.ok.inj ran).symm
    next differ =>
      rw [if_neg differ] at taken ⊢
      exact runCases_agrees typed subject rest shaped.2.2 without.2.2 taken ran
end

theorem equality_agrees_iff (typed : ∀ path, AlreadyTyped (types path) (evalPath realm path payload)) {operator : ConditionOperator} {left right : Ast N}
    (shaped : Shaped (.rule operator left right)) (without : WithoutIsError (.rule operator left right)) (equality : isEquality operator = true)
    (carefulLeft : Careful realm payload left) (carefulRight : Careful realm payload right)
    (gives : ∃ value, run realm payload types (.rule operator left right) = .ok value) :
    Agrees realm types payload (.rule operator left right) ↔
      mixed (evaluateExpression realm payload left) (evaluateExpression realm payload right) = false := by
  constructor
  · intro agrees
    obtain ⟨value, ran⟩ := gives
    have same := agrees value ran
    rw [run, attempt_bind_ok] at ran
    obtain ⟨leftValue, leftRan, ran⟩ := ran
    rw [attempt_bind_ok] at ran
    obtain ⟨rightValue, rightRan, ran⟩ := ran
    have first := run_agrees typed left shaped.1 without.1 carefulLeft leftRan
    have second := run_agrees typed right (shaped_equality equality shaped).2 without.2 carefulRight rightRan
    have result : value = .boolean (applyConditionOperator realm operator leftValue rightValue) := (Except.ok.inj ran).symm
    rw [result, evaluateExpression, first, second] at same
    by_contra differ
    refine equality_differs realm equality (eq_true_of_ne_false differ) ?_
    injection same.symm
  · intro alike value ran
    have careful : Careful realm payload (.rule operator left right) := ⟨carefulLeft, carefulRight, fun _ => alike⟩
    rw [run_agrees typed _ shaped without careful ran, normalize_twice]

/-- The walk agrees with the evaluator on what the checker produces, unless an equality that is reached
has a null on one side and a missing value on the other; a formula that is one such equality does not. -/
theorem walk_agrees_when {node : SyntaxTree.SyntaxNode N} {env : FormulaEnvironment} {options : Check.CheckOptions} {ast : Ast N}
    (produced : (Check.checkFormula node env options).ast = some ast) (without : WithoutIsError ast)
    (typed : ∀ path, AlreadyTyped (types path) (evalPath realm path payload)) :
    (Careful realm payload ast → Agrees realm types payload ast) ∧
      ∀ operator left right, ast = .rule operator left right → isEquality operator = true → Careful realm payload left → Careful realm payload right →
        (∃ value, run realm payload types ast = .ok value) →
        (Agrees realm types payload ast ↔ mixed (evaluateExpression realm payload left) (evaluateExpression realm payload right) = false) := by
  have shaped := CheckedShape.checkFormula_shaped env produced
  constructor
  · intro careful value ran
    rw [run_agrees typed ast shaped without careful ran, normalize_twice]
  · intro operator left right same equality carefulLeft carefulRight gives
    subst same
    exact equality_agrees_iff typed shaped without equality carefulLeft carefulRight gives

end Nodes

end Agreement

section Compared
open SyntaxTree

def amount (id label : Text) : FormulaField where
  id
  label
  key := id
  type := .formula .number
  scope := .self
  classified := false
  outOfScope := none
  kind := .stored
  depth := none
  dependencies := []

def amounts : FormulaEnvironment := [amount (js "f-net") (js "Net"), amount (js "f-gross") (js "Gross")]

/-- `{Net} = {Gross}`. -/
def netIsGross : SyntaxNode Whole :=
  .binary .equal 6 (.field (js "Net") true none ⟨0, 5⟩) (.field (js "Gross") true none ⟨8, 15⟩) ⟨0, 15⟩

def netIsGrossAst : Ast Whole := .rule .equals (.path (js "f-net")) (.path (js "f-gross"))

def amountTypes : FieldTypes := Evaluate.fieldTypes amounts

def ownedRealm : Realm Whole := ⟨.finite 0, fun _ _ => .undefined, fun _ _ => false⟩

theorem netIsGross_produced : (@Check.checkFormula Whole _ asciiTables netIsGross amounts ⟨none, none⟩).ast = some netIsGrossAst := by
  rfl

theorem amountTypes_other {path : Text} (notNet : path ≠ js "f-net") (notGross : path ≠ js "f-gross") : amountTypes path = none := by
  have gross : decide (js "f-gross" = path) = false := decide_eq_false notGross.symm
  have net : decide (js "f-net" = path) = false := decide_eq_false notNet.symm
  change (([amount (js "f-gross") (js "Gross"), amount (js "f-net") (js "Net")] : List FormulaField).find? fun field => decide (fieldPath field = path)).map _ = none
  rw [List.find?_cons_of_neg, List.find?_cons_of_neg]
  · rfl
  · exact ne_true_of_eq_false net
  · exact ne_true_of_eq_false gross

theorem amounts_typed (payload : Members Whole) (net : AlreadyTyped (some (.formula .number)) (evalPath ownedRealm (js "f-net") payload))
    (gross : AlreadyTyped (some (.formula .number)) (evalPath ownedRealm (js "f-gross") payload)) (path : Text) :
    AlreadyTyped (amountTypes path) (evalPath ownedRealm path payload) := by
  by_cases isNet : path = js "f-net"
  · rw [isNet]
    exact net
  by_cases isGross : path = js "f-gross"
  · rw [isGross]
    exact gross
  · rw [amountTypes_other isNet isGross]
    exact .inr trivial

/-- Two amounts that are there. -/
theorem walk_agrees_amounts :
    @Agrees Whole _ _ _ asciiTables ownedRealm amountTypes [(js "f-net", .number (.finite 3)), (js "f-gross", .number (.finite 4))] netIsGrossAst := by
  have typed := amounts_typed [(js "f-net", .number (.finite 3)), (js "f-gross", .number (.finite 4))] (.inr ⟨_, rfl⟩) (.inr ⟨_, rfl⟩)
  have agreement := @walk_agrees_when Whole _ _ _ asciiTables _ _ _ _ _ _ _ netIsGross_produced ⟨trivial, trivial⟩ typed
  exact agreement.1 ⟨trivial, trivial, fun _ => rfl⟩

/-- An amount that is not there, and one that is null: equal to the walk only. -/
theorem absent_is_null : ¬∀ (node : SyntaxNode Whole) (env : FormulaEnvironment) (options : Check.CheckOptions) (ast : Ast Whole) (realm : Realm Whole)
    (types : FieldTypes) (payload : Members Whole), (@Check.checkFormula Whole _ asciiTables node env options).ast = some ast → WithoutIsError ast →
    (∀ path, AlreadyTyped (types path) (evalPath realm path payload)) → @Agrees Whole _ _ _ asciiTables realm types payload ast := by
  intro claimed
  have typed := amounts_typed [(js "f-gross", .null)] (.inl rfl) (.inl rfl)
  have agrees := claimed _ _ _ _ _ _ _ netIsGross_produced ⟨trivial, trivial⟩ typed
  have same := agrees (.boolean true) rfl
  cases same

end Compared

end OpenShapeForge.Formula.WalkAgrees
