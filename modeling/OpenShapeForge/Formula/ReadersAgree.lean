import OpenShapeForge.Formula.CheckCalls
import OpenShapeForge.Js.Whole

/-! The fields that the checker comes by while it walks a formula are those of the expression it makes of
it, in the same order: lowering a call drops, adds and moves none. -/

namespace OpenShapeForge.Formula.ReadersAgree
open Js Library Types Tokens SyntaxTree Functions Check CheckCalls

section Silence
variable {α β : Type}

/-- Nothing is read on the way. -/
def Silent (report : Report α) : Prop := report.references = []

theorem silent_done (value : α) : Silent (.done value) := rfl

theorem silent_report (code : FormulaDiagnosticCode) (message : Text) (span : Span) (params : List (Text × Param)) :
    Silent (report code message span params) := rfl

theorem Silent.bind {first : Report α} {next : α → Report β} (silent : Silent first) (later : ∀ value, Silent (next value)) :
    Silent (first >>= next) := by
  show first.references ++ (next first.value).references = []
  rw [show first.references = [] from silent, show (next first.value).references = [] from later first.value]
  rfl

variable {N : Type} [Unicode] {name : Text} {args : List (Checked N)}

omit [Unicode] in
theorem silent_expect (index : Nat) (allowed : List FormulaType) : Silent (expectArgument name args index allowed) := by
  unfold expectArgument
  split
  next => rfl
  next arg found =>
    split
    next => rfl
    next => rfl
    next type =>
      split
      next => rfl
      next => rfl

theorem silent_expectEach (argTypes : Nat → List FormulaType) (rest : List (Checked N)) :
    ∀ index, Silent (expectEach (callContext name args) argTypes index rest) := by
  induction rest with
  | nil => exact fun index => rfl
  | cons arg rest ih =>
    intro index
    exact (silent_expect index (argTypes index)).bind fun _ => ih (index + 1)

omit [Unicode] in
theorem silent_unifyFrom (branches : List (Checked N × Text)) : ∀ index seen, Silent (unifyFrom name index seen branches) := by
  induction branches with
  | nil => exact fun index seen => rfl
  | cons branch rest ih =>
    intro index seen
    unfold unifyFrom
    split
    next => exact ih _ _
    next => exact ih _ _
    next => exact ih _ _
    next =>
      split
      next => exact ih _ _
      next => exact (silent_report _ _ _ _).bind fun _ => ih _ _

omit [Unicode] in
theorem silent_unify (branches : List (Checked N × Text)) : Silent (unify name branches) := by
  refine (silent_unifyFrom branches 0 _).bind fun seen => ?_
  split
  next => rfl
  next =>
    split
    next => rfl
    next => rfl

theorem silent_unit (index : Nat) (fallback : Option DateUnit) : Silent (checkUnit name args index fallback) := by
  unfold checkUnit
  split
  next => rfl
  next =>
    split
    next => rfl
    next => rfl

theorem silent_patterns (subject : Checked N) (pairs : List (Checked N × Checked N)) :
    ∀ pair, Silent (switchPatterns (callContext name args) subject pair pairs) := by
  induction pairs with
  | nil => exact fun pair => rfl
  | cons entry rest ih =>
    intro pair
    unfold switchPatterns
    dsimp only
    split
    next => exact (silent_done ()).bind fun _ => ih _
    next => exact (silent_report _ _ _ _).bind fun _ => ih _

theorem silent_lower (lowering : Lowering) : Silent (lower lowering (callContext name args)) := by
  cases lowering with
  | simple op argTypes returns => exact (silent_expectEach _ _ _).bind fun _ => rfl
  | variadic op argTypes returns => exact (silent_expectEach _ _ _).bind fun _ => rfl
  | conditional => exact (silent_expect _ _).bind fun _ => (silent_unify _).bind fun _ => rfl
  | group mode => exact (silent_expectEach _ _ _).bind fun _ => rfl
  | switch => exact (silent_patterns _ _ _).bind fun _ => (silent_unify _).bind fun _ => rfl
  | blank | isError | boolean | record => rfl
  | dateAdd => exact (silent_expect _ _).bind fun _ => (silent_expect _ _).bind fun _ => (silent_unit _ _).bind fun _ => silent_done _
  | dateDiff => exact (silent_expect _ _).bind fun _ => (silent_expect _ _).bind fun _ => (silent_unit _ _).bind fun _ => silent_done _
  | datetimeFormat =>
    refine (silent_expect _ _).bind fun _ => ?_
    dsimp only
    split
    next => exact (silent_expect _ _).bind fun _ => silent_done _
    next => exact (silent_done ()).bind fun _ => silent_done _
  | datePart op => exact (silent_expect _ _).bind fun _ => rfl

end Silence

section Paths
variable {N : Type} [Unicode]

def argumentPaths (args : List (Checked N)) : List Text := args.flatMap fun arg => arg.ast.paths

omit [Unicode] in
theorem pathsOfAll_map (args : List (Checked N)) : Ast.pathsOfAll (args.map Checked.ast) = argumentPaths args := by
  induction args with
  | nil => rfl
  | cons arg rest ih =>
    rw [List.map_cons, Ast.pathsOfAll, ih]
    rfl

omit [Unicode] in
theorem paths_switch : ∀ args : List (Checked N),
    Ast.pathsOfCases ((switchParts args).1.map fun pair => (pair.1.ast, pair.2.ast)) ++
      (match (switchParts args).2 with | some fallback => fallback.ast | none => Ast.undefined).paths = argumentPaths args
  | [] => rfl
  | [single] => (List.append_nil _).symm
  | pattern :: result :: rest => by
    have later := paths_switch rest
    show (pattern.ast.paths ++ result.ast.paths ++ Ast.pathsOfCases _) ++ _ = pattern.ast.paths ++ (result.ast.paths ++ argumentPaths rest)
    rw [← later]
    simp only [List.append_assoc]
    rfl

def UnitsLiteral (args : List (Checked N)) : Prop := ∀ arg ∈ args, (unitLiteral arg.syntaxNode).isSome = true → arg.ast.paths = []

theorem unit_named {name : Text} {args : List (Checked N)} {index : Nat} {fallback : Option DateUnit} {arg : Checked N}
    (found : args[index]? = some arg) (quiet : (checkUnit name args index fallback).errors = []) : (unitLiteral arg.syntaxNode).isSome = true := by
  unfold checkUnit at quiet
  rw [found] at quiet
  dsimp only at quiet
  cases named : unitLiteral arg.syntaxNode with
  | none =>
    rw [named] at quiet
    exact absurd (List.append_eq_nil_iff.mp quiet).1 (List.cons_ne_nil _ _)
  | some unit => rfl

/-- Functions of no arguments are lowered to what names no field. -/
def isConstant : Lowering → Bool
  | .blank | .boolean _ | .record _ _ => true
  | _ => false

omit [Unicode] in
theorem constants_alone : ∀ function ∈ formulaFunctions, isConstant function.lowering = true → function.maxArgs = some 0 := by decide

theorem lower_paths {name : Text} {args : List (Checked N)} {lowering : Lowering} (arity : Arity lowering args.length)
    (constants : isConstant lowering = true → args = []) (units : UnitsLiteral args)
    (quiet : (lower lowering (callContext name args)).errors = []) :
    (lower lowering (callContext name args)).value.2.paths = argumentPaths args := by
  cases lowering with
  | simple op argTypes returns => exact pathsOfAll_map args
  | variadic op argTypes returns => exact pathsOfAll_map args
  | group mode => exact pathsOfAll_map args
  | isError => exact pathsOfAll_map args
  | blank | boolean | record =>
    rw [constants rfl]
    rfl
  | conditional =>
    obtain ⟨least, most⟩ := arity
    rcases args with _ | ⟨condition, _ | ⟨first, _ | ⟨second, _ | ⟨third, rest⟩⟩⟩⟩
    · exact absurd least (by simp)
    · exact absurd least (by simp)
    · show condition.ast.paths ++ first.ast.paths ++ [] = condition.ast.paths ++ (first.ast.paths ++ [])
      rw [List.append_assoc]
    · show condition.ast.paths ++ first.ast.paths ++ second.ast.paths = condition.ast.paths ++ (first.ast.paths ++ (second.ast.paths ++ []))
      rw [List.append_nil, List.append_assoc]
    · exact absurd most (by simp)
  | switch =>
    rcases args with _ | ⟨subject, rest⟩
    · exact absurd arity (by simp [Arity])
    · have parts := paths_switch rest
      show subject.ast.paths ++ Ast.pathsOfCases _ ++ _ = subject.ast.paths ++ argumentPaths rest
      rw [← parts, List.append_assoc]
      rfl
  | dateAdd =>
    rcases args with _ | ⟨base, _ | ⟨count, _ | ⟨unit, _ | ⟨more, rest⟩⟩⟩⟩
    · exact absurd arity (by simp [Arity])
    · exact absurd arity (by simp [Arity])
    · exact absurd arity (by simp [Arity])
    · have named := unit_named rfl (List.append_eq_nil_iff.mp (List.append_eq_nil_iff.mp (List.append_eq_nil_iff.mp quiet).2).2).1
      have unread : unit.ast.paths = [] := units unit (by simp) named
      show base.ast.paths ++ count.ast.paths = base.ast.paths ++ (count.ast.paths ++ (unit.ast.paths ++ []))
      rw [unread]
      simp only [List.append_nil]
    · exact absurd arity (by simp [Arity])
  | dateDiff =>
    obtain ⟨least, most⟩ := arity
    rcases args with _ | ⟨left, _ | ⟨right, _ | ⟨unit, _ | ⟨more, rest⟩⟩⟩⟩
    · exact absurd least (by simp)
    · exact absurd least (by simp)
    · show left.ast.paths ++ right.ast.paths = left.ast.paths ++ (right.ast.paths ++ [])
      rw [List.append_nil]
    · have named := unit_named rfl (List.append_eq_nil_iff.mp (List.append_eq_nil_iff.mp (List.append_eq_nil_iff.mp quiet).2).2).1
      have unread : unit.ast.paths = [] := units unit (by simp) named
      show left.ast.paths ++ right.ast.paths = left.ast.paths ++ (right.ast.paths ++ (unit.ast.paths ++ []))
      rw [unread]
      simp only [List.append_nil]
    · exact absurd most (by simp)
  | datetimeFormat =>
    obtain ⟨least, most⟩ := arity
    rcases args with _ | ⟨date, _ | ⟨format, _ | ⟨more, rest⟩⟩⟩
    · exact absurd least (by simp)
    · rfl
    · show date.ast.paths ++ format.ast.paths = date.ast.paths ++ (format.ast.paths ++ [])
      rw [List.append_nil]
    · exact absurd most (by simp)
  | datePart op =>
    rcases args with _ | ⟨date, _ | ⟨more, rest⟩⟩
    · exact absurd arity (by simp [Arity])
    · rfl
    · exact absurd arity (by simp [Arity])

end Paths

section Nodes
variable {N : Type} [JsNumber N] [Unicode] {env : FormulaEnvironment}

def readPaths (references : List Reference) : List Text := references.map fun reference => fieldPath reference.field

def Reads (report : Report (Checked N)) : Prop := report.errors = [] → report.value.ast.paths = readPaths report.references

omit [JsNumber N] [Unicode] in
theorem designated_reads (node : SyntaxNode N) (display : Text) (designated : List FormulaField) :
    Reads (checkDesignated node display designated) ∧ (checkDesignated node display designated).value.syntaxNode = node := by
  unfold checkDesignated
  split
  next => exact ⟨fun quiet => absurd quiet (errors_bind (report_failed _ _ _ _) _), rfl⟩
  next field =>
    split
    next => exact ⟨fun quiet => absurd quiet (errors_bind (report_failed _ _ _ _) _), rfl⟩
    next => exact ⟨fun _ => rfl, rfl⟩
  next => exact ⟨fun quiet => absurd quiet (errors_bind (report_failed _ _ _ _) _), rfl⟩

omit [JsNumber N] in
theorem field_reads (node : SyntaxNode N) (name : Text) (braced : Bool) (relation : Option Relation) :
    Reads (checkField env node name braced relation) ∧ (checkField env node name braced relation).value.syntaxNode = node := by
  unfold checkField
  dsimp only
  split
  next => exact ⟨fun quiet => absurd quiet (errors_bind (report_failed _ _ _ _) _), rfl⟩
  next => exact designated_reads _ _ _
  next => exact designated_reads _ _ _

theorem check_syntaxNode (node : SyntaxNode N) : (check env node).value.syntaxNode = node := by
  cases node with
  | number | string | boolean => rfl
  | paren inner span =>
    rw [check]
    rfl
  | field name braced relation span =>
    rw [check]
    exact (field_reads _ name braced relation).2
  | unary operator operand span =>
    rw [check]
    cases operator with
    | plus => rfl
    | minus =>
      unfold checkUnary
      cases unwrap operand <;> rfl
  | binary operator operatorStart left right span =>
    rw [check]
    split
    next =>
      dsimp only
      split
      next => rfl
      next => rfl
    next => cases operator <;> rfl
  | call name nameEnd args span =>
    rw [check]
    split
    next => rfl
    next =>
      cases formulaFunction name with
      | none => rfl
      | some function =>
        show (checkKnownCall _ name function _).value.syntaxNode = _
        unfold checkKnownCall
        split
        next => rfl
        next => rfl

/-- A literal in any number of parentheses reads nothing. -/
def isLiteral (node : SyntaxNode N) : Bool :=
  match unwrap node with
  | .number _ _ | .string _ _ => true
  | _ => false

theorem literal_paths : ∀ node : SyntaxNode N, isLiteral node = true → (check env node).value.ast.paths = []
  | .number _ _, _ => rfl
  | .string _ _, _ => rfl
  | .boolean _ _, _ => rfl
  | .paren inner span, literal => by
    rw [check]
    exact literal_paths inner literal
  | .field _ _ _ _, never => by cases never
  | .unary _ _ _, never => by cases never
  | .binary _ _ _ _ _, never => by cases never
  | .call _ _ _ _, never => by cases never

omit [JsNumber N] [Unicode] in
theorem quiet_bind {α β : Type} {first : Report α} {next : α → Report β} (quiet : (first >>= next).errors = []) :
    first.errors = [] ∧ (next first.value).errors = [] := List.append_eq_nil_iff.mp quiet

omit [JsNumber N] [Unicode] in
theorem readPaths_append (first second : List Reference) : readPaths (first ++ second) = readPaths first ++ readPaths second :=
  List.map_append

omit [JsNumber N] [Unicode] in
theorem Reads.bind {first : Report (Checked N)} {next : Checked N → Report (Checked N)} (reads : Reads first)
    (silent : Silent (next first.value)) (keeps : (next first.value).value.ast.paths = first.value.ast.paths) : Reads (first >>= next) := by
  intro quiet
  show (next first.value).value.ast.paths = readPaths (first.references ++ (next first.value).references)
  rw [keeps, reads (quiet_bind quiet).1, show (next first.value).references = [] from silent, List.append_nil]

omit [JsNumber N] [Unicode] in
theorem silent_operand (checked : Checked N) (allowed : List FormulaType) (operator side hint : Text) :
    Silent (expectOperand checked allowed operator side hint) := by
  unfold expectOperand
  split
  next => rfl
  next => rfl
  next =>
    split
    next => rfl
    next => rfl

omit [Unicode] in
theorem silent_unary (node operandNode : SyntaxNode N) (operator : Sign) (operand : Checked N) :
    Silent (checkUnary node operator operandNode operand) := by
  refine (silent_operand _ _ _ _ _).bind fun _ => ?_
  cases operator with
  | plus => rfl
  | minus =>
    dsimp only
    split
    next => rfl
    next => rfl

omit [JsNumber N] [Unicode] in
theorem silent_side (operator : BinaryOperator) (side : Text) (checked : Checked N) : Silent (expectSide operator side checked) := by
  unfold expectSide expectOrdered
  split
  next =>
    split
    next => rfl
    next => rfl
  next => rfl

omit [JsNumber N] [Unicode] in
theorem silent_concatenable (checked : Checked N) (side : Text) : Silent (expectConcatenable checked side) := by
  unfold expectConcatenable
  split
  next => rfl
  next => rfl

omit [JsNumber N] [Unicode] in
theorem silent_binary (node : SyntaxNode N) (operator : BinaryOperator) (left right : Checked N) :
    Silent (checkBinary node operator left right) := by
  have comparison : ∀ operator, Silent (checkComparison node operator left right) := by
    intro operator
    refine (silent_side _ _ _).bind fun okLeft => (silent_side _ _ _).bind fun okRight => ?_
    dsimp only
    split
    next => exact (silent_report _ _ _ _).bind fun _ => silent_done _
    next => exact (silent_done ()).bind fun _ => silent_done _
  have arithmetic : ∀ op, Silent (checkArithmetic node operator op left right) := by
    intro op
    exact (silent_operand _ _ _ _ _).bind fun _ => (silent_operand _ _ _ _ _).bind fun _ => silent_done _
  have concat : Silent (checkConcat node left right) :=
    (silent_concatenable _ _).bind fun _ => (silent_concatenable _ _).bind fun _ => silent_done _
  cases operator
  case concat => exact concat
  case add | sub | mul | div => exact arithmetic _
  all_goals exact comparison _

omit [JsNumber N] [Unicode] in
theorem binary_paths (node : SyntaxNode N) (operator : BinaryOperator) (left right : Checked N) :
    (checkBinary node operator left right).value.ast.paths = left.ast.paths ++ right.ast.paths := by
  cases operator
  case concat | add | sub | mul | div =>
    show left.ast.paths ++ (right.ast.paths ++ []) = _
    rw [List.append_nil]
  all_goals rfl

theorem unary_paths {operandNode : SyntaxNode N} (node : SyntaxNode N) (operator : Sign) :
    (checkUnary node operator operandNode (check env operandNode).value).value.ast.paths = (check env operandNode).value.ast.paths := by
  cases operator with
  | plus => rfl
  | minus =>
    have literal : isLiteral operandNode = true → (check env operandNode).value.ast.paths = [] := literal_paths operandNode
    unfold isLiteral at literal
    unfold checkUnary
    cases isOperand : unwrap operandNode with
    | number value span =>
      rw [isOperand] at literal
      exact (literal rfl).symm
    | _ => exact List.append_nil _

/-- The arguments of a call are read one after the other, and those that are units are not read. -/
def ReadsAll (report : Report (List (Checked N))) : Prop :=
  report.errors = [] → argumentPaths report.value = readPaths report.references

theorem units_literal (args : List (SyntaxNode N)) : UnitsLiteral (checkAll env args).value := by
  induction args with
  | nil => exact fun arg member => absurd member List.not_mem_nil
  | cons node rest ih =>
    intro arg member named
    rw [checkAll] at member
    rcases List.mem_cons.mp member with rfl | later
    · refine literal_paths node ?_
      rw [check_syntaxNode] at named
      unfold unitLiteral at named
      unfold isLiteral
      split at named
      next isString => rw [isString]
      next => cases named
    · exact ih arg later named

omit [JsNumber N] in
theorem call_reads {node : SyntaxNode N} {name : Text} {function : FormulaFunction} {args : Report (List (Checked N))}
    (listed : function ∈ formulaFunctions) (units : UnitsLiteral args.value) (reads : ReadsAll args) :
    Reads (args >>= checkKnownCall node name function) := by
  intro quiet
  obtain ⟨argsQuiet, callQuiet⟩ := quiet_bind quiet
  show (checkKnownCall node name function args.value).value.ast.paths = readPaths (args.references ++ (checkKnownCall node name function args.value).references)
  unfold checkKnownCall at callQuiet ⊢
  split at callQuiet
  next takes =>
    have silent : (lower function.lowering (callContext name args.value)).references = [] := silent_lower _
    rw [if_pos takes]
    dsimp only
    rw [silent, List.append_nil, ← reads argsQuiet]
    refine lower_paths (arity_of_takesCount listed takes) (fun constant => ?_) units callQuiet
    have most : exceeds args.value.length function.maxArgs = false := by simpa using (Bool.and_eq_true_iff.mp takes).2
    rw [constants_alone function listed constant] at most
    exact List.length_eq_zero_iff.mp (by simpa [exceeds] using most)
  next => exact absurd callQuiet (errors_bind (report_failed _ _ _ _) _)

mutual
theorem check_reads (node : SyntaxNode N) : Reads (check env node) := by
  match node with
  | .number value span => exact fun _ => rfl
  | .string value span => exact fun _ => rfl
  | .boolean value span => exact fun _ => rfl
  | .paren inner span =>
    rw [check]
    exact (check_reads inner).bind (silent_done _) rfl
  | .field name braced relation span =>
    rw [check]
    exact (field_reads _ name braced relation).1
  | .unary operator operand span =>
    rw [check]
    exact (check_reads operand).bind (silent_unary _ _ _ _) (unary_paths _ operator)
  | .binary operator operatorStart left right span =>
    have first := check_reads left
    have second := check_reads right
    rw [check]
    split
    next =>
      dsimp only
      split
      next => exact first.bind (silent_done _) (List.append_nil _)
      next => exact second.bind (silent_done _) (List.append_nil _)
    next =>
      intro quiet
      obtain ⟨leftQuiet, later⟩ := quiet_bind quiet
      have silent : (checkBinary (.binary operator operatorStart left right span) operator (check env left).value (check env right).value).references = [] :=
        silent_binary _ _ _ _
      show (checkBinary _ operator (check env left).value (check env right).value).value.ast.paths =
        readPaths ((check env left).references ++ ((check env right).references ++ (checkBinary _ operator _ _).references))
      rw [silent, List.append_nil, readPaths_append, ← first leftQuiet, ← second (quiet_bind later).1]
      exact binary_paths _ operator _ _
  | .call name nameEnd args span =>
    have reads := checkAll_reads args
    rw [check]
    split
    next => exact fun quiet => absurd quiet (errors_bind (report_failed _ _ _ _) _)
    next =>
      cases found : formulaFunction name with
      | none => exact fun quiet => absurd quiet (errors_bind (report_failed _ _ _ _) _)
      | some function => exact call_reads (List.mem_of_find?_eq_some found) (units_literal args) reads

theorem checkAll_reads (args : List (SyntaxNode N)) : ReadsAll (checkAll env args) := by
  match args with
  | [] => exact fun _ => rfl
  | node :: rest =>
    have first := check_reads node
    have others := checkAll_reads rest
    intro quiet
    rw [checkAll] at quiet ⊢
    obtain ⟨nodeQuiet, later⟩ := quiet_bind quiet
    show (check env node).value.ast.paths ++ argumentPaths (checkAll env rest).value =
      readPaths ((check env node).references ++ ((checkAll env rest).references ++ []))
    rw [List.append_nil, readPaths_append, first nodeQuiet, others (quiet_bind later).1]
end

end Nodes

section Within
variable {N α β : Type}

def Within (env : FormulaEnvironment) (report : Report α) : Prop := ∀ reference ∈ report.references, reference.field ∈ env

variable {env : FormulaEnvironment}

theorem Within.bind {first : Report α} {next : α → Report β} (within : Within env first) (later : Within env (next first.value)) :
    Within env (first >>= next) := by
  intro reference member
  rcases List.mem_append.mp member with before | after
  · exact within reference before
  · exact later reference after

theorem Silent.within {report : Report α} (silent : Silent report) : Within env report := by
  intro reference member
  rw [show report.references = [] from silent] at member
  exact absurd member List.not_mem_nil

theorem within_designated (node : SyntaxNode N) (display : Text) {designated : List FormulaField} (inside : ∀ field ∈ designated, field ∈ env) :
    Within env (checkDesignated node display designated) := by
  unfold checkDesignated
  split
  next => exact Silent.within rfl
  next field =>
    split
    next => exact Silent.within rfl
    next =>
      intro reference member
      rw [List.mem_singleton.mp member]
      exact inside field (List.mem_singleton_self field)
  next => exact Silent.within rfl

theorem mem_resolve [Unicode] {fields : List FormulaField} {name : Text} {braced : Bool} {field : FormulaField}
    (member : field ∈ resolve fields name braced) : field ∈ fields := by
  have either : ∀ {first second loose : List FormulaField}, field ∈ (if first ≠ [] then first else if second ≠ [] then second else loose) →
      field ∈ first ∨ field ∈ second ∨ field ∈ loose := by
    intro first second loose inside
    split at inside
    next => exact .inl inside
    next =>
      split at inside
      next => exact .inr (.inl inside)
      next => exact .inr (.inr inside)
  unfold resolve at member
  rcases either member with inside | inside | inside
  · cases braced with
    | true => exact List.mem_of_mem_filter inside
    | false => exact List.mem_of_mem_filter inside
  · cases braced with
    | true => exact List.mem_of_mem_filter inside
    | false => exact List.mem_of_mem_filter inside
  · exact List.mem_of_mem_filter inside

variable [JsNumber N] [Unicode]

mutual
theorem check_within (node : SyntaxNode N) : Within env (check env node) := by
  match node with
  | .number value span => exact Silent.within rfl
  | .string value span => exact Silent.within rfl
  | .boolean value span => exact Silent.within rfl
  | .paren inner span =>
    rw [check]
    exact (check_within inner).bind (Silent.within rfl)
  | .field name braced relation span =>
    rw [check]
    unfold checkField
    dsimp only
    split
    next => exact Silent.within rfl
    next => exact within_designated _ _ fun field member => List.mem_of_mem_filter (mem_resolve member)
    next => exact within_designated _ _ fun field member => List.mem_of_mem_filter (mem_resolve member)
  | .unary operator operand span =>
    rw [check]
    exact (check_within operand).bind (silent_unary _ _ _ _).within
  | .binary operator operatorStart left right span =>
    have first := check_within left
    have second := check_within right
    rw [check]
    split
    next =>
      dsimp only
      split
      next => exact first.bind (Silent.within rfl)
      next => exact second.bind (Silent.within rfl)
    next => exact first.bind (second.bind (silent_binary _ _ _ _).within)
  | .call name nameEnd args span =>
    have within := checkAll_within args
    rw [check]
    split
    next => exact (silent_report _ _ _ _).within.bind (within.bind (Silent.within rfl))
    next =>
      cases formulaFunction name with
      | none => exact (silent_report _ _ _ _).within.bind (within.bind (Silent.within rfl))
      | some function =>
        refine within.bind (Silent.within ?_)
        unfold checkKnownCall
        split
        next => exact silent_lower _
        next => rfl

theorem checkAll_within (args : List (SyntaxNode N)) : Within env (checkAll env args) := by
  match args with
  | [] => exact Silent.within rfl
  | node :: rest =>
    rw [checkAll]
    exact (check_within node).bind ((checkAll_within rest).bind (Silent.within rfl))
end

end Within

section Refs

def Undotted (field : FormulaField) : Prop := unit '.' ∉ field.id ∧ ∀ name, field.scope = .relation name → unit '.' ∉ name

theorem refOfPath_fieldPath {field : FormulaField} (undotted : Undotted field) : refOfPath (fieldPath field) = ⟨field.id, field.scope⟩ := by
  unfold fieldPath
  cases inScope : field.scope with
  | self =>
    have absent : field.id.idxOf? (unit '.') = none := List.idxOf?_eq_none_iff.mpr undotted.1
    unfold refOfPath pathOf
    rw [absent]
  | relation name =>
    have dotless := undotted.2 name inScope
    have first : (name ++ (unit '.' :: field.id)).idxOf? (unit '.') = some name.length := by
      refine List.idxOf?_eq_some_iff.mpr ⟨by simp, by simp, fun index before dot => dotless ?_⟩
      rw [List.getElem_append_left before] at dot
      exact dot ▸ List.getElem_mem before
    have dotted : pathOf field.id (.relation name) = name ++ (unit '.' :: field.id) := List.append_assoc name (js ".") field.id
    unfold refOfPath
    rw [dotted, first]
    dsimp only
    rw [List.take_left, ← List.drop_drop, List.drop_left]
    rfl

theorem foldl_dependencies (references : List Reference) (named : ∀ reference ∈ references, Undotted reference.field) :
    ∀ (seen : List Text) (found : List FormulaFieldRef),
      (references.foldl (fun (seen, found) reference =>
        if fieldPath reference.field ∈ seen then (seen, found)
        else (seen ++ [fieldPath reference.field], found ++ [⟨reference.field.id, reference.field.scope⟩])) (seen, found)).2 =
      found ++ ((distinct (readPaths references)).filter (· ∉ seen)).map refOfPath := by
  induction references with
  | nil => exact fun seen found => (List.append_nil found).symm
  | cons reference rest ih =>
    intro seen found
    have others := ih fun other member => named other (List.mem_cons_of_mem _ member)
    have unfolded : distinct (readPaths (reference :: rest)) =
        fieldPath reference.field :: (distinct (readPaths rest)).filter (· ≠ fieldPath reference.field) := rfl
    rw [List.foldl_cons, unfolded]
    dsimp only
    split
    next before =>
      rw [others, List.filter_cons_of_neg (by simpa using before), List.filter_filter]
      congr 2
      refine List.filter_congr fun path _ => ?_
      by_cases same : path = fieldPath reference.field
      · simp [same, before]
      · simp [same]
    next fresh =>
      rw [others, List.filter_cons_of_pos (by simpa using fresh), List.map_cons, refOfPath_fieldPath (named reference List.mem_cons_self),
        List.append_assoc, List.filter_filter, List.singleton_append]
      congr 3
      refine List.filter_congr fun path _ => ?_
      by_cases same : path = fieldPath reference.field
      · simp [same]
      · simp [same]

theorem checkedDependencies_eq {references : List Reference} (named : ∀ reference ∈ references, Undotted reference.field) :
    checkedDependencies references = (distinct (readPaths references)).map refOfPath := by
  unfold checkedDependencies
  rw [foldl_dependencies references named [] []]
  simp

end Refs

section Analysis
variable {N : Type} [JsNumber N] [Unicode] {env : FormulaEnvironment}

theorem checkFormula_some {node : SyntaxNode N} {options : CheckOptions} {ast : Ast N} (accepted : (checkFormula node env options).ast = some ast) :
    (check env node).errors = [] ∧ ast = (check env node).value.ast ∧
      (checkFormula node env options).dependencies = checkedDependencies (check env node).references := by
  unfold checkFormula at accepted ⊢
  dsimp only at accepted ⊢
  split at accepted
  next type none_reported typed =>
    have quiet := (List.append_eq_nil_iff.mp (List.append_eq_nil_iff.mp (List.append_eq_nil_iff.mp none_reported).1).1).1
    exact ⟨quiet, (Option.some.inj accepted).symm, rfl⟩
  next => cases accepted

/-- Reading the fields off the lowered formula gives the list that the checker has collected: the same
fields in the same scopes, each once, in the same order. -/
theorem readers_agree (env : FormulaEnvironment) (undotted : ∀ field ∈ env, Undotted field) (text : Text) (options : CheckOptions)
    (ast : Ast N) (accepted : (analyze text env options).ast = some ast) : dependencies ast = (analyze text env options : CheckResult N).dependencies := by
  unfold analyze at accepted ⊢
  split at accepted
  next node parsed =>
    obtain ⟨quiet, isAst, collected⟩ := checkFormula_some accepted
    have named : ∀ reference ∈ (check env node).references, Undotted reference.field :=
      fun reference member => undotted _ (check_within node reference member)
    calc dependencies ast
      _ = (distinct (check env node).value.ast.paths).map refOfPath := by rw [isAst]; rfl
      _ = (distinct (readPaths (check env node).references)).map refOfPath := by rw [check_reads node quiet]
      _ = checkedDependencies (check env node).references := (checkedDependencies_eq named).symm
      _ = (checkFormula node env options).dependencies := collected.symm
  next => cases accepted
  next => cases accepted

end Analysis

section LeftOver

def amount (id label : Text) (scope : FormulaFieldScope) : FormulaField where
  id := id
  label := label
  key := id
  type := .formula .number
  scope := scope
  classified := false
  outOfScope := none
  kind := .stored
  depth := none
  dependencies := []

def amounts : FormulaEnvironment := [amount (js "gross") (js "Gross") .self, amount (js "net") (js "Net") (.relation (js "line"))]

def leftOver : Text := js "line.net + gross - line.net"

/-- Each field is read once, the amount of the line first. -/
theorem readers_agree_leftOver : ∃ ast, (@analyze Whole _ asciiTables leftOver amounts ⟨none, none⟩).ast = some ast ∧
    dependencies ast = [⟨js "net", .relation (js "line")⟩, ⟨js "gross", .self⟩] := by
  have accepted : (@analyze Whole _ asciiTables leftOver amounts ⟨none, none⟩).ast.isSome = true := by decide +kernel
  have undotted : ∀ field ∈ amounts, Undotted field := by
    intro field member
    rcases List.mem_pair.mp member with rfl | rfl
    · exact ⟨by decide, fun name inRelation => by cases inRelation⟩
    · exact ⟨by decide, fun name inRelation => by cases inRelation; decide⟩
  obtain ⟨ast, isAst⟩ := Option.isSome_iff_exists.mp accepted
  have agree := @readers_agree Whole _ asciiTables amounts undotted leftOver ⟨none, none⟩ ast isAst
  exact ⟨ast, isAst, agree.trans (by decide +kernel)⟩

end LeftOver

end OpenShapeForge.Formula.ReadersAgree
